import Mathlib.Order.Basic

/-! How long a property of a sequence has held without a gap. -/

namespace Streak

variable (good : Nat → Bool)

def streak : Nat → Nat
  | 0 => 0
  | position + 1 => if good position then streak position + 1 else 0

/-- The entries right before a position, as many as the length, are all good. -/
def EndsRun (length position : Nat) : Prop :=
  length ≤ position ∧ ∀ i, position - length ≤ i → i < position → good i = true

variable {good}

theorem streak_good {position : Nat} (h : good position = true) :
    streak good (position + 1) = streak good position + 1 :=
  if_pos h

theorem streak_bad {position : Nat} (h : good position = false) : streak good (position + 1) = 0 :=
  if_neg (by simp [h])

theorem endsRun_succ {length position : Nat} :
    EndsRun good (length + 1) (position + 1) ↔ good position = true ∧ EndsRun good length position := by
  constructor
  · rintro ⟨fits, all⟩
    exact ⟨all position (by omega) (by omega), by omega, fun i from_start before => all i (by omega) (by omega)⟩
  · rintro ⟨last, fits, all⟩
    refine ⟨by omega, fun i from_start before => ?_⟩
    rcases Nat.lt_succ_iff_lt_or_eq.mp before with earlier | rfl
    · exact all i (by omega) earlier
    · exact last

theorem le_streak {length position : Nat} : length ≤ streak good position ↔ EndsRun good length position := by
  induction position generalizing length with
  | zero =>
    simp only [streak, EndsRun, Nat.le_zero_eq]
    exact ⟨fun h => ⟨h, fun i _ before => absurd before (Nat.not_lt_zero i)⟩, fun h => h.1⟩
  | succ position ih =>
    cases length with
    | zero => exact ⟨fun _ => ⟨Nat.zero_le _, fun i late before => absurd before (by omega)⟩, fun _ => Nat.zero_le _⟩
    | succ length =>
      rw [endsRun_succ, ← ih]
      cases last : good position with
      | true => simp [streak_good last]
      | false => simp [streak_bad last]

theorem streak_eq_zero {position : Nat} (bad : ∀ i < position, good i = false) : streak good position = 0 := by
  cases position with
  | zero => rfl
  | succ position => exact streak_bad (bad position (Nat.lt_succ_self position))

end Streak
