import Mathlib.Data.Nat.Basic

/-! Search by halves among positions, where a comparison can fail. -/

namespace Bisect

variable {ε : Type} {below : Nat → Except ε Bool} {fuel lo hi place : Nat} {e : ε}

/-- The loop from `lo` to `hi`; the fuel is at least the number of positions that are left. -/
def narrow (below : Nat → Except ε Bool) : Nat → Nat → Nat → Except ε Nat
  | 0, lo, _ => pure lo
  | fuel + 1, lo, hi =>
    if lo < hi then do
      let mid := (lo + hi) / 2
      if ← below mid then narrow below fuel (mid + 1) hi else narrow below fuel lo mid
    else pure lo

def bisectLeft (below : Nat → Except ε Bool) (length : Nat) : Except ε Nat := narrow below length 0 length

/-- The three ways of one round: the comparison fails, goes on to the right or goes on to the left. -/
theorem narrow_succ (open_ : lo < hi) :
    narrow below (fuel + 1) lo hi =
      match below ((lo + hi) / 2) with
      | .error e => .error e
      | .ok true => narrow below fuel ((lo + hi) / 2 + 1) hi
      | .ok false => narrow below fuel lo ((lo + hi) / 2) := by
  simp only [narrow, open_, if_true]
  rcases below ((lo + hi) / 2) with e | _ | _ <;> rfl

theorem narrow_closed (closed : ¬ lo < hi) : narrow below fuel lo hi = .ok lo := by
  cases fuel with
  | zero => rfl
  | succ fuel =>
    simp only [narrow, closed, if_false]
    rfl

/-- What the search finds is bounded on both sides by comparisons that it made. -/
theorem narrow_ok (enough : hi - lo ≤ fuel) (ordered : lo ≤ hi) (found : narrow below fuel lo hi = .ok place) :
    lo ≤ place ∧ place ≤ hi ∧ (lo < place → below (place - 1) = .ok true) ∧ (place < hi → below place = .ok false) := by
  induction fuel generalizing lo hi with
  | zero =>
    cases found
    omega
  | succ fuel ih =>
    by_cases open_ : lo < hi
    · rw [narrow_succ open_] at found
      cases probe : below ((lo + hi) / 2) with
      | error e => simp [probe] at found
      | ok answer =>
        rw [probe] at found
        cases answer with
        | true =>
          obtain ⟨least, most, left, right⟩ := ih (by omega) (by omega) found
          refine ⟨by omega, most, fun _ => ?_, right⟩
          rcases Nat.eq_or_lt_of_le least with rfl | later
          · exact probe
          · exact left later
        | false =>
          obtain ⟨least, most, left, right⟩ := ih (by omega) (by omega) found
          refine ⟨least, by omega, left, fun _ => ?_⟩
          rcases Nat.eq_or_lt_of_le most with rfl | earlier
          · exact probe
          · exact right earlier
    · rw [narrow_closed open_] at found
      cases found
      omega

theorem narrow_error (failed : narrow below fuel lo hi = .error e) :
    ∃ place, lo ≤ place ∧ place < hi ∧ below place = .error e := by
  induction fuel generalizing lo hi with
  | zero => cases failed
  | succ fuel ih =>
    by_cases open_ : lo < hi
    · rw [narrow_succ open_] at failed
      cases probe : below ((lo + hi) / 2) with
      | error e' =>
        rw [probe] at failed
        cases failed
        exact ⟨(lo + hi) / 2, by omega, by omega, probe⟩
      | ok answer =>
        rw [probe] at failed
        cases answer with
        | true =>
          obtain ⟨place, least, most, fails⟩ := ih failed
          exact ⟨place, by omega, most, fails⟩
        | false =>
          obtain ⟨place, least, most, fails⟩ := ih failed
          exact ⟨place, least, by omega, fails⟩
    · rw [narrow_closed open_] at failed
      cases failed

variable {length : Nat}

/-- Over positions where those below come first, the search finds where they end. -/
theorem bisectLeft_ok (down : ∀ i j, i ≤ j → j < length → below j = .ok true → below i = .ok true)
    (up : ∀ i j, i ≤ j → j < length → below i = .ok false → below j = .ok false)
    (found : bisectLeft below length = .ok place) :
    place ≤ length ∧ (∀ i < place, below i = .ok true) ∧ ∀ i, place ≤ i → i < length → below i = .ok false := by
  obtain ⟨-, most, left, right⟩ := narrow_ok (by omega) (by omega) found
  refine ⟨most, fun i before => ?_, fun i after inside => ?_⟩
  · exact down i (place - 1) (by omega) (by omega) (left (by omega))
  · exact up place i after inside (right (by omega))

theorem bisectLeft_error (failed : bisectLeft below length = .error e) : ∃ place < length, below place = .error e := by
  obtain ⟨place, -, most, fails⟩ := narrow_error failed
  exact ⟨place, most, fails⟩

end Bisect
