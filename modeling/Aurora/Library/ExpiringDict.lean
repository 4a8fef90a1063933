import Aurora.Library.Dict
import Mathlib.Algebra.Order.Group.Defs

namespace Collections

/-- A dictionary whose entries are good for a while after they were set; it may also drop entries by itself. -/
structure ExpiringDict (κ ν τ : Type) where
  entries : Dict κ (ν × τ)

namespace ExpiringDict

variable {κ ν τ : Type} [DecidableEq κ]

def empty : ExpiringDict κ ν τ := ⟨.empty⟩

def set (d : ExpiringDict κ ν τ) (now : τ) (key : κ) (value : ν) : ExpiringDict κ ν τ :=
  ⟨d.entries.set key (value, now)⟩

def drop (d : ExpiringDict κ ν τ) (key : κ) : ExpiringDict κ ν τ := ⟨d.entries.erase key⟩

section Lookup

variable [Sub τ]

def get? (d : ExpiringDict κ ν τ) (young : τ → Bool) (now : τ) (key : κ) : Option ν :=
  (d.entries.get? key).bind fun entry => if young (now - entry.2) then some entry.1 else none

theorem get?_eq_some {d : ExpiringDict κ ν τ} {young : τ → Bool} {now : τ} {key : κ} {value : ν} :
    d.get? young now key = some value ↔
      ∃ stamp, d.entries.get? key = some (value, stamp) ∧ young (now - stamp) = true := by
  unfold get?
  constructor
  · intro found
    obtain ⟨⟨other, stamp⟩, stored, live⟩ := Option.bind_eq_some_iff.mp found
    split at live
    · rename_i passed
      cases live
      exact ⟨stamp, stored, passed⟩
    · cases live
  · rintro ⟨stamp, stored, passed⟩
    simp [stored, passed]

end Lookup

section Live

variable [AddGroup τ] [LinearOrder τ] [AddRightMono τ]

/-- What is known of each entry of a good age, from the time at which it was set. -/
def Live (Good : τ → Prop) (Known : κ → ν → τ → Prop) (d : ExpiringDict κ ν τ) (now : τ) : Prop :=
  ∀ key value stamp, d.entries.get? key = some (value, stamp) → Good (now - stamp) → Known key value stamp

variable {Good : τ → Prop} {Known Other : κ → ν → τ → Prop} {d : ExpiringDict κ ν τ} {now future : τ} {key : κ}
  {value : ν}

omit [LinearOrder τ] [AddRightMono τ] in
theorem Live.empty : Live Good Known (empty : ExpiringDict κ ν τ) now := by
  rintro key value stamp ⟨⟩

omit [LinearOrder τ] [AddRightMono τ] in
theorem Live.get? {young : τ → Bool} (live : Live Good Known d now) (good : ∀ age, young age = true → Good age)
    (found : d.get? young now key = some value) : ∃ stamp, Good (now - stamp) ∧ Known key value stamp := by
  obtain ⟨stamp, stored, passed⟩ := get?_eq_some.mp found
  exact ⟨stamp, good _ passed, live key value stamp stored (good _ passed)⟩

omit [LinearOrder τ] [AddRightMono τ] in
theorem Live.weaken (live : Live Good Known d now)
    (weaker : ∀ key value stamp, Known key value stamp → Other key value stamp) : Live Good Other d now :=
  fun key value stamp stored good => weaker key value stamp (live key value stamp stored good)

/-- Time only takes entries away. -/
theorem Live.later (live : Live Good Known d now) (younger : ∀ age older, age ≤ older → Good older → Good age)
    (forward : now ≤ future) : Live Good Known d future :=
  fun key value stamp stored good =>
    live key value stamp stored (younger _ _ (sub_le_sub_right forward stamp) good)

omit [LinearOrder τ] [AddRightMono τ] in
theorem Live.set (live : ∀ other value stamp, other ≠ key → d.entries.get? other = some (value, stamp) →
    Good (now - stamp) → Known other value stamp) (known : Known key value now) :
    Live Good Known (d.set now key value) now := by
  intro other found stamp stored good
  rw [ExpiringDict.set, Dict.get?_set] at stored
  split at stored
  · rename_i same
    subst same
    cases stored
    exact known
  · rename_i different
    exact live other found stamp different stored good

omit [LinearOrder τ] [AddRightMono τ] in
theorem Live.drop (live : Live Good Known d now) (key : κ) : Live Good Known (d.drop key) now := by
  intro other found stamp stored good
  rw [ExpiringDict.drop, Dict.get?_erase] at stored
  split at stored
  · cases stored
  · exact live other found stamp stored good

end Live

end ExpiringDict

end Collections
