import Mathlib.Data.List.Induction

/-! What has happened in a history since the last event of some kind. -/

namespace History

variable {ε : Type} {hit seen clear : ε → Prop} {events : List ε} {event : ε}

def Since (hit clear : ε → Prop) (events : List ε) : Prop :=
  ∃ before event after, events = before ++ event :: after ∧ hit event ∧ ∀ later ∈ after, ¬ clear later

def First (hit seen clear : ε → Prop) (events : List ε) : Prop :=
  ∃ before event after, events = before ++ event :: after ∧ hit event ∧ (∀ later ∈ after, ¬ clear later) ∧
    ¬ Since seen clear before

theorem since_nil : ¬ Since hit clear [] := by
  rintro ⟨before, event, after, split, -⟩
  simp at split

theorem first_nil : ¬ First hit seen clear [] := by
  rintro ⟨before, event, after, split, -⟩
  simp at split

theorem first_concat : First hit seen clear (events ++ [event]) ↔
    hit event ∧ ¬ Since seen clear events ∨ First hit seen clear events ∧ ¬ clear event := by
  constructor
  · rintro ⟨before, first, after, split, hits, quiet, fresh⟩
    rcases List.eq_nil_or_concat after with rfl | ⟨after, last, rfl⟩
    · obtain ⟨rfl, rfl⟩ : events = before ∧ event = first := by simpa using split
      exact .inl ⟨hits, fresh⟩
    · have regrouped : events ++ [event] = (before ++ first :: after) ++ [last] := by simpa using split
      obtain ⟨rfl, same⟩ := List.append_inj' regrouped rfl
      obtain rfl : event = last := by simpa using same
      refine .inr ⟨⟨before, first, after, rfl, hits, fun later mem => quiet later ?_, fresh⟩, quiet event ?_⟩ <;> simp [*]
  · rintro (⟨hits, fresh⟩ | ⟨⟨before, first, after, rfl, hits, quiet, fresh⟩, kept⟩)
    · exact ⟨events, event, [], rfl, hits, by simp, fresh⟩
    · refine ⟨before, first, after ++ [event], by simp, hits, ?_, fresh⟩
      simpa [or_imp, forall_and] using ⟨quiet, kept⟩

theorem not_since_false : ¬ Since (fun _ => False) clear events := by
  rintro ⟨_, _, _, -, hits, -⟩
  exact hits

theorem since_iff_first : Since hit clear events ↔ First hit (fun _ => False) clear events := by
  constructor
  · rintro ⟨before, event, after, split, hits, quiet⟩
    exact ⟨before, event, after, split, hits, quiet, not_since_false⟩
  · rintro ⟨before, event, after, split, hits, quiet, -⟩
    exact ⟨before, event, after, split, hits, quiet⟩

theorem since_concat : Since hit clear (events ++ [event]) ↔ hit event ∨ Since hit clear events ∧ ¬ clear event := by
  rw [since_iff_first, first_concat, ← since_iff_first, and_iff_left not_since_false]

theorem since_iff_exists_first {α : Type} {hits : α → ε → Prop} (apart : ∀ value event, hits value event → ¬ clear event) :
    Since (fun event => ∃ value, hits value event) clear events ↔
      ∃ value, First (hits value) (fun event => ∃ value, hits value event) clear events := by
  induction events using List.reverseRecOn with
  | nil => simp [since_nil, first_nil]
  | append_singleton events event ih =>
    simp only [since_concat, first_concat]
    constructor
    · rintro (⟨value, hit⟩ | ⟨since, kept⟩)
      · by_cases since : Since (fun event => ∃ value, hits value event) clear events
        · obtain ⟨first, known⟩ := ih.mp since
          exact ⟨first, .inr ⟨known, apart value event hit⟩⟩
        · exact ⟨value, .inl ⟨hit, since⟩⟩
      · obtain ⟨first, known⟩ := ih.mp since
        exact ⟨first, .inr ⟨known, kept⟩⟩
    · rintro ⟨value, ⟨hit, -⟩ | ⟨known, kept⟩⟩
      · exact .inl ⟨value, hit⟩
      · exact .inr ⟨ih.mpr ⟨value, known⟩, kept⟩

end History
