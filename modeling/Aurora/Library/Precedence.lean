import Mathlib.Data.Set.BooleanAlgebra
import Mathlib.Logic.Relation
import Mathlib.Order.CompletePartialOrder
import Mathlib.Order.WellFounded

namespace Precedence

variable {α : Type} {Needs : α → α → Prop} {failed : Set α}

def Blocked (Needs : α → α → Prop) (failed : Set α) (item : α) : Prop :=
  ∃ cause ∈ failed, Relation.TransGen Needs item cause

theorem Blocked.of_need {item need : α} (edge : Needs item need) (blocked : need ∈ failed ∨ Blocked Needs failed need) :
    Blocked Needs failed item := by
  rcases blocked with failure | ⟨cause, failure, path⟩
  · exact ⟨need, failure, .single edge⟩
  · exact ⟨cause, failure, .head edge path⟩

/-- When everything pending still waits for something, the waiting goes back to a failure: there is
    no cycle to go round. -/
theorem blocked_of_stuck (done pending : Set α) (ranked : WellFounded (fun need item => Needs item need))
    (covered : ∀ item ∈ pending, ∀ need, Needs item need → need ∈ done ∨ need ∈ failed ∨ need ∈ pending)
    (stuck : ∀ item ∈ pending, ∃ need, Needs item need ∧ need ∉ done) {item : α} (member : item ∈ pending) :
    Blocked Needs failed item := by
  induction item using ranked.induction with
  | _ item ih =>
    obtain ⟨need, edge, unmet⟩ := stuck item member
    rcases covered item member need edge with met | failure | waiting
    · exact absurd met unmet
    · exact Blocked.of_need edge (.inl failure)
    · exact Blocked.of_need edge (.inr (ih need edge waiting))

/-- Something that waits for a failure keeps an unmet need for as long as only items whose needs are
    met get done. -/
theorem Blocked.unmet (done : Set α) (closed : ∀ item ∈ done, ∀ need, Needs item need → need ∈ done)
    (apart : Disjoint done failed) {item : α} (blocked : Blocked Needs failed item) :
    ∃ need, Needs item need ∧ need ∉ done := by
  obtain ⟨cause, failure, path⟩ := blocked
  induction path using Relation.TransGen.head_induction_on with
  | single edge => exact ⟨cause, edge, fun met => Set.disjoint_left.mp apart met failure⟩
  | head edge rest ih =>
    obtain ⟨need, further, unmet⟩ := ih
    exact ⟨_, edge, fun met => unmet (closed _ met need further)⟩

theorem wellFounded_of_rank {Needs : α → α → Prop} (rank : α → Nat)
    (lower : ∀ item need, Needs item need → rank need < rank item) :
    WellFounded (fun need item => Needs item need) :=
  Subrelation.wf (fun edge => lower _ _ edge) (measure rank).wf

/-- Every item of the list comes after all that it needs. -/
def Ordered (Needs : α → α → Prop) (items : List α) : Prop :=
  ∀ before item after, items = before ++ item :: after → ∀ need, Needs item need → need ∈ before

section Ordered

variable {Needs : α → α → Prop} {items front : List α}

theorem Ordered.append (free : ∀ item ∈ front, ∀ need, ¬ Needs item need)
    (ordered : Ordered (fun item need => Needs item need ∧ need ∉ front) items) : Ordered Needs (front ++ items) := by
  intro before item after split need edge
  rcases List.append_eq_append_iff.mp split with ⟨middle, rfl, rest⟩ | ⟨middle, rfl, rest⟩
  · by_cases early : need ∈ front
    · exact List.mem_append_left _ early
    · exact List.mem_append_right _ (ordered middle item after rest need ⟨edge, early⟩)
  · cases middle with
    | nil =>
      by_cases early : need ∈ before
      · exact early
      · have late : need ∉ before ++ [] := by simpa using early
        have none := ordered [] item after rest.symm need ⟨edge, late⟩
        exact absurd none List.not_mem_nil
    | cons first middle =>
      obtain ⟨rfl, -⟩ := List.cons.inj rest
      exact absurd edge (free item (by simp) need)

theorem Ordered.filter (ordered : Ordered Needs items) (keep : α → Bool) :
    Ordered (fun item need => Needs item need ∧ keep need = true) (items.filter keep) := by
  intro before item after split need edge
  obtain ⟨left, right, rfl, rfl, rest⟩ := List.filter_eq_append_iff.mp split
  obtain ⟨skipped, after', rfl, none, _, _⟩ := List.filter_eq_cons_iff.mp rest
  have placed := ordered (left ++ skipped) item after' (by simp) need edge.1
  rcases List.mem_append.mp placed with early | late
  · exact List.mem_filter.mpr ⟨early, edge.2⟩
  · exact absurd edge.2 (none need late)

theorem Ordered.head {first : α} (ordered : Ordered Needs (first :: items)) (need : α) : ¬ Needs first need :=
  fun edge => List.not_mem_nil (ordered [] first items rfl need edge)

theorem Ordered.mem {item need : α} (ordered : Ordered Needs items) (known : item ∈ items) (edge : Needs item need) :
    need ∈ items := by
  obtain ⟨before, after, rfl⟩ := List.append_of_mem known
  exact List.mem_append_left _ (ordered before item after rfl need edge)

variable [DecidableEq α]

theorem Ordered.idxOf_lt {item need : α} (ordered : Ordered Needs items) (known : item ∈ items) (edge : Needs item need) :
    items.idxOf need < items.idxOf item := by
  obtain ⟨before, after, rfl, fresh⟩ := List.eq_append_cons_of_mem known
  have placed := ordered before item after rfl need edge
  have inside := List.idxOf_lt_length_of_mem placed
  rw [List.idxOf_append, List.idxOf_append, if_pos placed, if_neg fresh]
  omega

theorem Ordered.no_cycle (ordered : Ordered Needs items) (item : α) :
    ¬ Relation.TransGen (fun item need => item ∈ items ∧ Needs item need) item item := by
  intro cycle
  have less : ∀ need, Relation.TransGen (fun item need => item ∈ items ∧ Needs item need) item need →
      items.idxOf need < items.idxOf item := by
    intro need path
    induction path with
    | single edge => exact ordered.idxOf_lt edge.1 edge.2
    | tail _ edge ih => exact (ordered.idxOf_lt edge.1 edge.2).trans ih
  exact Nat.lt_irrefl _ (less item cycle)

end Ordered

end Precedence
