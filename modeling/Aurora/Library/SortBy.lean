import Mathlib.Data.List.Lex
import Mathlib.Data.List.Sort

namespace SortBy

variable {α β κ : Type} [LinearOrder κ]

def sortBy (key : α → κ) (items : List α) : List α :=
  items.insertionSort fun first second => key first ≤ key second

theorem perm_sortBy (key : α → κ) (items : List α) : (sortBy key items).Perm items :=
  List.perm_insertionSort _ items

theorem mem_sortBy {key : α → κ} {items : List α} {item : α} : item ∈ sortBy key items ↔ item ∈ items :=
  (perm_sortBy key items).mem_iff

theorem sortBy_map (key : β → κ) (f : α → β) (items : List α) :
    sortBy key (items.map f) = (sortBy (key ∘ f) items).map f := by
  unfold sortBy
  exact (List.map_insertionSort _ _ f items fun _ _ _ _ => Iff.rfl).symm

theorem map_sortBy (key : α → κ) (items : List α) : (sortBy key items).map key = sortBy id (items.map key) := by
  rw [sortBy_map]
  rfl

theorem sorted_sortBy (key : α → κ) (items : List α) :
    (sortBy key items).Pairwise (fun first second => key first ≤ key second) := by
  have sorted : ((sortBy key items).map key).Pairwise (· ≤ ·) := by
    rw [map_sortBy]
    exact List.pairwise_insertionSort _ _
  exact List.pairwise_map.mp sorted

/-- Items with keys of their own come out in one order, whatever order they went in. -/
theorem sortBy_perm {key : α → κ} {first second : List α} (perm : first.Perm second)
    (distinct : (first.map key).Nodup) : sortBy key first = sortBy key second := by
  have moved : (sortBy key first).Perm (sortBy key second) :=
    (perm_sortBy key first).trans (perm.trans (perm_sortBy key second).symm)
  apply List.Perm.eq_of_pairwise _ (sorted_sortBy key first) (sorted_sortBy key second) moved
  intro item other member member' below above
  have listed := mem_sortBy.mp member
  have listed' := perm.mem_iff.mpr (mem_sortBy.mp member')
  exact List.inj_on_of_nodup_map distinct listed listed' (le_antisymm below above)

/-- Keys are sorted into one order, also where some of them are equal. -/
theorem sortBy_id_perm {first second : List κ} (perm : first.Perm second) : sortBy id first = sortBy id second := by
  have moved : (sortBy id first).Perm (sortBy id second) :=
    (perm_sortBy id first).trans (perm.trans (perm_sortBy id second).symm)
  exact List.Perm.eq_of_pairwise (fun _ _ _ _ below above => le_antisymm below above) (sorted_sortBy id first)
    (sorted_sortBy id second) moved

end SortBy
