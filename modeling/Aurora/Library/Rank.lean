import Mathlib.Data.List.Sort

/-! Positions in a sorted list and how many of its entries reach a bound. -/

namespace Rank

variable {α : Type} [LinearOrder α]

def reaching (items : List α) (bound : α) : Nat :=
  items.countP fun item => bound ≤ item

theorem reaching_perm {items items' : List α} (perm : items.Perm items') (bound : α) :
    reaching items bound = reaching items' bound :=
  perm.countP_eq _

theorem reaching_eq_length {items : List α} {bound : α} (all : ∀ item ∈ items, bound ≤ item) :
    reaching items bound = items.length := by
  rw [reaching, List.countP_eq_length]
  simpa using all

/-- Counted from the end, the entry at a position reaches just the bounds that so many entries reach. -/
theorem sorted_rank {items : List α} (sorted : items.Pairwise (· ≤ ·)) (bound : α) (index : Nat)
    (inside : index < items.length) :
    items.length - index ≤ reaching items bound ↔ bound ≤ items[index] := by
  induction items generalizing index with
  | nil => simp at inside
  | cons head tail ih =>
    obtain ⟨least, sorted⟩ := List.pairwise_cons.mp sorted
    by_cases reached : bound ≤ head
    · have all : ∀ item ∈ head :: tail, bound ≤ item := by
        simpa using ⟨reached, fun item mem => reached.trans (least item mem)⟩
      rw [reaching_eq_length all]
      exact ⟨fun _ => all _ (List.getElem_mem inside), fun _ => Nat.sub_le _ _⟩
    · have skip : reaching (head :: tail) bound = reaching tail bound := by
        simp [reaching, reached]
      have few : reaching tail bound ≤ tail.length := List.countP_le_length
      rw [skip]
      cases index with
      | zero =>
        simp only [List.length_cons, List.getElem_cons_zero, reached, iff_false]
        omega
      | succ index =>
        have inside' : index < tail.length := by simpa using inside
        rw [List.length_cons, Nat.add_sub_add_right, List.getElem_cons_succ]
        exact ih sorted index inside'

theorem insertionSort_rank (items : List α) (bound : α) (index : Nat)
    (inside : index < (items.insertionSort (· ≤ ·)).length) :
    items.length - index ≤ reaching items bound ↔ bound ≤ (items.insertionSort (· ≤ ·))[index] := by
  have perm := List.perm_insertionSort (· ≤ ·) items
  rw [← sorted_rank (List.pairwise_insertionSort (· ≤ ·) items) bound index inside, perm.length_eq,
    reaching_perm perm]

theorem reaching_le_length (items : List α) (bound : α) : reaching items bound ≤ items.length :=
  List.countP_le_length

/-- The entry that the sort has so far from its end is the largest bound that this many entries reach. -/
theorem exists_rank {items : List α} {target : Nat} (positive : 0 < target) (fits : target ≤ items.length) :
    ∃ entry, (items.insertionSort (· ≤ ·))[items.length - target]? = some entry ∧
      ∀ bound, target ≤ reaching items bound ↔ bound ≤ entry := by
  have inside : items.length - target < (items.insertionSort (· ≤ ·)).length := by
    rw [(List.perm_insertionSort (· ≤ ·) items).length_eq]
    omega
  refine ⟨_, List.getElem?_eq_getElem inside, fun bound => ?_⟩
  rw [← insertionSort_rank items bound _ inside, Nat.sub_sub_self fits]

end Rank
