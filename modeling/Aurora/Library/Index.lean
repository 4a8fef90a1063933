import Aurora.Library.Dict

namespace Collections.Dict

variable {α κ ν : Type} [DecidableEq κ]

/-- Items gathered under their keys; an entry starts from the empty list. -/
def gather (key : α → κ) (add : List ν → α → List ν) (items : List α) : Dict κ (List ν) :=
  items.foldl (fun d item => d.set (key item) (add ((d.get? (key item)).getD []) item)) .empty

section Gather

variable (key : α → κ) (add : List ν → α → List ν) (items : List α)

theorem gather_concat (item : α) : gather key add (items ++ [item]) =
    (gather key add items).set (key item) (add (((gather key add items).get? (key item)).getD []) item) := by
  rw [gather, List.foldl_append]
  rfl

theorem getD_gather (k : κ) :
    ((gather key add items).get? k).getD [] = (items.filter fun item => key item = k).foldl add [] := by
  induction items using List.reverseRecOn with
  | nil => rfl
  | append_singleton items item ih =>
    rw [gather_concat, get?_set]
    by_cases same : k = key item
    · subst same
      simp [ih]
    · have other : key item ≠ k := fun h => same h.symm
      simp [same, other, ih]

theorem mem_keys_gather (k : κ) : k ∈ (gather key add items).keys ↔ ∃ item ∈ items, key item = k := by
  induction items using List.reverseRecOn with
  | nil => simp [gather, keys, empty]
  | append_singleton items item ih =>
    rw [← List.mem_toFinset, gather_concat, toFinset_keys_set, Finset.mem_insert, List.mem_toFinset, ih]
    simp only [List.mem_append, List.mem_singleton, or_and_right, exists_or, exists_eq_left]
    rw [or_comm, eq_comm]

end Gather

def groupBy (key : α → κ) (items : List α) : Dict κ (List α) := gather key (fun group item => group ++ [item]) items

def collect [DecidableEq ν] (key : α → κ) (value : α → ν) (items : List α) : Dict κ (List ν) :=
  gather key (fun values item => values.insert (value item)) items

def filter (keep : κ × ν → Bool) (d : Dict κ ν) : Dict κ ν :=
  ⟨d.entries.filter keep, d.distinct.sublist (List.filter_sublist.map Prod.fst)⟩

section Lookups

variable (key : α → κ) (items : List α)

theorem foldl_concat (items group : List α) : items.foldl (fun group item => group ++ [item]) group = group ++ items := by
  induction items generalizing group with
  | nil => simp
  | cons item rest ih => simp [ih]

theorem getD_groupBy (k : κ) : ((groupBy key items).get? k).getD [] = items.filter fun item => key item = k := by
  rw [groupBy, getD_gather, foldl_concat, List.nil_append]

theorem mem_foldl_insert [DecidableEq ν] (value : α → ν) (items : List α) (values : List ν) (v : ν) :
    v ∈ items.foldl (fun values item => values.insert (value item)) values ↔
      v ∈ values ∨ ∃ item ∈ items, value item = v := by
  induction items generalizing values with
  | nil => simp
  | cons item rest ih =>
    rw [List.foldl_cons, ih, List.mem_insert_iff, List.exists_mem_cons_iff]
    have flipped : v = value item ↔ value item = v := eq_comm
    rw [flipped]
    tauto

theorem mem_collect [DecidableEq ν] (value : α → ν) (k : κ) (v : ν) :
    v ∈ ((collect key value items).get? k).getD [] ↔ ∃ item ∈ items, key item = k ∧ value item = v := by
  rw [collect, getD_gather, mem_foldl_insert]
  simp [and_assoc]

theorem get?_filter (keep : κ × ν → Bool) (d : Dict κ ν) (k : κ) :
    (d.filter keep).get? k = (d.get? k).filter fun value => keep (k, value) := by
  ext value
  rw [← mem_entries, filter, List.mem_filter, mem_entries, Option.filter_eq_some_iff]

end Lookups

end Collections.Dict
