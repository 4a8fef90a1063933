import Aurora.Library.Index
import Mathlib.Data.List.Forall2
import Mathlib.Data.List.Sort

namespace Collections

section Lists

variable {α β γ δ : Type}

/-- A loop that breaks off at a bad item ends just where no item is bad. -/
theorem foldlM_guard (bad : α → Prop) [DecidablePred bad] (step : β → α → β) (items : List α) (start : β) :
    items.foldlM (fun found item => if bad item then none else some (step found item)) start =
      if ∃ item ∈ items, bad item then none else some (items.foldl step start) := by
  induction items generalizing start with
  | nil => simp
  | cons item rest ih =>
    rw [List.foldlM_cons, List.foldl_cons]
    by_cases broken : bad item
    · simp [broken]
    · simp [broken, ih]

/-- Lists that are related entry by entry stay so when the entries that go are the same on both sides. -/
theorem forall₂_filterMap {R : α → β → Prop} {S : γ → δ → Prop} {left : α → Option γ} {right : β → Option δ}
    {first : List α} {second : List β} (related : List.Forall₂ R first second)
    (each : ∀ a b, R a b → (left a = none ∧ right b = none) ∨ ∃ c d, left a = some c ∧ right b = some d ∧ S c d) :
    List.Forall₂ S (first.filterMap left) (second.filterMap right) := by
  induction related with
  | nil => exact .nil
  | cons head _ ih =>
    rcases each _ _ head with ⟨gone, gone'⟩ | ⟨c, d, kept, kept', same⟩
    · rw [List.filterMap_cons_none gone, List.filterMap_cons_none gone']
      exact ih
    · rw [List.filterMap_cons_some kept, List.filterMap_cons_some kept']
      exact .cons same ih

end Lists

namespace Dict

variable {α κ ν μ : Type} [DecidableEq κ]

def file (d : Dict κ (List ν)) (keys : List κ) (value : ν) : Dict κ (List ν) :=
  keys.foldl (fun d key => d.set key ((d.get? key).getD [] ++ [value])) d

section File

variable (d : Dict κ (List ν)) {keys : List κ} (value : ν) (key : κ)

theorem getD_file (distinct : keys.Nodup) : ((d.file keys value).get? key).getD [] =
    (d.get? key).getD [] ++ if key ∈ keys then [value] else [] := by
  induction keys generalizing d with
  | nil => simp [file]
  | cons first rest ih =>
    obtain ⟨fresh, distinct⟩ := List.nodup_cons.mp distinct
    have next := ih (d.set first ((d.get? first).getD [] ++ [value])) distinct
    rw [get?_set] at next
    rw [file, List.foldl_cons, ← file, next]
    by_cases same : key = first
    · subst same
      simp [fresh]
    · simp [same]

theorem mem_keys_file : key ∈ (d.file keys value).keys ↔ key ∈ d.keys ∨ key ∈ keys := by
  induction keys generalizing d with
  | nil => simp [file]
  | cons first rest ih =>
    rw [file, List.foldl_cons, ← file, ih, ← List.mem_toFinset, toFinset_keys_set, Finset.mem_insert, List.mem_toFinset,
      List.mem_cons]
    tauto

variable (keysOf : α → List κ) (valueOf : α → ν) (items : List α)

theorem getD_foldl_file (distinct : ∀ item, (keysOf item).Nodup) :
    ((items.foldl (fun d item => d.file (keysOf item) (valueOf item)) d).get? key).getD [] =
      (d.get? key).getD [] ++ (items.filter fun item => key ∈ keysOf item).map valueOf := by
  induction items generalizing d with
  | nil => simp
  | cons item rest ih =>
    rw [List.foldl_cons, ih, getD_file d (valueOf item) key (distinct item)]
    by_cases member : key ∈ keysOf item <;> simp [member]

theorem mem_keys_foldl_file : key ∈ (items.foldl (fun d item => d.file (keysOf item) (valueOf item)) d).keys ↔
    key ∈ d.keys ∨ ∃ item ∈ items, key ∈ keysOf item := by
  induction items generalizing d with
  | nil => simp
  | cons item rest ih =>
    rw [List.foldl_cons, ih, mem_keys_file, List.exists_mem_cons_iff, or_assoc]

end File

theorem nodup_collect [DecidableEq ν] (keyOf : α → κ) (valueOf : α → ν) (items : List α) (key : κ) :
    (((collect keyOf valueOf items).get? key).getD []).Nodup := by
  have kept : ∀ (items : List α) (values : List ν), values.Nodup →
      (items.foldl (fun values item => values.insert (valueOf item)) values).Nodup := by
    intro items
    induction items with
    | nil => exact fun _ distinct => distinct
    | cons item rest ih => exact fun values distinct => ih _ distinct.insert
  rw [collect, getD_gather]
  exact kept _ [] List.nodup_nil

/-- `sorted(d.items(), key=lambda v: v[0])`. -/
abbrev sortedEntries {κ : Type} [LinearOrder κ] (d : Dict κ ν) : List (κ × ν) :=
  d.entries.insertionSort fun first second => first.1 ≤ second.1

theorem forall₂_sorted {κ : Type} [LinearOrder κ] {R : κ × ν → κ × μ → Prop} (d : Dict κ ν) (e : Dict κ μ)
    (same : ∀ key, key ∈ d.keys ↔ key ∈ e.keys)
    (each : ∀ key value value', (key, value) ∈ d.entries → (key, value') ∈ e.entries → R (key, value) (key, value')) :
    List.Forall₂ R d.sortedEntries e.sortedEntries := by
  have keys : d.sortedEntries.map Prod.fst = e.sortedEntries.map Prod.fst := by
    rw [List.map_insertionSort _ (· ≤ ·) Prod.fst _ (by simp), List.map_insertionSort _ (· ≤ ·) Prod.fst _ (by simp)]
    have perm : d.keys.Perm e.keys := (List.perm_ext_iff_of_nodup d.distinct e.distinct).mpr same
    refine List.Perm.eq_of_pairwise' (List.pairwise_insertionSort _ _) (List.pairwise_insertionSort _ _) ?_
    exact (List.perm_insertionSort _ _).trans (perm.trans (List.perm_insertionSort _ _).symm)
  have aligned : List.Forall₂ (fun first second => first.1 = second.1) d.sortedEntries e.sortedEntries := by
    have equal : List.Forall₂ (· = ·) (d.sortedEntries.map Prod.fst) (e.sortedEntries.map Prod.fst) := by
      rw [List.forall₂_eq_eq_eq]
      exact keys
    exact List.forall₂_map_right_iff.mp (List.forall₂_map_left_iff.mp equal)
  refine List.forall₂_iff_zip.mpr ⟨aligned.length_eq, ?_⟩
  rintro ⟨key, value⟩ ⟨key', value'⟩ paired
  have equal : key = key' := (List.forall₂_iff_zip.mp aligned).2 paired
  subst equal
  obtain ⟨first, second⟩ := List.of_mem_zip paired
  exact each key value value' ((List.mem_insertionSort _).mp first) ((List.mem_insertionSort _).mp second)

end Dict

end Collections
