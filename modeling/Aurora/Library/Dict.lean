import Mathlib.Data.Finset.Dedup
import Mathlib.Data.Finset.Erase
import Mathlib.Data.Finset.Insert
import Mathlib.Data.List.Nodup

namespace Collections

/-- A dictionary that keeps its keys in the order of their first insertion. -/
structure Dict (κ ν : Type) where
  entries : List (κ × ν)
  distinct : (entries.map Prod.fst).Nodup

namespace Dict

variable {κ ν : Type} [DecidableEq κ]

def empty : Dict κ ν := ⟨[], List.nodup_nil⟩

def keys (d : Dict κ ν) : List κ := d.entries.map Prod.fst

def lookup (entries : List (κ × ν)) (key : κ) : Option ν :=
  match entries with
  | [] => none
  | (k, v) :: rest => if k = key then some v else lookup rest key

def get? (d : Dict κ ν) (key : κ) : Option ν := lookup d.entries key

/-- Overwriting keeps the position of the key, a new key goes to the end. -/
def assign (entries : List (κ × ν)) (key : κ) (value : ν) : List (κ × ν) :=
  match entries with
  | [] => [(key, value)]
  | (k, v) :: rest => if k = key then (key, value) :: rest else (k, v) :: assign rest key value

theorem assign_keys (entries : List (κ × ν)) (key : κ) (value : ν) :
    (assign entries key value).map Prod.fst =
      if key ∈ entries.map Prod.fst then entries.map Prod.fst else entries.map Prod.fst ++ [key] := by
  induction entries with
  | nil => rfl
  | cons entry rest ih =>
    obtain ⟨k, v⟩ := entry
    by_cases same : k = key
    · simp [assign, same]
    · have other : key ≠ k := fun h => same h.symm
      simp only [assign, same, ite_false, List.map_cons, ih, List.mem_cons, other, false_or]
      split <;> rfl

theorem assign_nodup (entries : List (κ × ν)) (key : κ) (value : ν)
    (distinct : (entries.map Prod.fst).Nodup) : ((assign entries key value).map Prod.fst).Nodup := by
  rw [assign_keys]
  split
  · exact distinct
  · rename_i fresh
    exact List.Nodup.append distinct (List.nodup_singleton key) (by simpa using fresh)

def set (d : Dict κ ν) (key : κ) (value : ν) : Dict κ ν :=
  ⟨assign d.entries key value, assign_nodup d.entries key value d.distinct⟩

def erase (d : Dict κ ν) (key : κ) : Dict κ ν :=
  ⟨d.entries.filter (fun entry => entry.1 ≠ key),
    d.distinct.sublist (List.filter_sublist.map Prod.fst)⟩

theorem lookup_assign (entries : List (κ × ν)) (key other : κ) (value : ν) :
    lookup (assign entries key value) other = if other = key then some value else lookup entries other := by
  induction entries with
  | nil =>
    have flip : key = other ↔ other = key := eq_comm
    simp [assign, lookup, flip]
  | cons entry rest ih =>
    obtain ⟨k, v⟩ := entry
    by_cases same : k = key
    · subst same
      have flip : k = other ↔ other = k := eq_comm
      by_cases h : other = k <;> simp [assign, lookup, flip, h]
    · by_cases h : k = other
      · subst h
        simp [assign, lookup, same]
      · simp [assign, lookup, same, h, ih]

@[simp] theorem get?_set_self (d : Dict κ ν) (key : κ) (value : ν) :
    (d.set key value).get? key = some value := by
  simp [get?, set, lookup_assign]

theorem get?_set (d : Dict κ ν) (key other : κ) (value : ν) :
    (d.set key value).get? other = if other = key then some value else d.get? other :=
  lookup_assign d.entries key other value

theorem get?_set_ne (d : Dict κ ν) {key other : κ} (value : ν) (different : other ≠ key) :
    (d.set key value).get? other = d.get? other := by
  simp [get?_set, different]

theorem assign_assign (entries : List (κ × ν)) (key : κ) (first second : ν) :
    assign (assign entries key first) key second = assign entries key second := by
  induction entries with
  | nil => simp [assign]
  | cons entry rest ih =>
    obtain ⟨k, v⟩ := entry
    by_cases same : k = key
    · simp [assign, same]
    · simp [assign, same, ih]

@[simp] theorem set_set (d : Dict κ ν) (key : κ) (first second : ν) :
    (d.set key first).set key second = d.set key second := by
  simp only [set, assign_assign]

theorem lookup_filter (entries : List (κ × ν)) (key other : κ) :
    lookup (entries.filter (fun entry => entry.1 ≠ key)) other =
      if other = key then none else lookup entries other := by
  induction entries with
  | nil => simp [lookup]
  | cons entry rest ih =>
    obtain ⟨k, v⟩ := entry
    by_cases same : k = key
    · subst same
      by_cases h : other = k
      · simpa [h] using ih
      · have reverse : k ≠ other := fun e => h e.symm
        simpa [lookup, h, reverse] using ih
    · by_cases h : k = other
      · subst h
        simp [lookup, same]
      · simpa [lookup, same, h] using ih

theorem get?_erase (d : Dict κ ν) (key other : κ) :
    (d.erase key).get? other = if other = key then none else d.get? other :=
  lookup_filter d.entries key other

@[simp] theorem get?_empty (key : κ) : (empty : Dict κ ν).get? key = none := rfl

theorem lookup_isSome (entries : List (κ × ν)) (key : κ) :
    (lookup entries key).isSome = true ↔ key ∈ entries.map Prod.fst := by
  induction entries with
  | nil => simp [lookup]
  | cons entry rest ih =>
    obtain ⟨k, v⟩ := entry
    by_cases same : k = key
    · simp [lookup, same]
    · have other : key ≠ k := fun h => same h.symm
      simp [lookup, same, other, ih]

theorem mem_keys (d : Dict κ ν) (key : κ) : key ∈ d.keys ↔ (d.get? key).isSome = true :=
  (lookup_isSome d.entries key).symm

theorem mem_keys_of_get? {d : Dict κ ν} {key : κ} {value : ν} (known : d.get? key = some value) :
    key ∈ d.keys := by
  rw [mem_keys, known]
  rfl

theorem keys_set (d : Dict κ ν) (key : κ) (value : ν) :
    (d.set key value).keys = if key ∈ d.keys then d.keys else d.keys ++ [key] :=
  assign_keys d.entries key value

theorem countP_assign_le (p : κ × ν → Bool) (entries : List (κ × ν)) (key : κ) (value : ν) :
    (assign entries key value).countP p ≤ entries.countP p + if p (key, value) then 1 else 0 := by
  induction entries with
  | nil => simp [assign, List.countP_cons]
  | cons entry rest ih =>
    obtain ⟨k, v⟩ := entry
    by_cases same : k = key
    · simp only [assign, same, if_true, List.countP_cons]
      omega
    · simp only [assign, same, if_false, List.countP_cons]
      omega

theorem countP_set_le (p : κ × ν → Bool) (d : Dict κ ν) (key : κ) (value : ν) :
    (d.set key value).entries.countP p ≤ d.entries.countP p + if p (key, value) then 1 else 0 :=
  countP_assign_le p d.entries key value

theorem assign_new (entries : List (κ × ν)) {key : κ} (value : ν) (fresh : key ∉ entries.map Prod.fst) :
    assign entries key value = entries ++ [(key, value)] := by
  induction entries with
  | nil => rfl
  | cons entry rest ih =>
    obtain ⟨k, v⟩ := entry
    rw [List.map_cons, List.mem_cons, not_or] at fresh
    have other : k ≠ key := fun h => fresh.1 h.symm
    simp [assign, other, ih fresh.2]

theorem countP_set_new (p : κ × ν → Bool) (d : Dict κ ν) {key : κ} {value : ν} (fresh : key ∉ d.keys) :
    (d.set key value).entries.countP p = d.entries.countP p + if p (key, value) then 1 else 0 := by
  show (assign d.entries key value).countP p = _
  rw [assign_new d.entries value fresh, List.countP_append, List.countP_singleton]

theorem mem_entries (d : Dict κ ν) (key : κ) (value : ν) : (key, value) ∈ d.entries ↔ d.get? key = some value := by
  obtain ⟨entries, distinct⟩ := d
  simp only [get?]
  induction entries with
  | nil => simp [lookup]
  | cons entry rest ih =>
    obtain ⟨k, v⟩ := entry
    obtain ⟨fresh, distinct⟩ := List.nodup_cons.mp distinct
    rw [List.mem_cons, ih distinct, lookup]
    by_cases same : k = key
    · subst same
      have unknown : lookup rest k ≠ some value := by
        intro known
        apply fresh
        rw [← lookup_isSome, known]
        rfl
      simp [unknown, eq_comm]
    · have other : key ≠ k := fun h => same h.symm
      simp [same, other]

theorem entries_eq (d : Dict κ ν) : d.entries = d.keys.filterMap fun key => (d.get? key).map (Prod.mk key) := by
  have known : ∀ entry ∈ d.entries, (d.get? entry.1).map (Prod.mk entry.1) = some entry := by
    intro entry mem
    rw [(mem_entries d entry.1 entry.2).mp mem]
    rfl
  rw [keys, List.filterMap_map]
  have same := List.filterMap_congr known
  rw [List.filterMap_some] at same
  exact same.symm

theorem ext_get? {d d' : Dict κ ν} (keys : d.keys = d'.keys) (values : ∀ key, d.get? key = d'.get? key) : d = d' := by
  have entries : d.entries = d'.entries := by
    rw [entries_eq, entries_eq d', keys, funext values]
  cases d
  cases d'
  cases entries
  rfl

section Map

variable {μ : Type}

def mapKeyed (f : κ → ν → μ) (d : Dict κ ν) : Dict κ μ :=
  ⟨d.entries.map (fun entry => (entry.1, f entry.1 entry.2)), by
    have same : Prod.fst ∘ (fun entry : κ × ν => (entry.1, f entry.1 entry.2)) = Prod.fst := rfl
    rw [List.map_map, same]
    exact d.distinct⟩

def map (f : ν → μ) (d : Dict κ ν) : Dict κ μ := d.mapKeyed (fun _ => f)

theorem get?_mapKeyed (f : κ → ν → μ) (d : Dict κ ν) (key : κ) :
    (d.mapKeyed f).get? key = (d.get? key).map (f key) := by
  obtain ⟨entries, distinct⟩ := d
  simp only [get?, mapKeyed]
  clear distinct
  induction entries with
  | nil => rfl
  | cons entry rest ih =>
    obtain ⟨k, v⟩ := entry
    by_cases same : k = key
    · subst same
      simp [lookup]
    · simp [lookup, same, ih]

theorem get?_map (f : ν → μ) (d : Dict κ ν) (key : κ) : (d.map f).get? key = (d.get? key).map f :=
  get?_mapKeyed (fun _ => f) d key

omit [DecidableEq κ] in
theorem keys_mapKeyed (f : κ → ν → μ) (d : Dict κ ν) : (d.mapKeyed f).keys = d.keys := by
  simp only [keys, mapKeyed, List.map_map]
  rfl

def adjust (f : ν → ν) (d : Dict κ ν) (key : κ) : Dict κ ν := (d.get? key).elim d fun value => d.set key (f value)

theorem get?_adjust (f : ν → ν) (d : Dict κ ν) (key other : κ) :
    (d.adjust f key).get? other = if other = key then (d.get? key).map f else d.get? other := by
  unfold adjust
  cases found : d.get? key with
  | none =>
    by_cases same : other = key
    · simp [same, found]
    · simp [same]
  | some value => simp [get?_set]

theorem keys_adjust (f : ν → ν) (d : Dict κ ν) (key : κ) : (d.adjust f key).keys = d.keys := by
  unfold adjust
  cases found : d.get? key with
  | none => rfl
  | some value => simp [keys_set, mem_keys_of_get? found]

theorem keys_foldl_adjust (f : ν → ν) (d : Dict κ ν) (keys : List κ) : (keys.foldl (adjust f) d).keys = d.keys := by
  induction keys generalizing d with
  | nil => rfl
  | cons key keys ih => rw [List.foldl_cons, ih, keys_adjust]

theorem get?_foldl_adjust (f : ν → ν) (d : Dict κ ν) {keys : List κ} (distinct : keys.Nodup) (other : κ) :
    (keys.foldl (adjust f) d).get? other = if other ∈ keys then (d.get? other).map f else d.get? other := by
  induction keys generalizing d with
  | nil => simp
  | cons key keys ih =>
    obtain ⟨fresh, distinct⟩ := List.nodup_cons.mp distinct
    rw [List.foldl_cons, ih _ distinct, get?_adjust]
    by_cases same : other = key
    · simp [same, fresh]
    · simp [same]

/-- To write a new value for every key, one after the other, is to map the values. -/
theorem foldl_adjust (f : ν → ν) (d : Dict κ ν) : d.keys.foldl (adjust f) d = d.map f := by
  refine ext_get? ?_ fun key => ?_
  · rw [keys_foldl_adjust]
    exact (keys_mapKeyed _ d).symm
  · have distinct : d.keys.Nodup := d.distinct
    rw [get?_foldl_adjust f d distinct, get?_map]
    split
    · rfl
    · rename_i missing
      rw [mem_keys, Option.not_isSome_iff_eq_none] at missing
      rw [missing]
      rfl

theorem map_set (f : ν → μ) (d : Dict κ ν) (key : κ) (value : ν) :
    (d.set key value).map f = (d.map f).set key (f value) := by
  obtain ⟨entries, distinct⟩ := d
  simp only [set, map, mapKeyed, Dict.mk.injEq]
  clear distinct
  induction entries with
  | nil => rfl
  | cons entry rest ih =>
    obtain ⟨k, v⟩ := entry
    by_cases same : k = key <;> simp [assign, same, ih]

theorem get?_foldl_set (value : ν → Option μ) (step : Dict κ μ → κ × ν → Dict κ μ)
    (steps : ∀ d entry, step d entry = (value entry.2).elim d (d.set entry.1)) (d : Dict κ ν) (start : Dict κ μ)
    (key : κ) : (d.entries.foldl step start).get? key = ((d.get? key).bind value).or (start.get? key) := by
  obtain ⟨entries, distinct⟩ := d
  simp only [get?]
  induction entries generalizing start with
  | nil => rfl
  | cons entry rest ih =>
    obtain ⟨k, v⟩ := entry
    rw [List.map_cons, List.nodup_cons] at distinct
    rw [List.foldl_cons, ih _ distinct.2, steps]
    by_cases same : k = key
    · subst same
      have missing : lookup rest k = none := by
        rw [← Option.not_isSome_iff_eq_none, lookup_isSome]
        exact distinct.1
      cases chosen : value v <;> simp [lookup, missing, chosen, set, lookup_assign]
    · have other : key ≠ k := fun h => same h.symm
      cases chosen : value v <;> simp [lookup, same, set, lookup_assign, other]

end Map

theorem filter_flatMap {α : Type} (f : κ × ν → List α) (owned : κ → α → Bool) (d : Dict κ ν) (key : κ)
    (own : ∀ entry ∈ d.entries, ∀ item ∈ f entry, owned key item = decide (entry.1 = key)) :
    (d.entries.flatMap f).filter (owned key) = (d.get? key).elim [] fun value => f (key, value) := by
  obtain ⟨entries, distinct⟩ := d
  simp only [get?]
  induction entries with
  | nil => rfl
  | cons entry rest ih =>
    obtain ⟨k, v⟩ := entry
    obtain ⟨here, later⟩ := List.forall_mem_cons.mp own
    obtain ⟨fresh, distinct⟩ := List.nodup_cons.mp distinct
    rw [List.flatMap_cons, List.filter_append, ih distinct later]
    by_cases same : k = key
    · subst same
      have unknown : lookup rest k = none := by
        rw [← Option.not_isSome_iff_eq_none, lookup_isSome]
        exact fresh
      have whole : (f (k, v)).filter (owned k) = f (k, v) := by
        apply List.filter_eq_self.mpr
        intro item member
        rw [here item member, decide_eq_true rfl]
      simp [lookup, unknown, whole]
    · have nothing : (f (k, v)).filter (owned key) = [] := by
        apply List.filter_eq_nil_iff.mpr
        intro item member
        simp [here item member, same]
      simp [lookup, same, nothing]

theorem keys_erase (d : Dict κ ν) (key : κ) :
    (d.erase key).keys = d.keys.filter (fun k => k ≠ key) := by
  simp only [keys, erase, List.filter_map]
  rfl

theorem toFinset_keys_set (d : Dict κ ν) (key : κ) (value : ν) :
    (d.set key value).keys.toFinset = insert key d.keys.toFinset := by
  ext other
  rw [List.mem_toFinset, Finset.mem_insert, List.mem_toFinset, keys_set]
  split
  · rename_i known
    constructor
    · exact Or.inr
    · rintro (rfl | member)
      · exact known
      · exact member
  · simp [or_comm]

theorem toFinset_keys_erase (d : Dict κ ν) (key : κ) : (d.erase key).keys.toFinset = d.keys.toFinset.erase key := by
  ext other
  simp [keys_erase, and_comm]

end Dict

end Collections
