import Aurora.Client.Api.ToHashable
import Aurora.Library.PyEquality
import Aurora.Library.PyRepr

namespace Aurora.Client.Api

open PyText PyValue SortBy
open PyValue.Value (Proper Nested SameEntry numbers numbersEach numbersEntries)

variable {F : Type}

section Numbers

mutual

def setNumbers : Value F → List (Number F)
  | .atom _ => []
  | .set items | .frozenset items => numbersEach items
  | .list items | .tuple items => setNumbersEach items
  | .dict entries | .object _ entries => setNumbersEntries entries

def setNumbersEach : List (Value F) → List (Number F)
  | [] => []
  | item :: items => setNumbers item ++ setNumbersEach items

def setNumbersEntries : List (Text × Value F) → List (Number F)
  | [] => []
  | (_, value) :: entries => setNumbers value ++ setNumbersEntries entries

end

variable {items : List (Value F)} {entries : List (Text × Value F)} {number : Number F}

theorem mem_numbersEach : number ∈ numbersEach items ↔ ∃ item ∈ items, number ∈ item.numbers := by
  induction items with
  | nil => simp [numbersEach]
  | cons item items ih => simp [numbersEach, ih]

theorem mem_numbersEntries : number ∈ numbersEntries entries ↔ ∃ entry ∈ entries, number ∈ entry.2.numbers := by
  induction entries with
  | nil => simp [numbersEntries]
  | cons entry entries ih => simp [numbersEntries, ih]

theorem setNumbers_subset_each {item : Value F} (member : item ∈ items) : setNumbers item ⊆ setNumbersEach items := by
  induction items with
  | nil => cases member
  | cons first items ih =>
    rcases List.mem_cons.mp member with rfl | member
    · exact List.subset_append_left _ _
    · exact List.subset_append_of_subset_right _ (ih member)

theorem setNumbers_subset_entries {entry : Text × Value F} (member : entry ∈ entries) :
    setNumbers entry.2 ⊆ setNumbersEntries entries := by
  induction entries with
  | nil => cases member
  | cons first entries ih =>
    rcases List.mem_cons.mp member with rfl | member
    · exact List.subset_append_left _ _
    · exact List.subset_append_of_subset_right _ (ih member)

theorem numbers_subset_each {item : Value F} (member : item ∈ items) : item.numbers ⊆ numbersEach items :=
  fun _ inside => mem_numbersEach.mpr ⟨item, member, inside⟩

theorem numbers_subset_entries {entry : Text × Value F} (member : entry ∈ entries) :
    entry.2.numbers ⊆ numbersEntries entries :=
  fun _ inside => mem_numbersEntries.mpr ⟨entry, member, inside⟩

end Numbers

section Forms

variable {python : Interpreter F}

theorem nested_pairs {entries : List (Text × Value F)} (each : ∀ entry ∈ entries, Nested (toHashable python entry.2)) :
    Nested (.tuple ((sortBy Prod.fst entries).map (pairOf python))) := by
  refine .tuple (List.forall_mem_map.mpr fun entry member => .tuple ?_)
  rw [List.forall_mem_cons, List.forall_mem_singleton]
  exact ⟨.atom _, each entry (mem_sortBy.mp member)⟩

/-- What becomes of a value is made of tuples alone. -/
theorem nested_toHashable (value : Value F) : Nested (toHashable python value) := by
  induction value using Value.byParts with
  | atom value =>
    rw [toHashable]
    exact .atom value
  | list items each =>
    rw [toHashable_list]
    exact .tuple (List.forall_mem_map.mpr each)
  | tuple items each =>
    rw [toHashable_tuple]
    exact .tuple (List.forall_mem_map.mpr each)
  | set items each =>
    rw [toHashable_set]
    exact .tuple (List.forall_mem_map.mpr fun item member => each item (mem_sortBy.mp member))
  | frozenset items each =>
    rw [toHashable]
    exact .atom _
  | dict entries each =>
    rw [toHashable_dict]
    exact nested_pairs each
  | object cls fields each =>
    rw [toHashable_object]
    refine .tuple ?_
    rw [List.forall_mem_cons, List.forall_mem_singleton]
    exact ⟨.atom _, nested_pairs each⟩

theorem numbers_map {items others : List (Value F)} {f : Value F → Value F} (listed : others ⊆ items)
    (each : ∀ item ∈ items, (f item).numbers ⊆ item.numbers) : numbersEach (others.map f) ⊆ numbersEach items := by
  intro number member
  obtain ⟨_, mapped, inside⟩ := mem_numbersEach.mp member
  obtain ⟨item, found, rfl⟩ := List.mem_map.mp mapped
  exact mem_numbersEach.mpr ⟨item, listed found, each item (listed found) inside⟩

theorem numbers_pairs {entries : List (Text × Value F)}
    (each : ∀ entry ∈ entries, (toHashable python entry.2).numbers ⊆ entry.2.numbers) :
    numbersEach ((sortBy Prod.fst entries).map (pairOf python)) ⊆ numbersEntries entries := by
  intro number member
  obtain ⟨_, mapped, inside⟩ := mem_numbersEach.mp member
  obtain ⟨entry, found, rfl⟩ := List.mem_map.mp mapped
  have listed := mem_sortBy.mp found
  refine mem_numbersEntries.mpr ⟨entry, listed, each entry listed ?_⟩
  simpa [pairOf, numbers, numbersEach, Atom.numbers] using inside

theorem numbers_toHashable (value : Value F) : (toHashable python value).numbers ⊆ value.numbers := by
  induction value using Value.byParts with
  | atom value =>
    rw [toHashable]
    exact List.Subset.refl _
  | list items each =>
    rw [toHashable_list, numbers, numbers]
    exact numbers_map (List.Subset.refl _) each
  | tuple items each =>
    rw [toHashable_tuple, numbers, numbers]
    exact numbers_map (List.Subset.refl _) each
  | set items each =>
    rw [toHashable_set, numbers, numbers]
    exact numbers_map (perm_sortBy _ items).subset each
  | frozenset items each =>
    rw [toHashable, numbers]
    exact List.nil_subset _
  | dict entries each =>
    rw [toHashable_dict, numbers, numbers]
    exact numbers_pairs each
  | object cls fields each =>
    rw [toHashable_object, numbers, numbers]
    simpa [numbersEach, numbers, Atom.numbers] using numbers_pairs each

end Forms

section Texts

variable [DecidableEq F] {python : Interpreter F}

theorem map_eq_of_forall₂ {α β γ : Type} {R : α → β → Prop} {f : α → γ} {g : β → γ} {items : List α} {others : List β}
    (matched : List.Forall₂ R items others) (each : ∀ item ∈ items, ∀ other ∈ others, R item other → f item = g other) :
    items.map f = others.map g := by
  induction matched with
  | nil => rfl
  | cons paired matched ih =>
    rw [List.map_cons, List.map_cons, each _ List.mem_cons_self _ List.mem_cons_self paired,
      ih fun item member other member' =>
        each item (List.mem_cons_of_mem _ member) other (List.mem_cons_of_mem _ member')]

theorem forall₂_of_map_eq {α γ : Type} {R : α → α → Prop} {f : α → γ} {items others : List α}
    (texts : items.map f = others.map f)
    (each : ∀ item ∈ items, ∀ other ∈ others, f item = f other → R item other) : List.Forall₂ R items others := by
  have paired : List.Forall₂ (fun item other => f item = f other) items others := by
    rw [← List.forall₂_eq_eq_eq, List.forall₂_map_left_iff, List.forall₂_map_right_iff] at texts
    exact texts
  obtain ⟨length, zipped⟩ := List.forall₂_iff_zip.mp paired
  exact List.forall₂_iff_zip.mpr ⟨length, fun {item other} member =>
    each item (List.of_mem_zip member).1 other (List.of_mem_zip member).2 (zipped member)⟩

theorem entriesText_eq {entries others : List (Text × Value F)} (keys : (entries.map Prod.fst).Nodup)
    (length : entries.length = others.length) (same : Value.sameEntries python entries others = true)
    (each : ∀ entry ∈ entries, ∀ other ∈ others, entry.2.same python other.2 = true →
      sortText python entry.2 = sortText python other.2) :
    entriesText python (sortTextEntries python entries) = entriesText python (sortTextEntries python others) := by
  obtain ⟨middle, perm, matched⟩ := Value.exists_perm_entries keys length same
  have texts : (sortTextEntries python entries).Perm (sortTextEntries python others) := by
    have same_texts := map_eq_of_forall₂ (f := fun entry => (entry.1, sortText python entry.2))
      (g := fun entry => (entry.1, sortText python entry.2)) matched fun entry member other member' paired =>
        Prod.ext paired.1 (each entry member other (perm.subset member') paired.2)
    rw [sortTextEntries_eq, sortTextEntries_eq, same_texts]
    exact perm.map _
  have distinct : ((sortTextEntries python entries).map Prod.fst).Nodup := by
    rw [sortTextEntries_eq, List.map_map]
    exact keys
  rw [entriesText, entriesText, sortBy_perm texts distinct]

theorem texts_perm {items others : List (Value F)} (proper : ∀ item ∈ items, Proper python item)
    (proper' : ∀ other ∈ others, Proper python other)
    (distinct : items.Pairwise fun first second => ¬ first.same python second = true)
    (length : items.length = others.length) (same : Value.sameAmong python items others = true)
    (each : ∀ item ∈ items, ∀ other ∈ others, item.same python other = true →
      sortText python item = sortText python other) :
    (items.map (sortText python)).Perm (others.map (sortText python)) := by
  obtain ⟨middle, perm, matched⟩ := Value.exists_perm_items proper proper' distinct length same
  rw [map_eq_of_forall₂ matched fun item member other member' => each item member other (perm.subset member')]
  exact perm.map _

theorem sortText_eq {a b : Value F} (proper : Proper python a) (proper' : Proper python b)
    (told : Told python (a.numbers ++ b.numbers)) (same : a.same python b = true) :
    sortText python a = sortText python b := by
  induction proper generalizing b with
  | atom value =>
    cases proper' <;> simp only [Value.same, Bool.false_eq_true] at same
    rename_i other
    rw [sortText, sortText]
    rcases Atom.same_iff.mp same with rfl | ⟨left, right, rfl, rfl, equal⟩
    · rfl
    · exact (told left (by simp [numbers, Atom.numbers]) right (by simp [numbers, Atom.numbers])).mp equal
  | list each ih =>
    cases proper' <;> simp only [Value.same, Bool.false_eq_true] at same
    rename_i others proper'
    rw [sortText, sortText, sortTextEach_eq, sortTextEach_eq, map_eq_of_forall₂ ((Value.sameEach_iff ..).mp same)
      fun item member other member' => ih item member (proper' other member')
        (told.parts (numbers_subset_each member) (numbers_subset_each member'))]
  | tuple each ih =>
    cases proper' <;> simp only [Value.same, Bool.false_eq_true] at same
    rename_i others proper'
    rw [sortText, sortText, sortTextEach_eq, sortTextEach_eq, map_eq_of_forall₂ ((Value.sameEach_iff ..).mp same)
      fun item member other member' => ih item member (proper' other member')
        (told.parts (numbers_subset_each member) (numbers_subset_each member'))]
  | set each distinct ih =>
    cases proper' <;> simp only [Value.same, Bool.false_eq_true] at same
    rename_i others proper' distinct'
    rw [Bool.and_eq_true, beq_iff_eq] at same
    have perm := texts_perm each proper' distinct same.1 same.2 fun item member other member' =>
      ih item member (proper' other member') (told.parts (numbers_subset_each member) (numbers_subset_each member'))
    rw [sortText, sortText, sortTextEach_eq, sortTextEach_eq, sortBy_id_perm perm]
  | dict each keys ih =>
    cases proper' <;> simp only [Value.same, Bool.false_eq_true] at same
    rename_i others proper' keys'
    rw [Bool.and_eq_true, beq_iff_eq] at same
    rw [sortText, sortText, entriesText_eq keys same.1 same.2 fun entry member other member' =>
      ih entry member (proper' other member')
        (told.parts (numbers_subset_entries member) (numbers_subset_entries member'))]
  | object each keys ih =>
    cases proper' <;> simp only [Value.same, Bool.false_eq_true] at same
    rename_i others proper' keys'
    rw [Bool.and_eq_true, Bool.and_eq_true, beq_iff_eq, beq_iff_eq] at same
    rw [sortText, sortText, same.1.1, entriesText_eq keys same.1.2 same.2 fun entry member other member' =>
      ih entry member (proper' other member')
        (told.parts (numbers_subset_entries member) (numbers_subset_entries member'))]

end Texts

section Results

variable [DecidableEq F] {python : Interpreter F}

theorem same_of_sortText (floats : FloatTexts python) {a b : Value F} (told : Told python (a.numbers ++ b.numbers))
    (texts : sortText python a = sortText python b) :
    (toHashable python a).same python (toHashable python b) = true := by
  apply Value.same_of_repr floats (nested_toHashable a) (nested_toHashable b)
  · exact told.parts (numbers_toHashable a) (numbers_toHashable b)
  · rw [repr_toHashable, repr_toHashable, texts]

theorem same_each {items others : List (Value F)} (same : Value.sameEach python items others = true)
    (each : ∀ item ∈ items, ∀ other ∈ others, item.same python other = true →
      (toHashable python item).same python (toHashable python other) = true) :
    Value.sameEach python (items.map (toHashable python)) (others.map (toHashable python)) = true := by
  obtain ⟨length, zipped⟩ := List.forall₂_iff_zip.mp ((Value.sameEach_iff ..).mp same)
  rw [Value.sameEach_iff, List.forall₂_map_left_iff, List.forall₂_map_right_iff]
  exact List.forall₂_iff_zip.mpr ⟨length, fun {item other} member =>
    each item (List.of_mem_zip member).1 other (List.of_mem_zip member).2 (zipped member)⟩

theorem same_pairs {entries others : List (Text × Value F)} (keys : (entries.map Prod.fst).Nodup)
    (keys' : (others.map Prod.fst).Nodup) (length : entries.length = others.length)
    (same : Value.sameEntries python entries others = true)
    (each : ∀ entry ∈ entries, ∀ other ∈ others, entry.2.same python other.2 = true →
      (toHashable python entry.2).same python (toHashable python other.2) = true) :
    (Value.tuple ((sortBy Prod.fst entries).map (pairOf python))).same python
      (.tuple ((sortBy Prod.fst others).map (pairOf python))) = true := by
  obtain ⟨middle, perm, matched⟩ := Value.exists_perm_entries keys length same
  have sorted : (sortBy Prod.fst entries).map Prod.fst = (sortBy Prod.fst others).map Prod.fst := by
    rw [map_sortBy, map_sortBy, map_eq_of_forall₂ matched fun entry _ other _ paired => paired.1,
      sortBy_id_perm (perm.map Prod.fst)]
  rw [Value.same, Value.sameEach_iff, List.forall₂_map_left_iff, List.forall₂_map_right_iff]
  apply forall₂_of_map_eq sorted
  intro entry member other member' key
  have listed := mem_sortBy.mp member
  obtain ⟨found, member'', key', equal⟩ := (Value.sameEntries_iff python entries others).mp same entry listed
  obtain rfl := List.inj_on_of_nodup_map keys' member'' (mem_sortBy.mp member') (key'.symm.trans key)
  have result := each entry listed found member'' equal
  simp [pairOf, Value.same, Value.sameEach, Atom.same, key', result]

theorem same_toHashable (floats : FloatTexts python) {a b : Value F} (proper : Proper python a)
    (proper' : Proper python b) (told : Told python (setNumbers a ++ setNumbers b)) (same : a.same python b = true) :
    (toHashable python a).same python (toHashable python b) = true := by
  induction proper generalizing b with
  | atom value =>
    cases proper' <;> simp only [Value.same, Bool.false_eq_true] at same
    rw [toHashable, toHashable, Value.same]
    exact same
  | list each ih =>
    cases proper' <;> simp only [Value.same, Bool.false_eq_true] at same
    rename_i others proper'
    rw [toHashable_list, toHashable_list, Value.same]
    exact same_each same fun item member other member' =>
      ih item member (proper' other member')
        (told.parts (setNumbers_subset_each member) (setNumbers_subset_each member'))
  | tuple each ih =>
    cases proper' <;> simp only [Value.same, Bool.false_eq_true] at same
    rename_i others proper'
    rw [toHashable_tuple, toHashable_tuple, Value.same]
    exact same_each same fun item member other member' =>
      ih item member (proper' other member')
        (told.parts (setNumbers_subset_each member) (setNumbers_subset_each member'))
  | @set items each distinct ih =>
    cases proper' <;> simp only [Value.same, Bool.false_eq_true] at same
    rename_i others proper' distinct'
    rw [Bool.and_eq_true, beq_iff_eq] at same
    have perm := texts_perm each proper' distinct same.1 same.2 fun item member other member' =>
      sortText_eq (each item member) (proper' other member')
        (told.parts (numbers_subset_each member) (numbers_subset_each member'))
    have sorted : (sortBy (sortText python) items).map (sortText python) =
        (sortBy (sortText python) others).map (sortText python) := by
      rw [map_sortBy, map_sortBy, sortBy_id_perm perm]
    rw [toHashable_set, toHashable_set, Value.same, Value.sameEach_iff, List.forall₂_map_left_iff,
      List.forall₂_map_right_iff]
    exact forall₂_of_map_eq sorted fun item member other member' =>
      same_of_sortText floats (told.parts (numbers_subset_each (mem_sortBy.mp member))
        (numbers_subset_each (mem_sortBy.mp member')))
  | dict each keys ih =>
    cases proper' <;> simp only [Value.same, Bool.false_eq_true] at same
    rename_i others proper' keys'
    rw [Bool.and_eq_true, beq_iff_eq] at same
    rw [toHashable_dict, toHashable_dict]
    exact same_pairs keys keys' same.1 same.2 fun entry member other member' =>
      ih entry member (proper' other member')
        (told.parts (setNumbers_subset_entries member) (setNumbers_subset_entries member'))
  | object each keys ih =>
    cases proper' <;> simp only [Value.same, Bool.false_eq_true] at same
    rename_i others proper' keys'
    rw [Bool.and_eq_true, Bool.and_eq_true, beq_iff_eq, beq_iff_eq] at same
    have pairs := same_pairs keys keys' same.1.2 same.2 fun entry member other member' =>
      ih entry member (proper' other member')
        (told.parts (setNumbers_subset_entries member) (setNumbers_subset_entries member'))
    rw [toHashable_object, toHashable_object, same.1.1]
    simp [Value.same, Value.sameEach, Atom.same] at pairs ⊢
    exact pairs

variable (python)

/-- Equal values have equal results, and the results can be hashed. -/
def Respected (a b : Value F) : Prop :=
  a.same python b = true → (toHashable python a).same python (toHashable python b) = true ∧
    hashable (toHashable python a) = true ∧ hashable (toHashable python b) = true

theorem respected_iff (a b : Value F) : Respected python a b ↔
    (a.same python b = true → (toHashable python a).same python (toHashable python b) = true) := by
  simp only [Respected, hashable_toHashable, and_true]

/-- The builtin `hash` of atoms and tuples agrees with equality. -/
def HashSound (hash : Value F → Int) : Prop :=
  ∀ first second, Nested first → Nested second → first.same python second = true → hash first = hash second

/-- Equal values without frozensets have equal results and hashes, whatever the order in which their sets and dicts were
    filled, if the numbers in the elements of their sets are equal just where their texts are. -/
theorem toHashable_respects (floats : FloatTexts python) (a b : Value F) (proper : Proper python a)
    (proper' : Proper python b) (told : Told python (setNumbers a ++ setNumbers b)) :
    Respected python a b ∧ ∀ hash, HashSound python hash → a.same python b = true →
      thriftStructHash python hash a = thriftStructHash python hash b := by
  have results := same_toHashable floats proper proper' told
  refine ⟨(respected_iff python a b).mpr results, fun hash sound same => ?_⟩
  exact sound _ _ (nested_toHashable a) (nested_toHashable b) (results same)

end Results

section ConfigGroups

def wholeFloats : Interpreter Int where
  exact value := some (.finite value)
  floatText value := decimal value ++ ".0".toList
  printable _ := true
  objectText cls fields :=
    cls ++ "(".toList ++ commas (fields.map fun field => field.1 ++ "=".toList ++ field.2) ++ ")".toList

def numberValue (value : Number Int) : Value Int := .atom (.number value)

def instanceRange (first last : Number Int) : Value Int :=
  .object "Range".toList [("first".toList, numberValue first), ("last".toList, numberValue last)]

def configGroup (instances : Value Int) : Value Int :=
  .object "ConfigGroup".toList [("config".toList, .atom .none), ("instances".toList, instances)]

theorem floatTexts_wholeFloats : FloatTexts wholeFloats := by
  intro value
  refine ⟨by simp [wholeFloats], fun char member => ?_⟩
  have digits : ∀ char ∈ Nat.toDigits 10 value.natAbs, char.isDigit = true := fun char member =>
    Nat.isDigit_of_mem_toDigits (by decide) (by decide) member
  rcases List.mem_append.mp member with inside | last
  · rw [decimal] at inside
    split at inside
    · rcases List.mem_cons.mp inside with rfl | inside
      · exact .inr (by decide)
      · exact .inl (digits char inside)
    · exact .inl (digits char inside)
  · have point : ∀ char ∈ ".0".toList, char.isDigit = true ∨ char ∈ ['.', 'e', '+', '-', 'i', 'n', 'f', 'a'] := by simp
    exact point char last

theorem proper_instanceRange (first last : Number Int) : Proper wholeFloats (instanceRange first last) := by
  refine .object ?_ (by decide : ["first".toList, "last".toList].Nodup)
  rw [List.forall_mem_cons, List.forall_mem_singleton]
  exact ⟨.atom _, .atom _⟩

theorem proper_configGroup {ranges : List (Value Int)} (each : ∀ range ∈ ranges, Proper wholeFloats range)
    (distinct : ranges.Pairwise fun first second => ¬ first.same wholeFloats second = true) :
    Proper wholeFloats (configGroup (.set ranges)) := by
  refine .object ?_ (by decide : ["config".toList, "instances".toList].Nodup)
  rw [List.forall_mem_cons, List.forall_mem_singleton]
  exact ⟨.atom _, .set each distinct⟩

/-- A group whose ranges were added in two orders. -/
theorem toHashable_respects_configGroup :
    Respected wholeFloats (configGroup (.set [instanceRange (.int 5) (.int 9), instanceRange (.int 1) (.int 2)]))
      (configGroup (.set [instanceRange (.int 1) (.int 2), instanceRange (.int 5) (.int 9)])) := by
  have ranges : ∀ first last other last' : Number Int, ∀ range ∈ [instanceRange first last, instanceRange other last'],
      Proper wholeFloats range := by
    intro first last other last'
    rw [List.forall_mem_cons, List.forall_mem_singleton]
    exact ⟨proper_instanceRange first last, proper_instanceRange other last'⟩
  refine (toHashable_respects wholeFloats floatTexts_wholeFloats _ _ (proper_configGroup (ranges _ _ _ _) ?_)
    (proper_configGroup (ranges _ _ _ _) ?_) ?_).1
  · decide +kernel
  · decide +kernel
  · unfold Told
    decide +kernel

/-- `True` is 1 and is sorted elsewhere, a frozenset is not sorted, and it does not become what a set becomes. -/
theorem not_respected_configGroup :
    ¬ Respected wholeFloats (configGroup (.set [instanceRange (.bool true) (.int 2), instanceRange (.int 5) (.int 9)]))
        (configGroup (.set [instanceRange (.int 1) (.int 2), instanceRange (.int 5) (.int 9)])) ∧
      ¬ Respected wholeFloats (configGroup (.frozenset [numberValue (.int 0), numberValue (.int 8)]))
        (configGroup (.frozenset [numberValue (.int 8), numberValue (.int 0)])) ∧
      ¬ Respected wholeFloats (configGroup (.set [instanceRange (.int 1) (.int 2)]))
        (configGroup (.frozenset [instanceRange (.int 1) (.int 2)])) := by
  simp only [respected_iff]
  decide +kernel

end ConfigGroups

end Aurora.Client.Api
