import Aurora.Library.PyValue

namespace Aurora.Client.Api

open PyText PyValue SortBy

variable {F : Type} (python : Interpreter F)

section Definitions

/-- `tuple(sorted((k, ...) for k, v in ...))`: the keys of a dict differ, so the pairs are compared by them alone. -/
def sortedPairs (entries : List (Text × Value F)) : Value F :=
  .tuple ((sortBy Prod.fst entries).map fun entry => .tuple [.atom (.str entry.1), entry.2])

mutual

def toHashable : Value F → Value F
  | .atom value => .atom value
  | .dict entries => sortedPairs (toHashableEntries entries)
  | .list items => .tuple (toHashableEach items)
  | .tuple items => .tuple (toHashableEach items)
  | .set items => .tuple (sortBy (Value.repr python) (toHashableEach items))
  | .object cls fields => .tuple [.atom (.str cls), sortedPairs (toHashableEntries fields)]
  -- a frozenset is no instance of set and has no __dict__
  | .frozenset items => .atom (.str ((Value.frozenset items).repr python))

def toHashableEach : List (Value F) → List (Value F)
  | [] => []
  | item :: items => toHashable item :: toHashableEach items

def toHashableEntries : List (Text × Value F) → List (Text × Value F)
  | [] => []
  | (key, value) :: entries => (key, toHashable value) :: toHashableEntries entries

end

def hashedClasses : List Text :=
  ["Attribute", "ConfigGroup", "Constraint", "HostStatus", "InstanceTaskConfig", "JobConfiguration", "JobKey",
    "JobSummary", "MesosFetcherURI", "Metadata", "PendingReason", "Range", "Resource", "RoleSummary", "ScheduledTask",
    "TaskConfig", "TierConfig"].map String.toList

mutual

def hashable : Value F → Bool
  | .atom _ => true
  | .tuple items => hashableEach items
  | .frozenset items => hashableEach items
  | .object cls _ => hashedClasses.contains cls
  | .list _ | .set _ | .dict _ => false

def hashableEach : List (Value F) → Bool
  | [] => true
  | item :: items => hashable item && hashableEach items

end

def thriftStructHash (hash : Value F → Int) (self : Value F) : Int := hash (toHashable python self)

end Definitions

section Equations

variable (items : List (Value F)) (entries : List (Text × Value F))

theorem toHashableEach_eq : toHashableEach python items = items.map (toHashable python) := by
  induction items with
  | nil => rfl
  | cons item items ih => simp [toHashableEach, ih]

theorem toHashableEntries_eq :
    toHashableEntries python entries = entries.map fun entry => (entry.1, toHashable python entry.2) := by
  induction entries with
  | nil => rfl
  | cons entry entries ih => simp [toHashableEntries, ih]

theorem hashableEach_iff : hashableEach items = true ↔ ∀ item ∈ items, hashable item = true := by
  induction items with
  | nil => simp [hashableEach]
  | cons item items ih => simp [hashableEach, ih]

def pairOf (entry : Text × Value F) : Value F := .tuple [.atom (.str entry.1), toHashable python entry.2]

theorem sortedPairs_eq : sortedPairs (toHashableEntries python entries) =
    .tuple ((sortBy Prod.fst entries).map (pairOf python)) := by
  rw [sortedPairs, toHashableEntries_eq, sortBy_map, List.map_map]
  rfl

theorem toHashable_list : toHashable python (.list items) = .tuple (items.map (toHashable python)) := by
  rw [toHashable, toHashableEach_eq]

theorem toHashable_tuple : toHashable python (.tuple items) = .tuple (items.map (toHashable python)) := by
  rw [toHashable, toHashableEach_eq]

theorem toHashable_dict : toHashable python (.dict entries) =
    .tuple ((sortBy Prod.fst entries).map (pairOf python)) := by
  rw [toHashable, sortedPairs_eq]

theorem toHashable_object (cls : Text) : toHashable python (.object cls entries) =
    .tuple [.atom (.str cls), .tuple ((sortBy Prod.fst entries).map (pairOf python))] := by
  rw [toHashable, sortedPairs_eq]

end Equations

section SortTexts

def entriesText (entries : List (Text × Text)) : Text :=
  tupleText ((sortBy Prod.fst entries).map fun entry => tupleText [reprStr python.printable entry.1, entry.2])

mutual

/-- The text by which a value is put in its place among the elements of a set. -/
def sortText : Value F → Text
  | .atom value => value.repr python
  | .list items => tupleText (sortTextEach items)
  | .tuple items => tupleText (sortTextEach items)
  | .set items => tupleText (sortBy id (sortTextEach items))
  | .frozenset items => reprStr python.printable ((Value.frozenset items).repr python)
  | .dict entries => entriesText python (sortTextEntries entries)
  | .object cls fields => tupleText [reprStr python.printable cls, entriesText python (sortTextEntries fields)]

def sortTextEach : List (Value F) → List Text
  | [] => []
  | item :: items => sortText item :: sortTextEach items

def sortTextEntries : List (Text × Value F) → List (Text × Text)
  | [] => []
  | (key, value) :: entries => (key, sortText value) :: sortTextEntries entries

end

variable {python}

theorem sortTextEach_eq (items : List (Value F)) : sortTextEach python items = items.map (sortText python) := by
  induction items with
  | nil => rfl
  | cons item items ih => simp [sortTextEach, ih]

theorem sortTextEntries_eq (entries : List (Text × Value F)) :
    sortTextEntries python entries = entries.map fun entry => (entry.1, sortText python entry.2) := by
  induction entries with
  | nil => rfl
  | cons entry entries ih => simp [sortTextEntries, ih]

theorem repr_tuple (items : List (Value F)) :
    (Value.tuple items).repr python = tupleText (items.map (Value.repr python)) := by
  rw [Value.repr, Value.reprEach_eq_map]

theorem repr_each {items : List (Value F)}
    (each : ∀ item ∈ items, (toHashable python item).repr python = sortText python item) :
    (items.map (toHashable python)).map (Value.repr python) = sortTextEach python items := by
  rw [List.map_map, sortTextEach_eq]
  exact List.map_congr_left each

theorem repr_pairs {entries : List (Text × Value F)}
    (each : ∀ entry ∈ entries, (toHashable python entry.2).repr python = sortText python entry.2) :
    (Value.tuple ((sortBy Prod.fst entries).map (pairOf python))).repr python =
      entriesText python (sortTextEntries python entries) := by
  rw [repr_tuple, entriesText, sortTextEntries_eq, sortBy_map, List.map_map, List.map_map]
  congr 1
  apply List.map_congr_left
  intro entry member
  simp [pairOf, repr_tuple, Value.repr, Atom.repr, each entry (mem_sortBy.mp member)]

theorem repr_toHashable (value : Value F) : (toHashable python value).repr python = sortText python value := by
  induction value using Value.byParts with
  | atom value => rw [toHashable, sortText, Value.repr]
  | list items each => rw [toHashable_list, repr_tuple, repr_each each, sortText]
  | tuple items each => rw [toHashable_tuple, repr_tuple, repr_each each, sortText]
  | set items each =>
    rw [toHashable, repr_tuple, map_sortBy, toHashableEach_eq, repr_each each, sortText]
  | frozenset items each => rw [toHashable, sortText, Value.repr, Atom.repr]
  | dict entries each => rw [toHashable_dict, repr_pairs each, sortText]
  | object cls fields each =>
    rw [toHashable_object, repr_tuple, List.map_cons, List.map_singleton, repr_pairs each, sortText, Value.repr,
      Atom.repr]

theorem toHashable_set (items : List (Value F)) : toHashable python (.set items) =
    .tuple ((sortBy (sortText python) items).map (toHashable python)) := by
  have texts : Value.repr python ∘ toHashable python = sortText python := by
    funext value
    exact repr_toHashable value
  rw [toHashable, toHashableEach_eq, sortBy_map, texts]

end SortTexts

section Hashable

/-- Whatever is given to it, the result can be hashed. -/
theorem hashable_toHashable (value : Value F) : hashable (toHashable python value) = true := by
  have pairs : ∀ entries : List (Text × Value F), (∀ entry ∈ entries, hashable (toHashable python entry.2) = true) →
      hashable (.tuple ((sortBy Prod.fst entries).map (pairOf python))) = true := by
    intro entries each
    rw [hashable, hashableEach_iff, List.forall_mem_map]
    intro entry member
    simp [pairOf, hashable, hashableEach, each entry (mem_sortBy.mp member)]
  induction value using Value.byParts with
  | atom value => rfl
  | list items each => rwa [toHashable_list, hashable, hashableEach_iff, List.forall_mem_map]
  | tuple items each => rwa [toHashable_tuple, hashable, hashableEach_iff, List.forall_mem_map]
  | set items each =>
    rw [toHashable_set, hashable, hashableEach_iff, List.forall_mem_map]
    exact fun item member => each item (mem_sortBy.mp member)
  | frozenset items each => rw [toHashable, hashable]
  | dict entries each => rw [toHashable_dict, pairs entries each]
  | object cls fields each =>
    rw [toHashable_object, hashable, hashableEach, hashableEach, hashableEach, pairs fields each]
    rfl

end Hashable

end Aurora.Client.Api
