import Mathlib
import Aurora.Library.Runs

namespace Aurora.Client

/-- `api.ttypes.Range`: a closed span of instance ids. -/
structure Range where
  first : Int
  last : Int
  deriving DecidableEq

inductive SubscriptError
  | indexError
  deriving DecidableEq

def enumerate : Int → List Int → List (Int × Int)
  | _, [] => []
  | start, item :: items => (start, item) :: enumerate (start + 1) items

/-- `itertools.groupby`, of which only the groups are used: a new one begins where the key changes. -/
def groupby (key : Int × Int → Int) (pairs : List (Int × Int)) : List (List (Int × Int)) :=
  pairs.splitBy fun a b => key a == key b

namespace UpdaterConfig

def rangeOfSeq (rangeSeq : List Int) : Except SubscriptError Range :=
  match rangeSeq.head?, rangeSeq.getLast? with
  | some first, some last => return ⟨first, last⟩
  | _, _ => throw .indexError

def instancesToRanges (instances : List Int) : Except SubscriptError (Option (List Range)) :=
  if instances = [] then return none
  else do
    let ranges ← (groupby (fun pair => pair.1 - pair.2) (enumerate 0 instances)).mapM fun group =>
      rangeOfSeq (group.map Prod.snd)
    return some ranges

end UpdaterConfig

section Ranges

open UpdaterConfig

variable {instances : List Int} {groups : List (List Int)}

theorem enumerate_values (start : Int) : (enumerate start instances).map Prod.snd = instances := by
  induction instances generalizing start with
  | nil => rfl
  | cons item items ih => rw [enumerate, List.map_cons, ih]

theorem enumerate_steps (sorted : instances.Pairwise (· < ·)) (start : Int) :
    (enumerate start instances).IsChain fun a b => b.1 = a.1 + 1 ∧ a.2 < b.2 := by
  induction instances generalizing start with
  | nil => exact List.isChain_nil
  | cons item items ih =>
    obtain ⟨least, sorted⟩ := List.pairwise_cons.mp sorted
    refine List.isChain_cons.mpr ⟨?_, ih sorted (start + 1)⟩
    intro next mem
    cases items with
    | nil => cases mem
    | cons follows items =>
      obtain rfl := Option.some.inj mem
      exact ⟨rfl, least follows List.mem_cons_self⟩

/-- The groups of one index minus value are the longest runs of consecutive instances. -/
theorem maximal_groups (sorted : instances.Pairwise (· < ·)) (start : Int) :
    Runs.Maximal ((groupby (fun pair => pair.1 - pair.2) (enumerate start instances)).map (List.map Prod.snd)) := by
  refine Runs.maximal_splitBy ((enumerate_steps sorted start).imp ?_)
  rintro a b ⟨index, less⟩
  refine ⟨less, ?_⟩
  have same : (a.1 - a.2 == b.1 - b.2) = true ↔ a.1 - a.2 = b.1 - b.2 := beq_iff_eq
  rw [same]
  omega

theorem rangeOfSeq_ends {rangeSeq : List Int} (nonempty : rangeSeq ≠ []) :
    ∃ range, rangeOfSeq rangeSeq = .ok range ∧
      rangeSeq.head? = some range.first ∧ rangeSeq.getLast? = some range.last := by
  have begins := List.head?_eq_some_head nonempty
  have ends := List.getLast?_eq_some_getLast nonempty
  refine ⟨⟨rangeSeq.head nonempty, rangeSeq.getLast nonempty⟩, ?_, begins, ends⟩
  rw [rangeOfSeq, begins, ends]
  rfl

theorem mapM_rangeOfSeq {groups : List (List (Int × Int))} (nonempty : [] ∉ groups.map (List.map Prod.snd)) :
    ∃ ranges, groups.mapM (fun group => rangeOfSeq (group.map Prod.snd)) = .ok ranges ∧
      Runs.Spans Range.first Range.last (groups.map (List.map Prod.snd)) ranges := by
  induction groups with
  | nil => exact ⟨[], rfl, List.Forall₂.nil⟩
  | cons group groups ih =>
    rw [List.map_cons, List.mem_cons, not_or] at nonempty
    obtain ⟨range, made, ends⟩ := rangeOfSeq_ends (Ne.symm nonempty.1)
    obtain ⟨ranges, others, spans⟩ := ih nonempty.2
    refine ⟨range :: ranges, ?_, List.Forall₂.cons ends spans⟩
    rw [List.mapM_cons, made, others]
    rfl

/-- The ranges of a set of instances are its longest runs, in increasing order: no two of them touch, and together
    they cover just the instances of the set. -/
theorem ranges_of_instances (instances : Finset Int) (nonempty : instances.Nonempty) :
    ∃ ranges, instancesToRanges instances.sort = .ok (some ranges) ∧
      (∀ range ∈ ranges, range.first ≤ range.last) ∧
      (ranges.Pairwise fun range next => range.last + 1 < next.first) ∧
      (∀ n, n ∈ instances ↔ ∃ range ∈ ranges, range.first ≤ n ∧ n ≤ range.last) ∧
      ∀ range ∈ ranges, range.first - 1 ∉ instances ∧ range.last + 1 ∉ instances := by
  have sorted : instances.sort.Pairwise (· < ·) := instances.sortedLT_sort.pairwise
  have maximal := maximal_groups sorted 0
  obtain ⟨ranges, made, spans⟩ := mapM_rangeOfSeq maximal.nonempty
  have all : ((groupby (fun pair => pair.1 - pair.2) (enumerate 0 instances.sort)).map (List.map Prod.snd)).flatten =
      instances.sort := by
    rw [groupby, ← List.map_flatten, List.flatten_splitBy, enumerate_values]
  have covers := Runs.mem_spans maximal spans
  have longest := Runs.spans_maximal maximal spans
  simp only [all, Finset.mem_sort] at covers longest
  have some : instances.sort ≠ [] := by
    obtain ⟨n, mem⟩ := nonempty
    exact List.ne_nil_of_mem ((Finset.mem_sort (· ≤ ·)).mpr mem)
  refine ⟨ranges, ?_, Runs.spans_ordered maximal spans, Runs.spans_apart maximal spans, covers, longest⟩
  rw [instancesToRanges, if_neg some, made]
  rfl

theorem ranges_of_six : ∃ ranges, instancesToRanges ({0, 1, 2, 5, 8, 9} : Finset Int).sort = .ok (some ranges) ∧
    ∀ n, n ∈ ({0, 1, 2, 5, 8, 9} : Finset Int) ↔ ∃ range ∈ ranges, range.first ≤ n ∧ n ≤ range.last := by
  obtain ⟨ranges, made, -, -, covers, -⟩ := ranges_of_instances {0, 1, 2, 5, 8, 9} (by decide)
  exact ⟨ranges, made, covers⟩

end Ranges

end Aurora.Client
