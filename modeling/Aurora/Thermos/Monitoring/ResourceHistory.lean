import Aurora.Common.RingBuffer
import Aurora.Library.Bisect
import Aurora.Library.Replay
import Mathlib.Algebra.Order.Group.Abs
import Mathlib.Algebra.Order.Ring.Rat
import Mathlib.Data.List.DropRight
import Mathlib.Order.Lattice
import Mathlib.Tactic.Linarith

namespace Aurora.Thermos

open Common Bisect Replay

inductive HistoryError
  | valueError (message : String)
  | typeError
  | indexError
  deriving DecidableEq, Repr

/-- A full result is never None, and it has no order with None. -/
structure ResourceHistory (Value : Type) where
  maxlen : Int
  values : RingBuffer (ℚ × Value)

namespace ResourceHistory

variable {Value : Type}

/-- `__init__` without its first sample. -/
def create (maxlen : Int) : Except HistoryError (ResourceHistory Value) :=
  if maxlen ≥ 1 then
    match RingBuffer.create maxlen with
    | .ok values => pure { maxlen, values }
    | .error message => throw (.valueError message)
  else throw (.valueError "maxlen must be greater than 0")

def add (history : ResourceHistory Value) (sample : ℚ × Value) : Except HistoryError (ResourceHistory Value) :=
  if (history.values.getItem (-1)).any fun latest => ¬ sample.1 ≥ latest.1 then
    throw (.valueError "Refusing to add timestamp in the past!")
  else pure { history with values := history.values.append sample }

def addAll : ResourceHistory Value → List (ℚ × Value) → Except HistoryError (ResourceHistory Value) :=
  List.foldlM add

/-- The history with the sample that `__init__` adds unless it is told not to, and with those that follow. -/
def build (maxlen : Int) (first : Option (ℚ × Value)) (samples : List (ℚ × Value)) :
    Except HistoryError (ResourceHistory Value) := do
  addAll (← create maxlen) (first.toList ++ samples)

def len (history : ResourceHistory Value) : Nat := history.values.count

def iter (history : ResourceHistory Value) : List (ℚ × Value) := history.values.iter

def before (timestamp : ℚ) (sample : ℚ × Value) : Except HistoryError Bool :=
  if sample.1 = timestamp then throw .typeError else pure (sample.1 < timestamp)

def item (history : ResourceHistory Value) (key : Int) : Except HistoryError (ℚ × Value) :=
  (history.values.getItem key).elim (throw .indexError) pure

def get (history : ResourceHistory Value) (timestamp : ℚ) : Except HistoryError (ℚ × Value) := do
  let place ← bisectLeft (fun mid => history.item mid >>= before timestamp) history.len
  history.item (min (place : Int) (history.len - 1))

/-- What the history is for: so many of the last samples, by their time. -/
structure Holds (history : ResourceHistory Value) (size : Nat) (samples : List (ℚ × Value)) : Prop where
  sized : history.values.size = size
  recent : history.iter = samples.rtake size
  ordered : samples.Pairwise fun earlier later => earlier.1 ≤ later.1

theorem rtake_concat {α : Type} (items : List α) (item : α) {size : Nat} (positive : 1 ≤ size) :
    (items ++ [item]).rtake size =
      (if (items.rtake size).length < size then items.rtake size else (items.rtake size).tail) ++ [item] := by
  obtain ⟨size, rfl⟩ : ∃ less, size = less + 1 := ⟨size - 1, by omega⟩
  simp only [List.rtake, List.length_append, List.length_singleton, List.length_drop, List.tail_drop]
  split
  · rw [List.drop_append_of_le_length (by omega)]
    congr 2
    omega
  · rw [List.drop_append_of_le_length (by omega)]
    congr 2
    omega

theorem Holds.positive {history : ResourceHistory Value} {size : Nat} {samples : List (ℚ × Value)}
    (holds : history.Holds size samples) : 1 ≤ size := holds.sized ▸ history.values.positive

theorem Holds.newest {history : ResourceHistory Value} {size : Nat} {samples : List (ℚ × Value)}
    (holds : history.Holds size samples) : history.values.getItem (-1) = samples.getLast? := by
  rw [RingBuffer.getItem_last, show history.values.iter = samples.rtake size from holds.recent]
  rcases List.eq_nil_or_concat samples with rfl | ⟨older, latest, rfl⟩
  · simp
  · rw [List.concat_eq_append, rtake_concat older latest holds.positive]
    simp

theorem Holds.add {history later : ResourceHistory Value} {size : Nat} {samples : List (ℚ × Value)} {sample : ℚ × Value}
    (holds : history.Holds size samples) (added : history.add sample = .ok later) :
    later.Holds size (samples ++ [sample]) := by
  rw [ResourceHistory.add] at added
  split at added
  · cases added
  · rename_i newest
    cases added
    refine ⟨(RingBuffer.size_append _ _).trans holds.sized, ?_,
      List.pairwise_append.mpr ⟨holds.ordered, List.pairwise_singleton _ _, ?_⟩⟩
    · have stored := holds.recent
      rw [iter] at stored
      rw [iter, RingBuffer.iter_append, rtake_concat samples sample holds.positive, ← stored, RingBuffer.length_iter,
        holds.sized]
    · intro earlier mem newer same
      obtain rfl : newer = sample := by simpa using same
      rw [holds.newest] at newest
      rcases List.eq_nil_or_concat samples with rfl | ⟨older, latest, rfl⟩
      · cases mem
      · simp only [List.concat_eq_append, List.getLast?_concat, Option.any_some, decide_not, Bool.not_eq_true',
          decide_eq_false_iff_not, not_not, ge_iff_le] at newest
        have ordered := holds.ordered
        simp only [List.concat_eq_append, List.pairwise_append] at ordered
        rcases List.mem_append.mp (List.concat_eq_append ▸ mem) with before | last
        · exact (ordered.2.2 earlier before latest (List.mem_singleton_self _)).trans newest
        · rwa [List.mem_singleton.mp last]

theorem Holds.addAll {history later : ResourceHistory Value} {size : Nat} {samples more : List (ℚ × Value)}
    (holds : history.Holds size samples) (added : history.addAll more = .ok later) :
    later.Holds size (samples ++ more) := by
  induction more generalizing history samples with
  | nil =>
    cases added
    simpa using holds
  | cons sample more ih =>
    rw [ResourceHistory.addAll, List.foldlM_cons, bind_eq_ok] at added
    obtain ⟨next, first, rest⟩ := added
    simpa using ih (holds.add first) rest

theorem create_holds {maxlen : Int} {history : ResourceHistory Value} (created : create maxlen = .ok history) :
    history.Holds maxlen.toNat [] := by
  rw [create, RingBuffer.create] at created
  by_cases positive : maxlen ≥ 1
  · simp only [positive, if_true, dite_true] at created
    cases created
    exact ⟨rfl, by simp [iter, RingBuffer.iter, RingBuffer.count], List.Pairwise.nil⟩
  · rw [if_neg positive] at created
    cases created

/-- The history keeps the last of the samples that were added, in the order of their timestamps. -/
theorem build_holds {maxlen : Int} {first : Option (ℚ × Value)} {samples : List (ℚ × Value)}
    {history : ResourceHistory Value}
    (built : build maxlen first samples = .ok history) : history.Holds maxlen.toNat (first.toList ++ samples) := by
  obtain ⟨empty, created, added⟩ := bind_eq_ok.mp built
  exact (create_holds created).addAll added

theorem Holds.sorted {history : ResourceHistory Value} {size : Nat} {samples : List (ℚ × Value)}
    (holds : history.Holds size samples) : history.iter.Pairwise fun earlier later => earlier.1 ≤ later.1 := by
  rw [holds.recent]
  exact holds.ordered.sublist (List.drop_sublist _ _)

section Search

variable {history : ResourceHistory Value} {timestamp : ℚ} {place : Nat}

theorem length_iter (history : ResourceHistory Value) : history.iter.length = history.len := RingBuffer.length_iter _

theorem item_eq (inside : place < history.iter.length) : history.item place = .ok history.iter[place] := by
  have found : history.values.getItem place = history.iter[place]? :=
    RingBuffer.getItem_nat _ (by rwa [← RingBuffer.length_iter])
  rw [item, found, List.getElem?_eq_getElem inside]
  rfl

theorem probe_eq (inside : place < history.iter.length) :
    (history.item place >>= before timestamp) = before timestamp history.iter[place] := by
  rw [item_eq inside]
  rfl

theorem before_eq_ok {sample : ℚ × Value} {earlier : Bool} :
    before timestamp sample = .ok earlier ↔ sample.1 ≠ timestamp ∧ decide (sample.1 < timestamp) = earlier := by
  rw [before]
  split
  · simp [*, throw, throwThe, MonadExceptOf.throw]
  · simp [*, pure, Except.pure]

theorem search_ok (sorted : history.iter.Pairwise fun earlier later => earlier.1 ≤ later.1)
    (found : bisectLeft (fun mid => history.item mid >>= before timestamp) history.len = .ok place) :
    place ≤ history.len ∧ (∀ sample ∈ history.iter.take place, sample.1 < timestamp) ∧
      ∀ sample ∈ history.iter.drop place, timestamp < sample.1 := by
  rw [← length_iter] at found ⊢
  have below (i : Nat) (inside : i < history.iter.length) (answer : Bool) :
      (history.item i >>= before timestamp) = .ok answer ↔
        history.iter[i].1 ≠ timestamp ∧ decide (history.iter[i].1 < timestamp) = answer := by
    rw [probe_eq inside, before_eq_ok]
  have ordered (i j : Nat) (upto : i ≤ j) (inside : j < history.iter.length) :
      history.iter[i].1 ≤ history.iter[j].1 := by
    rcases Nat.eq_or_lt_of_le upto with rfl | less
    · exact le_refl _
    · exact List.pairwise_iff_getElem.mp sorted i j (by omega) inside less
  obtain ⟨most, left, right⟩ := bisectLeft_ok
    (fun i j upto inside earlier => by
      obtain ⟨-, earlier⟩ := (below j inside true).mp earlier
      have less := (ordered i j upto inside).trans_lt (of_decide_eq_true earlier)
      exact (below i (by omega) true).mpr ⟨less.ne, decide_eq_true less⟩)
    (fun i j upto inside later => by
      obtain ⟨other, later⟩ := (below i (by omega) false).mp later
      have less := (lt_of_le_of_ne (not_lt.mp (of_decide_eq_false later)) other.symm).trans_le (ordered i j upto inside)
      exact (below j inside false).mpr ⟨less.ne', decide_eq_false less.not_gt⟩) found
  refine ⟨most, fun sample mem => ?_, fun sample mem => ?_⟩
  · obtain ⟨i, inside, rfl⟩ := List.mem_take_iff_getElem.mp mem
    exact of_decide_eq_true ((below i (by omega) true).mp (left i (by omega))).2
  · obtain ⟨i, inside, rfl⟩ := List.mem_drop_iff_getElem.mp mem
    obtain ⟨other, later⟩ := (below (place + i) (by omega) false).mp (right (place + i) (by omega) (by omega))
    exact lt_of_le_of_ne (not_lt.mp (of_decide_eq_false later)) other.symm

/-- The comparison of values that have no order is met whenever there is a sample at the very time. -/
theorem get_of_equal (sorted : history.iter.Pairwise fun earlier later => earlier.1 ≤ later.1)
    (equal : ∃ sample ∈ history.iter, sample.1 = timestamp) : ∃ e, history.get timestamp = .error e := by
  cases search : bisectLeft (fun mid => history.item mid >>= before timestamp) history.len with
  | error e =>
    refine ⟨e, ?_⟩
    rw [get, search]
    rfl
  | ok place =>
    obtain ⟨-, left, right⟩ := search_ok sorted search
    obtain ⟨sample, mem, same⟩ := equal
    rw [← List.take_append_drop place history.iter] at mem
    rcases List.mem_append.mp mem with earlier | later
    · exact absurd same (left sample earlier).ne
    · exact absurd same (right sample later).ne'

theorem get_of_fresh (sorted : history.iter.Pairwise fun earlier later => earlier.1 ≤ later.1)
    (some_sample : history.iter ≠ [])
    (fresh : ∀ sample ∈ history.iter, sample.1 ≠ timestamp) :
    ∃ earlier later found, history.iter = earlier ++ later ∧ (∀ sample ∈ earlier, sample.1 < timestamp) ∧
      (∀ sample ∈ later, timestamp < sample.1) ∧ history.get timestamp = .ok found ∧
      later.head?.or earlier.getLast? = some found := by
  have length := length_iter history
  have positive := List.length_pos_iff.mpr some_sample
  cases search : bisectLeft (fun mid => history.item mid >>= before timestamp) history.len with
  | error e =>
    obtain ⟨place, inside, failed⟩ := bisectLeft_error search
    rw [← length] at inside
    rw [probe_eq inside, before, if_neg (fresh _ (List.getElem_mem inside))] at failed
    cases failed
  | ok place =>
    obtain ⟨most, left, right⟩ := search_ok sorted search
    have got : history.get timestamp = history.item (min (place : Int) (history.len - 1)) := by
      rw [get, search]
      rfl
    rcases Nat.eq_or_lt_of_le most with rfl | inside
    · have last : min (history.len : Int) (history.len - 1) = ((history.iter.length - 1 : Nat) : Int) := by omega
      refine ⟨history.iter, [], history.iter.getLast some_sample, by simp, ?_, by simp, ?_,
        by simp [List.getLast?_eq_some_getLast some_sample]⟩
      · rwa [← length, List.take_length] at left
      · rw [got, last, item_eq (by omega), List.getLast_eq_getElem]
    · have first : min (place : Int) (history.len - 1) = place := by omega
      rw [← length] at inside
      refine ⟨history.iter.take place, history.iter.drop place, history.iter[place],
        (List.take_append_drop ..).symm, left,
        right, ?_, ?_⟩
      · rw [got, first, item_eq inside]
      · rw [List.drop_eq_getElem_cons inside]
        rfl

end Search

/-- A stored sample that no other is nearer to. -/
def Nearest (history : ResourceHistory Value) (timestamp : ℚ) (found : ℚ × Value) : Prop :=
  found ∈ history.iter ∧ ∀ sample ∈ history.iter, |found.1 - timestamp| ≤ |sample.1 - timestamp|

/-- No sample is stored for the very time, and a later one, if there is one, is as near as each of the earlier ones. -/
structure Suits (history : ResourceHistory Value) (timestamp : ℚ) : Prop where
  fresh : ∀ sample ∈ history.iter, sample.1 ≠ timestamp
  later : (∃ sample ∈ history.iter, timestamp < sample.1) → ∀ earlier ∈ history.iter, earlier.1 < timestamp →
    ∃ sample ∈ history.iter, timestamp < sample.1 ∧ sample.1 - timestamp ≤ timestamp - earlier.1

section Split

variable {history : ResourceHistory Value} {timestamp : ℚ} {earlier later : List (ℚ × Value)} {found : ℚ × Value}

theorem nearest_latest (sorted : history.iter.Pairwise fun earlier later => earlier.1 ≤ later.1)
    (left : ∀ sample ∈ history.iter, sample.1 < timestamp) (latest : history.iter.getLast? = some found) :
    history.Nearest timestamp found := by
  obtain ⟨older, split⟩ := List.getLast?_eq_some_iff.mp latest
  have stored : found ∈ history.iter := by simp [split]
  refine ⟨stored, fun sample mem => ?_⟩
  have upto : sample.1 ≤ found.1 := by
    rw [split, List.pairwise_append] at sorted
    rw [split] at mem
    rcases List.mem_append.mp mem with old | last
    · exact sorted.2.2 sample old found (List.mem_singleton_self _)
    · rw [List.mem_singleton.mp last]
  rw [abs_of_neg (sub_neg.mpr (left found stored)), abs_of_neg (sub_neg.mpr (left sample mem))]
  linarith

theorem nearest_first (sorted : history.iter.Pairwise fun earlier later => earlier.1 ≤ later.1)
    (split : history.iter = earlier ++ found :: later) (left : ∀ sample ∈ earlier, sample.1 < timestamp)
    (right : timestamp < found.1) :
    history.Nearest timestamp found ↔ ∀ sample ∈ earlier, found.1 - timestamp ≤ timestamp - sample.1 := by
  have after := (List.pairwise_cons.mp (List.pairwise_append.mp (split ▸ sorted)).2.1).1
  rw [Nearest, split]
  constructor
  · rintro ⟨-, nearest⟩ sample mem
    have near := nearest sample (List.mem_append_left _ mem)
    rwa [abs_of_pos (sub_pos.mpr right), abs_of_neg (sub_neg.mpr (left sample mem)), neg_sub] at near
  · intro near
    refine ⟨by simp, fun sample mem => ?_⟩
    rw [abs_of_pos (sub_pos.mpr right)]
    rcases List.mem_append.mp mem with before | after_
    · rw [abs_of_neg (sub_neg.mpr (left sample before)), neg_sub]
      exact near sample before
    · have upto : found.1 ≤ sample.1 := by
        rcases List.mem_cons.mp after_ with rfl | rest
        · exact le_refl _
        · exact after sample rest
      exact le_trans (by linarith) (le_abs_self _)

theorem suits_first (sorted : history.iter.Pairwise fun earlier later => earlier.1 ≤ later.1)
    (split : history.iter = earlier ++ found :: later) (left : ∀ sample ∈ earlier, sample.1 < timestamp)
    (right : ∀ sample ∈ found :: later, timestamp < sample.1) :
    history.Suits timestamp ↔ ∀ sample ∈ earlier, found.1 - timestamp ≤ timestamp - sample.1 := by
  have after := (List.pairwise_cons.mp (List.pairwise_append.mp (split ▸ sorted)).2.1).1
  constructor
  · intro suits sample mem
    obtain ⟨nearer, stored, follows, near⟩ :=
      suits.later ⟨found, by simp [split], right found List.mem_cons_self⟩ sample (by simp [split, mem])
        (left sample mem)
    have upto : found.1 ≤ nearer.1 := by
      rw [split] at stored
      rcases List.mem_append.mp stored with before | after_
      · exact absurd (left nearer before) follows.not_gt
      · rcases List.mem_cons.mp after_ with rfl | rest
        · exact le_refl _
        · exact after nearer rest
    linarith
  · intro near
    constructor
    · intro sample mem
      rw [split] at mem
      rcases List.mem_append.mp mem with before | after_
      · exact (left sample before).ne
      · exact (right sample after_).ne'
    · rintro - sample mem before
      rw [split] at mem
      rcases List.mem_append.mp mem with old | new
      · exact ⟨found, by simp [split], right found List.mem_cons_self, near sample old⟩
      · exact absurd before (right sample new).not_gt

end Split

theorem get_nearest_iff {maxlen : Int} {first : Option (ℚ × Value)} {samples : List (ℚ × Value)}
    {history : ResourceHistory Value} (built : build maxlen first samples = .ok history) (some_sample : history.len ≠ 0)
    (timestamp : ℚ) :
    (∃ found, history.get timestamp = .ok found ∧ history.Nearest timestamp found) ↔ history.Suits timestamp := by
  have sorted := (build_holds built).sorted
  have not_nil : history.iter ≠ [] := by
    intro nil
    rw [← length_iter, nil] at some_sample
    exact some_sample rfl
  by_cases fresh : ∀ sample ∈ history.iter, sample.1 ≠ timestamp
  · obtain ⟨earlier, later, chosen, split, left, right, got, choice⟩ := get_of_fresh sorted not_nil fresh
    have only : (∃ found, history.get timestamp = .ok found ∧ history.Nearest timestamp found) ↔
        history.Nearest timestamp chosen := by simp [got]
    rw [only]
    cases later with
    | nil =>
      rw [List.append_nil] at split
      rw [← split] at left
      have latest := nearest_latest sorted left (by simpa [split] using choice)
      refine iff_of_true latest ⟨fresh, ?_⟩
      rintro ⟨sample, mem, after⟩
      exact absurd (left sample mem) after.not_gt
    | cons next later =>
      obtain rfl : next = chosen := by simpa using choice
      rw [nearest_first sorted split left (right next List.mem_cons_self), suits_first sorted split left right]
  · push Not at fresh
    obtain ⟨e, failed⟩ := get_of_equal sorted fresh
    obtain ⟨sample, mem, same⟩ := fresh
    refine iff_of_false ?_ fun suits => suits.fresh sample mem same
    rintro ⟨found, got, -⟩
    rw [failed] at got
    cases got

theorem get_nearest_near_later :
    ∃ history, build 2 none [(0, "idle"), (4, "start"), (10, "busy")] = .ok history ∧
      ∃ found, history.get 9 = .ok found ∧ history.Nearest 9 found := by
  have built : build 2 none [((0 : ℚ), "idle"), (4, "start"), (10, "busy")] = .ok _ := rfl
  refine ⟨_, built, (get_nearest_iff built (by decide) 9).mpr ⟨by decide, fun _ earlier mem before => ?_⟩⟩
  have stored : earlier ∈ [((4 : ℚ), "start"), (10, "busy")] := mem
  refine ⟨(10, "busy"), by decide, by norm_num, ?_⟩
  rcases List.mem_cons.mp stored with rfl | stored
  · norm_num
  · rw [List.mem_singleton.mp stored] at before
    norm_num at before

theorem get_not_nearest :
    ∃ history, build 2 none [(0, "idle"), (10, "busy")] = .ok history ∧
      (history.get 1 = .ok (10, "busy") ∧ ¬ ∃ found, history.get 1 = .ok found ∧ history.Nearest 1 found) ∧
      history.get 10 = .error .typeError ∧ ¬ ∃ found, history.get 10 = .ok found ∧ history.Nearest 10 found := by
  refine ⟨_, rfl, ⟨by decide, ?_⟩, by decide, ?_⟩
  · rintro ⟨found, got, nearest⟩
    obtain rfl : (10, "busy") = found := Except.ok.inj got
    have nearer := nearest.2 (0, "idle") (by decide)
    norm_num at nearer
  · rintro ⟨found, got, -⟩
    cases got

end ResourceHistory

end Aurora.Thermos
