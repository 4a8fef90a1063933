import Aurora.Client.Api.RollingRestart
import Mathlib.Algebra.BigOperators.Group.Finset.Basic
import Mathlib.Algebra.Group.Action.Defs
import Mathlib.Algebra.Order.BigOperators.Group.Finset

namespace Aurora.Client

open Collections

namespace FailureThreshold

variable {threshold : FailureThreshold}

theorem failures_countFailure (instance_ other : Int) :
    (threshold.countFailure instance_).failures other =
      threshold.failures other + if other = instance_ then 1 else 0 := by
  rw [failures, countFailure, Dict.get?_set]
  split
  · next same =>
    subst same
    rfl
  · rfl

theorem updateFailureCounts_fst (failed : List Int) :
    (threshold.updateFailureCounts failed).1 = failed.foldl countFailure threshold := by
  unfold updateFailureCounts
  exact (List.foldl_hom Prod.fst fun _ _ => rfl).symm

theorem failures_update {failed : List Int} (distinct : failed.Nodup) (other : Int) :
    (threshold.updateFailureCounts failed).1.failures other =
      threshold.failures other + if other ∈ failed then 1 else 0 := by
  rw [updateFailureCounts_fst]
  induction failed generalizing threshold with
  | nil => rfl
  | cons instance_ failed ih =>
    obtain ⟨fresh, distinct⟩ := List.nodup_cons.mp distinct
    rw [List.foldl_cons, ih distinct, failures_countFailure]
    by_cases own : other = instance_
    · subst own
      simp [fresh]
    · simp [own]

theorem updateFailureCounts_limits (failed : List Int) :
    (threshold.updateFailureCounts failed).1.maxPerInstanceFailures = threshold.maxPerInstanceFailures ∧
    (threshold.updateFailureCounts failed).1.maxTotalFailures = threshold.maxTotalFailures := by
  rw [updateFailureCounts_fst]
  induction failed generalizing threshold with
  | nil => exact ⟨rfl, rfl⟩
  | cons instance_ failed ih => exact @ih (threshold.countFailure instance_)

theorem failures_le (intolerant : threshold.maxTotalFailures = 0) (patient : 0 ≤ threshold.maxPerInstanceFailures)
    (fine : threshold.isFailedUpdate = false) (instance_ : Int) :
    (threshold.failures instance_ : Int) ≤ threshold.maxPerInstanceFailures := by
  by_contra many
  rcases known : threshold.failuresByInstance.get? instance_ with _ | count
  · rw [failures, known] at many
    exact many patient
  · rw [failures, known, Option.getD_some, not_le] at many
    have counted : 0 < threshold.exceededInstanceFailCount :=
      List.countP_pos_iff.mpr ⟨_, (Dict.mem_entries _ _ _).mpr known, decide_eq_true many⟩
    rw [isFailedUpdate, intolerant, decide_eq_false_iff_not] at fine
    omega

end FailureThreshold

namespace Restarter

section Restarts

variable {settings : RestartSettings} {rounds : Nat → Round} {initial rolling next : Rolling} {failed : List Int}
  {instance_ : Int}

def restarts (batches : List (List Int × List Int)) (instance_ : Int) : Nat :=
  batches.countP fun entry => instance_ ∈ entry.1

theorem restarts_advance (advanced : Advanced settings rolling next failed) (instance_ : Int) :
    restarts next.batches instance_ =
      restarts rolling.batches instance_ + if instance_ ∈ rolling.batch settings then 1 else 0 := by
  rw [restarts, advanced.batches, List.countP_append, List.countP_singleton, restarts]
  simp

/-- For a list without repetitions, an instance that waits was restarted as often as it was reported failed. -/
structure Counted (rolling : Rolling) : Prop where
  distinct : rolling.instances.Nodup
  waiting : ∀ instance_ ∈ rolling.instances,
    restarts rolling.batches instance_ = rolling.threshold.failures instance_

theorem Counted.advance (counted : Counted rolling) (advanced : Advanced settings rolling next failed) :
    Counted next := by
  have apart : (rolling.batch settings ++ rolling.rest settings).Nodup := batch_append_rest ▸ counted.distinct
  obtain ⟨-, rest_distinct, disjoint⟩ := List.nodup_append'.mp apart
  refine ⟨?_, fun instance_ waits => ?_⟩
  · rw [advanced.instances]
    refine List.nodup_append'.mpr ⟨rest_distinct, advanced.distinct, fun instance_ later ill => ?_⟩
    exact disjoint (advanced.watched ill) later
  · rw [restarts_advance advanced, advanced.threshold, FailureThreshold.failures_update advanced.distinct]
    rw [advanced.instances] at waits
    rcases List.mem_append.mp waits with later | ill
    · have outside : instance_ ∉ rolling.batch settings := fun inside => disjoint inside later
      have fine : instance_ ∉ failed := fun ill => outside (advanced.watched ill)
      rw [if_neg outside, if_neg fine, counted.waiting instance_ (mem_instances.mpr (.inr later))]
    · have inside := advanced.watched ill
      rw [if_pos inside, if_pos ill, counted.waiting instance_ (mem_instances.mpr (.inl inside))]

theorem counted_start {instances : List Int} (distinct : instances.Nodup) : Counted (start settings instances) :=
  ⟨distinct, fun _ _ => rfl⟩

theorem made_counted {instances : List Int} (distinct : instances.Nodup) {count : Nat}
    (reached : made settings rounds (start settings instances) count = some rolling) : Counted rolling :=
  made_invariant (counted_start distinct) (fun _ _ _ counted advanced => counted.advance advanced) reached

theorem rounds_le_restarts {instances : List Int} (some_size : 0 < settings.batchSize) {count : Nat}
    (reached : made settings rounds (start settings instances) count = some rolling) :
    count ≤ ∑ instance_ ∈ instances.toFinset, restarts rolling.batches instance_ := by
  induction count generalizing rolling with
  | zero => exact Nat.zero_le _
  | succ count ih =>
    obtain ⟨before, failed, earlier, advanced⟩ := made_succ reached
    obtain ⟨first, rest, waiting⟩ : ∃ first rest, before.instances = first :: rest := by
      refine List.exists_cons_of_ne_nil fun none_left => ?_
      have going := advanced.going
      rw [Rolling.going, none_left] at going
      cases going
    have inside : first ∈ before.batch settings := by
      obtain ⟨size, size_eq⟩ : ∃ size : Nat, settings.batchSize = size + 1 := ⟨settings.batchSize.toNat - 1, by omega⟩
      have cut : sliceAt settings.batchSize before.instances.length = size + 1 := by
        unfold sliceAt
        split <;> omega
      rw [Rolling.batch, cut, waiting]
      exact List.mem_cons_self
    have asked : first ∈ instances.toFinset :=
      List.mem_toFinset.mpr ((made_sound earlier).requested (mem_instances.mpr (.inl inside)))
    have more : ∑ instance_ ∈ instances.toFinset, restarts before.batches instance_ <
        ∑ instance_ ∈ instances.toFinset, restarts rolling.batches instance_ := by
      refine Finset.sum_lt_sum (fun instance_ _ => ?_) ⟨first, asked, ?_⟩
      · rw [restarts_advance advanced]
        exact Nat.le_add_right _ _
      · rw [restarts_advance advanced, if_pos inside]
        exact Nat.lt_succ_self _
    have := ih earlier
    omega

end Restarts

section Ends

variable (settings : RestartSettings) (instances : List Int) (rounds : Nat → Round)

/-- The scheduler accepts the batch, and the watch is not told to end. -/
def Accepted (round : Round) : Prop :=
  round.response.responseCode = .ok ∧ ∀ batch, (round.watch batch).isSome = true

/-- The restart ends, and no instance is restarted more often than the failures of an instance allow. -/
structure Ends : Prop where
  ended : ∃ fuel, (loop settings rounds fuel 0 (start settings instances)).isSome = true
  bounded : ∀ count rolling, made settings rounds (start settings instances) count = some rolling →
    ∀ instance_, (restarts rolling.batches instance_ : Int) ≤ settings.maxPerInstanceFailures + 1

def Rolling.reports (rolling : Rolling) : List (List Int) := rolling.batches.map Prod.snd

def tally (settings : RestartSettings) (reports : List (List Int)) : FailureThreshold :=
  reports.foldl (fun threshold failed => (threshold.updateFailureCounts failed).1) (start settings []).threshold

/-- Whenever a waiting instance is over its limit by this measure, the reports make the update a failed one before the
    instances in front of it are restarted. -/
def FailsInTime (tooOften : Rolling → Int → Prop) : Prop :=
  ∀ count rolling, made settings rounds (start settings instances) count = some rolling →
    ∀ position instance_, rolling.instances[position]? = some instance_ → tooOften rolling instance_ →
      ∃ further ≤ position / settings.batchSize.toNat, ∃ later,
        made settings rounds (start settings instances) (count + further) = some later ∧
          (tally settings later.reports).isFailedUpdate = true

/-- No batch is taken that holds an instance which this measure counts more often than its failures allow. -/
def Spares (measure : Rolling → Int → Nat) : Prop :=
  ∀ count rolling, made settings rounds (start settings instances) count = some rolling → rolling.going = true →
    ∀ instance_ ∈ rolling.batch settings, (measure rolling instance_ : Int) ≤ settings.maxPerInstanceFailures

variable {settings instances rounds} {rolling : Rolling} {count : Nat}

theorem advance_accepted {initial : Rolling} (accepted : ∀ round, Accepted (rounds round))
    (reached : made settings rounds initial count = some rolling) (going : rolling.going = true) :
    ∃ next failed, made settings rounds initial (count + 1) = some next ∧ Advanced settings rolling next failed := by
  obtain ⟨accepts, watches⟩ := accepted count
  obtain ⟨failed, found⟩ := Option.isSome_iff_exists.mp (watches (rolling.batch settings))
  obtain ⟨next, moved⟩ : ∃ next, rolling.advance settings (rounds count) = .ok next := by
    unfold Rolling.advance
    rw [if_neg (not_not.mpr accepts), found]
    exact ⟨_, rfl⟩
  obtain ⟨failed, advanced⟩ := advance_ok going moved
  refine ⟨next, failed, ?_, advanced⟩
  rw [made, reached]
  dsimp only
  rw [if_pos going, moved]

theorem bounded_of_spares (spares : Spares settings instances rounds fun rolling => restarts rolling.batches)
    (patient : 0 ≤ settings.maxPerInstanceFailures)
    (reached : made settings rounds (start settings instances) count = some rolling) (instance_ : Int) :
    (restarts rolling.batches instance_ : Int) ≤ settings.maxPerInstanceFailures + 1 := by
  induction count generalizing rolling with
  | zero =>
    rw [← Option.some.inj reached]
    exact Int.le_add_one patient
  | succ count ih =>
    obtain ⟨before, failed, earlier, advanced⟩ := made_succ reached
    rw [restarts_advance advanced]
    by_cases inside : instance_ ∈ before.batch settings
    · have spared : (restarts before.batches instance_ : Int) ≤ settings.maxPerInstanceFailures :=
        spares count before earlier advanced.going instance_ inside
      rw [if_pos inside]
      push_cast
      omega
    · rw [if_neg inside]
      exact ih earlier

theorem spares_of_bounded (accepted : ∀ round, Accepted (rounds round))
    (bounded : ∀ count rolling, made settings rounds (start settings instances) count = some rolling →
      ∀ instance_, (restarts rolling.batches instance_ : Int) ≤ settings.maxPerInstanceFailures + 1) :
    Spares settings instances rounds fun rolling => restarts rolling.batches := by
  intro count rolling reached going instance_ inside
  obtain ⟨next, failed, reached', advanced⟩ := advance_accepted accepted reached going
  have bound := bounded (count + 1) next reached' instance_
  rw [restarts_advance advanced, if_pos inside] at bound
  push_cast at bound
  exact Int.le_of_add_le_add_right bound

theorem ended_of_bounded (accepted : ∀ round, Accepted (rounds round)) (some_size : 1 ≤ settings.batchSize)
    (bounded : ∀ count rolling, made settings rounds (start settings instances) count = some rolling →
      ∀ instance_, (restarts rolling.batches instance_ : Int) ≤ settings.maxPerInstanceFailures + 1) :
    ∃ fuel, (loop settings rounds fuel 0 (start settings instances)).isSome = true := by
  obtain ⟨limit, limit_eq⟩ : ∃ limit, limit =
    instances.toFinset.card * (settings.maxPerInstanceFailures + 1).toNat := ⟨_, rfl⟩
  have few : ∀ count rolling, made settings rounds (start settings instances) count = some rolling → count ≤ limit := by
    intro count rolling reached
    refine (rounds_le_restarts some_size reached).trans ?_
    rw [limit_eq, ← smul_eq_mul]
    refine Finset.sum_le_card_nsmul _ _ _ fun instance_ _ => ?_
    have := bounded count rolling reached instance_
    omega
  have beyond : made settings rounds (start settings instances) (limit + 1) = none := by
    refine Option.eq_none_iff_forall_ne_some.mpr fun rolling reached => ?_
    have := few _ _ reached
    omega
  obtain ⟨last, final, reached, stopped⟩ : ∃ last final,
      made settings rounds (start settings instances) last = some final ∧ final.going = false := by
    by_contra on
    push Not at on
    have always : ∀ count, ∃ rolling, made settings rounds (start settings instances) count = some rolling := by
      intro count
      induction count with
      | zero => exact ⟨_, rfl⟩
      | succ count ih =>
        obtain ⟨rolling, reached⟩ := ih
        have going : rolling.going = true := by simpa using on count rolling reached
        obtain ⟨next, -, reached', -⟩ := advance_accepted accepted reached going
        exact ⟨next, reached'⟩
    obtain ⟨rolling, reached⟩ := always (limit + 1)
    rw [beyond] at reached
    cases reached
  obtain ⟨first, start_eq, ended⟩ := loop_of_made reached stopped last le_rfl
  rw [Nat.sub_self] at start_eq ended
  obtain rfl := Option.some.inj start_eq
  exact ⟨last + 1, by rw [ended]; rfl⟩

theorem spares_congr {measure measure' : Rolling → Int → Nat}
    (same : ∀ count rolling, made settings rounds (start settings instances) count = some rolling →
      ∀ instance_ ∈ rolling.batch settings, measure rolling instance_ = measure' rolling instance_) :
    Spares settings instances rounds measure ↔ Spares settings instances rounds measure' := by
  constructor <;> intro spares count rolling reached going instance_ inside
  · exact same count rolling reached instance_ inside ▸ spares count rolling reached going instance_ inside
  · exact (same count rolling reached instance_ inside).symm ▸ spares count rolling reached going instance_ inside

theorem ends_iff_spares (some_size : 1 ≤ settings.batchSize) (patient : 0 ≤ settings.maxPerInstanceFailures)
    (accepted : ∀ round, Accepted (rounds round)) :
    Ends settings instances rounds ↔ Spares settings instances rounds fun rolling => restarts rolling.batches := by
  constructor
  · exact fun ends => spares_of_bounded accepted ends.bounded
  · intro spares
    have bounded : ∀ count rolling, made settings rounds (start settings instances) count = some rolling →
        ∀ instance_, (restarts rolling.batches instance_ : Int) ≤ settings.maxPerInstanceFailures + 1 :=
      fun count rolling reached instance_ => bounded_of_spares spares patient reached instance_
    exact ⟨ended_of_bounded accepted some_size bounded, bounded⟩

theorem made_tally (reached : made settings rounds (start settings instances) count = some rolling) :
    rolling.threshold = tally settings rolling.reports := by
  refine @made_invariant settings rounds (start settings instances) rolling count
    (fun rolling => rolling.threshold = tally settings rolling.reports) rfl ?_ reached
  intro before next failed kept advanced
  have reports : next.reports = before.reports ++ [failed] := by
    rw [Rolling.reports, advanced.batches, List.map_append]
    rfl
  rw [advanced.threshold, kept, reports, tally, tally, List.foldl_append]
  rfl

theorem sliceAt_of_le {size : Int} {length : Nat} (some_size : 1 ≤ size) : sliceAt size length = size.toNat :=
  if_pos (by omega)

/-- An instance that waits is restarted when those in front of it are, unless the update fails before. -/
theorem spares_iff_failsInTime (some_size : 1 ≤ settings.batchSize) (accepted : ∀ round, Accepted (rounds round))
    {measure : Rolling → Int → Nat} (grows : ∀ rolling next failed, Advanced settings rolling next failed →
      ∀ instance_, measure rolling instance_ ≤ measure next instance_) :
    Spares settings instances rounds measure ↔ FailsInTime settings instances rounds fun rolling instance_ =>
      settings.maxPerInstanceFailures < measure rolling instance_ := by
  constructor
  · intro spares count rolling reached position instance_ waits tooOften
    generalize turn : position / settings.batchSize.toNat = turns
    induction turns generalizing count rolling position with
    | zero =>
      refine ⟨0, le_rfl, rolling, reached, ?_⟩
      rw [← made_tally reached]
      by_contra fine
      have going : rolling.going = true := by
        rw [Rolling.going, Bool.and_eq_true, Bool.not_eq_true', Bool.not_eq_true']
        refine ⟨?_, by simpa using fine⟩
        rw [List.isEmpty_eq_false_iff]
        rintro empty
        simp [empty] at waits
      have inside : instance_ ∈ rolling.batch settings := by
        have early : position < settings.batchSize.toNat := (Nat.div_eq_zero_iff_lt (by omega)).mp turn
        rw [Rolling.batch, sliceAt_of_le some_size]
        refine List.mem_of_getElem? (i := position) ?_
        rw [List.getElem?_take_of_lt early, waits]
      exact absurd (spares count rolling reached going instance_ inside) (by omega)
    | succ turns ih =>
      by_cases failed : rolling.threshold.isFailedUpdate = true
      · exact ⟨0, Nat.zero_le _, rolling, reached, made_tally reached ▸ failed⟩
      have going : rolling.going = true := by
        rw [Rolling.going, Bool.and_eq_true, Bool.not_eq_true', Bool.not_eq_true']
        refine ⟨?_, by simpa using failed⟩
        rw [List.isEmpty_eq_false_iff]
        rintro empty
        simp [empty] at waits
      obtain ⟨next, reported, reached', advanced⟩ := advance_accepted accepted reached going
      have late : settings.batchSize.toNat ≤ position := by
        by_contra early
        rw [Nat.div_eq_of_lt (by omega)] at turn
        cases turn
      have turn' : (position - settings.batchSize.toNat) / settings.batchSize.toNat = turns := by
        rw [Nat.div_eq_sub_div (by omega) late] at turn
        exact Nat.add_right_cancel turn
      have waits' : next.instances[position - settings.batchSize.toNat]? = some instance_ := by
        have bound := (List.getElem?_eq_some_iff.mp waits).1
        rw [advanced.instances, Rolling.rest, sliceAt_of_le some_size, List.getElem?_append_left, List.getElem?_drop,
          Nat.add_sub_cancel' late, waits]
        rw [List.length_drop]
        omega
      have tooOften' : settings.maxPerInstanceFailures < measure next instance_ :=
        tooOften.trans_le (Int.ofNat_le.mpr (grows _ _ _ advanced instance_))
      obtain ⟨further, few, later, ended, broken⟩ := ih (count + 1) next reached' _ waits' tooOften' turn'
      exact ⟨further + 1, Nat.succ_le_succ few, later, by rw [← ended]; congr 1; omega, broken⟩
  · intro fails count rolling reached going instance_ inside
    by_contra tooOften
    rw [Rolling.batch, sliceAt_of_le some_size] at inside
    obtain ⟨position, waits⟩ := List.getElem?_of_mem inside
    have early : position < settings.batchSize.toNat := by
      by_contra late
      rw [List.getElem?_take_eq_none (by omega)] at waits
      cases waits
    rw [List.getElem?_take_of_lt early] at waits
    obtain ⟨further, few, later, ended, broken⟩ := fails count rolling reached position instance_ waits (by omega)
    rw [Nat.div_eq_of_lt early, Nat.le_zero] at few
    subst few
    obtain rfl := Option.some.inj (reached.symm.trans ended)
    rw [← made_tally reached] at broken
    rw [Rolling.going, Bool.and_eq_true, Bool.not_eq_true', Bool.not_eq_true'] at going
    exact absurd broken (by simp [going.2])

theorem ends_iff_watched (some_size : 1 ≤ settings.batchSize) (patient : 0 ≤ settings.maxPerInstanceFailures)
    (accepted : ∀ round, Accepted (rounds round)) :
    Ends settings instances rounds ↔ FailsInTime settings instances rounds fun rolling instance_ =>
      settings.maxPerInstanceFailures < restarts rolling.batches instance_ := by
  refine (ends_iff_spares some_size patient accepted).trans (spares_iff_failsInTime some_size accepted ?_)
  intro rolling next failed advanced instance_
  rw [restarts_advance advanced]
  exact Nat.le_add_right _ _

theorem ends_iff_failures (some_size : 1 ≤ settings.batchSize) (patient : 0 ≤ settings.maxPerInstanceFailures)
    (accepted : ∀ round, Accepted (rounds round)) (distinct : instances.Nodup) :
    Ends settings instances rounds ↔ FailsInTime settings instances rounds fun rolling instance_ =>
      settings.maxPerInstanceFailures < (tally settings rolling.reports).failures instance_ := by
  refine (ends_iff_watched some_size patient accepted).trans ?_
  have same : ∀ count rolling, made settings rounds (start settings instances) count = some rolling →
      ∀ instance_ ∈ rolling.instances,
        restarts rolling.batches instance_ = (tally settings rolling.reports).failures instance_ := by
    intro count rolling reached instance_ waits
    rw [← made_tally reached]
    exact (made_counted distinct reached).waiting instance_ waits
  constructor <;> intro fails count rolling reached position instance_ waits tooOften
  · rw [← same count rolling reached instance_ (List.mem_of_getElem? waits)] at tooOften
    exact fails count rolling reached position instance_ waits tooOften
  · rw [same count rolling reached instance_ (List.mem_of_getElem? waits)] at tooOften
    exact fails count rolling reached position instance_ waits tooOften

end Ends

theorem tally_limits (settings : RestartSettings) (reports : List (List Int)) :
    (tally settings reports).maxPerInstanceFailures = settings.maxPerInstanceFailures ∧
      (tally settings reports).maxTotalFailures = settings.maxTotalFailures := by
  induction reports using List.reverseRecOn with
  | nil => exact ⟨rfl, rfl⟩
  | append_singleton reports failed ih =>
    obtain ⟨limit, total⟩ := @FailureThreshold.updateFailureCounts_limits (tally settings reports) failed
    rw [tally, List.foldl_append]
    exact ⟨limit.trans ih.1, total.trans ih.2⟩

/-- Where no instance may fail too often, a list without repetitions always comes to its end. -/
theorem ends_of_no_tolerance (settings : RestartSettings) (instances : List Int) (rounds : Nat → Round)
    (some_size : 1 ≤ settings.batchSize) (patient : 0 ≤ settings.maxPerInstanceFailures)
    (intolerant : settings.maxTotalFailures = 0) (accepted : ∀ round, Accepted (rounds round))
    (distinct : instances.Nodup) : Ends settings instances rounds := by
  refine (ends_iff_failures some_size patient accepted distinct).mpr ?_
  intro count rolling reached position instance_ waits tooOften
  refine ⟨0, Nat.zero_le _, rolling, reached, ?_⟩
  obtain ⟨limit, total⟩ := tally_limits settings rolling.reports
  by_contra fine
  rw [← limit] at patient tooOften
  have few := FailureThreshold.failures_le (total.trans intolerant) patient (by simpa using fine) instance_
  omega

/-- A rolling restart of a list without repetitions ends in time just when the reports of the watches make the update
    fail before the turn of any instance that they have found failed too often; where no instance may be that is always
    so. In a list with repetitions every watch of an instance counts, whatever it reports. -/
theorem restart_ends_iff (settings : RestartSettings) (instances : List Int) (rounds : Nat → Round)
    (some_size : 1 ≤ settings.batchSize) (patient : 0 ≤ settings.maxPerInstanceFailures)
    (accepted : ∀ round, Accepted (rounds round)) :
    (instances.Nodup →
      (Ends settings instances rounds ↔ FailsInTime settings instances rounds fun rolling instance_ =>
        settings.maxPerInstanceFailures < (tally settings rolling.reports).failures instance_) ∧
      (settings.maxTotalFailures = 0 → Ends settings instances rounds)) ∧
    (Ends settings instances rounds ↔ FailsInTime settings instances rounds fun rolling instance_ =>
      settings.maxPerInstanceFailures < restarts rolling.batches instance_) :=
  ⟨fun distinct => ⟨ends_iff_failures some_size patient accepted distinct,
      fun intolerant => ends_of_no_tolerance settings instances rounds some_size patient intolerant accepted distinct⟩,
    ends_iff_watched some_size patient accepted⟩

theorem restart_ends_iff_single :
    (([0] : List Int).Nodup →
      (Ends ⟨1, 0, 0⟩ [0] (fun _ => failingRound) ↔ FailsInTime ⟨1, 0, 0⟩ [0] (fun _ => failingRound)
        fun rolling instance_ => 0 < ((tally ⟨1, 0, 0⟩ rolling.reports).failures instance_ : Int)) ∧
      ((0 : Int) = 0 → Ends ⟨1, 0, 0⟩ [0] fun _ => failingRound)) ∧
    (Ends ⟨1, 0, 0⟩ [0] (fun _ => failingRound) ↔ FailsInTime ⟨1, 0, 0⟩ [0] (fun _ => failingRound)
      fun rolling instance_ => 0 < (restarts rolling.batches instance_ : Int)) :=
  restart_ends_iff ⟨1, 0, 0⟩ [0] (fun _ => failingRound) (by decide) (by decide) fun _ => ⟨rfl, fun _ => rfl⟩

/-- An instance that always fails is restarted a second time, though it may not fail once. -/
theorem restart_unending : ¬ Ends ⟨1, 0, 1⟩ [0] fun _ => failingRound := by
  intro ends
  have twice : (made ⟨1, 0, 1⟩ (fun _ => failingRound) (start ⟨1, 0, 1⟩ [0]) 2).map
      (fun rolling => restarts rolling.batches 0) = some 2 := by decide +kernel
  obtain ⟨rolling, reached, restarted⟩ := Option.map_eq_some_iff.mp twice
  have bound := ends.bounded 2 rolling reached 0
  rw [restarted] at bound
  exact absurd bound (by decide)

end Restarter

end Aurora.Client
