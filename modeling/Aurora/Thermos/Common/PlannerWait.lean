import Aurora.Thermos.Common.PlannerCounts
import Mathlib.Data.Finset.Max
import Mathlib.Tactic.NormNum
import Mathlib.Tactic.Ring

namespace Aurora.Thermos

open Collections Replay

namespace TaskPlanner

/-- `INFINITY`, which is `sys.float_info.max` and so a number like any other. -/
def infinity : Time := (2 ^ 53 - 1) * 2 ^ 971

def minWait (plan : TaskPlanner) (timestamp : Time) : Time :=
  if plan.runnableAt timestamp ≠ ∅ then 0
  else
    let waits := (plan.waitingAt timestamp).image (fun waiter => plan.getWait waiter timestamp)
    if present : waits.Nonempty then waits.min' present else infinity

variable {plan : TaskPlanner} {process : Name} {timestamp delay : Time}

section Gates

theorem mem_runnableAt : process ∈ plan.runnableAt timestamp ↔
    process ∈ plan.planner.runnable ∧ plan.getWait process timestamp ≤ 0 := by
  simp only [runnableAt, isReady, Finset.mem_filter, decide_eq_true_eq]

theorem mem_waitingAt : process ∈ plan.waitingAt timestamp ↔
    process ∈ plan.planner.runnable ∧ 0 < plan.getWait process timestamp := by
  simp only [waitingAt, isReady, Finset.mem_filter, decide_eq_true_eq, not_le]

theorem runnableAt_disjoint_waitingAt (plan : TaskPlanner) (timestamp : Time) :
    Disjoint (plan.runnableAt timestamp) (plan.waitingAt timestamp) :=
  Finset.disjoint_filter_filter_not _ _ _

theorem waitingAt_eq_runnable (unready : plan.runnableAt timestamp = ∅) :
    plan.waitingAt timestamp = plan.planner.runnable := by
  rw [← runnableAt_union_waitingAt plan timestamp, unready, Finset.empty_union]

theorem getWait_later (waits : 0 < plan.getWait process timestamp) :
    plan.getWait process (timestamp + delay) = plan.getWait process timestamp - delay := by
  unfold getWait at waits ⊢
  split at waits
  · ring
  · exact absurd waits (lt_irrefl 0)

theorem runnableAt_later (waiting : process ∈ plan.waitingAt timestamp) :
    process ∈ plan.runnableAt (timestamp + delay) ↔ plan.getWait process timestamp ≤ delay := by
  obtain ⟨runnable, waits⟩ := mem_waitingAt.mp waiting
  rw [mem_runnableAt, getWait_later waits, sub_nonpos]
  exact and_iff_right runnable

end Gates

section Least

theorem minWait_of_ready (ready : (plan.runnableAt timestamp).Nonempty) : plan.minWait timestamp = 0 :=
  if_pos ready.ne_empty

theorem minWait_of_idle (idle : plan.planner.runnable = ∅) : plan.minWait timestamp = infinity := by
  simp [minWait, runnableAt, waitingAt, idle]

/-- With nothing ready, `min_wait` is the shortest of the waits. -/
theorem minWait_of_waiting (unready : plan.runnableAt timestamp = ∅) (present : plan.planner.runnable.Nonempty) :
    ∃ first ∈ plan.waitingAt timestamp, plan.minWait timestamp = plan.getWait first timestamp ∧
      ∀ other ∈ plan.waitingAt timestamp, plan.minWait timestamp ≤ plan.getWait other timestamp := by
  rw [← waitingAt_eq_runnable unready] at present
  have listed : ((plan.waitingAt timestamp).image (fun waiter => plan.getWait waiter timestamp)).Nonempty :=
    present.image _
  have least : plan.minWait timestamp = Finset.min' _ listed := by
    simp only [minWait, unready, ne_eq, not_true_eq_false, if_false, dif_pos listed]
  obtain ⟨first, waiting, shortest⟩ := Finset.mem_image.mp (Finset.min'_mem _ listed)
  refine ⟨first, waiting, least.trans shortest.symm, fun other member => ?_⟩
  rw [least]
  exact Finset.min'_le _ _ (Finset.mem_image_of_mem _ member)

theorem infinity_pos : 0 < infinity := by norm_num [infinity]

theorem minWait_pos (unready : plan.runnableAt timestamp = ∅) : 0 < plan.minWait timestamp := by
  rcases plan.planner.runnable.eq_empty_or_nonempty with idle | present
  · rw [minWait_of_idle idle]
    exact infinity_pos
  · obtain ⟨first, waiting, same, _⟩ := minWait_of_waiting unready present
    rw [same]
    exact (mem_waitingAt.mp waiting).2

theorem minWait_eq_zero : plan.minWait timestamp = 0 ↔ (plan.runnableAt timestamp).Nonempty := by
  constructor
  · intro zero
    by_contra unready
    have positive := minWait_pos (Finset.not_nonempty_iff_eq_empty.mp unready)
    exact absurd zero positive.ne'
  · exact minWait_of_ready

def FirstReadyAfter (plan : TaskPlanner) (timestamp wait : Time) : Prop :=
  (plan.runnableAt (timestamp + wait)).Nonempty ∧
    ∀ delay, 0 ≤ delay → delay < wait → plan.runnableAt (timestamp + delay) = ∅

theorem firstReadyAfter_minWait (present : plan.planner.runnable.Nonempty) :
    FirstReadyAfter plan timestamp (plan.minWait timestamp) := by
  rcases (plan.runnableAt timestamp).eq_empty_or_nonempty with unready | ready
  · obtain ⟨first, waiting, same, least⟩ := minWait_of_waiting unready present
    refine ⟨⟨first, (runnableAt_later waiting).mpr same.ge⟩, fun delay _ early => ?_⟩
    rw [Finset.eq_empty_iff_forall_notMem]
    intro process ready
    have waits : process ∈ plan.waitingAt timestamp := by
      rw [waitingAt_eq_runnable unready]
      exact (mem_runnableAt.mp ready).1
    have elapsed := (runnableAt_later waits).mp ready
    exact absurd (least process waits) (not_le.mpr (lt_of_le_of_lt elapsed early))
  · rw [minWait_of_ready ready]
    refine ⟨by rwa [add_zero], fun delay nonneg early => ?_⟩
    exact absurd early (not_lt.mpr nonneg)

theorem FirstReadyAfter.runnable {wait : Time} (first : FirstReadyAfter plan timestamp wait) :
    plan.planner.runnable.Nonempty := by
  obtain ⟨process, ready⟩ := first.1
  exact ⟨process, (mem_runnableAt.mp ready).1⟩

/-- The moment at which the first process becomes ready is the only one of its kind. -/
theorem FirstReadyAfter.unique {first second : Time} (left : FirstReadyAfter plan timestamp first)
    (right : FirstReadyAfter plan timestamp second) (nonneg : 0 ≤ first) (nonneg' : 0 ≤ second) : first = second := by
  apply le_antisymm
  · by_contra later
    have nobody := left.2 second nonneg' (not_le.mp later)
    exact right.1.ne_empty nobody
  · by_contra later
    have nobody := right.2 first nonneg (not_le.mp later)
    exact left.1.ne_empty nobody

theorem minWait_nonneg (plan : TaskPlanner) (timestamp : Time) : 0 ≤ plan.minWait timestamp := by
  rcases (plan.runnableAt timestamp).eq_empty_or_nonempty with unready | ready
  · exact (minWait_pos unready).le
  · exact (minWait_of_ready ready).ge

theorem minWait_eq_infinity : plan.minWait timestamp = infinity ↔
    plan.planner.runnable = ∅ ∨ FirstReadyAfter plan timestamp infinity := by
  constructor
  · intro infinite
    rcases plan.planner.runnable.eq_empty_or_nonempty with idle | present
    · exact .inl idle
    · exact .inr (infinite ▸ firstReadyAfter_minWait present)
  · rintro (idle | first)
    · exact minWait_of_idle idle
    · exact (firstReadyAfter_minWait first.runnable).unique first (minWait_nonneg plan timestamp) infinity_pos.le

end Least

section Reachable

theorem perform_processes (operation : Operation) (plan : TaskPlanner) :
    (final ((perform operation).run plan)).planner.processes = plan.planner.processes := by
  cases operation with
  | setRunning process => exact (setRunning_moved process plan).processes
  | addSuccess process timestamp => exact (addSuccess_moved process timestamp plan).processes
  | addFailure process timestamp => exact (addFailure_moved process timestamp plan).processes
  | lost process timestamp => exact (lost_moved process timestamp plan).processes
  | setFailed process =>
    rw [perform, setFailed, onPlanner_run, Planner.setFailed_run]
    split_ifs <;> rfl

theorem afterAll_processes (operations : List Operation) (plan : TaskPlanner) :
    (afterAll operations plan).planner.processes = plan.planner.processes := by
  induction operations generalizing plan with
  | nil => rfl
  | cons operation rest ih => exact (ih _).trans (perform_processes operation plan)

/-- Every process that could be asked for its wait has the attributes that `get_wait` looks up. -/
theorem afterAll_known {limit : Nat} {task : Task} {filter : Process → Bool}
    (planned : init limit task filter = .ok plan) (operations : List Operation)
    (runnable : process ∈ (afterAll operations plan).planner.runnable) :
    ∃ attributes, (afterAll operations plan).attributes.get? process = some attributes := by
  have listed := ((Planner.mem_runnable _ process).mp runnable).1
  rw [afterAll_processes] at listed
  obtain ⟨definition, _, _, _, known⟩ := (fresh_of_init planned).1.known process listed
  exact ⟨taskAttributes definition, by rw [(afterAll_task operations plan).attributes, known]⟩

/-- What a plan says about its waits at one moment. -/
structure TellsWaits (plan : TaskPlanner) (timestamp : Time) : Prop where
  known : ∀ process ∈ plan.planner.runnable, ∃ attributes, plan.attributes.get? process = some attributes
  all : plan.runnableAt timestamp ∪ plan.waitingAt timestamp = plan.planner.runnable
  apart : Disjoint (plan.runnableAt timestamp) (plan.waitingAt timestamp)
  zero_iff : plan.minWait timestamp = 0 ↔ (plan.runnableAt timestamp).Nonempty
  first : plan.planner.runnable.Nonempty → FirstReadyAfter plan timestamp (plan.minWait timestamp)
  infinity_iff : plan.minWait timestamp = infinity ↔
    plan.planner.runnable = ∅ ∨ FirstReadyAfter plan timestamp infinity

theorem minWait_exact {limit : Nat} {task : Task} {filter : Process → Bool}
    (planned : init limit task filter = .ok plan) (operations : List Operation) (timestamp : Time) :
    TellsWaits (afterAll operations plan) timestamp where
  known := fun _ runnable => afterAll_known planned operations runnable
  all := runnableAt_union_waitingAt _ timestamp
  apart := runnableAt_disjoint_waitingAt _ timestamp
  zero_iff := minWait_eq_zero
  first := firstReadyAfter_minWait
  infinity_iff := minWait_eq_infinity

/-- A daemon that rests for `sys.float_info.max` seconds between its runs. -/
def nightly : Task where
  processes := [{ name := "backup", daemon := true, minDuration := (2 ^ 53 - 1) * 2 ^ 971 }]

def backedUp : List Operation := [.setRunning "backup", .addSuccess "backup" 0]

theorem minWait_exact_nightly : ∃ plan, init 100 nightly (fun _ => true) = .ok plan ∧
    TellsWaits (afterAll backedUp plan) 7 := by
  have accepted : (init 100 nightly (fun _ => true)).isOk = true := by decide +kernel
  obtain ⟨plan, planned⟩ := exists_of_isOk accepted
  exact ⟨plan, planned, minWait_exact planned backedUp 7⟩

/-- `min_wait` is `INFINITY` although a process waits. -/
theorem minWait_infinity_nightly : ∃ plan, init 100 nightly (fun _ => true) = .ok plan ∧
    (afterAll backedUp plan).minWait 0 = infinity ∧ (afterAll backedUp plan).planner.runnable = {"backup"} ∧
    (afterAll backedUp plan).waitingAt 0 = {"backup"} := by
  have computed : (init 100 nightly (fun _ => true)).toOption.map (fun plan =>
      decide ((afterAll backedUp plan).minWait 0 = infinity ∧ (afterAll backedUp plan).planner.runnable = {"backup"} ∧
        (afterAll backedUp plan).waitingAt 0 = {"backup"})) = some true := by decide +kernel
  cases planned : init 100 nightly (fun _ => true) with
  | error e => rw [planned] at computed; cases computed
  | ok plan =>
    rw [planned] at computed
    exact ⟨plan, rfl, of_decide_eq_true (Option.some.inj computed)⟩

end Reachable

end TaskPlanner

end Aurora.Thermos
