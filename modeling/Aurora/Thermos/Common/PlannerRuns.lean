import Aurora.Thermos.Common.PlannerTask

namespace Aurora.Thermos

open Collections Replay Precedence

namespace TaskPlanner

section Runs

variable {before after : TaskPlanner}

structure Continues (before after : TaskPlanner) : Prop where
  sameTask : SameTask before after
  processes : after.planner.processes = before.planner.processes
  dependencies : after.planner.dependencies = before.planner.dependencies
  finished : before.planner.finished ⊆ after.planner.finished
  failed : before.planner.failed ⊆ after.planner.failed
  valid : before.planner.Valid → after.planner.Valid

theorem Continues.refl (plan : TaskPlanner) : Continues plan plan :=
  ⟨⟨rfl, rfl, rfl⟩, rfl, rfl, Finset.Subset.refl _, Finset.Subset.refl _, id⟩

theorem Continues.trans {first second third : TaskPlanner} (left : Continues first second)
    (right : Continues second third) : Continues first third where
  sameTask := ⟨right.sameTask.attributes.trans left.sameTask.attributes,
    right.sameTask.ephemerals.trans left.sameTask.ephemerals,
    right.sameTask.totalRunLimit.trans left.sameTask.totalRunLimit⟩
  processes := right.processes.trans left.processes
  dependencies := right.dependencies.trans left.dependencies
  finished := left.finished.trans right.finished
  failed := left.failed.trans right.failed
  valid := fun valid => right.valid (left.valid valid)

theorem Stepped.continues {process : Name} (step : Stepped process before after) : Continues before after :=
  ⟨step.1, step.2.schedule_kept.1, step.2.schedule_kept.2, step.2.finished_kept, step.2.failed_kept,
    fun valid => valid.change step.2⟩

theorem continues_of_feed {operations : List Operation}
    (ran : (feed perform operations).run before = .ok () after) : Continues before after := by
  refine feed_state_invariant (Continues.refl before) ?_ ran
  intro operation middle _ next reached step
  exact reached.trans (perform_stepped step).continues

theorem setRunning_ready {process : Name} (ran : (setRunning process).run before = .ok () after) :
    process ∉ before.planner.failed ∧ process ∉ before.planner.finished ∧
      (process ∈ before.planner.running ∨ process ∈ before.planner.runnable) := by
  rw [setRunning, onPlanner_run, Planner.setRunning_run] at ran
  split_ifs at ran with met
  exact met

theorem settled_not_started {operations : List Operation} {process : Name}
    (ran : (feed perform operations).run before = .ok () after)
    (settled : process ∈ before.planner.finished ∨ process ∈ before.planner.failed) :
    .setRunning process ∉ operations := by
  intro started
  obtain ⟨first, rest, rfl⟩ := List.append_of_mem started
  obtain ⟨middle, reached, continued⟩ := feed_prefix_ok perform ran
  rw [feed_cons] at continued
  cases step : (perform (.setRunning process)).run middle with
  | error e next => simp [step] at continued
  | ok _ next =>
    obtain ⟨unbroken, unfinished, _⟩ := setRunning_ready step
    have kept := continues_of_feed reached
    rcases settled with ceased | broken
    · exact unfinished (kept.finished ceased)
    · exact unbroken (kept.failed broken)

end Runs

section Task

variable {limit : Nat} {task : Task} {filter : Process → Bool} {plan middle after : TaskPlanner}

/-- A plan that was built for a task and then driven by operations. -/
structure Reached (task : Task) (filter : Process → Bool) (plan : TaskPlanner) : Prop where
  selected : ∀ name, name ∈ plan.planner.processes ↔ Selected task filter name
  needs : ∀ process need, plan.planner.Needs process need ↔ Precedes task filter need process
  ephemerals : plan.ephemerals ⊆ plan.planner.processes
  valid : plan.planner.Valid

theorem Fresh.reached (fresh : Fresh task filter plan) : Reached task filter plan where
  selected := fresh.selected
  needs := fresh.needs
  ephemerals := by
    intro name member
    obtain ⟨process, listed, accepted, _, named⟩ := (fresh.ephemerals name).mp member
    exact (fresh.selected name).mpr ⟨process, listed, accepted, named⟩
  valid := fresh.valid

theorem Reached.continues (reached : Reached task filter plan) (continued : Continues plan after) :
    Reached task filter after where
  selected := by rw [continued.processes]; exact reached.selected
  needs := by
    intro process need
    simp only [Planner.Needs, continued.processes, continued.dependencies]
    exact reached.needs process need
  ephemerals := by rw [continued.sameTask.ephemerals, continued.processes]; exact reached.ephemerals
  valid := continued.valid reached.valid

theorem reached_of_run {operations : List Operation} (planned : init limit task filter = .ok plan)
    (ran : (feed perform operations).run plan = .ok () after) : Reached task filter after :=
  (fresh_of_init planned).1.reached.continues (continues_of_feed ran)

theorem Reached.predecessors_finished (reached : Reached task filter plan) {process need : Name}
    (ready : process ∈ plan.planner.running ∨ process ∈ plan.planner.runnable ∨
      process ∈ plan.planner.finished ∨ process ∈ plan.planner.failed)
    (edge : Precedes task filter need process) : need ∈ plan.planner.finished := by
  have listed := ((reached.needs process need).mpr edge).2
  rcases ready with active | waiting | ceased | broken
  · exact reached.valid.ordered process (.inl active) listed
  · exact ((plan.planner.mem_runnable process).mp waiting).2.2.2.2 listed
  · exact reached.valid.ordered process (.inr (.inl ceased)) listed
  · exact reached.valid.ordered process (.inr (.inr broken)) listed

/-- What holds between any two moments of a run of operations. -/
structure Ordered (task : Task) (filter : Process → Bool) (rest : List Operation) (middle after : TaskPlanner) :
    Prop where
  running : ∀ process ∈ middle.planner.running, Selected task filter process
  finished : ∀ process ∈ middle.planner.finished, Selected task filter process
  failed : ∀ process ∈ middle.planner.failed, Selected task filter process
  apart : Disjoint middle.planner.running middle.planner.finished ∧
    Disjoint middle.planner.running middle.planner.failed ∧
    Disjoint middle.planner.finished middle.planner.failed
  started : ∀ process tail, rest = .setRunning process :: tail →
    ∀ need, Precedes task filter need process → need ∈ middle.planner.finished
  predecessors : ∀ process, process ∈ middle.planner.running ∨ process ∈ middle.planner.finished ∨
      process ∈ middle.planner.failed →
    ∀ need, Precedes task filter need process → need ∈ middle.planner.finished ∧ need ∈ after.planner.finished
  stays : middle.planner.finished ⊆ after.planner.finished ∧ middle.planner.failed ⊆ after.planner.failed
  final : ∀ process, process ∈ middle.planner.finished ∨ process ∈ middle.planner.failed →
    .setRunning process ∉ rest

theorem runs_ordered (planned : init limit task filter = .ok plan) (first rest : List Operation)
    (ran : (feed perform first).run plan = .ok () middle)
    (continued : (feed perform rest).run middle = .ok () after) : Ordered task filter rest middle after := by
  have reached := reached_of_run planned ran
  have kept := continues_of_feed continued
  constructor
  · intro process active
    exact (reached.selected process).mp (reached.valid.running active)
  · intro process ceased
    exact (reached.selected process).mp (reached.valid.finished ceased)
  · intro process broken
    exact (reached.selected process).mp (reached.valid.failed broken)
  · exact ⟨reached.valid.activeUnfinished, reached.valid.activeUnbroken, reached.valid.finishedUnbroken⟩
  · rintro process tail rfl need edge
    rw [feed_cons] at continued
    cases step : (perform (.setRunning process)).run middle with
    | error e next => simp [step] at continued
    | ok _ next =>
      obtain ⟨_, _, ready⟩ := setRunning_ready step
      rcases ready with active | waiting
      · exact reached.predecessors_finished (.inl active) edge
      · exact reached.predecessors_finished (.inr (.inl waiting)) edge
  · intro process member need edge
    have met : need ∈ middle.planner.finished := by
      rcases member with active | settled
      · exact reached.predecessors_finished (.inl active) edge
      · exact reached.predecessors_finished (.inr (.inr settled)) edge
    exact ⟨met, kept.finished met⟩
  · exact ⟨kept.finished, kept.failed⟩
  · intro process settled
    exact settled_not_started continued settled

theorem runnableAt_union_waitingAt (plan : TaskPlanner) (now : Time) :
    plan.runnableAt now ∪ plan.waitingAt now = plan.planner.runnable :=
  Finset.filter_union_filter_not_eq _ _

theorem mem_isComplete (reached : Reached task filter plan) :
    plan.isComplete = true ↔ ∀ process ∈ plan.planner.processes, process ∉ plan.ephemerals →
      process ∈ plan.planner.finished ∨ process ∈ plan.planner.failed := by
  simp only [isComplete, decide_eq_true_eq]
  constructor
  · intro same process member ordinary
    rw [same] at member
    rcases Finset.mem_union.mp member with member | ephemeral
    · exact Finset.mem_union.mp member
    · exact absurd ephemeral ordinary
  · intro settled
    apply Finset.Subset.antisymm
    · intro process member
      by_cases ephemeral : process ∈ plan.ephemerals
      · exact Finset.mem_union_right _ ephemeral
      · exact Finset.mem_union_left _ (Finset.mem_union.mpr (settled process member ephemeral))
    · exact Finset.union_subset (Finset.union_subset reached.valid.finished reached.valid.failed) reached.ephemerals

/-- `process` comes after a failed one, through one or more constraint edges. -/
def BlockedBy (task : Task) (filter : Process → Bool) (failed : Finset Name) (process : Name) : Prop :=
  Blocked (fun process need => Precedes task filter need process) {name | name ∈ failed} process

theorem Reached.blocked (reached : Reached task filter plan) (idle : plan.planner.running = ∅)
    (stuck : plan.planner.runnable = ∅) {process : Name} (member : process ∈ plan.planner.processes)
    (unfinished : process ∉ plan.planner.finished) (unbroken : process ∉ plan.planner.failed) :
    BlockedBy task filter plan.planner.failed process := by
  have ranked : WellFounded (fun need process => Precedes task filter need process) := by
    have same : (fun need process => Precedes task filter need process) =
        fun need process => plan.planner.Needs process need := by
      funext need process
      exact propext (reached.needs process need).symm
    rw [same]
    exact plan.planner.needs_wellFounded
  refine blocked_of_stuck {name | name ∈ plan.planner.finished}
    {name | name ∈ plan.planner.processes ∧ name ∉ plan.planner.finished ∧ name ∉ plan.planner.failed}
    ranked ?_ ?_ ⟨member, unfinished, unbroken⟩
  · intro item _ need edge
    have known := plan.planner.needs_planned ((reached.needs item need).mpr edge)
    by_cases ceased : need ∈ plan.planner.finished
    · exact .inl ceased
    · by_cases broken : need ∈ plan.planner.failed
      · exact .inr (.inl broken)
      · exact .inr (.inr ⟨known, ceased, broken⟩)
  · rintro item ⟨known, unfinished, unbroken⟩
    have waits : ¬ plan.planner.dependencies item ⊆ plan.planner.finished := by
      intro met
      have ready := (plan.planner.mem_runnable item).mpr
        ⟨known, by simp [idle], unfinished, unbroken, met⟩
      rw [stuck] at ready
      exact absurd ready (Finset.notMem_empty item)
    obtain ⟨need, listed, unmet⟩ := Finset.not_subset.mp waits
    exact ⟨need, (reached.needs item need).mp ⟨known, listed⟩, unmet⟩

theorem Reached.never_runnable (reached : Reached task filter plan) {process : Name}
    (blocked : BlockedBy task filter plan.planner.failed process) : process ∉ plan.planner.runnable := by
  intro ready
  have apart : Disjoint {name | name ∈ plan.planner.finished} {name | name ∈ plan.planner.failed} :=
    Set.disjoint_left.mpr fun _ ceased broken =>
      Finset.disjoint_left.mp reached.valid.finishedUnbroken ceased broken
  obtain ⟨need, edge, unmet⟩ := Precedence.Blocked.unmet {name | name ∈ plan.planner.finished}
    (fun item ceased need edge => reached.predecessors_finished (.inr (.inr (.inl ceased))) edge) apart blocked
  exact unmet (reached.predecessors_finished (.inr (.inl ready)) edge)

theorem BlockedBy.mono {failed more : Finset Name} {process : Name} (blocked : BlockedBy task filter failed process)
    (kept : failed ⊆ more) : BlockedBy task filter more process := by
  obtain ⟨cause, member, path⟩ := blocked
  exact ⟨cause, kept member, path⟩

/-- Work is left over and all of it comes after failures. -/
def BlockedByFailures (task : Task) (filter : Process → Bool) (plan : TaskPlanner) : Prop :=
  (∃ process ∈ plan.planner.processes, process ∉ plan.ephemerals ∧ process ∉ plan.planner.finished ∧
      process ∉ plan.planner.failed) ∧
    ∀ process ∈ plan.planner.processes, process ∉ plan.ephemerals → process ∉ plan.planner.finished →
      process ∉ plan.planner.failed → BlockedBy task filter plan.planner.failed process

theorem deadlock_is_blockage (planned : init limit task filter = .ok plan) (operations : List Operation)
    (ran : (feed perform operations).run plan = .ok () middle) (now : Time) :
    (middle.planner.running = ∅ → middle.runnableAt now = ∅ → middle.waitingAt now = ∅ →
        middle.isComplete = true ∨ BlockedByFailures task filter middle) ∧
      (middle.deadlockedAt now = true → BlockedByFailures task filter middle) ∧
      ∀ process, BlockedBy task filter middle.planner.failed process →
        ∀ more after, (feed perform more).run middle = .ok () after →
          ∀ later, process ∉ after.runnableAt later ∧ process ∉ after.waitingAt later := by
  have reached := reached_of_run planned ran
  have quiet : middle.planner.running = ∅ → middle.runnableAt now = ∅ → middle.waitingAt now = ∅ →
      middle.isComplete = true ∨ BlockedByFailures task filter middle := by
    intro idle unready unwaiting
    have stuck : middle.planner.runnable = ∅ := by
      rw [← runnableAt_union_waitingAt middle now, unready, unwaiting, Finset.empty_union]
    by_cases complete : middle.isComplete = true
    · exact .inl complete
    · right
      refine ⟨?_, fun process member _ ceased broken => reached.blocked idle stuck member ceased broken⟩
      rw [mem_isComplete reached] at complete
      push Not at complete
      obtain ⟨process, member, ordinary, ceased, broken⟩ := complete
      exact ⟨process, member, ordinary, ceased, broken⟩
  refine ⟨quiet, ?_, ?_⟩
  · intro deadlocked
    simp only [deadlockedAt, decide_eq_true_eq] at deadlocked
    obtain ⟨idle, unready, unwaiting, incomplete⟩ := deadlocked
    rcases quiet idle unready unwaiting with complete | blocked
    · exact absurd complete incomplete
    · exact blocked
  · intro process blocked more after continued later
    have kept := continues_of_feed continued
    have never := (reached.continues kept).never_runnable (blocked.mono kept.failed)
    exact ⟨fun ready => never (Finset.mem_filter.mp ready).1, fun waiting => never (Finset.mem_filter.mp waiting).1⟩

end Task

/-- Two processes in order, and the first of them allowed to fail once. -/
def pipeline : Task where
  processes := [{ name := "fetch", maxFailures := 2 }, { name := "build" }]
  constraints := [{ order := ["fetch", "build"] }]

def fetched : List Operation :=
  [.setRunning "fetch", .addFailure "fetch" 1, .setRunning "fetch", .addSuccess "fetch" 2, .setRunning "build"]

/-- Whether a plan can be built and then driven by two rounds of operations. -/
def accepts (task : Task) (first rest : List Operation) : Bool :=
  match init 100 task (fun _ => true) with
  | .error _ => false
  | .ok plan =>
    match (feed perform first).run plan with
    | .error _ _ => false
    | .ok _ middle =>
      match (feed perform rest).run middle with
      | .error _ _ => false
      | .ok _ _ => true

theorem accepts_runs {task : Task} {first rest : List Operation} (accepted : accepts task first rest = true) :
    ∃ plan middle after, init 100 task (fun _ => true) = .ok plan ∧
      (feed perform first).run plan = .ok () middle ∧ (feed perform rest).run middle = .ok () after := by
  unfold accepts at accepted
  split at accepted
  · cases accepted
  · rename_i plan planned
    split at accepted
    · cases accepted
    · rename_i middle ran
      split at accepted
      · cases accepted
      · rename_i after continued
        exact ⟨plan, middle, after, planned, ran, continued⟩

theorem runs_ordered_pipeline : ∃ plan middle after, init 100 pipeline (fun _ => true) = .ok plan ∧
    (feed perform fetched).run plan = .ok () middle ∧
    Ordered pipeline (fun _ => true) [.addFailure "build" 3] middle after := by
  obtain ⟨plan, middle, after, planned, ran, continued⟩ :=
    accepts_runs (show accepts pipeline fetched [.addFailure "build" 3] = true by decide +kernel)
  exact ⟨plan, middle, after, planned, ran, runs_ordered planned fetched [.addFailure "build" 3] ran continued⟩

theorem deadlock_is_blockage_pipeline : ∃ plan middle, init 100 pipeline (fun _ => true) = .ok plan ∧
    (feed perform [.setRunning "fetch", .setFailed "fetch"]).run plan = .ok () middle ∧
    (middle.deadlockedAt 0 = true → BlockedByFailures pipeline (fun _ => true) middle) := by
  obtain ⟨plan, middle, _, planned, ran, _⟩ :=
    accepts_runs (show accepts pipeline [.setRunning "fetch", .setFailed "fetch"] [] = true by decide +kernel)
  exact ⟨plan, middle, planned, ran, (deadlock_is_blockage planned _ ran 0).2.1⟩

end TaskPlanner

end Aurora.Thermos
