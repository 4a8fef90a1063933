import Aurora.Library.Precedence
import Aurora.Thermos.Common.Planner

namespace Aurora.Thermos

open Collections

theorem assertThat_run {σ : Type} (condition : Prop) [Decidable condition] (state : σ) :
    (assertThat condition : EStateM Error σ Unit).run state =
      if condition then .ok () state else .error .assertion state := by
  unfold assertThat
  by_cases holds : condition <;> simp [holds]

namespace Planner

section Schedule

variable {α : Type} [DecidableEq α]

/-- The rounds of the scheduling loop number the processes so that dependencies come first. -/
theorem rank_of_unscheduled (rounds : Nat) (processes : Finset α) (dependencies : α → Finset α)
    (scheduled : unscheduled rounds processes dependencies = ∅) :
    ∃ rank : α → Nat, ∀ process ∈ processes, ∀ need ∈ dependencies process,
      need ∈ processes ∧ rank need < rank process := by
  induction rounds generalizing processes dependencies with
  | zero =>
    simp only [unscheduled] at scheduled
    exact ⟨fun _ => 0, by simp [scheduled]⟩
  | succ rounds ih =>
    simp only [unscheduled] at scheduled
    split at scheduled
    · exact ⟨fun _ => 0, by simp [scheduled]⟩
    · obtain ⟨rank, ranked⟩ := ih _ _ scheduled
      refine ⟨fun process => if process ∈ filterRunnable processes dependencies then 0 else rank process + 1, ?_⟩
      intro process member need edge
      have waiting : process ∉ filterRunnable processes dependencies := by
        intro ready
        have free := (Finset.mem_filter.mp ready).2
        rw [free] at edge
        exact absurd edge (Finset.notMem_empty need)
      by_cases early : need ∈ filterRunnable processes dependencies
      · have known := (Finset.mem_filter.mp early).1
        exact ⟨known, by simp [early, waiting]⟩
      · have left : process ∈ processes \ filterRunnable processes dependencies :=
          Finset.mem_sdiff.mpr ⟨member, waiting⟩
        obtain ⟨known, lower⟩ := ranked process left need (Finset.mem_sdiff.mpr ⟨edge, early⟩)
        refine ⟨(Finset.mem_sdiff.mp known).1, ?_⟩
        simp only [early, waiting, if_false]
        omega

def Needs (planner : Planner α) (process need : α) : Prop :=
  process ∈ planner.processes ∧ need ∈ planner.dependencies process

theorem needs_ranked (planner : Planner α) : ∃ rank : α → Nat, ∀ process need, planner.Needs process need →
    need ∈ planner.processes ∧ rank need < rank process := by
  have scheduled : unscheduled planner.processes.card planner.processes planner.dependencies = ∅ := by
    simpa [satisfiable] using planner.schedule
  obtain ⟨rank, ranked⟩ := rank_of_unscheduled _ _ _ scheduled
  exact ⟨rank, fun process need edge => ranked process edge.1 need edge.2⟩

theorem needs_planned (planner : Planner α) {process need : α} (edge : planner.Needs process need) :
    need ∈ planner.processes := by
  obtain ⟨rank, ranked⟩ := planner.needs_ranked
  exact (ranked process need edge).1

theorem needs_wellFounded (planner : Planner α) : WellFounded (fun need process => planner.Needs process need) := by
  obtain ⟨rank, ranked⟩ := planner.needs_ranked
  exact Precedence.wellFounded_of_rank rank (fun process need edge => (ranked process need edge).2)

end Schedule

section Operations

variable {α : Type} [DecidableEq α] (planner : Planner α) (process : α)

theorem mem_runnable : process ∈ planner.runnable ↔
    process ∈ planner.processes ∧ process ∉ planner.running ∧ process ∉ planner.finished ∧
      process ∉ planner.failed ∧ planner.dependencies process ⊆ planner.finished := by
  simp only [runnable, filterRunnable, filterDependencies, Finset.mem_filter, Finset.mem_sdiff,
    Finset.sdiff_eq_empty_iff_subset, and_assoc]

theorem reset_run : (reset process).run planner =
    if process ∈ planner.running ∧ process ∉ planner.finished ∧ process ∉ planner.failed then
      .ok () { planner with running := planner.running.erase process }
    else .error .assertion planner := by
  by_cases active : process ∈ planner.running <;> by_cases ceased : process ∈ planner.finished <;>
    by_cases broken : process ∈ planner.failed <;> simp [reset, assertThat_run, active, ceased, broken]

theorem setRunning_run : (setRunning process).run planner =
    if process ∉ planner.failed ∧ process ∉ planner.finished ∧
        (process ∈ planner.running ∨ process ∈ planner.runnable) then
      .ok () { planner with running := insert process planner.running }
    else .error .assertion planner := by
  by_cases broken : process ∈ planner.failed <;> by_cases ceased : process ∈ planner.finished <;>
    by_cases ready : process ∈ planner.running ∨ process ∈ planner.runnable <;>
    simp [setRunning, assertThat_run, ready, ceased, broken]

theorem setFinished_run : (setFinished process).run planner =
    if process ∈ planner.running ∧ process ∉ planner.failed then
      .ok () { planner with
        running := planner.running.erase process, finished := insert process planner.finished }
    else .error .assertion planner := by
  by_cases active : process ∈ planner.running <;> by_cases broken : process ∈ planner.failed <;>
    simp [setFinished, assertThat_run, active, broken]

theorem setFailed_run : (setFailed process).run planner =
    if process ∈ planner.running ∧ process ∉ planner.finished then
      .ok () { planner with
        running := planner.running.erase process, failed := insert process planner.failed }
    else .error .assertion planner := by
  by_cases active : process ∈ planner.running <;> by_cases ceased : process ∈ planner.finished <;>
    simp [setFailed, assertThat_run, active, ceased]

end Operations

section Changes

variable {α : Type} [DecidableEq α]

inductive Change (process : α) (before : Planner α) : Planner α → Prop
  | started (unbroken : process ∉ before.failed) (unfinished : process ∉ before.finished)
      (ready : process ∈ before.running ∨ process ∈ before.runnable) :
      Change process before { before with running := insert process before.running }
  | reset (active : process ∈ before.running) :
      Change process before { before with running := before.running.erase process }
  | finished (active : process ∈ before.running) (unbroken : process ∉ before.failed) :
      Change process before { before with
        running := before.running.erase process, finished := insert process before.finished }
  | failed (active : process ∈ before.running) (unfinished : process ∉ before.finished) :
      Change process before { before with
        running := before.running.erase process, failed := insert process before.failed }

/-- All that the end of a run of a process can do to a planner; `breaks` is what it takes to fail for
    good. -/
inductive Settles (process : α) (breaks : Prop) (before : Planner α) : Planner α → Prop
  | reset (active : process ∈ before.running) :
      Settles process breaks before { before with running := before.running.erase process }
  | finished (active : process ∈ before.running) (unbroken : process ∉ before.failed) :
      Settles process breaks before { before with
        running := before.running.erase process, finished := insert process before.finished }
  | failed (broke : breaks) (active : process ∈ before.running) (unfinished : process ∉ before.finished) :
      Settles process breaks before { before with
        running := before.running.erase process, failed := insert process before.failed }

theorem Settles.active {process : α} {breaks : Prop} {before after : Planner α}
    (settles : Settles process breaks before after) : process ∈ before.running := by
  cases settles <;> assumption

theorem Settles.change {process : α} {breaks : Prop} {before after : Planner α}
    (settles : Settles process breaks before after) : Change process before after := by
  cases settles with
  | reset active => exact .reset active
  | finished active unbroken => exact .finished active unbroken
  | failed _ active unfinished => exact .failed active unfinished

structure Valid (planner : Planner α) : Prop where
  running : planner.running ⊆ planner.processes
  finished : planner.finished ⊆ planner.processes
  failed : planner.failed ⊆ planner.processes
  activeUnfinished : Disjoint planner.running planner.finished
  activeUnbroken : Disjoint planner.running planner.failed
  finishedUnbroken : Disjoint planner.finished planner.failed
  ordered : ∀ process, process ∈ planner.running ∨ process ∈ planner.finished ∨ process ∈ planner.failed →
    planner.dependencies process ⊆ planner.finished

theorem valid_initial (processes : Finset α) (dependencies : α → Finset α)
    (schedule : satisfiable processes dependencies = true) :
    Valid { processes, dependencies, schedule } := by
  constructor <;> simp

variable {process : α} {before after : Planner α}

theorem Change.schedule_kept (change : Change process before after) :
    after.processes = before.processes ∧ after.dependencies = before.dependencies := by
  cases change <;> exact ⟨rfl, rfl⟩

theorem Change.finished_kept (change : Change process before after) : before.finished ⊆ after.finished := by
  cases change with
  | finished active unbroken => exact Finset.subset_insert process before.finished
  | _ => exact Finset.Subset.refl _

theorem Change.failed_kept (change : Change process before after) : before.failed ⊆ after.failed := by
  cases change with
  | failed active unfinished => exact Finset.subset_insert process before.failed
  | _ => exact Finset.Subset.refl _

theorem Valid.ordered_of_ready (valid : before.Valid)
    (ready : process ∈ before.running ∨ process ∈ before.runnable) :
    process ∈ before.processes ∧ before.dependencies process ⊆ before.finished := by
  rcases ready with active | waiting
  · exact ⟨valid.running active, valid.ordered process (.inl active)⟩
  · have facts := (before.mem_runnable process).mp waiting
    exact ⟨facts.1, facts.2.2.2.2⟩

theorem Valid.change (valid : before.Valid) (change : Change process before after) : after.Valid := by
  obtain ⟨running, finished, failed, activeUnfinished, activeUnbroken, finishedUnbroken, ordered⟩ := valid
  have fewer : before.running.erase process ⊆ before.running := Finset.erase_subset process before.running
  cases change with
  | started unbroken unfinished ready =>
    have known := Valid.ordered_of_ready
      ⟨running, finished, failed, activeUnfinished, activeUnbroken, finishedUnbroken, ordered⟩ ready
    refine ⟨Finset.insert_subset known.1 running, finished, failed,
      Finset.disjoint_insert_left.mpr ⟨unfinished, activeUnfinished⟩,
      Finset.disjoint_insert_left.mpr ⟨unbroken, activeUnbroken⟩, finishedUnbroken, ?_⟩
    intro other member
    rcases member with member | member
    · rcases Finset.mem_insert.mp member with rfl | member
      · exact known.2
      · exact ordered other (.inl member)
    · exact ordered other (.inr member)
  | reset active =>
    refine ⟨fewer.trans running, finished, failed, activeUnfinished.mono_left fewer,
      activeUnbroken.mono_left fewer, finishedUnbroken, ?_⟩
    intro other member
    rcases member with member | member
    · exact ordered other (.inl (fewer member))
    · exact ordered other (.inr member)
  | finished active unbroken =>
    refine ⟨fewer.trans running, Finset.insert_subset (running active) finished, failed,
      Finset.disjoint_insert_right.mpr ⟨Finset.notMem_erase process _, activeUnfinished.mono_left fewer⟩,
      activeUnbroken.mono_left fewer, Finset.disjoint_insert_left.mpr ⟨unbroken, finishedUnbroken⟩, ?_⟩
    intro other member
    apply Finset.Subset.trans ?_ (Finset.subset_insert process before.finished)
    rcases member with member | member | member
    · exact ordered other (.inl (fewer member))
    · rcases Finset.mem_insert.mp member with rfl | member
      · exact ordered other (.inl active)
      · exact ordered other (.inr (.inl member))
    · exact ordered other (.inr (.inr member))
  | failed active unfinished =>
    refine ⟨fewer.trans running, finished, Finset.insert_subset (running active) failed,
      activeUnfinished.mono_left fewer,
      Finset.disjoint_insert_right.mpr ⟨Finset.notMem_erase process _, activeUnbroken.mono_left fewer⟩,
      Finset.disjoint_insert_right.mpr ⟨unfinished, finishedUnbroken⟩, ?_⟩
    intro other member
    rcases member with member | member | member
    · exact ordered other (.inl (fewer member))
    · exact ordered other (.inr (.inl member))
    · rcases Finset.mem_insert.mp member with rfl | member
      · exact ordered other (.inl active)
      · exact ordered other (.inr (.inr member))

end Changes

end Planner

namespace TaskPlanner

/-- What the caller of a plan can ask of it. -/
inductive Operation
  | setRunning (process : Name)
  | addSuccess (process : Name) (timestamp : Time)
  | addFailure (process : Name) (timestamp : Time)
  | lost (process : Name) (timestamp : Time)
  | setFailed (process : Name)

def Operation.process : Operation → Name
  | .setRunning process | .addSuccess process _ | .addFailure process _ | .lost process _ | .setFailed process =>
    process

def perform : Operation → EStateM Error TaskPlanner Unit
  | .setRunning process => setRunning process
  | .addSuccess process timestamp => addSuccess process timestamp
  | .addFailure process timestamp => addFailure process timestamp
  | .lost process timestamp => lost process timestamp
  | .setFailed process => setFailed process

theorem onPlanner_run (action : EStateM Error (Planner Name) Unit) (plan : TaskPlanner) :
    (onPlanner action).run plan =
      match action.run plan.planner with
      | .ok _ planner => .ok () { plan with planner }
      | .error e planner => .error e { plan with planner } := rfl

structure SameTask (before after : TaskPlanner) : Prop where
  attributes : after.attributes = before.attributes
  ephemerals : after.ephemerals = before.ephemerals
  totalRunLimit : after.totalRunLimit = before.totalRunLimit

section Steps

variable {before after : TaskPlanner} {process : Name}

def Stepped (process : Name) (before after : TaskPlanner) : Prop :=
  SameTask before after ∧ Planner.Change process before.planner after.planner

theorem setRunning_stepped (ran : (setRunning process).run before = .ok () after) :
    Stepped process before after := by
  rw [setRunning, onPlanner_run, Planner.setRunning_run] at ran
  split_ifs at ran with met
  cases ran
  exact ⟨⟨rfl, rfl, rfl⟩, .started met.1 met.2.1 met.2.2⟩

theorem hasReachedRunLimit_mono (limit : after.totalRunLimit = before.totalRunLimit)
    (grown : ∀ name, before.successes name + before.failures name + before.losses name ≤
      after.successes name + after.failures name + after.losses name) (name : Name)
    (reached : before.hasReachedRunLimit name = true) : after.hasReachedRunLimit name = true := by
  simp only [hasReachedRunLimit, decide_eq_true_eq] at reached ⊢
  have more := grown name
  omega

/-- What the end of a run leaves of a plan: a process fails for good only at the run limit, or if it is not
    ephemeral. -/
structure Settled (process : Name) (before after : TaskPlanner) : Prop where
  task : SameTask before after
  counted : ∀ name, before.hasReachedRunLimit name = true → after.hasReachedRunLimit name = true
  settles : before.planner.Settles process
    (after.hasReachedRunLimit process = true ∨
      ∃ attributes, before.attributes.get? process = some attributes ∧ attributes.isEphemeral = false)
    after.planner

theorem Settled.stepped (settled : Settled process before after) : Stepped process before after :=
  ⟨settled.task, settled.settles.change⟩

theorem reset_settled (ran : (onPlanner (Planner.reset process)).run before = .ok () after) :
    Settled process before after := by
  rw [onPlanner_run, Planner.reset_run] at ran
  split_ifs at ran with met
  cases ran
  exact ⟨⟨rfl, rfl, rfl⟩, fun _ => id, .reset met.1⟩

theorem setFinished_settled (ran : (onPlanner (Planner.setFinished process)).run before = .ok () after) :
    Settled process before after := by
  rw [onPlanner_run, Planner.setFinished_run] at ran
  split_ifs at ran with met
  cases ran
  exact ⟨⟨rfl, rfl, rfl⟩, fun _ => id, .finished met.1 met.2⟩

theorem setFailed_settled (ran : (onPlanner (Planner.setFailed process)).run before = .ok () after)
    (broke : before.hasReachedRunLimit process = true ∨
      ∃ attributes, before.attributes.get? process = some attributes ∧ attributes.isEphemeral = false) :
    Settled process before after := by
  rw [onPlanner_run, Planner.setFailed_run] at ran
  split_ifs at ran with met
  cases ran
  exact ⟨⟨rfl, rfl, rfl⟩, fun _ => id, .failed broke met.1 met.2⟩

theorem attributesOf_run (process : Name) (plan : TaskPlanner) :
    (attributesOf process).run plan =
      match plan.attributes.get? process with
      | some attributes => .ok attributes plan
      | none => .error (.keyError process) plan := by
  simp only [attributesOf, EStateM.run_bind, EStateM.run_get]
  cases plan.attributes.get? process <;> rfl

theorem failureTransition_settled (ran : (failureTransition process).run before = .ok () after) :
    Settled process before after := by
  simp only [failureTransition, EStateM.run_bind, EStateM.run_get] at ran
  split at ran
  · rename_i limited
    exact setFailed_settled ran (.inl limited)
  · simp only [EStateM.run_bind, attributesOf_run] at ran
    cases known : before.attributes.get? process with
    | none => simp only [known] at ran; cases ran
    | some attributes =>
      simp only [known] at ran
      split at ran
      · exact reset_settled ran
      · split at ran
        · exact setFinished_settled ran
        · rename_i lasting
          have lasting : attributes.isEphemeral = false := by simpa using lasting
          exact setFailed_settled ran (.inr ⟨attributes, known, lasting⟩)

theorem successTransition_settled (ran : (successTransition process).run before = .ok () after) :
    Settled process before after := by
  simp only [successTransition, EStateM.run_bind, EStateM.run_get] at ran
  split at ran
  · rename_i limited
    exact setFailed_settled ran (.inl limited)
  · simp only [EStateM.run_bind, attributesOf_run] at ran
    cases known : before.attributes.get? process with
    | none => simp only [known] at ran; cases ran
    | some attributes =>
      simp only [known] at ran
      split at ran
      · exact setFinished_settled ran
      · exact reset_settled ran

theorem lostTransition_settled (ran : (lostTransition process).run before = .ok () after) :
    Settled process before after := by
  simp only [lostTransition, EStateM.run_bind, EStateM.run_get] at ran
  split at ran
  · rename_i limited
    exact setFailed_settled ran (.inl limited)
  · exact reset_settled ran

theorem le_increment (counts : Name → Nat) (name : Name) : counts name ≤ increment counts process name := by
  unfold increment
  split <;> omega

theorem Settled.of_counting {counting : TaskPlanner} (settled : Settled process counting after)
    (task : SameTask before counting) (same : counting.planner = before.planner)
    (grown : ∀ name, before.successes name + before.failures name + before.losses name ≤
      counting.successes name + counting.failures name + counting.losses name) : Settled process before after := by
  refine ⟨⟨?_, ?_, ?_⟩, ?_, ?_⟩
  · exact settled.task.attributes.trans task.attributes
  · exact settled.task.ephemerals.trans task.ephemerals
  · exact settled.task.totalRunLimit.trans task.totalRunLimit
  · intro name reached
    exact settled.counted name (hasReachedRunLimit_mono task.totalRunLimit grown name reached)
  · have settles := settled.settles
    rwa [same, task.attributes] at settles

theorem addSuccess_settled {timestamp : Time} (ran : (addSuccess process timestamp).run before = .ok () after) :
    Settled process before after := by
  refine (successTransition_settled ran).of_counting ⟨rfl, rfl, rfl⟩ rfl ?_
  intro name
  have more := @le_increment process before.successes name
  simp only
  omega

theorem addFailure_settled {timestamp : Time} (ran : (addFailure process timestamp).run before = .ok () after) :
    Settled process before after := by
  refine (failureTransition_settled ran).of_counting ⟨rfl, rfl, rfl⟩ rfl ?_
  intro name
  have more := @le_increment process before.failures name
  simp only
  omega

theorem lost_settled {timestamp : Time} (ran : (lost process timestamp).run before = .ok () after) :
    Settled process before after := by
  refine (lostTransition_settled ran).of_counting ⟨rfl, rfl, rfl⟩ rfl ?_
  intro name
  have more := @le_increment process before.losses name
  simp only
  omega

theorem setFailed_stepped (ran : (setFailed process).run before = .ok () after) : Stepped process before after := by
  rw [setFailed, onPlanner_run, Planner.setFailed_run] at ran
  split_ifs at ran with met
  cases ran
  exact ⟨⟨rfl, rfl, rfl⟩, .failed met.1 met.2⟩

theorem perform_stepped {operation : Operation} (ran : (perform operation).run before = .ok () after) :
    Stepped operation.process before after := by
  cases operation with
  | setRunning process => exact setRunning_stepped ran
  | setFailed process => exact setFailed_stepped ran
  | addSuccess process timestamp => exact (addSuccess_settled ran).stepped
  | addFailure process timestamp => exact (addFailure_settled ran).stepped
  | lost process timestamp => exact (lost_settled ran).stepped

end Steps

section Moves

variable {before after : TaskPlanner} {process : Name} {e : Error}

/-- Whatever an operation that a process handler asks for does to a plan, also when it raises. -/
structure Moved (before after : TaskPlanner) : Prop where
  task : SameTask before after
  counted : ∀ name, before.hasReachedRunLimit name = true → after.hasReachedRunLimit name = true
  planner : after.planner = before.planner ∨
    (∃ process, (process ∈ before.planner.running ∨ process ∈ before.planner.runnable) ∧
      after.planner = { before.planner with running := insert process before.planner.running }) ∨
    ∃ process, before.planner.Settles process
      (after.hasReachedRunLimit process = true ∨
        ∃ attributes, before.attributes.get? process = some attributes ∧ attributes.isEphemeral = false)
      after.planner

theorem Settled.moved (settled : Settled process before after) : Moved before after :=
  ⟨settled.task, settled.counted, .inr (.inr ⟨process, settled.settles⟩)⟩

theorem Moved.processes (moved : Moved before after) : after.planner.processes = before.planner.processes := by
  rcases moved.planner with same | ⟨_, _, started⟩ | ⟨_, settles⟩
  · rw [same]
  · rw [started]
  · generalize after.planner = planner at settles
    cases settles <;> rfl

inductive EndOperation (process : Name) : EStateM Error (Planner Name) Unit → Prop
  | reset : EndOperation process (Planner.reset process)
  | setFinished : EndOperation process (Planner.setFinished process)
  | setFailed : EndOperation process (Planner.setFailed process)

theorem EndOperation.raised {operation : EStateM Error (Planner Name) Unit} (ends : EndOperation process operation)
    (ran : (onPlanner operation).run before = .error e after) : after = before := by
  rw [onPlanner_run] at ran
  cases ends with
  | reset =>
    rw [Planner.reset_run] at ran
    split_ifs at ran
    cases ran
    rfl
  | setFinished =>
    rw [Planner.setFinished_run] at ran
    split_ifs at ran
    cases ran
    rfl
  | setFailed =>
    rw [Planner.setFailed_run] at ran
    split_ifs at ran
    cases ran
    rfl

/-- The action is one of those operations, unless the plan does not know the process. -/
def EndsRun (process : Name) (action : EStateM Error TaskPlanner Unit) : Prop :=
  ∀ plan, action.run plan = .error (.keyError process) plan ∨
    ∃ operation, EndOperation process operation ∧ action.run plan = (onPlanner operation).run plan

theorem endsRun_failureTransition (process : Name) : EndsRun process (failureTransition process) := by
  intro plan
  simp only [failureTransition, EStateM.run_bind, EStateM.run_get]
  split
  · exact .inr ⟨_, .setFailed, rfl⟩
  · simp only [EStateM.run_bind, attributesOf_run]
    cases plan.attributes.get? process with
    | none => exact .inl rfl
    | some attributes =>
      simp only
      split
      · exact .inr ⟨_, .reset, rfl⟩
      · split
        · exact .inr ⟨_, .setFinished, rfl⟩
        · exact .inr ⟨_, .setFailed, rfl⟩

theorem endsRun_successTransition (process : Name) : EndsRun process (successTransition process) := by
  intro plan
  simp only [successTransition, EStateM.run_bind, EStateM.run_get]
  split
  · exact .inr ⟨_, .setFailed, rfl⟩
  · simp only [EStateM.run_bind, attributesOf_run]
    cases plan.attributes.get? process with
    | none => exact .inl rfl
    | some attributes =>
      simp only
      split
      · exact .inr ⟨_, .setFinished, rfl⟩
      · exact .inr ⟨_, .reset, rfl⟩

theorem endsRun_lostTransition (process : Name) : EndsRun process (lostTransition process) := by
  intro plan
  simp only [lostTransition, EStateM.run_bind, EStateM.run_get]
  split
  · exact .inr ⟨_, .setFailed, rfl⟩
  · exact .inr ⟨_, .reset, rfl⟩

theorem EndsRun.raised {action : EStateM Error TaskPlanner Unit} (ends : EndsRun process action)
    (ran : action.run before = .error e after) : after = before := by
  rcases ends before with unknown | ⟨operation, ends, same⟩
  · rw [unknown] at ran
    cases ran
    rfl
  · rw [same] at ran
    exact ends.raised ran

theorem setRunning_moved (process : Name) (before : TaskPlanner) :
    Moved before (Replay.final ((setRunning process).run before)) := by
  rw [setRunning, onPlanner_run, Planner.setRunning_run]
  split_ifs with met
  · exact ⟨⟨rfl, rfl, rfl⟩, fun _ => id, .inr (.inl ⟨process, met.2.2, rfl⟩)⟩
  · exact ⟨⟨rfl, rfl, rfl⟩, fun _ => id, .inl rfl⟩

/-- An operation that raises has only counted the run. -/
theorem moved_of_raised (raised : after.planner = before.planner) (task : SameTask before after)
    (grown : ∀ name, before.successes name + before.failures name + before.losses name ≤
      after.successes name + after.failures name + after.losses name) : Moved before after :=
  ⟨task, hasReachedRunLimit_mono task.totalRunLimit grown, .inl raised⟩

theorem addSuccess_moved (process : Name) (timestamp : Time) (before : TaskPlanner) :
    Moved before (Replay.final ((addSuccess process timestamp).run before)) := by
  cases ran : (addSuccess process timestamp).run before with
  | ok value after => exact (addSuccess_settled ran).moved
  | error e after =>
    cases (endsRun_successTransition process).raised ran
    refine moved_of_raised rfl ⟨rfl, rfl, rfl⟩ ?_
    intro name
    have more := @le_increment process before.successes name
    simp only [Replay.final]
    omega

theorem addFailure_moved (process : Name) (timestamp : Time) (before : TaskPlanner) :
    Moved before (Replay.final ((addFailure process timestamp).run before)) := by
  cases ran : (addFailure process timestamp).run before with
  | ok value after => exact (addFailure_settled ran).moved
  | error e after =>
    cases (endsRun_failureTransition process).raised ran
    refine moved_of_raised rfl ⟨rfl, rfl, rfl⟩ ?_
    intro name
    have more := @le_increment process before.failures name
    simp only [Replay.final]
    omega

theorem lost_moved (process : Name) (timestamp : Time) (before : TaskPlanner) :
    Moved before (Replay.final ((lost process timestamp).run before)) := by
  cases ran : (lost process timestamp).run before with
  | ok value after => exact (lost_settled ran).moved
  | error e after =>
    cases (endsRun_lostTransition process).raised ran
    refine moved_of_raised rfl ⟨rfl, rfl, rfl⟩ ?_
    intro name
    have more := @le_increment process before.losses name
    simp only [Replay.final]
    omega

end Moves

end TaskPlanner

end Aurora.Thermos
