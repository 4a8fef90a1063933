import Aurora.Thermos.Common.PlannerSteps
import Aurora.Thermos.Core.Reads

namespace Aurora.Thermos

open Collections Guarantee Relation Replay TaskRunnerHelper

/-- What a process handler leaves alone, and how it moves the plans. -/
structure Runner.Kept (before after : Runner) : Prop where
  state : after.state = before.state
  plan : after.plan = before.plan
  recovery : after.recovery = before.recovery
  terminalState : after.terminalState = before.terminalState
  plans : ∀ plan, ReflTransGen TaskPlanner.Moved (before.planner plan) (after.planner plan)

/-- What the surroundings of a process update leave alone. -/
structure Frame (before after : World) : Prop where
  header : after.runner.state.header = before.runner.state.header
  statuses : after.runner.state.statuses = before.runner.state.statuses
  recovery : after.runner.recovery = before.runner.recovery
  terminalState : after.runner.terminalState = before.runner.terminalState

theorem Frame.refl (world : World) : Frame world world := ⟨rfl, rfl, rfl, rfl⟩

theorem Frame.trans {first second third : World} (left : Frame first second) (right : Frame second third) :
    Frame first third :=
  ⟨right.header.trans left.header, right.statuses.trans left.statuses, right.recovery.trans left.recovery,
    right.terminalState.trans left.terminalState⟩

theorem Calm.frame {before after : World} (calm : Calm before after) : Frame before after :=
  ⟨by rw [calm.state], by rw [calm.state], calm.recovery, calm.terminalState⟩

theorem Frame.taskState {before after : World} (frame : Frame before after) :
    TaskRunner.taskState after.runner = TaskRunner.taskState before.runner := by
  simp only [TaskRunner.taskState, frame.statuses]

theorem Frame.isTerminal {before after : World} (frame : Frame before after) :
    TaskRunner.isTerminal after.runner = TaskRunner.isTerminal before.runner := by
  simp only [TaskRunner.isTerminal, frame.taskState]

namespace Runner

theorem Kept.refl (runner : Runner) : Kept runner runner := ⟨rfl, rfl, rfl, rfl, fun _ => .refl⟩

theorem Kept.trans {first second third : Runner} (left : Kept first second) (right : Kept second third) :
    Kept first third :=
  ⟨right.state.trans left.state, right.plan.trans left.plan, right.recovery.trans left.recovery,
    right.terminalState.trans left.terminalState, fun plan => (left.plans plan).trans (right.plans plan)⟩

/-- An action that changes no more of a runner than a process handler may. -/
def Keeps {α : Type} (action : EStateM Error Runner α) : Prop :=
  ∀ runner, Kept runner (final (action.run runner))

section Keeps

variable {α β : Type} {action : EStateM Error Runner α} {next : α → EStateM Error Runner β}

theorem Keeps.pure (value : α) : Keeps (Pure.pure value : EStateM Error Runner α) := Kept.refl

theorem Keeps.throw (e : Error) : Keeps (MonadExcept.throw e : EStateM Error Runner α) := Kept.refl

theorem Keeps.bind (first : Keeps action) (rest : ∀ value, Keeps (next value)) : Keeps (action >>= next) := by
  intro runner
  have begun := first runner
  rw [EStateM.run_bind]
  cases ran : action.run runner with
  | error e middle => rwa [ran] at begun
  | ok value middle =>
    rw [ran] at begun
    exact begun.trans (rest value middle)

theorem Keeps.ite {condition : Prop} [Decidable condition] {yes no : EStateM Error Runner α} (left : Keeps yes)
    (right : Keeps no) : Keeps (if condition then yes else no) := by
  split
  · exact left
  · exact right

theorem Keeps.get {next : Runner → EStateM Error Runner β} (rest : ∀ runner, Keeps (next runner)) :
    Keeps (MonadState.get >>= next) :=
  fun runner => rest runner runner

theorem kept_withPlanner (runner : Runner) {plan : Plan} {planner : TaskPlanner}
    (moved : TaskPlanner.Moved (runner.planner plan) planner) : Kept runner (runner.withPlanner plan planner) := by
  have others : ∀ other, ReflTransGen TaskPlanner.Moved (runner.planner other)
      ((runner.withPlanner plan planner).planner other) := by
    intro other
    cases plan <;> cases other
    · exact .single moved
    · exact .refl
    · exact .refl
    · exact .single moved
  cases plan <;> exact ⟨rfl, rfl, rfl, rfl, others⟩

theorem keeps_onPlan {operation : EStateM Error TaskPlanner Unit}
    (moves : ∀ planner, TaskPlanner.Moved planner (final (operation.run planner))) : Keeps (onPlan operation) := by
  intro runner
  simp only [onPlan, EStateM.run]
  cases runner.plan with
  | none => exact Kept.refl runner
  | some plan =>
    have moved := moves (runner.planner plan)
    simp only
    cases ran : operation (runner.planner plan) with
    | ok value planner =>
      rw [EStateM.run, ran] at moved
      exact kept_withPlanner runner moved
    | error e planner =>
      rw [EStateM.run, ran] at moved
      exact kept_withPlanner runner moved

theorem keeps_onWatcher (operation : EStateM Error ProcessMuxer α) : Keeps (onWatcher operation) := by
  intro runner
  simp only [onWatcher, EStateM.run]
  cases operation runner.watcher <;> exact ⟨rfl, rfl, rfl, rfl, fun plan => by cases plan <;> exact .refl⟩

theorem keeps_taskProcesses (change : Runner → Dict Name TaskProcess) :
    Keeps (modify fun runner => { runner with taskProcesses := change runner }) :=
  fun _ => ⟨rfl, rfl, rfl, rfl, fun plan => by cases plan <;> exact .refl⟩

end Keeps

end Runner

namespace TaskRunnerProcessHandler

open Runner

theorem keeps_dismiss (name : Name) : Keeps (dismiss name) := by
  refine Keeps.get fun runner => Keeps.ite ?_ ?_
  · exact (Keeps.throw _).bind fun _ => (keeps_taskProcesses _).bind fun _ => keeps_onWatcher _
  · exact (keeps_taskProcesses _).bind fun _ => keeps_onWatcher _

theorem keeps_onWaiting (config : RunnerConfig) (name : Name) (seq : Int) : Keeps (onWaiting config name seq) := by
  refine Keeps.bind ?_ fun _ => (keeps_taskProcesses _).bind fun _ => keeps_onWatcher _
  refine Keeps.get fun runner => ?_
  cases runner.state.processes.get? (some name) with
  | none => exact Keeps.throw _
  | some runs => exact Keeps.ite ((Keeps.throw _).bind fun _ => Keeps.pure _) (Keeps.pure _)

theorem keeps_onForked (name : Name) (update : ProcessStatus) : Keeps (onForked name update) := by
  refine Keeps.get fun runner => ?_
  cases runner.taskProcesses.get? name with
  | none => exact Keeps.throw _
  | some process => exact (keeps_taskProcesses _).bind fun _ => keeps_onPlan (TaskPlanner.setRunning_moved name)

theorem keeps_onTransition (config : RunnerConfig) (now : Time) (update : ProcessStatus) :
    Keeps (onTransition config now update) := by
  unfold onTransition
  split
  · rename_i name seq state named numbered entered
    cases state with
    | waiting => exact keeps_onWaiting config name seq
    | forked => exact keeps_onForked name update
    | running => exact keeps_onPlan (TaskPlanner.setRunning_moved name)
    | success => exact (keeps_dismiss name).bind fun _ => keeps_onPlan (TaskPlanner.addSuccess_moved name now)
    | failed => exact (keeps_dismiss name).bind fun _ => keeps_onPlan (TaskPlanner.addFailure_moved name now)
    | killed | lost => exact (keeps_dismiss name).bind fun _ => keeps_onPlan (TaskPlanner.lost_moved name now)
    | unknown value => exact Keeps.throw _
  · exact Keeps.throw _

end TaskRunnerProcessHandler

namespace TaskRunner

variable {config : RunnerConfig} {kills : Prop} {world : World}

def Handled (config : RunnerConfig) (before : Runner) (update : ProcessStatus) (after : Runner) : Prop :=
  ∃ state now, Accepted before.state { processStatus := some update } (.processTransition update) state ∧
    (TaskRunnerProcessHandler.onTransition config now update).run { before with state } = .ok () after

theorem clockTime_run (world : World) :
    clockTime.run world = .ok (world.answers.headD {}).time { world with answers := world.answers.tail } := by
  obtain ⟨runner, answers, checkpoints, written, refused, started, finalized⟩ := world
  cases answers <;> rfl

theorem onRunner_run {α : Type} (action : EStateM Error Runner α) (world : World) :
    (onRunner action).run world =
      match action.run world.runner with
      | .ok value runner => .ok value { world with runner }
      | .error e runner => .error e { world with runner } := rfl

theorem ckptWrite_live {before : Runner} (live : before.recovery = false) (record : RunnerCkpt) (world : World) :
    (ckptWrite before record).run world = .ok () { world with written := world.written ++ [(before, record)] } := by
  unfold ckptWrite
  rw [live]
  rfl

theorem accepted_update {state after : RunnerState} {update : ProcessStatus}
    {event : CheckpointDispatcher.Dispatched} (accepted : Accepted state { processStatus := some update } event after) :
    event = .processTransition update ∧ after.header = state.header ∧ after.statuses = state.statuses := by
  cases accepted with
  | header given => cases given
  | task plain given => cases given
  | process plain given =>
    cases given
    exact ⟨rfl, rfl, rfl⟩

theorem applyRecord_refused (config : RunnerConfig) {recovery : Bool} {record : RunnerCkpt} {e : Error}
    {state : RunnerState} (live : world.runner.recovery = false)
    (raised : (CheckpointDispatcher.dispatch recovery false record).run world.runner.state = .error e state) :
    (applyRecord config recovery record).run world = .error e { world with
      runner := { world.runner with state }, refused := world.refused ++ [(world.runner, record)] } := by
  simp only [applyRecord, getRunner, EStateM.run_bind, EStateM.run_get, EStateM.run_pure, raised,
    EStateM.run_modify, live]
  rfl

theorem applyRecord_accepted (config : RunnerConfig) (recovery : Bool) {update : ProcessStatus} {state : RunnerState}
    (live : world.runner.recovery = false)
    (accepted : Accepted world.runner.state { processStatus := some update } (.processTransition update) state) :
    (applyRecord config recovery { processStatus := some update }).run world =
      let written := world.written ++ [(world.runner, { processStatus := some update })]
      let now := (world.answers.headD {}).time
      let handled := (TaskRunnerProcessHandler.onTransition config now update).run { world.runner with state }
      match handled with
      | .ok _ runner => .ok (.processTransition update)
          { world with runner, written, answers := world.answers.tail }
      | .error e runner => .error e { world with runner, written, answers := world.answers.tail } := by
  have ran := CheckpointDispatcher.dispatch_of_accepted accepted recovery
  simp only [applyRecord, getRunner, EStateM.run_bind, EStateM.run_get, EStateM.run_pure, ran, EStateM.run_modify,
    ckptWrite_live live, clockTime_run, onRunner_run]
  cases (TaskRunnerProcessHandler.onTransition config (world.answers.headD {}).time update).run
    { world.runner with state } <;> rfl

theorem applyRecord_update {recovery : Bool} {update : ProcessStatus} (live : world.runner.recovery = false)
    (headed : world.runner.state.header.isSome = true) (complete : CheckpointDispatcher.Complete update)
    (launch : update.state = some .waiting → ∃ name plan, update.process = some name ∧
      name ∈ (world.runner.planner plan).planner.runnable) :
    Does config kills (applyRecord config recovery { processStatus := some update }) world (fun event after =>
      (∀ status, event ≠ .taskTransition status) ∧ Frame world after ∧
        (Handled config world.runner update after.runner ∨ recovery = true ∧ Calm world after)) := by
  cases ran : (CheckpointDispatcher.dispatch recovery false { processStatus := some update }).run
      world.runner.state with
  | error e state =>
    have applied := applyRecord_refused config live ran
    have found : RunnerCkpt.update? { processStatus := some update } = some update := rfl
    have raised : (CheckpointDispatcher.dispatchProcess recovery false update).run world.runner.state =
        .error e state := by
      simpa [CheckpointDispatcher.dispatch] using ran
    have left := CheckpointDispatcher.dispatchProcess_complete found complete raised
    exact Within.error applied (.single (.refused left))
  | ok event state =>
    rcases CheckpointDispatcher.accepted_of_dispatch ran with accepted | ⟨recovering, rfl, rfl⟩
    · obtain ⟨rfl, header, statuses⟩ := accepted_update accepted
      have applied := applyRecord_accepted config recovery live accepted
      have kept := TaskRunnerProcessHandler.keeps_onTransition config (world.answers.headD {}).time update
        { world.runner with state }
      have step := @Step.process config kills world _ update state (world.answers.headD {}).time accepted headed launch
      cases handled : (TaskRunnerProcessHandler.onTransition config (world.answers.headD {}).time update).run
          { world.runner with state } with
      | error e runner =>
        simp only [handled] at applied step
        exact Within.error applied (.tail (.single step) (.quiet (calm_answers _ _).quiet))
      | ok value runner =>
        simp only [handled] at applied step kept
        refine Within.ok applied (.tail (.single step) (.quiet (calm_answers _ _).quiet)) ⟨?_, ?_, .inl ?_⟩
        · intro status same
          cases same
        · refine ⟨?_, ?_, kept.recovery, kept.terminalState⟩
          · rw [show runner.state = state from kept.state, header]
          · rw [show runner.state = state from kept.state, statuses]
        · exact ⟨state, _, accepted, handled⟩
    · have applied : (applyRecord config recovery { processStatus := some update }).run world =
          .ok .skipped world := by
        simp only [applyRecord, getRunner, EStateM.run_bind, EStateM.run_get, EStateM.run_pure, ran,
          EStateM.run_modify]
      refine Within.ok applied .refl ⟨?_, Frame.refl world, .inr ⟨recovering, Calm.refl world⟩⟩
      intro status same
      cases same

end TaskRunner

end Aurora.Thermos
