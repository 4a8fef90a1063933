import Aurora.Thermos.Core.Kills

namespace Aurora.Thermos

open Collections Guarantee Relation TaskRunnerHelper

namespace TaskRunner

variable {config : RunnerConfig} {kills : Prop} {world : World} {state : TaskState}

structure Entered (state : TaskState) (before after : World) : Prop where
  header : after.runner.state.header = before.runner.state.header
  recovery : after.runner.recovery = before.runner.recovery
  terminalState : after.runner.terminalState = before.runner.terminalState
  taskState : taskState after.runner = some state

theorem Entered.frame {first second third : World} (entered : Entered state first second) (frame : Frame second third) :
    Entered state first third :=
  ⟨frame.header.trans entered.header, frame.recovery.trans entered.recovery,
    frame.terminalState.trans entered.terminalState, frame.taskState.trans entered.taskState⟩

theorem Entered.of_calm {first second third : World} (calm : Calm first second) (entered : Entered state second third) :
    Entered state first third :=
  ⟨entered.header.trans (by rw [calm.state]), entered.recovery.trans calm.recovery,
    entered.terminalState.trans calm.terminalState, entered.taskState⟩

theorem TaskMove.of_calm {middle : World} (calm : Calm world middle) (move : TaskMove config world.runner state) :
    TaskMove config middle.runner state := by
  cases move with
  | again same => exact .again (calm.taskState.trans same)
  | cleaning active ceased =>
    refine .cleaning (calm.taskState.trans active) ?_
    rwa [calm.regularPlan, calm.terminalState]
  | finalizing cleaned => exact .finalizing (calm.taskState.trans cleaned)
  | forced decided => exact .forced (calm.terminalState.trans decided)
  | judged late undecided =>
    rw [← calm.regularPlan]
    refine .judged ?_ (calm.terminalState.trans undecided)
    rwa [calm.taskState]

section Records

theorem dispatch_task (recovery : Bool) (status : TaskStatus) (before : RunnerState) :
    (CheckpointDispatcher.dispatch recovery false { taskStatus := some status }).run before =
      if before.statuses = some [] then .error .indexError before
      else .ok (.taskTransition status) { before with statuses := some (before.statuses.getD [] ++ [status]) } := by
  by_cases told : before.statuses = some [] <;> simp [CheckpointDispatcher.dispatch, told]

theorem does_applyRecord_task {recovery : Bool} {status : TaskStatus} (live : world.runner.recovery = false)
    (entered : status.state = some state) (stamped : status.timestampMs.isSome = true)
    (underway : isTerminal world.runner = false) (move : TaskMove config world.runner state) :
    Does config kills (applyRecord config recovery { taskStatus := some status }) world (fun event after =>
      event = .taskTransition status ∧ Entered state world after) := by
  have decided := dispatch_task recovery status world.runner.state
  by_cases told : world.runner.state.statuses = some []
  · rw [if_pos told] at decided
    exact Within.error (applyRecord_refused config live decided) (.single (.refused (.inl rfl)))
  · rw [if_neg told] at decided
    have applied : (applyRecord config recovery { taskStatus := some status }).run world =
        .ok (.taskTransition status) { world with
          runner := { world.runner with
            state := { world.runner.state with statuses := some (world.runner.state.statuses.getD [] ++ [status]) } }
          written := world.written ++ [(world.runner, { taskStatus := some status })] } := by
      simp only [applyRecord, getRunner, EStateM.run_bind, EStateM.run_get, EStateM.run_pure, decided,
        EStateM.run_modify, ckptWrite_live live]
    have accepted : Accepted world.runner.state { taskStatus := some status } (.taskTransition status)
        { world.runner.state with statuses := some (world.runner.state.statuses.getD [] ++ [status]) } :=
      .task rfl rfl told
    refine Within.ok applied (.single (.task accepted entered stamped underway move)) ⟨rfl, rfl, rfl, rfl, ?_⟩
    simp [TaskRunner.taskState, entered]

theorem does_dispatchRecord_task {recovery : Bool} {status : TaskStatus} (live : world.runner.recovery = false)
    (entered : status.state = some state) (stamped : status.timestampMs.isSome = true)
    (underway : isTerminal world.runner = false) (move : TaskMove config world.runner state) :
    Does config kills (dispatchRecord config recovery { taskStatus := some status }) world (fun event after =>
      event = .taskTransition status ∧ Entered state world after) := by
  refine Does.getRunner ?_
  rw [live]
  refine Within.bind (reads_pause config kills world) ?_
  intro _ middle _ calm
  have applied := @does_applyRecord_task config kills middle state recovery status (calm.recovery.trans live) entered
    stamped (calm.isTerminal.trans underway) (TaskMove.of_calm calm move)
  exact applied.weaken fun _ _ _ done => ⟨done.1, done.2.of_calm calm⟩

end Records

section Handlers

theorem does_modify {change : World → World} (quiet : Quiet world (change world)) (frame : Frame world (change world)) :
    Does config kills (modify change) world (fun _ after => Frame world after) :=
  Within.modified (.single (.quiet quiet)) frame

theorem does_setFinalizationStart (status : TaskStatus) :
    Does config kills (setFinalizationStart status) world (fun _ after => Frame world after) := by
  unfold setFinalizationStart
  cases status.timestampMs with
  | none => exact Within.throw
  | some timestampMs => exact does_modify ⟨rfl, rfl, rfl, rfl, rfl, rfl⟩ ⟨rfl, rfl, rfl, rfl⟩

theorem reads_terminatePlan : Reads terminatePlan :=
  Reads.getRunner.bind fun _ => Reads.ite (Reads.throw _) (Reads.pure _)

theorem does_setPlan {plan : Plan} (due : (taskState world.runner = some .active ∧ plan = .regular) ∨
      (taskState world.runner = some .finalizing ∧ plan = .finalizing)) :
    Does config kills (setPlan plan) world (fun _ after => Frame world after) :=
  Within.modified (.single (.switch due)) ⟨rfl, rfl, rfl, rfl⟩

theorem does_onFinalizing {status : TaskStatus} (live : world.runner.recovery = false)
    (entered : taskState world.runner = some .finalizing) :
    Does config kills (do
      unless (← getRunner).recovery do
        killAll config
      setPlan .finalizing
      if (← getRunner).finalizationStart.isNone then
        setFinalizationStart status) world (fun _ after => Frame world after) := by
  refine Does.getRunner ?_
  rw [live]
  refine Within.bind (does_killAll live) ?_
  rintro _ middle _ ⟨frame, _⟩
  refine Within.bind (does_setPlan (.inr ⟨frame.taskState.trans entered, rfl⟩)) ?_
  intro _ switched _ further
  refine Does.getRunner ?_
  split
  · exact (does_setFinalizationStart status).weaken fun _ _ _ last => (frame.trans further).trans last
  · exact Within.pure (frame.trans further)

theorem does_cleanup (live : world.runner.recovery = false) (terminal : isTerminal world.runner = true) :
    Does config kills (do
      unless (← getRunner).recovery do
        killAll config
        finalizeTask) world (fun _ after => Frame world after) := by
  refine Does.getRunner ?_
  rw [live]
  refine Within.bind (does_killAll live) ?_
  rintro _ middle _ ⟨frame, settled⟩
  exact Within.modified (.single (.finalize settled (frame.isTerminal.trans terminal)))
    ⟨frame.header, frame.statuses, frame.recovery, frame.terminalState⟩

theorem does_taskTransition {status : TaskStatus} (live : world.runner.recovery = false)
    (given : status.state = some state) (entered : taskState world.runner = some state) :
    Does config kills (taskTransition config status) world (fun _ after => Frame world after) := by
  unfold taskTransition
  rw [given]
  have ceased : ∀ terminal, isTaskTerminal (some terminal) = true → state = terminal →
      isTerminal world.runner = true := by
    rintro terminal final rfl
    rwa [isTerminal, entered]
  cases state with
  | active => exact does_setPlan (.inl ⟨entered, rfl⟩)
  | cleaning =>
    refine Within.bind (does_setFinalizationStart status) ?_
    intro _ middle _ frame
    exact (reads_terminatePlan config kills middle).weaken fun _ _ _ calm => frame.trans calm.frame
  | finalizing => exact does_onFinalizing live entered
  | success => exact does_cleanup live (ceased .success rfl rfl)
  | failed => exact does_cleanup live (ceased .failed rfl rfl)
  | killed => exact does_cleanup live (ceased .killed rfl rfl)
  | lost => exact does_cleanup live (ceased .lost rfl rfl)
  | unknown value => exact Within.throw

end Handlers

theorem does_setTaskStatus (live : world.runner.recovery = false) (underway : isTerminal world.runner = false)
    (move : TaskMove config world.runner state) :
    Does config kills (setTaskStatus config state) world (fun _ after => Entered state world after) := by
  refine Within.bind (reads_clockTime config kills world) ?_
  intro now middle _ calm
  refine Does.getRunner ?_
  refine Within.bind (does_dispatchRecord_task (calm.recovery.trans live) rfl rfl
    (calm.isTerminal.trans underway) (TaskMove.of_calm calm move)) ?_
  rintro event written _ ⟨rfl, entered⟩
  have running : written.runner.recovery = false := by rw [entered.recovery, calm.recovery, live]
  refine (does_taskTransition running rfl entered.taskState).weaken ?_
  intro _ after _ frame
  exact (entered.frame frame).of_calm calm

end TaskRunner

end Aurora.Thermos
