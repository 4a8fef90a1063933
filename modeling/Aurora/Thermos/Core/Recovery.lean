import Aurora.Thermos.Core.Handling

namespace Aurora.Thermos

open Collections Replay TaskRunnerHelper

namespace TaskState

/-- Known to the enum. -/
def Known : TaskState → Prop
  | .unknown _ => False
  | _ => True

def select (plan : Option Plan) : TaskState → Option Plan
  | .active => some .regular
  | .finalizing => some .finalizing
  | _ => plan

end TaskState

namespace Core

/-- What replaying a record makes of the rebuildable part of a runner, where that does not raise. -/
inductive Replays (config : RunnerConfig) (record : RunnerCkpt) (core : Core) : Core → Prop
  | skipped (passed : (CheckpointDispatcher.dispatch true false record).run core.state = .ok .skipped core.state) :
      Replays config record core core
  | header {header : RunnerHeader} {state : RunnerState}
      (accepted : Accepted core.state record (.initialization header) state) :
      Replays config record core { core with state }
  | task {status : TaskStatus} {entered : TaskState} {state : RunnerState}
      (accepted : Accepted core.state record (.taskTransition status) state) (given : status.state = some entered) :
      Replays config record core { core with state, plan := entered.select core.plan }
  | process {update : ProcessStatus} {state : RunnerState} {after : Core}
      (accepted : Accepted core.state record (.processTransition update) state)
      (handles : Handles config update { core with state } after) : Replays config record core after

end Core

namespace TaskRunner

variable {config : RunnerConfig} {world : World}

structure Recovering (before after : World) : Prop where
  recovery : after.runner.recovery = before.runner.recovery
  terminalState : after.runner.terminalState = before.runner.terminalState
  written : after.written = before.written
  started : after.started = before.started

theorem dispatchRecord_recovering (config : RunnerConfig) (recovery : Bool) (record : RunnerCkpt)
    (recovering : world.runner.recovery = true) :
    (dispatchRecord config recovery record).run world = (applyRecord config recovery record).run world := by
  unfold dispatchRecord
  simp only [getRunner, EStateM.run_bind, EStateM.run_get, EStateM.run_pure, recovering]
  rfl

theorem ckptWrite_recovering {before : Runner} (recovering : before.recovery = true) (record : RunnerCkpt)
    (world : World) : (ckptWrite before record).run world = .ok () world := by
  unfold ckptWrite
  rw [recovering]
  rfl

theorem applyRecord_recovering (config : RunnerConfig) (recovery : Bool) (record : RunnerCkpt)
    (recovering : world.runner.recovery = true) :
    (applyRecord config recovery record).run world =
      match (CheckpointDispatcher.dispatch recovery false record).run world.runner.state with
      | .error e state => .error e { world with runner := { world.runner with state } }
      | .ok (.processTransition update) state =>
        let now := (world.answers.headD {}).time
        match (TaskRunnerProcessHandler.onTransition config now update).run { world.runner with state } with
        | .ok _ runner => .ok (.processTransition update) { world with runner, answers := world.answers.tail }
        | .error e runner => .error e { world with runner, answers := world.answers.tail }
      | .ok event state => .ok event { world with runner := { world.runner with state } } := by
  cases ran : (CheckpointDispatcher.dispatch recovery false record).run world.runner.state with
  | error e state =>
    simp only [applyRecord, getRunner, EStateM.run_bind, EStateM.run_get, EStateM.run_pure, ran,
      EStateM.run_modify, recovering]
    rfl
  | ok event state =>
    simp only [applyRecord, getRunner, EStateM.run_bind, EStateM.run_get, EStateM.run_pure, ran, EStateM.run_modify]
    cases event with
    | skipped => rfl
    | initialization header => simp only [EStateM.run_bind, ckptWrite_recovering recovering, EStateM.run_pure]
    | taskTransition status => simp only [EStateM.run_bind, ckptWrite_recovering recovering, EStateM.run_pure]
    | processTransition update =>
      simp only [EStateM.run_bind, ckptWrite_recovering recovering, clockTime_run, onRunner_run, EStateM.run_pure]
      cases (TaskRunnerProcessHandler.onTransition config (world.answers.headD {}).time update).run
        { world.runner with state } <;> rfl

section TaskTransition

theorem setPlan_run (plan : Plan) (world : World) :
    (setPlan plan).run world = .ok () { world with runner := { world.runner with plan := some plan } } := rfl

theorem setFinalizationStart_run (status : TaskStatus) (world : World) :
    (setFinalizationStart status).run world =
      match status.timestampMs with
      | none => .error .typeError world
      | some timestampMs => .ok () { world with
          runner := { world.runner with finalizationStart := some (timestampMs / 1000) } } := by
  unfold setFinalizationStart
  cases status.timestampMs <;> rfl

theorem terminatePlan_run (world : World) :
    terminatePlan.run world =
      if world.runner.state.header.isNone = true ∧ world.runner.state.processes.keys ≠ [] then
        .error (.attributeError "user") world
      else .ok () world := by
  unfold terminatePlan
  simp only [getRunner, EStateM.run_bind, EStateM.run_get, EStateM.run_pure]
  split <;> rfl

/-- Handlers of a task state that get through in recovery select a plan and do nothing else. -/
theorem core_of_taskTransition {config : RunnerConfig} {status : TaskStatus} {after : World}
    (recovering : world.runner.recovery = true) (ran : (taskTransition config status).run world = .ok () after) :
    ∃ entered, status.state = some entered ∧
      after.runner.core = { world.runner.core with plan := entered.select world.runner.core.plan } ∧
      Recovering world after ∧ after.runner.taskProcesses = world.runner.taskProcesses ∧
      after.runner.watcher = world.runner.watcher := by
  unfold taskTransition at ran
  cases given : status.state with
  | none =>
    rw [given] at ran
    cases ran
  | some entered =>
    refine ⟨entered, rfl, ?_⟩
    rw [given] at ran
    cases entered with
    | active =>
      cases ran
      exact ⟨rfl, ⟨rfl, rfl, rfl, rfl⟩, rfl, rfl⟩
    | cleaning =>
      simp only [EStateM.run_bind, setFinalizationStart_run] at ran
      cases stamped : status.timestampMs with
      | none =>
        rw [stamped] at ran
        cases ran
      | some timestampMs =>
        simp only [stamped, terminatePlan_run] at ran
        split_ifs at ran
        cases ran
        exact ⟨rfl, ⟨rfl, rfl, rfl, rfl⟩, rfl, rfl⟩
    | finalizing =>
      simp only [getRunner, EStateM.run_bind, EStateM.run_get, EStateM.run_pure] at ran
      rw [recovering] at ran
      simp only [if_true, EStateM.run_bind, EStateM.run_get, EStateM.run_pure, setPlan_run] at ran
      cases begun : world.runner.finalizationStart with
      | some start =>
        rw [begun] at ran
        cases ran
        exact ⟨rfl, ⟨rfl, rfl, rfl, rfl⟩, rfl, rfl⟩
      | none =>
        rw [begun] at ran
        simp only [Option.isNone_none, if_true, setFinalizationStart_run] at ran
        cases stamped : status.timestampMs with
        | none =>
          rw [stamped] at ran
          cases ran
        | some timestampMs =>
          rw [stamped] at ran
          cases ran
          exact ⟨rfl, ⟨rfl, rfl, rfl, rfl⟩, rfl, rfl⟩
    | success | failed | killed | lost =>
      simp only [getRunner, EStateM.run_bind, EStateM.run_get, EStateM.run_pure] at ran
      rw [recovering] at ran
      cases ran
      exact ⟨rfl, ⟨rfl, rfl, rfl, rfl⟩, rfl, rfl⟩
    | unknown value => cases ran

theorem taskTransition_accepts (config : RunnerConfig) {status : TaskStatus} {entered : TaskState}
    (recovering : world.runner.recovery = true) (given : status.state = some entered) (known : entered.Known)
    (stamped : status.timestampMs.isSome = true)
    (headed : world.runner.state.header.isSome = true ∨ world.runner.state.processes.keys = []) :
    ∃ after, (taskTransition config status).run world = .ok () after := by
  obtain ⟨timestampMs, stamped⟩ := Option.isSome_iff_exists.mp stamped
  unfold taskTransition
  rw [given]
  cases entered with
  | active => exact ⟨_, rfl⟩
  | cleaning =>
    simp only [EStateM.run_bind, setFinalizationStart_run, stamped, terminatePlan_run]
    have scanned : ¬ (world.runner.state.header.isNone = true ∧ world.runner.state.processes.keys ≠ []) := by
      rintro ⟨unset, some_known⟩
      rcases headed with headed | none_known
      · rw [Option.isNone_iff_eq_none] at unset
        rw [unset] at headed
        cases headed
      · exact some_known none_known
    rw [if_neg scanned]
    exact ⟨_, rfl⟩
  | finalizing =>
    simp only [getRunner, EStateM.run_bind, EStateM.run_get, EStateM.run_pure]
    rw [recovering]
    simp only [if_true, EStateM.run_bind, EStateM.run_get, EStateM.run_pure, setPlan_run]
    cases world.runner.finalizationStart with
    | some start => exact ⟨_, rfl⟩
    | none =>
      simp only [Option.isNone_none, if_true, setFinalizationStart_run, stamped]
      exact ⟨_, rfl⟩
  | success | failed | killed | lost =>
    simp only [getRunner, EStateM.run_bind, EStateM.run_get, EStateM.run_pure]
    rw [recovering]
    exact ⟨_, rfl⟩
  | unknown value => cases known

end TaskTransition

section Replay

inductive Replaying (config : RunnerConfig) (record : RunnerCkpt) (world after : World) : Prop
  | skipped (passed : (CheckpointDispatcher.dispatch true false record).run world.runner.state =
      .ok .skipped world.runner.state) (same : after = world)
  | header {header : RunnerHeader} {state : RunnerState}
      (accepted : Accepted world.runner.state record (.initialization header) state)
      (same : after = { world with runner := { world.runner with state } })
  | task {status : TaskStatus} {state : RunnerState}
      (accepted : Accepted world.runner.state record (.taskTransition status) state)
      (entered : (taskTransition config status).run { world with runner := { world.runner with state } } = .ok () after)
  | process {update : ProcessStatus} {state : RunnerState} {runner : Runner}
      (accepted : Accepted world.runner.state record (.processTransition update) state)
      (handled : (TaskRunnerProcessHandler.onTransition config (world.answers.headD {}).time update).run
        { world.runner with state } = .ok () runner)
      (same : after = { world with runner, answers := world.answers.tail })

theorem replaying_of_dispatch {config : RunnerConfig} {record : RunnerCkpt} {after : World}
    (recovering : world.runner.recovery = true) (ran : (dispatch config true record).run world = .ok () after) :
    Replaying config record world after := by
  unfold dispatch at ran
  rw [EStateM.run_bind, dispatchRecord_recovering config true record recovering,
    applyRecord_recovering config true record recovering] at ran
  cases dispatched : (CheckpointDispatcher.dispatch true false record).run world.runner.state with
  | error e state =>
    rw [dispatched] at ran
    cases ran
  | ok event state =>
    rw [dispatched] at ran
    rcases CheckpointDispatcher.accepted_of_dispatch dispatched with accepted | ⟨_, rfl, rfl⟩
    · cases event with
      | skipped => cases accepted
      | initialization header =>
        cases ran
        exact .header accepted rfl
      | taskTransition status => exact .task accepted ran
      | processTransition update =>
        cases handled : (TaskRunnerProcessHandler.onTransition config (world.answers.headD {}).time update).run
            { world.runner with state } with
        | error e runner =>
          simp only [handled] at ran
          cases ran
        | ok value runner =>
          simp only [handled] at ran
          cases ran
          exact .process accepted handled rfl
    · cases ran
      exact .skipped dispatched rfl

theorem replays_of_dispatch {config : RunnerConfig} {record : RunnerCkpt} {after : World}
    (recovering : world.runner.recovery = true) (ran : (dispatch config true record).run world = .ok () after) :
    Core.Replays config record world.runner.core after.runner.core ∧ Recovering world after := by
  cases replaying_of_dispatch recovering ran with
  | skipped passed same =>
    subst same
    exact ⟨.skipped passed, rfl, rfl, rfl, rfl⟩
  | header accepted same =>
    subst same
    exact ⟨.header accepted, rfl, rfl, rfl, rfl⟩
  | task accepted entered =>
    rename_i status state
    obtain ⟨_, given, same, recovered, _⟩ :=
      @core_of_taskTransition { world with runner := { world.runner with state } } config status after recovering entered
    refine ⟨?_, recovered.recovery, recovered.terminalState, recovered.written, recovered.started⟩
    rw [same]
    exact .task accepted given
  | process accepted handled same =>
    rename_i update state runner
    subst same
    have core := TaskRunnerProcessHandler.coreOf_onTransition config (world.answers.headD {}).time update
      { world.runner with state }
    have kept := TaskRunnerProcessHandler.keeps_onTransition config (world.answers.headD {}).time update
      { world.runner with state }
    simp only [handled] at core kept
    exact ⟨.process accepted (Core.handles_of_handle core.symm), kept.recovery, kept.terminalState, rfl, rfl⟩

theorem dispatched_of_replays {config : RunnerConfig} {record : RunnerCkpt} {core after : Core}
    (replays : Core.Replays config record core after) :
    ∃ event, (CheckpointDispatcher.dispatch true false record).run core.state = .ok event after.state := by
  cases replays with
  | skipped passed => exact ⟨_, passed⟩
  | header accepted => exact ⟨_, CheckpointDispatcher.dispatch_of_accepted accepted true⟩
  | task accepted given => exact ⟨_, CheckpointDispatcher.dispatch_of_accepted accepted true⟩
  | process accepted handles =>
    have dispatched := CheckpointDispatcher.dispatch_of_accepted accepted true
    rw [show after.state = _ from handles.state]
    exact ⟨_, dispatched⟩

theorem replayed_state {config : RunnerConfig} {records : List RunnerCkpt} {world after : World}
    (recovering : world.runner.recovery = true)
    (ran : (replayRunnerCkpt config records).run world = .ok () after) :
    (feed (CheckpointDispatcher.dispatch true false) records).run world.runner.state = .ok () after.runner.state := by
  induction records generalizing world with
  | nil =>
    cases ran
    rfl
  | cons record rest ih =>
    unfold replayRunnerCkpt at ran
    rw [feed_cons] at ran ⊢
    cases first : (dispatch config true record).run world with
    | error e next =>
      rw [first] at ran
      cases ran
    | ok value next =>
      rw [first] at ran
      obtain ⟨replays, recovered⟩ := replays_of_dispatch recovering first
      obtain ⟨event, dispatched⟩ := dispatched_of_replays replays
      rw [show (CheckpointDispatcher.dispatch true false record).run world.runner.state = _ from dispatched]
      exact ih (recovered.recovery.trans recovering) ran

section Accepts

variable {config : RunnerConfig} {record : RunnerCkpt} {state : RunnerState}

theorem dispatch_recovering_run (recovering : world.runner.recovery = true) {event : CheckpointDispatcher.Dispatched}
    (accepted : Accepted world.runner.state record event state) :
    (dispatch config true record).run world =
      match event with
      | .processTransition update =>
        let now := (world.answers.headD {}).time
        match (TaskRunnerProcessHandler.onTransition config now update).run { world.runner with state } with
        | .ok _ runner => .ok () { world with runner, answers := world.answers.tail }
        | .error e runner => .error e { world with runner, answers := world.answers.tail }
      | .taskTransition status =>
        (taskTransition config status).run { world with runner := { world.runner with state } }
      | _ => .ok () { world with runner := { world.runner with state } } := by
  unfold dispatch
  rw [EStateM.run_bind, dispatchRecord_recovering config true record recovering,
    applyRecord_recovering config true record recovering, CheckpointDispatcher.dispatch_of_accepted accepted true]
  cases event with
  | processTransition update =>
    simp only
    cases (TaskRunnerProcessHandler.onTransition config (world.answers.headD {}).time update).run
      { world.runner with state } <;> rfl
  | _ => rfl

theorem replay_header (recovering : world.runner.recovery = true) {header : RunnerHeader}
    (accepted : Accepted world.runner.state record (.initialization header) state) :
    ∃ after, (dispatch config true record).run world = .ok () after ∧
      after.runner.core = { world.runner.core with state } ∧ Recovering world after :=
  ⟨_, dispatch_recovering_run recovering accepted, rfl, rfl, rfl, rfl, rfl⟩

theorem replay_task (recovering : world.runner.recovery = true) {status : TaskStatus} {entered : TaskState}
    (accepted : Accepted world.runner.state record (.taskTransition status) state)
    (given : status.state = some entered) (known : entered.Known) (stamped : status.timestampMs.isSome = true)
    (headed : state.header.isSome = true ∨ state.processes.keys = []) :
    ∃ after, (dispatch config true record).run world = .ok () after ∧
      after.runner.core = { world.runner.core with state, plan := entered.select world.runner.plan } ∧
        Recovering world after := by
  obtain ⟨after, ran⟩ := @taskTransition_accepts { world with runner := { world.runner with state } } config status
    entered recovering given known stamped headed
  obtain ⟨found, same, core, recovered, _⟩ :=
    @core_of_taskTransition { world with runner := { world.runner with state } } config status after recovering ran
  cases given.symm.trans same
  refine ⟨after, ?_, core, recovered.recovery, recovered.terminalState, recovered.written, recovered.started⟩
  exact (dispatch_recovering_run recovering accepted).trans ran

theorem replay_process (recovering : world.runner.recovery = true) {update : ProcessStatus} {handled : Core}
    (accepted : Accepted world.runner.state record (.processTransition update) state)
    (handles : Core.Handles config update { world.runner.core with state } handled) :
    ∃ after, (dispatch config true record).run world = .ok () after ∧ after.runner.core = handled ∧
      Recovering world after := by
  have numbered : update.seq.isSome = true := by
    cases accepted with
    | process _ _ numbered => rw [numbered]; rfl
  have same := TaskRunnerProcessHandler.coreOf_onTransition config (world.answers.headD {}).time update
    { world.runner with state }
  have kept := TaskRunnerProcessHandler.keeps_onTransition config (world.answers.headD {}).time update
    { world.runner with state }
  have target := Core.handle_of_handles numbered handles
  have ran := @dispatch_recovering_run world config record state recovering _ accepted
  cases moved : (TaskRunnerProcessHandler.onTransition config (world.answers.headD {}).time update).run
      { world.runner with state } with
  | error e runner =>
    rw [moved] at same
    rw [show Core.handle config update (Runner.core { world.runner with state }) = some handled from target] at same
    cases same
  | ok value runner =>
    rw [moved] at same kept
    rw [show Core.handle config update (Runner.core { world.runner with state }) = some handled from target] at same
    simp only [moved] at ran
    exact ⟨_, ran, Option.some.inj same, kept.recovery, kept.terminalState, rfl, rfl⟩

end Accepts

end Replay

end TaskRunner

end Aurora.Thermos
