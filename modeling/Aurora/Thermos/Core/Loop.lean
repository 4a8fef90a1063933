import Aurora.Thermos.Core.Launches
import Aurora.Thermos.Core.TaskStates

namespace Aurora.Thermos

open Collections Guarantee Relation TaskRunnerHelper

namespace ProcessMuxer

theorem mem_select {files : ProcessFiles} {muxer after : ProcessMuxer} {updates : List ProcessStatus}
    (ran : (select files).run muxer = .ok updates after) {update : ProcessStatus} (member : update ∈ updates) :
    ∃ name, update ∈ content files name := by
  simp only [select, EStateM.run_bind, EStateM.run_modify, EStateM.run_get, EStateM.run_set, EStateM.run_pure,
    EStateM.Result.ok.injEq] at ran
  obtain ⟨rfl, _⟩ := ran
  obtain ⟨entry, _, found⟩ := List.mem_flatMap.mp member
  cases position : entry.2.position with
  | none => simp [position] at found
  | some reached =>
    simp only [position] at found
    exact ⟨entry.1, List.mem_of_mem_drop found⟩

end ProcessMuxer

namespace TaskRunner

variable {config : RunnerConfig} {kills : Prop} {world : World}

section Updates

def Authored (updates : List ProcessStatus) : Prop :=
  ∀ update ∈ updates, ∃ name, coordinatorWrites name update = true

theorem watch_select_authored {updates : List ProcessStatus} {after : World}
    (ran : (watch ProcessMuxer.select).run world = .ok updates after) : Authored updates := by
  unfold watch at ran
  rw [EStateM.run_bind] at ran
  cases answered : answer.run world with
  | error e middle => simp [answered] at ran
  | ok reply middle =>
    simp only [answered, EStateM.run_bind, EStateM.run_modify, EStateM.run_get, onRunner_run,
      TaskRunnerProcessHandler.onWatcher_run] at ran
    cases selected : (ProcessMuxer.select (middle.checkpoints.append reply.appended).files).run middle.runner.watcher with
    | error e watcher => simp [selected] at ran
    | ok found watcher =>
      simp only [selected, EStateM.Result.ok.injEq] at ran
      obtain ⟨rfl, _⟩ := ran
      intro update member
      obtain ⟨name, written⟩ := ProcessMuxer.mem_select selected member
      exact ⟨name, (middle.checkpoints.append reply.appended).authored name update written⟩

theorem does_watch_select : Does config kills (watch ProcessMuxer.select) world (fun updates after =>
    Calm world after ∧ Authored updates) := by
  have calm := reads_watch keepsKeys_select config kills world
  unfold Does Within at calm ⊢
  cases ran : (watch ProcessMuxer.select).run world with
  | error e after => simpa only [ran] using calm
  | ok updates after =>
    simp only [ran] at calm
    exact ⟨calm.1, calm.2, watch_select_authored ran⟩

theorem does_dispatchUpdates (updates : List ProcessStatus) (authored : Authored updates)
    (live : world.runner.recovery = false) (headed : world.runner.state.header.isSome = true) :
    Does config kills (dispatchUpdates config updates) world (fun _ after => Frame world after) := by
  induction updates generalizing world with
  | nil => exact Within.pure (Frame.refl world)
  | cons update rest ih =>
    obtain ⟨name, own⟩ := authored update List.mem_cons_self
    obtain ⟨complete, continues⟩ := coordinatorWrites_complete own
    refine Does.getRunner (Within.bind (does_dispatch live headed complete continues) ?_)
    intro _ middle _ frame
    have others : Authored rest := fun other member => authored other (List.mem_cons_of_mem update member)
    exact (ih others (frame.recovery.trans live) (by rwa [frame.header])).weaken fun _ _ _ last => frame.trans last

theorem does_pollUpdates (rounds : Nat) (timeout total : Time) (live : world.runner.recovery = false)
    (headed : world.runner.state.header.isSome = true) :
    Does config kills (pollUpdates config rounds timeout total) world (fun _ after => Frame world after) := by
  induction rounds generalizing world total with
  | zero => exact Within.throw
  | succ rounds ih =>
    refine Within.bind does_watch_select ?_
    rintro updates looked _ ⟨calm, authored⟩
    refine Within.bind (does_dispatchUpdates updates authored (calm.recovery.trans live) (by rwa [calm.state])) ?_
    intro _ middle _ dispatched
    have frame := calm.frame.trans dispatched
    split_ifs
    · exact Within.pure frame
    · exact Within.pure frame
    · exact (ih _ (frame.recovery.trans live) (by rwa [frame.header])).weaken fun _ _ _ last => frame.trans last

theorem does_collectUpdates (rounds : Nat) (timeout : Time) (live : world.runner.recovery = false)
    (headed : world.runner.state.header.isSome = true) :
    Does config kills (collectUpdates config rounds timeout) world (fun _ after => Frame world after) := by
  refine Does.getRunner ?_
  split
  · exact does_pollUpdates rounds timeout 0 live headed
  · exact Within.pure (Frame.refl world)

end Updates

section Stages

theorem does_isHealthy : Does config kills (isHealthy config) world (fun healthy after => Calm world after ∧
    ∃ now, healthy = healthyAt config world.runner.regularPlan now) := by
  refine Within.bind (reads_clockTime config kills world) ?_
  intro now middle _ calm
  refine Does.getRunner (Within.pure ⟨calm, now, ?_⟩)
  rw [calm.regularPlan]

def Over (config : RunnerConfig) (plan : TaskPlanner) : Prop :=
  plan.isComplete = true ∨ ∃ now, healthyAt config plan now = false

theorem does_runActive (live : world.runner.recovery = false) (headed : world.runner.state.header.isSome = true)
    (underway : isTerminal world.runner = false) :
    Does config kills (runActive config) world (fun wait after => Frame world after ∧
      (wait = none → Over config after.runner.regularPlan)) := by
  unfold runActive
  refine Within.bind (does_runPlan .regular live headed underway) ?_
  intro launched passed _ frame
  refine Does.getRunner ?_
  split
  · rename_i complete
    refine Within.bind does_isHealthy ?_
    rintro healthy after _ ⟨calm, _⟩
    refine Within.pure ⟨frame.trans calm.frame, fun _ => .inl ?_⟩
    rw [calm.regularPlan, complete]
  · refine Within.bind does_isHealthy ?_
    rintro healthy after _ ⟨calm, now, verdict⟩
    have reached := frame.trans calm.frame
    cases healthy with
    | false =>
      refine Within.pure ⟨reached, fun _ => .inr ⟨now, ?_⟩⟩
      rw [calm.regularPlan, ← verdict]
    | true =>
      cases launched with
      | true =>
        refine Within.bind (reads_minWait .regular config kills after) ?_
        intro wait last _ looked
        exact Within.pure ⟨reached.trans looked.frame, fun none => by cases none⟩
      | false =>
        refine Within.bind (reads_minWait .regular config kills after) ?_
        intro wait last _ looked
        exact Within.pure ⟨reached.trans looked.frame, fun none => by cases none⟩

theorem reads_runCleaning : Reads (runCleaning config) := by
  refine (reads_finalizationRemaining config).bind fun _ => Reads.ite ?_ (Reads.pure none)
  refine reads_hasRunningProcesses.bind fun _ => Reads.ite ?_ (Reads.pure none)
  exact (reads_finalizationRemaining config).bind fun _ => Reads.pure _

theorem does_runFinalizing (live : world.runner.recovery = false) (headed : world.runner.state.header.isSome = true)
    (underway : isTerminal world.runner = false) :
    Does config kills (runFinalizing config) world (fun _ after => Frame world after) := by
  unfold runFinalizing
  refine Within.bind (does_runPlan .finalizing live headed underway) ?_
  intro _ passed _ frame
  have looks : Reads (do
      if ← deadlocked .finalizing then
        return none
      if 0 < (← finalizationRemaining config) then
        if !(← getRunner).finalizingPlan.isComplete then
          return some (min (← finalizationRemaining config) 1)
      return none : Action (Option Time)) := by
    refine (reads_deadlocked .finalizing).bind fun _ => Reads.ite (Reads.pure none) ?_
    refine (reads_finalizationRemaining config).bind fun _ => Reads.ite ?_ (Reads.pure none)
    refine Reads.getRunner.bind fun _ => Reads.ite ?_ (Reads.pure none)
    exact (reads_finalizationRemaining config).bind fun _ => Reads.pure _
  exact (looks config kills passed).weaken fun _ _ _ calm => frame.trans calm.frame

theorem does_runStage {state : Option TaskState} (live : world.runner.recovery = false)
    (headed : world.runner.state.header.isSome = true) (underway : isTerminal world.runner = false) :
    Does config kills (runStage config state) world (fun wait after => Frame world after ∧
      (wait = none → state = some .active → Over config after.runner.regularPlan)) := by
  unfold runStage
  split
  · exact (does_runActive live headed underway).weaken fun _ _ _ done => ⟨done.1, fun none _ => done.2 none⟩
  · exact (reads_runCleaning config kills world).weaken fun _ _ _ calm => ⟨calm.frame, fun _ absurd => by cases absurd⟩
  · exact (does_runFinalizing live headed underway).weaken fun _ _ _ frame => ⟨frame, fun _ absurd => by cases absurd⟩
  · exact Within.throw

theorem does_terminalState (late : taskState world.runner = some .cleaning ∨ taskState world.runner = some .finalizing) :
    Does config kills (terminalState config) world (fun state after => Calm world after ∧
      TaskMove config after.runner state) := by
  unfold terminalState
  refine Does.getRunner ?_
  cases decided : world.runner.terminalState with
  | some state => exact Within.pure ⟨Calm.refl world, .forced decided⟩
  | none =>
    refine Within.bind does_isHealthy ?_
    rintro healthy after _ ⟨calm, now, rfl⟩
    refine Within.pure ⟨calm, TaskMove.of_calm calm ?_⟩
    exact .judged late decided

theorem does_transitionTo {state : Option TaskState} (same : taskState world.runner = state)
    (ceased : state = some .active → Over config world.runner.regularPlan) :
    Does config kills (transitionTo config state) world (fun entered after => Calm world after ∧
      TaskMove config after.runner entered) := by
  unfold transitionTo
  split
  · refine Within.pure ⟨Calm.refl world, .cleaning same ?_⟩
    rcases ceased rfl with complete | unhealthy
    · exact .inl complete
    · exact .inr (.inl unhealthy)
  · refine Within.bind (reads_finalizationRemaining config config kills world) ?_
    intro remaining middle _ calm
    have cleaned : taskState middle.runner = some .cleaning := calm.taskState.trans same
    split_ifs
    · exact (does_terminalState (.inl cleaned)).weaken fun _ _ _ done => ⟨calm.trans done.1, done.2⟩
    · exact Within.pure ⟨calm, .finalizing cleaned⟩
  · exact does_terminalState (.inr same)
  · exact Within.throw

end Stages

section Run

theorem does_runLoop (rounds : Nat) (live : world.runner.recovery = false)
    (headed : world.runner.state.header.isSome = true) :
    Does config kills (runLoop config rounds) world (fun _ _ => True) := by
  induction rounds generalizing world with
  | zero => exact Within.throw
  | succ rounds ih =>
    refine Does.getRunner ?_
    by_cases terminal : isTerminal world.runner = true
    · rw [if_pos terminal]
      exact Within.pure trivial
    · rw [if_neg terminal]
      have underway : isTerminal world.runner = false := Bool.eq_false_iff.mpr terminal
      refine Within.bind (does_runStage live headed underway) ?_
      rintro wait staged _ ⟨frame, ceased⟩
      have running := frame.recovery.trans live
      have named : staged.runner.state.header.isSome = true := by rwa [frame.header]
      cases wait with
      | some wait =>
        refine Within.bind (does_collectUpdates rounds wait running named) ?_
        intro _ collected _ further
        exact ih (further.recovery.trans running) (by rwa [further.header])
      | none =>
        refine Does.getRunner (Within.bind (does_transitionTo rfl fun active => ?_) ?_)
        · exact ceased rfl (frame.taskState.symm.trans active)
        · rintro entered chosen _ ⟨calm, move⟩
          have going := calm.isTerminal.trans (frame.isTerminal.trans underway)
          refine Within.bind (does_setTaskStatus (calm.recovery.trans running) going move) ?_
          intro _ after _ moved
          refine ih ?_ ?_
          · rw [moved.recovery, calm.recovery, running]
          · rwa [moved.header, calm.state]

end Run

section Control

theorem no_subject_of_wouldUpdate {state : RunnerState} {update : ProcessStatus}
    (stale : CheckpointDispatcher.wouldUpdate state { processStatus := some update } = .ok false) :
    ∀ earlier run, ¬ Subject state update earlier run := by
  intro earlier run subject
  simp only [CheckpointDispatcher.wouldUpdate] at stale
  cases subject with
  | first opens unknown => simp [unknown] at stale
  | again opens known numbered => simp [known, numbered] at stale
  | current continues known numbered => simp [known, numbered] at stale

theorem does_applyRecord_stale {update : ProcessStatus} (live : world.runner.recovery = false)
    (stale : CheckpointDispatcher.wouldUpdate world.runner.state { processStatus := some update } = .ok false) :
    Does config kills (applyRecord config true { processStatus := some update }) world (fun event after =>
      event = .skipped ∧ Calm world after) := by
  have same : ∀ result, (CheckpointDispatcher.dispatchProcess true false update).run world.runner.state = result →
      (CheckpointDispatcher.dispatch true false { processStatus := some update }).run world.runner.state = result := by
    intro result ran
    simpa [CheckpointDispatcher.dispatch] using ran
  rcases CheckpointDispatcher.dispatchProcess_no_subject true world.runner.state update
    (no_subject_of_wouldUpdate stale) with ⟨_, skipped⟩ | ⟨e, raised⟩
  · have applied : (applyRecord config true { processStatus := some update }).run world = .ok .skipped world := by
      simp only [applyRecord, getRunner, EStateM.run_bind, EStateM.run_get, EStateM.run_pure, same _ skipped,
        EStateM.run_modify]
    exact Within.ok applied .refl ⟨rfl, Calm.refl world⟩
  · exact Within.error (applyRecord_refused config live (same _ raised)) (.single (.refused (.inl rfl)))

theorem does_skip {update : ProcessStatus} (live : world.runner.recovery = false)
    (stale : CheckpointDispatcher.wouldUpdate world.runner.state { processStatus := some update } = .ok false) :
    Does config kills (dispatch config true { processStatus := some update }) world (fun _ after =>
      Calm world after) := by
  have skipped : Does config kills (dispatchRecord config true { processStatus := some update }) world
      (fun event after => event = .skipped ∧ Calm world after) := by
    refine Does.getRunner ?_
    rw [live]
    refine Within.bind (reads_pause config kills world) ?_
    intro _ middle _ calm
    have applied := @does_applyRecord_stale config kills middle update (calm.recovery.trans live)
      (by rwa [calm.state])
    exact applied.weaken fun _ _ _ done => ⟨done.1, calm.trans done.2⟩
  refine Within.bind skipped ?_
  rintro event after _ ⟨rfl, calm⟩
  exact Within.pure calm

theorem does_splitUpdates (updates : List ProcessStatus) (authored : Authored updates)
    (live : world.runner.recovery = false) :
    Does config kills (splitUpdates config updates) world (fun unapplied after => Calm world after ∧
      Authored unapplied) := by
  induction updates generalizing world with
  | nil => exact Within.pure ⟨Calm.refl world, fun _ member => absurd member List.not_mem_nil⟩
  | cons update rest ih =>
    have own := authored update List.mem_cons_self
    have others : Authored rest := fun other member => authored other (List.mem_cons_of_mem update member)
    refine Does.getRunner ?_
    cases would : CheckpointDispatcher.wouldUpdate world.runner.state { processStatus := some update } with
    | error e => exact Within.throw
    | ok changes =>
      cases changes with
      | true =>
        refine Within.bind (ih others live) ?_
        rintro unapplied after _ ⟨calm, kept⟩
        refine Within.pure ⟨calm, ?_⟩
        intro other member
        rcases List.mem_cons.mp member with rfl | member
        · exact own
        · exact kept other member
      | false =>
        refine Within.bind (does_skip live would) ?_
        intro _ middle _ calm
        exact (ih others (calm.recovery.trans live)).weaken fun _ _ _ done => ⟨calm.trans done.1, done.2⟩

theorem does_initializeCkptHeader (live : world.runner.recovery = false) :
    Does config kills (initializeCkptHeader config) world (fun _ after => after.runner.recovery = false ∧
      after.runner.state.header.isSome = true) := by
  unfold initializeCkptHeader
  refine Does.getRunner ?_
  cases given : world.runner.state.header with
  | some header =>
    have skipped : Does config kills (pure () : Action Unit) world (fun _ after => after.runner.recovery = false ∧
        after.runner.state.header.isSome = true) := Within.pure ⟨live, by rw [given]; rfl⟩
    exact skipped
  | none =>
    have dispatched : Does config kills (dispatchRecord config false { runnerHeader := some config.header }) world
        (fun event after => event = .initialization config.header ∧ after.runner.recovery = false ∧
          after.runner.state.header.isSome = true) := by
      refine Does.getRunner ?_
      rw [live]
      refine Within.bind (reads_pause config kills world) ?_
      intro _ middle _ calm
      have unset : middle.runner.state.header = none := by rw [calm.state, given]
      have running := calm.recovery.trans live
      have accepted : Accepted middle.runner.state { runnerHeader := some config.header }
          (.initialization config.header) { middle.runner.state with header := some config.header } :=
        .header rfl unset
      have ran := CheckpointDispatcher.dispatch_of_accepted accepted false
      have applied : (applyRecord config false { runnerHeader := some config.header }).run middle =
          .ok (.initialization config.header) { middle with
            runner := { middle.runner with state := { middle.runner.state with header := some config.header } }
            written := middle.written ++ [(middle.runner, { runnerHeader := some config.header })] } := by
        simp only [applyRecord, getRunner, EStateM.run_bind, EStateM.run_get, EStateM.run_pure, ran,
          EStateM.run_modify, ckptWrite_live running]
      exact Within.ok applied (.single (.header accepted)) ⟨rfl, running, rfl⟩
    refine Within.bind dispatched ?_
    rintro event after _ ⟨rfl, ready⟩
    exact Within.pure ready

theorem does_replayUpdates (updates : List ProcessStatus) (authored : Authored updates)
    (live : world.runner.recovery = false) (headed : world.runner.state.header.isSome = true) :
    Does config kills (replayUpdates config updates) world (fun _ after => Frame world after) := by
  induction updates generalizing world with
  | nil => exact Within.pure (Frame.refl world)
  | cons update rest ih =>
    obtain ⟨name, own⟩ := authored update List.mem_cons_self
    obtain ⟨complete, continues⟩ := coordinatorWrites_complete own
    refine Within.bind (does_dispatch live headed complete continues) ?_
    intro _ middle _ frame
    have others : Authored rest := fun other member => authored other (List.mem_cons_of_mem update member)
    exact (ih others (frame.recovery.trans live) (by rwa [frame.header])).weaken fun _ _ _ last => frame.trans last

/-- From here on the runner is ready to run: it is in control, and its header is written. -/
theorem does_resumeTask (live : world.runner.recovery = false) :
    Does config kills (resumeTask config) world (fun _ after => after.runner.recovery = false ∧
      after.runner.state.header.isSome = true) := by
  unfold resumeTask
  refine Within.bind does_watch_select ?_
  rintro updates looked _ ⟨first, authored⟩
  refine Within.bind (does_splitUpdates updates authored (first.recovery.trans live)) ?_
  rintro unapplied split _ ⟨second, left⟩
  have calm := first.trans second
  refine Does.getRunner ?_
  by_cases terminal : isTerminal split.runner = true
  · rw [if_pos terminal]
    exact ReflTransGen.refl
  · rw [if_neg terminal]
    refine Within.bind (does_initializeCkptHeader (calm.recovery.trans live)) ?_
    rintro _ ready _ ⟨running, headed⟩
    refine (does_replayUpdates unapplied left running headed).weaken ?_
    intro _ after _ frame
    exact ⟨frame.recovery.trans running, by rwa [frame.header]⟩

theorem does_control {body : Action Unit} (runs : ∀ ready : World, ready.runner.recovery = false →
      ready.runner.state.header.isSome = true → Does config kills body ready (fun _ _ => True)) :
    Does config kills (control config body) world (fun _ _ => True) := by
  unfold control
  refine Does.getRunner ?_
  by_cases terminal : isTerminal world.runner = true
  · rw [if_pos terminal]
    exact ReflTransGen.refl
  · rw [if_neg terminal]
    have underway : isTerminal world.runner = false := Bool.eq_false_iff.mpr terminal
    have taken : Does config kills
        (modify fun world : World => { world with runner := { world.runner with recovery := false } }) world
        (fun _ after => after.runner.recovery = false ∧ isTerminal after.runner = false) :=
      Within.modified (.single (.quiet ⟨rfl, rfl, rfl, rfl, rfl, rfl⟩)) ⟨rfl, underway⟩
    refine Within.bind taken ?_
    rintro _ held _ ⟨live, going⟩
    refine Does.getRunner ?_
    cases same : taskState held.runner with
    | none => exact ReflTransGen.refl
    | some state =>
      refine Within.bind (does_setTaskStatus live going (.again same)) ?_
      intro _ entered _ moved
      refine Within.bind (does_resumeTask (moved.recovery.trans live)) ?_
      rintro _ ready _ ⟨running, headed⟩
      refine Within.tryCatch (runs ready running headed) ?_
      intro e middle _
      split
      · exact Within.throw
      · exact Within.pure trivial

theorem does_run (rounds : Nat) : Does config kills (run config rounds) world (fun _ _ => True) := by
  refine Does.getRunner ?_
  split
  · exact Within.pure trivial
  · exact does_control fun _ live headed => does_runLoop rounds live headed

theorem does_kill (rounds : Nat) (terminalStatus : TaskState) (preemptionWait : Time) (allowed : kills) :
    Does config kills (kill config rounds terminalStatus preemptionWait) world (fun _ _ => True) := by
  refine does_assertThat fun final => ?_
  refine Within.bind (reads_clockTime config kills world) ?_
  intro now timed _ _
  have due : Does config kills (modify fun world : World =>
      { world with runner := { world.runner with preemptionDeadline := some (now + preemptionWait) } }) timed
      (fun _ _ => True) :=
    Within.modified (.single (.quiet ⟨rfl, rfl, rfl, rfl, rfl, rfl⟩)) trivial
  refine Within.bind due ?_
  intro _ begun _ _
  refine does_control ?_
  intro ready live headed
  refine Does.getRunner ?_
  split
  · exact Within.pure trivial
  · have forced : Does config kills
        (modify fun world : World => { world with runner := { world.runner with terminalState := some terminalStatus } })
        ready (fun _ after => after.runner = { ready.runner with terminalState := some terminalStatus }) :=
      Within.modified (.single (.kill allowed final)) rfl
    refine Within.bind forced ?_
    intro _ decided _ same
    have running : decided.runner.recovery = false := by rw [same, live]
    have named : decided.runner.state.header.isSome = true := by rw [same, headed]
    refine Does.getRunner ?_
    split
    · rename_i active
      have going : isTerminal decided.runner = false := by
        rw [isTerminal, active]
        rfl
      have move : TaskMove config decided.runner .cleaning := .cleaning active (.inr (.inr (by rw [same]; rfl)))
      refine Within.bind (does_setTaskStatus running going move) ?_
      intro _ cleaning _ moved
      exact does_runLoop rounds (moved.recovery.trans running) (by rwa [moved.header])
    · exact does_runLoop rounds running named

end Control

end TaskRunner

end Aurora.Thermos
