import Aurora.Thermos.Core.CrashRecovery

namespace Aurora.Thermos

open Collections Guarantee Relation Replay

namespace TaskRunnerProcessHandler

variable {config : RunnerConfig} {now : Time} {update : ProcessStatus} {runner handled : Runner} {e : Error}

theorem onTransition_waiting (waiting : update.state = some .waiting)
    (raised : (onTransition config now update).run runner = .error e handled) : ¬ e.IsAssertion := by
  unfold onTransition at raised
  rw [waiting] at raised
  cases named : update.process with
  | none =>
    rw [named] at raised
    cases raised
    exact id
  | some name =>
    cases numbered : update.seq with
    | none =>
      rw [named, numbered] at raised
      cases raised
      exact id
    | some seq =>
      rw [named, numbered] at raised
      change (onWaiting config name seq).run runner = .error e handled at raised
      rw [onWaiting_run] at raised
      split at raised
      · cases raised
        exact id
      · split_ifs at raised <;>
        · cases raised
          exact id

theorem fits_of_onTransition {state : RunnerState} (lockstep : Core.Lockstep config runner.core)
    (ran : (onTransition config now update).run { runner with state } = .ok () handled) : runner.core.Fits update := by
  have same := coreOf_onTransition config now update { runner with state }
  rw [ran] at same
  exact lockstep.fits_of_handles (Core.handles_of_handle same.symm)

end TaskRunnerProcessHandler

namespace TaskRunner

open TaskRunnerProcessHandler

/-- In every state that fitting updates lead to, the handler of an accepted update that fits meets the
    assertions of the planner; the handler of one that does not fit never gets through. -/
theorem updates_meet_assertions (config : RunnerConfig) {first : Runner} {answers : List Answer}
    (created : create config [] answers = .ok first) {world : World}
    (lives : Lives config True World.Faithful { runner := first } world) (fitting : world.Fitting)
    {record : RunnerCkpt} {update : ProcessStatus} {state : RunnerState}
    (accepted : (CheckpointDispatcher.dispatch false false record).run world.runner.state =
      .ok (.processTransition update) state) (now : Time) :
    (world.runner.core.Fits update → ∀ e handled,
      (onTransition config now update).run { world.runner with state } = .error e handled → ¬ e.IsAssertion) ∧
    (¬ world.runner.core.Fits update → ∃ e handled,
      (onTransition config now update).run { world.runner with state } = .error e handled) := by
  have lockstep := (sound_of_lives created lives (fun _ careful => careful) fitting).lockstep
  have accepted := CheckpointDispatcher.dispatch_accepts_iff.mp accepted
  constructor
  · intro fits e handled raised
    by_cases waiting : update.state = some .waiting
    · exact onTransition_waiting waiting raised
    · have launch : update.state = some .waiting → ∃ name plan, update.process = some name ∧
          name ∈ (world.runner.planner plan).planner.runnable := fun opens => absurd opens waiting
      obtain ⟨done, ran, _⟩ := lockstep.onTransition now accepted launch fits
      rw [ran] at raised
      cases raised
  · intro unfit
    cases ran : (onTransition config now update).run { world.runner with state } with
    | error e handled => exact ⟨e, handled, rfl⟩
    | ok value handled => exact absurd (fits_of_onTransition lockstep ran) unfit

section Serving

def acceptedUpdate (state : RunnerState) (record : RunnerCkpt) : Option ProcessStatus :=
  match (CheckpointDispatcher.dispatch false false record).run state with
  | .ok (.processTransition update) _ => some update
  | _ => none

theorem dispatch_of_acceptedUpdate {state : RunnerState} {record : RunnerCkpt} {update : ProcessStatus}
    (found : acceptedUpdate state record = some update) : ∃ after,
    (CheckpointDispatcher.dispatch false false record).run state = .ok (.processTransition update) after := by
  unfold acceptedUpdate at found
  split at found
  · rename_i accepted after ran
    cases found
    exact ⟨after, ran⟩
  · cases found

def servingRunning : ProcessStatus where
  process := some "serve"
  seq := some 2
  state := some .running
  startTime := some 0
  pid := some 2

def agreementChecks (first : Runner) : Bool :=
  servingChecks first ∧ (servingRun first).runner.core.Fits servingRunning ∧
    acceptedUpdate (servingRun first).runner.state { processStatus := some servingRunning } = some servingRunning

theorem agreementChecks_pass : checked serving agreementChecks = true := by decide +kernel

theorem updates_meet_assertions_running : ∃ first, create serving [] [] = .ok first ∧
    ∃ state, (CheckpointDispatcher.dispatch false false { processStatus := some servingRunning }).run
        (servingRun first).runner.state = .ok (.processTransition servingRunning) state ∧
      ∀ e handled, (onTransition serving 0 servingRunning).run { (servingRun first).runner with state } =
        .error e handled → ¬ e.IsAssertion := by
  obtain ⟨first, created, passed⟩ := created_of_checked agreementChecks_pass
  obtain ⟨passed, fits, found⟩ := of_decide_eq_true passed
  obtain ⟨state, accepted⟩ := dispatch_of_acceptedUpdate found
  obtain ⟨faithful, fitting⟩ := servingRun_faithful passed
  have lives := lives_faithful (servingRun_lives first) faithful
  exact ⟨first, created, state, accepted, (updates_meet_assertions serving created lives fitting accepted 0).1 fits⟩

/-- `Process.start` raises, and the runner is about to write that the process has failed. -/
def failingAnswers : List Answer := List.replicate 11 { starts := false } ++ [{ interrupt := true }]

def failingRun (first : Runner) : World := final ((run serving 2).run { runner := first, answers := failingAnswers })

def launchFailure : ProcessStatus where
  process := some "serve"
  seq := some 1
  state := some .failed

/-- Whether the record is an update that `dispatch` accepts and whose handler then asserts in vain. -/
def asserts (config : RunnerConfig) (runner : Runner) (record : RunnerCkpt) : Bool :=
  match (CheckpointDispatcher.dispatch false false record).run runner.state with
  | .ok (.processTransition update) state =>
    match (onTransition config 0 update).run { runner with state } with
    | .error .assertion _ => record.processStatus = some update
    | _ => false
  | _ => false

theorem raises_of_asserts {config : RunnerConfig} {runner : Runner} {update : ProcessStatus}
    (found : asserts config runner { processStatus := some update } = true) : ∃ state handled,
    (CheckpointDispatcher.dispatch false false { processStatus := some update }).run runner.state =
      .ok (.processTransition update) state ∧
    (onTransition config 0 update).run { runner with state } = .error .assertion handled := by
  unfold asserts at found
  split at found
  · rename_i accepted state ran
    split at found
    · rename_i handled raised
      cases Option.some.inj (of_decide_eq_true found)
      exact ⟨state, handled, ran, raised⟩
    · cases found
  · cases found

def failureChecks (first : Runner) : Bool :=
  asserts serving (failingRun first).runner { processStatus := some launchFailure }

theorem failureChecks_pass : checked serving failureChecks = true := by decide +kernel

/-- The checkpoint lets a WAITING run fail, but the planner never had it running. -/
theorem launch_failure_asserts : ∃ first, create serving [] [] = .ok first ∧
    Lives serving True (fun _ => True) { runner := first } (failingRun first) ∧ ∃ state handled,
      (CheckpointDispatcher.dispatch false false { processStatus := some launchFailure }).run
        (failingRun first).runner.state = .ok (.processTransition launchFailure) state ∧
      (onTransition serving 0 launchFailure).run { (failingRun first).runner with state } =
        .error .assertion handled := by
  obtain ⟨first, created, passed⟩ := created_of_checked failureChecks_pass
  have lives : Lives serving True (fun _ => True) { runner := first } (failingRun first) :=
    .single (@Enters.run serving True (fun _ => True) { runner := first } 2 failingAnswers)
  exact ⟨first, created, lives, raises_of_asserts passed⟩

end Serving

end TaskRunner

end Aurora.Thermos
