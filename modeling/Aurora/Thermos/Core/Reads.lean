import Aurora.Thermos.Core.Steps

namespace Aurora.Thermos

open Collections Guarantee Relation TaskRunnerHelper

namespace Calm

variable {before after : World}

theorem state (calm : Calm before after) : after.runner.state = before.runner.state := by rw [calm.runner]

theorem planner (calm : Calm before after) (plan : Plan) : after.runner.planner plan = before.runner.planner plan := by
  rw [calm.runner]
  cases plan <;> rfl

theorem regularPlan (calm : Calm before after) : after.runner.regularPlan = before.runner.regularPlan := by
  rw [calm.runner]

theorem recovery (calm : Calm before after) : after.runner.recovery = before.runner.recovery := by rw [calm.runner]

theorem terminalState (calm : Calm before after) : after.runner.terminalState = before.runner.terminalState := by
  rw [calm.runner]

theorem taskProcesses (calm : Calm before after) : after.runner.taskProcesses = before.runner.taskProcesses := by
  rw [calm.runner]

theorem taskState (calm : Calm before after) :
    TaskRunner.taskState after.runner = TaskRunner.taskState before.runner := by
  simp only [TaskRunner.taskState, calm.state]

theorem isTerminal (calm : Calm before after) :
    TaskRunner.isTerminal after.runner = TaskRunner.isTerminal before.runner := by
  simp only [TaskRunner.isTerminal, calm.taskState]

end Calm

namespace TaskRunner

theorem calm_answers (world : World) (answers : List Answer) : Calm world { world with answers } :=
  ⟨rfl, rfl, rfl, rfl, rfl, rfl⟩

theorem reads_answer : Reads answer := by
  intro config kills world
  cases pending : world.answers with
  | nil =>
    have ran : answer.run world = .ok {} world := by simp only [answer, EStateM.run, pending]
    exact Within.ok ran .refl (Calm.refl world)
  | cons first rest =>
    have ran : answer.run world = .ok first { world with answers := rest } := by
      simp only [answer, EStateM.run, pending]
    exact Within.ok ran (.single (.quiet (calm_answers world rest).quiet)) (calm_answers world rest)

theorem reads_clockTime : Reads clockTime := reads_answer.bind fun _ => Reads.pure _

theorem reads_pause : Reads pause :=
  reads_answer.bind fun _ => Reads.ite (Reads.throw _) (Reads.pure _)

theorem reads_enumerate (names : Finset Name) : Reads (enumerate names) :=
  reads_answer.bind fun _ => Reads.pure _

section Watch

variable {α : Type} {look : ProcessFiles → EStateM Error ProcessMuxer α}

/-- A look at the process checkpoints that registers and unregisters nothing. -/
def KeepsKeys (look : ProcessFiles → EStateM Error ProcessMuxer α) : Prop :=
  ∀ files muxer, (Replay.final ((look files).run muxer)).processes.keys = muxer.processes.keys

theorem reads_onWatcher (files : ProcessFiles) (keeps : KeepsKeys look) :
    Reads (onRunner (Runner.onWatcher (look files))) := by
  intro config kills world
  have kept := keeps files world.runner.watcher
  unfold Does Within
  simp only [EStateM.run, onRunner, Runner.onWatcher] at kept ⊢
  cases ran : look files world.runner.watcher with
  | ok value watcher =>
    rw [ran] at kept
    have calm : Calm world { world with runner := { world.runner with watcher } } :=
      ⟨rfl, kept, rfl, rfl, rfl, rfl⟩
    exact ⟨.single (.quiet calm.quiet), calm⟩
  | error e watcher =>
    rw [ran] at kept
    have calm : Calm world { world with runner := { world.runner with watcher } } :=
      ⟨rfl, kept, rfl, rfl, rfl, rfl⟩
    exact .single (.quiet calm.quiet)

theorem reads_watch (keeps : KeepsKeys look) : Reads (watch look) := by
  refine reads_answer.bind fun reply => ?_
  refine Reads.bind ?_ fun _ => ?_
  · intro config kills world
    have calm : Calm world { world with checkpoints := world.checkpoints.append reply.appended } :=
      ⟨rfl, rfl, rfl, rfl, rfl, rfl⟩
    exact Within.modified (.single (.quiet calm.quiet)) calm
  · intro config kills world
    exact Within.get (reads_onWatcher world.checkpoints.files keeps config kills world)

theorem keepsKeys_select : KeepsKeys ProcessMuxer.select := by
  intro files muxer
  show ((muxer.bindProcesses files).processes.mapKeyed (ProcessMuxer.readToEnd files)).keys = muxer.processes.keys
  rw [Dict.keys_mapKeyed]
  exact Dict.keys_mapKeyed _ _

theorem keepsKeys_hasData (name : Name) : KeepsKeys (fun files => ProcessMuxer.hasData files name) := by
  intro files muxer
  have bound : (muxer.bindProcesses files).processes.keys = muxer.processes.keys := Dict.keys_mapKeyed _ _
  unfold ProcessMuxer.hasData
  simp only [EStateM.run_bind, EStateM.run_modify, EStateM.run_get]
  cases (muxer.bindProcesses files).processes.get? name with
  | none => exact bound
  | some watched =>
    cases position : watched.position with
    | none => simp only [position]; exact bound
    | some reached => simp only [position]; exact bound

end Watch

section Looks

variable (config : RunnerConfig)

theorem reads_scanPid (recorded : Option Int) : Reads (scanPid recorded) := by
  unfold scanPid
  cases recorded with
  | none => exact Reads.pure none
  | some pid => exact Reads.ite (Reads.pure _) (reads_answer.bind fun _ => Reads.pure _)

theorem reads_scanChildren (pid : Option Int) : Reads (scanChildren pid) :=
  Reads.ite (Reads.pure _) (reads_answer.bind fun _ => Reads.pure _)

theorem reads_scanProcess (process : Option Name) : Reads (scanProcess process) := by
  refine Reads.getRunner.bind fun runner => ?_
  cases runner.state.currentRun process with
  | none => exact Reads.throw _
  | some run =>
    refine Reads.ite Reads.throw_bind ?_
    refine (reads_scanPid _).bind fun coordinatorPid => ?_
    refine (reads_scanPid _).bind fun pid => ?_
    exact (reads_scanChildren pid).bind fun _ => Reads.pure _

theorem reads_scanProcesses (processes : List (Option Name)) : Reads (scanProcesses processes) := by
  induction processes with
  | nil => exact Reads.pure []
  | cons process rest ih =>
    exact (reads_scanProcess process).bind fun _ => ih.bind fun _ => Reads.pure _

theorem reads_scanTree : Reads scanTree :=
  Reads.getRunner.bind fun _ => reads_scanProcesses _

theorem reads_deadlocked (plan : Plan) : Reads (deadlocked plan) :=
  reads_clockTime.bind fun _ => Reads.getRunner.bind fun _ => Reads.pure _

theorem reads_remainingAllocation : Reads (finalizationRemaining.remainingAllocation config) := by
  refine Reads.getRunner.bind fun runner => ?_
  cases runner.finalizationStart with
  | none => exact Reads.pure _
  | some start => exact reads_clockTime.bind fun _ => Reads.pure _

theorem reads_finalizationRemaining : Reads (finalizationRemaining config) := by
  refine Reads.getRunner.bind fun runner => ?_
  cases runner.preemptionDeadline with
  | none => exact reads_remainingAllocation config
  | some deadline =>
    exact Reads.ite (reads_clockTime.bind fun _ => Reads.pure _) (reads_remainingAllocation config)

theorem reads_isProcessLost (name : Name) : Reads (isProcessLost name) := by
  refine Reads.bind (Reads.getRunner.bind fun _ => Reads.pure _) fun current => ?_
  cases current with
  | none => exact Reads.throw _
  | some run =>
    refine Reads.ite ?_ (Reads.ite ?_ (Reads.pure _))
    · cases run.forkTime with
      | none => exact Reads.throw _
      | some forkTime => exact reads_clockTime.bind fun _ => Reads.pure _
    · refine (reads_scanProcess _).bind fun pids => Reads.ite (Reads.pure _) ?_
      exact (reads_watch (keepsKeys_hasData name)).bind fun _ => Reads.pure _

theorem reads_waiters (plan : Plan) (names : List Name) : Reads (waiters plan names) := by
  induction names with
  | nil => exact Reads.pure []
  | cons name rest ih =>
    exact reads_clockTime.bind fun _ => Reads.getRunner.bind fun _ => ih.bind fun _ => Reads.pure _

theorem reads_waits (plan : Plan) (names : List Name) : Reads (waits plan names) := by
  induction names with
  | nil => exact Reads.pure []
  | cons name rest ih =>
    exact reads_clockTime.bind fun _ => Reads.getRunner.bind fun _ => ih.bind fun _ => Reads.pure _

theorem reads_minWait (plan : Plan) : Reads (minWait plan) := by
  refine reads_clockTime.bind fun _ => Reads.getRunner.bind fun _ => Reads.ite (Reads.pure _) ?_
  refine Reads.getRunner.bind fun _ => (reads_enumerate _).bind fun names => ?_
  refine (reads_waiters plan names).bind fun _ => (reads_waits plan _).bind fun times => ?_
  cases times <;> exact Reads.pure _

theorem reads_hasRunningProcesses : Reads hasRunningProcesses := reads_scanTree.bind fun _ => Reads.pure _

end Looks

end TaskRunner

end Aurora.Thermos
