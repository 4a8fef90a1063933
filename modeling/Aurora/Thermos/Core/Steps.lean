import Aurora.Library.Guarantee
import Aurora.Thermos.Common.CkptErrors
import Aurora.Thermos.Core.Runner

namespace Aurora.Thermos

open Collections Guarantee Relation

/-- A plan without the times of the last terminal states, which only delay restarts. -/
def TaskPlanner.timeless (plan : TaskPlanner) : TaskPlanner := { plan with lastTerminal := .empty }

/-- The part of a runner that is rebuilt from its checkpoint stream. -/
structure Core where
  state : RunnerState
  plan : Option Plan
  regularPlan : TaskPlanner
  finalizingPlan : TaskPlanner
  taskProcesses : Finset Name
  watched : Finset Name

def Runner.core (runner : Runner) : Core where
  state := runner.state
  plan := runner.plan
  regularPlan := runner.regularPlan.timeless
  finalizingPlan := runner.finalizingPlan.timeless
  taskProcesses := runner.taskProcesses.keys.toFinset
  watched := runner.watcher.processes.keys.toFinset

/-- A change of nothing but the surroundings and the positions in the process checkpoints. -/
structure Calm (before after : World) : Prop where
  runner : after.runner = { before.runner with watcher := after.runner.watcher }
  watched : after.runner.watcher.processes.keys = before.runner.watcher.processes.keys
  written : after.written = before.written
  refused : after.refused = before.refused
  started : after.started = before.started
  finalized : after.finalized = before.finalized

/-- A change of no consequence for what a restart would rebuild. -/
structure Quiet (before after : World) : Prop where
  core : after.runner.core = before.runner.core
  terminalState : after.runner.terminalState = before.runner.terminalState
  written : after.written = before.written
  refused : after.refused = before.refused
  started : after.started = before.started
  finalized : after.finalized = before.finalized

/-- When the runner enters a task state: it takes control again, or it passes on to the next stage. -/
inductive TaskMove (config : RunnerConfig) (runner : Runner) : TaskState → Prop
  | again {state : TaskState} (same : TaskRunner.taskState runner = some state) : TaskMove config runner state
  | cleaning (active : TaskRunner.taskState runner = some .active)
      (ceased : runner.regularPlan.isComplete = true ∨
        (∃ now, TaskRunner.healthyAt config runner.regularPlan now = false) ∨ runner.terminalState.isSome = true) :
      TaskMove config runner .cleaning
  | finalizing (cleaned : TaskRunner.taskState runner = some .cleaning) : TaskMove config runner .finalizing
  | forced {state : TaskState} (decided : runner.terminalState = some state) : TaskMove config runner state
  | judged {now : Time} (late : TaskRunner.taskState runner = some .cleaning ∨
        TaskRunner.taskState runner = some .finalizing) (undecided : runner.terminalState = none) :
      TaskMove config runner (if TaskRunner.healthyAt config runner.regularPlan now then .success else .failed)

/-- The steps that a live runner takes; `kills` says whether `kill` may be called on it. -/
inductive Step (config : RunnerConfig) (kills : Prop) (world : World) : World → Prop
  | quiet {after : World} (same : Quiet world after) : Step config kills world after
  | refused {record : RunnerCkpt} {state : RunnerState}
      (left : state = world.runner.state ∨ CheckpointDispatcher.SequenceCopied world.runner.state record state) :
      Step config kills world { world with
        runner := { world.runner with state }, refused := world.refused ++ [(world.runner, record)] }
  | header {record : RunnerCkpt} {header : RunnerHeader} {state : RunnerState}
      (accepted : Accepted world.runner.state record (.initialization header) state) :
      Step config kills world { world with
        runner := { world.runner with state }, written := world.written ++ [(world.runner, record)] }
  | task {record : RunnerCkpt} {status : TaskStatus} {entered : TaskState} {state : RunnerState}
      (accepted : Accepted world.runner.state record (.taskTransition status) state)
      (enters : status.state = some entered) (stamped : status.timestampMs.isSome = true)
      (underway : TaskRunner.isTerminal world.runner = false) (move : TaskMove config world.runner entered) :
      Step config kills world { world with
        runner := { world.runner with state }, written := world.written ++ [(world.runner, record)] }
  | process {record : RunnerCkpt} {update : ProcessStatus} {state : RunnerState} {now : Time}
      (accepted : Accepted world.runner.state record (.processTransition update) state)
      (headed : world.runner.state.header.isSome = true)
      (launch : update.state = some .waiting → ∃ name plan, update.process = some name ∧
        name ∈ (world.runner.planner plan).planner.runnable) :
      Step config kills world { world with
        runner := Replay.final
          ((TaskRunnerProcessHandler.onTransition config now update).run { world.runner with state })
        written := world.written ++ [(world.runner, record)] }
  | switch {plan : Plan} (due : (TaskRunner.taskState world.runner = some .active ∧ plan = .regular) ∨
        (TaskRunner.taskState world.runner = some .finalizing ∧ plan = .finalizing)) :
      Step config kills world { world with runner := { world.runner with plan := some plan } }
  | start {name : Name} {runs : List ProcessRun} {run : ProcessRun}
      (known : world.runner.state.processes.get? (some name) = some (runs ++ [run]))
      (waiting : run.state = some .waiting) (underway : TaskRunner.isTerminal world.runner = false) :
      Step config kills world { world with started := world.started ++ [(name, runs.length)] }
  | finalize (settled : ∀ process run, world.runner.state.currentRun process = some run →
        run.isTerminal = true ∨ run.state = some .waiting) (terminal : TaskRunner.isTerminal world.runner = true) :
      Step config kills world { world with finalized := true }
  | kill {state : TaskState} (allowed : kills) (final : state = .killed ∨ state = .lost) :
      Step config kills world { world with runner := { world.runner with terminalState := some state } }

namespace Calm

theorem refl (world : World) : Calm world world := ⟨rfl, rfl, rfl, rfl, rfl, rfl⟩

theorem trans {first second third : World} (left : Calm first second) (right : Calm second third) :
    Calm first third where
  runner := by rw [right.runner, left.runner]
  watched := right.watched.trans left.watched
  written := right.written.trans left.written
  refused := right.refused.trans left.refused
  started := right.started.trans left.started
  finalized := right.finalized.trans left.finalized

theorem quiet {before after : World} (calm : Calm before after) : Quiet before after where
  core := by
    rw [calm.runner]
    simp only [Runner.core, calm.watched]
  terminalState := by rw [calm.runner]
  written := calm.written
  refused := calm.refused
  started := calm.started
  finalized := calm.finalized

end Calm

namespace TaskRunner

variable {config : RunnerConfig} {kills : Prop} {α β : Type}

/-- The action stays within the steps of a live runner, and what it returns meets a condition. -/
abbrev Does (config : RunnerConfig) (kills : Prop) (action : Action α) (world : World) (Post : α → World → Prop) :
    Prop :=
  Within (Step config kills) action world Post

def Reads (action : Action α) : Prop :=
  ∀ config kills world, Does config kills action world (fun _ after => Calm world after)

namespace Reads

theorem pure (value : α) : Reads (Pure.pure value : Action α) := fun _ _ world => Within.pure (Calm.refl world)

theorem throw (e : Error) : Reads (MonadExcept.throw e : Action α) := fun _ _ _ => Within.throw

theorem throw_bind {e : Error} {next : α → Action β} : Reads (MonadExcept.throw e >>= next) := fun _ _ _ =>
  ReflTransGen.refl

theorem bind {action : Action α} {next : α → Action β} (first : Reads action) (rest : ∀ value, Reads (next value)) :
    Reads (action >>= next) := by
  intro config kills world
  refine Within.bind (first config kills world) ?_
  intro value middle _ calm
  exact (rest value config kills middle).weaken fun _ _ _ further => calm.trans further

theorem ite {condition : Prop} [Decidable condition] {yes no : Action α} (left : Reads yes) (right : Reads no) :
    Reads (if condition then yes else no) := by
  split
  · exact left
  · exact right

theorem getRunner : Reads Aurora.Thermos.getRunner := fun _ _ world => ⟨.refl, Calm.refl world⟩

end Reads

end TaskRunner

end Aurora.Thermos
