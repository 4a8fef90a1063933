import Aurora.Thermos.Common.Planner
import Aurora.Thermos.Core.Muxer

namespace Aurora.Thermos

open Collections

/-- The planner that `_plan` refers to. -/
inductive Plan
  | regular | finalizing
  deriving DecidableEq

/-- A `Process` object, as far as the runner uses it: the sequence number of its next update, the
    run it belongs to, and what `rebind` sets. -/
structure TaskProcess where
  seq : Int
  run : Nat
  pid : Option Int := none
  forkTime : Option Time := none

/-- What a `TaskRunner` is constructed with; the header is the one it would initialize. -/
structure RunnerConfig where
  task : Task
  header : RunnerHeader := {}
  pid : Int := 0
  uid : Int := 0
  totalRunLimit : Nat

structure Runner where
  state : RunnerState := {}
  plan : Option Plan := none
  regularPlan : TaskPlanner
  finalizingPlan : TaskPlanner
  taskProcesses : Dict Name TaskProcess := .empty
  watcher : ProcessMuxer := {}
  recovery : Bool := true
  terminalState : Option TaskState := none
  finalizationStart : Option Time := none
  preemptionDeadline : Option Time := none

def RunnerConfig.processMap (config : RunnerConfig) : Dict Name Process := TaskPlanner.processMap config.task.processes

def isRegular (process : Process) : Bool := process.final = false

def isFinalizing (process : Process) : Bool := process.final = true

def Runner.init (config : RunnerConfig) : Except Error Runner := do
  let regularPlan ← TaskPlanner.init config.totalRunLimit config.task isRegular
  let finalizingPlan ← TaskPlanner.init config.totalRunLimit config.task isFinalizing
  return { regularPlan, finalizingPlan }

namespace Runner

def planner (runner : Runner) : Plan → TaskPlanner
  | .regular => runner.regularPlan
  | .finalizing => runner.finalizingPlan

def withPlanner (runner : Runner) (plan : Plan) (planner : TaskPlanner) : Runner :=
  match plan with
  | .regular => { runner with regularPlan := planner }
  | .finalizing => { runner with finalizingPlan := planner }

def onPlan (action : EStateM Error TaskPlanner Unit) : EStateM Error Runner Unit := fun runner =>
  match runner.plan with
  | none => .error (.attributeError "NoneType") runner
  | some plan =>
    match action (runner.planner plan) with
    | .ok _ planner => .ok () (runner.withPlanner plan planner)
    | .error e planner => .error e (runner.withPlanner plan planner)

def onWatcher {α : Type} (action : EStateM Error ProcessMuxer α) : EStateM Error Runner α := fun runner =>
  match action runner.watcher with
  | .ok value watcher => .ok value { runner with watcher }
  | .error e watcher => .error e { runner with watcher }

def taskProcessFromProcessName (config : RunnerConfig) (name : Name) (seq : Int) :
    EStateM Error Runner TaskProcess := do
  match (← get).state.processes.get? (some name) with
  | none => throw (.keyError name)
  | some runs =>
    if (config.processMap.get? name).isNone then
      throw (.internalError ("FATAL: Could not find process: " ++ name))
    return { seq, run := runs.length - 1 }

end Runner

namespace TaskRunnerProcessHandler

open Runner

def onWaiting (config : RunnerConfig) (name : Name) (seq : Int) : EStateM Error Runner Unit := do
  let process ← taskProcessFromProcessName config name (seq + 1)
  modify fun runner => { runner with taskProcesses := runner.taskProcesses.set name process }
  onWatcher (ProcessMuxer.register name (seq - 1))

def onForked (name : Name) (update : ProcessStatus) : EStateM Error Runner Unit := do
  match (← get).taskProcesses.get? name with
  | none => throw (.keyError name)
  | some process =>
    let rebound := { process with pid := update.coordinatorPid, forkTime := update.forkTime }
    modify fun runner => { runner with taskProcesses := runner.taskProcesses.set name rebound }
    onPlan (TaskPlanner.setRunning name)

def onRunning (name : Name) : EStateM Error Runner Unit := onPlan (TaskPlanner.setRunning name)

/-- `_task_processes.pop` and `_watcher.unregister`, behind every final update. -/
def dismiss (name : Name) : EStateM Error Runner Unit := do
  if ((← get).taskProcesses.get? name).isNone then
    throw (.keyError name)
  modify fun runner => { runner with taskProcesses := runner.taskProcesses.erase name }
  onWatcher (ProcessMuxer.unregister name)

def onSuccess (name : Name) (now : Time) : EStateM Error Runner Unit := do
  dismiss name
  onPlan (TaskPlanner.addSuccess name now)

def onFailed (name : Name) (now : Time) : EStateM Error Runner Unit := do
  dismiss name
  onPlan (TaskPlanner.addFailure name now)

def onLost (name : Name) (now : Time) : EStateM Error Runner Unit := do
  dismiss name
  onPlan (TaskPlanner.lost name now)

def onKilled (name : Name) (now : Time) : EStateM Error Runner Unit := do
  dismiss name
  onPlan (TaskPlanner.lost name now)

/-- The handler that `_run_process_dispatch` selects by the name of the state. -/
def onTransition (config : RunnerConfig) (now : Time) (update : ProcessStatus) : EStateM Error Runner Unit :=
  match update.process, update.seq, update.state with
  | some name, some seq, some state =>
    match state with
    | .waiting => onWaiting config name seq
    | .forked => onForked name update
    | .running => onRunning name
    | .success => onSuccess name now
    | .failed => onFailed name now
    | .killed => onKilled name now
    | .lost => onLost name now
    | .unknown value => throw (.keyError (toString value))
  | _, _, _ => throw (.keyError "None")

end TaskRunnerProcessHandler

end Aurora.Thermos
