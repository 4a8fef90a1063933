import Aurora.Executor.StatusChecker
import Aurora.Library.Transition

namespace Aurora.Executor

structure TaskInfo where
  taskId : String
  slaveId : String := ""
  /-- the `AssignedTask` in it can be deserialized -/
  wellFormed : Bool := true
  deriving DecidableEq

structure Update where
  taskId : String
  state : TaskState
  message : Option String
  deriving DecidableEq

/-- What the executor does that can be seen from outside, runners by their number. -/
inductive Entry
  | sent (update : Update)
  | created (runner : Nat)
  | started (runner : Nat)
  deriving DecidableEq

structure Runner where
  taskId : String
  status : Option StatusResult := none
  deriving DecidableEq

/-- What `from_assigned_task` returned; an object that is no `TaskRunner` may still be true or false. -/
inductive Provided
  | taskRunner (runner : Nat)
  | unrecognized (truthy : Bool)
  deriving DecidableEq

inductive RunStep
  | announce | sandbox | provide | recognize | check | start | starting | monitor | ceased
  deriving DecidableEq

structure Run where
  task : TaskInfo
  next : RunStep
  deriving DecidableEq

/-- Where a status manager stands: in its loop, or in one of the two callbacks. -/
inductive ManagerStep
  | poll
  | running (result : StatusResult)
  | unhealthy (result : StatusResult)
  | stopping (result : StatusResult) (runnerStatus : Option StatusResult)
  | ceased
  deriving DecidableEq

structure StatusManager where
  runner : Nat
  chained : Option StatusResult := none
  complete : Option StatusResult := none
  runningCallbackDispatched : Bool := false
  next : ManagerStep := .poll
  deriving DecidableEq

/-- What a driver callback has yet to do after it has looked at the state of the executor. -/
inductive Callback
  | launch (task : TaskInfo)
  | abort
  | kill (reason : String)
  deriving DecidableEq

structure AuroraExecutor where
  launched : Bool := false
  slaveId : Option String := none
  taskId : Option String := none
  runner : Option Provided := none
  runnerAborted : Bool := false
  sandboxCreated : Bool := false
  killReason : Option String := none
  runners : List Runner := []
  runs : List Run := []
  managers : List StatusManager := []
  callback : Option Callback := none
  journal : List Entry := []
  deriving DecidableEq

inductive SandboxOutcome
  | created
  | timedOut
  | sandboxError (text : String)
  | otherError (text : String)
  /-- the sandbox provider raises -/
  | noSandbox
  deriving DecidableEq

inductive ProviderOutcome
  | taskRunner
  | unrecognized (truthy : Bool)
  | taskError (text : String)
  | otherError
  deriving DecidableEq

inductive StartOutcome
  | started
  | taskError (text : String)
  | timedOut
  | otherError (text : String)
  deriving DecidableEq

/-- `internalError` stands for the exceptions that `_run` handles; no manager has been started then. -/
inductive MonitorOutcome
  | started | internalError | otherError
  deriving DecidableEq

/-- One atomic step of one of the threads: the driver's callbacks, the deferred runs and the status managers. -/
inductive Event
  | launchTask (task : TaskInfo)
  | killTask (taskId : String)
  | shutdown
  | resume
  | announce (run : Nat)
  | initializeSandbox (run : Nat) (outcome : SandboxOutcome)
  | fromAssignedTask (run : Nat) (outcome : ProviderOutcome)
  | recognize (run : Nat)
  | checkAborted (run : Nat)
  | startRunner (run : Nat)
  | runnerStarted (run : Nat) (outcome : StartOutcome)
  | startStatusManager (run : Nat) (outcome : MonitorOutcome)
  | poll (manager : Nat) (process : RunnerProcess) (reported : List (Option StatusResult))
  | signalRunning (manager : Nat)
  | unhealthy (manager : Nat) (process : RunnerProcess)
  | stopped (manager : Nat) (handled : Bool)
  deriving DecidableEq

namespace AuroraExecutor

variable (executor : AuroraExecutor)

def sendUpdate (taskId : String) (state : TaskState) (message : Option String) : AuroraExecutor :=
  { executor with journal := executor.journal ++ [.sent ⟨taskId, state, message.filter (· ≠ "")⟩] }

/-- `self._task_id`, which is set from the first accepted launch on. -/
def ownId : String := executor.taskId.getD ""

def die (status : TaskState) (msg : String) : AuroraExecutor := executor.sendUpdate executor.ownId status (some msg)

section Driver

def launchTask (task : TaskInfo) : AuroraExecutor :=
  let executor := { executor with launched := true }
  match executor.runner with
  | some (.taskRunner _) | some (.unrecognized true) =>
    executor.sendUpdate task.taskId .lost
      (some ("Task already running on this executor: " ++ executor.taskId.getD "None"))
  | some (.unrecognized false) | none => { executor with callback := some (.launch task) }

def signalKillManager (taskId reason : String) : AuroraExecutor :=
  if executor.taskId ≠ some taskId then
    executor
  else if executor.sandboxCreated then
    { executor with callback := some (.kill reason) }
  else
    { executor with callback := some .abort }

def killTask (taskId : String) : AuroraExecutor := executor.signalKillManager taskId "Instructed to kill task."

def shutdown : AuroraExecutor :=
  match executor.taskId with
  | none => executor
  | some taskId =>
    if taskId = "" then executor else executor.signalKillManager taskId "Told to shut down executor."

def resume : Option AuroraExecutor :=
  let resumed := { executor with callback := none }
  match executor.callback with
  | none => none
  | some .abort => some { resumed with runnerAborted := true }
  | some (.kill reason) => some { resumed with killReason := some reason }
  | some (.launch task) =>
    let owned := { resumed with slaveId := some task.slaveId, taskId := some task.taskId }
    if task.wellFormed then
      some { owned with runs := owned.runs ++ [⟨task, .announce⟩] }
    else
      some (owned.sendUpdate task.taskId .failed (some "Could not deserialize task."))

end Driver

section Run

def onRun (run : Nat) (place : RunStep) (body : TaskInfo → AuroraExecutor × RunStep) : Option AuroraExecutor :=
  match executor.runs[run]? with
  | none => none
  | some found =>
    if found.next = place then
      let (after, next) := body found.task
      some { after with runs := executor.runs.set run ⟨found.task, next⟩ }
    else
      none

def announce (_task : TaskInfo) : AuroraExecutor × RunStep := (executor.sendUpdate executor.ownId .starting none, .sandbox)

def initializeSandbox (outcome : SandboxOutcome) (_task : TaskInfo) : AuroraExecutor × RunStep :=
  match outcome with
  | .created => ({ executor with sandboxCreated := true }, .provide)
  | .timedOut => (executor.die .failed "Timed out waiting for sandbox to initialize!", .ceased)
  | .sandboxError text => (executor.die .failed ("Failed to initialize sandbox: " ++ text), .ceased)
  | .otherError text => (executor.die .failed ("Unknown exception initializing sandbox: " ++ text), .ceased)
  | .noSandbox => (executor, .ceased)

def fromAssignedTask (outcome : ProviderOutcome) (task : TaskInfo) : AuroraExecutor × RunStep :=
  match outcome with
  | .taskRunner =>
    let number := executor.runners.length
    ({ executor with
      runners := executor.runners ++ [{ taskId := task.taskId }]
      runner := some (.taskRunner number)
      journal := executor.journal ++ [.created number] }, .recognize)
  | .unrecognized truthy => ({ executor with runner := some (.unrecognized truthy) }, .recognize)
  | .taskError text => ({ executor with runnerAborted := true }.die .failed text, .ceased)
  | .otherError => (executor, .ceased)

def recognize (_task : TaskInfo) : AuroraExecutor × RunStep :=
  match executor.runner with
  | some (.taskRunner _) => (executor, .check)
  | _ => (executor.die .failed "Unrecognized task!", .ceased)

/-- The head of `_start_runner`, which goes on to the start of the runner in any case. -/
def checkAborted (_task : TaskInfo) : AuroraExecutor × RunStep :=
  if executor.runnerAborted then
    (executor.die .killed "Task killed during initialization.", .start)
  else
    (executor, .start)

def startRunner (_task : TaskInfo) : AuroraExecutor × RunStep :=
  match executor.runner with
  | some (.taskRunner number) => ({ executor with journal := executor.journal ++ [.started number] }, .starting)
  | _ => (executor, .starting)

def runnerStarted (outcome : StartOutcome) (_task : TaskInfo) : AuroraExecutor × RunStep :=
  match outcome with
  | .started => (executor, .monitor)
  | .taskError text => (executor.die .failed ("Task initialization failed: " ++ text), .ceased)
  | .timedOut => (executor.die .lost "Timed out waiting for task to start!", .ceased)
  | .otherError text => (executor.die .failed ("Unknown exception starting runner: " ++ text), .ceased)

def startStatusManager (outcome : MonitorOutcome) (_task : TaskInfo) : AuroraExecutor × RunStep :=
  match outcome, executor.runner with
  | .started, some (.taskRunner number) =>
    ({ executor with managers := executor.managers ++ [{ runner := number }] }, .ceased)
  | .internalError, _ => (executor.die .failed "Internal error", .ceased)
  -- a chain that is built on something else than a status checker raises a TypeError
  | .started, _ | .otherError, _ => (executor, .ceased)

end Run

section Manager

/-- The `status` of a runner, which keeps the first one that it finds. -/
def readStatus (number : Nat) (process : RunnerProcess) : Option StatusResult × AuroraExecutor :=
  match executor.runners[number]? with
  | none => (none, executor)
  | some runner =>
    let status := runner.status.orElse fun _ => ThermosTaskRunner.computeStatus process
    (status, { executor with runners := executor.runners.set number { runner with status } })

def killStatus : Option StatusResult := executor.killReason.map fun reason => ⟨reason, .killed⟩

def StatusManager.react (dispatched : Bool) : Option StatusResult → ManagerStep
  | none => .poll
  | some result =>
    match result.status with
    | .running => if dispatched then .poll else .running result
    | .starting => .poll
    | _ => .unhealthy result

def onManager (number : Nat) (body : StatusManager → Option (AuroraExecutor × StatusManager)) :
    Option AuroraExecutor :=
  match executor.managers[number]? with
  | none => none
  | some found =>
    match body found with
    | none => none
    | some (after, next) => some { after with managers := executor.managers.set number next }

def poll (process : RunnerProcess) (reported : List (Option StatusResult)) (manager : StatusManager) :
    Option (AuroraExecutor × StatusManager) :=
  match manager.next with
  | .poll =>
    let (runnerStatus, after) := executor.readStatus manager.runner process
    let chained := ChainedStatusChecker.status manager.chained (executor.killStatus :: reported)
    let complete := ChainedStatusChecker.status manager.complete [runnerStatus, chained]
    let next := StatusManager.react manager.runningCallbackDispatched complete
    some (after, { manager with chained, complete, next })
  | _ => none

def signalRunning (manager : StatusManager) : Option (AuroraExecutor × StatusManager) :=
  match manager.next with
  | .running result =>
    some (executor.sendUpdate executor.ownId .running result.reason,
      { manager with runningCallbackDispatched := true, next := .poll })
  | _ => none

/-- `_shutdown` up to the point where it stops the checkers and the runner. -/
def unhealthy (process : RunnerProcess) (manager : StatusManager) : Option (AuroraExecutor × StatusManager) :=
  match manager.next, executor.runner with
  | .unhealthy result, some (.taskRunner number) =>
    let (runnerStatus, after) := executor.readStatus number process
    some (after, { manager with next := .stopping result runnerStatus })
  | .unhealthy _, _ => some (executor, { manager with next := .ceased })
  | _, _ => none

/-- The rest of `_shutdown`: an exception of a `stop` that is not handled, or a state that is not listed, ends the
    thread before anything is sent. -/
def stopped (handled : Bool) (manager : StatusManager) : Option (AuroraExecutor × StatusManager) :=
  match manager.next with
  | .stopping result runnerStatus =>
    let exitStatus := runnerStatus.getD result
    let ended := { manager with next := .ceased }
    if handled && exitStatus.status.isListed then
      some (executor.sendUpdate executor.ownId exitStatus.status result.reason, ended)
    else
      some (executor, ended)
  | _ => none

end Manager

def onDriver (after : AuroraExecutor) : Option AuroraExecutor := if executor.callback = none then some after else none

def step (event : Event) : Option AuroraExecutor :=
  match event with
  | .launchTask task => executor.onDriver (executor.launchTask task)
  | .killTask taskId => executor.onDriver (executor.killTask taskId)
  | .shutdown => executor.onDriver executor.shutdown
  | .resume => executor.resume
  | .announce run => executor.onRun run .announce executor.announce
  | .initializeSandbox run outcome => executor.onRun run .sandbox (executor.initializeSandbox outcome)
  | .fromAssignedTask run outcome => executor.onRun run .provide (executor.fromAssignedTask outcome)
  | .recognize run => executor.onRun run .recognize executor.recognize
  | .checkAborted run => executor.onRun run .check executor.checkAborted
  | .startRunner run => executor.onRun run .start executor.startRunner
  | .runnerStarted run outcome => executor.onRun run .starting (executor.runnerStarted outcome)
  | .startStatusManager run outcome => executor.onRun run .monitor (executor.startStatusManager outcome)
  | .poll manager process reported => executor.onManager manager (executor.poll process reported)
  | .signalRunning manager => executor.onManager manager executor.signalRunning
  | .unhealthy manager process => executor.onManager manager (executor.unhealthy process)
  | .stopped manager handled => executor.onManager manager (executor.stopped handled)

end AuroraExecutor

end Aurora.Executor
