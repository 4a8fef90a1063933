import Aurora.Thermos.Core.World

namespace Aurora.Thermos

open Collections

/-- `TaskRunnerHelper`: what it finds out about the pids of a process. -/
structure PidTuple where
  coordinatorPid : Option Int
  pid : Option Int
  tree : List Int

def PidTuple.alive (pids : PidTuple) : Bool :=
  pids.coordinatorPid.isSome || pids.pid.isSome || !pids.tree.isEmpty

namespace TaskRunnerHelper

/-- `this_is_really_our_pid` on a recorded pid; an unset or zero pid is not looked up. -/
def scanPid (recorded : Option Int) : Action (Option Int) :=
  match recorded with
  | none => return none
  | some pid => do
    if pid = 0 then return none
    return if (← answer).ours then some pid else none

def scanChildren (pid : Option Int) : Action (List Int) := do
  if pid.isNone then return []
  return (← answer).children

def scanProcess (process : Option Name) : Action PidTuple := do
  let runner ← getRunner
  match runner.state.currentRun process with
  | none => throw (.keyError "process")
  | some run =>
    if runner.state.header.isNone then
      throw (.attributeError "user")
    let coordinatorPid ← scanPid run.coordinatorPid
    let pid ← scanPid run.pid
    let tree ← scanChildren pid
    return { coordinatorPid, pid, tree }

def scanProcesses : List (Option Name) → Action (List (Option Name × PidTuple))
  | [] => return []
  | process :: rest => do
    let pids ← scanProcess process
    let others ← scanProcesses rest
    return (process, pids) :: others

def scanTree : Action (List (Option Name × PidTuple)) := do
  scanProcesses (← getRunner).state.processes.keys

def isTaskTerminal (state : Option TaskState) : Bool :=
  state = some .success || state = some .failed || state = some .killed || state = some .lost

def finalizeTask : Action Unit := modify fun world => { world with finalized := true }

end TaskRunnerHelper

namespace TaskRunner

open TaskRunnerHelper

def floatMax : Time := (2 ^ 53 - 1) * 2 ^ 971

def toInt (time : Time) : Int := time.num.tdiv time.den

section Dispatch

variable (config : RunnerConfig)

def ckptWrite (before : Runner) (record : RunnerCkpt) : Action Unit := do
  unless before.recovery do
    modify fun world => { world with written := world.written ++ [(before, record)] }

def applyRecord (recovery : Bool) (record : RunnerCkpt) : Action CheckpointDispatcher.Dispatched := do
  let before ← getRunner
  match (CheckpointDispatcher.dispatch recovery false record).run before.state with
  | .error e state =>
    modify fun world => { world with
      runner := { before with state }
      refused := if before.recovery then world.refused else world.refused ++ [(before, record)] }
    throw e
  | .ok event state =>
    modify fun world => { world with runner := { before with state } }
    match event with
    | .skipped => return event
    | .initialization _ | .taskTransition _ =>
      ckptWrite before record
      return event
    | .processTransition update =>
      ckptWrite before record
      let now ← clockTime
      onRunner (TaskRunnerProcessHandler.onTransition config now update)
      return event

/-- `dispatch` up to the handlers of a task status, which write further records themselves. -/
def dispatchRecord (recovery : Bool) (record : RunnerCkpt) : Action CheckpointDispatcher.Dispatched := do
  unless (← getRunner).recovery do
    pause
  applyRecord config recovery record

def currentProcessRun (process : Option Name) : Action (Option ProcessRun) :=
  return (← getRunner).state.currentRun process

def setProcessStatus (process : Option Name) (state : ProcessState) (stopTime : Option Time)
    (returnCode : Option Int) : Action Unit := do
  let seq ←
    match ← currentProcessRun process with
    | none => do
      assertThat (state = .waiting)
      pure 0
    | some run => pure (run.seq + 1)
  let status : ProcessStatus := { process, state := some state, seq := some seq, stopTime, returnCode }
  let _ ← dispatchRecord config (← getRunner).recovery { processStatus := some status }

def killProcess (process : Option Name) (pids : PidTuple) : Action Unit := do
  match ← currentProcessRun process with
  | none => throw (.attributeError "state")
  | some run =>
    -- a process in a terminal state is only signalled
    if run.isTerminal then return
    else if pids.alive then
      let now ← clockTime
      setProcessStatus config process .killed (some now) (some (-1))
    else if run.state ≠ some .waiting then
      setProcessStatus config process .lost none none

def killProcesses : List (Option Name × PidTuple) → Action Unit
  | [] => return
  | (process, pids) :: rest => do
    killProcess config process pids
    killProcesses rest

def killAll : Action Unit := do
  killProcesses config (← scanTree)

/-- `_terminate_plan` only signals processes; it needs the header to look them up. -/
def terminatePlan : Action Unit := do
  let runner ← getRunner
  if runner.state.header.isNone ∧ runner.state.processes.keys ≠ [] then
    throw (.attributeError "user")

def setPlan (plan : Plan) : Action Unit :=
  modify fun world => { world with runner := { world.runner with plan := some plan } }

def setFinalizationStart (status : TaskStatus) : Action Unit :=
  match status.timestampMs with
  | none => throw .typeError
  | some timestampMs => modify fun world =>
    { world with runner := { world.runner with finalizationStart := some (timestampMs / 1000) } }

/-- `TaskRunnerTaskHandler`, which `_run_task_dispatch` calls by the name of the state. -/
def taskTransition (status : TaskStatus) : Action Unit := do
  match status.state with
  | some .active => setPlan .regular
  | some .cleaning =>
    setFinalizationStart status
    terminatePlan
  | some .finalizing =>
    unless (← getRunner).recovery do
      killAll config
    setPlan .finalizing
    if (← getRunner).finalizationStart.isNone then
      setFinalizationStart status
  | some .success | some .failed | some .killed | some .lost =>
    unless (← getRunner).recovery do
      killAll config
      finalizeTask
  | _ => throw (.keyError "TaskState")

def dispatch (recovery : Bool) (record : RunnerCkpt) : Action Unit := do
  match ← dispatchRecord config recovery record with
  | .taskTransition status => taskTransition config status
  | _ => return

def setTaskStatus (state : TaskState) : Action Unit := do
  let timestampMs := toInt ((← clockTime) * 1000)
  let status : TaskStatus :=
    { state := some state, timestampMs := some timestampMs, runnerPid := some config.pid,
      runnerUid := some config.uid }
  dispatch config (← getRunner).recovery { taskStatus := some status }

end Dispatch

section State

variable (config : RunnerConfig)

def taskState (runner : Runner) : Option TaskState :=
  match runner.state.statuses.bind List.getLast? with
  | none => some .active
  | some status => status.state

def isTerminal (runner : Runner) : Bool := isTaskTerminal (taskState runner)

def underFailureLimit (plan : TaskPlanner) : Bool :=
  config.task.maxFailures = 0 || plan.planner.failed.card < config.task.maxFailures

def healthyAt (plan : TaskPlanner) (now : Time) : Bool := !plan.deadlockedAt now && underFailureLimit config plan

def isHealthy : Action Bool := do
  let now ← clockTime
  return healthyAt config (← getRunner).regularPlan now

def deadlocked (plan : Plan) : Action Bool := do
  let now ← clockTime
  return ((← getRunner).planner plan).deadlockedAt now

def terminalState : Action TaskState := do
  match (← getRunner).terminalState with
  | some state => return state
  | none => return if ← isHealthy config then .success else .failed

def finalizationRemaining : Action Time := do
  match (← getRunner).preemptionDeadline with
  | some deadline =>
    if deadline ≠ 0 then
      return max 0 (deadline - (← clockTime))
    remainingAllocation
  | none => remainingAllocation
where
  remainingAllocation : Action Time := do
    match (← getRunner).finalizationStart with
    | none => return floatMax
    | some start =>
      let waited := max 0 ((← clockTime) - start)
      return max 0 (config.task.finalizationWait - waited)

end State

section Plans

variable (config : RunnerConfig)

def lostTimeout : Time := 60

def isProcessLost (name : Name) : Action Bool := do
  match ← currentProcessRun (some name) with
  | none => throw (.internalError ("No current_run for process " ++ name ++ "!"))
  | some run =>
    if run.state = some .forked then
      match run.forkTime with
      | none => throw .typeError
      | some forkTime => return lostTimeout < (← clockTime) - forkTime
    else if run.state = some .running then
      let pids ← scanProcess (some name)
      if pids.coordinatorPid.isSome then return false
      return !(← watch fun files => ProcessMuxer.hasData files name)
    else return false

def markLost : List Name → Action Unit
  | [] => return
  | name :: rest => do
    if ← isProcessLost name then
      setProcessStatus config (some name) .lost none none
    markLost rest

/-- `Process.start`: it may raise a `Process.Error`, else FORKED is in the checkpoint of the process. -/
def startProcess (name : Name) (process : TaskProcess) : Action Bool := do
  pause
  let reply ← answer
  if reply.starts then
    let record : ProcessStatus :=
      { seq := some process.seq, process := some name, state := some .forked, forkTime := some reply.time,
        coordinatorPid := some reply.pid }
    let forked := { process with seq := process.seq + 1, pid := some reply.pid, forkTime := some reply.time }
    modify fun world => { world with
      runner := { world.runner with taskProcesses := world.runner.taskProcesses.set name forked }
      checkpoints := world.checkpoints.write name record
      started := world.started ++
        [(name, ((world.runner.state.processes.get? (some name)).getD []).length - 1)] }
  return reply.starts

/-- The process object to start: a recovered one that is waiting, or a new one. -/
def prepareProcess (name : Name) : Action TaskProcess := do
  match (← getRunner).taskProcesses.get? name with
  | some process =>
    match ← currentProcessRun (some name) with
    | none => throw (.attributeError "state")
    | some run =>
      assertThat (run.state = some .waiting)
      return process
  | none =>
    setProcessStatus config (some name) .waiting none none
    match (← getRunner).taskProcesses.get? name with
    | none => throw (.keyError name)
    | some process => return process

/-- The loop over the picked processes, with whether any was launched so far. -/
def launch (launched : Bool) : List Name → Action Bool
  | [] => return launched
  | name :: rest => do
    let process ← prepareProcess config name
    if ← startProcess name process then
      launch true rest
    else
      setProcessStatus config (some name) .failed none none
      launch launched rest

def pickProcesses (running : Nat) (processes : List Name) : List Name :=
  if config.task.maxConcurrency = 0 then processes
  else processes.take (max (config.task.maxConcurrency - running) 0).toNat

def runPlan (plan : Plan) : Action Bool := do
  let running := ((← getRunner).planner plan).planner.running
  markLost config (← enumerate running)
  let now ← clockTime
  let runnable ← enumerate (((← getRunner).planner plan).runnableAt now)
  launch config false (pickProcesses config running.card runnable)

/-- `waiting_at(None)`: every process is compared with its own reading of the clock. -/
def waiters (plan : Plan) : List Name → Action (List Name)
  | [] => return []
  | name :: rest => do
    let now ← clockTime
    let ready := ((← getRunner).planner plan).isReady name now
    let others ← waiters plan rest
    return if ready then others else name :: others

def waits (plan : Plan) : List Name → Action (List Time)
  | [] => return []
  | name :: rest => do
    let now ← clockTime
    let wait := ((← getRunner).planner plan).getWait name now
    let others ← waits plan rest
    return wait :: others

def minWait (plan : Plan) : Action Time := do
  let now ← clockTime
  if ((← getRunner).planner plan).runnableAt now ≠ ∅ then
    return 0
  let runnable ← enumerate ((← getRunner).planner plan).planner.runnable
  match ← waits plan (← waiters plan runnable) with
  | [] => return floatMax
  | first :: rest => return rest.foldl min first

def hasRunningProcesses : Action Bool := do
  let tree ← scanTree
  return tree.any fun entry => entry.2.alive

def hasActiveProcesses (runner : Runner) : Bool :=
  runner.state.processes.keys.any fun process =>
    match runner.state.currentRun process with
    | none => false
    | some run => !run.isTerminal

end Plans

section Stages

variable (config : RunnerConfig)

def runActive : Action (Option Time) := do
  let launched ← runPlan config .regular
  if (← getRunner).regularPlan.isComplete then
    -- the state it ends in is only logged
    let _ ← isHealthy config
    return none
  else if !(← isHealthy config) then
    return none
  else if launched then
    return some (max 1 (← minWait .regular))
  else
    return some (min 15 (← minWait .regular))

def runCleaning : Action (Option Time) := do
  if 0 < (← finalizationRemaining config) then
    if ← hasRunningProcesses then
      return some (min (← finalizationRemaining config) 1)
  return none

def runFinalizing : Action (Option Time) := do
  let _ ← runPlan config .finalizing
  if ← deadlocked .finalizing then
    return none
  if 0 < (← finalizationRemaining config) then
    if !(← getRunner).finalizingPlan.isComplete then
      return some (min (← finalizationRemaining config) 1)
  return none

def runStage (state : Option TaskState) : Action (Option Time) :=
  match state with
  | some .active => runActive config
  | some .cleaning => runCleaning config
  | some .finalizing => runFinalizing config
  | _ => throw (.keyError "TaskState")

def transitionTo (state : Option TaskState) : Action TaskState :=
  match state with
  | some .active => return .cleaning
  | some .cleaning => do
    if (← finalizationRemaining config) ≤ 0 then
      terminalState config
    else
      return .finalizing
  | some .finalizing => terminalState config
  | _ => throw (.keyError "TaskState")

end Stages

section Loop

variable (config : RunnerConfig)

def dispatchUpdates : List ProcessStatus → Action Unit
  | [] => return
  | update :: rest => do
    dispatch config (← getRunner).recovery { processStatus := some update }
    dispatchUpdates rest

/-- The polling loop of `collect_updates`, for at most as many rounds as given. -/
def pollUpdates (rounds : Nat) (timeout total : Time) : Action Nat :=
  match rounds with
  | 0 => throw .unfinished
  | rounds + 1 => do
    let updates ← watch ProcessMuxer.select
    dispatchUpdates config updates
    if updates ≠ [] then return updates.length
    else if timeout ≤ total then return 0
    else pollUpdates rounds timeout (total + 1)

def collectUpdates (rounds : Nat) (timeout : Time) : Action Nat := do
  if hasActiveProcesses (← getRunner) then
    pollUpdates config rounds timeout 0
  else
    return 0

def runLoop (rounds : Nat) : Action Unit :=
  match rounds with
  | 0 => throw .unfinished
  | rounds + 1 => do
    let runner ← getRunner
    if isTerminal runner then return
    else
      match ← runStage config (taskState runner) with
      | none =>
        setTaskStatus config (← transitionTo config (taskState (← getRunner)))
      | some wait =>
        let _ ← collectUpdates config rounds wait
      runLoop rounds

end Loop

section Control

variable (config : RunnerConfig)

/-- The updates that would change the state; the others are dispatched, and skipped, right away. -/
def splitUpdates : List ProcessStatus → Action (List ProcessStatus)
  | [] => return []
  | update :: rest => do
    match CheckpointDispatcher.wouldUpdate (← getRunner).state { processStatus := some update } with
    | .error e => throw e
    | .ok true =>
      let others ← splitUpdates rest
      return update :: others
    | .ok false =>
      dispatch config true { processStatus := some update }
      splitUpdates rest

def initializeCkptHeader : Action Unit := do
  if (← getRunner).state.header.isNone then
    dispatch config false { runnerHeader := some config.header }

def replayUpdates : List ProcessStatus → Action Unit
  | [] => return
  | update :: rest => do
    dispatch config false { processStatus := some update }
    replayUpdates rest

def resumeTask : Action Unit := do
  let unapplied ← splitUpdates config (← watch ProcessMuxer.select)
  if isTerminal (← getRunner) then
    throw (.stateError "Cannot resume terminal task.")
  initializeCkptHeader config
  replayUpdates config unapplied

/-- `with self.control(): body`; exceptions of the body are logged and dropped. -/
def control (body : Action Unit) : Action Unit := do
  if isTerminal (← getRunner) then
    throw (.stateError "Cannot take control of a task in terminal state.")
  modify fun world => { world with runner := { world.runner with recovery := false } }
  match taskState (← getRunner) with
  | some state => setTaskStatus config state
  | none => throw (.keyError "TaskState")
  resumeTask config
  try body
  catch e =>
    -- the model's own two errors are no exceptions
    if e = .interrupted ∨ e = .unfinished then throw e

def run (rounds : Nat) : Action Unit := do
  unless isTerminal (← getRunner) do
    control config (runLoop config rounds)

def kill (rounds : Nat) (terminalStatus : TaskState) (preemptionWait : Time) : Action Unit := do
  assertThat (terminalStatus = .killed ∨ terminalStatus = .lost)
  let deadline := (← clockTime) + preemptionWait
  modify fun world => { world with runner := { world.runner with preemptionDeadline := some deadline } }
  control config do
    unless isTerminal (← getRunner) do
      modify fun world => { world with runner := { world.runner with terminalState := some terminalStatus } }
      if taskState (← getRunner) = some .active then
        setTaskStatus config .cleaning
      runLoop config rounds

def lose (rounds : Nat) : Action Unit := kill config rounds .lost 0

def replayRunnerCkpt (records : List RunnerCkpt) : Action Unit := Replay.feed (dispatch config true) records

def create (records : List RunnerCkpt) (answers : List Answer) : Except Error Runner := do
  let runner ← Runner.init config
  match (replayRunnerCkpt config records).run { runner, answers } with
  | .ok _ world => return world.runner
  | .error e _ => throw e

end Control

end TaskRunner

end Aurora.Thermos
