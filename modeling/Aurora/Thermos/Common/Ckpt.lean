import Aurora.Library.Replay
import Aurora.Thermos.Types

namespace Aurora.Thermos

open Collections

def ProcessRun.isTerminal (run : ProcessRun) : Bool :=
  run.state = some .success || run.state = some .failed || run.state = some .killed ||
    run.state = some .lost

def ProcessRun.fresh (seq : Int) : ProcessRun := { seq }

def RunnerState.currentRun (state : RunnerState) (process : Option Name) : Option ProcessRun :=
  (state.processes.get? process).bind List.getLast?

namespace CheckpointDispatcher

def nonempty {α σ : Type} (field : String) (update : ProcessStatus) (value : Option α) :
    EStateM Error σ α :=
  match value with
  | some v => pure v
  | none => throw (.missingField field update)

def assertProcessStateIn (update : ProcessStatus) (expected : List (Option ProcessState)) :
    EStateM Error ProcessRun Unit := do
  let run ← get
  unless run.state ∈ expected do
    throw (.errorRecoveringState ("Detected invalid state transition " ++
      ProcessState.valueName run.state ++ " => " ++ ProcessState.valueName update.state))

def updateProcessState (update : ProcessStatus) : EStateM Error ProcessRun Unit := do
  -- the sequence number is copied before any check
  let seq ← nonempty "seq" update update.seq
  modify fun run => { run with seq }
  match update.state with
  | some .waiting =>
    assertProcessStateIn update [none]
    let process ← nonempty "process" update update.process
    modify fun run => { run with state := update.state, process := some process }
  | some .forked =>
    assertProcessStateIn update [some .waiting]
    let forkTime ← nonempty "fork_time" update update.forkTime
    let coordinatorPid ← nonempty "coordinator_pid" update update.coordinatorPid
    modify fun run =>
      { run with state := update.state, forkTime := some forkTime, coordinatorPid := some coordinatorPid }
  | some .running =>
    assertProcessStateIn update [some .forked]
    let startTime ← nonempty "start_time" update update.startTime
    let pid ← nonempty "pid" update update.pid
    modify fun run => { run with state := update.state, startTime := some startTime, pid := some pid }
  | some .success =>
    assertProcessStateIn update [some .running]
    let stopTime ← nonempty "stop_time" update update.stopTime
    let returnCode ← nonempty "return_code" update update.returnCode
    modify fun run =>
      { run with state := update.state, stopTime := some stopTime, returnCode := some returnCode }
  | some .failed =>
    assertProcessStateIn update [some .waiting, some .running]
    -- the source tests the update's own state here, which is FAILED
    if update.state = some .running then
      let stopTime ← nonempty "stop_time" update update.stopTime
      let returnCode ← nonempty "return_code" update update.returnCode
      modify fun run => { run with stopTime := some stopTime, returnCode := some returnCode }
    modify fun run => { run with state := update.state }
  | some .killed =>
    assertProcessStateIn update [some .forked, some .running]
    let stopTime ← nonempty "stop_time" update update.stopTime
    let returnCode ← nonempty "return_code" update update.returnCode
    modify fun run =>
      { run with state := update.state, stopTime := some stopTime, returnCode := some returnCode }
  | some .lost =>
    assertProcessStateIn update [some .forked, some .running]
    modify fun run => { run with state := update.state }
  | _ => throw (.errorRecoveringState ("Unknown state = " ++ ProcessState.valueText update.state))

/-- What a dispatched record hands to the registered handlers. -/
inductive Dispatched
  | skipped
  | initialization (header : RunnerHeader)
  | taskTransition (status : TaskStatus)
  | processTransition (update : ProcessStatus)
  deriving DecidableEq

def replaceLast (state : RunnerState) (process : Option Name) (run : ProcessRun) : RunnerState :=
  { state with
    processes := state.processes.set process (((state.processes.get? process).getD []).dropLast ++ [run]) }

/-- A WAITING update opens a run that starts from the sequence number reached so far. -/
def openRun (truncate : Bool) (state : RunnerState) (process : Option Name) : RunnerState :=
  match state.processes.get? process with
  | none => { state with processes := state.processes.set process [.fresh (-1)] }
  | some runs =>
    let seq := (runs.getLast?.map ProcessRun.seq).getD (-1)
    let opened := if truncate then [.fresh seq] else runs ++ [.fresh seq]
    { state with processes := state.processes.set process opened }

def advanceRun (update : ProcessStatus) : EStateM Error RunnerState Dispatched := fun state =>
  match state.currentRun update.process with
  | none => .error (.errorRecoveringState ("Encountered potentially out of order " ++
      "process update.  Are you sure this is a full checkpoint stream?")) state
  | some last =>
    match updateProcessState update last with
    | .ok _ run => .ok (.processTransition update) (replaceLast state update.process run)
    | .error e run => .error e (replaceLast state update.process run)

def dispatchProcess (recovery truncate : Bool) (update : ProcessStatus) :
    EStateM Error RunnerState Dispatched := do
  let state ← get
  if state.processes.get? update.process = some [] then
    throw .indexError
  if let some current := state.currentRun update.process then
    if update.seq ≠ some (current.seq + 1) then
      if recovery then
        return .skipped
      throw (.invalidSequenceNumber "Out of order sequence number! %s => %s" current update)
  if update.state = some .waiting then
    if let some current := state.currentRun update.process then
      unless current.isTerminal do
        throw .assertion
    set (openRun truncate state update.process)
  advanceRun update

def dispatch (recovery truncate : Bool) (ckpt : RunnerCkpt) : EStateM Error RunnerState Dispatched := do
  let state ← get
  match ckpt.runnerHeader, ckpt.taskStatus, ckpt.processStatus with
  | some header, _, _ =>
    if state.header.isSome then
      throw (.errorRecoveringState "Attempting to rebind task with different parameters!")
    set { state with header := some header }
    return .initialization header
  | none, some status, _ =>
    -- the state before the transition is read for a log line
    if state.statuses = some [] then
      throw .indexError
    let statuses := if truncate then [status] else state.statuses.getD [] ++ [status]
    set { state with statuses := some statuses }
    return .taskTransition status
  | none, none, some update => dispatchProcess recovery truncate update
  | none, none, none => throw (.errorRecoveringState "Empty RunnerCkpt encountered!")

def wouldUpdate (state : RunnerState) (ckpt : RunnerCkpt) : Except Error Bool :=
  match ckpt.processStatus with
  | none => .ok false
  | some update =>
    match state.processes.get? update.process with
    | none => .ok true
    | some runs =>
      match runs.getLast?, update.seq with
      | none, _ => .error .indexError
      | some _, none => .error .typeError
      | some current, some seq => .ok (current.seq < seq)

end CheckpointDispatcher

end Aurora.Thermos
