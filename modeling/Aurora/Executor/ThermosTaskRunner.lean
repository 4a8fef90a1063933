import Aurora.Executor.StatusChecker
import Aurora.Library.Guarantee

namespace Aurora.Executor.Lifecycle

open Guarantee

inductive Waited
  | running
  | ended (status : Nat)
  /-- an OSError with ECHILD -/
  | noChild
  | osError
  deriving DecidableEq

/-- What `core.TaskRunner.get` and the forced `kill` of the runner it gives come to, in the end. -/
inductive ForcedKill
  /-- there is no runner to bind to, or `kill` returns -/
  | returned
  | taskRunnerError
  /-- any other exception, such as a `TaskRunnerHelper.Error` or an OSError -/
  | escaped (exception : String)
  deriving DecidableEq

/-- What the surroundings answer at one point; an operation looks at the field that concerns it. -/
structure Answer where
  waited : Waited := .running
  active : Bool := false
  finished : Bool := false
  taskState : Thermos.TaskState := .active
  /-- whether an endpoint was called without a `QueryError` -/
  handled : Bool := false
  /-- the OSError that `Popen` raises -/
  forkError : Option String := none
  forcedKill : ForcedKill := .returned
  /-- whether `kill_runner` has sent SIGKILL to the runner process that holds the checkpoint -/
  killRunner : Bool := false
  deriving DecidableEq

inductive Signal
  | sigusr1 | sigusr2
  deriving DecidableEq

structure ThermosTaskRunner where
  answers : List Answer := []
  popen : Bool := false
  popenSignal : Option Int := none
  popenRc : Option Int := none
  monitor : Bool := false
  status : Option StatusResult := none
  dead : Bool := false
  killSignal : Bool := false
  forking : Bool := false
  forked : Bool := false
  signals : List Signal := []
  /-- how often the processes of the task have been killed by force -/
  kills : Nat := 0
  /-- how many SIGKILLs a runner process was sent by that -/
  sigkills : Nat := 0
  slept : Nat := 0
  /-- the endpoints that an `HttpLifecycleManager` has called -/
  posts : List String := []
  deriving DecidableEq

inductive Raised
  | taskError (text : String)
  | osError
  | attributeError
  /-- what a forced kill has raised -/
  | escaped (exception : String)
  /-- not an exception: a loop that is still going when the rounds given to the model are used up -/
  | unfinished
  deriving DecidableEq

abbrev Run := EStateM Raised ThermosTaskRunner

namespace ThermosTaskRunner

def answer : Run Answer := fun runner =>
  match runner.answers with
  | [] => .ok {} runner
  | first :: rest => .ok first { runner with answers := rest }

def sleep (duration : Nat) : Run Unit := modify fun runner => { runner with slept := runner.slept + duration }

/-- `_decode_status`: the low byte without its high bit, and the high byte as a signed one. -/
def decodeStatus (status : Nat) : Int × Int :=
  (status % 128, if status / 256 < 128 then status / 256 else status / 256 - 256)

def isAlive : Run Bool := do
  let runner ← get
  if !runner.popen then return false
  if runner.dead then return false
  match (← answer).waited with
  | .running => return true
  | .ended status =>
    modify fun runner => { runner with
      popenSignal := some (decodeStatus status).1, popenRc := some (decodeStatus status).2, dead := true }
    return false
  | .noChild =>
    modify fun runner => { runner with dead := true }
    return false
  | .osError => throw .osError

def taskState : Run (Option Thermos.TaskState) := do
  if (← get).monitor then return some (← answer).taskState
  return none

def computeStatus : Run (Option StatusResult) := do
  if ← isAlive then return none
  let runner ← get
  let process : RunnerProcess := { alive := false, popenSignal := runner.popenSignal, popenRc := runner.popenRc }
  -- the checkpoint is only looked at where the runner has ended by itself
  if process.popenSignal = some 0 ∧ (process.popenRc = some 0 ∨
      process.popenRc = some Executor.ThermosTaskRunner.terminalTask) then
    return Executor.ThermosTaskRunner.computeStatus { process with taskState := ← taskState }
  return Executor.ThermosTaskRunner.computeStatus process

def reason : Run (Option String) := do
  match ← computeStatus with
  | some result => return result.reason
  | none => throw .attributeError

def getStatus : Run (Option StatusResult) := do
  if (← get).status.isNone then
    let computed ← computeStatus
    modify fun runner => { runner with status := computed }
  return (← get).status

def terminateRunner (asLoss : Bool) : Run Unit := do
  if (← get).killSignal then return
  modify fun runner => { runner with killSignal := true }
  if ← isAlive then
    modify fun runner => { runner with signals := runner.signals ++ [if asLoss then .sigusr2 else .sigusr1] }

def kill : Run Unit := terminateRunner false

def lose : Run Unit := terminateRunner true

def quitquitquit : Run Unit := do
  let forced ← answer
  modify fun runner => { runner with
    kills := runner.kills + 1
    sigkills := runner.sigkills + if forced.killRunner then 1 else 0 }
  match forced.forcedKill with
  | .returned | .taskRunnerError => return
  | .escaped exception => throw (.escaped exception)

def isStarted : Run Bool := do
  if (← get).monitor then
    let looked ← answer
    return looked.active || looked.finished
  return false

def reasonText : Option String → String
  | some text => text
  | none => "None"

section Waiting

variable (pollInterval : Nat)

def waitStartLoop (timeout : Nat) : Nat → Nat → Run Unit
  | 0, _ => throw .unfinished
  | rounds + 1, waited => do
    if waited < timeout then
      if ← isStarted then return
      sleep pollInterval
      if ← isAlive then
        waitStartLoop timeout rounds (waited + pollInterval)
      else if (← get).popenRc ≠ some 0 then
        throw (.taskError ("Task failed: " ++ reasonText (← reason)))
      else
        let _ ← reason

def waitStart (timeout rounds : Nat) : Run Unit := do
  waitStartLoop pollInterval timeout rounds 0
  if !(← isStarted) then
    lose
    throw (.taskError "Task did not start within deadline.")

def start (timeout rounds : Nat) : Run Unit := do
  modify fun runner => { runner with forking := true, monitor := true }
  match (← answer).forkError with
  | some text => throw (.taskError text)
  | none =>
    modify fun runner => { runner with popen := true, forked := true }
    waitStart pollInterval timeout rounds

def await (going : Run Bool) (timeout : Nat) : Nat → Nat → Run Nat
  | 0, _ => throw .unfinished
  | rounds + 1, waited => do
    if ← going then
      if waited < timeout then
        sleep pollInterval
        await going timeout rounds (waited + pollInterval)
      else return waited
    else return waited

def monitorFinished : Run Bool := do
  return (← answer).finished

/-- `stop` once the task has not shut down cleanly. -/
def rebindToKill (timeout rounds waited : Nat) : Run Unit := do
  quitquitquit
  let _ ← await pollInterval (not <$> monitorFinished) timeout rounds waited
  if !(← monitorFinished) then throw (.taskError "Task did not stop within deadline.")

def stop (timeout rounds : Nat) : Run Unit := do
  if !(← get).forking then throw (.taskError "Failed to call TaskRunner.start.")
  kill
  let waited ← await pollInterval isAlive timeout rounds 0
  if ← isAlive then
    rebindToKill pollInterval timeout rounds waited
  else if (← taskState) = some .active then
    rebindToKill pollInterval timeout rounds waited

end Waiting

end ThermosTaskRunner

end Aurora.Executor.Lifecycle
