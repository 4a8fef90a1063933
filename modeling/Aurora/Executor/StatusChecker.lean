import Aurora.Thermos.Types

namespace Aurora.Executor

/-- `mesos_pb2.TaskState`, with the states that `STATES_TO_STR` does not list as one. -/
inductive TaskState
  | starting | running | finished | failed | killed | lost
  | unlisted (value : Int)
  deriving DecidableEq

structure StatusResult where
  reason : Option String
  status : TaskState
  deriving DecidableEq

namespace ChainedStatusChecker

/-- The loop over the checkers. A RUNNING that follows another one never replaces it, since a status result is
    not equal to a bare state. -/
def combine : Option StatusResult → List (Option StatusResult) → Option StatusResult
  | current, [] => current
  | current, none :: rest => combine current rest
  | current, some result :: rest =>
    match result.status with
    | .starting => combine (some result) rest
    | .running => combine (if current.isNone then some result else current) rest
    | _ => some result

def inTerminalState (status : Option StatusResult) : Bool :=
  match status with
  | none => false
  | some result => result.status != .running && result.status != .starting

def status (before : Option StatusResult) (reported : List (Option StatusResult)) : Option StatusResult :=
  if inTerminalState before then before else combine none reported

end ChainedStatusChecker

/-- What the thermos runner process and its checkpoint look like from outside. -/
structure RunnerProcess where
  alive : Bool := true
  popenSignal : Option Int := none
  popenRc : Option Int := none
  taskState : Option Thermos.TaskState := none
  deriving DecidableEq

namespace ThermosTaskRunner

def internalError : Int := 101
def invalidTask : Int := 102
def unknownError : Int := 103
def unknownUser : Int := 104
def terminalTask : Int := 105

def exitState : Option Thermos.TaskState → Option StatusResult
  | some .active => some ⟨"Runner died while task was active.", .lost⟩
  | some .failed => some ⟨"Task failed.", .failed⟩
  | some .killed => some ⟨"Task killed.", .killed⟩
  | some .lost => some ⟨"Task lost.", .lost⟩
  | some .success => some ⟨"Task finished.", .finished⟩
  | _ => none

def valueText : Option Int → String
  | some value => toString value
  | none => "None"

def computeStatus (process : RunnerProcess) : Option StatusResult :=
  if process.alive then
    none
  else if process.popenSignal ≠ some 0 then
    some ⟨"Task killed by signal " ++ valueText process.popenSignal ++ ".", .killed⟩
  else if process.popenRc = some 0 ∨ process.popenRc = some terminalTask then
    some ((exitState process.taskState).getD ⟨"Task checkpoint could not be read.", .lost⟩)
  else if process.popenRc = some unknownUser then
    some ⟨"Task started with unknown user.", .failed⟩
  else if process.popenRc = some internalError then
    some ⟨"Thermos failed with internal error.", .lost⟩
  else if process.popenRc = some invalidTask then
    some ⟨"Thermos received an invalid task.", .failed⟩
  else if process.popenRc = some unknownError then
    some ⟨"Thermos failed with an unknown error.", .lost⟩
  else
    some ⟨"Thermos exited for unknown reason (exit status: " ++ valueText process.popenRc ++ ")", .lost⟩

end ThermosTaskRunner

namespace TaskState

def isTerminal : TaskState → Bool
  | .finished | .failed | .killed | .lost => true
  | _ => false

def isListed : TaskState → Bool
  | .unlisted _ => false
  | _ => true

def stage : TaskState → Nat
  | .starting => 0
  | .running => 1
  | _ => 2

theorem stage_of_isTerminal {state : TaskState} (terminal : state.isTerminal = true) : state.stage = 2 := by
  cases state with
  | starting | running | unlisted _ => cases terminal
  | _ => rfl

end TaskState

section

variable {result : StatusResult}

theorem ThermosTaskRunner.computeStatus_terminal {process : RunnerProcess}
    (computed : computeStatus process = some result) : result.status.isTerminal = true := by
  unfold computeStatus at computed
  have mapped : ∀ taskState, ((exitState taskState).getD
      ⟨"Task checkpoint could not be read.", .lost⟩).status.isTerminal = true := by
    rintro (_ | taskState)
    · rfl
    · cases taskState <;> rfl
  split at computed
  · cases computed
  repeat' split at computed
  all_goals cases Option.some.inj computed
  all_goals first | rfl | exact mapped _

end

end Aurora.Executor
