import Aurora.Library.Dict
import Mathlib.Algebra.Order.Field.Rat

namespace Aurora.Thermos

open Collections

abbrev Name := String

/-- Clock readings and durations in seconds, over exact arithmetic. -/
abbrev Time := ℚ

/-- A thrift enum travels as an integer, so a record may hold a value outside the enum. -/
inductive ProcessState
  | waiting | forked | running | success | killed | failed | lost
  | unknown (value : Int)
  deriving DecidableEq, Repr

inductive TaskState
  | active | success | failed | killed | lost | cleaning | finalizing
  | unknown (value : Int)
  deriving DecidableEq, Repr

def ProcessState.valueName : Option ProcessState → String
  | some .waiting => "WAITING"
  | some .forked => "FORKED"
  | some .running => "RUNNING"
  | some .success => "SUCCESS"
  | some .killed => "KILLED"
  | some .failed => "FAILED"
  | some .lost => "LOST"
  | some (.unknown _) | none => "None"

def ProcessState.valueText : Option ProcessState → String
  | some .waiting => "0"
  | some .forked => "1"
  | some .running => "2"
  | some .success => "3"
  | some .killed => "4"
  | some .failed => "5"
  | some .lost => "6"
  | some (.unknown value) => toString value
  | none => "None"

/-- A process update as it is read from or written to a checkpoint; thrift leaves a missing
    field unset. -/
structure ProcessStatus where
  seq : Option Int := none
  process : Option Name := none
  state : Option ProcessState := none
  coordinatorPid : Option Int := none
  forkTime : Option Time := none
  startTime : Option Time := none
  pid : Option Int := none
  stopTime : Option Time := none
  returnCode : Option Int := none
  deriving DecidableEq

/-- One run of a process inside a `RunnerState`. Only the dispatcher builds these, always from
    `ProcessStatus(seq=...)`, so here the sequence number is never unset. -/
structure ProcessRun where
  seq : Int
  process : Option Name := none
  state : Option ProcessState := none
  coordinatorPid : Option Int := none
  forkTime : Option Time := none
  startTime : Option Time := none
  pid : Option Int := none
  stopTime : Option Time := none
  returnCode : Option Int := none
  deriving DecidableEq

structure TaskStatus where
  state : Option TaskState := none
  timestampMs : Option Int := none
  runnerPid : Option Int := none
  runnerUid : Option Int := none
  deriving DecidableEq

structure RunnerHeader where
  taskId : Option String := none
  launchTimeMs : Option Int := none
  sandbox : Option String := none
  logDir : Option String := none
  hostname : Option String := none
  user : Option String := none
  uid : Option Int := none
  ports : Option (List (String × Int)) := none
  deriving DecidableEq

/-- A thrift union: nothing keeps a writer from setting several fields or none. -/
structure RunnerCkpt where
  runnerHeader : Option RunnerHeader := none
  processStatus : Option ProcessStatus := none
  taskStatus : Option TaskStatus := none
  deriving DecidableEq

/-- Runs are filed under the process field of their updates, which may be unset. -/
structure RunnerState where
  header : Option RunnerHeader := none
  statuses : Option (List TaskStatus) := none
  processes : Dict (Option Name) (List ProcessRun) := .empty

/-- The exceptions that the checkpoint code and the runner raise, with their arguments. -/
inductive Error
  | errorRecoveringState (message : String)
  | invalidSequenceNumber (message : String) (current : ProcessRun) (update : ProcessStatus)
  /-- `AssertionError("Missing field %s from %s!")` of `assert_nonempty` -/
  | missingField (field : String) (status : ProcessStatus)
  | assertion
  | keyError (key : String)
  | indexError
  | attributeError (name : String)
  | typeError
  | invalidSchedule (message : String)
  | internalError (message : String)
  | processExists (message : String)
  | processNotFound (message : String) (name : Name)
  | invalidFileHandle
  | recordSizeExceeded (message : String)
  /-- raised by the thrift library on a frame that it cannot decode -/
  | decodeError (message : String)
  | stateError (message : String)
  /-- `Process.Error` and its subclasses, raised by `Process.start` -/
  | processError (message : String)
  /-- not an exception: a loop that is still going when the rounds given to the model are used up -/
  | unfinished
  /-- not an exception of the program: it is cut off by a signal or a crash -/
  | interrupted
  deriving DecidableEq

def Error.IsAssertion : Error → Prop
  | .missingField _ _ | .assertion => True
  | _ => False

def Error.IsRecoveringState : Error → Prop
  | .errorRecoveringState _ => True
  | _ => False

def Error.IsInvalidSequenceNumber : Error → Prop
  | .invalidSequenceNumber _ _ _ => True
  | _ => False

end Aurora.Thermos
