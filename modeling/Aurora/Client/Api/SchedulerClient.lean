import Mathlib.Logic.Basic
import Mathlib.Order.Basic

namespace Aurora.Client

inductive ResponseCode
  | invalidRequest | ok | error | warning | authFailed | jobUpdatingError | errorTransient
  deriving DecidableEq

/-- How a hand-over of the request to the thrift client ends. -/
inductive CallOutcome
  | response (code : Option ResponseCode) (details : List String)
  /-- `TRequestsTransport.AuthError` -/
  | authError (text : String)
  /-- `TTransportException` -/
  | transportError (text : String)
  /-- a TypeError, raised before or after the request was sent -/
  | typeError (sent : Bool) (text : String)
  | otherError (text : String)
  deriving DecidableEq

inductive ConnectOutcome
  | connected
  | couldNotConnect
  /-- any other exception of `get_thrift_client` -/
  | failed (text : String)
  | noScheduler (text : String)
  deriving DecidableEq

/-- What the surroundings do and answer at one point; an operation looks at the fields that concern it. -/
structure Tick where
  /-- the proxy has been told to terminate, which also drops the connection -/
  terminate : Bool := false
  /-- the clock says that the maximum wait is over -/
  expired : Bool := false
  connect : ConnectOutcome := .connected
  call : CallOutcome := .response (some .ok) []

/-- A request as it was handed to the thrift client; missing arguments are filled with None. -/
structure HandOver (Arg : Type) where
  args : List (Option Arg)
  filling : Bool
  outcome : CallOutcome
  deriving DecidableEq

structure Proxy (Arg : Type) where
  ticks : List Tick := []
  terminating : Bool := false
  connected : Bool := false
  handOvers : List (HandOver Arg) := []

/-- What is raised inside of the `try` of `method_wrapper`, as its handlers tell it apart. -/
inductive Raised
  | transportAuth (text : String)
  | transport (text : String)
  | timeout (text : String)
  | transient (text : String)
  | other (text : String)
  /-- not an exception: a loop that is still going when the rounds given to the model are used up -/
  | unfinished
  deriving DecidableEq

inductive ProxyError
  | authError (text : String)
  | notRetriableError (text : String)
  | thriftInternalError (text : String)
  | timeoutError (text : String)
  | unfinished
  deriving DecidableEq

/-- None as a whole when the proxy is told to terminate. -/
abbrev Answered := Option (Option ResponseCode)

namespace SchedulerProxy

variable {Arg : Type}

def tick : StateM (Proxy Arg) Tick := fun proxy =>
  match proxy.ticks with
  | [] => ({}, proxy)
  | first :: rest =>
    (first, { proxy with
      ticks := rest
      terminating := proxy.terminating || first.terminate
      connected := proxy.connected && !first.terminate })

def isTerminating : StateM (Proxy Arg) Bool := do
  let _ ← tick
  return (← get).terminating

def invalidate : StateM (Proxy Arg) Unit := modify fun proxy => { proxy with connected := false }

section Construct

variable (cluster : String)

def connectLoop : Nat → StateM (Proxy Arg) (Except Raised Unit)
  | 0 => return .error .unfinished
  | rounds + 1 => do
    let now ← tick
    if now.expired then
      return .error (.timeout ("Timed out trying to connect to scheduler at " ++ cluster))
    match now.connect with
    | .connected =>
      modify fun proxy => { proxy with connected := true }
      return .ok ()
    | .couldNotConnect => connectLoop rounds
    | .failed text | .noScheduler text => return .error (.other ("Error connecting to scheduler: " ++ text))

def constructScheduler (rounds : Nat) : StateM (Proxy Arg) (Except Raised Unit) := do
  match (← tick).connect with
  | .noScheduler text => return .error (.other text)
  | _ => connectLoop cluster rounds

def client (rounds : Nat) : StateM (Proxy Arg) (Except Raised Unit) := do
  if (← get).connected then
    return .ok ()
  constructScheduler cluster rounds

end Construct

def handOver (args : List (Option Arg)) (filling : Bool) : StateM (Proxy Arg) CallOutcome := do
  let outcome := (← tick).call
  modify fun proxy => { proxy with handOvers := proxy.handOvers ++ [⟨args, filling, outcome⟩] }
  return outcome

/-- What becomes of an outcome that is not a TypeError to be worked around. -/
def settle : CallOutcome → Except Raised (Option ResponseCode)
  | .response (some .errorTransient) details => .error (.transient (", ".intercalate details))
  | .response code _ => .ok code
  | .authError text => .error (.transportAuth text)
  | .transportError text => .error (.transport text)
  | .typeError _ text | .otherError text => .error (.other text)

/-- The inner loop that fills missing arguments, as many as are still missing. -/
def fillArguments : Nat → List (Option Arg) → StateM (Proxy Arg) (Except Raised (Option ResponseCode))
  | 0, args => do
    return settle (← handOver args true)
  | missing + 1, args => do
    match ← handOver args true with
    | .typeError _ _ => fillArguments missing (args ++ [none])
    | outcome => return settle outcome

/-- The body of the `try` for a method with the given number of parameters. -/
def attempt (cluster : String) (rounds params : Nat) (args : List (Option Arg)) :
    StateM (Proxy Arg) (Except Raised (Option ResponseCode)) := do
  match ← client cluster rounds with
  | .error e => return .error e
  | .ok _ =>
    match ← handOver args false with
    | .typeError _ _ => fillArguments (params - args.length) args
    | outcome => return settle outcome

def methodWrapper (cluster methodName : String) (params : Nat) (retry : Bool) (args : List (Option Arg)) :
    Nat → StateM (Proxy Arg) (Except ProxyError Answered)
  | 0 => return .error .unfinished
  | rounds + 1 => do
    let terminating ← isTerminating
    if terminating || (← tick).expired then
      if ← isTerminating then
        return .ok none
      return .error (.timeoutError ("Timed out attempting to issue " ++ methodName ++ " to " ++ cluster))
    match ← attempt cluster rounds params args with
    | .ok response => return .ok (some response)
    | .error (.transportAuth text) => return .error (.authError text)
    | .error .unfinished => return .error .unfinished
    | .error (.transport text) =>
      unless ← isTerminating do
        unless retry do
          return .error (.notRetriableError ("Transport error communicating with scheduler during " ++
            "non-idempotent operation: " ++ text ++ ", not retrying"))
        invalidate
      methodWrapper cluster methodName params retry args rounds
    | .error (.timeout _) | .error (.transient _) =>
      -- the call has not gone through, so it is made again
      unless ← isTerminating do
        invalidate
      methodWrapper cluster methodName params retry args rounds
    | .error (.other text) =>
      unless ← isTerminating do
        return .error (.thriftInternalError ("Error during thrift call " ++ methodName ++ " to " ++ cluster ++
          ": " ++ text))
      methodWrapper cluster methodName params retry args rounds

end SchedulerProxy

end Aurora.Client
