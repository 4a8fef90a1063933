import Aurora.Executor.ThermosTaskRunner
import Aurora.Library.Dict

namespace Aurora.Executor.Lifecycle

open Collections

def second : Nat := 1000000000

structure HttpLifecycleConfig where
  port : String
  gracefulShutdownEndpoint : String
  shutdownEndpoint : String
  gracefulShutdownWaitSecs : Option Nat := none
  shutdownWaitSecs : Option Nat := none

structure HttpLifecycleManager where
  lifecyclePort : Int
  escalationEndpoints : List (String × Nat)
  started : Bool := false
  deriving DecidableEq

namespace HttpLifecycleManager

def defaultEscalationWait : Nat := 5 * second

def waitPollInterval : Nat := 1 * second

/-- The manager for a task with a lifecycle whose port is bound; a task without one keeps its runner as it is. -/
def wrap (http : Option HttpLifecycleConfig) (portmap : Dict String Int) : Option HttpLifecycleManager := do
  let http ← http
  let waitOf (secs : Option Nat) : Nat :=
    match secs with
    | some secs => secs * second
    | none => defaultEscalationWait
  let lifecyclePort ← portmap.get? http.port
  return {
    lifecyclePort := lifecyclePort
    escalationEndpoints := [(http.gracefulShutdownEndpoint, waitOf http.gracefulShutdownWaitSecs),
      (http.shutdownEndpoint, waitOf http.shutdownWaitSecs)] }

def awaitStatus (waitTime : Nat) : Nat → Nat → Run Bool
  | 0, _ => throw .unfinished
  | rounds + 1, waited => do
    if (← ThermosTaskRunner.getStatus).isSome then return true
    if waited ≥ waitTime then return false
    ThermosTaskRunner.sleep waitPollInterval
    awaitStatus waitTime rounds (waited + waitPollInterval)

def terminateHttp (rounds : Nat) : List (String × Nat) → Run Bool
  | [] => return false
  | (endpoint, waitTime) :: rest => do
    modify fun runner => { runner with posts := runner.posts ++ [endpoint] }
    if (← ThermosTaskRunner.answer).handled then
      if ← awaitStatus waitTime rounds 0 then return true
    terminateHttp rounds rest

def start (pollInterval timeout rounds : Nat) (manager : HttpLifecycleManager) :
    HttpLifecycleManager × Run Unit :=
  ({ manager with started := true }, ThermosTaskRunner.start pollInterval timeout rounds)

def stop (pollInterval timeout rounds : Nat) (manager : HttpLifecycleManager) : Run Unit := do
  if !manager.started then throw (.taskError "Failed to call TaskRunner.start.")
  let _ ← terminateHttp rounds manager.escalationEndpoints
  ThermosTaskRunner.stop pollInterval timeout rounds

end HttpLifecycleManager

/-- What a provider hands to the executor: a runner, with a lifecycle manager around it or without one. -/
structure Provided where
  manager : Option HttpLifecycleManager := none
  runner : ThermosTaskRunner := {}

inductive Call
  | start (timeout : Nat)
  | stop (timeout : Nat)
  | kill
  | lose
  | status

def perform (pollInterval rounds : Nat) (provided : Provided) : Call → Provided
  | .start timeout =>
    match provided.manager with
    | some manager =>
      let (manager, run) := manager.start pollInterval timeout rounds
      ⟨some manager, Replay.final (run.run provided.runner)⟩
    | none =>
      { provided with runner := Replay.final ((ThermosTaskRunner.start pollInterval timeout rounds).run provided.runner) }
  | .stop timeout =>
    match provided.manager with
    | some manager =>
      { provided with runner := Replay.final ((manager.stop pollInterval timeout rounds).run provided.runner) }
    | none =>
      { provided with runner := Replay.final ((ThermosTaskRunner.stop pollInterval timeout rounds).run provided.runner) }
  | .kill => { provided with runner := Replay.final (ThermosTaskRunner.kill.run provided.runner) }
  | .lose => { provided with runner := Replay.final (ThermosTaskRunner.lose.run provided.runner) }
  | .status => { provided with runner := Replay.final (ThermosTaskRunner.getStatus.run provided.runner) }

end Aurora.Executor.Lifecycle
