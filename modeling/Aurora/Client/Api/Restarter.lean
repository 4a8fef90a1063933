import Aurora.Client.Api.SchedulerClient
import Aurora.Library.Dict
import Mathlib.Data.List.Sort

namespace Aurora.Client

open Collections

structure FailureThreshold where
  maxPerInstanceFailures : Int
  maxTotalFailures : Int
  failuresByInstance : Dict Int Nat := .empty

namespace FailureThreshold

def failures (threshold : FailureThreshold) (instance_ : Int) : Nat :=
  (threshold.failuresByInstance.get? instance_).getD 0

def countFailure (threshold : FailureThreshold) (instance_ : Int) : FailureThreshold :=
  { threshold with
    failuresByInstance := threshold.failuresByInstance.set instance_ (threshold.failures instance_ + 1) }

def updateFailureCounts (threshold : FailureThreshold) (failedInstances : List Int) : FailureThreshold × List Int :=
  failedInstances.foldl (fun (threshold, exceeded) instance_ =>
    let threshold := threshold.countFailure instance_
    (threshold, if threshold.maxPerInstanceFailures < threshold.failures instance_ then exceeded ++ [instance_]
      else exceeded)) (threshold, [])

def exceededInstanceFailCount (threshold : FailureThreshold) : Nat :=
  threshold.failuresByInstance.entries.countP fun entry => threshold.maxPerInstanceFailures < entry.2

def isFailedUpdate (threshold : FailureThreshold) : Bool :=
  threshold.maxTotalFailures < threshold.exceededInstanceFailCount

end FailureThreshold

structure RestartSettings where
  batchSize : Int
  maxPerInstanceFailures : Int
  maxTotalFailures : Int

/-- A response of the scheduler; the instances are those of the tasks it lists. -/
structure SchedulerResponse where
  responseCode : ResponseCode := .ok
  details : List String := []
  instances : List Int := []
  deriving DecidableEq

namespace Restarter

/-- What a round of the restart meets: the response to the batch, and the watch of it, which returns a set of failed
    instances of the batch, or None when it is told to end. -/
structure Round where
  response : SchedulerResponse
  watch : List Int → Option (List Int)
  distinct : ∀ batch failed, watch batch = some failed → failed.Nodup
  watched : ∀ batch failed, watch batch = some failed → failed ⊆ batch

inductive RestartEnd
  | returned (response : SchedulerResponse)
  /-- adding None to a list -/
  | typeError
  /-- the response of a loop that is never entered -/
  | unboundLocalError
  deriving DecidableEq

/-- A restart under way, with the batches it has restarted and what their watches found. -/
structure Rolling where
  instances : List Int
  threshold : FailureThreshold
  response : Option SchedulerResponse := none
  batches : List (List Int × List Int) := []

def Rolling.going (rolling : Rolling) : Bool :=
  !rolling.instances.isEmpty && !rolling.threshold.isFailedUpdate

/-- Where the slices `[:size]` and `[size:]` part a list. -/
def sliceAt (size : Int) (length : Nat) : Nat := if 0 ≤ size then size.toNat else length - (-size).toNat

def Rolling.batch (settings : RestartSettings) (rolling : Rolling) : List Int :=
  rolling.instances.take (sliceAt settings.batchSize rolling.instances.length)

def Rolling.rest (settings : RestartSettings) (rolling : Rolling) : List Int :=
  rolling.instances.drop (sliceAt settings.batchSize rolling.instances.length)

/-- The body of the loop. The instances that have failed too often, which the threshold returns, are not looked at. -/
def Rolling.advance (settings : RestartSettings) (rolling : Rolling) (round : Round) : Except RestartEnd Rolling :=
  if round.response.responseCode ≠ .ok then .error (.returned round.response)
  else
    match round.watch (rolling.batch settings) with
    | none => .error .typeError
    | some failed =>
      .ok { instances := rolling.rest settings ++ failed
            threshold := (rolling.threshold.updateFailureCounts failed).1
            response := some round.response
            batches := rolling.batches ++ [(rolling.batch settings, failed)] }

def loop (settings : RestartSettings) (rounds : Nat → Round) : Nat → Nat → Rolling → Option (RestartEnd × Rolling)
  | 0, _, _ => none
  | fuel + 1, round, rolling =>
    if rolling.going then
      match rolling.advance settings (rounds round) with
      | .error ended => some (ended, rolling)
      | .ok rolling => loop settings rounds fuel (round + 1) rolling
    else some ((rolling.response.map RestartEnd.returned).getD .unboundLocalError, rolling)

def start (settings : RestartSettings) (instances : List Int) : Rolling where
  instances
  threshold := { maxPerInstanceFailures := settings.maxPerInstanceFailures
                 maxTotalFailures := settings.maxTotalFailures }

/-- The instances to restart: those given, or the active ones. -/
def requested (status : SchedulerResponse) (instances : List Int) : List Int :=
  if instances = [] then status.instances.insertionSort (· ≤ ·) else instances

def restart (settings : RestartSettings) (status : SchedulerResponse) (instances : List Int) (rounds : Nat → Round)
    (fuel : Nat) : Option (RestartEnd × List (List Int × List Int)) :=
  if status.responseCode ≠ .ok then some (.returned status, [])
  else if requested status instances = [] then some (.returned status, [])
  else (loop settings rounds fuel 0 (start settings (requested status instances))).map fun ended =>
    (ended.1, ended.2.batches)

end Restarter

end Aurora.Client
