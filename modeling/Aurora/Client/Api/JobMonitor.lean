import Aurora.Client.Api.TaskUtil

namespace Aurora.Client

open Collections

structure TaskQuery where
  jobKeys : List JobKey
  instanceIds : Option (Finset Int)

/-- A monitor of a job; the poll intervals are in seconds. -/
structure JobMonitor where
  jobKey : AuroraJobKey
  minPollInterval : ℚ := 2
  maxPollInterval : ℚ := 150

namespace JobMonitor

def firstTimestamp (task : TaskWithoutConfig) : Option Int := task.taskEvents.head?.map TaskEvent.timestamp

def note (latest : Dict Int (Int × ScheduleStatus)) (task : TaskWithoutConfig) :
    Except String (Dict Int (Int × ScheduleStatus)) :=
  match firstTimestamp task with
  | none => .error "list index out of range"
  | some timestamp =>
    if (latest.get? task.instanceId).all fun known => known.1 < timestamp then
      .ok (latest.set task.instanceId (timestamp, task.status))
    else .ok latest

def states (outcome : TaskQueryOutcome) : Except String (Dict Int ScheduleStatus) := do
  let tasks ← StatusHelper.getTasks outcome
  let latest ← tasks.foldlM note .empty
  return latest.map Prod.snd

def allSatisfy (predicate : ScheduleStatus → Bool) (states : Dict Int ScheduleStatus) : Bool :=
  states.entries.all fun entry => predicate entry.2

def createQuery (monitor : JobMonitor) (instances : List Int) : TaskQuery where
  jobKeys := [⟨monitor.jobKey.role, monitor.jobKey.env, monitor.jobKey.name⟩]
  instanceIds := if instances = [] then none else some instances.toFinset

/-- A round of the wait: whether the terminate event is set, and how a query is answered. -/
structure Round where
  terminating : Bool := false
  answer : TaskQuery → TaskQueryOutcome

inductive WaitEnd
  | returned (value : Bool)
  | raised (text : String)
  deriving DecidableEq

variable (monitor : JobMonitor) (predicate : ScheduleStatus → Bool) (instances : List Int) (withTimeout : Bool)
  (rounds : Nat → Round)

def waitLoop : Nat → Nat → ℚ → Option (WaitEnd × Nat)
  | 0, _, _ => none
  | fuel + 1, round, pollInterval =>
    if (rounds round).terminating then some (.returned true, round)
    else
      match states ((rounds round).answer (monitor.createQuery instances)) with
      | .error text => some (.raised text, round)
      | .ok found =>
        if allSatisfy predicate found then some (.returned true, round)
        else if withTimeout ∧ monitor.maxPollInterval ≤ pollInterval then some (.returned false, round)
        else waitLoop fuel (round + 1) (min monitor.maxPollInterval (2 * pollInterval))

def waitUntil (fuel : Nat) : Option (WaitEnd × Nat) :=
  waitLoop monitor predicate instances withTimeout rounds fuel 0 monitor.minPollInterval

end JobMonitor

end Aurora.Client
