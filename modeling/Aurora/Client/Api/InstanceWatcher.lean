import Aurora.Client.Api.TaskUtil
import Aurora.Library.Index

namespace Aurora.Client

open Collections

namespace StatusHealthCheck

def health (taskIds : Dict Int String) (task : TaskWithoutConfig) : Bool × Dict Int String :=
  if task.status = .running then
    match taskIds.get? task.instanceId with
    | some known => (task.taskId = known, taskIds)
    | none => (true, taskIds.set task.instanceId task.taskId)
  else (false, taskIds)

end StatusHealthCheck

namespace InstanceWatcher

structure Instance where
  birthday : Option ℚ := none
  finished : Bool := false
  healthy : Bool := false
  deriving DecidableEq

def Instance.setHealthy (instance_ : Instance) (value : Bool) : Instance :=
  { instance_ with healthy := value, finished := true }

/-- What a watch knows: the states of the instances, and the task ids of its health check. -/
structure Watch where
  instanceStates : Dict Int Instance := .empty
  taskIds : Dict Int String := .empty

/-- A round of the watch: whether it is told to end, what its query answers, and the clock. -/
structure Poll where
  terminating : Bool := false
  outcome : TaskQueryOutcome
  now : ℚ

variable (watchSecs : ℚ)

/-- The birthday is there: an instance without one is finished and not looked at again. -/
def setInstanceHealthy (now : ℚ) (instanceStates : Dict Int Instance) (instanceId : Int) : Dict Int Instance :=
  let instanceStates :=
    if (instanceStates.get? instanceId).isNone then instanceStates.set instanceId { birthday := some now }
    else instanceStates
  match instanceStates.get? instanceId with
  | some instance_ =>
    if instance_.birthday.any fun birthday => birthday + watchSecs < now then
      instanceStates.set instanceId (instance_.setHealthy true)
    else instanceStates
  | none => instanceStates

def setInstanceUnhealthy (instanceStates : Dict Int Instance) (instanceId : Int) : Dict Int Instance :=
  match instanceStates.get? instanceId with
  | some instance_ => instanceStates.set instanceId (instance_.setHealthy false)
  | none => instanceStates.set instanceId { finished := true }

def tasksByInstance (tasks : List TaskWithoutConfig) : Dict Int TaskWithoutConfig :=
  tasks.foldl (fun byInstance task => byInstance.set task.instanceId task) .empty

def finishedInstances (instanceStates : Dict Int Instance) : List Int :=
  (instanceStates.entries.filter fun entry => entry.2.finished).map Prod.fst

def visit (tasks : Dict Int TaskWithoutConfig) (now : ℚ) (watch : Watch) (instanceId : Int) : Watch :=
  if instanceId ∈ finishedInstances watch.instanceStates then watch
  else
    match tasks.get? instanceId with
    | none => watch
    | some runningTask =>
      match StatusHealthCheck.health watch.taskIds runningTask with
      | (true, taskIds) => ⟨setInstanceHealthy watchSecs now watch.instanceStates instanceId, taskIds⟩
      | (false, taskIds) => ⟨setInstanceUnhealthy watch.instanceStates instanceId, taskIds⟩

def round (instanceIds : List Int) (tasks : List TaskWithoutConfig) (now : ℚ) (watch : Watch) : Watch :=
  instanceIds.foldl (visit watchSecs (tasksByInstance tasks) now) watch

inductive WatchEnd
  | returned (failed : Finset Int)
  | terminated
  | raised (text : String)
  deriving DecidableEq

def unhealthyInstances (instanceStates : Dict Int Instance) : Finset Int :=
  ((instanceStates.entries.filter fun entry => !entry.2.healthy).map Prod.fst).toFinset

def watchLoop (instanceIds : List Int) (polls : Nat → Poll) : Nat → Nat → Watch → Option (WatchEnd × Nat)
  | 0, _, _ => none
  | rounds + 1, poll, watch =>
    if (polls poll).terminating then some (.terminated, poll)
    else
      match StatusHelper.getTasks (polls poll).outcome with
      | .error text => some (.raised text, poll)
      | .ok tasks =>
        let watch := round watchSecs instanceIds tasks (polls poll).now watch
        if (finishedInstances watch.instanceStates).toFinset = instanceIds.toFinset then
          some (.returned (unhealthyInstances watch.instanceStates), poll)
        else watchLoop instanceIds polls rounds (poll + 1) watch

/-- `watch` with the default health check; the order in which a set is run through is that of the list. -/
def watch (rounds : Nat) (instanceIds : List Int) (polls : Nat → Poll) : Option (WatchEnd × Nat) :=
  watchLoop watchSecs instanceIds.dedup polls rounds 0 {}

end InstanceWatcher

end Aurora.Client
