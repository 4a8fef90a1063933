import Aurora.Client.Api.SchedulerClient
import Aurora.Client.Api.Sla

namespace Aurora.Client

structure TaskWithoutConfig where
  instanceId : Int
  taskId : String
  status : ScheduleStatus
  taskEvents : List TaskEvent
  deriving DecidableEq

inductive TaskQueryOutcome
  | answered (responseCode : ResponseCode) (tasks : List TaskWithoutConfig)
  | ioError
  /-- any other exception, which the caller meets -/
  | raised (text : String)
  deriving DecidableEq

namespace StatusHelper

def getTasks : TaskQueryOutcome → Except String (List TaskWithoutConfig)
  | .answered responseCode tasks => .ok (if responseCode = .ok then tasks else [])
  | .ioError => .ok []
  | .raised text => .error text

end StatusHelper

def TaskQueryOutcome.tasks : TaskQueryOutcome → List TaskWithoutConfig
  | .answered .ok tasks => tasks
  | _ => []

theorem StatusHelper.getTasks_ok {outcome : TaskQueryOutcome} {tasks : List TaskWithoutConfig}
    (got : StatusHelper.getTasks outcome = .ok tasks) : tasks = outcome.tasks := by
  cases outcome with
  | answered responseCode answered =>
    have same := (Except.ok.inj got).symm
    cases responseCode <;> exact same
  | ioError => exact (Except.ok.inj got).symm
  | raised text => cases got

end Aurora.Client
