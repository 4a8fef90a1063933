import Aurora.Common.AuroraJobKey
import Aurora.Library.Index
import Mathlib.Algebra.Order.Floor.Defs
import Mathlib.Data.Rat.Floor
import Mathlib.Data.List.Sort

namespace Aurora.Client

open Collections

inductive ScheduleStatus
  | init | throttled | pending | assigned | starting | running | finished | preempting | restarting | draining
  | failed | killed | killing | partitioned | lost
  deriving DecidableEq

structure TaskEvent where
  timestamp : Int
  status : ScheduleStatus
  deriving DecidableEq

abbrev JobKey := Common.JobKey String

abbrev AuroraJobKey := Common.AuroraJobKey String String

/-- A task of the cluster, as far as SLA calculations look at it. -/
structure ScheduledTask (Host : Type) where
  job : JobKey
  production : Bool
  slaveHost : Host
  instanceId : Int
  taskEvents : List TaskEvent

def jobKeyFromScheduled {Host : Type} (task : ScheduledTask Host) (cluster : String) : AuroraJobKey where
  cluster
  role := task.job.role
  env := task.job.environment
  name := task.job.name

/-- Seconds since the first RUNNING event; arithmetic is exact. -/
def ScheduledTask.uptime {Host : Type} (task : ScheduledTask Host) (now : ℚ) : Option Int :=
  (task.taskEvents.find? fun event => event.status = .running).map fun event => ⌊now - event.timestamp / 1000⌋

structure JobUpTimeLimit where
  job : AuroraJobKey
  percentage : ℚ
  durationSecs : ℚ
  deriving DecidableEq

section JobVector

variable {Host : Type}

/-- `JobUpTimeSlaVector`: the uptimes by instance; of two tasks of one instance the later one counts. -/
def instanceUptime (tasks : List (ScheduledTask Host)) (now : ℚ) : Dict Int Int :=
  tasks.foldl (fun uptimes task => (task.uptime now).elim uptimes fun uptime => uptimes.set task.instanceId uptime)
    .empty

def getTaskUpCount (tasks : List (ScheduledTask Host)) (now duration : ℚ) (totalTasks : Option Nat) : ℚ :=
  let uptimes := instanceUptime tasks now
  let total := (totalTasks.filter (· ≠ 0)).getD uptimes.entries.length
  let above := (uptimes.entries.filter fun entry => duration ≤ entry.2).length
  if total ≠ 0 then 100 * above / total else 0

def getWaitTimeToSla (tasks : List (ScheduledTask Host)) (now percentile duration : ℚ) (totalTasks : Option Nat) :
    Option ℚ :=
  if percentile ≤ getTaskUpCount tasks now duration totalTasks then some 0
  else
    let uptimes := (instanceUptime tasks now).entries.map Prod.snd
    let total := (totalTasks.filter (· ≠ 0)).getD uptimes.length
    let targetCount := ⌈total * percentile / 100⌉
    let index := uptimes.length - targetCount
    if index < 0 then none
    else ((uptimes.insertionSort fun first second => first ≤ second)[index.toNat]?).map fun uptime => duration - uptime

end JobVector

structure JobUpTimeDetails where
  job : AuroraJobKey
  predictedPercentage : ℚ
  safe : Bool
  safeInSecs : Option ℚ
  deriving DecidableEq

structure DomainUpTimeSlaVector (Host : Type) where
  now : ℚ
  tasksByJob : Dict AuroraJobKey (List (ScheduledTask Host))
  jobsByHost : Dict Host (List AuroraJobKey)
  hostsByJob : Dict AuroraJobKey (List Host)
  /-- no filter and an empty one are alike -/
  hostFilter : List Host

def groupHosts {Host κ : Type} [DecidableEq Host] [DecidableEq κ] (hostnames : List Host) (groupingFunction : Host → κ) :
    Dict κ (List Host) :=
  Dict.collect groupingFunction id hostnames

namespace DomainUpTimeSlaVector

variable {Host κ : Type} [DecidableEq Host] [LinearOrder κ]

def initMappings (cluster : String) (now : ℚ) (tasks : List (ScheduledTask Host)) (count : Int) (hosts : List Host) :
    DomainUpTimeSlaVector Host :=
  let tasksByJob := (Dict.groupBy (fun task => jobKeyFromScheduled task cluster)
    (tasks.filter ScheduledTask.production)).filter fun entry => count ≤ entry.2.length
  let placed := tasksByJob.entries.flatMap fun entry => entry.2.map fun task => (entry.1, task.slaveHost)
  { now
    tasksByJob
    jobsByHost := Dict.collect Prod.snd Prod.fst placed
    hostsByJob := Dict.collect Prod.fst Prod.snd placed
    hostFilter := hosts }

def iterGroups (vector : DomainUpTimeSlaVector Host) (hostsToGroup : List Host) (groupingFunction : Host → κ)
    (hostFilter : List Host) : List (List Host × List AuroraJobKey) :=
  let groups := groupHosts hostsToGroup groupingFunction
  (groups.entries.insertionSort fun first second => first.1 ≤ second.1).map fun group =>
    let admitted := group.2.filter fun host => hostFilter = [] || vector.hostFilter.contains host
    (group.2, admitted.foldl (fun jobKeys host => jobKeys ∪ (vector.jobsByHost.get? host).getD []) [])

/-- The percentage without the tasks on the hosts, the number of all tasks, and the tasks that remain. -/
def simulateHostsDown (vector : DomainUpTimeSlaVector Host) (jobKey : AuroraJobKey) (hosts : List Host)
    (duration : ℚ) : ℚ × Nat × List (ScheduledTask Host) :=
  let unfilteredTasks := (vector.tasksByJob.get? jobKey).getD []
  let filteredTasks := unfilteredTasks.filter fun task => task.slaveHost ∉ hosts
  (getTaskUpCount filteredTasks vector.now duration (some unfilteredTasks.length), unfilteredTasks.length, filteredTasks)

def limitOf (percentage duration : ℚ) (jobLimits : Dict AuroraJobKey JobUpTimeLimit) (jobKey : AuroraJobKey) : ℚ × ℚ :=
  match jobLimits.get? jobKey with
  | some limit => (limit.percentage, limit.durationSecs)
  | none => (percentage, duration)

/-- The body of the inner loop: none when it breaks off. -/
def checkJob (vector : DomainUpTimeSlaVector Host) (percentage duration : ℚ)
    (jobLimits : Dict AuroraJobKey JobUpTimeLimit) (hosts : List Host) (safeHosts : Dict Host (List JobUpTimeLimit))
    (jobKey : AuroraJobKey) : Option (Dict Host (List JobUpTimeLimit)) :=
  let jobHosts := hosts.filter fun host => host ∈ (vector.hostsByJob.get? jobKey).getD []
  let limit := limitOf percentage duration jobLimits jobKey
  let filteredPercentage := (vector.simulateHostsDown jobKey jobHosts limit.2).1
  if filteredPercentage < limit.1 then none
  else some (jobHosts.foldl (fun safeHosts host => safeHosts.set host
    ((safeHosts.get? host).getD [] ++ [⟨jobKey, filteredPercentage, limit.2⟩])) safeHosts)

def safeGroup (vector : DomainUpTimeSlaVector Host) (percentage duration : ℚ)
    (jobLimits : Dict AuroraJobKey JobUpTimeLimit) (hosts : List Host) (jobKeys : List AuroraJobKey) :
    Option (Dict Host (List JobUpTimeLimit)) :=
  jobKeys.foldlM (vector.checkJob percentage duration jobLimits hosts) .empty

def getSafeHosts (vector : DomainUpTimeSlaVector Host) (percentage duration : ℚ)
    (jobLimits : Dict AuroraJobKey JobUpTimeLimit) (groupingFunction : Host → κ) :
    List (Dict Host (List JobUpTimeLimit)) :=
  (vector.iterGroups vector.jobsByHost.keys groupingFunction vector.hostFilter).filterMap fun group =>
    vector.safeGroup percentage duration jobLimits group.1 group.2

def probeJob (vector : DomainUpTimeSlaVector Host) (percentage duration : ℚ) (hosts : List Host)
    (probedHosts : Dict Host (List JobUpTimeDetails)) (jobKey : AuroraJobKey) : Dict Host (List JobUpTimeDetails) :=
  let jobHosts := hosts.filter fun host => host ∈ (vector.hostsByJob.get? jobKey).getD []
  let (filteredPercentage, totalCount, filteredTasks) := vector.simulateHostsDown jobKey jobHosts duration
  let safe := ¬ filteredPercentage < percentage
  let waitToSla := if safe then some 0 else getWaitTimeToSla filteredTasks vector.now percentage duration (some totalCount)
  jobHosts.foldl (fun probedHosts host => probedHosts.set host
    ((probedHosts.get? host).getD [] ++ [⟨jobKey, filteredPercentage, safe, waitToSla⟩])) probedHosts

def probeHosts (vector : DomainUpTimeSlaVector Host) (percentage duration : ℚ) (groupingFunction : Host → κ) :
    List (Dict Host (List JobUpTimeDetails)) :=
  (vector.iterGroups vector.hostFilter groupingFunction []).filterMap fun group =>
    let probedHosts := group.2.foldl (vector.probeJob percentage duration group.1) .empty
    if probedHosts.entries = [] then none else some probedHosts

end DomainUpTimeSlaVector

end Aurora.Client
