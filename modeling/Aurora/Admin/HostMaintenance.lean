import Aurora.Client.Api.Sla

namespace Aurora.Admin

open Collections Client

inductive MaintenanceMode
  | none | scheduled | draining | drained
  /-- a value outside of the enum -/
  | unknown (value : Int)
  deriving DecidableEq

inductive MaintenanceError
  /-- `sys.exit(1)` of `check_and_log_response` -/
  | exit
  | keyError
  | callback
  deriving DecidableEq

variable {Host κ : Type} [DecidableEq Host] [LinearOrder κ]

/-- What the surroundings answer at one point; an operation looks at the fields that concern it. -/
structure Reply (Host : Type) where
  /-- the response code is OK; the callback returns -/
  ok : Bool := true
  statuses : List (Host × MaintenanceMode) := []
  tasks : List (ScheduledTask Host) := []
  now : ℚ := 0
  /-- whether the wait event is set -/
  isSet : Bool := false

/-- What is observed of a maintenance run. -/
inductive Event (Host : Type)
  | started (hosts : List Host)
  /-- a maintenance status response for the hosts that were asked about -/
  | status (asked : List Host) (statuses : List (Host × MaintenanceMode))
  /-- an SLA check of a batch and the hosts that it marks unsafe -/
  | checked (hosts unsafeHosts : List Host)
  | called (host : Host)
  deriving DecidableEq

structure Maintenance (Host : Type) where
  replies : List (Reply Host) := []
  log : List (Event Host) := []

abbrev Operation (Host : Type) := EStateM MaintenanceError (Maintenance Host)

def reply : Operation Host (Reply Host) := fun m =>
  match m.replies with
  | [] => .ok {} m
  | first :: rest => .ok first { m with replies := rest }

def observe (event : Event Host) : Operation Host Unit := modify fun m => { m with log := m.log ++ [event] }

def checkAndLogResponse (response : Reply Host) : Operation Host Unit := do
  unless response.ok do
    throw .exit

def getTasks : Operation Host (List (ScheduledTask Host)) := do
  let response ← reply
  return if response.ok then response.tasks else []

def getTasksWhen (wanted : Bool) : Operation Host (List (ScheduledTask Host)) :=
  if wanted then getTasks else pure []

/-- `Sla.get_domain_uptime_vector`; the queries scope what the scheduler answers. -/
def getDomainUptimeVector (cluster : String) (minInstanceCount : Int) (hosts : List Host) :
    Operation Host (DomainUpTimeSlaVector Host) := do
  let tasks ← getTasksWhen (hosts ≠ [])
  let jobTasks ← getTasksWhen (hosts = [] || tasks ≠ [])
  let now := (← reply).now
  return .initMappings cluster now jobTasks minInstanceCount hosts

def formatSlaResults (hostGroups : List (Dict Host (List JobUpTimeDetails))) (unsafeOnly : Bool) :
    List (Host × List JobUpTimeDetails) :=
  (hostGroups.flatMap fun group => group.entries.map fun entry =>
    (entry.1, entry.2.filter fun details => !unsafeOnly || !details.safe)).filter fun entry => entry.2 ≠ []

def iterBatches (hostnames : List Host) (groupingFunction : Host → κ) : List (List Host) :=
  ((groupHosts hostnames groupingFunction).entries.insertionSort fun first second => first.1 ≤ second.1).map Prod.snd

namespace HostMaintenance

def slaMinJobInstanceCount : Int := 20

def statusPollInterval : Nat := 5

def maxStatusWait : Nat := 300

def checkStatus (hostnames : List Host) : Operation Host (List (Host × MaintenanceMode)) := do
  let response ← reply
  checkAndLogResponse response
  observe (.status hostnames response.statuses)
  if response.statuses.any fun status => match status.2 with | .unknown _ => true | _ => false then
    throw .keyError
  return response.statuses

/-- The polls of `_drain_hosts`. The wait grows with each of them, so it cuts the loop off before the rounds
    are used up. -/
def waitForDrained : Nat → Nat → List Host → Operation Host (List Host)
  | 0, _, notDrainedHostnames => return notDrainedHostnames
  | rounds + 1, totalWait, notDrainedHostnames => do
    if (← reply).isSet || notDrainedHostnames = [] then
      return notDrainedHostnames
    let statuses ← checkStatus notDrainedHostnames
    let notDrainedHostnames := ((statuses.filter fun status => status.2 ≠ .drained).map Prod.fst).dedup
    let totalWait := totalWait + statusPollInterval
    if notDrainedHostnames ≠ [] ∧ maxStatusWait < totalWait then
      return notDrainedHostnames
    waitForDrained rounds totalWait notDrainedHostnames

def drainHosts (drainableHosts : List Host) : Operation Host (List Host) := do
  checkAndLogResponse (← reply)
  waitForDrained (maxStatusWait / statusPollInterval + 1) statusPollInterval drainableHosts

section Run

variable (cluster : String) (groupingFunction : Host → κ) (percentage duration : ℚ)

def checkSla (hostnames : List Host) : Operation Host (List Host) := do
  let vector ← getDomainUptimeVector cluster slaMinJobInstanceCount hostnames
  let hostGroups := vector.probeHosts percentage duration groupingFunction
  -- maintenance is performed one group at a time, more of them are a batch failure
  let unsafeHostnames :=
    if 1 < hostGroups.length then hostnames else ((formatSlaResults hostGroups true).map Prod.fst).dedup
  observe (.checked hostnames unsafeHostnames)
  return unsafeHostnames

def startMaintenance (hostnames : List Host) : Operation Host (List Host) := do
  observe (.started hostnames)
  let response ← reply
  checkAndLogResponse response
  return response.statuses.map Prod.fst

def operateOnHosts : List Host → Operation Host Unit
  | [] => return
  | hostname :: rest => do
    observe (.called hostname)
    unless (← reply).ok do
      throw .callback
    operateOnHosts rest

def operateOnBatches (callback : Bool) : List (List Host) → List Host → Operation Host (List Host)
  | [], notDrainedHostnames => return notDrainedHostnames
  | hosts :: batches, notDrainedHostnames => do
    let unsafeHostnames ← checkSla cluster groupingFunction percentage duration hosts
    let notDrainedHostnames := notDrainedHostnames ∪ unsafeHostnames
    let drainableHostnames := hosts.filter fun host => host ∉ unsafeHostnames
    if unsafeHostnames ≠ [] ∧ drainableHostnames = [] then
      operateOnBatches callback batches notDrainedHostnames
    else
      let notDrainedHostnames := notDrainedHostnames ∪ (← drainHosts drainableHostnames)
      if callback then
        operateOnHosts (drainableHostnames.filter fun host => host ∉ notDrainedHostnames)
      operateOnBatches callback batches notDrainedHostnames

def performMaintenance (hostnames : List Host) (callback : Bool) : Operation Host (List Host) := do
  let hostnames ← startMaintenance hostnames
  let notDrainedHostnames ← operateOnBatches cluster groupingFunction percentage duration callback
    (iterBatches hostnames groupingFunction) []
  return hostnames.dedup.filter fun host => host ∉ notDrainedHostnames

end Run

end HostMaintenance

end Aurora.Admin
