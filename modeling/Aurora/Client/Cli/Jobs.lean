import Aurora.Client.Api.SchedulerClient
import Aurora.Client.Api.Sla
import Mathlib.Data.Finset.Sort

namespace Aurora.Client.Cli

inductive ExitCode
  | ok | invalidConfiguration | commandFailure | invalidParameter | timeout | apiError | authError
  deriving DecidableEq

inductive CommandFailure
  | commandError (code : ExitCode) (msg : String)
  /-- iterating over None -/
  | typeError
  | raised (text : String)
  /-- not an exception: a loop that is still going when the rounds given to the model are used up -/
  | unfinished
  deriving DecidableEq

structure SlaPolicy where
  percentageSlaPolicy : Bool
  countSlaPolicy : Bool
  deriving DecidableEq

structure ActiveTask where
  instanceId : Int
  slaPolicy : Option SlaPolicy := none
  deriving DecidableEq

structure Response where
  responseCode : ResponseCode := .ok
  details : List String := []
  tasks : Option (List ActiveTask) := some []
  deriving DecidableEq

inductive Raised
  | authError (text : String)
  | other (text : String)
  deriving DecidableEq

structure KillReply where
  /-- the pre hooks let the call through -/
  hooksPass : Bool := true
  outcome : Except Raised Response := .ok {}

inductive Event
  | queried (response : Response)
  | killTasks (job : JobKey) (instances : Option (Finset Int)) (message : Option String)
      (code : Option ResponseCode)
  | waited (instances : Option (List Int)) (terminated : Bool)
  | printOut (msg : String)
  | printErr (msg : String)
  | openedBrowser (job : AuroraJobKey)
  deriving DecidableEq

/-- What the scheduler and the monitor answer, in order, and what a command has done so far. -/
structure Session where
  queries : List (Except Raised Response) := []
  kills : List KillReply := []
  waits : List (Except Raised Bool) := []
  /-- how the configuration file loads -/
  config : Except String Unit := .ok ()
  log : List Event := []

abbrev Command := EStateM CommandFailure Session

/-- The order in which the elements of a set come out of it, be it by `pop` or by iteration. -/
structure SetOrder where
  order : Finset Int → List Int
  nodup : ∀ s, (order s).Nodup
  mem : ∀ s i, i ∈ order s ↔ i ∈ s

def SetOrder.sorted : SetOrder where
  order s := s.sort
  nodup s := s.sort_nodup _
  mem s _ := s.mem_sort _

structure KillOptions where
  batchSize : Int := 1
  maxTotalFailures : Int := 0
  noBatching : Bool := false
  strict : Bool := false
  config : Option String := none
  message : Option String := none
  openBrowser : Bool := false

def toPath (job : AuroraJobKey) : String := "/".intercalate [job.cluster, job.role, job.env, job.name]

def toThrift (job : AuroraJobKey) : JobKey := ⟨job.role, job.env, job.name⟩

def formatInstances : Option (List Int) → String
  | none => "None"
  | some instances => toString instances

def observe (event : Event) : Command Unit := modify fun session => { session with log := session.log ++ [event] }

/-- `AuthErrorHandlingScheduler`; other exceptions pass. -/
def called {α : Type} : Except Raised α → Command α
  | .ok value => pure value
  | .error (.authError text) => throw (.commandError .authError text)
  | .error (.other text) => throw (.raised text)

def query : Command Response := do
  let answer := (← get).queries.headD (.ok {})
  modify fun session => { session with queries := session.queries.tail }
  let response ← called answer
  observe (.queried response)
  return response

def combineMessages (response : Response) : String :=
  ", ".intercalate (response.details.map fun message => if message = "" then "Unknown error" else message)

namespace Context

def jobUpdatingErrorMsg : String :=
  "Error: job is locked by an active update.\n      Run 'aurora update abort' or wait for the active update to finish."

def logResponseAndRaise (response : Response) (errCode : ExitCode) (errMsg : String) : Command Unit := do
  unless response.responseCode = .ok do
    observe (.printErr errMsg)
    observe (.printErr ("\t" ++ combineMessages response))
    if response.responseCode = .jobUpdatingError then
      observe (.printErr ("\t" ++ jobUpdatingErrorMsg))
    throw (.commandError errCode errMsg)

variable (clusters : List String)

def getApi (cluster : String) : Command Unit := do
  unless cluster ∈ clusters do
    throw (.commandError .invalidConfiguration ("Unknown cluster: " ++ cluster))

def getActiveTasks (job : AuroraJobKey) : Command (Option (List ActiveTask)) := do
  getApi clusters job.cluster
  let response ← query
  logResponseAndRaise response .invalidParameter "Command failure:"
  return response.tasks

def hasCountOrPercentageSlaPolicy (job : AuroraJobKey) : Command Bool := do
  match ← getActiveTasks clusters job with
  | none => throw .typeError
  | some tasks => return tasks.any fun task =>
      task.slaPolicy.any fun slaPolicy => slaPolicy.percentageSlaPolicy || slaPolicy.countSlaPolicy

def getActiveInstancesOrRaise (sets : SetOrder) (job : AuroraJobKey) (instances : List Int) :
    Command (Finset Int) := do
  let active := (((← getActiveTasks clusters job).getD []).map ActiveTask.instanceId).toFinset
  let unrecognized := instances.toFinset \ active
  if unrecognized ≠ ∅ then
    throw (.commandError .invalidParameter ("Invalid instance parameter: " ++ toString (sets.order unrecognized)))
  return active

def getJobConfigOptional (configFile : Option String) : Command Unit := do
  if configFile.isSome then
    match (← get).config with
    | .ok _ => return
    | .error text => throw (.commandError .invalidConfiguration ("Error loading configuration: " ++ text))

end Context

def killJob (job : AuroraJobKey) (instances : Option (List Int)) (message : Option String) : Command Response := do
  let reply := (← get).kills.headD {}
  modify fun session => { session with kills := session.kills.tail }
  unless reply.hooksPass do
    throw (.raised "Pre hooks stopped call to kill_job")
  observe (.killTasks (toThrift job) (instances.map List.toFinset) message
    (reply.outcome.toOption.map Response.responseCode))
  called reply.outcome

/-- `JobMonitor.wait_until` for terminal states, with a timeout. -/
def waitUntil (instances : Option (List Int)) : Command Bool := do
  let answer := (← get).waits.headD (.ok true)
  modify fun session => { session with waits := session.waits.tail }
  let terminated ← called answer
  observe (.waited instances terminated)
  return terminated

namespace AbstractKillCommand

def waitKillTasks (instances : Option (List Int)) : Command ExitCode := do
  unless ← waitUntil instances do
    observe (.printErr ("Instances " ++ formatInstances instances ++ " were not killed in time"))
    return .timeout
  return .ok

/-- How many elements the inner loop pops: none for a size that is not positive. -/
def batchLength (batchSize : Int) (instancesToKill : List Int) : Nat := (min batchSize instancesToKill.length).toNat

section Batches

variable (job : AuroraJobKey) (options : KillOptions)

/-- The loop over the set, given in the order in which its elements are popped: the number of errors. -/
def killBatches : Nat → List Int → Nat → Command Nat
  | _, [], errors => return errors
  | 0, _ :: _, _ => throw .unfinished
  | rounds + 1, first :: others, errors => do
    let instancesToKill := first :: others
    let batch := instancesToKill.take (batchLength options.batchSize instancesToKill)
    let rest := instancesToKill.drop (batchLength options.batchSize instancesToKill)
    let response ← killJob job (some batch) options.message
    -- most likely a fatal repeatable error, so it is not counted but ends the command
    Context.logResponseAndRaise response .apiError ("Kill of instances " ++ toString batch ++ " failed with error:")
    if (← waitKillTasks (some batch)) ≠ .ok then
      if options.maxTotalFailures < ((errors + 1 : Nat) : Int) then
        throw (.commandError .commandFailure "Exceeded maximum number of errors while killing instances")
      killBatches rounds rest (errors + 1)
    else
      observe (.printOut ("Successfully killed instances " ++ toString batch))
      killBatches rounds rest errors

end Batches

def instancesToKill (tasks : List ActiveTask) (instancesArg : Option (List Int)) : Finset Int :=
  let instanceIds := (tasks.map ActiveTask.instanceId).toFinset
  instancesArg.elim instanceIds fun instances => instanceIds ∩ instances.toFinset

section Commands

variable (clusters : List String) (sets : SetOrder) (rounds : Nat) (options : KillOptions)

/-- None where the source falls off the end of the function. -/
def killInBatches (job : AuroraJobKey) (instancesArg : Option (List Int)) : Command (Option ExitCode) := do
  Context.getApi clusters job.cluster
  let tasks := (← Context.getActiveTasks clusters job).getD []
  if tasks = [] then
    observe (.printErr ("No tasks to kill found for job " ++ toPath job))
    return some .invalidParameter
  let errors ← killBatches job options rounds (sets.order (instancesToKill tasks instancesArg)) 0
  if 0 < errors then
    throw (.commandError .commandFailure "Errors occurred while killing instances")
  return none

def killAtOnce (job : AuroraJobKey) (instances : Option (List Int)) : Command ExitCode := do
  let response ← killJob job instances options.message
  Context.logResponseAndRaise response .apiError "Command failure:"
  waitKillTasks instances

def reportSuccess (job : AuroraJobKey) (msg : String) : Command ExitCode := do
  if options.openBrowser then
    observe (.openedBrowser job)
  observe (.printOut msg)
  return .ok

def killAndReport (job : AuroraJobKey) (instances : Option (List Int)) (msg : String) : Command ExitCode := do
  if options.noBatching then
    let waitResult ← killAtOnce options job instances
    if waitResult ≠ .ok then
      return waitResult
  else
    let _ ← killInBatches clusters sets rounds options job instances
  reportSuccess options job msg

end Commands

end AbstractKillCommand

open AbstractKillCommand

section Execute

variable (clusters : List String) (sets : SetOrder) (rounds : Nat) (options : KillOptions) (job : AuroraJobKey)

def KillCommand.warnOfSlaPolicy : Command Unit := do
  if ← Context.hasCountOrPercentageSlaPolicy clusters job then
    observe (.printOut "WARNING: Killing instances without updating SlaPolicy.")

def KillCommand.requireActive (instances : List Int) : Command Unit := do
  if options.strict then
    let _ ← Context.getActiveInstancesOrRaise clusters sets job instances

def KillCommand.prepare (instances : List Int) : Command Unit := do
  warnOfSlaPolicy clusters job
  requireActive clusters sets options job instances
  Context.getApi clusters job.cluster
  Context.getJobConfigOptional options.config

def KillCommand.execute (instances : Option (List Int)) : Command ExitCode := do
  match instances with
  | none => throw (.commandError .invalidParameter
      "The instances list cannot be omitted in a kill command!; use killall to kill all instances")
  | some instances =>
    KillCommand.prepare clusters sets options job instances
    killAndReport clusters sets rounds options job (some instances) "Job kill succeeded"

def KillAllJobCommand.execute : Command ExitCode := do
  Context.getApi clusters job.cluster
  Context.getJobConfigOptional options.config
  killAndReport clusters sets rounds options job none "Job killall succeeded"

end Execute

end Aurora.Client.Cli
