import Aurora.Library.Dict
import Aurora.Library.Replay
import Aurora.Thermos.Config.Schema
import Mathlib.Data.Finset.Card
import Mathlib.Data.Finset.Disjoint

namespace Aurora.Thermos

open Collections

def assertThat {σ : Type} (condition : Prop) [Decidable condition] : EStateM Error σ Unit := do
  unless condition do
    throw .assertion

section Planner

variable {α : Type} [DecidableEq α]

namespace Planner

def filterRunnable (processes : Finset α) (dependencies : α → Finset α) : Finset α :=
  processes.filter (fun process => dependencies process = ∅)

def filterDependencies (dependencies : α → Finset α) (given : Finset α) : α → Finset α :=
  fun process => dependencies process \ given

/-- The loop of `satisfiable`, with the processes it leaves unscheduled. Every round but the last
    schedules a process, so as many rounds as there are processes are enough. -/
def unscheduled (rounds : Nat) (processes : Finset α) (dependencies : α → Finset α) : Finset α :=
  match rounds with
  | 0 => processes
  | rounds + 1 =>
    let runnables := filterRunnable processes dependencies
    if runnables = ∅ then processes
    else unscheduled rounds (processes \ runnables) (filterDependencies dependencies runnables)

def satisfiable (processes : Finset α) (dependencies : α → Finset α) : Bool :=
  unscheduled processes.card processes dependencies = ∅

end Planner

/-- `Planner`; `__init__` refuses a schedule with cycles, so no planner has one. -/
structure Planner (α : Type) [DecidableEq α] where
  processes : Finset α
  dependencies : α → Finset α
  schedule : Planner.satisfiable processes dependencies = true
  running : Finset α := ∅
  finished : Finset α := ∅
  failed : Finset α := ∅

namespace Planner

def init (processes : Finset α) (dependencies : α → Finset α) : Except Error (Planner α) :=
  if schedule : satisfiable processes dependencies = true then
    .ok { processes, dependencies, schedule }
  else
    .error (.invalidSchedule "Cycles detected in the task schedule!")

def runnable (planner : Planner α) : Finset α :=
  filterRunnable (((planner.processes \ planner.running) \ planner.finished) \ planner.failed)
    (filterDependencies planner.dependencies planner.finished)

def reset (process : α) : EStateM Error (Planner α) Unit := do
  let planner ← get
  assertThat (process ∈ planner.running)
  assertThat (process ∉ planner.finished)
  assertThat (process ∉ planner.failed)
  set { planner with running := planner.running.erase process }

def setRunning (process : α) : EStateM Error (Planner α) Unit := do
  let planner ← get
  assertThat (process ∉ planner.failed)
  assertThat (process ∉ planner.finished)
  assertThat (process ∈ planner.running ∨ process ∈ planner.runnable)
  set { planner with running := insert process planner.running }

def setFinished (process : α) : EStateM Error (Planner α) Unit := do
  let planner ← get
  assertThat (process ∈ planner.running)
  assertThat (process ∉ planner.failed)
  set { planner with
    running := planner.running.erase process, finished := insert process planner.finished }

def setFailed (process : α) : EStateM Error (Planner α) Unit := do
  let planner ← get
  assertThat (process ∈ planner.running)
  assertThat (process ∉ planner.finished)
  set { planner with
    running := planner.running.erase process, failed := insert process planner.failed }

end Planner

end Planner

structure TaskAttributes where
  minDuration : Int
  isDaemon : Bool
  maxFailures : Int
  isEphemeral : Bool
  deriving DecidableEq

structure TaskPlanner where
  planner : Planner Name
  lastTerminal : Dict Name Time := .empty
  failures : Name → Nat := fun _ => 0
  successes : Name → Nat := fun _ => 0
  losses : Name → Nat := fun _ => 0
  attributes : Dict Name TaskAttributes
  ephemerals : Finset Name
  /-- `TOTAL_RUN_LIMIT`, `sys.maxsize` in the source -/
  totalRunLimit : Nat

namespace TaskPlanner

/-- `dict((process.name().get(), process) for process in ...)`: the last process of a name wins. -/
def processMap (processes : List Process) : Dict Name Process :=
  processes.foldl (fun map process => map.set process.name process) .empty

def addOrder (processMap : Dict Name Process) :
    List Name → (Name → Finset Name) → Except Error (Name → Finset Name)
  | pnk1 :: pnk :: rest, dependencies =>
    match processMap.get? pnk1, processMap.get? pnk with
    | some before, some after =>
      if before.daemon then
        .error (.invalidSchedule ("Process " ++ pnk ++ " may not depend upon daemon process " ++ pnk1))
      else if !after.ephemeral && before.ephemeral then
        .error (.invalidSchedule
          ("Non-ephemeral process " ++ pnk ++ " may not depend upon ephemeral process " ++ pnk1))
      else
        addOrder processMap (pnk :: rest)
          (fun process => if process = pnk then insert pnk1 (dependencies pnk) else dependencies process)
    | none, _ => .error (.keyError pnk1)
    | _, none => .error (.keyError pnk)
  | _, dependencies => .ok dependencies

def addConstraints (processMap : Dict Name Process) (processes : Finset Name) :
    List Constraint → (Name → Finset Name) → Except Error (Name → Finset Name)
  | [], dependencies => .ok dependencies
  | constraint :: rest, dependencies =>
    let names := constraint.order.toFinset
    if names ⊆ processes ↔ Disjoint names processes then
      .error (.invalidSchedule "Invalid process dependencies!")
    else if names ⊆ processes then do
      let dependencies ← addOrder processMap constraint.order dependencies
      addConstraints processMap processes rest dependencies
    else
      addConstraints processMap processes rest dependencies

def extractDependencies (task : Task) (filter : Process → Bool) :
    Except Error (Finset Name × (Name → Finset Name)) := do
  let map := processMap (task.processes.filter filter)
  let processes := map.keys.toFinset
  let dependencies ← addConstraints map processes task.constraints (fun _ => ∅)
  return (processes, dependencies)

def taskAttributes (process : Process) : TaskAttributes where
  minDuration := process.minDuration
  isDaemon := process.daemon
  maxFailures := process.maxFailures
  isEphemeral := process.ephemeral

def init (totalRunLimit : Nat) (task : Task) (filter : Process → Bool) : Except Error TaskPlanner := do
  let (processes, dependencies) ← extractDependencies task filter
  let planner ← Planner.init processes dependencies
  let selected := task.processes.filter filter
  return {
    planner
    attributes := (processMap selected).map taskAttributes
    ephemerals := ((selected.filter Process.ephemeral).map Process.name).toFinset
    totalRunLimit }

/-- `get_wait`; a recorded process without attributes would raise KeyError. -/
def getWait (plan : TaskPlanner) (process : Name) (now : Time) : Time :=
  match plan.lastTerminal.get? process, plan.attributes.get? process with
  | some last, some attributes => attributes.minDuration - (now - last)
  | _, _ => 0

def isReady (plan : TaskPlanner) (process : Name) (timestamp : Time) : Bool :=
  plan.getWait process timestamp ≤ 0

def runnableAt (plan : TaskPlanner) (timestamp : Time) : Finset Name :=
  plan.planner.runnable.filter (fun process => plan.isReady process timestamp = true)

def waitingAt (plan : TaskPlanner) (timestamp : Time) : Finset Name :=
  plan.planner.runnable.filter (fun process => ¬ plan.isReady process timestamp = true)

def hasReachedRunLimit (plan : TaskPlanner) (process : Name) : Bool :=
  plan.totalRunLimit ≤ plan.successes process + plan.failures process + plan.losses process

def onPlanner (action : EStateM Error (Planner Name) Unit) : EStateM Error TaskPlanner Unit := fun plan =>
  match action plan.planner with
  | .ok _ planner => .ok () { plan with planner }
  | .error e planner => .error e { plan with planner }

def attributesOf (process : Name) : EStateM Error TaskPlanner TaskAttributes := do
  match (← get).attributes.get? process with
  | some attributes => return attributes
  | none => throw (.keyError process)

def setRunning (process : Name) : EStateM Error TaskPlanner Unit := onPlanner (Planner.setRunning process)

def recordTerminationTime (process : Name) (timestamp : Time) : EStateM Error TaskPlanner Unit :=
  modify fun plan => { plan with lastTerminal := plan.lastTerminal.set process timestamp }

def increment (counts : Name → Nat) (process : Name) : Name → Nat :=
  fun other => if other = process then counts other + 1 else counts other

def failureTransition (process : Name) : EStateM Error TaskPlanner Unit := do
  let plan ← get
  if plan.hasReachedRunLimit process then
    onPlanner (Planner.setFailed process)
  else
    let attributes ← attributesOf process
    if attributes.maxFailures = 0 ∨ plan.failures process < attributes.maxFailures then
      onPlanner (Planner.reset process)
    else if attributes.isEphemeral then
      onPlanner (Planner.setFinished process)
    else
      onPlanner (Planner.setFailed process)

def addFailure (process : Name) (timestamp : Time) : EStateM Error TaskPlanner Unit := do
  recordTerminationTime process timestamp
  modify fun plan => { plan with failures := increment plan.failures process }
  failureTransition process

def successTransition (process : Name) : EStateM Error TaskPlanner Unit := do
  let plan ← get
  if plan.hasReachedRunLimit process then
    onPlanner (Planner.setFailed process)
  else
    let attributes ← attributesOf process
    if !attributes.isDaemon then
      onPlanner (Planner.setFinished process)
    else
      onPlanner (Planner.reset process)

def addSuccess (process : Name) (timestamp : Time) : EStateM Error TaskPlanner Unit := do
  recordTerminationTime process timestamp
  modify fun plan => { plan with successes := increment plan.successes process }
  successTransition process

def setFailed (process : Name) : EStateM Error TaskPlanner Unit := onPlanner (Planner.setFailed process)

def lostTransition (process : Name) : EStateM Error TaskPlanner Unit := do
  let plan ← get
  if plan.hasReachedRunLimit process then
    onPlanner (Planner.setFailed process)
  else
    onPlanner (Planner.reset process)

def lost (process : Name) (timestamp : Time) : EStateM Error TaskPlanner Unit := do
  recordTerminationTime process timestamp
  modify fun plan => { plan with losses := increment plan.losses process }
  lostTransition process

def isComplete (plan : TaskPlanner) : Bool :=
  plan.planner.processes = (plan.planner.finished ∪ plan.planner.failed) ∪ plan.ephemerals

def deadlockedAt (plan : TaskPlanner) (now : Time) : Bool :=
  plan.planner.running = ∅ ∧ plan.runnableAt now = ∅ ∧ plan.waitingAt now = ∅ ∧ ¬ plan.isComplete

end TaskPlanner

end Aurora.Thermos
