import Aurora.Thermos.Core.Handlers
import Mathlib.Data.Finset.Sort
import Mathlib.Data.String.Basic

namespace Aurora.Thermos

open Collections

/-- What the surroundings of the runner answer at one point of a run; an operation looks at the
    fields that concern it. -/
structure Answer where
  time : Time := 0
  /-- the order in which a set is enumerated -/
  order : List Name := []
  /-- whether `Process.start` gets through, and the pid it forks -/
  starts : Bool := true
  pid : Int := 1
  /-- what coordinators have written to their checkpoints meanwhile -/
  appended : List (Name × ProcessStatus) := []
  /-- whether a pid is alive and really ours, and the pids of its children -/
  ours : Bool := false
  children : List Int := []
  /-- a signal or a crash at this point -/
  interrupt : Bool := false

/-- A record that a coordinator can have written: coordinators fill in the process, a sequence
    number and the fields of the state, and never write WAITING or LOST. -/
def coordinatorWrites (name : Name) (update : ProcessStatus) : Bool :=
  update.process = some name && update.seq.isSome &&
    match update.state with
    | some .forked => update.forkTime.isSome && update.coordinatorPid.isSome
    | some .running => update.startTime.isSome && update.pid.isSome
    | some .success | some .failed | some .killed => update.stopTime.isSome && update.returnCode.isSome
    | _ => false

/-- The checkpoints of the processes, which only their coordinators write to. -/
structure Checkpoints where
  files : ProcessFiles
  authored : ∀ name, ∀ record ∈ ProcessMuxer.content files name, coordinatorWrites name record = true

namespace Checkpoints

def empty : Checkpoints := ⟨.empty, fun _ _ member => absurd member List.not_mem_nil⟩

def write (checkpoints : Checkpoints) (name : Name) (record : ProcessStatus) : Checkpoints :=
  if own : coordinatorWrites name record = true then
    ⟨checkpoints.files.set name (ProcessMuxer.content checkpoints.files name ++ [record]), by
      intro other written member
      by_cases same : other = name
      · subst same
        simp only [ProcessMuxer.content, Dict.get?_set_self, Option.getD_some, List.mem_append,
          List.mem_singleton] at member
        rcases member with old | rfl
        · exact checkpoints.authored other written old
        · exact own
      · simp only [ProcessMuxer.content, Dict.get?_set_ne _ _ same] at member
        exact checkpoints.authored other written member⟩
  else checkpoints

def append (checkpoints : Checkpoints) (appended : List (Name × ProcessStatus)) : Checkpoints :=
  appended.foldl (fun checkpoints entry => checkpoints.write entry.1 entry.2) checkpoints

end Checkpoints

/-- A runner among its surroundings. The last four fields are what has been observed of it so far:
    the checkpoint stream, each record with the runner just before it was written; the records that
    `dispatch` raised on; the process runs that were started; whether `finalize_task` was called. -/
structure World where
  runner : Runner
  answers : List Answer := []
  checkpoints : Checkpoints := .empty
  written : List (Runner × RunnerCkpt) := []
  refused : List (Runner × RunnerCkpt) := []
  started : List (Name × Nat) := []
  finalized : Bool := false

abbrev Action := EStateM Error World

def World.stream (world : World) : List RunnerCkpt := world.written.map Prod.snd

def answer : Action Answer := fun world =>
  match world.answers with
  | [] => .ok {} world
  | first :: rest => .ok first { world with answers := rest }

def clockTime : Action Time := return (← answer).time

/-- A point at which a signal or a crash may cut off the program. -/
def pause : Action Unit := do
  if (← answer).interrupt then
    throw .interrupted

def enumerate (names : Finset Name) : Action (List Name) := do
  let order := (← answer).order.dedup.filter (· ∈ names)
  return order ++ (names \ order.toFinset).sort (· ≤ ·)

def getRunner : Action Runner := return (← get).runner

def onRunner {α : Type} (action : EStateM Error Runner α) : Action α := fun world =>
  match action world.runner with
  | .ok value runner => .ok value { world with runner }
  | .error e runner => .error e { world with runner }

def watch {α : Type} (look : ProcessFiles → EStateM Error ProcessMuxer α) : Action α := do
  let appended := (← answer).appended
  modify fun world => { world with checkpoints := world.checkpoints.append appended }
  onRunner (Runner.onWatcher (look (← get).checkpoints.files))

end Aurora.Thermos
