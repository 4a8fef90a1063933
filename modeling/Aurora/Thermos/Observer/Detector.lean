import Aurora.Library.Dict
import Mathlib.Data.Finset.Lattice.Basic
import Mathlib.Data.Finset.SDiff

namespace Aurora.Thermos.Observer

open Collections

structure TaskDetector where
  root : String

structure Detectors where
  table : Dict String TaskDetector
  rooted : ∀ path detector, table.get? path = some detector → detector.root = path

namespace Detectors

def empty : Detectors := ⟨.empty, fun _ _ found => by cases found⟩

def pop (detectors : Detectors) (path : String) : Detectors where
  table := detectors.table.erase path
  rooted := by
    intro other detector found
    rw [Dict.get?_erase] at found
    split at found
    · cases found
    · exact detectors.rooted other detector found

def add (detectors : Detectors) (path : String) : Detectors where
  table := detectors.table.set path ⟨path⟩
  rooted := by
    intro other detector found
    rw [Dict.get?_set] at found
    split at found
    · rename_i same
      cases found
      exact same.symm
    · exact detectors.rooted other detector found

end Detectors

structure RootedTask where
  root : String
  taskId : String
  deriving DecidableEq

structure Iteration (α : Type) where
  order : Finset α → List α
  nodup : ∀ s, (order s).Nodup
  mem : ∀ s a, a ∈ order s ↔ a ∈ s

/-- What a refresh meets: the paths of the path detector, and for a root the state and the name of each task file that
    its glob gives, in order. -/
structure Scan where
  paths : Finset String
  glob : String → List (String × String)
  pathOrder : Iteration String
  taskOrder : Iteration RootedTask

section TaskIds

-- what `\s` matches
variable (isSpace : Char → Bool)

/-- The groups of the path's match. The pattern has no end, so a task id stops at its first blank. -/
def groups (path : String × String) : Option (String × String) :=
  let taskId := path.2.toList.takeWhile (fun c => !isSpace c)
  if path.1 ≠ "" ∧ path.1.toList.all (fun c => !isSpace c) ∧ taskId ≠ [] then some (path.1, String.ofList taskId) else none

def TaskDetector.getTaskIds (detector : TaskDetector) (scan : Scan) (state : Option String) : List (String × String) :=
  ((scan.glob detector.root).filterMap (groups isSpace)).filter fun found => state = none ∨ state = some found.1

end TaskIds

inductive Callback
  | onActive
  | onFinished
  | onRemoved
  deriving DecidableEq

structure AssertionError where
  message : String

structure ObserverTaskDetector (σ : Type) where
  detectors : Detectors
  activeTasks : Finset RootedTask
  finishedTasks : Finset RootedTask
  observed : σ

structure Pass (σ : Type) where
  detector : ObserverTaskDetector σ
  allActive : Finset RootedTask
  allFinished : Finset RootedTask

namespace ObserverTaskDetector

variable {σ : Type}

def init (observed : σ) : ObserverTaskDetector σ := ⟨.empty, ∅, ∅, observed⟩

def refreshDetectors (scan : Scan) (detector : ObserverTaskDetector σ) : ObserverTaskDetector σ :=
  let oldPaths := detector.detectors.table.keys.toFinset
  let kept := (scan.pathOrder.order (oldPaths \ scan.paths)).foldl Detectors.pop detector.detectors
  { detector with detectors := (scan.pathOrder.order (scan.paths \ oldPaths)).foldl Detectors.add kept }

def iterTasks (isSpace : Char → Bool) (scan : Scan) (detector : ObserverTaskDetector σ) : List (RootedTask × String) :=
  detector.detectors.table.entries.flatMap fun entry =>
    (entry.2.getTaskIds isSpace scan none).map fun found => (⟨entry.1, found.2⟩, found.1)

variable (callback : Callback → RootedTask → σ → σ)

def call (kind : Callback) (detector : ObserverTaskDetector σ) (task : RootedTask) : ObserverTaskDetector σ :=
  { detector with observed := callback kind task detector.observed }

def meet (pass : Pass σ) (listed : RootedTask × String) : Except AssertionError (Pass σ) :=
  let (task, status) := listed
  let detector := pass.detector
  if status = "active" then
    let pass := { pass with allActive := insert task pass.allActive }
    if task ∈ detector.activeTasks then return pass
    else if task ∈ detector.finishedTasks then throw ⟨"Unexpected state."⟩
    else return { pass with
      detector := call callback .onActive { detector with activeTasks := insert task detector.activeTasks } task }
  else if status = "finished" then
    let pass := { pass with allFinished := insert task pass.allFinished }
    if task ∈ detector.activeTasks then
      let moved := { detector with
        activeTasks := detector.activeTasks.erase task
        finishedTasks := insert task detector.finishedTasks }
      return { pass with detector := call callback .onFinished moved task }
    else if task ∈ detector.finishedTasks then return pass
    else
      let added := { detector with finishedTasks := insert task detector.finishedTasks }
      return { pass with detector := call callback .onFinished (call callback .onActive added task) task }
  else throw ⟨"Unknown state."⟩

/-- The loops of a refresh over the tasks that it has not met. -/
def leave (scan : Scan) (pass : Pass σ) : ObserverTaskDetector σ :=
  let allTasks := pass.allActive ∪ pass.allFinished
  let detector := (scan.taskOrder.order (pass.detector.activeTasks \ allTasks)).foldl
    (fun detector task => call callback .onRemoved (call callback .onFinished detector task) task) pass.detector
  let detector := (scan.taskOrder.order (detector.finishedTasks \ allTasks)).foldl (call callback .onRemoved) detector
  { detector with
    activeTasks := pass.allActive
    finishedTasks := pass.allFinished }

def refresh (isSpace : Char → Bool) (detector : ObserverTaskDetector σ) (scan : Scan) :
    Except AssertionError (ObserverTaskDetector σ) := do
  let detector := refreshDetectors scan detector
  let pass ← (iterTasks isSpace scan detector).foldlM (meet callback) ⟨detector, ∅, ∅⟩
  return leave callback scan pass

/-- The refreshes of the observer's thread, which an assertion that fails ends. -/
def refreshes (isSpace : Char → Bool) (observed : σ) (scans : List Scan) : Except AssertionError (ObserverTaskDetector σ) :=
  scans.foldlM (refresh callback isSpace) (init observed)

end ObserverTaskDetector

end Aurora.Thermos.Observer
