import Aurora.Thermos.Observer.Tracks

namespace Aurora.Thermos.Observer

open Collections ObserverTaskDetector

/-- The tables of the observer, each by task id alone. Of a task they hold where it was found. -/
structure TaskObserver where
  activeTasks : Dict String RootedTask
  finishedTasks : Dict String RootedTask

namespace TaskObserver

def init : TaskObserver := ⟨.empty, .empty⟩

def onActive (task : RootedTask) (observer : TaskObserver) : TaskObserver :=
  -- the source logs an error here: found an active task in finished tasks
  if task.taskId ∈ observer.finishedTasks.keys then observer
  else { observer with activeTasks := observer.activeTasks.set task.taskId task }

def onFinished (task : RootedTask) (observer : TaskObserver) : TaskObserver where
  activeTasks := observer.activeTasks.erase task.taskId
  finishedTasks := observer.finishedTasks.set task.taskId task

def onRemoved (task : RootedTask) (observer : TaskObserver) : TaskObserver where
  activeTasks := observer.activeTasks.erase task.taskId
  finishedTasks := observer.finishedTasks.erase task.taskId

def handle : Callback → RootedTask → TaskObserver → TaskObserver
  | .onActive => onActive
  | .onFinished => onFinished
  | .onRemoved => onRemoved

def run (isSpace : Char → Bool) (scans : List Scan) : Except AssertionError TaskObserver :=
  (fun detector => detector.observed) <$> refreshes handle isSpace init scans

end TaskObserver

section Naturality

variable {σ τ : Type} {callback : Callback → RootedTask → σ → σ} {callback' : Callback → RootedTask → τ → τ} {f : σ → τ}

def ObserverTaskDetector.map (f : σ → τ) (detector : ObserverTaskDetector σ) : ObserverTaskDetector τ :=
  { detector with observed := f detector.observed }

def Pass.map (f : σ → τ) (pass : Pass σ) : Pass τ := { pass with detector := pass.detector.map f }

variable (same : ∀ kind task state, callback' kind task (f state) = f (callback kind task state))

include same

theorem call_map (kind : Callback) (detector : ObserverTaskDetector σ) (task : RootedTask) :
    call callback' kind (detector.map f) task = (call callback kind detector task).map f := by
  simp only [call, ObserverTaskDetector.map, same]

theorem meet_map (pass : Pass σ) (listed : RootedTask × String) :
    meet callback' (pass.map f) listed = Pass.map f <$> meet callback pass listed := by
  obtain ⟨task, status⟩ := listed
  obtain ⟨⟨detectors, active, finished, observed⟩, allActive, allFinished⟩ := pass
  simp only [meet, Pass.map, ObserverTaskDetector.map, call, same]
  split
  · split
    · rfl
    · split <;> rfl
  · split
    · split
      · rfl
      · split <;> rfl
    · rfl

theorem leave_map (scan : Scan) (pass : Pass σ) :
    leave callback' scan (pass.map f) = (leave callback scan pass).map f := by
  have both : ∀ (detector : ObserverTaskDetector σ) task,
      call callback' .onRemoved (call callback' .onFinished (detector.map f) task) task =
        (call callback .onRemoved (call callback .onFinished detector task) task).map f := by
    intro detector task
    rw [call_map same, call_map same]
  have first : ∀ tasks : List RootedTask,
      tasks.foldl (fun detector task => call callback' .onRemoved (call callback' .onFinished detector task) task)
        (pass.detector.map f) =
      (tasks.foldl (fun detector task => call callback .onRemoved (call callback .onFinished detector task) task)
        pass.detector).map f := fun tasks => List.foldl_hom _ both
  have second : ∀ (tasks : List RootedTask) (detector : ObserverTaskDetector σ),
      tasks.foldl (call callback' .onRemoved) (detector.map f) = (tasks.foldl (call callback .onRemoved) detector).map f :=
    fun tasks detector => List.foldl_hom _ (call_map same .onRemoved)
  simp only [leave, Pass.map, first, second]
  rfl

theorem refresh_map (isSpace : Char → Bool) (detector : ObserverTaskDetector σ) (scan : Scan) :
    refresh callback' isSpace (detector.map f) scan = ObserverTaskDetector.map f <$> refresh callback isSpace detector scan := by
  have looped := Shards.foldlM_map (Pass.map f) (meet_map same) (iterTasks isSpace scan (refreshDetectors scan detector))
    ⟨refreshDetectors scan detector, ∅, ∅⟩
  simp only [refresh]
  rw [show iterTasks isSpace scan (refreshDetectors scan (detector.map f)) =
      iterTasks isSpace scan (refreshDetectors scan detector) from rfl]
  rw [show (⟨refreshDetectors scan (detector.map f), ∅, ∅⟩ : Pass τ) =
      Pass.map f ⟨refreshDetectors scan detector, ∅, ∅⟩ from rfl, looped]
  cases (iterTasks isSpace scan (refreshDetectors scan detector)).foldlM (meet callback)
      ⟨refreshDetectors scan detector, ∅, ∅⟩ with
  | error e => rfl
  | ok pass => exact congrArg Except.ok (leave_map same scan pass)

theorem refreshes_map (isSpace : Char → Bool) (observed : σ) (scans : List Scan) :
    refreshes callback' isSpace (f observed) scans = ObserverTaskDetector.map f <$> refreshes callback isSpace observed scans :=
  Shards.foldlM_map (ObserverTaskDetector.map f) (refresh_map same isSpace) scans (.init observed)

end Naturality

end Aurora.Thermos.Observer
