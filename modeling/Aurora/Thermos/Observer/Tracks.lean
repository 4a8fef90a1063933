import Aurora.Library.Shards
import Aurora.Thermos.Observer.Detector

namespace Aurora.Thermos.Observer

open Collections Shards ObserverTaskDetector

variable {σ : Type} {isSpace : Char → Bool}

def Scan.listing (isSpace : Char → Bool) (scan : Scan) (task : RootedTask) : List String :=
  if task.root ∈ scan.paths then
    ((TaskDetector.getTaskIds isSpace ⟨task.root⟩ scan none).filter (·.2 = task.taskId)).map Prod.fst
  else []

section Listing

variable {scan : Scan} {detectors : Detectors}

theorem keys_foldl_pop (paths : List String) (detectors : Detectors) :
    (paths.foldl Detectors.pop detectors).table.keys.toFinset = detectors.table.keys.toFinset \ paths.toFinset := by
  induction paths generalizing detectors with
  | nil => simp
  | cons path rest ih =>
    rw [List.foldl_cons, ih, Detectors.pop, Dict.toFinset_keys_erase]
    ext other
    simp only [Finset.mem_sdiff, Finset.mem_erase, List.toFinset_cons, Finset.mem_insert]
    tauto

theorem keys_foldl_add (paths : List String) (detectors : Detectors) :
    (paths.foldl Detectors.add detectors).table.keys.toFinset = detectors.table.keys.toFinset ∪ paths.toFinset := by
  induction paths generalizing detectors with
  | nil => simp
  | cons path rest ih =>
    rw [List.foldl_cons, ih, Detectors.add, Dict.toFinset_keys_set]
    ext other
    simp only [Finset.mem_union, List.toFinset_cons, Finset.mem_insert]
    tauto

theorem Iteration.toFinset_order {α : Type} [DecidableEq α] (iteration : Iteration α) (s : Finset α) :
    (iteration.order s).toFinset = s := by
  ext a
  rw [List.mem_toFinset, iteration.mem]

theorem refreshDetectors_keys (scan : Scan) (detector : ObserverTaskDetector σ) :
    (refreshDetectors scan detector).detectors.table.keys.toFinset = scan.paths := by
  rw [refreshDetectors, keys_foldl_add, keys_foldl_pop, Iteration.toFinset_order, Iteration.toFinset_order]
  ext path
  simp only [Finset.mem_union, Finset.mem_sdiff]
  tauto

theorem filter_rooted (listed : List (RootedTask × String)) (task : RootedTask) :
    listed.filter (·.1 = task) = (listed.filter (·.1.root = task.root)).filter (·.1.taskId = task.taskId) := by
  rw [List.filter_filter]
  apply List.filter_congr
  rintro ⟨⟨root, taskId⟩, status⟩ -
  obtain ⟨root', taskId'⟩ := task
  simp [Bool.and_comm]

theorem iterTasks_listing (scan : Scan) (detector : ObserverTaskDetector σ) (task : RootedTask) :
    ((iterTasks isSpace scan (refreshDetectors scan detector)).filter (·.1 = task)).map Prod.snd =
      scan.listing isSpace task := by
  have keys := refreshDetectors_keys scan detector
  generalize (refreshDetectors scan detector) = refreshed at keys
  have walked := Dict.filter_flatMap
    (fun entry : String × TaskDetector =>
      (entry.2.getTaskIds isSpace scan none).map fun found => ((⟨entry.1, found.2⟩, found.1) : RootedTask × String))
    (fun root listed => listed.1.root = root) refreshed.detectors.table task.root
    (by
      intro entry _ listed member
      obtain ⟨found, -, rfl⟩ := List.mem_map.mp member
      rfl)
  have known : task.root ∈ scan.paths ↔ (refreshed.detectors.table.get? task.root).isSome := by
    rw [← keys, List.mem_toFinset, Dict.mem_keys]
  rw [filter_rooted, iterTasks, walked, Scan.listing]
  cases found : refreshed.detectors.table.get? task.root with
  | none =>
    rw [found] at known
    rw [if_neg (by simp [known])]
    rfl
  | some root =>
    rw [found] at known
    rw [if_pos (known.mpr rfl), ← refreshed.detectors.rooted _ _ found]
    simp only [Option.elim_some, List.filter_map, List.map_map]
    rfl

end Listing

def callsTo (task : RootedTask) (calls : List (Callback × RootedTask)) : List Callback :=
  (calls.filter (·.2 = task)).map Prod.fst

def record (kind : Callback) (task : RootedTask) (calls : List (Callback × RootedTask)) : List (Callback × RootedTask) :=
  calls ++ [(kind, task)]

@[simp] theorem callsTo_append (task : RootedTask) (calls more : List (Callback × RootedTask)) :
    callsTo task (calls ++ more) = callsTo task calls ++ callsTo task more := by
  rw [callsTo, List.filter_append, List.map_append]
  rfl

@[simp] theorem callsTo_record_self (kind : Callback) (task : RootedTask) (calls : List (Callback × RootedTask)) :
    callsTo task (record kind task calls) = callsTo task calls ++ [kind] := by
  simp [record, callsTo]

theorem callsTo_record_other (kind : Callback) {task other : RootedTask} (different : task ≠ other)
    (calls : List (Callback × RootedTask)) : callsTo task (record kind other calls) = callsTo task calls := by
  simp [record, callsTo, different.symm]

structure Track where
  active : Bool
  finished : Bool
  calls : List Callback
  deriving DecidableEq

structure Meeting where
  track : Track
  metActive : Bool
  metFinished : Bool

def Meeting.meet (meeting : Meeting) (status : String) : Except AssertionError Meeting :=
  let track := meeting.track
  if status = "active" then
    let meeting := { meeting with metActive := true }
    if track.active then return meeting
    else if track.finished then throw ⟨"Unexpected state."⟩
    else return { meeting with track := { track with active := true, calls := track.calls ++ [.onActive] } }
  else if status = "finished" then
    let meeting := { meeting with metFinished := true }
    if track.active then return { meeting with track := ⟨false, true, track.calls ++ [.onFinished]⟩ }
    else if track.finished then return meeting
    else return { meeting with track := { track with finished := true, calls := track.calls ++ [.onActive, .onFinished] } }
  else throw ⟨"Unknown state."⟩

def Meeting.leave (meeting : Meeting) : Track where
  active := meeting.metActive
  finished := meeting.metFinished
  calls :=
    let met := meeting.metActive || meeting.metFinished
    meeting.track.calls ++ (if meeting.track.active && !met then [.onFinished, .onRemoved] else []) ++
      if meeting.track.finished && !met then [.onRemoved] else []

def Track.refresh (track : Track) (listing : List String) : Except AssertionError Track :=
  Meeting.leave <$> listing.foldlM Meeting.meet ⟨track, false, false⟩

section Refinement

abbrev Recorder := ObserverTaskDetector (List (Callback × RootedTask))

def track (task : RootedTask) (detector : Recorder) : Track :=
  ⟨task ∈ detector.activeTasks, task ∈ detector.finishedTasks, callsTo task detector.observed⟩

def meeting (task : RootedTask) (pass : Pass (List (Callback × RootedTask))) : Meeting :=
  ⟨track task pass.detector, task ∈ pass.allActive, task ∈ pass.allFinished⟩

theorem meet_own (pass : Pass (List (Callback × RootedTask))) (task : RootedTask) (status : String) :
    meeting task <$> meet record pass (task, status) = (meeting task pass).meet status := by
  by_cases isActive : status = "active"
  · by_cases active : task ∈ pass.detector.activeTasks
    · simp [meet, Meeting.meet, meeting, track, isActive, active]
    · by_cases finished : task ∈ pass.detector.finishedTasks
      · simp [meet, Meeting.meet, meeting, track, isActive, active, finished]
        rfl
      · simp [meet, Meeting.meet, meeting, track, call, isActive, active, finished]
  · by_cases isFinished : status = "finished"
    · by_cases active : task ∈ pass.detector.activeTasks
      · simp [meet, Meeting.meet, meeting, track, call, isFinished, active]
      · by_cases finished : task ∈ pass.detector.finishedTasks
        · simp [meet, Meeting.meet, meeting, track, isFinished, active, finished]
        · simp [meet, Meeting.meet, meeting, track, call, isFinished, active, finished]
    · simp [meet, Meeting.meet, isActive, isFinished]
      rfl

theorem meet_other {pass pass' : Pass (List (Callback × RootedTask))} {task other : RootedTask} {status : String}
    (met : meet record pass (task, status) = .ok pass') (different : other ≠ task) :
    meeting other pass' = meeting other pass := by
  simp only [meet] at met
  split at met
  · split at met
    · cases met
      simp [meeting, track, different]
    · split at met
      · cases met
      · cases met
        simp [meeting, track, call, callsTo_record_other _ different, different]
        rfl
  · split at met
    · split at met
      · cases met
        simp [meeting, track, call, callsTo_record_other _ different, different]
      · split at met
        · cases met
          simp [meeting, track, different]
        · cases met
          simp [meeting, track, call, callsTo_record_other _ different, different]
          rfl
    · cases met

theorem meet_sharded : Sharded (meet record) Prod.fst meeting fun meeting listed => meeting.meet listed.2 where
  taken := by
    rintro pass pass' ⟨task, status⟩ met
    rw [← meet_own, met]
    rfl
  possible := by
    rintro pass ⟨task, status⟩ next met
    cases taken : meet record pass (task, status) with
    | error e =>
      rw [← meet_own, taken] at met
      cases met
    | ok pass' => exact ⟨pass', rfl⟩
  frame := fun met different => meet_other met different

theorem foldl_calls (step : Recorder → RootedTask → Recorder) (kinds : List Callback)
    (calls : ∀ detector task, step detector task =
      { detector with observed := detector.observed ++ kinds.map (·, task) })
    (tasks : List RootedTask) (detector : Recorder) :
    tasks.foldl step detector =
      { detector with observed := detector.observed ++ tasks.flatMap fun task => kinds.map (·, task) } := by
  induction tasks generalizing detector with
  | nil => simp
  | cons task rest ih => rw [List.foldl_cons, ih, calls, List.flatMap_cons, List.append_assoc]

theorem callsTo_flatMap (kinds : List Callback) {tasks : List RootedTask} (distinct : tasks.Nodup) (task : RootedTask) :
    callsTo task (tasks.flatMap fun task => kinds.map (·, task)) = if task ∈ tasks then kinds else [] := by
  induction tasks with
  | nil => rfl
  | cons first rest ih =>
    obtain ⟨fresh, distinct⟩ := List.nodup_cons.mp distinct
    rw [List.flatMap_cons, callsTo_append, ih distinct]
    by_cases same : first = task
    · subst same
      have mine : callsTo first (kinds.map (·, first)) = kinds := by simp [callsTo, List.filter_map, Function.comp_def]
      simp [mine, fresh]
    · have none : callsTo task (kinds.map (·, first)) = [] := by simp [callsTo, List.filter_map, Function.comp_def, same]
      have other : task ≠ first := fun h => same h.symm
      simp [none, other]

/-- The calls that a refresh makes for the tasks that it has not met. -/
def endings (scan : Scan) (pass : Pass (List (Callback × RootedTask))) : List (Callback × RootedTask) :=
  let allTasks := pass.allActive ∪ pass.allFinished
  ((scan.taskOrder.order (pass.detector.activeTasks \ allTasks)).flatMap fun task =>
      [Callback.onFinished, .onRemoved].map (·, task)) ++
    (scan.taskOrder.order (pass.detector.finishedTasks \ allTasks)).flatMap fun task => [Callback.onRemoved].map (·, task)

theorem leave_eq (scan : Scan) (pass : Pass (List (Callback × RootedTask))) :
    leave record scan pass = { pass.detector with
      activeTasks := pass.allActive
      finishedTasks := pass.allFinished
      observed := pass.detector.observed ++ endings scan pass } := by
  have first := foldl_calls (fun detector task => call record .onRemoved (call record .onFinished detector task) task)
    [.onFinished, .onRemoved] (fun detector task => by simp [call, record])
  have second := foldl_calls (call record .onRemoved) [.onRemoved] (fun _ _ => rfl)
  simp only [leave, first, second, endings, List.append_assoc]

theorem leave_own (scan : Scan) (pass : Pass (List (Callback × RootedTask))) (task : RootedTask) :
    track task (leave record scan pass) = (meeting task pass).leave := by
  rw [leave_eq]
  simp only [track, Meeting.leave, meeting, endings, callsTo_append, callsTo_flatMap _ (scan.taskOrder.nodup _),
    scan.taskOrder.mem]
  simp [not_or]

variable {scan : Scan} {detector detector' : Recorder}

theorem listed_own (start : Meeting) (task : RootedTask) :
    ((iterTasks isSpace scan (refreshDetectors scan detector)).filter (·.1 = task)).foldlM
      (fun meeting listed => meeting.meet listed.2) start = (scan.listing isSpace task).foldlM Meeting.meet start := by
  rw [← iterTasks_listing scan detector task, List.foldlM_map]

theorem meeting_start (scan : Scan) (detector : Recorder) (task : RootedTask) :
    meeting task ⟨refreshDetectors scan detector, ∅, ∅⟩ = ⟨track task detector, false, false⟩ := rfl

theorem refresh_met (refreshed : refresh record isSpace detector scan = .ok detector') :
    ∃ pass, detector' = leave record scan pass ∧ ∀ task,
      (scan.listing isSpace task).foldlM Meeting.meet ⟨track task detector, false, false⟩ = .ok (meeting task pass) := by
  rw [refresh] at refreshed
  cases ran : (iterTasks isSpace scan (refreshDetectors scan detector)).foldlM (meet record)
      ⟨refreshDetectors scan detector, ∅, ∅⟩ with
  | error e =>
    simp only [ran] at refreshed
    cases refreshed
  | ok pass =>
    simp only [ran] at refreshed
    cases refreshed
    refine ⟨pass, rfl, fun task => ?_⟩
    have own := meet_sharded.run_taken ran task
    rwa [listed_own, meeting_start] at own

theorem refresh_own (refreshed : refresh record isSpace detector scan = .ok detector') (task : RootedTask) :
    (track task detector).refresh (scan.listing isSpace task) = .ok (track task detector') := by
  obtain ⟨pass, rfl, met⟩ := refresh_met refreshed
  rw [Track.refresh, met, leave_own]
  rfl

theorem refresh_possible (all : ∀ task, ∃ next, (track task detector).refresh (scan.listing isSpace task) = .ok next) :
    ∃ detector', refresh record isSpace detector scan = .ok detector' := by
  obtain ⟨pass, ran⟩ : ∃ pass, (iterTasks isSpace scan (refreshDetectors scan detector)).foldlM (meet record)
      ⟨refreshDetectors scan detector, ∅, ∅⟩ = .ok pass := by
    apply meet_sharded.run_possible
    intro task
    obtain ⟨next, own⟩ := all task
    rw [listed_own, meeting_start]
    rw [Track.refresh] at own
    cases met : (scan.listing isSpace task).foldlM Meeting.meet ⟨track task detector, false, false⟩ with
    | error e =>
      rw [met] at own
      cases own
    | ok after => exact ⟨after, rfl⟩
  exact ⟨leave record scan pass, by simp only [refresh, ran]; rfl⟩

end Refinement

end Aurora.Thermos.Observer
