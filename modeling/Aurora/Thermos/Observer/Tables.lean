import Aurora.Thermos.Observer.Lifecycle
import Aurora.Thermos.Observer.TaskObserver

namespace Aurora.Thermos.Observer

open Collections ObserverTaskDetector

structure Entry where
  active : Bool
  finished : Bool

def TaskObserver.entry (taskId : String) (observer : TaskObserver) : Entry :=
  ⟨taskId ∈ observer.activeTasks.keys, taskId ∈ observer.finishedTasks.keys⟩

def Entry.handle (entry : Entry) : Callback → Entry
  | .onActive => if entry.finished then entry else { entry with active := true }
  | .onFinished => ⟨false, true⟩
  | .onRemoved => ⟨false, false⟩

def callsOf (taskId : String) (calls : List (Callback × RootedTask)) : List Callback :=
  (calls.filter (·.2.taskId = taskId)).map Prod.fst

theorem callsOf_append (taskId : String) (calls more : List (Callback × RootedTask)) :
    callsOf taskId (calls ++ more) = callsOf taskId calls ++ callsOf taskId more := by
  rw [callsOf, List.filter_append, List.map_append]
  rfl

theorem mem_callsOf (taskId : String) (kind : Callback) (calls : List (Callback × RootedTask)) :
    kind ∈ callsOf taskId calls ↔ ∃ root, kind ∈ callsTo ⟨root, taskId⟩ calls := by
  simp only [callsOf, callsTo, List.mem_map, List.mem_filter, decide_eq_true_eq]
  constructor
  · rintro ⟨⟨kind, root, taskId⟩, ⟨member, rfl⟩, rfl⟩
    exact ⟨root, _, ⟨member, rfl⟩, rfl⟩
  · rintro ⟨root, ⟨kind, task⟩, ⟨member, rfl⟩, rfl⟩
    exact ⟨_, ⟨member, rfl⟩, rfl⟩

section Entries

variable {entry : Entry} {kinds : List Callback}

theorem handle_entry_self (kind : Callback) (task : RootedTask) (observer : TaskObserver) :
    (observer.handle kind task).entry task.taskId = (observer.entry task.taskId).handle kind := by
  cases kind with
  | onActive =>
    by_cases finished : task.taskId ∈ observer.finishedTasks.keys
    · simp [TaskObserver.handle, TaskObserver.onActive, TaskObserver.entry, Entry.handle, finished]
    · simp [TaskObserver.handle, TaskObserver.onActive, TaskObserver.entry, Entry.handle, finished, Dict.mem_keys]
  | onFinished => simp [TaskObserver.handle, TaskObserver.onFinished, TaskObserver.entry, Entry.handle, Dict.mem_keys, Dict.get?_erase]
  | onRemoved => simp [TaskObserver.handle, TaskObserver.onRemoved, TaskObserver.entry, Entry.handle, Dict.mem_keys, Dict.get?_erase]

theorem handle_entry_other (kind : Callback) {task : RootedTask} {taskId : String} (other : taskId ≠ task.taskId)
    (observer : TaskObserver) : (observer.handle kind task).entry taskId = observer.entry taskId := by
  cases kind with
  | onActive =>
    simp only [TaskObserver.handle, TaskObserver.onActive]
    split
    · rfl
    · simp [TaskObserver.entry, Dict.mem_keys, Dict.get?_set, other]
  | onFinished =>
    simp [TaskObserver.handle, TaskObserver.onFinished, TaskObserver.entry, Dict.mem_keys, Dict.get?_erase, Dict.get?_set, other]
  | onRemoved => simp [TaskObserver.handle, TaskObserver.onRemoved, TaskObserver.entry, Dict.mem_keys, Dict.get?_erase, other]

theorem foldl_entry (taskId : String) (calls : List (Callback × RootedTask)) (observer : TaskObserver) :
    (calls.foldl (fun observer call => TaskObserver.handle call.1 call.2 observer) observer).entry taskId =
      (callsOf taskId calls).foldl Entry.handle (observer.entry taskId) := by
  induction calls generalizing observer with
  | nil => rfl
  | cons call rest ih =>
    obtain ⟨kind, task⟩ := call
    rw [List.foldl_cons, ih]
    by_cases mine : task.taskId = taskId
    · subst mine
      rw [handle_entry_self, callsOf, callsOf, List.filter_cons_of_pos (by simp), List.map_cons, List.foldl_cons]
    · rw [handle_entry_other kind fun same => mine same.symm, callsOf, callsOf, List.filter_cons_of_neg (by simpa using mine)]

theorem foldl_not_both (notBoth : ¬(entry.active ∧ entry.finished)) (kinds : List Callback) :
    ¬((kinds.foldl Entry.handle entry).active ∧ (kinds.foldl Entry.handle entry).finished) := by
  induction kinds generalizing entry with
  | nil => exact notBoth
  | cons kind rest ih =>
    apply ih
    cases kind with
    | onActive =>
      rw [Entry.handle]
      split
      · exact notBoth
      · rename_i unfinished
        simpa using unfinished
    | onFinished => simp [Entry.handle]
    | onRemoved => simp [Entry.handle]

theorem foldl_removed (kinds : List Callback) (entry : Entry) :
    (kinds ++ [Callback.onRemoved]).foldl Entry.handle entry = ⟨false, false⟩ := by
  rw [List.foldl_append]
  rfl

theorem foldl_stays_finished (kept : Callback.onRemoved ∉ kinds) :
    kinds.foldl Entry.handle ⟨false, true⟩ = ⟨false, true⟩ := by
  induction kinds with
  | nil => rfl
  | cons kind rest ih =>
    rw [List.mem_cons, not_or] at kept
    cases kind with
    | onActive => exact ih kept.2
    | onFinished => exact ih kept.2
    | onRemoved => exact absurd rfl kept.1

theorem foldl_finished (entry : Entry) (finished : Callback.onFinished ∈ kinds) (kept : Callback.onRemoved ∉ kinds) :
    kinds.foldl Entry.handle entry = ⟨false, true⟩ := by
  obtain ⟨before, after, rfl⟩ := List.append_of_mem finished
  rw [List.foldl_append, List.foldl_cons]
  apply foldl_stays_finished
  intro removed
  exact kept (List.mem_append_right _ (List.mem_cons_of_mem _ removed))

theorem handle_onActive_twice (entry : Entry) : (entry.handle .onActive).handle .onActive = entry.handle .onActive := by
  obtain ⟨active, finished⟩ := entry
  cases active <;> cases finished <;> rfl

theorem foldl_active (entry : Entry) (active : ∀ kind ∈ kinds, kind = .onActive) (any : kinds ≠ []) :
    kinds.foldl Entry.handle entry = entry.handle .onActive := by
  induction kinds generalizing entry with
  | nil => exact absurd rfl any
  | cons kind rest ih =>
    obtain ⟨rfl, later⟩ := List.forall_mem_cons.mp active
    rw [List.foldl_cons]
    by_cases last : rest = []
    · rw [last]
      rfl
    · rw [ih _ later last, handle_onActive_twice]

end Entries

section Step

variable {isSpace : Char → Bool} {before after : List String} {scan : Scan} {detector next : Recorder} {taskId : String}

/-- A listing of a task that is not moved meanwhile. -/
def SingleListed (listing : List String) : Prop := listing = [] ∨ listing = ["active"] ∨ listing = ["finished"]

/-- A task that finished is not active again before it was absent. -/
def Moves (before after : List String) : Prop := before = ["finished"] → after ≠ ["active"]

/-- What a refresh calls for a task is nothing if it stays, an activation, a finish or a removal. -/
theorem emitted_cases {track : Track} (singleBefore : SingleListed before) (singleAfter : SingleListed after)
    (moves : Moves before after)
    (refreshed : Track.refresh ⟨"active" ∈ before, "finished" ∈ before, []⟩ after = .ok track) :
    (before = after ∧ track.calls = []) ∨
      (before = [] ∧ after = ["active"] ∧ track.calls = [.onActive]) ∨
      (before ≠ ["finished"] ∧ after = ["finished"] ∧ .onFinished ∈ track.calls ∧ .onRemoved ∉ track.calls) ∨
      (before ≠ [] ∧ after = [] ∧ .onRemoved ∈ track.calls) := by
  rcases singleBefore with rfl | rfl | rfl
  · rcases singleAfter with rfl | rfl | rfl <;> cases refreshed <;> simp [Meeting.leave]
  · rcases singleAfter with rfl | rfl | rfl <;> cases refreshed <;> simp [Meeting.leave]
  · rcases singleAfter with rfl | rfl | rfl
    · cases refreshed
      simp [Meeting.leave]
    · exact absurd rfl (moves rfl)
    · cases refreshed
      simp [Meeting.leave]

theorem refresh_new (refreshed : refresh record isSpace detector scan = .ok next) :
    ∃ new, refresh record isSpace { detector with observed := [] } scan = .ok new ∧
      next.observed = detector.observed ++ new.observed := by
  have same : ∀ kind task calls, record kind task (detector.observed ++ calls) = detector.observed ++ record kind task calls :=
    fun kind task calls => List.append_assoc _ _ _
  have mapped := refresh_map same isSpace { detector with observed := [] } scan
  rw [show ObserverTaskDetector.map (detector.observed ++ ·) { detector with observed := [] } = detector by
    simp [ObserverTaskDetector.map], refreshed] at mapped
  cases new : refresh record isSpace { detector with observed := [] } scan with
  | error e =>
    rw [new] at mapped
    cases mapped
  | ok new' =>
    rw [new] at mapped
    cases mapped
    exact ⟨new', rfl, rfl⟩

def EndsRemoved (kinds : List Callback) : Prop := kinds = [] ∨ ∃ front, kinds = front ++ [.onRemoved]

theorem EndsRemoved.append {kinds more : List Callback} (ends : EndsRemoved kinds) (endsMore : EndsRemoved more) :
    EndsRemoved (kinds ++ more) := by
  rcases endsMore with rfl | ⟨front, rfl⟩
  · rwa [List.append_nil]
  · exact .inr ⟨kinds ++ front, (List.append_assoc _ _ _).symm⟩

theorem flatMap_endsRemoved {kinds : List Callback} (ends : EndsRemoved kinds) (tasks : List RootedTask) :
    EndsRemoved (callsOf taskId (tasks.flatMap fun task => kinds.map (·, task))) := by
  induction tasks with
  | nil => exact .inl rfl
  | cons task rest ih =>
    rw [List.flatMap_cons, callsOf_append]
    apply EndsRemoved.append _ ih
    by_cases mine : task.taskId = taskId
    · have all : callsOf taskId (kinds.map (·, task)) = kinds := by
        simp [callsOf, List.filter_map, Function.comp_def, mine]
      rwa [all]
    · exact .inl (by simp [callsOf, List.filter_map, Function.comp_def, mine])

theorem endings_endsRemoved (scan : Scan) (pass : Pass (List (Callback × RootedTask))) :
    EndsRemoved (callsOf taskId (endings scan pass)) := by
  rw [endings, callsOf_append]
  exact (flatMap_endsRemoved (.inr ⟨[.onFinished], rfl⟩) _).append (flatMap_endsRemoved (.inr ⟨[], rfl⟩) _)

theorem met_not_removed {track : Track} {met : Meeting} (single : SingleListed after) (none : track.calls = [])
    (ran : after.foldlM Meeting.meet ⟨track, false, false⟩ = .ok met) : .onRemoved ∉ met.track.calls := by
  obtain ⟨active, finished, calls⟩ := track
  cases none
  rcases single with rfl | rfl | rfl <;> cases active <;> cases finished <;> cases ran <;> simp

theorem removed_last (single : ∀ task, SingleListed (scan.listing isSpace task)) (fresh : detector.observed = [])
    (refreshed : refresh record isSpace detector scan = .ok next)
    (removed : .onRemoved ∈ callsOf taskId next.observed) :
    ∃ front, callsOf taskId next.observed = front ++ [.onRemoved] := by
  obtain ⟨pass, rfl, met⟩ := refresh_met refreshed
  have unmet : .onRemoved ∉ callsOf taskId pass.detector.observed := by
    intro member
    obtain ⟨root, called⟩ := (mem_callsOf _ _ _).mp member
    have noCalls : (track ⟨root, taskId⟩ detector).calls = [] := by
      simp [track, fresh, callsTo]
    exact met_not_removed (single _) noCalls (met ⟨root, taskId⟩) called
  have observed : (leave record scan pass).observed = pass.detector.observed ++ endings scan pass := by
    rw [leave_eq]
  rw [observed, callsOf_append] at removed ⊢
  rcases endings_endsRemoved scan pass with none | ⟨front, ends⟩
  · rw [none, List.append_nil] at removed
    exact absurd removed unmet
  · exact ⟨callsOf taskId pass.detector.observed ++ front, by rw [ends, List.append_assoc]⟩

end Step

/-- An entry is right for the listings of its task id under the roots. -/
structure Entry.Matches (listing : String → List String) (entry : Entry) : Prop where
  active : entry.active ↔ ∃ root, listing root = ["active"]
  finished : entry.finished ↔ ∃ root, listing root = ["finished"]

section Rooted

variable {before after : String → List String} {calls : String → List Callback} {kinds : List Callback} {entry : Entry}

/-- What a refresh calls for a task id is what it calls under each root, and a removal comes last. -/
structure Emitted (before after : String → List String) (calls : String → List Callback) (kinds : List Callback) : Prop where
  mem : ∀ kind, kind ∈ kinds ↔ ∃ root, kind ∈ calls root
  cases : ∀ root, (before root = after root ∧ calls root = []) ∨
    (before root = [] ∧ after root = ["active"] ∧ calls root = [.onActive]) ∨
    (before root ≠ ["finished"] ∧ after root = ["finished"] ∧ .onFinished ∈ calls root ∧ .onRemoved ∉ calls root) ∨
    (before root ≠ [] ∧ after root = [] ∧ .onRemoved ∈ calls root)
  last : .onRemoved ∈ kinds → ∃ front, kinds = front ++ [.onRemoved]

theorem Emitted.removed (emitted : Emitted before after calls kinds) :
    .onRemoved ∈ kinds ↔ ∃ root, before root ≠ [] ∧ after root = [] := by
  rw [emitted.mem]
  constructor
  · rintro ⟨root, called⟩
    rcases emitted.cases root with ⟨-, none⟩ | ⟨-, -, one⟩ | ⟨-, -, -, kept⟩ | ⟨known, gone, -⟩
    · rw [none] at called
      cases called
    · rw [one] at called
      simp at called
    · exact absurd called kept
    · exact ⟨root, known, gone⟩
  · rintro ⟨root, known, gone⟩
    rcases emitted.cases root with ⟨same, -⟩ | ⟨unknown, -⟩ | ⟨-, finished, -⟩ | ⟨-, -, called⟩
    · exact absurd (same.trans gone) known
    · exact absurd unknown known
    · rw [gone] at finished
      cases finished
    · exact ⟨root, called⟩

theorem Emitted.matches_removed (emitted : Emitted before after calls kinds) (removed : .onRemoved ∈ kinds) :
    kinds.foldl Entry.handle entry = ⟨false, false⟩ := by
  obtain ⟨front, rfl⟩ := emitted.last removed
  exact foldl_removed front entry

theorem Emitted.finished (emitted : Emitted before after calls kinds) {root : String} (unfinished : before root ≠ ["finished"])
    (now : after root = ["finished"]) : .onFinished ∈ kinds := by
  rw [emitted.mem]
  rcases emitted.cases root with ⟨same, -⟩ | ⟨-, active, -⟩ | ⟨-, -, called, -⟩ | ⟨-, gone, -⟩
  · exact absurd (same.trans now) unfinished
  · rw [now] at active
    simp at active
  · exact ⟨root, called⟩
  · rw [now] at gone
    cases gone

theorem Emitted.quiet (emitted : Emitted before after calls kinds) (kept : ∀ root, ¬(before root ≠ [] ∧ after root = []))
    (unfinished : ∀ root, ¬(before root ≠ ["finished"] ∧ after root = ["finished"])) (root : String) :
    (before root = after root ∧ calls root = []) ∨
      (before root = [] ∧ after root = ["active"] ∧ calls root = [.onActive]) := by
  rcases emitted.cases root with same | new | ⟨before, now, -⟩ | ⟨known, gone, -⟩
  · exact .inl same
  · exact .inr new
  · exact absurd ⟨before, now⟩ (unfinished root)
  · exact absurd ⟨known, gone⟩ (kept root)

theorem Emitted.matches_quiet (emitted : Emitted before after calls kinds) (right : entry.Matches before)
    (oneState : ∀ root other, ¬(after root = ["active"] ∧ after other = ["finished"]))
    (quiet : ∀ root, (before root = after root ∧ calls root = []) ∨
      (before root = [] ∧ after root = ["active"] ∧ calls root = [.onActive])) :
    (kinds.foldl Entry.handle entry).Matches after := by
  by_cases new : ∃ root, before root = [] ∧ after root = ["active"] ∧ calls root = [.onActive]
  · obtain ⟨root, -, active, called⟩ := new
    have onlyActive : ∀ kind ∈ kinds, kind = .onActive := by
      intro kind member
      obtain ⟨other, made⟩ := (emitted.mem kind).mp member
      rcases quiet other with ⟨-, none⟩ | ⟨-, -, one⟩
      · rw [none] at made
        cases made
      · rw [one] at made
        exact List.mem_singleton.mp made
    have any : kinds ≠ [] := List.ne_nil_of_mem ((emitted.mem .onActive).mpr ⟨root, by simp [called]⟩)
    have noneFinished : ∀ other, after other ≠ ["finished"] := fun other finished => oneState root other ⟨active, finished⟩
    have unfinished : entry.finished = false := by
      rw [Bool.eq_false_iff]
      intro finished
      obtain ⟨other, before⟩ := right.finished.mp finished
      rcases quiet other with ⟨same, -⟩ | ⟨absent, -⟩
      · exact noneFinished other (same ▸ before)
      · rw [before] at absent
        cases absent
    rw [foldl_active entry onlyActive any, Entry.handle, unfinished]
    exact ⟨by simpa using ⟨root, active⟩, by simp [noneFinished]⟩
  · have stays : ∀ root, before root = after root ∧ calls root = [] := by
      intro root
      exact (quiet root).resolve_right fun one => new ⟨root, one⟩
    have none : kinds = [] := by
      rw [List.eq_nil_iff_forall_not_mem]
      intro kind member
      obtain ⟨root, made⟩ := (emitted.mem kind).mp member
      rw [(stays root).2] at made
      cases made
    have same : before = after := funext fun root => (stays root).1
    rw [none, ← same]
    exact right

theorem Emitted.matches (emitted : Emitted before after calls kinds) (right : entry.Matches before)
    (oneState : ∀ root other, ¬(after root = ["active"] ∧ after other = ["finished"]))
    (nowhereElse : ∀ root other, before root ≠ [] → after root = [] → after other = []) :
    (kinds.foldl Entry.handle entry).Matches after := by
  by_cases removed : .onRemoved ∈ kinds
  · obtain ⟨root, known, gone⟩ := emitted.removed.mp removed
    have empty : ∀ other, after other = [] := fun other => nowhereElse root other known gone
    rw [emitted.matches_removed removed]
    exact ⟨by simp [empty], by simp [empty]⟩
  · have kept : ∀ root, ¬(before root ≠ [] ∧ after root = []) := fun root gone => removed (emitted.removed.mpr ⟨root, gone⟩)
    by_cases finished : ∃ root, before root ≠ ["finished"] ∧ after root = ["finished"]
    · obtain ⟨root, unfinished, now⟩ := finished
      have noneActive : ∀ other, after other ≠ ["active"] := fun other active => oneState other root ⟨active, now⟩
      rw [foldl_finished entry (emitted.finished unfinished now) removed]
      exact ⟨by simp [noneActive], by simpa using ⟨root, now⟩⟩
    · exact emitted.matches_quiet right oneState
        (emitted.quiet kept fun root finish => finished ⟨root, finish⟩)

end Rooted

section Runs

variable {isSpace : Char → Bool} {scans : List Scan} {scan : Scan} {detector next : Recorder}

def Scan.SingleListed (isSpace : Char → Bool) (scan : Scan) : Prop :=
  ∀ task, Observer.SingleListed (scan.listing isSpace task)

def Scan.Moves (isSpace : Char → Bool) (before after : Scan) : Prop :=
  ∀ task, Observer.Moves (before.listing isSpace task) (after.listing isSpace task)

/-- No task id is active under one root and finished under another. -/
def Scan.OneState (isSpace : Char → Bool) (scan : Scan) : Prop :=
  ∀ taskId root other, ¬(scan.listing isSpace ⟨root, taskId⟩ = ["active"] ∧ scan.listing isSpace ⟨other, taskId⟩ = ["finished"])

/-- A task id that is gone from a root is nowhere else. -/
def Scan.NowhereElse (isSpace : Char → Bool) (before after : Scan) : Prop :=
  ∀ taskId root other, before.listing isSpace ⟨root, taskId⟩ ≠ [] → after.listing isSpace ⟨root, taskId⟩ = [] →
    after.listing isSpace ⟨other, taskId⟩ = []

/-- After these scans, the tables have just the task ids that the last one found under some root. -/
def TablesMatch (isSpace : Char → Bool) (scans : List Scan) : Prop :=
  ∃ observer, TaskObserver.run isSpace scans = .ok observer ∧ ∀ taskId,
    (taskId ∈ observer.activeTasks.keys ↔ ∃ root, lastListing isSpace scans ⟨root, taskId⟩ = ["active"]) ∧
      (taskId ∈ observer.finishedTasks.keys ↔ ∃ root, lastListing isSpace scans ⟨root, taskId⟩ = ["finished"])

def handled (calls : List (Callback × RootedTask)) : TaskObserver :=
  calls.foldl (fun observer call => TaskObserver.handle call.1 call.2 observer) .init

theorem run_handled (isSpace : Char → Bool) (scans : List Scan) :
    TaskObserver.run isSpace scans = (fun detector => handled detector.observed) <$> refreshes record isSpace [] scans := by
  have same : ∀ kind task calls, TaskObserver.handle kind task (handled calls) = handled (record kind task calls) := by
    intro kind task calls
    rw [record, handled, handled, List.foldl_append]
    rfl
  have mapped := refreshes_map same isSpace [] scans
  rw [TaskObserver.run, show TaskObserver.init = handled [] from rfl, mapped]
  cases refreshes record isSpace [] scans <;> rfl

theorem entry_handled (taskId : String) (calls : List (Callback × RootedTask)) :
    (handled calls).entry taskId = (callsOf taskId calls).foldl Entry.handle ⟨false, false⟩ :=
  foldl_entry taskId calls .init

theorem tablesMatch_iff (ran : refreshes record isSpace [] scans = .ok detector) :
    TablesMatch isSpace scans ↔
      ∀ taskId, ((handled detector.observed).entry taskId).Matches fun root => lastListing isSpace scans ⟨root, taskId⟩ := by
  rw [TablesMatch, run_handled, ran]
  constructor
  · rintro ⟨_, ⟨⟩, right⟩ taskId
    exact ⟨by simpa [TaskObserver.entry] using (right taskId).1, by simpa [TaskObserver.entry] using (right taskId).2⟩
  · intro right
    refine ⟨_, rfl, fun taskId => ⟨?_, ?_⟩⟩
    · simpa [TaskObserver.entry] using (right taskId).active
    · simpa [TaskObserver.entry] using (right taskId).finished

theorem refresh_emitted (singleBefore : ∀ task, Observer.SingleListed (lastListing isSpace scans task))
    (single : scan.SingleListed isSpace)
    (moves : ∀ task, Observer.Moves (lastListing isSpace scans task) (scan.listing isSpace task))
    (placed : Placed isSpace scans detector) (refreshed : refresh record isSpace detector scan = .ok next) (taskId : String) :
    ∃ new calls, next.observed = detector.observed ++ new ∧
      Emitted (fun root => lastListing isSpace scans ⟨root, taskId⟩) (fun root => scan.listing isSpace ⟨root, taskId⟩)
        calls (callsOf taskId new) := by
  obtain ⟨fresh, ran, observed⟩ := refresh_new refreshed
  refine ⟨fresh.observed, fun root => callsTo ⟨root, taskId⟩ fresh.observed, observed, ?_, ?_, ?_⟩
  · intro kind
    exact mem_callsOf taskId kind fresh.observed
  · intro root
    have own := refresh_own ran ⟨root, taskId⟩
    have start : track ⟨root, taskId⟩ { detector with observed := [] } =
        ⟨"active" ∈ lastListing isSpace scans ⟨root, taskId⟩, "finished" ∈ lastListing isSpace scans ⟨root, taskId⟩, []⟩ := by
      have whole := placed ⟨root, taskId⟩
      rw [track, Track.at, Track.mk.injEq] at whole
      rw [track, whole.1, whole.2.1]
      rfl
    rw [start] at own
    exact emitted_cases (singleBefore _) (single _) (moves _) own
  · exact removed_last single rfl ran

theorem inOrder_of_moves {before after : List String} (singleBefore : Observer.SingleListed before)
    (singleAfter : Observer.SingleListed after) (moves : Observer.Moves before after) : InOrder before after := by
  constructor
  · rcases singleBefore with rfl | rfl | rfl <;> simp
  · intro finished
    have other := moves finished
    rcases singleAfter with rfl | rfl | rfl
    · simp
    · exact absurd rfl other
    · simp

theorem placed_of_moves (single : ∀ scan ∈ scans, scan.SingleListed isSpace) (moves : scans.IsChain (Scan.Moves isSpace)) :
    ∃ detector, refreshes record isSpace [] scans = .ok detector ∧ Placed isSpace scans detector := by
  apply placed_of_chain
  · intro scan member task
    rcases single scan member task with empty | active | finished
    · exact .inl empty
    · exact .inr (.inl active)
    · exact .inr (.inr (.inl finished))
  · rw [List.isChain_iff_forall_rel_of_append_cons_cons] at moves ⊢
    intro before after past rest whole task
    exact inOrder_of_moves (single before (by simp [whole]) task) (single after (by simp [whole]) task) (moves whole task)

theorem placed_of_ran (single : ∀ scan ∈ scans, scan.SingleListed isSpace) (moves : scans.IsChain (Scan.Moves isSpace))
    (ran : refreshes record isSpace [] scans = .ok detector) : Placed isSpace scans detector := by
  obtain ⟨detector', ran', placed⟩ := placed_of_moves single moves
  rw [ran] at ran'
  cases ran'
  exact placed

theorem lastListing_single (single : ∀ scan ∈ scans, scan.SingleListed isSpace) (task : RootedTask) :
    Observer.SingleListed (lastListing isSpace scans task) := by
  rw [lastListing]
  cases last : scans.getLast? with
  | none => exact .inl rfl
  | some scan => exact single scan (List.mem_of_getLast? last) task

theorem entry_concat (single : ∀ listed ∈ scans ++ [scan], listed.SingleListed isSpace)
    (moves : (scans ++ [scan]).IsChain (Scan.Moves isSpace)) (ran : refreshes record isSpace [] (scans ++ [scan]) = .ok next)
    (taskId : String) :
    ∃ detector kinds calls, refreshes record isSpace [] scans = .ok detector ∧
      Emitted (fun root => lastListing isSpace scans ⟨root, taskId⟩) (fun root => scan.listing isSpace ⟨root, taskId⟩) calls kinds ∧
      (handled next.observed).entry taskId = kinds.foldl Entry.handle ((handled detector.observed).entry taskId) := by
  have singleBefore : ∀ scan ∈ scans, scan.SingleListed isSpace := fun scan member => single scan (List.mem_append_left _ member)
  obtain ⟨movesBefore, -, joined⟩ := List.isChain_append.mp moves
  obtain ⟨detector, ranBefore, refreshed⟩ := refreshes_of_concat ran
  have movesNow : ∀ task, Observer.Moves (lastListing isSpace scans task) (scan.listing isSpace task) := by
    intro task
    rw [lastListing]
    cases last : scans.getLast? with
    | none => simp [Observer.Moves]
    | some before => exact joined before last scan rfl task
  obtain ⟨new, calls, observed, emitted⟩ := refresh_emitted (lastListing_single singleBefore) (single scan (by simp)) movesNow
    (placed_of_ran singleBefore movesBefore ranBefore) refreshed taskId
  refine ⟨detector, callsOf taskId new, calls, ranBefore, emitted, ?_⟩
  rw [entry_handled, entry_handled, observed, callsOf_append, List.foldl_append]

theorem tables_right (single : ∀ scan ∈ scans, scan.SingleListed isSpace) (moves : scans.IsChain (Scan.Moves isSpace))
    (oneState : ∀ scan ∈ scans, scan.OneState isSpace) (nowhereElse : scans.IsChain (Scan.NowhereElse isSpace))
    (ran : refreshes record isSpace [] scans = .ok detector) (taskId : String) :
    ((handled detector.observed).entry taskId).Matches fun root => lastListing isSpace scans ⟨root, taskId⟩ := by
  induction scans using List.reverseRecOn generalizing detector with
  | nil =>
    cases ran
    constructor <;> simp [entry_handled, callsOf, lastListing, init]
  | append_singleton scans scan ih =>
    obtain ⟨before, kinds, calls, ranBefore, emitted, entry⟩ := entry_concat single moves ran taskId
    obtain ⟨nowhereBefore, -, joined⟩ := List.isChain_append.mp nowhereElse
    have right := ih (fun scan member => single scan (List.mem_append_left _ member)) moves.left_of_append
      (fun scan member => oneState scan (List.mem_append_left _ member)) nowhereBefore ranBefore
    simp only [lastListing_concat, entry]
    apply emitted.matches right
    · intro root other
      exact oneState scan (by simp) taskId root other
    · intro root other
      rw [lastListing]
      cases last : scans.getLast? with
      | none => simp
      | some before => exact joined before last scan rfl taskId root other

end Runs

section Roots

/-- A scan of two roots that both have the task id, in these states. -/
def scanBoth (first second : String) : Scan :=
  scanWith {"/a", "/b"} fun root => if root = "/a" then [first] else [second]

variable {first second : String}

theorem scanBoth_listing (knownFirst : first = "active" ∨ first = "finished") (knownSecond : second = "active" ∨ second = "finished")
    (task : RootedTask) : (scanBoth first second).listing Char.isWhitespace task =
      if task.root ∈ ({"/a", "/b"} : Finset String) ∧ task.taskId = "task" then
        if task.root = "/a" then [first] else [second]
      else [] :=
  scanWith_listing (fun root => by split <;> simpa) task

theorem scanBoth_singleListed (knownFirst : first = "active" ∨ first = "finished")
    (knownSecond : second = "active" ∨ second = "finished") : (scanBoth first second).SingleListed Char.isWhitespace := by
  intro task
  rw [scanBoth_listing knownFirst knownSecond]
  split
  · split
    · rcases knownFirst with rfl | rfl <;> simp [SingleListed]
    · rcases knownSecond with rfl | rfl <;> simp [SingleListed]
  · simp [SingleListed]

theorem scanBoth_moves : (scanBoth "active" "active").Moves Char.isWhitespace (scanBoth first second) := by
  intro task
  rw [scanBoth_listing (.inl rfl) (.inl rfl)]
  split
  · split <;> simp [Moves]
  · simp [Moves]

theorem scanBoth_oneState {state : String} (known : state = "active" ∨ state = "finished") :
    (scanBoth state state).OneState Char.isWhitespace := by
  rintro taskId root other ⟨active, finished⟩
  rw [scanBoth_listing known known] at active finished
  simp only [ite_self] at active finished
  split at active
  · split at finished
    · rw [active] at finished
      simp at finished
    · cases finished
  · cases active

end Roots

end Aurora.Thermos.Observer
