import Aurora.Thermos.Observer.Tracks
import Mathlib.Data.List.Sort
import Mathlib.Data.List.Chain
import Mathlib.Data.Prod.Lex
import Mathlib.Data.String.Basic

namespace Aurora.Thermos.Observer

open Collections ObserverTaskDetector

inductive Phase
  | absent
  | active
  | finished
  deriving DecidableEq

def Phase.progress : Phase → Nat
  | .absent => 0
  | .active => 1
  | .finished => 2

def phase (listing : List String) : Phase :=
  match listing.getLast? with
  | none => .absent
  | some status => if status = "active" then .active else .finished

structure Lifetimes where
  ended : Nat
  phase : Phase

/-- A task that goes back has begun anew. -/
def Lifetimes.next (lifetimes : Lifetimes) (phase : Phase) : Lifetimes where
  ended := if phase.progress < lifetimes.phase.progress then lifetimes.ended + 1 else lifetimes.ended
  phase := phase

def lifetimes (listings : List (List String)) : Lifetimes :=
  listings.foldl (fun lifetimes listing => lifetimes.next (phase listing)) ⟨0, .absent⟩

def lifecycle : List Callback := [.onActive, .onFinished, .onRemoved]

def Lifetimes.calls (lifetimes : Lifetimes) : List Callback :=
  (List.replicate lifetimes.ended lifecycle).flatten ++ lifecycle.take lifetimes.phase.progress

/-- The ways in which a scan lists a task. -/
def WellListed (listing : List String) : Prop :=
  listing = [] ∨ listing = ["active"] ∨ listing = ["finished"] ∨ listing = ["active", "finished"]

/-- The listing before is not a double one, and a task that finished is not active after it. -/
def InOrder (before after : List String) : Prop :=
  before ≠ ["active", "finished"] ∧ (before = ["finished"] → "active" ∉ after)

def Track.at (listing : List String) (lifetimes : Lifetimes) : Track :=
  ⟨"active" ∈ listing, "finished" ∈ listing, lifetimes.calls⟩

variable {before after : List String} {lived : Lifetimes}

def Track.preceded (calls : List Callback) (track : Track) : Track := { track with calls := calls ++ track.calls }

theorem meet_preceded (calls : List Callback) (meeting : Meeting) (status : String) :
    Meeting.meet { meeting with track := meeting.track.preceded calls } status =
      (fun next : Meeting => { next with track := next.track.preceded calls }) <$> meeting.meet status := by
  obtain ⟨⟨active, finished, made⟩, metActive, metFinished⟩ := meeting
  simp only [Meeting.meet, Track.preceded]
  split
  · cases active with
    | true => cases finished <;> rfl
    | false =>
      cases finished with
      | true => rfl
      | false => simp
  · split
    · cases active <;> cases finished <;> simp
    · rfl

/-- The calls made before do not matter to a refresh. -/
theorem refresh_preceded (calls : List Callback) (track : Track) (listing : List String) :
    (track.preceded calls).refresh listing = Track.preceded calls <$> track.refresh listing := by
  have met := Shards.foldlM_map (fun met : Meeting => { met with track := met.track.preceded calls })
    (meet_preceded calls) listing ⟨track, false, false⟩
  rw [Track.refresh, Track.refresh, met]
  cases listing.foldlM Meeting.meet ⟨track, false, false⟩ with
  | error e => rfl
  | ok met =>
    simp [Meeting.leave, Track.preceded, Functor.map, Except.map]

theorem at_eq_preceded (listing : List String) (lived : Lifetimes) :
    Track.at listing lived = Track.preceded lived.calls ⟨"active" ∈ listing, "finished" ∈ listing, []⟩ := by
  simp [Track.at, Track.preceded]

theorem refresh_at {emitted : List Callback} {next : Lifetimes}
    (fresh : Track.refresh ⟨"active" ∈ before, "finished" ∈ before, []⟩ after =
      .ok ⟨"active" ∈ after, "finished" ∈ after, emitted⟩) :
    (Track.at before lived).refresh after = .ok (Track.at after next) ↔ next.calls = lived.calls ++ emitted := by
  rw [at_eq_preceded, refresh_preceded, fresh, Track.at]
  constructor
  · intro same
    exact (congrArg Track.calls (Except.ok.inj same)).symm
  · intro called
    rw [called]
    rfl

theorem refresh_in_order (wellBefore : WellListed before) (wellAfter : WellListed after) (inOrder : InOrder before after)
    (placed : lived.phase = phase before) :
    (Track.at before lived).refresh after = .ok (Track.at after (lived.next (phase after))) := by
  obtain ⟨ended, now⟩ := lived
  cases placed
  rcases wellBefore with rfl | rfl | rfl | rfl
  · rcases wellAfter with rfl | rfl | rfl | rfl <;>
      exact (refresh_at rfl).mpr (by simp [Lifetimes.next, Lifetimes.calls, phase, Phase.progress, lifecycle])
  · rcases wellAfter with rfl | rfl | rfl | rfl <;>
      exact (refresh_at rfl).mpr
        (by simp [Lifetimes.next, Lifetimes.calls, phase, Phase.progress, List.replicate_succ', lifecycle])
  · have notActive := inOrder.2 rfl
    rcases wellAfter with rfl | rfl | rfl | rfl
    · exact (refresh_at rfl).mpr
        (by simp [Lifetimes.next, Lifetimes.calls, phase, Phase.progress, List.replicate_succ', lifecycle])
    · simp at notActive
    · exact (refresh_at rfl).mpr (by simp [Lifetimes.next, Lifetimes.calls, phase, Phase.progress, lifecycle])
    · simp at notActive
  · exact absurd rfl inOrder.1

theorem calls_length (lived : Lifetimes) : lived.calls.length = 3 * lived.ended + lived.phase.progress := by
  have three : lifecycle.length = 3 := rfl
  cases progress : lived.phase <;> simp [Lifetimes.calls, progress, Phase.progress, three, Nat.mul_comm]

-- after a double listing the task is in both of the detector's sets, and any further scan calls too much or too little
theorem refresh_out_of_order (wellAfter : WellListed after) (outOfOrder : ¬ InOrder before after)
    (placed : lived.phase = phase before) :
    (Track.at before lived).refresh after ≠ .ok (Track.at after (lived.next (phase after))) := by
  obtain ⟨ended, now⟩ := lived
  cases placed
  by_cases double : before = ["active", "finished"]
  · subst double
    intro same
    rcases wellAfter with rfl | rfl | rfl | rfl <;>
      · have longer := congrArg List.length ((refresh_at rfl).mp same)
        simp [calls_length, Lifetimes.next, phase, Phase.progress] at longer <;> omega
  · have again : before = ["finished"] ∧ "active" ∈ after := by
      by_contra fine
      exact outOfOrder ⟨double, fun finished active => fine ⟨finished, active⟩⟩
    obtain ⟨rfl, active⟩ := again
    rcases wellAfter with rfl | rfl | rfl | rfl
    · simp at active
    · rintro ⟨⟩
    · simp at active
    · rintro ⟨⟩

/-- What a detector has of a task after a refresh does not depend on what it had before. -/
theorem refresh_listed {track next : Track} (well : WellListed after) (refreshed : track.refresh after = .ok next) :
    next.active = ("active" ∈ after : Bool) ∧ next.finished = ("finished" ∈ after : Bool) := by
  obtain ⟨active, finished, calls⟩ := track
  rcases well with rfl | rfl | rfl | rfl <;> cases active <;> cases finished <;> cases refreshed <;> exact ⟨rfl, rfl⟩

def listings (isSpace : Char → Bool) (scans : List Scan) (task : RootedTask) : List (List String) :=
  scans.map fun scan => scan.listing isSpace task

def Scan.WellListed (isSpace : Char → Bool) (scan : Scan) : Prop :=
  ∀ task, Observer.WellListed (scan.listing isSpace task)

def Scan.InOrder (isSpace : Char → Bool) (before after : Scan) : Prop :=
  ∀ task, Observer.InOrder (before.listing isSpace task) (after.listing isSpace task)

/-- After these scans, the observer has called the lifecycle of each task as far as its lifetimes went. -/
def CalledBack (isSpace : Char → Bool) (scans : List Scan) : Prop :=
  ∃ detector, refreshes record isSpace [] scans = .ok detector ∧
    ∀ task, callsTo task detector.observed = (lifetimes (listings isSpace scans task)).calls

section Runs

variable {isSpace : Char → Bool} {scans : List Scan} {scan : Scan} {detector : Recorder}

theorem refreshes_concat {σ : Type} (callback : Callback → RootedTask → σ → σ) (observed : σ) (scans : List Scan) (scan : Scan) :
    refreshes callback isSpace observed (scans ++ [scan]) =
      refreshes callback isSpace observed scans >>= fun detector => refresh callback isSpace detector scan := by
  rw [refreshes, List.foldlM_append]
  congr
  funext detector
  rw [List.foldlM_cons]
  cases refresh callback isSpace detector scan <;> rfl

theorem lifetimes_concat (listings : List (List String)) (listing : List String) :
    lifetimes (listings ++ [listing]) = (lifetimes listings).next (phase listing) := by
  rw [lifetimes, List.foldl_append]
  rfl

def lastListing (isSpace : Char → Bool) (scans : List Scan) (task : RootedTask) : List String :=
  (scans.getLast?.map fun scan => scan.listing isSpace task).getD []

theorem lastListing_concat (scans : List Scan) (scan : Scan) (task : RootedTask) :
    lastListing isSpace (scans ++ [scan]) task = scan.listing isSpace task := by
  rw [lastListing, List.getLast?_concat]
  rfl

theorem lifetimes_listings_concat (scans : List Scan) (scan : Scan) (task : RootedTask) :
    lifetimes (listings isSpace (scans ++ [scan]) task) =
      (lifetimes (listings isSpace scans task)).next (phase (scan.listing isSpace task)) := by
  rw [listings, List.map_append, List.map_singleton, lifetimes_concat]
  rfl

theorem lifetimes_phase (scans : List Scan) (task : RootedTask) :
    (lifetimes (listings isSpace scans task)).phase = phase (lastListing isSpace scans task) := by
  induction scans using List.reverseRecOn with
  | nil => rfl
  | append_singleton scans scan ih =>
    rw [lifetimes_listings_concat, lastListing_concat]
    rfl

theorem lastListing_well (well : ∀ scan ∈ scans, scan.WellListed isSpace) (task : RootedTask) :
    WellListed (lastListing isSpace scans task) := by
  rw [lastListing]
  cases last : scans.getLast? with
  | none => exact .inl rfl
  | some scan => exact well scan (List.mem_of_getLast? last) task

def Placed (isSpace : Char → Bool) (scans : List Scan) (detector : Recorder) : Prop :=
  ∀ task, track task detector = .at (lastListing isSpace scans task) (lifetimes (listings isSpace scans task))

theorem refreshes_of_concat {next : Recorder} (ran : refreshes record isSpace [] (scans ++ [scan]) = .ok next) :
    ∃ detector, refreshes record isSpace [] scans = .ok detector ∧ refresh record isSpace detector scan = .ok next := by
  rw [refreshes_concat] at ran
  cases first : refreshes record isSpace [] scans with
  | error e =>
    rw [first] at ran
    cases ran
  | ok detector =>
    rw [first] at ran
    exact ⟨detector, rfl, ran⟩

theorem placed_of_called (well : ∀ scan ∈ scans, scan.WellListed isSpace)
    (ran : refreshes record isSpace [] scans = .ok detector)
    (called : ∀ task, callsTo task detector.observed = (lifetimes (listings isSpace scans task)).calls) :
    Placed isSpace scans detector := by
  intro task
  have calls : (track task detector).calls = (lifetimes (listings isSpace scans task)).calls := called task
  rw [Track.at, ← calls]
  induction scans using List.reverseRecOn with
  | nil =>
    cases ran
    rfl
  | append_singleton scans scan _ =>
    obtain ⟨past, -, refreshed⟩ := refreshes_of_concat ran
    obtain ⟨active, finished⟩ := refresh_listed (well scan (by simp) task) (refresh_own refreshed task)
    rw [lastListing_concat, ← active, ← finished]

theorem placed_concat (well : ∀ scan ∈ scans, scan.WellListed isSpace) (wellNext : scan.WellListed isSpace)
    (placed : Placed isSpace scans detector)
    (inOrder : ∀ last, scans.getLast? = some last → last.InOrder isSpace scan) :
    ∃ next, refresh record isSpace detector scan = .ok next ∧ Placed isSpace (scans ++ [scan]) next := by
  have moved : ∀ task, (track task detector).refresh (scan.listing isSpace task) =
      .ok (.at (lastListing isSpace (scans ++ [scan]) task) (lifetimes (listings isSpace (scans ++ [scan]) task))) := by
    intro task
    rw [placed, lastListing_concat, lifetimes_listings_concat]
    apply refresh_in_order (lastListing_well well task) (wellNext task) _ (lifetimes_phase scans task)
    rw [lastListing]
    cases last : scans.getLast? with
    | none => exact ⟨by simp, by simp⟩
    | some scan => exact inOrder scan last task
  obtain ⟨next, refreshed⟩ := refresh_possible fun task => ⟨_, moved task⟩
  exact ⟨next, refreshed, fun task => Except.ok.inj ((refresh_own refreshed task).symm.trans (moved task))⟩

theorem placed_of_chain (well : ∀ scan ∈ scans, scan.WellListed isSpace) (chain : scans.IsChain (Scan.InOrder isSpace)) :
    ∃ detector, refreshes record isSpace [] scans = .ok detector ∧ Placed isSpace scans detector := by
  induction scans using List.reverseRecOn with
  | nil => exact ⟨init [], rfl, fun task => rfl⟩
  | append_singleton scans scan ih =>
    have wellBefore : ∀ scan ∈ scans, scan.WellListed isSpace := fun scan member => well scan (by simp [member])
    obtain ⟨chained, -, joined⟩ := List.isChain_append.mp chain
    obtain ⟨detector, ran, placed⟩ := ih wellBefore chained
    obtain ⟨next, refreshed, placedNext⟩ := placed_concat wellBefore (well scan (by simp)) placed
      fun last isLast => joined last isLast scan rfl
    exact ⟨next, by rw [refreshes_concat, ran]; exact refreshed, placedNext⟩

/-- The observer calls back as a task lives just if no scan but the last lists a task twice, and none lists a task as
    active right after it had finished. -/
theorem task_callbacks (isSpace : Char → Bool) (scans : List Scan) (well : ∀ scan ∈ scans, scan.WellListed isSpace) :
    (∀ past, past <+: scans → CalledBack isSpace past) ↔ scans.IsChain (Scan.InOrder isSpace) := by
  constructor
  · intro called
    rw [List.isChain_iff_forall_rel_of_append_cons_cons]
    intro before after past rest whole task
    have wellBoth : ∀ scan ∈ past ++ [before] ++ [after], scan.WellListed isSpace := by
      intro scan member
      exact well scan (by rw [whole]; simp only [List.mem_append, List.mem_cons] at member ⊢; tauto)
    have wellPast : ∀ scan ∈ past ++ [before], scan.WellListed isSpace :=
      fun scan member => wellBoth scan (List.mem_append_left _ member)
    obtain ⟨detector, ran, callsBefore⟩ := called (past ++ [before]) ⟨after :: rest, by simp [whole]⟩
    obtain ⟨next, ranNext, callsAfter⟩ := called (past ++ [before] ++ [after]) ⟨rest, by simp [whole]⟩
    have placedBefore := placed_of_called wellPast ran callsBefore task
    have placedAfter := placed_of_called wellBoth ranNext callsAfter task
    obtain ⟨detector', ran', refreshed⟩ := refreshes_of_concat ranNext
    rw [ran] at ran'
    cases ran'
    have own := refresh_own refreshed task
    rw [placedBefore, placedAfter, lastListing_concat, lastListing_concat, lifetimes_listings_concat _ after] at own
    by_contra outOfOrder
    have placed := @lifetimes_phase isSpace (past ++ [before]) task
    rw [lastListing_concat] at placed
    exact refresh_out_of_order (wellBoth after (by simp) task) outOfOrder placed own
  · rintro chain past ⟨rest, rfl⟩
    obtain ⟨detector, ran, placed⟩ := placed_of_chain (fun scan member => well scan (by simp [member])) chain.left_of_append
    exact ⟨detector, ran, fun task => congrArg Track.calls (placed task)⟩

end Runs

instance : LinearOrder RootedTask :=
  LinearOrder.lift' (fun task => toLex (task.root, task.taskId)) fun a b same => by
    obtain ⟨root, taskId⟩ := a
    cases b
    cases same
    rfl

-- by insertion, as the kernel can run that
def Iteration.sorted {α : Type} [LinearOrder α] : Iteration α where
  order s := Quot.liftOn s.val (List.insertionSort (· ≤ ·)) fun a b perm =>
    (((List.perm_insertionSort _ a).trans perm).trans (List.perm_insertionSort _ b).symm).eq_of_sortedLE
      a.sortedLE_insertionSort b.sortedLE_insertionSort
  nodup := by
    rintro ⟨s, nodup⟩
    induction s using Quot.ind with
    | mk list => exact (List.perm_insertionSort _ list).nodup_iff.mpr nodup
  mem := by
    rintro ⟨s, nodup⟩ a
    induction s using Quot.ind with
    | mk list => exact (List.perm_insertionSort _ list).mem_iff

def scanWith (paths : Finset String) (states : String → List String) : Scan where
  paths := paths
  glob root := (states root).map fun state => (state, "task")
  pathOrder := .sorted
  taskOrder := .sorted

theorem scanWith_listing {paths : Finset String} {states : String → List String}
    (known : ∀ root, ∀ state ∈ states root, state = "active" ∨ state = "finished") (task : RootedTask) :
    (scanWith paths states).listing Char.isWhitespace task =
      if task.root ∈ paths ∧ task.taskId = "task" then states task.root else [] := by
  obtain ⟨root, taskId⟩ := task
  have matched : ∀ state ∈ states root, groups Char.isWhitespace (state, "task") = some (state, "task") := by
    intro state member
    rcases known root state member with rfl | rfl <;> decide
  have listed : ((scanWith paths states).glob root).filterMap (groups Char.isWhitespace) =
      (states root).map fun state => (state, "task") := by
    rw [scanWith, List.filterMap_map, ← List.filterMap_eq_map]
    exact List.filterMap_congr matched
  rw [Scan.listing, TaskDetector.getTaskIds, listed]
  by_cases here : root ∈ paths
  · by_cases same : "task" = taskId
    · subst same
      simp [scanWith, here, List.filter_map, Function.comp_def]
    · have other : taskId ≠ "task" := fun h => same h.symm
      simp [scanWith, here, same, other, List.filter_eq_nil_iff]
  · simp [scanWith, here]

def scanOf (states : List String) : Scan := scanWith {"/var/run/thermos"} fun _ => states

theorem scanOf_listing {states : List String} (well : WellListed states) (task : RootedTask) :
    (scanOf states).listing Char.isWhitespace task =
      if task.root ∈ ({"/var/run/thermos"} : Finset String) ∧ task.taskId = "task" then states else [] :=
  scanWith_listing (fun _ => by rcases well with rfl | rfl | rfl | rfl <;> simp) task

theorem scanOf_wellListed {states : List String} (well : WellListed states) :
    (scanOf states).WellListed Char.isWhitespace := by
  intro task
  rw [scanOf_listing well]
  split
  · exact well
  · exact .inl rfl

theorem scanOf_inOrder {before after : List String} (wellBefore : WellListed before) (wellAfter : WellListed after)
    (inOrder : InOrder before after) : (scanOf before).InOrder Char.isWhitespace (scanOf after) := by
  intro task
  rw [scanOf_listing wellBefore, scanOf_listing wellAfter]
  split
  · exact inOrder
  · simp [InOrder]

theorem task_callbacks_removed :
    CalledBack Char.isWhitespace [scanOf ["active"], scanOf ["finished"], scanOf []] := by
  have well : ∀ scan ∈ [scanOf ["active"], scanOf ["finished"], scanOf []], scan.WellListed Char.isWhitespace := by
    simp only [List.mem_cons, List.not_mem_nil, or_false, forall_eq_or_imp, forall_eq]
    exact ⟨scanOf_wellListed (by simp [WellListed]), scanOf_wellListed (by simp [WellListed]),
      scanOf_wellListed (by simp [WellListed])⟩
  apply (task_callbacks Char.isWhitespace _ well).mpr _ _ (List.prefix_rfl)
  rw [List.isChain_cons_cons, List.isChain_cons_cons]
  exact ⟨scanOf_inOrder (by simp [WellListed]) (by simp [WellListed]) (by simp [InOrder]),
    scanOf_inOrder (by simp [WellListed]) (by simp [WellListed]) (by simp [InOrder]), List.isChain_singleton _⟩

/-- A task that is moved while its scan is under way is finished twice. -/
theorem moved_task_finished_twice :
    (∀ scan ∈ [scanOf ["active", "finished"], scanOf ["finished"]], scan.WellListed Char.isWhitespace) ∧
      ((refreshes record Char.isWhitespace [] [scanOf ["active", "finished"], scanOf ["finished"]]).toOption.map
        fun detector => callsTo ⟨"/var/run/thermos", "task"⟩ detector.observed) =
          some [.onActive, .onFinished, .onFinished] ∧
      ¬ CalledBack Char.isWhitespace [scanOf ["active", "finished"], scanOf ["finished"]] := by
  have twice : ((refreshes record Char.isWhitespace [] [scanOf ["active", "finished"], scanOf ["finished"]]).toOption.map
      fun detector => callsTo ⟨"/var/run/thermos", "task"⟩ detector.observed) =
        some [.onActive, .onFinished, .onFinished] := by
    decide +kernel
  refine ⟨?_, twice, ?_⟩
  · simp only [List.mem_cons, List.not_mem_nil, or_false, forall_eq_or_imp, forall_eq]
    exact ⟨scanOf_wellListed (by simp [WellListed]), scanOf_wellListed (by simp [WellListed])⟩
  · rintro ⟨detector, ran, called⟩
    rw [ran] at twice
    have calls := (called ⟨"/var/run/thermos", "task"⟩).symm.trans (Option.some.inj twice)
    revert calls
    decide +kernel

end Aurora.Thermos.Observer
