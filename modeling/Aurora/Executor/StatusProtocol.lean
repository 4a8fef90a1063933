import Aurora.Executor.OneTask

namespace Aurora.Executor

open Transition

/-- What may come later in the journal of one task: the stages of the updates grow, and after the last of them no
    runner is started. -/
def Entry.Follows : Entry → Entry → Prop
  | .sent earlier, .sent later => earlier.state.stage < later.state.stage
  | .sent earlier, .started _ => earlier.state.isTerminal = false
  | _, _ => True

/-- At most one TASK_STARTING, one TASK_RUNNING and one terminal state, in this order. -/
structure Orderly (journal : List Entry) : Prop where
  listed : ∀ update, .sent update ∈ journal → update.state.isListed = true
  ordered : journal.Pairwise Entry.Follows

def Below (stage : Nat) (journal : List Entry) : Prop := ∀ update, .sent update ∈ journal → update.state.stage < stage

section Journal

variable {journal entries : List Entry} {update : Update} {stage higher : Nat}

theorem Below.weaken (below : Below stage journal) (higher_stage : stage ≤ higher) : Below higher journal :=
  fun update sent => lt_of_lt_of_le (below update sent) higher_stage

theorem Below.sent (below : Below stage journal) (next : update.state.stage < higher) (grows : stage ≤ higher) :
    Below higher (journal ++ [.sent update]) := by
  intro other member
  rcases List.mem_append.mp member with before | added
  · exact lt_of_lt_of_le (below other before) grows
  · cases List.mem_singleton.mp added
    exact next

theorem below_three : Below 3 journal := by
  intro update sent
  unfold TaskState.stage
  split <;> decide

theorem Orderly.snoc {entry : Entry} (orderly : Orderly journal)
    (listed : ∀ update, entry = .sent update → update.state.isListed = true)
    (follows : ∀ earlier ∈ journal, earlier.Follows entry) : Orderly (journal ++ [entry]) where
  listed := by
    intro other member
    rcases List.mem_append.mp member with before | added
    · exact orderly.listed other before
    · exact listed other (List.mem_singleton.mp added).symm
  ordered := by
    refine List.pairwise_append.mpr ⟨orderly.ordered, List.pairwise_singleton _ _, ?_⟩
    intro earlier member last added
    rw [List.mem_singleton.mp added]
    exact follows earlier member

theorem Orderly.sent (orderly : Orderly journal) (below : Below update.state.stage journal)
    (listed : update.state.isListed = true) : Orderly (journal ++ [.sent update]) := by
  refine orderly.snoc (fun other same => ?_) fun earlier member => ?_
  · cases same
    exact listed
  · cases earlier with
    | sent first => exact below first member
    | created _ | started _ => trivial

theorem Orderly.started (orderly : Orderly journal) (below : Below 2 journal) (number : Nat) :
    Orderly (journal ++ [.started number]) := by
  refine orderly.snoc (fun other same => by cases same) fun earlier member => ?_
  cases earlier with
  | sent first =>
    have early := below first member
    cases ended : first.state.isTerminal with
    | false => exact ended
    | true =>
      rw [TaskState.stage_of_isTerminal ended] at early
      omega
  | created _ | started _ => trivial

theorem Orderly.created (orderly : Orderly journal) (number : Nat) : Orderly (journal ++ [.created number]) := by
  refine orderly.snoc (fun other same => by cases same) fun earlier member => ?_
  cases earlier <;> trivial

theorem Below.unsent (below : Below stage journal) (unsent : ∀ update, .sent update ∉ entries) :
    Below stage (journal ++ entries) := by
  intro other member
  rcases List.mem_append.mp member with before | added
  · exact below other before
  · exact absurd added (unsent other)

end Journal

namespace RunStep

/-- The stage that the updates have not reached while a run stands here. -/
def ceiling : RunStep → Nat
  | .announce => 0
  | .ceased => 3
  | _ => 1

end RunStep

def ManagerStep.Sound (dispatched : Bool) : ManagerStep → Prop
  | .running _ => dispatched = false
  | .unhealthy result => result.status.stage = 2
  | .stopping result runnerStatus =>
    result.status.stage = 2 ∧ ∀ status, runnerStatus = some status → status.status.isTerminal = true
  | .poll | .ceased => True

namespace StatusManager

variable (manager : StatusManager)

def ceiling : Nat :=
  match manager.next with
  | .ceased => 3
  | _ => if manager.runningCallbackDispatched then 2 else 1

/-- What its place says about the results that a manager carries. -/
def Sound : Prop := manager.next.Sound manager.runningCallbackDispatched

end StatusManager

namespace AuroraExecutor

/-- The only launch is the first, and `runner_aborted` is not set where `_start_runner` looks at it. -/
def Unaborted (executor : AuroraExecutor) (event : Event) : Prop :=
  (∀ task, event = .launchTask task → executor.launched = false) ∧
    ∀ run, event = .checkAborted run → executor.runnerAborted = false

structure Paced (executor : AuroraExecutor) : Prop where
  orderly : Orderly executor.journal
  own : ∀ update, .sent update ∈ executor.journal → executor.taskId = some update.taskId
  runs : ∀ run ∈ executor.runs, Below run.next.ceiling executor.journal
  managers : ∀ manager ∈ executor.managers, Below manager.ceiling executor.journal ∧ manager.Sound

section Steps

variable {own : String} {aborted : Bool} {place moved : RunStep} {entries journal : List Entry}

theorem Advance.paced (advance : Advance own false place entries moved) (orderly : Orderly journal)
    (below : Below place.ceiling journal) : Orderly (journal ++ entries) ∧ Below moved.ceiling (journal ++ entries) := by
  cases advance with
  | announced => exact ⟨orderly.sent below rfl, below.sent Nat.zero_lt_one (by decide)⟩
  | killed message abort => cases abort
  | died place state message opened terminal =>
    have last : state.stage = 2 := TaskState.stage_of_isTerminal terminal
    have early : Below 1 journal := by
      cases place with
      | announce => exact absurd rfl opened.1
      | ceased => exact absurd rfl opened.2
      | _ => exact below
    have listed : state.isListed = true := by
      cases state with
      | unlisted _ => cases terminal
      | _ => rfl
    have reached : 1 ≤ state.stage := by omega
    exact ⟨orderly.sent (early.weaken reached) listed, below_three⟩
  | created number => exact ⟨orderly.created number, below.unsent (by simp)⟩
  | started number => exact ⟨orderly.started (below.weaken (by decide)) number, below.unsent (by simp)⟩
  | ended place =>
    rw [List.append_nil]
    exact ⟨orderly, below.weaken (by cases place <;> decide)⟩
  | prepared | provided | recognized | checked | called | up =>
    rw [List.append_nil]
    exact ⟨orderly, below⟩

theorem StatusManager.ceiling_of_open {manager : StatusManager} (still : manager.next ≠ .ceased) :
    manager.ceiling = if manager.runningCallbackDispatched then 2 else 1 := by
  unfold StatusManager.ceiling
  cases at_place : manager.next with
  | ceased => exact absurd at_place still
  | _ => rfl

theorem StatusManager.ceiling_le {manager : StatusManager} (still : manager.next ≠ .ceased) : manager.ceiling ≤ 2 := by
  rw [ceiling_of_open still]
  split <;> decide

theorem react_open (dispatched : Bool) (complete : Option StatusResult) :
    StatusManager.react dispatched complete ≠ .ceased := by
  unfold StatusManager.react
  repeat' split
  all_goals simp

theorem react_sound (dispatched : Bool) (complete : Option StatusResult) :
    (StatusManager.react dispatched complete).Sound dispatched := by
  unfold StatusManager.react
  split
  · trivial
  next result =>
    cases reported : result.status with
    | starting => trivial
    | running => cases dispatched <;> trivial
    | _ =>
      show result.status.stage = 2
      rw [reported]
      rfl

theorem Managed.paced {manager after : StatusManager} (managed : Managed own manager entries after)
    (orderly : Orderly journal) (below : Below manager.ceiling journal) (sound : manager.Sound) :
    Orderly (journal ++ entries) ∧ Below after.ceiling (journal ++ entries) ∧ after.Sound := by
  cases managed with
  | polled chained complete polling next reaction =>
    subst reaction
    rw [List.append_nil]
    refine ⟨orderly, below.weaken ?_, react_sound _ _⟩
    rw [StatusManager.ceiling_of_open (by simp [polling]), StatusManager.ceiling_of_open (react_open _ _)]
  | announced result message due =>
    have first : manager.runningCallbackDispatched = false := by simpa [StatusManager.Sound, ManagerStep.Sound, due] using sound
    have early : Below 1 journal := by
      rw [StatusManager.ceiling_of_open (by simp [due]), first] at below
      exact below
    exact ⟨orderly.sent early rfl, early.sent Nat.one_lt_two one_le_two, trivial⟩
  | stopping result runnerStatus due terminal =>
    have ended : result.status.stage = 2 := by simpa [StatusManager.Sound, ManagerStep.Sound, due] using sound
    rw [List.append_nil]
    refine ⟨orderly, below.weaken ?_, ended, terminal⟩
    rw [StatusManager.ceiling_of_open (by simp [due]), StatusManager.ceiling_of_open (by simp)]
  | finished result runnerStatus message due listed =>
    have ended : result.status.stage = 2 ∧ ∀ status, runnerStatus = some status → status.status.isTerminal = true := by
      simpa [StatusManager.Sound, ManagerStep.Sound, due] using sound
    have last : (runnerStatus.getD result).status.stage = 2 := by
      cases runnerStatus with
      | none => exact ended.1
      | some status => exact TaskState.stage_of_isTerminal (ended.2 status rfl)
    have early : Below 2 journal := below.weaken (StatusManager.ceiling_le (by simp [due]))
    refine ⟨orderly.sent (early.weaken (le_of_eq last.symm)) listed, below_three, trivial⟩
  | ended open_ended =>
    rw [List.append_nil]
    exact ⟨orderly, below_three, trivial⟩

theorem Advance.nothing_of_over (advance : Advance own aborted place entries moved) (ceased : place = .ceased) :
    entries = [] := by
  cases advance with
  | died place state message opened terminal => exact absurd ceased opened.2
  | ended _ => rfl
  | _ => cases ceased

end Steps

section Runs

variable {executor next : AuroraExecutor} {event : Event}

theorem Unaborted.guarded (unaborted : Unaborted executor event) : Guarded executor event := by
  intro task launch launched
  rw [unaborted.1 task launch] at launched
  cases launched

theorem Solo.hasRunner (solo : Solo executor) (held : executor.hasRunner = true) : executor.launched = true := by
  cases solo with
  | idle | accepted task => cases held
  | going _ begun => exact begun.launched

theorem Solo.accepted_of_due {task : TaskInfo} (solo : Solo executor) (due : executor.callback = some (.launch task)) :
    executor = { launched := true, callback := some (.launch task) } := by
  cases solo with
  | idle => cases due
  | accepted task =>
    cases due
    rfl
  | going _ begun => exact absurd due (begun.settled task)

theorem Solo.threads (solo : Solo executor) (busy : executor.runs ≠ [] ∨ executor.managers ≠ []) :
    ∃ run, executor.runs = [run] ∧ (run.next ≠ .ceased → executor.managers = []) ∧ executor.managers.length ≤ 1 := by
  cases solo with
  | idle | accepted task => simp at busy
  | going _ begun =>
    rcases begun.threads with ⟨runs, managers, -⟩ | ⟨run, runs, alone, few, -⟩
    · simp [runs, managers] at busy
    · exact ⟨run, runs, alone, few⟩

theorem getElem?_singleton {α : Type} {number : Nat} {only found : α} (at_number : [only][number]? = some found) :
    number = 0 ∧ only = found := by
  cases number with
  | zero => exact ⟨rfl, Option.some.inj at_number⟩
  | succ number => cases at_number

section Journal

variable {after : AuroraExecutor} {entries : List Entry}

theorem Paced.own_kept (paced : Paced executor) (owned : executor.taskId = some executor.ownId)
    (kept : Kept executor after) (journal : after.journal = executor.journal ++ entries)
    (own : ∀ update, .sent update ∈ entries → update.taskId = executor.ownId) :
    ∀ update, .sent update ∈ after.journal → after.taskId = some update.taskId := by
  intro update sent
  rw [journal] at sent
  rw [kept.taskId]
  rcases List.mem_append.mp sent with before | added
  · exact paced.own update before
  · rw [owned, own update added]

theorem Paced.ran (solo : Solo executor) (paced : Paced executor) {number : Nat} {run : Run} {place : RunStep}
    (found : executor.runs[number]? = some run) (advance : Advance executor.ownId false run.next entries place)
    (kept : Kept executor after) (journal : after.journal = executor.journal ++ entries)
    (runs : after.runs = executor.runs.set number ⟨run.task, place⟩)
    (managers : after.managers = executor.managers ∨
      run.next = .monitor ∧ entries = [] ∧ ∃ runner, after.managers = executor.managers ++ [{ runner := runner }]) :
    Paced after := by
  obtain ⟨only, single, alone, few⟩ := solo.threads (.inl (ne_nil_of_getElem? found))
  rw [single] at found runs
  obtain ⟨rfl, rfl⟩ := getElem?_singleton found
  have owned := ownId_of_isSome (solo.owned (.inl (by simp [single])))
  have below := paced.runs only (by simp [single])
  have stepped := advance.paced paced.orderly below
  rw [← journal] at stepped
  refine ⟨stepped.1, paced.own_kept owned kept journal fun update sent => advance.own sent, fun run member => ?_,
    fun manager member => ?_⟩
  · rw [runs] at member
    cases List.mem_singleton.mp member
    exact stepped.2
  · rcases managers with same | ⟨last, silent, runner, added⟩
    · rw [same] at member
      have ceased : only.next = .ceased := by
        by_contra still
        rw [alone still] at member
        cases member
      rw [journal, advance.nothing_of_over ceased, List.append_nil]
      exact paced.managers manager member
    · rw [added, alone (by simp [last])] at member
      cases List.mem_singleton.mp member
      rw [journal, silent, List.append_nil]
      rw [last] at below
      exact ⟨below, trivial⟩

/-- A manager advances, which is the only one, once the run is over. -/
theorem Paced.managed (solo : Solo executor) (paced : Paced executor) {number : Nat} {manager moved : StatusManager}
    (found : executor.managers[number]? = some manager) (managed : Managed executor.ownId manager entries moved)
    (kept : Kept executor after) (journal : after.journal = executor.journal ++ entries)
    (runs : after.runs = executor.runs) (managers : after.managers = executor.managers.set number moved) :
    Paced after := by
  obtain ⟨only, single, alone, few⟩ := solo.threads (.inr (ne_nil_of_getElem? found))
  have ceased : only.next = .ceased := by
    by_contra still
    rw [alone still] at found
    cases found
  have owned := ownId_of_isSome (solo.owned (.inl (by simp [single])))
  have before := paced.managers manager (List.mem_of_getElem? found)
  have stepped := managed.paced paced.orderly before.1 before.2
  rw [← journal] at stepped
  refine ⟨stepped.1, paced.own_kept owned kept journal fun update sent => managed.own sent, fun run member => ?_,
    fun other member => ?_⟩
  · rw [runs, single] at member
    cases List.mem_singleton.mp member
    rw [ceased]
    exact below_three
  · obtain ⟨one, alone_manager⟩ : ∃ one, executor.managers = [one] := by
      rw [← List.length_eq_one_iff]
      have := (List.getElem?_eq_some_iff.mp found).1
      omega
    rw [alone_manager] at found
    obtain ⟨rfl, rfl⟩ := getElem?_singleton found
    rw [managers, alone_manager] at member
    cases List.mem_singleton.mp member
    exact stepped.2

end Journal

theorem Paced.moved (solo : Solo executor) (paced : Paced executor) (unaborted : Unaborted executor event)
    (moved : Moved executor event next) : Paced next := by
  cases moved with
  | declined task idle held =>
    have launched := solo.hasRunner held
    rw [unaborted.1 task rfl] at launched
    cases launched
  | accepted task idle free => exact ⟨paced.orderly, paced.own, paced.runs, paced.managers⟩
  | signalled event callback idle owned other quiet => exact ⟨paced.orderly, paced.own, paced.runs, paced.managers⟩
  | resumed aborted killReason due busy => exact ⟨paced.orderly, paced.own, paced.runs, paced.managers⟩
  | launched task due =>
    cases solo.accepted_of_due due
    exact ⟨paced.orderly, by simp, by simp [Below], by simp⟩
  | malformed task due =>
    cases solo.accepted_of_due due
    refine ⟨paced.orderly.sent (by simp [Below]) rfl, ?_, by simp [sendUpdate], by simp [sendUpdate]⟩
    intro update sent
    cases List.mem_singleton.mp sent
    rfl
  | ran event number run entries moved after aborted checked found advance kept journal runs managers =>
    have unkilled : aborted = false := by
      cases abort : aborted with
      | false => rfl
      | true =>
        have unset := unaborted.2 number (checked abort).1
        rw [(checked abort).2] at unset
        cases unset
    subst unkilled
    exact paced.ran solo found advance kept journal runs managers
  | managed event number manager moved entries after found advance kept journal runs managers =>
    exact paced.managed solo found (advance solo.statuses) kept journal runs managers

variable {events : List Event} {final : AuroraExecutor}

/-- The updates of the one task come in order unless `_start_runner` finds the abort flag set, and what comes after
    a terminal update starts no runner. -/
theorem status_protocol (unaborted : Along step Unaborted {} events) (reached : run step {} events = some final) :
    Orderly final.journal ∧ ∀ update, .sent update ∈ final.journal → final.taskId = some update.taskId := by
  have both : Solo final ∧ Paced final := by
    refine @invariant _ _ _ _ (fun executor => Solo executor ∧ Paced executor) _ _ _ ?_ ⟨.idle, ?_⟩ unaborted reached
    · rintro executor event next ⟨solo, paced⟩ allowed taken
      have moved := step_moved taken
      exact ⟨solo.moved allowed.guarded moved, paced.moved solo allowed moved⟩
    · exact ⟨⟨by simp, .nil⟩, by simp, by simp, by simp⟩
  exact ⟨both.2.orderly, both.2.own⟩

instance (executor : AuroraExecutor) (event : Event) : Decidable (Unaborted executor event) :=
  match event with
  | .launchTask task => decidable_of_iff (executor.launched = false)
      ⟨fun first => ⟨fun _ _ => first, fun _ same => by cases same⟩, fun unaborted => unaborted.1 task rfl⟩
  | .checkAborted run => decidable_of_iff (executor.runnerAborted = false)
      ⟨fun unset => ⟨fun _ same => by (cases same), fun _ _ => unset⟩, fun unaborted => unaborted.2 run rfl⟩
  | .killTask _ | .shutdown | .resume | .announce _ | .initializeSandbox _ _ | .fromAssignedTask _ _ | .recognize _
  | .startRunner _ | .runnerStarted _ _ | .startStatusManager _ _ | .poll _ _ _ | .signalRunning _ | .unhealthy _ _
  | .stopped _ _ => isTrue ⟨fun _ same => by (cases same), fun _ same => by cases same⟩

private def killed : List Event :=
  [.launchTask { taskId := "a" }, .resume, .announce 0, .initializeSandbox 0 .created, .fromAssignedTask 0 .taskRunner,
    .recognize 0, .checkAborted 0, .startRunner 0, .runnerStarted 0 .started, .startStatusManager 0 .started,
    .poll 0 {} [some ⟨"Task is healthy.", .running⟩], .signalRunning 0, .killTask "a", .resume,
    .poll 0 {} [some ⟨"Task is healthy.", .running⟩], .unhealthy 0 {}, .stopped 0 true]

theorem status_protocol_killed : ∃ final, run step {} killed = some final ∧
    final.journal = [.sent ⟨"a", .starting, none⟩, .created 0, .started 0,
      .sent ⟨"a", .running, some "Task is healthy."⟩, .sent ⟨"a", .killed, some "Instructed to kill task."⟩] ∧
    Orderly final.journal ∧ ∀ update, .sent update ∈ final.journal → final.taskId = some update.taskId := by
  have reached : (run step {} killed).isSome = true := by decide
  obtain ⟨final, reached⟩ := Option.isSome_iff_exists.mp reached
  refine ⟨final, reached, ?_, status_protocol (by decide) reached⟩
  have journal : (run step {} killed).map AuroraExecutor.journal = some [.sent ⟨"a", .starting, none⟩, .created 0,
      .started 0, .sent ⟨"a", .running, some "Task is healthy."⟩,
      .sent ⟨"a", .killed, some "Instructed to kill task."⟩] := by decide
  rw [reached] at journal
  exact Option.some.inj journal

private def killedEarly : List Event :=
  [.launchTask { taskId := "a" }, .resume, .announce 0, .killTask "a", .resume, .initializeSandbox 0 .created,
    .fromAssignedTask 0 .taskRunner, .recognize 0, .checkAborted 0, .startRunner 0, .runnerStarted 0 .started,
    .startStatusManager 0 .started, .poll 0 {} [some ⟨"Task is healthy.", .running⟩], .signalRunning 0]

theorem killed_task_runs : ∃ final, run step {} killedEarly = some final ∧
    final.journal = [.sent ⟨"a", .starting, none⟩, .created 0,
      .sent ⟨"a", .killed, some "Task killed during initialization."⟩, .started 0,
      .sent ⟨"a", .running, some "Task is healthy."⟩] ∧ ¬ Orderly final.journal := by
  refine ⟨_, rfl, by decide, fun orderly => ?_⟩
  have ordered : ([.sent ⟨"a", .starting, none⟩, .created 0,
      .sent ⟨"a", .killed, some "Task killed during initialization."⟩, .started 0,
      .sent ⟨"a", .running, some "Task is healthy."⟩] : List Entry).Pairwise Entry.Follows := orderly.ordered
  simp [Entry.Follows, TaskState.isTerminal] at ordered

end Runs

end AuroraExecutor

end Aurora.Executor
