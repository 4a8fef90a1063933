import Aurora.Executor.Moves

namespace Aurora.Executor

open Transition

def Entry.isCreated : Entry → Bool
  | .created _ => true
  | _ => false

def Entry.isStarted : Entry → Bool
  | .started _ => true
  | _ => false

namespace RunStep

/-- How many runners a run that stands here can have made. -/
def creations : RunStep → Nat
  | .announce | .sandbox | .provide => 0
  | _ => 1

def starts : RunStep → Nat
  | .announce | .sandbox | .provide | .recognize | .check | .start => 0
  | _ => 1

end RunStep

namespace AuroraExecutor

/-- A launch after the first finds `self._runner` set. -/
def Guarded (executor : AuroraExecutor) (event : Event) : Prop :=
  ∀ task, event = .launchTask task → executor.launched = true → executor.hasRunner = true

section Solo

variable {executor next : AuroraExecutor} {event : Event}

/-- The journal holds no more than a run at this place accounts for. -/
def Accounts (creations starts : Nat) (journal : List Entry) : Prop :=
  journal.countP Entry.isCreated ≤ creations ∧ journal.countP Entry.isStarted ≤ starts

theorem Accounts.sent {creations starts : Nat} {journal : List Entry} {update : Update}
    (accounts : Accounts creations starts journal) : Accounts creations starts (journal ++ [.sent update]) := by
  unfold Accounts at *
  simpa [List.countP_append, Entry.isCreated, Entry.isStarted] using accounts

theorem Accounts.weaken {creations creations' starts starts' : Nat} {journal : List Entry}
    (accounts : Accounts creations starts journal) (created : creations ≤ creations') (started : starts ≤ starts') :
    Accounts creations' starts' journal :=
  ⟨accounts.1.trans created, accounts.2.trans started⟩

structure Going (executor : AuroraExecutor) : Prop where
  launched : executor.launched = true
  settled : ∀ task, executor.callback ≠ some (.launch task)
  owned : executor.taskId.isSome = true
  statuses : executor.TerminalRunners
  threads : (executor.runs = [] ∧ executor.managers = [] ∧ Accounts 0 0 executor.journal) ∨
    ∃ run, executor.runs = [run] ∧ (run.next ≠ .ceased → executor.managers = []) ∧ executor.managers.length ≤ 1 ∧
      Accounts run.next.creations run.next.starts executor.journal

inductive Solo : AuroraExecutor → Prop
  | idle : Solo {}
  | accepted (task : TaskInfo) : Solo { launched := true, callback := some (.launch task) }
  | going (executor : AuroraExecutor) (going : Going executor) : Solo executor

theorem Advance.accounts {own : String} {aborted : Bool} {place moved : RunStep} {entries journal : List Entry}
    (advance : Advance own aborted place entries moved) (accounts : Accounts place.creations place.starts journal) :
    Accounts moved.creations moved.starts (journal ++ entries) := by
  cases advance with
  | announced | killed _ _ => exact accounts.sent
  | died place state message opened terminal =>
    exact accounts.sent.weaken (by cases place <;> decide) (by cases place <;> decide)
  | ended place =>
    rw [List.append_nil]
    exact accounts.weaken (by cases place <;> decide) (by cases place <;> decide)
  | prepared | provided | recognized | checked | called | up =>
    rw [List.append_nil]
    exact accounts.weaken (by decide) (by decide)
  | created number =>
    unfold Accounts at *
    simpa [List.countP_append, Entry.isCreated, Entry.isStarted, RunStep.creations, RunStep.starts] using accounts
  | started number =>
    unfold Accounts at *
    simpa [List.countP_append, Entry.isCreated, Entry.isStarted, RunStep.creations, RunStep.starts] using accounts

theorem Managed.accounts {own : String} {manager moved : StatusManager} {entries journal : List Entry}
    {creations starts : Nat} (managed : Managed own manager entries moved)
    (accounts : Accounts creations starts journal) : Accounts creations starts (journal ++ entries) := by
  cases managed with
  | announced _ _ _ | finished _ _ _ _ _ => exact accounts.sent
  | polled _ _ _ _ _ | stopping _ _ _ _ | ended _ => rwa [List.append_nil]

theorem Advance.open_of_open {own : String} {aborted : Bool} {place moved : RunStep} {entries : List Entry}
    (advance : Advance own aborted place entries moved) (still : moved ≠ .ceased) : place ≠ .ceased := by
  cases advance with
  | died _ _ _ _ _ | ended _ => exact absurd rfl still
  | _ => decide

theorem Advance.over_of_monitor {own : String} {aborted : Bool} {place moved : RunStep} {entries : List Entry}
    (advance : Advance own aborted place entries moved) (last : place = .monitor) : moved = .ceased := by
  cases advance with
  | died _ _ _ _ _ | ended _ => rfl
  | _ => cases last

theorem idle_moved (moved : Moved {} event next) : Solo next := by
  cases moved with
  | declined task idle held => cases held
  | accepted task idle free => exact .accepted task
  | signalled event callback idle owned other quiet =>
    rcases owned with rfl | owned
    · exact .idle
    · cases owned
  | resumed aborted killReason due busy => cases busy
  | launched task due => cases due
  | malformed task due => cases due
  | ran event number run entries moved after aborted checked found => cases found
  | managed event number manager moved entries after found => cases found

theorem accepted_moved {task : TaskInfo}
    (moved : Moved { launched := true, callback := some (.launch task) } event next) : Solo next := by
  cases moved with
  | declined task idle held => cases held
  | accepted task idle free => cases idle
  | signalled event callback idle owned other quiet => cases idle
  | resumed aborted killReason due busy => exact absurd rfl (due task)
  | launched task due =>
    refine .going _ ⟨rfl, by simp, rfl, by simp [TerminalRunners], .inr ⟨⟨task, .announce⟩, rfl, fun _ => rfl, by simp, ?_⟩⟩
    exact ⟨by simp, by simp⟩
  | malformed task due =>
    refine .going _ ⟨rfl, by simp [sendUpdate], rfl, by simp [TerminalRunners, sendUpdate], .inl ⟨rfl, rfl, ?_⟩⟩
    exact Accounts.sent ⟨by simp, by simp⟩
  | ran event number run entries moved after aborted checked found => cases found
  | managed event number manager moved entries after found => cases found

theorem Going.moved (going : Going executor) (guarded : Guarded executor event) (moved : Moved executor event next) :
    Going next := by
  cases moved with
  | declined task idle held =>
    refine ⟨rfl, going.settled, going.owned, going.statuses, ?_⟩
    rcases going.threads with ⟨runs, managers, accounts⟩ | ⟨run, runs, alone, few, accounts⟩
    · exact .inl ⟨runs, managers, accounts.sent⟩
    · exact .inr ⟨run, runs, alone, few, accounts.sent⟩
  | accepted task idle free =>
    have held := guarded task rfl going.launched
    rw [free] at held
    cases held
  | signalled event callback idle owned other quiet => exact ⟨going.launched, other, going.owned, going.statuses, going.threads⟩
  | resumed aborted killReason due busy => exact ⟨going.launched, by simp, going.owned, going.statuses, going.threads⟩
  | launched task due => exact absurd due (going.settled task)
  | malformed task due => exact absurd due (going.settled task)
  | ran event number run entries moved after aborted checked found advance kept journal runs managers statuses =>
    rcases going.threads with ⟨none, -, -⟩ | ⟨only, single, alone, few, accounts⟩
    · rw [none] at found
      cases found
    rw [single] at found runs
    obtain ⟨rfl, rfl⟩ : number = 0 ∧ only = run := by
      cases number with
      | zero => exact ⟨rfl, Option.some.inj found⟩
      | succ number => cases found
    refine ⟨kept.launched.trans going.launched, ?_, ?_, statuses going.statuses, .inr ⟨⟨only.task, moved⟩, runs, ?_, ?_, ?_⟩⟩
    · rw [kept.callback]
      exact going.settled
    · rw [kept.taskId]
      exact going.owned
    · intro still
      rcases managers with same | ⟨last, -⟩
      · rw [same]
        exact alone (advance.open_of_open still)
      · exact absurd (advance.over_of_monitor last) still
    · rcases managers with same | ⟨last, -, runner, added⟩
      · rwa [same]
      · rw [added, alone (by simp [last])]
        simp
    · rw [journal]
      exact advance.accounts accounts
  | managed event number manager moved entries after found advance kept journal runs managers statuses =>
    rcases going.threads with ⟨-, none, -⟩ | ⟨run, single, alone, few, accounts⟩
    · rw [none] at found
      cases found
    refine ⟨kept.launched.trans going.launched, ?_, ?_, statuses going.statuses, .inr ⟨run, ?_, ?_, ?_, ?_⟩⟩
    · rw [kept.callback]
      exact going.settled
    · rw [kept.taskId]
      exact going.owned
    · rw [runs, single]
    · intro still
      rw [managers, alone still]
      rfl
    · rwa [managers, List.length_set]
    · rw [journal]
      exact (advance going.statuses).accounts accounts

theorem Solo.moved (solo : Solo executor) (guarded : Guarded executor event) (moved : Moved executor event next) :
    Solo next := by
  cases solo with
  | idle => exact idle_moved moved
  | accepted task => exact accepted_moved moved
  | going _ begun => exact .going next (begun.moved guarded moved)

theorem Solo.step (executor : AuroraExecutor) (event : Event) (next : AuroraExecutor) (solo : Solo executor)
    (guarded : Guarded executor event) (taken : executor.step event = some next) : Solo next :=
  solo.moved guarded (step_moved taken)

theorem Solo.accounts (solo : Solo executor) : Accounts 1 1 executor.journal := by
  cases solo with
  | idle | accepted task => exact ⟨by simp, by simp⟩
  | going _ begun =>
    rcases begun.threads with ⟨-, -, accounts⟩ | ⟨run, -, -, -, accounts⟩
    · exact accounts.weaken (by decide) (by decide)
    · exact accounts.weaken (by cases run.next <;> decide) (by cases run.next <;> decide)

end Solo

/-- What a step may do when the executor is for one task. -/
structure OneTask (executor : AuroraExecutor) (event : Event) (next : AuroraExecutor) : Prop where
  keeps : executor.taskId.isSome = true → next.taskId = executor.taskId
  /-- a later launch answers TASK_LOST for its own task, and changes nothing -/
  declines : ∀ task, event = .launchTask task → executor.launched = true →
    next = { executor with journal := executor.journal ++ [.sent ⟨task.taskId, .lost,
      some ("Task already running on this executor: " ++ executor.taskId.getD "None")⟩] }
  reports : (∀ task, event ≠ .launchTask task) → ∃ entries, next.journal = executor.journal ++ entries ∧
    ∀ update, .sent update ∈ entries → next.taskId = some update.taskId

section OneTask

variable {executor next : AuroraExecutor} {event : Event} {entries : List Entry} {update : Update}

theorem Advance.own {own : String} {aborted : Bool} {place moved : RunStep}
    (advance : Advance own aborted place entries moved) (sent : .sent update ∈ entries) : update.taskId = own := by
  cases advance with
  | announced | killed _ _ | died _ _ _ _ _ =>
    cases List.mem_singleton.mp sent
    rfl
  | created _ | started _ => cases List.mem_singleton.mp sent
  | _ => cases sent

theorem Managed.own {own : String} {manager moved : StatusManager} (managed : Managed own manager entries moved)
    (sent : .sent update ∈ entries) : update.taskId = own := by
  cases managed with
  | announced _ _ _ | finished _ _ _ _ _ =>
    cases List.mem_singleton.mp sent
    rfl
  | _ => cases sent

theorem ownId_of_isSome (owned : executor.taskId.isSome = true) : executor.taskId = some executor.ownId := by
  unfold ownId
  cases named : executor.taskId with
  | none => simp [named] at owned
  | some taskId => rfl

theorem Solo.statuses (solo : Solo executor) : executor.TerminalRunners := by
  cases solo with
  | idle | accepted task => simp [TerminalRunners]
  | going _ begun => exact begun.statuses

theorem Solo.owned (solo : Solo executor) (busy : executor.runs ≠ [] ∨ executor.managers ≠ []) :
    executor.taskId.isSome = true := by
  cases solo with
  | idle | accepted task => simp at busy
  | going _ begun => exact begun.owned

theorem ne_nil_of_getElem? {α : Type} {xs : List α} {number : Nat} {found : α} (at_number : xs[number]? = some found) :
    xs ≠ [] := by
  rintro rfl
  cases at_number

theorem Solo.oneTask (solo : Solo executor) (guarded : Guarded executor event) (moved : Moved executor event next) :
    OneTask executor event next := by
  cases moved with
  | declined task idle held =>
    refine ⟨fun _ => rfl, fun again same before => ?_, fun quiet => absurd rfl (quiet task)⟩
    cases same
    have present : ("Task already running on this executor: " ++ executor.taskId.getD "None") ≠ "" := by simp
    simp [sendUpdate, present, before]
  | accepted task idle free =>
    refine ⟨fun _ => rfl, fun again same before => ?_, fun quiet => absurd rfl (quiet task)⟩
    have held := guarded task rfl before
    rw [free] at held
    cases held
  | signalled event callback idle owned other quiet =>
    exact ⟨fun _ => rfl, fun task same => absurd same (quiet task), fun _ => ⟨[], by simp, by simp⟩⟩
  | resumed aborted killReason due busy => exact ⟨fun _ => rfl, by simp, fun _ => ⟨[], by simp, by simp⟩⟩
  | launched task due =>
    refine ⟨fun owned => ?_, by simp, fun _ => ⟨[], by simp, by simp⟩⟩
    cases solo with
    | idle => cases due
    | accepted task => cases owned
    | going _ begun => exact absurd due (begun.settled task)
  | malformed task due =>
    refine ⟨fun owned => ?_, by simp, fun _ => ⟨_, rfl, fun update sent => ?_⟩⟩
    · cases solo with
      | idle => cases due
      | accepted task => cases owned
      | going _ begun => exact absurd due (begun.settled task)
    · cases List.mem_singleton.mp sent
      rfl
  | ran event number run entries moved after aborted checked found advance kept journal runs managers statuses quiet =>
    have owned := ownId_of_isSome (solo.owned (.inl (ne_nil_of_getElem? found)))
    refine ⟨fun _ => kept.taskId, fun task same => absurd same (quiet task), fun _ => ⟨entries, journal, ?_⟩⟩
    intro update sent
    rw [kept.taskId, owned, advance.own sent]
  | managed event number manager moved entries after found advance kept journal runs managers statuses quiet =>
    have owned := ownId_of_isSome (solo.owned (.inr (ne_nil_of_getElem? found)))
    refine ⟨fun _ => kept.taskId, fun task same => absurd same (quiet task), fun _ => ⟨entries, journal, ?_⟩⟩
    intro update sent
    rw [kept.taskId, owned, (advance solo.statuses).own sent]

end OneTask

section Runs

variable {events : List Event} {final : AuroraExecutor}

/-- As long as each later launch comes after `self._runner` has been set, an executor makes and starts one runner at
    most, and no launch after the first has any effect but TASK_LOST for its own task. -/
theorem one_task (guarded : Along step Guarded {} events) (reached : run step {} events = some final) :
    final.journal.countP Entry.isCreated ≤ 1 ∧ final.journal.countP Entry.isStarted ≤ 1 ∧
      Along step (fun executor event => ∀ next, executor.step event = some next → OneTask executor event next)
        {} events := by
  have ended : Solo final := invariant Solo.step .idle guarded reached
  refine ⟨ended.accounts.1, ended.accounts.2, Along.of_invariant Solo.step ?_ .idle guarded⟩
  intro executor event solo allowed next taken
  exact solo.oneTask allowed (step_moved taken)

instance (executor : AuroraExecutor) (event : Event) : Decidable (Guarded executor event) :=
  match event with
  | .launchTask task => decidable_of_iff (executor.launched = true → executor.hasRunner = true)
      ⟨fun guarded _ _ => guarded, fun guarded => guarded task rfl⟩
  | .killTask _ | .shutdown | .resume | .announce _ | .initializeSandbox _ _ | .fromAssignedTask _ _ | .recognize _
  | .checkAborted _ | .startRunner _ | .runnerStarted _ _ | .startStatusManager _ _ | .poll _ _ _
  | .signalRunning _ | .unhealthy _ _ | .stopped _ _ => isTrue fun _ same => by cases same

private def built (number : Nat) : List Event :=
  [.announce number, .initializeSandbox number .created, .fromAssignedTask number .taskRunner, .recognize number]

private def started (number : Nat) : List Event :=
  [.checkAborted number, .startRunner number, .runnerStarted number .started]

private def declined : List Event :=
  [.launchTask { taskId := "a" }, .resume] ++ built 0 ++ [.launchTask { taskId := "b" }] ++ started 0

theorem one_task_declined : ∃ final, run step {} declined = some final ∧
    final.journal.countP Entry.isCreated ≤ 1 ∧ final.journal.countP Entry.isStarted ≤ 1 ∧
      Along step (fun executor event => ∀ next, executor.step event = some next → OneTask executor event next)
        {} declined := by
  have reached : (run step {} declined).isSome = true := by decide
  obtain ⟨final, reached⟩ := Option.isSome_iff_exists.mp reached
  exact ⟨final, reached, one_task (by decide) reached⟩

/-- The second launch comes before the deferred run of the first has made its runner. -/
private def hasty : List Event :=
  [.launchTask { taskId := "a" }, .resume, .launchTask { taskId := "b" }, .resume] ++ built 0 ++ built 1 ++ started 0 ++
    started 1

theorem launches_two_runners : ∃ final, run step {} hasty = some final ∧ final.taskId = some "b" ∧
    final.journal = [.sent ⟨"b", .starting, none⟩, .created 0, .sent ⟨"b", .starting, none⟩, .created 1, .started 1,
      .started 1] ∧
    final.journal.countP Entry.isCreated = 2 ∧ final.journal.countP Entry.isStarted = 2 := by
  refine ⟨_, rfl, ?_⟩
  decide

end Runs

end AuroraExecutor

end Aurora.Executor
