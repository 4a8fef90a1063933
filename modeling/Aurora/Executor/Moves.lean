import Aurora.Executor.AuroraExecutor
import Mathlib.Data.List.Basic

namespace Aurora.Executor

namespace AuroraExecutor

def hasRunner (executor : AuroraExecutor) : Bool :=
  match executor.runner with
  | some (.taskRunner _) | some (.unrecognized true) => true
  | some (.unrecognized false) | none => false

/-- What no step of a run or of a status manager changes. -/
structure Kept (before after : AuroraExecutor) : Prop where
  launched : after.launched = before.launched
  taskId : after.taskId = before.taskId
  callback : after.callback = before.callback

def TerminalRunners (executor : AuroraExecutor) : Prop :=
  ∀ runner ∈ executor.runners, ∀ result, runner.status = some result → result.status.isTerminal = true

/-- The ways of a deferred run, with what it leaves in the journal. -/
inductive Advance (own : String) (aborted : Bool) : RunStep → List Entry → RunStep → Prop
  | announced : Advance own aborted .announce [.sent ⟨own, .starting, none⟩] .sandbox
  | prepared : Advance own aborted .sandbox [] .provide
  | created (number : Nat) : Advance own aborted .provide [.created number] .recognize
  | provided : Advance own aborted .provide [] .recognize
  | recognized : Advance own aborted .recognize [] .check
  | killed (message : Option String) (abort : aborted = true) :
      Advance own aborted .check [.sent ⟨own, .killed, message⟩] .start
  | checked : Advance own aborted .check [] .start
  | started (number : Nat) : Advance own aborted .start [.started number] .starting
  | called : Advance own aborted .start [] .starting
  | up : Advance own aborted .starting [] .monitor
  | died (place : RunStep) (state : TaskState) (message : Option String) (opened : place ≠ .announce ∧ place ≠ .ceased)
      (terminal : state.isTerminal = true) : Advance own aborted place [.sent ⟨own, state, message⟩] .ceased
  | ended (place : RunStep) : Advance own aborted place [] .ceased

inductive Managed (own : String) : StatusManager → List Entry → StatusManager → Prop
  | polled (manager : StatusManager) (chained complete : Option StatusResult) (polling : manager.next = .poll)
      (next : ManagerStep)
      (reaction : next = StatusManager.react manager.runningCallbackDispatched complete) :
      Managed own manager [] { manager with chained, complete, next }
  | announced (manager : StatusManager) (result : StatusResult) (message : Option String)
      (due : manager.next = .running result) :
      Managed own manager [.sent ⟨own, .running, message⟩]
        { manager with runningCallbackDispatched := true, next := .poll }
  | stopping (manager : StatusManager) (result : StatusResult) (runnerStatus : Option StatusResult)
      (due : manager.next = .unhealthy result)
      (terminal : ∀ status, runnerStatus = some status → status.status.isTerminal = true) :
      Managed own manager [] { manager with next := .stopping result runnerStatus }
  | finished (manager : StatusManager) (result : StatusResult) (runnerStatus : Option StatusResult)
      (message : Option String) (due : manager.next = .stopping result runnerStatus)
      (listed : (runnerStatus.getD result).status.isListed = true) :
      Managed own manager [.sent ⟨own, (runnerStatus.getD result).status, message⟩] { manager with next := .ceased }
  | ended (manager : StatusManager) (open_ended : manager.next ≠ .ceased) :
      Managed own manager [] { manager with next := .ceased }

inductive Moved (executor : AuroraExecutor) : Event → AuroraExecutor → Prop
  | declined (task : TaskInfo) (idle : executor.callback = none) (held : executor.hasRunner = true) :
      Moved executor (.launchTask task) ({ executor with launched := true }.sendUpdate task.taskId .lost
        (some ("Task already running on this executor: " ++ executor.taskId.getD "None")))
  | accepted (task : TaskInfo) (idle : executor.callback = none) (free : executor.hasRunner = false) :
      Moved executor (.launchTask task) { executor with launched := true, callback := some (.launch task) }
  | signalled (event : Event) (callback : Option Callback) (idle : executor.callback = none)
      (owned : callback = none ∨ executor.taskId.isSome = true) (other : ∀ task, callback ≠ some (.launch task))
      (quiet : ∀ task, event ≠ .launchTask task) : Moved executor event { executor with callback }
  | resumed (aborted : Bool) (killReason : Option String) (due : ∀ task, executor.callback ≠ some (.launch task))
      (busy : executor.callback.isSome = true) :
      Moved executor .resume { executor with callback := none, runnerAborted := aborted, killReason }
  | launched (task : TaskInfo) (due : executor.callback = some (.launch task)) :
      Moved executor .resume { executor with
        callback := none
        slaveId := some task.slaveId
        taskId := some task.taskId
        runs := executor.runs ++ [⟨task, .announce⟩] }
  | malformed (task : TaskInfo) (due : executor.callback = some (.launch task)) :
      Moved executor .resume ({ executor with
        callback := none
        slaveId := some task.slaveId
        taskId := some task.taskId }.sendUpdate task.taskId .failed (some "Could not deserialize task."))
  | ran (event : Event) (number : Nat) (run : Run) (entries : List Entry) (next : RunStep) (after : AuroraExecutor)
      (aborted : Bool) (checked : aborted = true → event = .checkAborted number ∧ executor.runnerAborted = true)
      (found : executor.runs[number]? = some run)
      (advance : Advance executor.ownId aborted run.next entries next)
      (kept : Kept executor after) (journal : after.journal = executor.journal ++ entries)
      (runs : after.runs = executor.runs.set number ⟨run.task, next⟩)
      (managers : after.managers = executor.managers ∨
        run.next = .monitor ∧ entries = [] ∧ ∃ runner, after.managers = executor.managers ++ [{ runner := runner }])
      (statuses : executor.TerminalRunners → after.TerminalRunners)
      (quiet : ∀ task, event ≠ .launchTask task) : Moved executor event after
  | managed (event : Event) (number : Nat) (manager next : StatusManager) (entries : List Entry)
      (after : AuroraExecutor) (found : executor.managers[number]? = some manager)
      (advance : executor.TerminalRunners → Managed executor.ownId manager entries next)
      (kept : Kept executor after) (journal : after.journal = executor.journal ++ entries)
      (runs : after.runs = executor.runs) (managers : after.managers = executor.managers.set number next)
      (statuses : executor.TerminalRunners → after.TerminalRunners)
      (quiet : ∀ task, event ≠ .launchTask task) : Moved executor event after

section

variable {executor next : AuroraExecutor} {event : Event}

theorem launchTask_moved {task : TaskInfo} (idle : executor.callback = none) :
    Moved executor (.launchTask task) (executor.launchTask task) := by
  unfold launchTask
  dsimp only
  split
  next held => exact .declined task idle (by simp [hasRunner, held])
  next held => exact .declined task idle (by simp [hasRunner, held])
  next free => exact .accepted task idle (by simp [hasRunner, free])
  next free => exact .accepted task idle (by simp [hasRunner, free])

theorem signalled_nothing (idle : executor.callback = none) (quiet : ∀ task, event ≠ .launchTask task) :
    Moved executor event executor := by
  have moved := Moved.signalled event none idle (.inl rfl) (by simp) quiet
  rwa [← idle] at moved

theorem signalKillManager_moved {taskId reason : String} (idle : executor.callback = none)
    (quiet : ∀ task, event ≠ .launchTask task) : Moved executor event (executor.signalKillManager taskId reason) := by
  unfold signalKillManager
  split
  · exact signalled_nothing idle quiet
  next own =>
    have owned : executor.taskId.isSome = true := by
      rw [not_not.mp own]
      rfl
    split
    · exact .signalled event (some (.kill reason)) idle (.inr owned) (by simp) quiet
    · exact .signalled event (some .abort) idle (.inr owned) (by simp) quiet

theorem shutdown_moved (idle : executor.callback = none) (quiet : ∀ task, event ≠ .launchTask task) :
    Moved executor event executor.shutdown := by
  unfold shutdown
  split
  · exact signalled_nothing idle quiet
  · split
    · exact signalled_nothing idle quiet
    · exact signalKillManager_moved idle quiet

theorem resume_moved (resumed : executor.resume = some next) : Moved executor .resume next := by
  unfold resume at resumed
  dsimp only at resumed
  cases due : executor.callback with
  | none => simp [due] at resumed
  | some callback =>
    rw [due] at resumed
    cases callback with
    | abort =>
      cases resumed
      exact .resumed true executor.killReason (by simp [due]) (by simp [due])
    | kill reason =>
      cases resumed
      exact .resumed executor.runnerAborted (some reason) (by simp [due]) (by simp [due])
    | launch task =>
      dsimp only at resumed
      split at resumed
      · cases resumed
        exact .launched task due
      · cases resumed
        exact .malformed task due

theorem Kept.refl : Kept executor executor := ⟨rfl, rfl, rfl⟩

section Bodies

def Does (executor : AuroraExecutor) (aborted : Bool) (place : RunStep) (result : AuroraExecutor × RunStep) : Prop :=
  ∃ entries, Advance executor.ownId aborted place entries result.2 ∧
    Kept executor result.1 ∧ result.1.journal = executor.journal ++ entries ∧
    (result.1.managers = executor.managers ∨
      place = .monitor ∧ entries = [] ∧ ∃ runner, result.1.managers = executor.managers ++ [{ runner := runner }]) ∧
    (executor.TerminalRunners → result.1.TerminalRunners)

theorem onRun_moved {number : Nat} {place : RunStep} {body : TaskInfo → AuroraExecutor × RunStep} {aborted : Bool}
    (checked : aborted = true → event = .checkAborted number ∧ executor.runnerAborted = true)
    (quiet : ∀ task, event ≠ .launchTask task)
    (does : ∀ task, Does executor aborted place (body task))
    (taken : executor.onRun number place body = some next) : Moved executor event next := by
  unfold onRun at taken
  split at taken
  · cases taken
  next run found =>
    split at taken
    next here =>
      cases taken
      obtain ⟨entries, advance, kept, journal, managers, statuses⟩ := does run.task
      subst here
      exact .ran event number run entries _ _ aborted checked found advance ⟨kept.launched, kept.taskId, kept.callback⟩
        journal rfl managers statuses quiet
    · cases taken

theorem does_quietly {place moved : RunStep} (advance : Advance executor.ownId false place [] moved) :
    Does executor false place (executor, moved) :=
  ⟨[], advance, .refl, by simp, .inl rfl, id⟩

theorem does_die {place : RunStep} {status : TaskState} {msg : String} (opened : place ≠ .announce ∧ place ≠ .ceased)
    (terminal : status.isTerminal = true) : Does executor false place (executor.die status msg, .ceased) :=
  ⟨_, .died place status _ opened terminal, ⟨rfl, rfl, rfl⟩, rfl, .inl rfl, id⟩

theorem does_announce (task : TaskInfo) : Does executor false .announce (executor.announce task) :=
  ⟨_, .announced, ⟨rfl, rfl, rfl⟩, rfl, .inl rfl, id⟩

theorem does_initializeSandbox (outcome : SandboxOutcome) (task : TaskInfo) :
    Does executor false .sandbox (executor.initializeSandbox outcome task) := by
  cases outcome with
  | created => exact ⟨[], .prepared, ⟨rfl, rfl, rfl⟩, by simp [initializeSandbox], .inl rfl, id⟩
  | noSandbox => exact does_quietly (.ended .sandbox)
  | timedOut | sandboxError _ | otherError _ => exact does_die (by decide) rfl

theorem does_fromAssignedTask (outcome : ProviderOutcome) (task : TaskInfo) :
    Does executor false .provide (executor.fromAssignedTask outcome task) := by
  cases outcome with
  | taskRunner =>
    refine ⟨_, .created executor.runners.length, ⟨rfl, rfl, rfl⟩, rfl, .inl rfl, fun terminal runner member => ?_⟩
    rcases List.mem_append.mp member with before | added
    · exact terminal runner before
    · rw [List.mem_singleton.mp added]
      simp
  | unrecognized truthy => exact ⟨[], .provided, ⟨rfl, rfl, rfl⟩, by simp [fromAssignedTask], .inl rfl, id⟩
  | taskError text => exact ⟨_, .died .provide .failed _ (by decide) rfl, ⟨rfl, rfl, rfl⟩, rfl, .inl rfl, id⟩
  | otherError => exact does_quietly (.ended .provide)

theorem does_recognize (task : TaskInfo) : Does executor false .recognize (executor.recognize task) := by
  unfold recognize
  split
  · exact does_quietly .recognized
  · exact does_die (by decide) rfl

theorem does_checkAborted (task : TaskInfo) : Does executor executor.runnerAborted .check (executor.checkAborted task) := by
  unfold checkAborted
  split
  next abort => exact ⟨_, .killed _ abort, ⟨rfl, rfl, rfl⟩, rfl, .inl rfl, id⟩
  · exact ⟨[], .checked, .refl, by simp, .inl rfl, id⟩

theorem does_startRunner (task : TaskInfo) : Does executor false .start (executor.startRunner task) := by
  unfold startRunner
  split
  next number _ => exact ⟨_, .started number, ⟨rfl, rfl, rfl⟩, rfl, .inl rfl, id⟩
  · exact does_quietly .called

theorem does_runnerStarted (outcome : StartOutcome) (task : TaskInfo) :
    Does executor false .starting (executor.runnerStarted outcome task) := by
  cases outcome with
  | started => exact does_quietly .up
  | taskError _ | timedOut | otherError _ => exact does_die (by decide) rfl

theorem does_startStatusManager (outcome : MonitorOutcome) (task : TaskInfo) :
    Does executor false .monitor (executor.startStatusManager outcome task) := by
  unfold startStatusManager
  split
  next number _ =>
    exact ⟨[], .ended .monitor, ⟨rfl, rfl, rfl⟩, by simp, .inr ⟨rfl, rfl, number, rfl⟩, id⟩
  · exact does_die (by decide) rfl
  · exact does_quietly (.ended .monitor)
  · exact does_quietly (.ended .monitor)

theorem readStatus_spec (number : Nat) (process : RunnerProcess) :
    Kept executor (executor.readStatus number process).2 ∧
      (executor.readStatus number process).2.journal = executor.journal ∧
      (executor.readStatus number process).2.runs = executor.runs ∧
      (executor.TerminalRunners → (executor.readStatus number process).2.TerminalRunners ∧
        ∀ status, (executor.readStatus number process).1 = some status → status.status.isTerminal = true) := by
  unfold readStatus
  split
  · exact ⟨.refl, rfl, rfl, fun terminal => ⟨terminal, fun _ none => by cases none⟩⟩
  next runner found =>
    refine ⟨⟨rfl, rfl, rfl⟩, rfl, rfl, fun terminal => ?_⟩
    have read : ∀ status, (runner.status.orElse fun _ => ThermosTaskRunner.computeStatus process) = some status →
        status.status.isTerminal = true := by
      intro status shown
      cases kept : runner.status with
      | some first =>
        rw [kept] at shown
        cases shown
        exact terminal runner (List.mem_of_getElem? found) _ kept
      | none =>
        rw [kept] at shown
        exact ThermosTaskRunner.computeStatus_terminal shown
    refine ⟨fun other member status shown => ?_, read⟩
    rcases List.mem_or_eq_of_mem_set member with before | rfl
    · exact terminal other before status shown
    · exact read status shown

def Steers (executor : AuroraExecutor) (body : StatusManager → Option (AuroraExecutor × StatusManager)) : Prop :=
  ∀ manager after moved, body manager = some (after, moved) → ∃ entries,
    (executor.TerminalRunners → Managed executor.ownId manager entries moved) ∧ Kept executor after ∧
    after.journal = executor.journal ++ entries ∧ after.runs = executor.runs ∧
    (executor.TerminalRunners → after.TerminalRunners)

theorem onManager_moved {number : Nat} {body : StatusManager → Option (AuroraExecutor × StatusManager)}
    (quiet : ∀ task, event ≠ .launchTask task)
    (steers : Steers executor body)
    (taken : executor.onManager number body = some next) : Moved executor event next := by
  unfold onManager at taken
  split at taken
  · cases taken
  next manager found =>
    split at taken
    · cases taken
    next after moved done =>
      cases taken
      obtain ⟨entries, advance, kept, journal, runs, statuses⟩ := steers manager after moved done
      exact .managed event number manager moved entries _ found advance ⟨kept.launched, kept.taskId, kept.callback⟩
        journal runs rfl statuses quiet

theorem steers_poll (process : RunnerProcess) (reported : List (Option StatusResult)) :
    Steers executor (executor.poll process reported) := by
  intro manager after moved done
  unfold poll at done
  split at done
  next polling =>
    cases done
    obtain ⟨kept, journal, runs, terminal⟩ := @readStatus_spec executor manager.runner process
    exact ⟨[], fun _ => .polled manager _ _ polling _ rfl, kept, by rw [List.append_nil]; exact journal, runs,
      fun h => (terminal h).1⟩
  · cases done

theorem steers_signalRunning : Steers executor executor.signalRunning := by
  intro manager after moved done
  unfold signalRunning at done
  split at done
  next result due =>
    cases done
    exact ⟨_, fun _ => .announced manager result _ due, ⟨rfl, rfl, rfl⟩, rfl, rfl, id⟩
  · cases done

theorem steers_unhealthy (process : RunnerProcess) : Steers executor (executor.unhealthy process) := by
  intro manager after moved done
  unfold unhealthy at done
  split at done
  next result number due _ =>
    cases done
    obtain ⟨kept, journal, runs, terminal⟩ := @readStatus_spec executor number process
    exact ⟨[], fun h => .stopping manager result _ due (terminal h).2, kept, by rw [List.append_nil]; exact journal, runs,
      fun h => (terminal h).1⟩
  next result due _ =>
    cases done
    exact ⟨[], fun _ => .ended manager (by simp [due]), .refl, by simp, rfl, id⟩
  · cases done

theorem steers_stopped (handled : Bool) : Steers executor (executor.stopped handled) := by
  intro manager after moved done
  unfold stopped at done
  split at done
  next result runnerStatus due =>
    dsimp only at done
    split at done
    next shown =>
      cases done
      have listed : (runnerStatus.getD result).status.isListed = true := (Bool.and_eq_true_iff.mp shown).2
      exact ⟨_, fun _ => .finished manager result runnerStatus _ due listed, ⟨rfl, rfl, rfl⟩, rfl, rfl, id⟩
    · cases done
      exact ⟨[], fun _ => .ended manager (by simp [due]), .refl, by simp, rfl, id⟩
  · cases done

end Bodies

theorem onDriver_moved {after : AuroraExecutor} (moved : executor.callback = none → Moved executor event after)
    (taken : executor.onDriver after = some next) : Moved executor event next := by
  unfold onDriver at taken
  split at taken
  next idle =>
    cases taken
    exact moved idle
  · cases taken

theorem step_moved (taken : executor.step event = some next) : Moved executor event next := by
  have unchecked {run : Nat} : false = true → event = .checkAborted run ∧ executor.runnerAborted = true := by simp
  cases event with
  | launchTask task => exact onDriver_moved launchTask_moved taken
  | killTask taskId => exact onDriver_moved (fun idle => signalKillManager_moved idle (by simp)) taken
  | shutdown => exact onDriver_moved (fun idle => shutdown_moved idle (by simp)) taken
  | resume => exact resume_moved taken
  | announce run => exact onRun_moved unchecked (by simp) does_announce taken
  | initializeSandbox run outcome => exact onRun_moved unchecked (by simp) (does_initializeSandbox outcome) taken
  | fromAssignedTask run outcome => exact onRun_moved unchecked (by simp) (does_fromAssignedTask outcome) taken
  | recognize run => exact onRun_moved unchecked (by simp) does_recognize taken
  | checkAborted run =>
    exact onRun_moved (fun aborted => ⟨rfl, aborted⟩) (by simp) does_checkAborted taken
  | startRunner run => exact onRun_moved unchecked (by simp) does_startRunner taken
  | runnerStarted run outcome => exact onRun_moved unchecked (by simp) (does_runnerStarted outcome) taken
  | startStatusManager run outcome =>
    exact onRun_moved unchecked (by simp) (does_startStatusManager outcome) taken
  | poll manager process reported => exact onManager_moved (by simp) (steers_poll process reported) taken
  | signalRunning manager => exact onManager_moved (by simp) steers_signalRunning taken
  | unhealthy manager process => exact onManager_moved (by simp) (steers_unhealthy process) taken
  | stopped manager handled => exact onManager_moved (by simp) (steers_stopped handled) taken

end

end AuroraExecutor

end Aurora.Executor
