import Aurora.Thermos.Common.PlannerRuns

namespace Aurora.Thermos

open Collections Replay

namespace TaskPlanner

inductive Ending
  | reset | finished | failed
  deriving DecidableEq

namespace Ending

def apply (ending : Ending) (process : Name) (planner : Planner Name) : Planner Name :=
  match ending with
  | reset => { planner with running := planner.running.erase process }
  | finished => { planner with
      running := planner.running.erase process, finished := insert process planner.finished }
  | failed => { planner with
      running := planner.running.erase process, failed := insert process planner.failed }

def ofFailure (attributes : TaskAttributes) (reached : Bool) (failures : Nat) : Ending :=
  if reached then failed
  else if attributes.maxFailures = 0 ∨ failures < attributes.maxFailures then reset
  else if attributes.isEphemeral then finished
  else failed

def ofSuccess (attributes : TaskAttributes) (reached : Bool) : Ending :=
  if reached then failed
  else if !attributes.isDaemon then finished
  else reset

def ofLoss (reached : Bool) : Ending := if reached then failed else reset

end Ending

section Endings

variable {before after : TaskPlanner} {process : Name} {attributes : TaskAttributes}

/-- The plan once the planner has been told about the end of a run. -/
structure Ended (process : Name) (ending : Ending) (before after : TaskPlanner) : Prop where
  active : process ∈ before.planner.running
  plan : after = { before with planner := ending.apply process before.planner }

theorem reset_ended (ran : (onPlanner (Planner.reset process)).run before = .ok () after) :
    Ended process .reset before after := by
  rw [onPlanner_run, Planner.reset_run] at ran
  split_ifs at ran with met
  cases ran
  exact ⟨met.1, rfl⟩

theorem setFinished_ended (ran : (onPlanner (Planner.setFinished process)).run before = .ok () after) :
    Ended process .finished before after := by
  rw [onPlanner_run, Planner.setFinished_run] at ran
  split_ifs at ran with met
  cases ran
  exact ⟨met.1, rfl⟩

theorem setFailed_ended (ran : (onPlanner (Planner.setFailed process)).run before = .ok () after) :
    Ended process .failed before after := by
  rw [onPlanner_run, Planner.setFailed_run] at ran
  split_ifs at ran with met
  cases ran
  exact ⟨met.1, rfl⟩

theorem failureTransition_ended (known : before.attributes.get? process = some attributes)
    (ran : (failureTransition process).run before = .ok () after) :
    Ended process (.ofFailure attributes (before.hasReachedRunLimit process) (before.failures process)) before after := by
  simp only [failureTransition, EStateM.run_bind, EStateM.run_get] at ran
  unfold Ending.ofFailure
  split at ran
  · rename_i limited
    rw [if_pos limited]
    exact setFailed_ended ran
  · rename_i within
    simp only [EStateM.run_bind, attributesOf_run, known] at ran
    rw [if_neg within]
    split at ran
    · rename_i few
      rw [if_pos few]
      exact reset_ended ran
    · rename_i many
      rw [if_neg many]
      split at ran
      · rename_i ephemeral
        rw [if_pos ephemeral]
        exact setFinished_ended ran
      · rename_i lasting
        rw [if_neg lasting]
        exact setFailed_ended ran

theorem successTransition_ended (known : before.attributes.get? process = some attributes)
    (ran : (successTransition process).run before = .ok () after) :
    Ended process (.ofSuccess attributes (before.hasReachedRunLimit process)) before after := by
  simp only [successTransition, EStateM.run_bind, EStateM.run_get] at ran
  unfold Ending.ofSuccess
  split at ran
  · rename_i limited
    rw [if_pos limited]
    exact setFailed_ended ran
  · rename_i within
    simp only [EStateM.run_bind, attributesOf_run, known] at ran
    rw [if_neg within]
    split at ran
    · rename_i ordinary
      rw [if_pos ordinary]
      exact setFinished_ended ran
    · rename_i daemon
      rw [if_neg daemon]
      exact reset_ended ran

theorem lostTransition_ended (ran : (lostTransition process).run before = .ok () after) :
    Ended process (.ofLoss (before.hasReachedRunLimit process)) before after := by
  simp only [lostTransition, EStateM.run_bind, EStateM.run_get] at ran
  unfold Ending.ofLoss
  split at ran
  · rename_i limited
    rw [if_pos limited]
    exact setFailed_ended ran
  · rename_i within
    rw [if_neg within]
    exact reset_ended ran

end Endings

section Elsewhere

/-- Nothing of the plan that is about the process has changed. -/
structure Untouched (name : Name) (before after : TaskPlanner) : Prop where
  running : name ∈ after.planner.running ↔ name ∈ before.planner.running
  finished : name ∈ after.planner.finished ↔ name ∈ before.planner.finished
  failed : name ∈ after.planner.failed ↔ name ∈ before.planner.failed
  successes : after.successes name = before.successes name
  failures : after.failures name = before.failures name
  losses : after.losses name = before.losses name
  task : SameTask before after

variable {before middle after : TaskPlanner} {name process : Name} {timestamp : Time}

theorem Untouched.refl (name : Name) (plan : TaskPlanner) : Untouched name plan plan :=
  ⟨Iff.rfl, Iff.rfl, Iff.rfl, rfl, rfl, rfl, ⟨rfl, rfl, rfl⟩⟩

theorem Untouched.trans (left : Untouched name before middle) (right : Untouched name middle after) :
    Untouched name before after where
  running := right.running.trans left.running
  finished := right.finished.trans left.finished
  failed := right.failed.trans left.failed
  successes := right.successes.trans left.successes
  failures := right.failures.trans left.failures
  losses := right.losses.trans left.losses
  task := ⟨right.task.attributes.trans left.task.attributes, right.task.ephemerals.trans left.task.ephemerals,
    right.task.totalRunLimit.trans left.task.totalRunLimit⟩

theorem untouched_setRunning (other : name ≠ process) :
    Untouched name before (final ((onPlanner (Planner.setRunning process)).run before)) := by
  rw [onPlanner_run, Planner.setRunning_run]
  split_ifs <;> constructor <;> simp [final, other, SameTask.mk]

theorem untouched_operation {operation : EStateM Error (Planner Name) Unit} (ends : EndOperation process operation)
    (other : name ≠ process) : Untouched name before (final ((onPlanner operation).run before)) := by
  rw [onPlanner_run]
  cases ends with
  | reset =>
    rw [Planner.reset_run]
    split_ifs <;> constructor <;> simp [final, other, SameTask.mk]
  | setFinished =>
    rw [Planner.setFinished_run]
    split_ifs <;> constructor <;> simp [final, other, SameTask.mk]
  | setFailed =>
    rw [Planner.setFailed_run]
    split_ifs <;> constructor <;> simp [final, other, SameTask.mk]

theorem EndsRun.untouched {action : EStateM Error TaskPlanner Unit} (ends : EndsRun process action)
    (other : name ≠ process) : Untouched name before (final (action.run before)) := by
  rcases ends before with unknown | ⟨operation, ends, same⟩
  · rw [unknown]
    exact .refl name before
  · rw [same]
    exact untouched_operation ends other

theorem increment_ne (counts : Name → Nat) (other : name ≠ process) : increment counts process name = counts name :=
  if_neg other

theorem increment_self (counts : Name → Nat) : increment counts process process = counts process + 1 := if_pos rfl

/-- An operation on another process, whether it gets through or raises, does not touch this one. -/
theorem untouched_perform {operation : Operation} (other : name ≠ operation.process) :
    Untouched name before (final ((perform operation).run before)) := by
  cases operation with
  | setRunning process => exact untouched_setRunning other
  | setFailed process => exact untouched_operation .setFailed other
  | addSuccess process timestamp =>
    have counted : Untouched name before { before with
        lastTerminal := before.lastTerminal.set process timestamp, successes := increment before.successes process } :=
      { Untouched.refl name before with successes := increment_ne _ other, task := ⟨rfl, rfl, rfl⟩ }
    exact counted.trans ((endsRun_successTransition process).untouched other)
  | addFailure process timestamp =>
    have counted : Untouched name before { before with
        lastTerminal := before.lastTerminal.set process timestamp, failures := increment before.failures process } :=
      { Untouched.refl name before with failures := increment_ne _ other, task := ⟨rfl, rfl, rfl⟩ }
    exact counted.trans ((endsRun_failureTransition process).untouched other)
  | lost process timestamp =>
    have counted : Untouched name before { before with
        lastTerminal := before.lastTerminal.set process timestamp, losses := increment before.losses process } :=
      { Untouched.refl name before with losses := increment_ne _ other, task := ⟨rfl, rfl, rfl⟩ }
    exact counted.trans ((endsRun_lostTransition process).untouched other)

end Elsewhere

section Accounts

variable {before after plan : TaskPlanner} {name : Name} {attributes : TaskAttributes}

def runs (plan : TaskPlanner) (name : Name) : Nat := plan.successes name + plan.failures name + plan.losses name

structure Accounted (plan : TaskPlanner) (name : Name) (attributes : TaskAttributes) : Prop where
  active : name ∈ plan.planner.running → name ∉ plan.planner.finished ∧ name ∉ plan.planner.failed
  undecided : name ∉ plan.planner.finished → name ∉ plan.planner.failed →
    plan.runs name < plan.totalRunLimit ∧
      (attributes.maxFailures ≠ 0 → (plan.failures name : Int) < attributes.maxFailures) ∧
      (attributes.isDaemon = false → plan.successes name = 0)
  finished : name ∈ plan.planner.finished → name ∉ plan.planner.failed ∧
    plan.runs name < plan.totalRunLimit ∧
      (attributes.isDaemon = false ∧ plan.successes name = 1 ∧
          (attributes.maxFailures ≠ 0 → (plan.failures name : Int) < attributes.maxFailures) ∨
        attributes.isEphemeral = true ∧ attributes.maxFailures ≠ 0 ∧
          (plan.failures name : Int) = attributes.maxFailures ∧
          (attributes.isDaemon = false → plan.successes name = 0))
  failed : name ∈ plan.planner.failed →
    (attributes.maxFailures ≠ 0 → (plan.failures name : Int) ≤ attributes.maxFailures) ∧
      (attributes.isDaemon = false → plan.successes name ≤ 1) ∧
      (plan.runs name = plan.totalRunLimit ∨
        plan.runs name < plan.totalRunLimit ∧ attributes.isEphemeral = false ∧ attributes.maxFailures ≠ 0 ∧
          (plan.failures name : Int) = attributes.maxFailures ∧
          (attributes.isDaemon = false → plan.successes name = 0))

theorem Accounted.untouched (accounted : Accounted before name attributes) (untouched : Untouched name before after) :
    Accounted after name attributes := by
  obtain ⟨active, undecided, finished, failed⟩ := accounted
  constructor
  all_goals
    simp only [runs, untouched.running, untouched.finished, untouched.failed, untouched.successes, untouched.failures,
      untouched.losses, untouched.task.totalRunLimit]
    assumption

structure Undecided (counted : TaskPlanner) (name : Name) : Prop where
  unfinished : name ∉ counted.planner.finished
  unbroken : name ∉ counted.planner.failed

variable {counted : TaskPlanner}

theorem accounted_reset (pending : Undecided counted name) (ended : Ended name .reset counted after)
    (few : counted.runs name < counted.totalRunLimit)
    (failures : attributes.maxFailures ≠ 0 → (counted.failures name : Int) < attributes.maxFailures)
    (successes : attributes.isDaemon = false → counted.successes name = 0) : Accounted after name attributes := by
  rw [ended.plan]
  refine ⟨fun active => ?_, fun _ _ => ⟨few, failures, successes⟩, fun ceased => absurd ceased pending.unfinished,
    fun broken => absurd broken pending.unbroken⟩
  exact absurd active (Finset.notMem_erase name _)

theorem accounted_finished (pending : Undecided counted name) (ended : Ended name .finished counted after)
    (few : counted.runs name < counted.totalRunLimit)
    (reason : attributes.isDaemon = false ∧ counted.successes name = 1 ∧
          (attributes.maxFailures ≠ 0 → (counted.failures name : Int) < attributes.maxFailures) ∨
        attributes.isEphemeral = true ∧ attributes.maxFailures ≠ 0 ∧
          (counted.failures name : Int) = attributes.maxFailures ∧
          (attributes.isDaemon = false → counted.successes name = 0)) : Accounted after name attributes := by
  rw [ended.plan]
  refine ⟨fun active => ?_, fun unfinished => ?_, fun _ => ⟨pending.unbroken, few, reason⟩,
    fun broken => absurd broken pending.unbroken⟩
  · exact absurd active (Finset.notMem_erase name _)
  · exact absurd (Finset.mem_insert_self name _) unfinished

theorem accounted_failed (pending : Undecided counted name) (ended : Ended name .failed counted after)
    (failures : attributes.maxFailures ≠ 0 → (counted.failures name : Int) ≤ attributes.maxFailures)
    (successes : attributes.isDaemon = false → counted.successes name ≤ 1)
    (reason : counted.runs name = counted.totalRunLimit ∨
      counted.runs name < counted.totalRunLimit ∧ attributes.isEphemeral = false ∧ attributes.maxFailures ≠ 0 ∧
        (counted.failures name : Int) = attributes.maxFailures ∧
        (attributes.isDaemon = false → counted.successes name = 0)) : Accounted after name attributes := by
  rw [ended.plan]
  refine ⟨fun active => ?_, fun _ unbroken => ?_, fun ceased => absurd ceased pending.unfinished,
    fun _ => ⟨failures, successes, reason⟩⟩
  · exact absurd active (Finset.notMem_erase name _)
  · exact absurd (Finset.mem_insert_self name _) unbroken

theorem Accounted.running (accounted : Accounted before name attributes) (active : name ∈ before.planner.running) :
    Undecided before name ∧ before.runs name < before.totalRunLimit ∧
      (attributes.maxFailures ≠ 0 → (before.failures name : Int) < attributes.maxFailures) ∧
      (attributes.isDaemon = false → before.successes name = 0) := by
  obtain ⟨unfinished, unbroken⟩ := accounted.active active
  exact ⟨⟨unfinished, unbroken⟩, accounted.undecided unfinished unbroken⟩

theorem reached_iff : counted.hasReachedRunLimit name = true ↔ counted.totalRunLimit ≤ counted.runs name :=
  decide_eq_true_iff

theorem accounted_ofFailure (pending : Undecided counted name) (some : counted.runs name ≤ counted.totalRunLimit)
    (failures : attributes.maxFailures ≠ 0 → (counted.failures name : Int) ≤ attributes.maxFailures)
    (successes : attributes.isDaemon = false → counted.successes name = 0)
    (ended : Ended name (.ofFailure attributes (counted.hasReachedRunLimit name) (counted.failures name)) counted after) :
    Accounted after name attributes := by
  have all_failed : ¬ (attributes.maxFailures = 0 ∨ (counted.failures name : Int) < attributes.maxFailures) →
      attributes.maxFailures ≠ 0 ∧ (counted.failures name : Int) = attributes.maxFailures := by
    intro spent
    obtain ⟨limited, many⟩ := not_or.mp spent
    have := failures limited
    exact ⟨limited, by omega⟩
  unfold Ending.ofFailure at ended
  split_ifs at ended with reached less ephemeral
  · have all := reached_iff.mp reached
    exact accounted_failed pending ended failures (fun daemon => by have := successes daemon; omega) (.inl (by omega))
  · rw [reached_iff, Nat.not_le] at reached
    exact accounted_reset pending ended reached (fun limited => less.resolve_left limited) successes
  · rw [reached_iff, Nat.not_le] at reached
    exact accounted_finished pending ended reached (.inr ⟨ephemeral, (all_failed less).1, (all_failed less).2, successes⟩)
  · rw [reached_iff, Nat.not_le] at reached
    have lasting : attributes.isEphemeral = false := by simpa using ephemeral
    exact accounted_failed pending ended failures (fun daemon => by have := successes daemon; omega)
      (.inr ⟨reached, lasting, (all_failed less).1, (all_failed less).2, successes⟩)

theorem accounted_ofSuccess (pending : Undecided counted name) (some : counted.runs name ≤ counted.totalRunLimit)
    (failures : attributes.maxFailures ≠ 0 → (counted.failures name : Int) < attributes.maxFailures)
    (successes : attributes.isDaemon = false → counted.successes name = 1)
    (ended : Ended name (.ofSuccess attributes (counted.hasReachedRunLimit name)) counted after) :
    Accounted after name attributes := by
  unfold Ending.ofSuccess at ended
  split_ifs at ended with reached ordinary
  · have all := reached_iff.mp reached
    exact accounted_failed pending ended (fun limited => (failures limited).le) (fun daemon => (successes daemon).le)
      (.inl (by omega))
  · rw [reached_iff, Nat.not_le] at reached
    have daemon : attributes.isDaemon = false := by simpa using ordinary
    exact accounted_finished pending ended reached (.inl ⟨daemon, successes daemon, failures⟩)
  · rw [reached_iff, Nat.not_le] at reached
    have daemon : attributes.isDaemon = true := by simpa using ordinary
    exact accounted_reset pending ended reached failures (fun ordinary => by rw [daemon] at ordinary; cases ordinary)

theorem accounted_ofLoss (pending : Undecided counted name) (some : counted.runs name ≤ counted.totalRunLimit)
    (failures : attributes.maxFailures ≠ 0 → (counted.failures name : Int) < attributes.maxFailures)
    (successes : attributes.isDaemon = false → counted.successes name = 0)
    (ended : Ended name (.ofLoss (counted.hasReachedRunLimit name)) counted after) :
    Accounted after name attributes := by
  unfold Ending.ofLoss at ended
  split_ifs at ended with reached
  · have all := reached_iff.mp reached
    exact accounted_failed pending ended (fun limited => (failures limited).le)
      (fun daemon => by have := successes daemon; omega) (.inl (by omega))
  · rw [reached_iff, Nat.not_le] at reached
    exact accounted_reset pending ended reached failures successes

theorem Accounted.addFailure {timestamp : Time} (accounted : Accounted before name attributes)
    (known : before.attributes.get? name = some attributes)
    (ran : (addFailure name timestamp).run before = .ok () after) : Accounted after name attributes := by
  have ended := @failureTransition_ended { before with
    lastTerminal := before.lastTerminal.set name timestamp, failures := increment before.failures name } _ _ _ known ran
  obtain ⟨pending, few, failures, successes⟩ := accounted.running ended.active
  refine accounted_ofFailure ?_ ?_ ?_ ?_ ended
  · exact ⟨pending.unfinished, pending.unbroken⟩
  · simp only [runs, increment_self] at few ⊢
    omega
  · intro limited
    have := failures limited
    simp only [increment_self]
    omega
  · exact successes

theorem Accounted.addSuccess {timestamp : Time} (accounted : Accounted before name attributes)
    (known : before.attributes.get? name = some attributes)
    (ran : (addSuccess name timestamp).run before = .ok () after) : Accounted after name attributes := by
  have ended := @successTransition_ended { before with
    lastTerminal := before.lastTerminal.set name timestamp, successes := increment before.successes name } _ _ _ known ran
  obtain ⟨pending, few, failures, successes⟩ := accounted.running ended.active
  refine accounted_ofSuccess ?_ ?_ ?_ ?_ ended
  · exact ⟨pending.unfinished, pending.unbroken⟩
  · simp only [runs, increment_self] at few ⊢
    omega
  · exact failures
  · intro daemon
    have := successes daemon
    simp only [increment_self]
    omega

theorem Accounted.lost {timestamp : Time} (accounted : Accounted before name attributes)
    (ran : (lost name timestamp).run before = .ok () after) : Accounted after name attributes := by
  have ended := @lostTransition_ended { before with
    lastTerminal := before.lastTerminal.set name timestamp, losses := increment before.losses name } _ _ ran
  obtain ⟨pending, few, failures, successes⟩ := accounted.running ended.active
  refine accounted_ofLoss ?_ ?_ ?_ ?_ ended
  · exact ⟨pending.unfinished, pending.unbroken⟩
  · simp only [runs, increment_self] at few ⊢
    omega
  · exact failures
  · exact successes

theorem Accounted.setRunning (accounted : Accounted before name attributes)
    (ran : (setRunning name).run before = .ok () after) : Accounted after name attributes := by
  rw [TaskPlanner.setRunning, onPlanner_run, Planner.setRunning_run] at ran
  split_ifs at ran with met
  cases ran
  exact ⟨fun _ => ⟨met.2.1, met.1⟩, accounted.undecided, accounted.finished, accounted.failed⟩

def fires (operation : Operation) (plan : TaskPlanner) : Bool :=
  match (perform operation).run plan with
  | .error .assertion _ => true
  | _ => false

theorem fires_of_run {operation : Operation} (raised : (perform operation).run before = .error .assertion after) :
    fires operation before = true := by
  rw [fires, raised]

theorem onPlanner_raises {action : EStateM Error (Planner Name) Unit} {e : Error}
    (only : ∀ planner planner', action.run planner = .error e planner' → e = .assertion)
    (raised : (onPlanner action).run before = .error e after) : e = .assertion := by
  rw [onPlanner_run] at raised
  cases ran : action.run before.planner with
  | ok _ planner => simp [ran] at raised
  | error other planner =>
    simp only [ran] at raised
    cases raised
    exact only _ _ ran

theorem reset_raises {process : Name} {e : Error} (raised : (onPlanner (Planner.reset process)).run before = .error e after) :
    e = .assertion := by
  refine onPlanner_raises (fun planner planner' ran => ?_) raised
  rw [Planner.reset_run] at ran
  split_ifs at ran
  cases ran
  rfl

theorem setFinished_raises {process : Name} {e : Error}
    (raised : (onPlanner (Planner.setFinished process)).run before = .error e after) : e = .assertion := by
  refine onPlanner_raises (fun planner planner' ran => ?_) raised
  rw [Planner.setFinished_run] at ran
  split_ifs at ran
  cases ran
  rfl

theorem setFailed_raises {process : Name} {e : Error}
    (raised : (onPlanner (Planner.setFailed process)).run before = .error e after) : e = .assertion := by
  refine onPlanner_raises (fun planner planner' ran => ?_) raised
  rw [Planner.setFailed_run] at ran
  split_ifs at ran
  cases ran
  rfl

theorem setRunning_raises {process : Name} {e : Error}
    (raised : (onPlanner (Planner.setRunning process)).run before = .error e after) : e = .assertion := by
  refine onPlanner_raises (fun planner planner' ran => ?_) raised
  rw [Planner.setRunning_run] at ran
  split_ifs at ran
  cases ran
  rfl

theorem failureTransition_raises {process : Name} {e : Error} (known : before.attributes.get? process = some attributes)
    (raised : (failureTransition process).run before = .error e after) : e = .assertion := by
  simp only [failureTransition, EStateM.run_bind, EStateM.run_get] at raised
  split at raised
  · exact setFailed_raises raised
  · simp only [EStateM.run_bind, attributesOf_run, known] at raised
    split at raised
    · exact reset_raises raised
    · split at raised
      · exact setFinished_raises raised
      · exact setFailed_raises raised

theorem successTransition_raises {process : Name} {e : Error} (known : before.attributes.get? process = some attributes)
    (raised : (successTransition process).run before = .error e after) : e = .assertion := by
  simp only [successTransition, EStateM.run_bind, EStateM.run_get] at raised
  split at raised
  · exact setFailed_raises raised
  · simp only [EStateM.run_bind, attributesOf_run, known] at raised
    split at raised
    · exact setFinished_raises raised
    · exact reset_raises raised

theorem lostTransition_raises {process : Name} {e : Error}
    (raised : (lostTransition process).run before = .error e after) : e = .assertion := by
  simp only [lostTransition, EStateM.run_bind, EStateM.run_get] at raised
  split at raised
  · exact setFailed_raises raised
  · exact reset_raises raised

/-- On a process that the plan knows, only assertions can fail. -/
theorem perform_known {operation : Operation} (known : before.attributes.get? operation.process = some attributes)
    (passes : fires operation before = false) : ∃ after, (perform operation).run before = .ok () after := by
  cases ran : (perform operation).run before with
  | ok _ after => exact ⟨after, rfl⟩
  | error e after =>
    have fired : e = .assertion := by
      cases operation with
      | setRunning process => exact setRunning_raises ran
      | setFailed process => exact setFailed_raises ran
      | addSuccess process timestamp => exact @successTransition_raises { before with
          lastTerminal := before.lastTerminal.set process timestamp,
          successes := increment before.successes process } _ _ _ _ known ran
      | addFailure process timestamp => exact @failureTransition_raises { before with
          lastTerminal := before.lastTerminal.set process timestamp,
          failures := increment before.failures process } _ _ _ _ known ran
      | lost process timestamp => exact lostTransition_raises ran
    rw [fires_of_run (fired ▸ ran)] at passes
    cases passes

theorem Accounted.perform {operation : Operation} (accounted : Accounted before name attributes)
    (known : before.attributes.get? name = some attributes) (passes : fires operation before = false)
    (retrying : ∀ process, operation ≠ .setFailed process) :
    Accounted (final ((perform operation).run before)) name attributes := by
  by_cases other : name = operation.process
  · subst other
    obtain ⟨after, ran⟩ := perform_known known passes
    rw [ran]
    cases operation with
    | setRunning process => exact accounted.setRunning ran
    | addSuccess process timestamp => exact accounted.addSuccess known ran
    | addFailure process timestamp => exact accounted.addFailure known ran
    | lost process timestamp => exact accounted.lost ran
    | setFailed process => exact absurd rfl (retrying process)
  · exact accounted.untouched (untouched_perform other)

/-- No assertion fires on the way; an operation on a process that the plan does not know may raise a KeyError. -/
def noneFires : List Operation → TaskPlanner → Bool
  | [], _ => true
  | operation :: rest, plan => !fires operation plan && noneFires rest (final ((perform operation).run plan))

def afterAll (operations : List Operation) (plan : TaskPlanner) : TaskPlanner :=
  operations.foldl (fun plan operation => final ((perform operation).run plan)) plan

theorem perform_task (operation : Operation) (plan : TaskPlanner) :
    SameTask plan (final ((perform operation).run plan)) := by
  cases operation with
  | setRunning process => exact (setRunning_moved process plan).task
  | addSuccess process timestamp => exact (addSuccess_moved process timestamp plan).task
  | addFailure process timestamp => exact (addFailure_moved process timestamp plan).task
  | lost process timestamp => exact (lost_moved process timestamp plan).task
  | setFailed process =>
    rw [perform, setFailed, onPlanner_run]
    split <;> exact ⟨rfl, rfl, rfl⟩

theorem Accounted.afterAll {operations : List Operation} (accounted : Accounted plan name attributes)
    (known : plan.attributes.get? name = some attributes) (passes : noneFires operations plan = true)
    (retrying : ∀ process, .setFailed process ∉ operations) :
    Accounted (afterAll operations plan) name attributes := by
  induction operations generalizing plan with
  | nil => exact accounted
  | cons operation rest ih =>
    rw [noneFires, Bool.and_eq_true, Bool.not_eq_true'] at passes
    have first : ∀ process, operation ≠ .setFailed process := by
      rintro process rfl
      exact retrying process List.mem_cons_self
    refine ih (accounted.perform known passes.1 first) ?_ passes.2 fun process mem => ?_
    · rw [(perform_task operation plan).attributes, known]
    · exact retrying process (List.mem_cons_of_mem _ mem)

theorem Fresh.accounted {task : Task} {filter : Process → Bool} (fresh : Fresh task filter plan)
    (limit : 0 < plan.totalRunLimit) (sensible : 0 ≤ attributes.maxFailures) : Accounted plan name attributes := by
  obtain ⟨idle, unfinished, unbroken⟩ := fresh.idle
  obtain ⟨failures, successes, losses⟩ := fresh.uncounted
  constructor
  · simp [idle]
  · intro _ _
    simp only [runs, failures, successes, losses]
    exact ⟨limit, fun limited => by omega, fun _ => trivial⟩
  · simp [unfinished]
  · simp [unbroken]

/-- How the counts of a process decide what has become of it. -/
structure Decided (plan : TaskPlanner) (name : Name) (attributes : TaskAttributes) : Prop where
  runs_le : plan.runs name ≤ plan.totalRunLimit
  failures_le : 0 < attributes.maxFailures → (plan.failures name : Int) ≤ attributes.maxFailures
  failed_iff : name ∈ plan.planner.failed ↔ plan.runs name = plan.totalRunLimit ∨
    0 < attributes.maxFailures ∧ (plan.failures name : Int) = attributes.maxFailures ∧ attributes.isEphemeral = false
  finished_iff : name ∈ plan.planner.finished ↔ plan.runs name < plan.totalRunLimit ∧
    (attributes.isDaemon = false ∧ 0 < plan.successes name ∨
      attributes.isEphemeral = true ∧ 0 < attributes.maxFailures ∧ (plan.failures name : Int) = attributes.maxFailures)
  once : attributes.isDaemon = false → plan.successes name ≤ 1

theorem Accounted.decided_failed (accounted : Accounted plan name attributes)
    (limited : attributes.maxFailures ≠ 0 ↔ 0 < attributes.maxFailures) (broken : name ∈ plan.planner.failed) :
    Decided plan name attributes := by
  obtain ⟨failures, successes, reason⟩ := accounted.failed broken
  have unfinished : name ∉ plan.planner.finished := fun ceased => (accounted.finished ceased).1 broken
  simp only [limited] at failures reason
  constructor
  · omega
  · exact failures
  · simp only [broken, true_iff]
    rcases reason with all | ⟨-, lasting, positive, reached', -⟩
    · exact .inl all
    · exact .inr ⟨positive, reached', lasting⟩
  · simp only [unfinished, false_iff]
    intro ⟨less, reasons⟩
    rcases reason with all | ⟨-, lasting, -, -, none⟩
    · omega
    · rcases reasons with ⟨ordinary, some⟩ | ⟨ephemeral, -⟩
      · have := none ordinary
        omega
      · rw [lasting] at ephemeral
        cases ephemeral
  · exact successes

theorem Accounted.decided_finished (accounted : Accounted plan name attributes)
    (limited : attributes.maxFailures ≠ 0 ↔ 0 < attributes.maxFailures) (ceased : name ∈ plan.planner.finished) :
    Decided plan name attributes := by
  obtain ⟨unbroken, few, reason⟩ := accounted.finished ceased
  simp only [limited] at reason
  constructor
  · exact few.le
  · intro positive
    rcases reason with ⟨-, -, less⟩ | ⟨-, -, reached', -⟩
    · exact (less positive).le
    · exact reached'.le
  · simp only [unbroken, false_iff]
    rintro (all | ⟨positive, all, lasting⟩)
    · omega
    · rcases reason with ⟨-, -, less⟩ | ⟨ephemeral, -⟩
      · have := less positive
        omega
      · rw [lasting] at ephemeral
        cases ephemeral
  · simp only [ceased, true_iff]
    rcases reason with ⟨ordinary, one, -⟩ | ⟨ephemeral, positive, reached', -⟩
    · exact ⟨few, .inl ⟨ordinary, by omega⟩⟩
    · exact ⟨few, .inr ⟨ephemeral, positive, reached'⟩⟩
  · intro ordinary
    rcases reason with ⟨-, one, -⟩ | ⟨-, -, -, none⟩
    · exact one.le
    · have := none ordinary
      omega

theorem Accounted.decided_pending (accounted : Accounted plan name attributes)
    (limited : attributes.maxFailures ≠ 0 ↔ 0 < attributes.maxFailures) (pending : Undecided plan name) :
    Decided plan name attributes := by
  obtain ⟨unfinished, unbroken⟩ := pending
  obtain ⟨few, failures, successes⟩ := accounted.undecided unfinished unbroken
  simp only [limited] at failures
  constructor
  · exact few.le
  · exact fun positive => (failures positive).le
  · simp only [unbroken, false_iff]
    rintro (all | ⟨positive, all, -⟩)
    · omega
    · have := failures positive
      omega
  · simp only [unfinished, false_iff]
    rintro ⟨-, ⟨ordinary, some⟩ | ⟨-, positive, all⟩⟩
    · have := successes ordinary
      omega
    · have := failures positive
      omega
  · intro ordinary
    have := successes ordinary
    omega

theorem Accounted.decided (accounted : Accounted plan name attributes) (sensible : 0 ≤ attributes.maxFailures) :
    Decided plan name attributes := by
  have limited : attributes.maxFailures ≠ 0 ↔ 0 < attributes.maxFailures := by omega
  by_cases broken : name ∈ plan.planner.failed
  · exact accounted.decided_failed limited broken
  · by_cases ceased : name ∈ plan.planner.finished
    · exact accounted.decided_finished limited ceased
    · exact accounted.decided_pending limited ⟨ceased, broken⟩

theorem afterAll_task (operations : List Operation) (plan : TaskPlanner) : SameTask plan (afterAll operations plan) := by
  induction operations generalizing plan with
  | nil => exact ⟨rfl, rfl, rfl⟩
  | cons operation rest ih =>
    have first := perform_task operation plan
    have others := ih (final ((perform operation).run plan))
    exact ⟨others.attributes.trans first.attributes, others.ephemerals.trans first.ephemerals,
      others.totalRunLimit.trans first.totalRunLimit⟩

/-- After any operations but `set_failed`, in whatever order, the counts of a process say whether it has failed or
    finished. -/
theorem retries_decide {limit : Nat} {task : Task} {filter : Process → Bool} {operations : List Operation}
    (positive : 0 < limit) (planned : init limit task filter = .ok plan)
    (sensible : ∀ process ∈ task.processes, 0 ≤ process.maxFailures) (passes : noneFires operations plan = true)
    (retrying : ∀ process, .setFailed process ∉ operations) :
    (afterAll operations plan).totalRunLimit = limit ∧
      ∀ name, Selected task filter name → ∃ process ∈ task.processes, filter process = true ∧ process.name = name ∧
        plan.attributes.get? name = some (taskAttributes process) ∧
        Decided (afterAll operations plan) name (taskAttributes process) := by
  obtain ⟨fresh, rfl⟩ := fresh_of_init planned
  refine ⟨(afterAll_task operations plan).totalRunLimit, fun name selected => ?_⟩
  obtain ⟨process, listed, accepted, named, known⟩ := fresh.known name ((fresh.selected name).mpr selected)
  have sensible : 0 ≤ (taskAttributes process).maxFailures := sensible process listed
  have accounted := (fresh.accounted positive sensible).afterAll known passes retrying
  exact ⟨process, listed, accepted, named, known, accounted.decided sensible⟩

theorem retries_decide_pipeline : ∃ plan, init 100 pipeline (fun _ => true) = .ok plan ∧
    (afterAll fetched plan).totalRunLimit = 100 ∧
    ∀ name, Selected pipeline (fun _ => true) name → ∃ process ∈ pipeline.processes, true = true ∧ process.name = name ∧
      plan.attributes.get? name = some (taskAttributes process) ∧
      Decided (afterAll fetched plan) name (taskAttributes process) := by
  have passes : (init 100 pipeline (fun _ => true)).toOption.map (noneFires fetched) = some true := by decide +kernel
  cases planned : init 100 pipeline (fun _ => true) with
  | error e => simp [planned, Except.toOption] at passes
  | ok plan =>
    rw [planned] at passes
    refine ⟨plan, rfl, retries_decide (by decide) planned (by decide) (Option.some.inj passes) ?_⟩
    simp [fetched]

end Accounts

end TaskPlanner

end Aurora.Thermos
