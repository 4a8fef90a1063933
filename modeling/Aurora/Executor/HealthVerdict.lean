import Aurora.Executor.HealthChecker

namespace Aurora.Executor.ThreadedHealthChecker

open Streak

section Calls

variable (settings : HealthCheckSettings) {checker : ThreadedHealthChecker} {probe : HealthProbe}

def nextAttempts (checker : ThreadedHealthChecker) : Nat :=
  if (checker.attempts : Int) ≤ settings.maxAttemptsToRunning then checker.attempts + 1 else checker.attempts

theorem doHealthCheck_deadline (beyond : checker.shouldEnforceDeadline settings = true) :
    checker.doHealthCheck settings probe = checker.unhealthy "Not enough successful health checks in time." :=
  if_pos beyond

theorem doHealthCheck_passed (inTime : checker.shouldEnforceDeadline settings = false) (passed : probe.isHealthy = true) :
    let next := checker.doHealthCheck settings probe
    next.attempts = checker.nextAttempts settings ∧
    next.currentConsecutiveSuccesses = checker.currentConsecutiveSuccesses + 1 ∧
    next.currentConsecutiveFailures = 0 ∧
    (next.running = true ↔ checker.running = true ∨
      settings.minConsecutiveSuccesses ≤ checker.currentConsecutiveSuccesses + 1) ∧
    next.healthy = checker.healthy := by
  have outcome : probe.performCheckIfNotDisabled.1 = true := passed
  unfold doHealthCheck maybeUpdateHealthCheckCount nextAttempts
  cases running : checker.running <;>
    by_cases early : (checker.attempts : Int) ≤ settings.maxAttemptsToRunning <;>
    by_cases enough : settings.minConsecutiveSuccesses ≤ checker.currentConsecutiveSuccesses + 1 <;>
    simp [inTime, outcome, early, enough]

theorem doHealthCheck_failed (inTime : checker.shouldEnforceDeadline settings = false)
    (failed : probe.isHealthy = false) :
    let next := checker.doHealthCheck settings probe
    next.attempts = checker.nextAttempts settings ∧
    next.currentConsecutiveSuccesses = 0 ∧
    next.currentConsecutiveFailures = (if (checker.nextAttempts settings : Int) ≤ settings.forgivingAttempts then
      checker.currentConsecutiveFailures else checker.currentConsecutiveFailures + 1) ∧
    next.running = checker.running ∧
    (next.healthy = true ↔ checker.healthy = true ∧ (settings.forgivingAttempts < checker.nextAttempts settings →
      ¬ (checker.running = false ∧ 1 < settings.maxAttemptsToRunning - checker.nextAttempts settings ∧
        settings.maxAttemptsToRunning - checker.nextAttempts settings < settings.minConsecutiveSuccesses) ∧
      ¬ settings.maxConsecutiveFailures < checker.currentConsecutiveFailures + 1)) := by
  have outcome : probe.performCheckIfNotDisabled.1 = false := failed
  have counted : (if (checker.attempts : Int) ≤ settings.maxAttemptsToRunning then
      { checker with snoozed := probe.snoozeFile, attempts := checker.attempts + 1 }
      else { checker with snoozed := probe.snoozeFile }) =
      { checker with snoozed := probe.snoozeFile, attempts := checker.nextAttempts settings } := by
    unfold nextAttempts
    split <;> rfl
  have called : checker.doHealthCheck settings probe =
      { checker with snoozed := probe.snoozeFile, attempts := checker.nextAttempts settings }.maybeUpdateHealthCheckCount
        settings false probe.performCheckIfNotDisabled.2 := by
    unfold doHealthCheck
    simp only [inTime, outcome]
    exact congrArg (fun checker => maybeUpdateHealthCheckCount settings checker false _) counted
  rw [called]
  unfold maybeUpdateHealthCheckCount shouldIgnoreFailure shouldFailFast
  generalize checker.nextAttempts settings = attempts
  by_cases ignored : (attempts : Int) ≤ settings.forgivingAttempts
  · simp [ignored, not_lt.mpr ignored]
  · cases running : checker.running <;>
      by_cases late : 1 < settings.maxAttemptsToRunning - (attempts : Int) <;>
      by_cases short : settings.maxAttemptsToRunning - (attempts : Int) < settings.minConsecutiveSuccesses <;>
      by_cases many : settings.maxConsecutiveFailures < checker.currentConsecutiveFailures + 1 <;>
      simp [ignored, late, short, many, unhealthy, not_le.mp ignored]

end Calls

section Runs

variable (settings : HealthCheckSettings) (probes : Nat → HealthProbe)

def passes (check : Nat) : Bool := (probes check).isHealthy

def counts (check : Nat) : Bool := !passes probes check && decide (settings.forgivingAttempts ≤ check)

/-- A task that is not running is checked no more once so many checks are made. -/
def lastCheck : Nat := (settings.maxAttemptsToRunning + 1).toNat

def Started (calls : Nat) : Prop :=
  ∃ check ≤ min calls (lastCheck settings), EndsRun (passes probes) settings.minConsecutiveSuccesses check

def FailsFast (check : Nat) : Prop :=
  passes probes check = false ∧ settings.forgivingAttempts ≤ check ∧ ¬ Started settings probes check ∧
    1 < settings.maxAttemptsToRunning - (check + 1) ∧
    settings.maxAttemptsToRunning - (check + 1) < settings.minConsecutiveSuccesses

def Verdict (check : Nat) : Prop :=
  FailsFast settings probes check ∨ settings.maxConsecutiveFailures < streak (counts settings probes) (check + 1)

structure Follows (calls : Nat) (checker : ThreadedHealthChecker) : Prop where
  attempts : checker.attempts = min calls (lastCheck settings)
  successes : checker.currentConsecutiveSuccesses = streak (passes probes) calls
  failures : checker.currentConsecutiveFailures = streak (counts settings probes) calls
  running : checker.running = true ↔ Started settings probes calls
  healthy : checker.healthy = true ↔ ∀ check < calls, ¬ Verdict settings probes check

variable {settings probes} {calls : Nat} {checker : ThreadedHealthChecker}

theorem forgiving_lt_lastCheck (some_check : 0 < lastCheck settings) :
    settings.forgivingAttempts < lastCheck settings := by
  have := settings.successes_pos
  simp only [lastCheck, HealthCheckSettings.maxAttemptsToRunning] at some_check ⊢
  omega

theorem started_pos (started : Started settings probes calls) : 0 < lastCheck settings := by
  obtain ⟨check, within, fits, -⟩ := started
  have := settings.successes_pos
  omega

theorem started_mono {later : Nat} (le : calls ≤ later) (started : Started settings probes calls) :
    Started settings probes later := by
  obtain ⟨check, within, ends⟩ := started
  exact ⟨check, by omega, ends⟩

theorem started_succ : Started settings probes (calls + 1) ↔ Started settings probes calls ∨
    calls < lastCheck settings ∧ EndsRun (passes probes) settings.minConsecutiveSuccesses (calls + 1) := by
  constructor
  · rintro ⟨check, within, ends⟩
    by_cases earlier : check ≤ min calls (lastCheck settings)
    · exact .inl ⟨check, earlier, ends⟩
    · obtain rfl : check = calls + 1 := by omega
      exact .inr ⟨by omega, ends⟩
  · rintro (started | ⟨inTime, ends⟩)
    · exact started_mono (Nat.le_succ calls) started
    · exact ⟨calls + 1, by omega, ends⟩

theorem Follows.deadline (follows : Follows settings probes calls checker) :
    checker.shouldEnforceDeadline settings = true ↔ ¬ Started settings probes calls ∧ lastCheck settings ≤ calls := by
  rw [← follows.running]
  simp only [shouldEnforceDeadline, follows.attempts, Bool.and_eq_true, Bool.not_eq_true', decide_eq_true_eq,
    Bool.not_eq_true, lastCheck]
  refine and_congr_right fun _ => ?_
  omega

theorem Follows.nextAttempts (follows : Follows settings probes calls checker) :
    checker.nextAttempts settings = min (calls + 1) (lastCheck settings) := by
  have last : ∀ attempts : Nat, (attempts : Int) ≤ settings.maxAttemptsToRunning ↔ attempts < lastCheck settings := by
    intro attempts
    simp only [lastCheck]
    omega
  rw [ThreadedHealthChecker.nextAttempts, follows.attempts, ite_congr (propext (last _)) (fun _ => rfl) (fun _ => rfl)]
  split <;> omega

/-- A check that is made lies within the grace attempts as its number does. -/
theorem Follows.forgiven (follows : Follows settings probes calls checker)
    (inTime : checker.shouldEnforceDeadline settings = false) :
    settings.forgivingAttempts < checker.nextAttempts settings ↔ settings.forgivingAttempts ≤ calls := by
  rw [follows.nextAttempts]
  have inTime' : Started settings probes calls ∨ calls < lastCheck settings := by
    by_contra beyond
    rw [not_or, Nat.not_lt] at beyond
    rw [follows.deadline.mpr beyond] at inTime
    cases inTime
  have some_check : 0 < lastCheck settings := by
    rcases inTime' with started | inTime'
    · exact started_pos started
    · omega
  have := forgiving_lt_lastCheck some_check
  omega

theorem Follows.failFast (follows : Follows settings probes calls checker)
    (inTime : checker.shouldEnforceDeadline settings = false) :
    (checker.running = false ∧ 1 < settings.maxAttemptsToRunning - checker.nextAttempts settings ∧
      settings.maxAttemptsToRunning - checker.nextAttempts settings < settings.minConsecutiveSuccesses) ↔
    (¬ Started settings probes calls ∧ 1 < settings.maxAttemptsToRunning - (calls + 1) ∧
      settings.maxAttemptsToRunning - (calls + 1) < settings.minConsecutiveSuccesses) := by
  rw [← follows.running, Bool.not_eq_true]
  refine and_congr_right fun stopped => ?_
  have early : calls < lastCheck settings := by
    by_contra beyond
    have started : ¬ Started settings probes calls := by
      rw [← follows.running, stopped]
      exact Bool.false_ne_true
    rw [follows.deadline.mpr ⟨started, Nat.not_lt.mp beyond⟩] at inTime
    cases inTime
  rw [follows.nextAttempts, Nat.min_eq_left early]
  push_cast
  rfl

theorem Follows.passed (follows : Follows settings probes calls checker)
    (inTime : checker.shouldEnforceDeadline settings = false) (passed : passes probes calls = true) :
    Follows settings probes (calls + 1) (checker.doHealthCheck settings (probes calls)) := by
  obtain ⟨attempts, successes, failures, running, healthy⟩ := doHealthCheck_passed settings inTime passed
  have uncounted : counts settings probes calls = false := by simp [counts, passed]
  have no_verdict : ¬ Verdict settings probes calls := by
    rintro (⟨failed, -⟩ | many)
    · rw [passed] at failed
      cases failed
    · rw [streak_bad uncounted] at many
      exact absurd many (Nat.not_lt_zero _)
  refine ⟨attempts.trans follows.nextAttempts, ?_, failures.trans (streak_bad uncounted).symm, ?_, ?_⟩
  · rw [successes, follows.successes, streak_good passed]
  · rw [running, follows.running, started_succ, follows.successes, ← streak_good passed, le_streak]
    constructor
    · rintro (started | ends)
      · exact .inl started
      · by_cases early : calls < lastCheck settings
        · exact .inr ⟨early, ends⟩
        · left
          by_contra stopped
          rw [follows.deadline.mpr ⟨stopped, Nat.not_lt.mp early⟩] at inTime
          cases inTime
    · rintro (started | ⟨-, ends⟩)
      · exact .inl started
      · exact .inr ends
  · rw [healthy, follows.healthy, Nat.forall_lt_succ_right]
    exact ⟨fun h => ⟨h, no_verdict⟩, fun h => h.1⟩

theorem Follows.failed (follows : Follows settings probes calls checker)
    (inTime : checker.shouldEnforceDeadline settings = false) (failed : passes probes calls = false) :
    Follows settings probes (calls + 1) (checker.doHealthCheck settings (probes calls)) := by
  obtain ⟨attempts, successes, failures, running, healthy⟩ := doHealthCheck_failed settings inTime failed
  have unfinished : ¬ EndsRun (passes probes) settings.minConsecutiveSuccesses (calls + 1) := by
    rw [← le_streak, streak_bad failed]
    exact Nat.not_le.mpr settings.successes_pos
  have counted : streak (counts settings probes) (calls + 1) =
      if (checker.nextAttempts settings : Int) ≤ settings.forgivingAttempts then
        checker.currentConsecutiveFailures else checker.currentConsecutiveFailures + 1 := by
    rw [follows.failures]
    by_cases late : settings.forgivingAttempts < checker.nextAttempts settings
    · rw [if_neg (not_le.mpr late), streak_good]
      simpa [counts, failed] using (follows.forgiven inTime).mp late
    · have grace : ∀ check < calls + 1, counts settings probes check = false := by
        intro check before
        have forgiven := (follows.forgiven inTime).not.mp late
        have early : ¬ settings.forgivingAttempts ≤ check := by omega
        simp [counts, early]
      rw [if_pos (not_lt.mp late), streak_eq_zero grace]
      exact (streak_eq_zero fun check before => grace check (by omega)).symm
  refine ⟨attempts.trans follows.nextAttempts, successes.trans (streak_bad failed).symm, failures.trans counted.symm,
    ?_, ?_⟩
  · rw [running, follows.running, started_succ]
    exact ⟨.inl, fun h => h.resolve_right fun ends => unfinished ends.2⟩
  · rw [healthy, follows.healthy, Nat.forall_lt_succ_right]
    refine and_congr_right fun _ => ?_
    rw [follows.failFast inTime, follows.forgiven inTime, Verdict, FailsFast, not_or]
    by_cases late : settings.forgivingAttempts ≤ calls
    · rw [counted, if_neg (not_le.mpr ((follows.forgiven inTime).mpr late))]
      simp [late, failed]
    · have grace : counts settings probes calls = false := by simp [counts, late]
      simp [late, streak_bad grace]

theorem follows_zero (settings : HealthCheckSettings) (probes : Nat → HealthProbe) :
    Follows settings probes 0 (after settings probes 0) := by
  refine ⟨(Nat.zero_min _).symm, rfl, rfl, ?_, ?_⟩
  · have idle : ¬ Started settings probes 0 := by
      rintro ⟨check, within, fits, -⟩
      have := settings.successes_pos
      omega
    simp [after, idle]
  · simp [after]

theorem not_started_succ (late : lastCheck settings ≤ calls) (stopped : ¬ Started settings probes calls) :
    ¬ Started settings probes (calls + 1) := by
  rw [started_succ]
  rintro (started | ⟨early, -⟩)
  · exact stopped started
  · omega

theorem after_cases (settings : HealthCheckSettings) (probes : Nat → HealthProbe) (calls : Nat) :
    Follows settings probes calls (after settings probes calls) ∨
    (lastCheck settings < calls ∧ ¬ Started settings probes calls ∧
      (after settings probes calls).shouldEnforceDeadline settings = true ∧
      (after settings probes calls).running = false ∧ (after settings probes calls).healthy = false) := by
  induction calls with
  | zero => exact .inl (follows_zero settings probes)
  | succ calls ih =>
    rw [after]
    rcases ih with follows | ⟨late, stopped, beyond, idle, ill⟩
    · cases beyond : (after settings probes calls).shouldEnforceDeadline settings with
      | false =>
        left
        cases outcome : passes probes calls with
        | true => exact follows.passed beyond outcome
        | false => exact follows.failed beyond outcome
      | true =>
        right
        obtain ⟨stopped, late⟩ := follows.deadline.mp beyond
        have idle : (after settings probes calls).running = false := by
          rw [← Bool.not_eq_true, follows.running]
          exact stopped
        rw [doHealthCheck_deadline settings beyond]
        exact ⟨Nat.lt_succ_of_le late, not_started_succ late stopped, beyond, idle, rfl⟩
    · right
      rw [doHealthCheck_deadline settings beyond]
      exact ⟨late.trans (Nat.lt_succ_self calls), not_started_succ late.le stopped, beyond, idle, rfl⟩

end Runs

end Aurora.Executor.ThreadedHealthChecker
