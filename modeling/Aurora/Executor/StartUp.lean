import Aurora.Executor.HealthVerdict

namespace Aurora.Executor.ThreadedHealthChecker

open Streak

variable {settings : HealthCheckSettings} {probes : Nat → HealthProbe} {calls later : Nat}

theorem running_iff : (after settings probes calls).running = true ↔ Started settings probes calls := by
  rcases after_cases settings probes calls with follows | ⟨-, stopped, -, idle, -⟩
  · exact follows.running
  · simp [idle, stopped]

theorem follows_of_running (running : (after settings probes calls).running = true) :
    Follows settings probes calls (after settings probes calls) := by
  rcases after_cases settings probes calls with follows | ⟨-, -, -, idle, -⟩
  · exact follows
  · rw [idle] at running
    cases running

theorem follows_of_le (early : calls ≤ lastCheck settings) :
    Follows settings probes calls (after settings probes calls) := by
  rcases after_cases settings probes calls with follows | ⟨late, -⟩
  · exact follows
  · omega

theorem running_mono (le : calls ≤ later) (running : (after settings probes calls).running = true) :
    (after settings probes later).running = true := by
  rw [running_iff] at running ⊢
  exact started_mono le running

theorem healthy_step (ill : (after settings probes calls).healthy = false) :
    (after settings probes (calls + 1)).healthy = false := by
  rw [after]
  cases beyond : (after settings probes calls).shouldEnforceDeadline settings with
  | true =>
    rw [doHealthCheck_deadline settings beyond]
    rfl
  | false =>
    cases outcome : (probes calls).isHealthy with
    | true => rw [(doHealthCheck_passed settings beyond outcome).2.2.2.2, ill]
    | false =>
      rw [← Bool.not_eq_true, (doHealthCheck_failed settings beyond outcome).2.2.2.2, ill]
      exact fun h => Bool.false_ne_true h.1

theorem healthy_mono (le : calls ≤ later) (ill : (after settings probes calls).healthy = false) :
    (after settings probes later).healthy = false := by
  induction later, le using Nat.le_induction with
  | base => exact ill
  | succ later _ ih => exact healthy_step ih

theorem decided (late : lastCheck settings < calls) :
    (after settings probes calls).running = true ∨ (after settings probes calls).healthy = false := by
  rcases after_cases settings probes calls with follows | ⟨-, -, -, -, ill⟩
  · cases calls with
    | zero => exact absurd late (Nat.not_lt_zero _)
    | succ calls =>
      rcases after_cases settings probes calls with follows' | ⟨-, -, beyond, -, -⟩
      · cases beyond : (after settings probes calls).shouldEnforceDeadline settings with
        | true =>
          right
          rw [after, doHealthCheck_deadline settings beyond]
          rfl
        | false =>
          left
          have started : Started settings probes calls := by
            by_contra stopped
            rw [follows'.deadline.mpr ⟨stopped, Nat.lt_succ_iff.mp late⟩] at beyond
            cases beyond
          exact running_mono (Nat.le_succ calls) (running_iff.mpr started)
      · right
        rw [after, doHealthCheck_deadline settings beyond]
        rfl
  · exact .inr ill

/-- While it runs, a healthy checker fails only by too many failures in a row after the grace attempts. -/
theorem running_verdict (le : calls ≤ later) (running : (after settings probes calls).running = true)
    (healthy : (after settings probes calls).healthy = true) :
    (after settings probes later).healthy = false ↔ ∃ check, calls < check ∧ check ≤ later ∧
      EndsRun (counts settings probes) (settings.maxConsecutiveFailures + 1) check := by
  have follows := follows_of_running (running_mono le running)
  have quiet := (follows_of_running running).healthy.mp healthy
  have started := running_iff.mp running
  rw [← Bool.not_eq_true, follows.healthy]
  constructor
  · intro broken
    push Not at broken
    obtain ⟨check, before, verdict⟩ := broken
    have fresh : calls ≤ check := by
      by_contra earlier
      exact quiet check (Nat.not_le.mp earlier) verdict
    rcases verdict with ⟨-, -, stopped, -⟩ | many
    · exact absurd (started_mono fresh started) stopped
    · exact ⟨check + 1, by omega, before, le_streak.mp many⟩
  · rintro ⟨check, fresh, before, ends⟩ all
    obtain ⟨last, rfl⟩ : ∃ last, check = last + 1 := ⟨check - 1, by omega⟩
    exact all last before (.inr (le_streak.mpr ends))

end Aurora.Executor.ThreadedHealthChecker

namespace Aurora.Executor

open Streak ThreadedHealthChecker

/-- Running or unhealthy in time, for good; a running task fails exactly by its failures in a row. -/
theorem health_verdict (settings : HealthCheckSettings) (probes : Nat → HealthProbe) :
    (∀ calls : Nat, 0 < calls → settings.maxAttemptsToRunning + 2 ≤ calls →
      (after settings probes calls).running = true ∨ (after settings probes calls).healthy = false) ∧
    (∀ calls later, calls ≤ later → (after settings probes calls).healthy = false →
      (after settings probes later).healthy = false) ∧
    (∀ calls later, calls ≤ later → (after settings probes calls).running = true →
      (after settings probes later).running = true) ∧
    (∀ calls later, calls ≤ later → (after settings probes calls).running = true →
      (after settings probes calls).healthy = true →
      ((after settings probes later).healthy = false ↔ ∃ check, calls < check ∧ check ≤ later ∧
        EndsRun (counts settings probes) (settings.maxConsecutiveFailures + 1) check)) := by
  refine ⟨fun calls some_call late => ?_, fun _ _ le => healthy_mono le, fun _ _ le => running_mono le,
    fun _ _ le => running_verdict le⟩
  refine decided ?_
  simp only [lastCheck]
  omega

section StartUp

variable (settings : HealthCheckSettings) (probes : Nat → HealthProbe)

/-- The start-up law, whose deadline is the last attempt to get the task running. -/
structure StartUpLaw : Prop where
  starts : ∀ calls : Nat, calls ≤ settings.maxAttemptsToRunning →
    ((after settings probes calls).running = true ↔
      ∃ check ≤ calls, EndsRun (passes probes) settings.minConsecutiveSuccesses check)
  on_time : ∀ calls : Nat, settings.maxAttemptsToRunning ≤ calls → (after settings probes calls).running = false →
    (after settings probes (calls + 1)).running = true → (after settings probes (calls + 1)).healthy = false
  forgiving : ∀ calls : Nat, calls ≤ settings.forgivingAttempts →
    (after settings probes calls).healthy = true ∧ (after settings probes calls).currentConsecutiveFailures = 0
  deadline : (∀ calls : Nat, calls ≤ settings.maxAttemptsToRunning → (after settings probes calls).running = false) →
    ∀ calls : Nat, 0 < calls → settings.maxAttemptsToRunning + 2 ≤ calls → (after settings probes calls).healthy = false

def FirstRun (check : Nat) : Prop :=
  EndsRun (passes probes) settings.minConsecutiveSuccesses check ∧
    ∀ earlier < check, ¬ EndsRun (passes probes) settings.minConsecutiveSuccesses earlier

/-- The check after the deadline is the first to end enough successes in a row. -/
def EndsLate : Prop :=
  ∃ check : Nat, check = settings.maxAttemptsToRunning + 1 ∧ FirstRun settings probes check

/-- It does so, and no check before it brings the verdict: either the run has at most two successes or nothing comes
    before it, and some check of those right after the grace attempts succeeds. -/
def TurnsLate : Prop :=
  ∃ check : Nat, check = settings.maxAttemptsToRunning + 1 ∧ FirstRun settings probes check ∧
    (settings.minConsecutiveSuccesses ≤ 2 ∨ check = settings.minConsecutiveSuccesses) ∧
    (0 ≤ settings.forgivingAttempts → ∃ success : Nat, settings.forgivingAttempts ≤ success ∧
      success ≤ settings.forgivingAttempts + settings.maxConsecutiveFailures ∧ passes probes success = true)

variable {settings probes}

theorem started_early {calls : Nat} (early : calls ≤ lastCheck settings) :
    Started settings probes calls ↔ ∃ check ≤ calls, EndsRun (passes probes) settings.minConsecutiveSuccesses check := by
  rw [Started, Nat.min_eq_left early]

theorem firstRun_iff {calls : Nat} : FirstRun settings probes (calls + 1) ↔
    (∃ check ≤ calls + 1, EndsRun (passes probes) settings.minConsecutiveSuccesses check) ∧
    ¬ ∃ check ≤ calls, EndsRun (passes probes) settings.minConsecutiveSuccesses check := by
  constructor
  · rintro ⟨ends, first⟩
    exact ⟨⟨calls + 1, le_rfl, ends⟩, fun ⟨check, within, ends'⟩ => first check (Nat.lt_succ_of_le within) ends'⟩
  · rintro ⟨⟨check, within, ends⟩, none_before⟩
    have here : check = calls + 1 := by
      by_contra other
      exact none_before ⟨check, by omega, ends⟩
    exact ⟨here ▸ ends, fun earlier before ends' => none_before ⟨earlier, Nat.lt_succ_iff.mp before, ends'⟩⟩

theorem late_iff {calls : Nat} (late : settings.maxAttemptsToRunning ≤ calls) :
    ((after settings probes calls).running = false ∧ (after settings probes (calls + 1)).running = true) ↔
      (calls : Int) = settings.maxAttemptsToRunning ∧ FirstRun settings probes (calls + 1) := by
  rw [← Bool.not_eq_true, running_iff, running_iff]
  have last : calls < lastCheck settings ↔ (calls : Int) = settings.maxAttemptsToRunning := by
    simp only [lastCheck]
    omega
  constructor
  · rintro ⟨stopped, started⟩
    have early : calls < lastCheck settings := (started_succ.mp started).resolve_left stopped |>.1
    rw [started_early early] at started
    rw [started_early early.le] at stopped
    exact ⟨last.mp early, firstRun_iff.mpr ⟨started, stopped⟩⟩
  · rintro ⟨here, first⟩
    have early := last.mpr here
    rw [started_early early, started_early early.le]
    exact (firstRun_iff.mp first).symm

theorem turned_late {check : Nat} (here : check = settings.maxAttemptsToRunning + 1)
    (first : FirstRun settings probes check) :
    ∃ calls : Nat, check = calls + 1 ∧ (calls : Int) = settings.maxAttemptsToRunning ∧
      (after settings probes calls).running = false ∧ (after settings probes (calls + 1)).running = true := by
  have some_needed := settings.successes_pos
  have fits := first.1.1
  obtain ⟨calls, rfl⟩ : ∃ calls, check = calls + 1 := ⟨check - 1, by omega⟩
  have here' : (calls : Int) = settings.maxAttemptsToRunning := by omega
  exact ⟨calls, rfl, here', (late_iff here'.ge).mpr ⟨here', first⟩⟩

section Late

variable {calls : Nat} (here : (calls : Int) = settings.maxAttemptsToRunning)
  (first : FirstRun settings probes (calls + 1))

include here first

theorem failed_before_run (before : settings.minConsecutiveSuccesses ≤ calls) :
    passes probes (calls - settings.minConsecutiveSuccesses) = false := by
  obtain ⟨⟨_, all⟩, none_before⟩ := first
  by_contra passed
  refine none_before calls (Nat.lt_succ_self calls) ⟨before, fun i from_start inside => ?_⟩
  rcases Nat.eq_or_lt_of_le from_start with rfl | later
  · simpa using passed
  · exact all i (by omega) (by omega)

theorem late_failsFast (before : settings.minConsecutiveSuccesses ≤ calls) (many : 2 < settings.minConsecutiveSuccesses) :
    FailsFast settings probes (calls - settings.minConsecutiveSuccesses) := by
  have stopped : ¬ Started settings probes (calls - settings.minConsecutiveSuccesses) := by
    rintro ⟨check, within, ends⟩
    exact first.2 check (by omega) ends
  have failed := failed_before_run here first before
  unfold HealthCheckSettings.maxAttemptsToRunning at here
  refine ⟨failed, by omega, stopped, ?_, ?_⟩
  all_goals
    unfold HealthCheckSettings.maxAttemptsToRunning
    omega

omit first in
theorem late_unhealthy (grace : 0 ≤ settings.forgivingAttempts)
    (all : ∀ check : Nat, settings.forgivingAttempts ≤ check →
      check ≤ settings.forgivingAttempts + settings.maxConsecutiveFailures → passes probes check = false) :
    ∃ check < calls + 1, Verdict settings probes check := by
  have := settings.successes_pos
  unfold HealthCheckSettings.maxAttemptsToRunning at here
  obtain ⟨grace', grace_eq⟩ := Int.eq_ofNat_of_zero_le grace
  refine ⟨grace' + settings.maxConsecutiveFailures, by omega, .inr (le_streak.mpr ⟨by omega, fun i late before => ?_⟩)⟩
  have after_grace : settings.forgivingAttempts ≤ i := by omega
  simp [counts, after_grace, all i after_grace (by omega)]

theorem late_verdict {check : Nat} (before : check < calls + 1) (verdict : Verdict settings probes check) :
    (2 < settings.minConsecutiveSuccesses ∧ settings.minConsecutiveSuccesses ≤ calls) ∨
    (0 ≤ settings.forgivingAttempts ∧ ∀ i : Nat, settings.forgivingAttempts ≤ i →
      i ≤ settings.forgivingAttempts + settings.maxConsecutiveFailures → passes probes i = false) := by
  obtain ⟨⟨fits, all⟩, -⟩ := first
  have outside : passes probes check = false → check + settings.minConsecutiveSuccesses ≤ calls := by
    intro failed
    by_contra inside
    rw [all check (by omega) before] at failed
    cases failed
  unfold HealthCheckSettings.maxAttemptsToRunning at here
  rcases verdict with ⟨failed, -, -, late, short⟩ | many
  · left
    have := outside failed
    simp only [HealthCheckSettings.maxAttemptsToRunning] at late short
    omega
  · right
    obtain ⟨fits', failures⟩ := le_streak.mp many
    have last := failures check (by omega) (Nat.lt_succ_self check)
    have start := failures (check - settings.maxConsecutiveFailures) (by omega) (by omega)
    simp only [counts, Bool.and_eq_true, Bool.not_eq_true', decide_eq_true_eq] at last start
    have := outside last.1
    have exact_place : (check : Int) = settings.forgivingAttempts + settings.maxConsecutiveFailures := by omega
    refine ⟨by omega, fun i after_grace within => ?_⟩
    have failure := failures i (by omega) (by omega)
    simp only [counts, Bool.and_eq_true, Bool.not_eq_true', decide_eq_true_eq] at failure
    exact failure.1

theorem late_healthy_iff : (after settings probes (calls + 1)).healthy = true ↔
    (settings.minConsecutiveSuccesses ≤ 2 ∨ calls + 1 = settings.minConsecutiveSuccesses) ∧
    (0 ≤ settings.forgivingAttempts → ∃ success : Nat, settings.forgivingAttempts ≤ success ∧
      success ≤ settings.forgivingAttempts + settings.maxConsecutiveFailures ∧ passes probes success = true) := by
  have last : calls + 1 ≤ lastCheck settings := by
    simp only [lastCheck]
    omega
  rw [(follows_of_le last).healthy]
  constructor
  · intro quiet
    refine ⟨?_, fun grace => ?_⟩
    · by_contra long
      have fits := first.1.1
      have before : settings.minConsecutiveSuccesses ≤ calls := by omega
      exact quiet _ (by omega) (.inl (late_failsFast here first before (by omega)))
    · by_contra none_passed
      have all : ∀ check : Nat, settings.forgivingAttempts ≤ check →
          check ≤ settings.forgivingAttempts + settings.maxConsecutiveFailures → passes probes check = false := by
        intro check late within
        by_contra passed
        exact none_passed ⟨check, late, within, by simpa using passed⟩
      obtain ⟨check, before, verdict⟩ := late_unhealthy here grace all
      exact quiet check before verdict
  · rintro ⟨short, some_passed⟩ check before verdict
    rcases late_verdict here first before verdict with ⟨many, fits⟩ | ⟨grace, all⟩
    · omega
    · obtain ⟨success, late, within, passed⟩ := some_passed grace
      rw [all success late within] at passed
      cases passed

end Late

theorem turnsLate_iff : TurnsLate settings probes ↔ ∃ calls : Nat, settings.maxAttemptsToRunning ≤ calls ∧
    (after settings probes calls).running = false ∧ (after settings probes (calls + 1)).running = true ∧
    (after settings probes (calls + 1)).healthy = true := by
  constructor
  · rintro ⟨check, here, first, quiet⟩
    obtain ⟨calls, rfl, here', stopped, started⟩ := turned_late here first
    exact ⟨calls, here'.ge, stopped, started, (late_healthy_iff here' first).mpr quiet⟩
  · rintro ⟨calls, late, stopped, started, healthy⟩
    obtain ⟨here, first⟩ := (late_iff late).mp ⟨stopped, started⟩
    exact ⟨calls + 1, by omega, first, (late_healthy_iff here first).mp healthy⟩

theorem forgiving_quiet {calls : Nat} (grace : calls ≤ settings.forgivingAttempts) :
    (after settings probes calls).healthy = true ∧ (after settings probes calls).currentConsecutiveFailures = 0 := by
  have early : calls ≤ lastCheck settings := by
    have := settings.successes_pos
    simp only [lastCheck, HealthCheckSettings.maxAttemptsToRunning]
    omega
  have uncounted : ∀ check < calls, counts settings probes check = false := by
    intro check before
    have inside : ¬ settings.forgivingAttempts ≤ check := by omega
    simp [counts, inside]
  have follows := @follows_of_le settings probes calls early
  refine ⟨follows.healthy.mpr fun check before verdict => ?_, follows.failures.trans (streak_eq_zero uncounted)⟩
  rcases verdict with ⟨-, late, -⟩ | many
  · omega
  · rw [streak_bad (uncounted check before)] at many
    exact absurd many (Nat.not_lt_zero _)

theorem deadline_of_on_time (on_time : ∀ calls : Nat, settings.maxAttemptsToRunning ≤ calls →
      (after settings probes calls).running = false → (after settings probes (calls + 1)).running = true →
      (after settings probes (calls + 1)).healthy = false)
    (missed : ∀ calls : Nat, calls ≤ settings.maxAttemptsToRunning → (after settings probes calls).running = false)
    {calls : Nat} (late : lastCheck settings < calls) : (after settings probes calls).healthy = false := by
  rcases @decided settings probes calls late with running | ill
  · obtain ⟨check, within, ends⟩ := running_iff.mp running
    have some_check := started_pos ⟨check, within, ends⟩
    obtain ⟨last, last_eq⟩ : ∃ last, lastCheck settings = last + 1 := ⟨lastCheck settings - 1, by omega⟩
    have here : (last : Int) = settings.maxAttemptsToRunning := by
      simp only [lastCheck] at last_eq
      omega
    have started : Started settings probes (last + 1) := ⟨check, by omega, ends⟩
    have ill := on_time last here.ge (missed last here.le) (running_iff.mpr started)
    exact healthy_mono (by omega) ill
  · exact ill

end StartUp

/-- After a grace period that is not negative, only two successes in a row can come late. -/
theorem turnsLate_two {settings : HealthCheckSettings} {probes : Nat → HealthProbe} (late : TurnsLate settings probes)
    (grace : 0 ≤ settings.forgivingAttempts) :
    settings.minConsecutiveSuccesses = 2 ∧ 0 < settings.maxConsecutiveFailures := by
  obtain ⟨check, here, ⟨⟨fits, all⟩, first⟩, short, some_passed⟩ := late
  obtain ⟨success, after_grace, within, passed⟩ := some_passed grace
  have some_needed := settings.successes_pos
  unfold HealthCheckSettings.maxAttemptsToRunning at here
  have two : settings.minConsecutiveSuccesses = 2 := by
    by_contra other
    have one : settings.minConsecutiveSuccesses = 1 := by omega
    refine first (success + 1) (by omega) ⟨by omega, fun i late before => ?_⟩
    obtain rfl : i = success := by omega
    exact passed
  refine ⟨two, ?_⟩
  by_contra none_allowed
  refine first (success + 2) (by omega) ⟨by omega, fun i late before => ?_⟩
  rcases Nat.eq_or_lt_of_le (show success ≤ i by omega) with rfl | later
  · exact passed
  · exact all i (by omega) (by omega)

/-- No grace period, one failure allowed, two successes needed: the deadline is the third check. -/
def twoSuccesses : HealthCheckSettings where
  intervalSecs := 10
  gracePeriodSecs := some 0
  maxConsecutiveFailures := 1
  minConsecutiveSuccesses := 2
  interval_pos := by norm_num
  successes_pos := by norm_num

def flapping (check : Nat) : HealthProbe :=
  ⟨false, .ok (check ≠ 1, if check = 1 then some "reason" else none)⟩

end Aurora.Executor
