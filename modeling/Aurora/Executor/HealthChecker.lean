import Aurora.Executor.StatusChecker
import Aurora.Library.Streak
import Mathlib.Algebra.Order.Floor.Defs
import Mathlib.Data.Rat.Floor

namespace Aurora.Executor

open Streak

/-- How a health checker is set up; time is exact. -/
structure HealthCheckSettings where
  intervalSecs : ℚ
  gracePeriodSecs : Option ℚ
  maxConsecutiveFailures : Nat
  minConsecutiveSuccesses : Nat
  interval_pos : 0 < intervalSecs
  successes_pos : 0 < minConsecutiveSuccesses

namespace HealthCheckSettings

variable (settings : HealthCheckSettings)

def gracePeriod : ℚ := settings.gracePeriodSecs.getD (settings.intervalSecs * 2)

def forgivingAttempts : Int := ⌈settings.gracePeriod / settings.intervalSecs⌉

def maxAttemptsToRunning : Int :=
  settings.forgivingAttempts + settings.maxConsecutiveFailures + settings.minConsecutiveSuccesses

end HealthCheckSettings

/-- What a check meets: whether the snooze file is there, and what the checker returns or raises. -/
structure HealthProbe where
  snoozeFile : Bool
  checked : Except String (Bool × Option String)

structure ThreadedHealthChecker where
  attempts : Nat := 0
  currentConsecutiveFailures : Nat := 0
  currentConsecutiveSuccesses : Nat := 0
  snoozed : Bool := false
  running : Bool := false
  healthy : Bool := true
  reason : Option String := none
  deriving DecidableEq

namespace HealthProbe

def performCheckIfNotDisabled (probe : HealthProbe) : Bool × Option String :=
  if probe.snoozeFile then (true, none)
  else
    match probe.checked with
    | .ok result => result
    | .error e => (false, "Internal health check error: " ++ e)

def isHealthy (probe : HealthProbe) : Bool := probe.performCheckIfNotDisabled.1

end HealthProbe

namespace ThreadedHealthChecker

variable (settings : HealthCheckSettings) (checker : ThreadedHealthChecker)

def shouldFailFast : Bool :=
  !checker.running && decide (1 < settings.maxAttemptsToRunning - checker.attempts) &&
    decide (settings.maxAttemptsToRunning - checker.attempts <
      (settings.minConsecutiveSuccesses : Int) - checker.currentConsecutiveSuccesses)

def shouldIgnoreFailure : Bool := decide ((checker.attempts : Int) ≤ settings.forgivingAttempts)

def shouldEnforceDeadline : Bool := !checker.running && decide (settings.maxAttemptsToRunning < checker.attempts)

def unhealthy (reason : Option String) : ThreadedHealthChecker :=
  { checker with healthy := false, reason }

def maybeUpdateHealthCheckCount (isHealthy : Bool) (reason : Option String) : ThreadedHealthChecker :=
  if !isHealthy then
    let checker := { checker with currentConsecutiveSuccesses := 0 }
    if checker.shouldIgnoreFailure settings then checker
    else
      let checker := if checker.shouldFailFast settings then checker.unhealthy reason else checker
      let checker := { checker with currentConsecutiveFailures := checker.currentConsecutiveFailures + 1 }
      if settings.maxConsecutiveFailures < checker.currentConsecutiveFailures then checker.unhealthy reason else checker
  else
    let checker := { checker with currentConsecutiveSuccesses := checker.currentConsecutiveSuccesses + 1 }
    let checker :=
      if !checker.running && decide (settings.minConsecutiveSuccesses ≤ checker.currentConsecutiveSuccesses) then
        { checker with running := true }
      else checker
    { checker with currentConsecutiveFailures := 0 }

def doHealthCheck (probe : HealthProbe) : ThreadedHealthChecker :=
  if checker.shouldEnforceDeadline settings then
    checker.unhealthy "Not enough successful health checks in time."
  else
    let (isHealthy, reason) := probe.performCheckIfNotDisabled
    let checker := { checker with snoozed := probe.snoozeFile }
    let checker :=
      if (checker.attempts : Int) ≤ settings.maxAttemptsToRunning then { checker with attempts := checker.attempts + 1 }
      else checker
    checker.maybeUpdateHealthCheckCount settings isHealthy reason

def after (probes : Nat → HealthProbe) : Nat → ThreadedHealthChecker
  | 0 => {}
  | calls + 1 => (after probes calls).doHealthCheck settings (probes calls)

def status : StatusResult :=
  if checker.healthy then
    if checker.running then ⟨"Task is healthy.", .running⟩ else ⟨none, .starting⟩
  else ⟨"Failed health check! " ++ checker.reason.getD "None", .failed⟩

end ThreadedHealthChecker

end Aurora.Executor
