import Aurora.Client.Api.Restarter
import Aurora.Client.Cli.KillBatches

namespace Aurora.Client.Cli

open Replay

structure RestartOptions where
  batchSize : Int := 1
  maxPerInstanceFailures : Int := 0
  maxTotalFailures : Int := 0
  strict : Bool := false
  config : Option String := none
  openBrowser : Bool := false

def RestartOptions.settings (options : RestartOptions) : RestartSettings where
  batchSize := options.batchSize
  maxPerInstanceFailures := options.maxPerInstanceFailures
  maxTotalFailures := options.maxTotalFailures

namespace RestartCommand

variable (clusters : List String) (sets : SetOrder) (options : RestartOptions) (job : AuroraJobKey)
  (restart : Option (List Int) → RestartSettings → Except Raised SchedulerResponse)

def successMsg : String := "Job " ++ toPath job ++ " restarted successfully"

def report (response : SchedulerResponse) : Command ExitCode := do
  Context.logResponseAndRaise { responseCode := response.responseCode, details := response.details } .apiError
    ("Error restarting job " ++ toPath job ++ ":")
  observe (.printOut (successMsg job))
  if options.openBrowser then
    observe (.openedBrowser job)
  return .ok

def requireActive (instances : Option (List Int)) : Command Unit :=
  match instances with
  | none => return
  | some instances => do
    if options.strict then
      let _ ← Context.getActiveInstancesOrRaise clusters sets job instances

/-- `instances` is None for ALL_INSTANCES; a negative limit of failures per instance is none at all. -/
def execute (instances : Option (List Int)) : Command ExitCode :=
  if options.maxTotalFailures < 0 then do
    observe (.printErr ("max_total_failures option must be >0, but you specified " ++ toString options.maxTotalFailures))
    return .invalidParameter
  else do
    requireActive clusters sets options job instances
    Context.getApi clusters job.cluster
    Context.getJobConfigOptional options.config
    let response ← called (restart instances options.settings)
    report options job response

variable {options job} {session after : Session} {response : SchedulerResponse} {code : ExitCode}

theorem report_ok : (report options job response).run session = .ok code after ↔
    response.responseCode = .ok ∧ code = .ok ∧ after = { session with
      log := session.log ++ .printOut (successMsg job) :: if options.openBrowser then [.openedBrowser job] else [] } := by
  simp only [report, run_bind_ok, logResponseAndRaise_ok, observe_ok]
  constructor
  · rintro ⟨_, _, ⟨accepted, rfl⟩, _, _, rfl, ran⟩
    refine ⟨accepted, ?_⟩
    cases browser : options.openBrowser with
    | false =>
      simp only [browser, Bool.false_eq_true, if_false, EStateM.run_pure, EStateM.Result.ok.injEq] at ran ⊢
      exact ⟨ran.1.symm, ran.2.symm⟩
    | true =>
      simp only [browser, if_true, run_bind_ok, observe_ok, EStateM.run_pure, EStateM.Result.ok.injEq] at ran
      obtain ⟨_, _, rfl, rfl, rfl⟩ := ran
      simp
  · rintro ⟨accepted, rfl, rfl⟩
    refine ⟨(), session, ⟨accepted, rfl⟩, (), _, rfl, ?_⟩
    cases browser : options.openBrowser with
    | false => simp
    | true =>
      simp only [if_true, run_bind_ok, observe_ok, EStateM.run_pure, EStateM.Result.ok.injEq]
      exact ⟨(), _, rfl, trivial, by simp⟩

/-- The command exits with 0 only on a restart that has responded with OK, and says so. -/
theorem execute_ok {instances : Option (List Int)}
    (ran : (execute clusters sets options job restart instances).run session = .ok .ok after) :
    0 ≤ options.maxTotalFailures ∧ ∃ response, restart instances options.settings = .ok response ∧
      response.responseCode = .ok ∧ .printOut (successMsg job) ∈ after.log := by
  unfold execute at ran
  split at ran
  · simp only [run_bind_ok, observe_ok, EStateM.run_pure, EStateM.Result.ok.injEq] at ran
    obtain ⟨_, _, -, wrong, -⟩ := ran
    cases wrong
  · next tolerant =>
    simp only [run_bind_ok, called_ok] at ran
    obtain ⟨_, _, -, _, _, -, _, _, -, response, _, ⟨responded, rfl⟩, reported⟩ := ran
    obtain ⟨accepted, -, rfl⟩ := report_ok.mp reported
    exact ⟨not_lt.mp tolerant, response, responded, accepted, by simp⟩

end RestartCommand

end Aurora.Client.Cli
