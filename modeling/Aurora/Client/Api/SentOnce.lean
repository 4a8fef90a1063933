import Aurora.Client.Api.SchedulerClient
import Aurora.Library.Guarantee
import Mathlib.Data.List.Basic

namespace Aurora.Client

open Guarantee SchedulerProxy

variable {Arg : Type}

namespace HandOver

/-- The scheduler did not process the call, or nothing was sent. -/
def Harmless (call : HandOver Arg) : Prop :=
  (∃ details, call.outcome = .response (some .errorTransient) details) ∨ ∃ text, call.outcome = .typeError false text

def Exhausted (params : Nat) (call : HandOver Arg) : Prop := call.filling = true ∧ params ≤ call.args.length

def Continued (params : Nat) (call : HandOver Arg) : Prop :=
  (∃ details, call.outcome = .response (some .errorTransient) details) ∨
    ∃ sent text, call.outcome = .typeError sent text ∧ ¬ call.Exhausted params

/-- A TypeError is passed on only when there is nothing left to fill. -/
def Final (params : Nat) (call : HandOver Arg) : Prop :=
  ∀ sent text, call.outcome = .typeError sent text → call.Exhausted params

end HandOver

/-- The request is handed over again only after hand-overs that have not reached the scheduler. -/
def SentOnce (handOvers : List (HandOver Arg)) : Prop := ∀ call ∈ handOvers.dropLast, call.Harmless

/-- Every TypeError comes from binding the arguments, before anything is sent; once all parameters have been
    filled it does not matter any more. -/
def BindingOnly (params : Nat) (handOvers : List (HandOver Arg)) : Prop :=
  ∀ call ∈ handOvers, ∀ text, call.outcome = .typeError true text → call.Exhausted params

structure Shaped (params : Nat) (handOvers : List (HandOver Arg)) : Prop where
  earlier : ∀ call ∈ handOvers.dropLast, call.Continued params
  last : ∀ call, handOvers.getLast? = some call → call.Final params

def AllContinued (params : Nat) (handOvers : List (HandOver Arg)) : Prop := ∀ call ∈ handOvers, call.Continued params

section Shape

variable {params : Nat} {handOvers : List (HandOver Arg)} {call : HandOver Arg}

theorem Shaped.snoc (continued : AllContinued params handOvers) (final : call.Final params) :
    Shaped params (handOvers ++ [call]) where
  earlier := by
    rw [List.dropLast_concat]
    exact continued
  last := by
    intro last ended
    rw [List.getLast?_concat] at ended
    cases ended
    exact final

theorem AllContinued.snoc (continued : AllContinued params handOvers) (again : call.Continued params) :
    AllContinued params (handOvers ++ [call]) := by
  intro other member
  rcases List.mem_append.mp member with member | member
  · exact continued other member
  · rw [List.mem_singleton.mp member]
    exact again

/-- In a run that is shaped like this the two readings agree. -/
theorem Shaped.sentOnce_iff (shaped : Shaped params handOvers) :
    SentOnce handOvers ↔ BindingOnly params handOvers := by
  constructor
  · intro once call member text raised
    rcases List.eq_nil_or_concat' handOvers with rfl | ⟨earlier, last, rfl⟩
    · cases member
    rcases List.mem_append.mp member with before | ended
    · have harmless := once call (by simpa using before)
      rcases harmless with ⟨details, transient⟩ | ⟨other, unsent⟩
      · rw [raised] at transient
        cases transient
      · rw [raised] at unsent
        cases unsent
    · rw [List.mem_singleton.mp ended] at raised ⊢
      exact shaped.last last (by simp) true text raised
  · intro binding call member
    rcases shaped.earlier call member with transient | ⟨sent, text, raised, more⟩
    · exact .inl transient
    · cases sent with
      | false => exact .inr ⟨text, raised⟩
      | true => exact absurd (binding call (List.dropLast_subset _ member) text raised) more

end Shape

section Quiet

variable {proxy : Proxy Arg}

/-- Nothing is handed over, and a proxy told to terminate stays so. -/
def Quiet (before after : Proxy Arg) : Prop :=
  after.handOvers = before.handOvers ∧ (before.terminating = true → after.terminating = true)

theorem Quiet.trans {before middle after : Proxy Arg} (first : Quiet before middle) (second : Quiet middle after) :
    Quiet before after :=
  ⟨second.1.trans first.1, fun told => second.2 (first.2 told)⟩

theorem quiet_tick : Ends tick proxy fun _ after => Quiet proxy after := by
  cases pending : proxy.ticks with
  | nil =>
    have ran : (tick : StateM (Proxy Arg) Tick).run proxy = ({}, proxy) := by
      simp only [tick, StateT.run, pending]
    unfold Ends
    rw [ran]
    exact ⟨rfl, id⟩
  | cons first rest =>
    have ran : (tick : StateM (Proxy Arg) Tick).run proxy = (first, { proxy with
        ticks := rest
        terminating := proxy.terminating || first.terminate
        connected := proxy.connected && !first.terminate }) := by
      simp only [tick, StateT.run, pending]
    unfold Ends
    rw [ran]
    exact ⟨rfl, fun told => by simp [told]⟩

theorem quiet_isTerminating : Ends isTerminating proxy fun told after =>
    Quiet proxy after ∧ (told = true ↔ after.terminating = true) := by
  refine quiet_tick.bind fun _ middle quiet => ?_
  exact Ends.get (Ends.pure ⟨quiet, Iff.rfl⟩)

theorem quiet_connectLoop (cluster : String) (rounds : Nat) :
    Ends (connectLoop cluster rounds) proxy fun result after =>
      Quiet proxy after ∧ ∀ text, result ≠ .error (.transport text) ∧ result ≠ .error (.transient text) := by
  induction rounds generalizing proxy with
  | zero => exact Ends.pure ⟨⟨rfl, id⟩, fun _ => by simp⟩
  | succ rounds ih =>
    refine quiet_tick.bind fun now middle quiet => ?_
    split
    · exact Ends.pure ⟨quiet, fun _ => by simp⟩
    · split
      · exact Ends.modified (Ends.pure ⟨quiet, fun _ => by simp⟩)
      · exact ih.weaken fun result after ended => ⟨quiet.trans ended.1, ended.2⟩
      · exact Ends.pure ⟨quiet, fun _ => by simp⟩
      · exact Ends.pure ⟨quiet, fun _ => by simp⟩

theorem quiet_client (cluster : String) (rounds : Nat) :
    Ends (client cluster rounds) proxy fun result after =>
      Quiet proxy after ∧ ∀ text, result ≠ .error (.transport text) ∧ result ≠ .error (.transient text) := by
  refine Ends.get ?_
  split
  · exact Ends.pure ⟨⟨rfl, id⟩, fun _ => by simp⟩
  · refine quiet_tick.bind fun now middle quiet => ?_
    split
    · exact Ends.pure ⟨quiet, fun _ => by simp⟩
    · exact (quiet_connectLoop cluster rounds).weaken fun result after ended => ⟨quiet.trans ended.1, ended.2⟩

end Quiet

section Calls

variable {params : Nat} {proxy : Proxy Arg}

theorem handOver_logs (args : List (Option Arg)) (filling : Bool) :
    Ends (handOver args filling) proxy fun outcome after =>
      after.handOvers = proxy.handOvers ++ [⟨args, filling, outcome⟩] ∧
        (proxy.terminating = true → after.terminating = true) := by
  refine quiet_tick.bind fun now middle quiet => ?_
  refine Ends.modified (Ends.pure ⟨?_, quiet.2⟩)
  show middle.handOvers ++ _ = _
  rw [quiet.1]

/-- What an attempt leaves: only a transient answer asks for another hand-over. -/
structure Attempted (params : Nat) (result : Except Raised (Option ResponseCode)) (before after : Proxy Arg) :
    Prop where
  shaped : Shaped params after.handOvers
  again : ∀ text, result = .error (.transient text) ∨ result = .error (.timeout text) →
    AllContinued params after.handOvers
  told : before.terminating = true → after.terminating = true

theorem settle_transient {outcome : CallOutcome} {text : String}
    (again : settle outcome = .error (.transient text) ∨ settle outcome = .error (.timeout text)) :
    ∃ details, outcome = .response (some .errorTransient) details := by
  unfold settle at again
  split at again <;> simp at again
  exact ⟨_, rfl⟩

theorem attempted_settle {outcome : CallOutcome} {args : List (Option Arg)} {filling : Bool} {after : Proxy Arg}
    (continued : AllContinued params proxy.handOvers)
    (logged : after.handOvers = proxy.handOvers ++ [⟨args, filling, outcome⟩])
    (told : proxy.terminating = true → after.terminating = true)
    (final : (⟨args, filling, outcome⟩ : HandOver Arg).Final params) :
    Attempted params (settle outcome) proxy after where
  shaped := by
    rw [logged]
    exact .snoc continued final
  again := by
    intro text again
    rw [logged]
    exact continued.snoc (.inl (settle_transient again))
  told := told

theorem attempted_fillArguments (missing : Nat) (args : List (Option Arg)) (left : missing = params - args.length)
    (continued : AllContinued params proxy.handOvers) :
    Ends (fillArguments missing args) proxy fun result after => Attempted params result proxy after := by
  induction missing generalizing args proxy with
  | zero =>
    refine (handOver_logs args true).bind fun outcome middle logged => ?_
    have final : (⟨args, true, outcome⟩ : HandOver Arg).Final params := by
      intro sent text raised
      exact ⟨rfl, by simp only; omega⟩
    exact Ends.pure (attempted_settle continued logged.1 logged.2 final)
  | succ missing ih =>
    refine (handOver_logs args true).bind fun outcome middle logged => ?_
    cases outcome with
    | typeError sent text =>
      have open_args : ¬ (⟨args, true, .typeError sent text⟩ : HandOver Arg).Exhausted params := by
        rintro ⟨-, full⟩
        simp only at full
        omega
      have continued' : AllContinued params middle.handOvers := by
        rw [logged.1]
        exact continued.snoc (.inr ⟨sent, text, rfl, open_args⟩)
      have shorter : missing = params - (args ++ [none]).length := by
        rw [List.length_append, List.length_singleton]
        omega
      refine (ih (args ++ [none]) shorter continued').weaken fun result after ended => ?_
      exact ⟨ended.shaped, ended.again, fun told => ended.told (logged.2 told)⟩
    | _ => exact Ends.pure (attempted_settle continued logged.1 logged.2 fun _ _ raised => by cases raised)

theorem attempted_attempt (cluster : String) (rounds : Nat) (args : List (Option Arg))
    (shaped : Shaped params proxy.handOvers) (continued : AllContinued params proxy.handOvers) :
    Ends (attempt cluster rounds params args) proxy fun result after => Attempted params result proxy after := by
  refine (quiet_client cluster rounds).bind fun connected middle ended => ?_
  obtain ⟨⟨same, told⟩, -⟩ := ended
  rw [← same] at shaped continued
  cases connected with
  | error e => exact Ends.pure ⟨shaped, fun _ _ => continued, told⟩
  | ok _ =>
    refine (handOver_logs args false).bind fun outcome after logged => ?_
    cases outcome with
    | typeError sent text =>
      have unfilled : ¬ (⟨args, false, .typeError sent text⟩ : HandOver Arg).Exhausted params := by
        rintro ⟨filled, -⟩
        cases filled
      have continued' : AllContinued params after.handOvers := by
        rw [logged.1]
        exact continued.snoc (.inr ⟨sent, text, rfl, unfilled⟩)
      refine (attempted_fillArguments _ args rfl continued').weaken fun result final ended => ?_
      exact ⟨ended.shaped, ended.again, fun before => ended.told (logged.2 (told before))⟩
    | _ =>
      have ended := attempted_settle continued logged.1 logged.2 fun _ _ raised => by cases raised
      exact Ends.pure ⟨ended.shaped, ended.again, fun before => ended.told (told before)⟩

/-- With `retry` unset only a proxy that was told to terminate comes back to the head of the loop after anything
    but a transient answer or a timeout, and there it returns. -/
theorem shaped_methodWrapper (cluster methodName : String) (args : List (Option Arg)) (rounds : Nat)
    (shaped : Shaped params proxy.handOvers)
    (open_ended : proxy.terminating = true ∨ AllContinued params proxy.handOvers) :
    Ends (methodWrapper cluster methodName params false args rounds) proxy fun _ after =>
      Shaped params after.handOvers := by
  induction rounds generalizing proxy with
  | zero => exact Ends.pure shaped
  | succ rounds ih =>
    refine quiet_isTerminating.bind fun terminating atHead entered => ?_
    obtain ⟨atHead_quiet, told_iff⟩ := entered
    refine quiet_tick.bind fun now timed later => ?_
    have same : timed.handOvers = proxy.handOvers := (atHead_quiet.trans later).1
    dsimp only
    split
    · refine quiet_isTerminating.bind fun told after last => ?_
      have unchanged : after.handOvers = proxy.handOvers := last.1.1.trans same
      have kept : Shaped params after.handOvers := by rwa [unchanged]
      split <;> exact Ends.pure kept
    next going =>
    have untold : ¬ proxy.terminating = true := by
      intro before
      have told : terminating = true := told_iff.mpr (atHead_quiet.2 before)
      simp [told] at going
    have continued : AllContinued params timed.handOvers := by
      rw [same]
      exact open_ended.resolve_left untold
    have shaped' : Shaped params timed.handOvers := by rwa [same]
    refine (attempted_attempt cluster rounds args shaped' continued).bind fun result tried attempted => ?_
    -- a proxy that was told in the meantime is let through to the head of the loop
    have through (told : Bool) (after : Proxy Arg)
        (ended : Quiet tried after ∧ (told = true ↔ after.terminating = true)) : Shaped params after.handOvers := by
      rw [ended.1.1]
      exact attempted.shaped
    have again (asked : ∃ text, result = .error (.transient text) ∨ result = .error (.timeout text)) :
        Ends (do
          if ← isTerminating then
            methodWrapper cluster methodName params false args rounds
          else
            invalidate
            methodWrapper cluster methodName params false args rounds) tried fun _ after =>
          Shaped params after.handOvers := by
      obtain ⟨text, asked⟩ := asked
      refine quiet_isTerminating.bind fun told after ended => ?_
      have continued_after : AllContinued params after.handOvers := by
        rw [ended.1.1]
        exact attempted.again text asked
      split
      · exact ih (through told after ended) (.inr continued_after)
      · exact Ends.modified (ih (through told after ended) (.inr continued_after))
    cases result with
    | ok response => exact Ends.pure attempted.shaped
    | error e =>
      cases e with
      | transportAuth text | unfinished => exact Ends.pure attempted.shaped
      | timeout text => exact again ⟨text, .inr rfl⟩
      | transient text => exact again ⟨text, .inl rfl⟩
      | transport text | other text =>
        refine quiet_isTerminating.bind fun told after ended => ?_
        split
        · exact ih (through told after ended) (.inl (ended.2.mp ‹_›))
        · exact Ends.pure (through told after ended)

end Calls

/-- A call that is not to be retried is handed over again after a hand-over that may have reached the scheduler
    exactly when a TypeError came up after the request had been sent. -/
theorem sent_once (cluster methodName : String) (params rounds : Nat) (args : List (Option Arg)) (ticks : List Tick)
    (terminating connected : Bool) :
    let run := (methodWrapper cluster methodName params false args rounds).run ⟨ticks, terminating, connected, []⟩
    SentOnce run.2.handOvers ↔ BindingOnly params run.2.handOvers := by
  intro run
  have shaped : Shaped params run.2.handOvers :=
    shaped_methodWrapper cluster methodName args rounds
      ⟨fun _ member => absurd member List.not_mem_nil, fun _ last => by cases last⟩
      (.inr fun _ member => absurd member List.not_mem_nil)
  exact shaped.sentOnce_iff

section Example

/-- The answer to the first hand-over cannot be decoded. -/
private def garbled : List Tick :=
  [{}, {}, {}, {}, { call := .typeError true "int() argument must be a string" }]

private def createJob : Except ProxyError Answered × Proxy String :=
  (methodWrapper "cluster" "createJob" 1 false [some "job"] 2).run ⟨garbled, false, false, []⟩

theorem createJob_sent_twice :
    createJob.2.handOvers = [⟨[some "job"], false, .typeError true "int() argument must be a string"⟩,
        ⟨[some "job"], true, .response (some .ok) []⟩] ∧ ¬ SentOnce createJob.2.handOvers := by
  have sent : createJob.2.handOvers = [⟨[some "job"], false, .typeError true "int() argument must be a string"⟩,
      ⟨[some "job"], true, .response (some .ok) []⟩] := by decide
  refine ⟨sent, fun once => ?_⟩
  rw [sent] at once
  rcases once ⟨[some "job"], false, .typeError true "int() argument must be a string"⟩ (by simp) with
    ⟨_, transient⟩ | ⟨_, unsent⟩
  · cases transient
  · cases unsent

end Example

end Aurora.Client
