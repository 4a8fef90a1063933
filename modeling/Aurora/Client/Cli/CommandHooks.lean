import Aurora.Library.Trace
import Mathlib.Tactic.Push

namespace Aurora.Client.Cli

structure HookError where
  code : Int
  msg : String
  deriving DecidableEq, Repr

inductive PreResult
  | returned (result : Option Int)
  | raised (error : HookError)
  deriving DecidableEq, Repr

structure CommandHook where
  name : String
  nouns : List String
  verbs : String → List String
  preCommand : PreResult
  postCommand : Option HookError

structure PluginError where
  msg : String
  code : Int := 0
  deriving DecidableEq, Repr

structure ConfigurationPlugin where
  beforeDispatch : Option PluginError := none
  beforeExecution : Option PluginError := none
  afterExecution : Option PluginError := none

inductive ExecuteError
  | commandErrorLogged (code : Int)
  | commandError (code : Int) (msg : String)
  | notRetriable (msg : String)
  | timeout (msg : String)
  | apiError (msg : String)
  | typeError (msg : String)
  | assertionError (msg : String)
  | other (msg : String)
  deriving DecidableEq, Repr

def exitOk : Int := 0
def exitNetworkError : Int := 7
def exitTimeout : Int := 9
def exitUnknownError : Int := 20

inductive Call
  | preCommand (hook : String)
  | execute
  | postCommand (hook : String) (result : Option Int)
  | afterExecution (result : Option Int)
  deriving DecidableEq, Repr

inductive ExecuteEvent
  | call (made : Call)
  | printOut (text : String)
  | printErr (text : String)
  | logged (text : String)
  deriving DecidableEq, Repr

def ExecuteEvent.call? : ExecuteEvent → Option Call
  | .call made => some made
  | _ => none

/-- A command line once its noun and options are parsed. -/
structure CommandLine where
  plugins : List ConfigurationPlugin
  commandHooks : List CommandHook
  skipHooks : Option String
  noun : String
  verb : String
  /-- What `noun.execute` comes to. -/
  body : Except ExecuteError (Option Int)

namespace GlobalCommandHookRegistry

def allHooks : String := "all"

def getCommandHooksFor (commandHooks : List CommandHook) (noun verb : String) : List CommandHook :=
  commandHooks.filter fun hook => noun ∈ hook.nouns ∧ verb ∈ hook.verbs noun

def getRequiredHooks (commandHooks : List CommandHook) (skipOpt : Option String) (noun verb : String) :
    List CommandHook :=
  let selectedHooks := getCommandHooksFor commandHooks noun verb
  match skipOpt with
  | none => selectedHooks
  | some skipOpt =>
    let selectedHookNames := selectedHooks.map CommandHook.name
    let desiredSkips := if skipOpt = allHooks then selectedHookNames else skipOpt.splitOn ","
    let desiredSkips := desiredSkips.filter fun name => name ∈ selectedHookNames
    let selectedHookNames := selectedHookNames.filter fun name => name ∉ desiredSkips
    selectedHooks.filter fun hook => hook.name ∈ selectedHookNames

def interpolate : List String → List String → Except ExecuteError String
  | [], [] | [], _ :: _ => .error (.typeError "not all arguments converted during string formatting")
  | [last], [] => .ok last
  | [_], _ :: _ => .error (.typeError "not all arguments converted during string formatting")
  | _ :: _ :: _, [] => .error (.typeError "not enough arguments for format string")
  | part :: next :: parts, arg :: args => (interpolate (next :: parts) args).map fun rest => part ++ arg ++ rest

/-- The handler of both loops: the template is applied to the name alone, and the message is an argument of
    `print_err`. -/
def handleError (hook : CommandHook) (error : HookError) : Trace ExecuteEvent ExecuteError (Option Int) :=
  match interpolate ["Error executing command hook ", ": ", "; aborting"] [hook.name] with
  | .ok text => do
    Trace.emit (.printErr text)
    pure (some error.code)
  | .error e => Trace.raise e

def runPreHooks : List CommandHook → Trace ExecuteEvent ExecuteError (Option Int)
  | [] => pure (some 0)
  | hook :: rest => do
    Trace.emit (.call (.preCommand hook.name))
    match hook.preCommand with
    | .returned result =>
      if result ≠ some 0 then
        let code := result.elim "None" toString
        Trace.emit (.printOut s!"Command aborted by command hook {hook.name} with error code {code}")
        pure result
      else runPreHooks rest
    | .raised error => handleError hook error

/-- The loop returns at the end of its first turn. -/
def runPostHooks (result : Option Int) : List CommandHook → Trace ExecuteEvent ExecuteError (Option Int)
  | [] => pure none
  | hook :: _ => do
    Trace.emit (.call (.postCommand hook.name result))
    match hook.postCommand with
    | none => pure (some 0)
    | some error => handleError hook error

end GlobalCommandHookRegistry

namespace CommandLine

open GlobalCommandHookRegistry

def dispatchError (line : CommandLine) : Option PluginError := line.plugins.findSome? ConfigurationPlugin.beforeDispatch

def executionError (line : CommandLine) : Option PluginError :=
  line.plugins.findSome? ConfigurationPlugin.beforeExecution

def selectedHooks (line : CommandLine) : List CommandHook :=
  getRequiredHooks line.commandHooks line.skipHooks line.noun line.verb

def runPreHooksAndPlugins (line : CommandLine) : Trace ExecuteEvent ExecuteError (Option Int) :=
  match line.executionError with
  | some e => do
    Trace.emit (.printErr s!"Error in configuration plugin before execution: {e.msg}")
    pure (some e.code)
  | none => do
    let pluginResult ← runPreHooks line.selectedHooks
    if pluginResult ≠ some exitOk then pure pluginResult else pure (some exitOk)

def runPostPlugins (result : Option Int) : List ConfigurationPlugin → Trace ExecuteEvent ExecuteError Unit
  | [] => pure ()
  | plugin :: rest => do
    Trace.emit (.call (.afterExecution result))
    if let some e := plugin.afterExecution then
      Trace.emit (.logged s!"Error executing post-execution plugin: {e.msg}")
    runPostPlugins result rest

def handle : ExecuteError → Trace ExecuteEvent ExecuteError (Option Int)
  | .commandErrorLogged code => pure (some code)
  | .commandError code msg => do
    Trace.emit (.printErr msg)
    pure (some code)
  | .notRetriable msg => do
    Trace.emit (.printErr msg)
    pure (some exitNetworkError)
  | .timeout msg => do
    Trace.emit (.printErr msg)
    pure (some exitTimeout)
  | .apiError msg => do
    Trace.emit (.printErr s!"Fatal error running command: {msg}")
    pure (some exitUnknownError)
  | e => Trace.raise e

def runCommand (line : CommandLine) : Trace ExecuteEvent ExecuteError (Option Int) := do
  let result ← (⟨[.call .execute], line.body⟩ : Trace ExecuteEvent ExecuteError (Option Int))
  if result = none then Trace.raise (.assertionError "Command return value is None!")
  else
    if result = some exitOk then
      Trace.emit (.logged "Command terminated successfully")
      let _ ← runPostHooks result line.selectedHooks
    else
      let code := result.elim "None" toString
      Trace.emit (.logged s!"Command terminated with error code {code}")
    runPostPlugins result line.plugins
    pure result

def execute (line : CommandLine) : Trace ExecuteEvent ExecuteError (Option Int) :=
  match line.dispatchError with
  | some e => do
    Trace.emit (.printErr s!"Error in configuration plugin before dispatch: {e.msg}")
    pure (some e.code)
  | none => do
    let preResult ← line.runPreHooksAndPlugins
    if preResult ≠ some exitOk then pure preResult else Trace.recover line.runCommand handle

end CommandLine

@[ext] structure Record where
  calls : List Call
  result : Except ExecuteError (Option Int)

def calls {α : Type} (trace : Trace ExecuteEvent ExecuteError α) : List Call :=
  trace.events.filterMap ExecuteEvent.call?

def reached : List CommandHook → List CommandHook
  | [] => []
  | hook :: rest => hook :: if hook.preCommand = .returned (some 0) then reached rest else []

def refusal : List CommandHook → Option (Option Int)
  | [] => none
  | hook :: rest =>
    match hook.preCommand with
    | .returned result => if result = some 0 then refusal rest else some result
    | .raised error => some (some error.code)

/-- The hooks up to and including the first whose `post_command` raises. -/
def posted : List CommandHook → List CommandHook
  | [] => []
  | hook :: rest => hook :: if hook.postCommand = none then posted rest else []

namespace CommandLine

/-- What is specified: a plugin or a hook that stops the command says how it exits, and all hooks hear of a success. -/
def specified (line : CommandLine) : Record :=
  match line.dispatchError, line.executionError with
  | some e, _ | none, some e => ⟨[], .ok (some e.code)⟩
  | none, none =>
    let pre := (reached line.selectedHooks).map fun hook => .preCommand hook.name
    match refusal line.selectedHooks, line.body with
    | some code, _ => ⟨pre, .ok code⟩
    | none, .error e => ⟨pre ++ [.execute], (handle e).result⟩
    | none, .ok none => ⟨pre ++ [.execute], .error (.assertionError "Command return value is None!")⟩
    | none, .ok (some code) =>
      let post := (posted line.selectedHooks).map fun hook => .postCommand hook.name (some code)
      let after := line.plugins.map fun _ => .afterExecution (some code)
      ⟨pre ++ [.execute] ++ (if code = exitOk then post else []) ++ after, .ok (some code)⟩

def record (line : CommandLine) : Record := ⟨calls line.execute, line.execute.result⟩

/-- No hook that is reached raises, and no more than one hears of a success; no plugin stops the command with
    the code 0. -/
structure Uneventful (line : CommandLine) : Prop where
  plugin : line.dispatchError = none → ∀ e, line.executionError = some e → e.code ≠ exitOk
  pre : line.dispatchError = none → line.executionError = none →
    ∀ hook ∈ reached line.selectedHooks, ∀ error, hook.preCommand ≠ .raised error
  post : line.dispatchError = none → line.executionError = none → refusal line.selectedHooks = none →
    line.body = .ok (some exitOk) → line.selectedHooks.length ≤ 1 ∧ ∀ hook ∈ line.selectedHooks, hook.postCommand = none

end CommandLine

section Loops

open GlobalCommandHookRegistry

theorem handleError_eq (hook : CommandHook) (error : HookError) :
    handleError hook error = Trace.raise (.typeError "not enough arguments for format string") := rfl

theorem runPreHooks_quiet {hooks : List CommandHook}
    (quiet : ∀ hook ∈ reached hooks, ∀ error, hook.preCommand ≠ .raised error) :
    calls (runPreHooks hooks) = (reached hooks).map (fun hook => .preCommand hook.name) ∧
      (runPreHooks hooks).result = .ok ((refusal hooks).getD (some 0)) := by
  induction hooks with
  | nil => exact ⟨rfl, rfl⟩
  | cons hook rest ih =>
    cases answer : hook.preCommand with
    | raised error => exact absurd answer (quiet hook (by simp [reached]) error)
    | returned result =>
      by_cases passes : result = some 0
      · subst passes
        obtain ⟨made, came⟩ := ih fun later mem => quiet later (by simp [reached, answer, mem])
        simp_all [runPreHooks, reached, refusal, calls, ExecuteEvent.call?]
      · simp [runPreHooks, reached, refusal, calls, ExecuteEvent.call?, answer, passes]

theorem runPreHooks_raises {hooks : List CommandHook} {hook : CommandHook} {error : HookError}
    (mem : hook ∈ reached hooks)
    (raised : hook.preCommand = .raised error) : ∃ e, (runPreHooks hooks).result = .error e := by
  induction hooks with
  | nil => simp [reached] at mem
  | cons first rest ih =>
    cases answer : first.preCommand with
    | raised error => simp [runPreHooks, answer, handleError_eq, Trace.raise]
    | returned result =>
      by_cases passes : result = some 0
      · subst passes
        have later : hook ∈ reached rest := by
          rw [reached, answer, if_pos rfl, List.mem_cons] at mem
          rcases mem with rfl | later
          · rw [answer] at raised
            cases raised
          · exact later
        simpa [runPreHooks, answer] using ih later
      · rw [reached, answer, if_neg (by simpa using passes), List.mem_singleton] at mem
        subst mem
        rw [answer] at raised
        cases raised

theorem runPostPlugins_eq (result : Option Int) (plugins : List ConfigurationPlugin) :
    ∃ events, CommandLine.runPostPlugins result plugins = ⟨events, .ok ()⟩ ∧
      events.filterMap ExecuteEvent.call? = plugins.map fun _ => .afterExecution result := by
  induction plugins with
  | nil => exact ⟨[], rfl, rfl⟩
  | cons plugin rest ih =>
    obtain ⟨events, ran, made⟩ := ih
    cases logged : plugin.afterExecution with
    | none => exact ⟨.call (.afterExecution result) :: events, by simp [CommandLine.runPostPlugins, logged, ran],
        by simp [ExecuteEvent.call?, made]⟩
    | some e =>
      refine ⟨.call (.afterExecution result) ::
        .logged s!"Error executing post-execution plugin: {e.msg}" :: events, ?_, ?_⟩
      · simp [CommandLine.runPostPlugins, logged, ran]
      · simp [List.filterMap_cons, ExecuteEvent.call?, made]

theorem refusal_of_raised {hooks : List CommandHook} {hook : CommandHook} {error : HookError}
    (mem : hook ∈ reached hooks)
    (raised : hook.preCommand = .raised error) : ∃ code, refusal hooks = some code := by
  induction hooks with
  | nil => simp [reached] at mem
  | cons first rest ih =>
    cases answer : first.preCommand with
    | raised error => exact ⟨some error.code, by simp [refusal, answer]⟩
    | returned result =>
      by_cases passes : result = some 0
      · have later : hook ∈ reached rest := by
          rw [reached, answer, passes, if_pos rfl, List.mem_cons] at mem
          rcases mem with rfl | later
          · rw [answer] at raised
            cases raised
          · exact later
        simpa [refusal, answer, passes] using ih later
      · exact ⟨result, by simp [refusal, answer, passes]⟩

theorem refusal_ne {hooks : List CommandHook} {code : Option Int}
    (quiet : ∀ hook ∈ reached hooks, ∀ error, hook.preCommand ≠ .raised error) (refused : refusal hooks = some code) :
    code ≠ some 0 := by
  induction hooks with
  | nil => cases refused
  | cons hook rest ih =>
    cases answer : hook.preCommand with
    | raised error => exact absurd answer (quiet hook (by simp [reached]) error)
    | returned result =>
      by_cases passes : result = some 0
      · refine ih (fun later mem => quiet later (by simp [reached, answer, passes, mem])) ?_
        simpa [refusal, answer, passes] using refused
      · have same : result = code := by simpa [refusal, answer, passes] using refused
        exact same ▸ passes

end Loops

namespace CommandLine

open GlobalCommandHookRegistry

variable {line : CommandLine}

theorem calls_handle (e : ExecuteError) : calls (handle e) = [] := by cases e <;> rfl

def commandRecord (line : CommandLine) : Record :=
  ⟨calls (Trace.recover line.runCommand handle), (Trace.recover line.runCommand handle).result⟩

theorem commandRecord_error {e : ExecuteError} (body : line.body = .error e) :
    line.commandRecord = ⟨[.execute], (handle e).result⟩ := by
  have handled := calls_handle e
  rw [calls] at handled
  simp [commandRecord, runCommand, body, calls, ExecuteEvent.call?, handled]

theorem commandRecord_none (body : line.body = .ok none) :
    line.commandRecord = ⟨[.execute], .error (.assertionError "Command return value is None!")⟩ := by
  simp [commandRecord, runCommand, body, calls, ExecuteEvent.call?, Trace.raise, handle]

theorem commandRecord_failure {code : Int} (body : line.body = .ok (some code)) (failed : code ≠ exitOk) :
    line.commandRecord = ⟨.execute :: line.plugins.map fun _ => .afterExecution (some code), .ok (some code)⟩ := by
  obtain ⟨events, ran, made⟩ := runPostPlugins_eq (some code) line.plugins
  simp [commandRecord, runCommand, body, calls, ExecuteEvent.call?, failed, List.filterMap_cons, ran, made]

theorem commandRecord_unheard (body : line.body = .ok (some exitOk)) (unheard : line.selectedHooks = []) :
    line.commandRecord = ⟨.execute :: line.plugins.map fun _ => .afterExecution (some exitOk), .ok (some exitOk)⟩ := by
  obtain ⟨events, ran, made⟩ := runPostPlugins_eq (some exitOk) line.plugins
  simp [commandRecord, runCommand, body, calls, ExecuteEvent.call?, unheard, runPostHooks, List.filterMap_cons, ran,
    made]

theorem commandRecord_heard {hook : CommandHook} {rest : List CommandHook} (body : line.body = .ok (some exitOk))
    (heard : line.selectedHooks = hook :: rest) (quiet : hook.postCommand = none) :
    line.commandRecord = ⟨.execute :: .postCommand hook.name (some exitOk) ::
      line.plugins.map fun _ => .afterExecution (some exitOk), .ok (some exitOk)⟩ := by
  obtain ⟨events, ran, made⟩ := runPostPlugins_eq (some exitOk) line.plugins
  simp [commandRecord, runCommand, body, calls, ExecuteEvent.call?, heard, quiet, runPostHooks, List.filterMap_cons,
    ran, made]

theorem commandRecord_raises {hook : CommandHook} {rest : List CommandHook} {error : HookError}
    (body : line.body = .ok (some exitOk)) (heard : line.selectedHooks = hook :: rest)
    (raised : hook.postCommand = some error) :
    line.commandRecord = ⟨[.execute, .postCommand hook.name (some exitOk)],
      .error (.typeError "not enough arguments for format string")⟩ := by
  simp [commandRecord, runCommand, body, calls, ExecuteEvent.call?, heard, raised, runPostHooks, handleError_eq,
    Trace.raise,
    handle, List.filterMap_cons]

theorem record_of_ready (dispatched : line.dispatchError = none) (ready : line.executionError = none)
    (quiet : ∀ hook ∈ reached line.selectedHooks, ∀ error, hook.preCommand ≠ .raised error) :
    line.record =
      match refusal line.selectedHooks with
      | some code => ⟨(reached line.selectedHooks).map fun hook => .preCommand hook.name, .ok code⟩
      | none =>
        ⟨((reached line.selectedHooks).map fun hook => .preCommand hook.name) ++ line.commandRecord.calls,
          line.commandRecord.result⟩ := by
  obtain ⟨made, came⟩ := runPreHooks_quiet quiet
  generalize ran : runPreHooks line.selectedHooks = before at made came
  obtain ⟨events, result⟩ := before
  obtain rfl : result = .ok ((refusal line.selectedHooks).getD (some 0)) := came
  rw [calls] at made
  cases refused : refusal line.selectedHooks with
  | none =>
    simp [record, execute, dispatched, runPreHooksAndPlugins, ready, ran, refused, exitOk, commandRecord, calls, made]
  | some code =>
    have stops := refusal_ne quiet refused
    simp [record, execute, dispatched, runPreHooksAndPlugins, ready, ran, refused, exitOk, calls, made, stops]

theorem commandRecord_executes (line : CommandLine) : ∃ later, line.commandRecord.calls = .execute :: later := by
  cases body : line.body with
  | error e => exact ⟨_, by rw [commandRecord_error body]⟩
  | ok result =>
    rcases result with _ | code
    · exact ⟨_, by rw [commandRecord_none body]⟩
    · by_cases failed : code = exitOk
      · subst failed
        cases heard : line.selectedHooks with
        | nil => exact ⟨_, by rw [commandRecord_unheard body heard]⟩
        | cons hook rest =>
          cases raised : hook.postCommand with
          | none => exact ⟨_, by rw [commandRecord_heard body heard raised]⟩
          | some error => exact ⟨_, by rw [commandRecord_raises body heard raised]⟩
      · exact ⟨_, by rw [commandRecord_failure body failed]⟩

theorem record_of_stopped {e : PluginError} (dispatched : line.dispatchError = none)
    (stopped : line.executionError = some e) :
    line.record = if e.code = exitOk then line.commandRecord else ⟨[], .ok (some e.code)⟩ := by
  by_cases zero : e.code = exitOk
  · simp [record, execute, dispatched, runPreHooksAndPlugins, stopped, zero, commandRecord, calls,
    ExecuteEvent.call?, List.filterMap_cons]
  · simp [record, execute, dispatched, runPreHooksAndPlugins, stopped, zero, calls, ExecuteEvent.call?,
    List.filterMap_cons]

theorem record_of_raised {hook : CommandHook} {error : HookError} (dispatched : line.dispatchError = none)
    (ready : line.executionError = none) (mem : hook ∈ reached line.selectedHooks)
    (raised : hook.preCommand = .raised error) :
    ∃ e, line.record.result = .error e := by
  obtain ⟨e, came⟩ := runPreHooks_raises mem raised
  generalize ran : runPreHooks line.selectedHooks = before at came
  obtain ⟨events, result⟩ := before
  obtain rfl : result = .error e := came
  exact ⟨e, by simp [record, execute, dispatched, runPreHooksAndPlugins, ready, ran]⟩

theorem commandRecord_ok_iff (body : line.body = .ok (some exitOk)) :
    line.commandRecord = ⟨[.execute] ++
        (posted line.selectedHooks).map (fun hook => .postCommand hook.name (some exitOk)) ++
        line.plugins.map fun _ => .afterExecution (some exitOk), .ok (some exitOk)⟩ ↔
      line.selectedHooks.length ≤ 1 ∧ ∀ hook ∈ line.selectedHooks, hook.postCommand = none := by
  cases heard : line.selectedHooks with
  | nil => simp [commandRecord_unheard body heard, posted]
  | cons hook rest =>
    cases raised : hook.postCommand with
    | some error =>
      refine iff_of_false (fun same => ?_) (by simp [raised])
      rw [commandRecord_raises body heard raised] at same
      cases congrArg Record.result same
    | none =>
      rw [commandRecord_heard body heard raised]
      cases rest with
      | nil => simp [posted, raised]
      | cons other rest =>
        refine iff_of_false (fun same => ?_) (by simp)
        have length := congrArg (fun record => record.calls.length) same
        simp only [posted, raised, if_true, List.map_cons, List.length_cons, List.length_append, List.length_map,
          List.length_nil] at length
        omega

/-- What is left to be asked where no plugin and no hook stands in the way of the command. -/
def HeardByOne (line : CommandLine) : Prop :=
  refusal line.selectedHooks = none → line.body = .ok (some exitOk) →
    line.selectedHooks.length ≤ 1 ∧ ∀ hook ∈ line.selectedHooks, hook.postCommand = none

theorem uneventful_iff (dispatched : line.dispatchError = none) (ready : line.executionError = none)
    (quiet : ∀ hook ∈ reached line.selectedHooks, ∀ error, hook.preCommand ≠ .raised error) :
    line.Uneventful ↔ line.HeardByOne :=
  ⟨fun holds => holds.post dispatched ready, fun post => ⟨by simp [ready], fun _ _ => quiet, fun _ _ => post⟩⟩

theorem record_iff_of_ready (dispatched : line.dispatchError = none) (ready : line.executionError = none)
    (quiet : ∀ hook ∈ reached line.selectedHooks, ∀ error, hook.preCommand ≠ .raised error) :
    line.record = line.specified ↔ line.HeardByOne := by
  rw [record_of_ready dispatched ready quiet, HeardByOne]
  cases refused : refusal line.selectedHooks with
  | some code => simp [specified, dispatched, ready, refused]
  | none =>
    cases body : line.body with
    | error e => simp [specified, dispatched, ready, refused, body, commandRecord_error body]
    | ok result =>
      rcases result with _ | code
      · simp [specified, dispatched, ready, refused, body, commandRecord_none body]
      · by_cases failed : code = exitOk
        · subst failed
          simp only [← commandRecord_ok_iff body, specified, dispatched, ready, refused, body]
          simp [Record.ext_iff]
        · simp [specified, dispatched, ready, refused, body, failed, commandRecord_failure body failed]

/-- A plugin's code 0 lets the command be run, and nothing of that is specified. -/
theorem record_iff_of_stopped {e : PluginError} (dispatched : line.dispatchError = none)
    (stopped : line.executionError = some e) : line.record = line.specified ↔ e.code ≠ exitOk := by
  have spec : line.specified = ⟨[], .ok (some e.code)⟩ := by simp [specified, dispatched, stopped]
  rw [record_of_stopped dispatched stopped, spec]
  by_cases zero : e.code = exitOk
  · obtain ⟨later, executes⟩ := commandRecord_executes line
    rw [if_pos zero]
    refine iff_of_false (fun same => ?_) fun other => other zero
    rw [same] at executes
    cases executes
  · rw [if_neg zero]
    exact iff_of_true rfl zero

theorem record_eq_specified_iff (line : CommandLine) : line.record = line.specified ↔ line.Uneventful := by
  cases dispatched : line.dispatchError with
  | some e =>
    refine iff_of_true ?_ ⟨?_, ?_, ?_⟩
    · simp [record, execute, specified, dispatched, calls, ExecuteEvent.call?]
    all_goals simp [dispatched]
  | none =>
    cases ready : line.executionError with
    | some e =>
      rw [record_iff_of_stopped dispatched ready]
      exact ⟨fun other =>
          ⟨fun _ e' same => Option.some.inj (ready.symm.trans same) ▸ other, by simp [ready], by simp [ready]⟩,
        fun uneventful => uneventful.plugin dispatched e ready⟩
    | none =>
      by_cases quiet : ∀ hook ∈ reached line.selectedHooks, ∀ error, hook.preCommand ≠ .raised error
      · rw [record_iff_of_ready dispatched ready quiet, uneventful_iff dispatched ready quiet]
      · refine iff_of_false (fun same => ?_) fun uneventful => quiet (uneventful.pre dispatched ready)
        push Not at quiet
        obtain ⟨hook, mem, error, raised⟩ := quiet
        obtain ⟨e, came⟩ := record_of_raised dispatched ready mem raised
        obtain ⟨code, refused⟩ := refusal_of_raised mem raised
        rw [same, specified, dispatched, ready, refused] at came
        cases came

def twoHooks (first second : CommandHook) : CommandLine where
  plugins := []
  commandHooks := [first, second]
  skipHooks := none
  noun := "job"
  verb := "create"
  body := .ok (some exitOk)

def quietHook (name : String) : CommandHook := ⟨name, ["job"], fun _ => ["create"], .returned (some 0), none⟩

/-- The second hook does not hear of the success, and the error of a hook ends the program. -/
theorem record_ne_specified :
    (twoHooks (quietHook "audit") (quietHook "notify")).record.calls =
        [.preCommand "audit", .preCommand "notify", .execute, .postCommand "audit" (some 0)] ∧
      (twoHooks (quietHook "audit") (quietHook "notify")).record ≠
        (twoHooks (quietHook "audit") (quietHook "notify")).specified ∧
      (twoHooks { quietHook "audit" with preCommand := .raised ⟨4, "no quota"⟩ } (quietHook "notify")).record.result =
        .error (.typeError "not enough arguments for format string") ∧
      (twoHooks { quietHook "audit" with preCommand := .raised ⟨4, "no quota"⟩ } (quietHook "notify")).record ≠
        (twoHooks { quietHook "audit" with preCommand := .raised ⟨4, "no quota"⟩ } (quietHook "notify")).specified := by
  refine ⟨by decide, fun same => ?_, rfl, fun same => ?_⟩
  · have heard := congrArg (fun record => record.calls.length) same
    revert heard
    decide
  · cases congrArg Record.result same

end CommandLine

end Aurora.Client.Cli
