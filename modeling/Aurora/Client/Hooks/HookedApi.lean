import Aurora.Client.Api.SchedulerClient
import Aurora.Library.Cells
import Aurora.Library.Replay

namespace Aurora.Client.Hooks

open Replay

inductive Phase
  | pre
  | post
  | err
  deriving DecidableEq

def Phase.text : Phase → String
  | .pre => "pre"
  | .post => "post"
  | .err => "err"

structure Response where
  responseCode : ResponseCode
  details : String
  deriving DecidableEq

/-- What the API call raises: an Exception, or a BaseException that is none (SystemExit, KeyboardInterrupt). -/
inductive ApiError
  | exception (message : String)
  | exit (message : String)
  deriving DecidableEq

inductive Raised
  | preHooksStoppedCall (message : String)
  | api (error : ApiError)
  /-- of a hook method without a `__name__` -/
  | attributeError
  /-- of a `generic_hook` that is not callable -/
  | typeError
  /-- by `bool` of what a hook has returned -/
  | truth (message : String)
  /-- by a hook, and no Exception -/
  | exit (message : String)
  deriving DecidableEq

inductive Extra
  | response (response : Response)
  | apiError (response : Response)
  | error (error : ApiError)
  deriving DecidableEq

/-- What a call of a hook comes to; of a returned value only the truth matters, which `bool` may raise for. -/
inductive HookResult
  | returned (truthy : Bool)
  | undecided (message : String)
  | raised (message : String)
  | exited (message : String)
  deriving DecidableEq

/-- A callable may be without a `__name__`, as partials and instances are. -/
inductive Attribute (ρ : Type)
  | notCallable
  | callable (named : Bool) (result : ρ)

structure Hook where
  className : String
  attributes : String → Option (Attribute HookResult)
  genericHook : Option (Attribute (Phase → String → HookResult))

/-- An `AuroraConfig` as far as its hooks matter. -/
structure Config where
  jobKey : String
  hooks : List Hook
  enableHooks : Bool

/-- The partial application of a method of the API, and what calling it comes to. -/
structure ApiCall where
  name : String
  result : Except ApiError Response

inductive Call
  | hook (className method : String) (extra : Option Extra)
  | generic (className : String) (jobKey : Option String) (event : Phase) (method : String) (extra : Option Extra)
  | api (name : String)
  deriving DecidableEq

/-- The lists that the program holds, `GlobalHookRegistry` among them, and the calls that were made. -/
structure World where
  lists : List (List Hook)
  hooks : Nat
  disabled : Bool
  calls : List Call
  known : hooks < lists.length

namespace World

def globalHooks (world : World) : List Hook := Cells.read world.lists world.hooks

theorem known_alloc (world : World) (list : List Hook) : world.hooks < (Cells.alloc world.lists list).1.length :=
  Nat.lt_of_lt_of_le world.known ((Cells.Kept.refl world.lists).alloc list).length_le

def alloc (world : World) (list : List Hook) : World × Nat :=
  ({ world with lists := (Cells.alloc world.lists list).1, known := world.known_alloc list },
    (Cells.alloc world.lists list).2)

def write (world : World) (ref : Nat) (list : List Hook) : World :=
  { world with lists := world.lists.set ref list, known := by simpa using world.known }

def made (world : World) (call : Call) : World := { world with calls := world.calls ++ [call] }

end World

abbrev Hooked (α : Type) := EStateM Raised World α

/-- `GlobalHookRegistry.get_hooks`: a new list each time. -/
def getHooks : Hooked Nat := modifyGet fun world =>
  let (world, hooks) := if world.disabled then world.alloc [] else world.alloc world.globalHooks
  (hooks, world)

structure HookMethod where
  call : Call
  named : Bool
  result : HookResult

def generateMethod (hook : Hook) (config : Option Config) (jobKey : Option String) (event : Phase) (method : ApiCall)
    (extraArgument : Option Extra) : Except Raised (Option HookMethod) :=
  let name := event.text ++ "_" ++ method.name
  match hook.attributes name with
  | some (.callable named result) => .ok (some ⟨.hook hook.className name extraArgument, named, result⟩)
  | some .notCallable | none =>
    match hook.genericHook with
    | none => .ok none
    | some .notCallable => .error .typeError
    | some (.callable named generic) =>
      .ok (some ⟨.generic hook.className (jobKey.or (config.map Config.jobKey)) event method.name extraArgument, named,
        generic event method.name⟩)

inductive Truth
  | told (truthy : Bool)
  | undecided (message : String)

def metaHook : Option HookMethod → Hooked Truth
  | none => pure (.told true)
  | some hookMethod => do
    if !hookMethod.named then throw .attributeError
    modify fun world => world.made hookMethod.call
    match hookMethod.result with
    | .returned truthy => pure (.told truthy)
    | .undecided message => pure (.undecided message)
    | .raised _ => pure (.told false)
    | .exited message => throw (.exit message)

def configHooks : Option Config → List Hook
  | some config => if config.enableHooks then config.hooks else []
  | none => []

def allHooks (config : Option Config) : Hooked (List Hook) := do
  let hooks ← getHooks
  modify fun world => world.write hooks (Cells.read world.lists hooks ++ configHooks config)
  return Cells.read (← get).lists hooks

/-- `all`, which looks no further than the first value that is false. -/
def allTrue : List Truth → Except Raised Bool
  | [] => .ok true
  | .told true :: rest => allTrue rest
  | .told false :: _ => .ok false
  | .undecided message :: _ => .error (.truth message)

def invokeHooks (event : Phase) (config : Option Config) (jobKey : Option String) (apiCall : ApiCall)
    (extraArgument : Option Extra) : Hooked Bool := do
  let hooks ← allHooks config
  let hooksPassed ← hooks.mapM fun hook => do
    metaHook (← MonadExcept.ofExcept (generateMethod hook config jobKey event apiCall extraArgument))
  MonadExcept.ofExcept (allTrue hooksPassed)

def call (apiCall : ApiCall) : Hooked Response := do
  modify fun world => world.made (.api apiCall.name)
  match apiCall.result with
  | .ok response => pure response
  | .error e => throw (.api e)

def callAndTell (config : Option Config) (jobKey : Option String) (apiCall : ApiCall) : Hooked Response := do
  let resp ← tryCatch (call apiCall) fun e => do
    match e with
    | .api (.exception message) =>
      discard (invokeHooks .err config jobKey apiCall (some (.error (.exception message))))
      throw e
    | _ => throw e
  if resp.responseCode ≠ .ok then
    discard (invokeHooks .err config jobKey apiCall (some (.apiError resp)))
  else
    discard (invokeHooks .post config jobKey apiCall (some (.response resp)))
  return resp

def hookedCall (config : Option Config) (jobKey : Option String) (apiCall : ApiCall) : Hooked Response := do
  if !(← invokeHooks .pre config jobKey apiCall none) then
    throw (.preHooksStoppedCall ("Pre hooks stopped call to " ++ apiCall.name))
  callAndTell config jobKey apiCall

section Methods

variable (result : Except ApiError Response)

def createJob (config : Config) : Hooked Response := hookedCall (some config) none ⟨"create_job", result⟩

def addInstances (jobKey : String) (config : Option Config) : Hooked Response :=
  hookedCall config (some jobKey) ⟨"add_instances", result⟩

def killJob (jobKey : String) (config : Option Config) : Hooked Response :=
  hookedCall config (some jobKey) ⟨"kill_job", result⟩

def restart (jobKey : String) (config : Option Config) : Hooked Response :=
  hookedCall config (some jobKey) ⟨"restart", result⟩

def startCronjob (jobKey : String) (config : Option Config) : Hooked Response :=
  hookedCall config (some jobKey) ⟨"start_cronjob", result⟩

def startJobUpdate (config : Config) : Hooked Response := hookedCall (some config) none ⟨"start_job_update", result⟩

end Methods

/-- What a part of the program leaves alone, and the calls that it makes. -/
structure Later (world later : World) (calls : List Call) : Prop where
  lists : Cells.Kept world.lists later.lists
  hooks : later.hooks = world.hooks
  disabled : later.disabled = world.disabled
  calls : later.calls = world.calls ++ calls

namespace Later

variable {world middle later : World} {calls more : List Call}

theorem refl (world : World) : Later world world [] := ⟨Cells.Kept.refl _, rfl, rfl, by simp⟩

theorem trans (first : Later world middle calls) (second : Later middle later more) :
    Later world later (calls ++ more) where
  lists := List.IsPrefix.trans first.lists second.lists
  hooks := second.hooks.trans first.hooks
  disabled := second.disabled.trans first.disabled
  calls := by rw [second.calls, first.calls, List.append_assoc]

theorem made (world : World) (call : Call) : Later world (world.made call) [call] := ⟨Cells.Kept.refl _, rfl, rfl, rfl⟩

theorem globalHooks (after : Later world later calls) : later.globalHooks = world.globalHooks := by
  rw [World.globalHooks, World.globalHooks, after.hooks, after.lists.read world.known]

end Later

def selected (world : World) (config : Option Config) : List Hook :=
  (if world.disabled then [] else world.globalHooks) ++ configHooks config

theorem Later.selected {world later : World} {calls : List Call} (after : Later world later calls)
    (config : Option Config) :
    selected later config = selected world config := by
  rw [Hooks.selected, Hooks.selected, after.disabled, after.globalHooks]

theorem run_allHooks (config : Option Config) (world : World) :
    ∃ later, (allHooks config).run world = .ok (selected world config) later ∧ Later world later [] := by
  let given := if world.disabled then [] else world.globalHooks
  have fetched : getHooks.run world = .ok world.lists.length (world.alloc given).1 := by
    by_cases disabled : world.disabled = true
    · simp [getHooks, given, disabled]
      rfl
    · simp [getHooks, given, disabled]
      rfl
  have copied : Cells.read (world.alloc given).1.lists world.lists.length = given := Cells.read_alloc world.lists given
  have inside : world.lists.length < (world.alloc given).1.lists.length := by simp [World.alloc, Cells.alloc]
  refine ⟨(world.alloc given).1.write world.lists.length (given ++ configHooks config), ?_, ?_⟩
  · have both : Cells.read ((world.alloc given).1.write world.lists.length (given ++ configHooks config)).lists
        world.lists.length = given ++ configHooks config := Cells.read_set_self inside _
    rw [allHooks, run_bind_of_ok fetched]
    change EStateM.Result.ok (Cells.read ((world.alloc given).1.write world.lists.length
      (Cells.read (world.alloc given).1.lists world.lists.length ++ configHooks config)).lists world.lists.length)
      ((world.alloc given).1.write world.lists.length
        (Cells.read (world.alloc given).1.lists world.lists.length ++ configHooks config)) = _
    rw [copied, both]
    rfl
  · exact ⟨((Cells.Kept.refl world.lists).alloc given).set (Nat.le_refl _) _, rfl, rfl, (List.append_nil _).symm⟩

section Phases

variable (event : Phase) (config : Option Config) (jobKey : Option String) (apiCall : ApiCall) (extra : Option Extra)

def methodOf (hook : Hook) : Option HookMethod :=
  match generateMethod hook config jobKey event apiCall extra with
  | .ok method => method
  | .error _ => none

/-- Whether a hook lets the call go on; one that has no method for it does. -/
def passes : Option HookMethod → Bool
  | none => true
  | some hookMethod => hookMethod.result = .returned true

def truthOf : Option HookMethod → Truth
  | none => .told true
  | some hookMethod =>
    match hookMethod.result with
    | .returned truthy => .told truthy
    | .undecided message => .undecided message
    | .raised _ | .exited _ => .told false

/-- What the hook may do without getting around the handler: it has no method, or one with a name that raises nothing but
    Exceptions. -/
def Tame (hook : Hook) : Prop :=
  match generateMethod hook config jobKey event apiCall extra with
  | .ok none => True
  | .ok (some hookMethod) => hookMethod.named = true ∧ ∀ message, hookMethod.result ≠ .exited message
  | .error _ => False

/-- All hooks are tame, and no result without a truth comes in front of the first one that does not pass. -/
def TamePhase (hooks : List Hook) : Prop :=
  (∀ hook ∈ hooks, Tame event config jobKey apiCall extra hook) ∧
    ∃ passed, allTrue (hooks.map fun hook => truthOf (methodOf event config jobKey apiCall extra hook)) = .ok passed

def hookCalls (hooks : List Hook) : List Call :=
  hooks.filterMap fun hook => (methodOf event config jobKey apiCall extra hook).map HookMethod.call

def Raised.Escapes : Raised → Prop
  | .preHooksStoppedCall _ | .api _ => False
  | .attributeError | .typeError | .truth _ | .exit _ => True

variable {event config jobKey apiCall extra}

theorem run_metaHook {hook : Hook} (tame : Tame event config jobKey apiCall extra hook) (world : World) :
    ∃ later, (MonadExcept.ofExcept (generateMethod hook config jobKey event apiCall extra) >>= metaHook : Hooked _).run
        world = .ok (truthOf (methodOf event config jobKey apiCall extra hook)) later ∧
      Later world later ((methodOf event config jobKey apiCall extra hook).map HookMethod.call).toList := by
  unfold Tame at tame
  unfold methodOf
  cases generated : generateMethod hook config jobKey event apiCall extra with
  | error e => simp only [generated] at tame
  | ok method =>
    rw [generated] at tame
    rcases method with _ | ⟨call, named, result⟩
    · exact ⟨world, rfl, Later.refl world⟩
    · obtain ⟨rfl, stays⟩ := tame
      cases result with
      | exited message => exact absurd rfl (stays message)
      | _ => exact ⟨world.made call, rfl, Later.made world call⟩

theorem run_metaHook_wild {hook : Hook} (wild : ¬ Tame event config jobKey apiCall extra hook) (world : World) :
    ∃ e later, (MonadExcept.ofExcept (generateMethod hook config jobKey event apiCall extra) >>= metaHook : Hooked _).run
      world = .error e later ∧ e.Escapes := by
  have known : ∀ e, generateMethod hook config jobKey event apiCall extra = .error e → e = .typeError := by
    intro e raised
    unfold generateMethod at raised
    dsimp only at raised
    split at raised
    · cases raised
    all_goals
      split at raised
      · cases raised
      · exact (Except.error.inj raised).symm
      · cases raised
  unfold Tame at wild
  cases generated : generateMethod hook config jobKey event apiCall extra with
  | error e =>
    obtain rfl := known e generated
    exact ⟨.typeError, world, rfl, trivial⟩
  | ok method =>
    rw [generated] at wild
    rcases method with _ | ⟨call, named, result⟩
    · exact absurd trivial wild
    · cases named with
      | false => exact ⟨.attributeError, world, rfl, trivial⟩
      | true =>
        cases result with
        | exited message => exact ⟨.exit message, world.made call, rfl, trivial⟩
        | _ => exact absurd ⟨rfl, fun message => by simp⟩ wild

theorem run_metaHooks {hooks : List Hook} (tame : ∀ hook ∈ hooks, Tame event config jobKey apiCall extra hook)
    (world : World) :
    ∃ later, (hooks.mapM fun hook => do
        metaHook (← MonadExcept.ofExcept (generateMethod hook config jobKey event apiCall extra)) : Hooked _).run world =
      .ok (hooks.map fun hook => truthOf (methodOf event config jobKey apiCall extra hook)) later ∧
      Later world later (hookCalls event config jobKey apiCall extra hooks) := by
  induction hooks generalizing world with
  | nil => exact ⟨world, rfl, Later.refl world⟩
  | cons hook rest ih =>
    rw [List.forall_mem_cons] at tame
    obtain ⟨middle, ran, first⟩ := run_metaHook tame.1 world
    obtain ⟨later, rans, second⟩ := ih tame.2 middle
    refine ⟨later, ?_, ?_⟩
    · rw [List.mapM_cons, run_bind_of_ok ran, run_bind_of_ok rans]
      rfl
    · have both := first.trans second
      unfold hookCalls at both ⊢
      cases known : (methodOf event config jobKey apiCall extra hook).map HookMethod.call <;>
        simpa [List.filterMap_cons, known] using both

theorem run_metaHooks_wild {hooks : List Hook} (wild : ¬ ∀ hook ∈ hooks, Tame event config jobKey apiCall extra hook)
    (world : World) :
    ∃ e later, (hooks.mapM fun hook => do
        metaHook (← MonadExcept.ofExcept (generateMethod hook config jobKey event apiCall extra)) : Hooked _).run world =
      .error e later ∧ e.Escapes := by
  induction hooks generalizing world with
  | nil => exact absurd (List.forall_mem_nil _) wild
  | cons hook rest ih =>
    rw [List.forall_mem_cons, not_and] at wild
    by_cases tame : Tame event config jobKey apiCall extra hook
    · obtain ⟨middle, ran, -⟩ := run_metaHook tame world
      obtain ⟨e, later, raised, escapes⟩ := ih (wild tame) middle
      refine ⟨e, later, ?_, escapes⟩
      rw [List.mapM_cons, run_bind_of_ok ran, EStateM.run_bind, raised]
    · obtain ⟨e, later, raised, escapes⟩ := run_metaHook_wild tame world
      refine ⟨e, later, ?_, escapes⟩
      rw [List.mapM_cons, EStateM.run_bind, raised]

theorem allTrue_ok {method : Hook → Option HookMethod} {hooks : List Hook} {passed : Bool}
    (told : allTrue (hooks.map fun hook => truthOf (method hook)) = .ok passed) :
    passed = hooks.all fun hook => passes (method hook) := by
  induction hooks with
  | nil => exact (Except.ok.inj told).symm
  | cons hook rest ih =>
    rw [List.map_cons] at told
    rw [List.all_cons]
    generalize method hook = found at told ⊢
    rcases found with _ | ⟨call, named, result⟩
    · exact ih told
    · cases result with
      | returned truthy =>
        cases truthy with
        | true => exact ih told
        | false => exact (Except.ok.inj told).symm
      | undecided message => cases told
      | raised message => exact (Except.ok.inj told).symm
      | exited message => exact (Except.ok.inj told).symm

theorem allTrue_error {truths : List Truth} {e : Raised} (raised : allTrue truths = .error e) : e.Escapes := by
  induction truths with
  | nil => cases raised
  | cons truth rest ih =>
    rcases truth with (_ | _) | message
    · cases raised
    · exact ih raised
    · obtain rfl := Except.error.inj raised
      trivial

theorem run_invokeHooks (world : World) (tame : TamePhase event config jobKey apiCall extra (selected world config)) :
    ∃ later, (invokeHooks event config jobKey apiCall extra).run world =
        .ok ((selected world config).all fun hook => passes (methodOf event config jobKey apiCall extra hook)) later ∧
      Later world later (hookCalls event config jobKey apiCall extra (selected world config)) := by
  obtain ⟨middle, ran, first⟩ := run_allHooks config world
  obtain ⟨later, rans, second⟩ := run_metaHooks tame.1 middle
  obtain ⟨passed, told⟩ := tame.2
  refine ⟨later, ?_, first.trans second⟩
  rw [invokeHooks, run_bind_of_ok ran, run_bind_of_ok rans, told, allTrue_ok told]
  rfl

theorem run_invokeHooks_wild (world : World)
    (wild : ¬ TamePhase event config jobKey apiCall extra (selected world config)) :
    ∃ e later, (invokeHooks event config jobKey apiCall extra).run world = .error e later ∧ e.Escapes := by
  obtain ⟨middle, ran, -⟩ := run_allHooks config world
  rw [invokeHooks, run_bind_of_ok ran]
  by_cases tame : ∀ hook ∈ selected world config, Tame event config jobKey apiCall extra hook
  · obtain ⟨later, rans, -⟩ := run_metaHooks tame middle
    rw [run_bind_of_ok rans]
    cases told : allTrue ((selected world config).map fun hook =>
        truthOf (methodOf event config jobKey apiCall extra hook)) with
    | ok passed => exact absurd ⟨tame, passed, told⟩ wild
    | error e => exact ⟨e, later, rfl, allTrue_error told⟩
  · obtain ⟨e, later, raised, escapes⟩ := run_metaHooks_wild tame middle
    refine ⟨e, later, ?_, escapes⟩
    rw [EStateM.run_bind, raised]

end Phases

section Calls

variable (config : Option Config) (jobKey : Option String) (apiCall : ApiCall)

def toldOf (hooks : List Hook) : List Call :=
  match apiCall.result with
  | .error e => hookCalls .err config jobKey apiCall (some (.error e)) hooks
  | .ok response =>
    if response.responseCode = .ok then hookCalls .post config jobKey apiCall (some (.response response)) hooks
    else hookCalls .err config jobKey apiCall (some (.apiError response)) hooks

/-- What the caller gets and the calls that are made: the hooks before, the API call if they all let it go on, and the
    hooks after it. -/
def specified (hooks : List Hook) : Except Raised Response × List Call :=
  let pre := hookCalls .pre config jobKey apiCall none hooks
  if hooks.all fun hook => passes (methodOf .pre config jobKey apiCall none hook) then
    (apiCall.result.mapError Raised.api, pre ++ .api apiCall.name :: toldOf config jobKey apiCall hooks)
  else (.error (.preHooksStoppedCall ("Pre hooks stopped call to " ++ apiCall.name)), pre)

def toResult (result : Except Raised Response) (world : World) : EStateM.Result Raised World Response :=
  match result with
  | .ok response => .ok response world
  | .error e => .error e world

/-- The call comes to what is specified, and leaves the global hooks as they were. -/
def MeetsSpecification (world : World) : Prop :=
  ∃ later, (hookedCall config jobKey apiCall).run world =
      toResult (specified config jobKey apiCall (selected world config)).1 later ∧
    later.calls = world.calls ++ (specified config jobKey apiCall (selected world config)).2 ∧
    later.globalHooks = world.globalHooks

/-- The hooks of the phase after the API call are tame. There are none to run where it has raised what is no Exception. -/
def TameAfter (hooks : List Hook) : Prop :=
  match apiCall.result with
  | .error (.exception message) =>
    TamePhase .err config jobKey apiCall (some (.error (.exception message))) hooks
  | .error (.exit message) => hookCalls .err config jobKey apiCall (some (.error (.exit message))) hooks = []
  | .ok response =>
    if response.responseCode = .ok then TamePhase .post config jobKey apiCall (some (.response response)) hooks
    else TamePhase .err config jobKey apiCall (some (.apiError response)) hooks

variable {config jobKey apiCall} {event : Phase} {extra : Option Extra}

/-- What the hooks return or raise after the call is dropped. -/
theorem run_tell {α : Type} (next : Hooked α) (world : World)
    (tame : TamePhase event config jobKey apiCall extra (selected world config)) :
    ∃ later, (discard (invokeHooks event config jobKey apiCall extra) >>= fun _ => next).run world = next.run later ∧
      Later world later (hookCalls event config jobKey apiCall extra (selected world config)) := by
  obtain ⟨later, ran, told⟩ := run_invokeHooks world tame
  have dropped : (discard (invokeHooks event config jobKey apiCall extra)).run world = .ok () later := by
    change ((fun _ => ()) <$> invokeHooks event config jobKey apiCall extra).run world = _
    rw [run_map, ran]
  exact ⟨later, run_bind_of_ok dropped, told⟩

theorem run_tell_wild {α : Type} (next : Hooked α) (world : World)
    (wild : ¬ TamePhase event config jobKey apiCall extra (selected world config)) :
    ∃ e later, (discard (invokeHooks event config jobKey apiCall extra) >>= fun _ => next).run world = .error e later ∧
      e.Escapes := by
  obtain ⟨e, later, raised, escapes⟩ := run_invokeHooks_wild world wild
  refine ⟨e, later, ?_, escapes⟩
  change (((fun _ => ()) <$> invokeHooks event config jobKey apiCall extra) >>= fun _ => next).run world = _
  rw [EStateM.run_bind, run_map, raised]

theorem run_callAndTell (world : World) (tame : TameAfter config jobKey apiCall (selected world config)) :
    ∃ later, (callAndTell config jobKey apiCall).run world = toResult (apiCall.result.mapError Raised.api) later ∧
      Later world later (.api apiCall.name :: toldOf config jobKey apiCall (selected world config)) := by
  have made := Later.made world (.api apiCall.name)
  rw [← made.selected] at tame ⊢
  unfold TameAfter at tame
  unfold toldOf
  cases came : apiCall.result with
  | error e =>
    have called : (call apiCall).run world = .error (.api e) (world.made (.api apiCall.name)) := by
      simp only [call, came]
      rfl
    rw [came] at tame
    rw [callAndTell, EStateM.run_bind, run_tryCatch_of_error called]
    cases e with
    | exception message =>
      obtain ⟨later, ran, told⟩ := run_tell (throw (.api (.exception message)) : Hooked Response)
        (world.made (.api apiCall.name)) tame
      refine ⟨later, ?_, made.trans told⟩
      dsimp only
      rw [ran]
      rfl
    | exit message => exact ⟨world.made (.api apiCall.name), rfl, by simpa only [tame] using made⟩
  | ok response =>
    have called : (call apiCall).run world = .ok response (world.made (.api apiCall.name)) := by
      simp only [call, came]
      rfl
    rw [came] at tame
    rw [callAndTell, run_bind_of_ok (run_tryCatch_of_ok called)]
    dsimp only at tame ⊢
    by_cases good : response.responseCode = .ok
    · rw [if_pos good] at tame
      rw [if_pos good, if_neg (not_not.mpr good)]
      obtain ⟨later, ran, told⟩ := run_tell (pure response : Hooked Response) (world.made (.api apiCall.name)) tame
      exact ⟨later, ran, made.trans told⟩
    · rw [if_neg good] at tame
      rw [if_neg good, if_pos good]
      obtain ⟨later, ran, told⟩ := run_tell (pure response : Hooked Response) (world.made (.api apiCall.name)) tame
      exact ⟨later, ran, made.trans told⟩

/-- A hook after the call that is not tame takes the place of what the call came to, and one that is left out is missed. -/
theorem run_callAndTell_wild (world : World) (wild : ¬ TameAfter config jobKey apiCall (selected world config)) :
    (∃ e later, (callAndTell config jobKey apiCall).run world = .error e later ∧ e.Escapes) ∨
      (callAndTell config jobKey apiCall).run world =
          toResult (apiCall.result.mapError Raised.api) (world.made (.api apiCall.name)) ∧
        toldOf config jobKey apiCall (selected world config) ≠ [] := by
  have made := Later.made world (.api apiCall.name)
  rw [← made.selected] at wild ⊢
  unfold TameAfter at wild
  unfold toldOf
  cases came : apiCall.result with
  | error e =>
    have called : (call apiCall).run world = .error (.api e) (world.made (.api apiCall.name)) := by
      simp only [call, came]
      rfl
    rw [came] at wild
    rw [callAndTell, EStateM.run_bind, run_tryCatch_of_error called]
    cases e with
    | exception message =>
      left
      obtain ⟨e, later, raised, escapes⟩ := run_tell_wild (throw (.api (.exception message)) : Hooked Response)
        (world.made (.api apiCall.name)) wild
      refine ⟨e, later, ?_, escapes⟩
      dsimp only
      rw [raised]
    | exit message => exact .inr ⟨rfl, wild⟩
  | ok response =>
    have called : (call apiCall).run world = .ok response (world.made (.api apiCall.name)) := by
      simp only [call, came]
      rfl
    rw [came] at wild
    rw [callAndTell, run_bind_of_ok (run_tryCatch_of_ok called)]
    dsimp only at wild
    left
    by_cases good : response.responseCode = .ok
    · rw [if_pos good] at wild
      rw [if_neg (not_not.mpr good)]
      exact run_tell_wild (pure response : Hooked Response) (world.made (.api apiCall.name)) wild
    · rw [if_neg good] at wild
      rw [if_pos good]
      exact run_tell_wild (pure response : Hooked Response) (world.made (.api apiCall.name)) wild

theorem Raised.Escapes.not_specified {e : Raised} (escapes : e.Escapes) {later later' : World} {hooks : List Hook} :
    EStateM.Result.error e later ≠ toResult (specified config jobKey apiCall hooks).1 later' := by
  unfold specified toResult
  split_ifs
  · cases apiCall.result with
    | ok response =>
      rintro ⟨⟩
    | error other =>
      rintro ⟨⟩
      exact escapes
  · rintro ⟨⟩
    exact escapes

end Calls

def partialHook : Hook where
  className := "AuditHook"
  attributes name := if name = "pre_kill_job" then some (.callable false (.returned true)) else none
  genericHook := none

def auditConfig : Config := ⟨"west/www/prod/hello", [partialHook], true⟩

def noGlobalHooks : World := ⟨[[]], 0, false, [], Nat.one_pos⟩

end Aurora.Client.Hooks
