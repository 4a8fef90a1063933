import Aurora.Library.Replay
import Mathlib.Logic.Relation

namespace Guarantee

open Relation

variable {ε σ α β : Type} {Step : σ → σ → Prop}

/-- Whatever a computation does to the state it does in steps, whether it returns or raises; what it
    returns meets a condition. -/
def Within (Step : σ → σ → Prop) (action : EStateM ε σ α) (state : σ) (Post : α → σ → Prop) : Prop :=
  match action.run state with
  | .ok value after => ReflTransGen Step state after ∧ Post value after
  | .error _ after => ReflTransGen Step state after

variable {action : EStateM ε σ α} {next : α → EStateM ε σ β} {state after : σ} {Mid : α → σ → Prop}
  {Post : β → σ → Prop}

theorem Within.ok {value : α} (ran : action.run state = .ok value after) (reached : ReflTransGen Step state after)
    (holds : Mid value after) : Within Step action state Mid := by
  simpa only [Within, ran] using ⟨reached, holds⟩

theorem Within.error {e : ε} (ran : action.run state = .error e after) (reached : ReflTransGen Step state after) :
    Within Step action state Mid := by
  simpa only [Within, ran] using reached

theorem Within.of_ok {value : α} (within : Within Step action state Mid)
    (ran : action.run state = .ok value after) : ReflTransGen Step state after ∧ Mid value after := by
  simpa only [Within, ran] using within

theorem Within.of_error {e : ε} (within : Within Step action state Mid)
    (ran : action.run state = .error e after) : ReflTransGen Step state after := by
  simpa only [Within, ran] using within

theorem Within.pure {value : α} (holds : Mid value state) :
    Within Step (Pure.pure value : EStateM ε σ α) state Mid :=
  ⟨.refl, holds⟩

theorem Within.throw {e : ε} : Within Step (MonadExcept.throw e : EStateM ε σ α) state Mid :=
  ReflTransGen.refl

theorem Within.bind (first : Within Step action state Mid)
    (rest : ∀ value middle, ReflTransGen Step state middle → Mid value middle →
      Within Step (next value) middle Post) : Within Step (action >>= next) state Post := by
  unfold Within
  rw [EStateM.run_bind]
  cases ran : action.run state with
  | error e middle => exact first.of_error ran
  | ok value middle =>
    obtain ⟨reached, holds⟩ := first.of_ok ran
    have continued := rest value middle reached holds
    simp only
    cases ended : (next value).run middle with
    | error e final => exact reached.trans (continued.of_error ended)
    | ok result final =>
      obtain ⟨further, done⟩ := continued.of_ok ended
      exact ⟨reached.trans further, done⟩

theorem Within.weaken {Other : α → σ → Prop} (within : Within Step action state Mid)
    (weaker : ∀ value after, ReflTransGen Step state after → Mid value after → Other value after) :
    Within Step action state Other := by
  unfold Within
  cases ran : action.run state with
  | error e middle => exact within.of_error ran
  | ok value middle =>
    obtain ⟨reached, holds⟩ := within.of_ok ran
    exact ⟨reached, weaker value middle reached holds⟩

theorem Within.get {next : σ → EStateM ε σ β} (rest : Within Step (next state) state Post) :
    Within Step (MonadState.get >>= next) state Post :=
  rest

theorem Within.modified {change : σ → σ} {Done : Unit → σ → Prop} (step : ReflTransGen Step state (change state))
    (holds : Done () (change state)) : Within Step (modify change : EStateM ε σ Unit) state Done :=
  ⟨step, holds⟩

theorem Within.tryCatch {handle : ε → EStateM ε σ α} (body : Within Step action state Mid)
    (handled : ∀ e middle, ReflTransGen Step state middle → Within Step (handle e) middle Mid) :
    Within Step (MonadExcept.tryCatch action handle) state Mid := by
  unfold Within
  cases ran : action.run state with
  | ok value middle =>
    rw [Replay.run_tryCatch_of_ok ran]
    exact body.of_ok ran
  | error e middle =>
    have reached := body.of_error ran
    have continued := handled e middle reached
    rw [Replay.run_tryCatch_of_error ran]
    cases ended : (handle e).run middle with
    | error other final => exact reached.trans (continued.of_error ended)
    | ok result final =>
      obtain ⟨further, done⟩ := continued.of_ok ended
      exact ⟨reached.trans further, done⟩

theorem steps_kept {Holds : σ → Prop} (kept : ∀ state after, Holds state → Step state after → Holds after)
    (reached : ReflTransGen Step state after) (start : Holds state) : Holds after := by
  induction reached with
  | refl => exact start
  | tail _ step ih => exact kept _ _ ih step

section Meets

variable {Raised : ε → σ → Prop}

/-- What holds where a computation returns, and what where it raises. -/
def Meets (action : EStateM ε σ α) (state : σ) (Returned : α → σ → Prop) (Raised : ε → σ → Prop) : Prop :=
  match action.run state with
  | .ok value after => Returned value after
  | .error e after => Raised e after

theorem Meets.ok {value : α} (ran : action.run state = .ok value after) (holds : Mid value after) :
    Meets action state Mid Raised := by
  simpa only [Meets, ran] using holds

theorem Meets.of_ok {value : α} (meets : Meets action state Mid Raised) (ran : action.run state = .ok value after) :
    Mid value after := by
  simpa only [Meets, ran] using meets

theorem Meets.of_error {e : ε} (meets : Meets action state Mid Raised) (ran : action.run state = .error e after) :
    Raised e after := by
  simpa only [Meets, ran] using meets

theorem Meets.final {Holds : σ → Prop} (meets : Meets action state (fun _ => Holds) fun _ => Holds) :
    Holds (Replay.final (action.run state)) := by
  cases ran : action.run state with
  | ok value after => exact meets.of_ok ran
  | error e after => exact meets.of_error ran

theorem Meets.pure {value : α} (holds : Mid value state) :
    Meets (Pure.pure value : EStateM ε σ α) state Mid Raised :=
  holds

theorem Meets.throw {e : ε} (holds : Raised e state) :
    Meets (MonadExcept.throw e : EStateM ε σ α) state Mid Raised :=
  holds

theorem Meets.get {next : σ → EStateM ε σ β} (rest : Meets (next state) state Post Raised) :
    Meets (MonadState.get >>= next) state Post Raised :=
  rest

theorem Meets.modified {change : σ → σ} {Done : Unit → σ → Prop} (holds : Done () (change state)) :
    Meets (modify change : EStateM ε σ Unit) state Done Raised :=
  holds

theorem Meets.modify {change : σ → σ} {next : Unit → EStateM ε σ β} (rest : Meets (next ()) (change state) Post Raised) :
    Meets (modify change >>= next) state Post Raised :=
  rest

theorem Meets.bind {Failed : ε → σ → Prop} (first : Meets action state Mid Failed)
    (rest : ∀ value middle, Mid value middle → Meets (next value) middle Post Raised)
    (failed : ∀ e middle, Failed e middle → Raised e middle) : Meets (action >>= next) state Post Raised := by
  unfold Meets
  rw [EStateM.run_bind]
  cases ran : action.run state with
  | error e middle => exact failed e middle (first.of_error ran)
  | ok value middle => exact rest value middle (first.of_ok ran)

theorem Meets.weaken {Other : α → σ → Prop} {Failed : ε → σ → Prop} (meets : Meets action state Mid Failed)
    (returned : ∀ value after, Mid value after → Other value after)
    (raised : ∀ e after, Failed e after → Raised e after) : Meets action state Other Raised := by
  unfold Meets
  cases ran : action.run state with
  | error e middle => exact raised e middle (meets.of_error ran)
  | ok value middle => exact returned value middle (meets.of_ok ran)

end Meets

section Ends

variable {run : StateM σ α} {rest : α → StateM σ β}

/-- What a computation that cannot raise returns and leaves behind. -/
def Ends (run : StateM σ α) (state : σ) (Post : α → σ → Prop) : Prop := Post (run.run state).1 (run.run state).2

theorem Ends.pure {value : α} (holds : Mid value state) : Ends (Pure.pure value : StateM σ α) state Mid := holds

theorem Ends.bind (first : Ends run state Mid)
    (later : ∀ value middle, Mid value middle → Ends (rest value) middle Post) : Ends (run >>= rest) state Post :=
  later _ _ first

theorem Ends.weaken {Other : α → σ → Prop} (ends : Ends run state Mid)
    (weaker : ∀ value after, Mid value after → Other value after) : Ends run state Other :=
  weaker _ _ ends

theorem Ends.get {next : σ → StateM σ β} (later : Ends (next state) state Post) :
    Ends (MonadState.get >>= next) state Post :=
  later

theorem Ends.modified {change : σ → σ} {next : Unit → StateM σ β} (later : Ends (next ()) (change state) Post) :
    Ends (modify change >>= next) state Post :=
  later

end Ends

end Guarantee
