import Mathlib.Data.List.Infix
import Mathlib.Logic.Basic

namespace Transition

variable {σ ε : Type} (step : σ → ε → Option σ)

def run : σ → List ε → Option σ
  | state, [] => some state
  | state, event :: rest =>
    match step state event with
    | none => none
    | some next => run next rest

/-- Each step of the run is tried in a state in which it is allowed. -/
def Along (allowed : σ → ε → Prop) : σ → List ε → Prop
  | _, [] => True
  | state, event :: rest =>
    allowed state event ∧
      match step state event with
      | none => True
      | some next => Along allowed next rest

instance Along.decidable (allowed : σ → ε → Prop) [∀ state event, Decidable (allowed state event)] :
    ∀ state events, Decidable (Along step allowed state events)
  | _, [] => isTrue trivial
  | state, event :: rest =>
    have : Decidable (match step state event with | none => True | some next => Along step allowed next rest) :=
      match step state event with
      | none => isTrue trivial
      | some next => Along.decidable allowed next rest
    inferInstanceAs (Decidable (_ ∧ _))

variable {step} {allowed : σ → ε → Prop} {Inv : σ → Prop} {start final : σ} {event : ε} {rest events : List ε}

@[simp] theorem run_nil : run step start [] = some start := rfl

theorem run_cons :
    run step start (event :: rest) = some final ↔ ∃ next, step start event = some next ∧ run step next rest = some final := by
  rw [run]
  cases step start event with
  | none => simp
  | some next => simp

theorem Along.head (along : Along step allowed start (event :: rest)) : allowed start event := along.1

theorem Along.tail {next : σ} (along : Along step allowed start (event :: rest)) (taken : step start event = some next) :
    Along step allowed next rest := by
  have later := along.2
  rw [taken] at later
  exact later

theorem Along.of_forall (always : ∀ state event, allowed state event) : Along step allowed start events := by
  induction events generalizing start with
  | nil => trivial
  | cons event rest ih =>
    refine ⟨always start event, ?_⟩
    cases step start event with
    | none => trivial
    | some next => exact ih

theorem invariant (keeps : ∀ state event next, Inv state → allowed state event → step state event = some next → Inv next)
    (holds : Inv start) (along : Along step allowed start events) (reached : run step start events = some final) :
    Inv final := by
  induction events generalizing start with
  | nil =>
    cases reached
    exact holds
  | cons event rest ih =>
    obtain ⟨next, taken, reached⟩ := run_cons.mp reached
    exact ih (keeps start event next holds along.head taken) (along.tail taken) reached

theorem Along.of_invariant {Lawful : σ → ε → Prop}
    (keeps : ∀ state event next, Inv state → allowed state event → step state event = some next → Inv next)
    (lawful : ∀ state event, Inv state → allowed state event → Lawful state event)
    (holds : Inv start) (along : Along step allowed start events) : Along step Lawful start events := by
  induction events generalizing start with
  | nil => trivial
  | cons event rest ih =>
    refine ⟨lawful start event holds along.head, ?_⟩
    cases taken : step start event with
    | none => trivial
    | some next => exact ih (keeps start event next holds along.head taken) (along.tail taken)

theorem Along.iff_good {Good : σ → Prop} (keeps : ∀ state event next, Inv state → step state event = some next → Inv next)
    (exact : ∀ state event next, Inv state → Good state → step state event = some next → (Good next ↔ allowed state event))
    (holds : Inv start) (good : Good start) (ran : run step start events = some final) :
    (∀ past state, past <+: events → run step start past = some state → Good state) ↔ Along step allowed start events := by
  induction events generalizing start with
  | nil =>
    constructor
    · intro _
      trivial
    · intro _ past state isPrefix reached
      rw [List.prefix_nil.mp isPrefix] at reached
      cases reached
      exact good
  | cons event rest ih =>
    obtain ⟨next, taken, reached⟩ := run_cons.mp ran
    have holdsNext := keeps start event next holds taken
    constructor
    · intro always
      have goodNext := always [event] next (by simp) (run_cons.mpr ⟨next, taken, rfl⟩)
      refine ⟨(exact start event next holds good taken).mp goodNext, ?_⟩
      rw [taken]
      refine (ih holdsNext goodNext reached).mp fun past state isPrefix later => ?_
      exact always (event :: past) state (List.cons_prefix_cons.mpr ⟨rfl, isPrefix⟩) (run_cons.mpr ⟨next, taken, later⟩)
    · intro along past state isPrefix later
      have goodNext := (exact start event next holds good taken).mpr along.head
      cases past with
      | nil =>
        cases later
        exact good
      | cons first past =>
        obtain ⟨rfl, shorter⟩ := List.cons_prefix_cons.mp isPrefix
        obtain ⟨next', taken', later⟩ := run_cons.mp later
        rw [taken] at taken'
        cases taken'
        exact (ih holdsNext goodNext reached).mpr (along.tail taken) past state shorter later

end Transition
