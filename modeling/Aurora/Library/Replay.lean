import Mathlib.Data.List.Induction

namespace Replay

variable {ε σ τ ρ α β : Type}

/-- Change of the state that a computation leaves behind, whether it returns or raises. -/
def mapState (f : σ → τ) : EStateM.Result ε σ α → EStateM.Result ε τ α
  | .ok value state => .ok value (f state)
  | .error e state => .error e (f state)

@[simp] theorem mapState_ok (f : σ → τ) (value : α) (state : σ) :
    mapState f (.ok value state : EStateM.Result ε σ α) = .ok value (f state) := rfl

@[simp] theorem mapState_error (f : σ → τ) (e : ε) (state : σ) :
    mapState f (.error e state : EStateM.Result ε σ α) = .error e (f state) := rfl

def final : EStateM.Result ε σ α → σ
  | .ok _ state | .error _ state => state

theorem bind_eq_ok {action : Except ε α} {next : α → Except ε β} {result : β} :
    action >>= next = .ok result ↔ ∃ value, action = .ok value ∧ next value = .ok result := by
  cases action with
  | error e => simp [bind, Except.bind]
  | ok value => simp [bind, Except.bind]

theorem pure_eq_ok {value result : α} : (pure value : Except ε α) = .ok result ↔ value = result :=
  ⟨fun same => Except.ok.inj same, fun same => congrArg Except.ok same⟩

theorem mapError_eq_ok {ε' : Type} {f : ε → ε'} {action : Except ε α} {value : α} :
    action.mapError f = .ok value ↔ action = .ok value := by
  cases action <;> simp [Except.mapError]

theorem mapM_ok_of_forall {f : α → Except ε β} {g : α → β} {items : List α} (each : ∀ item ∈ items, f item = .ok (g item)) :
    items.mapM f = .ok (items.map g) := by
  induction items with
  | nil => rfl
  | cons item items ih =>
    rw [List.forall_mem_cons] at each
    rw [List.mapM_cons, each.1, ih each.2]
    rfl

theorem mem_of_mapM {f : α → Except ε β} {items : List α} {results : List β} (mapped : items.mapM f = .ok results) :
    ∀ result ∈ results, ∃ item ∈ items, f item = .ok result := by
  induction items generalizing results with
  | nil =>
    obtain rfl := pure_eq_ok.mp mapped
    simp
  | cons item items ih =>
    rw [List.mapM_cons] at mapped
    obtain ⟨first, made, rest⟩ := bind_eq_ok.mp mapped
    obtain ⟨others, others_mapped, same⟩ := bind_eq_ok.mp rest
    obtain rfl := pure_eq_ok.mp same
    rw [List.forall_mem_cons]
    refine ⟨⟨item, List.mem_cons_self, made⟩, fun result mem => ?_⟩
    obtain ⟨item', mem', made'⟩ := ih others_mapped result mem
    exact ⟨item', List.mem_cons_of_mem _ mem', made'⟩

theorem exists_of_isOk {action : Except ε α} (accepted : action.isOk = true) : ∃ value, action = .ok value := by
  cases action with
  | error e => cases accepted
  | ok value => exact ⟨value, rfl⟩

@[simp] theorem run_throw (e : ε) (state : σ) : (throw e : EStateM ε σ α).run state = .error e state := rfl

@[simp] theorem run_map (f : α → β) (action : EStateM ε σ α) (state : σ) :
    (f <$> action).run state =
      match action.run state with
      | .ok value next => .ok (f value) next
      | .error e next => .error e next := by
  simp only [Functor.map, EStateM.map, EStateM.run]
  cases action state <;> rfl

theorem run_bind_ok {action : EStateM ε σ α} {next : α → EStateM ε σ β} {result : β} {state after : σ} :
    (action >>= next).run state = .ok result after ↔
      ∃ value middle, action.run state = .ok value middle ∧ (next value).run middle = .ok result after := by
  rw [EStateM.run_bind]
  cases action.run state with
  | ok value middle => simp
  | error e middle => simp

theorem run_bind_of_ok {action : EStateM ε σ α} {next : α → EStateM ε σ β} {value : α} {state middle : σ}
    (ran : action.run state = .ok value middle) : (action >>= next).run state = (next value).run middle := by
  rw [EStateM.run_bind, ran]

theorem run_tryCatch_of_ok {action : EStateM ε σ α} {handle : ε → EStateM ε σ α} {value : α} {state middle : σ}
    (ran : action.run state = .ok value middle) :
    (tryCatch action handle : EStateM ε σ α).run state = .ok value middle := by
  change EStateM.tryCatch action handle state = _
  delta EStateM.tryCatch
  rw [show action state = .ok value middle from ran]

theorem run_tryCatch_of_error {action : EStateM ε σ α} {handle : ε → EStateM ε σ α} {e : ε} {state middle : σ}
    (ran : action.run state = .error e middle) :
    (tryCatch action handle : EStateM ε σ α).run state = (handle e).run middle := by
  change EStateM.tryCatch action handle state = _
  delta EStateM.tryCatch
  rw [show action state = .error e middle from ran]
  rfl

/-- Feeds records to a stateful step until one of them raises; the state survives the exception. -/
def feed (step : ρ → EStateM ε σ α) : List ρ → EStateM ε σ Unit
  | [] => pure ()
  | record :: rest => do
    let _ ← step record
    feed step rest

/-- How many records the step takes before it raises. -/
def taken (step : ρ → EStateM ε σ α) : List ρ → σ → Nat
  | [], _ => 0
  | record :: rest, state =>
    match (step record).run state with
    | .ok _ next => taken step rest next + 1
    | .error _ _ => 0

variable (step : ρ → EStateM ε σ α)

@[simp] theorem feed_nil (state : σ) : (feed step []).run state = .ok () state := rfl

theorem feed_cons (record : ρ) (rest : List ρ) (state : σ) :
    (feed step (record :: rest)).run state =
      match (step record).run state with
      | .ok _ next => (feed step rest).run next
      | .error e next => .error e next := rfl

theorem feed_append (first second : List ρ) (state : σ) :
    (feed step (first ++ second)).run state =
      match (feed step first).run state with
      | .ok _ next => (feed step second).run next
      | .error e next => .error e next := by
  induction first generalizing state with
  | nil => rfl
  | cons record rest ih =>
    simp only [List.cons_append, feed_cons]
    cases (step record).run state with
    | ok value next => exact ih next
    | error e next => rfl

theorem feed_snoc_ok {records : List ρ} {record : ρ} {state final : σ}
    (fed : (feed step (records ++ [record])).run state = .ok () final) :
    ∃ middle value, (feed step records).run state = .ok () middle ∧
      (step record).run middle = .ok value final := by
  rw [feed_append] at fed
  cases first : (feed step records).run state with
  | error e next => simp [first] at fed
  | ok value middle =>
    simp only [first, feed_cons] at fed
    cases last : (step record).run middle with
    | error e next => simp [last] at fed
    | ok answer next =>
      simp only [last, feed_nil, EStateM.Result.ok.injEq, true_and] at fed
      exact ⟨middle, answer, rfl, by rw [last, fed]⟩

theorem feed_prefix_ok {first second : List ρ} {state final : σ}
    (fed : (feed step (first ++ second)).run state = .ok () final) :
    ∃ middle, (feed step first).run state = .ok () middle ∧ (feed step second).run middle = .ok () final := by
  rw [feed_append] at fed
  cases ran : (feed step first).run state with
  | error e next => simp [ran] at fed
  | ok value middle => exact ⟨middle, rfl, by simpa only [ran] using fed⟩

variable {step}

/-- A fact about the records taken so far and the state, kept by every accepted record. -/
theorem feed_invariant {initial : σ} {Holds : List ρ → σ → Prop} (start : Holds [] initial)
    (kept : ∀ records record state value next, Holds records state →
      (step record).run state = .ok value next → Holds (records ++ [record]) next)
    {records : List ρ} {final : σ} (fed : (feed step records).run initial = .ok () final) :
    Holds records final := by
  induction records using List.reverseRecOn generalizing final with
  | nil => cases fed; exact start
  | append_singleton records record ih =>
    obtain ⟨middle, value, before, last⟩ := feed_snoc_ok step fed
    exact kept records record middle value final (ih before) last

theorem feed_state_invariant {initial : σ} {Holds : σ → Prop} (start : Holds initial)
    (kept : ∀ record state value next, Holds state → (step record).run state = .ok value next → Holds next)
    {records : List ρ} {final : σ} (fed : (feed step records).run initial = .ok () final) : Holds final := by
  have along := fun (_ : List ρ) record state value next => kept record state value next
  exact @feed_invariant ε σ ρ α step initial (fun _ state => Holds state) start along records final fed

/-- Two steps that commute with a map of their states are fed alike: they stop at the same record,
    with the same exception, in states related by the map. -/
theorem feed_map {other : ρ → EStateM ε τ α} (f : σ → τ)
    (commutes : ∀ record state, (other record).run (f state) = mapState f ((step record).run state))
    (records : List ρ) (state : σ) :
    (feed other records).run (f state) = mapState f ((feed step records).run state) ∧
      taken other records (f state) = taken step records state := by
  induction records generalizing state with
  | nil => exact ⟨rfl, rfl⟩
  | cons record rest ih =>
    simp only [feed_cons, taken, commutes record state]
    cases (step record).run state with
    | ok value next =>
      simp only [mapState_ok]
      exact ⟨(ih next).1, congrArg (· + 1) (ih next).2⟩
    | error e next => exact ⟨rfl, rfl⟩

end Replay
