import Aurora.Executor.AuroraExecutor
import Mathlib.Data.List.ReduceOption

namespace Aurora.Executor

namespace ChainedStatusChecker

variable {Checker : Type}

/-- The loop of `status`, which asks a checker after the other and leaves the rest alone once one is terminal. -/
def ask (answer : Checker → Option StatusResult × Checker) : Option StatusResult → List Checker →
    Option StatusResult × List Checker
  | current, [] => (current, [])
  | current, checker :: rest =>
    match answer checker with
    | (none, checker) => ((ask answer current rest).1, checker :: (ask answer current rest).2)
    | (some result, checker) =>
      match result.status with
      | .starting => ((ask answer (some result) rest).1, checker :: (ask answer (some result) rest).2)
      | .running =>
        let current := if current.isNone then some result else current
        ((ask answer current rest).1, checker :: (ask answer current rest).2)
      | _ => (some result, checker :: rest)

structure Chain (Checker : Type) where
  statusCheckers : List Checker
  status : Option StatusResult := none

def Chain.poll (answer : Checker → Option StatusResult × Checker) (chain : Chain Checker) : Chain Checker :=
  if inTerminalState chain.status then chain
  else ⟨(ask answer none chain.statusCheckers).2, (ask answer none chain.statusCheckers).1⟩

def polled (answers : Nat → Checker → Option StatusResult × Checker) (checkers : List Checker) : Nat → Chain Checker
  | 0 => ⟨checkers, none⟩
  | polls + 1 => (polled answers checkers polls).poll (answers polls)

def compositeState (states : List (Option TaskState)) : Option TaskState :=
  match states.reduceOption.find? fun state => state ≠ .running ∧ state ≠ .starting with
  | some state => some state
  | none =>
    if some .starting ∈ states then some .starting else if some .running ∈ states then some .running else none

theorem ask_status (answer : Checker → Option StatusResult × Checker) (current : Option StatusResult)
    (checkers : List Checker) :
    (ask answer current checkers).1 = combine current (checkers.map fun checker => (answer checker).1) := by
  induction checkers generalizing current with
  | nil => rfl
  | cons checker rest ih =>
    rw [ask, List.map_cons]
    split
    · next answered =>
      rw [answered, combine]
      exact ih current
    · next result checker answered =>
      rw [answered, combine]
      cases result.status with
      | starting => exact ih _
      | running => exact ih _
      | _ => rfl

theorem poll_status (answer : Checker → Option StatusResult × Checker) (chain : Chain Checker) :
    (chain.poll answer).status =
      ChainedStatusChecker.status chain.status (chain.statusCheckers.map fun checker => (answer checker).1) := by
  unfold Chain.poll ChainedStatusChecker.status
  split
  · rfl
  · exact ask_status answer none chain.statusCheckers

theorem compositeState_cons_none (states : List (Option TaskState)) :
    compositeState (none :: states) = compositeState states := by
  simp [compositeState]

theorem compositeState_skip (before : Option TaskState) (states : List (Option TaskState)) :
    compositeState (before :: none :: states) = compositeState (before :: states) := by
  cases before <;> simp [compositeState]

theorem compositeState_terminal {state : TaskState} (terminal : state ≠ .running ∧ state ≠ .starting)
    {before : Option TaskState} (quiet : ∀ state ∈ before, state = .running ∨ state = .starting)
    (states : List (Option TaskState)) : compositeState (before :: some state :: states) = some state := by
  rcases before with _ | first
  · simp [compositeState, terminal]
  · rcases quiet first rfl with rfl | rfl <;> simp [compositeState, terminal]

/-- A healthy state that comes second only matters for which one of the two stands out. -/
theorem compositeState_merge (first second : TaskState) (quiet : first = .running ∨ first = .starting)
    (quiet' : second = .running ∨ second = .starting) (states : List (Option TaskState)) :
    compositeState (some first :: some second :: states) =
      compositeState (some (if second = .starting then second else first) :: states) := by
  rcases quiet with rfl | rfl <;> rcases quiet' with rfl | rfl <;>
    simp [compositeState]

theorem combine_terminal {current : Option StatusResult} {result : StatusResult} (rest : List (Option StatusResult))
    (terminal : result.status ≠ .running ∧ result.status ≠ .starting) :
    combine current (some result :: rest) = some result := by
  rw [combine]
  split
  · next starting => exact absurd starting terminal.2
  · next running => exact absurd running terminal.1
  · rfl

theorem combine_quiet (current : Option StatusResult) {result : StatusResult} (rest : List (Option StatusResult))
    (quiet : result.status = .running ∨ result.status = .starting) :
    combine current (some result :: rest) =
      combine (if result.status = .starting then some result else current.or (some result)) rest := by
  rw [combine]
  rcases quiet with state | state <;> rw [state]
  · cases current <;> rfl
  · rfl

theorem combine_state (current : Option StatusResult)
    (quiet : ∀ result ∈ current, result.status = .running ∨ result.status = .starting)
    (reported : List (Option StatusResult)) :
    (combine current reported).map StatusResult.status =
      compositeState (current.map StatusResult.status :: reported.map (Option.map StatusResult.status)) := by
  induction reported generalizing current with
  | nil =>
    rcases current with _ | result
    · rfl
    · rcases quiet result rfl with state | state <;> simp [combine, compositeState, state]
  | cons answer rest ih =>
    rcases answer with _ | result
    · rw [combine, ih current quiet]
      exact (compositeState_skip _ _).symm
    by_cases terminal : result.status ≠ .running ∧ result.status ≠ .starting
    · rw [combine_terminal rest terminal]
      refine (compositeState_terminal terminal ?_ _).symm
      simpa using quiet
    · have quiet' : result.status = .running ∨ result.status = .starting := by
        by_contra other
        exact terminal (not_or.mp other)
      rw [combine_quiet current rest quiet', ih _ ?_, List.map_cons, Option.map_some]
      · rcases current with _ | first
        · simp [compositeState_cons_none]
        · rw [Option.map_some, compositeState_merge _ _ (quiet first rfl) quiet']
          split <;> rfl
      · intro kept mem
        split at mem
        · exact Option.some.inj mem ▸ quiet'
        · rcases current with _ | first
          · exact Option.some.inj mem ▸ quiet'
          · exact quiet kept mem

end ChainedStatusChecker

section Loop

open ChainedStatusChecker

variable {Checker : Type}

inductive StatusCallback
  | running (result : StatusResult)
  | unhealthy (result : StatusResult)
  deriving DecidableEq

structure StatusLoop (Checker : Type) where
  statusChecker : Chain Checker
  runningCallbackDispatched : Bool := false
  callbacks : List StatusCallback := []
  ceased : Bool := false

def StatusLoop.round (answer : Checker → Option StatusResult × Checker) (raises : Bool) (loop : StatusLoop Checker) :
    StatusLoop Checker :=
  if loop.ceased then loop
  else
    let statusChecker := loop.statusChecker.poll answer
    match AuroraExecutor.StatusManager.react loop.runningCallbackDispatched statusChecker.status with
    | .running result =>
      { statusChecker
        runningCallbackDispatched := !raises
        callbacks := loop.callbacks ++ [.running result]
        ceased := raises }
    | .unhealthy result =>
      { loop with
        statusChecker
        callbacks := loop.callbacks ++ [.unhealthy result]
        ceased := true }
    | _ => { loop with statusChecker }

def managed (answers : Nat → Checker → Option StatusResult × Checker) (raises : Nat → Bool) (checkers : List Checker) :
    Nat → StatusLoop Checker
  | 0 => { statusChecker := ⟨checkers, none⟩ }
  | rounds + 1 => (managed answers raises checkers rounds).round (answers rounds) (raises rounds)

def terminalResult (status : Option StatusResult) : Option StatusResult :=
  if inTerminalState status then status else none

structure StatusLoop.Called (loop : StatusLoop Checker) (first : Option StatusResult) : Prop where
  callbacks : loop.callbacks = first.toList.map StatusCallback.running ++
    (terminalResult loop.statusChecker.status).toList.map StatusCallback.unhealthy
  first_running : ∀ result ∈ first, result.status = .running
  dispatched : loop.ceased = false → loop.runningCallbackDispatched = first.isSome
  ended : inTerminalState loop.statusChecker.status = true → loop.ceased = true

variable {answers : Nat → Checker → Option StatusResult × Checker} {raises : Nat → Bool} {checkers : List Checker}

/-- What the loop does with a status: nothing, the first RUNNING, or the terminal result. -/
theorem react_cases (dispatched : Bool) (status : Option StatusResult) :
    (AuroraExecutor.StatusManager.react dispatched status = .poll ∧ inTerminalState status = false) ∨
    (∃ result, status = some result ∧ result.status = .running ∧ dispatched = false ∧
      AuroraExecutor.StatusManager.react dispatched status = .running result) ∨
    (∃ result, status = some result ∧ inTerminalState status = true ∧
      AuroraExecutor.StatusManager.react dispatched status = .unhealthy result) := by
  rcases status with _ | ⟨reason, state⟩
  · exact .inl ⟨rfl, rfl⟩
  · cases state with
    | starting => exact .inl ⟨rfl, rfl⟩
    | running =>
      cases dispatched with
      | true => exact .inl ⟨rfl, rfl⟩
      | false => exact .inr (.inl ⟨_, rfl, rfl, rfl, rfl⟩)
    | _ => exact .inr (.inr ⟨_, rfl, rfl, rfl⟩)

theorem inTerminalState_running {result : StatusResult} (running : result.status = .running) :
    inTerminalState (some result) = false := by
  simp [inTerminalState, running]

theorem StatusLoop.Called.round {loop : StatusLoop Checker} {first : Option StatusResult} (called : loop.Called first)
    (answer : Checker → Option StatusResult × Checker) (raised : Bool) :
    ∃ first, (loop.round answer raised).Called first := by
  unfold StatusLoop.round
  cases ceased : loop.ceased with
  | true => exact ⟨first, called⟩
  | false =>
    have before : terminalResult loop.statusChecker.status = none := by
      refine if_neg fun terminal => ?_
      rw [called.ended terminal] at ceased
      cases ceased
    have earlier := called.callbacks
    rw [before, Option.toList_none, List.map_nil, List.append_nil] at earlier
    have dispatched := called.dispatched ceased
    rw [if_neg Bool.false_ne_true]
    generalize loop.statusChecker.poll answer = chain
    dsimp only
    rcases react_cases loop.runningCallbackDispatched chain.status with
      ⟨reacted, quiet⟩ | ⟨result, polled, running, fresh, reacted⟩ | ⟨result, polled, terminal, reacted⟩
    · rw [reacted]
      refine ⟨first, ?_, called.first_running, fun _ => dispatched, fun terminal => ?_⟩
      · simp [terminalResult, quiet, earlier]
      · exact absurd (quiet.symm.trans terminal) Bool.false_ne_true
    · rw [reacted]
      have none_before : first = none := by
        rw [fresh] at dispatched
        simpa using dispatched.symm
      have quiet := inTerminalState_running running
      refine ⟨some result, ?_, ?_, fun calm => ?_, fun terminal => ?_⟩
      · simp [terminalResult, polled, quiet, earlier, none_before]
      · simpa using running
      · have calm' : raised = false := calm
        simp [calm']
      · exact absurd (quiet.symm.trans (polled ▸ terminal)) Bool.false_ne_true
    · rw [reacted]
      refine ⟨first, ?_, called.first_running, fun calm => ?_, fun _ => rfl⟩
      · simp [terminalResult, polled, polled ▸ terminal, earlier]
      · cases calm

theorem managed_called (rounds : Nat) : ∃ first, (managed answers raises checkers rounds).Called first := by
  induction rounds with
  | zero => exact ⟨none, rfl, by simp, fun _ => rfl, fun terminal => by cases terminal⟩
  | succ rounds ih =>
    obtain ⟨first, called⟩ := ih
    exact called.round _ _

theorem managed_over {rounds later : Nat} (le : rounds ≤ later)
    (ceased : (managed answers raises checkers rounds).ceased = true) :
    managed answers raises checkers later = managed answers raises checkers rounds := by
  induction later, le using Nat.le_induction with
  | base => rfl
  | succ later _ ih =>
    rw [managed, ih, StatusLoop.round, ceased]
    rfl

theorem polled_terminal {polls later : Nat} (le : polls ≤ later)
    (terminal : inTerminalState (polled answers checkers polls).status = true) :
    polled answers checkers later = polled answers checkers polls := by
  induction later, le using Nat.le_induction with
  | base => rfl
  | succ later _ ih =>
    rw [polled, ih, Chain.poll, terminal]
    rfl

theorem round_statusChecker {loop : StatusLoop Checker} (open_ : loop.ceased = false)
    (answer : Checker → Option StatusResult × Checker) (raised : Bool) :
    (loop.round answer raised).statusChecker = loop.statusChecker.poll answer := by
  unfold StatusLoop.round
  rw [open_, if_neg Bool.false_ne_true]
  dsimp only
  split <;> rfl

theorem round_over {loop : StatusLoop Checker} (open_ : loop.ceased = false)
    (answer : Checker → Option StatusResult × Checker) :
    (loop.round answer false).ceased = inTerminalState (loop.round answer false).statusChecker.status := by
  rw [round_statusChecker open_]
  unfold StatusLoop.round
  rw [open_, if_neg Bool.false_ne_true]
  generalize loop.statusChecker.poll answer = chain
  dsimp only
  rcases react_cases loop.runningCallbackDispatched chain.status with
    ⟨reacted, quiet⟩ | ⟨result, polled, running, -, reacted⟩ | ⟨result, polled, terminal, reacted⟩
  · rw [reacted, quiet]
  · rw [reacted, polled]
    exact (inTerminalState_running running).symm
  · rw [reacted, terminal]

/-- As long as no callback raises, the loop polls on until a terminal result. -/
theorem managed_calm {rounds : Nat} (calm : ∀ round < rounds, raises round = false) :
    (managed answers raises checkers rounds).statusChecker = polled answers checkers rounds ∧
    (managed answers raises checkers rounds).ceased = inTerminalState (polled answers checkers rounds).status := by
  induction rounds with
  | zero => exact ⟨rfl, rfl⟩
  | succ rounds ih =>
    obtain ⟨same, over_eq⟩ := ih fun round before => calm round (Nat.lt_succ_of_lt before)
    rw [managed, calm rounds (Nat.lt_succ_self rounds)]
    cases ceased : (managed answers raises checkers rounds).ceased with
    | true =>
      rw [ceased] at over_eq
      rw [polled_terminal (Nat.le_succ rounds) over_eq.symm, StatusLoop.round, ceased]
      exact ⟨same, ceased.trans over_eq⟩
    | false =>
      have moved : ((managed answers raises checkers rounds).round (answers rounds) false).statusChecker =
          polled answers checkers (rounds + 1) := by
        rw [round_statusChecker ceased, same]
        rfl
      exact ⟨moved, by rw [round_over ceased, moved]⟩

theorem managed_polled (rounds : Nat) : ∃ polls ≤ rounds,
    (managed answers raises checkers rounds).statusChecker = polled answers checkers polls ∧
    ((managed answers raises checkers rounds).ceased = false → polls = rounds) := by
  induction rounds with
  | zero => exact ⟨0, le_rfl, rfl, fun _ => rfl⟩
  | succ rounds ih =>
    obtain ⟨polls, within, same, on⟩ := ih
    cases ceased : (managed answers raises checkers rounds).ceased with
    | true =>
      rw [managed_over (Nat.le_succ rounds) ceased]
      exact ⟨polls, within.trans (Nat.le_succ rounds), same,
        fun still => absurd (still.symm.trans ceased) Bool.false_ne_true⟩
    | false =>
      refine ⟨rounds + 1, le_rfl, ?_, fun _ => rfl⟩
      rw [managed, round_statusChecker ceased, same, on ceased]
      rfl

end Loop

open ChainedStatusChecker in
theorem composite_status {Checker : Type} (answers : Nat → Checker → Option StatusResult × Checker)
    (checkers : List Checker) (raises : Nat → Bool) :
    (∀ polls, inTerminalState (polled answers checkers polls).status = false →
      (polled answers checkers (polls + 1)).status.map StatusResult.status =
        compositeState ((polled answers checkers polls).statusCheckers.map
          fun checker => (answers polls checker).1.map StatusResult.status)) ∧
    (∀ polls later, polls ≤ later → inTerminalState (polled answers checkers polls).status = true →
      polled answers checkers later = polled answers checkers polls) ∧
    (∀ rounds, ∃ first : Option StatusResult, (managed answers raises checkers rounds).callbacks =
      first.toList.map StatusCallback.running ++
        (terminalResult (managed answers raises checkers rounds).statusChecker.status).toList.map
          StatusCallback.unhealthy) ∧
    (∀ rounds later, rounds ≤ later →
      inTerminalState (managed answers raises checkers rounds).statusChecker.status = true →
      managed answers raises checkers later = managed answers raises checkers rounds) ∧
    (∀ rounds, (∃ polls ≤ rounds, (managed answers raises checkers rounds).statusChecker = polled answers checkers polls) ∧
      ((∀ round < rounds, raises round = false) →
        (managed answers raises checkers rounds).statusChecker = polled answers checkers rounds)) := by
  refine ⟨fun polls quiet => ?_, fun _ _ => polled_terminal, fun rounds => ?_, fun rounds later le terminal => ?_,
    fun rounds => ⟨?_, fun calm => (managed_calm calm).1⟩⟩
  · rw [polled, poll_status, ChainedStatusChecker.status, quiet, if_neg Bool.false_ne_true,
      combine_state none (by simp), Option.map_none, compositeState_cons_none, List.map_map]
    rfl
  · obtain ⟨first, called⟩ := @managed_called _ answers raises checkers rounds
    exact ⟨first, called.callbacks⟩
  · obtain ⟨first, called⟩ := @managed_called _ answers raises checkers rounds
    exact managed_over le (called.ended terminal)
  · obtain ⟨polls, within, same, -⟩ := @managed_polled _ answers raises checkers rounds
    exact ⟨polls, within, same⟩

end Aurora.Executor
