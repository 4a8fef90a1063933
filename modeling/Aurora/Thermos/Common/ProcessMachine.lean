import Aurora.Thermos.Common.Ckpt

namespace Aurora.Thermos

open Collections

/-- The states from which the process state machine enters a state; a fresh run has none yet. -/
def predecessors : ProcessState → List (Option ProcessState)
  | .waiting => [none]
  | .forked => [some .waiting]
  | .running => [some .forked]
  | .success => [some .running]
  | .failed => [some .waiting, some .running]
  | .killed | .lost => [some .forked, some .running]
  | .unknown _ => []

def MayFollow (before : Option ProcessState) (next : ProcessState) : Prop := before ∈ predecessors next

instance (before : Option ProcessState) (next : ProcessState) : Decidable (MayFollow before next) :=
  inferInstanceAs (Decidable (before ∈ predecessors next))

def Carries (update : ProcessStatus) : ProcessState → Prop
  | .waiting => update.process.isSome = true
  | .forked => update.forkTime.isSome = true ∧ update.coordinatorPid.isSome = true
  | .running => update.startTime.isSome = true ∧ update.pid.isSome = true
  | .success | .killed => update.stopTime.isSome = true ∧ update.returnCode.isSome = true
  | _ => True

namespace ProcessRun

def advance (run : ProcessRun) (update : ProcessStatus) (seq : Int) (next : ProcessState) : ProcessRun :=
  let moved := { run with seq, state := some next }
  match next with
  | .waiting => { moved with process := update.process }
  | .forked => { moved with forkTime := update.forkTime, coordinatorPid := update.coordinatorPid }
  | .running => { moved with startTime := update.startTime, pid := update.pid }
  | .success | .killed => { moved with stopTime := update.stopTime, returnCode := update.returnCode }
  | _ => moved

@[simp] theorem advance_seq (run : ProcessRun) (update : ProcessStatus) (seq : Int) (next : ProcessState) :
    (run.advance update seq next).seq = seq := by
  cases next <;> rfl

@[simp] theorem advance_state (run : ProcessRun) (update : ProcessStatus) (seq : Int) (next : ProcessState) :
    (run.advance update seq next).state = some next := by
  cases next <;> rfl

end ProcessRun

namespace CheckpointDispatcher

theorem nonempty_run {α σ : Type} (field : String) (update : ProcessStatus) (value : Option α) (s : σ) :
    (nonempty field update value).run s =
      match value with
      | some v => .ok v s
      | none => .error (.missingField field update) s := by
  cases value <;> rfl

theorem assertProcessStateIn_run (update : ProcessStatus) (expected : List (Option ProcessState))
    (run : ProcessRun) :
    (assertProcessStateIn update expected).run run =
      if run.state ∈ expected then .ok () run
      else .error (.errorRecoveringState ("Detected invalid state transition " ++
        ProcessState.valueName run.state ++ " => " ++ ProcessState.valueName update.state)) run := by
  unfold assertProcessStateIn
  by_cases allowed : run.state ∈ expected <;> simp [allowed]

section Update

variable (update : ProcessStatus) (run : ProcessRun)

theorem updateProcessState_unnumbered (missing : update.seq = none) :
    (updateProcessState update).run run = .error (.missingField "seq" update) run := by
  simp [updateProcessState, nonempty_run, missing]

theorem updateProcessState_accepts (seq : Int) (next : ProcessState) (numbered : update.seq = some seq)
    (state : update.state = some next) (follows : MayFollow run.state next) (carries : Carries update next) :
    (updateProcessState update).run run = .ok () (run.advance update seq next) := by
  simp only [MayFollow] at follows
  cases next <;> simp only [predecessors] at follows <;>
    simp only [Carries, Option.isSome_iff_exists] at carries
  case waiting =>
    obtain ⟨process, named⟩ := carries
    simp [updateProcessState, nonempty_run, assertProcessStateIn_run, ProcessRun.advance, *]
  case forked | running | success | killed =>
    obtain ⟨⟨first, one⟩, ⟨second, two⟩⟩ := carries
    simp [updateProcessState, nonempty_run, assertProcessStateIn_run, ProcessRun.advance, *]
  case failed | lost =>
    simp [updateProcessState, nonempty_run, assertProcessStateIn_run, ProcessRun.advance, *]
  case unknown => cases follows

theorem updateProcessState_misses (seq : Int) (next : ProcessState) (numbered : update.seq = some seq)
    (state : update.state = some next) (follows : MayFollow run.state next) (lacks : ¬ Carries update next) :
    ∃ field after, (updateProcessState update).run run = .error (.missingField field update) after ∧
      after.seq = seq := by
  simp only [MayFollow] at follows
  cases next <;> simp only [predecessors] at follows <;> simp only [Carries, not_true] at lacks
  case waiting =>
    simp only [Bool.not_eq_true, Option.isSome_eq_false_iff, Option.isNone_iff_eq_none] at lacks
    simp [updateProcessState, nonempty_run, assertProcessStateIn_run, *]
  case forked =>
    cases one : update.forkTime <;> cases two : update.coordinatorPid <;>
      simp_all [updateProcessState, nonempty_run, assertProcessStateIn_run]
  case running =>
    cases one : update.startTime <;> cases two : update.pid <;>
      simp_all [updateProcessState, nonempty_run, assertProcessStateIn_run]
  case success | killed =>
    cases one : update.stopTime <;> cases two : update.returnCode <;>
      simp_all [updateProcessState, nonempty_run, assertProcessStateIn_run]

theorem updateProcessState_rejects (seq : Int) (numbered : update.seq = some seq)
    (refused : ∀ next, update.state = some next → ¬ MayFollow run.state next) :
    ∃ message, (updateProcessState update).run run =
      .error (.errorRecoveringState message) { run with seq } := by
  cases state : update.state with
  | none =>
    simp [updateProcessState, nonempty_run, *]
  | some next =>
    have outside : run.state ∉ predecessors next := refused next state
    cases next <;> simp only [predecessors] at outside <;>
      simp [updateProcessState, nonempty_run, assertProcessStateIn_run, *]

/-- An update is applied as a whole, rejected by the state machine with only the sequence number
    copied, or found to miss a field. -/
theorem updateProcessState_cases :
    (∃ seq next, update.seq = some seq ∧ update.state = some next ∧ MayFollow run.state next ∧
      Carries update next ∧ (updateProcessState update).run run = .ok () (run.advance update seq next)) ∨
    (∃ seq message, update.seq = some seq ∧ (∀ next, update.state = some next → ¬ MayFollow run.state next) ∧
      (updateProcessState update).run run = .error (.errorRecoveringState message) { run with seq }) ∨
    (∃ field after, (updateProcessState update).run run = .error (.missingField field update) after) := by
  cases numbered : update.seq with
  | none => exact .inr (.inr ⟨_, _, updateProcessState_unnumbered update run numbered⟩)
  | some seq =>
    by_cases refused : ∀ next, update.state = some next → ¬ MayFollow run.state next
    · obtain ⟨message, raised⟩ := updateProcessState_rejects update run seq numbered refused
      exact .inr (.inl ⟨seq, message, rfl, refused, raised⟩)
    · obtain ⟨next, state, follows⟩ : ∃ next, update.state = some next ∧ MayFollow run.state next := by
        simpa using refused
      by_cases carries : Carries update next
      · exact .inl ⟨seq, next, rfl, state, follows, carries,
          updateProcessState_accepts update run seq next numbered state follows carries⟩
      · obtain ⟨field, after, raised, _⟩ :=
          updateProcessState_misses update run seq next numbered state follows carries
        exact .inr (.inr ⟨field, after, raised⟩)

theorem updateProcessState_seq (seq : Int) (numbered : update.seq = some seq) :
    (Replay.final ((updateProcessState update).run run)).seq = seq := by
  by_cases refused : ∀ next, update.state = some next → ¬ MayFollow run.state next
  · obtain ⟨message, raised⟩ := updateProcessState_rejects update run seq numbered refused
    rw [raised]
    rfl
  · obtain ⟨next, state, follows⟩ : ∃ next, update.state = some next ∧ MayFollow run.state next := by
      simpa using refused
    by_cases carries : Carries update next
    · rw [updateProcessState_accepts update run seq next numbered state follows carries]
      exact ProcessRun.advance_seq run update seq next
    · obtain ⟨field, after, raised, copied⟩ :=
        updateProcessState_misses update run seq next numbered state follows carries
      rw [raised]
      exact copied

end Update

end CheckpointDispatcher

end Aurora.Thermos
