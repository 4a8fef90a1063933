import Aurora.Thermos.Common.CkptHistory

namespace Aurora.Thermos

open Collections Replay

namespace CheckpointDispatcher

/-- The trace of a refused update: the last run of its process has taken over the sequence number,
    which is copied before the transition is checked. -/
def SequenceCopied (state : RunnerState) (ckpt : RunnerCkpt) (after : RunnerState) : Prop :=
  ∃ update earlier run, ckpt.update? = some update ∧ update.state ≠ some .waiting ∧
    state.processes.get? update.process = some (earlier ++ [run]) ∧ update.seq = some (run.seq + 1) ∧
    (∀ next, update.state = some next → ¬ MayFollow run.state next) ∧
    after = state.withRuns update.process (earlier ++ [{ run with seq := run.seq + 1 }])

section Refused

variable {recovery truncate : Bool} {state after : RunnerState} {update : ProcessStatus} {e : Error}

theorem dispatchProcess_truncate (continues : update.state ≠ some .waiting) :
    dispatchProcess recovery truncate update = dispatchProcess recovery false update := by
  simp only [dispatchProcess, continues, if_false]

theorem updateProcessState_opened (seq : Int) (opens : update.state = some .waiting) {run : ProcessRun}
    (raised : (updateProcessState update).run (.fresh seq) = .error e run) :
    ∃ field, e = .missingField field update := by
  rcases updateProcessState_cases update (.fresh seq) with
    ⟨_, _, _, _, _, _, moved⟩ | ⟨_, _, _, refused, _⟩ | ⟨field, _, moved⟩
  · rw [moved] at raised
    cases raised
  · exact absurd ((mayFollow_none .waiting).mpr rfl) (refused .waiting opens)
  · rw [moved] at raised
    cases raised
    exact ⟨field, rfl⟩

theorem updateProcessState_refused {run moved : ProcessRun}
    (raised : (updateProcessState update).run run = .error e moved) (recovering : e.IsRecoveringState) :
    ∃ seq, update.seq = some seq ∧ (∀ next, update.state = some next → ¬ MayFollow run.state next) ∧
      moved = { run with seq } := by
  rcases updateProcessState_cases update run with
    ⟨_, _, _, _, _, _, ran⟩ | ⟨seq, _, numbered, refused, ran⟩ | ⟨_, _, ran⟩
  · rw [ran] at raised
    cases raised
  · rw [ran] at raised
    cases raised
    exact ⟨seq, numbered, refused, rfl⟩
  · rw [ran] at raised
    cases raised
    cases recovering

theorem updateProcessState_no_sequence {run moved : ProcessRun}
    (raised : (updateProcessState update).run run = .error e moved) : ¬ e.IsInvalidSequenceNumber := by
  intro invalid
  rcases updateProcessState_cases update run with
    ⟨_, _, _, _, _, _, ran⟩ | ⟨_, _, _, _, ran⟩ | ⟨_, _, ran⟩
  all_goals
    rw [ran] at raised
    cases raised
  all_goals cases invalid

theorem advanceRun_error {current : ProcessRun} (known : state.currentRun update.process = some current)
    (raised : (advanceRun update).run state = .error e after) :
    ∃ moved, (updateProcessState update).run current = .error e moved := by
  simp only [advanceRun, EStateM.run, known] at raised
  cases ran : updateProcessState update current with
  | ok _ moved =>
    rw [ran] at raised
    cases raised
  | error other moved =>
    rw [ran] at raised
    cases raised
    exact ⟨moved, ran⟩

theorem currentRun_openRun (truncate : Bool) (state : RunnerState) (process : Option Name) :
    ∃ seq, (openRun truncate state process).currentRun process = some (.fresh seq) := by
  unfold openRun
  cases state.processes.get? process with
  | none => exact ⟨-1, by simp [RunnerState.currentRun]⟩
  | some runs =>
    refine ⟨(runs.getLast?.map ProcessRun.seq).getD (-1), ?_⟩
    cases truncate <;> simp [RunnerState.currentRun]

theorem dispatchProcess_waiting (opens : update.state = some .waiting)
    (raised : (dispatchProcess recovery truncate update).run state = .error e after) :
    after = state ∨ ∃ field, e = .missingField field update := by
  by_cases broken : state.processes.get? update.process = some []
  · simp [dispatchProcess, broken] at raised
    exact .inl raised.2.symm
  have opening : ∀ state, (advanceRun update).run (openRun truncate state update.process) = .error e after →
      ∃ field, e = .missingField field update := by
    intro state raised
    obtain ⟨seq, fresh⟩ := currentRun_openRun truncate state update.process
    obtain ⟨moved, ran⟩ := advanceRun_error fresh raised
    exact updateProcessState_opened seq opens ran
  cases current : state.currentRun update.process with
  | none =>
    simp [dispatchProcess, broken, current, opens] at raised
    exact .inr (opening state raised)
  | some run =>
    by_cases numbered : update.seq = some (run.seq + 1)
    · by_cases terminal : run.isTerminal = true
      · simp [dispatchProcess, broken, current, numbered, opens, terminal] at raised
        exact .inr (opening state raised)
      · simp [dispatchProcess, broken, current, numbered, opens, terminal] at raised
        exact .inl raised.2.symm
    · cases recovery with
      | true => simp [dispatchProcess, broken, current, numbered] at raised
      | false =>
        simp [dispatchProcess, broken, current, numbered] at raised
        exact .inl raised.2.symm

theorem dispatchProcess_unfit (unfit : ∀ earlier run, ¬ Subject state update earlier run)
    (raised : (dispatchProcess recovery false update).run state = .error e after) : after = state := by
  rcases dispatchProcess_no_subject recovery state update unfit with ⟨_, skipped⟩ | ⟨other, same⟩
  · rw [skipped] at raised
    cases raised
  · rw [same] at raised
    cases raised
    rfl

theorem dispatchProcess_continues {ckpt : RunnerCkpt} (found : ckpt.update? = some update)
    (continues : update.state ≠ some .waiting)
    (raised : (dispatchProcess recovery false update).run state = .error e after) :
    after = state ∨ (¬ e.IsInvalidSequenceNumber ∧ (e.IsRecoveringState → SequenceCopied state ckpt after)) := by
  by_cases fits : ∃ earlier run, Subject state update earlier run
  · obtain ⟨earlier, run, subject⟩ := fits
    right
    rw [dispatchProcess_subject recovery state update subject] at raised
    cases ran : (updateProcessState update).run run with
    | ok _ moved =>
      rw [ran] at raised
      cases raised
    | error other moved =>
      rw [ran] at raised
      cases raised
      refine ⟨updateProcessState_no_sequence ran, ?_⟩
      intro recovering
      obtain ⟨seq, numbered, refused, rfl⟩ := updateProcessState_refused ran recovering
      cases subject with
      | first opens => exact absurd opens continues
      | again opens => exact absurd opens continues
      | current _ known successor =>
        cases numbered.symm.trans successor
        exact ⟨update, earlier, run, found, continues, known, successor, refused, rfl⟩
  · exact .inl (dispatchProcess_unfit (fun earlier run subject => fits ⟨earlier, run, subject⟩) raised)

end Refused

section Complete

variable {recovery : Bool} {state after : RunnerState} {update : ProcessStatus} {e : Error}

/-- An update with every field that its state asks for. -/
def Complete (update : ProcessStatus) : Prop :=
  update.seq.isSome = true ∧ ∀ next, update.state = some next → Carries update next

theorem updateProcessState_complete (complete : Complete update) (run : ProcessRun) :
    (∃ next, update.state = some next ∧ MayFollow run.state next) ∨
      (∀ next, update.state = some next → ¬ MayFollow run.state next) ∧
        ∃ seq moved, update.seq = some seq ∧ moved = { run with seq } ∧
          ∃ e, (updateProcessState update).run run = .error e moved := by
  by_cases follows : ∃ next, update.state = some next ∧ MayFollow run.state next
  · exact .inl follows
  · right
    have refused : ∀ next, update.state = some next → ¬ MayFollow run.state next :=
      fun next entered may => follows ⟨next, entered, may⟩
    obtain ⟨seq, numbered⟩ := Option.isSome_iff_exists.mp complete.1
    obtain ⟨message, raised⟩ := updateProcessState_rejects update run seq numbered refused
    exact ⟨refused, seq, _, numbered, rfl, _, raised⟩

/-- With every field filled in, a refused update leaves at most its sequence number behind. -/
theorem dispatchProcess_complete {ckpt : RunnerCkpt} (found : ckpt.update? = some update)
    (complete : Complete update) (raised : (dispatchProcess recovery false update).run state = .error e after) :
    after = state ∨ SequenceCopied state ckpt after := by
  by_cases fits : ∃ earlier run, Subject state update earlier run
  · obtain ⟨earlier, run, subject⟩ := fits
    rw [dispatchProcess_subject recovery state update subject] at raised
    rcases updateProcessState_complete complete run with
      ⟨next, entered, may⟩ | ⟨refused, seq, moved, numbered, rfl, _, ran⟩
    · obtain ⟨seq, numbered⟩ := Option.isSome_iff_exists.mp complete.1
      rw [updateProcessState_accepts update run seq next numbered entered may (complete.2 next entered)] at raised
      cases raised
    · rw [ran] at raised
      cases raised
      cases subject with
      | first opens => exact absurd ((mayFollow_none .waiting).mpr rfl) (refused .waiting opens)
      | again opens => exact absurd ((mayFollow_none .waiting).mpr rfl) (refused .waiting opens)
      | current continues known successor =>
        cases numbered.symm.trans successor
        exact .inr ⟨update, earlier, run, found, continues, known, successor, refused, rfl⟩
  · exact .inl (dispatchProcess_unfit (fun earlier run subject => fits ⟨earlier, run, subject⟩) raised)

end Complete

/-- The next update of the last run of its process, and the process state machine does not let it follow. -/
def Refused (state : RunnerState) (ckpt : RunnerCkpt) : Prop :=
  ∃ update earlier run, ckpt.update? = some update ∧ update.state ≠ some .waiting ∧
    state.processes.get? update.process = some (earlier ++ [run]) ∧ update.seq = some (run.seq + 1) ∧
    ∀ next, update.state = some next → ¬ MayFollow run.state next

theorem SequenceCopied.refused {state after : RunnerState} {ckpt : RunnerCkpt}
    (copied : SequenceCopied state ckpt after) : Refused state ckpt := by
  obtain ⟨update, earlier, run, found, continues, known, numbered, refused, -⟩ := copied
  exact ⟨update, earlier, run, found, continues, known, numbered, refused⟩

theorem dispatch_of_update (recovery truncate : Bool) {ckpt : RunnerCkpt} {update : ProcessStatus}
    (found : ckpt.update? = some update) : dispatch recovery truncate ckpt = dispatchProcess recovery truncate update := by
  obtain ⟨runnerHeader, processStatus, taskStatus⟩ := ckpt
  unfold RunnerCkpt.update? at found
  split_ifs at found with plain
  obtain ⟨rfl, rfl⟩ := plain
  obtain rfl := found
  rfl

theorem Refused.copied {recovery truncate : Bool} {state after : RunnerState} {ckpt : RunnerCkpt} {e : Error}
    (refused : Refused state ckpt) (raised : (dispatch recovery truncate ckpt).run state = .error e after) :
    SequenceCopied state ckpt after := by
  obtain ⟨update, earlier, run, found, continues, known, numbered, refused⟩ := refused
  obtain ⟨message, ran⟩ := updateProcessState_rejects update run _ numbered refused
  rw [dispatch_of_update recovery truncate found, dispatchProcess_truncate continues,
    dispatchProcess_subject recovery state update (.current continues known numbered), ran] at raised
  cases raised
  exact ⟨update, earlier, run, found, continues, known, numbered, refused, rfl⟩

theorem rejected_cases (recovery truncate : Bool) {state after : RunnerState} {ckpt : RunnerCkpt} {e : Error}
    (raised : (dispatch recovery truncate ckpt).run state = .error e after) :
    after = state ∨ (∃ field update, e = .missingField field update) ∨
      (¬ e.IsInvalidSequenceNumber ∧ (e.IsRecoveringState → SequenceCopied state ckpt after)) := by
  obtain ⟨runnerHeader, processStatus, taskStatus⟩ := ckpt
  cases runnerHeader with
  | some header =>
    left
    cases unset : state.header with
    | none => simp [dispatch, unset] at raised
    | some old =>
      simp [dispatch, unset] at raised
      exact raised.2.symm
  | none =>
    cases taskStatus with
    | some status =>
      left
      by_cases told : state.statuses = some []
      · simp [dispatch, told] at raised
        exact raised.2.symm
      · simp [dispatch, told] at raised
    | none =>
      cases processStatus with
      | none =>
        left
        simp [dispatch] at raised
        exact raised.2.symm
      | some update =>
        replace raised : (dispatchProcess recovery truncate update).run state = .error e after := by
          simpa [dispatch] using raised
        by_cases opens : update.state = some .waiting
        · rcases dispatchProcess_waiting opens raised with same | ⟨field, missing⟩
          · exact .inl same
          · exact .inr (.inl ⟨field, update, missing⟩)
        · rw [dispatchProcess_truncate opens] at raised
          have found : RunnerCkpt.update? ⟨none, some update, none⟩ = some update := rfl
          rcases dispatchProcess_continues found opens raised with same | copied
          · exact .inl same
          · exact .inr (.inr copied)

/-- A rejected record leaves the state as it was, except that an update refused by the process state
    machine leaves its sequence number behind. -/
theorem rejected_ckpt_state (recovery truncate : Bool) {state after : RunnerState} {ckpt : RunnerCkpt} {e : Error}
    (raised : (dispatch recovery truncate ckpt).run state = .error e after) :
    (e.IsInvalidSequenceNumber → after = state) ∧
      (e.IsRecoveringState →
        (Refused state ckpt → SequenceCopied state ckpt after) ∧ (¬ Refused state ckpt → after = state)) := by
  rcases rejected_cases recovery truncate raised with same | ⟨field, update, rfl⟩ | ⟨sequenced, copied⟩
  · exact ⟨fun _ => same, fun _ => ⟨fun refused => refused.copied raised, fun _ => same⟩⟩
  · exact ⟨False.elim, False.elim⟩
  · refine ⟨fun invalid => absurd invalid sequenced, fun recovering => ⟨fun _ => copied recovering, fun other => ?_⟩⟩
    exact absurd (copied recovering).refused other

/-- A process that was only announced, and the record of a start whose fork was not recorded. -/
def announcedStream : List RunnerCkpt :=
  [{ processStatus := some { seq := some 0, process := some "fetch", state := some .waiting } }]

def unforkedRecord : RunnerCkpt :=
  { processStatus := some
      { seq := some 1, process := some "fetch", state := some .running, startTime := some 2, pid := some 8 } }

def announcedRun : ProcessRun := { seq := 0, process := some "fetch", state := some .waiting }

def announcedState : RunnerState := RunnerState.withRuns {} (some "fetch") [announcedRun]

def outpacedState : RunnerState := RunnerState.withRuns {} (some "fetch") [{ announcedRun with seq := 1 }]

theorem announcedStream_accepted : (feed (dispatch false false) announcedStream).run {} = .ok () announcedState := rfl

theorem unforkedRecord_raises :
    (dispatch false false unforkedRecord).run announcedState =
      .error (.errorRecoveringState "Detected invalid state transition WAITING => RUNNING") outpacedState := rfl

theorem rejected_ckpt_state_unforked :
    (Error.IsInvalidSequenceNumber (.errorRecoveringState "Detected invalid state transition WAITING => RUNNING") →
        outpacedState = announcedState) ∧
      (Error.IsRecoveringState (.errorRecoveringState "Detected invalid state transition WAITING => RUNNING") →
        (Refused announcedState unforkedRecord → SequenceCopied announcedState unforkedRecord outpacedState) ∧
          (¬ Refused announcedState unforkedRecord → outpacedState = announcedState)) :=
  rejected_ckpt_state false false unforkedRecord_raises

theorem rejected_ckpt_changes_state :
    ¬ ∀ records state, (feed (dispatch false false) records).run {} = .ok () state →
      ∀ ckpt e after, (dispatch false false ckpt).run state = .error e after →
        (e.IsRecoveringState ∨ e.IsInvalidSequenceNumber) → after = state := by
  intro intact
  have same := intact announcedStream announcedState announcedStream_accepted unforkedRecord _ _
    unforkedRecord_raises (.inl trivial)
  have seqs := congrArg (fun state => (state.currentRun (some "fetch")).map ProcessRun.seq) same
  exact absurd seqs (by decide)

end CheckpointDispatcher

end Aurora.Thermos
