import Aurora.Thermos.Common.ProcessMachine

namespace Aurora.Thermos

open Collections

/-- The runs in front of the one that an update changes, and that run as the update finds it: a
    WAITING update opens a fresh run, any other one continues the last run. -/
inductive Subject (state : RunnerState) (update : ProcessStatus) : List ProcessRun → ProcessRun → Prop
  | first (opens : update.state = some .waiting) (unknown : state.processes.get? update.process = none) :
      Subject state update [] (.fresh (-1))
  | again {earlier : List ProcessRun} {last : ProcessRun} (opens : update.state = some .waiting)
      (known : state.processes.get? update.process = some (earlier ++ [last]))
      (numbered : update.seq = some (last.seq + 1)) (terminal : last.isTerminal = true) :
      Subject state update (earlier ++ [last]) (.fresh last.seq)
  | current {earlier : List ProcessRun} {run : ProcessRun} (continues : update.state ≠ some .waiting)
      (known : state.processes.get? update.process = some (earlier ++ [run]))
      (numbered : update.seq = some (run.seq + 1)) : Subject state update earlier run

def RunnerState.withRuns (state : RunnerState) (process : Option Name) (runs : List ProcessRun) : RunnerState :=
  { state with processes := state.processes.set process runs }

/-- What `dispatch` accepts, and the callback and the state it leaves. -/
inductive Accepted (state : RunnerState) (ckpt : RunnerCkpt) :
    CheckpointDispatcher.Dispatched → RunnerState → Prop
  | header {header : RunnerHeader} (given : ckpt.runnerHeader = some header) (unset : state.header = none) :
      Accepted state ckpt (.initialization header) { state with header := some header }
  | task {status : TaskStatus} (plain : ckpt.runnerHeader = none) (given : ckpt.taskStatus = some status)
      (told : state.statuses ≠ some []) :
      Accepted state ckpt (.taskTransition status)
        { state with statuses := some (state.statuses.getD [] ++ [status]) }
  | process {update : ProcessStatus} {seq : Int} {next : ProcessState}
      {earlier : List ProcessRun} {run : ProcessRun}
      (plain : ckpt.runnerHeader = none ∧ ckpt.taskStatus = none) (given : ckpt.processStatus = some update)
      (numbered : update.seq = some seq) (entered : update.state = some next)
      (subject : Subject state update earlier run) (follows : MayFollow run.state next)
      (carries : Carries update next) :
      Accepted state ckpt (.processTransition update)
        (state.withRuns update.process (earlier ++ [run.advance update seq next]))

namespace RunnerState

@[simp] theorem currentRun_withRuns (state : RunnerState) (process : Option Name) (runs : List ProcessRun)
    (run : ProcessRun) : (state.withRuns process (runs ++ [run])).currentRun process = some run := by
  simp [currentRun, withRuns]

theorem currentRun_withRuns_ne (state : RunnerState) {process other : Option Name} (runs : List ProcessRun)
    (different : other ≠ process) : (state.withRuns process runs).currentRun other = state.currentRun other := by
  simp [currentRun, withRuns, Dict.get?_set_ne _ _ different]

theorem currentRun_of_get? {state : RunnerState} {process : Option Name} {earlier : List ProcessRun}
    {run : ProcessRun} (known : state.processes.get? process = some (earlier ++ [run])) :
    state.currentRun process = some run := by
  simp [currentRun, known]

theorem currentRun_eq_none {state : RunnerState} {process : Option Name}
    (unknown : state.processes.get? process = none) : state.currentRun process = none := by
  simp [currentRun, unknown]

theorem get?_of_currentRun {state : RunnerState} {process : Option Name} {run : ProcessRun}
    (current : state.currentRun process = some run) :
    ∃ earlier, state.processes.get? process = some (earlier ++ [run]) := by
  simp only [currentRun, Option.bind_eq_some_iff] at current
  obtain ⟨runs, known, last⟩ := current
  exact ⟨runs.dropLast, by rw [known, List.dropLast_append_getLast? run last]⟩

theorem withRuns_withRuns (state : RunnerState) (process : Option Name) (first second : List ProcessRun) :
    (state.withRuns process first).withRuns process second = state.withRuns process second := by
  simp [withRuns]

end RunnerState

namespace CheckpointDispatcher

theorem advanceRun_run (state : RunnerState) (update : ProcessStatus) (earlier : List ProcessRun)
    (before : ProcessRun) (known : state.processes.get? update.process = some (earlier ++ [before])) :
    (advanceRun update).run state =
      match (updateProcessState update).run before with
      | .ok _ run => .ok (.processTransition update) (state.withRuns update.process (earlier ++ [run]))
      | .error e run => .error e (state.withRuns update.process (earlier ++ [run])) := by
  have current := RunnerState.currentRun_of_get? known
  have replaced : ∀ run, replaceLast state update.process run =
      state.withRuns update.process (earlier ++ [run]) := by
    intro run
    simp [replaceLast, RunnerState.withRuns, known]
  simp only [advanceRun, EStateM.run, current]
  cases updateProcessState update before <;> simp only [replaced]

theorem advanceRun_unknown (state : RunnerState) (update : ProcessStatus)
    (unknown : state.currentRun update.process = none) :
    (advanceRun update).run state = .error (.errorRecoveringState ("Encountered potentially out of order " ++
      "process update.  Are you sure this is a full checkpoint stream?")) state := by
  simp only [advanceRun, EStateM.run, unknown]

theorem openRun_unknown (state : RunnerState) (process : Option Name)
    (unknown : state.processes.get? process = none) :
    openRun false state process = state.withRuns process [.fresh (-1)] := by
  simp [openRun, RunnerState.withRuns, unknown]

theorem openRun_known (state : RunnerState) (process : Option Name) (earlier : List ProcessRun) (last : ProcessRun)
    (known : state.processes.get? process = some (earlier ++ [last])) :
    openRun false state process = state.withRuns process (earlier ++ [last] ++ [.fresh last.seq]) := by
  simp [openRun, RunnerState.withRuns, known]

section Process

variable (recovery : Bool) (state : RunnerState) (update : ProcessStatus)

theorem dispatchProcess_subject {earlier : List ProcessRun} {run : ProcessRun}
    (subject : Subject state update earlier run) :
    (dispatchProcess recovery false update).run state =
      match (updateProcessState update).run run with
      | .ok _ after => .ok (.processTransition update) (state.withRuns update.process (earlier ++ [after]))
      | .error e after => .error e (state.withRuns update.process (earlier ++ [after])) := by
  cases subject with
  | first opens unknown =>
    have current := RunnerState.currentRun_eq_none unknown
    have opened : (state.withRuns update.process [.fresh (-1)]).processes.get? update.process =
        some ([] ++ [.fresh (-1)]) := by simp [RunnerState.withRuns]
    have advanced := advanceRun_run _ update [] _ opened
    simp only [RunnerState.withRuns_withRuns] at advanced
    simp [dispatchProcess, unknown, current, opens, openRun_unknown, advanced]
  | again opens known numbered terminal =>
    rename_i earlier last
    have current := RunnerState.currentRun_of_get? known
    have opened : (state.withRuns update.process (earlier ++ [last] ++ [.fresh last.seq])).processes.get?
        update.process = some (earlier ++ [last] ++ [.fresh last.seq]) := by simp [RunnerState.withRuns]
    have advanced := advanceRun_run _ update _ _ opened
    simp only [RunnerState.withRuns_withRuns] at advanced
    simp only [dispatchProcess]
    simp [known, current, numbered, opens, terminal, openRun_known _ _ _ _ known]
    simpa using advanced
  | current continues known numbered =>
    have current := RunnerState.currentRun_of_get? known
    have advanced := advanceRun_run _ update _ _ known
    simp [dispatchProcess, known, current, numbered, continues, advanced]

/-- An update without a subject is skipped or refused with the state untouched. -/
theorem dispatchProcess_no_subject (none_fits : ∀ earlier run, ¬ Subject state update earlier run) :
    (recovery = true ∧ (dispatchProcess recovery false update).run state = .ok .skipped state) ∨
      ∃ e, (dispatchProcess recovery false update).run state = .error e state := by
  cases known : state.processes.get? update.process with
  | none =>
    have current := RunnerState.currentRun_eq_none known
    by_cases opens : update.state = some .waiting
    · exact absurd (Subject.first opens known) (none_fits _ _)
    · right
      simp [dispatchProcess, advanceRun_unknown, known, current, opens]
  | some runs =>
    rcases List.eq_nil_or_concat' runs with rfl | ⟨earlier, last, rfl⟩
    · right
      simp [dispatchProcess, known]
    · have current := RunnerState.currentRun_of_get? known
      by_cases numbered : update.seq = some (last.seq + 1)
      · by_cases opens : update.state = some .waiting
        · by_cases terminal : last.isTerminal = true
          · exact absurd (Subject.again opens known numbered terminal) (none_fits _ _)
          · right
            simp [dispatchProcess, known, current, numbered, opens, terminal]
        · exact absurd (Subject.current opens known numbered) (none_fits _ _)
      · cases recovery with
        | false =>
          right
          simp [dispatchProcess, known, current, numbered]
        | true =>
          left
          simp [dispatchProcess, known, current, numbered]

end Process

theorem accepted_of_dispatch {recovery : Bool} {state after : RunnerState} {ckpt : RunnerCkpt} {event : Dispatched}
    (ran : (dispatch recovery false ckpt).run state = .ok event after) :
    Accepted state ckpt event after ∨ (recovery = true ∧ event = .skipped ∧ after = state) := by
  obtain ⟨runnerHeader, processStatus, taskStatus⟩ := ckpt
  cases runnerHeader with
  | some header =>
    left
    cases unset : state.header with
    | some old => simp [dispatch, unset] at ran
    | none =>
      simp [dispatch, unset] at ran
      obtain ⟨rfl, rfl⟩ := ran
      exact .header rfl unset
  | none =>
    cases taskStatus with
    | some status =>
      left
      by_cases told : state.statuses = some []
      · simp [dispatch, told] at ran
      · simp [dispatch, told] at ran
        obtain ⟨rfl, rfl⟩ := ran
        exact .task rfl rfl told
    | none =>
      cases processStatus with
      | none => simp [dispatch] at ran
      | some update =>
        replace ran : (dispatchProcess recovery false update).run state = .ok event after := by
          simpa [dispatch] using ran
        by_cases fits : ∃ earlier run, Subject state update earlier run
        · left
          obtain ⟨earlier, run, subject⟩ := fits
          rw [dispatchProcess_subject recovery state update subject] at ran
          rcases updateProcessState_cases update run with
            ⟨seq, next, numbered, entered, follows, carries, moved⟩ | ⟨_, _, _, _, moved⟩ | ⟨_, _, moved⟩
          · simp only [moved, EStateM.Result.ok.injEq] at ran
            obtain ⟨rfl, rfl⟩ := ran
            exact .process ⟨rfl, rfl⟩ rfl numbered entered subject follows carries
          · simp [moved] at ran
          · simp [moved] at ran
        · have none_fits : ∀ earlier run, ¬ Subject state update earlier run :=
            fun earlier run subject => fits ⟨earlier, run, subject⟩
          rcases dispatchProcess_no_subject recovery state update none_fits with ⟨mode, same⟩ | ⟨e, raised⟩
          · rw [same] at ran
            cases ran
            exact .inr ⟨mode, rfl, rfl⟩
          · simp [raised] at ran

theorem dispatch_of_accepted {state after : RunnerState} {ckpt : RunnerCkpt} {event : Dispatched}
    (accepted : Accepted state ckpt event after) (recovery : Bool) :
    (dispatch recovery false ckpt).run state = .ok event after := by
  cases accepted with
  | header given unset => simp [dispatch, given, unset]
  | task plain given told => simp [dispatch, plain, given, told]
  | process plain given numbered entered subject follows carries =>
    rename_i update seq next earlier run
    have applied := dispatchProcess_subject recovery state update subject
    rw [updateProcessState_accepts update run seq next numbered entered follows carries] at applied
    simpa [dispatch, plain, given] using applied

theorem dispatch_accepts_iff {state after : RunnerState} {ckpt : RunnerCkpt} {event : Dispatched} :
    (dispatch false false ckpt).run state = .ok event after ↔ Accepted state ckpt event after := by
  constructor
  · intro ran
    rcases accepted_of_dispatch ran with accepted | ⟨off, _⟩
    · exact accepted
    · cases off
  · intro accepted
    exact dispatch_of_accepted accepted false

end CheckpointDispatcher

end Aurora.Thermos
