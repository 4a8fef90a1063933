import Aurora.Thermos.Common.CkptErrors
import Aurora.Thermos.Monitoring.Monitor

namespace Aurora.Thermos

open Framing Replay

/-- What no dispatch takes back, whether it succeeds or raises: a header, the presence of task statuses and how far
    the sequence numbers of a process have come. -/
structure RunnerState.Advances (state after : RunnerState) : Prop where
  header : state.header ≠ none → after.header ≠ none
  statuses : state.statuses ≠ some [] → after.statuses ≠ some []
  runs : ∀ process run, state.currentRun process = some run →
    ∃ later, after.currentRun process = some later ∧ run.seq ≤ later.seq

/-- A process update that `dispatch` rejects because of its sequence number. -/
def RunnerState.OutOfSequence (state : RunnerState) (ckpt : RunnerCkpt) : Prop :=
  ∃ update run, ckpt.update? = some update ∧ state.currentRun update.process = some run ∧
    update.seq ≠ some (run.seq + 1)

/-- A process update whose sequence number the process has reached. -/
def RunnerState.Passed (state : RunnerState) (ckpt : RunnerCkpt) : Prop :=
  ∃ update seq run, ckpt.update? = some update ∧ update.seq = some seq ∧
    state.currentRun update.process = some run ∧ seq ≤ run.seq

namespace RunnerState

theorem Advances.refl (state : RunnerState) : state.Advances state :=
  ⟨id, id, fun _ run current => ⟨run, current, le_refl _⟩⟩

theorem Advances.trans {first second third : RunnerState} (earlier : first.Advances second)
    (later : second.Advances third) : first.Advances third := by
  refine ⟨later.header ∘ earlier.header, later.statuses ∘ earlier.statuses, ?_⟩
  intro process run current
  obtain ⟨middle, reached, below⟩ := earlier.runs process run current
  obtain ⟨last, ended, above⟩ := later.runs process middle reached
  exact ⟨last, ended, below.trans above⟩

theorem Advances.withRuns {state : RunnerState} {process : Option Name} {earlier : List ProcessRun} {run : ProcessRun}
    (further : ∀ current, state.currentRun process = some current → current.seq ≤ run.seq) :
    state.Advances (state.withRuns process (earlier ++ [run])) := by
  refine ⟨id, id, ?_⟩
  intro other current known
  by_cases same : other = process
  · subst same
    exact ⟨run, currentRun_withRuns _ _ _ _, further current known⟩
  · exact ⟨current, by rw [currentRun_withRuns_ne state _ same, known], le_refl _⟩

theorem Passed.advances {state after : RunnerState} {ckpt : RunnerCkpt} (passed : state.Passed ckpt)
    (advances : state.Advances after) : after.Passed ckpt := by
  obtain ⟨update, seq, run, found, numbered, current, reached⟩ := passed
  obtain ⟨later, known, further⟩ := advances.runs _ _ current
  exact ⟨update, seq, later, found, numbered, known, reached.trans further⟩

theorem Passed.outOfSequence {state : RunnerState} {ckpt : RunnerCkpt} (passed : state.Passed ckpt) :
    state.OutOfSequence ckpt := by
  obtain ⟨update, seq, run, found, numbered, current, reached⟩ := passed
  refine ⟨update, run, found, current, ?_⟩
  rw [numbered, ne_eq, Option.some.injEq]
  omega

end RunnerState

namespace CheckpointDispatcher

variable {state : RunnerState} {ckpt : RunnerCkpt}

theorem update?_eq_some {update : ProcessStatus} :
    ckpt.update? = some update ↔
      ckpt.runnerHeader = none ∧ ckpt.taskStatus = none ∧ ckpt.processStatus = some update := by
  obtain ⟨runnerHeader, processStatus, taskStatus⟩ := ckpt
  cases runnerHeader <;> cases taskStatus <;> simp [RunnerCkpt.update?]

theorem dispatchProcess_advances (state : RunnerState) (update : ProcessStatus) :
    state.Advances (final ((dispatchProcess false false update).run state)) := by
  by_cases fits : ∃ earlier run, Subject state update earlier run
  · obtain ⟨earlier, run, subject⟩ := fits
    have left : final ((dispatchProcess false false update).run state) =
        state.withRuns update.process (earlier ++ [final ((updateProcessState update).run run)]) := by
      rw [dispatchProcess_subject false state update subject]
      cases (updateProcessState update).run run <;> rfl
    rw [left]
    refine .withRuns ?_
    intro current known
    cases subject with
    | first opens unknown =>
      rw [RunnerState.currentRun_eq_none unknown] at known
      cases known
    | again opens listed numbered terminal =>
      cases (RunnerState.currentRun_of_get? listed).symm.trans known
      rw [updateProcessState_seq update _ _ numbered]
      omega
    | current continues listed numbered =>
      cases (RunnerState.currentRun_of_get? listed).symm.trans known
      rw [updateProcessState_seq update _ _ numbered]
      omega
  · have none_fits : ∀ earlier run, ¬ Subject state update earlier run :=
      fun earlier run subject => fits ⟨earlier, run, subject⟩
    rcases dispatchProcess_no_subject false state update none_fits with ⟨off, _⟩ | ⟨e, raised⟩
    · cases off
    · rw [raised]
      exact .refl state

theorem dispatch_advances (state : RunnerState) (ckpt : RunnerCkpt) :
    state.Advances (final ((dispatch false false ckpt).run state)) := by
  obtain ⟨runnerHeader, processStatus, taskStatus⟩ := ckpt
  cases runnerHeader with
  | some header =>
    cases bound : state.header with
    | some old => simpa [dispatch, bound, final] using RunnerState.Advances.refl state
    | none => simpa [dispatch, bound, final] using ⟨by simp, id, fun _ run current => ⟨run, current, le_refl _⟩⟩
  | none =>
    cases taskStatus with
    | some status =>
      by_cases told : state.statuses = some []
      · simpa [dispatch, told, final] using RunnerState.Advances.refl state
      · simpa [dispatch, told, final] using ⟨id, by simp, fun _ run current => ⟨run, current, le_refl _⟩⟩
    | none =>
      cases processStatus with
      | none => simpa [dispatch, final] using RunnerState.Advances.refl state
      | some update => simpa [dispatch] using dispatchProcess_advances state update

theorem dispatch_outOfSequence (out : state.OutOfSequence ckpt) :
    ∃ message current update,
      (dispatch false false ckpt).run state = .error (.invalidSequenceNumber message current update) state := by
  obtain ⟨update, run, found, current, unequal⟩ := out
  obtain ⟨unbound, untold, given⟩ := update?_eq_some.mp found
  obtain ⟨earlier, known⟩ := RunnerState.get?_of_currentRun current
  refine ⟨"Out of order sequence number! %s => %s", run, update, ?_⟩
  simp [dispatch, dispatchProcess, unbound, untold, given, current, known, unequal]

theorem dispatchProcess_in_sequence {after : RunnerState} {update : ProcessStatus} {e : Error}
    (inside : ∀ run, state.currentRun update.process = some run → update.seq = some (run.seq + 1))
    (raised : (dispatchProcess false false update).run state = .error e after) : ¬ e.IsInvalidSequenceNumber := by
  by_cases fits : ∃ earlier run, Subject state update earlier run
  · obtain ⟨earlier, run, subject⟩ := fits
    rw [dispatchProcess_subject false state update subject] at raised
    cases moved : (updateProcessState update).run run with
    | ok _ run =>
      rw [moved] at raised
      cases raised
    | error other run =>
      rw [moved] at raised
      cases raised
      exact updateProcessState_no_sequence moved
  · intro invalid
    cases known : state.processes.get? update.process with
    | none =>
      have opens : update.state ≠ some .waiting := fun opens => fits ⟨_, _, .first opens known⟩
      have current := RunnerState.currentRun_eq_none known
      simp [dispatchProcess, advanceRun_unknown, known, current, opens] at raised
      rw [← raised.1] at invalid
      cases invalid
    | some runs =>
      rcases List.eq_nil_or_concat' runs with rfl | ⟨earlier, last, rfl⟩
      · simp [dispatchProcess, known] at raised
        rw [← raised.1] at invalid
        cases invalid
      · have current := RunnerState.currentRun_of_get? known
        have numbered := inside last current
        by_cases opens : update.state = some .waiting
        · have open_run : last.isTerminal = false :=
            eq_false_of_ne_true fun terminal => fits ⟨_, _, .again opens known numbered terminal⟩
          simp [dispatchProcess, known, current, numbered, opens, open_run] at raised
          rw [← raised.1] at invalid
          cases invalid
        · exact fits ⟨_, _, .current opens known numbered⟩

/-- Every rejection for another reason is raised past the reading loop. -/
theorem dispatch_in_sequence {after : RunnerState} {e : Error} (inside : ¬ state.OutOfSequence ckpt)
    (raised : (dispatch false false ckpt).run state = .error e after) : ¬ e.IsInvalidSequenceNumber := by
  obtain ⟨runnerHeader, processStatus, taskStatus⟩ := ckpt
  intro invalid
  cases runnerHeader with
  | some header =>
    cases bound : state.header with
    | some old =>
      simp [dispatch, bound] at raised
      rw [← raised.1] at invalid
      cases invalid
    | none => simp [dispatch, bound] at raised
  | none =>
    cases taskStatus with
    | some status =>
      by_cases told : state.statuses = some []
      · simp [dispatch, told] at raised
        rw [← raised.1] at invalid
        cases invalid
      · simp [dispatch, told] at raised
    | none =>
      cases processStatus with
      | none =>
        simp [dispatch] at raised
        rw [← raised.1] at invalid
        cases invalid
      | some update =>
        replace raised : (dispatchProcess false false update).run state = .error e after := by
          simpa [dispatch] using raised
        refine dispatchProcess_in_sequence ?_ raised invalid
        intro run current
        by_contra unequal
        exact inside ⟨update, run, rfl, current, unequal⟩

end CheckpointDispatcher

namespace TaskMonitor

section Definitions

variable (decode : Bytes → Decoded RunnerCkpt Error)

/-- The starts of the records that the reading loop hands to `dispatch` with success, in the order in which it does. -/
def dispatched (rounds : Nat) (growing : List Bytes) (settled : Bytes) (position : Nat) (state : RunnerState) :
    List Nat :=
  match rounds with
  | 0 => []
  | rounds + 1 =>
    match (readUpdate decode (growing.headD settled) position).run state with
    | .ok (true, reached) next => position :: dispatched rounds growing.tail settled reached next
    | _ => []

/-- A monitor together with the starts of the records that it dispatched with success over all its polls. -/
structure Monitored where
  monitor : TaskMonitor := {}
  taken : List Nat := []

/-- One poll, after which the monitor stays in use also where the poll raised. -/
def Monitored.poll (monitored : Monitored) (poll : Poll) : Monitored where
  monitor := final ((applyStates decode poll).run monitored.monitor)
  taken := monitored.taken ++
    match poll.stat with
    | none => []
    | some content =>
      if monitored.monitor.ckptHead < content.length then
        dispatched decode (poll.settled.length + 1) poll.growing poll.settled monitored.monitor.ckptHead
          monitored.monitor.runnerstate
      else []

def polled (polls : List Poll) : Monitored := polls.foldl (Monitored.poll decode) {}

/-- The next attempt at a record raises: the frame cannot be read, or the record is rejected for another reason than
    its sequence number. -/
inductive Halts (content : Bytes) (position : Nat) (state : RunnerState) : Prop
  | unreadable {e : Error} (read : (runnerCkptFormat decode).tryRead (content.drop position) = .raised e)
  | refused {update : RunnerCkpt} {size : Nat}
      (read : (runnerCkptFormat decode).tryRead (content.drop position) = .record update size)
      (rejected : ∀ event next, ¬ Accepted state update event next) (inside : ¬ state.OutOfSequence update)

structure Takes (content : Bytes) (position : Nat) (state : RunnerState) (update : RunnerCkpt) (size : Nat)
    (next : RunnerState) : Prop where
  read : (runnerCkptFormat decode).tryRead (content.drop position) = .record update size
  accepted : ∃ event, Accepted state update event next

/-- Reading on raises, at once or behind records that are accepted. -/
inductive Raises (settled : Bytes) : List Bytes → Nat → RunnerState → Prop
  | now {growing : List Bytes} {position : Nat} {state : RunnerState}
      (halts : Halts decode (growing.headD settled) position state) : Raises settled growing position state
  | behind {growing : List Bytes} {position size : Nat} {state next : RunnerState} {update : RunnerCkpt}
      (takes : Takes decode (growing.headD settled) position state update size next)
      (further : Raises settled growing.tail (position + size) next) : Raises settled growing position state

/-- Reading on raises behind a task status that is accepted, with nothing but process updates in front of it. -/
inductive RaisesBehindStatus (settled : Bytes) : List Bytes → Nat → RunnerState → Prop
  | status {growing : List Bytes} {position size : Nat} {state next : RunnerState} {update : RunnerCkpt}
      (takes : Takes decode (growing.headD settled) position state update size next)
      (plain : update.runnerHeader = none) (given : update.taskStatus ≠ none)
      (further : Raises decode settled growing.tail (position + size) next) :
      RaisesBehindStatus settled growing position state
  | process {growing : List Bytes} {position size : Nat} {state next : RunnerState} {update : RunnerCkpt}
      (takes : Takes decode (growing.headD settled) position state update size next)
      (plain : update.runnerHeader = none ∧ update.taskStatus = none)
      (further : RaisesBehindStatus settled growing.tail (position + size) next) :
      RaisesBehindStatus settled growing position state

/-- A poll raises with its reading position in front of a task status that it has taken. -/
def Rereads (monitor : TaskMonitor) (poll : Poll) : Prop :=
  ∃ content, poll.stat = some content ∧ monitor.ckptHead < content.length ∧
    RaisesBehindStatus decode poll.settled poll.growing monitor.ckptHead monitor.runnerstate

end Definitions

section Rounds

variable {decode : Bytes → Decoded RunnerCkpt Error} {content : Bytes} {position : Nat} {state : RunnerState}

theorem readUpdate_nothing (read : (runnerCkptFormat decode).tryRead (content.drop position) = .nothing) :
    (readUpdate decode content position).run state = .ok (false, position) state := by
  simp only [readUpdate, EStateM.run, read]

theorem readUpdate_takes {update : RunnerCkpt} {size : Nat} {next : RunnerState}
    (takes : Takes decode content position state update size next) :
    (readUpdate decode content position).run state = .ok (true, position + size) next := by
  obtain ⟨read, event, accepted⟩ := takes
  have ran := CheckpointDispatcher.dispatch_of_accepted accepted false
  rw [EStateM.run] at ran
  simp only [readUpdate, EStateM.run, read, ran]

theorem readUpdate_outOfSequence {update : RunnerCkpt} {size : Nat}
    (read : (runnerCkptFormat decode).tryRead (content.drop position) = .record update size)
    (out : state.OutOfSequence update) :
    (readUpdate decode content position).run state = .ok (false, position + size) state := by
  obtain ⟨message, current, status, raised⟩ := CheckpointDispatcher.dispatch_outOfSequence out
  rw [EStateM.run] at raised
  simp only [readUpdate, EStateM.run, read, raised]

theorem readUpdate_halts (halts : Halts decode content position state) :
    ∃ e after, (readUpdate decode content position).run state = .error e after ∧ state.Advances after := by
  cases halts with
  | unreadable read =>
    rename_i e
    exact ⟨e, state, by simp only [readUpdate, EStateM.run, read], .refl state⟩
  | refused read rejected inside =>
    rename_i update size
    have advances := CheckpointDispatcher.dispatch_advances state update
    cases ran : (CheckpointDispatcher.dispatch false false update).run state with
    | ok event next =>
      exact absurd (CheckpointDispatcher.dispatch_accepts_iff.mp ran) (rejected event next)
    | error e after =>
      have sequenced := CheckpointDispatcher.dispatch_in_sequence inside ran
      rw [ran] at advances
      refine ⟨e, after, ?_, advances⟩
      rw [EStateM.run] at ran
      simp only [readUpdate, EStateM.run, read, ran]
      split
      · rename_i same
        cases same
      · rename_i same
        cases same
        exact absurd trivial sequenced
      · rename_i same
        cases same
        rfl

/-- One round of the reading loop finds no record, takes one, leaves one behind, or raises. -/
theorem readUpdate_cases (decode : Bytes → Decoded RunnerCkpt Error) (content : Bytes) (position : Nat)
    (state : RunnerState) :
    (runnerCkptFormat decode).tryRead (content.drop position) = .nothing ∨
      (∃ update size next, Takes decode content position state update size next) ∨
      (∃ update size, (runnerCkptFormat decode).tryRead (content.drop position) = .record update size ∧
        state.OutOfSequence update) ∨
      Halts decode content position state := by
  cases read : (runnerCkptFormat decode).tryRead (content.drop position) with
  | nothing => exact .inl rfl
  | raised e => exact .inr (.inr (.inr (.unreadable read)))
  | record update size =>
    by_cases taken : ∃ event next, Accepted state update event next
    · obtain ⟨event, next, accepted⟩ := taken
      exact .inr (.inl ⟨update, size, next, read, event, accepted⟩)
    · by_cases out : state.OutOfSequence update
      · exact .inr (.inr (.inl ⟨update, size, rfl, out⟩))
      · exact .inr (.inr (.inr (.refused read (fun event next accepted => taken ⟨event, next, accepted⟩) out)))

theorem Takes.advances {update : RunnerCkpt} {size : Nat} {next : RunnerState}
    (takes : Takes decode content position state update size next) : state.Advances next := by
  obtain ⟨_, event, accepted⟩ := takes
  have advances := CheckpointDispatcher.dispatch_advances state update
  rwa [CheckpointDispatcher.dispatch_of_accepted accepted false] at advances

theorem Takes.bounds {update : RunnerCkpt} {size : Nat} {next : RunnerState}
    (takes : Takes decode content position state update size next) :
    0 < size ∧ position + size ≤ content.length :=
  tryRead_bounds takes.read

theorem halts_bound {update : RunnerCkpt} {size : Nat}
    (read : (runnerCkptFormat decode).tryRead (content.drop position) = .record update size)
    (header : update.runnerHeader ≠ none) (set : state.header ≠ none) : Halts decode content position state := by
  refine .refused read ?_ ?_
  · intro event next accepted
    cases accepted with
    | header given unset => exact set unset
    | task plain => exact header plain
    | process plain => exact header plain.1
  · intro out
    obtain ⟨update, run, found, _⟩ := out
    exact header (CheckpointDispatcher.update?_eq_some.mp found).1

theorem Takes.passed {update : RunnerCkpt} {size : Nat} {next : RunnerState}
    (takes : Takes decode content position state update size next)
    (plain : update.runnerHeader = none ∧ update.taskStatus = none) : next.Passed update := by
  obtain ⟨_, event, accepted⟩ := takes
  cases accepted with
  | header given _ => simp [plain.1] at given
  | task _ given _ => simp [plain.2] at given
  | process plain given numbered entered subject follows carries =>
    refine ⟨_, _, _, CheckpointDispatcher.update?_eq_some.mpr ⟨plain.1, plain.2, given⟩, numbered,
      RunnerState.currentRun_withRuns _ _ _ _, ?_⟩
    rw [ProcessRun.advance_seq]

end Rounds

section Loop

variable {decode : Bytes → Decoded RunnerCkpt Error} {settled content : Bytes} {growing : List Bytes}
  {position rounds : Nat} {state : RunnerState} {taken : List Nat}
  {result : EStateM.Result Error RunnerState Nat}

/-- What the reading loop comes to, and the starts of the records that it takes. -/
inductive Reading (decode : Bytes → Decoded RunnerCkpt Error) (settled : Bytes) :
    List Bytes → Nat → RunnerState → List Nat → EStateM.Result Error RunnerState Nat → Prop
  | nothing {growing : List Bytes} {position : Nat} {state : RunnerState} :
      Reading decode settled growing position state [] (.ok position state)
  | skips {growing : List Bytes} {position size : Nat} {state : RunnerState} (bounds : 0 < size) :
      Reading decode settled growing position state [] (.ok (position + size) state)
  | raises {growing : List Bytes} {position : Nat} {state after : RunnerState} {e : Error}
      (halts : Halts decode (growing.headD settled) position state) :
      Reading decode settled growing position state [] (.error e after)
  | takes {growing : List Bytes} {position size : Nat} {state next : RunnerState} {update : RunnerCkpt}
      {rest : List Nat} {result : EStateM.Result Error RunnerState Nat}
      (takes : Takes decode (growing.headD settled) position state update size next)
      (further : Reading decode settled growing.tail (position + size) next rest result)
      (advances : next.Advances (final result)) :
      Reading decode settled growing position state (position :: rest) result

theorem readUpdates_takes (rounds : Nat) {update : RunnerCkpt} {size : Nat} {next : RunnerState}
    (takes : Takes decode (growing.headD settled) position state update size next) :
    (readUpdates decode (rounds + 1) growing settled position).run state =
        (readUpdates decode rounds growing.tail settled (position + size)).run next ∧
      dispatched decode (rounds + 1) growing settled position state =
        position :: dispatched decode rounds growing.tail settled (position + size) next := by
  have round := readUpdate_takes takes
  constructor
  · simp only [readUpdates, EStateM.run_bind, round, if_true]
  · simp only [dispatched, round]

theorem readUpdates_stops (rounds : Nat) {reached : Nat}
    (round : (readUpdate decode (growing.headD settled) position).run state = .ok (false, reached) state) :
    (readUpdates decode (rounds + 1) growing settled position).run state = .ok reached state ∧
      dispatched decode (rounds + 1) growing settled position state = [] := by
  constructor
  · simp only [readUpdates, EStateM.run_bind, round, Bool.false_eq_true, if_false, EStateM.run_pure]
  · simp only [dispatched, round]

theorem readUpdates_halts (rounds : Nat) (halts : Halts decode (growing.headD settled) position state) :
    ∃ e after, (readUpdates decode (rounds + 1) growing settled position).run state = .error e after ∧
      state.Advances after ∧ dispatched decode (rounds + 1) growing settled position state = [] := by
  obtain ⟨e, after, round, advances⟩ := readUpdate_halts halts
  refine ⟨e, after, ?_, advances, ?_⟩
  · simp only [readUpdates, EStateM.run_bind, round]
  · simp only [dispatched, round]

theorem readUpdates_advances (rounds : Nat) (growing : List Bytes) (position : Nat) (state : RunnerState) :
    state.Advances (final ((readUpdates decode rounds growing settled position).run state)) := by
  induction rounds generalizing growing position state with
  | zero => exact .refl state
  | succ rounds ih =>
    rcases readUpdate_cases decode (growing.headD settled) position state with
      read | ⟨update, size, next, takes⟩ | ⟨update, size, read, out⟩ | halts
    · rw [(readUpdates_stops rounds (readUpdate_nothing read)).1]
      exact .refl state
    · rw [(readUpdates_takes _ takes).1]
      exact takes.advances.trans (ih _ _ _)
    · rw [(readUpdates_stops rounds (readUpdate_outOfSequence read out)).1]
      exact .refl state
    · obtain ⟨e, after, ran, advances, _⟩ := readUpdates_halts rounds halts
      rw [ran]
      exact advances

theorem readUpdates_reading (grows : Grows content growing settled) (inside : position ≤ content.length)
    (enough : settled.length < rounds + position) :
    Reading decode settled growing position state (dispatched decode rounds growing settled position state)
      ((readUpdates decode rounds growing settled position).run state) := by
  induction rounds generalizing content growing position state with
  | zero =>
    have shorter := grows.grown.length_le
    omega
  | succ rounds ih =>
    obtain ⟨grown, onwards⟩ := grows.head_last
    rcases readUpdate_cases decode (growing.headD settled) position state with
      read | ⟨update, size, next, takes⟩ | ⟨update, size, read, out⟩ | halts
    · obtain ⟨ran, none_taken⟩ := readUpdates_stops rounds (readUpdate_nothing read)
      rw [ran, none_taken]
      exact .nothing
    · obtain ⟨ran, cons⟩ := readUpdates_takes rounds takes
      obtain ⟨positive, within⟩ := takes.bounds
      rw [ran, cons]
      exact .takes takes (ih onwards within (by omega)) (readUpdates_advances _ _ _ _)
    · obtain ⟨ran, none_taken⟩ := readUpdates_stops rounds (readUpdate_outOfSequence read out)
      rw [ran, none_taken]
      exact .skips (tryRead_bounds read).1
    · obtain ⟨e, after, ran, _, none_taken⟩ := readUpdates_halts rounds halts
      rw [ran, none_taken]
      exact .raises halts

namespace Reading

theorem ordered (reading : Reading decode settled growing position state taken result) :
    taken.Pairwise (· < ·) ∧ ∀ start ∈ taken, position ≤ start := by
  induction reading with
  | nothing | skips | raises => simp
  | takes takes further advances ih =>
    obtain ⟨positive, _⟩ := takes.bounds
    obtain ⟨increasing, onwards⟩ := ih
    constructor
    · refine List.pairwise_cons.mpr ⟨?_, increasing⟩
      intro start member
      have beyond := onwards start member
      omega
    · intro start member
      rcases List.mem_cons.mp member with rfl | member
      · exact le_refl _
      · have beyond := onwards start member
        omega

theorem ordered_behind {earlier : List Nat} (reading : Reading decode settled growing position state taken result)
    (increasing : earlier.Pairwise (· < ·)) (behind : ∀ start ∈ earlier, start < position) :
    (earlier ++ taken).Pairwise (· < ·) := by
  refine List.pairwise_append.mpr ⟨increasing, reading.ordered.1, ?_⟩
  intro first before second later
  exact (behind first before).trans_le (reading.ordered.2 second later)

theorem before_head {head : Nat} {next : RunnerState}
    (reading : Reading decode settled growing position state taken (.ok head next)) :
    position ≤ head ∧ ∀ start ∈ taken, start < head := by
  generalize ended : EStateM.Result.ok head next = result at reading
  induction reading with
  | nothing =>
    cases ended
    exact ⟨le_refl _, by simp⟩
  | skips bounds =>
    cases ended
    exact ⟨Nat.le_add_right _ _, by simp⟩
  | raises halts => cases ended
  | takes takes further advances ih =>
    obtain ⟨positive, _⟩ := takes.bounds
    obtain ⟨reached, beyond⟩ := ih ended
    refine ⟨by omega, ?_⟩
    intro start member
    rcases List.mem_cons.mp member with rfl | member
    · omega
    · exact beyond start member

theorem to_raises {e : Error} {after : RunnerState}
    (reading : Reading decode settled growing position state taken (.error e after)) :
    Raises decode settled growing position state := by
  generalize ended : EStateM.Result.error e after = result at reading
  induction reading with
  | nothing | skips => cases ended
  | raises halts => exact .now halts
  | takes takes further advances ih => exact .behind takes (ih ended)

end Reading

theorem Takes.grown {later : Bytes} {update : RunnerCkpt} {size : Nat} {next : RunnerState}
    (takes : Takes decode content position state update size next) (grown : content <+: later) :
    Takes decode later position state update size next :=
  ⟨tryRead_record_grown takes.read grown, takes.accepted⟩

/-- The records from a position on, where a monitor stands that has taken some records of a file: it has none of them
    behind the position, or the next one is rejected because it was taken before. -/
inductive Pending (decode : Bytes → Decoded RunnerCkpt Error) (content : Bytes) (state : RunnerState)
    (taken : List Nat) : Nat → Prop
  | clear {position : Nat} (behind : ∀ start ∈ taken, start < position) : Pending decode content state taken position
  | bound {position size : Nat} {update : RunnerCkpt}
      (read : (runnerCkptFormat decode).tryRead (content.drop position) = .record update size)
      (header : update.runnerHeader ≠ none) (set : state.header ≠ none) : Pending decode content state taken position
  | passed {position size : Nat} {update : RunnerCkpt}
      (read : (runnerCkptFormat decode).tryRead (content.drop position) = .record update size)
      (passed : state.Passed update) (further : Pending decode content state taken (position + size)) :
      Pending decode content state taken position

/-- So many process updates that were taken before stand in front of a task status that was taken before. -/
inductive Due (decode : Bytes → Decoded RunnerCkpt Error) (content : Bytes) (state : RunnerState)
    (taken : List Nat) : Nat → Nat → Prop
  | status {position size : Nat} {update : RunnerCkpt} {status : TaskStatus}
      (read : (runnerCkptFormat decode).tryRead (content.drop position) = .record update size)
      (plain : update.runnerHeader = none) (given : update.taskStatus = some status)
      (told : state.statuses ≠ some []) (member : position ∈ taken) : Due decode content state taken 0 position
  | passed {left position size : Nat} {update : RunnerCkpt}
      (read : (runnerCkptFormat decode).tryRead (content.drop position) = .record update size)
      (passed : state.Passed update) (further : Due decode content state taken left (position + size)) :
      Due decode content state taken (left + 1) position

/-- A loop that raises, but not behind a task status, leaves no record that could be taken again. -/
theorem Reading.pending {e : Error} {after : RunnerState} {earlier : List Nat}
    (reading : Reading decode settled growing position state taken (.error e after))
    (grows : Grows content growing settled) (spared : ¬ RaisesBehindStatus decode settled growing position state)
    (behind : ∀ start ∈ earlier, start < position) : Pending decode settled after (earlier ++ taken) position := by
  generalize ended : EStateM.Result.error e after = result at reading
  induction reading generalizing content earlier with
  | nothing | skips => cases ended
  | raises halts =>
    cases ended
    rw [List.append_nil]
    exact .clear behind
  | takes takes further advances ih =>
    rename_i growing position size state next update rest result
    subst ended
    obtain ⟨_, onwards⟩ := grows.head_last
    have read := (takes.grown onwards.grown).read
    by_cases header : update.runnerHeader = none
    · by_cases status : update.taskStatus = none
      · have plain : update.runnerHeader = none ∧ update.taskStatus = none := ⟨header, status⟩
        have passed := (takes.passed plain).advances advances
        have beyond : ∀ start ∈ earlier ++ [position], start < position + size := by
          have bounds := takes.bounds
          intro start member
          rcases List.mem_append.mp member with member | member
          · have before := behind start member
            omega
          · rw [List.mem_singleton] at member
            omega
        have rest_pending := ih onwards (fun again => spared (.process takes plain again)) beyond rfl
        rw [List.append_assoc] at rest_pending
        exact .passed read passed rest_pending
      · exact absurd (.status takes header status further.to_raises) spared
    · refine .bound read header (advances.header ?_)
      obtain ⟨_, event, accepted⟩ := takes
      cases accepted with
      | header given unset => simp
      | task plain => exact absurd plain header
      | process plain => exact absurd plain.1 header

theorem Takes.onwards {update : RunnerCkpt} {size : Nat} {next : RunnerState}
    (takes : Takes decode (growing.headD settled) position state update size next)
    (grows : Grows content growing settled) (enough : settled.length < rounds + position) :
    ∃ rest, (readUpdates decode rounds growing settled position).run state =
        (readUpdates decode rest growing.tail settled (position + size)).run next ∧
      dispatched decode rounds growing settled position state =
        position :: dispatched decode rest growing.tail settled (position + size) next ∧
      Grows (growing.headD settled) growing.tail settled ∧ settled.length < rest + (position + size) := by
  obtain ⟨_, onwards⟩ := grows.head_last
  obtain ⟨positive, within⟩ := takes.bounds
  have shorter := onwards.grown.length_le
  obtain ⟨rest, rfl⟩ := Nat.exists_eq_succ_of_ne_zero (show rounds ≠ 0 by omega)
  obtain ⟨ran, cons⟩ := readUpdates_takes rest takes
  exact ⟨rest, ran, cons, onwards, by omega⟩

theorem Raises.error (raises : Raises decode settled growing position state) (grows : Grows content growing settled)
    (inside : position ≤ settled.length) (enough : settled.length < rounds + position) :
    ∃ e after, (readUpdates decode rounds growing settled position).run state = .error e after := by
  induction raises generalizing content rounds with
  | now halts =>
    obtain ⟨rounds, rfl⟩ := Nat.exists_eq_succ_of_ne_zero (show rounds ≠ 0 by omega)
    obtain ⟨e, after, ran, _⟩ := readUpdates_halts rounds halts
    exact ⟨e, after, ran⟩
  | behind takes further ih =>
    obtain ⟨rest, ran, _, onwards, enough⟩ := takes.onwards grows enough
    obtain ⟨_, within⟩ := takes.bounds
    rw [ran]
    exact ih onwards (within.trans onwards.grown.length_le) enough

/-- A loop that raises behind a task status leaves that one to be taken again. -/
theorem RaisesBehindStatus.due (raises : RaisesBehindStatus decode settled growing position state)
    (grows : Grows content growing settled) (inside : position ≤ settled.length)
    (enough : settled.length < rounds + position) (earlier : List Nat) :
    ∃ e after left, (readUpdates decode rounds growing settled position).run state = .error e after ∧
      Due decode settled after (earlier ++ dispatched decode rounds growing settled position state) left position := by
  induction raises generalizing content rounds earlier with
  | status takes plain given further =>
    rename_i growing position size state next update
    obtain ⟨rest, ran, cons, onwards, enough⟩ := takes.onwards grows enough
    obtain ⟨_, within⟩ := takes.bounds
    obtain ⟨e, after, raised⟩ := further.error onwards (within.trans onwards.grown.length_le) enough
    have advances := @readUpdates_advances decode settled rest growing.tail (position + size) next
    obtain ⟨status, told⟩ := Option.ne_none_iff_exists'.mp given
    rw [raised] at advances
    rw [ran, cons]
    refine ⟨e, after, 0, raised, .status (takes.grown onwards.grown).read plain told ?_ (by simp)⟩
    refine advances.statuses ?_
    obtain ⟨_, event, accepted⟩ := takes
    cases accepted with
    | header header => simp [plain] at header
    | task => simp
    | process none_told => exact absurd none_told.2 given
  | process takes plain further ih =>
    rename_i growing position size state next update
    obtain ⟨rest, ran, cons, onwards, enough⟩ := takes.onwards grows enough
    obtain ⟨_, within⟩ := takes.bounds
    obtain ⟨e, after, left, raised, due⟩ :=
      ih onwards (within.trans onwards.grown.length_le) enough (earlier ++ [position])
    have advances := @readUpdates_advances decode settled rest growing.tail (position + size) next
    rw [raised] at advances
    rw [ran, cons]
    rw [List.append_assoc] at due
    exact ⟨e, after, left + 1, raised,
      .passed (takes.grown onwards.grown).read ((takes.passed plain).advances advances) due⟩

end Loop

section Polls

variable {decode : Bytes → Decoded RunnerCkpt Error} {monitored : Monitored} {poll : Poll} {stat content : Bytes}

theorem Monitored.poll_absent (absent : poll.stat = none) : monitored.poll decode poll = monitored := by
  simp only [Monitored.poll, applyStates, EStateM.run, absent, final, List.append_nil]

theorem Monitored.poll_seen (found : poll.stat = some stat) (seen : ¬ monitored.monitor.ckptHead < stat.length) :
    monitored.poll decode poll = monitored := by
  simp only [Monitored.poll, applyStates, EStateM.run, found, seen, if_false, final, List.append_nil]

/-- A poll that reads keeps the changed state in any case, and the new position only if nothing was raised. -/
theorem Monitored.poll_reads (found : poll.stat = some stat) (news : monitored.monitor.ckptHead < stat.length) :
    monitored.poll decode poll =
      { monitor :=
          match (readUpdates decode (poll.settled.length + 1) poll.growing poll.settled
              monitored.monitor.ckptHead).run monitored.monitor.runnerstate with
          | .ok head state => { runnerstate := state, ckptHead := head }
          | .error _ state => { monitored.monitor with runnerstate := state }
        taken := monitored.taken ++ dispatched decode (poll.settled.length + 1) poll.growing poll.settled
          monitored.monitor.ckptHead monitored.monitor.runnerstate } := by
  simp only [Monitored.poll, applyStates, EStateM.run, found, news, if_true]
  cases readUpdates decode (poll.settled.length + 1) poll.growing poll.settled monitored.monitor.ckptHead
    monitored.monitor.runnerstate <;> rfl

theorem Monitored.poll_passed {size : Nat} {update : RunnerCkpt} (found : poll.stat = some stat)
    (grows : Grows stat poll.growing poll.settled)
    (read : (runnerCkptFormat decode).tryRead (stat.drop monitored.monitor.ckptHead) = .record update size)
    (passed : monitored.monitor.runnerstate.Passed update) :
    monitored.poll decode poll =
      { monitored with monitor := { monitored.monitor with ckptHead := monitored.monitor.ckptHead + size } } := by
  obtain ⟨positive, within⟩ := tryRead_bounds read
  have again := tryRead_record_grown read grows.head_last.1
  obtain ⟨ran, none_taken⟩ := readUpdates_stops poll.settled.length
    (readUpdate_outOfSequence again passed.outOfSequence)
  rw [Monitored.poll_reads found (by omega), ran, none_taken, List.append_nil]

/-- What a monitor comes to that rereads no task status. -/
structure Kept (decode : Bytes → Decoded RunnerCkpt Error) (content : Bytes) (monitored : Monitored) : Prop where
  ordered : monitored.taken.Pairwise (· < ·)
  pending : Pending decode content monitored.monitor.runnerstate monitored.taken monitored.monitor.ckptHead

theorem Pending.grown {later : Bytes} {state : RunnerState} {taken : List Nat} {position : Nat}
    (pending : Pending decode content state taken position) (grown : content <+: later) :
    Pending decode later state taken position := by
  induction pending with
  | clear behind => exact .clear behind
  | bound read header set => exact .bound (tryRead_record_grown read grown) header set
  | passed read passed further ih => exact .passed (tryRead_record_grown read grown) passed ih

theorem Due.grown {later : Bytes} {state : RunnerState} {taken : List Nat} {left position : Nat}
    (due : Due decode content state taken left position) (grown : content <+: later) :
    Due decode later state taken left position := by
  induction due with
  | status read plain given told member => exact .status (tryRead_record_grown read grown) plain given told member
  | passed read passed further ih => exact .passed (tryRead_record_grown read grown) passed ih

theorem Kept.onwards (kept : Kept decode stat monitored) (found : poll.stat = some stat)
    (grows : Grows stat poll.growing poll.settled) (spared : ¬ Rereads decode monitored.monitor poll) :
    Kept decode poll.settled (monitored.poll decode poll) := by
  obtain ⟨ordered, pending⟩ := kept
  by_cases news : monitored.monitor.ckptHead < stat.length
  · have shorter := grows.grown.length_le
    cases pending with
    | clear behind =>
      have reading := @readUpdates_reading decode _ _ _ _ (poll.settled.length + 1)
        monitored.monitor.runnerstate grows news.le (by omega)
      rw [Monitored.poll_reads found news]
      cases ran : (readUpdates decode (poll.settled.length + 1) poll.growing poll.settled
          monitored.monitor.ckptHead).run monitored.monitor.runnerstate with
      | ok head next =>
        rw [ran] at reading
        obtain ⟨reached, beyond⟩ := reading.before_head
        refine ⟨reading.ordered_behind ordered behind, .clear ?_⟩
        intro start member
        rcases List.mem_append.mp member with before | later
        · exact (behind start before).trans_le reached
        · exact beyond start later
      | error e after =>
        rw [ran] at reading
        have unspared := fun raises => spared ⟨stat, found, news, raises⟩
        exact ⟨reading.ordered_behind ordered behind, reading.pending grows unspared behind⟩
    | bound read header set =>
      have halts := halts_bound (tryRead_record_grown read grows.head_last.1) header set
      obtain ⟨e, after, ran, advances, none_taken⟩ := readUpdates_halts poll.settled.length halts
      rw [Monitored.poll_reads found news, ran, none_taken, List.append_nil]
      exact ⟨ordered, .bound (tryRead_record_grown read grows.grown) header (advances.header set)⟩
    | passed read passed further =>
      rw [Monitored.poll_passed found grows read passed]
      exact ⟨ordered, further.grown grows.grown⟩
  · rw [Monitored.poll_seen found news]
    exact ⟨ordered, pending.grown grows.grown⟩

/-- A poll of a monitor that has to reread a task status comes closer to it or takes it a second time. -/
theorem Due.onwards {left : Nat} (found : poll.stat = some stat) (grows : Grows stat poll.growing poll.settled)
    (due : Due decode stat monitored.monitor.runnerstate monitored.taken left monitored.monitor.ckptHead) :
    ¬ (monitored.poll decode poll).taken.Nodup ∨
      ∃ fewer < left, Due decode poll.settled (monitored.poll decode poll).monitor.runnerstate
        (monitored.poll decode poll).taken fewer (monitored.poll decode poll).monitor.ckptHead := by
  cases due with
  | status read plain given told member =>
    left
    rename_i size update status
    obtain ⟨positive, within⟩ := tryRead_bounds read
    have takes : Takes decode (poll.growing.headD poll.settled) monitored.monitor.ckptHead
        monitored.monitor.runnerstate update size _ :=
      ⟨tryRead_record_grown read grows.head_last.1, _, .task plain given told⟩
    rw [Monitored.poll_reads found (by omega), (readUpdates_takes _ takes).2]
    intro once
    exact (List.nodup_append.mp once).2.2 _ member _ (List.mem_cons_self ..) rfl
  | passed read passed further =>
    right
    rename_i left size update
    rw [Monitored.poll_passed found grows read passed]
    exact ⟨left, Nat.lt_succ_self left, further.grown grows.grown⟩

/-- A poll that rereads a task status raises, and leaves it to be reread. -/
theorem Rereads.raises (rereads : Rereads decode monitored.monitor poll) (found : poll.stat = some stat)
    (grows : Grows stat poll.growing poll.settled) :
    ∃ e after left, (readUpdates decode (poll.settled.length + 1) poll.growing poll.settled
        monitored.monitor.ckptHead).run monitored.monitor.runnerstate = .error e after ∧
      Due decode poll.settled after (monitored.poll decode poll).taken left monitored.monitor.ckptHead ∧
      (monitored.poll decode poll).monitor = { monitored.monitor with runnerstate := after } := by
  obtain ⟨content, same, news, raises⟩ := rereads
  cases found.symm.trans same
  have shorter := grows.grown.length_le
  obtain ⟨e, after, left, ran, due⟩ := raises.due grows (by omega)
    (show poll.settled.length < poll.settled.length + 1 + _ by omega) monitored.taken
  refine ⟨e, after, left, ran, ?_, ?_⟩
  · rw [Monitored.poll_reads found news]
    exact due
  · rw [Monitored.poll_reads found news, ran]

theorem Rereads.due (rereads : Rereads decode monitored.monitor poll) (found : poll.stat = some stat)
    (grows : Grows stat poll.growing poll.settled) :
    ∃ left, Due decode poll.settled (monitored.poll decode poll).monitor.runnerstate
      (monitored.poll decode poll).taken left (monitored.poll decode poll).monitor.ckptHead := by
  obtain ⟨e, after, left, _, due, same⟩ := rereads.raises found grows
  rw [same]
  exact ⟨left, due⟩

theorem not_rereads_of_ok {head : Nat} {next : RunnerState} (grows : Grows stat poll.growing poll.settled)
    (found : poll.stat = some stat)
    (ran : (readUpdates decode (poll.settled.length + 1) poll.growing poll.settled monitored.monitor.ckptHead).run
      monitored.monitor.runnerstate = .ok head next) : ¬ Rereads decode monitored.monitor poll := by
  intro rereads
  obtain ⟨e, after, left, raised, _⟩ := rereads.raises found grows
  rw [ran] at raised
  cases raised

end Polls

section Runs

variable {decode : Bytes → Decoded RunnerCkpt Error} {polls : List Poll} {content : Bytes}

/-- No poll of a run raises behind a task status that it has taken. -/
def Spares (decode : Bytes → Decoded RunnerCkpt Error) (polls : List Poll) : Prop :=
  ∀ earlier poll, earlier ++ [poll] <+: polls → ¬ Rereads decode (polled decode earlier).monitor poll

def quietPoll (content : Bytes) : Poll := { stat := some content, settled := content }

theorem spares_concat {poll : Poll} :
    Spares decode (polls ++ [poll]) ↔ Spares decode polls ∧ ¬ Rereads decode (polled decode polls).monitor poll := by
  constructor
  · intro spares
    exact ⟨fun earlier last before => spares earlier last (before.trans (List.prefix_append polls [poll])),
      spares polls poll (List.prefix_refl _)⟩
  · rintro ⟨spares, spared⟩ earlier last before
    rcases List.prefix_concat_iff.mp before with same | inside
    · obtain ⟨rfl, one⟩ := List.append_inj' same rfl
      rw [List.singleton_inj] at one
      subst one
      exact spared
    · exact spares earlier last inside

theorem polled_concat (decode : Bytes → Decoded RunnerCkpt Error) (polls : List Poll) (poll : Poll) :
    polled decode (polls ++ [poll]) = (polled decode polls).poll decode poll := by
  simp only [polled, List.foldl_append, List.foldl_cons, List.foldl_nil]

theorem kept_or_due (watched : Watches [] polls content) :
    (Spares decode polls ∧ Kept decode content (polled decode polls)) ∨
      ¬ Spares decode polls ∧ (¬ (polled decode polls).taken.Nodup ∨
        ∃ left, Due decode content (polled decode polls).monitor.runnerstate (polled decode polls).taken left
          (polled decode polls).monitor.ckptHead) := by
  generalize origin : ([] : Bytes) = first at watched
  induction watched with
  | start content =>
    left
    refine ⟨?_, List.Pairwise.nil, .clear (by simp [polled])⟩
    intro earlier poll before
    simp at before
  | missing watched absent ih =>
    rename_i polls poll
    have spared : ¬ Rereads decode (polled decode polls).monitor poll := by
      rintro ⟨content, found, _⟩
      simp [absent] at found
    rw [spares_concat, polled_concat, Monitored.poll_absent absent]
    simpa only [spared, not_false_eq_true, and_true] using ih origin
  | present watched found grown grows ih =>
    rename_i first before stat polls poll
    rw [spares_concat, polled_concat]
    rcases ih origin with ⟨spares, kept⟩ | ⟨rereads, twice | ⟨left, due⟩⟩
    · by_cases rereads : Rereads decode (polled decode polls).monitor poll
      · exact .inr ⟨fun spares => spares.2 rereads, .inr (rereads.due found grows)⟩
      · have seen : Kept decode stat (polled decode polls) := ⟨kept.ordered, kept.pending.grown grown⟩
        exact .inl ⟨⟨spares, rereads⟩, seen.onwards found grows rereads⟩
    · refine .inr ⟨fun spares => rereads spares.1, .inl fun once => twice ?_⟩
      exact once.sublist (List.sublist_append_left _ _)
    · refine .inr ⟨fun spares => rereads spares.1, ?_⟩
      rcases (due.grown grown).onwards found grows with twice | ⟨fewer, _, closer⟩
      · exact .inl twice
      · exact .inr ⟨fewer, closer⟩

theorem Due.taken_twice {left : Nat}
    (due : Due decode content (polled decode polls).monitor.runnerstate (polled decode polls).taken left
      (polled decode polls).monitor.ckptHead) :
    ∃ more, ¬ (polled decode (polls ++ List.replicate more (quietPoll content))).taken.Nodup := by
  induction left using Nat.strong_induction_on generalizing polls with
  | _ left ih =>
    have next : polled decode (polls ++ [quietPoll content]) = _ := polled_concat decode polls (quietPoll content)
    rcases due.onwards (show (quietPoll content).stat = some content from rfl)
        (.settled (List.prefix_refl content)) with twice | ⟨fewer, less, closer⟩
    · refine ⟨1, ?_⟩
      rw [List.replicate_one, next]
      exact twice
    · rw [← next] at closer
      obtain ⟨more, twice⟩ := ih fewer less closer
      refine ⟨more + 1, ?_⟩
      rw [List.replicate_succ, List.append_cons]
      exact twice

/-- Over all polls of an append-only file no record is taken twice, and the records are taken in file order, as long
    as no poll raises behind a task status that it has taken; one that does has it taken twice in time. -/
theorem taken_once (decode : Bytes → Decoded RunnerCkpt Error) (watched : Watches [] polls content) :
    (Spares decode polls → (polled decode polls).taken.Pairwise (· < ·)) ∧
      (¬ Spares decode polls →
        ∃ more, ¬ (polled decode (polls ++ List.replicate more (quietPoll content))).taken.Nodup) := by
  rcases @kept_or_due decode _ _ watched with ⟨spares, kept⟩ | ⟨rereads, twice | ⟨left, due⟩⟩
  · exact ⟨fun _ => kept.ordered, fun rereads => absurd spares rereads⟩
  · refine ⟨fun spares => absurd spares rereads, fun _ => ⟨0, ?_⟩⟩
    rw [List.replicate_zero, List.append_nil]
    exact twice
  · exact ⟨fun spares => absurd spares rereads, fun _ => due.taken_twice⟩

end Runs

theorem taken_once_torn :
    (polled decodeStatus ([] ++ [quietPoll firstWrite] ++ [quietPoll secondWrite])).taken.Pairwise (· < ·) := by
  have grown : firstWrite <+: secondWrite := ⟨secondWrite.drop firstWrite.length, by decide⟩
  have first : Watches [] ([] ++ [quietPoll firstWrite]) firstWrite :=
    .present (.start []) rfl List.nil_prefix (.settled (List.prefix_refl firstWrite))
  have both : Watches [] ([] ++ [quietPoll firstWrite] ++ [quietPoll secondWrite]) secondWrite :=
    .present first rfl grown (.settled (List.prefix_refl secondWrite))
  refine (taken_once decodeStatus both).1 (spares_concat.mpr ⟨spares_concat.mpr ⟨?_, ?_⟩, ?_⟩)
  · intro earlier poll before
    simp at before
  · exact not_rereads_of_ok (.settled (List.prefix_refl firstWrite)) rfl rfl
  · exact not_rereads_of_ok (.settled (List.prefix_refl secondWrite)) rfl rfl

def emptyFrame : Bytes := [0]

def decodeCorrupt (frame : Bytes) : Decoded RunnerCkpt Error :=
  if frame = emptyFrame then .value {} else decodeStatus frame

def corruptFile : Bytes := [0, 0, 0, 12] ++ activeFrame ++ ([0, 0, 0, 1] ++ emptyFrame)

/-- The file is not there when the monitor is made; the two later polls raise behind its task status. -/
theorem corrupt_taken_twice :
    Watches [] [{ stat := none, settled := [] }, quietPoll corruptFile, quietPoll corruptFile] corruptFile ∧
      (polled decodeCorrupt [{ stat := none, settled := [] }, quietPoll corruptFile, quietPoll corruptFile]).taken = [0, 0] := by
  have absent : Watches [] ([] ++ [{ stat := none, settled := [] }]) [] := .missing (.start []) rfl
  have written : Watches [] ([{ stat := none, settled := [] }] ++ [quietPoll corruptFile]) corruptFile :=
    .present absent rfl List.nil_prefix (.settled (List.prefix_refl corruptFile))
  exact ⟨.present written rfl (List.prefix_refl corruptFile) (.settled (List.prefix_refl corruptFile)), by decide⟩

end TaskMonitor

end Aurora.Thermos
