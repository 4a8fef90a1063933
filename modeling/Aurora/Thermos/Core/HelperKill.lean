import Aurora.Thermos.Common.CkptHistory
import Aurora.Thermos.Core.Runner

namespace Aurora.Thermos

open Collections Replay

inductive HelperError
  | error (message : String)
  | permissionError (message : String)
  /-- raised while the checkpoint is read, and no `CheckpointDispatcher.Error` -/
  | reading (e : Error)
  /-- raised by `os.kill` -/
  | signal
  deriving DecidableEq

inductive KillOutcome
  | delivered | notPermitted | noSuchProcess | failed
  deriving DecidableEq

structure PidScan where
  coordinatorOurs : Bool := false
  processOurs : Bool := false
  children : List Int := []

structure KillSurroundings where
  /-- the lock is free; else the runner that holds it is killed and gives it up -/
  unlocked : Bool := true
  killed : KillOutcome := .delivered
  pid : Int
  uid : Int := 0
  /-- what the runner still appended before the lock was obtained -/
  appended : List RunnerCkpt := []
  scan : Option Name → PidScan := fun _ => {}
  stopTime : Option Name → Time := fun _ => 0
  startMs : Int := 0
  endMs : Int := 0
  activeExists : Bool := true
  finishedExists : Bool := false

def TaskState.valueName : TaskState → String
  | .active => "ACTIVE"
  | .success => "SUCCESS"
  | .failed => "FAILED"
  | .killed => "KILLED"
  | .lost => "LOST"
  | .cleaning => "CLEANING"
  | .finalizing => "FINALIZING"
  | .unknown _ => "None"

def CheckpointDispatcher.fromFile (records : List RunnerCkpt) : Except Error (Option RunnerState) :=
  match (feed (CheckpointDispatcher.dispatch false false) records).run {} with
  | .ok _ state => .ok (some state)
  | .error (.errorRecoveringState _) _ | .error (.invalidSequenceNumber _ _ _) _ => .ok none
  | .error e _ => .error e

namespace TaskRunnerHelper

/-- `scan_process` with the answers of the system at hand; an unset or zero pid is not looked up. -/
def scanPids (scan : PidScan) (run : ProcessRun) : PidTuple :=
  let ours := fun (recorded : Option Int) (alive : Bool) => recorded.filter fun pid => pid ≠ 0 && alive
  let pid := ours run.pid scan.processOurs
  { coordinatorPid := ours run.coordinatorPid scan.coordinatorOurs
    pid
    tree := if pid.isSome then scan.children else [] }

def killProcess (os : KillSurroundings) (process : Option Name) (run : ProcessRun) : Bool :=
  (scanPids (os.scan process) run).alive

def killRunner (os : KillSurroundings) (state : RunnerState) : Except HelperError Bool := do
  let some last := (state.statuses.getD []).getLast? | throw (.error "Could not read state!")
  if last.runnerPid = some os.pid then
    throw (.error "Unwilling to commit seppuku.")
  -- without a pid `os.kill` raises
  if last.runnerPid.isNone then
    throw .signal
  match os.killed with
  | .delivered | .noSuchProcess => return true
  | .notPermitted => return false
  | .failed => throw .signal

def openCheckpoint (os : KillSurroundings) (force : Bool) (state : RunnerState) : Except HelperError Unit := do
  if os.unlocked then
    return
  if force then
    if ← killRunner os state then
      return
  throw (.permissionError "Could not open locked checkpoint: %s, lock_file = %s")

def finalize (os : KillSurroundings) : Except HelperError Unit := do
  unless os.activeExists do
    throw (.error "Cannot finalize task with no \"active\" record!")
  if os.finishedExists then
    throw (.error "Cannot finalize task with \"finished\" record!")

def taskRecord (os : KillSurroundings) (state : TaskState) (timestampMs : Int) : RunnerCkpt :=
  { taskStatus := some { state := some state, timestampMs := some timestampMs, runnerPid := some os.pid,
                         runnerUid := some os.uid } }

def processRecords (os : KillSurroundings) (process : Option Name) (run : ProcessRun) : List RunnerCkpt :=
  if run.isTerminal then []
  else if killProcess os process run then
    [{ processStatus := some { process, state := some .killed, seq := some (run.seq + 1), returnCode := some (-9),
                               stopTime := some (os.stopTime process) } }]
  else if run.state ≠ some .waiting then
    [{ processStatus := some { process, state := some .lost, seq := some (run.seq + 1) } }]
  else []

def killRecords (os : KillSurroundings) (terminalStatus : TaskState) (state : RunnerState) : List RunnerCkpt :=
  [taskRecord os .active os.startMs] ++
    (state.processes.entries.flatMap fun entry =>
      (entry.2.getLast?.map (processRecords os entry.1)).getD []) ++
    [taskRecord os terminalStatus os.endMs]

def kill (os : KillSurroundings) (force : Bool) (terminalStatus : TaskState) (records : List RunnerCkpt) :
    Except HelperError (List RunnerCkpt) := do
  if terminalStatus ≠ .killed ∧ terminalStatus ≠ .lost then
    throw (.error ("terminal_status must be KILLED or LOST (got " ++ terminalStatus.valueName ++ ")"))
  match CheckpointDispatcher.fromFile records with
  | .error e => throw (.reading e)
  | .ok (some state) =>
    match state.header, state.statuses with
    | some _, some statuses =>
      openCheckpoint os force state
      if isTaskTerminal (statuses.getLast?.bind TaskStatus.state) then
        finalize os
        return records ++ os.appended
      finalize os
      return records ++ os.appended ++ killRecords os terminalStatus state
    | _, _ => uninitialized
  | .ok none => uninitialized
where
  uninitialized : Except HelperError (List RunnerCkpt) := do
    if force then
      finalize os
    return records

end TaskRunnerHelper

/-- A run that is under way: neither terminal nor still WAITING. -/
def ProcessRun.InFlight (run : ProcessRun) : Prop := run.isTerminal = false ∧ run.state ≠ some .waiting

/-- What replay makes of the last run of a process: a WAITING one has no pids yet. -/
def ProcessRun.Placed (run : ProcessRun) : Prop :=
  (run.state = some .waiting ∧ run.coordinatorPid = none ∧ run.pid = none) ∨
    run.state = some .forked ∨ run.state = some .running ∨ run.isTerminal = true

/-- The process is still in the very run, or it has been updated since. -/
def Continued (before after : RunnerState) : Prop :=
  ∀ process run, before.currentRun process = some run →
    ∃ next, after.currentRun process = some next ∧ (next = run ∨ run.seq < next.seq)

section Replay

variable {state after : RunnerState} {record : RunnerCkpt} {event : CheckpointDispatcher.Dispatched}

theorem currentRun_of_accepted (accepted : Accepted state record event after) (process : Option Name) :
    after.currentRun process = state.currentRun process ∨
      ∃ update seq next earlier run, Subject state update earlier run ∧ update.process = process ∧
        update.seq = some seq ∧ update.state = some next ∧ MayFollow run.state next ∧
        after.currentRun process = some (run.advance update seq next) := by
  cases accepted with
  | header given unset => exact .inl rfl
  | task plain given told => exact .inl rfl
  | process plain given numbered entered subject follows carries =>
    rename_i update seq next earlier run
    by_cases same : update.process = process
    · right
      refine ⟨update, seq, next, earlier, run, subject, same, numbered, entered, follows, ?_⟩
      rw [← same]
      exact RunnerState.currentRun_withRuns ..
    · left
      exact RunnerState.currentRun_withRuns_ne _ _ fun h => same h.symm

theorem continued_of_accepted {start : RunnerState} (continued : Continued start state)
    (accepted : Accepted state record event after) : Continued start after := by
  intro process run current
  obtain ⟨next, reached, grown⟩ := continued process run current
  rcases currentRun_of_accepted accepted process with same | ⟨update, seq, state', earlier, last, subject, rfl,
      numbered, -, -, moved⟩
  · exact ⟨next, same.trans reached, grown⟩
  · refine ⟨_, moved, .inr ?_⟩
    rw [ProcessRun.advance_seq]
    have later : next.seq < seq := by
      cases subject with
      | first opens unknown =>
        rw [RunnerState.currentRun_eq_none unknown] at reached
        cases reached
      | again opens known successor terminal =>
        rw [RunnerState.currentRun_of_get? known] at reached
        cases reached
        cases numbered.symm.trans successor
        omega
      | current continues known successor =>
        rw [RunnerState.currentRun_of_get? known] at reached
        cases reached
        cases numbered.symm.trans successor
        omega
    rcases grown with rfl | grown
    · exact later
    · omega

theorem placed_of_accepted (placed : ∀ process run, state.currentRun process = some run → run.Placed)
    (accepted : Accepted state record event after) (process : Option Name) (run : ProcessRun)
    (current : after.currentRun process = some run) : run.Placed := by
  rcases currentRun_of_accepted accepted process with same | ⟨update, seq, next, earlier, last, subject, rfl,
      numbered, entered, follows, moved⟩
  · exact placed process run (same.symm.trans current)
  · cases moved.symm.trans current
    have opened : next = .waiting → last.coordinatorPid = none ∧ last.pid = none := by
      rintro rfl
      cases subject with
      | first opens unknown => exact ⟨rfl, rfl⟩
      | again opens known successor terminal => exact ⟨rfl, rfl⟩
      | current continues known successor => exact absurd entered continues
    cases next with
    | waiting => exact .inl ⟨rfl, opened rfl⟩
    | forked => exact .inr (.inl rfl)
    | running => exact .inr (.inr (.inl rfl))
    | success | failed | killed | lost =>
      right; right; right
      simp [ProcessRun.isTerminal]
    | unknown value => cases follows

end Replay

section Feeds

variable {state after : RunnerState} {records : List RunnerCkpt}

theorem continued_of_feed
    (accepted : (feed (CheckpointDispatcher.dispatch false false) records).run state = .ok () after) :
    Continued state after := by
  have along := @feed_state_invariant Error RunnerState RunnerCkpt _ (CheckpointDispatcher.dispatch false false)
    state (Continued state)
  refine along ?_ ?_ accepted
  · intro process run current
    exact ⟨run, current, .inl rfl⟩
  · intro record before event next continued ran
    exact continued_of_accepted continued (CheckpointDispatcher.dispatch_accepts_iff.mp ran)

theorem placed_of_feed
    (accepted : (feed (CheckpointDispatcher.dispatch false false) records).run {} = .ok () state) :
    ∀ process run, state.currentRun process = some run → run.Placed := by
  have along := @feed_state_invariant Error RunnerState RunnerCkpt _ (CheckpointDispatcher.dispatch false false) {}
    fun state => ∀ process run, state.currentRun process = some run → run.Placed
  refine along ?_ ?_ accepted
  · intro process run current
    cases current
  · intro record before event next placed ran
    exact placed_of_accepted placed (CheckpointDispatcher.dispatch_accepts_iff.mp ran)

end Feeds

namespace TaskRunnerHelper

variable (os : KillSurroundings) {run : ProcessRun}

theorem processRecords_idle (process : Option Name) (placed : run.Placed) (idle : ¬ run.InFlight) : processRecords os process run = [] := by
  unfold processRecords
  by_cases ended : run.isTerminal = true
  · simp [ended]
  · have waiting : run.state = some .waiting := by
      by_contra moved
      exact idle ⟨by simpa using ended, moved⟩
    rcases placed with ⟨-, coordinator, pid⟩ | forked | running | terminal
    · have dead : killProcess os process run = false := by
        simp [killProcess, scanPids, PidTuple.alive, coordinator, pid]
      simp [waiting, dead]
    · rw [waiting] at forked
      cases forked
    · rw [waiting] at running
      cases running
    · exact absurd terminal ended

/-- A run under way is reported KILLED or LOST under the next sequence number. -/
theorem processRecords_inFlight (process : Option Name) (placed : run.Placed) (going : run.InFlight) :
    ∃ update next, processRecords os process run = [{ processStatus := some update }] ∧
      update.process = process ∧ update.seq = some (run.seq + 1) ∧ update.state = some next ∧
      (next = .killed ∨ next = .lost) ∧ MayFollow run.state next ∧ Carries update next := by
  obtain ⟨active, moved⟩ := going
  have under : run.state = some .forked ∨ run.state = some .running := by
    rcases placed with ⟨waiting, -⟩ | forked | running | terminal
    · exact absurd waiting moved
    · exact .inl forked
    · exact .inr running
    · rw [active] at terminal
      cases terminal
  unfold processRecords
  by_cases alive : killProcess os process run = true
  · refine ⟨{ process, state := some .killed, seq := some (run.seq + 1), returnCode := some (-9),
              stopTime := some (os.stopTime process) }, .killed, ?_, rfl, rfl, rfl, .inl rfl, ?_, rfl, rfl⟩
    · simp [active, alive]
    rcases under with state | state <;> simp [state, MayFollow, predecessors]
  · refine ⟨{ process, state := some .lost, seq := some (run.seq + 1) }, .lost, ?_, rfl, rfl, rfl, .inr rfl, ?_,
      trivial⟩
    · simp [active, alive, moved]
    rcases under with state | state <;> simp [state, MayFollow, predecessors]

theorem feed_inFlight {state : RunnerState} {process : Option Name} (placed : run.Placed) (going : run.InFlight)
    (current : state.currentRun process = some run) :
    ∃ after closed, (feed (CheckpointDispatcher.dispatch false false) (processRecords os process run)).run state =
        .ok () after ∧ after.statuses = state.statuses ∧ after.currentRun process = some closed ∧
      closed.isTerminal = true ∧ ∀ other, other ≠ process → after.currentRun other = state.currentRun other := by
  obtain ⟨update, next, written, own, numbered, entered, ending, follows, carries⟩ :=
    processRecords_inFlight os process placed going
  subst own
  obtain ⟨earlier, known⟩ := RunnerState.get?_of_currentRun current
  have continues : update.state ≠ some .waiting := by
    rw [entered]
    rcases ending with rfl | rfl <;> simp
  have accepted : Accepted state { processStatus := some update } _ _ :=
    .process ⟨rfl, rfl⟩ rfl numbered entered (.current continues known numbered) follows carries
  have ran := CheckpointDispatcher.dispatch_of_accepted accepted false
  refine ⟨state.withRuns update.process (earlier ++ [run.advance update (run.seq + 1) next]),
    run.advance update (run.seq + 1) next, ?_, rfl, RunnerState.currentRun_withRuns .., ?_, ?_⟩
  · rw [written, feed_cons, ran]
    rfl
  · rcases ending with rfl | rfl <;> simp [ProcessRun.isTerminal]
  · intro other different
    exact RunnerState.currentRun_withRuns_ne _ _ different

/-- A run that has been updated since it was read cannot be closed under the old number. -/
theorem feed_stale {state : RunnerState} {process : Option Name} {now : ProcessRun} (placed : run.Placed) (going : run.InFlight)
    (current : state.currentRun process = some now) (grown : run.seq < now.seq) :
    ∃ e, (feed (CheckpointDispatcher.dispatch false false) (processRecords os process run)).run state =
      .error e state := by
  obtain ⟨update, next, written, own, numbered, -⟩ :=
    processRecords_inFlight os process placed going
  subst own
  obtain ⟨earlier, known⟩ := RunnerState.get?_of_currentRun current
  have outdated : ¬ run.seq = now.seq := by omega
  refine ⟨.invalidSequenceNumber "Out of order sequence number! %s => %s" now update, ?_⟩
  have raised : (CheckpointDispatcher.dispatch false false { processStatus := some update }).run state =
      .error (.invalidSequenceNumber "Out of order sequence number! %s => %s" now update) state := by
    simp [CheckpointDispatcher.dispatch, CheckpointDispatcher.dispatchProcess, known, current, numbered, outdated]
  rw [written, feed_cons, raised]

def entryRecords (os : KillSurroundings) (entries : List (Option Name × List ProcessRun)) : List RunnerCkpt :=
  entries.flatMap fun entry => (entry.2.getLast?.map (processRecords os entry.1)).getD []

/-- The processes of the entries are as they were read, or have been updated since. -/
def Read (entries : List (Option Name × List ProcessRun)) (state : RunnerState) : Prop :=
  ∀ entry ∈ entries, ∃ run, entry.2.getLast? = some run ∧ run.Placed ∧
    ∃ now, state.currentRun entry.1 = some now ∧ (now = run ∨ run.seq < now.seq)

/-- The records were taken: each run that was under way when it was read still was, and is closed. -/
structure Closed (entries : List (Option Name × List ProcessRun)) (before after : RunnerState) : Prop where
  statuses : after.statuses = before.statuses
  others : ∀ process, process ∉ entries.map Prod.fst → after.currentRun process = before.currentRun process
  idle : ∀ entry ∈ entries, ∀ run, entry.2.getLast? = some run → ¬ run.InFlight →
    after.currentRun entry.1 = before.currentRun entry.1
  closed : ∀ entry ∈ entries, ∀ run, entry.2.getLast? = some run → run.InFlight →
    before.currentRun entry.1 = some run ∧
      ∃ closed, after.currentRun entry.1 = some closed ∧ closed.isTerminal = true

theorem Closed.cons {entry : Option Name × List ProcessRun} {rest : List (Option Name × List ProcessRun)}
    {before middle after : RunnerState} {run : ProcessRun} (last : entry.2.getLast? = some run)
    (fresh : entry.1 ∉ rest.map Prod.fst) (statuses : middle.statuses = before.statuses)
    (frame : ∀ other, other ≠ entry.1 → middle.currentRun other = before.currentRun other)
    (idle : ¬ run.InFlight → middle.currentRun entry.1 = before.currentRun entry.1)
    (closed : run.InFlight → before.currentRun entry.1 = some run ∧
      ∃ closed, middle.currentRun entry.1 = some closed ∧ closed.isTerminal = true)
    (later : Closed rest middle after) : Closed (entry :: rest) before after := by
  have apart : ∀ other ∈ rest, other.1 ≠ entry.1 := by
    intro other member same
    exact fresh (same ▸ List.mem_map_of_mem member)
  have kept := later.others entry.1 fresh
  constructor
  · exact later.statuses.trans statuses
  · intro process outside
    rw [List.map_cons, List.mem_cons, not_or] at outside
    rw [later.others process outside.2, frame process outside.1]
  · rintro other (_ | ⟨_, member⟩) run' last' going
    · cases last.symm.trans last'
      rw [kept, idle going]
    · rw [later.idle other member run' last' going, frame other.1 (apart other member)]
  · rintro other (_ | ⟨_, member⟩) run' last' going
    · cases last.symm.trans last'
      rw [kept]
      exact closed going
    · rw [← frame other.1 (apart other member)]
      exact later.closed other member run' last' going

/-- The records are taken as a whole, or one of them is refused since its process has been updated. -/
theorem feed_entries (entries : List (Option Name × List ProcessRun)) (distinct : (entries.map Prod.fst).Nodup)
    (state : RunnerState) (read : Read entries state) :
    (∃ after, (feed (CheckpointDispatcher.dispatch false false) (entryRecords os entries)).run state =
        .ok () after ∧ Closed entries state after) ∨
      (∃ e after, (feed (CheckpointDispatcher.dispatch false false) (entryRecords os entries)).run state =
        .error e after) ∧
        ∃ entry ∈ entries, ∃ run, entry.2.getLast? = some run ∧ run.InFlight ∧
          state.currentRun entry.1 ≠ some run := by
  induction entries generalizing state with
  | nil =>
    left
    refine ⟨state, rfl, rfl, fun _ _ => rfl, ?_, ?_⟩ <;> intro entry member <;> cases member
  | cons entry rest ih =>
    obtain ⟨fresh, distinct⟩ := List.nodup_cons.mp distinct
    obtain ⟨⟨run, last, placed, now, current, grown⟩, later⟩ := List.forall_mem_cons.mp read
    have split : entryRecords os (entry :: rest) = processRecords os entry.1 run ++ entryRecords os rest := by
      simp [entryRecords, last]
    have apart : ∀ other ∈ rest, other.1 ≠ entry.1 := by
      intro other member same
      exact fresh (same ▸ List.mem_map_of_mem member)
    rw [split, feed_append]
    by_cases going : run.InFlight
    · rcases grown with rfl | grown
      · obtain ⟨middle, closed, ran, statuses, moved, ended, frame⟩ := feed_inFlight os placed going current
        have read' : Read rest middle := by
          intro other member
          rw [frame other.1 (apart other member)]
          exact later other member
        rw [ran]
        rcases ih distinct middle read' with ⟨after, ran', shut⟩ | ⟨raised, other, member, stale, last', going', moved'⟩
        · left
          exact ⟨after, ran', .cons last fresh statuses frame (fun idle => absurd going idle)
            (fun _ => ⟨current, closed, moved, ended⟩) shut⟩
        · right
          rw [frame other.1 (apart other member)] at moved'
          exact ⟨raised, other, .tail _ member, stale, last', going', moved'⟩
      · obtain ⟨e, raised⟩ := feed_stale os placed going current grown
        right
        rw [raised]
        refine ⟨⟨e, state, rfl⟩, entry, .head _, run, last, going, ?_⟩
        rw [current]
        rintro ⟨⟩
        omega
    · rw [processRecords_idle os entry.1 placed going]
      rcases ih distinct state later with ⟨after, ran', shut⟩ | ⟨raised, other, member, stale⟩
      · left
        exact ⟨after, ran', .cons last fresh rfl (fun _ _ => rfl) (fun _ => rfl)
          (fun under => absurd under going) shut⟩
      · right
        exact ⟨raised, other, .tail _ member, stale⟩

/-- The stream replays record by record to a task in the given state, and the last run of each process
    is terminal or still WAITING. -/
def Finished (terminalStatus : TaskState) (records : List RunnerCkpt) : Prop :=
  ∃ state, (feed (CheckpointDispatcher.dispatch false false) records).run {} = .ok () state ∧
    (∃ last, state.statuses.bind List.getLast? = some last ∧ last.state = some terminalStatus) ∧
    ∀ process runs, state.processes.get? process = some runs →
      ∃ run, runs.getLast? = some run ∧ (run.isTerminal = true ∨ run.state = some .waiting)

/-- The same runs are under way in both states. -/
def SameInFlight (before after : RunnerState) : Prop :=
  ∀ process run, run.InFlight → (before.currentRun process = some run ↔ after.currentRun process = some run)

theorem feed_of_fromFile {records : List RunnerCkpt} {state : RunnerState}
    (built : CheckpointDispatcher.fromFile records = .ok (some state)) :
    (feed (CheckpointDispatcher.dispatch false false) records).run {} = .ok () state := by
  unfold CheckpointDispatcher.fromFile at built
  split at built <;> simp only [Except.ok.injEq, Option.some.injEq, reduceCtorEq] at built
  rename_i replayed
  rw [replayed, built]

theorem killed_stream {force : Bool} {terminalStatus : TaskState} {records final : List RunnerCkpt}
    {state : RunnerState} {last : TaskStatus} (built : CheckpointDispatcher.fromFile records = .ok (some state))
    (headed : state.header.isSome = true) (told : state.statuses.bind List.getLast? = some last)
    (going : isTaskTerminal last.state = false) (returned : kill os force terminalStatus records = .ok final) :
    final = records ++ os.appended ++ killRecords os terminalStatus state := by
  obtain ⟨header, headed⟩ := Option.isSome_iff_exists.mp headed
  obtain ⟨statuses, given, last'⟩ := Option.bind_eq_some_iff.mp told
  simp only [kill, built, headed, given, last', Option.bind_some, going, Bool.false_eq_true, if_false] at returned
  split at returned
  · obtain ⟨_, raised, _⟩ := Replay.bind_eq_ok.mp returned
    cases raised
  · obtain ⟨_, _, locked⟩ := Replay.bind_eq_ok.mp returned
    obtain ⟨_, _, finalized⟩ := Replay.bind_eq_ok.mp locked
    cases finalized
    rfl

theorem statuses_of_feed {records : List RunnerCkpt} {state : RunnerState}
    (accepted : (feed (CheckpointDispatcher.dispatch false false) records).run {} = .ok () state) :
    state.statuses ≠ some [] := by
  have along := @feed_state_invariant Error RunnerState RunnerCkpt _ (CheckpointDispatcher.dispatch false false) {}
    fun state => state.statuses ≠ some []
  refine along ?_ ?_ accepted
  · rintro ⟨⟩
  · intro record before event next told ran
    have accepted := CheckpointDispatcher.dispatch_accepts_iff.mp ran
    cases accepted with
    | header given unset => exact told
    | task plain given told => simp
    | process plain given numbered entered subject follows carries => exact told

theorem dispatch_taskRecord (state : RunnerState) (told : state.statuses ≠ some []) (entered : TaskState) (ms : Int) :
    ∃ event status, (CheckpointDispatcher.dispatch false false (taskRecord os entered ms)).run state =
      .ok event { state with statuses := some (state.statuses.getD [] ++ [status]) } ∧
      status.state = some entered := by
  have accepted : Accepted state (taskRecord os entered ms) _ _ := .task rfl rfl told
  exact ⟨_, _, CheckpointDispatcher.dispatch_of_accepted accepted false, rfl⟩

section Kill

variable {records : List RunnerCkpt} {old locked : RunnerState} {terminalStatus : TaskState}

theorem feed_killRecords
    (accepted : (feed (CheckpointDispatcher.dispatch false false) records).run {} = .ok () locked) :
    ∃ told : RunnerState, told.processes = locked.processes ∧
      (∀ after, (feed (CheckpointDispatcher.dispatch false false)
          (entryRecords os old.processes.entries)).run told = .ok () after → after.statuses = told.statuses →
        ∃ final last, (feed (CheckpointDispatcher.dispatch false false)
            (records ++ killRecords os terminalStatus old)).run {} = .ok () final ∧
          final.processes = after.processes ∧ final.statuses.bind List.getLast? = some last ∧
          last.state = some terminalStatus) ∧
      ∀ e after, (feed (CheckpointDispatcher.dispatch false false)
          (entryRecords os old.processes.entries)).run told = .error e after →
        (feed (CheckpointDispatcher.dispatch false false)
            (records ++ killRecords os terminalStatus old)).run {} = .error e after := by
  have told := statuses_of_feed accepted
  obtain ⟨event, status, active, -⟩ := dispatch_taskRecord os locked told .active os.startMs
  refine ⟨{ locked with statuses := some (locked.statuses.getD [] ++ [status]) }, rfl, ?_, ?_⟩
  · intro after ran same
    have after_told : after.statuses ≠ some [] := by
      rw [same]
      simp
    obtain ⟨event', last, closed, entered⟩ := dispatch_taskRecord os after after_told terminalStatus os.endMs
    refine ⟨{ after with statuses := some (after.statuses.getD [] ++ [last]) }, last, ?_, rfl, by simp, entered⟩
    rw [killRecords, feed_append, accepted, List.append_assoc, List.singleton_append]
    simp only [feed_cons, active]
    rw [feed_append]
    simp only [entryRecords] at ran
    simp only [ran, feed_cons, closed, feed_nil]
  · intro e after raised
    rw [killRecords, feed_append, accepted, List.append_assoc, List.singleton_append]
    simp only [feed_cons, active]
    rw [feed_append]
    simp only [entryRecords] at raised
    simp only [raised]

theorem read_entries (placed : ∀ process run, old.currentRun process = some run → run.Placed)
    (kept : ∀ process runs, old.processes.get? process = some runs → runs ≠ [])
    (continued : Continued old locked) {told : RunnerState} (same : told.processes = locked.processes) :
    Read old.processes.entries told := by
  rintro ⟨process, runs⟩ member
  have known := (Dict.mem_entries old.processes process runs).mp member
  obtain ⟨run, last⟩ := Option.isSome_iff_exists.mp (List.getLast?_isSome.mpr (kept process runs known))
  have current : old.currentRun process = some run := by simp [RunnerState.currentRun, known, last]
  obtain ⟨now, reached, grown⟩ := continued process run current
  refine ⟨run, last, placed process run current, now, ?_, grown⟩
  rw [← reached, RunnerState.currentRun, RunnerState.currentRun, same]

end Kill

theorem inFlight_iff (run : ProcessRun) :
    run.InFlight ↔ ¬ (run.isTerminal = true ∨ run.state = some .waiting) := by
  rw [not_or, Bool.not_eq_true]
  exact Iff.rfl

section Finishing

variable {state told after old : RunnerState} {process : Option Name} {run : ProcessRun}

theorem currentRun_iff_entry : state.currentRun process = some run ↔
    ∃ entry ∈ state.processes.entries, entry.1 = process ∧ entry.2.getLast? = some run := by
  constructor
  · intro known
    obtain ⟨runs, filed, last⟩ := Option.bind_eq_some_iff.mp known
    exact ⟨(process, runs), (Dict.mem_entries state.processes process runs).mpr filed, rfl, last⟩
  · rintro ⟨⟨process, runs⟩, member, rfl, last⟩
    exact Option.bind_eq_some_iff.mpr ⟨runs, (Dict.mem_entries state.processes process runs).mp member, last⟩

theorem settled_iff (kept : ∀ process runs, state.processes.get? process = some runs → runs ≠ []) :
    (∀ process runs, state.processes.get? process = some runs →
      ∃ run, runs.getLast? = some run ∧ (run.isTerminal = true ∨ run.state = some .waiting)) ↔
    ∀ process run, state.currentRun process = some run → ¬ run.InFlight := by
  constructor
  · intro settled process run known
    obtain ⟨runs, filed, last⟩ := Option.bind_eq_some_iff.mp known
    obtain ⟨run', last', ends⟩ := settled process runs filed
    cases last.symm.trans last'
    rw [inFlight_iff, not_not]
    exact ends
  · intro quiet process runs filed
    obtain ⟨run, last⟩ := Option.isSome_iff_exists.mp (List.getLast?_isSome.mpr (kept process runs filed))
    refine ⟨run, last, ?_⟩
    have idle := quiet process run (Option.bind_eq_some_iff.mpr ⟨runs, filed, last⟩)
    rwa [inFlight_iff, not_not] at idle

theorem Closed.same_of_quiet (closed : Closed old.processes.entries told after) (read : Read old.processes.entries told)
    (quiet : ∀ process run, after.currentRun process = some run → ¬ run.InFlight) : SameInFlight old told := by
  intro process run under
  constructor
  · intro known
    obtain ⟨entry, member, rfl, last⟩ := currentRun_iff_entry.mp known
    exact (closed.closed entry member run last under).1
  · intro known
    by_cases filed : process ∈ old.processes.entries.map Prod.fst
    · obtain ⟨entry, member, rfl⟩ := List.mem_map.mp filed
      obtain ⟨before, last, -⟩ := read entry member
      by_cases going : before.InFlight
      · have unmoved := (closed.closed entry member before last going).1
        cases known.symm.trans unmoved
        exact currentRun_iff_entry.mpr ⟨entry, member, rfl, last⟩
      · rw [← closed.idle entry member before last going] at known
        exact absurd under (quiet entry.1 run known)
    · rw [← closed.others process filed] at known
      exact absurd under (quiet process run known)

theorem Closed.quiet_of_same (closed : Closed old.processes.entries told after) (read : Read old.processes.entries told)
    (same : SameInFlight old told) (known : after.currentRun process = some run) : ¬ run.InFlight := by
  intro under
  by_cases listed : process ∈ old.processes.entries.map Prod.fst
  · obtain ⟨entry, member, rfl⟩ := List.mem_map.mp listed
    obtain ⟨before, last, -⟩ := read entry member
    by_cases going : before.InFlight
    · obtain ⟨-, ended, shut, terminal⟩ := closed.closed entry member before last going
      cases known.symm.trans shut
      exact (inFlight_iff run).mp under (.inl terminal)
    · rw [closed.idle entry member before last going, ← same entry.1 run under] at known
      cases known.symm.trans (currentRun_iff_entry.mpr ⟨entry, member, rfl, last⟩)
      exact going under
  · rw [closed.others process listed, ← same process run under] at known
    obtain ⟨entry, member, rfl, -⟩ := currentRun_iff_entry.mp known
    exact listed (List.mem_map_of_mem member)

theorem kept_of_feed {records : List RunnerCkpt}
    (fed : (feed (CheckpointDispatcher.dispatch false false) records).run {} = .ok () state) :
    ∀ process runs, state.processes.get? process = some runs → runs ≠ [] := by
  intro process runs known
  have recorded := recorded_of_feed fed process
  rw [known] at recorded
  exact recorded.nonempty

end Finishing

theorem finished_iff (force : Bool) (terminalStatus : TaskState) (records final : List RunnerCkpt)
    (old locked : RunnerState) (last : TaskStatus)
    (built : CheckpointDispatcher.fromFile records = .ok (some old)) (headed : old.header.isSome = true)
    (told : old.statuses.bind List.getLast? = some last) (going : isTaskTerminal last.state = false)
    (appended : (feed (CheckpointDispatcher.dispatch false false) (records ++ os.appended)).run {} = .ok () locked)
    (returned : kill os force terminalStatus records = .ok final) :
    Finished terminalStatus final ↔ SameInFlight old locked := by
  have replayed := feed_of_fromFile built
  have continued : Continued old locked := by
    rw [feed_append, replayed] at appended
    exact continued_of_feed appended
  obtain ⟨marked, same, completes, refuses⟩ := @feed_killRecords os _ old locked terminalStatus appended
  have current : ∀ process, marked.currentRun process = locked.currentRun process := by
    intro process
    rw [RunnerState.currentRun, RunnerState.currentRun, same]
  have alike_iff : SameInFlight old locked ↔ SameInFlight old marked := by
    simp only [SameInFlight, current]
  have read := read_entries (placed_of_feed replayed) (kept_of_feed replayed) continued same
  rw [killed_stream os built headed told going returned, alike_iff]
  rcases feed_entries os old.processes.entries old.processes.distinct marked read with
    ⟨after, ran, closed⟩ | ⟨⟨e, after, raised⟩, entry, member, run, ended, under, moved⟩
  · obtain ⟨done, final', fed, processes, ends, entered⟩ := completes after ran closed.statuses
    have reached : ∀ process, done.currentRun process = after.currentRun process := by
      intro process
      rw [RunnerState.currentRun, RunnerState.currentRun, processes]
    constructor
    · rintro ⟨state, fed', -, settled⟩
      cases fed.symm.trans fed'
      have quiet := (settled_iff (kept_of_feed fed)).mp settled
      exact closed.same_of_quiet read fun process run known => quiet process run (reached process ▸ known)
    · intro alike
      refine ⟨done, fed, ⟨final', ends, entered⟩, (settled_iff (kept_of_feed fed)).mpr ?_⟩
      intro process run known
      exact closed.quiet_of_same read alike (reached process ▸ known)
  · constructor
    · rintro ⟨state, fed, -⟩
      rw [refuses e after raised] at fed
      cases fed
    · intro alike
      exact absurd ((alike entry.1 run under).mp (currentRun_iff_entry.mpr ⟨entry, member, rfl, ended⟩)) moved

/-- A killed task has a valid and finished checkpoint just when what the runner appended meanwhile is
    valid and leaves the runs under way as they were read. -/
theorem kill_finishes (force : Bool) (terminalStatus : TaskState) (records final : List RunnerCkpt)
    (old : RunnerState) (last : TaskStatus)
    (built : CheckpointDispatcher.fromFile records = .ok (some old)) (headed : old.header.isSome = true)
    (told : old.statuses.bind List.getLast? = some last) (going : isTaskTerminal last.state = false)
    (returned : kill os force terminalStatus records = .ok final) :
    Finished terminalStatus final ↔
      ∃ locked, (feed (CheckpointDispatcher.dispatch false false) (records ++ os.appended)).run {} = .ok () locked ∧
        SameInFlight old locked := by
  have criterion := fun locked => finished_iff os force terminalStatus records final old locked last built headed
    told going
  constructor
  · intro finished
    have taken := finished
    obtain ⟨state, fed, -⟩ := taken
    rw [killed_stream os built headed told going returned] at fed
    obtain ⟨locked, appended, -⟩ := feed_prefix_ok _ fed
    exact ⟨locked, appended, (criterion locked appended returned).mp finished⟩
  · rintro ⟨locked, appended, alike⟩
    exact (criterion locked appended returned).mpr alike

def forkedStream : List RunnerCkpt := [
  { runnerHeader := some { taskId := some "task" } },
  { taskStatus := some { state := some .active, runnerPid := some 3 } },
  { processStatus := some { seq := some 0, process := some "fetch", state := some .waiting } },
  { processStatus := some
      { seq := some 1, process := some "fetch", state := some .forked, forkTime := some 1, coordinatorPid := some 7 } }]

def forkedState : RunnerState :=
  match (feed (CheckpointDispatcher.dispatch false false) forkedStream).run {} with
  | .ok _ state | .error _ state => state

def quietly : KillSurroundings where
  unlocked := false
  pid := 9
  scan := fun _ => { coordinatorOurs := true }

theorem kill_finishes_quietly :
    Finished .killed (forkedStream ++ quietly.appended ++ killRecords quietly .killed forkedState) ↔
      ∃ locked, (feed (CheckpointDispatcher.dispatch false false) (forkedStream ++ quietly.appended)).run {} =
          .ok () locked ∧ SameInFlight forkedState locked :=
  kill_finishes quietly true .killed forkedStream _ forkedState
    { state := some .active, runnerPid := some 3 } rfl rfl rfl rfl rfl

def runningRecord : RunnerCkpt :=
  { processStatus := some
      { seq := some 2, process := some "fetch", state := some .running, startTime := some 2, pid := some 8 } }

def racing : KillSurroundings := { quietly with appended := [runningRecord] }

/-- The stream up to the lock is accepted, but not what `kill` makes of it. -/
theorem kill_loses_race :
    (∃ locked, (feed (CheckpointDispatcher.dispatch false false) (forkedStream ++ racing.appended)).run {} =
        .ok () locked) ∧
      ∃ final, kill racing true .killed forkedStream = .ok final ∧ ¬ Finished .killed final := by
  refine ⟨⟨_, rfl⟩, _, rfl, ?_⟩
  rintro ⟨state, fed, -⟩
  cases fed

end TaskRunnerHelper

end Aurora.Thermos
