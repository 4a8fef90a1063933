import Aurora.Library.Framing
import Aurora.Thermos.Common.CkptDispatch

namespace Aurora.Thermos

open Framing Replay

/-- `ThriftRecordReader(fp, RunnerCkpt)`; the decoder of a frame is the thrift library's. -/
def runnerCkptFormat (decode : Bytes → Decoded RunnerCkpt Error) : Format RunnerCkpt Error where
  maximum := 64 * 1024 * 1024
  exceeded := .recordSizeExceeded "Record exceeds maximum allowable size"
  decode := decode

structure TaskMonitor where
  runnerstate : RunnerState := {}
  ckptHead : Nat := 0

/-- What one poll sees of the checkpoint file: its contents when it is stat'ed (if it exists), at the
    first reads, which may still find it growing, and at all later ones. -/
structure Poll where
  stat : Option Bytes
  growing : List Bytes := []
  settled : Bytes

/-- The content that a poll accounts for: one that it saw between its stat and its last read. -/
def Poll.Shows (poll : Poll) (content : Bytes) : Prop :=
  match poll.stat with
  | none => content = []
  | some stat => stat <+: content ∧ content <+: poll.settled

namespace TaskMonitor

section Source

variable (decode : Bytes → Decoded RunnerCkpt Error)

/-- One round of the reading loop: whether it goes on, and the position of the file. -/
def readUpdate (content : Bytes) (position : Nat) : EStateM Error RunnerState (Bool × Nat) := fun state =>
  match (runnerCkptFormat decode).tryRead (content.drop position) with
  | .raised e => .error e state
  | .nothing => .ok (false, position) state
  | .record update size =>
    match (CheckpointDispatcher.dispatch false false update).run state with
    | .ok _ next => .ok (true, position + size) next
    | .error (.invalidSequenceNumber _ _ _) next => .ok (false, position + size) next
    | .error e next => .error e next

/-- `while True` around the reads, for at most as many rounds as given. -/
def readUpdates (rounds : Nat) (growing : List Bytes) (settled : Bytes) (position : Nat) :
    EStateM Error RunnerState Nat :=
  match rounds with
  | 0 => throw .unfinished
  | rounds + 1 => do
    let (more, reached) ← readUpdate decode (growing.headD settled) position
    if more then readUpdates rounds growing.tail settled reached
    else return reached

def applyStates (poll : Poll) : EStateM Error TaskMonitor Bool := fun monitor =>
  match poll.stat with
  | none => .ok false monitor
  | some content =>
    if monitor.ckptHead < content.length then
      match (readUpdates decode (poll.settled.length + 1) poll.growing poll.settled monitor.ckptHead).run
          monitor.runnerstate with
      | .ok head state => .ok (monitor.ckptHead ≠ head) { runnerstate := state, ckptHead := head }
      | .error e state => .error e { monitor with runnerstate := state }
    else .ok false monitor

end Source

/-- The contents a poll sees only grow, from what the file held before on. -/
inductive Grows : Bytes → List Bytes → Bytes → Prop
  | settled {before after : Bytes} (grown : before <+: after) : Grows before [] after
  | growing {before next after : Bytes} {rest : List Bytes} (grown : before <+: next)
      (further : Grows next rest after) : Grows before (next :: rest) after

/-- An append-only file under a sequence of polls: from one content to a later one. -/
inductive Watches : Bytes → List Poll → Bytes → Prop
  | start (content : Bytes) : Watches content [] content
  | missing {polls : List Poll} {poll : Poll} (watched : Watches [] polls []) (absent : poll.stat = none) :
      Watches [] (polls ++ [poll]) []
  | present {first before content : Bytes} {polls : List Poll} {poll : Poll} (watched : Watches first polls before)
      (found : poll.stat = some content) (grown : before <+: content)
      (grows : Grows content poll.growing poll.settled) : Watches first (polls ++ [poll]) poll.settled

theorem Grows.head_last {before after : Bytes} {rest : List Bytes} (grows : Grows before rest after) :
    before <+: rest.headD after ∧ Grows (rest.headD after) rest.tail after := by
  cases grows with
  | settled grown => exact ⟨grown, .settled (List.prefix_refl after)⟩
  | growing grown further => exact ⟨grown, further⟩

theorem Grows.grown {before after : Bytes} {rest : List Bytes} (grows : Grows before rest after) :
    before <+: after := by
  induction grows with
  | settled grown => exact grown
  | growing grown further ih => exact grown.trans ih

section CatchUp

variable {decode : Bytes → Decoded RunnerCkpt Error} {records : List RunnerCkpt}

structure Applied (decode : Bytes → Decoded RunnerCkpt Error) (content : Bytes) (state : RunnerState)
    (position : Nat) (records : List RunnerCkpt) : Prop where
  reads : Reads (runnerCkptFormat decode) content records position
  folded : (feed (CheckpointDispatcher.dispatch false false) records).run {} = .ok () state

def CaughtUp (decode : Bytes → Decoded RunnerCkpt Error) (content : Bytes) (state : RunnerState)
    (position : Nat) : Prop :=
  ∃ records, Complete (runnerCkptFormat decode) content records position ∧
    (feed (CheckpointDispatcher.dispatch false false) records).run {} = .ok () state

/-- The complete records of a file can all be read, and `dispatch` takes them. -/
def Sound (decode : Bytes → Decoded RunnerCkpt Error) (file : Bytes) : Prop :=
  ∃ state position, CaughtUp decode file state position

theorem Applied.grown {content later : Bytes} {state : RunnerState} {position : Nat}
    (applied : Applied decode content state position records) (grown : content <+: later) :
    Applied decode later state position records :=
  ⟨applied.reads.grown grown, applied.folded⟩

theorem readUpdate_applied {content file : Bytes} {state : RunnerState} {position : Nat}
    (sound : Sound decode file) (grown : content <+: file)
    (applied : Applied decode content state position records) :
    ((runnerCkptFormat decode).tryRead (content.drop position) = .nothing ∧
        (readUpdate decode content position).run state = .ok (false, position) state) ∨
      ∃ update size next, (readUpdate decode content position).run state = .ok (true, position + size) next ∧
        0 < size ∧ Applied decode content next (position + size) (records ++ [update]) := by
  obtain ⟨last, final, all, complete, folded⟩ := sound
  have within : position ≤ content.length := applied.reads.position_le
  have ahead : content.drop position <+: file.drop position := grown.drop position
  cases read : (runnerCkptFormat decode).tryRead (content.drop position) with
  | raised e =>
    obtain ⟨rest, further, _, _, tail⟩ := (applied.reads.grown grown).split complete
    exact absurd (tryRead_raised_grown read ahead) tail.not_raised
  | nothing =>
    left
    refine ⟨rfl, ?_⟩
    simp only [readUpdate, EStateM.run, read]
  | record update size =>
    right
    have reads := applied.reads.snoc read
    obtain ⟨rest, _, same, _, _⟩ := (reads.grown grown).split complete
    subst same
    obtain ⟨next, taken, _⟩ := feed_prefix_ok _ folded
    obtain ⟨middle, event, before, dispatched⟩ := feed_snoc_ok _ taken
    cases before.symm.trans applied.folded
    refine ⟨update, size, next, ?_, (tryRead_bounds read).1, reads, taken⟩
    simp only [readUpdate, EStateM.run, read]
    rw [EStateM.run] at dispatched
    simp only [dispatched]

theorem readUpdates_caughtUp (rounds : Nat) {content settled file : Bytes} {growing : List Bytes}
    {state : RunnerState} {position : Nat} (enough : settled.length < rounds + position) (sound : Sound decode file)
    (within : settled <+: file) (grows : Grows content growing settled)
    (applied : Applied decode content state position records) :
    ∃ present head next, content <+: present ∧ present <+: settled ∧
      (readUpdates decode rounds growing settled position).run state = .ok head next ∧
      CaughtUp decode present next head := by
  induction rounds generalizing content growing state position records with
  | zero =>
    have inside := applied.reads.position_le
    have shorter := grows.grown.length_le
    omega
  | succ rounds ih =>
    obtain ⟨grown, onwards⟩ := grows.head_last
    have moved := applied.grown grown
    rcases readUpdate_applied sound (onwards.grown.trans within) moved with
      ⟨ended, round⟩ | ⟨update, size, next, round, advanced, further⟩
    · refine ⟨_, position, state, grown, onwards.grown, ?_, records, ⟨moved.reads, ended⟩, moved.folded⟩
      simp only [readUpdates, EStateM.run_bind, round, Bool.false_eq_true, if_false, EStateM.run_pure]
    · obtain ⟨present, head, last, later, inside, ran, caught⟩ := ih (by omega) onwards further
      refine ⟨present, head, last, grown.trans later, inside, ?_, caught⟩
      simp only [readUpdates, EStateM.run_bind, round, if_true, ran]

theorem applyStates_caughtUp {poll : Poll} {before stat file : Bytes} {monitor : TaskMonitor}
    (found : poll.stat = some stat) (grown : before <+: stat) (grows : Grows stat poll.growing poll.settled)
    (sound : Sound decode file) (within : poll.settled <+: file)
    (caught : CaughtUp decode before monitor.runnerstate monitor.ckptHead) :
    ∃ updated after present, (applyStates decode poll).run monitor = .ok updated after ∧ stat <+: present ∧
      present <+: poll.settled ∧ CaughtUp decode present after.runnerstate after.ckptHead := by
  obtain ⟨records, ⟨reads, ended⟩, folded⟩ := caught
  by_cases news : monitor.ckptHead < stat.length
  · have applied : Applied decode stat monitor.runnerstate monitor.ckptHead records := ⟨reads.grown grown, folded⟩
    obtain ⟨present, head, next, later, inside, ran, caught⟩ :=
      readUpdates_caughtUp (poll.settled.length + 1) (by omega) sound within grows applied
    refine ⟨decide (monitor.ckptHead ≠ head), { runnerstate := next, ckptHead := head }, present, ?_, later, inside, caught⟩
    simp only [applyStates, EStateM.run, found, news, if_true]
    rw [EStateM.run] at ran
    simp only [ran]
  · have reached := reads.position_le
    have shorter := grown.length_le
    have same : before = stat := grown.eq_of_length (by omega)
    subst same
    refine ⟨false, monitor, before, ?_, List.prefix_refl before, grows.grown, records, ⟨reads, ended⟩, folded⟩
    simp only [applyStates, EStateM.run, found, news, if_false]

theorem caughtUp_start (decode : Bytes → Decoded RunnerCkpt Error) :
    CaughtUp decode [] ({} : TaskMonitor).runnerstate ({} : TaskMonitor).ckptHead :=
  ⟨[], ⟨.start [], rfl⟩, rfl⟩

theorem polls_caughtUp {polls : List Poll} {content file : Bytes} (sound : Sound decode file)
    (watched : Watches [] polls content) (within : content <+: file) :
    ∃ monitor present, (feed (applyStates decode) polls).run {} = .ok () monitor ∧ present <+: content ∧
      (∀ poll ∈ polls.getLast?, poll.Shows present) ∧
      CaughtUp decode present monitor.runnerstate monitor.ckptHead := by
  generalize origin : ([] : Bytes) = first at watched
  induction watched with
  | start content =>
    subst origin
    exact ⟨{}, [], rfl, List.prefix_refl [], by simp, caughtUp_start decode⟩
  | missing watched absent ih =>
    rename_i polls poll
    obtain ⟨monitor, present, ran, inside, _, caught⟩ := ih within rfl
    have empty : present = [] := List.prefix_nil.mp inside
    have idle : (applyStates decode poll).run monitor = .ok false monitor := by
      simp only [applyStates, EStateM.run, absent]
    refine ⟨monitor, present, ?_, inside, ?_, caught⟩
    · rw [feed_append, ran]
      simp only [feed_cons, idle, feed_nil]
    · intro last member
      rw [List.getLast?_concat, Option.mem_def, Option.some.injEq] at member
      subst member
      simpa only [Poll.Shows, absent] using empty
  | present watched found grown grows ih =>
    rename_i first before stat polls poll
    obtain ⟨monitor, present, ran, inside, _, caught⟩ := ih ((grown.trans grows.grown).trans within) origin
    obtain ⟨updated, after, next, applied, later, reached, fresh⟩ :=
      applyStates_caughtUp found (inside.trans grown) grows sound within caught
    refine ⟨after, next, ?_, reached, ?_, fresh⟩
    · rw [feed_append, ran]
      simp only [feed_cons, applied, feed_nil]
    · intro last member
      rw [List.getLast?_concat, Option.mem_def, Option.some.injEq] at member
      subst member
      simpa only [Poll.Shows, found] using ⟨later, reached⟩

/-- After every poll of an append-only file the monitor holds the fold of `dispatch` over just the
    records that were complete when the poll read the file. -/
theorem polls_equal_replay (decode : Bytes → Decoded RunnerCkpt Error) {file : Bytes} (sound : Sound decode file)
    {polls : List Poll} {poll : Poll} {content : Bytes} (watched : Watches [] (polls ++ [poll]) content)
    (within : content <+: file) :
    ∃ monitor present records, (feed (applyStates decode) (polls ++ [poll])).run {} = .ok () monitor ∧
      poll.Shows present ∧ Complete (runnerCkptFormat decode) present records monitor.ckptHead ∧
      (feed (CheckpointDispatcher.dispatch false false) records).run {} = .ok () monitor.runnerstate := by
  obtain ⟨monitor, present, ran, _, shows, records, complete, folded⟩ := polls_caughtUp sound watched within
  exact ⟨monitor, present, records, ran, shows poll (by simp), complete, folded⟩

end CatchUp

/-- `RunnerCkpt(task_status=TaskStatus(state=ACTIVE))` and the same with CLEANING, in thrift's binary
    protocol. -/
def activeFrame : Bytes := [0x0c, 0, 3, 8, 0, 1, 0, 0, 0, 0, 0, 0]

def cleaningFrame : Bytes := [0x0c, 0, 3, 8, 0, 1, 0, 0, 0, 5, 0, 0]

def decodeStatus (frame : Bytes) : Decoded RunnerCkpt Error :=
  if frame = activeFrame then .value { taskStatus := some { state := some .active } }
  else if frame = cleaningFrame then .value { taskStatus := some { state := some .cleaning } }
  else .endOfFile

def firstWrite : Bytes := [0, 0, 0, 12] ++ activeFrame ++ [0, 0, 0, 12, 0x0c, 0]

def secondWrite : Bytes := [0, 0, 0, 12] ++ activeFrame ++ ([0, 0, 0, 12] ++ cleaningFrame)

theorem polls_equal_replay_torn :
    ∃ monitor present records,
      (feed (applyStates decodeStatus)
        ([{ stat := some firstWrite, settled := firstWrite }] ++
          [{ stat := some secondWrite, settled := secondWrite }])).run {} = .ok () monitor ∧
      Poll.Shows { stat := some secondWrite, settled := secondWrite } present ∧
      Complete (runnerCkptFormat decodeStatus) present records monitor.ckptHead ∧
      (feed (CheckpointDispatcher.dispatch false false) records).run {} = .ok () monitor.runnerstate := by
  have sound : Sound decodeStatus secondWrite :=
    ⟨_, _, _, ⟨.record rfl (.record rfl (.start _)), rfl⟩, rfl⟩
  have grown : firstWrite <+: secondWrite := ⟨secondWrite.drop firstWrite.length, by decide⟩
  have first : Watches [] ([] ++ [{ stat := some firstWrite, settled := firstWrite }]) firstWrite :=
    .present (.start []) rfl List.nil_prefix (.settled (List.prefix_refl firstWrite))
  exact polls_equal_replay decodeStatus sound
    (.present first rfl grown (.settled (List.prefix_refl secondWrite))) (List.prefix_refl secondWrite)

end TaskMonitor

end Aurora.Thermos
