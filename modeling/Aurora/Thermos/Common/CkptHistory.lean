import Aurora.Thermos.Common.CkptDispatch
import Mathlib.Data.List.Chain
import Mathlib.Data.List.Forall2

namespace Aurora.Thermos

open Collections Replay

def successors : ProcessState → List ProcessState
  | .waiting => [.forked, .failed]
  | .forked => [.running, .killed, .lost]
  | .running => [.success, .failed, .killed, .lost]
  | .success | .failed | .killed | .lost | .unknown _ => []

theorem mayFollow_some (before next : ProcessState) : MayFollow (some before) next ↔ next ∈ successors before := by
  cases before <;> cases next <;> simp [MayFollow, predecessors, successors]

theorem mayFollow_none (next : ProcessState) : MayFollow none next ↔ next = .waiting := by
  cases next <;> simp [MayFollow, predecessors]

/-- The update that `dispatch` finds in a record once header and task status are ruled out. -/
def RunnerCkpt.update? (ckpt : RunnerCkpt) : Option ProcessStatus :=
  if ckpt.runnerHeader = none ∧ ckpt.taskStatus = none then ckpt.processStatus else none

def updatesOf (process : Option Name) (records : List RunnerCkpt) : List ProcessStatus :=
  (records.filterMap RunnerCkpt.update?).filter (fun update => update.process = process)

namespace ProcessStatus

/-- The second of two updates of one run moves it along an edge of the machine. -/
def Moves (before after : ProcessStatus) : Prop :=
  ∃ source target, before.state = some source ∧ after.state = some target ∧ target ∈ successors source

/-- The second of two updates of one process carries the next sequence number. -/
def Succeeds (before after : ProcessStatus) : Prop :=
  ∃ seq, before.seq = some seq ∧ after.seq = some (seq + 1)

end ProcessStatus

structure RunHistory (updates : List ProcessStatus) (run : ProcessRun) : Prop where
  opens : ∃ first rest, updates = first :: rest ∧ first.state = some .waiting
  path : updates.IsChain ProcessStatus.Moves
  ends : ∃ last state, updates.getLast? = some last ∧ last.state = some state ∧ run.state = some state
  forked : (∃ update ∈ updates, update.state = some .forked) →
    run.forkTime.isSome = true ∧ run.coordinatorPid.isSome = true
  running : (∃ update ∈ updates, update.state = some .running) →
    run.startTime.isSome = true ∧ run.pid.isSome = true

/-- The stored runs of a process and all of its updates. -/
structure ProcessHistory (updates : List ProcessStatus) (runs : List ProcessRun) : Prop where
  split : ∃ histories, histories.flatten = updates ∧ List.Forall₂ RunHistory histories runs
  terminal : ∀ run ∈ runs.dropLast, run.isTerminal = true
  sequence : updates.IsChain ProcessStatus.Succeeds
  reached : updates.getLast?.map ProcessStatus.seq = runs.getLast?.map (fun run => some run.seq)
  nonempty : runs ≠ []

def Recorded (records : List RunnerCkpt) (state : RunnerState) : Prop :=
  ∀ process, match state.processes.get? process with
    | none => updatesOf process records = []
    | some runs => ProcessHistory (updatesOf process records) runs

namespace ProcessRun

theorem advance_forked {run : ProcessRun} {update : ProcessStatus} {seq : Int} {next : ProcessState}
    (carries : Carries update next)
    (given : next = .forked ∨ run.forkTime.isSome = true ∧ run.coordinatorPid.isSome = true) :
    (run.advance update seq next).forkTime.isSome = true ∧
      (run.advance update seq next).coordinatorPid.isSome = true := by
  rcases given with rfl | given
  · exact carries
  · cases next with
    | forked => exact carries
    | _ => exact given

theorem advance_running {run : ProcessRun} {update : ProcessStatus} {seq : Int} {next : ProcessState}
    (carries : Carries update next)
    (given : next = .running ∨ run.startTime.isSome = true ∧ run.pid.isSome = true) :
    (run.advance update seq next).startTime.isSome = true ∧
      (run.advance update seq next).pid.isSome = true := by
  rcases given with rfl | given
  · exact carries
  · cases next with
    | running => exact carries
    | _ => exact given

end ProcessRun

section Step

variable {update : ProcessStatus} {seq : Int} {next : ProcessState}

theorem RunHistory.fresh (start : Int) (entered : update.state = some next)
    (follows : MayFollow (ProcessRun.fresh start).state next) (carries : Carries update next) :
    RunHistory [update] ((ProcessRun.fresh start).advance update seq next) := by
  have waiting : next = .waiting := (mayFollow_none next).mp follows
  subst waiting
  constructor
  · exact ⟨update, [], rfl, entered⟩
  · exact List.isChain_singleton update
  · exact ⟨update, _, rfl, entered, ProcessRun.advance_state ..⟩
  · rintro ⟨other, member, state⟩
    rw [List.mem_singleton.mp member, entered] at state
    cases state
  · rintro ⟨other, member, state⟩
    rw [List.mem_singleton.mp member, entered] at state
    cases state

theorem RunHistory.extend {updates : List ProcessStatus} {run : ProcessRun} (history : RunHistory updates run)
    (entered : update.state = some next) (follows : MayFollow run.state next) (carries : Carries update next) :
    RunHistory (updates ++ [update]) (run.advance update seq next) := by
  obtain ⟨first, rest, shape, start⟩ := history.opens
  constructor
  · exact ⟨first, rest ++ [update], by rw [shape, List.cons_append], start⟩
  · refine List.isChain_append.mpr ⟨history.path, List.isChain_singleton update, ?_⟩
    intro before last after only
    obtain ⟨final, source, ended, left, stored⟩ := history.ends
    cases Option.some.inj (ended.symm.trans last)
    cases only
    rw [stored, mayFollow_some] at follows
    exact ⟨source, next, left, entered, follows⟩
  · exact ⟨update, next, by simp, entered, ProcessRun.advance_state ..⟩
  · rintro ⟨other, member, state⟩
    apply ProcessRun.advance_forked carries
    rcases List.mem_append.mp member with member | member
    · exact .inr (history.forked ⟨other, member, state⟩)
    · rw [List.mem_singleton.mp member, entered] at state
      exact .inl (Option.some.inj state)
  · rintro ⟨other, member, state⟩
    apply ProcessRun.advance_running carries
    rcases List.mem_append.mp member with member | member
    · exact .inr (history.running ⟨other, member, state⟩)
    · rw [List.mem_singleton.mp member, entered] at state
      exact .inl (Option.some.inj state)

end Step

section Runs

variable {state : RunnerState} {update : ProcessStatus} {seq : Int} {next : ProcessState}
  {updates : List ProcessStatus} {earlier : List ProcessRun} {run : ProcessRun}

theorem ProcessHistory.first (numbered : update.seq = some seq) (entered : update.state = some next)
    (follows : MayFollow (ProcessRun.fresh (-1)).state next) (carries : Carries update next) :
    ProcessHistory [update] [(ProcessRun.fresh (-1)).advance update seq next] where
  split := ⟨[[update]], rfl, .cons (RunHistory.fresh (-1) entered follows carries) .nil⟩
  terminal := by simp
  sequence := List.isChain_singleton update
  reached := by simp [numbered]
  nonempty := by simp

theorem ProcessHistory.sequence_append (history : ProcessHistory updates (earlier ++ [run]))
    (numbered : update.seq = some (run.seq + 1)) : (updates ++ [update]).IsChain ProcessStatus.Succeeds := by
  refine List.isChain_append.mpr ⟨history.sequence, List.isChain_singleton update, ?_⟩
  intro before member after only
  cases only
  have reached := history.reached
  rw [Option.mem_def.mp member, List.getLast?_concat] at reached
  exact ⟨run.seq, Option.some.inj reached, numbered⟩

theorem ProcessHistory.again (history : ProcessHistory updates (earlier ++ [run]))
    (ended : run.isTerminal = true) (numbered : update.seq = some (run.seq + 1))
    (entered : update.state = some next)
    (follows : MayFollow (ProcessRun.fresh run.seq).state next) (carries : Carries update next) :
    ProcessHistory (updates ++ [update])
      (earlier ++ [run] ++ [(ProcessRun.fresh run.seq).advance update (run.seq + 1) next]) where
  split := by
    obtain ⟨histories, flat, stored⟩ := history.split
    refine ⟨histories ++ [[update]], by simp [flat], ?_⟩
    exact List.rel_append stored (.cons (RunHistory.fresh run.seq entered follows carries) .nil)
  terminal := by
    intro other member
    rw [List.dropLast_concat] at member
    rcases List.mem_append.mp member with member | member
    · exact history.terminal other (by simpa using member)
    · rw [List.mem_singleton.mp member]
      exact ended
  sequence := history.sequence_append numbered
  reached := by simp [numbered]
  nonempty := by simp

theorem forall₂_concat_right {α β : Type} {R : α → β → Prop} {left : List α} {right : List β} {last : β}
    (related : List.Forall₂ R left (right ++ [last])) :
    ∃ before final, left = before ++ [final] ∧ List.Forall₂ R before right ∧ R final last := by
  rw [← List.forall₂_reverse_iff, List.reverse_append] at related
  obtain ⟨final, before, one, rest, shape⟩ := List.forall₂_cons_right_iff.mp related
  refine ⟨before.reverse, final, ?_, ?_, one⟩
  · rw [← List.reverse_reverse left, shape, List.reverse_cons]
  · rw [← List.forall₂_reverse_iff, List.reverse_reverse]
    exact rest

theorem ProcessHistory.current (history : ProcessHistory updates (earlier ++ [run]))
    (numbered : update.seq = some (run.seq + 1)) (entered : update.state = some next)
    (follows : MayFollow run.state next) (carries : Carries update next) :
    ProcessHistory (updates ++ [update]) (earlier ++ [run.advance update (run.seq + 1) next]) where
  split := by
    obtain ⟨histories, flat, stored⟩ := history.split
    obtain ⟨before, final, rfl, rest, one⟩ := forall₂_concat_right stored
    refine ⟨before ++ [final ++ [update]], by simp [← flat], ?_⟩
    exact List.rel_append rest (.cons (one.extend entered follows carries) .nil)
  terminal := by simpa using history.terminal
  sequence := history.sequence_append numbered
  reached := by simp [numbered]
  nonempty := by simp

end Runs

section Records

variable {records : List RunnerCkpt} {record : RunnerCkpt}

theorem updatesOf_other (process : Option Name) (silent : record.update? = none) :
    updatesOf process (records ++ [record]) = updatesOf process records := by
  simp [updatesOf, silent]

theorem updatesOf_update (process : Option Name) {update : ProcessStatus} (given : record.update? = some update) :
    updatesOf process (records ++ [record]) =
      if update.process = process then updatesOf process records ++ [update] else updatesOf process records := by
  by_cases same : update.process = process <;> simp [updatesOf, given, same]

theorem Recorded.accepted {state after : RunnerState} {event : CheckpointDispatcher.Dispatched}
    (recorded : Recorded records state) (accepted : Accepted state record event after) :
    Recorded (records ++ [record]) after := by
  intro process
  have before := recorded process
  cases accepted with
  | header given unset =>
    have silent : record.update? = none := by simp [RunnerCkpt.update?, given]
    simpa only [updatesOf_other process silent] using before
  | task plain given told =>
    have silent : record.update? = none := by simp [RunnerCkpt.update?, given]
    simpa only [updatesOf_other process silent] using before
  | process plain given numbered entered subject follows carries =>
    rename_i update seq next earlier run
    have found : record.update? = some update := by simp [RunnerCkpt.update?, plain, given]
    rw [updatesOf_update process found]
    by_cases same : update.process = process
    · subst same
      simp only [RunnerState.withRuns, Dict.get?_set_self, if_true]
      cases subject with
      | first opens unknown =>
        simp only [unknown] at before
        rw [before]
        exact ProcessHistory.first numbered entered follows carries
      | again opens known successor terminal =>
        simp only [known] at before
        cases numbered.symm.trans successor
        exact before.again terminal successor entered follows carries
      | current continues known successor =>
        simp only [known] at before
        cases numbered.symm.trans successor
        exact before.current successor entered follows carries
    · have different : process ≠ update.process := fun h => same h.symm
      simpa only [RunnerState.withRuns, Dict.get?_set_ne _ _ different, same, if_false] using before

end Records

theorem recorded_of_feed {records : List RunnerCkpt} {state : RunnerState}
    (accepted : (feed (CheckpointDispatcher.dispatch false false) records).run {} = .ok () state) :
    Recorded records state := by
  refine feed_invariant ?_ ?_ accepted
  · intro process
    simp [updatesOf]
  · intro records record before event after recorded ran
    exact recorded.accepted (CheckpointDispatcher.dispatch_accepts_iff.mp ran)

/-- Every process of a replayed state has a well-formed history, and a process without one was
    never updated. -/
theorem replayed_histories_wellFormed (records : List RunnerCkpt) (state : RunnerState)
    (accepted : (feed (CheckpointDispatcher.dispatch false false) records).run {} = .ok () state)
    (process : Option Name) :
    (state.processes.get? process = none ∧ updatesOf process records = []) ∨
      ∃ runs, state.processes.get? process = some runs ∧ ProcessHistory (updatesOf process records) runs := by
  have recorded := recorded_of_feed accepted process
  cases known : state.processes.get? process with
  | none =>
    simp only [known] at recorded
    exact .inl ⟨rfl, recorded⟩
  | some runs =>
    simp only [known] at recorded
    exact .inr ⟨runs, rfl, recorded⟩

def retriedStream : List RunnerCkpt := [
  { taskStatus := some { state := some .active } },
  { processStatus := some { seq := some 0, process := some "fetch", state := some .waiting } },
  { processStatus := some
      { seq := some 1, process := some "fetch", state := some .forked, forkTime := some 1, coordinatorPid := some 7 } },
  { processStatus := some
      { seq := some 2, process := some "fetch", state := some .running, startTime := some 2, pid := some 8 } },
  { processStatus := some { seq := some 3, process := some "fetch", state := some .failed } },
  { processStatus := some { seq := some 4, process := some "fetch", state := some .waiting } }]

def retriedState : RunnerState :=
  match (feed (CheckpointDispatcher.dispatch false false) retriedStream).run {} with
  | .ok _ state | .error _ state => state

theorem retriedStream_accepted :
    (feed (CheckpointDispatcher.dispatch false false) retriedStream).run {} = .ok () retriedState := rfl

theorem replayed_histories_retried :
    (retriedState.processes.get? (some "fetch") = none ∧ updatesOf (some "fetch") retriedStream = []) ∨
      ∃ runs, retriedState.processes.get? (some "fetch") = some runs ∧
        ProcessHistory (updatesOf (some "fetch") retriedStream) runs :=
  replayed_histories_wellFormed retriedStream retriedState retriedStream_accepted (some "fetch")

end Aurora.Thermos
