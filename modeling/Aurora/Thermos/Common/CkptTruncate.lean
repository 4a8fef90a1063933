import Aurora.Thermos.Common.CkptDispatch

namespace Aurora.Thermos

open Collections Replay

def RunnerState.truncated (state : RunnerState) : RunnerState :=
  { state with
    statuses := state.statuses.map (fun statuses => statuses.getLast?.toList)
    processes := state.processes.map (fun runs => runs.getLast?.toList) }

namespace RunnerState

theorem getLast?_toList {α : Type} (items : List α) : items.getLast?.toList.getLast? = items.getLast? := by
  cases items.getLast? <;> rfl

theorem toList_getLast?_eq_nil {α : Type} (items : List α) : items.getLast?.toList = [] ↔ items = [] := by
  cases items using List.reverseRecOn <;> simp

theorem get?_truncated (state : RunnerState) (process : Option Name) :
    state.truncated.processes.get? process =
      (state.processes.get? process).map (fun runs => runs.getLast?.toList) :=
  Dict.get?_map _ _ _

theorem currentRun_truncated (state : RunnerState) (process : Option Name) :
    state.truncated.currentRun process = state.currentRun process := by
  simp only [currentRun, get?_truncated]
  cases state.processes.get? process with
  | none => rfl
  | some runs => exact getLast?_toList runs

theorem get?_truncated_nil (state : RunnerState) (process : Option Name) :
    state.truncated.processes.get? process = some [] ↔ state.processes.get? process = some [] := by
  rw [get?_truncated]
  cases state.processes.get? process with
  | none => simp
  | some runs => simp only [Option.map_some, Option.some.injEq, toList_getLast?_eq_nil]

theorem statuses_truncated_nil (state : RunnerState) :
    state.truncated.statuses = some [] ↔ state.statuses = some [] := by
  simp only [truncated]
  cases state.statuses with
  | none => simp
  | some statuses => simp only [Option.map_some, Option.some.injEq, toList_getLast?_eq_nil]

end RunnerState

namespace CheckpointDispatcher

theorem replaceLast_truncated (state : RunnerState) (process : Option Name) (run : ProcessRun) :
    replaceLast state.truncated process run = (replaceLast state process run).truncated := by
  have kept : ∀ runs : List ProcessRun, runs.getLast?.toList.dropLast = [] := by
    intro runs
    cases runs.getLast? <;> rfl
  simp only [replaceLast, RunnerState.truncated, Dict.map_set, List.getLast?_concat, Option.toList_some,
    RunnerState.mk.injEq, true_and]
  rw [Dict.get?_map]
  cases state.processes.get? process with
  | none => rfl
  | some runs => simp only [Option.map_some, Option.getD_some, kept, List.nil_append]

theorem openRun_truncated (state : RunnerState) (process : Option Name) :
    openRun true state.truncated process = (openRun false state process).truncated := by
  unfold openRun
  rw [RunnerState.get?_truncated]
  cases state.processes.get? process with
  | none => simp [RunnerState.truncated, Dict.map_set]
  | some runs => simp [RunnerState.truncated, Dict.map_set, RunnerState.getLast?_toList]

theorem advanceRun_truncated (state : RunnerState) (update : ProcessStatus) :
    (advanceRun update).run state.truncated = mapState RunnerState.truncated ((advanceRun update).run state) := by
  simp only [advanceRun, EStateM.run, RunnerState.currentRun_truncated]
  cases state.currentRun update.process with
  | none => rfl
  | some run =>
    simp only [replaceLast_truncated]
    cases updateProcessState update run <;> rfl

theorem dispatchProcess_truncated (recovery : Bool) (update : ProcessStatus) (state : RunnerState) :
    (dispatchProcess recovery true update).run state.truncated =
      mapState RunnerState.truncated ((dispatchProcess recovery false update).run state) := by
  by_cases broken : state.processes.get? update.process = some []
  · simp [dispatchProcess, broken, RunnerState.get?_truncated_nil]
  cases current : state.currentRun update.process with
  | none =>
    by_cases opens : update.state = some .waiting
    · simp [dispatchProcess, broken, RunnerState.get?_truncated_nil, RunnerState.currentRun_truncated, current, opens,
        openRun_truncated, advanceRun_truncated]
    · simp [dispatchProcess, broken, RunnerState.get?_truncated_nil, RunnerState.currentRun_truncated, current, opens,
        advanceRun_truncated]
  | some run =>
    by_cases numbered : update.seq = some (run.seq + 1)
    · by_cases opens : update.state = some .waiting
      · by_cases terminal : run.isTerminal = true <;>
          simp [dispatchProcess, broken, RunnerState.get?_truncated_nil, RunnerState.currentRun_truncated, current,
            numbered, opens, terminal, openRun_truncated, advanceRun_truncated]
      · simp [dispatchProcess, broken, RunnerState.get?_truncated_nil, RunnerState.currentRun_truncated, current,
          numbered, opens, advanceRun_truncated]
    · cases recovery <;>
        simp [dispatchProcess, broken, RunnerState.get?_truncated_nil, RunnerState.currentRun_truncated, current,
          numbered]

theorem dispatch_truncated (recovery : Bool) (ckpt : RunnerCkpt) (state : RunnerState) :
    (dispatch recovery true ckpt).run state.truncated =
      mapState RunnerState.truncated ((dispatch recovery false ckpt).run state) := by
  obtain ⟨runnerHeader, processStatus, taskStatus⟩ := ckpt
  cases runnerHeader with
  | some header =>
    have same : state.truncated.header = state.header := rfl
    cases unset : state.header with
    | some old => simp [dispatch, same, unset]
    | none =>
      simp [dispatch, same, unset]
      rfl
  | none =>
    cases taskStatus with
    | some status =>
      by_cases told : state.statuses = some []
      · simp [dispatch, told, RunnerState.statuses_truncated_nil]
      · simp [dispatch, told, RunnerState.statuses_truncated_nil]
        simp [RunnerState.truncated]
    | none =>
      cases processStatus with
      | none => simp [dispatch]
      | some update => simpa [dispatch] using dispatchProcess_truncated recovery update state

end CheckpointDispatcher

/-- Neither the statuses nor the runs of a process are ever left as an empty list. -/
structure RunnerState.Filled (state : RunnerState) : Prop where
  statuses : state.statuses ≠ some []
  processes : ∀ process, state.processes.get? process ≠ some []

theorem RunnerState.Filled.accepted {state after : RunnerState} {ckpt : RunnerCkpt}
    {event : CheckpointDispatcher.Dispatched} (filled : state.Filled) (accepted : Accepted state ckpt event after) :
    after.Filled := by
  cases accepted with
  | header given unset => exact ⟨filled.statuses, filled.processes⟩
  | task plain given told => exact ⟨by simp, filled.processes⟩
  | process plain given numbered entered subject follows carries =>
    refine ⟨filled.statuses, ?_⟩
    intro process
    simp only [RunnerState.withRuns, Dict.get?_set]
    split
    · simp
    · exact filled.processes process

theorem RunnerState.Filled.of_feed {recovery : Bool} {records : List RunnerCkpt} {state : RunnerState}
    (replayed : (feed (CheckpointDispatcher.dispatch recovery false) records).run {} = .ok () state) :
    state.Filled := by
  have start : RunnerState.Filled {} := ⟨by simp, by simp⟩
  refine feed_state_invariant start ?_ replayed
  intro record before event after filled ran
  rcases CheckpointDispatcher.accepted_of_dispatch ran with accepted | ⟨_, _, rfl⟩
  · exact filled.accepted accepted
  · exact filled

/-- Two replays that went the same way, the second of them with `truncate`. -/
def SameReplay : EStateM.Result Error RunnerState Unit → EStateM.Result Error RunnerState Unit → Prop
  | .error e _, .error other _ => other = e
  | .ok _ full, .ok _ truncated =>
    truncated.header = full.header ∧
      truncated.statuses = (full.statuses.bind List.getLast?).map (fun last => [last]) ∧
      ∀ process, truncated.processes.get? process = (full.currentRun process).map (fun last => [last])
  | _, _ => False

theorem RunnerState.Filled.truncated {state : RunnerState} (filled : state.Filled) :
    SameReplay (.ok () state) (.ok () state.truncated) := by
  have last : ∀ {α : Type} (items : Option (List α)), items ≠ some [] →
      items.map (fun items => items.getLast?.toList) = (items.bind List.getLast?).map (fun last => [last]) := by
    intro α items nonempty
    cases items with
    | none => rfl
    | some items =>
      cases known : items.getLast? with
      | none => exact absurd (congrArg some (List.getLast?_eq_none_iff.mp known)) nonempty
      | some final => simp [known]
  refine ⟨rfl, last _ filled.statuses, ?_⟩
  intro process
  rw [RunnerState.get?_truncated, last _ (filled.processes process)]
  rfl

/-- Replaying with `truncate` stops at the same record with the same exception, and otherwise keeps
    just the last status and the last run of every process. -/
theorem truncated_replay_agrees (recovery : Bool) (records : List RunnerCkpt) :
    taken (CheckpointDispatcher.dispatch recovery true) records {} =
        taken (CheckpointDispatcher.dispatch recovery false) records {} ∧
      SameReplay ((feed (CheckpointDispatcher.dispatch recovery false) records).run {})
        ((feed (CheckpointDispatcher.dispatch recovery true) records).run {}) := by
  have empty : RunnerState.truncated {} = {} := rfl
  have agrees := feed_map RunnerState.truncated (CheckpointDispatcher.dispatch_truncated recovery) records {}
  rw [empty] at agrees
  obtain ⟨results, count⟩ := agrees
  refine ⟨count, ?_⟩
  rw [results]
  cases replayed : (feed (CheckpointDispatcher.dispatch recovery false) records).run {} with
  | error e after => rfl
  | ok _ state => exact (RunnerState.Filled.of_feed replayed).truncated

end Aurora.Thermos
