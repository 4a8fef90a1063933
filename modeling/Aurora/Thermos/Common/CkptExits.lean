import Aurora.Thermos.Common.CkptHistory
import Mathlib.Data.List.SplitBy

namespace Aurora.Thermos

open Collections Replay

def runUpdates (process : Option Name) (records : List RunnerCkpt) : List (List ProcessStatus) :=
  (updatesOf process records).splitBy fun _ next => next.state ≠ some .waiting

def Exits (updates : List ProcessStatus) (last : ProcessStatus) : Prop :=
  updates.getLast? = some last ∧
    (last.state = some .success ∨ last.state = some .killed ∨
      last.state = some .failed ∧ ∃ update ∈ updates, update.state = some .running)

def ProcessRun.CarriesExit (run : ProcessRun) (update : ProcessStatus) : Prop :=
  run.stopTime = update.stopTime ∧ run.returnCode = update.returnCode

def ExitsRetained (records : List RunnerCkpt) (state : RunnerState) : Prop :=
  ∀ process runs, state.processes.get? process = some runs →
    List.Forall₂ (fun updates run => ∀ last, Exits updates last → run.CarriesExit last)
      (runUpdates process records) runs

/-- No update that takes a run from RUNNING to FAILED gives a stop time or a return code. -/
def FailuresSilent (records : List RunnerCkpt) : Prop :=
  ∀ process, ∀ updates ∈ runUpdates process records, ∀ last,
    updates.getLast? = some last → last.state = some .failed →
    (∃ update ∈ updates, update.state = some .running) → last.stopTime = none ∧ last.returnCode = none

/-- A relation between a run and its updates that every accepted update keeps. -/
structure RunLaw (Law : List ProcessStatus → ProcessRun → Prop) : Prop where
  fresh : ∀ start update seq next, update.state = some next →
    MayFollow (ProcessRun.fresh start).state next → Carries update next →
    Law [update] ((ProcessRun.fresh start).advance update seq next)
  extend : ∀ updates run update seq next, Law updates run → update.state = some next →
    MayFollow run.state next → Carries update next →
    Law (updates ++ [update]) (run.advance update seq next)

/-- The updates of a process fall into pieces that stand in the relation to its stored runs. -/
def Filed (Law : List ProcessStatus → ProcessRun → Prop) (updates : List ProcessStatus)
    (runs : List ProcessRun) : Prop :=
  ∃ pieces, pieces.flatten = updates ∧ List.Forall₂ Law pieces runs

section Law

variable {Law : List ProcessStatus → ProcessRun → Prop} {records : List RunnerCkpt} {record : RunnerCkpt}
  {state after : RunnerState} {event : CheckpointDispatcher.Dispatched}

theorem Filed.fresh (law : RunLaw Law) {updates : List ProcessStatus} {runs : List ProcessRun}
    {update : ProcessStatus} {next : ProcessState} {start : Int} (seq : Int) (filed : Filed Law updates runs)
    (entered : update.state = some next) (follows : MayFollow (ProcessRun.fresh start).state next)
    (carries : Carries update next) :
    Filed Law (updates ++ [update]) (runs ++ [(ProcessRun.fresh start).advance update seq next]) := by
  obtain ⟨pieces, flat, stored⟩ := filed
  have opened := law.fresh start update seq next entered follows carries
  exact ⟨pieces ++ [[update]], by simp [flat], List.rel_append stored (.cons opened .nil)⟩

theorem Filed.extend (law : RunLaw Law) {updates : List ProcessStatus} {earlier : List ProcessRun}
    {run : ProcessRun} {update : ProcessStatus} {next : ProcessState} (seq : Int)
    (filed : Filed Law updates (earlier ++ [run])) (entered : update.state = some next)
    (follows : MayFollow run.state next) (carries : Carries update next) :
    Filed Law (updates ++ [update]) (earlier ++ [run.advance update seq next]) := by
  obtain ⟨pieces, flat, stored⟩ := filed
  obtain ⟨before, final, rfl, rest, one⟩ := forall₂_concat_right stored
  have moved := law.extend final run update seq next one entered follows carries
  exact ⟨before ++ [final ++ [update]], by simp [← flat], List.rel_append rest (.cons moved .nil)⟩

theorem filed_of_accepted (law : RunLaw Law)
    (before : ∀ process, Filed Law (updatesOf process records) ((state.processes.get? process).getD []))
    (accepted : Accepted state record event after) (process : Option Name) :
    Filed Law (updatesOf process (records ++ [record])) ((after.processes.get? process).getD []) := by
  have filed := before process
  cases accepted with
  | header given unset =>
    have silent : record.update? = none := by simp [RunnerCkpt.update?, given]
    simpa only [updatesOf_other process silent] using filed
  | task plain given told =>
    have silent : record.update? = none := by simp [RunnerCkpt.update?, given]
    simpa only [updatesOf_other process silent] using filed
  | process plain given numbered entered subject follows carries =>
    rename_i update seq next earlier run
    have found : record.update? = some update := by simp [RunnerCkpt.update?, plain, given]
    rw [updatesOf_update process found]
    by_cases same : update.process = process
    · subst same
      simp only [RunnerState.withRuns, Dict.get?_set_self, if_true, Option.getD_some]
      cases subject with
      | first opens unknown =>
        simp only [unknown, Option.getD_none] at filed
        exact filed.fresh law seq entered follows carries
      | again opens known successor terminal =>
        simp only [known, Option.getD_some] at filed
        exact filed.fresh law seq entered follows carries
      | current continues known successor =>
        simp only [known, Option.getD_some] at filed
        exact filed.extend law seq entered follows carries
    · have different : process ≠ update.process := fun h => same h.symm
      simpa only [RunnerState.withRuns, Dict.get?_set_ne _ _ different, same, if_false] using filed

theorem filed_of_feed (law : RunLaw Law)
    (accepted : (feed (CheckpointDispatcher.dispatch false false) records).run {} = .ok () state)
    (process : Option Name) :
    Filed Law (updatesOf process records) ((state.processes.get? process).getD []) := by
  have along := @feed_invariant Error RunnerState RunnerCkpt _ (CheckpointDispatcher.dispatch false false) {}
    (fun records state => ∀ process, Filed Law (updatesOf process records)
      ((state.processes.get? process).getD []))
  refine along ?_ ?_ accepted process
  · intro process
    exact ⟨[], rfl, .nil⟩
  · intro records record before event after filed ran
    exact filed_of_accepted law filed (CheckpointDispatcher.dispatch_accepts_iff.mp ran)

end Law

structure ExitCopied (updates : List ProcessStatus) (run : ProcessRun) : Prop where
  history : RunHistory updates run
  copied : ∀ last, updates.getLast? = some last → run.state = some .success ∨ run.state = some .killed →
    run.CarriesExit last
  unset : run.state ≠ some .success → run.state ≠ some .killed → run.stopTime = none ∧ run.returnCode = none

theorem ExitCopied.advance (updates : List ProcessStatus) {run : ProcessRun} {update : ProcessStatus}
    {next : ProcessState} (seq : Int) (clean : run.stopTime = none ∧ run.returnCode = none)
    (history : RunHistory (updates ++ [update]) (run.advance update seq next)) :
    ExitCopied (updates ++ [update]) (run.advance update seq next) where
  history := history
  copied := by
    intro last ended
    rw [List.getLast?_concat] at ended
    cases ended
    cases next <;> simp [ProcessRun.advance, ProcessRun.CarriesExit]
  unset := by
    cases next <;> simp [ProcessRun.advance, clean]

theorem exitCopied_law : RunLaw ExitCopied where
  fresh := by
    intro start update seq next entered follows carries
    have history : RunHistory [update] ((ProcessRun.fresh start).advance update seq next) :=
      .fresh start entered follows carries
    exact ExitCopied.advance [] seq ⟨rfl, rfl⟩ history
  extend := by
    intro updates run update seq next copied entered follows carries
    have going : run.state ≠ some .success ∧ run.state ≠ some .killed := by
      constructor <;> intro ended <;> rw [ended, mayFollow_some] at follows <;> cases follows
    exact ExitCopied.advance updates seq (copied.unset going.1 going.2) (copied.history.extend entered follows carries)

section Runs

variable {pieces : List (List ProcessStatus)} {runs : List ProcessRun}

theorem splitBy_pieces (stored : List.Forall₂ ExitCopied pieces runs) :
    pieces.flatten.splitBy (fun _ next => next.state ≠ some .waiting) = pieces := by
  have shapes : List.Forall₂ (fun piece run => ((∃ first rest, piece = first :: rest ∧
      first.state = some .waiting) ∧ piece.IsChain ProcessStatus.Moves) ∧ ExitCopied piece run) pieces runs :=
    stored.imp fun piece run copied => ⟨⟨copied.history.opens, copied.history.path⟩, copied⟩
  have shaped := ((List.forall₂_and_left pieces runs).mp shapes).1
  apply List.splitBy_flatten
  · intro empty
    obtain ⟨⟨first, rest, shape, -⟩, -⟩ := shaped [] empty
    cases shape
  · intro piece member
    apply (shaped piece member).2.imp
    rintro before after ⟨source, target, -, entered, edge⟩
    have moved : target ≠ .waiting := by
      rintro rfl
      cases source <;> simp [successors] at edge
    simpa [entered] using moved
  · apply List.Pairwise.isChain
    apply List.pairwise_of_forall_mem_list
    intro one left two right
    obtain ⟨⟨first, rest, rfl, -⟩, -⟩ := shaped one left
    obtain ⟨⟨second, others, rfl, opens⟩, -⟩ := shaped two right
    exact ⟨List.cons_ne_nil _ _, List.cons_ne_nil _ _, by simp [opens]⟩

/-- A stored run carries its exit unless that is the exit of a failure. -/
theorem ExitCopied.retained_iff {updates : List ProcessStatus} {run : ProcessRun}
    (copied : ExitCopied updates run) :
    (∀ last, Exits updates last → run.CarriesExit last) ↔
      ∀ last, updates.getLast? = some last → last.state = some .failed →
        (∃ update ∈ updates, update.state = some .running) → last.stopTime = none ∧ last.returnCode = none := by
  obtain ⟨final, reached, ended, told, stored⟩ := copied.history.ends
  constructor
  · intro retained last same failed ran
    have carried := retained last ⟨same, .inr (.inr ⟨failed, ran⟩)⟩
    cases Option.some.inj (ended.symm.trans same)
    have bare := copied.unset (by simp [stored, ← told, failed]) (by simp [stored, ← told, failed])
    exact ⟨carried.1.symm.trans bare.1, carried.2.symm.trans bare.2⟩
  · rintro silent last ⟨same, ending⟩
    cases Option.some.inj (ended.symm.trans same)
    rcases ending with success | killed | ⟨failed, ran⟩
    · exact copied.copied final ended (.inl (by rw [stored, ← told, success]))
    · exact copied.copied final ended (.inr (by rw [stored, ← told, killed]))
    · have given := silent final ended failed ran
      have bare := copied.unset (by simp [stored, ← told, failed]) (by simp [stored, ← told, failed])
      exact ⟨bare.1.trans given.1.symm, bare.2.trans given.2.symm⟩

end Runs

theorem retained_pieces_iff {pieces : List (List ProcessStatus)} {runs : List ProcessRun}
    (stored : List.Forall₂ ExitCopied pieces runs) :
    List.Forall₂ (fun updates run => ∀ last, Exits updates last → run.CarriesExit last) pieces runs ↔
      ∀ updates ∈ pieces, ∀ last, updates.getLast? = some last → last.state = some .failed →
        (∃ update ∈ updates, update.state = some .running) → last.stopTime = none ∧ last.returnCode = none := by
  induction stored with
  | nil => simp
  | cons copied rest ih =>
    rw [List.forall₂_cons, List.forall_mem_cons, ih, copied.retained_iff]

/-- The exits of a replayed stream are all retained just when no run that was RUNNING is reported
    FAILED with a stop time or a return code. -/
theorem exits_retained (records : List RunnerCkpt) (state : RunnerState)
    (accepted : (feed (CheckpointDispatcher.dispatch false false) records).run {} = .ok () state) :
    ExitsRetained records state ↔ FailuresSilent records := by
  apply forall_congr'
  intro process
  obtain ⟨pieces, flat, stored⟩ := filed_of_feed exitCopied_law accepted process
  have cut : runUpdates process records = pieces := by
    rw [runUpdates, ← flat, splitBy_pieces stored]
  rw [cut, ← retained_pieces_iff stored]
  cases known : state.processes.get? process with
  | some runs =>
    simp only [Option.some.injEq, forall_eq', Option.getD_some]
  | none =>
    simp only [known, Option.getD_none, List.forall₂_nil_right_iff] at stored
    simp [stored]

theorem exits_retained_retried : ExitsRetained retriedStream retriedState ↔ FailuresSilent retriedStream :=
  exits_retained retriedStream retriedState retriedStream_accepted

def failedStream : List RunnerCkpt := [
  { taskStatus := some { state := some .active } },
  { processStatus := some { seq := some 0, process := some "fetch", state := some .waiting } },
  { processStatus := some
      { seq := some 1, process := some "fetch", state := some .forked, forkTime := some 1, coordinatorPid := some 7 } },
  { processStatus := some
      { seq := some 2, process := some "fetch", state := some .running, startTime := some 2, pid := some 8 } },
  { processStatus := some
      { seq := some 3, process := some "fetch", state := some .failed, stopTime := some 3, returnCode := some 1 } }]

def failedState : RunnerState :=
  match (feed (CheckpointDispatcher.dispatch false false) failedStream).run {} with
  | .ok _ state | .error _ state => state

theorem failedStream_loses_exit :
    (feed (CheckpointDispatcher.dispatch false false) failedStream).run {} = .ok () failedState ∧
      ¬ ExitsRetained failedStream failedState := by
  refine ⟨rfl, ?_⟩
  intro retained
  have kept := retained (some "fetch") _ rfl
  obtain ⟨carried, -⟩ := List.forall₂_cons.mp kept
  have exit := carried _ ⟨rfl, .inr (.inr ⟨rfl, _, .tail _ (.tail _ (.head _)), rfl⟩)⟩
  cases exit.2

end Aurora.Thermos
