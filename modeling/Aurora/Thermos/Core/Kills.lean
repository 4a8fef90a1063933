import Aurora.Thermos.Core.Dispatches

namespace Aurora.Thermos

open Collections Guarantee Relation TaskRunnerHelper

structure Updated (update : ProcessStatus) (before after : RunnerState) : Prop where
  own : ∃ run, after.currentRun update.process = some run ∧ run.state = update.state
  others : ∀ other, other ≠ update.process → after.currentRun other = before.currentRun other

theorem updated_of_accepted {before after : RunnerState} {update : ProcessStatus}
    {event : CheckpointDispatcher.Dispatched} (accepted : Accepted before { processStatus := some update } event after) :
    Updated update before after := by
  cases accepted with
  | header given => cases given
  | task plain given => cases given
  | process plain given numbered entered subject follows carries =>
    rename_i found seq next earlier run
    cases given
    refine ⟨⟨run.advance update seq next, by simp, by simp [entered]⟩, ?_⟩
    intro other different
    exact RunnerState.currentRun_withRuns_ne before _ different

inductive RunnerWrites : Option Name → ProcessState → Option Time → Option Int → Prop
  | waiting (name : Name) : RunnerWrites (some name) .waiting none none
  | failed (process : Option Name) : RunnerWrites process .failed none none
  | lost (process : Option Name) : RunnerWrites process .lost none none
  | killed (process : Option Name) (now : Time) : RunnerWrites process .killed (some now) (some (-1))

theorem RunnerWrites.complete {process : Option Name} {state : ProcessState} {stopTime : Option Time}
    {returnCode : Option Int} (writes : RunnerWrites process state stopTime returnCode) (seq : Int) :
    CheckpointDispatcher.Complete { process, state := some state, seq := some seq, stopTime, returnCode } := by
  refine ⟨rfl, ?_⟩
  intro next entered
  cases entered
  cases writes <;> simp [Carries]

theorem coordinatorWrites_complete {name : Name} {update : ProcessStatus}
    (own : coordinatorWrites name update = true) :
    CheckpointDispatcher.Complete update ∧ update.state ≠ some .waiting := by
  unfold coordinatorWrites at own
  simp only [Bool.and_eq_true] at own
  obtain ⟨⟨named, numbered⟩, filled⟩ := own
  refine ⟨⟨numbered, ?_⟩, ?_⟩
  · intro next entered
    rw [entered] at filled
    cases next <;> simp_all [Carries]
  · intro waiting
    rw [waiting] at filled
    cases filled

namespace TaskRunner

variable {config : RunnerConfig} {kills : Prop} {world : World}

/-- An update was written and handled, perhaps a little later. -/
def Recorded (config : RunnerConfig) (world : World) (update : ProcessStatus) (after : World) : Prop :=
  ∃ middle, Calm world middle ∧ Handled config middle.runner update after.runner

theorem Handled.updated {before after : Runner} {update : ProcessStatus}
    (handled : Handled config before update after) : Updated update before.state after.state := by
  obtain ⟨state, now, accepted, ran⟩ := handled
  have kept := TaskRunnerProcessHandler.keeps_onTransition config now update { before with state }
  rw [ran] at kept
  rw [show after.state = state from kept.state]
  exact updated_of_accepted accepted

theorem Recorded.updated {update : ProcessStatus} {after : World} (recorded : Recorded config world update after) :
    Updated update world.runner.state after.runner.state := by
  obtain ⟨middle, calm, handled⟩ := recorded
  have updated := handled.updated
  rwa [calm.state] at updated

theorem Does.getRunner {β : Type} {next : Runner → Action β} {Post : β → World → Prop}
    (rest : Does config kills (next world.runner) world Post) :
    Does config kills (Aurora.Thermos.getRunner >>= next) world Post :=
  rest

theorem does_dispatchRecord {recovery : Bool} {update : ProcessStatus} (live : world.runner.recovery = false)
    (headed : world.runner.state.header.isSome = true) (complete : CheckpointDispatcher.Complete update)
    (launch : update.state = some .waiting → ∃ name plan, update.process = some name ∧
      name ∈ (world.runner.planner plan).planner.runnable) :
    Does config kills (dispatchRecord config recovery { processStatus := some update }) world (fun event after =>
      (∀ status, event ≠ .taskTransition status) ∧ Frame world after ∧
        (Recorded config world update after ∨ recovery = true ∧ Calm world after)) := by
  refine Does.getRunner ?_
  rw [live]
  refine Within.bind (reads_pause config kills world) ?_
  intro _ middle _ calm
  have ready : update.state = some .waiting → ∃ name plan, update.process = some name ∧
      name ∈ (middle.runner.planner plan).planner.runnable := by
    intro waiting
    obtain ⟨name, plan, named, runnable⟩ := launch waiting
    exact ⟨name, plan, named, by rwa [calm.planner plan]⟩
  have applied := @applyRecord_update config kills middle recovery update (calm.recovery.trans live)
    (by rwa [calm.state]) complete ready
  refine applied.weaken ?_
  rintro event after _ ⟨plain, frame, done⟩
  refine ⟨plain, calm.frame.trans frame, ?_⟩
  rcases done with handled | ⟨recovering, further⟩
  · exact .inl ⟨middle, calm, handled⟩
  · exact .inr ⟨recovering, calm.trans further⟩

theorem does_dispatch {recovery : Bool} {update : ProcessStatus} (live : world.runner.recovery = false)
    (headed : world.runner.state.header.isSome = true) (complete : CheckpointDispatcher.Complete update)
    (continues : update.state ≠ some .waiting) :
    Does config kills (dispatch config recovery { processStatus := some update }) world (fun _ after =>
      Frame world after) := by
  have launch : update.state = some .waiting → ∃ name plan, update.process = some name ∧
      name ∈ (world.runner.planner plan).planner.runnable := fun waiting => absurd waiting continues
  refine Within.bind (does_dispatchRecord live headed complete launch) ?_
  rintro event after _ ⟨plain, frame, _⟩
  cases event with
  | taskTransition status => exact absurd rfl (plain status)
  | skipped => exact Within.pure frame
  | initialization header => exact Within.pure frame
  | processTransition update => exact Within.pure frame

theorem does_currentProcessRun {β : Type} {process : Option Name} {next : Option ProcessRun → Action β}
    {Post : β → World → Prop}
    (rest : Does config kills (next (world.runner.state.currentRun process)) world Post) :
    Does config kills (currentProcessRun process >>= next) world Post :=
  rest

theorem does_assertThat {condition : Prop} [Decidable condition] {β : Type} {next : Unit → Action β}
    {Post : β → World → Prop} (rest : condition → Does config kills (next ()) world Post) :
    Does config kills (assertThat condition >>= next) world Post := by
  unfold Does Within
  rw [EStateM.run_bind, assertThat_run]
  by_cases holds : condition
  · simp only [if_pos holds]
    exact rest holds
  · simp only [if_neg holds]
    exact ReflTransGen.refl

theorem does_setProcessStatus {process : Option Name} {state : ProcessState} {stopTime : Option Time}
    {returnCode : Option Int} (live : world.runner.recovery = false)
    (headed : world.runner.state.header.isSome = true) (writes : RunnerWrites process state stopTime returnCode)
    (launch : state = .waiting → ∃ name plan, process = some name ∧
      name ∈ (world.runner.planner plan).planner.runnable) :
    Does config kills (setProcessStatus config process state stopTime returnCode) world (fun _ after =>
      Frame world after ∧ ∃ update, update.process = process ∧ update.state = some state ∧
        Recorded config world update after) := by
  have written : ∀ seq, Does config kills (do
      let _ ← dispatchRecord config (← getRunner).recovery
        { processStatus := some { process, state := some state, seq := some seq, stopTime, returnCode } }) world
      (fun _ after => Frame world after ∧ ∃ update, update.process = process ∧ update.state = some state ∧
        Recorded config world update after) := by
    intro seq
    refine Does.getRunner ?_
    have recorded := @does_dispatchRecord config kills world world.runner.recovery _ live headed
      (writes.complete seq) (fun waiting => launch (Option.some.inj waiting))
    refine Within.bind recorded ?_
    rintro event after _ ⟨_, frame, done⟩
    rcases done with recorded | ⟨recovering, _⟩
    · exact Within.pure ⟨frame, _, rfl, rfl, recorded⟩
    · rw [live] at recovering
      cases recovering
  unfold setProcessStatus
  refine does_currentProcessRun ?_
  cases world.runner.state.currentRun process with
  | some run => exact written (run.seq + 1)
  | none => exact does_assertThat fun _ => written 0

section Kill

/-- The last run of the process is over, or was never forked. -/
def Settled (state : RunnerState) (process : Option Name) : Prop :=
  ∀ run, state.currentRun process = some run → run.isTerminal = true ∨ run.state = some .waiting

def Killed (process : Option Name) (before after : World) : Prop :=
  Frame before after ∧ Settled after.runner.state process ∧
    ∀ other, other ≠ process → after.runner.state.currentRun other = before.runner.state.currentRun other

theorem settled_of_updated {update : ProcessStatus} {before after : RunnerState} (updated : Updated update before after)
    (ceased : update.state = some .killed ∨ update.state = some .lost) : Settled after update.process := by
  intro run current
  obtain ⟨last, found, entered⟩ := updated.own
  cases current.symm.trans found
  left
  rcases ceased with ceased | ceased <;> simp [ProcessRun.isTerminal, entered, ceased]

theorem does_end {process : Option Name} {state : ProcessState} {stopTime : Option Time} {returnCode : Option Int}
    (live : world.runner.recovery = false) (headed : world.runner.state.header.isSome = true)
    (writes : RunnerWrites process state stopTime returnCode) (ceased : state = .killed ∨ state = .lost) :
    Does config kills (setProcessStatus config process state stopTime returnCode) world (fun _ after =>
      Killed process world after) := by
  have continues : state = .waiting → ∃ name plan, process = some name ∧
      name ∈ (world.runner.planner plan).planner.runnable := by
    rintro rfl
    rcases ceased with ceased | ceased <;> cases ceased
  refine (does_setProcessStatus live headed writes continues).weaken ?_
  rintro _ after _ ⟨frame, update, rfl, entered, recorded⟩
  have updated := recorded.updated
  refine ⟨frame, settled_of_updated updated ?_, updated.others⟩
  rcases ceased with rfl | rfl
  · exact .inl entered
  · exact .inr entered

theorem Killed.of_calm {process : Option Name} {first second third : World} (calm : Calm first second)
    (killed : Killed process second third) : Killed process first third := by
  refine ⟨calm.frame.trans killed.1, killed.2.1, ?_⟩
  intro other different
  rw [killed.2.2 other different, calm.state]

theorem does_killProcess (process : Option Name) (pids : PidTuple) (live : world.runner.recovery = false)
    (headed : world.runner.state.header.isSome = true) :
    Does config kills (killProcess config process pids) world (fun _ after => Killed process world after) := by
  unfold killProcess
  refine does_currentProcessRun ?_
  cases current : world.runner.state.currentRun process with
  | none => exact Within.throw
  | some run =>
    have left : (run.isTerminal = true ∨ run.state = some .waiting) → Killed process world world := by
      intro settled
      refine ⟨Frame.refl world, ?_, fun _ _ => rfl⟩
      intro last found
      cases current.symm.trans found
      exact settled
    simp only
    split_ifs with terminal alive started
    · exact Within.pure (left (.inl terminal))
    · refine Within.bind (reads_clockTime config kills world) ?_
      intro now middle _ calm
      have ended := @does_end config kills middle process .killed (some now) (some (-1)) (calm.recovery.trans live)
        (by rwa [calm.state]) (.killed process now) (.inl rfl)
      exact ended.weaken fun _ _ _ killed => killed.of_calm calm
    · exact does_end live headed (.lost process) (.inr rfl)
    · exact Within.pure (left (.inr (not_not.mp started)))

theorem does_killProcesses (entries : List (Option Name × PidTuple)) (live : world.runner.recovery = false)
    (headed : world.runner.state.header.isSome = true) :
    Does config kills (killProcesses config entries) world (fun _ after => Frame world after ∧
      (∀ process ∈ entries.map Prod.fst, Settled after.runner.state process) ∧
      ∀ other, other ∉ entries.map Prod.fst →
        after.runner.state.currentRun other = world.runner.state.currentRun other) := by
  induction entries generalizing world with
  | nil => exact Within.pure ⟨Frame.refl world, by simp, fun _ _ => rfl⟩
  | cons entry rest ih =>
    obtain ⟨process, pids⟩ := entry
    refine Within.bind (does_killProcess process pids live headed) ?_
    rintro _ middle _ ⟨frame, settled, others⟩
    refine (ih (frame.recovery.trans live) (by rwa [frame.header])).weaken ?_
    rintro _ after _ ⟨further, ended, kept⟩
    refine ⟨frame.trans further, ?_, ?_⟩
    · intro other listed
      by_cases later : other ∈ rest.map Prod.fst
      · exact ended other later
      · have same : other = process := by
          rcases List.mem_cons.mp listed with same | member
          · exact same
          · exact absurd member later
        subst same
        intro run current
        rw [kept other later] at current
        exact settled run current
    · intro other absent
      simp only [List.map_cons, List.mem_cons, not_or] at absent
      rw [kept other absent.2, others other absent.1]

theorem does_scanProcess (process : Option Name) :
    Does config kills (scanProcess process) world (fun _ after =>
      Calm world after ∧ world.runner.state.header.isSome = true) := by
  by_cases headed : world.runner.state.header.isSome = true
  · exact (reads_scanProcess process config kills world).weaken fun _ _ _ calm => ⟨calm, headed⟩
  · unfold scanProcess
    refine Does.getRunner ?_
    cases world.runner.state.currentRun process with
    | none => exact Within.throw
    | some run =>
      have unset : world.runner.state.header.isNone = true := by simpa using headed
      simp only [unset]
      exact ReflTransGen.refl

theorem does_scanProcesses (processes : List (Option Name)) :
    Does config kills (scanProcesses processes) world (fun entries after => Calm world after ∧
      entries.map Prod.fst = processes ∧ (processes ≠ [] → world.runner.state.header.isSome = true)) := by
  induction processes generalizing world with
  | nil => exact Within.pure ⟨Calm.refl world, rfl, fun absurd => (absurd rfl).elim⟩
  | cons process rest ih =>
    refine Within.bind (does_scanProcess process) ?_
    rintro pids middle _ ⟨calm, headed⟩
    refine Within.bind ih ?_
    rintro entries after _ ⟨further, listed, _⟩
    exact Within.pure ⟨calm.trans further, by simp [listed], fun _ => headed⟩

/-- After a kill no run is under way that was ever forked. -/
theorem does_killAll (live : world.runner.recovery = false) :
    Does config kills (killAll config) world (fun _ after => Frame world after ∧
      ∀ process, Settled after.runner.state process) := by
  unfold killAll scanTree
  refine Within.bind (Does.getRunner (does_scanProcesses world.runner.state.processes.keys)) ?_
  rintro entries middle _ ⟨calm, listed, headed⟩
  by_cases empty : entries = []
  · subst empty
    refine Within.pure ⟨calm.frame, ?_⟩
    intro process run current
    obtain ⟨earlier, known⟩ := RunnerState.get?_of_currentRun current
    rw [calm.state] at known
    have member := Dict.mem_keys_of_get? known
    rw [← listed] at member
    exact absurd member List.not_mem_nil
  · have scanned : world.runner.state.processes.keys ≠ [] := by
      intro none_known
      rw [none_known] at listed
      exact empty (List.map_eq_nil_iff.mp listed)
    refine (does_killProcesses entries (calm.recovery.trans live) (by rw [calm.state]; exact headed scanned)).weaken ?_
    rintro _ after _ ⟨frame, settled, kept⟩
    refine ⟨calm.frame.trans frame, ?_⟩
    intro process
    by_cases known : process ∈ entries.map Prod.fst
    · exact settled process known
    · intro run current
      rw [kept process known, calm.state] at current
      obtain ⟨earlier, found⟩ := RunnerState.get?_of_currentRun current
      rw [listed] at known
      exact absurd (Dict.mem_keys_of_get? found) known

end Kill

end TaskRunner

end Aurora.Thermos
