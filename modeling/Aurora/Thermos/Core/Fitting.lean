import Aurora.Thermos.Core.Lockstep

namespace Aurora.Thermos

open Collections Replay

def Plan.other : Plan → Plan
  | .regular => .finalizing
  | .finalizing => .regular

theorem Plan.eq_or_other (plan choice : Plan) : plan = choice ∨ plan = choice.other := by
  cases plan <;> cases choice <;> simp [other]

namespace Core

variable {config : RunnerConfig} {core after : Core} {name : Name} {record : RunnerCkpt} {update : ProcessStatus}
  {state : RunnerState}

/-- What an update needs of the plans: it opens a run, or it is for a process of the selected plan. If the
    other plan has the name as well, or a run that was never forked has failed, then the process must be
    under way in the selected plan, or about to be. -/
def Fits (core : Core) (update : ProcessStatus) : Prop :=
  update.state = some .waiting ∨
    match update.process, core.plan with
    | some name, some plan =>
      name ∈ (core.planner plan).planner.processes ∧
      (name ∈ (core.planner plan.other).planner.processes ∨
          update.state = some .failed ∧ (∃ run ∈ core.state.currentRun (some name), run.state = some .waiting) →
        name ∈ (core.planner plan).planner.running ∨
          (update.state = some .forked ∨ update.state = some .running) ∧
            name ∈ (core.planner plan).planner.runnable)
    | _, _ => False

instance (core : Core) (update : ProcessStatus) : Decidable (core.Fits update) := by
  unfold Fits
  split <;> infer_instance

theorem Fits.proper (fits : core.Fits update) (continues : update.state ≠ some .waiting) :
    ∃ name plan, update.process = some name ∧ core.plan = some plan ∧
      name ∈ (core.planner plan).planner.processes ∧
      ((∃ other, other ≠ plan ∧ name ∈ (core.planner other).planner.processes) ∨
          update.state = some .failed ∧ (∃ run, core.state.currentRun (some name) = some run ∧ run.state = some .waiting) →
        name ∈ (core.planner plan).planner.running ∨
          (update.state = some .forked ∨ update.state = some .running) ∧
            name ∈ (core.planner plan).planner.runnable) := by
  have proper := fits.resolve_left continues
  cases named : update.process with
  | none =>
    rw [named] at proper
    exact proper.elim
  | some name =>
    cases selected : core.plan with
    | none =>
      rw [named, selected] at proper
      exact proper.elim
    | some plan =>
      rw [named, selected] at proper
      obtain ⟨member, underway⟩ := proper
      refine ⟨name, plan, rfl, rfl, member, ?_⟩
      rintro (⟨other, different, planned⟩ | launched)
      · rcases other.eq_or_other plan with same | rfl
        · exact absurd same different
        · exact underway (.inl planned)
      · exact underway (.inr launched)

theorem Lockstep.opens (lockstep : Lockstep config core)
    (accepted : Accepted core.state record (.processTransition update) state) (waiting : update.state = some .waiting)
    {plan : Plan} (named : update.process = some name) (runnable : name ∈ (core.planner plan).planner.runnable) :
    ∃ after, Handles config update { core with state } after := by
  have planned := (((core.planner plan).planner.mem_runnable name).mp runnable).1
  obtain ⟨next, advanced⟩ := advanced_of_accepted accepted
  have known := advanced.known
  rw [named] at known
  have fresh : name ∉ core.watched := by
    rw [lockstep.watched, lockstep.attended]
    rintro ⟨run, current, going⟩
    obtain ⟨earlier, found⟩ := RunnerState.get?_of_currentRun current
    cases accepted with
    | process plain given numbered entered subject follows carries =>
      cases subject with
      | first opens unknown =>
        rw [named, found] at unknown
        cases unknown
      | again opens last numbered terminal =>
        rw [named] at last
        rw [RunnerState.currentRun_of_get? last] at current
        cases current
        rw [terminal] at going
        cases going
      | current continues => exact continues waiting
  exact ⟨_, .awaited named waiting known (lockstep.known plan name planned).2 fresh⟩

theorem going_of_state {run : ProcessRun} {stage : ProcessState} (found : run.state = some stage)
    (open_ended : ¬ Ends stage) : run.isTerminal = false := by
  rw [Bool.eq_false_iff]
  intro terminal
  obtain ⟨last, same, ends⟩ := run.isTerminal_iff.mp terminal
  cases found.symm.trans same
  exact open_ended ends

theorem not_ends_waiting : ¬ Ends .waiting := by simp [Ends]

theorem not_ends_forked : ¬ Ends .forked := by simp [Ends]

theorem not_ends_running : ¬ Ends .running := by simp [Ends]

theorem Phase.startable {stage : Option ProcessState} (phase : Phase core name stage) (found : stage = some .waiting) :
    ∃ plan, (core.planner plan).planner.Startable name := by
  cases phase with
  | waiting startable => exact ⟨_, startable⟩
  | forked => cases found
  | running => cases found
  | ended ends =>
    cases found
    exact absurd ends not_ends_waiting

theorem Phase.active {stage : Option ProcessState} (phase : Phase core name stage)
    (found : stage = some .forked ∨ stage = some .running) :
    ∃ plan, name ∈ (core.planner plan).planner.running := by
  cases phase with
  | waiting => rcases found with found | found <;> cases found
  | forked running => exact ⟨_, running⟩
  | running running => exact ⟨_, running⟩
  | ended ends =>
    rcases found with found | found <;> cases found
    · exact absurd ends not_ends_forked
    · exact absurd ends not_ends_running

/-- Where the last run of a process is when an update that opens no run is accepted. -/
theorem follows_cases {run : ProcessRun} {next : ProcessState} (follows : MayFollow run.state next)
    (continues : next ≠ .waiting) :
    (run.state = some .waiting ∧ (next = .forked ∨ next = .failed)) ∨
      ((run.state = some .forked ∨ run.state = some .running) ∧ (next = .running ∨ Ends next)) := by
  cases next with
  | waiting => exact absurd rfl continues
  | forked => exact .inl ⟨by simpa [MayFollow, predecessors] using follows, .inl rfl⟩
  | running => exact .inr ⟨.inl (by simpa [MayFollow, predecessors] using follows), .inl rfl⟩
  | success => exact .inr ⟨.inr (by simpa [MayFollow, predecessors] using follows), .inr (.inl rfl)⟩
  | failed =>
    have found : run.state = some .waiting ∨ run.state = some .running := by
      simpa [MayFollow, predecessors] using follows
    rcases found with found | found
    · exact .inl ⟨found, .inr rfl⟩
    · exact .inr ⟨.inr found, .inr (.inr (.inl rfl))⟩
  | killed => exact .inr ⟨by simpa [MayFollow, predecessors] using follows, .inr (.inr (.inr (.inl rfl)))⟩
  | lost => exact .inr ⟨by simpa [MayFollow, predecessors] using follows, .inr (.inr (.inr (.inr rfl)))⟩
  | unknown value => cases follows

theorem Lockstep.continues (lockstep : Lockstep config core)
    (accepted : Accepted core.state record (.processTransition update) state)
    (continues : update.state ≠ some .waiting) (fits : core.Fits update) :
    ∃ after, Handles config update { core with state } after := by
  obtain ⟨name, plan, named, selected, member, underway⟩ := fits.proper continues
  obtain ⟨next, advanced⟩ := advanced_of_accepted accepted
  have onward : next ≠ .waiting := by
    rintro rfl
    exact continues advanced.entered
  obtain ⟨run, current, follows⟩ := advanced.follows onward
  rw [named] at current
  have phase := lockstep.phase name run current
  have valid := lockstep.valid plan
  have attended : run.isTerminal = false → name ∈ core.taskProcesses ∧ name ∈ core.watched := by
    intro going
    have listed := (lockstep.attended name).mpr ⟨run, current, going⟩
    exact ⟨listed, by rwa [lockstep.watched]⟩
  have started : update.state = some .forked ∨ update.state = some .running → run.isTerminal = false →
      (core.planner plan).planner.Startable name → ∃ after, Handles config update { core with state } after := by
    intro moved going startable
    obtain ⟨planner, ran⟩ := TaskPlanner.setRunning_accepts valid startable
    exact ⟨_, .running named moved (fun _ => (attended going).1) selected (by rwa [planner_restated])⟩
  have ended : Ends next → run.isTerminal = false → name ∈ (core.planner plan).planner.running →
      ∃ after, Handles config update { core with state } after := by
    intro ends going running
    obtain ⟨planner, ran⟩ := TaskPlanner.ending_accepts valid running (lockstep.known plan name member).1 next
    exact ⟨_, .ended named advanced.entered ends (attended going) selected (by rwa [planner_restated])⟩
  rcases follows_cases follows onward with ⟨waiting, rfl | rfl⟩ | ⟨under_way, moved⟩
  · have going := going_of_state waiting not_ends_waiting
    obtain ⟨other, startable⟩ := phase.startable waiting
    by_cases same : other = plan
    · rw [same] at startable
      exact started (.inl advanced.entered) going startable
    · rcases underway (.inl ⟨other, same, startable.planned (lockstep.valid other)⟩) with own | ⟨_, ready⟩
      · exact started (.inl advanced.entered) going (.inl own)
      · exact started (.inl advanced.entered) going (.inr ready)
  · -- the run failed before it was forked
    have going := going_of_state waiting not_ends_waiting
    rcases underway (.inr ⟨advanced.entered, run, current, waiting⟩) with own | ⟨moved, _⟩
    · exact ended (.inr (.inl rfl)) going own
    · rw [advanced.entered] at moved
      rcases moved with moved | moved <;> cases moved
  · have going : run.isTerminal = false := by
      rcases under_way with found | found
      · exact going_of_state found not_ends_forked
      · exact going_of_state found not_ends_running
    have placed : name ∈ (core.planner plan).planner.running ∨
        (update.state = some .forked ∨ update.state = some .running) ∧ name ∈ (core.planner plan).planner.runnable := by
      obtain ⟨other, running⟩ := phase.active under_way
      by_cases same : other = plan
      · rw [same] at running
        exact .inl running
      · exact underway (.inl ⟨other, same, (lockstep.valid other).running running⟩)
    rcases moved with rfl | ends
    · exact started (.inr advanced.entered) going (placed.imp_right And.right)
    · rcases placed with own | ⟨moved, _⟩
      · exact ended ends going own
      · rw [advanced.entered] at moved
        rcases moved with moved | moved <;> cases moved
        · exact absurd ends not_ends_forked
        · exact absurd ends not_ends_running

/-- The handler of an update that does not fit never gets through. -/
theorem Lockstep.fits_of_handles (lockstep : Lockstep config core)
    (handles : Handles config update { core with state } after) : core.Fits update := by
  cases handles with
  | awaited named waiting => exact .inl waiting
  | running named moved attended selected ran =>
    rename_i name plan planner
    rw [planner_restated] at ran
    have startable := TaskPlanner.startable_of_setRunning ran
    right
    rw [named, show core.plan = some plan from selected]
    refine ⟨startable.planned (lockstep.valid plan), fun _ => ?_⟩
    rcases startable with running | runnable
    · exact .inl running
    · exact .inr ⟨moved, runnable⟩
  | ended named moved ends attended selected ran =>
    rename_i name stage plan planner
    rw [planner_restated] at ran
    have running := (TaskPlanner.ending_settled ends ran).settles.active
    right
    rw [named, show core.plan = some plan from selected]
    exact ⟨(lockstep.valid plan).running running, fun _ => .inl running⟩

theorem Lockstep.handles (lockstep : Lockstep config core)
    (accepted : Accepted core.state record (.processTransition update) state)
    (launch : update.state = some .waiting → ∃ name plan, update.process = some name ∧
      name ∈ (core.planner plan).planner.runnable)
    (fits : core.Fits update) : ∃ after, Handles config update { core with state } after := by
  by_cases waiting : update.state = some .waiting
  · obtain ⟨name, plan, named, runnable⟩ := launch waiting
    exact lockstep.opens accepted waiting named runnable
  · exact lockstep.continues accepted waiting fits

end Core

variable {config : RunnerConfig}

theorem update_of_accepted {state after : RunnerState} {record : RunnerCkpt} {update : ProcessStatus}
    (accepted : Accepted state record (.processTransition update) after) :
    record.update? = some update ∧ update.seq.isSome = true ∧ after.statuses = state.statuses := by
  cases accepted with
  | process plain given numbered =>
    refine ⟨?_, by rw [numbered]; rfl, rfl⟩
    simp [RunnerCkpt.update?, plain, given]

theorem Core.Lockstep.onTransition {runner : Runner} (lockstep : Core.Lockstep config runner.core) {record : RunnerCkpt}
    {update : ProcessStatus} {state : RunnerState} (now : Time)
    (accepted : Accepted runner.state record (.processTransition update) state)
    (launch : update.state = some .waiting → ∃ name plan, update.process = some name ∧
      name ∈ (runner.planner plan).planner.runnable)
    (fits : runner.core.Fits update) : ∃ handled,
      (TaskRunnerProcessHandler.onTransition config now update).run { runner with state } = .ok () handled ∧
        Core.Handles config update { runner.core with state } handled.core := by
  have launches : update.state = some .waiting → ∃ name plan, update.process = some name ∧
      name ∈ (runner.core.planner plan).planner.runnable := by
    intro waiting
    obtain ⟨name, plan, named, runnable⟩ := launch waiting
    exact ⟨name, plan, named, by rwa [TaskRunner.planner_core]⟩
  obtain ⟨core, handles⟩ := lockstep.handles accepted launches fits
  have target := Core.handle_of_handles (update_of_accepted accepted).2.1 handles
  have same := TaskRunnerProcessHandler.coreOf_onTransition config now update { runner with state }
  rw [show Core.handle config update (Runner.core { runner with state }) = some core from target] at same
  cases ran : (TaskRunnerProcessHandler.onTransition config now update).run { runner with state } with
  | error e handled =>
    rw [ran] at same
    cases same
  | ok value handled =>
    rw [ran] at same
    cases Option.some.inj same
    exact ⟨handled, rfl, handles⟩

end Aurora.Thermos
