import Aurora.Thermos.Core.SoleControl

namespace Aurora.Thermos

open Collections ProcessMuxer Replay

/-- A coordinated task, with what a schedule pass keeps in mind. -/
structure Scheduling where
  coordination : Coordination := {}
  /-- `len(running)` of the pass -/
  running : Nat := 0
  /-- the process runs that `Process.start` was called for by the runner that holds the lock, or got
      through for by one before -/
  starts : List (Name × Nat) := []

namespace Scheduling

open Coordination (Event stagePlan)

def ofPlan (runner : Runner) (set : TaskPlanner → Finset Name) : Finset Name :=
  match stagePlan (TaskRunner.taskState runner) with
  | none => ∅
  | some plan => set (runner.planner plan)

/-- What `_kill` leaves: a run that is not over still waits. -/
def Killed (state : RunnerState) : Prop :=
  ∀ process ∈ state.processes.keys, ∀ run ∈ state.currentRun process,
    run.isTerminal = true ∨ run.state = some .waiting

instance (state : RunnerState) : Decidable (Killed state) :=
  inferInstanceAs (Decidable (∀ process ∈ state.processes.keys, ∀ run ∈ state.currentRun process, _))

def announcedRuns (c : Coordination) : List (Name × Nat) :=
  (c.coordinators.filter fun coordinator => coordinator.initialUpdate ∈ content c.files coordinator.name).map
    fun coordinator => (coordinator.name, coordinator.run)

def due (c : Coordination) : List (Name × Nat) :=
  match c.holder with
  | some ⟨runner, .launching (name :: _)⟩ =>
    match runner.state.currentRun (some name) with
    | some run => if run.state = some .waiting then [(name, (runner.state.runsOf name).length - 1)] else []
    | none => []
  | _ => []

section Due

variable {c : Coordination} {runner : Runner} {name : Name} {names : List Name}
  (there : c.holder = some ⟨runner, .launching (name :: names)⟩)

include there

theorem due_waiting {earlier : List ProcessRun} {run : ProcessRun} (current : runner.state.currentRun (some name) = some run)
    (waits : run.state = some .waiting) (listed : runner.state.runsOf name = earlier ++ [run]) :
    due c = [(name, earlier.length)] := by
  simp [due, there, current, waits, listed]

theorem due_idle (idle : ∀ run, runner.state.currentRun (some name) = some run → run.state ≠ some .waiting) :
    due c = [] := by
  cases current : runner.state.currentRun (some name) with
  | none => simp [due, there, current]
  | some run => simp [due, there, current, idle run current]

end Due

variable (config : RunnerConfig)

def advance (s : Scheduling) : Event → Option Coordination
  | .schedule now runnable =>
    match s.coordination.holder with
    | none => none
    | some holder =>
      if runnable.Nodup ∧ runnable.toFinset = ofPlan holder.runner (fun plan => plan.runnableAt now) then
        (Coordination.step config s.coordination
          (.schedule now (TaskRunner.pickProcesses config s.running runnable)))
      else none
  | .selectPlan =>
    match s.coordination.holder with
    | none => none
    | some holder =>
      if TaskRunner.taskState holder.runner = some .finalizing → Killed holder.runner.state then
        Coordination.step config s.coordination .selectPlan
      else none
  | event => Coordination.step config s.coordination event

def runningBy (s : Scheduling) (next : Coordination) : Event → Nat
  | .selectPlan | .apply _ =>
    match next.holder with
    | none => 0
    | some holder => (ofPlan holder.runner fun plan => plan.planner.running).card
  | _ => s.running

def startsBy (s : Scheduling) (next : Coordination) : Event → List (Name × Nat)
  | .takeOver _ _ => announcedRuns next
  | .prepareFork _ _ _ => s.starts ++ due s.coordination
  | _ => s.starts

def step (s : Scheduling) (event : Event) : Option Scheduling :=
  (s.advance config event).map fun next =>
    { coordination := next, running := s.runningBy next event, starts := s.startsBy next event }

def underway (s : Scheduling) (state : RunnerState) (name : Name) : Bool :=
  (state.runsOf name).zipIdx.any fun entry => !entry.1.isTerminal && decide ((name, entry.2) ∈ s.starts)

/-- What `max_concurrency` and the process objects are for. -/
structure Limited (s : Scheduling) : Prop where
  concurrency : 0 < config.task.maxConcurrency → ∀ holder ∈ s.coordination.holder,
    (((ofPlan holder.runner fun plan => plan.planner.processes).filter fun name =>
      s.underway holder.runner.state name).card : Int) ≤ config.task.maxConcurrency
  once : s.starts.Nodup

end Scheduling

/-- The current run of a process has been forked and is not over. -/
def Active (state : RunnerState) (name : Name) : Prop :=
  ∃ run, state.currentRun (some name) = some run ∧ run.isTerminal = false ∧ run.state ≠ some .waiting

namespace Core

variable {config : RunnerConfig} {plan : Plan} {core after : Core} {update : ProcessStatus} {name : Name}

/-- A plan has all running that is active, and no other is selected. -/
structure Agrees (plan : Plan) (core : Core) : Prop where
  selected : ∀ other, core.plan = some other → other = plan
  running : ∀ name, Active core.state name → name ∈ (core.planner plan).planner.running

theorem active_taken {before after : RunnerState} (taken : RunsTaken name update (before.processes.get? (some name))
      (after.processes.get? (some name))) (active : Active after name) :
    (update.process ≠ some name ∧ Active before name) ∨
      update.process = some name ∧ (update.state = some .forked ∨ update.state = some .running) := by
  obtain ⟨run, current, going, left⟩ := active
  obtain ⟨earlier, listed⟩ := RunnerState.get?_of_currentRun current
  cases taken with
  | other different same =>
    refine .inl ⟨different, run, ?_, going, left⟩
    exact RunnerState.currentRun_of_get? (same.symm.trans listed)
  | opened _ _ _ _ _ waits grown =>
    cases List.append_inj_right' (Option.some.inj (grown.symm.trans listed)) rfl
    exact absurd waits left
  | moved named entered goes known numbered follows advanced =>
    rename_i earlier run next
    cases List.append_inj_right' (Option.some.inj (advanced.symm.trans listed)) rfl
    refine .inr ⟨named, ?_⟩
    cases next with
    | waiting => exact absurd rfl goes
    | forked => exact .inl entered
    | running => exact .inr entered
    | unknown value => simp [MayFollow, predecessors] at follows
    | success | failed | killed | lost => simp [ProcessRun.isTerminal, ProcessRun.advance_state] at going

theorem Agrees.handles {before : RunnerState} (agrees : Agrees plan { core with state := before })
    (taken : ∀ name, RunsTaken name update (before.processes.get? (some name)) (core.state.processes.get? (some name)))
    (handles : Handles config update core after) : Agrees plan after where
  selected := by
    rw [handles.plan]
    exact agrees.selected
  running := by
    intro name active
    rw [handles.state] at active
    rcases active_taken (taken name) active with ⟨different, active⟩ | ⟨named, entered⟩
    · have running : name ∈ (core.planner plan).planner.running := by
        have running := agrees.running name active
        cases plan <;> exact running
      rcases handles.planner_cases plan with same | ⟨_, moved, theirs, change⟩
      · rwa [same]
      · refine change.running_kept ?_ running
        rintro rfl
        exact different theirs
    · cases handles with
      | awaited _ waits => rcases entered with entered | entered <;> cases waits.symm.trans entered
      | running theirs _ _ selected ran =>
        cases theirs.symm.trans named
        cases agrees.selected _ selected
        rw [planner_withPlanner]
        have running := TaskPlanner.running_of_setRunning ran
        exact running
      | ended _ ceased ends =>
        rcases ends with rfl | rfl | rfl | rfl <;> rcases entered with entered | entered <;>
          cases ceased.symm.trans entered

end Core

end Aurora.Thermos
