import Aurora.Thermos.Common.CkptTruncate
import Aurora.Thermos.Common.PlannerTask
import Aurora.Thermos.Core.Launches

namespace Aurora.Thermos

open Collections

namespace Planner

variable {α : Type} [DecidableEq α] {process other : α} {before after : Planner α}

def Startable (planner : Planner α) (process : α) : Prop := process ∈ planner.running ∨ process ∈ planner.runnable

theorem Change.running_kept (change : Change process before after) (different : other ≠ process)
    (running : other ∈ before.running) : other ∈ after.running := by
  cases change <;> simp [different, running]

theorem Change.startable_kept (change : Change process before after) (different : other ≠ process)
    (startable : before.Startable other) : after.Startable other := by
  rcases startable with running | runnable
  · exact .inl (change.running_kept different running)
  · exact .inr (change.runnable_kept different runnable)

theorem Startable.accepted {planner : Planner α} (valid : planner.Valid) (startable : planner.Startable process) :
    process ∉ planner.failed ∧ process ∉ planner.finished ∧
      (process ∈ planner.running ∨ process ∈ planner.runnable) := by
  rcases startable with running | runnable
  · exact ⟨Finset.disjoint_left.mp valid.activeUnbroken running, Finset.disjoint_left.mp valid.activeUnfinished running,
      .inl running⟩
  · have facts := (planner.mem_runnable process).mp runnable
    exact ⟨facts.2.2.2.1, facts.2.2.1, .inr runnable⟩

theorem Startable.planned {planner : Planner α} (valid : planner.Valid) (startable : planner.Startable process) :
    process ∈ planner.processes := by
  rcases startable with running | runnable
  · exact valid.running running
  · exact ((planner.mem_runnable process).mp runnable).1

end Planner

namespace TaskPlanner

variable {plan : TaskPlanner} {name : Name}

theorem setRunning_accepts (valid : plan.planner.Valid) (startable : plan.planner.Startable name) :
    ∃ after, (perform (.setRunning name)).run plan = .ok () after := by
  unfold perform setRunning
  rw [onPlanner_run, Planner.setRunning_run, if_pos (startable.accepted valid)]
  exact ⟨_, rfl⟩

theorem running_of_setRunning {after : TaskPlanner} (ran : (perform (.setRunning name)).run plan = .ok () after) :
    name ∈ after.planner.running := by
  unfold perform setRunning at ran
  rw [onPlanner_run, Planner.setRunning_run] at ran
  split_ifs at ran with met
  cases ran
  exact Finset.mem_insert_self name plan.planner.running

theorem startable_of_setRunning {after : TaskPlanner} (ran : (perform (.setRunning name)).run plan = .ok () after) :
    plan.planner.Startable name := by
  unfold perform setRunning at ran
  rw [onPlanner_run, Planner.setRunning_run] at ran
  split_ifs at ran with met
  exact met.2.2

theorem ending_settled {after : TaskPlanner} {state : ProcessState} (ends : Core.Ends state)
    (ran : (perform (Core.ending name state)).run plan = .ok () after) : Settled name plan after := by
  rcases ends with rfl | rfl | rfl | rfl
  · exact addSuccess_settled ran
  · exact addFailure_settled ran
  · exact lost_settled ran
  · exact lost_settled ran

section Ends

variable (valid : plan.planner.Valid) (running : name ∈ plan.planner.running)

include valid running

theorem reset_accepts : ∃ after, (onPlanner (Planner.reset name)).run plan = .ok () after := by
  have unfinished := Finset.disjoint_left.mp valid.activeUnfinished running
  have unbroken := Finset.disjoint_left.mp valid.activeUnbroken running
  rw [onPlanner_run, Planner.reset_run, if_pos ⟨running, unfinished, unbroken⟩]
  exact ⟨_, rfl⟩

theorem setFinished_accepts : ∃ after, (onPlanner (Planner.setFinished name)).run plan = .ok () after := by
  have unbroken := Finset.disjoint_left.mp valid.activeUnbroken running
  rw [onPlanner_run, Planner.setFinished_run, if_pos ⟨running, unbroken⟩]
  exact ⟨_, rfl⟩

theorem setFailed_accepts : ∃ after, (onPlanner (Planner.setFailed name)).run plan = .ok () after := by
  have unfinished := Finset.disjoint_left.mp valid.activeUnfinished running
  rw [onPlanner_run, Planner.setFailed_run, if_pos ⟨running, unfinished⟩]
  exact ⟨_, rfl⟩

theorem failureTransition_accepts (known : (plan.attributes.get? name).isSome = true) :
    ∃ after, (failureTransition name).run plan = .ok () after := by
  obtain ⟨attributes, known⟩ := Option.isSome_iff_exists.mp known
  simp only [failureTransition, EStateM.run_bind, EStateM.run_get]
  split
  · exact setFailed_accepts valid running
  · simp only [EStateM.run_bind, attributesOf_run, known]
    split
    · exact reset_accepts valid running
    · split
      · exact setFinished_accepts valid running
      · exact setFailed_accepts valid running

theorem successTransition_accepts (known : (plan.attributes.get? name).isSome = true) :
    ∃ after, (successTransition name).run plan = .ok () after := by
  obtain ⟨attributes, known⟩ := Option.isSome_iff_exists.mp known
  simp only [successTransition, EStateM.run_bind, EStateM.run_get]
  split
  · exact setFailed_accepts valid running
  · simp only [EStateM.run_bind, attributesOf_run, known]
    split
    · exact setFinished_accepts valid running
    · exact reset_accepts valid running

theorem lostTransition_accepts : ∃ after, (lostTransition name).run plan = .ok () after := by
  simp only [lostTransition, EStateM.run_bind, EStateM.run_get]
  split
  · exact setFailed_accepts valid running
  · exact reset_accepts valid running

theorem ending_accepts (known : (plan.attributes.get? name).isSome = true) (state : ProcessState) :
    ∃ after, (perform (Core.ending name state)).run plan = .ok () after := by
  have counted : ∀ changed : TaskPlanner, changed.planner = plan.planner → changed.attributes = plan.attributes →
      changed.planner.Valid ∧ name ∈ changed.planner.running ∧ (changed.attributes.get? name).isSome = true := by
    intro changed planner attributes
    rw [planner, attributes]
    exact ⟨valid, running, known⟩
  unfold Core.ending
  split
  · obtain ⟨valid, running, known⟩ := counted { plan with
        lastTerminal := plan.lastTerminal.set name 0, successes := increment plan.successes name } rfl rfl
    exact successTransition_accepts valid running known
  · obtain ⟨valid, running, known⟩ := counted { plan with
        lastTerminal := plan.lastTerminal.set name 0, failures := increment plan.failures name } rfl rfl
    exact failureTransition_accepts valid running known
  · obtain ⟨valid, running, _⟩ := counted { plan with
        lastTerminal := plan.lastTerminal.set name 0, losses := increment plan.losses name } rfl rfl
    exact lostTransition_accepts valid running

end Ends

end TaskPlanner

theorem ProcessRun.isTerminal_iff (run : ProcessRun) :
    run.isTerminal = true ↔ ∃ state, run.state = some state ∧ Core.Ends state := by
  unfold isTerminal Core.Ends
  cases run.state with
  | none => simp
  | some state => simp [or_assoc]

namespace Core

variable {config : RunnerConfig} {core after : Core} {name : Name}

/-- How the last run of a process and the plans go together. -/
inductive Phase (core : Core) (name : Name) : Option ProcessState → Prop
  | waiting {plan : Plan} (startable : (core.planner plan).planner.Startable name) : Phase core name (some .waiting)
  | forked {plan : Plan} (running : name ∈ (core.planner plan).planner.running) : Phase core name (some .forked)
  | running {plan : Plan} (running : name ∈ (core.planner plan).planner.running) : Phase core name (some .running)
  | ended {state : ProcessState} (ends : Ends state) : Phase core name (some state)

structure Lockstep (config : RunnerConfig) (core : Core) : Prop where
  filled : core.state.Filled
  named : ∀ process, (core.state.processes.get? process).isSome = true → process.isSome = true
  headed : core.state.header.isSome = true ∨ core.state.processes.keys = []
  attended : ∀ name, name ∈ core.taskProcesses ↔
    ∃ run, core.state.currentRun (some name) = some run ∧ run.isTerminal = false
  watched : core.watched = core.taskProcesses
  phase : ∀ name run, core.state.currentRun (some name) = some run → Phase core name run.state
  valid : ∀ plan, (core.planner plan).planner.Valid
  known : ∀ plan name, name ∈ (core.planner plan).planner.processes →
    ((core.planner plan).attributes.get? name).isSome = true ∧ (config.processMap.get? name).isSome = true

/-- What keeps a process in its phase. -/
structure Spares (name : Name) (before after : Core) : Prop where
  running : ∀ plan, name ∈ (before.planner plan).planner.running → name ∈ (after.planner plan).planner.running
  startable : ∀ plan, (before.planner plan).planner.Startable name → (after.planner plan).planner.Startable name

theorem Phase.spared {state : Option ProcessState} (phase : Phase core name state) (spares : Spares name core after) :
    Phase after name state := by
  cases phase with
  | waiting startable => exact .waiting (spares.startable _ startable)
  | forked running => exact .forked (spares.running _ running)
  | running running => exact .running (spares.running _ running)
  | ended ends => exact .ended ends

theorem planner_restated (core : Core) (state : RunnerState) (selected : Option Plan) (plan : Plan) :
    Core.planner { core with state, plan := selected } plan = core.planner plan := by
  cases plan <;> rfl

theorem spares_restated (core : Core) (state : RunnerState) (selected : Option Plan) :
    Spares name core { core with state, plan := selected } where
  running := by
    intro plan running
    rwa [planner_restated]
  startable := by
    intro plan startable
    rwa [planner_restated]

theorem Spares.trans {middle : Core} (first : Spares name core middle) (second : Spares name middle after) :
    Spares name core after where
  running := fun plan running => second.running plan (first.running plan running)
  startable := fun plan startable => second.startable plan (first.startable plan startable)

theorem Handles.spares {update : ProcessStatus} (handles : Handles config update core after)
    (different : update.process ≠ some name) : Spares name core after := by
  constructor
  · intro plan running
    rcases handles.planner_cases plan with same | ⟨_, moved, named, change⟩
    · rwa [same]
    · refine change.running_kept ?_ running
      rintro rfl
      exact different named
  · intro plan startable
    rcases handles.planner_cases plan with same | ⟨_, moved, named, change⟩
    · rwa [same]
    · refine change.startable_kept ?_ startable
      rintro rfl
      exact different named

theorem Handles.sameTask {update : ProcessStatus} (handles : Handles config update core after) (plan : Plan) :
    (after.planner plan).attributes = (core.planner plan).attributes ∧
      (after.planner plan).planner.processes = (core.planner plan).planner.processes := by
  have moved : ∀ {operation : TaskPlanner.Operation} {selected : Plan} {planner : TaskPlanner} {base : Core},
      (∀ plan, base.planner plan = core.planner plan) →
      (TaskPlanner.perform operation).run (core.planner selected) = .ok () planner →
      ((base.withPlanner selected planner.timeless).planner plan).attributes = (core.planner plan).attributes ∧
        ((base.withPlanner selected planner.timeless).planner plan).planner.processes =
          (core.planner plan).planner.processes := by
    intro operation selected planner base same ran
    obtain ⟨task, change⟩ := TaskPlanner.perform_stepped ran
    by_cases own : plan = selected
    · subst own
      rw [planner_withPlanner]
      exact ⟨task.attributes, change.schedule_kept.1⟩
    · rw [planner_withPlanner_ne _ _ own, same]
      exact ⟨rfl, rfl⟩
  cases handles with
  | awaited => cases plan <;> exact ⟨rfl, rfl⟩
  | running named entered attended selected ran => exact moved (fun _ => rfl) ran
  | ended named entered ends attended selected ran =>
    rename_i name state selectedPlan planner
    exact @moved _ selectedPlan planner { core with
      taskProcesses := core.taskProcesses.erase name, watched := core.watched.erase name }
      (fun plan => by cases plan <;> rfl) ran

theorem Handles.valid {update : ProcessStatus} (handles : Handles config update core after) (plan : Plan)
    (valid : (core.planner plan).planner.Valid) : (after.planner plan).planner.Valid := by
  rcases handles.planner_cases plan with same | ⟨_, _, _, change⟩
  · rwa [same]
  · exact valid.change change

section Accepted

variable {record : RunnerCkpt} {update : ProcessStatus} {state : RunnerState}

theorem Ends.not_waiting {next : ProcessState} (ends : Ends next) : next ≠ .waiting := by
  rcases ends with rfl | rfl | rfl | rfl <;> simp

theorem process_ne {own : Name} (named : update.process = some own) (different : name ≠ own) :
    update.process ≠ some name := by
  rw [named]
  intro found
  exact different (Option.some.inj found).symm

theorem Handles.attended_iff (handles : Handles config update core after) (lockstep : core.watched = core.taskProcesses)
    (known : ∀ name, update.process = some name → update.state = some .forked ∨ update.state = some .running →
      name ∈ core.taskProcesses) {next : ProcessState} (entered : update.state = some next) (name : Name) :
    after.watched = after.taskProcesses ∧ (name ∈ after.taskProcesses ↔
      if update.process = some name then ¬ Ends next else name ∈ core.taskProcesses) := by
  cases handles with
  | awaited named waiting =>
    rename_i own _ _ _
    cases entered.symm.trans waiting
    have open_ended : ¬ Ends .waiting := fun ends => ends.not_waiting rfl
    refine ⟨by simp only [lockstep], ?_⟩
    by_cases same : name = own
    · subst same
      simp [named, open_ended]
    · simp [same, process_ne named same]
  | running named moved =>
    have open_ended : ¬ Ends next := by
      rw [entered] at moved
      rintro ends
      rcases ends with rfl | rfl | rfl | rfl <;> rcases moved with moved | moved <;> cases moved
    rw [withPlanner_watched, withPlanner_taskProcesses]
    refine ⟨lockstep, ?_⟩
    split
    · rename_i same
      have member := known name same moved
      simp [member, open_ended]
    · exact Iff.rfl
  | ended named moved ends =>
    rename_i own ended plan planner _ _ _
    cases entered.symm.trans moved
    rw [withPlanner_watched, withPlanner_taskProcesses]
    refine ⟨by simp only [lockstep], ?_⟩
    by_cases same : name = own
    · subst same
      simp [named, ends]
    · simp [same, process_ne named same]

theorem Handles.phase (handles : Handles config update core after) {next : ProcessState}
    (entered : update.state = some next) (named : update.process = some name)
    (launch : next = .waiting → ∃ plan, (core.planner plan).planner.Startable name) :
    Phase after name (some next) := by
  cases handles with
  | awaited _ waiting =>
    rename_i own _ _ _ _
    cases entered.symm.trans waiting
    obtain ⟨plan, startable⟩ := launch rfl
    have kept : (Core.planner { core with
        taskProcesses := insert own core.taskProcesses, watched := insert own core.watched }
        plan).planner.Startable name := by
      cases plan <;> exact startable
    exact .waiting kept
  | running found moved attended selected performed =>
    rename_i own plan planner
    cases named.symm.trans found
    have running : name ∈ ((core.withPlanner plan planner.timeless).planner plan).planner.running := by
      rw [planner_withPlanner]
      have started := TaskPlanner.running_of_setRunning performed
      exact started
    rcases moved with moved | moved
    · cases entered.symm.trans moved
      exact .forked running
    · cases entered.symm.trans moved
      exact .running running
  | ended _ moved ends =>
    cases entered.symm.trans moved
    exact .ended ends

structure Advanced (update : ProcessStatus) (before after : RunnerState) (next : ProcessState) : Prop where
  entered : update.state = some next
  header : after.header = before.header
  known : (after.processes.get? update.process).isSome = true
  others : ∀ other, other ≠ update.process → after.processes.get? other = before.processes.get? other
  current : ∃ run, after.currentRun update.process = some run ∧ run.state = some next
  follows : next ≠ .waiting →
    ∃ run, before.currentRun update.process = some run ∧ MayFollow run.state next

theorem advanced_of_accepted {before after : RunnerState}
    (accepted : Accepted before record (.processTransition update) after) : ∃ next, Advanced update before after next := by
  cases accepted with
  | process plain given numbered entered subject follows carries =>
    rename_i seq next earlier run
    refine ⟨next, entered, rfl, ?_, ?_, ⟨_, RunnerState.currentRun_withRuns _ _ _ _, ProcessRun.advance_state _ _ _ _⟩, ?_⟩
    · simp [RunnerState.withRuns]
    · intro other different
      exact Dict.get?_set_ne _ _ different
    · intro continues
      cases subject with
      | first opens => exact absurd (Option.some.inj (entered.symm.trans opens)) continues
      | again opens => exact absurd (Option.some.inj (entered.symm.trans opens)) continues
      | current _ known => exact ⟨run, RunnerState.currentRun_of_get? known, follows⟩

theorem Advanced.currentRun_ne {before after : RunnerState} {next : ProcessState}
    (advanced : Advanced update before after next) {other : Option Name} (different : other ≠ update.process) :
    after.currentRun other = before.currentRun other := by
  simp only [RunnerState.currentRun, advanced.others other different]

/-- The run of an accepted update goes on just when the state entered does not end it. -/
theorem Advanced.going_iff {before after : RunnerState} {next : ProcessState}
    (advanced : Advanced update before after next) :
    (∃ run, after.currentRun update.process = some run ∧ run.isTerminal = false) ↔ ¬ Ends next := by
  obtain ⟨last, current, stated⟩ := advanced.current
  constructor
  · rintro ⟨run, found, going⟩ ends
    cases current.symm.trans found
    rw [last.isTerminal_iff.mpr ⟨next, stated, ends⟩] at going
    cases going
  · intro going
    refine ⟨last, current, ?_⟩
    rw [Bool.eq_false_iff]
    intro terminal
    obtain ⟨state, found, ends⟩ := last.isTerminal_iff.mp terminal
    cases stated.symm.trans found
    exact going ends

theorem Lockstep.attending (lockstep : Lockstep config core) {next : ProcessState}
    (advanced : Advanced update core.state state next) (found : update.process = some name)
    (moved : update.state = some .forked ∨ update.state = some .running) : name ∈ core.taskProcesses := by
  rw [advanced.entered] at moved
  have continues : next ≠ .waiting := by
    rintro rfl
    rcases moved with moved | moved <;> cases moved
  obtain ⟨run, current, follows⟩ := advanced.follows continues
  rw [found] at current
  refine (lockstep.attended name).mpr ⟨run, current, ?_⟩
  rcases moved with moved | moved <;>
  · cases moved
    simp only [MayFollow, predecessors, List.mem_singleton] at follows
    simp [ProcessRun.isTerminal, follows]

theorem Lockstep.handled (lockstep : Lockstep config core)
    (accepted : Accepted core.state record (.processTransition update) state)
    (headed : core.state.header.isSome = true)
    (launch : update.state = some .waiting → ∃ name plan, update.process = some name ∧
      name ∈ (core.planner plan).planner.runnable)
    (handles : Handles config update { core with state } after) : Lockstep config after := by
  have kept : after.state = state := handles.state
  have named : ∃ name, update.process = some name := by
    cases handles with
    | awaited named => exact ⟨_, named⟩
    | running named => exact ⟨_, named⟩
    | ended named => exact ⟨_, named⟩
  obtain ⟨own, named⟩ := named
  obtain ⟨next, advanced⟩ := advanced_of_accepted accepted
  have launched : next = .waiting → ∃ plan, (Core.planner { core with state } plan).planner.Startable own := by
    rintro rfl
    obtain ⟨name, plan, found, runnable⟩ := launch advanced.entered
    cases named.symm.trans found
    exact ⟨plan, .inr (by rwa [planner_restated])⟩
  have watching := fun name => handles.attended_iff lockstep.watched
    (fun _ found moved => lockstep.attending advanced found moved) advanced.entered name
  have apart : ∀ name, name ≠ own → (some name : Option Name) ≠ update.process :=
    fun _ different => (process_ne named different).symm
  constructor
  · rw [kept]
    exact lockstep.filled.accepted accepted
  · intro process known
    by_cases same : process = update.process
    · rw [same, named]
      rfl
    · rw [kept, advanced.others process same] at known
      exact lockstep.named process known
  · left
    rw [kept, advanced.header]
    exact headed
  · intro name
    rw [(watching name).2, kept]
    by_cases same : name = own
    · subst same
      rw [if_pos named, ← named, advanced.going_iff]
    · have different := apart name same
      rw [if_neg different.symm, lockstep.attended, advanced.currentRun_ne different]
  · exact (watching own).1
  · intro name run found
    rw [kept] at found
    by_cases same : name = own
    · subst same
      obtain ⟨last, current, stated⟩ := advanced.current
      rw [named, found] at current
      cases current
      rw [stated]
      exact handles.phase advanced.entered named launched
    · have different := apart name same
      rw [advanced.currentRun_ne different] at found
      exact (lockstep.phase name run found).spared
        ((spares_restated core state core.plan).trans (handles.spares different.symm))
  · intro plan
    exact handles.valid plan (by rw [planner_restated]; exact lockstep.valid plan)
  · intro plan name planned
    obtain ⟨attributes, processes⟩ := handles.sameTask plan
    rw [processes, planner_restated] at planned
    rw [attributes, planner_restated]
    exact lockstep.known plan name planned

end Accepted

section Other

/-- Neither the header nor a task status nor another plan matters to the processes. -/
theorem Lockstep.restated (lockstep : Lockstep config core) (plan : Option Plan) {state : RunnerState}
    (filled : state.Filled) (processes : state.processes = core.state.processes)
    (headed : state.header.isSome = true ∨ state.processes.keys = []) :
    Lockstep config { core with state, plan } := by
  have runs : ∀ process, state.currentRun process = core.state.currentRun process := by
    intro process
    simp only [RunnerState.currentRun, processes]
  constructor
  · exact filled
  · intro process known
    exact lockstep.named process (by rwa [← processes])
  · exact headed
  · intro name
    simp only [runs]
    exact lockstep.attended name
  · exact lockstep.watched
  · intro name run current
    rw [runs] at current
    exact (lockstep.phase name run current).spared (spares_restated core state plan)
  · intro plan'
    rw [planner_restated]
    exact lockstep.valid plan'
  · intro plan' name planned
    rw [planner_restated] at planned ⊢
    exact lockstep.known plan' name planned

/-- A sequence number left behind by a refused update does no harm to the plans. -/
theorem Lockstep.renumbered (lockstep : Lockstep config core) {record : RunnerCkpt} {state : RunnerState}
    (copied : CheckpointDispatcher.SequenceCopied core.state record state) :
    Lockstep config { core with state } := by
  obtain ⟨update, earlier, run, _, _, known, _, _, rfl⟩ := copied
  have same : ∀ name last, (core.state.withRuns update.process
      (earlier ++ [{ run with seq := run.seq + 1 }])).currentRun (some name) = some last →
      ∃ before, core.state.currentRun (some name) = some before ∧ before.state = last.state := by
    intro name last current
    by_cases own : some name = update.process
    · rw [own, RunnerState.currentRun_withRuns] at current
      cases current
      exact ⟨run, by rw [own, RunnerState.currentRun_of_get? known], rfl⟩
    · rw [RunnerState.currentRun_withRuns_ne _ _ own] at current
      exact ⟨last, current, rfl⟩
  have listed : core.state.processes.keys ≠ [] := by
    intro empty
    have member := Dict.mem_keys_of_get? known
    rw [empty] at member
    exact absurd member List.not_mem_nil
  constructor
  · refine ⟨lockstep.filled.statuses, ?_⟩
    intro process
    simp only [RunnerState.withRuns, Dict.get?_set]
    split
    · simp
    · exact lockstep.filled.processes process
  · intro process given
    simp only [RunnerState.withRuns, Dict.get?_set] at given
    split at given
    · rename_i own
      exact lockstep.named process (by rw [own, known]; rfl)
    · exact lockstep.named process given
  · exact .inl (lockstep.headed.resolve_right listed)
  · intro name
    rw [lockstep.attended name]
    constructor
    · rintro ⟨before, current, going⟩
      by_cases own : some name = update.process
      · rw [own, RunnerState.currentRun_of_get? known] at current
        cases current
        exact ⟨{ run with seq := run.seq + 1 }, by rw [own, RunnerState.currentRun_withRuns], going⟩
      · exact ⟨before, by rwa [RunnerState.currentRun_withRuns_ne _ _ own], going⟩
    · rintro ⟨last, current, going⟩
      obtain ⟨before, found, stated⟩ := same name last current
      exact ⟨before, found, by simpa only [ProcessRun.isTerminal, stated] using going⟩
  · exact lockstep.watched
  · intro name last current
    obtain ⟨before, found, stated⟩ := same name last current
    have phase := lockstep.phase name before found
    rw [stated] at phase
    exact phase.spared (spares_restated core _ core.plan)
  · intro plan
    rw [planner_restated]
    exact lockstep.valid plan
  · intro plan name planned
    rw [planner_restated] at planned ⊢
    exact lockstep.known plan name planned

theorem lockstep_of_init {runner : Runner} (created : Runner.init config = .ok runner) :
    Lockstep config runner.core := by
  simp only [Runner.init, Replay.bind_eq_ok, Replay.pure_eq_ok] at created
  obtain ⟨regular, regularly, finalizing, finally_, rfl⟩ := created
  have listed : ∀ {filter : Process → Bool} {plan : TaskPlanner}, TaskPlanner.Fresh config.task filter plan →
      ∀ name ∈ plan.planner.processes, (plan.attributes.get? name).isSome = true ∧
        (config.processMap.get? name).isSome = true := by
    intro filter plan fresh name planned
    obtain ⟨process, member, _, named, attributes⟩ := fresh.known name planned
    refine ⟨by rw [attributes]; rfl, ?_⟩
    rw [← Dict.mem_keys]
    exact (TaskPlanner.mem_processMap_keys config.task.processes name).mpr ⟨process, member, named⟩
  have regularFresh := (TaskPlanner.fresh_of_init regularly).1
  have finalizingFresh := (TaskPlanner.fresh_of_init finally_).1
  constructor
  · exact ⟨by simp [Runner.core], by simp [Runner.core]⟩
  · intro process known
    simp [Runner.core] at known
  · exact .inr rfl
  · intro name
    constructor
    · intro member
      exact absurd member List.not_mem_nil
    · rintro ⟨run, current, _⟩
      cases current
  · rfl
  · intro name run current
    cases current
  · intro plan
    cases plan
    · exact regularFresh.valid
    · exact finalizingFresh.valid
  · intro plan name planned
    cases plan
    · exact listed regularFresh name planned
    · exact listed finalizingFresh name planned

end Other

end Core

end Aurora.Thermos
