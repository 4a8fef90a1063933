import Aurora.Thermos.Core.Handling
import Aurora.Thermos.Core.Kills

namespace Aurora.Thermos

open Collections Guarantee Relation TaskRunnerHelper

namespace Planner

variable {α : Type} [DecidableEq α] {process other : α} {before after : Planner α}

theorem Change.runnable_kept (change : Change process before after) (different : other ≠ process)
    (runnable : other ∈ before.runnable) : other ∈ after.runnable := by
  rw [mem_runnable] at runnable ⊢
  obtain ⟨planned, idle, unfinished, unbroken, ready⟩ := runnable
  cases change with
  | started => exact ⟨planned, by simp [different, idle], unfinished, unbroken, ready⟩
  | reset => exact ⟨planned, by simp [idle], unfinished, unbroken, ready⟩
  | finished =>
    exact ⟨planned, by simp [idle], by simp [different, unfinished], unbroken,
      ready.trans (Finset.subset_insert process before.finished)⟩
  | failed => exact ⟨planned, by simp [idle], unfinished, by simp [different, unbroken], ready⟩

end Planner

namespace Core

variable {config : RunnerConfig} {update : ProcessStatus} {core after : Core} {name : Name}

@[simp] theorem planner_withPlanner (core : Core) (plan : Plan) (planner : TaskPlanner) :
    (core.withPlanner plan planner).planner plan = planner := by
  cases plan <;> rfl

theorem planner_withPlanner_ne (core : Core) {plan other : Plan} (planner : TaskPlanner) (different : other ≠ plan) :
    (core.withPlanner plan planner).planner other = core.planner other := by
  cases plan <;> cases other <;> first | rfl | exact absurd rfl different

theorem ending_process (name : Name) (state : ProcessState) : (ending name state).process = name := by
  cases state <;> rfl

theorem Handles.planner_cases (handles : Handles config update core after) (plan : Plan) :
    (after.planner plan).planner = (core.planner plan).planner ∨
      update.state ≠ some .waiting ∧ ∃ name, update.process = some name ∧
        Planner.Change name (core.planner plan).planner (after.planner plan).planner := by
  have moved : ∀ {name : Name} {operation : TaskPlanner.Operation} {selected : Plan} {planner : TaskPlanner}
      {base : Core}, (∀ plan, base.planner plan = core.planner plan) → operation.process = name →
      (TaskPlanner.perform operation).run (core.planner selected) = .ok () planner →
      ((base.withPlanner selected planner.timeless).planner plan).planner = (core.planner plan).planner ∨
        Planner.Change name (core.planner plan).planner
          ((base.withPlanner selected planner.timeless).planner plan).planner := by
    rintro name operation selected planner base same rfl ran
    by_cases own : plan = selected
    · subst own
      right
      rw [planner_withPlanner]
      exact (TaskPlanner.perform_stepped ran).2
    · left
      rw [planner_withPlanner_ne _ _ own, same]
  cases handles with
  | awaited => exact .inl (by cases plan <;> rfl)
  | running named entered attended selected ran =>
    rename_i name selectedPlan planner
    rcases @moved name (.setRunning name) selectedPlan planner core (fun _ => rfl) rfl ran with same | change
    · exact .inl same
    · refine .inr ⟨?_, _, named, change⟩
      rcases entered with entered | entered <;> simp [entered]
  | ended named entered ends attended selected ran =>
    rename_i name state selectedPlan planner
    rcases @moved name _ selectedPlan planner { core with
        taskProcesses := core.taskProcesses.erase name, watched := core.watched.erase name }
        (fun plan => by cases plan <;> rfl) (ending_process name state) ran with same | change
    · exact .inl same
    · refine .inr ⟨?_, _, named, change⟩
      rcases ends with rfl | rfl | rfl | rfl <;> simp [entered]

theorem Handles.runnable_kept (handles : Handles config update core after) {plan : Plan}
    (different : update.process ≠ some name ∨ update.state = some .waiting)
    (runnable : name ∈ (core.planner plan).planner.runnable) : name ∈ (after.planner plan).planner.runnable := by
  rcases handles.planner_cases plan with same | ⟨continues, moved, named, change⟩
  · rwa [same]
  · rcases different with different | waiting
    · have apart : name ≠ moved := by
        rintro rfl
        exact different named
      exact change.runnable_kept apart runnable
    · exact absurd waiting continues

end Core

namespace TaskRunner

variable {config : RunnerConfig} {kills : Prop} {world : World}

theorem Handled.handles {before after : Runner} {update : ProcessStatus} (handled : Handled config before update after) :
    ∃ state, Accepted before.state { processStatus := some update } (.processTransition update) state ∧
      after.state = state ∧ Core.Handles config update { before.core with state } after.core := by
  obtain ⟨state, now, accepted, ran⟩ := handled
  have kept := TaskRunnerProcessHandler.keeps_onTransition config now update { before with state }
  have same := TaskRunnerProcessHandler.coreOf_onTransition config now update { before with state }
  rw [ran] at kept same
  exact ⟨state, accepted, kept.state, Core.handles_of_handle same.symm⟩

/-- Whatever a plan could launch before, apart from some process, it still can. -/
def StaysRunnable (spared : Name → Prop) (before after : World) : Prop :=
  ∀ plan name, spared name → name ∈ (before.runner.planner plan).planner.runnable →
    name ∈ (after.runner.planner plan).planner.runnable

theorem StaysRunnable.weaken {spared fewer : Name → Prop} {before after : World}
    (stays : StaysRunnable spared before after) (within : ∀ name, fewer name → spared name) :
    StaysRunnable fewer before after :=
  fun plan name kept runnable => stays plan name (within name kept) runnable

theorem staysRunnable_of_calm {spared : Name → Prop} {after : World} (calm : Calm world after) :
    StaysRunnable spared world after := by
  intro plan name _ runnable
  rwa [calm.planner plan]

theorem planner_core (runner : Runner) (plan : Plan) :
    (runner.core.planner plan).planner = (runner.planner plan).planner := by
  cases plan <;> rfl

theorem Recorded.staysRunnable {update : ProcessStatus} {after : World} (recorded : Recorded config world update after) :
    StaysRunnable (fun name => update.process ≠ some name ∨ update.state = some .waiting) world after := by
  obtain ⟨middle, calm, handled⟩ := recorded
  obtain ⟨state, accepted, _, handles⟩ := handled.handles
  intro plan name different runnable
  rw [← calm.planner plan] at runnable
  have before : name ∈ (Core.planner { middle.runner.core with state } plan).planner.runnable := by
    cases plan <;> exact runnable
  have after := handles.runnable_kept different before
  rwa [planner_core] at after

section Launch

theorem does_markLost (names : List Name) (live : world.runner.recovery = false)
    (headed : world.runner.state.header.isSome = true) :
    Does config kills (markLost config names) world (fun _ after => Frame world after) := by
  induction names generalizing world with
  | nil => exact Within.pure (Frame.refl world)
  | cons name rest ih =>
    refine Within.bind (reads_isProcessLost name config kills world) ?_
    intro lost middle _ calm
    have onward : ∀ {before : World}, Frame middle before →
        Does config kills (markLost config rest) before (fun _ after => Frame world after) := by
      intro before frame
      refine (ih ?_ ?_).weaken fun _ _ _ further => (calm.frame.trans frame).trans further
      · rw [frame.recovery, calm.recovery, live]
      · rwa [frame.header, calm.state]
    cases lost with
    | false => exact onward (Frame.refl middle)
    | true =>
      have continues : ProcessState.lost = .waiting → ∃ found plan, some name = some found ∧
          found ∈ (middle.runner.planner plan).planner.runnable := by
        intro absurd
        cases absurd
      refine Within.bind (does_setProcessStatus (calm.recovery.trans live) (by rwa [calm.state])
        (.lost (some name)) continues) ?_
      rintro _ marked _ ⟨frame, _⟩
      exact onward frame

/-- A process is ready to be started: its last run waits, and there is an object for it. -/
def Prepared (name : Name) (world : World) : Prop :=
  (∃ run, world.runner.state.currentRun (some name) = some run ∧ run.state = some .waiting) ∧
    (world.runner.taskProcesses.get? name).isSome = true

theorem does_prepareProcess (name : Name) (live : world.runner.recovery = false)
    (headed : world.runner.state.header.isSome = true)
    (runnable : ∃ plan, name ∈ (world.runner.planner plan).planner.runnable) :
    Does config kills (prepareProcess config name) world (fun _ after => Frame world after ∧
      Prepared name after ∧ StaysRunnable (fun _ => True) world after) := by
  unfold prepareProcess
  refine Does.getRunner ?_
  cases known : world.runner.taskProcesses.get? name with
  | some process =>
    refine does_currentProcessRun ?_
    cases current : world.runner.state.currentRun (some name) with
    | none => exact Within.throw
    | some run =>
      refine does_assertThat fun waiting => ?_
      exact Within.pure ⟨Frame.refl world, ⟨⟨run, current, waiting⟩, by rw [known]; rfl⟩,
        staysRunnable_of_calm (Calm.refl world)⟩
  | none =>
    obtain ⟨plan, member⟩ := runnable
    refine Within.bind (does_setProcessStatus live headed (.waiting name) fun _ => ⟨name, plan, rfl, member⟩) ?_
    rintro _ after _ ⟨frame, update, named, entered, recorded⟩
    refine Does.getRunner ?_
    cases found : after.runner.taskProcesses.get? name with
    | none => exact Within.throw
    | some process =>
      obtain ⟨run, current, opened⟩ := recorded.updated.own
      rw [named] at current
      exact Within.pure ⟨frame, ⟨⟨run, current, opened.trans entered⟩, by rw [found]; rfl⟩,
        recorded.staysRunnable.weaken fun _ _ => .inr entered⟩

theorem does_startProcess (name : Name) (process : TaskProcess) (underway : isTerminal world.runner = false)
    (prepared : Prepared name world) :
    Does config kills (startProcess name process) world (fun _ after => Frame world after ∧
      StaysRunnable (fun _ => True) world after) := by
  unfold startProcess
  refine Within.bind (reads_pause config kills world) ?_
  intro _ first _ paused
  refine Within.bind (reads_answer config kills first) ?_
  intro reply middle _ answered
  have calm := paused.trans answered
  cases reply.starts with
  | false => exact Within.pure ⟨calm.frame, staysRunnable_of_calm calm⟩
  | true =>
    obtain ⟨⟨run, current, waiting⟩, attended⟩ := prepared
    rw [← calm.state] at current
    rw [← calm.taskProcesses] at attended
    obtain ⟨runs, known⟩ := RunnerState.get?_of_currentRun current
    have step : Step config kills middle { middle with started := middle.started ++ [(name, runs.length)] } :=
      .start known waiting (calm.isTerminal.trans underway)
    have listed : name ∈ middle.runner.taskProcesses.keys.toFinset := by
      rwa [List.mem_toFinset, Dict.mem_keys]
    have same : ∀ forked, (middle.runner.taskProcesses.set name forked).keys.toFinset =
        middle.runner.taskProcesses.keys.toFinset := by
      intro forked
      rw [Dict.toFinset_keys_set, Finset.insert_eq_of_mem listed]
    refine Within.bind (Within.modified (.tail (.single step) (.quiet ?_)) ?_) fun _ after _ done => Within.pure done
    · constructor
      · simp only [Runner.core, same]
      · rfl
      · rfl
      · rfl
      · simp [known]
      · rfl
    · refine ⟨⟨?_, ?_, calm.recovery, calm.terminalState⟩, ?_⟩
      · exact congrArg RunnerState.header calm.state
      · exact congrArg RunnerState.statuses calm.state
      · intro plan other kept runnable
        rw [← calm.planner plan] at runnable
        cases plan <;> exact runnable

theorem does_launch (plan : Plan) (names : List Name) (launched : Bool) (live : world.runner.recovery = false)
    (headed : world.runner.state.header.isSome = true) (underway : isTerminal world.runner = false)
    (distinct : names.Nodup) (runnable : ∀ name ∈ names, name ∈ (world.runner.planner plan).planner.runnable) :
    Does config kills (launch config launched names) world (fun _ after => Frame world after) := by
  induction names generalizing world launched with
  | nil => exact Within.pure (Frame.refl world)
  | cons name rest ih =>
    obtain ⟨fresh, distinct⟩ := List.nodup_cons.mp distinct
    refine Within.bind (does_prepareProcess name live headed ⟨plan, runnable name List.mem_cons_self⟩) ?_
    rintro process ready _ ⟨frame, prepared, stays⟩
    have going : isTerminal ready.runner = false := frame.isTerminal.trans underway
    refine Within.bind (does_startProcess name process going prepared) ?_
    rintro started running _ ⟨further, stillStays⟩
    have soFar := frame.trans further
    have left : ∀ other ∈ rest, other ∈ (running.runner.planner plan).planner.runnable := fun other member =>
      stillStays plan other trivial (stays plan other trivial (runnable other (List.mem_cons_of_mem name member)))
    have onward : ∀ {after : World} (launched : Bool), Frame world after →
        (∀ other ∈ rest, other ∈ (after.runner.planner plan).planner.runnable) →
        Does config kills (launch config launched rest) after (fun _ last => Frame world last) := by
      intro after launched reached left
      exact (ih launched (reached.recovery.trans live) (by rwa [reached.header])
        (reached.isTerminal.trans underway) distinct left).weaken fun _ _ _ last => reached.trans last
    cases started with
    | true => exact onward true soFar left
    | false =>
      have continues : ProcessState.failed = .waiting → ∃ found plan, some name = some found ∧
          found ∈ (running.runner.planner plan).planner.runnable := by
        intro absurd
        cases absurd
      refine Within.bind (does_setProcessStatus (soFar.recovery.trans live) (by rwa [soFar.header])
        (.failed (some name)) continues) ?_
      rintro _ failed _ ⟨last, update, named, _, recorded⟩
      refine onward launched (soFar.trans last) ?_
      intro other member
      refine recorded.staysRunnable plan other (.inl ?_) (left other member)
      rw [named]
      rintro same
      cases same
      exact fresh member

theorem nodup_listed {ordered : List Name} (once : ordered.Nodup) (names : Finset Name) :
    (ordered ++ (names \ ordered.toFinset).sort (· ≤ ·)).Nodup := by
  apply List.Nodup.append once (Finset.sort_nodup _ _)
  intro name member rest
  have left := (Finset.mem_sort _).mp rest
  exact (Finset.mem_sdiff.mp left).2 (List.mem_toFinset.mpr member)

theorem mem_listed {order : List Name} {names : Finset Name} {name : Name} :
    name ∈ order.dedup.filter (· ∈ names) ++ (names \ (order.dedup.filter (· ∈ names)).toFinset).sort (· ≤ ·) ↔
      name ∈ names := by
  simp only [List.mem_append, List.mem_filter, List.mem_dedup, Finset.mem_sort, Finset.mem_sdiff, List.mem_toFinset,
    decide_eq_true_eq]
  tauto

theorem does_enumerate (names : Finset Name) :
    Does config kills (enumerate names) world (fun listed after => Calm world after ∧ listed.Nodup ∧
      ∀ name ∈ listed, name ∈ names) := by
  unfold enumerate
  refine Within.bind (reads_answer config kills world) ?_
  intro reply after _ calm
  have once : (reply.order.dedup.filter (· ∈ names)).Nodup := (List.nodup_dedup _).filter _
  exact Within.pure ⟨calm, nodup_listed once names, fun _ member => mem_listed.mp member⟩

theorem pickProcesses_sublist (config : RunnerConfig) (running : Nat) (processes : List Name) :
    (pickProcesses config running processes).Sublist processes := by
  unfold pickProcesses
  split
  · exact List.Sublist.refl processes
  · exact List.take_sublist _ processes

theorem does_runPlan (plan : Plan) (live : world.runner.recovery = false)
    (headed : world.runner.state.header.isSome = true) (underway : isTerminal world.runner = false) :
    Does config kills (runPlan config plan) world (fun _ after => Frame world after) := by
  unfold runPlan
  refine Does.getRunner ?_
  refine Within.bind (does_enumerate _) ?_
  rintro running first _ ⟨calm, _⟩
  refine Within.bind (does_markLost running (calm.recovery.trans live) (by rwa [calm.state])) ?_
  intro _ marked _ lost
  have soFar := calm.frame.trans lost
  refine Within.bind (reads_clockTime config kills marked) ?_
  intro now timed _ looked
  refine Does.getRunner ?_
  refine Within.bind (does_enumerate _) ?_
  rintro runnable ready _ ⟨listed, distinct, members⟩
  have here := soFar.trans (looked.trans listed).frame
  have picked := pickProcesses_sublist config (world.runner.planner plan).planner.running.card runnable
  refine (does_launch plan _ false (here.recovery.trans live) (by rwa [here.header])
    (here.isTerminal.trans underway) (distinct.sublist picked) ?_).weaken fun _ _ _ last => here.trans last
  intro name member
  rw [listed.planner plan]
  exact (Finset.mem_filter.mp (members name (picked.subset member))).1

end Launch

end TaskRunner

end Aurora.Thermos
