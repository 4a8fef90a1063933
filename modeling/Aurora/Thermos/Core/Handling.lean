import Aurora.Thermos.Core.Dispatches

namespace Aurora.Thermos

open Collections Replay

namespace TaskPlanner

def Operation.retime (timestamp : Time) : Operation → Operation
  | .setRunning process => .setRunning process
  | .addSuccess process _ => .addSuccess process timestamp
  | .addFailure process _ => .addFailure process timestamp
  | .lost process _ => .lost process timestamp
  | .setFailed process => .setFailed process

section Timeless

variable {action : EStateM Error TaskPlanner Unit}

/-- The action does not look at the times of the last terminal states. -/
def Timeless (action : EStateM Error TaskPlanner Unit) : Prop :=
  ∀ plan, action.run plan.timeless = mapState timeless (action.run plan)

theorem timeless_onPlanner (operation : EStateM Error (Planner Name) Unit) : Timeless (onPlanner operation) := by
  intro plan
  rw [onPlanner_run, onPlanner_run, show plan.timeless.planner = plan.planner from rfl]
  cases operation.run plan.planner <;> rfl

theorem timeless_failureTransition (process : Name) : Timeless (failureTransition process) := by
  intro plan
  simp only [failureTransition, EStateM.run_bind, EStateM.run_get]
  rw [show plan.timeless.hasReachedRunLimit process = plan.hasReachedRunLimit process from rfl]
  split
  · exact timeless_onPlanner _ plan
  · simp only [EStateM.run_bind, attributesOf_run]
    rw [show plan.timeless.attributes = plan.attributes from rfl]
    cases plan.attributes.get? process with
    | none => rfl
    | some attributes =>
      simp only [show plan.timeless.failures = plan.failures from rfl]
      split
      · exact timeless_onPlanner _ plan
      · split
        · exact timeless_onPlanner _ plan
        · exact timeless_onPlanner _ plan

theorem timeless_successTransition (process : Name) : Timeless (successTransition process) := by
  intro plan
  simp only [successTransition, EStateM.run_bind, EStateM.run_get]
  rw [show plan.timeless.hasReachedRunLimit process = plan.hasReachedRunLimit process from rfl]
  split
  · exact timeless_onPlanner _ plan
  · simp only [EStateM.run_bind, attributesOf_run]
    rw [show plan.timeless.attributes = plan.attributes from rfl]
    cases plan.attributes.get? process with
    | none => rfl
    | some attributes =>
      simp only
      split
      · exact timeless_onPlanner _ plan
      · exact timeless_onPlanner _ plan

theorem timeless_lostTransition (process : Name) : Timeless (lostTransition process) := by
  intro plan
  simp only [lostTransition, EStateM.run_bind, EStateM.run_get]
  rw [show plan.timeless.hasReachedRunLimit process = plan.hasReachedRunLimit process from rfl]
  split
  · exact timeless_onPlanner _ plan
  · exact timeless_onPlanner _ plan

/-- Operations at different times differ in the times that they record and in nothing else. -/
theorem perform_timeless (operation : Operation) (timestamp : Time) (plan : TaskPlanner) :
    mapState timeless ((perform (operation.retime timestamp)).run plan.timeless) =
      mapState timeless ((perform operation).run plan) := by
  have twice : ∀ result : EStateM.Result Error TaskPlanner Unit,
      mapState timeless (mapState timeless result) = mapState timeless result := by
    intro result
    cases result <;> rfl
  have counted : ∀ {action : EStateM Error TaskPlanner Unit}, Timeless action → ∀ left right : TaskPlanner,
      left.timeless = right.timeless → mapState timeless (action.run left) = mapState timeless (action.run right) := by
    intro action timeless left right same
    rw [← timeless left, ← timeless right, same]
  cases operation with
  | setRunning process => exact (congrArg _ (timeless_onPlanner _ plan)).trans (twice _)
  | setFailed process => exact (congrArg _ (timeless_onPlanner _ plan)).trans (twice _)
  | addSuccess process _ => exact counted (timeless_successTransition process) _ _ rfl
  | addFailure process _ => exact counted (timeless_failureTransition process) _ _ rfl
  | lost process _ => exact counted (timeless_lostTransition process) _ _ rfl

end Timeless

end TaskPlanner

namespace Core

open TaskPlanner

def planner (core : Core) : Plan → TaskPlanner
  | .regular => core.regularPlan
  | .finalizing => core.finalizingPlan

def withPlanner (core : Core) (plan : Plan) (planner : TaskPlanner) : Core :=
  match plan with
  | .regular => { core with regularPlan := planner }
  | .finalizing => { core with finalizingPlan := planner }

@[simp] theorem withPlanner_state (core : Core) (plan : Plan) (planner : TaskPlanner) :
    (core.withPlanner plan planner).state = core.state := by
  cases plan <;> rfl

@[simp] theorem withPlanner_plan (core : Core) (plan : Plan) (planner : TaskPlanner) :
    (core.withPlanner plan planner).plan = core.plan := by
  cases plan <;> rfl

@[simp] theorem withPlanner_taskProcesses (core : Core) (plan : Plan) (planner : TaskPlanner) :
    (core.withPlanner plan planner).taskProcesses = core.taskProcesses := by
  cases plan <;> rfl

@[simp] theorem withPlanner_watched (core : Core) (plan : Plan) (planner : TaskPlanner) :
    (core.withPlanner plan planner).watched = core.watched := by
  cases plan <;> rfl

/-- An operation on the selected plan, unless it raises. -/
def onPlan (core : Core) (operation : Operation) : Option Core :=
  match core.plan with
  | none => none
  | some plan =>
    match (perform (operation.retime 0)).run (core.planner plan) with
    | .ok _ planner => some (core.withPlanner plan planner.timeless)
    | .error _ _ => none

def dismiss (core : Core) (name : Name) : Option Core :=
  if name ∈ core.taskProcesses ∧ name ∈ core.watched then
    some { core with taskProcesses := core.taskProcesses.erase name, watched := core.watched.erase name }
  else none

def await (config : RunnerConfig) (core : Core) (name : Name) : Option Core :=
  if (core.state.processes.get? (some name)).isSome = true ∧ (config.processMap.get? name).isSome = true ∧
      name ∉ core.watched then
    some { core with taskProcesses := insert name core.taskProcesses, watched := insert name core.watched }
  else none

/-- What a process handler makes of the rebuildable part of a runner, or nothing if it raises. -/
def handle (config : RunnerConfig) (update : ProcessStatus) (core : Core) : Option Core :=
  match update.process, update.seq, update.state with
  | some name, some _, some state =>
    match state with
    | .waiting => core.await config name
    | .forked => if name ∈ core.taskProcesses then core.onPlan (.setRunning name) else none
    | .running => core.onPlan (.setRunning name)
    | .success => (core.dismiss name).bind fun core => core.onPlan (.addSuccess name 0)
    | .failed => (core.dismiss name).bind fun core => core.onPlan (.addFailure name 0)
    | .killed | .lost => (core.dismiss name).bind fun core => core.onPlan (.lost name 0)
    | .unknown _ => none
  | _, _, _ => none

/-- The states in which a run of a process ends. -/
def Ends (state : ProcessState) : Prop := state = .success ∨ state = .failed ∨ state = .killed ∨ state = .lost

def ending (name : Name) : ProcessState → Operation
  | .success => .addSuccess name 0
  | .failed => .addFailure name 0
  | _ => .lost name 0

inductive Handles (config : RunnerConfig) (update : ProcessStatus) (core : Core) : Core → Prop
  | awaited {name : Name} (named : update.process = some name) (entered : update.state = some .waiting)
      (known : (core.state.processes.get? (some name)).isSome = true)
      (listed : (config.processMap.get? name).isSome = true) (fresh : name ∉ core.watched) :
      Handles config update core { core with
        taskProcesses := insert name core.taskProcesses, watched := insert name core.watched }
  | running {name : Name} {plan : Plan} {planner : TaskPlanner} (named : update.process = some name)
      (entered : update.state = some .forked ∨ update.state = some .running)
      (attended : update.state = some .forked → name ∈ core.taskProcesses) (selected : core.plan = some plan)
      (ran : (perform (.setRunning name)).run (core.planner plan) = .ok () planner) :
      Handles config update core (core.withPlanner plan planner.timeless)
  | ended {name : Name} {state : ProcessState} {plan : Plan} {planner : TaskPlanner}
      (named : update.process = some name) (entered : update.state = some state) (ends : Ends state)
      (attended : name ∈ core.taskProcesses ∧ name ∈ core.watched) (selected : core.plan = some plan)
      (ran : (perform (ending name state)).run (core.planner plan) = .ok () planner) :
      Handles config update core (withPlanner { core with
        taskProcesses := core.taskProcesses.erase name, watched := core.watched.erase name } plan planner.timeless)

theorem onPlan_eq_some {core after : Core} {operation : Operation} :
    core.onPlan operation = some after ↔ ∃ plan planner, core.plan = some plan ∧
      (perform (operation.retime 0)).run (core.planner plan) = .ok () planner ∧
        after = core.withPlanner plan planner.timeless := by
  unfold onPlan
  cases core.plan with
  | none => simp
  | some plan =>
    cases ran : (perform (operation.retime 0)).run (core.planner plan) with
    | ok value planner => simp [ran, eq_comm]
    | error e planner => simp [ran]

theorem dismiss_onPlan_eq_some {core after : Core} {name : Name} {operation : Operation} :
    ((core.dismiss name).bind fun core => core.onPlan operation) = some after ↔
      (name ∈ core.taskProcesses ∧ name ∈ core.watched) ∧ ∃ plan planner, core.plan = some plan ∧
        (perform (operation.retime 0)).run (core.planner plan) = .ok () planner ∧
          after = withPlanner { core with
            taskProcesses := core.taskProcesses.erase name, watched := core.watched.erase name }
            plan planner.timeless := by
  unfold dismiss
  by_cases attended : name ∈ core.taskProcesses ∧ name ∈ core.watched
  · rw [if_pos attended, Option.bind_some, onPlan_eq_some]
    constructor
    · rintro ⟨plan, planner, selected, ran, rfl⟩
      refine ⟨attended, plan, planner, selected, ?_, rfl⟩
      cases plan <;> exact ran
    · rintro ⟨_, plan, planner, selected, ran, rfl⟩
      refine ⟨plan, planner, selected, ?_, rfl⟩
      cases plan <;> exact ran
  · simp [attended]

theorem Handles.state {config : RunnerConfig} {update : ProcessStatus} {core after : Core}
    (handles : Handles config update core after) : after.state = core.state := by
  cases handles with
  | awaited => rfl
  | running => rw [withPlanner_state]
  | ended => rw [withPlanner_state]

theorem Handles.plan {config : RunnerConfig} {update : ProcessStatus} {core after : Core}
    (handles : Handles config update core after) : after.plan = core.plan := by
  cases handles with
  | awaited => rfl
  | running => rw [withPlanner_plan]
  | ended => rw [withPlanner_plan]

theorem handles_of_handle {config : RunnerConfig} {update : ProcessStatus} {core after : Core}
    (handled : core.handle config update = some after) : Handles config update core after := by
  have ended : ∀ {name : Name} {state : ProcessState}, update.process = some name → update.state = some state →
      Ends state → ((core.dismiss name).bind fun core => core.onPlan (ending name state)) = some after →
        Handles config update core after := by
    intro name state named entered ends handled
    obtain ⟨attended, plan, planner, selected, ran, rfl⟩ := dismiss_onPlan_eq_some.mp handled
    refine .ended named entered ends attended selected ?_
    rcases ends with rfl | rfl | rfl | rfl <;> exact ran
  unfold handle at handled
  cases named : update.process with
  | none => simp [named] at handled
  | some name =>
    cases numbered : update.seq with
    | none => simp [named, numbered] at handled
    | some seq =>
      cases entered : update.state with
      | none => simp [named, numbered, entered] at handled
      | some state =>
        simp only [named, numbered, entered] at handled
        cases state with
        | waiting =>
          simp only [await] at handled
          split_ifs at handled with met
          cases handled
          exact .awaited named entered met.1 met.2.1 met.2.2
        | forked =>
          simp only at handled
          split_ifs at handled with attended
          obtain ⟨plan, planner, selected, ran, rfl⟩ := onPlan_eq_some.mp handled
          exact .running named (.inl entered) (fun _ => attended) selected ran
        | running =>
          obtain ⟨plan, planner, selected, ran, rfl⟩ := onPlan_eq_some.mp handled
          exact .running named (.inr entered) (fun forked => by simp [entered] at forked) selected ran
        | success => exact ended named entered (.inl rfl) handled
        | failed => exact ended named entered (.inr (.inl rfl)) handled
        | killed => exact ended named entered (.inr (.inr (.inl rfl))) handled
        | lost => exact ended named entered (.inr (.inr (.inr rfl))) handled
        | unknown value => cases handled

theorem handle_of_handles {config : RunnerConfig} {update : ProcessStatus} {core after : Core}
    (numbered : update.seq.isSome = true) (handles : Handles config update core after) :
    core.handle config update = some after := by
  obtain ⟨seq, numbered⟩ := Option.isSome_iff_exists.mp numbered
  unfold handle
  cases handles with
  | awaited named entered known listed fresh =>
    simp only [named, numbered, entered, await]
    rw [if_pos ⟨known, listed, fresh⟩]
  | running named entered attended selected ran =>
    rename_i name plan planner
    have continued : core.onPlan (.setRunning name) = some (core.withPlanner plan planner.timeless) :=
      onPlan_eq_some.mpr ⟨plan, planner, selected, ran, rfl⟩
    rcases entered with entered | entered
    · simp only [named, numbered, entered]
      rw [if_pos (attended entered), continued]
    · simp only [named, numbered, entered, continued]
  | ended named entered ends attended selected ran =>
    rcases ends with rfl | rfl | rfl | rfl <;>
    · simp only [named, numbered, entered]
      exact dismiss_onPlan_eq_some.mpr ⟨attended, _, _, selected, ran, rfl⟩

end Core

namespace Runner

/-- The rebuildable part of what a computation leaves, if it returns. -/
def coreOf : EStateM.Result Error Runner Unit → Option Core
  | .ok _ runner => some runner.core
  | .error _ _ => none

theorem onPlan_run (action : EStateM Error TaskPlanner Unit) (runner : Runner) :
    (onPlan action).run runner =
      match runner.plan with
      | none => .error (.attributeError "NoneType") runner
      | some plan =>
        match action.run (runner.planner plan) with
        | .ok _ planner => .ok () (runner.withPlanner plan planner)
        | .error e planner => .error e (runner.withPlanner plan planner) := rfl

theorem core_planner (runner : Runner) (plan : Plan) : runner.core.planner plan = (runner.planner plan).timeless := by
  cases plan <;> rfl

theorem core_withPlanner (runner : Runner) (plan : Plan) (planner : TaskPlanner) :
    (runner.withPlanner plan planner).core = runner.core.withPlanner plan planner.timeless := by
  cases plan <;> rfl

theorem coreOf_onPlan (operation : TaskPlanner.Operation) (runner : Runner) :
    coreOf ((onPlan (TaskPlanner.perform operation)).run runner) = runner.core.onPlan operation := by
  rw [onPlan_run, Core.onPlan, show runner.core.plan = runner.plan from rfl]
  cases runner.plan with
  | none => rfl
  | some plan =>
    have same := TaskPlanner.perform_timeless operation 0 (runner.planner plan)
    simp only [core_planner]
    cases left : (TaskPlanner.perform (operation.retime 0)).run (runner.planner plan).timeless <;>
      cases right : (TaskPlanner.perform operation).run (runner.planner plan) <;>
      simp only [left, right, mapState_ok, mapState_error, EStateM.Result.ok.injEq, reduceCtorEq] at same
    · simp only [coreOf, core_withPlanner, same.2]
    · rfl

theorem mem_core_taskProcesses (runner : Runner) (name : Name) :
    name ∈ runner.core.taskProcesses ↔ (runner.taskProcesses.get? name).isSome = true := by
  rw [← Dict.mem_keys]
  exact List.mem_toFinset

theorem mem_core_watched (runner : Runner) (name : Name) :
    name ∈ runner.core.watched ↔ (runner.watcher.processes.get? name).isSome = true := by
  rw [← Dict.mem_keys]
  exact List.mem_toFinset

theorem coreOf_bind (action : EStateM Error Runner Unit) (next : EStateM Error Runner Unit)
    (rest : Core → Option Core) (runner : Runner) (first : Option Core)
    (begun : coreOf (action.run runner) = first) (continued : ∀ middle, coreOf (next.run middle) = rest middle.core) :
    coreOf ((action >>= fun _ => next).run runner) = first.bind rest := by
  rw [EStateM.run_bind, ← begun]
  cases action.run runner with
  | ok value middle => exact continued middle
  | error e middle => rfl

end Runner

namespace ProcessMuxer

theorem register_run (name : Name) (watermark : Int) (muxer : ProcessMuxer) :
    (register name watermark).run muxer =
      if (muxer.processes.get? name).isSome = true then
        .error (.processExists ("Process " ++ name ++ " is already registered")) muxer
      else .ok () { muxer with processes := muxer.processes.set name { watermark } } := by
  unfold register
  cases known : muxer.processes.get? name <;> simp [known]

theorem unregister_run (name : Name) (muxer : ProcessMuxer) :
    (unregister name).run muxer =
      if (muxer.processes.get? name).isSome = true then
        .ok () { muxer with processes := muxer.processes.erase name }
      else .error (.processNotFound "No trace of process: %s" name) muxer := by
  unfold unregister
  cases known : muxer.processes.get? name <;> simp [known]

end ProcessMuxer

namespace TaskRunnerProcessHandler

open Runner

theorem onWatcher_run {α : Type} (action : EStateM Error ProcessMuxer α) (runner : Runner) :
    (onWatcher action).run runner =
      match action.run runner.watcher with
      | .ok value watcher => .ok value { runner with watcher }
      | .error e watcher => .error e { runner with watcher } := rfl

theorem dismiss_run (name : Name) (runner : Runner) :
    (dismiss name).run runner =
      if (runner.taskProcesses.get? name).isSome = true then
        if (runner.watcher.processes.get? name).isSome = true then
          .ok () { runner with
            taskProcesses := runner.taskProcesses.erase name
            watcher := { processes := runner.watcher.processes.erase name } }
        else .error (.processNotFound "No trace of process: %s" name)
          { runner with taskProcesses := runner.taskProcesses.erase name }
      else .error (.keyError name) runner := by
  unfold dismiss
  simp only [EStateM.run_bind, EStateM.run_get]
  cases known : runner.taskProcesses.get? name with
  | none => rfl
  | some process =>
    have removed : (modify fun runner : Runner => { runner with taskProcesses := runner.taskProcesses.erase name } :
        EStateM Error Runner Unit).run runner =
        .ok () { runner with taskProcesses := runner.taskProcesses.erase name } := rfl
    simp only [Option.isNone_some, Option.isSome_some, Bool.false_eq_true, if_true, if_false, EStateM.run_bind,
      removed, onWatcher_run, ProcessMuxer.unregister_run]
    cases watched : runner.watcher.processes.get? name <;> rfl

theorem coreOf_dismiss (name : Name) (runner : Runner) :
    coreOf ((dismiss name).run runner) = runner.core.dismiss name := by
  rw [dismiss_run]
  unfold Core.dismiss
  simp only [mem_core_taskProcesses, mem_core_watched]
  by_cases known : (runner.taskProcesses.get? name).isSome = true
  · by_cases watched : (runner.watcher.processes.get? name).isSome = true
    · simp only [known, watched, if_true, and_self, coreOf, core, Dict.toFinset_keys_erase]
    · simp only [known, watched, if_true, coreOf]
      rfl
  · simp only [known, coreOf]
    rfl

theorem onWaiting_run (config : RunnerConfig) (name : Name) (seq : Int) (runner : Runner) :
    (onWaiting config name seq).run runner =
      match runner.state.processes.get? (some name) with
      | none => .error (.keyError name) runner
      | some runs =>
        if (config.processMap.get? name).isSome = true then
          let process : TaskProcess := { seq := seq + 1, run := runs.length - 1 }
          let created := { runner with taskProcesses := runner.taskProcesses.set name process }
          if (runner.watcher.processes.get? name).isSome = true then
            .error (.processExists ("Process " ++ name ++ " is already registered")) created
          else .ok () { created with
            watcher := { processes := runner.watcher.processes.set name { watermark := seq - 1 } } }
        else .error (.internalError ("FATAL: Could not find process: " ++ name)) runner := by
  unfold onWaiting taskProcessFromProcessName
  simp only [EStateM.run_bind, EStateM.run_get]
  cases runner.state.processes.get? (some name) with
  | none => rfl
  | some runs =>
    cases config.processMap.get? name with
    | none => rfl
    | some process =>
      simp only [Option.isNone_some, Option.isSome_some, Bool.false_eq_true, if_true, if_false, EStateM.run_pure,
        EStateM.run_modify, onWatcher_run, ProcessMuxer.register_run]
      cases watched : runner.watcher.processes.get? name <;> rfl

theorem coreOf_onWaiting (config : RunnerConfig) (name : Name) (seq : Int) (runner : Runner) :
    coreOf ((onWaiting config name seq).run runner) = runner.core.await config name := by
  rw [onWaiting_run]
  unfold Core.await
  simp only [mem_core_watched, show runner.core.state = runner.state from rfl]
  cases runner.state.processes.get? (some name) with
  | none => simp [coreOf]
  | some runs =>
    by_cases listed : (config.processMap.get? name).isSome = true
    · by_cases watched : (runner.watcher.processes.get? name).isSome = true
      · simp [listed, watched, coreOf]
      · simp [listed, watched, coreOf, core, Dict.toFinset_keys_set]
    · simp [listed, coreOf]

theorem onForked_run (name : Name) (update : ProcessStatus) (runner : Runner) :
    (onForked name update).run runner =
      match runner.taskProcesses.get? name with
      | none => .error (.keyError name) runner
      | some process =>
        let rebound := { process with pid := update.coordinatorPid, forkTime := update.forkTime }
        (onPlan (TaskPlanner.perform (.setRunning name))).run
          { runner with taskProcesses := runner.taskProcesses.set name rebound } := by
  unfold onForked
  simp only [EStateM.run_bind, EStateM.run_get]
  cases runner.taskProcesses.get? name <;> rfl

theorem coreOf_onForked (name : Name) (update : ProcessStatus) (runner : Runner) :
    coreOf ((onForked name update).run runner) =
      if name ∈ runner.core.taskProcesses then runner.core.onPlan (.setRunning name) else none := by
  rw [onForked_run]
  simp only [mem_core_taskProcesses]
  cases known : runner.taskProcesses.get? name with
  | none => rfl
  | some process =>
    simp only [Option.isSome_some, if_true, coreOf_onPlan]
    have listed : name ∈ runner.taskProcesses.keys.toFinset := List.mem_toFinset.mpr (Dict.mem_keys_of_get? known)
    simp only [core, Dict.toFinset_keys_set, Finset.insert_eq_of_mem listed]

/-- The process handlers do to the rebuildable part of a runner what `Core.handle` says, whatever the
    clock shows and wherever the readers stand. -/
theorem coreOf_onTransition (config : RunnerConfig) (now : Time) (update : ProcessStatus) (runner : Runner) :
    coreOf ((onTransition config now update).run runner) = runner.core.handle config update := by
  have dismissed : ∀ (name : Name) (operation : TaskPlanner.Operation),
      coreOf ((do dismiss name; onPlan (TaskPlanner.perform operation)).run runner) =
        (runner.core.dismiss name).bind fun core => core.onPlan operation := by
    intro name operation
    exact coreOf_bind _ _ _ runner _ (coreOf_dismiss name runner) (coreOf_onPlan operation)
  unfold onTransition Core.handle
  cases update.process with
  | none => rfl
  | some name =>
    cases update.seq with
    | none => rfl
    | some seq =>
      cases update.state with
      | none => rfl
      | some state =>
        cases state with
        | waiting => exact coreOf_onWaiting config name seq runner
        | forked => exact coreOf_onForked name update runner
        | running => exact coreOf_onPlan (.setRunning name) runner
        | success => exact dismissed name (.addSuccess name now)
        | failed => exact dismissed name (.addFailure name now)
        | killed => exact dismissed name (.lost name now)
        | lost => exact dismissed name (.lost name now)
        | unknown value => rfl

end TaskRunnerProcessHandler

end Aurora.Thermos
