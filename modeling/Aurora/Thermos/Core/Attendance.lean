import Aurora.Thermos.Core.Rebuild

namespace Aurora.Thermos

open Collections Guarantee Relation Replay

variable {config : RunnerConfig} {name : Name} {before after : Runner} {update : ProcessStatus} {state : RunnerState}

inductive RunsTaken (name : Name) (update : ProcessStatus) (before after : Option (List ProcessRun)) : Prop
  | other (different : update.process ≠ some name) (same : after = before)
  | opened {earlier : List ProcessRun} {run : ProcessRun} (named : update.process = some name)
      (entered : update.state = some .waiting) (known : before.getD [] = earlier)
      (later : ∀ last, earlier.getLast? = some last → last.isTerminal = true ∧ run.seq = last.seq + 1)
      (numbered : update.seq = some run.seq) (waits : run.state = some .waiting)
      (grown : after = some (earlier ++ [run]))
  | moved {earlier : List ProcessRun} {run : ProcessRun} {next : ProcessState} (named : update.process = some name)
      (entered : update.state = some next) (goes : next ≠ .waiting) (known : before = some (earlier ++ [run]))
      (numbered : update.seq = some (run.seq + 1)) (follows : MayFollow run.state next)
      (advanced : after = some (earlier ++ [run.advance update (run.seq + 1) next]))

theorem not_waiting_of_advanced {runs : Option (List ProcessRun)} {earlier others : List ProcessRun}
    {run last : ProcessRun} {seq : Int} {next : ProcessState} (goes : next ≠ .waiting)
    (advanced : runs = some (earlier ++ [run.advance update seq next])) (known : runs = some (others ++ [last])) :
    last.state ≠ some .waiting := by
  cases List.append_inj_right' (Option.some.inj (advanced.symm.trans known)) rfl
  rw [ProcessRun.advance_state]
  exact fun waits => goes (Option.some.inj waits)

theorem runsTaken {record : RunnerCkpt} {changed : RunnerState}
    (accepted : Accepted state record (.processTransition update) changed) (name : Name) :
    RunsTaken name update (state.processes.get? (some name)) (changed.processes.get? (some name)) := by
  cases accepted with
  | process plain given numbered entered subject follows carries =>
    rename_i seq next earlier run
    by_cases named : update.process = some name
    · have grown : (state.withRuns update.process (earlier ++ [run.advance update seq next])).processes.get? (some name) =
          some (earlier ++ [run.advance update seq next]) := by
        simp [RunnerState.withRuns, named]
      cases subject with
      | first opens unknown =>
        cases entered.symm.trans opens
        rw [named] at unknown
        refine .opened named opens ?_ ?_ ?_ ?_ grown
        · rw [unknown]
          rfl
        · intro last found
          cases found
        · simpa using numbered
        · simp
      | again opens known consecutive terminal =>
        rename_i before last
        cases entered.symm.trans opens
        cases numbered.symm.trans consecutive
        rw [named] at known
        refine .opened named opens ?_ ?_ ?_ ?_ grown
        · rw [known]
          rfl
        · intro other found
          rw [List.getLast?_concat] at found
          cases found
          exact ⟨terminal, by simp⟩
        · simpa using consecutive
        · simp
      | current continues known consecutive =>
        cases numbered.symm.trans consecutive
        rw [named] at known
        exact .moved named entered (fun waiting => continues (by rw [entered, waiting])) known consecutive follows grown
    · exact .other named (by simp [RunnerState.withRuns, Dict.get?_set_ne _ _ (Ne.symm named)])

namespace TaskRunnerProcessHandler

open Runner

variable {runner : Runner}

theorem onPlan_attended {operation : TaskPlanner.Operation}
    (ran : (onPlan (TaskPlanner.perform operation)).run runner = .ok () after) :
    after.taskProcesses = runner.taskProcesses ∧ after.watcher = runner.watcher := by
  rw [onPlan_run] at ran
  cases selected : runner.plan with
  | none => simp [selected] at ran
  | some plan =>
    simp only [selected] at ran
    cases performed : (TaskPlanner.perform operation).run (runner.planner plan) with
    | error e planner => simp [performed] at ran
    | ok value planner =>
      simp only [performed, EStateM.Result.ok.injEq, true_and] at ran
      subst ran
      cases plan <;> exact ⟨rfl, rfl⟩

theorem dismissed_attended {operation : TaskPlanner.Operation} {other : Name} (different : name ≠ other)
    (ran : (do dismiss other; onPlan (TaskPlanner.perform operation) : EStateM Error Runner Unit).run runner = .ok () after) :
    after.taskProcesses.get? name = runner.taskProcesses.get? name ∧
      after.watcher.processes.get? name = runner.watcher.processes.get? name := by
  rw [EStateM.run_bind, dismiss_run] at ran
  by_cases known : (runner.taskProcesses.get? other).isSome = true
  · by_cases watched : (runner.watcher.processes.get? other).isSome = true
    · simp only [known, watched, if_true] at ran
      obtain ⟨processes, watcher⟩ := onPlan_attended ran
      rw [processes, watcher]
      exact ⟨by simp [Dict.get?_erase, different], by simp [Dict.get?_erase, different]⟩
    · simp [known, watched] at ran
  · simp [known] at ran

theorem onTransition_other {now : Time} (ran : (onTransition config now update).run runner = .ok () after)
    (different : update.process ≠ some name) :
    after.taskProcesses.get? name = runner.taskProcesses.get? name ∧
      after.watcher.processes.get? name = runner.watcher.processes.get? name := by
  unfold onTransition at ran
  split at ran
  next other seq next named numbered entered =>
    have distinct : name ≠ other := fun same => different (by rw [named, same])
    cases next with
    | waiting =>
      replace ran : (onWaiting config other seq).run runner = .ok () after := ran
      rw [onWaiting_run] at ran
      cases listed : runner.state.processes.get? (some other) with
      | none => simp [listed] at ran
      | some runs =>
        simp only [listed] at ran
        split_ifs at ran
        cases ran
        simp [Dict.get?_set_ne _ _ distinct]
    | forked =>
      replace ran : (onForked other update).run runner = .ok () after := ran
      rw [onForked_run] at ran
      cases known : runner.taskProcesses.get? other with
      | none => simp [known] at ran
      | some process =>
        simp only [known] at ran
        obtain ⟨processes, watcher⟩ := onPlan_attended ran
        rw [processes, watcher]
        simp [Dict.get?_set_ne _ _ distinct]
    | running =>
      obtain ⟨processes, watcher⟩ := @onPlan_attended _ _ (.setRunning other) ran
      rw [processes, watcher]
      exact ⟨rfl, rfl⟩
    | success => exact @dismissed_attended _ _ _ (.addSuccess other now) _ distinct ran
    | failed => exact @dismissed_attended _ _ _ (.addFailure other now) _ distinct ran
    | killed => exact @dismissed_attended _ _ _ (.lost other now) _ distinct ran
    | lost => exact @dismissed_attended _ _ _ (.lost other now) _ distinct ran
    | unknown value => cases ran
  · cases ran

theorem onTransition_opened {now : Time} {seq : Int} {runs : List ProcessRun}
    (ran : (onTransition config now update).run runner = .ok () after) (named : update.process = some name)
    (entered : update.state = some .waiting) (numbered : update.seq = some seq)
    (known : runner.state.processes.get? (some name) = some runs) :
    after.taskProcesses.get? name = some { seq := seq + 1, run := runs.length - 1 } ∧
      after.watcher.processes.get? name = some { watermark := seq - 1 } := by
  have called : (onTransition config now update).run runner = (onWaiting config name seq).run runner := by
    simp only [onTransition, named, entered, numbered]
  rw [called, onWaiting_run, known] at ran
  simp only at ran
  split_ifs at ran
  cases ran
  simp

end TaskRunnerProcessHandler

/-- What a handled update leaves of a process: its runs, its process object and its place in the watcher. -/
structure Attended (name : Name) (update : ProcessStatus) (before after : Runner) : Prop where
  taken : RunsTaken name update (before.state.processes.get? (some name)) (after.state.processes.get? (some name))
  other : update.process ≠ some name → after.taskProcesses.get? name = before.taskProcesses.get? name ∧
    after.watcher.processes.get? name = before.watcher.processes.get? name
  waiting : ∀ seq runs, update.process = some name → update.state = some .waiting → update.seq = some seq →
    after.state.processes.get? (some name) = some runs →
    after.taskProcesses.get? name = some { seq := seq + 1, run := runs.length - 1 } ∧
      after.watcher.processes.get? name = some { watermark := seq - 1 }
  statuses : after.state.statuses = before.state.statuses
  processes : ∀ plan, (after.planner plan).planner.processes = (before.planner plan).planner.processes

theorem TaskRunner.Handled.attended (handled : TaskRunner.Handled config before update after) (name : Name) :
    Attended name update before after := by
  obtain ⟨state, now, accepted, ran⟩ := handled
  have kept := TaskRunnerProcessHandler.keeps_onTransition config now update { before with state }
  rw [ran] at kept
  have same : after.state = state := kept.state
  rw [← same] at accepted
  have elsewhere := @TaskRunnerProcessHandler.onTransition_other config name after update _ now ran
  refine ⟨runsTaken accepted name, elsewhere, ?_, ?_, ?_⟩
  · intro seq runs named entered numbered known
    rw [same] at known
    exact TaskRunnerProcessHandler.onTransition_opened ran named entered numbered known
  · exact (TaskRunner.accepted_update accepted).2.2
  · intro plan
    have moved : ∀ {first second : TaskPlanner}, ReflTransGen TaskPlanner.Moved first second →
        second.planner.processes = first.planner.processes := by
      intro first second moved
      induction moved with
      | refl => rfl
      | tail _ step ih => exact step.processes.trans ih
    exact moved (kept.plans plan)

inductive Replayed (config : RunnerConfig) (before after : Runner) : Prop
  | still (processes : after.state.processes = before.state.processes)
      (taskProcesses : after.taskProcesses = before.taskProcesses) (watcher : after.watcher = before.watcher)
      (planners : ∀ plan, (after.planner plan).planner.processes = (before.planner plan).planner.processes)
  | handled {update : ProcessStatus} (handled : TaskRunner.Handled config before update after)

namespace TaskRunner

theorem replayed_of_dispatch {record : RunnerCkpt} {world next : World} (recovering : world.runner.recovery = true)
    (ran : (dispatch config true record).run world = .ok () next) :
    Replayed config world.runner next.runner ∧ next.runner.recovery = true := by
  refine ⟨?_, (replays_of_dispatch recovering ran).2.recovery.trans recovering⟩
  cases replaying_of_dispatch recovering ran with
  | skipped passed same =>
    subst same
    exact .still rfl rfl rfl fun _ => rfl
  | header accepted same =>
    subst same
    cases accepted
    exact .still rfl rfl rfl fun plan => by cases plan <;> rfl
  | task accepted entered =>
    rename_i status state
    obtain ⟨_, given, same, _, taskProcesses, watcher⟩ :=
      @core_of_taskTransition { world with runner := { world.runner with state } } config status next recovering entered
    have processes : state.processes = world.runner.state.processes := by
      cases accepted
      rfl
    refine .still ((congrArg (fun core : Core => core.state.processes) same).trans processes) taskProcesses watcher ?_
    intro plan
    have planned := congrArg (fun core : Core => (core.planner plan).planner.processes) same
    cases plan <;> exact planned
  | process accepted handled same =>
    subst same
    refine .handled ⟨_, _, ?_, handled⟩
    cases accepted with
    | process plain given numbered entered subject follows carries =>
      exact .process ⟨rfl, rfl⟩ rfl numbered entered subject follows carries

end TaskRunner

def Plan.selects : Plan → Process → Bool
  | .regular => isRegular
  | .finalizing => isFinalizing

/-- A waiting run has its process object, and the watcher will read what its coordinator writes. -/
def Attends (runner : Runner) (name : Name) : Prop :=
  ∀ earlier run, runner.state.processes.get? (some name) = some (earlier ++ [run]) → run.state = some .waiting →
    runner.taskProcesses.get? name = some { seq := run.seq + 1, run := earlier.length } ∧
      runner.watcher.processes.get? name = some { watermark := run.seq - 1 }

theorem Attended.opens (attended : Attended name update before after) (named : update.process = some name)
    {earlier : List ProcessRun} {run : ProcessRun} (known : after.state.processes.get? (some name) = some (earlier ++ [run]))
    (waits : run.state = some .waiting) :
    after.taskProcesses.get? name = some { seq := run.seq + 1, run := earlier.length } ∧
      after.watcher.processes.get? name = some { watermark := run.seq - 1 } := by
  cases attended.taken with
  | other different => exact absurd named different
  | opened _ entered _ _ numbered _ grown =>
    cases List.append_inj_right' (Option.some.inj (grown.symm.trans known)) rfl
    simpa using attended.waiting run.seq _ named entered numbered known
  | moved _ _ goes _ _ _ advanced => exact absurd waits (not_waiting_of_advanced goes advanced known)

theorem Attends.attended (attends : Attends before name) (attended : Attended name update before after) :
    Attends after name := by
  intro earlier run known waits
  by_cases named : update.process = some name
  · exact attended.opens named known waits
  · obtain ⟨process, watched⟩ := attended.other named
    rw [process, watched]
    cases attended.taken with
    | other _ same => exact attends earlier run (same.symm.trans known) waits
    | opened own => exact absurd own named
    | moved own => exact absurd own named

theorem attends_of_create {records : List RunnerCkpt} {answers : List Answer} {runner : Runner}
    (created : TaskRunner.create config records answers = .ok runner) (name : Name) :
    Attends runner name ∧ ∀ plan, name ∈ (runner.planner plan).planner.processes ↔
      Selected config.task plan.selects name := by
  obtain ⟨fresh, rebuilt, begun, ran, rfl⟩ := create_eq_ok.mp created
  simp only [Runner.init, bind_eq_ok, pure_eq_ok] at begun
  obtain ⟨regular, regularly, finalizing, finally_, rfl⟩ := begun
  let Holds (world : World) : Prop := world.runner.recovery = true ∧ Attends world.runner name ∧
    ∀ plan, name ∈ (world.runner.planner plan).planner.processes ↔
      Selected config.task plan.selects name
  suffices Holds rebuilt from this.2
  refine feed_state_invariant ?_ ?_ ran
  · refine ⟨rfl, ?_, ?_⟩
    · intro earlier run known
      cases known
    · intro plan
      cases plan with
      | regular => exact (TaskPlanner.fresh_of_init regularly).1.selected name
      | finalizing => exact (TaskPlanner.fresh_of_init finally_).1.selected name
  · rintro record world _ next ⟨recovering, attends, planned⟩ ran
    obtain ⟨replayed, recovering⟩ := TaskRunner.replayed_of_dispatch recovering ran
    refine ⟨recovering, ?_, ?_⟩
    · cases replayed with
      | still processes taskProcesses watcher =>
        intro earlier run known waits
        rw [processes] at known
        rw [taskProcesses, watcher]
        exact attends earlier run known waits
      | handled handled => exact attends.attended (handled.attended name)
    · intro plan
      cases replayed with
      | still _ _ _ planners => rw [planners]; exact planned plan
      | handled handled => rw [(handled.attended name).processes]; exact planned plan

end Aurora.Thermos
