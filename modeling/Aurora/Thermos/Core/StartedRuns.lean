import Aurora.Thermos.Core.CrashRecovery

namespace Aurora.Thermos

open Collections Guarantee Relation Replay

namespace RunnerState

variable {state after : RunnerState} {record : RunnerCkpt} {update : ProcessStatus}

def runAt (state : RunnerState) (entry : Name × Nat) : Option ProcessRun :=
  (state.processes.get? (some entry.1)).bind fun runs => runs[entry.2]?

def Closed (state : RunnerState) : Prop :=
  ∀ process earlier last, state.processes.get? process = some (earlier ++ [last]) → ∀ run ∈ earlier, run.isTerminal = true

/-- A run goes on: it does not wait again, and it stays over. -/
structure RunKept (before after : ProcessRun) : Prop where
  left : before.state ≠ some .waiting → after.state ≠ some .waiting
  ceased : before.isTerminal = true → after.isTerminal = true

/-- No run is dropped, waits again or starts over. -/
def RunsKept (before after : RunnerState) : Prop :=
  ∀ entry run, before.runAt entry = some run → ∃ next, after.runAt entry = some next ∧ RunKept run next

theorem RunsKept.of_processes (same : after.processes = state.processes) : RunsKept state after := by
  intro entry run found
  refine ⟨run, ?_, id, id⟩
  unfold runAt at found ⊢
  rwa [same]

theorem RunsKept.withRuns {process : Option Name} {runs : List ProcessRun}
    (kept : ∀ known : List ProcessRun, state.processes.get? process = some known →
      ∀ (number : Nat) run, known[number]? = some run → ∃ next, runs[number]? = some next ∧ RunKept run next) :
    RunsKept state (state.withRuns process runs) := by
  intro entry run found
  unfold runAt at found ⊢
  by_cases same : some entry.1 = process
  · obtain ⟨known, listed, there⟩ := Option.bind_eq_some_iff.mp found
    rw [same] at listed ⊢
    obtain ⟨next, later, further⟩ := kept known listed entry.2 run there
    exact ⟨next, by simp [RunnerState.withRuns, later], further⟩
  · refine ⟨run, ?_, id, id⟩
    simpa [RunnerState.withRuns, Dict.get?_set_ne _ _ same] using found

theorem last_or_earlier {earlier : List ProcessRun} {last run : ProcessRun} {number : Nat}
    (found : (earlier ++ [last])[number]? = some run) :
    earlier[number]? = some run ∨ number = earlier.length ∧ run = last := by
  by_cases inner : number < earlier.length
  · rw [List.getElem?_append_left inner] at found
    exact .inl found
  · rw [List.getElem?_append_right (Nat.le_of_not_lt inner)] at found
    have bound := (List.getElem?_eq_some_iff.mp found).1
    have first : number - earlier.length = 0 := by simpa using bound
    rw [first] at found
    exact .inr ⟨by omega, (Option.some.inj found).symm⟩

theorem RunsKept.replaced {process : Option Name} {earlier : List ProcessRun} {last next : ProcessRun}
    (known : state.processes.get? process = some (earlier ++ [last])) (kept : RunKept last next) :
    RunsKept state (state.withRuns process (earlier ++ [next])) := by
  apply RunsKept.withRuns
  intro runs listed number run found
  cases known.symm.trans listed
  rcases last_or_earlier found with there | ⟨rfl, rfl⟩
  · have bound := (List.getElem?_eq_some_iff.mp there).1
    exact ⟨run, by rw [List.getElem?_append_left bound]; exact there, id, id⟩
  · exact ⟨next, by simp, kept⟩

theorem not_terminal_of_follows {run : ProcessRun} {next : ProcessState} (follows : MayFollow run.state next) :
    run.isTerminal = false := by
  rw [Bool.eq_false_iff]
  intro terminal
  obtain ⟨state, found, ends⟩ := run.isTerminal_iff.mp terminal
  rw [found, mayFollow_some] at follows
  rcases ends with rfl | rfl | rfl | rfl <;> simp [successors] at follows

theorem RunsKept.accepted {event : CheckpointDispatcher.Dispatched} (accepted : Accepted state record event after) :
    RunsKept state after := by
  cases accepted with
  | header => exact .of_processes rfl
  | task => exact .of_processes rfl
  | process plain given numbered entered subject follows carries =>
    rename_i update seq next earlier run
    cases subject with
    | first opens unknown =>
      apply RunsKept.withRuns
      intro runs listed
      rw [unknown] at listed
      cases listed
    | again opens known numbered terminal =>
      apply RunsKept.withRuns
      intro runs listed number run found
      cases known.symm.trans listed
      have bound := (List.getElem?_eq_some_iff.mp found).1
      exact ⟨run, by rw [List.getElem?_append_left bound]; exact found, id, id⟩
    | current continues known numbered =>
      have going := not_terminal_of_follows follows
      refine .replaced known ⟨?_, ?_⟩
      · intro _ waits
        rw [ProcessRun.advance_state] at waits
        rw [Option.some.inj waits] at entered
        exact continues entered
      · intro ceased
        rw [going] at ceased
        cases ceased

theorem RunsKept.copied (copied : CheckpointDispatcher.SequenceCopied state record after) : RunsKept state after := by
  obtain ⟨update, earlier, run, _, _, known, _, _, rfl⟩ := copied
  exact .replaced known ⟨id, id⟩

theorem Closed.withRuns (closed : state.Closed) {process : Option Name} {earlier : List ProcessRun} {last : ProcessRun}
    (ceased : ∀ run ∈ earlier, run.isTerminal = true) : (state.withRuns process (earlier ++ [last])).Closed := by
  intro other before final found
  by_cases same : other = process
  · subst same
    simp only [RunnerState.withRuns, Dict.get?_set_self, Option.some.injEq] at found
    obtain ⟨rfl, _⟩ := List.append_inj' found rfl
    exact ceased
  · simp only [RunnerState.withRuns, Dict.get?_set_ne _ _ same] at found
    exact closed other before final found

theorem Closed.accepted {event : CheckpointDispatcher.Dispatched} (closed : state.Closed)
    (accepted : Accepted state record event after) : after.Closed := by
  cases accepted with
  | header => exact closed
  | task => exact closed
  | process plain given numbered entered subject follows carries =>
    apply closed.withRuns
    cases subject with
    | first opens unknown => simp
    | again opens known numbered terminal =>
      intro run member
      rcases List.mem_append.mp member with earlier | last
      · exact closed _ _ _ known run earlier
      · rw [List.mem_singleton.mp last]
        exact terminal
    | current continues known numbered => exact closed _ _ _ known

theorem Closed.copied (closed : state.Closed) (copied : CheckpointDispatcher.SequenceCopied state record after) :
    after.Closed := by
  obtain ⟨update, earlier, run, _, _, known, _, _, rfl⟩ := copied
  exact closed.withRuns (closed _ _ _ known)

/-- A run is over once the last run of its process is over, unless it waits itself. -/
theorem Closed.terminal (closed : state.Closed) {entry : Name × Nat} {run : ProcessRun}
    (found : state.runAt entry = some run) (left : run.state ≠ some .waiting)
    (settled : ∀ last, state.currentRun (some entry.1) = some last → last.isTerminal = true ∨ last.state = some .waiting) :
    run.isTerminal = true := by
  obtain ⟨runs, listed, there⟩ := Option.bind_eq_some_iff.mp found
  rcases List.eq_nil_or_concat' runs with rfl | ⟨earlier, last, rfl⟩
  · simp at there
  · rcases last_or_earlier there with before | ⟨_, rfl⟩
    · exact closed _ _ _ listed run (List.mem_of_getElem? before)
    · rcases settled run (currentRun_of_get? listed) with ceased | waits
      · exact ceased
      · exact absurd waits left

end RunnerState

def RunnerCkpt.endsTask (record : RunnerCkpt) : Bool :=
  record.taskStatus.any fun status => TaskRunnerHelper.isTaskTerminal status.state

/-- Whenever a terminal task status was written, the runner had read that the started runs were forked. -/
def World.Noticed (world : World) : Prop :=
  ∀ entry ∈ world.written, entry.2.endsTask = true →
    ∀ started ∈ world.started, ∀ run ∈ entry.1.state.runAt started, run.state ≠ some .waiting

instance (world : World) : Decidable world.Noticed :=
  inferInstanceAs (Decidable (∀ entry ∈ world.written, entry.2.endsTask = true →
    ∀ started ∈ world.started, ∀ run ∈ entry.1.state.runAt started, run.state ≠ some .waiting))

theorem World.Noticed.of_grown {before after : World} (noticed : after.Noticed) (grown : Extends before after) :
    before.Noticed :=
  fun entry member ends started known => noticed entry (grown.written.subset member) ends started (grown.started.subset known)

theorem World.Traceless.of_grown {before after : World} (traceless : after.Traceless) (grown : Extends before after) :
    before.Traceless :=
  fun entry member => traceless entry (grown.refused.subset member)

structure Accounted (world : World) : Prop where
  closed : world.runner.state.Closed
  known : ∀ started ∈ world.started, ∃ run, world.runner.state.runAt started = some run
  noticed : TaskRunner.isTerminal world.runner = true →
    ∀ started ∈ world.started, ∀ run, world.runner.state.runAt started = some run → run.state ≠ some .waiting
  terminal : world.finalized = true → TaskRunner.isTerminal world.runner = true
  recorded : world.finalized = true →
    ∀ started ∈ world.started, ∃ run, world.runner.state.runAt started = some run ∧ run.isTerminal = true

section Accounted

variable {config : RunnerConfig} {kills : Prop} {world after : World}

theorem taskState_of_statuses {left right : Runner} (same : left.state.statuses = right.state.statuses) :
    TaskRunner.taskState left = TaskRunner.taskState right := by
  unfold TaskRunner.taskState
  rw [same]

theorem Accounted.kept (accounted : Accounted world) (closed : after.runner.state.Closed)
    (runs : RunnerState.RunsKept world.runner.state after.runner.state)
    (statuses : after.runner.state.statuses = world.runner.state.statuses) (started : after.started = world.started)
    (finalized : after.finalized = world.finalized) : Accounted after := by
  have same := taskState_of_statuses statuses
  have terminal : TaskRunner.isTerminal after.runner = TaskRunner.isTerminal world.runner := by
    unfold TaskRunner.isTerminal
    rw [same]
  have known : ∀ entry ∈ after.started, ∃ run, world.runner.state.runAt entry = some run := by
    rw [started]
    exact accounted.known
  refine ⟨closed, ?_, ?_, ?_, ?_⟩
  · intro entry member
    obtain ⟨run, found⟩ := known entry member
    obtain ⟨next, there, _⟩ := runs entry run found
    exact ⟨next, there⟩
  · intro ended entry member run found
    rw [terminal] at ended
    obtain ⟨before, there⟩ := known entry member
    obtain ⟨next, later, kept⟩ := runs entry before there
    cases later.symm.trans found
    exact kept.left (accounted.noticed ended entry (started ▸ member) before there)
  · intro done
    rw [terminal]
    exact accounted.terminal (finalized ▸ done)
  · intro done entry member
    obtain ⟨run, found, ceased⟩ := accounted.recorded (finalized ▸ done) entry (started ▸ member)
    obtain ⟨next, there, kept⟩ := runs entry run found
    exact ⟨next, there, kept.ceased ceased⟩

theorem Accounted.unfinished (accounted : Accounted world) (underway : TaskRunner.isTerminal world.runner = false) :
    world.finalized ≠ true := by
  intro done
  rw [accounted.terminal done] at underway
  cases underway

theorem Accounted.tasked (accounted : Accounted world) {record : RunnerCkpt} {status : TaskStatus} {state : RunnerState}
    (accepted : Accepted world.runner.state record (.taskTransition status) state)
    (underway : TaskRunner.isTerminal world.runner = false)
    (noticed : record.endsTask = true → ∀ entry ∈ world.started, ∀ run ∈ world.runner.state.runAt entry,
      run.state ≠ some .waiting) :
    Accounted { world with
      runner := { world.runner with state }, written := world.written ++ [(world.runner, record)] } := by
  have same : state.processes = world.runner.state.processes ∧
      state.statuses = some (world.runner.state.statuses.getD [] ++ [status]) ∧ record.taskStatus = some status := by
    cases accepted with
    | task plain given told => exact ⟨rfl, rfl, given⟩
  have runs : ∀ entry, state.runAt entry = world.runner.state.runAt entry := by
    intro entry
    unfold RunnerState.runAt
    rw [same.1]
  refine ⟨accounted.closed.accepted accepted, ?_, ?_, fun done => absurd done (accounted.unfinished underway),
    fun done => absurd done (accounted.unfinished underway)⟩
  · intro entry member
    rw [runs]
    exact accounted.known entry member
  · intro ended entry member run found
    have ends : record.endsTask = true := by
      simpa [RunnerCkpt.endsTask, same.2.2, TaskRunner.isTerminal, TaskRunner.taskState, same.2.1] using ended
    rw [runs] at found
    exact noticed ends entry member run found

theorem Accounted.starts (accounted : Accounted world) {name : Name} {runs : List ProcessRun} {run : ProcessRun}
    (known : world.runner.state.processes.get? (some name) = some (runs ++ [run]))
    (underway : TaskRunner.isTerminal world.runner = false) :
    Accounted { world with started := world.started ++ [(name, runs.length)] } := by
  refine ⟨accounted.closed, ?_, ?_, accounted.terminal, fun done => absurd done (accounted.unfinished underway)⟩
  · intro entry member
    rcases List.mem_append.mp member with before | last
    · exact accounted.known entry before
    · rw [List.mem_singleton.mp last]
      exact ⟨run, by simp [RunnerState.runAt, known]⟩
  · intro ended
    rw [underway] at ended
    cases ended

theorem Accounted.step (accounted : Accounted world) (noticed : after.Noticed) (step : Step config kills world after) :
    Accounted after := by
  cases step with
  | quiet same =>
    have state : after.runner.state = world.runner.state := congrArg Core.state same.core
    refine accounted.kept ?_ (.of_processes (by rw [state])) (by rw [state]) same.started same.finalized
    rw [state]
    exact accounted.closed
  | refused left =>
    rcases left with rfl | copied
    · exact accounted.kept accounted.closed (.of_processes rfl) rfl rfl rfl
    · refine accounted.kept (accounted.closed.copied copied) (.copied copied) ?_ rfl rfl
      obtain ⟨_, _, _, _, _, _, _, _, rfl⟩ := copied
      rfl
  | header accepted =>
    refine accounted.kept (accounted.closed.accepted accepted) (.accepted accepted) ?_ rfl rfl
    cases accepted
    rfl
  | task accepted enters stamped underway move =>
    exact accounted.tasked accepted underway (noticed _ (List.mem_append_right _ List.mem_cons_self))
  | process accepted headed launch =>
    rename_i record update state now
    have kept := TaskRunnerProcessHandler.keeps_onTransition config now update { world.runner with state }
    have same : (final ((TaskRunnerProcessHandler.onTransition config now update).run
        { world.runner with state })).state = state := kept.state
    refine accounted.kept ?_ ?_ ?_ rfl rfl
    · rw [same]
      exact accounted.closed.accepted accepted
    · rw [same]
      exact .accepted accepted
    · rw [same]
      exact (update_of_accepted accepted).2.2
  | switch due => exact accounted.kept accounted.closed (.of_processes rfl) rfl rfl rfl
  | kill allowed final => exact accounted.kept accounted.closed (.of_processes rfl) rfl rfl rfl
  | start known waiting underway => exact accounted.starts known underway
  | finalize settled terminal =>
    refine ⟨accounted.closed, accounted.known, accounted.noticed, fun _ => terminal, ?_⟩
    intro _ entry member
    obtain ⟨run, found⟩ := accounted.known entry member
    have left := accounted.noticed terminal entry member run found
    exact ⟨run, found, accounted.closed.terminal found left fun last current => settled _ last current⟩

def World.Mirrored (world : World) : Prop :=
  (feed (CheckpointDispatcher.dispatch true false) world.stream).run {} = .ok () world.runner.state

theorem World.Mirrored.snoc (mirrored : world.Mirrored) {record : RunnerCkpt} {event : CheckpointDispatcher.Dispatched}
    {state : RunnerState} (accepted : Accepted world.runner.state record event state)
    (written : after.written = world.written ++ [(world.runner, record)]) (same : after.runner.state = state) :
    after.Mirrored := by
  unfold Mirrored World.stream at mirrored ⊢
  rw [written, List.map_append, feed_append, mirrored]
  simp only [List.map_cons, List.map_nil, feed_cons, CheckpointDispatcher.dispatch_of_accepted accepted true, feed_nil, same]

theorem World.Mirrored.same (mirrored : world.Mirrored) (written : after.written = world.written)
    (same : after.runner.state = world.runner.state) : after.Mirrored := by
  unfold Mirrored World.stream at mirrored ⊢
  rw [written, same]
  exact mirrored

theorem World.Mirrored.step (mirrored : world.Mirrored) (traceless : after.Traceless)
    (step : Step config kills world after) : after.Mirrored := by
  cases step with
  | quiet same => exact mirrored.same same.written (congrArg Core.state same.core)
  | refused left =>
    rename_i record state
    rcases left with rfl | copied
    · exact mirrored.same rfl rfl
    · exact absurd copied (traceless _ (List.mem_append_right _ List.mem_cons_self) state)
  | header accepted => exact mirrored.snoc accepted rfl rfl
  | task accepted => exact mirrored.snoc accepted rfl rfl
  | process accepted headed launch =>
    rename_i record update state now
    have kept := TaskRunnerProcessHandler.keeps_onTransition config now update { world.runner with state }
    exact mirrored.snoc accepted rfl kept.state
  | switch due => exact mirrored.same rfl rfl
  | start => exact mirrored.same rfl rfl
  | finalize => exact mirrored.same rfl rfl
  | kill => exact mirrored.same rfl rfl

theorem World.Mirrored.restart (mirrored : world.Mirrored) {answers : List Answer} {runner : Runner}
    (created : TaskRunner.create config world.stream answers = .ok runner) :
    runner.state = world.runner.state := by
  obtain ⟨fresh, rebuilt, begun, ran, rfl⟩ := create_eq_ok.mp created
  have blank : fresh.recovery = true ∧ fresh.state = {} := by
    simp only [Runner.init, bind_eq_ok, pure_eq_ok] at begun
    obtain ⟨_, _, _, _, rfl⟩ := begun
    exact ⟨rfl, rfl⟩
  have replayed := TaskRunner.replayed_state blank.1 ran
  unfold Mirrored at mirrored
  rw [blank.2, mirrored] at replayed
  injection replayed with _ same
  exact same.symm

end Accounted

namespace TaskRunner

/-- No started process is forgotten, if the runner has read that it was forked by the time the task ends. -/
theorem started_runs_recorded (config : RunnerConfig) {first : Runner} {answers : List Answer}
    (created : create config [] answers = .ok first) {world : World}
    (lives : Lives config True World.Traceless { runner := first } world) (noticed : world.Noticed)
    (ended : world.finalized = true) :
    ∀ started ∈ world.started, ∃ run, world.runner.state.runAt started = some run ∧ run.isTerminal = true := by
  have blank : first.state = {} := by
    have begun := create_nil created
    simp only [Runner.init, bind_eq_ok, pure_eq_ok] at begun
    obtain ⟨_, _, _, _, rfl⟩ := begun
    rfl
  have start : Accounted { runner := first } := by
    refine ⟨?_, ?_, ?_, ?_, ?_⟩
    · intro process earlier last listed
      rw [blank] at listed
      simp at listed
    · exact fun started member => absurd member List.not_mem_nil
    · exact fun _ started member => absurd member List.not_mem_nil
    · exact fun done => absurd done Bool.false_ne_true
    · exact fun done => absurd done Bool.false_ne_true
  have mirrored : World.Mirrored { runner := first } := by
    unfold World.Mirrored
    rw [blank]
    rfl
  have kept : ∀ before after, ((before.Noticed → Accounted before) ∧ (before.Traceless → before.Mirrored)) →
      Step config True before after → (after.Noticed → Accounted after) ∧ (after.Traceless → after.Mirrored) := by
    rintro before after ⟨accounted, mirrors⟩ step
    constructor
    · exact fun noticed => (accounted (noticed.of_grown step.grows)).step noticed step
    · exact fun traceless => (mirrors (traceless.of_grown step.grows)).step traceless step
  have restarted : ∀ (before : World) (next : Runner) (replies : List Answer),
      ((before.Noticed → Accounted before) ∧ (before.Traceless → before.Mirrored)) → before.Traceless →
      create config before.stream replies = .ok next →
      (World.Noticed { before with runner := next, finalized := false } →
        Accounted { before with runner := next, finalized := false }) ∧
      (World.Traceless { before with runner := next, finalized := false } →
        World.Mirrored { before with runner := next, finalized := false }) := by
    rintro before next replies ⟨accounted, mirrors⟩ traceless built
    have same := (mirrors traceless).restart built
    constructor
    · intro noticed
      have earlier := accounted noticed
      have afresh : Accounted { before with finalized := false } :=
        ⟨earlier.closed, earlier.known, earlier.noticed, fun done => absurd done Bool.false_ne_true,
          fun done => absurd done Bool.false_ne_true⟩
      refine afresh.kept ?_ (.of_processes (by rw [same])) (by rw [same]) rfl rfl
      rw [same]
      exact earlier.closed
    · exact fun _ => (mirrors traceless).same rfl same
  exact ((lives_kept lives ⟨fun _ => start, fun _ => mirrored⟩ kept restarted).1 noticed).recorded ended

section Serving

def ends (name : Name) (state : ProcessState) (returnCode : Int) : List (Name × ProcessStatus) :=
  [(name, { seq := some 2, process := some name, state := some .running, startTime := some 0, pid := some 2 }),
    (name, { seq := some 3, process := some name, state := some state, stopTime := some 0, returnCode := some returnCode })]

def servedRun (first : Runner) : World :=
  final ((run serving 6).run { runner := first, answers := List.replicate 13 {} ++ [{ appended := ends "serve" .success 0 }] })

def servedChecks (first : Runner) : Bool :=
  (servedRun first).Noticed ∧ (servedRun first).finalized = true ∧ (servedRun first).started = [("serve", 0)]

theorem servedChecks_pass : checked serving servedChecks = true := by decide +kernel

theorem started_runs_recorded_served : ∃ first, create serving [] [] = .ok first ∧
    (servedRun first).started = [("serve", 0)] ∧ ∀ started ∈ (servedRun first).started,
      ∃ run, (servedRun first).runner.state.runAt started = some run ∧ run.isTerminal = true := by
  obtain ⟨first, created, passed⟩ := created_of_checked servedChecks_pass
  have lives : Lives serving True World.Traceless { runner := first } (servedRun first) :=
    .single (@Enters.run serving True World.Traceless { runner := first } 6 _)
  obtain ⟨noticed, ended, started⟩ := of_decide_eq_true passed
  exact ⟨first, created, started, started_runs_recorded serving created lives noticed ended⟩

/-- Two processes of which only one may run at a time, and none may fail. -/
def relay : RunnerConfig where
  task := { processes := [{ name := "p" }, { name := "q" }], maxConcurrency := 1, maxFailures := 1 }
  totalRunLimit := 100

/-- The first process fails; the pass that notices has launched the second one. -/
def relayRun (first : Runner) : World :=
  let calm : Answer := { order := ["p", "q"] }
  let answers := List.replicate 22 calm ++ { calm with appended := ends "p" .failed 1 } :: List.replicate 40 calm
  final ((run relay 6).run { runner := first, answers })

def relayChecks (first : Runner) : Bool :=
  (relayRun first).finalized = true ∧ ("q", 0) ∈ (relayRun first).started ∧
    ((relayRun first).runner.state.runAt ("q", 0)).map ProcessRun.state = some (some .waiting)

theorem relayChecks_pass : checked relay relayChecks = true := by decide +kernel

/-- The second process was started, but the task has ended with its run still WAITING. -/
theorem relayed_run_forgotten : ∃ first, create relay [] [] = .ok first ∧
    Lives relay False (fun _ => False) { runner := first } (relayRun first) ∧ (relayRun first).finalized = true ∧
      ∃ started ∈ (relayRun first).started, ∃ run, (relayRun first).runner.state.runAt started = some run ∧
        run.isTerminal = false := by
  obtain ⟨first, created, passed⟩ := created_of_checked relayChecks_pass
  obtain ⟨ended, started, waits⟩ := of_decide_eq_true passed
  obtain ⟨run, found, waiting⟩ := Option.map_eq_some_iff.mp waits
  refine ⟨first, created, ?_, ended, ("q", 0), started, run, found, ?_⟩
  · exact .single (@Enters.run relay False (fun _ => False) { runner := first } 6 _)
  · simp [ProcessRun.isTerminal, waiting]

end Serving

end TaskRunner

end Aurora.Thermos
