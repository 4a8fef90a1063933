import Aurora.Thermos.Core.Adoption

namespace Aurora.Thermos

open Collections ProcessMuxer Replay

namespace ProcessMuxer

variable {files : ProcessFiles} {muxer after : ProcessMuxer} {name : Name} {watermark : Int} {position : Option Nat}
  {updates : List ProcessStatus} {record : ProcessStatus}

/-- A record above the watermark that is not behind the position is still to be read. -/
theorem mem_due {records : List ProcessStatus} (member : record ∈ records) (above : watermark < record.number)
    (ahead : ∀ reached, position = some reached → record ∈ records.drop reached) : record ∈ due watermark records position := by
  cases position with
  | some reached => exact ahead reached rfl
  | none =>
    rw [← List.take_append_drop (fastForward watermark (-1) records) records, List.mem_append] at member
    rcases member with passed | left
    · have below := fastForward_passes watermark (-1) records record passed
      omega
    · exact left

theorem select_watched (ran : (select files).run muxer = .ok updates after)
    (watched : muxer.processes.get? name = some ⟨watermark, position⟩) :
    (∀ record ∈ due watermark (content files name) position, record ∈ updates) ∧
      ∃ reached, after.processes.get? name = some ⟨watermark, reached⟩ ∧
        ∀ length, reached = some length → length ≤ (content files name).length := by
  simp only [select, EStateM.run_bind, EStateM.run_modify, EStateM.run_get, EStateM.run_set, EStateM.run_pure,
    EStateM.Result.ok.injEq] at ran
  obtain ⟨rfl, rfl⟩ := ran
  have bound := @bindProcesses_watched files muxer name watermark position watched
  constructor
  · intro record member
    cases file : files.get? name with
    | none => simp [due, content, file] at member
    | some records =>
      rw [file, Option.isSome_some, if_pos rfl] at bound
      exact List.mem_flatMap.mpr ⟨_, (Dict.mem_entries _ _ _).mpr bound, member⟩
  · refine ⟨_, by rw [Dict.get?_mapKeyed, bound]; rfl, ?_⟩
    intro length reached
    simp only [Option.map_eq_some_iff] at reached
    obtain ⟨_, _, rfl⟩ := reached
    exact le_rfl

end ProcessMuxer

def RunnerState.runsOf (state : RunnerState) (name : Name) : List ProcessRun :=
  (state.processes.get? (some name)).getD []

def RunnerState.stage (state : RunnerState) : Option TaskState :=
  match state.statuses.bind List.getLast? with
  | none => some .active
  | some status => status.state

theorem taskState_eq_stage (runner : Runner) : TaskRunner.taskState runner = runner.state.stage := rfl

namespace Coordination

variable {config : RunnerConfig} {c next : Coordination} {runner before after : Runner} {name : Name}
  {state : RunnerState} {coordinator : Coordinator}

/-- The coordinators of a process whose FORKED record is in its checkpoint. -/
def Mine (c : Coordination) (name : Name) (coordinator : Coordinator) : Prop :=
  coordinator ∈ c.origins ∧ coordinator.name = name ∧ coordinator.Announced c.files

/-- The current run of a process waits, and its FORKED record is in the checkpoint. -/
abbrev Out (c : Coordination) (state : RunnerState) (name : Name) : Coordinator → Prop :=
  Outstanding (c.Mine name) (state.runsOf name)

def Early (state : RunnerState) : Prop := state.stage = some .active ∨ state.stage = some .cleaning

section Base

structure Base (config : RunnerConfig) (c : Coordination) (state : RunnerState) : Prop where
  replayed : (feed (CheckpointDispatcher.dispatch true false) c.stream).run {} = .ok () state
  logged : Logged c
  assigned : ∀ name, Assigned (c.Mine name) (state.runsOf name)
  staged : Early state → ∀ coordinator ∈ c.origins, Selected config.task isRegular coordinator.name

/-- Checkpoints only grow, without a further FORKED record, and coordinators are only added. -/
structure Grown (c next : Coordination) : Prop where
  files : ∀ name, ∃ more, content next.files name = content c.files name ++ more
  mine : ∀ name, next.Mine name = c.Mine name
  origins : ∀ (index : Nat) coordinator, c.origins[index]? = some coordinator → next.origins[index]? = some coordinator

theorem Logged.of_same (logged : Logged c) (files : next.files = c.files) (coordinators : next.coordinators = c.coordinators) :
    Logged next := by
  have origins : next.origins = c.origins := congrArg (List.map Coordinator.origin) coordinators
  constructor
  · rw [coordinators]
    exact logged.distinct
  · rw [files, origins]
    exact logged.authored
  · rw [files, coordinators]
    exact logged.fates

theorem grown_of_same (files : next.files = c.files) (coordinators : next.coordinators = c.coordinators) : Grown c next := by
  have origins : next.origins = c.origins := congrArg (List.map Coordinator.origin) coordinators
  refine ⟨fun name => ⟨[], by rw [files, List.append_nil]⟩, fun name => ?_, fun index coordinator found => by rwa [origins]⟩
  unfold Mine
  rw [origins, files]

theorem Base.grown (base : Base config c state) (stream : next.stream = c.stream) (logged : Logged next)
    (grown : Grown c next) (origins : next.origins = c.origins) : Base config next state where
  replayed := by
    rw [stream]
    exact base.replayed
  logged := logged
  assigned := by
    intro name
    rw [grown.mine]
    exact base.assigned name
  staged := by
    rw [origins]
    exact base.staged

theorem Base.of_same (base : Base config c state) (stream : next.stream = c.stream) (files : next.files = c.files)
    (coordinators : next.coordinators = c.coordinators) : Base config next state :=
  base.grown stream (base.logged.of_same files coordinators) (grown_of_same files coordinators)
    (congrArg (List.map Coordinator.origin) coordinators)

theorem runsOf_eq {earlier : List ProcessRun} {run : ProcessRun}
    (known : state.processes.get? (some name) = some (earlier ++ [run])) : state.runsOf name = earlier ++ [run] := by
  rw [RunnerState.runsOf, known, Option.getD_some]

theorem get?_of_runsOf {earlier : List ProcessRun} {run : ProcessRun} (known : state.runsOf name = earlier ++ [run]) :
    state.processes.get? (some name) = some (earlier ++ [run]) := by
  unfold RunnerState.runsOf at known
  cases listed : state.processes.get? (some name) with
  | none => simp [listed] at known
  | some runs => rw [← known, listed, Option.getD_some]

/-- A record that the runner accepts while it waits for a FORKED record is just that record. -/
def Fits (c : Coordination) (state : RunnerState) (record : RunnerCkpt) : Prop :=
  ∀ update name earlier run next, record.processStatus = some update →
    state.processes.get? (some name) = some (earlier ++ [run]) → run.state = some .waiting →
    update.process = some name → update.state = some next → update.seq = some (run.seq + 1) →
    MayFollow (some .waiting) next → ∀ coordinator, c.Mine name coordinator → coordinator.run = earlier.length →
    update = coordinator.initialUpdate

theorem Base.recorded (base : Base config c state) {record : RunnerCkpt} {event : CheckpointDispatcher.Dispatched}
    {changed : RunnerState} (accepted : Accepted state record event changed) (fits : Fits c state record)
    (stays : ∀ status, record.taskStatus = some status → status.state = some .active ∨ status.state = some .cleaning →
      Early state) (holder : Option Holder) :
    Base config { c with stream := c.stream ++ [record], holder } changed := by
  constructor
  · rw [feed_append, base.replayed]
    simp only [feed_cons, CheckpointDispatcher.dispatch_of_accepted accepted true, feed_nil]
  · exact base.logged.of_same rfl rfl
  · intro name
    cases accepted with
    | header => exact base.assigned name
    | task => exact base.assigned name
    | process plain given numbered entered subject follows carries =>
      have taken := runsTaken (.process plain given numbered entered subject follows carries) name
      exact (base.assigned name).taken taken fun earlier run next known waits => fits _ name earlier run next given known waits
  · intro early
    apply base.staged
    cases accepted with
    | header => exact early
    | task plain given told =>
      apply stays _ given
      simpa [Early, RunnerState.stage] using early
    | process => exact early

inductive Dispatches (config : RunnerConfig) (record : RunnerCkpt) (phase : Phase) (runner : Runner) (c : Coordination) :
    Coordination → Prop
  | refused : Dispatches config record phase runner c { c with holder := none }
  | raised {event : CheckpointDispatcher.Dispatched} {state : RunnerState}
      (accepted : Accepted runner.state record event state) :
      Dispatches config record phase runner c { c with stream := c.stream ++ [record], holder := none }
  | handled {event : CheckpointDispatcher.Dispatched} {state : RunnerState} {now : Time} {after : Runner}
      (accepted : Accepted runner.state record event state)
      (ran : (handle config now event).run { runner with state } = .ok () after) :
      Dispatches config record phase runner c
        { c with stream := c.stream ++ [record], holder := some { runner := after, phase } }

theorem dispatches (config : RunnerConfig) (now : Time) (record : RunnerCkpt) (phase : Phase) (runner : Runner)
    (c : Coordination) : Dispatches config record phase runner c (dispatch config now record phase runner c) := by
  unfold dispatch
  cases ran : (CheckpointDispatcher.dispatch false false record).run runner.state with
  | error e changed => exact .refused
  | ok event changed =>
    have accepted := CheckpointDispatcher.dispatch_accepts_iff.mp ran
    simp only
    cases handled : (handle config now event).run { runner with state := changed } with
    | error e last => exact .raised accepted
    | ok value last => exact .handled accepted handled

theorem replayed_of_handle {record : RunnerCkpt} {event : CheckpointDispatcher.Dispatched} {now : Time}
    (accepted : Accepted runner.state record event state)
    (ran : (handle config now event).run { runner with state } = .ok () after) :
    after.state = state ∧ Replayed config runner after := by
  cases accepted with
  | header =>
    cases ran
    exact ⟨rfl, .still rfl rfl rfl fun plan => by cases plan <;> rfl⟩
  | task =>
    cases ran
    exact ⟨rfl, .still rfl rfl rfl fun plan => by cases plan <;> rfl⟩
  | process plain given numbered entered subject follows carries =>
    rename_i update seq target earlier run
    have kept := TaskRunnerProcessHandler.keeps_onTransition config now update
      { runner with state := runner.state.withRuns update.process (earlier ++ [run.advance update seq target]) }
    replace ran : (TaskRunnerProcessHandler.onTransition config now update).run _ = _ := ran
    rw [ran] at kept
    exact ⟨kept.state, .handled ⟨_, now, .process ⟨rfl, rfl⟩ rfl numbered entered subject follows carries, ran⟩⟩

end Base

section Holder

def InStage (config : RunnerConfig) (state : RunnerState) (name : Name) : Prop :=
  ∃ plan, stagePlan state.stage = some plan ∧ Selected config.task plan.selects name

def Ahead (files : ProcessFiles) (runner : Runner) (name : Name) (record : ProcessStatus) : Prop :=
  ∀ watermark reached, runner.watcher.processes.get? name = some ⟨watermark, some reached⟩ →
    record ∈ (content files name).drop reached

structure Attending (c : Coordination) (runner : Runner) (name : Name) (earlier : List ProcessRun) (run : ProcessRun) :
    Prop where
  process : ∃ process, runner.taskProcesses.get? name = some process ∧ process.run = earlier.length ∧
    ((∀ coordinator, ¬ Out c runner.state name coordinator) → process.seq = run.seq + 1)
  watched : ∃ position, runner.watcher.processes.get? name = some ⟨run.seq - 1, position⟩ ∧
    ∀ reached, position = some reached → reached ≤ (content c.files name).length

structure Attentive (config : RunnerConfig) (c : Coordination) (runner : Runner) : Prop where
  planned : ∀ name plan, name ∈ (runner.planner plan).planner.processes ↔ Selected config.task plan.selects name
  attends : ∀ name earlier run, runner.state.processes.get? (some name) = some (earlier ++ [run]) →
    run.state = some .waiting → Attending c runner name earlier run

/-- In a pass no process that is still to be launched has a FORKED record waiting to be read. -/
structure Passing (config : RunnerConfig) (c : Coordination) (runner : Runner) (names : List Name) : Prop where
  distinct : names.Nodup
  staged : ∀ name ∈ names, InStage config runner.state name
  unread : ∀ name coordinator, Out c runner.state name coordinator →
    Ahead c.files runner name coordinator.initialUpdate ∧ name ∉ names

def Promises (config : RunnerConfig) (c : Coordination) (runner : Runner) : Phase → Prop
  | .collecting unread => (∀ update ∈ unread, ∃ name, update ∈ content c.files name) ∧
      ∀ name coordinator, Out c runner.state name coordinator → coordinator.initialUpdate ∈ unread
  | .entering true | .resuming => ∀ name coordinator, Out c runner.state name coordinator →
      Ahead c.files runner name coordinator.initialUpdate
  | .entering false | .ready => ∀ name coordinator, Out c runner.state name coordinator →
      Ahead c.files runner name coordinator.initialUpdate ∧ ¬ InStage config runner.state name
  | .launching names => Passing config c runner names
  | .prepared name _ _ names => Passing config c runner (name :: names) ∧
      ∃ earlier run, runner.state.processes.get? (some name) = some (earlier ++ [run]) ∧ run.state = some .waiting
  | .forked index names => ∃ coordinator, c.origins[index]? = some coordinator ∧
      Passing config c runner (coordinator.name :: names) ∧
      ∃ earlier run, runner.state.processes.get? (some coordinator.name) = some (earlier ++ [run]) ∧
        run.state = some .waiting ∧ coordinator.run = earlier.length ∧ coordinator.seq = run.seq + 1

structure Held (config : RunnerConfig) (c : Coordination) (holder : Holder) : Prop where
  attentive : Attentive config c holder.runner
  promises : Promises config c holder.runner holder.phase

structure Inv (config : RunnerConfig) (c : Coordination) : Prop where
  base : ∃ state, Base config c state ∧ ∀ holder, c.holder = some holder → holder.runner.state = state
  held : ∀ holder, c.holder = some holder → Held config c holder

theorem Inv.of_none {state : RunnerState} (base : Base config c state) (gone : c.holder = none) : Inv config c := by
  refine ⟨⟨state, base, ?_⟩, ?_⟩
  · intro holder held
    rw [gone] at held
    cases held
  · intro holder held
    rw [gone] at held
    cases held

theorem Inv.of_some {phase : Phase} (base : Base config c runner.state) (there : c.holder = some { runner, phase })
    (attentive : Attentive config c runner) (promises : Promises config c runner phase) : Inv config c := by
  refine ⟨⟨_, base, ?_⟩, ?_⟩
  · intro holder held
    cases there.symm.trans held
    rfl
  · intro holder held
    cases there.symm.trans held
    exact ⟨attentive, promises⟩

/-- Handling a record leaves each process as it was, or without a run that waits for a FORKED record. -/
theorem Replayed.process (replayed : Replayed config before after) (name : Name) :
    (after.state.processes.get? (some name) = before.state.processes.get? (some name) ∧
      after.taskProcesses.get? name = before.taskProcesses.get? name ∧
      after.watcher.processes.get? name = before.watcher.processes.get? name) ∨
    ∀ earlier run, after.state.processes.get? (some name) = some (earlier ++ [run]) → run.state = some .waiting →
      before.state.runsOf name = earlier ∧
        after.taskProcesses.get? name = some { seq := run.seq + 1, run := earlier.length } ∧
        after.watcher.processes.get? name = some { watermark := run.seq - 1 } := by
  cases replayed with
  | still processes taskProcesses watcher => exact .inl ⟨by rw [processes], by rw [taskProcesses], by rw [watcher]⟩
  | handled handled =>
    rename_i update
    have attended := handled.attended name
    by_cases named : update.process = some name
    · right
      intro earlier run known waits
      refine ⟨?_, attended.opens named known waits⟩
      cases attended.taken with
      | other different => exact absurd named different
      | opened _ _ listed _ _ _ grown =>
        rw [RunnerState.runsOf, listed]
        exact (List.append_inj' (Option.some.inj (grown.symm.trans known)) rfl).1
      | moved _ _ goes _ _ _ advanced => exact absurd waits (not_waiting_of_advanced goes advanced known)
    · left
      obtain ⟨process, watched⟩ := attended.other named
      cases attended.taken with
      | other _ same => exact ⟨same, process, watched⟩
      | opened own => exact absurd own named
      | moved own => exact absurd own named

theorem Replayed.out (replayed : Replayed config before after) (base : Base config c before.state)
    (out : Out c after.state name coordinator) :
    Out c before.state name coordinator ∧ after.taskProcesses.get? name = before.taskProcesses.get? name ∧
      after.watcher.processes.get? name = before.watcher.processes.get? name := by
  rcases Replayed.process replayed name with ⟨runs, process, watched⟩ | fresh
  · refine ⟨⟨out.mine, ?_⟩, process, watched⟩
    have current := out.current
    rwa [RunnerState.runsOf, runs] at current
  · obtain ⟨earlier, run, listed, waits, last⟩ := out.current
    obtain ⟨before, _⟩ := fresh earlier run (get?_of_runsOf listed) waits
    obtain ⟨found, there, _⟩ := (base.assigned name).adopts coordinator out.mine
    have bound := (List.getElem?_eq_some_iff.mp there).1
    rw [before, last] at bound
    omega

theorem Attentive.replayed (attentive : Attentive config c before) (replayed : Replayed config before after) :
    Attentive config c after where
  planned := by
    intro name plan
    rw [← attentive.planned name plan]
    cases replayed with
    | still _ _ _ planners => rw [planners]
    | handled handled => rw [(handled.attended name).processes]
  attends := by
    intro name earlier run known waits
    rcases Replayed.process replayed name with ⟨runs, process, watched⟩ | fresh
    · rw [runs] at known
      obtain ⟨⟨object, there, made, numbered⟩, watching⟩ := attentive.attends name earlier run known waits
      refine ⟨⟨object, by rw [process, there], made, ?_⟩, by rwa [watched]⟩
      intro none_out
      apply numbered
      intro coordinator out
      apply none_out coordinator
      refine ⟨out.mine, ?_⟩
      rw [RunnerState.runsOf, runs]
      exact out.current
    · obtain ⟨_, process, watched⟩ := fresh earlier run known waits
      exact ⟨⟨_, process, rfl, fun _ => rfl⟩, ⟨_, watched, fun _ absurd => by cases absurd⟩⟩

theorem out_grown (grown : Grown c next) : Out next state name = Out c state name := by
  unfold Out
  rw [grown.mine]

theorem Ahead.grown {record : ProcessStatus} (ahead : Ahead c.files runner name record) (grown : Grown c next) :
    Ahead next.files runner name record := by
  intro watermark reached watched
  obtain ⟨more, longer⟩ := grown.files name
  rw [longer, List.drop_append]
  exact List.mem_append_left _ (ahead watermark reached watched)

theorem Attentive.grown (attentive : Attentive config c runner) (grown : Grown c next) : Attentive config next runner where
  planned := attentive.planned
  attends := by
    intro name earlier run known waits
    obtain ⟨process, position, watched, bounded⟩ := attentive.attends name earlier run known waits
    refine ⟨by rwa [out_grown grown], position, watched, ?_⟩
    intro reached there
    obtain ⟨more, longer⟩ := grown.files name
    rw [longer, List.length_append]
    have before := bounded reached there
    omega

theorem Passing.grown {names : List Name} (passing : Passing config c runner names) (grown : Grown c next) :
    Passing config next runner names where
  distinct := passing.distinct
  staged := passing.staged
  unread := by
    intro name coordinator out
    rw [out_grown grown] at out
    exact ⟨(passing.unread name coordinator out).1.grown grown, (passing.unread name coordinator out).2⟩

theorem Promises.grown {phase : Phase} (promises : Promises config c runner phase) (grown : Grown c next) :
    Promises config next runner phase := by
  cases phase with
  | collecting unread =>
    obtain ⟨read, expected⟩ := promises
    refine ⟨?_, fun name coordinator out => expected name coordinator (out_grown grown ▸ out)⟩
    intro update member
    obtain ⟨name, written⟩ := read update member
    obtain ⟨more, longer⟩ := grown.files name
    exact ⟨name, by rw [longer]; exact List.mem_append_left _ written⟩
  | entering resumes =>
    cases resumes with
    | true => exact fun name coordinator out => (promises name coordinator (out_grown grown ▸ out)).grown grown
    | false =>
      intro name coordinator out
      obtain ⟨ahead, idle⟩ := promises name coordinator (out_grown grown ▸ out)
      exact ⟨ahead.grown grown, idle⟩
  | resuming => exact fun name coordinator out => (promises name coordinator (out_grown grown ▸ out)).grown grown
  | ready =>
    intro name coordinator out
    obtain ⟨ahead, idle⟩ := promises name coordinator (out_grown grown ▸ out)
    exact ⟨ahead.grown grown, idle⟩
  | launching names => exact Passing.grown promises grown
  | prepared name head forkTime names => exact ⟨promises.1.grown grown, promises.2⟩
  | forked index names =>
    obtain ⟨coordinator, found, passing, rest⟩ := promises
    exact ⟨coordinator, grown.origins index coordinator found, passing.grown grown, rest⟩

theorem out_due (base : Base config c runner.state) (attentive : Attentive config c runner)
    (out : Out c runner.state name coordinator) (ahead : Ahead c.files runner name coordinator.initialUpdate) :
    ∃ watermark position, runner.watcher.processes.get? name = some ⟨watermark, position⟩ ∧
      coordinator.initialUpdate ∈ due watermark (content c.files name) position := by
  obtain ⟨earlier, run, listed, waits, current⟩ := out.current
  have known := get?_of_runsOf listed
  obtain ⟨_, position, watched, _⟩ := attentive.attends name earlier run known waits
  refine ⟨_, position, watched, mem_due ?_ ?_ ?_⟩
  · have announced := out.mine.2.2
    rwa [Coordinator.Announced, out.mine.2.1] at announced
  · have assigned := base.assigned name
    rw [listed] at assigned
    cases assigned.last out.mine current with
    | awaited _ numbered =>
      rw [show coordinator.initialUpdate.number = coordinator.seq from rfl]
      omega
    | adopted entered left => exact absurd (Option.some.inj (entered.symm.trans waits)) left
  · rintro reached rfl
    exact ahead _ _ watched

end Holder

end Coordination

end Aurora.Thermos
