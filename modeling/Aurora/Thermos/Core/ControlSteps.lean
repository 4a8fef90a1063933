import Aurora.Thermos.Core.Promises

namespace Aurora.Thermos

open Collections ProcessMuxer Replay

namespace Coordination

variable {config : RunnerConfig} {c next : Coordination} {runner after : Runner} {name : Name}
  {state : RunnerState} {coordinator : Coordinator} {record : RunnerCkpt} {phase : Phase}

section Dispatching

structure Recorded (config : RunnerConfig) (record : RunnerCkpt) (before after : Runner) : Prop where
  replayed : Replayed config before after
  entered : ∀ status, record.runnerHeader = none → record.taskStatus = some status → after.state.stage = status.state
  stays : record.taskStatus = none → after.state.stage = before.state.stage
  taken : ∀ update, record.runnerHeader = none → record.taskStatus = none → record.processStatus = some update →
    ∀ name, RunsTaken name update (before.state.processes.get? (some name)) (after.state.processes.get? (some name))

theorem recorded_of_handle {event : CheckpointDispatcher.Dispatched} {now : Time}
    (accepted : Accepted runner.state record event state)
    (ran : (handle config now event).run { runner with state } = .ok () after) : Recorded config record runner after := by
  obtain ⟨same, replayed⟩ := replayed_of_handle accepted ran
  refine ⟨replayed, ?_, ?_, ?_⟩
  · intro status plain given
    rw [same]
    cases accepted with
    | header header => cases plain.symm.trans header
    | task _ found =>
      cases given.symm.trans found
      simp [RunnerState.stage]
    | process headless => cases headless.2.symm.trans given
  · intro silent
    rw [same]
    cases accepted with
    | header => rfl
    | task _ found => cases silent.symm.trans found
    | process => rfl
  · intro update plain silent given
    rw [same]
    cases accepted with
    | header header => cases plain.symm.trans header
    | task _ found => cases silent.symm.trans found
    | process headless found numbered entered subject follows carries =>
      cases given.symm.trans found
      exact runsTaken (.process headless found numbered entered subject follows carries)

theorem inv_dispatch (base : Base config c runner.state) (attentive : Attentive config c runner) (now : Time)
    (fits : Fits c runner.state record)
    (stays : ∀ status, record.taskStatus = some status → status.state = some .active ∨ status.state = some .cleaning →
      Early runner.state)
    (promises : ∀ after, Recorded config record runner after → Promises config c after phase) :
    Inv config (dispatch config now record phase runner c) := by
  have ends := dispatches config now record phase runner c
  generalize dispatch config now record phase runner c = next at ends
  cases ends with
  | refused => exact .of_none (base.of_same rfl rfl rfl) rfl
  | raised accepted => exact .of_none (base.recorded accepted fits stays none) rfl
  | handled accepted ran =>
    rename_i event state now after
    have grown : Grown c { c with stream := c.stream ++ [record], holder := some { runner := after, phase } } :=
      grown_of_same rfl rfl
    have recorded := recorded_of_handle accepted ran
    obtain ⟨same, replayed⟩ := replayed_of_handle accepted ran
    refine @Inv.of_some config _ after phase ?_ rfl ?_ ?_
    · rw [same]
      exact base.recorded accepted fits stays _
    · exact (attentive.replayed replayed).grown grown
    · exact Promises.grown (promises after recorded) grown

theorem Passing.replayed {names : List Name} (passing : Passing config c runner names) (base : Base config c runner.state)
    (replayed : Replayed config runner after) (stays : after.state.stage = runner.state.stage) :
    Passing config c after names where
  distinct := passing.distinct
  staged := by
    intro name member
    obtain ⟨plan, runs, selected⟩ := passing.staged name member
    exact ⟨plan, by rwa [stays], selected⟩
  unread := by
    intro name coordinator out
    obtain ⟨before, _, watched⟩ := Replayed.out replayed base out
    obtain ⟨ahead, idle⟩ := passing.unread name coordinator before
    refine ⟨?_, idle⟩
    intro watermark reached there
    exact ahead watermark reached (watched ▸ there)

theorem Ahead.replayed {record : ProcessStatus} (ahead : Ahead c.files runner name record)
    (watched : after.watcher.processes.get? name = runner.watcher.processes.get? name) : Ahead c.files after name record :=
  fun watermark reached there => ahead watermark reached (watched ▸ there)

end Dispatching

section HolderSteps

theorem fits_of_not_follows {update : ProcessStatus} {entered : ProcessState} (given : update.state = some entered)
    (refused : ¬ MayFollow (some .waiting) entered) : Fits c state { processStatus := some update } := by
  intro other name earlier run next same _ _ _ state _ follows
  cases same
  cases given.symm.trans state
  exact absurd follows refused

theorem fits_of_silent (silent : record.processStatus = none) : Fits c state record := by
  intro update name earlier run next given
  rw [silent] at given
  cases given

theorem inv_setProcessStatus (base : Base config c runner.state) (attentive : Attentive config c runner) (now : Time)
    (name : Name) (entered : ProcessState) (stopTime : Option Time) (returnCode : Option Int)
    (fits : ∀ update : ProcessStatus, update.process = some name → update.state = some entered →
      Fits c runner.state { processStatus := some update })
    (promises : ∀ after, Replayed config runner after → after.state.stage = runner.state.stage →
      Promises config c after phase) :
    Inv config (setProcessStatus config now name entered stopTime returnCode phase runner c) := by
  have stays : ∀ update : ProcessStatus, ∀ status, RunnerCkpt.taskStatus { processStatus := some update } = some status →
      status.state = some .active ∨ status.state = some .cleaning → Early runner.state := by
    intro update status given
    cases given
  unfold setProcessStatus
  cases runner.state.currentRun (some name) with
  | none =>
    simp only
    split_ifs
    · exact inv_dispatch base attentive now (fits _ rfl rfl) (stays _) fun after recorded =>
        promises after recorded.replayed (recorded.stays rfl)
    · exact .of_none (base.of_same rfl rfl rfl) rfl
  | some run =>
    exact inv_dispatch base attentive now (fits _ rfl rfl) (stays _) fun after recorded =>
      promises after recorded.replayed (recorded.stays rfl)

theorem inv_mark (base : Base config c runner.state) (attentive : Attentive config c runner)
    (promises : Promises config c runner phase)
    (between : phase = .entering true ∨ phase = .entering false ∨ phase = .ready) {entered : ProcessState}
    (ceased : entered = .lost ∨ entered = .killed) (now : Time) (name : Name) (stopTime : Option Time)
    (returnCode : Option Int) :
    Inv config (setProcessStatus config now name entered stopTime returnCode phase runner c) := by
  apply inv_setProcessStatus base attentive
  · intro update _ given
    refine fits_of_not_follows given ?_
    rcases ceased with rfl | rfl <;> decide
  · intro after replayed stays
    rcases between with rfl | rfl | rfl
    · intro name coordinator out
      obtain ⟨before, _, watched⟩ := Replayed.out replayed base out
      exact (promises name coordinator before).replayed watched
    · intro name coordinator out
      obtain ⟨before, _, watched⟩ := Replayed.out replayed base out
      obtain ⟨ahead, idle⟩ := promises name coordinator before
      exact ⟨ahead.replayed watched, by rwa [InStage, stays]⟩
    · intro name coordinator out
      obtain ⟨before, _, watched⟩ := Replayed.out replayed base out
      obtain ⟨ahead, idle⟩ := promises name coordinator before
      exact ⟨ahead.replayed watched, by rwa [InStage, stays]⟩

theorem inv_await (base : Base config c runner.state) (attentive : Attentive config c runner) {names : List Name}
    (passing : Passing config c runner names) (now : Time) (name : Name) :
    Inv config (setProcessStatus config now name .waiting none none (.launching names) runner c) := by
  apply inv_setProcessStatus base attentive
  · intro update _ given
    exact fits_of_not_follows given (by decide)
  · intro after replayed stays
    exact passing.replayed base replayed stays

theorem inv_unprepared (base : Base config c runner.state) (attentive : Attentive config c runner) {names : List Name}
    (passing : Passing config c runner (name :: names)) (now : Time) :
    Inv config (setProcessStatus config now name .failed none none (.launching names) runner c) := by
  apply inv_setProcessStatus base attentive
  · intro failed own _ update other earlier run next given known waits named entered numbered follows coordinator mine current
    cases given
    cases own.symm.trans named
    have out : Out c runner.state name coordinator := ⟨mine, earlier, run, runsOf_eq known, waits, current⟩
    exact absurd List.mem_cons_self (passing.unread name coordinator out).2
  · intro after replayed stays
    have later : Passing config c runner names := by
      refine ⟨passing.distinct.of_cons, fun other member => passing.staged other (List.mem_cons_of_mem name member), ?_⟩
      intro other coordinator out
      obtain ⟨ahead, idle⟩ := passing.unread other coordinator out
      exact ⟨ahead, fun member => idle (List.mem_cons_of_mem name member)⟩
    exact later.replayed base replayed stays

theorem inv_apply (base : Base config c runner.state) (attentive : Attentive config c runner) {update : ProcessStatus}
    {rest : List ProcessStatus} (promises : Promises config c runner (.collecting (update :: rest))) (now : Time) :
    Inv config (dispatch config now { processStatus := some update } (.collecting rest) runner c) := by
  obtain ⟨read, expected⟩ := promises
  apply inv_dispatch base attentive
  · intro other name earlier run next given known waits named entered numbered follows coordinator mine current
    cases given
    obtain ⟨writer, written⟩ := read update List.mem_cons_self
    obtain ⟨own, author, forked, wrote, announced, writes⟩ := base.logged.authored writer update written
    cases own.symm.trans named
    have assigned := base.assigned name
    rw [runsOf_eq known] at assigned
    have theirs : c.Mine name author := ⟨forked, wrote, announced⟩
    obtain ⟨initial, same⟩ := assigned.fitting waits theirs writes numbered
    rw [initial, assigned.alone author coordinator theirs mine (same.trans current.symm)]
  · intro status given
    cases given
  · intro after recorded
    refine ⟨fun other member => read other (List.mem_cons_of_mem update member), ?_⟩
    intro name coordinator out
    obtain ⟨before, _⟩ := Replayed.out recorded.replayed base out
    rcases List.mem_cons.mp (expected name coordinator before) with this | later
    · obtain ⟨earlier, run, listed, waits, _⟩ := out.current
      have named : update.process = some name := by
        rw [← this, ← before.mine.2.1]
        rfl
      have forked : update.state = some .forked := by
        rw [← this]
        rfl
      cases recorded.taken update rfl rfl rfl name with
      | other different => exact absurd named different
      | opened _ entered => cases forked.symm.trans entered
      | moved _ entered goes _ _ _ advanced =>
        exact absurd waits (not_waiting_of_advanced goes advanced (get?_of_runsOf listed))
    · exact later

structure Looks (files : ProcessFiles) (before after : ProcessMuxer) : Prop where
  kept : ∀ name watermark position, before.processes.get? name = some ⟨watermark, position⟩ →
    ∃ reached, after.processes.get? name = some ⟨watermark, reached⟩ ∧
      ∀ length, reached = some length → (∀ there, position = some there → there ≤ (content files name).length) →
        length ≤ (content files name).length

theorem Attentive.watched (attentive : Attentive config c runner) {watcher : ProcessMuxer}
    (watched : Looks c.files runner.watcher watcher) : Attentive config c { runner with watcher } where
  planned := by
    intro name plan
    rw [← attentive.planned name plan]
    cases plan <;> rfl
  attends := by
    intro name earlier run known waits
    obtain ⟨process, position, there, bounded⟩ := attentive.attends name earlier run known waits
    obtain ⟨reached, after, length⟩ := watched.kept name _ position there
    exact ⟨process, reached, after, fun last same => length last same bounded⟩

theorem looks_select {files : ProcessFiles} {muxer after : ProcessMuxer} {updates : List ProcessStatus}
    (ran : (select files).run muxer = .ok updates after) : Looks files muxer after := by
  refine ⟨fun name watermark position there => ?_⟩
  obtain ⟨_, reached, kept, bounded⟩ := select_watched ran there
  exact ⟨reached, kept, fun length same _ => bounded length same⟩

theorem final_hasData_ok {files : ProcessFiles} {muxer after : ProcessMuxer} {name : Name} {found : Bool}
    (ran : (ProcessMuxer.hasData files name).run muxer = .ok found after) : after = muxer.bindProcesses files := by
  have last := @final_hasData files muxer name
  rwa [ran] at last

theorem looks_hasData {files : ProcessFiles} {muxer : ProcessMuxer} : Looks files muxer (muxer.bindProcesses files) := by
  refine ⟨fun name watermark position there => ⟨_, bindProcesses_watched there, ?_⟩⟩
  intro length same bounded
  split_ifs at same
  · cases position with
    | none =>
      cases same
      exact fastForward_le _ _ _
    | some reached =>
      cases same
      exact bounded reached rfl
  · exact bounded length same

theorem promises_select (base : Base config c runner.state) (attentive : Attentive config c runner)
    (ahead : ∀ name coordinator, Out c runner.state name coordinator → Ahead c.files runner name coordinator.initialUpdate)
    {updates : List ProcessStatus} {watcher : ProcessMuxer}
    (ran : (select c.files).run runner.watcher = .ok updates watcher) :
    Promises config c { runner with watcher } (.collecting updates) := by
  refine ⟨fun update member => mem_select ran member, ?_⟩
  intro name coordinator out
  obtain ⟨watermark, position, there, found⟩ := out_due base attentive out (ahead name coordinator out)
  exact (select_watched ran there).1 _ found

theorem inv_collect (base : Base config c runner.state) (attentive : Attentive config c runner)
    (passing : Passing config c runner []) {updates : List ProcessStatus} {watcher : ProcessMuxer}
    (ran : (select c.files).run runner.watcher = .ok updates watcher) :
    Inv config { c with holder := some { runner := { runner with watcher }, phase := .collecting updates } } := by
  have grown : ∀ holder, Grown c { c with holder } := fun holder => grown_of_same rfl rfl
  have ahead := fun name coordinator out => (passing.unread name coordinator out).1
  exact @Inv.of_some config _ { runner with watcher } _ (base.of_same rfl rfl rfl) rfl
    ((attentive.watched (looks_select ran)).grown (grown _))
    ((promises_select base attentive ahead ran).grown (grown _))

theorem mem_unapplied {updates kept : List ProcessStatus} (ran : unapplied state updates = .ok kept) :
    (∀ update ∈ kept, update ∈ updates) ∧ ∀ update ∈ updates,
      CheckpointDispatcher.wouldUpdate state { processStatus := some update } = .ok true → update ∈ kept := by
  induction updates generalizing kept with
  | nil =>
    cases ran
    simp
  | cons first rest ih =>
    simp only [unapplied, bind_eq_ok, pure_eq_ok] at ran
    obtain ⟨updates, would, others, later, rfl⟩ := ran
    obtain ⟨within, whole⟩ := ih later
    constructor
    · intro update member
      split_ifs at member with kept
      · rcases List.mem_cons.mp member with rfl | member
        · exact List.mem_cons_self
        · exact List.mem_cons_of_mem first (within update member)
      · exact List.mem_cons_of_mem first (within update member)
    · intro update member applies
      rcases List.mem_cons.mp member with rfl | member
      · cases would.symm.trans applies
        simp
      · have found := whole update member applies
        split_ifs
        · exact List.mem_cons_of_mem first found
        · exact found

theorem promises_unapplied {updates kept : List ProcessStatus} (base : Base config c runner.state)
    (promises : Promises config c runner (.collecting updates)) (ran : unapplied runner.state updates = .ok kept) :
    Promises config c runner (.collecting kept) := by
  obtain ⟨within, whole⟩ := mem_unapplied ran
  refine ⟨fun update member => promises.1 update (within update member), ?_⟩
  intro name coordinator out
  apply whole _ (promises.2 name coordinator out)
  obtain ⟨earlier, run, listed, waits, current⟩ := out.current
  have assigned := base.assigned name
  rw [listed] at assigned
  have known := get?_of_runsOf listed
  rw [← out.mine.2.1] at known
  cases assigned.last out.mine current with
  | awaited _ numbered =>
    simp [CheckpointDispatcher.wouldUpdate, Coordinator.initialUpdate, known, numbered]
  | adopted entered left => exact absurd (Option.some.inj (entered.symm.trans waits)) left

theorem inv_resume (base : Base config c runner.state) (attentive : Attentive config c runner)
    (promises : Promises config c runner .resuming) {updates kept : List ProcessStatus} {watcher : ProcessMuxer}
    (ran : (select c.files).run runner.watcher = .ok updates watcher) (split : unapplied runner.state updates = .ok kept) :
    Inv config (initializeCkptHeader config (.collecting kept) { runner with watcher } c) := by
  have selected := promises_select base attentive promises ran
  have read := @promises_unapplied config c { runner with watcher } updates kept base selected split
  have watching := attentive.watched (looks_select ran)
  unfold initializeCkptHeader
  split_ifs
  · apply @inv_dispatch config c { runner with watcher } _ _ base watching
    · exact fits_of_silent rfl
    · intro status given
      cases given
    · intro after recorded
      refine ⟨read.1, ?_⟩
      intro name coordinator out
      obtain ⟨before, _⟩ := Replayed.out recorded.replayed base out
      exact read.2 name coordinator before
  · have grown : ∀ holder, Grown c { c with holder } := fun holder => grown_of_same rfl rfl
    exact @Inv.of_some config _ { runner with watcher } _ (base.of_same rfl rfl rfl) rfl (watching.grown (grown _))
      (Promises.grown read (grown _))

theorem inv_hasData (base : Base config c runner.state) (attentive : Attentive config c runner)
    (promises : Promises config c runner .ready) :
    Inv config { c with holder := some ⟨{ runner with watcher := runner.watcher.bindProcesses c.files }, .ready⟩ } := by
  have grown : ∀ holder, Grown c { c with holder } := fun holder => grown_of_same rfl rfl
  refine @Inv.of_some config _ { runner with watcher := runner.watcher.bindProcesses c.files } .ready
    (base.of_same rfl rfl rfl) rfl ((attentive.watched looks_hasData).grown (grown _)) (Promises.grown ?_ (grown _))
  intro name coordinator out
  obtain ⟨ahead, idle⟩ := promises name coordinator out
  refine ⟨?_, idle⟩
  obtain ⟨watermark, position, there, found⟩ := out_due base attentive out ahead
  intro other reached bound
  have opened := (@bindProcesses_watched c.files _ name _ _ there).symm.trans bound
  obtain ⟨-, position_eq⟩ := Watched.mk.inj (Option.some.inj opened)
  have same := @due_opening watermark position (c.files.get? name)
  rw [show opening watermark position (c.files.get? name) = some reached from position_eq] at same
  show coordinator.initialUpdate ∈ due watermark (content c.files name) (some reached)
  rwa [content, same]

/-- A process that a pass picks belongs to the plan of the stage, so no FORKED record of it waits. -/
theorem inv_schedule (base : Base config c runner.state) (attentive : Attentive config c runner)
    (promises : Promises config c runner .ready) {now : Time} {names : List Name} (picks : Picks runner now names) :
    Inv config { c with holder := some { runner, phase := .launching names } } := by
  have grown : ∀ holder, Grown c { c with holder } := fun holder => grown_of_same rfl rfl
  have staged : ∀ name ∈ names, InStage config runner.state name := by
    intro name member
    obtain ⟨plan, runs, runnable⟩ := picks.2 name member
    refine ⟨plan, runs, (attentive.planned name plan).mp ?_⟩
    have unfiltered := (Finset.mem_filter.mp runnable).1
    exact ((Planner.mem_runnable _ name).mp unfiltered).1
  have passing : Passing config c runner names := by
    refine ⟨picks.1, staged, ?_⟩
    intro name coordinator out
    obtain ⟨ahead, idle⟩ := promises name coordinator out
    exact ⟨ahead, fun member => idle (staged name member)⟩
  exact @Inv.of_some config _ runner (.launching names) (base.of_same rfl rfl rfl) rfl (attentive.grown (grown _))
    (passing.grown (grown _))

theorem inv_selectPlan (base : Base config c runner.state) (attentive : Attentive config c runner) {resumes : Bool}
    (promises : Promises config c runner (.entering resumes)) (plan : Option Plan) :
    Inv config { c with holder := some ⟨{ runner with plan }, if resumes then .resuming else .ready⟩ } := by
  have grown : ∀ holder, Grown c { c with holder } := fun holder => grown_of_same rfl rfl
  have selected : Attentive config c { runner with plan } := by
    constructor
    · intro name other
      rw [← attentive.planned name other]
      cases other <;> rfl
    · intro name earlier run known waits
      obtain ⟨process, watched⟩ := attentive.attends name earlier run known waits
      exact ⟨process, watched⟩
  refine @Inv.of_some config _ { runner with plan } _ (base.of_same rfl rfl rfl) rfl (selected.grown (grown _)) ?_
  cases resumes with
  | true => exact Promises.grown (show Promises config c { runner with plan } .resuming from promises) (grown _)
  | false => exact Promises.grown (show Promises config c { runner with plan } .ready from promises) (grown _)

theorem content_append_nil (files : ProcessFiles) (name other : Name) :
    content (append files name []) other = content files other := by
  by_cases same : other = name
  · subst same
    rw [content_append, List.append_nil]
  · exact content_append_ne files [] same

theorem inv_prepared (base : Base config c runner.state) (attentive : Attentive config c runner) {names : List Name}
    (passing : Passing config c runner (name :: names)) {run : ProcessRun}
    (current : runner.state.currentRun (some name) = some run) (waits : run.state = some .waiting) (head : Nat)
    (forkTime : Time) :
    Inv config { c with
      files := append c.files name [], holder := some ⟨runner, .prepared name head forkTime names⟩ } := by
  have grown : Grown c { c with
      files := append c.files name [], holder := some ⟨runner, .prepared name head forkTime names⟩ } := by
    refine ⟨fun other => ⟨[], by rw [List.append_nil]; exact content_append_nil c.files name other⟩, ?_, fun _ _ found => found⟩
    intro other
    funext coordinator
    unfold Mine Coordinator.Announced
    rw [content_append_nil]
    rfl
  have logged : Logged _ := @Logged.append c name base.logged [] (by simp)
  obtain ⟨earlier, known⟩ := RunnerState.get?_of_currentRun current
  exact @Inv.of_some config _ runner _ (base.grown rfl (logged.of_same rfl rfl) grown rfl) rfl (attentive.grown grown)
    ⟨passing.grown grown, earlier, run, known, waits⟩

theorem mine_fork (base : Base config c state) (fresh : ∀ other ∈ c.coordinators, other.key ≠ coordinator.key)
    (holder : Option Holder) (name : Name) :
    Mine { c with holder, coordinators := c.coordinators ++ [coordinator] } name = c.Mine name := by
  funext other
  unfold Mine origins
  rw [List.map_append, List.mem_append, List.map_singleton, List.mem_singleton]
  apply propext
  refine ⟨?_, fun ⟨forked, rest⟩ => ⟨.inl forked, rest⟩⟩
  rintro ⟨forked | rfl, named, announced⟩
  · exact ⟨forked, named, announced⟩
  · obtain ⟨_, author, listed, _, _, writes⟩ := base.logged.authored _ _ announced
    have initial := writes.initial rfl
    obtain ⟨parent, member, rfl⟩ := mem_origins.mp listed
    simp only [Coordinator.initialUpdate, Coordinator.origin, ProcessStatus.mk.injEq, Option.some.injEq] at initial
    refine absurd ?_ (fresh parent member)
    simp only [Coordinator.key, initial]

theorem inv_fork (base : Base config c runner.state) (attentive : Attentive config c runner) {names : List Name}
    {head : Nat} {forkTime : Time} (promises : Promises config c runner (.prepared name head forkTime names))
    {process : TaskProcess} (made : runner.taskProcesses.get? name = some process) {pid : Int}
    (fresh : ∀ other ∈ c.coordinators, other.key ≠ (pid, forkTime)) :
    Inv config { c with
      holder := some ⟨runner, .forked c.coordinators.length names⟩
      coordinators := c.coordinators ++ [{ name, run := process.run, seq := process.seq, pid, forkTime, head }] } := by
  obtain ⟨passing, earlier, run, known, waits⟩ := promises
  obtain ⟨⟨object, found, placed, numbered⟩, _⟩ := attentive.attends name earlier run known waits
  cases made.symm.trans found
  have follows := numbered fun coordinator out => (passing.unread name coordinator out).2 List.mem_cons_self
  let forked : Coordinator := { name, run := process.run, seq := process.seq, pid, forkTime, head }
  let next : Coordination := { c with
    holder := some ⟨runner, .forked c.coordinators.length names⟩, coordinators := c.coordinators ++ [forked] }
  have origins : next.origins = c.origins ++ [forked] := List.map_append
  have grown : Grown c next := by
    refine ⟨fun other => ⟨[], (List.append_nil _).symm⟩, @mine_fork config c _ forked base fresh _, ?_⟩
    intro index coordinator there
    rw [origins, List.getElem?_append_left (List.getElem?_eq_some_iff.mp there).1, there]
  have logged : Logged next := (@Logged.fork c forked base.logged fresh rfl).of_same rfl rfl
  refine @Inv.of_some config next runner _ ⟨base.replayed, logged, ?_, ?_⟩ rfl (attentive.grown grown) ?_
  · intro other
    rw [grown.mine]
    exact base.assigned other
  · intro early coordinator member
    rw [origins, List.mem_append, List.mem_singleton] at member
    rcases member with old | rfl
    · exact base.staged early coordinator old
    · obtain ⟨plan, runs, selected⟩ := passing.staged name List.mem_cons_self
      rcases early with active | cleaning
      · rw [active] at runs
        cases runs
        exact selected
      · rw [cleaning] at runs
        cases runs
  · refine ⟨forked, ?_, passing.grown grown, earlier, run, known, waits, placed, follows⟩
    rw [origins, show c.coordinators.length = c.origins.length from (List.length_map _).symm,
      List.getElem?_concat_length]

theorem mine_announced (holder : Option Holder) (name : Name) (other : Coordinator) :
    Mine { c with files := append c.files coordinator.name [coordinator.initialUpdate], holder } name other ↔
      c.Mine name other ∨ (name = coordinator.name ∧ other ∈ c.origins ∧ other.initialUpdate = coordinator.initialUpdate) := by
  unfold Mine Coordinator.Announced
  constructor
  · rintro ⟨forked, rfl, announced⟩
    by_cases same : other.name = coordinator.name
    · simp only [same, content_append, List.mem_append, List.mem_singleton] at announced
      rcases announced with old | new
      · exact .inl ⟨forked, rfl, by rwa [same]⟩
      · exact .inr ⟨same, forked, new⟩
    · simp only [content_append_ne _ _ same] at announced
      exact .inl ⟨forked, rfl, announced⟩
  · rintro (⟨forked, named, announced⟩ | ⟨rfl, forked, same⟩)
    · exact ⟨forked, named, mem_content_append announced⟩
    · have named : other.name = coordinator.name := Option.some.inj (congrArg ProcessStatus.process same)
      refine ⟨forked, named, ?_⟩
      rw [named, same, content_append]
      exact List.mem_append_right _ List.mem_cons_self

theorem origin_of_initialUpdate (logged : Logged c) {first second : Coordinator} (left : first ∈ c.origins)
    (right : second ∈ c.origins) (same : first.initialUpdate = second.initialUpdate) : first = second := by
  apply logged.origin_eq left right
  simp only [Coordinator.initialUpdate, ProcessStatus.mk.injEq, Option.some.injEq] at same
  simp only [Coordinator.key, same]

section Announcing

variable {holder : Option Holder}

/-- The parent has written the FORKED record of a coordinator. -/
def announce (c : Coordination) (coordinator : Coordinator) (holder : Option Holder) : Coordination :=
  { c with files := append c.files coordinator.name [coordinator.initialUpdate], holder }

theorem mine_announce (logged : Logged c) (forked : coordinator.origin ∈ c.origins) (name : Name) (other : Coordinator) :
    Mine (announce c coordinator holder) name other ↔
      c.Mine name other ∨ name = coordinator.name ∧ other = coordinator.origin := by
  unfold announce
  rw [mine_announced]
  refine or_congr_right (and_congr_right fun _ => ⟨?_, ?_⟩)
  · rintro ⟨listed, same⟩
    exact origin_of_initialUpdate logged listed forked same
  · rintro rfl
    exact ⟨forked, rfl⟩

theorem content_announce (c : Coordination) (coordinator : Coordinator) (name : Name) :
    ∃ more, content (announce c coordinator holder).files name = content c.files name ++ more := by
  by_cases same : name = coordinator.name
  · subst same
    exact ⟨_, content_append _ _ _⟩
  · exact ⟨[], by rw [List.append_nil]; exact content_append_ne _ _ same⟩

theorem Logged.announce (logged : Logged c) (forked : coordinator.origin ∈ c.origins) :
    Logged (announce c coordinator holder) := by
  refine (logged.append ?_).of_same rfl rfl
  intro record member
  cases List.mem_singleton.mp member
  exact ⟨rfl, coordinator.origin, forked, rfl, announced_append c.files coordinator, .forked rfl⟩

variable {earlier : List ProcessRun} {run : ProcessRun} {names : List Name}

theorem Base.announce (base : Base config c state) (forked : coordinator.origin ∈ c.origins)
    (listed : state.runsOf coordinator.name = earlier ++ [run]) (waits : run.state = some .waiting)
    (placed : coordinator.run = earlier.length) (numbered : coordinator.seq = run.seq + 1)
    (unread : ∀ other, ¬ Out c state coordinator.name other) : Base config (announce c coordinator holder) state where
  replayed := base.replayed
  logged := base.logged.announce forked
  staged := base.staged
  assigned := by
    intro name
    by_cases same : name = coordinator.name
    · subst same
      have assigned := base.assigned coordinator.name
      rw [listed] at assigned ⊢
      have own : coordinator.origin.run = earlier.length ∧ coordinator.origin.seq = run.seq + 1 := ⟨placed, numbered⟩
      refine assigned.announce waits own.1 own.2 ?_ fun other theirs => ?_
      · intro other theirs current
        exact unread other ⟨theirs, earlier, run, listed, waits, current⟩
      · exact ((mine_announce base.logged forked coordinator.name other).mp theirs).imp_right And.right
    · have unchanged : Mine (Coordination.announce c coordinator holder) name = c.Mine name := by
        funext other
        apply propext
        rw [mine_announce base.logged forked]
        exact or_iff_left fun new => same new.1
      rw [unchanged]
      exact base.assigned name

theorem Attentive.announce (attentive : Attentive config c runner) (logged : Logged c)
    (forked : coordinator.origin ∈ c.origins)
    (known : runner.state.processes.get? (some coordinator.name) = some (earlier ++ [run]))
    (waits : run.state = some .waiting) (placed : coordinator.run = earlier.length) {process : TaskProcess}
    (made : process.run = coordinator.run) :
    Attentive config (announce c coordinator holder)
      { runner with taskProcesses := runner.taskProcesses.set coordinator.name process } where
  planned := fun name plan => by rw [← attentive.planned name plan]; cases plan <;> rfl
  attends := by
    intro name front last listed waiting
    obtain ⟨⟨object, held, ran, follows⟩, position, watched, bounded⟩ := attentive.attends name front last listed waiting
    have mine := fun other => @mine_announce c coordinator holder logged forked name other
    constructor
    · by_cases same : name = coordinator.name
      · subst same
        obtain ⟨rfl, only⟩ := List.append_inj' (Option.some.inj (known.symm.trans listed)) rfl
        cases only
        refine ⟨process, Dict.get?_set_self _ _ _, made.trans placed, fun unread => ?_⟩
        refine absurd ⟨(mine coordinator.origin).mpr (.inr ⟨rfl, rfl⟩), ?_⟩ (unread coordinator.origin)
        exact ⟨earlier, run, runsOf_eq known, waits, placed⟩
      · refine ⟨object, (Dict.get?_set_ne _ _ same).trans held, ran, fun unread => follows fun other out => ?_⟩
        exact unread other ⟨(mine other).mpr (.inl out.mine), out.current⟩
    · refine ⟨position, watched, ?_⟩
      intro reached there
      obtain ⟨more, longer⟩ := @content_announce holder c coordinator name
      rw [longer, List.length_append]
      have before := bounded reached there
      omega

/-- The new FORKED record is ahead of the watcher, and its process is not launched again. -/
theorem Passing.announce (passing : Passing config c runner (coordinator.name :: names)) (logged : Logged c)
    (attentive : Attentive config c runner) (forked : coordinator.origin ∈ c.origins)
    (known : runner.state.processes.get? (some coordinator.name) = some (earlier ++ [run]))
    (waits : run.state = some .waiting) {taskProcesses : Dict Name TaskProcess} :
    Passing config (announce c coordinator holder) { runner with taskProcesses } names where
  distinct := passing.distinct.of_cons
  staged := fun name member => passing.staged name (List.mem_cons_of_mem _ member)
  unread := by
    intro name other out
    rcases (mine_announce logged forked name other).mp out.mine with old | ⟨rfl, rfl⟩
    · obtain ⟨ahead, idle⟩ := passing.unread name other ⟨old, out.current⟩
      refine ⟨?_, fun member => idle (List.mem_cons_of_mem _ member)⟩
      intro watermark reached there
      obtain ⟨more, longer⟩ := @content_announce holder c coordinator name
      rw [longer, List.drop_append]
      exact List.mem_append_left _ (ahead watermark reached there)
    · refine ⟨?_, (List.nodup_cons.mp passing.distinct).1⟩
      intro watermark reached there
      obtain ⟨_, position, watched, bounded⟩ := attentive.attends coordinator.name earlier run known waits
      cases watched.symm.trans there
      have bound := bounded reached rfl
      show coordinator.initialUpdate ∈ (content (append c.files coordinator.name [coordinator.initialUpdate]) _).drop reached
      rw [content_append, List.drop_append_of_le_length bound]
      exact List.mem_append_right _ List.mem_cons_self

end Announcing

theorem inv_finalizeFork (base : Base config c runner.state) (attentive : Attentive config c runner) {names : List Name}
    {index : Nat} (promises : Promises config c runner (.forked index names))
    (found : c.coordinators[index]? = some coordinator) {process : TaskProcess} (made : process.run = coordinator.run) :
    Inv config { c with
      files := append c.files coordinator.name [coordinator.initialUpdate]
      holder := some ⟨{ runner with taskProcesses := runner.taskProcesses.set coordinator.name process },
        .launching names⟩ } := by
  obtain ⟨origin, there, passing, earlier, run, known, waits, placed, numbered⟩ := promises
  have same : origin = coordinator.origin := by
    unfold origins at there
    rw [List.getElem?_map, found] at there
    exact (Option.some.inj there).symm
  subst same
  have forked : coordinator.origin ∈ c.origins := List.mem_of_getElem? there
  have unread : ∀ other, ¬ Out c runner.state coordinator.name other :=
    fun other out => (passing.unread coordinator.name other out).2 List.mem_cons_self
  let after : Runner := { runner with taskProcesses := runner.taskProcesses.set coordinator.name process }
  refine @Inv.of_some config (announce c coordinator (some ⟨after, .launching names⟩)) after (.launching names) ?_ rfl ?_ ?_
  · exact base.announce forked (runsOf_eq known) waits placed numbered unread
  · exact attentive.announce base.logged forked known waits placed made
  · exact passing.announce base.logged attentive forked known waits

end HolderSteps

section Stages

def unadopted (files : ProcessFiles) (runner : Runner) (name : Name) : Bool :=
  match runner.state.currentRun (some name) with
  | none => false
  | some run => run.state = some .waiting && (content files name).any fun record =>
      record.state = some .forked && record.seq = some (run.seq + 1)

def InBoth (task : Task) (name : Name) : Prop := Selected task isRegular name ∧ Selected task isFinalizing name

instance (task : Task) (filter : Process → Bool) (name : Name) : Decidable (Selected task filter name) :=
  inferInstanceAs (Decidable (∃ process ∈ task.processes, _))

instance (task : Task) (name : Name) : Decidable (InBoth task name) := inferInstanceAs (Decidable (_ ∧ _))

/-- FINALIZING is not entered while a process that it runs again has a FORKED record that is not adopted. -/
def Adopted (config : RunnerConfig) (c : Coordination) : Event → Prop
  | .transition .finalizing _ => ∀ holder ∈ c.holder, ∀ process ∈ config.task.processes,
      InBoth config.task process.name → unadopted c.files holder.runner process.name = false
  | _ => True

instance (config : RunnerConfig) (c : Coordination) (event : Event) : Decidable (Adopted config c event) := by
  unfold Adopted
  split <;> infer_instance

theorem unadopted_of_out (base : Base config c runner.state) (out : Out c runner.state name coordinator) :
    unadopted c.files runner name = true := by
  obtain ⟨earlier, run, listed, waits, current⟩ := out.current
  have assigned := base.assigned name
  rw [listed] at assigned
  have announced := out.mine.2.2
  rw [Coordinator.Announced, out.mine.2.1] at announced
  cases assigned.last out.mine current with
  | awaited _ numbered =>
    simp only [unadopted, RunnerState.currentRun_of_get? (get?_of_runsOf listed), waits, decide_true, Bool.true_and,
      List.any_eq_true]
    exact ⟨_, announced, by simp [Coordinator.initialUpdate, numbered]⟩
  | adopted entered left => exact absurd (Option.some.inj (entered.symm.trans waits)) left

theorem inv_transition (base : Base config c runner.state) (attentive : Attentive config c runner)
    (passing : Passing config c runner []) {target : TaskState} (follows : target ∈ nextStates runner.state.stage)
    (adopted : target = .finalizing → ∀ process ∈ config.task.processes, InBoth config.task process.name →
      unadopted c.files runner process.name = false) (timestampMs : Int) :
    Inv config (setTaskStatus config target timestampMs false runner c) := by
  apply inv_dispatch base attentive
  · exact fits_of_silent rfl
  · intro status given early
    cases given
    unfold nextStates at follows
    split at follows
    next active => exact .inl active
    · rcases early with early | early <;> cases Option.some.inj early <;> simp at follows
    · rcases early with early | early <;> cases Option.some.inj early <;> simp at follows
    · cases follows
  · intro after recorded name coordinator out
    obtain ⟨before, _, watched⟩ := Replayed.out recorded.replayed base out
    refine ⟨(passing.unread name coordinator before).1.replayed watched, ?_⟩
    rintro ⟨plan, runs, selected⟩
    rw [recorded.entered _ rfl rfl] at runs
    cases target with
    | finalizing =>
      cases runs
      have cleaning : Early runner.state := by
        unfold nextStates at follows
        split at follows
        next active => exact .inl active
        next cleaning => exact .inr cleaning
        · simp at follows
        · cases follows
      have regular := base.staged cleaning coordinator before.mine.1
      rw [before.mine.2.1] at regular
      obtain ⟨process, listed, _, named⟩ := selected
      have quiet := adopted rfl process listed (by rw [named]; exact ⟨regular, process, listed, by assumption, named⟩)
      rw [named, unadopted_of_out base before] at quiet
      cases quiet
    | active =>
      unfold nextStates at follows
      split at follows <;> simp at follows
    | _ => cases runs

/-- A runner that takes over finds the state that the checkpoint stream tells. -/
theorem state_of_create (base : Base config c state) {answers : List Answer}
    (created : TaskRunner.create config c.stream answers = .ok runner) : runner.state = state := by
  obtain ⟨fresh, rebuilt, begun, ran, rfl⟩ := create_eq_ok.mp created
  simp only [Runner.init, bind_eq_ok, pure_eq_ok] at begun
  obtain ⟨_, _, _, _, rfl⟩ := begun
  have replayed := TaskRunner.replayed_state rfl ran
  cases base.replayed.symm.trans replayed
  rfl

theorem inv_takeOver (base : Base config c state) {answers : List Answer}
    (created : TaskRunner.create config c.stream answers = .ok runner) {entered : TaskState}
    (current : TaskRunner.taskState runner = some entered) (timestampMs : Int) :
    Inv config (setTaskStatus config entered timestampMs true { runner with recovery := false } c) := by
  have same := state_of_create base created
  rw [← same] at base
  have attends := fun name => attends_of_create created name
  have attentive : Attentive config c { runner with recovery := false } := by
    refine ⟨fun name plan => by rw [← (attends name).2 plan]; cases plan <;> rfl, ?_⟩
    intro name earlier run known waits
    obtain ⟨process, watched⟩ := (attends name).1 earlier run known waits
    exact ⟨⟨_, process, rfl, fun _ => rfl⟩, none, watched, fun _ absurd => by cases absurd⟩
  apply @inv_dispatch config c { runner with recovery := false } _ _ base attentive
  · exact fits_of_silent rfl
  · intro status given early
    cases given
    rw [taskState_eq_stage] at current
    unfold Early
    rwa [show ({ runner with recovery := false } : Runner).state.stage = some entered from current]
  · intro after recorded name coordinator out
    obtain ⟨before, _, watched⟩ := Replayed.out recorded.replayed base out
    intro watermark reached there
    obtain ⟨earlier, run, listed, waits, _⟩ := before.current
    have fresh := ((attends name).1 earlier run (get?_of_runsOf listed) waits).2
    rw [watched, show ({ runner with recovery := false } : Runner).watcher = runner.watcher from rfl, fresh] at there
    cases there

end Stages

section CoordinatorSteps

theorem Inv.grown (inv : Inv config c) (stream : next.stream = c.stream) (holder : next.holder = c.holder)
    (logged : Logged next) (grown : Grown c next) (origins : next.origins = c.origins) : Inv config next where
  base := by
    obtain ⟨state, base, agrees⟩ := inv.base
    exact ⟨state, base.grown stream logged grown origins, fun held there => agrees held (holder ▸ there)⟩
  held := by
    intro held there
    rw [holder] at there
    exact ⟨(inv.held held there).attentive.grown grown, (inv.held held there).promises.grown grown⟩

theorem grown_fate {index : Nat} (found : c.coordinators[index]? = some coordinator) (fate : Fate) :
    Grown c { c with coordinators := c.coordinators.set index { coordinator with fate } } := by
  have origins := origins_set found fate
  refine ⟨fun name => ⟨[], (List.append_nil _).symm⟩, ?_, ?_⟩
  · intro name
    unfold Mine
    rw [origins]
  · intro position other there
    rwa [origins]

theorem grown_write {index : Nat} (found : c.coordinators[index]? = some coordinator) {update : ProcessStatus}
    (further : update.state ≠ some .forked) (fate : Fate) : Grown c { c with
      files := append c.files coordinator.name [update]
      coordinators := c.coordinators.set index { coordinator with fate } } := by
  have origins : origins { c with
      files := append c.files coordinator.name [update]
      coordinators := c.coordinators.set index { coordinator with fate } } = c.origins := origins_set found fate
  refine ⟨?_, ?_, ?_⟩
  · intro name
    by_cases same : name = coordinator.name
    · subst same
      exact ⟨_, content_append _ _ _⟩
    · exact ⟨[], by rw [List.append_nil]; exact content_append_ne _ _ same⟩
  · intro name
    funext other
    unfold Mine
    rw [origins]
    have same : Coordinator.Announced (append c.files coordinator.name [update]) other ↔ other.Announced c.files := by
      refine ⟨?_, mem_content_append⟩
      intro member
      by_cases same : other.name = coordinator.name
      · rw [Coordinator.Announced, same, content_append, List.mem_append, List.mem_singleton] at member
        rcases member with old | new
        · rwa [Coordinator.Announced, same]
        · exact absurd (congrArg ProcessStatus.state new.symm) further
      · rwa [Coordinator.Announced, content_append_ne _ _ same] at member
    simp only [same]
  · intro position other there
    rwa [origins]

/-- The steps of a coordinator leave the runner and its stream alone, and announce nobody. -/
theorem coordinatorStep_grown {event : Event} {index : Nat} (found : c.coordinators[index]? = some coordinator)
    (taken : coordinatorStep c index coordinator event = some next) :
    next.stream = c.stream ∧ next.holder = c.holder ∧ next.origins = c.origins ∧ Grown c next := by
  unfold coordinatorStep at taken
  split at taken
  · split at taken
    · cases taken
      exact ⟨rfl, rfl, origins_set found _, grown_fate found _⟩
    · cases taken
  · split at taken
    · cases taken
      exact ⟨rfl, rfl, origins_set found _, grown_write found (by simp) _⟩
    · cases taken
  · split at taken
    · simp only [Option.ite_none_right_eq_some, Option.some.injEq] at taken
      obtain ⟨ends, rfl⟩ := taken
      refine ⟨rfl, rfl, origins_set found _, grown_write found ?_ _⟩
      rcases ends with rfl | rfl | rfl <;> simp
    · cases taken
  · cases taken

theorem inv_write (inv : Inv config c) {index : Nat} (found : c.coordinators[index]? = some coordinator)
    {update : ProcessStatus} (own : update.process = some coordinator.name) (further : update.state ≠ some .forked)
    (announced : coordinator.Announced c.files) (writes : coordinator.Writes update) (fate : Fate)
    (fares : Coordinator.Fares (append c.files coordinator.name [update]) { coordinator with fate }) :
    Inv config { c with
      files := append c.files coordinator.name [update]
      coordinators := c.coordinators.set index { coordinator with fate } } := by
  obtain ⟨state, base, _⟩ := inv.base
  have origin : coordinator.origin ∈ c.origins := mem_origins.mpr ⟨coordinator, List.mem_of_getElem? found, rfl⟩
  have appended : Logged { c with files := append c.files coordinator.name [update] } := by
    apply base.logged.append
    intro record member
    cases List.mem_singleton.mp member
    refine ⟨own, coordinator.origin, origin, rfl, mem_content_append announced, ?_⟩
    cases writes with
    | forked initial => exact .forked initial
    | running entered numbered => exact .running entered numbered
    | ended entered numbered => exact .ended entered numbered
  have logged := Logged.set appended found fares
  exact inv.grown rfl rfl logged (grown_write found further fate) (origins_set found fate)

theorem inv_fate (inv : Inv config c) {index : Nat} (found : c.coordinators[index]? = some coordinator)
    (fate : Fate) (fares : Coordinator.Fares c.files { coordinator with fate }) :
    Inv config { c with coordinators := c.coordinators.set index { coordinator with fate } } := by
  obtain ⟨state, base, _⟩ := inv.base
  exact inv.grown rfl rfl (base.logged.set found fares) (grown_fate found fate) (origins_set found fate)

end CoordinatorSteps

section Steps

variable {event : Event}

/-- Everything that a step of the runner that holds the lock can do. -/
inductive HolderMoves (config : RunnerConfig) (c : Coordination) (runner : Runner) : Phase → Event → Coordination → Prop
  | crashed (phase : Phase) : HolderMoves config c runner phase .crash { c with holder := none }
  | marked {phase : Phase} {entered : ProcessState}
      (between : phase = .entering true ∨ phase = .entering false ∨ phase = .ready)
      (ends : entered = .lost ∨ entered = .killed) (now : Time) (name : Name) (stopTime : Option Time)
      (returnCode : Option Int) :
      HolderMoves config c runner phase (.mark name entered stopTime returnCode now)
        (setProcessStatus config now name entered stopTime returnCode phase runner c)
  | selected (resumes : Bool) :
      HolderMoves config c runner (.entering resumes) .selectPlan
        { c with holder := some ⟨
            { runner with plan := (stagePlan (TaskRunner.taskState runner)).orElse fun _ => runner.plan },
            if resumes then .resuming else .ready⟩ }
  | looked {name : Name} {found : Bool} {watcher : ProcessMuxer}
      (ran : (ProcessMuxer.hasData c.files name).run runner.watcher = .ok found watcher) :
      HolderMoves config c runner .ready (.hasData name) { c with holder := some ⟨{ runner with watcher }, .ready⟩ }
  | blind (name : Name) : HolderMoves config c runner .ready (.hasData name) { c with holder := none }
  | resumed {updates kept : List ProcessStatus} {watcher : ProcessMuxer}
      (ran : (select c.files).run runner.watcher = .ok updates watcher)
      (split : unapplied runner.state updates = .ok kept) :
      HolderMoves config c runner .resuming .resume
        (initializeCkptHeader config (.collecting kept) { runner with watcher } c)
  | unresumed : HolderMoves config c runner .resuming .resume { c with holder := none }
  | collected {updates : List ProcessStatus} {watcher : ProcessMuxer}
      (ran : (select c.files).run runner.watcher = .ok updates watcher) :
      HolderMoves config c runner (.launching []) .collect
        { c with holder := some ⟨{ runner with watcher }, .collecting updates⟩ }
  | uncollected : HolderMoves config c runner (.launching []) .collect { c with holder := none }
  | read (now : Time) :
      HolderMoves config c runner (.collecting []) (.apply now) { c with holder := some ⟨runner, .ready⟩ }
  | applied (update : ProcessStatus) (rest : List ProcessStatus) (now : Time) :
      HolderMoves config c runner (.collecting (update :: rest)) (.apply now)
        (dispatch config now { processStatus := some update } (.collecting rest) runner c)
  | scheduled {now : Time} {names : List Name} (picks : Picks runner now names) :
      HolderMoves config c runner .ready (.schedule now names) { c with holder := some ⟨runner, .launching names⟩ }
  | passed {target : TaskState} (follows : target ∈ nextStates (TaskRunner.taskState runner)) (timestampMs : Int) :
      HolderMoves config c runner (.launching []) (.transition target timestampMs)
        (setTaskStatus config target timestampMs false runner c)
  | awaited (name : Name) (names : List Name) (now : Time) :
      HolderMoves config c runner (.launching (name :: names)) (.await now)
        (setProcessStatus config now name .waiting none none (.launching (name :: names)) runner c)
  | prepared {name : Name} {names : List Name} {run : ProcessRun} (current : runner.state.currentRun (some name) = some run)
      (waits : run.state = some .waiting) (forkTime now : Time) :
      HolderMoves config c runner (.launching (name :: names)) (.prepareFork true forkTime now)
        { c with
          files := append c.files name []
          holder := some ⟨runner, .prepared name (content c.files name).length forkTime names⟩ }
  | unlocked {name : Name} {names : List Name} {run : ProcessRun} (current : runner.state.currentRun (some name) = some run)
      (waits : run.state = some .waiting) (forkTime now : Time) :
      HolderMoves config c runner (.launching (name :: names)) (.prepareFork false forkTime now)
        (setProcessStatus config now name .failed none none (.launching names) runner c)
  | refused {name : Name} {names : List Name}
      (idle : ∀ run, runner.state.currentRun (some name) = some run → run.state ≠ some .waiting) (acquired : Bool)
      (forkTime now : Time) :
      HolderMoves config c runner (.launching (name :: names)) (.prepareFork acquired forkTime now)
        { c with holder := none }
  | forked {name : Name} {names : List Name} {head : Nat} {forkTime : Time} {process : TaskProcess} {pid : Int}
      (made : runner.taskProcesses.get? name = some process)
      (fresh : ∀ other ∈ c.coordinators, other.key ≠ (pid, forkTime)) :
      HolderMoves config c runner (.prepared name head forkTime names) (.fork pid)
        { c with
          holder := some ⟨runner, .forked c.coordinators.length names⟩
          coordinators := c.coordinators ++ [{ name, run := process.run, seq := process.seq, pid, forkTime, head }] }
  | finalized {index : Nat} {names : List Name} {coordinator : Coordinator}
      (found : c.coordinators[index]? = some coordinator) :
      HolderMoves config c runner (.forked index names) .finalizeFork
        { c with
          files := append c.files coordinator.name [coordinator.initialUpdate]
          holder := some ⟨{ runner with
            taskProcesses := runner.taskProcesses.set coordinator.name
              { seq := coordinator.seq + 1, run := coordinator.run, pid := some coordinator.pid,
                forkTime := some coordinator.forkTime } }, .launching names⟩ }

/-- A launch goes as the run that is picked stands. -/
theorem prepareFork_moves {acquired : Bool} {forkTime now : Time}
    (taken : holderStep config c runner phase (.prepareFork acquired forkTime now) = some next) :
    HolderMoves config c runner phase (.prepareFork acquired forkTime now) next := by
  simp only [holderStep] at taken
  split at taken
  next name names =>
    split at taken
    next process run made current =>
      split_ifs at taken with waits acquires
      · cases taken
        subst acquires
        exact .prepared current waits forkTime now
      · cases taken
        rw [Bool.not_eq_true] at acquires
        subst acquires
        exact .unlocked current waits forkTime now
      · cases taken
        exact .refused (fun other found => by cases current.symm.trans found; exact waits) acquired forkTime now
    next process made current =>
      cases taken
      exact .refused (fun other found => by cases current.symm.trans found) acquired forkTime now
    · cases taken
  · cases taken

theorem holderStep_moves (taken : holderStep config c runner phase event = some next) :
    HolderMoves config c runner phase event next := by
  cases event with
  | takeOver | waitForControl | running | finish => cases taken
  | crash =>
    cases taken
    exact .crashed phase
  | mark name entered stopTime returnCode now =>
    simp only [holderStep, Option.ite_none_right_eq_some, Option.some.injEq] at taken
    obtain ⟨⟨between, ends⟩, rfl⟩ := taken
    exact .marked between ends now name stopTime returnCode
  | selectPlan =>
    simp only [holderStep] at taken
    split at taken
    next resumes =>
      cases taken
      exact .selected resumes
    · cases taken
  | hasData name =>
    simp only [holderStep, Option.ite_none_right_eq_some] at taken
    obtain ⟨rfl, taken⟩ := taken
    split at taken
    next found watcher ran =>
      cases taken
      exact .looked ran
    · cases taken
      exact .blind name
  | resume =>
    simp only [holderStep, Option.ite_none_right_eq_some] at taken
    obtain ⟨rfl, taken⟩ := taken
    split at taken
    next updates watcher ran =>
      split at taken
      next kept split =>
        cases taken
        exact .resumed ran split
      · cases taken
        exact .unresumed
    · cases taken
      exact .unresumed
  | collect =>
    simp only [holderStep, Option.ite_none_right_eq_some] at taken
    obtain ⟨rfl, taken⟩ := taken
    split at taken
    next updates watcher ran =>
      cases taken
      exact .collected ran
    · cases taken
      exact .uncollected
  | apply now =>
    simp only [holderStep] at taken
    split at taken
    · cases taken
      exact .read now
    next update rest =>
      cases taken
      exact .applied update rest now
    · cases taken
  | schedule now names =>
    simp only [holderStep, Option.ite_none_right_eq_some, Option.some.injEq] at taken
    obtain ⟨⟨rfl, picks⟩, rfl⟩ := taken
    exact .scheduled picks
  | transition target timestampMs =>
    simp only [holderStep, Option.ite_none_right_eq_some, Option.some.injEq] at taken
    obtain ⟨⟨rfl, follows⟩, rfl⟩ := taken
    exact .passed follows timestampMs
  | await now =>
    simp only [holderStep] at taken
    split at taken
    next name names =>
      simp only [Option.ite_none_right_eq_some, Option.some.injEq] at taken
      obtain ⟨_, rfl⟩ := taken
      exact .awaited name names now
    · cases taken
  | prepareFork acquired forkTime now => exact prepareFork_moves taken
  | fork pid =>
    simp only [holderStep] at taken
    split at taken
    next name head forkTime names =>
      split at taken
      next process made =>
        simp only [Option.ite_none_right_eq_some, Option.some.injEq] at taken
        obtain ⟨fresh, rfl⟩ := taken
        exact .forked made fresh
      · cases taken
    · cases taken
  | finalizeFork =>
    simp only [holderStep] at taken
    split at taken
    next index names =>
      split at taken
      next coordinator found =>
        cases taken
        exact .finalized found
      · cases taken
    · cases taken

theorem inv_holderStep (base : Base config c runner.state) (attentive : Attentive config c runner)
    (promises : Promises config c runner phase) (there : c.holder = some ⟨runner, phase⟩)
    (adopted : Adopted config c event) (taken : holderStep config c runner phase event = some next) : Inv config next := by
  have gone : Inv config { c with holder := none } := .of_none (base.of_same rfl rfl rfl) rfl
  cases holderStep_moves taken with
  | crashed | blind | unresumed | uncollected | refused => exact gone
  | marked between ends now name stopTime returnCode =>
    exact inv_mark base attentive promises between ends now name stopTime returnCode
  | selected resumes => exact inv_selectPlan base attentive promises _
  | looked ran =>
    rw [final_hasData_ok ran]
    exact inv_hasData base attentive promises
  | resumed ran split => exact inv_resume base attentive promises ran split
  | collected ran => exact inv_collect base attentive promises ran
  | read =>
    have grown : Grown c { c with holder := some ⟨runner, .ready⟩ } := grown_of_same rfl rfl
    refine @Inv.of_some config _ runner .ready (base.of_same rfl rfl rfl) rfl (attentive.grown grown) ?_
    intro name coordinator out
    rw [out_grown grown] at out
    cases promises.2 name coordinator out
  | applied update rest now => exact inv_apply base attentive promises now
  | scheduled picks => exact inv_schedule base attentive promises picks
  | passed follows timestampMs =>
    refine inv_transition base attentive promises follows ?_ timestampMs
    rintro rfl process listed both
    exact adopted _ there process listed both
  | awaited name names now => exact inv_await base attentive promises now _
  | prepared current waits forkTime now => exact inv_prepared base attentive promises current waits _ forkTime
  | unlocked current waits forkTime now => exact inv_unprepared base attentive promises now
  | forked made fresh => exact inv_fork base attentive promises made fresh
  | finalized found => exact inv_finalizeFork base attentive promises found rfl

theorem inv_coordinatorStep (inv : Inv config c) {index : Nat} (found : c.coordinators[index]? = some coordinator)
    (taken : coordinatorStep c index coordinator event = some next) : Inv config next := by
  obtain ⟨state, base, _⟩ := inv.base
  have member := List.mem_of_getElem? found
  have fares := base.logged.fates coordinator member
  unfold coordinatorStep at taken
  split at taken
  · split at taken
    · cases taken
      exact inv_fate inv found _ (base.logged.waitForControl member _)
    · cases taken
  · split at taken
    next seq control =>
      cases taken
      simp only [Coordinator.Fares, control] at fares
      obtain ⟨announced, rfl⟩ := fares
      refine inv_write inv found rfl (by simp) announced (.running rfl rfl) _ ?_
      simp only [Coordinator.Fares]
      refine ⟨mem_content_append announced, ?_⟩
      simp
      omega
    · cases taken
  · split at taken
    next seq control =>
      simp only [Coordinator.Fares, control] at fares
      obtain ⟨announced, rfl⟩ := fares
      simp only [Option.ite_none_right_eq_some, Option.some.injEq] at taken
      obtain ⟨ends, rfl⟩ := taken
      refine inv_write inv found rfl ?_ announced (.ended ?_ rfl) _ ?_
      · rcases ends with rfl | rfl | rfl <;> simp
      · simpa using ends
      · exact mem_content_append announced
    · cases taken
  · cases taken

/-- Who takes a step: a runner that takes over, a coordinator, or the runner that holds the lock. -/
theorem step_cases (taken : step config c event = some next) :
    (∃ answers timestampMs runner entered, event = .takeOver answers timestampMs ∧ c.holder = none ∧
      TaskRunner.create config c.stream answers = .ok runner ∧ TaskRunner.taskState runner = some entered ∧
      next = setTaskStatus config entered timestampMs true { runner with recovery := false } c) ∨
    (∃ index coordinator, c.coordinators[index]? = some coordinator ∧
      (∀ other, event = .waitForControl other → other = index) ∧
      coordinatorStep c index coordinator event = some next) ∨
    ∃ runner phase, c.holder = some ⟨runner, phase⟩ ∧ holderStep config c runner phase event = some next := by
  unfold step at taken
  split at taken
  next answers timestampMs =>
    split at taken
    next runner held created =>
      split at taken
      next entered current =>
        split_ifs at taken
        cases taken
        exact .inl ⟨answers, timestampMs, runner, entered, rfl, held, created, current, rfl⟩
      · cases taken
    · cases taken
  next index =>
    split at taken
    next coordinator found =>
      exact .inr (.inl ⟨index, coordinator, found, (fun other same => (Event.waitForControl.inj same).symm), taken⟩)
    · cases taken
  next index pid startTime =>
    split at taken
    next coordinator found => exact .inr (.inl ⟨index, coordinator, found, (fun other same => by cases same), taken⟩)
    · cases taken
  next index state stopTime returnCode =>
    split at taken
    next coordinator found => exact .inr (.inl ⟨index, coordinator, found, (fun other same => by cases same), taken⟩)
    · cases taken
  · split at taken
    next holder there => exact .inr (.inr ⟨holder.runner, holder.phase, there, taken⟩)
    · cases taken

theorem inv_step (inv : Inv config c) (adopted : Adopted config c event) (taken : step config c event = some next) :
    Inv config next := by
  obtain ⟨state, base, agrees⟩ := inv.base
  rcases step_cases taken with ⟨answers, timestampMs, runner, entered, rfl, _, created, current, rfl⟩ |
    ⟨index, coordinator, found, _, taken⟩ | ⟨runner, phase, there, taken⟩
  · exact inv_takeOver base created current timestampMs
  · exact inv_coordinatorStep inv found taken
  · have held := inv.held _ there
    rw [← agrees _ there] at base
    exact inv_holderStep base held.attentive held.promises there adopted taken

end Steps

end Coordination

end Aurora.Thermos
