import Aurora.Thermos.Core.Fitting
import Aurora.Thermos.Core.Lives

namespace Aurora.Thermos

open Collections Guarantee Relation Replay

def selectedBy (statuses : Option (List TaskStatus)) : Option Plan :=
  (statuses.getD []).foldl (fun plan status => (status.state.map (TaskState.select plan)).getD plan) none

theorem selectedBy_append (statuses : Option (List TaskStatus)) {status : TaskStatus} {entered : TaskState}
    (given : status.state = some entered) :
    selectedBy (some (statuses.getD [] ++ [status])) = entered.select (selectedBy statuses) := by
  simp [selectedBy, List.foldl_append, given]

namespace Core

/-- The selected plan is the one that the task statuses call for: no handler of a task status is under
    way. -/
def Switched (core : Core) : Prop := core.plan = selectedBy core.state.statuses

def settled (core : Core) : Core := { core with plan := selectedBy core.state.statuses }

theorem Switched.settled {core : Core} (switched : core.Switched) : core.settled = core := by
  unfold Core.settled
  rw [← switched]

end Core

/-- Every record that was refused left the state alone. -/
def World.Traceless (world : World) : Prop :=
  ∀ entry ∈ world.refused, ∀ state, ¬ CheckpointDispatcher.SequenceCopied entry.1.state entry.2 state

theorem World.traceless_of_none {world : World} (none_refused : world.refused = []) : world.Traceless := by
  intro entry member
  rw [none_refused] at member
  exact absurd member List.not_mem_nil

/-- Every record was written between two handlers, and no refused record left a trace. -/
structure World.Faithful (world : World) : Prop where
  switched : ∀ entry ∈ world.written, entry.1.core.Switched
  traceless : world.Traceless

def World.Fitting (world : World) : Prop :=
  ∀ entry ∈ world.written, ∀ update, entry.2.update? = some update → entry.1.core.Fits update

instance (core : Core) : Decidable core.Switched := inferInstanceAs (Decidable (core.plan = _))

instance (world : World) : Decidable world.Fitting :=
  inferInstanceAs (Decidable (∀ entry ∈ world.written, ∀ update ∈ entry.2.update?, entry.1.core.Fits update))

theorem World.Faithful.of_grown {before after : World} (faithful : after.Faithful) (grown : Extends before after) :
    before.Faithful :=
  ⟨fun entry member => faithful.switched entry (grown.written.subset member),
    fun entry member => faithful.traceless entry (grown.refused.subset member)⟩

theorem World.Fitting.of_grown {before after : World} (fitting : after.Fitting) (grown : Extends before after) :
    before.Fitting :=
  fun entry member => fitting entry (grown.written.subset member)

def Rebuilds (config : RunnerConfig) (records : List RunnerCkpt) (core : Core) : Prop :=
  ∀ runner, Runner.init config = .ok runner → ∀ answers, ∃ rebuilt,
    (TaskRunner.replayRunnerCkpt config records).run { runner, answers } = .ok () rebuilt ∧
      rebuilt.runner.core = core ∧ TaskRunner.Recovering { runner, answers } rebuilt

theorem Rebuilds.snoc {config : RunnerConfig} {records : List RunnerCkpt} {core after : Core} {record : RunnerCkpt}
    (rebuilds : Rebuilds config records core)
    (replayed : ∀ world : World, world.runner.recovery = true → world.runner.core = core → ∃ next,
      (TaskRunner.dispatch config true record).run world = .ok () next ∧ next.runner.core = after ∧
        TaskRunner.Recovering world next) : Rebuilds config (records ++ [record]) after := by
  intro runner created answers
  obtain ⟨rebuilt, ran, same, recovering⟩ := rebuilds runner created answers
  have fresh : runner.recovery = true := by
    simp only [Runner.init, bind_eq_ok, pure_eq_ok] at created
    obtain ⟨_, _, _, _, rfl⟩ := created
    rfl
  obtain ⟨next, last, reached, further⟩ := replayed rebuilt (recovering.recovery.trans fresh) same
  refine ⟨next, ?_, reached, ?_⟩
  · unfold TaskRunner.replayRunnerCkpt at ran ⊢
    rw [feed_append, ran]
    simp only [feed_cons, last, feed_nil]
  · exact ⟨further.recovery.trans recovering.recovery, further.terminalState.trans recovering.terminalState,
      further.written.trans recovering.written, further.started.trans recovering.started⟩

/-- The checkpoint stream holds all there is to rebuild, for every prefix of it. -/
structure Tracked (config : RunnerConfig) (world : World) : Prop where
  earlier : ∀ before entry after, world.written = before ++ entry :: after →
    Rebuilds config (before.map Prod.snd) entry.1.core
  now : Rebuilds config world.stream world.runner.core.settled

section Tracked

variable {config : RunnerConfig} {world after : World}

theorem Tracked.same (tracked : Tracked config world) (written : after.written = world.written)
    (core : after.runner.core.settled = world.runner.core.settled) : Tracked config after := by
  refine ⟨?_, ?_⟩
  · rw [written]
    exact tracked.earlier
  · unfold World.stream
    rw [written, core]
    exact tracked.now

theorem Tracked.snoc (tracked : Tracked config world) (switched : world.runner.core.Switched) {record : RunnerCkpt}
    (written : after.written = world.written ++ [(world.runner, record)])
    (rebuilds : Rebuilds config (world.stream ++ [record]) after.runner.core.settled) : Tracked config after := by
  refine ⟨?_, ?_⟩
  · intro before entry rest split
    rw [written] at split
    rcases List.eq_nil_or_concat' rest with rfl | ⟨others, last, rfl⟩
    · obtain ⟨rfl, same⟩ := List.append_inj' split rfl
      cases same
      have now := tracked.now
      rwa [switched.settled] at now
    · have inner : world.written ++ [(world.runner, record)] = (before ++ entry :: others) ++ [last] := by
        simpa using split
      exact tracked.earlier before entry others (List.append_inj_left' inner rfl)
  · unfold World.stream
    rw [written, List.map_append]
    exact rebuilds

end Tracked

/-- What holds of a runner and of its checkpoint stream all along. -/
structure Sound (config : RunnerConfig) (world : World) : Prop where
  lockstep : Core.Lockstep config world.runner.core
  staged : ∃ state, TaskRunner.taskState world.runner = some state ∧ state.Known
  forced : ∀ state, world.runner.terminalState = some state → state.Known
  tracked : world.Faithful → Tracked config world

section Sound

variable {config : RunnerConfig} {kills : Prop} {world after : World}

theorem TaskMove.known {runner : Runner} {entered : TaskState} (move : TaskMove config runner entered)
    (staged : ∃ state, TaskRunner.taskState runner = some state ∧ state.Known)
    (forced : ∀ state, runner.terminalState = some state → state.Known) : entered.Known := by
  cases move with
  | again same =>
    obtain ⟨state, found, known⟩ := staged
    cases same.symm.trans found
    exact known
  | cleaning => trivial
  | finalizing => trivial
  | forced decided => exact forced _ decided
  | judged => split <;> trivial

theorem World.Faithful.before {record : RunnerCkpt} (faithful : after.Faithful)
    (written : after.written = world.written ++ [(world.runner, record)]) (refused : after.refused = world.refused) :
    world.Faithful ∧ world.runner.core.Switched := by
  refine ⟨⟨?_, ?_⟩, ?_⟩
  · intro entry member
    exact faithful.switched entry (by rw [written]; exact List.mem_append_left _ member)
  · intro entry member
    exact faithful.traceless entry (by rwa [refused])
  · exact faithful.switched (world.runner, record) (by rw [written]; exact List.mem_append_right _ List.mem_cons_self)

theorem Sound.written (sound : Sound config world) {record : RunnerCkpt} (lockstep : Core.Lockstep config after.runner.core)
    (staged : ∃ state, TaskRunner.taskState after.runner = some state ∧ state.Known)
    (forced : after.runner.terminalState = world.runner.terminalState)
    (written : after.written = world.written ++ [(world.runner, record)]) (refused : after.refused = world.refused)
    (replayed : world.runner.core.Switched → ∀ rebuilt : World, rebuilt.runner.recovery = true →
      rebuilt.runner.core = world.runner.core → ∃ next, (TaskRunner.dispatch config true record).run rebuilt = .ok () next ∧
        next.runner.core = after.runner.core.settled ∧ TaskRunner.Recovering rebuilt next) : Sound config after := by
  refine ⟨lockstep, staged, by rw [forced]; exact sound.forced, ?_⟩
  intro faithful
  obtain ⟨earlier, switched⟩ := faithful.before written refused
  have tracked := sound.tracked earlier
  have now := tracked.now
  rw [switched.settled] at now
  exact tracked.snoc switched written (now.snoc (replayed switched))

theorem Sound.header (sound : Sound config world) {record : RunnerCkpt} {header : RunnerHeader} {state : RunnerState}
    (accepted : Accepted world.runner.state record (.initialization header) state) :
    Sound config { world with
      runner := { world.runner with state }, written := world.written ++ [(world.runner, record)] } := by
  have restated : state.processes = world.runner.state.processes ∧ state.statuses = world.runner.state.statuses ∧
      state.header.isSome = true := by
    cases accepted with
    | header given unset => exact ⟨rfl, rfl, rfl⟩
  have lockstep := sound.lockstep.restated world.runner.plan (sound.lockstep.filled.accepted accepted) restated.1 (.inl restated.2.2)
  refine sound.written lockstep ?_ rfl rfl rfl ?_
  · obtain ⟨entered, found, known⟩ := sound.staged
    refine ⟨entered, ?_, known⟩
    simpa only [TaskRunner.taskState, restated.2.1] using found
  · intro switched rebuilt recovering same
    rw [show world.runner.state = rebuilt.runner.state from (congrArg Core.state same).symm] at accepted
    obtain ⟨next, ran, reached, further⟩ := TaskRunner.replay_header recovering accepted
    refine ⟨next, ran, ?_, further⟩
    rw [reached, same]
    have plan : selectedBy state.statuses = world.runner.core.plan := by rw [restated.2.1]; exact switched.symm
    simp only [Core.settled, Runner.core, plan]

theorem Sound.task (sound : Sound config world) {record : RunnerCkpt} {status : TaskStatus} {entered : TaskState}
    {state : RunnerState} (accepted : Accepted world.runner.state record (.taskTransition status) state)
    (enters : status.state = some entered) (stamped : status.timestampMs.isSome = true)
    (move : TaskMove config world.runner entered) :
    Sound config { world with
      runner := { world.runner with state }, written := world.written ++ [(world.runner, record)] } := by
  have known := TaskMove.known move sound.staged sound.forced
  have restated : state.processes = world.runner.state.processes ∧ state.header = world.runner.state.header ∧
      state.statuses = some (world.runner.state.statuses.getD [] ++ [status]) := by
    cases accepted with
    | task plain given told => exact ⟨rfl, rfl, rfl⟩
  have headed : state.header.isSome = true ∨ state.processes.keys = [] := by
    rw [restated.1, restated.2.1]
    exact sound.lockstep.headed
  have lockstep := sound.lockstep.restated world.runner.plan (sound.lockstep.filled.accepted accepted) restated.1 headed
  refine sound.written lockstep ?_ rfl rfl rfl ?_
  · exact ⟨entered, by simp [TaskRunner.taskState, restated.2.2, enters], known⟩
  · intro switched rebuilt recovering same
    rw [show world.runner.state = rebuilt.runner.state from (congrArg Core.state same).symm] at accepted
    obtain ⟨next, ran, reached, further⟩ := TaskRunner.replay_task recovering accepted enters known stamped headed
    refine ⟨next, ran, ?_, further⟩
    have plan : rebuilt.runner.plan = selectedBy world.runner.state.statuses := (congrArg Core.plan same).trans switched
    rw [reached, same, plan, ← selectedBy_append _ enters, ← restated.2.2]
    rfl

theorem Sound.process (sound : Sound config world) {record : RunnerCkpt} {update : ProcessStatus} {state : RunnerState}
    {now : Time} (accepted : Accepted world.runner.state record (.processTransition update) state)
    (headed : world.runner.state.header.isSome = true)
    (launch : update.state = some .waiting → ∃ name plan, update.process = some name ∧
      name ∈ (world.runner.planner plan).planner.runnable)
    (fits : world.runner.core.Fits update) : Sound config { world with
      runner := final ((TaskRunnerProcessHandler.onTransition config now update).run { world.runner with state })
      written := world.written ++ [(world.runner, record)] } := by
  obtain ⟨handled, ran, handles⟩ := sound.lockstep.onTransition now accepted launch fits
  have launches : update.state = some .waiting → ∃ name plan, update.process = some name ∧
      name ∈ (world.runner.core.planner plan).planner.runnable := by
    intro waiting
    obtain ⟨name, plan, named, runnable⟩ := launch waiting
    exact ⟨name, plan, named, by rwa [TaskRunner.planner_core]⟩
  have lockstep := sound.lockstep.handled accepted headed launches handles
  have kept := TaskRunnerProcessHandler.keeps_onTransition config now update { world.runner with state }
  rw [ran] at kept
  rw [show final ((TaskRunnerProcessHandler.onTransition config now update).run { world.runner with state }) = handled
    from congrArg final ran]
  have statuses : handled.state.statuses = world.runner.state.statuses := by
    rw [show handled.state = state from kept.state]
    exact (update_of_accepted accepted).2.2
  refine sound.written lockstep ?_ kept.terminalState rfl rfl ?_
  · obtain ⟨entered, found, known⟩ := sound.staged
    refine ⟨entered, ?_, known⟩
    simpa only [TaskRunner.taskState, statuses] using found
  · intro switched rebuilt recovering same
    rw [show world.runner.state = rebuilt.runner.state from (congrArg Core.state same).symm] at accepted
    rw [← same] at handles
    obtain ⟨next, replayed, reached, further⟩ := TaskRunner.replay_process recovering accepted handles
    refine ⟨next, replayed, ?_, further⟩
    have settled : handled.core.Switched := by
      unfold Core.Switched
      rw [handles.plan, show handled.core.state.statuses = world.runner.state.statuses from statuses]
      exact (congrArg Core.plan same).trans switched
    rw [reached, settled.settled]

theorem taskState_core {left right : Runner} (same : left.core.state = right.core.state) :
    TaskRunner.taskState left = TaskRunner.taskState right := by
  simp only [TaskRunner.taskState]
  rw [show left.state = right.state from same]

theorem Sound.aside (sound : Sound config world) (grown : Extends world after) (written : after.written = world.written)
    (lockstep : Core.Lockstep config after.runner.core)
    (staged : TaskRunner.taskState after.runner = TaskRunner.taskState world.runner)
    (forced : ∀ state, after.runner.terminalState = some state → state.Known)
    (core : after.Faithful → after.runner.core.settled = world.runner.core.settled) : Sound config after where
  lockstep := lockstep
  staged := by rw [staged]; exact sound.staged
  forced := forced
  tracked := fun faithful => (sound.tracked (faithful.of_grown grown)).same written (core faithful)

/-- Every step keeps a sound world sound, as long as the updates fit the plans. -/
theorem Sound.step (sound : Sound config world) (fitting : after.Fitting) (step : Step config kills world after) :
    Sound config after := by
  have grown := step.grows
  cases step with
  | quiet same =>
    refine sound.aside grown same.written (by rw [same.core]; exact sound.lockstep)
      (taskState_core (congrArg Core.state same.core)) (by rw [same.terminalState]; exact sound.forced) ?_
    intro _
    rw [same.core]
  | refused left =>
    rename_i record state
    rcases left with rfl | copied
    · exact sound.aside grown rfl sound.lockstep rfl sound.forced fun _ => rfl
    · have statuses : state.statuses = world.runner.state.statuses := by
        obtain ⟨_, _, _, _, _, _, _, _, rfl⟩ := copied
        rfl
      refine sound.aside grown rfl (sound.lockstep.renumbered copied) ?_ sound.forced ?_
      · simp only [TaskRunner.taskState, statuses]
      · intro faithful
        exact absurd copied (faithful.traceless _ (List.mem_append_right _ List.mem_cons_self) state)
  | header accepted => exact sound.header accepted
  | task accepted enters stamped underway move => exact sound.task accepted enters stamped move
  | process accepted headed launch =>
    refine sound.process accepted headed launch ?_
    exact fitting _ (List.mem_append_right _ List.mem_cons_self) _ (update_of_accepted accepted).1
  | switch due =>
    rename_i plan
    have lockstep := sound.lockstep.restated (some plan) sound.lockstep.filled rfl sound.lockstep.headed
    exact sound.aside grown rfl lockstep rfl sound.forced fun _ => rfl
  | start => exact sound.aside grown rfl sound.lockstep rfl sound.forced fun _ => rfl
  | finalize => exact sound.aside grown rfl sound.lockstep rfl sound.forced fun _ => rfl
  | kill allowed final =>
    refine sound.aside grown rfl sound.lockstep rfl ?_ fun _ => rfl
    intro state forced
    cases forced
    rcases final with rfl | rfl <;> trivial

theorem create_eq_ok {records : List RunnerCkpt} {answers : List Answer} {runner : Runner} :
    TaskRunner.create config records answers = .ok runner ↔ ∃ fresh rebuilt, Runner.init config = .ok fresh ∧
      (TaskRunner.replayRunnerCkpt config records).run { runner := fresh, answers } = .ok () rebuilt ∧
        rebuilt.runner = runner := by
  simp only [TaskRunner.create, bind_eq_ok]
  constructor
  · rintro ⟨fresh, created, replayed⟩
    cases ran : (TaskRunner.replayRunnerCkpt config records).run { runner := fresh, answers } with
    | error e rebuilt =>
      rw [ran] at replayed
      cases replayed
    | ok value rebuilt =>
      rw [ran] at replayed
      cases replayed
      exact ⟨fresh, rebuilt, created, ran, rfl⟩
  · rintro ⟨fresh, rebuilt, created, ran, rfl⟩
    exact ⟨fresh, created, by rw [ran]; rfl⟩

theorem Sound.restart (sound : Sound config world) (faithful : world.Faithful) {answers : List Answer} {runner : Runner}
    (created : TaskRunner.create config world.stream answers = .ok runner) :
    Sound config { world with runner, finalized := false } := by
  obtain ⟨fresh, rebuilt, begun, ran, rfl⟩ := create_eq_ok.mp created
  have tracked := sound.tracked faithful
  obtain ⟨other, same, core, recovering⟩ := tracked.now fresh begun answers
  rw [ran] at same
  cases same
  have unforced : rebuilt.runner.terminalState = none := by
    rw [recovering.terminalState]
    simp only [Runner.init, bind_eq_ok, pure_eq_ok] at begun
    obtain ⟨_, _, _, _, rfl⟩ := begun
    rfl
  refine ⟨?_, ?_, ?_, ?_⟩
  · rw [core]
    exact sound.lockstep.restated _ sound.lockstep.filled rfl sound.lockstep.headed
  · have same : rebuilt.runner.core.state = world.runner.core.state := by
      rw [core]
      rfl
    rw [taskState_core same]
    exact sound.staged
  · intro state forced
    rw [unforced] at forced
    cases forced
  · intro _
    refine tracked.same rfl ?_
    rw [core]
    rfl

theorem Sound.initial {runner : Runner} (created : Runner.init config = .ok runner) : Sound config { runner } := by
  have lockstep := Core.lockstep_of_init created
  have fresh : runner.state.statuses = none ∧ runner.terminalState = none ∧ runner.plan = none := by
    simp only [Runner.init, bind_eq_ok, pure_eq_ok] at created
    obtain ⟨_, _, _, _, rfl⟩ := created
    exact ⟨rfl, rfl, rfl⟩
  refine ⟨lockstep, ⟨.active, by simp [TaskRunner.taskState, fresh.1], trivial⟩, ?_, ?_⟩
  · intro state forced
    rw [fresh.2.1] at forced
    cases forced
  · intro _
    refine ⟨?_, ?_⟩
    · intro before entry after split
      cases before <;> cases split
    · intro other begun answers
      rw [created] at begun
      cases begun
      refine ⟨_, rfl, ?_, rfl, rfl, rfl, rfl⟩
      have switched : runner.core.Switched := by
        unfold Core.Switched
        rw [show runner.core.state.statuses = none from fresh.1]
        exact fresh.2.2
      exact switched.settled.symm

theorem create_nil {answers : List Answer} {runner : Runner} (created : TaskRunner.create config [] answers = .ok runner) :
    Runner.init config = .ok runner := by
  obtain ⟨fresh, rebuilt, begun, ran, rfl⟩ := create_eq_ok.mp created
  cases ran
  exact begun

/-- A runner whose updates fit the plans is sound, if it only ever took over faithful checkpoints. -/
theorem sound_of_lives {restarts : World → Prop} {answers : List Answer} {runner : Runner}
    (created : TaskRunner.create config [] answers = .ok runner)
    (lives : Lives config kills restarts { runner } world)
    (careful : ∀ middle, restarts middle → middle.Faithful) (fitting : world.Fitting) : Sound config world := by
  have kept : ∀ before after, (before.Fitting → Sound config before) → Step config kills before after →
      after.Fitting → Sound config after :=
    fun before after sound step fits => (sound (fits.of_grown step.grows)).step fits step
  have restarted : ∀ (before : World) (next : Runner) (replies : List Answer), (before.Fitting → Sound config before) →
      restarts before → TaskRunner.create config before.stream replies = .ok next →
      World.Fitting { before with runner := next, finalized := false } →
      Sound config { before with runner := next, finalized := false } :=
    fun before next replies sound allowed built fits => (sound fits).restart (careful before allowed) built
  exact lives_kept lives (fun _ => Sound.initial (create_nil created)) kept restarted fitting

end Sound

end Aurora.Thermos
