import Aurora.Thermos.Common.PlannerRuns
import Aurora.Thermos.Core.StartedRuns

namespace Aurora.Thermos

open Collections Guarantee Relation Replay

namespace TaskPlanner

variable {config : RunnerConfig} {before after plan : TaskPlanner} {healthy : Bool}

/-- The processes that need not finish do not fail for good. -/
structure Sparing (plan : TaskPlanner) : Prop where
  valid : plan.planner.Valid
  spared : ∀ name ∈ plan.ephemerals, ∀ attributes, plan.attributes.get? name = some attributes →
    attributes.isEphemeral = true

def Unlimited (plan : TaskPlanner) : Prop := ∀ name ∈ plan.planner.processes, plan.hasReachedRunLimit name = false

instance (plan : TaskPlanner) : Decidable plan.Unlimited :=
  inferInstanceAs (Decidable (∀ name ∈ plan.planner.processes, plan.hasReachedRunLimit name = false))

def Stuck (plan : TaskPlanner) : Prop :=
  plan.planner.running = ∅ ∧ plan.planner.runnable = ∅ ∧ plan.isComplete = false

def Verdict (config : RunnerConfig) (plan : TaskPlanner) : Bool → Prop
  | true => plan.isComplete = true ∧ TaskRunner.underFailureLimit config plan = true
  | false => TaskRunner.underFailureLimit config plan = false ∨ plan.Stuck

theorem deadlockedAt_iff (plan : TaskPlanner) (now : Time) : plan.deadlockedAt now = true ↔ plan.Stuck := by
  have parts := runnableAt_union_waitingAt plan now
  have empty : plan.planner.runnable = ∅ ↔ plan.runnableAt now = ∅ ∧ plan.waitingAt now = ∅ := by
    rw [← parts, Finset.union_eq_empty]
  simp only [deadlockedAt, decide_eq_true_eq, Stuck, empty, Bool.not_eq_true, and_assoc]

theorem healthyAt_iff (plan : TaskPlanner) (now : Time) :
    TaskRunner.healthyAt config plan now = true ↔ ¬ plan.Stuck ∧ TaskRunner.underFailureLimit config plan = true := by
  unfold TaskRunner.healthyAt
  rw [Bool.and_eq_true, Bool.not_eq_true', ← Bool.not_eq_true, deadlockedAt_iff]

/-- Health does not depend on the clock. -/
theorem healthyAt_any (plan : TaskPlanner) (now later : Time) :
    TaskRunner.healthyAt config plan now = TaskRunner.healthyAt config plan later := by
  rw [Bool.eq_iff_iff, healthyAt_iff, healthyAt_iff]

theorem Verdict.healthyAt (verdict : Verdict config plan healthy) (now : Time) :
    TaskRunner.healthyAt config plan now = healthy := by
  cases healthy with
  | true =>
    obtain ⟨complete, under⟩ := verdict
    rw [healthyAt_iff]
    refine ⟨?_, under⟩
    rintro ⟨_, _, incomplete⟩
    rw [complete] at incomplete
    cases incomplete
  | false =>
    rw [← Bool.not_eq_true, healthyAt_iff]
    rintro ⟨free, under⟩
    rcases verdict with ceased | stuck
    · rw [under] at ceased
      cases ceased
    · exact free stuck

theorem verdict_of_over (now : Time)
    (ceased : plan.isComplete = true ∨ ∃ other, TaskRunner.healthyAt config plan other = false) :
    Verdict config plan (TaskRunner.healthyAt config plan now) := by
  cases health : TaskRunner.healthyAt config plan now with
  | true =>
    have parts := (healthyAt_iff plan now).mp health
    rcases ceased with complete | ⟨other, unhealthy⟩
    · exact ⟨complete, parts.2⟩
    · rw [healthyAt_any plan other now, health] at unhealthy
      cases unhealthy
  | false =>
    by_cases stuck : plan.Stuck
    · exact .inr stuck
    · left
      rw [← Bool.not_eq_true]
      intro under
      rw [(healthyAt_iff plan now).mpr ⟨stuck, under⟩] at health
      cases health

theorem underFailureLimit_kept (fewer : before.planner.failed ⊆ after.planner.failed)
    (beyond : TaskRunner.underFailureLimit config before = false) : TaskRunner.underFailureLimit config after = false := by
  simp only [TaskRunner.underFailureLimit, Bool.or_eq_false_iff, decide_eq_false_iff_not, not_lt] at beyond ⊢
  have more : before.planner.failed.card ≤ after.planner.failed.card := Finset.card_le_card fewer
  exact ⟨beyond.1, by omega⟩

theorem Moved.failed_kept (moved : Moved before after) : before.planner.failed ⊆ after.planner.failed := by
  rcases moved.planner with same | ⟨process, _, started⟩ | ⟨process, settles⟩
  · rw [same]
  · rw [started]
  · exact settles.change.failed_kept

theorem Moved.sparing (moved : Moved before after) (sparing : before.Sparing) : after.Sparing := by
  constructor
  · rcases moved.planner with same | ⟨process, ready, started⟩ | ⟨process, settles⟩
    · rw [same]
      exact sparing.valid
    · have free := Planner.Startable.accepted sparing.valid ready
      rw [started]
      exact sparing.valid.change (.started free.1 free.2.1 free.2.2)
    · exact sparing.valid.change settles.change
  · rw [moved.task.ephemerals, moved.task.attributes]
    exact sparing.spared

/-- A complete plan stays complete and loses no process, short of the run limit. -/
theorem Moved.complete_kept (moved : Moved before after) (sparing : before.Sparing)
    (unlimited : after.Unlimited) (complete : before.isComplete = true) :
    after.isComplete = true ∧ after.planner.failed = before.planner.failed := by
  simp only [isComplete, decide_eq_true_eq] at complete ⊢
  rw [moved.task.ephemerals]
  rcases moved.planner with same | ⟨process, ready, started⟩ | ⟨process, settles⟩
  · rw [same]
    exact ⟨complete, rfl⟩
  · rw [started]
    exact ⟨complete, rfl⟩
  · have active := settles.active
    have planned := sparing.valid.running active
    generalize after.planner = planner at settles
    cases settles with
    | reset => exact ⟨complete, rfl⟩
    | finished =>
      refine ⟨?_, rfl⟩
      simp only [Finset.insert_union]
      rw [← complete, Finset.insert_eq_of_mem planned]
    | failed broke active unfinished =>
      -- the process is one of those that need not finish
      have spare : process ∈ before.ephemerals := by
        rw [complete] at planned
        rcases Finset.mem_union.mp planned with ceased | spare
        · rcases Finset.mem_union.mp ceased with ceased | broken
          · exact absurd ceased unfinished
          · exact absurd broken (Finset.disjoint_left.mp sparing.valid.activeUnbroken active)
        · exact spare
      rcases broke with limited | ⟨attributes, known, lasting⟩
      · rw [unlimited process (by rwa [moved.processes])] at limited
        cases limited
      · rw [sparing.spared process spare attributes known] at lasting
        cases lasting

theorem Moved.stuck_kept (moved : Moved before after) (stuck : before.Stuck) : after.Stuck := by
  obtain ⟨idle, blocked, incomplete⟩ := stuck
  rcases moved.planner with same | ⟨process, ready, _⟩ | ⟨process, settles⟩
  · unfold Stuck isComplete at *
    rw [same, moved.task.ephemerals]
    exact ⟨idle, blocked, incomplete⟩
  · rw [idle, blocked] at ready
    rcases ready with ready | ready <;> exact absurd ready (Finset.notMem_empty process)
  · have active := settles.active
    rw [idle] at active
    exact absurd active (Finset.notMem_empty process)

/-- No operation on the plan changes a verdict, short of the run limit. -/
theorem Moved.verdict (moved : Moved before after) (sparing : before.Sparing)
    (unlimited : after.Unlimited) (verdict : Verdict config before healthy) :
    Verdict config after healthy := by
  cases healthy with
  | true =>
    obtain ⟨complete, under⟩ := verdict
    obtain ⟨still, same⟩ := moved.complete_kept sparing unlimited complete
    refine ⟨still, ?_⟩
    unfold TaskRunner.underFailureLimit at under ⊢
    rwa [same]
  | false =>
    rcases verdict with ceased | stuck
    · exact .inl (underFailureLimit_kept moved.failed_kept ceased)
    · exact .inr (moved.stuck_kept stuck)

theorem unlimited_of_moves (moves : ReflTransGen Moved before after)
    (unlimited : after.Unlimited) : before.Unlimited := by
  induction moves with
  | refl => exact unlimited
  | tail _ moved ih =>
    apply ih
    intro name planned
    rw [← Bool.not_eq_true]
    intro reached
    rw [← moved.processes] at planned
    cases (moved.counted name reached).symm.trans (unlimited name planned)

theorem moves_kept (moves : ReflTransGen Moved before after) (sparing : before.Sparing) :
    after.Sparing ∧ (after.Unlimited → ∀ healthy, Verdict config before healthy → Verdict config after healthy) := by
  induction moves with
  | refl => exact ⟨sparing, fun _ _ => id⟩
  | tail earlier moved ih =>
    refine ⟨moved.sparing ih.1, ?_⟩
    intro unlimited healthy verdict
    have before := unlimited_of_moves (.single moved) unlimited
    exact moved.verdict ih.1 unlimited (ih.2 before healthy verdict)

theorem moved_of_timeless (same : after.timeless = before.timeless) : Moved before after := by
  have planner := congrArg TaskPlanner.planner same
  have attributes := congrArg TaskPlanner.attributes same
  have ephemerals := congrArg TaskPlanner.ephemerals same
  have limit := congrArg TaskPlanner.totalRunLimit same
  refine ⟨⟨attributes, ephemerals, limit⟩, ?_, .inl planner⟩
  intro name reached
  have counts := congrArg (fun plan => plan.hasReachedRunLimit name) same
  exact counts.trans reached

theorem Moved.timeless (moved : Moved before after) : Moved before after.timeless :=
  ⟨⟨moved.task.attributes, moved.task.ephemerals, moved.task.totalRunLimit⟩, moved.counted, moved.planner⟩

end TaskPlanner

/-- Regular processes of one name agree on whether the task may end without them: if one of them is
    ephemeral, so is the one that counts, the last. -/
def RunnerConfig.Agrees (config : RunnerConfig) : Prop :=
  ∀ process ∈ config.task.processes, isRegular process = true → process.ephemeral = true →
    ∀ last, (TaskPlanner.processMap (config.task.processes.filter isRegular)).get? process.name = some last →
      last.ephemeral = true

instance (config : RunnerConfig) : Decidable config.Agrees :=
  inferInstanceAs (Decidable (∀ process ∈ config.task.processes, isRegular process = true → process.ephemeral = true →
    ∀ last ∈ (TaskPlanner.processMap (config.task.processes.filter isRegular)).get? process.name,
      last.ephemeral = true))

namespace Core

variable {config : RunnerConfig} {update : ProcessStatus} {core after : Core}

theorem Handles.moves (handles : Handles config update core after) (plan : Plan) :
    ReflTransGen TaskPlanner.Moved (core.planner plan) (after.planner plan) := by
  have moved : ∀ {selected : Plan} {planner : TaskPlanner} {base : Core},
      (∀ plan, base.planner plan = core.planner plan) → TaskPlanner.Moved (core.planner selected) planner →
      ReflTransGen TaskPlanner.Moved (core.planner plan) ((base.withPlanner selected planner.timeless).planner plan) := by
    intro selected planner base same moved
    by_cases own : plan = selected
    · subst own
      rw [planner_withPlanner]
      exact .single moved.timeless
    · rw [planner_withPlanner_ne _ _ own, same]
  cases handles with
  | awaited => cases plan <;> exact .refl
  | running named entered attended selected ran =>
    rename_i name selectedPlan planner
    have one := TaskPlanner.setRunning_moved name (core.planner selectedPlan)
    rw [show (TaskPlanner.setRunning name).run (core.planner selectedPlan) = .ok () planner from ran] at one
    exact moved (fun _ => rfl) one
  | ended named entered ends attended selected ran =>
    exact moved (fun plan => by cases plan <;> rfl) (TaskPlanner.ending_settled ends ran).moved

end Core

namespace TaskRunner

variable {config : RunnerConfig} {records : List RunnerCkpt} {answers : List Answer} {runner : Runner}

theorem sparing_of_init (agrees : config.Agrees) (begun : Runner.init config = .ok runner) :
    runner.regularPlan.Sparing ∧ runner.terminalState = none ∧ runner.recovery = true := by
  simp only [Runner.init, bind_eq_ok, pure_eq_ok] at begun
  obtain ⟨regular, planned, finalizing, _, rfl⟩ := begun
  have fresh := (TaskPlanner.fresh_of_init planned).1
  refine ⟨⟨fresh.valid, ?_⟩, rfl, rfl⟩
  intro name spare attributes known
  obtain ⟨process, listed, regular, ephemeral, rfl⟩ := (fresh.ephemerals name).mp spare
  simp only [TaskPlanner.init, bind_eq_ok, pure_eq_ok] at planned
  obtain ⟨_, _, _, _, rfl⟩ := planned
  rw [Dict.get?_map] at known
  obtain ⟨last, found, rfl⟩ := Option.map_eq_some_iff.mp known
  exact agrees process listed regular ephemeral last found

theorem sparing_of_create (agrees : config.Agrees) (created : create config records answers = .ok runner) :
    runner.regularPlan.Sparing ∧ runner.terminalState = none := by
  obtain ⟨fresh, rebuilt, begun, ran, rfl⟩ := create_eq_ok.mp created
  obtain ⟨sparing, undecided, recovering⟩ := sparing_of_init agrees begun
  have kept : ∀ record before value after, (TaskPlanner.Sparing before.runner.regularPlan ∧
      before.runner.terminalState = none ∧ before.runner.recovery = true) →
      (dispatch config true record).run before = .ok value after →
      TaskPlanner.Sparing after.runner.regularPlan ∧ after.runner.terminalState = none ∧ after.runner.recovery = true := by
    rintro record before value after ⟨sparing, undecided, recovering⟩ ran
    obtain ⟨replays, recovered⟩ := replays_of_dispatch recovering ran
    refine ⟨?_, recovered.terminalState.trans undecided, recovered.recovery.trans recovering⟩
    have core : before.runner.core.regularPlan.Sparing := ⟨sparing.valid, sparing.spared⟩
    have moves : ReflTransGen TaskPlanner.Moved before.runner.core.regularPlan after.runner.core.regularPlan := by
      generalize after.runner.core = last at replays
      cases replays with
      | skipped => exact .refl
      | header => exact .refl
      | task => exact .refl
      | process accepted handles => exact handles.moves .regular
    have last := (@TaskPlanner.moves_kept config _ _ moves core).1
    exact ⟨last.valid, last.spared⟩
  have start : TaskPlanner.Sparing fresh.regularPlan ∧ fresh.terminalState = none ∧ fresh.recovery = true :=
    ⟨sparing, undecided, recovering⟩
  have last := @feed_state_invariant _ _ _ _ (dispatch config true) { runner := fresh, answers } (fun world : World =>
    TaskPlanner.Sparing world.runner.regularPlan ∧ world.runner.terminalState = none ∧ world.runner.recovery = true)
    start kept records rebuilt ran
  exact ⟨last.1, last.2.1⟩

/-- A record that takes the runner out of the ACTIVE stage. -/
def LeavesActive (entry : Runner × RunnerCkpt) : Prop :=
  taskState entry.1 = some .active ∧ entry.2.runnerHeader = none ∧
    entry.2.taskStatus.bind TaskStatus.state = some .cleaning

def Judges (record : RunnerCkpt) (healthy : Bool) : Prop :=
  record.runnerHeader = none → ∀ state, record.taskStatus.bind TaskStatus.state = some state →
    TaskRunnerHelper.isTaskTerminal (some state) = true → (state = .success ↔ healthy = true)

structure Judged (config : RunnerConfig) (world : World) : Prop where
  sparing : world.runner.regularPlan.Sparing
  undecided : world.runner.terminalState = none
  kept : world.runner.regularPlan.Unlimited → ∀ before left after,
    world.written = before ++ left :: after → LeavesActive left →
      let healthy := healthyAt config left.1.regularPlan 0
      TaskPlanner.Verdict config left.1.regularPlan healthy ∧
      TaskPlanner.Verdict config world.runner.regularPlan healthy ∧
      ∀ later ∈ after, TaskPlanner.Verdict config later.1.regularPlan healthy ∧ Judges later.2 healthy

section Judged

variable {config : RunnerConfig} {world after : World} {record : RunnerCkpt}

theorem Judged.same (judged : Judged config world)
    (moves : ReflTransGen TaskPlanner.Moved world.runner.regularPlan after.runner.regularPlan)
    (undecided : after.runner.terminalState = world.runner.terminalState) (written : after.written = world.written) :
    Judged config after := by
  obtain ⟨sparing, verdicts⟩ := @TaskPlanner.moves_kept config _ _ moves judged.sparing
  refine ⟨sparing, undecided.trans judged.undecided, ?_⟩
  intro unlimited before left rest split leaves
  rw [written] at split
  obtain ⟨first, now, later⟩ :=
    judged.kept (TaskPlanner.unlimited_of_moves moves unlimited) before left rest split leaves
  exact ⟨first, verdicts unlimited _ now, later⟩

theorem Judged.snoc (judged : Judged config world)
    (moves : ReflTransGen TaskPlanner.Moved world.runner.regularPlan after.runner.regularPlan)
    (undecided : after.runner.terminalState = world.runner.terminalState)
    (written : after.written = world.written ++ [(world.runner, record)])
    (ceased : LeavesActive (world.runner, record) → world.runner.regularPlan.isComplete = true ∨
      ∃ now, healthyAt config world.runner.regularPlan now = false)
    (judges : ∀ healthy, TaskPlanner.Verdict config world.runner.regularPlan healthy → Judges record healthy) :
    Judged config after := by
  obtain ⟨sparing, verdicts⟩ := @TaskPlanner.moves_kept config _ _ moves judged.sparing
  refine ⟨sparing, undecided.trans judged.undecided, ?_⟩
  intro unlimited before left rest split leaves
  rw [written] at split
  rcases List.eq_nil_or_concat' rest with rfl | ⟨others, last, rfl⟩
  · -- the record itself leaves the stage
    obtain ⟨rfl, same⟩ := List.append_inj' split rfl
    cases same
    have verdict := TaskPlanner.verdict_of_over 0 (ceased leaves)
    exact ⟨verdict, verdicts unlimited _ verdict, fun later member => absurd member List.not_mem_nil⟩
  · have inner : world.written ++ [(world.runner, record)] = (before ++ left :: others) ++ [last] := by
      simpa using split
    obtain ⟨earlier, same⟩ := List.append_inj' inner rfl
    cases same
    obtain ⟨first, now, later⟩ :=
      judged.kept (TaskPlanner.unlimited_of_moves moves unlimited) before left others earlier leaves
    refine ⟨first, verdicts unlimited _ now, ?_⟩
    intro entry member
    rcases List.mem_append.mp member with known | new
    · exact later entry known
    · rw [List.mem_singleton.mp new]
      exact ⟨now, judges _ now⟩

theorem Judged.task (judged : Judged config world) {status : TaskStatus} {entered : TaskState} {state : RunnerState}
    (accepted : Accepted world.runner.state record (.taskTransition status) state)
    (enters : status.state = some entered) (underway : isTerminal world.runner = false)
    (move : TaskMove config world.runner entered) :
    Judged config { world with
      runner := { world.runner with state }, written := world.written ++ [(world.runner, record)] } := by
  have given : record.taskStatus.bind TaskStatus.state = some entered := by
    cases accepted with
    | task plain given told => rw [given, Option.bind_some, enters]
  refine judged.snoc .refl rfl rfl ?_ ?_
  · rintro ⟨active, _, cleaning⟩
    have entering := Option.some.inj (given.symm.trans cleaning)
    cases move with
    | again same =>
      rw [entering] at same
      cases active.symm.trans same
    | finalizing => cases entering
    | judged late =>
      rcases late with late | late <;> cases active.symm.trans late
    | cleaning _ ceased =>
      rcases ceased with complete | unhealthy | forced
      · exact .inl complete
      · exact .inr unhealthy
      · rw [judged.undecided] at forced
        cases forced
    | forced decided =>
      rw [judged.undecided] at decided
      cases decided
  · intro healthy verdict _ other found terminal
    cases given.symm.trans found
    cases move with
    | again same =>
      unfold isTerminal at underway
      rw [same, terminal] at underway
      cases underway
    | cleaning => cases terminal
    | finalizing => cases terminal
    | forced decided =>
      rw [judged.undecided] at decided
      cases decided
    | judged late undecided =>
      rename_i now
      rw [verdict.healthyAt now]
      cases healthy <;> simp

theorem Judged.step (judged : Judged config world) (step : Step config False world after) : Judged config after := by
  cases step with
  | quiet same =>
    have timeless := congrArg Core.regularPlan same.core
    exact judged.same (.single (TaskPlanner.moved_of_timeless timeless)) same.terminalState same.written
  | refused left => exact judged.same .refl rfl rfl
  | header accepted =>
    refine judged.snoc .refl rfl rfl ?_ ?_
    · rintro ⟨_, plain, _⟩
      cases accepted with
      | header given => cases given.symm.trans plain
    · intro healthy _ plain
      cases accepted with
      | header given => cases given.symm.trans plain
  | task accepted enters stamped underway move => exact judged.task accepted enters underway move
  | process accepted headed launch =>
    rename_i record update state now
    have kept := TaskRunnerProcessHandler.keeps_onTransition config now update { world.runner with state }
    have plain : record.taskStatus = none := by
      cases accepted with
      | process plain => exact plain.2
    refine judged.snoc (kept.plans .regular) kept.terminalState rfl ?_ ?_
    · rintro ⟨_, _, cleaning⟩
      rw [show record.taskStatus = none from plain] at cleaning
      cases cleaning
    · intro healthy _ _ entered found
      rw [plain] at found
      cases found
  | switch due => exact judged.same .refl rfl rfl
  | start known waiting underway => exact judged.same .refl rfl rfl
  | finalize settled terminal => exact judged.same .refl rfl rfl
  | kill allowed final => exact allowed.elim

/-- Unless it is killed, the health of a task is decided when the runner leaves the ACTIVE stage: no update
    that is handled later changes it, and the task succeeds just if the regular plan was complete and
    healthy then. -/
theorem verdict_kept (config : RunnerConfig) (agrees : config.Agrees) {records : List RunnerCkpt}
    {answers : List Answer} {first : Runner} (created : create config records answers = .ok first)
    {checkpoints : Checkpoints} {world : World}
    (lives : Lives config False (fun _ => False) { runner := first, checkpoints } world)
    (unlimited : world.runner.regularPlan.Unlimited)
    {before after : List (Runner × RunnerCkpt)} {left : Runner × RunnerCkpt}
    (split : world.written = before ++ left :: after) (leaves : LeavesActive left) (then_ : Time) :
    (∀ now, healthyAt config world.runner.regularPlan now = healthyAt config left.1.regularPlan then_) ∧
    ∀ later ∈ after,
      (∀ now, healthyAt config later.1.regularPlan now = healthyAt config left.1.regularPlan then_) ∧
      (later.2.runnerHeader = none → ∀ state, later.2.taskStatus.bind TaskStatus.state = some state →
        TaskRunnerHelper.isTaskTerminal (some state) = true → (state = .success ↔
          left.1.regularPlan.isComplete = true ∧ healthyAt config left.1.regularPlan then_ = true)) := by
  obtain ⟨sparing, undecided⟩ := sparing_of_create agrees created
  have start : Judged config { runner := first, checkpoints } := by
    refine ⟨sparing, undecided, ?_⟩
    intro _ before left after split
    cases before <;> cases split
  have judged := lives_kept lives start (fun _ _ judged step => judged.step step)
    (fun _ _ _ _ allowed => allowed.elim)
  obtain ⟨decided, now, later⟩ := judged.kept unlimited before left after split leaves
  have same := @TaskPlanner.healthyAt_any config left.1.regularPlan then_ 0
  rw [same]
  refine ⟨now.healthyAt, ?_⟩
  intro entry member
  obtain ⟨verdict, judges⟩ := later entry member
  refine ⟨verdict.healthyAt, ?_⟩
  intro plain state given terminal
  rw [judges plain state given terminal]
  constructor
  · intro healthy
    rw [healthy] at decided
    exact ⟨decided.1, healthy⟩
  · exact And.right

end Judged

section Twins

instance (entry : Runner × RunnerCkpt) : Decidable (LeavesActive entry) :=
  inferInstanceAs (Decidable (_ ∧ _ ∧ _))

/-- The first process ends while the second one still runs; the task need not wait for that one, though
    what counts for its failures is the process given. -/
def twins (process : Process) : RunnerConfig where
  task := { processes := [{ name := "q" }, { name := "p", ephemeral := true }, process] }
  totalRunLimit := 100

def twinsRun (config : RunnerConfig) (first : Runner) : World :=
  let calm : Answer := { order := ["p", "q"], ours := true }
  let answers := List.replicate 17 calm ++ { calm with appended := ends "q" .success 0 } :: List.replicate 21 calm ++
    { calm with appended := ends "p" .failed 1 } :: List.replicate 30 { order := ["p", "q"] }
  final ((run config 6).run { runner := first, answers })

def leavesFor (config : RunnerConfig) (state : TaskState) : List (Runner × RunnerCkpt) → Bool
  | [] => false
  | left :: after => LeavesActive left ∧ left.1.regularPlan.isComplete = true ∧
      healthyAt config left.1.regularPlan 0 = true ∧
      ∃ later ∈ after, later.2.runnerHeader = none ∧ later.2.taskStatus.bind TaskStatus.state = some state

def twinsChecks (config : RunnerConfig) (state : TaskState) (first : Runner) : Bool :=
  (twinsRun config first).runner.regularPlan.Unlimited ∧
    leavesFor config state ((twinsRun config first).written.drop 8) = true

theorem split_of_leavesFor {config : RunnerConfig} {state : TaskState} {written : List (Runner × RunnerCkpt)}
    (found : leavesFor config state (written.drop 8) = true) : ∃ before left after, written = before ++ left :: after ∧
      LeavesActive left ∧ left.1.regularPlan.isComplete = true ∧ healthyAt config left.1.regularPlan 0 = true ∧
      ∃ later ∈ after, later.2.runnerHeader = none ∧ later.2.taskStatus.bind TaskStatus.state = some state := by
  have parts := (List.take_append_drop 8 written).symm
  generalize written.drop 8 = rest at found parts
  cases rest with
  | nil => cases found
  | cons left after => exact ⟨_, left, after, parts, of_decide_eq_true found⟩

def spared : RunnerConfig := twins { name := "p", ephemeral := true }

theorem sparedChecks_pass : checked spared (twinsChecks spared .success) = true := by decide +kernel

theorem verdict_kept_spared : ∃ first, create spared [] [] = .ok first ∧
    ∃ (left : Runner × RunnerCkpt) (after : List (Runner × RunnerCkpt)), LeavesActive left ∧
    (∀ now, healthyAt spared (twinsRun spared first).runner.regularPlan now =
      healthyAt spared left.1.regularPlan 0) ∧
    ∀ later ∈ after, ∀ state, later.2.runnerHeader = none → later.2.taskStatus.bind TaskStatus.state = some state →
      TaskRunnerHelper.isTaskTerminal (some state) = true → (state = .success ↔
        left.1.regularPlan.isComplete = true ∧ healthyAt spared left.1.regularPlan 0 = true) := by
  obtain ⟨first, created, passed⟩ := created_of_checked sparedChecks_pass
  obtain ⟨unlimited, found⟩ := of_decide_eq_true passed
  obtain ⟨before, left, after, split, leaves, _⟩ := split_of_leavesFor found
  have lives : Lives spared False (fun _ => False) { runner := first, checkpoints := .empty } (twinsRun spared first) :=
    .single (@Enters.run spared False (fun _ => False) { runner := first } 6 _)
  have agrees : spared.Agrees := by decide +kernel
  have kept := verdict_kept spared agrees created lives unlimited split leaves 0
  exact ⟨first, created, left, after, leaves, kept.1,
    fun later member state plain given terminal => (kept.2 later member).2 plain state given terminal⟩

/-- The process that counts is not ephemeral. -/
def unspared : RunnerConfig := twins { name := "p" }

theorem unsparedChecks_pass : checked unspared (twinsChecks unspared .failed) = true := by decide +kernel

/-- A task that was complete and healthy when it left the ACTIVE stage has failed. -/
theorem verdict_overturned : ∃ first, create unspared [] [] = .ok first ∧
    Lives unspared False (fun _ => False) { runner := first } (twinsRun unspared first) ∧
    (twinsRun unspared first).runner.regularPlan.Unlimited ∧
    ∃ before left after, (twinsRun unspared first).written = before ++ left :: after ∧ LeavesActive left ∧
      left.1.regularPlan.isComplete = true ∧ healthyAt unspared left.1.regularPlan 0 = true ∧
      ∃ later ∈ after, later.2.runnerHeader = none ∧
        later.2.taskStatus.bind TaskStatus.state = some TaskState.failed := by
  obtain ⟨first, created, passed⟩ := created_of_checked unsparedChecks_pass
  obtain ⟨unlimited, found⟩ := of_decide_eq_true passed
  exact ⟨first, created, .single (@Enters.run unspared False (fun _ => False) { runner := first } 6 _), unlimited,
    split_of_leavesFor found⟩

end Twins

end TaskRunner

end Aurora.Thermos
