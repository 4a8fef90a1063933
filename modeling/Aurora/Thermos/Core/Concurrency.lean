import Aurora.Thermos.Core.Pacing

namespace Aurora.Thermos

open Collections ProcessMuxer Replay Transition

namespace Coordination

variable {config : RunnerConfig} {c next : Coordination} {state changed : RunnerState} {runner after : Runner}
  {record : RunnerCkpt} {event : CheckpointDispatcher.Dispatched} {name : Name} {coordinator : Coordinator} {phase : Phase}

section TakeOver

theorem agrees_of_create {records : List RunnerCkpt} {answers : List Answer}
    (created : TaskRunner.create config records answers = .ok runner) (early : OnlyEarly runner.state) :
    runner.core.Agrees .regular := by
  obtain ⟨fresh, rebuilt, begun, ran, rfl⟩ := create_eq_ok.mp created
  simp only [Runner.init, bind_eq_ok, pure_eq_ok] at begun
  obtain ⟨regular, _, finalizing, _, rfl⟩ := begun
  let Holds (world : World) : Prop := world.runner.recovery = true ∧
    (OnlyEarly world.runner.core.state → world.runner.core.Agrees .regular)
  suffices Holds rebuilt from this.2 early
  refine feed_state_invariant ?_ ?_ ran
  · refine ⟨rfl, fun _ => ⟨?_, ?_⟩⟩
    · intro other selected
      cases selected
    · rintro name ⟨run, current, _⟩
      cases current
  · rintro record world _ next ⟨recovering, agrees⟩ ran
    obtain ⟨replays, further⟩ := TaskRunner.replays_of_dispatch recovering ran
    refine ⟨further.recovery.trans recovering, fun early => ?_⟩
    generalize next.runner.core = core at replays early
    cases replays with
    | skipped => exact agrees early
    | header accepted =>
      have before := agrees (early.accepted accepted)
      cases accepted
      exact ⟨before.selected, before.running⟩
    | task accepted given =>
      rename_i status entered state
      have before := agrees (early.accepted accepted)
      have stage : entered = .active ∨ entered = .cleaning := by
        cases accepted
        simpa [given] using early status (by simp)
      cases accepted
      rcases stage with rfl | rfl
      · exact ⟨fun other selected => (Option.some.inj selected).symm, before.running⟩
      · exact ⟨before.selected, before.running⟩
    | process accepted handles =>
      rename_i update state
      rw [handles.state] at early
      have before := agrees (early.accepted accepted)
      exact Core.Agrees.handles before (fun name => runsTaken accepted name) handles

theorem mem_announcedRuns {entry : Name × Nat} : entry ∈ Scheduling.announcedRuns c ↔
    ∃ coordinator, c.Mine entry.1 coordinator ∧ coordinator.run = entry.2 := by
  simp only [Scheduling.announcedRuns, List.mem_map, List.mem_filter, decide_eq_true_eq]
  constructor
  · rintro ⟨coordinator, ⟨member, announced⟩, rfl⟩
    exact ⟨coordinator.origin, ⟨mem_origins.mpr ⟨coordinator, member, rfl⟩, rfl, announced⟩, rfl⟩
  · rintro ⟨_, ⟨member, named, announced⟩, placed⟩
    obtain ⟨coordinator, listed, rfl⟩ := mem_origins.mp member
    exact ⟨coordinator, ⟨listed, announced⟩, Prod.ext named placed⟩

theorem announcedRuns_nodup (base : Base config c state) : (Scheduling.announcedRuns c).Nodup := by
  have distinct : c.coordinators.Nodup := base.logged.distinct.of_map
  refine List.Nodup.map_on ?_ (distinct.filter _)
  intro first left second right same
  simp only [List.mem_filter, decide_eq_true_eq] at left right
  obtain ⟨named, placed⟩ := Prod.mk.inj same
  have one : c.Mine first.name first.origin := ⟨mem_origins.mpr ⟨first, left.1, rfl⟩, rfl, left.2⟩
  have other : c.Mine first.name second.origin := ⟨mem_origins.mpr ⟨second, right.1, rfl⟩, named.symm, right.2⟩
  have equal := (base.assigned first.name).alone _ _ one other placed
  have keyed : first.origin.key = second.origin.key := congrArg Coordinator.key equal
  exact List.inj_on_of_nodup_map base.logged.distinct left.1 right.1 keyed

theorem announcedRuns_dispatch (now : Time) :
    Scheduling.announcedRuns (dispatch config now record phase runner c) = Scheduling.announcedRuns c := by
  have ends := dispatches config now record phase runner c
  generalize dispatch config now record phase runner c = next at ends
  cases ends <;> rfl

theorem good_takeOver (base : Base config c state) (tidy : Tidy config c state) {answers : List Answer}
    (created : TaskRunner.create config c.stream answers = .ok runner) {entered : TaskState}
    (current : TaskRunner.taskState runner = some entered) (timestampMs : Int) (running : Nat) :
    Good config (setTaskStatus config entered timestampMs true { runner with recovery := false } c) running
      (Scheduling.announcedRuns c) := by
  have same := state_of_create base created
  subst same
  refine @good_dispatch config c { runner with recovery := false } _ _ _ _ base tidy ?_ (fun _ => id) 0 ?_ ?_
  · constructor
    · intro early
      have agrees := agrees_of_create created (tidy.early early)
      exact agrees
    · exact fun _ settled => absurd rfl (settled true)
    · intro limited
      have below := tidy.bound limited
      simpa [pending] using below
    · exact fun ready => by cases ready
    · exact fun name coordinator mine => mem_announcedRuns.mpr ⟨coordinator, mine, rfl⟩
    · exact fun name starting => by cases starting
    · intro entry member
      obtain ⟨coordinator, mine, placed⟩ := mem_announcedRuns.mp member
      obtain ⟨run, found, _⟩ := (base.assigned entry.1).adopts coordinator mine
      rw [placed] at found
      exact ⟨run, (runAt_eq _ _ _).trans found, .inr (.inl ⟨coordinator, mine, placed⟩)⟩
    · exact announcedRuns_nodup base
  · intro status given
    cases given
    exact .inl (current.symm.trans (taskState_eq_stage runner))
  · intro status given
    exact ⟨true, rfl⟩

end TakeOver

section Steps

variable {running : Nat} {starts : List (Name × Nat)} {names : List Name}

theorem Good.dropped (base : Base config c state) (tidy : Tidy config c state) (once : starts.Nodup) :
    Good config { c with holder := none } running starts :=
  .of_none (show Told _ state from base.replayed) (tidy.same fun _ => rfl) rfl once

/-- The runner goes on, and nothing but the runner and its phase has changed. -/
theorem Good.held (base : Base config c runner.state) (tidy : Tidy config c runner.state)
    (same : after.state = runner.state) (pace : Pace config c after phase running starts) :
    Good config { c with holder := some ⟨after, phase⟩ } running starts := by
  rw [← same] at base tidy
  exact .of_some (show Told _ after.state from base.replayed) (tidy.same fun _ => rfl) rfl (pace.same (fun _ => rfl) rfl)

theorem good_selectPlan (base : Base config c runner.state) (tidy : Tidy config c runner.state) {resumes : Bool}
    (pace : Pace config c runner (.entering resumes) running starts)
    (promises : Promises config c runner (.entering resumes))
    (killed : runner.state.stage = some .finalizing → Scheduling.Killed runner.state) (plan : Option Plan)
    (chosen : plan = (stagePlan runner.state.stage).orElse fun _ => runner.plan) :
    Good config { c with holder := some ⟨{ runner with plan }, if resumes then .resuming else .ready⟩ }
      (Scheduling.ofPlan { runner with plan } fun plan => plan.planner.running).card starts := by
  have regular : Early runner.state → Core.Agrees .regular { runner with plan : Runner }.core := by
    intro early
    have agrees := pace.regular early
    refine ⟨?_, agrees.running⟩
    intro other selected
    rcases early with active | cleaning
    · rw [active] at chosen
      cases chosen.symm.trans selected
      rfl
    · rw [cleaning] at chosen
      exact agrees.selected other (chosen.symm.trans selected)
  have finalizing : runner.state.stage = some .finalizing → Core.Agrees .finalizing { runner with plan : Runner }.core := by
    intro stage
    constructor
    · intro other selected
      rw [stage] at chosen
      cases chosen.symm.trans selected
      rfl
    · rintro name ⟨run, current, going, left⟩
      obtain ⟨earlier, listed⟩ : ∃ earlier, runner.state.processes.get? (some name) = some (earlier ++ [run]) :=
        RunnerState.get?_of_currentRun current
      have known : some name ∈ runner.state.processes.keys := (Dict.mem_keys _ _).mpr (by rw [listed]; rfl)
      rcases killed stage _ known run current with ceased | waits
      · rw [going] at ceased
        cases ceased
      · exact absurd waits left
  refine .held base tidy rfl (pace.moved rfl (fun _ => id) ?_ regular (fun stage _ => finalizing stage) ?_ ?_)
  · intro name starting
    cases resumes <;> cases starting
  · intro limited
    have below := pace.bound limited
    cases resumes <;> exact below
  · intro ready runs
    cases resumes with
    | true => cases ready
    | false =>
      refine @live_running config c { runner with plan } base ?_ regular finalizing runs
      exact fun name coordinator out => (promises name coordinator out).2

theorem good_schedule (base : Base config c runner.state) (tidy : Tidy config c runner.state)
    (pace : Pace config c runner .ready running starts) {now : Time} {runnable : List Name}
    (listed : runnable.toFinset = Scheduling.ofPlan runner fun plan => plan.runnableAt now) :
    Good config { c with holder := some ⟨runner, .launching (TaskRunner.pickProcesses config running runnable)⟩ }
      running starts := by
  refine .held base tidy rfl (pace.moved rfl (fun _ => id) (fun _ => id) pace.regular
    (fun stage _ => pace.finalizing stage (by simp)) ?_ (fun ready => by cases ready))
  intro limited
  have below := pace.bound limited
  simp only [pending, Nat.cast_zero, add_zero] at below ⊢
  cases stage : stagePlan runner.state.stage with
  | some plan => exact pickProcesses_room limited runnable below (pace.seen rfl (by rw [stage]; rfl))
  | none =>
    rw [Scheduling.ofPlan, taskState_eq_stage, stage] at listed
    rw [List.toFinset_eq_empty_iff runnable |>.mp listed]
    have none_left : TaskRunner.pickProcesses config running [] = [] := by
      unfold TaskRunner.pickProcesses
      split <;> simp
    simpa [none_left] using below

theorem good_prepared (base : Base config c runner.state) (tidy : Tidy config c runner.state) {names : List Name}
    (pace : Pace config c runner (.launching (name :: names)) running starts)
    (promises : Promises config c runner (.launching (name :: names))) {earlier : List ProcessRun} {run : ProcessRun}
    (listed : runner.state.runsOf name = earlier ++ [run]) (waits : run.state = some .waiting) (forkTime : Time) :
    Good config { c with
      files := append c.files name []
      holder := some ⟨runner, .prepared name (content c.files name).length forkTime names⟩ }
      running (starts ++ [(name, earlier.length)]) := by
  have paced := pace_prepared pace promises listed waits (content c.files name).length forkTime
  have mine : ∀ other, Mine { c with
      files := append c.files name []
      holder := some ⟨runner, .prepared name (content c.files name).length forkTime names⟩ } other = c.Mine other := by
    intro other
    funext coordinator
    simp only [Mine, Coordinator.Announced, content_append_nil]
    rfl
  exact .of_some (show Told _ runner.state from base.replayed) (tidy.same mine) rfl (paced.same mine rfl)

theorem good_prepareFork (base : Base config c runner.state) (tidy : Tidy config c runner.state)
    (pace : Pace config c runner phase running starts) (promises : Promises config c runner phase)
    (there : c.holder = some ⟨runner, phase⟩) {acquired : Bool} {forkTime now : Time}
    (moves : HolderMoves config c runner phase (.prepareFork acquired forkTime now) next) :
    Good config next running (starts ++ Scheduling.due c) := by
  cases moves with
  | prepared current waits =>
    obtain ⟨earlier, known⟩ := RunnerState.get?_of_currentRun current
    rw [Scheduling.due_waiting there current waits (runsOf_eq known)]
    exact good_prepared base tidy pace promises (runsOf_eq known) waits forkTime
  | unlocked current waits =>
    obtain ⟨earlier, known⟩ := RunnerState.get?_of_currentRun current
    rw [Scheduling.due_waiting there current waits (runsOf_eq known)]
    exact good_unprepared base tidy pace promises (runsOf_eq known) waits now
  | refused idle =>
    rw [Scheduling.due_idle there idle, List.append_nil]
    exact .dropped base tidy pace.once

theorem good_forked (base : Base config c runner.state) (tidy : Tidy config c runner.state) {names : List Name}
    {head : Nat} {forkTime : Time} (pace : Pace config c runner (.prepared name head forkTime names) running starts)
    {process : TaskProcess} {pid : Int} (fresh : ∀ other ∈ c.coordinators, other.key ≠ (pid, forkTime)) :
    Good config { c with
      holder := some ⟨runner, .forked c.coordinators.length names⟩
      coordinators := c.coordinators ++ [{ name, run := process.run, seq := process.seq, pid, forkTime, head }] }
      running starts := by
  let forked : Coordinator := { name, run := process.run, seq := process.seq, pid, forkTime, head }
  have mine : ∀ holder other, Mine { c with holder, coordinators := c.coordinators ++ [forked] } other = c.Mine other :=
    fun holder other => @mine_fork config c runner.state forked base fresh holder other
  have found : (origins { c with
      holder := some ⟨runner, .forked c.coordinators.length names⟩
      coordinators := c.coordinators ++ [forked] })[c.coordinators.length]? = some forked.origin := by
    simp [origins]
  exact .of_some (show Told _ runner.state from base.replayed) (tidy.same (mine _)) rfl
    (pace_forked pace (mine _) found rfl)

theorem good_finalized (base : Base config c runner.state) (tidy : Tidy config c runner.state) {names : List Name}
    {index : Nat} (pace : Pace config c runner (.forked index names) running starts)
    (promises : Promises config c runner (.forked index names)) {forked : Coordinator}
    (found : c.coordinators[index]? = some forked) :
    Good config (announce c forked (some ⟨{ runner with
      taskProcesses := runner.taskProcesses.set forked.name
        { seq := forked.seq + 1, run := forked.run, pid := some forked.pid, forkTime := some forked.forkTime } },
      .launching names⟩)) running starts := by
  obtain ⟨coordinator, there, passing, earlier, run, known, waits, placed, numbered⟩ := promises
  have own : coordinator = forked.origin := by
    unfold origins at there
    rw [List.getElem?_map, found] at there
    exact (Option.some.inj there).symm
  subst own
  have member : forked.origin ∈ c.origins := List.mem_of_getElem? there
  let after : Runner := { runner with
    taskProcesses := runner.taskProcesses.set forked.name
      { seq := forked.seq + 1, run := forked.run, pid := some forked.pid, forkTime := some forked.forkTime } }
  let last : Coordination := announce c forked (some ⟨after, .launching names⟩)
  have paced : Pace config last after (.launching names) running starts :=
    pace_finalized pace there (runsOf_eq known) placed (mine_announce base.logged member) rfl
      (fun _ agrees => ⟨agrees.selected, agrees.running⟩)
  have told : Told last after.state := base.replayed
  have tidied : Tidy config last after.state := by
    refine ⟨tidy.early, fun limited => ?_⟩
    have below := paced.bound limited
    simp only [pending] at below
    omega
  exact .of_some told tidied rfl paced

theorem good_marked (base : Base config c runner.state) (tidy : Tidy config c runner.state)
    (pace : Pace config c runner phase running starts)
    (between : phase = .entering true ∨ phase = .entering false ∨ phase = .ready) {entered : ProcessState}
    (ends : entered = .lost ∨ entered = .killed) (now : Time) (name : Name) (stopTime : Option Time)
    (returnCode : Option Int) :
    Good config (setProcessStatus config now name entered stopTime returnCode phase runner c) running starts := by
  have quiet : ∀ name, ¬ Starting c phase name := by
    rcases between with rfl | rfl | rfl <;> exact fun _ => id
  unfold setProcessStatus
  split
  · split_ifs with waiting
    · rcases ends with rfl | rfl <;> cases waiting
    · exact .dropped base tidy pace.once
  · exact good_dispatch base tidy pace quiet now (fun status given => by cases given) (fun status given => by cases given)

theorem good_passed (base : Base config c runner.state) (tidy : Tidy config c runner.state)
    (pace : Pace config c runner (.launching []) running starts) {target : TaskState}
    (follows : target ∈ nextStates (TaskRunner.taskState runner)) (timestampMs : Int) :
    Good config (setTaskStatus config target timestampMs false runner c) running starts := by
  have paced : Pace config c runner (.entering false) running starts := by
    refine pace.moved rfl (fun _ => id) (fun _ => id) pace.regular (fun _ settled => absurd rfl (settled false)) ?_
      (fun ready => by cases ready)
    exact pace.bound
  refine good_dispatch base tidy paced (fun _ => id) 0 ?_ (fun _ _ => ⟨false, rfl⟩)
  intro status given
  cases given
  exact .inr ⟨target, follows, rfl⟩

theorem good_awaited (base : Base config c runner.state) (tidy : Tidy config c runner.state) {names : List Name}
    (pace : Pace config c runner (.launching names) running starts) (now : Time) (name : Name) :
    Good config (setProcessStatus config now name .waiting none none (.launching names) runner c) running starts := by
  unfold setProcessStatus
  split
  · exact good_dispatch base tidy pace (fun _ => id) now (fun status given => by cases given)
      (fun status given => by cases given)
  · exact good_dispatch base tidy pace (fun _ => id) now (fun status given => by cases given)
      (fun status given => by cases given)

theorem good_resumed (base : Base config c runner.state) (tidy : Tidy config c runner.state)
    {kept : List ProcessStatus} (pace : Pace config c runner (.collecting kept) running starts) :
    Good config (initializeCkptHeader config (.collecting kept) runner c) running starts := by
  unfold initializeCkptHeader
  split_ifs
  · exact good_dispatch base tidy pace (fun _ => id) 0 (fun status given => by cases given)
      (fun status given => by cases given)
  · exact .held base tidy rfl pace

theorem good_holderStep {event : Event} (base : Base config c runner.state) (tidy : Tidy config c runner.state)
    (pace : Pace config c runner phase running starts) (promises : Promises config c runner phase)
    (plain : ∀ now names acquired forkTime, event ≠ .selectPlan ∧ event ≠ .apply now ∧ event ≠ .schedule now names ∧
      event ≠ .prepareFork acquired forkTime now)
    (taken : holderStep config c runner phase event = some next) : Good config next running starts := by
  have watched : ∀ {further : Phase} (watcher : ProcessMuxer), (∀ name, ¬ Starting c phase name) →
      (∀ name, ¬ Starting c further name) → (∀ resumes, phase ≠ .entering resumes) → pending further = pending phase →
      (further = .ready → phase = .ready) → Pace config c { runner with watcher } further running starts := by
    intro further watcher quiet still settled same ready
    refine pace.moved rfl quiet still (fun early => ?_) (fun stage _ => ?_) ?_ fun again => pace.seen (ready again)
    · have agrees := pace.regular early
      exact ⟨agrees.selected, agrees.running⟩
    · have agrees := pace.finalizing stage settled
      exact ⟨agrees.selected, agrees.running⟩
    · rw [same]
      exact pace.bound
  have gone : Good config { c with holder := none } running starts := .dropped base tidy pace.once
  cases holderStep_moves taken with
  | selected => exact absurd rfl (plain 0 [] true 0).1
  | read now | applied _ _ now => exact absurd rfl (plain now [] true 0).2.1
  | @scheduled now names => exact absurd rfl (plain now names true 0).2.2.1
  | prepared _ _ forkTime now => exact absurd rfl (plain now [] true forkTime).2.2.2
  | unlocked _ _ forkTime now => exact absurd rfl (plain now [] false forkTime).2.2.2
  | refused _ acquired forkTime now => exact absurd rfl (plain now [] acquired forkTime).2.2.2
  | crashed | blind | unresumed | uncollected => exact gone
  | marked between ends now name stopTime returnCode =>
    exact good_marked base tidy pace between ends now name stopTime returnCode
  | looked => exact .held base tidy rfl (watched _ (fun _ => id) (fun _ => id) (by simp) rfl id)
  | @resumed _ kept watcher =>
    have paced : Pace config c { runner with watcher } (.collecting kept) running starts :=
      watched watcher (fun _ => id) (fun _ => id) (by simp) rfl (by simp)
    exact @good_resumed config c { runner with watcher } running starts base tidy kept paced
  | collected => exact .held base tidy rfl (watched _ (fun _ => id) (fun _ => id) (by simp) rfl (by simp))
  | passed follows timestampMs => exact good_passed base tidy pace follows timestampMs
  | awaited name names now => exact good_awaited base tidy pace now name
  | forked made fresh => exact good_forked base tidy pace fresh
  | finalized found => exact good_finalized base tidy pace promises found

end Steps

end Coordination

namespace Scheduling

open Coordination

variable {config : RunnerConfig} {s next : Scheduling} {after : Coordination} {event : Event} {runner : Runner}
  {phase : Phase} {name : Name}

section Limits

theorem underway_iff {state : RunnerState} : s.underway state name = true ↔
    ∃ number run, state.runAt (name, number) = some run ∧ run.isTerminal = false ∧ (name, number) ∈ s.starts := by
  simp only [underway, List.any_eq_true, Bool.and_eq_true, decide_eq_true_eq, Prod.exists, List.mk_mem_zipIdx_iff_getElem?,
    runAt_eq]
  constructor
  · rintro ⟨run, number, found, going, started⟩
    exact ⟨number, run, found, by simpa using going, started⟩
  · rintro ⟨number, run, found, going, started⟩
    exact ⟨run, number, found, by simp [going], started⟩

theorem starting_pending (c : Coordination) (phase : Phase) :
    ∃ names : Finset Name, names.card ≤ pending phase ∧ ∀ name, Starting c phase name → name ∈ names := by
  cases phase with
  | prepared own head forkTime names =>
    refine ⟨{own}, by simp [pending], ?_⟩
    rintro name rfl
    exact Finset.mem_singleton_self own
  | forked index names =>
    refine ⟨(c.origins[index]?.map Coordinator.name).toList.toFinset, ?_, ?_⟩
    · cases c.origins[index]? <;> simp [pending]
    · rintro name ⟨coordinator, found, rfl⟩
      simp [found]
  | _ => exact ⟨∅, by simp, fun name starting => by cases starting⟩

theorem limited_of_good (inv : Inv config s.coordination) (good : Good config s.coordination s.running s.starts) :
    Limited config s where
  concurrency := by
    intro limited holder there
    have pace := good.pace holder there
    have attentive := (inv.held holder there).attentive
    obtain ⟨names, few, covered⟩ := starting_pending s.coordination holder.phase
    have below := pace.bound limited
    have counted : (ofPlan holder.runner fun plan => plan.planner.processes).filter
        (fun name => s.underway holder.runner.state name) ⊆ liveOf config s.coordination holder.runner.state ∪ names := by
      intro name member
      obtain ⟨planned, going⟩ := Finset.mem_filter.mp member
      obtain ⟨number, run, found, going, started⟩ := underway_iff.mp going
      obtain ⟨same, there, stands⟩ := pace.accounted _ started
      cases found.symm.trans there
      rw [Finset.mem_union]
      rcases stands with ceased | ⟨coordinator, mine, placed⟩ | ⟨starting, _⟩
      · rw [going] at ceased
        cases ceased
      · left
        rw [ofPlan, taskState_eq_stage] at planned
        split at planned
        · cases planned
        next plan stage =>
          refine mem_liveOf.mpr ⟨plan, ?_, (attentive.planned name plan).mp planned, coordinator, mine, run, ?_, going⟩
          · unfold stagePlan at stage
            split at stage
            next active => rw [active]; exact stage
            next finalizing => rw [finalizing]; exact stage
            · cases stage
          · rw [placed, ← runAt_eq]
            exact found
      · exact .inr (covered name starting)
    have card := (Finset.card_le_card counted).trans (Finset.card_union_le _ _)
    omega
  once := good.once

end Limits

section Runs

theorem good_advance (base : Base config s.coordination runner.state) (tidy : Tidy config s.coordination runner.state)
    (pace : Pace config s.coordination runner phase s.running s.starts)
    (promises : Promises config s.coordination runner phase) (there : s.coordination.holder = some ⟨runner, phase⟩)
    (killed : event = .selectPlan → runner.state.stage = some .finalizing → Killed runner.state)
    (listed : ∀ now names, event = .schedule now names → ∃ runnable : List Name,
      runnable.toFinset = ofPlan runner (fun plan => plan.runnableAt now) ∧
        names = TaskRunner.pickProcesses config s.running runnable)
    (taken : holderStep config s.coordination runner phase event = some after) :
    Good config after (s.runningBy after event) (s.startsBy after event) := by
  cases event with
  | selectPlan =>
    cases holderStep_moves taken with
    | selected resumes => exact good_selectPlan base tidy pace promises (killed rfl) _ rfl
  | schedule now names =>
    cases holderStep_moves taken with
    | scheduled =>
      obtain ⟨runnable, same, rfl⟩ := listed now names rfl
      exact good_schedule base tidy pace same
  | prepareFork acquired forkTime now => exact good_prepareFork base tidy pace promises there (holderStep_moves taken)
  | apply now =>
    cases holderStep_moves taken with
    | read =>
      refine .held base tidy rfl (pace.moved rfl (fun _ => id) (fun _ => id) pace.regular
        (fun stage _ => pace.finalizing stage (by simp)) pace.bound fun _ runs => ?_)
      refine live_running base ?_ pace.regular (fun stage => pace.finalizing stage (by simp)) runs
      intro name coordinator out
      cases promises.2 name coordinator out
    | applied update rest =>
      have paced : ∀ later, Pace config s.coordination runner (.collecting rest) later s.starts := fun later =>
        pace.moved rfl (fun _ => id) (fun _ => id) pace.regular (fun stage _ => pace.finalizing stage (by simp)) pace.bound
          fun ready => by cases ready
      exact good_dispatch base tidy (paced _) (fun _ => id) now (fun status given => by cases given)
        (fun status given => by cases given)
  | takeOver => cases taken
  | _ => exact good_holderStep base tidy pace promises (by simp) taken

/-- A coordinator neither starts a process nor tells the runner about one. -/
theorem good_coordinatorStep {index : Nat} {coordinator : Coordinator}
    (good : Good config s.coordination s.running s.starts) (found : s.coordination.coordinators[index]? = some coordinator)
    (taken : coordinatorStep s.coordination index coordinator event = some after) :
    Good config after s.running s.starts := by
  obtain ⟨stream, kept, origins, grown⟩ := coordinatorStep_grown found taken
  refine ⟨?_, ?_, good.once⟩
  · intro other theirs
    rw [Told, stream] at theirs
    exact (good.tidy other theirs).same grown.mine
  · intro holder there
    rw [kept] at there
    exact (good.pace holder there).same grown.mine origins

theorem good_step (inv : Inv config s.coordination) (good : Good config s.coordination s.running s.starts)
    (taken : step config s event = some next) : Good config next.coordination next.running next.starts := by
  obtain ⟨after, advanced, rfl⟩ := Option.map_eq_some_iff.mp taken
  obtain ⟨state, base, agrees⟩ := inv.base
  have tidy := good.tidy state base.replayed
  have held : ∀ {runner : Runner} {phase : Phase}, s.coordination.holder = some ⟨runner, phase⟩ →
      Base config s.coordination runner.state ∧ Tidy config s.coordination runner.state := by
    intro runner phase there
    have same : runner.state = state := agrees _ there
    rw [same]
    exact ⟨base, tidy⟩
  have stepped : Coordination.step config s.coordination event = some after →
      (event = .selectPlan → ∀ holder, s.coordination.holder = some holder →
        holder.runner.state.stage = some .finalizing → Killed holder.runner.state) →
      (∀ now names, event ≠ .schedule now names) →
      Good config after (s.runningBy after event) (s.startsBy after event) := by
    intro taken killed unscheduled
    rcases step_cases taken with ⟨answers, timestampMs, runner, entered, rfl, _, created, current, rfl⟩ |
      ⟨index, coordinator, found, _, taken⟩ | ⟨runner, phase, there, taken⟩
    · rw [startsBy, setTaskStatus, announcedRuns_dispatch]
      exact good_takeOver base tidy created current timestampMs _
    · have good := good_coordinatorStep good found taken
      cases event with
      | waitForControl | running | finish => exact good
      | _ => cases taken
    · obtain ⟨base, tidy⟩ := held there
      exact good_advance base tidy (good.pace _ there) (inv.held _ there).promises there (fun same => killed same _ there)
        (fun now names same => absurd same (unscheduled now names)) taken
  cases event with
  | schedule now runnable =>
    simp only [advance] at advanced
    split at advanced
    · cases advanced
    next holder there =>
      simp only [Option.ite_none_right_eq_some] at advanced
      obtain ⟨⟨_, listed⟩, taken⟩ := advanced
      simp only [Coordination.step, there] at taken
      obtain ⟨base, tidy⟩ := held there
      exact good_advance base tidy (good.pace _ there) (inv.held _ there).promises there (fun same => by cases same)
        (fun _ _ same => by cases same; exact ⟨runnable, listed, rfl⟩) taken
  | selectPlan =>
    simp only [advance] at advanced
    split at advanced
    · cases advanced
    next holder there =>
      simp only [Option.ite_none_right_eq_some] at advanced
      obtain ⟨killed, taken⟩ := advanced
      refine stepped taken (fun _ other same => ?_) (by simp)
      cases there.symm.trans same
      exact killed
  | _ => exact stepped advanced (by simp) (by simp)

theorem inv_advance (inv : Inv config s.coordination) (adopted : Adopted config s.coordination event)
    (advanced : s.advance config event = some after) : Inv config after := by
  cases event with
  | schedule now runnable =>
    simp only [advance] at advanced
    split at advanced
    · cases advanced
    · simp only [Option.ite_none_right_eq_some] at advanced
      have allowed : Adopted config s.coordination
        (.schedule now (TaskRunner.pickProcesses config s.running runnable)) := trivial
      exact inv_step inv allowed advanced.2
  | selectPlan =>
    simp only [advance] at advanced
    split at advanced
    · cases advanced
    · simp only [Option.ite_none_right_eq_some] at advanced
      exact inv_step inv adopted advanced.2
  | _ => exact inv_step inv adopted advanced

theorem good_start (config : RunnerConfig) : Good config {} 0 [] := by
  have blank : Told {} {} := rfl
  refine .of_none blank ⟨fun _ => (fun status member => by cases member), fun limited => ?_⟩ rfl List.nodup_nil
  have nobody : liveOf config {} {} = ∅ := by
    refine Finset.eq_empty_of_forall_notMem fun name member => ?_
    obtain ⟨_, _, _, coordinator, mine, _⟩ := mem_liveOf.mp member
    cases mine.1
  rw [nobody]
  simpa using limited.le

/-- In every run of runners and coordinators, no more processes of the plan that is run are started and not over than
    `max_concurrency` says, and no process run is started twice; so it is if FINALIZING is never entered while a process
    of both plans has a FORKED record that is not adopted. -/
theorem concurrency_limited (config : RunnerConfig) (events : List Event) (s : Scheduling)
    (adopted : Along (step config) (fun s event => Adopted config s.coordination event) {} events)
    (reached : run (step config) {} events = some s) : Limited config s := by
  let Holds (s : Scheduling) : Prop := Inv config s.coordination ∧ Good config s.coordination s.running s.starts
  have keeps : ∀ s event next, Holds s → Adopted config s.coordination event → step config s event = some next →
      Holds next := by
    rintro s event next ⟨inv, good⟩ adopted taken
    refine ⟨?_, good_step inv good taken⟩
    obtain ⟨after, advanced, rfl⟩ := Option.map_eq_some_iff.mp taken
    exact inv_advance inv adopted advanced
  have holds : Holds s := invariant keeps ⟨inv_start config, good_start config⟩ adopted reached
  exact limited_of_good holds.1 holds.2

end Runs

section Examples

def pair : RunnerConfig where
  task := { processes := [{ name := "p" }, { name := "q" }], maxConcurrency := 1 }
  totalRunLimit := 100

/-- While `p` runs a pass picks nothing; the start of `q` is cut off by a crash, and the next runner starts it again. -/
def turns : List Event := [
  .takeOver [] 0, .selectPlan, .resume, .apply 0,
  .schedule 0 ["p", "q"], .await 0, .prepareFork true 1 0, .fork 11, .finalizeFork, .waitForControl 0, .collect,
  .apply 1, .apply 1,
  .schedule 1 ["q"], .running 0 12 2, .finish 0 .success 3 0, .collect, .apply 3, .apply 3, .apply 3,
  .schedule 4 ["q"], .await 4, .prepareFork true 4 4, .fork 21, .crash,
  .takeOver [] 5000, .selectPlan, .resume, .apply 5, .schedule 5 ["q"], .prepareFork true 5 5, .fork 31, .finalizeFork]

theorem concurrency_limited_turns : ∃ s, run (step pair) {} turns = some s ∧ Limited pair s := by
  have adopted : Along (step pair) (fun s event => Adopted pair s.coordination event) {} turns := by decide +kernel
  have reached : (run (step pair) {} turns).isSome = true := by decide +kernel
  obtain ⟨s, reached⟩ := Option.isSome_iff_exists.mp reached
  exact ⟨s, reached, concurrency_limited pair turns s adopted reached⟩

/-- The pass that launches `fetch` ends ACTIVE, and FINALIZING picks it again. -/
def repeated : List Event := [
  .takeOver [] 0, .selectPlan, .resume, .apply 0,
  .schedule 0 ["check", "fetch"], .await 0, .prepareFork true 1 0, .fork 11, .finalizeFork,
  .waitForControl 0, .running 0 12 2, .finish 0 .failed 3 1, .collect, .apply 3, .apply 3, .apply 3, .apply 3,
  .schedule 4 ["fetch"], .await 4, .prepareFork true 4 4, .fork 21, .finalizeFork,
  .waitForControl 1, .running 1 22 5, .finish 1 .success 6 0,
  .transition .cleaning 7000, .selectPlan, .schedule 7 [], .transition .finalizing 8000, .selectPlan,
  .schedule 8 ["fetch"], .prepareFork true 8 8]

theorem started_twice : ∃ s, run (step twice) {} repeated = some s ∧ ¬ Limited twice s := by
  have again : ((run (step twice) {} repeated).any fun s => decide (¬ s.starts.Nodup)) = true := by decide +kernel
  cases reached : run (step twice) {} repeated with
  | none => simp [reached] at again
  | some s =>
    rw [reached, Option.any_some, decide_eq_true_eq] at again
    exact ⟨s, rfl, fun limited => again limited.once⟩

end Examples

end Scheduling

end Aurora.Thermos
