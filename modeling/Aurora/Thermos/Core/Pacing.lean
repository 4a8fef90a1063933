import Aurora.Thermos.Core.Scheduling
import Aurora.Thermos.Core.StartedRuns

namespace Aurora.Thermos

open Collections ProcessMuxer Replay

namespace Coordination

variable {config : RunnerConfig} {c next : Coordination} {state changed : RunnerState} {runner after : Runner}
  {record : RunnerCkpt} {event : CheckpointDispatcher.Dispatched} {name : Name} {coordinator : Coordinator} {phase : Phase}

section Live

/-- A run of the process whose FORKED record is in the checkpoint is not over. -/
def Live (c : Coordination) (state : RunnerState) (name : Name) : Prop :=
  ∃ coordinator, c.Mine name coordinator ∧
    ∃ run, (state.runsOf name)[coordinator.run]? = some run ∧ run.isTerminal = false

/-- The plan whose processes count: CLEANING still has those of the regular plan. -/
def countedPlan : Option TaskState → Option Plan
  | some .active | some .cleaning => some .regular
  | some .finalizing => some .finalizing
  | _ => none

def planned (config : RunnerConfig) (plan : Plan) : Finset Name :=
  ((config.task.processes.filter plan.selects).map Process.name).toFinset

theorem mem_planned {plan : Plan} : name ∈ planned config plan ↔ Selected config.task plan.selects name := by
  simp only [planned, List.mem_toFinset, List.mem_map, List.mem_filter, and_assoc]
  rfl

open scoped Classical in
noncomputable def liveOf (config : RunnerConfig) (c : Coordination) (state : RunnerState) : Finset Name :=
  match countedPlan state.stage with
  | none => ∅
  | some plan => (planned config plan).filter (Live c state)

theorem mem_liveOf : name ∈ liveOf config c state ↔
    ∃ plan, countedPlan state.stage = some plan ∧ Selected config.task plan.selects name ∧ Live c state name := by
  unfold liveOf
  cases countedPlan state.stage with
  | none => simp
  | some plan => simp [mem_planned]

theorem liveOf_same (mine : ∀ name, next.Mine name = c.Mine name) : liveOf config next state = liveOf config c state := by
  ext name
  simp only [mem_liveOf, Live, mine]

theorem runAt_eq (state : RunnerState) (name : Name) (number : Nat) :
    state.runAt (name, number) = (state.runsOf name)[number]? := by
  unfold RunnerState.runAt RunnerState.runsOf
  cases state.processes.get? (some name) <;> simp

theorem live_accepted (assigned : ∀ name, Assigned (c.Mine name) (state.runsOf name))
    (accepted : Accepted state record event changed) (live : Live c changed name) : Live c state name := by
  obtain ⟨coordinator, mine, run, found, going⟩ := live
  refine ⟨coordinator, mine, ?_⟩
  cases accepted with
  | header => exact ⟨run, found, going⟩
  | task => exact ⟨run, found, going⟩
  | process plain given numbered entered subject follows carries =>
    obtain ⟨before, there, adopts⟩ := (assigned name).adopts coordinator mine
    refine ⟨before, there, ?_⟩
    have kept := RunnerState.RunsKept.accepted (.process plain given numbered entered subject follows carries)
    obtain ⟨later, after, goesOn⟩ := kept (name, coordinator.run) before (by rwa [runAt_eq])
    rw [runAt_eq, found] at after
    cases after
    by_contra ceased
    rw [goesOn.ceased (Bool.of_not_eq_false ceased)] at going
    cases going

def Succeeds (state changed : RunnerState) : Prop :=
  changed.stage = state.stage ∨ ∃ target ∈ nextStates state.stage, changed.stage = some target

theorem Succeeds.early (succeeds : Succeeds state changed) (early : Early changed) : Early state := by
  rcases succeeds with same | ⟨target, follows, entered⟩
  · unfold Early at early ⊢
    rwa [same] at early
  · unfold nextStates at follows
    split at follows
    next active => exact .inl active
    next cleaning => exact .inr cleaning
    · unfold Early at early
      rw [entered] at early
      rcases early with early | early <;> cases early <;> simp at follows
    · cases follows

theorem Succeeds.finalizing (succeeds : Succeeds state changed) (finalizing : changed.stage = some .finalizing) :
    state.stage = some .finalizing ∨ Early state := by
  rcases succeeds with same | ⟨target, follows, entered⟩
  · exact .inl (same.symm.trans finalizing)
  · right
    unfold nextStates at follows
    split at follows
    next active => exact .inl active
    next cleaning => exact .inr cleaning
    · cases entered.symm.trans finalizing
      simp at follows
    · cases follows

theorem countedPlan_early (early : Early state) : countedPlan state.stage = some .regular := by
  rcases early with early | early <;> rw [early] <;> rfl

/-- So the live processes of the counted plan become fewer at most: what is live as FINALIZING begins is regular. -/
theorem liveOf_shrinks (staged : Early state → ∀ coordinator ∈ c.origins, Selected config.task isRegular coordinator.name)
    (succeeds : Succeeds state changed) (shrinks : ∀ name, Live c changed name → Live c state name) :
    liveOf config c changed ⊆ liveOf config c state := by
  intro name member
  obtain ⟨plan, counted, selected, live⟩ := mem_liveOf.mp member
  replace live := shrinks name live
  have regular : Early state → name ∈ liveOf config c state := by
    intro early
    obtain ⟨coordinator, mine, _⟩ := id live
    refine mem_liveOf.mpr ⟨.regular, countedPlan_early early, ?_, live⟩
    rw [← mine.2.1]
    exact staged early coordinator mine.1
  unfold countedPlan at counted
  split at counted
  next active => exact regular (succeeds.early (.inl active))
  next cleaning => exact regular (succeeds.early (.inr cleaning))
  next finalizing =>
    rcases succeeds.finalizing finalizing with same | early
    · cases counted
      exact mem_liveOf.mpr ⟨.finalizing, by rw [same]; rfl, selected, live⟩
    · exact regular early
  · cases counted

end Live

section Pace

/-- What the checkpoint stream tells. -/
def Told (c : Coordination) (state : RunnerState) : Prop :=
  (feed (CheckpointDispatcher.dispatch true false) c.stream).run {} = .ok () state

theorem Told.unique {first second : RunnerState} (left : Told c first) (right : Told c second) : first = second := by
  unfold Told at left right
  rw [left] at right
  injection right

theorem Told.recorded (told : Told c state) (accepted : Accepted state record event changed) (holder : Option Holder) :
    Told { c with stream := c.stream ++ [record], holder } changed := by
  unfold Told at told ⊢
  rw [feed_append, told]
  simp only [feed_cons, CheckpointDispatcher.dispatch_of_accepted accepted true, feed_nil]

theorem closed_of_told (told : Told c state) : state.Closed := by
  refine feed_state_invariant ?_ ?_ told
  · intro process earlier last listed
    simp at listed
  · intro record before event after closed ran
    rcases CheckpointDispatcher.accepted_of_dispatch ran with accepted | ⟨_, _, rfl⟩
    · exact closed.accepted accepted
    · exact closed

/-- Up to CLEANING the task has been in early states only. -/
def OnlyEarly (state : RunnerState) : Prop :=
  ∀ status ∈ state.statuses.getD [], status.state = some .active ∨ status.state = some .cleaning

structure Tidy (config : RunnerConfig) (c : Coordination) (state : RunnerState) : Prop where
  early : Early state → OnlyEarly state
  bound : 0 < config.task.maxConcurrency → ((liveOf config c state).card : Int) ≤ config.task.maxConcurrency

/-- The process that `Process.start` has been called for and whose FORKED record is still to be written. -/
def Starting (c : Coordination) : Phase → Name → Prop
  | .prepared own _ _ _, name => own = name
  | .forked index _, name => ∃ coordinator, c.origins[index]? = some coordinator ∧ coordinator.name = name
  | _, _ => False

/-- How many processes the pass has still to start. -/
def pending : Phase → Nat
  | .launching names => names.length
  | .prepared _ _ _ names | .forked _ names => names.length + 1
  | _ => 0

/-- A run that was started is over, or its FORKED record is in the checkpoint, or its start is under way. -/
def Accounted (c : Coordination) (state : RunnerState) (phase : Phase) (entry : Name × Nat) : Prop :=
  ∃ run, state.runAt entry = some run ∧ (run.isTerminal = true ∨
    (∃ coordinator, c.Mine entry.1 coordinator ∧ coordinator.run = entry.2) ∨
    Starting c phase entry.1 ∧ entry.2 + 1 = (state.runsOf entry.1).length)

/-- What holds of the runner in control and of the schedule pass that it is in. -/
structure Pace (config : RunnerConfig) (c : Coordination) (runner : Runner) (phase : Phase) (running : Nat)
    (starts : List (Name × Nat)) : Prop where
  regular : Early runner.state → runner.core.Agrees .regular
  finalizing : runner.state.stage = some .finalizing → (∀ resumes, phase ≠ .entering resumes) →
    runner.core.Agrees .finalizing
  bound : 0 < config.task.maxConcurrency →
    ((liveOf config c runner.state).card : Int) + pending phase ≤ config.task.maxConcurrency
  seen : phase = .ready → (stagePlan runner.state.stage).isSome = true →
    (liveOf config c runner.state).card ≤ running
  announced : ∀ name coordinator, c.Mine name coordinator → (name, coordinator.run) ∈ starts
  called : ∀ name, Starting c phase name → (name, (runner.state.runsOf name).length - 1) ∈ starts
  accounted : ∀ entry ∈ starts, Accounted c runner.state phase entry
  once : starts.Nodup

/-- What a step leaves. -/
structure Good (config : RunnerConfig) (c : Coordination) (running : Nat) (starts : List (Name × Nat)) : Prop where
  tidy : ∀ state, Told c state → Tidy config c state
  pace : ∀ holder ∈ c.holder, Pace config c holder.runner holder.phase running starts
  once : starts.Nodup

variable {running : Nat} {starts : List (Name × Nat)}

theorem Good.of_none (told : Told c state) (tidy : Tidy config c state) (gone : c.holder = none) (once : starts.Nodup) :
    Good config c running starts where
  tidy := by
    intro other there
    rwa [there.unique told]
  pace := by
    intro holder there
    rw [gone] at there
    cases there
  once := once

theorem Good.of_some (told : Told c runner.state) (tidy : Tidy config c runner.state)
    (there : c.holder = some ⟨runner, phase⟩) (pace : Pace config c runner phase running starts) :
    Good config c running starts where
  tidy := by
    intro other told'
    rwa [told'.unique told]
  pace := by
    intro holder held
    cases there.symm.trans held
    exact pace
  once := pace.once

theorem Tidy.same (tidy : Tidy config c state) (mine : ∀ name, next.Mine name = c.Mine name) : Tidy config next state where
  early := tidy.early
  bound := by
    rw [liveOf_same mine]
    exact tidy.bound

theorem OnlyEarly.accepted (accepted : Accepted state record event changed) (early : OnlyEarly changed) :
    OnlyEarly state := by
  cases accepted with
  | header => exact early
  | task => exact fun status member => early status (by simp [member])
  | process => exact early

theorem Tidy.accepted (tidy : Tidy config c state) (base : Base config c state)
    (accepted : Accepted state record event changed) (succeeds : Succeeds state changed) : Tidy config c changed where
  early := by
    intro early
    have before := tidy.early (succeeds.early early)
    cases accepted with
    | header => exact before
    | process => exact before
    | task =>
      rename_i status _ _ _
      have entered : status.state = some .active ∨ status.state = some .cleaning := by
        simpa [Early, RunnerState.stage] using early
      intro other member
      simp only [Option.getD_some, List.mem_append, List.mem_singleton] at member
      rcases member with old | rfl
      · exact before other old
      · exact entered
  bound := by
    intro limited
    have fewer := liveOf_shrinks base.staged succeeds (fun name => live_accepted base.assigned accepted)
    have below := tidy.bound limited
    have card := Finset.card_le_card fewer
    omega

theorem agrees_of_handle {plan : Plan} {now : Time} (agrees : runner.core.Agrees plan)
    (accepted : Accepted runner.state record event state)
    (ran : (handle config now event).run { runner with state } = .ok () after) : after.core.Agrees plan := by
  cases accepted with
  | header =>
    cases ran
    exact ⟨agrees.selected, agrees.running⟩
  | task =>
    cases ran
    exact ⟨agrees.selected, agrees.running⟩
  | process plain given numbered entered subject follows carries =>
    rename_i update seq target earlier run
    have accepted : Accepted runner.state { processStatus := some update } (.processTransition update)
        (runner.state.withRuns update.process (earlier ++ [run.advance update seq target])) :=
      .process ⟨rfl, rfl⟩ rfl numbered entered subject follows carries
    have handled : TaskRunner.Handled config runner update after := ⟨_, now, accepted, ran⟩
    obtain ⟨next, again, same, handles⟩ := handled.handles
    refine Core.Agrees.handles agrees ?_ handles
    exact fun name => runsTaken again name

theorem starting_same (origins : next.origins = c.origins) : Starting next phase name = Starting c phase name := by
  unfold Starting
  rw [origins]

theorem accounted_same (mine : ∀ name, next.Mine name = c.Mine name) (origins : next.origins = c.origins)
    (entry : Name × Nat) : Accounted next state phase entry = Accounted c state phase entry := by
  unfold Accounted
  rw [mine, starting_same origins]

theorem Pace.same (pace : Pace config c runner phase running starts) (mine : ∀ name, next.Mine name = c.Mine name)
    (origins : next.origins = c.origins) : Pace config next runner phase running starts where
  regular := pace.regular
  finalizing := pace.finalizing
  bound := by
    rw [liveOf_same mine]
    exact pace.bound
  seen := by
    rw [liveOf_same mine]
    exact pace.seen
  announced := by
    intro name coordinator theirs
    rw [mine] at theirs
    exact pace.announced name coordinator theirs
  called := by
    intro name starting
    rw [starting_same origins] at starting
    exact pace.called name starting
  accounted := by
    intro entry member
    rw [accounted_same mine origins]
    exact pace.accounted entry member
  once := pace.once

theorem Accounted.accepted {entry : Name × Nat} (accounted : Accounted c state phase entry)
    (accepted : Accepted state record event changed) (quiet : ¬ Starting c phase entry.1) :
    Accounted c changed phase entry := by
  obtain ⟨run, found, stands⟩ := accounted
  obtain ⟨later, there, kept⟩ := RunnerState.RunsKept.accepted accepted entry run found
  refine ⟨later, there, ?_⟩
  rcases stands with ceased | known | ⟨starting, _⟩
  · exact .inl (kept.ceased ceased)
  · exact .inr (.inl known)
  · exact absurd starting quiet

theorem succeeds_of_accepted (accepted : Accepted state record event changed)
    (leads : ∀ status, record.taskStatus = some status → status.state = state.stage ∨
      ∃ target ∈ nextStates state.stage, status.state = some target) : Succeeds state changed := by
  cases accepted with
  | header => exact .inl rfl
  | process => exact .inl rfl
  | task plain given =>
    have leads := leads _ given
    simpa [Succeeds, RunnerState.stage] using leads

theorem good_dispatch (base : Base config c runner.state) (tidy : Tidy config c runner.state)
    (pace : Pace config c runner phase running starts) (quiet : ∀ name, ¬ Starting c phase name) (now : Time)
    (leads : ∀ status, record.taskStatus = some status → status.state = runner.state.stage ∨
      ∃ target ∈ nextStates runner.state.stage, status.state = some target)
    (enters : ∀ status, record.taskStatus = some status → ∃ resumes, phase = .entering resumes) :
    Good config (dispatch config now record phase runner c) running starts := by
  have ends := dispatches config now record phase runner c
  generalize dispatch config now record phase runner c = next at ends
  cases ends with
  | refused => exact .of_none (show Told _ runner.state from base.replayed) (tidy.same fun _ => rfl) rfl pace.once
  | raised accepted =>
    have told : Told c runner.state := base.replayed
    have succeeds := succeeds_of_accepted accepted leads
    exact .of_none (told.recorded accepted none) ((tidy.accepted base accepted succeeds).same fun _ => rfl) rfl pace.once
  | handled accepted ran =>
    rename_i event changed now after
    have told : Told c runner.state := base.replayed
    have succeeds := succeeds_of_accepted accepted leads
    obtain ⟨rfl, _⟩ := replayed_of_handle accepted ran
    have shrinks := liveOf_shrinks base.staged succeeds (fun name => live_accepted base.assigned accepted)
    have fewer : (liveOf config c after.state).card ≤ (liveOf config c runner.state).card := Finset.card_le_card shrinks
    have recorded := recorded_of_handle accepted ran
    have stays : (∀ resumes, phase ≠ .entering resumes) → after.state.stage = runner.state.stage := by
      intro settled
      apply recorded.stays
      cases given : record.taskStatus with
      | none => rfl
      | some status =>
        obtain ⟨resumes, entering⟩ := enters status given
        exact absurd entering (settled resumes)
    have paced : Pace config c after phase running starts := by
      constructor
      · exact fun early => agrees_of_handle (pace.regular (succeeds.early early)) accepted ran
      · intro finalizing settled
        rw [stays settled] at finalizing
        exact agrees_of_handle (pace.finalizing finalizing settled) accepted ran
      · intro limited
        have below := pace.bound limited
        omega
      · intro ready runs
        have settled : ∀ resumes, phase ≠ .entering resumes := by
          rw [ready]
          simp
        rw [stays settled] at runs
        exact fewer.trans (pace.seen ready runs)
      · exact pace.announced
      · exact fun name starting => absurd starting (quiet name)
      · exact fun entry member => (pace.accounted entry member).accepted accepted (quiet entry.1)
      · exact pace.once
    exact .of_some (told.recorded accepted _) ((tidy.accepted base accepted succeeds).same fun _ => rfl) rfl
      (paced.same (fun _ => rfl) rfl)

theorem Pace.moved {further : Phase} {later : Nat} (pace : Pace config c runner phase running starts)
    (same : after.state = runner.state) (quiet : ∀ name, ¬ Starting c phase name)
    (still : ∀ name, ¬ Starting c further name) (regular : Early runner.state → after.core.Agrees .regular)
    (finalizing : runner.state.stage = some .finalizing → (∀ resumes, further ≠ .entering resumes) →
      after.core.Agrees .finalizing)
    (bound : 0 < config.task.maxConcurrency →
      ((liveOf config c runner.state).card : Int) + pending further ≤ config.task.maxConcurrency)
    (seen : further = .ready → (stagePlan runner.state.stage).isSome = true → (liveOf config c runner.state).card ≤ later) :
    Pace config c after further later starts where
  regular := by
    rw [same]
    exact regular
  finalizing := by
    rw [same]
    exact finalizing
  bound := by
    rw [same]
    exact bound
  seen := by
    rw [same]
    exact seen
  announced := pace.announced
  called := fun name starting => absurd starting (still name)
  accounted := by
    intro entry member
    obtain ⟨run, found, stands⟩ := pace.accounted entry member
    refine ⟨run, by rwa [same], ?_⟩
    rcases stands with ceased | known | ⟨starting, _⟩
    · exact .inl ceased
    · exact .inr (.inl known)
    · exact absurd starting (quiet entry.1)
  once := pace.once

/-- What is live as a pass begins is running, as all FORKED records have been read. -/
theorem live_running (base : Base config c runner.state)
    (idle : ∀ name coordinator, Out c runner.state name coordinator → ¬ InStage config runner.state name)
    (regular : Early runner.state → runner.core.Agrees .regular)
    (finalizing : runner.state.stage = some .finalizing → runner.core.Agrees .finalizing)
    (runs : (stagePlan runner.state.stage).isSome = true) :
    (liveOf config c runner.state).card ≤ (Scheduling.ofPlan runner fun plan => plan.planner.running).card := by
  apply Finset.card_le_card
  intro name member
  obtain ⟨plan, counted, selected, coordinator, mine, run, found, going⟩ := mem_liveOf.mp member
  obtain ⟨stage, staged⟩ := Option.isSome_iff_exists.mp runs
  have own : stage = plan ∧ runner.core.Agrees plan := by
    unfold stagePlan at staged
    split at staged
    next active =>
      rw [active] at counted
      cases staged
      cases counted
      exact ⟨rfl, regular (.inl active)⟩
    next finally_ =>
      rw [finally_] at counted
      cases staged
      cases counted
      exact ⟨rfl, finalizing finally_⟩
    · cases staged
  obtain ⟨rfl, agrees⟩ := own
  have listed : (runner.state.processes.get? (some name)).isSome = true := by
    cases known : runner.state.processes.get? (some name) with
    | none => simp [RunnerState.runsOf, known] at found
    | some runs => rfl
  rw [Scheduling.ofPlan, taskState_eq_stage, staged]
  obtain ⟨earlier, last, shape⟩ : ∃ earlier last, runner.state.runsOf name = earlier ++ [last] := by
    rcases List.eq_nil_or_concat' (runner.state.runsOf name) with none_known | shape
    · simp [none_known] at found
    · exact shape
  rw [shape] at found
  rcases RunnerState.last_or_earlier found with before | ⟨current, rfl⟩
  · have closed := closed_of_told (c := c) base.replayed
    rw [closed _ _ _ (get?_of_runsOf shape) run (List.mem_of_getElem? before)] at going
    cases going
  · have left : run.state ≠ some .waiting := fun waits =>
      idle name coordinator ⟨mine, earlier, run, shape, waits, current⟩ ⟨stage, staged, selected⟩
    have active : Active runner.state name :=
      ⟨run, RunnerState.currentRun_of_get? (get?_of_runsOf shape), going, left⟩
    have running := agrees.running name active
    rwa [TaskRunner.planner_core] at running

theorem pickProcesses_room (limited : 0 < config.task.maxConcurrency) (runnable : List Name) {live : Nat}
    (fits : (live : Int) ≤ config.task.maxConcurrency) (seen : live ≤ running) :
    (live : Int) + (TaskRunner.pickProcesses config running runnable).length ≤ config.task.maxConcurrency := by
  unfold TaskRunner.pickProcesses
  rw [if_neg (by omega), List.length_take]
  omega

end Pace

section Starts

variable {running : Nat} {starts : List (Name × Nat)} {names : List Name} {earlier : List ProcessRun} {run : ProcessRun}

/-- A process that is still to be launched has a run that was not started yet. -/
theorem not_started (pace : Pace config c runner (.launching (name :: names)) running starts)
    (passing : Passing config c runner (name :: names)) (listed : runner.state.runsOf name = earlier ++ [run])
    (waits : run.state = some .waiting) : (name, earlier.length) ∉ starts := by
  intro member
  obtain ⟨found, there, stands⟩ := pace.accounted _ member
  rw [runAt_eq, listed, List.getElem?_concat_length] at there
  cases there
  rcases stands with ceased | ⟨coordinator, mine, current⟩ | ⟨starting, _⟩
  · simp [ProcessRun.isTerminal, waits] at ceased
  · have out : Out c runner.state name coordinator := ⟨mine, earlier, run, listed, waits, current⟩
    exact (passing.unread name coordinator out).2 List.mem_cons_self
  · exact starting

theorem once_started (once : starts.Nodup) (fresh : (name, earlier.length) ∉ starts) :
    (starts ++ [(name, earlier.length)]).Nodup := by
  rw [List.nodup_append]
  refine ⟨once, by simp, ?_⟩
  rintro entry member other only rfl
  rw [List.mem_singleton.mp only] at member
  exact fresh member

theorem pace_prepared (pace : Pace config c runner (.launching (name :: names)) running starts)
    (passing : Passing config c runner (name :: names)) (listed : runner.state.runsOf name = earlier ++ [run])
    (waits : run.state = some .waiting) (head : Nat) (forkTime : Time) :
    Pace config c runner (.prepared name head forkTime names) running (starts ++ [(name, earlier.length)]) where
  regular := pace.regular
  finalizing := fun finalizing _ => pace.finalizing finalizing (by simp)
  bound := pace.bound
  seen := fun ready => by cases ready
  announced := fun other coordinator mine => List.mem_append_left _ (pace.announced other coordinator mine)
  called := by
    rintro other rfl
    simp [listed]
  accounted := by
    intro entry member
    rcases List.mem_append.mp member with old | new
    · obtain ⟨found, there, stands⟩ := pace.accounted entry old
      refine ⟨found, there, ?_⟩
      rcases stands with ceased | known | ⟨starting, _⟩
      · exact .inl ceased
      · exact .inr (.inl known)
      · cases starting
    · cases List.mem_singleton.mp new
      exact ⟨run, by rw [runAt_eq, listed, List.getElem?_concat_length], .inr (.inr ⟨rfl, by simp [listed]⟩)⟩
  once := once_started pace.once (not_started pace passing listed waits)

theorem pace_forked {head index : Nat} {forkTime : Time}
    (pace : Pace config c runner (.prepared name head forkTime names) running starts)
    (mine : ∀ other, next.Mine other = c.Mine other) (found : next.origins[index]? = some coordinator)
    (named : coordinator.name = name) : Pace config next runner (.forked index names) running starts where
  regular := pace.regular
  finalizing := fun finalizing _ => pace.finalizing finalizing (by simp)
  bound := by
    rw [liveOf_same mine]
    exact pace.bound
  seen := fun ready => by cases ready
  announced := by
    intro other forked theirs
    rw [mine] at theirs
    exact pace.announced other forked theirs
  called := by
    rintro other ⟨forked, there, rfl⟩
    cases there.symm.trans found
    exact pace.called coordinator.name named.symm
  accounted := by
    intro entry member
    obtain ⟨run, there, stands⟩ := pace.accounted entry member
    refine ⟨run, there, ?_⟩
    rcases stands with ceased | known | ⟨starting, last⟩
    · exact .inl ceased
    · rw [← mine] at known
      exact .inr (.inl known)
    · exact .inr (.inr ⟨⟨coordinator, found, named.trans starting⟩, last⟩)
  once := pace.once

theorem pace_finalized {index : Nat} (pace : Pace config c runner (.forked index names) running starts)
    (found : c.origins[index]? = some coordinator)
    (listed : runner.state.runsOf coordinator.name = earlier ++ [run]) (placed : coordinator.run = earlier.length)
    (mine : ∀ other forked, next.Mine other forked ↔
      c.Mine other forked ∨ other = coordinator.name ∧ forked = coordinator)
    (state : after.state = runner.state) (agrees : ∀ plan, runner.core.Agrees plan → after.core.Agrees plan) :
    Pace config next after (.launching names) running starts where
  regular := by
    rw [state]
    exact fun early => agrees .regular (pace.regular early)
  finalizing := by
    rw [state]
    exact fun finalizing _ => agrees .finalizing (pace.finalizing finalizing (by simp))
  bound := by
    intro limited
    have below := pace.bound limited
    have more : liveOf config next runner.state ⊆ insert coordinator.name (liveOf config c runner.state) := by
      intro other member
      obtain ⟨plan, counted, selected, forked, theirs, rest⟩ := mem_liveOf.mp member
      rcases (mine other forked).mp theirs with old | ⟨rfl, _⟩
      · exact Finset.mem_insert_of_mem (mem_liveOf.mpr ⟨plan, counted, selected, forked, old, rest⟩)
      · exact Finset.mem_insert_self _ _
    have card := (Finset.card_le_card more).trans (Finset.card_insert_le _ _)
    rw [state]
    simp only [pending] at below ⊢
    omega
  seen := fun ready => by cases ready
  announced := by
    intro other forked theirs
    rcases (mine other forked).mp theirs with old | ⟨rfl, rfl⟩
    · exact pace.announced other forked old
    · have called := pace.called forked.name ⟨forked, found, rfl⟩
      simpa [listed, placed] using called
  called := fun other starting => by cases starting
  accounted := by
    rw [state]
    intro entry member
    obtain ⟨found', there, stands⟩ := pace.accounted entry member
    refine ⟨found', there, ?_⟩
    rcases stands with ceased | ⟨forked, theirs, current⟩ | ⟨⟨forked, known, named⟩, last⟩
    · exact .inl ceased
    · exact .inr (.inl ⟨forked, (mine _ _).mpr (.inl theirs), current⟩)
    · cases known.symm.trans found
      refine .inr (.inl ⟨coordinator, (mine _ _).mpr (.inr ⟨named.symm, rfl⟩), ?_⟩)
      rw [← named, listed] at last
      simp only [List.length_append, List.length_singleton] at last
      omega
  once := pace.once

theorem recorded_of_dispatch {now : Time} {holder : Holder}
    (held : (dispatch config now record phase runner c).holder = some holder) :
    Recorded config record runner holder.runner ∧ holder.phase = phase := by
  have ends := dispatches config now record phase runner c
  generalize dispatch config now record phase runner c = next at ends held
  cases ends with
  | refused => cases held
  | raised => cases held
  | handled accepted ran =>
    cases held
    exact ⟨recorded_of_handle accepted ran, rfl⟩

theorem over_of_recorded {update : ProcessStatus}
    (recorded : Recorded config { processStatus := some update } runner after) (named : update.process = some name)
    (failed : update.state = some .failed) (listed : runner.state.runsOf name = earlier ++ [run]) :
    ∃ last, after.state.runAt (name, earlier.length) = some last ∧ last.isTerminal = true := by
  have taken := recorded.taken update rfl rfl rfl name
  cases taken with
  | other different => exact absurd named different
  | opened _ entered => cases entered.symm.trans failed
  | moved _ entered _ known _ _ advanced =>
    cases entered.symm.trans failed
    obtain ⟨rfl, -⟩ := List.append_inj' (Option.some.inj ((get?_of_runsOf listed).symm.trans known)) rfl
    refine ⟨_, by rw [runAt_eq, runsOf_eq advanced]; exact List.getElem?_concat_length, ?_⟩
    simp [ProcessRun.isTerminal, ProcessRun.advance_state]

theorem good_unprepared (base : Base config c runner.state) (tidy : Tidy config c runner.state)
    (pace : Pace config c runner (.launching (name :: names)) running starts)
    (passing : Passing config c runner (name :: names)) (listed : runner.state.runsOf name = earlier ++ [run])
    (waits : run.state = some .waiting) (now : Time) :
    Good config (setProcessStatus config now name .failed none none (.launching names) runner c) running
      (starts ++ [(name, earlier.length)]) := by
  have fewer : Pace config c runner (.launching names) running starts := by
    refine pace.moved rfl (fun _ => id) (fun _ => id) pace.regular (fun finalizing _ => pace.finalizing finalizing (by simp)) ?_
      (fun ready => by cases ready)
    intro limited
    have below := pace.bound limited
    simp only [pending, List.length_cons] at below ⊢
    omega
  have fresh := not_started pace passing listed waits
  have current := RunnerState.currentRun_of_get? (get?_of_runsOf listed)
  simp only [setProcessStatus, current]
  set failure : ProcessStatus :=
    { process := some name, state := some .failed, stopTime := none, returnCode := none, seq := some (run.seq + 1) } with told
  have good : Good config (dispatch config now { processStatus := some failure } (.launching names) runner c) running starts :=
    good_dispatch base tidy fewer (fun _ => id) now (fun status given => by cases given) (fun status given => by cases given)
  refine ⟨good.tidy, ?_, once_started pace.once fresh⟩
  intro holder held
  have paced := good.pace holder held
  obtain ⟨recorded, there⟩ := recorded_of_dispatch held
  have ceased := over_of_recorded recorded rfl rfl listed
  rw [there] at paced ⊢
  constructor
  · exact paced.regular
  · exact paced.finalizing
  · exact paced.bound
  · exact paced.seen
  · exact fun other coordinator mine => List.mem_append_left _ (paced.announced other coordinator mine)
  · exact fun other starting => by cases starting
  · intro entry member
    rcases List.mem_append.mp member with old | new
    · exact paced.accounted entry old
    · cases List.mem_singleton.mp new
      obtain ⟨last, found, terminal⟩ := ceased
      exact ⟨last, found, .inl terminal⟩
  · exact once_started paced.once fresh

end Starts

end Coordination

end Aurora.Thermos
