import Aurora.Thermos.Core.ControlSteps

namespace Aurora.Thermos

open Collections ProcessMuxer Replay Transition

namespace Coordination

variable {config : RunnerConfig} {c next : Coordination} {runner : Runner} {coordinator : Coordinator} {phase : Phase}
  {event : Event} {events : List Event} {index : Nat}

section Waits

def Event.looks (index : Nat) : Event → Bool
  | .waitForControl other => other = index
  | _ => false

theorem dispatch_coordinators (now : Time) (record : RunnerCkpt) :
    (dispatch config now record phase runner c).coordinators = c.coordinators := by
  have ends := dispatches config now record phase runner c
  generalize dispatch config now record phase runner c = next at ends
  cases ends <;> rfl

theorem setProcessStatus_coordinators (now : Time) (name : Name) (state : ProcessState) (stopTime : Option Time)
    (returnCode : Option Int) :
    (setProcessStatus config now name state stopTime returnCode phase runner c).coordinators = c.coordinators := by
  unfold setProcessStatus
  cases runner.state.currentRun (some name) with
  | none =>
    simp only
    split_ifs
    · exact dispatch_coordinators _ _
    · rfl
  | some run => exact dispatch_coordinators _ _

theorem initializeCkptHeader_coordinators :
    (initializeCkptHeader config phase runner c).coordinators = c.coordinators := by
  unfold initializeCkptHeader
  split_ifs
  · exact dispatch_coordinators _ _
  · rfl

theorem holderStep_coordinators (taken : holderStep config c runner phase event = some next) :
    ∃ forked, next.coordinators = c.coordinators ++ forked ∧ ∀ coordinator ∈ forked, coordinator.fate = .waiting 0 := by
  have unchanged : next.coordinators = c.coordinators →
      ∃ forked, next.coordinators = c.coordinators ++ forked ∧ ∀ coordinator ∈ forked, coordinator.fate = .waiting 0 :=
    fun same => ⟨[], by rw [same, List.append_nil], by simp⟩
  cases holderStep_moves taken with
  | forked made fresh => exact ⟨_, rfl, by simp⟩
  | marked | awaited | unlocked => exact unchanged (setProcessStatus_coordinators _ _ _ _ _)
  | applied | passed => exact unchanged (dispatch_coordinators _ _)
  | resumed => exact unchanged initializeCkptHeader_coordinators
  | _ => exact unchanged rfl

def Waited (c : Coordination) (event : Event) (index total : Nat) : Prop :=
  ∃ before earlier, c.coordinators[index]? = some before ∧ before.fate = .waiting earlier ∧
    total = earlier + if event.looks index then ProcessBase.controlWaitCheckInterval else 0

theorem waitForControl_waiting {records : List ProcessStatus} {earlier total : Nat}
    (still : coordinator.waitForControl records earlier = .waiting total) :
    total = earlier + ProcessBase.controlWaitCheckInterval := by
  unfold Coordinator.waitForControl at still
  split_ifs at still
  split at still
  · exact (Fate.waiting.inj still).symm
  · split_ifs at still
    split at still <;> cases still

theorem waited_coordinatorStep {other total : Nat} {before : Coordinator} (there : c.coordinators[other]? = some before)
    (own : ∀ position, event = .waitForControl position → position = other)
    (taken : coordinatorStep c other before event = some next) (found : next.coordinators[index]? = some coordinator)
    (waits : coordinator.fate = .waiting total) : Waited c event index total := by
  have set : ∀ fate : Fate, next.coordinators = c.coordinators.set other { before with fate } →
      index = other ∧ coordinator = { before with fate } ∨ index ≠ other ∧ c.coordinators[index]? = some coordinator := by
    intro fate same
    rw [same] at found
    by_cases equal : index = other
    · subst equal
      rw [List.getElem?_set_self (List.getElem?_eq_some_iff.mp there).1] at found
      exact .inl ⟨rfl, (Option.some.inj found).symm⟩
    · rw [List.getElem?_set_ne (Ne.symm equal)] at found
      exact .inr ⟨equal, found⟩
  have aside : ∀ {fate : Fate}, next.coordinators = c.coordinators.set other { before with fate } →
      (∀ total, fate ≠ .waiting total) → event.looks index = false → Waited c event index total := by
    intro fate same ceased elsewhere
    rcases set fate same with ⟨_, rfl⟩ | ⟨_, known⟩
    · exact absurd waits (ceased total)
    · exact ⟨coordinator, total, known, waits, by simp [elsewhere]⟩
  unfold coordinatorStep at taken
  split at taken
  next position =>
    obtain rfl := own position rfl
    split at taken
    next earlier still =>
      cases taken
      rcases set _ rfl with ⟨rfl, rfl⟩ | ⟨different, known⟩
      · exact ⟨before, earlier, there, still, by simpa [Event.looks] using waitForControl_waiting waits⟩
      · exact ⟨coordinator, total, known, waits, by simp [Event.looks, Ne.symm different]⟩
    · cases taken
  · split at taken
    · cases taken
      exact aside rfl (by simp) rfl
    · cases taken
  · split at taken
    · split_ifs at taken
      cases taken
      exact aside rfl (by simp) rfl
    · cases taken
  · cases taken

theorem waited_step (taken : step config c event = some next) (found : next.coordinators[index]? = some coordinator)
    {total : Nat} (waits : coordinator.fate = .waiting total) :
    (c.coordinators.length ≤ index ∧ total = 0 ∧ event.looks index = false) ∨ Waited c event index total := by
  have unchanged : c.coordinators[index]? = some coordinator → event.looks index = false → Waited c event index total :=
    fun there elsewhere => ⟨coordinator, total, there, waits, by simp [elsewhere]⟩
  rcases step_cases taken with ⟨answers, timestampMs, runner, entered, rfl, _, _, _, rfl⟩ |
    ⟨other, before, there, own, taken⟩ | ⟨runner, phase, there, taken⟩
  · rw [setTaskStatus, dispatch_coordinators] at found
    exact .inr (unchanged found rfl)
  · exact .inr (waited_coordinatorStep there own taken found waits)
  · have quiet : event.looks index = false := by
      cases event with
      | waitForControl other => cases taken
      | _ => rfl
    obtain ⟨forked, same, fresh⟩ := holderStep_coordinators taken
    rw [same] at found
    by_cases old : index < c.coordinators.length
    · rw [List.getElem?_append_left old] at found
      exact .inr (unchanged found quiet)
    · rw [List.getElem?_append_right (by omega)] at found
      cases (fresh coordinator (List.mem_of_getElem? found)).symm.trans waits
      exact .inl ⟨by omega, rfl, quiet⟩

theorem coordinatorStep_length {other : Nat} (taken : coordinatorStep c other coordinator event = some next) :
    next.coordinators.length = c.coordinators.length := by
  unfold coordinatorStep at taken
  split at taken
  · split at taken <;> cases taken
    exact List.length_set
  · split at taken <;> cases taken
    exact List.length_set
  · split at taken
    · split_ifs at taken
      cases taken
      exact List.length_set
    · cases taken
  · cases taken

theorem step_length (taken : step config c event = some next) : c.coordinators.length ≤ next.coordinators.length ∧
    (event.looks index = true → index < next.coordinators.length) := by
  rcases step_cases taken with ⟨answers, timestampMs, runner, entered, rfl, _, _, _, rfl⟩ |
    ⟨other, before, there, own, taken⟩ | ⟨runner, phase, there, taken⟩
  · rw [setTaskStatus, dispatch_coordinators]
    exact ⟨le_rfl, fun looks => by cases looks⟩
  · rw [coordinatorStep_length taken]
    refine ⟨le_rfl, fun looks => ?_⟩
    cases event with
    | waitForControl position =>
      obtain rfl := own position rfl
      obtain rfl : position = index := by simpa [Event.looks] using looks
      exact (List.getElem?_eq_some_iff.mp there).1
    | _ => cases looks
  · obtain ⟨forked, same, _⟩ := holderStep_coordinators taken
    rw [same, List.length_append]
    refine ⟨by omega, fun looks => ?_⟩
    cases event with
    | waitForControl other => cases taken
    | _ => cases looks

theorem waited_run {last : Coordination} (reached : run (step config) c events = some last)
    (found : last.coordinators[index]? = some coordinator) {total : Nat} (waits : coordinator.fate = .waiting total) :
    (c.coordinators.length ≤ index ∧
      total = ProcessBase.controlWaitCheckInterval * events.countP (Event.looks index)) ∨
      ∃ before earlier, c.coordinators[index]? = some before ∧ before.fate = .waiting earlier ∧
        total = earlier + ProcessBase.controlWaitCheckInterval * events.countP (Event.looks index) := by
  induction events generalizing c with
  | nil =>
    cases reached
    exact .inr ⟨coordinator, total, found, waits, by simp⟩
  | cons event rest ih =>
    obtain ⟨next, taken, reached⟩ := run_cons.mp reached
    obtain ⟨grows, known⟩ := @step_length config c next event index taken
    rw [List.countP_cons]
    rcases ih reached with ⟨missing, rfl⟩ | ⟨middle, earlier, there, waited, rfl⟩
    · refine .inl ⟨by omega, ?_⟩
      have elsewhere : event.looks index = false := by
        by_contra looks
        have bound := known (Bool.of_not_eq_false looks)
        omega
      simp [elsewhere]
    · rcases waited_step taken there waited with ⟨missing, rfl, elsewhere⟩ | ⟨before, start, found, waiting, rfl⟩
      · exact .inl ⟨missing, by simp [elsewhere]⟩
      · refine .inr ⟨before, start, found, waiting, ?_⟩
        rw [Nat.mul_add]
        split_ifs <;> omega

end Waits

/-- The records of a process that the runner has still to dispatch: what it has read, or is going to read. -/
def upcoming (files : ProcessFiles) (holder : Holder) (name : Name) : List ProcessStatus :=
  match holder.phase, holder.runner.watcher.processes.get? name with
  | .collecting unread, _ => unread
  | _, some watched => due watched.watermark (content files name) watched.position
  | _, none => []

/-- At most one coordinator of a run gets past `_wait_for_control`, the others are still in it or have raised
    CheckpointError, and the run is adopted by way of its FORKED record. -/
structure SoleControl (c : Coordination) : Prop where
  sole : ∀ name run, (c.coordinators.filter fun coordinator =>
    coordinator.passed && coordinator.name = name && coordinator.run = run).length ≤ 1
  others : ∀ coordinator ∈ c.coordinators, coordinator.passed = true ∨ (∃ total, coordinator.fate = .waiting total) ∨
    ∃ message, coordinator.fate = .raised (.processError message)
  adopted : ∀ holder ∈ c.holder, ∀ coordinator ∈ c.coordinators, coordinator.passed = true →
    ∃ run, (holder.runner.state.runsOf coordinator.name)[coordinator.run]? = some run ∧
      (run.state = some .waiting ∧ coordinator.initialUpdate ∈ upcoming c.files holder coordinator.name ∨
        run.forkTime = some coordinator.forkTime ∧ run.coordinatorPid = some coordinator.pid)

theorem announced_of_passed (logged : Logged c) (member : coordinator ∈ c.coordinators) (passed : coordinator.passed = true) :
    coordinator.Announced c.files := by
  have fares := logged.fates coordinator member
  unfold Coordinator.Fares at fares
  unfold Coordinator.passed at passed
  cases fate : coordinator.fate with
  | waiting total => simp [fate] at passed
  | raised e => simp [fate] at passed
  | finished => simpa [fate] using fares
  | executing seq running =>
    simp only [fate] at fares
    exact fares.1

theorem mine_of_passed (logged : Logged c) (member : coordinator ∈ c.coordinators) (passed : coordinator.passed = true) :
    c.Mine coordinator.name coordinator.origin := by
  have announced := announced_of_passed logged member passed
  exact ⟨mem_origins.mpr ⟨coordinator, member, rfl⟩, rfl, announced⟩

theorem out_of_waiting {state : RunnerState} (base : Base config c state) {name : Name} (mine : c.Mine name coordinator)
    {run : ProcessRun} (found : (state.runsOf name)[coordinator.run]? = some run) (waits : run.state = some .waiting) :
    Out c state name coordinator := by
  refine ⟨mine, ?_⟩
  have assigned := base.assigned name
  rcases List.eq_nil_or_concat' (state.runsOf name) with none_known | ⟨earlier, last, listed⟩
  · rw [none_known] at found
    cases found
  · rw [listed] at assigned found
    rcases assigned.placed mine with before | current
    · rw [List.getElem?_append_left before] at found
      exact absurd waits (assigned.ceased earlier last rfl run (List.mem_of_getElem? found))
    · rw [current, List.getElem?_concat_length] at found
      cases found
      exact ⟨earlier, run, listed, waits, current⟩

theorem Promises.upcoming {holder : Holder} (base : Base config c holder.runner.state)
    (attentive : Attentive config c holder.runner) (promises : Promises config c holder.runner holder.phase) {name : Name}
    (out : Out c holder.runner.state name coordinator) :
    coordinator.initialUpdate ∈ upcoming c.files holder name := by
  obtain ⟨runner, phase⟩ := holder
  have read : Ahead c.files runner name coordinator.initialUpdate → ∃ watermark position,
      runner.watcher.processes.get? name = some ⟨watermark, position⟩ ∧
        coordinator.initialUpdate ∈ due watermark (content c.files name) position := out_due base attentive out
  cases phase with
  | collecting unread => exact promises.2 name coordinator out
  | entering resumes =>
    have ahead : Ahead c.files runner name coordinator.initialUpdate := by
      cases resumes with
      | true => exact promises name coordinator out
      | false => exact (promises name coordinator out).1
    obtain ⟨watermark, position, watched, found⟩ := read ahead
    simpa only [Coordination.upcoming, watched] using found
  | resuming =>
    obtain ⟨watermark, position, watched, found⟩ := read (promises name coordinator out)
    simpa only [Coordination.upcoming, watched] using found
  | ready =>
    obtain ⟨watermark, position, watched, found⟩ := read (promises name coordinator out).1
    simpa only [Coordination.upcoming, watched] using found
  | launching names =>
    obtain ⟨watermark, position, watched, found⟩ := read (promises.unread name coordinator out).1
    simpa only [Coordination.upcoming, watched] using found
  | prepared _ _ _ names =>
    obtain ⟨watermark, position, watched, found⟩ := read (promises.1.unread name coordinator out).1
    simpa only [Coordination.upcoming, watched] using found
  | forked position names =>
    obtain ⟨_, _, passing, _⟩ := promises
    obtain ⟨watermark, position, watched, found⟩ := read (passing.unread name coordinator out).1
    simpa only [Coordination.upcoming, watched] using found

theorem soleControl_of_inv (inv : Inv config c) : SoleControl c := by
  obtain ⟨state, base, agrees⟩ := inv.base
  constructor
  · intro name run
    let chosen := c.coordinators.filter fun coordinator =>
      coordinator.passed && coordinator.name = name && coordinator.run = run
    have keys : (chosen.map Coordinator.key).Nodup :=
      base.logged.distinct.sublist (List.filter_sublist.map _)
    have alone : ∀ first ∈ chosen, ∀ second ∈ chosen, first.key = second.key := by
      intro first left second right
      simp only [chosen, List.mem_filter, Bool.and_eq_true, decide_eq_true_eq] at left right
      obtain ⟨one, ⟨passed, rfl⟩, rfl⟩ := left
      obtain ⟨other, ⟨gone, named⟩, same⟩ := right
      have theirs := mine_of_passed base.logged other gone
      rw [named] at theirs
      have equal := (base.assigned first.name).alone _ _ (mine_of_passed base.logged one passed) theirs same.symm
      have keyed : first.origin.key = second.origin.key := congrArg Coordinator.key equal
      exact keyed
    show chosen.length ≤ 1
    cases listed : chosen with
    | nil => simp
    | cons first rest =>
      cases rest with
      | nil => simp
      | cons second rest =>
        rw [listed] at keys alone
        have same := alone first (by simp) second (by simp)
        simp [same] at keys
  · intro coordinator member
    have fares := base.logged.fates coordinator member
    unfold Coordinator.Fares at fares
    unfold Coordinator.passed
    cases fate : coordinator.fate with
    | waiting total => exact .inr (.inl ⟨total, rfl⟩)
    | executing | finished => exact .inl rfl
    | raised e =>
      simp only [fate] at fares
      obtain ⟨message, rfl⟩ := fares
      exact .inr (.inr ⟨message, rfl⟩)
  · intro holder there coordinator member passed
    have mine := mine_of_passed base.logged member passed
    have held := inv.held holder there
    rw [← agrees holder there] at base
    obtain ⟨run, found, adopts⟩ := (base.assigned coordinator.name).adopts _ mine
    refine ⟨run, found, ?_⟩
    cases adopts with
    | adopted _ _ forkTime pid => exact .inr ⟨forkTime, pid⟩
    | awaited waits =>
      have out := out_of_waiting base mine found waits
      have found := Promises.upcoming base held.attentive held.promises out
      exact .inl ⟨waits, found⟩

theorem inv_start (config : RunnerConfig) : Inv config {} := by
  have logged : Logged {} := by
    refine ⟨List.nodup_nil, ?_, ?_⟩
    · intro name record member
      cases member
    · intro coordinator member
      cases member
  refine @Inv.of_none config {} {} ⟨rfl, logged, fun name => ?_, fun _ coordinator member => by cases member⟩ rfl
  have nobody : ∀ coordinator, ¬ Mine {} name coordinator := by
    rintro coordinator ⟨member, _⟩
    cases member
  refine ⟨fun coordinator mine => absurd mine (nobody coordinator), fun first second mine => absurd mine (nobody first),
    fun coordinator mine => absurd mine (nobody coordinator), ?_⟩
  intro earlier last listed
  simp [RunnerState.runsOf] at listed

/-- In every run of runners that crash and take over anywhere and of the coordinators that they fork, each process run
    is under the control of one coordinator at most, whose FORKED record is adopted, and one that has looked often enough
    waits no longer; so it is if FINALIZING is never entered while a process of both plans has a FORKED record that is
    not adopted. -/
theorem sole_coordinator (config : RunnerConfig) (events : List Event) (c : Coordination)
    (adopted : Along (step config) (Adopted config) {} events) (reached : run (step config) {} events = some c) :
    SoleControl c ∧ ∀ index, ProcessBase.maximumControlWait / ProcessBase.controlWaitCheckInterval <
      events.countP (Event.looks index) → ∀ coordinator ∈ c.coordinators[index]?, ∀ total, coordinator.fate ≠ .waiting total := by
  have inv : Inv config c := invariant (fun _ _ _ inv adopted taken => inv_step inv adopted taken) (inv_start config) adopted reached
  refine ⟨soleControl_of_inv inv, ?_⟩
  intro index looks coordinator found total waits
  obtain ⟨state, base, _⟩ := inv.base
  have fares := base.logged.fates coordinator (List.mem_of_getElem? found)
  simp only [Coordinator.Fares, waits] at fares
  rcases waited_run reached found waits with ⟨_, rfl⟩ | ⟨before, _, there, _⟩
  · unfold ProcessBase.maximumControlWait ProcessBase.controlWaitCheckInterval at *
    omega
  · cases there

section Examples

def fetching : RunnerConfig where
  task := { processes := [{ name := "fetch" }] }
  totalRunLimit := 100

/-- The first runner crashes between the fork and the FORKED record; the next one launches the run again. -/
def orphaned : List Event := [
  .takeOver [] 0, .selectPlan, .resume, .apply 0, .schedule 0 ["fetch"], .await 0, .prepareFork true 1 0, .fork 11,
  .waitForControl 0, .crash,
  .takeOver [] 2000, .selectPlan, .resume, .apply 2, .schedule 2 ["fetch"], .prepareFork true 2 2, .fork 21,
  .finalizeFork, .waitForControl 1, .waitForControl 0, .running 1 22 3, .collect, .apply 4, .apply 4]

theorem sole_coordinator_orphaned : ∃ c, run (step fetching) {} orphaned = some c ∧ SoleControl c ∧
    ∀ index, ProcessBase.maximumControlWait / ProcessBase.controlWaitCheckInterval <
      orphaned.countP (Event.looks index) → ∀ coordinator ∈ c.coordinators[index]?, ∀ total, coordinator.fate ≠ .waiting total := by
  have adopted : Along (step fetching) (Adopted fetching) {} orphaned := by decide +kernel
  have reached : (run (step fetching) {} orphaned).isSome = true := by decide +kernel
  obtain ⟨c, reached⟩ := Option.isSome_iff_exists.mp reached
  exact ⟨c, reached, sole_coordinator fetching orphaned c adopted reached⟩

def twice : RunnerConfig where
  task := { processes := [{ name := "check" }, { name := "fetch" }, { name := "fetch", final := true }],
            maxConcurrency := 1 }
  totalRunLimit := 100

/-- The pass that launches `fetch` ends ACTIVE, as `check` has failed; FINALIZING launches the same run again. -/
def relaunched : List Event := [
  .takeOver [] 0, .selectPlan, .resume, .apply 0,
  .schedule 0 ["check"], .await 0, .prepareFork true 1 0, .fork 11, .finalizeFork,
  .waitForControl 0, .running 0 12 2, .finish 0 .failed 3 1, .collect, .apply 3, .apply 3, .apply 3, .apply 3,
  .schedule 4 ["fetch"], .await 4, .prepareFork true 4 4, .fork 21, .finalizeFork,
  .waitForControl 1, .running 1 22 5, .finish 1 .success 6 0,
  .transition .cleaning 7000, .selectPlan, .schedule 7 [], .transition .finalizing 8000, .selectPlan,
  .schedule 8 ["fetch"], .prepareFork true 8 8, .fork 31, .finalizeFork, .waitForControl 2]

theorem two_coordinators : ∃ c, run (step twice) {} relaunched = some c ∧ ¬ SoleControl c := by
  have both : ((run (step twice) {} relaunched).any fun c => (c.coordinators.filter fun coordinator =>
      coordinator.passed && coordinator.name = "fetch" && coordinator.run = 0).length = 2) = true := by decide +kernel
  cases reached : run (step twice) {} relaunched with
  | none => simp [reached] at both
  | some c =>
    rw [reached, Option.any_some, decide_eq_true_eq] at both
    refine ⟨c, rfl, fun controlled => ?_⟩
    have one := controlled.sole "fetch" 0
    omega

end Examples

end Coordination

end Aurora.Thermos
