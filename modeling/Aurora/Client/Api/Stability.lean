import Aurora.Client.Api.InstanceWatcher
import Mathlib.Tactic.Linarith

namespace Aurora.Client.InstanceWatcher

open Collections

section Views

variable (watchSecs now : ℚ)

theorem mem_finishedInstances {instanceStates : Dict Int Instance} {id : Int} :
    id ∈ finishedInstances instanceStates ↔ (instanceStates.get? id).any Instance.finished = true := by
  simp only [finishedInstances, List.mem_map, List.mem_filter, Prod.exists, Dict.mem_entries]
  constructor
  · rintro ⟨_, instance_, ⟨known, finished⟩, rfl⟩
    rw [known]
    exact finished
  · intro finished
    rcases known : instanceStates.get? id with _ | instance_
    · rw [known] at finished
      cases finished
    · rw [known] at finished
      exact ⟨id, instance_, ⟨known, finished⟩, rfl⟩

theorem mem_unhealthyInstances {instanceStates : Dict Int Instance} {id : Int} :
    id ∈ unhealthyInstances instanceStates ↔ ∃ instance_, instanceStates.get? id = some instance_ ∧
      instance_.healthy = false := by
  simp only [unhealthyInstances, List.mem_toFinset, List.mem_map, List.mem_filter, Prod.exists, Dict.mem_entries,
    Bool.not_eq_true']
  constructor
  · rintro ⟨_, instance_, unhealthy, rfl⟩
    exact ⟨instance_, unhealthy⟩
  · rintro ⟨instance_, unhealthy⟩
    exact ⟨id, instance_, unhealthy, rfl⟩

theorem get?_tasksByInstance (tasks : List TaskWithoutConfig) (id : Int) :
    (tasksByInstance tasks).get? id = (tasks.filter fun task => task.instanceId = id).getLast? := by
  induction tasks using List.reverseRecOn with
  | nil => rfl
  | append_singleton tasks task ih =>
    rw [tasksByInstance, List.foldl_append, List.foldl_cons, List.foldl_nil, Dict.get?_set, List.filter_append,
      List.filter_singleton]
    by_cases own : task.instanceId = id
    · simp [own]
    · have other : id ≠ task.instanceId := fun h => own h.symm
      simpa [own, other, tasksByInstance] using ih

theorem instanceId_of_get? {tasks : List TaskWithoutConfig} {id : Int} {task : TaskWithoutConfig}
    (known : (tasksByInstance tasks).get? id = some task) : task.instanceId = id := by
  rw [get?_tasksByInstance] at known
  have mem := List.mem_of_getLast? known
  simpa using (List.mem_filter.mp mem).2

def view (id : Int) (watch : Watch) : Option Instance × Option String :=
  (watch.instanceStates.get? id, watch.taskIds.get? id)

def look (task : Option TaskWithoutConfig) (known : Option Instance × Option String) :
    Option Instance × Option String :=
  match task with
  | none => known
  | some task =>
    if known.1.any Instance.finished then known
    else if task.status = .running ∧ known.2.all (· = task.taskId) then
      let instance_ := known.1.getD { birthday := some now }
      (some (if instance_.birthday.any fun birthday => birthday + watchSecs < now then instance_.setHealthy true
        else instance_), some task.taskId)
    else ((known.1.getD {}).setHealthy false, known.2)

variable {watchSecs now} {watch : Watch} {tasks : List TaskWithoutConfig} {id : Int}

theorem health_eq (taskIds : Dict Int String) (task : TaskWithoutConfig) :
    (StatusHealthCheck.health taskIds task).1 =
      decide (task.status = .running ∧ (taskIds.get? task.instanceId).all (· = task.taskId) = true) := by
  unfold StatusHealthCheck.health
  by_cases running : task.status = .running
  · rcases known : taskIds.get? task.instanceId with _ | taskId
    · simp [running]
    · simp [running, eq_comm]
  · simp [running]

theorem health_taskIds (taskIds : Dict Int String) (task : TaskWithoutConfig) (other : Int) :
    (StatusHealthCheck.health taskIds task).2.get? other =
      if other = task.instanceId ∧ task.status = .running then (taskIds.get? other).or (some task.taskId)
      else taskIds.get? other := by
  unfold StatusHealthCheck.health
  by_cases running : task.status = .running
  · by_cases own : other = task.instanceId
    · subst own
      rcases known : taskIds.get? task.instanceId with _ | taskId
      · simp [running]
      · simp [running, known]
    · rcases known : taskIds.get? task.instanceId with _ | taskId
      · simp [running, own, Dict.get?_set_ne]
      · simp [running, own]
  · simp [running]

theorem get?_setInstanceHealthy (instanceStates : Dict Int Instance) (other : Int) :
    (setInstanceHealthy watchSecs now instanceStates id).get? other =
      if other = id then
        let instance_ := (instanceStates.get? id).getD { birthday := some now }
        some (if instance_.birthday.any fun birthday => birthday + watchSecs < now then instance_.setHealthy true
          else instance_)
      else instanceStates.get? other := by
  have stays : ∀ (d : Dict Int Instance) (instance_ : Instance), d.get? id = some instance_ →
      (∀ other, other ≠ id → d.get? other = instanceStates.get? other) →
      (if instance_.birthday.any fun birthday => birthday + watchSecs < now then d.set id (instance_.setHealthy true)
        else d).get? other = if other = id then
          some (if instance_.birthday.any fun birthday => birthday + watchSecs < now then instance_.setHealthy true
            else instance_) else instanceStates.get? other := by
    intro d instance_ known rest
    by_cases own : other = id
    · subst own
      by_cases long : instance_.birthday.any (fun birthday => birthday + watchSecs < now) = true
      · simp [long]
      · simp [long, known]
    · rw [if_neg own, ← rest other own]
      split
      · exact Dict.get?_set_ne _ _ own
      · rfl
  unfold setInstanceHealthy
  rcases known : instanceStates.get? id with _ | instance_
  · simp only [Option.isNone_none, if_true, Dict.get?_set_self, Option.getD_none]
    exact stays (instanceStates.set id { birthday := some now }) { birthday := some now } (Dict.get?_set_self _ _ _)
      fun other different => Dict.get?_set_ne _ _ different
  · simp only [Option.isNone_some, Bool.false_eq_true, if_false, known, Option.getD_some]
    exact stays _ _ known fun _ _ => rfl

theorem get?_setInstanceUnhealthy (instanceStates : Dict Int Instance) (other : Int) :
    (setInstanceUnhealthy instanceStates id).get? other =
      if other = id then some (((instanceStates.get? id).getD {}).setHealthy false) else instanceStates.get? other := by
  unfold setInstanceUnhealthy
  rcases known : instanceStates.get? id with _ | instance_
  · exact Dict.get?_set _ _ _ _
  · exact Dict.get?_set _ _ _ _

theorem view_visit_self : view id (visit watchSecs (tasksByInstance tasks) now watch id) =
    look watchSecs now ((tasksByInstance tasks).get? id) (view id watch) := by
  unfold visit look view
  rcases seen : (tasksByInstance tasks).get? id with _ | task
  · split <;> rfl
  · have own := instanceId_of_get? seen
    dsimp only
    by_cases finished : id ∈ finishedInstances watch.instanceStates
    · rw [if_pos finished, if_pos (mem_finishedInstances.mp finished)]
    · rw [if_neg finished, if_neg (mem_finishedInstances.not.mp finished)]
      have verdict := health_eq watch.taskIds task
      have taskIds := health_taskIds watch.taskIds task id
      rw [own] at verdict taskIds
      rcases checked : StatusHealthCheck.health watch.taskIds task with ⟨healthy, taskIds'⟩
      rw [checked] at verdict taskIds
      dsimp only at verdict taskIds
      by_cases alive : task.status = .running ∧ (watch.taskIds.get? id).all (· = task.taskId) = true
      · rw [if_pos alive]
        obtain rfl : healthy = true := verdict.trans (decide_eq_true alive)
        dsimp only
        rw [get?_setInstanceHealthy, if_pos rfl, taskIds, if_pos ⟨rfl, alive.1⟩]
        rcases known : watch.taskIds.get? id with _ | taskId
        · rfl
        · have same : taskId = task.taskId := by simpa [known] using alive.2
          rw [same]
          rfl
      · rw [if_neg alive]
        obtain rfl : healthy = false := verdict.trans (decide_eq_false alive)
        dsimp only
        rw [get?_setInstanceUnhealthy, if_pos rfl, taskIds]
        by_cases running : task.status = .running
        · rw [if_pos ⟨rfl, running⟩]
          rcases known : watch.taskIds.get? id with _ | taskId
          · exact absurd ⟨running, by simp [known]⟩ alive
          · rfl
        · rw [if_neg fun h => running h.2]

theorem view_visit_other {other : Int} (different : id ≠ other) :
    view id (visit watchSecs (tasksByInstance tasks) now watch other) = view id watch := by
  unfold visit view
  split
  · rfl
  · rcases seen : (tasksByInstance tasks).get? other with _ | task
    · rfl
    · have own := instanceId_of_get? seen
      have taskIds := health_taskIds watch.taskIds task id
      rw [own, if_neg fun h => different h.1] at taskIds
      dsimp only
      rcases checked : StatusHealthCheck.health watch.taskIds task with ⟨healthy, taskIds'⟩
      rw [checked] at taskIds
      cases healthy with
      | true =>
        dsimp only
        rw [get?_setInstanceHealthy, if_neg different, taskIds]
      | false =>
        dsimp only
        rw [get?_setInstanceUnhealthy, if_neg different, taskIds]

theorem view_round_other {instanceIds : List Int} (outside : id ∉ instanceIds) :
    view id (round watchSecs instanceIds tasks now watch) = view id watch := by
  induction instanceIds generalizing watch with
  | nil => rfl
  | cons other ids ih =>
    rw [List.mem_cons, not_or] at outside
    exact (ih outside.2).trans (view_visit_other outside.1)

theorem view_round {instanceIds : List Int} (distinct : instanceIds.Nodup) (mem : id ∈ instanceIds) :
    view id (round watchSecs instanceIds tasks now watch) =
      look watchSecs now ((tasksByInstance tasks).get? id) (view id watch) := by
  induction instanceIds generalizing watch with
  | nil => cases mem
  | cons other ids ih =>
    obtain ⟨fresh, distinct⟩ := List.nodup_cons.mp distinct
    rcases List.mem_cons.mp mem with rfl | later
    · exact (view_round_other fresh).trans view_visit_self
    · have different : id ≠ other := fun h => fresh (h ▸ later)
      have moved := @ih (visit watchSecs (tasksByInstance tasks) now watch other) distinct later
      rw [view_visit_other different] at moved
      exact moved

end Views

section Phases

variable (watchSecs : ℚ) (polls : Nat → Poll) (id : Int)

/-- The task of an instance that a poll returns; of several the last one counts. -/
def taskAt (poll : Nat) : Option TaskWithoutConfig :=
  ((polls poll).outcome.tasks.filter fun task => task.instanceId = id).getLast?

structure Starts (first : Nat) (task : TaskWithoutConfig) : Prop where
  seen : taskAt polls id first = some task
  unseen : ∀ poll < first, taskAt polls id poll = none

def Alive (first bound : Nat) (task : TaskWithoutConfig) : Prop :=
  ∀ poll, first ≤ poll → poll < bound → ∀ seen, taskAt polls id poll = some seen →
    seen.status = .running ∧ seen.taskId = task.taskId

/-- Among the first polls, one that comes later than the watch time after the instance's first poll finds the same
    task running, as do all in between. For a watch of at least zero seconds the two polls differ. -/
def Stable (count : Nat) : Prop :=
  ∃ first second task, first ≤ second ∧ second < count ∧ Starts polls id first task ∧
    (taskAt polls id second).isSome = true ∧ (polls first).now + watchSecs < (polls second).now ∧
    Alive polls id first (second + 1) task

inductive Phase (count : Nat) : Option Instance × Option String → Prop
  | unseen (none_seen : ∀ poll < count, taskAt polls id poll = none) : Phase count (none, none)
  | steady (first : Nat) (task : TaskWithoutConfig) (before : first < count) (starts : Starts polls id first task)
      (alive : Alive polls id first count task)
      (short : ∀ poll, first ≤ poll → poll < count → (taskAt polls id poll).isSome = true →
        ¬ (polls first).now + watchSecs < (polls poll).now) :
      Phase count (some { birthday := some (polls first).now }, some task.taskId)
  | up (instance_ : Instance) (known : Option String) (finished : instance_.finished = true)
      (healthy : instance_.healthy = true) (stable : Stable watchSecs polls id count) :
      Phase count (some instance_, known)
  | down (instance_ : Instance) (known : Option String) (finished : instance_.finished = true)
      (unhealthy : instance_.healthy = false) (never : ∀ later, ¬ Stable watchSecs polls id later) :
      Phase count (some instance_, known)

variable {watchSecs polls id} {first count : Nat} {task : TaskWithoutConfig}

theorem Starts.unique {first' : Nat} {task' : TaskWithoutConfig} (starts : Starts polls id first task)
    (starts' : Starts polls id first' task') : first' = first ∧ task' = task := by
  have same : first' = first := by
    rcases Nat.lt_trichotomy first first' with earlier | same | later
    · exact absurd ((starts'.unseen first earlier).symm.trans starts.seen) (by simp)
    · exact same.symm
    · exact absurd ((starts.unseen first' later).symm.trans starts'.seen) (by simp)
  subst same
  exact ⟨rfl, Option.some.inj (starts'.seen.symm.trans starts.seen)⟩

theorem Alive.succ (alive : Alive polls id first count task)
    (now : ∀ seen, taskAt polls id count = some seen → seen.status = .running ∧ seen.taskId = task.taskId) :
    Alive polls id first (count + 1) task := by
  intro poll from_first before
  rcases Nat.lt_succ_iff_lt_or_eq.mp before with earlier | rfl
  · exact alive poll from_first earlier
  · exact now

theorem Stable.mono {later : Nat} (le : count ≤ later) (stable : Stable watchSecs polls id count) :
    Stable watchSecs polls id later := by
  obtain ⟨first, second, task, ordered, before, rest⟩ := stable
  exact ⟨first, second, task, ordered, before.trans_le le, rest⟩

/-- An instance whose task is gone or replaced before the watch time is over is never stable. -/
theorem never_stable (starts : Starts polls id first task)
    (short : ∀ poll, first ≤ poll → poll < count → (taskAt polls id poll).isSome = true →
      ¬ (polls first).now + watchSecs < (polls poll).now)
    (from_first : first ≤ count) {broken : TaskWithoutConfig} (seen : taskAt polls id count = some broken)
    (dead : ¬ (broken.status = .running ∧ broken.taskId = task.taskId)) (later : Nat) :
    ¬ Stable watchSecs polls id later := by
  rintro ⟨first', second, task', ordered, -, starts', returned, long, alive⟩
  obtain ⟨rfl, rfl⟩ := starts.unique starts'
  by_cases before : second < count
  · exact short second ordered before returned long
  · exact dead (alive count from_first (by omega) broken seen)

theorem look_finished {now : ℚ} {instance_ : Instance} {known : Option String} (finished : instance_.finished = true) :
    look watchSecs now (some task) (some instance_, known) = (some instance_, known) := by
  simp [look, finished]

theorem phase_unseen (none_seen : ∀ poll < count, taskAt polls id poll = none)
    (seen : taskAt polls id count = some task) :
    Phase watchSecs polls id (count + 1) (look watchSecs (polls count).now (some task) (none, none)) := by
  have starts : Starts polls id count task := ⟨seen, none_seen⟩
  have only : ∀ poll, count ≤ poll → poll < count + 1 → poll = count := fun poll low high => by omega
  unfold look
  by_cases running : task.status = .running
  · have alive : Alive polls id count (count + 1) task := by
      intro poll low high other found
      rw [only poll low high, seen] at found
      exact Option.some.inj found ▸ ⟨running, rfl⟩
    by_cases long : (polls count).now + watchSecs < (polls count).now
    · simp only [Option.any_none, Bool.false_eq_true, if_false, running, Option.all_none, and_self, if_true,
        Option.getD_none, Option.any_some, long, decide_true]
      exact .up _ _ rfl rfl ⟨count, count, task, le_rfl, Nat.lt_succ_self _, starts, by rw [seen]; rfl, long, alive⟩
    · simp only [Option.any_none, Bool.false_eq_true, if_false, running, Option.all_none, and_self, if_true,
        Option.getD_none, Option.any_some, long, decide_false]
      refine .steady count task (Nat.lt_succ_self _) starts alive fun poll low high _ => ?_
      rw [only poll low high]
      exact long
  · simp only [Option.any_none, Bool.false_eq_true, if_false, running, false_and, Option.getD_none]
    refine .down _ _ rfl rfl fun later => never_stable starts ?_ le_rfl seen (fun h => running h.1) later
    exact fun poll low high => absurd high (Nat.not_lt.mpr low)

theorem phase_steady {found : TaskWithoutConfig} (before : first < count) (starts : Starts polls id first task)
    (alive : Alive polls id first count task)
    (short : ∀ poll, first ≤ poll → poll < count → (taskAt polls id poll).isSome = true →
      ¬ (polls first).now + watchSecs < (polls poll).now) (seen : taskAt polls id count = some found) :
    Phase watchSecs polls id (count + 1) (look watchSecs (polls count).now (some found)
      (some { birthday := some (polls first).now }, some task.taskId)) := by
  unfold look
  by_cases same : found.status = .running ∧ found.taskId = task.taskId
  · have alive' : Alive polls id first (count + 1) task := by
      refine alive.succ fun other returned => ?_
      rw [seen] at returned
      exact Option.some.inj returned ▸ same
    by_cases long : (polls first).now + watchSecs < (polls count).now
    · simp only [Option.any_some, Bool.false_eq_true, if_false, same, Option.all_some, decide_true, and_self, if_true,
        Option.getD_some, long]
      exact .up _ _ rfl rfl
        ⟨first, count, task, before.le, Nat.lt_succ_self _, starts, by rw [seen]; rfl, long, alive'⟩
    · simp only [Option.any_some, Bool.false_eq_true, if_false, same, Option.all_some, decide_true, and_self, if_true,
        Option.getD_some, long, decide_false]
      refine .steady first task (before.trans (Nat.lt_succ_self _)) starts alive' fun poll low high returned => ?_
      rcases Nat.lt_succ_iff_lt_or_eq.mp high with earlier | rfl
      · exact short poll low earlier returned
      · exact long
  · have dead : ¬ (found.status = .running ∧ (some task.taskId).all (· = found.taskId) = true) := by
      simpa [eq_comm] using same
    simp only [Option.any_some, Bool.false_eq_true, if_false, dead, Option.getD_some]
    exact .down _ _ rfl rfl (never_stable starts short before.le seen same)

theorem phase_look {known : Option Instance × Option String} (phase : Phase watchSecs polls id count known) :
    Phase watchSecs polls id (count + 1) (look watchSecs (polls count).now (taskAt polls id count) known) := by
  rcases seen : taskAt polls id count with _ | found
  · have unchanged : ∀ poll, poll < count + 1 → (taskAt polls id poll).isSome = true → poll < count := by
      intro poll before returned
      rcases Nat.lt_succ_iff_lt_or_eq.mp before with earlier | rfl
      · exact earlier
      · rw [seen] at returned
        cases returned
    cases phase with
    | unseen none_seen =>
      refine .unseen fun poll before => ?_
      rcases Nat.lt_succ_iff_lt_or_eq.mp before with earlier | rfl
      · exact none_seen poll earlier
      · exact seen
    | steady first task before starts alive short =>
      refine .steady first task (before.trans (Nat.lt_succ_self _)) starts (alive.succ ?_) fun poll low high returned =>
        short poll low (unchanged poll high returned) returned
      exact fun other returned => absurd (seen.symm.trans returned) (by simp)
    | up instance_ known finished healthy stable => exact .up _ _ finished healthy (stable.mono (Nat.le_succ _))
    | down instance_ known finished unhealthy never => exact .down _ _ finished unhealthy never
  · cases phase with
    | unseen none_seen => exact phase_unseen none_seen seen
    | steady first task before starts alive short => exact phase_steady before starts alive short seen
    | up instance_ known finished healthy stable =>
      rw [look_finished finished]
      exact .up _ _ finished healthy (stable.mono (Nat.le_succ _))
    | down instance_ known finished unhealthy never =>
      rw [look_finished finished]
      exact .down _ _ finished unhealthy never

end Phases

section Watching

variable {watchSecs : ℚ} {instanceIds : List Int} {polls : Nat → Poll} {id : Int}

def watched (watchSecs : ℚ) (instanceIds : List Int) (polls : Nat → Poll) : Nat → Watch
  | 0 => {}
  | count + 1 =>
    round watchSecs instanceIds (polls count).outcome.tasks (polls count).now (watched watchSecs instanceIds polls count)

theorem watched_phase (distinct : instanceIds.Nodup) (mem : id ∈ instanceIds) (count : Nat) :
    Phase watchSecs polls id count (view id (watched watchSecs instanceIds polls count)) := by
  induction count with
  | zero => exact .unseen fun poll before => absurd before (Nat.not_lt_zero _)
  | succ count ih =>
    rw [watched, view_round distinct mem, get?_tasksByInstance]
    exact phase_look ih

theorem watched_other (outside : id ∉ instanceIds) (count : Nat) :
    view id (watched watchSecs instanceIds polls count) = (none, none) := by
  induction count with
  | zero => rfl
  | succ count ih => exact (view_round_other outside).trans ih

theorem watchLoop_returned {rounds poll last : Nat} {failed : Finset Int}
    (returned : watchLoop watchSecs instanceIds polls rounds poll (watched watchSecs instanceIds polls poll) =
      some (.returned failed, last)) :
    (finishedInstances (watched watchSecs instanceIds polls (last + 1)).instanceStates).toFinset = instanceIds.toFinset ∧
    failed = unhealthyInstances (watched watchSecs instanceIds polls (last + 1)).instanceStates := by
  induction rounds generalizing poll with
  | zero => cases returned
  | succ rounds ih =>
    rw [watchLoop] at returned
    split at returned
    · cases returned
    · rcases got : StatusHelper.getTasks (polls poll).outcome with text | tasks
      · rw [got] at returned
        cases returned
      · have same := StatusHelper.getTasks_ok got
        subst same
        rw [got] at returned
        dsimp only at returned
        split at returned
        · next all =>
          obtain ⟨rfl, rfl⟩ : _ ∧ poll = last := by simpa using returned
          exact ⟨all, rfl⟩
        · exact ih returned

end Watching

/-- A watch that returns leaves out exactly the instances that were steadily up. -/
theorem watch_exact (watchSecs : ℚ) (rounds : Nat) (instanceIds : List Int) (polls : Nat → Poll) (failed : Finset Int)
    (last : Nat) (returned : watch watchSecs rounds instanceIds polls = some (.returned failed, last)) :
    failed ⊆ instanceIds.toFinset ∧
    ∀ id ∈ instanceIds, id ∉ failed ↔ Stable watchSecs polls id (last + 1) := by
  obtain ⟨all, rfl⟩ := watchLoop_returned returned
  have distinct := List.nodup_dedup instanceIds
  refine ⟨fun id mem => ?_, fun id mem => ?_⟩
  · obtain ⟨instance_, known, -⟩ := mem_unhealthyInstances.mp mem
    by_contra outside
    have fresh := @watched_other watchSecs instanceIds.dedup polls id (by simpa using outside) (last + 1)
    exact absurd (known.symm.trans (congrArg Prod.fst fresh)) (by simp)
  · have mem' : id ∈ instanceIds.dedup := List.mem_dedup.mpr mem
    have finished : id ∈ finishedInstances (watched watchSecs instanceIds.dedup polls (last + 1)).instanceStates := by
      rw [← List.mem_toFinset, all]
      exact List.mem_toFinset.mpr mem'
    rw [mem_finishedInstances] at finished
    have phase := @watched_phase watchSecs instanceIds.dedup polls id distinct mem' (last + 1)
    rw [mem_unhealthyInstances]
    generalize known : (watched watchSecs instanceIds.dedup polls (last + 1)).instanceStates.get? id = state at finished
    rw [view, known] at phase
    generalize (watched watchSecs instanceIds.dedup polls (last + 1)).taskIds.get? id = known at phase
    cases phase with
    | unseen none_seen => cases finished
    | steady first task before starts alive short => cases finished
    | up instance_ taskId _ healthy stable =>
      refine ⟨fun _ => stable, fun _ => ?_⟩
      rintro ⟨other, same, unhealthy⟩
      rw [← Option.some.inj same, healthy] at unhealthy
      cases unhealthy
    | down instance_ taskId _ unhealthy never =>
      exact ⟨fun up => absurd ⟨instance_, rfl, unhealthy⟩ up, fun stable => absurd stable (never _)⟩

/-- Instance 0 stays up; the task of instance 1 is replaced by another. -/
def restartedOnce (poll : Nat) : Poll where
  outcome := .answered .ok [⟨0, "steady", .running, []⟩, ⟨1, if poll = 0 then "before" else "after", .running, []⟩]
  now := 6 * poll

theorem watch_exact_replaced : ({1} : Finset Int) ⊆ [0, 1].toFinset ∧
    ∀ id ∈ ([0, 1] : List Int), id ∉ ({1} : Finset Int) ↔ Stable 10 restartedOnce id 3 :=
  watch_exact 10 3 [0, 1] restartedOnce {1} 2 (by decide +kernel)

end Aurora.Client.InstanceWatcher
