import Aurora.Client.Api.JobMonitor

namespace Aurora.Client.JobMonitor

open Collections

def IsLatest (tasks : List TaskWithoutConfig) (task : TaskWithoutConfig) : Prop :=
  ∃ before after timestamp, tasks = before ++ task :: after ∧ firstTimestamp task = some timestamp ∧
    (∀ other ∈ before, other.instanceId = task.instanceId → ∀ early ∈ firstTimestamp other, early < timestamp) ∧
    ∀ other ∈ after, other.instanceId = task.instanceId → ∀ late ∈ firstTimestamp other, late ≤ timestamp

theorem IsLatest.mem {tasks : List TaskWithoutConfig} {task : TaskWithoutConfig} (latest : IsLatest tasks task) :
    task ∈ tasks := by
  obtain ⟨before, after, -, rfl, -⟩ := latest
  simp

theorem IsLatest.unique {tasks : List TaskWithoutConfig} {first second : TaskWithoutConfig}
    (latest : IsLatest tasks first) (latest' : IsLatest tasks second) (own : first.instanceId = second.instanceId) :
    first = second := by
  obtain ⟨before, after, timestamp, rfl, known, earlier, later⟩ := latest
  obtain ⟨before', after', timestamp', split, known', earlier', later'⟩ := latest'
  rcases List.append_eq_append_iff.mp split with ⟨between, rfl, behind⟩ | ⟨between, rfl, behind⟩
  · cases between with
    | nil => exact (List.cons.inj behind).1
    | cons _ between =>
      obtain ⟨rfl, rfl⟩ := List.cons.inj behind
      have less := earlier' first (by simp) own timestamp known
      have more := later second (by simp) own.symm timestamp' known'
      omega
  · cases between with
    | nil => exact (List.cons.inj behind).1.symm
    | cons _ between =>
      obtain ⟨rfl, rfl⟩ := List.cons.inj behind
      have less := earlier second (by simp) own.symm timestamp' known'
      have more := later' first (by simp) own timestamp known
      omega

def Noted (tasks : List TaskWithoutConfig) (id : Int) : Option (Int × ScheduleStatus) → Prop
  | none => ∀ task ∈ tasks, task.instanceId ≠ id
  | some (timestamp, status) => ∃ task, IsLatest tasks task ∧ task.instanceId = id ∧
      firstTimestamp task = some timestamp ∧ task.status = status

theorem IsLatest.append {tasks : List TaskWithoutConfig} {task next : TaskWithoutConfig} (latest : IsLatest tasks task)
    (older : next.instanceId = task.instanceId → ∀ late ∈ firstTimestamp next, ∀ timestamp ∈ firstTimestamp task,
      late ≤ timestamp) : IsLatest (tasks ++ [next]) task := by
  obtain ⟨before, after, timestamp, rfl, known, earlier, later⟩ := latest
  refine ⟨before, after ++ [next], timestamp, by simp, known, earlier, fun other mem own late found => ?_⟩
  rcases List.mem_append.mp mem with mem | mem
  · exact later other mem own late found
  · obtain rfl := List.mem_singleton.mp mem
    exact older own late found timestamp known

theorem isLatest_new {tasks : List TaskWithoutConfig} {next : TaskWithoutConfig} {timestamp : Int}
    (known : firstTimestamp next = some timestamp)
    (newer : ∀ other ∈ tasks, other.instanceId = next.instanceId → ∀ early ∈ firstTimestamp other, early < timestamp) :
    IsLatest (tasks ++ [next]) next :=
  ⟨tasks, [], timestamp, rfl, known, newer, fun _ mem => absurd mem List.not_mem_nil⟩

theorem IsLatest.bound {tasks : List TaskWithoutConfig} {task other : TaskWithoutConfig} (latest : IsLatest tasks task)
    {timestamp early : Int} (known : firstTimestamp task = some timestamp) (mem : other ∈ tasks)
    (own : other.instanceId = task.instanceId) (found : firstTimestamp other = some early) : early ≤ timestamp := by
  obtain ⟨before, after, timestamp', rfl, known', earlier, later⟩ := latest
  obtain rfl : timestamp' = timestamp := Option.some.inj (known'.symm.trans known)
  rcases List.mem_append.mp mem with mem | mem
  · exact (earlier other mem own early found).le
  · rcases List.mem_cons.mp mem with rfl | mem
    · exact (Option.some.inj (found.symm.trans known)).le
    · exact later other mem own early found

theorem Noted.other {tasks : List TaskWithoutConfig} {id : Int} {known : Option (Int × ScheduleStatus)}
    (noted : Noted tasks id known) {next : TaskWithoutConfig} (different : next.instanceId ≠ id) :
    Noted (tasks ++ [next]) id known := by
  cases known with
  | none =>
    intro task mem
    rcases List.mem_append.mp mem with mem | mem
    · exact noted task mem
    · rw [List.mem_singleton.mp mem]
      exact different
  | some known =>
    obtain ⟨task, latest, own, rest⟩ := noted
    exact ⟨task, latest.append fun same => absurd (same.trans own) different, own, rest⟩

theorem noted_step {tasks : List TaskWithoutConfig} {latest latest' : Dict Int (Int × ScheduleStatus)}
    {next : TaskWithoutConfig} (before : ∀ id, Noted tasks id (latest.get? id)) (done : note latest next = .ok latest')
    (id : Int) : Noted (tasks ++ [next]) id (latest'.get? id) := by
  unfold note at done
  rcases known : firstTimestamp next with _ | timestamp
  · rw [known] at done
    cases done
  · rw [known] at done
    dsimp only at done
    have own_noted := before next.instanceId
    split at done
    · next newest =>
      obtain rfl := Except.ok.inj done
      rw [Dict.get?_set]
      split
      · next own =>
        subst own
        refine ⟨next, isLatest_new known fun other mem own early found => ?_, rfl, known, rfl⟩
        rcases noted : latest.get? next.instanceId with _ | ⟨timestamp', status⟩
        · rw [noted] at own_noted
          exact absurd own (own_noted other mem)
        · rw [noted] at own_noted newest
          obtain ⟨task, task_latest, task_own, task_known, -⟩ := own_noted
          have bound := task_latest.bound task_known mem (own.trans task_own.symm) found
          have newer : timestamp' < timestamp := by simpa using newest
          exact bound.trans_lt newer
      · next different => exact (before id).other fun same => different same.symm
    · next older =>
      obtain rfl := Except.ok.inj done
      by_cases own : next.instanceId = id
      · subst own
        rcases noted : latest.get? next.instanceId with _ | ⟨timestamp', status⟩
        · rw [noted] at older
          exact absurd rfl older
        · rw [noted] at own_noted older
          obtain ⟨task, task_latest, task_own, task_known, task_status⟩ := own_noted
          refine ⟨task, task_latest.append fun _ late found timestamp'' known'' => ?_, task_own, task_known, task_status⟩
          have late_eq : late = timestamp := Option.some.inj (found.symm.trans known)
          have timestamp_eq : timestamp'' = timestamp' := Option.some.inj (known''.symm.trans task_known)
          have newest : ¬ timestamp' < timestamp := by simpa using older
          omega
      · exact (before id).other own

theorem noted {tasks : List TaskWithoutConfig} {latest : Dict Int (Int × ScheduleStatus)}
    (done : tasks.foldlM note .empty = .ok latest) (id : Int) : Noted tasks id (latest.get? id) := by
  induction tasks using List.reverseRecOn generalizing latest id with
  | nil =>
    cases done
    exact fun _ mem => absurd mem List.not_mem_nil
  | append_singleton tasks next ih =>
    rw [List.foldlM_append] at done
    rcases folded : tasks.foldlM note (.empty : Dict Int (Int × ScheduleStatus)) with text | earlier
    · rw [folded] at done
      cases done
    · rw [folded] at done
      refine noted_step (fun id => ih folded id) ?_ id
      rcases stepped : note earlier next with text | found
      · simp [bind, Except.bind, stepped] at done
      · have same : found = latest := by simpa [bind, Except.bind, pure, Except.pure, stepped] using done
        rw [same]

section Wait

variable (monitor : JobMonitor) (predicate : ScheduleStatus → Bool) (instances : List Int) (withTimeout : Bool)
  (rounds : Nat → Round)

def outcomeAt (round : Nat) : TaskQueryOutcome := (rounds round).answer (monitor.createQuery instances)

def pollIntervalAt : Nat → ℚ
  | 0 => monitor.minPollInterval
  | round + 1 => min monitor.maxPollInterval (2 * pollIntervalAt round)

/-- The latest of the tasks that a query brings all satisfy the predicate; a failed query brings none. -/
def Satisfied (outcome : TaskQueryOutcome) : Prop :=
  ∃ found, states outcome = .ok found ∧ allSatisfy predicate found = true

/-- The round ends nothing: no event, no exception, no query that is satisfied, and time is left. -/
structure Passes (round : Nat) : Prop where
  quiet : (rounds round).terminating = false
  read : ∃ found, states (outcomeAt monitor instances rounds round) = .ok found
  unsatisfied : ¬ Satisfied predicate (outcomeAt monitor instances rounds round)
  in_time : ¬ (withTimeout = true ∧ monitor.maxPollInterval ≤ pollIntervalAt monitor round)

/-- The query of the round is made. -/
def Reached (round : Nat) : Prop :=
  (rounds round).terminating = false ∧ ∀ earlier < round, Passes monitor predicate instances withTimeout rounds earlier

/-- The query fails, or it lists no task of a requested instance, while what it lists meets the predicate. -/
inductive Vacuous : TaskQueryOutcome → Prop
  | ioError : Vacuous .ioError
  | refused {responseCode : ResponseCode} {tasks : List TaskWithoutConfig} (failed : responseCode ≠ .ok) :
      Vacuous (.answered responseCode tasks)
  | unlisted {tasks : List TaskWithoutConfig} {id : Int} (requested : id ∈ instances)
      (missing : ∀ task ∈ tasks, task.instanceId ≠ id) (dated : ∀ task ∈ tasks, task.taskEvents ≠ [])
      (met : ∀ task, IsLatest tasks task → predicate task.status = true) : Vacuous (.answered .ok tasks)

/-- True is only returned on the latest tasks of all requested instances. -/
def Honest : Prop :=
  ∀ fuel round, waitUntil monitor predicate instances withTimeout rounds fuel = some (.returned true, round) →
    (rounds round).terminating = false → ∃ tasks, outcomeAt monitor instances rounds round = .answered .ok tasks ∧
      ∀ id ∈ instances, ∃ task, IsLatest tasks task ∧ task.instanceId = id ∧ predicate task.status = true

variable {monitor predicate instances withTimeout rounds}

theorem states_ok {outcome : TaskQueryOutcome} {found : Dict Int ScheduleStatus} (read : states outcome = .ok found) :
    ∃ latest, outcome.tasks.foldlM note .empty = .ok latest ∧ found = latest.map Prod.snd := by
  unfold states at read
  rcases got : StatusHelper.getTasks outcome with text | tasks
  · rw [got] at read
    cases read
  · obtain rfl := StatusHelper.getTasks_ok got
    rw [got] at read
    rcases folded : outcome.tasks.foldlM note (.empty : Dict Int (Int × ScheduleStatus)) with text | latest
    · simp [bind, Except.bind, folded] at read
    · refine ⟨latest, rfl, ?_⟩
      simpa [bind, Except.bind, pure, Except.pure, folded, eq_comm] using read

/-- An instance of which a satisfied query returned a task has a latest one, which satisfies the predicate. -/
theorem latest_satisfies {tasks : List TaskWithoutConfig} (satisfied : Satisfied predicate (.answered .ok tasks))
    {task : TaskWithoutConfig} (mem : task ∈ tasks) :
    ∃ latest, IsLatest tasks latest ∧ latest.instanceId = task.instanceId ∧ predicate latest.status = true := by
  obtain ⟨found, read, all⟩ := satisfied
  obtain ⟨latest, folded, rfl⟩ := states_ok read
  have noted := noted folded task.instanceId
  rcases known : latest.get? task.instanceId with _ | ⟨timestamp, status⟩
  · rw [known] at noted
    exact absurd rfl (noted task mem)
  · rw [known] at noted
    obtain ⟨last, is_latest, own, -, rfl⟩ := noted
    refine ⟨last, is_latest, own, ?_⟩
    have entry : (task.instanceId, last.status) ∈ (latest.map Prod.snd).entries := by
      rw [Dict.mem_entries, Dict.get?_map, known]
      rfl
    exact List.all_eq_true.mp all _ entry

theorem foldlM_note_ok {tasks : List TaskWithoutConfig} (dated : ∀ task ∈ tasks, task.taskEvents ≠ [])
    (start : Dict Int (Int × ScheduleStatus)) : ∃ latest, tasks.foldlM note start = .ok latest := by
  induction tasks generalizing start with
  | nil => exact ⟨start, rfl⟩
  | cons task tasks ih =>
    rw [List.forall_mem_cons] at dated
    obtain ⟨event, events, shown⟩ := List.exists_cons_of_ne_nil dated.1
    have known : firstTimestamp task = some event.timestamp := by
      rw [firstTimestamp, shown, List.head?_cons, Option.map_some]
    obtain ⟨next, noted⟩ : ∃ next, note start task = .ok next := by
      rw [note, known]
      dsimp only
      split
      · exact ⟨_, rfl⟩
      · exact ⟨_, rfl⟩
    obtain ⟨latest, folded⟩ := ih dated.2 next
    exact ⟨latest, by rw [List.foldlM_cons, noted]; exact folded⟩

theorem dated_of_foldlM_note {tasks : List TaskWithoutConfig} {start latest : Dict Int (Int × ScheduleStatus)}
    (folded : tasks.foldlM note start = .ok latest) : ∀ task ∈ tasks, task.taskEvents ≠ [] := by
  induction tasks generalizing start with
  | nil => simp
  | cons task tasks ih =>
    rw [List.foldlM_cons] at folded
    rcases noted : note start task with text | next
    · rw [noted] at folded
      cases folded
    · rw [noted] at folded
      refine List.forall_mem_cons.mpr ⟨fun none_there => ?_, ih folded⟩
      rw [note, firstTimestamp, none_there] at noted
      cases noted

theorem Vacuous.satisfied {outcome : TaskQueryOutcome} (vacuous : Vacuous predicate instances outcome) :
    Satisfied predicate outcome := by
  cases vacuous with
  | ioError => exact ⟨_, rfl, rfl⟩
  | refused failed =>
    refine ⟨(Dict.empty : Dict Int (Int × ScheduleStatus)).map Prod.snd, ?_, rfl⟩
    rw [states, StatusHelper.getTasks, if_neg failed]
    rfl
  | @unlisted tasks id requested missing dated met =>
    obtain ⟨latest, folded⟩ := foldlM_note_ok dated .empty
    refine ⟨latest.map Prod.snd, ?_, ?_⟩
    · rw [states, StatusHelper.getTasks, if_pos rfl]
      simp [bind, Except.bind, pure, Except.pure, folded]
    · refine List.all_eq_true.mpr fun entry mem => ?_
      obtain ⟨id, status⟩ := entry
      rw [Dict.mem_entries, Dict.get?_map, Option.map_eq_some_iff] at mem
      obtain ⟨⟨timestamp, _⟩, known, rfl⟩ := mem
      have noted := noted folded id
      rw [known] at noted
      obtain ⟨task, is_latest, -, -, rfl⟩ := noted
      exact met task is_latest

/-- A satisfied query that is not so for want of tasks tells of every requested instance. -/
theorem Satisfied.listed {outcome : TaskQueryOutcome} (satisfied : Satisfied predicate outcome)
    (substantial : ¬ Vacuous predicate instances outcome) :
    ∃ tasks, outcome = .answered .ok tasks ∧ ∀ id ∈ instances, ∃ task ∈ tasks, task.instanceId = id := by
  cases outcome with
  | raised text =>
    obtain ⟨found, read, -⟩ := satisfied
    cases read
  | ioError => exact absurd .ioError substantial
  | answered responseCode tasks =>
    by_cases accepted : responseCode = .ok
    · subst accepted
      refine ⟨tasks, rfl, fun id requested => ?_⟩
      by_contra missing
      push Not at missing
      have brought := satisfied
      obtain ⟨found, read, -⟩ := brought
      obtain ⟨latest, folded, -⟩ := states_ok read
      refine substantial (.unlisted requested missing (dated_of_foldlM_note folded) fun task is_latest => ?_)
      obtain ⟨other, other_latest, own, met⟩ := latest_satisfies satisfied is_latest.mem
      exact other_latest.unique is_latest own ▸ met
    · exact absurd (.refused accepted) substantial

theorem waitLoop_passes {round : Nat} (passes : Passes monitor predicate instances withTimeout rounds round) (fuel : Nat) :
    waitLoop monitor predicate instances withTimeout rounds (fuel + 1) round (pollIntervalAt monitor round) =
      waitLoop monitor predicate instances withTimeout rounds fuel (round + 1) (pollIntervalAt monitor (round + 1)) := by
  obtain ⟨quiet, ⟨found, read⟩, unsatisfied, in_time⟩ := passes
  have unsatisfied' : ¬ allSatisfy predicate found = true := fun all => unsatisfied ⟨found, read, all⟩
  rw [outcomeAt] at read
  rw [waitLoop, quiet, if_neg Bool.false_ne_true, read]
  dsimp only
  rw [if_neg unsatisfied', if_neg in_time]
  rfl

theorem waitLoop_satisfied {round : Nat} (quiet : (rounds round).terminating = false)
    (satisfied : Satisfied predicate (outcomeAt monitor instances rounds round)) (pollInterval : ℚ) :
    waitLoop monitor predicate instances withTimeout rounds 1 round pollInterval = some (.returned true, round) := by
  obtain ⟨found, read, all⟩ := satisfied
  rw [outcomeAt] at read
  rw [waitLoop, quiet, if_neg Bool.false_ne_true, read]
  exact if_pos all

theorem waitLoop_true {fuel start round : Nat}
    (returned : waitLoop monitor predicate instances withTimeout rounds fuel start (pollIntervalAt monitor start) =
      some (.returned true, round)) (quiet : (rounds round).terminating = false) :
    (∀ earlier, start ≤ earlier → earlier < round → Passes monitor predicate instances withTimeout rounds earlier) ∧
    Satisfied predicate (outcomeAt monitor instances rounds round) := by
  induction fuel generalizing start with
  | zero => cases returned
  | succ fuel ih =>
    have here : ∀ earlier, start ≤ earlier → earlier < start →
        Passes monitor predicate instances withTimeout rounds earlier := fun earlier low high => by omega
    by_cases passes : Passes monitor predicate instances withTimeout rounds start
    · rw [waitLoop_passes passes] at returned
      obtain ⟨all, satisfied⟩ := ih returned
      refine ⟨fun earlier low high => ?_, satisfied⟩
      rcases Nat.eq_or_lt_of_le low with rfl | later
      · exact passes
      · exact all earlier later high
    · rw [waitLoop] at returned
      split at returned
      · next ended =>
        obtain rfl : start = round := by simpa using returned
        rw [quiet] at ended
        cases ended
      · next going =>
        rcases read : states (outcomeAt monitor instances rounds start) with text | found
        · rw [outcomeAt] at read
          rw [read] at returned
          cases returned
        · have read' := read
          rw [outcomeAt] at read'
          rw [read'] at returned
          dsimp only at returned
          split at returned
          · next all =>
            obtain rfl : start = round := by simpa using returned
            exact ⟨here, found, read, all⟩
          · next unsatisfied =>
            split at returned
            · cases returned
            · next in_time =>
              refine absurd ⟨by simpa using going, ⟨found, read⟩, ?_, in_time⟩ passes
              rintro ⟨found', read', all⟩
              exact unsatisfied (Except.ok.inj (read.symm.trans read') ▸ all)

theorem waitLoop_reached {round : Nat} (reached : Reached monitor predicate instances withTimeout rounds round)
    (satisfied : Satisfied predicate (outcomeAt monitor instances rounds round)) (left : Nat) (within : left ≤ round) :
    waitLoop monitor predicate instances withTimeout rounds (left + 1) (round - left)
      (pollIntervalAt monitor (round - left)) = some (.returned true, round) := by
  induction left with
  | zero => exact waitLoop_satisfied reached.1 satisfied _
  | succ left ih =>
    rw [waitLoop_passes (reached.2 _ (by omega)), show round - (left + 1) + 1 = round - left by omega]
    exact ih (by omega)

/-- The wait returns True with the event unset in the round whose query is the first to be satisfied. -/
theorem waitUntil_true {round : Nat} (quiet : (rounds round).terminating = false) :
    (∃ fuel, waitUntil monitor predicate instances withTimeout rounds fuel = some (.returned true, round)) ↔
      Reached monitor predicate instances withTimeout rounds round ∧
      Satisfied predicate (outcomeAt monitor instances rounds round) := by
  constructor
  · rintro ⟨fuel, returned⟩
    obtain ⟨passes, satisfied⟩ := @waitLoop_true monitor predicate instances withTimeout rounds fuel 0 round returned quiet
    exact ⟨⟨quiet, fun earlier before => passes earlier (Nat.zero_le _) before⟩, satisfied⟩
  · rintro ⟨reached, satisfied⟩
    have ended := waitLoop_reached reached satisfied round le_rfl
    rw [Nat.sub_self] at ended
    exact ⟨round + 1, ended⟩

end Wait

/-- The wait is honest just when it comes to no query that fails, or that lists no task of a requested instance while all
    that it lists meets the predicate. -/
theorem waitUntil_honest_iff (monitor : JobMonitor) (predicate : ScheduleStatus → Bool) (instances : List Int)
    (withTimeout : Bool) (rounds : Nat → Round) :
    Honest monitor predicate instances withTimeout rounds ↔
      ∀ round, Reached monitor predicate instances withTimeout rounds round →
        ¬ Vacuous predicate instances (outcomeAt monitor instances rounds round) := by
  constructor
  · intro honest round reached vacuous
    obtain ⟨fuel, returned⟩ := (waitUntil_true reached.1).mpr ⟨reached, vacuous.satisfied⟩
    obtain ⟨tasks, answered, latest⟩ := honest fuel round returned reached.1
    rw [answered] at vacuous
    cases vacuous with
    | refused failed => exact failed rfl
    | unlisted requested missing =>
      obtain ⟨task, is_latest, own, -⟩ := latest _ requested
      exact missing task is_latest.mem own
  · intro substantial fuel round returned quiet
    obtain ⟨reached, satisfied⟩ := (waitUntil_true quiet).mp ⟨fuel, returned⟩
    obtain ⟨tasks, answered, known⟩ := satisfied.listed (substantial round reached)
    rw [answered] at satisfied
    refine ⟨tasks, answered, fun id requested => ?_⟩
    obtain ⟨task, mem, rfl⟩ := known id requested
    exact latest_satisfies satisfied mem

def jobMonitor : JobMonitor where
  jobKey := ⟨"cluster", "role", "env", "job"⟩

def refusing (_ : Nat) : Round where
  answer := fun _ => .answered .invalidRequest []

theorem waitUntil_dishonest : ¬ Honest jobMonitor (fun status => status = .finished) [0] true refusing := by
  intro honest
  obtain ⟨tasks, answered, -⟩ := honest 1 0 (by decide +kernel) rfl
  cases answered

end Aurora.Client.JobMonitor
