import Aurora.Library.History
import Aurora.Library.Replay
import Aurora.Thermos.Types

namespace Aurora.Thermos

open Collections History Replay

/-- `TaskMonitor.get_active_processes`, of the state that the monitor has: each running process with its run number. -/
def getActiveProcesses (state : RunnerState) : List (ProcessRun × Nat) :=
  state.processes.entries.filterMap fun entry =>
    entry.2.getLast?.bind fun lastRun =>
      if lastRun.state = some .running then some (lastRun, entry.2.length - 1) else none

structure ProcessTreeCollector (Sample : Type) where
  pid : Option Int
  value : Option Sample := none

namespace TaskResourceMonitor

variable {Sample : Type}

abbrev Collectors (Sample : Type) := Dict (Option Name) (ProcessTreeCollector Sample)

/-- What psutil makes of a pid and its children at one moment. -/
abbrev Measure (Sample : Type) := Option Int → Sample

def sample (measure : Measure Sample) (collector : ProcessTreeCollector Sample) : ProcessTreeCollector Sample :=
  { collector with value := some (measure collector.pid) }

def activeProcesses (state : RunnerState) : List ProcessRun := (getActiveProcesses state).map Prod.fst

def actives (state : RunnerState) : Dict (Option Name) ProcessRun :=
  (activeProcesses state).foldl (fun actives process => actives.set process.process process) .empty

def addCollector (actives : Dict (Option Name) ProcessRun) (collectors : Collectors Sample) (name : Option Name) :
    Collectors Sample :=
  (actives.get? name).elim collectors fun process => collectors.set name { pid := process.pid }

def collect (measure : Measure Sample) (state : RunnerState) (collectors : Collectors Sample) : Collectors Sample :=
  let actives := actives state
  let current := collectors.keys
  let collectors := (current.filter fun name => name ∉ actives.keys).foldl Dict.erase collectors
  let collectors := (actives.keys.filter fun name => name ∉ current).foldl (addCollector actives) collectors
  collectors.map (sample measure)

/-- `sample_by_process` may be called before the main loop is aware of the process. -/
def ensureCollector (process : ProcessRun) (collectors : Collectors Sample) : Collectors Sample :=
  if process.process ∈ collectors.keys then collectors
  else collectors.set process.process { pid := process.pid }

def sampleNow (measure : Measure Sample) (name : Option Name) : EStateM String (Collectors Sample) (Option Sample) := do
  let collectors ← get
  match collectors.get? name with
  | none => throw "KeyError"
  | some collector =>
    set (collectors.set name (sample measure collector))
    return (sample measure collector).value

def sampleByProcess (measure : Measure Sample) (procUsage : Dict (Option Name) (Option Sample)) (state : RunnerState)
    (processName : Name) : EStateM String (Collectors Sample) (Option Sample) := do
  match ((activeProcesses state).filter fun process => process.process = some processName).getLast? with
  | none => throw ("No active process found with name \"" ++ processName ++ "\" in this task")
  | some process =>
    modify (ensureCollector process)
    match procUsage.get? process.process with
    | some usage => return usage
    | none => sampleNow measure process.process

/-- What happens to the collectors, with what the monitor and psutil say at that moment. -/
inductive Event (Sample : Type)
  | collected (measure : Measure Sample) (state : RunnerState)
  | sampled (measure : Measure Sample) (procUsage : Dict (Option Name) (Option Sample)) (state : RunnerState)
      (processName : Name)

def step (collectors : Collectors Sample) : Event Sample → Collectors Sample
  | .collected measure state => collect measure state collectors
  | .sampled measure procUsage state processName =>
    final ((sampleByProcess measure procUsage state processName).run collectors)

def collectors (events : List (Event Sample)) : Collectors Sample := events.foldl step .empty

def Finds (name : Option Name) (pid : Option Int) : Event Sample → Prop
  | .collected _ state => ((actives state).get? name).map ProcessRun.pid = some pid
  | .sampled _ _ state processName => name = some processName ∧ ((actives state).get? name).map ProcessRun.pid = some pid

def Misses (name : Option Name) : Event Sample → Prop
  | .collected _ state => (actives state).get? name = none
  | .sampled _ _ _ _ => False

/-- The pid that the process had when it was first found active since the last collection that missed it. -/
def FirstFound (name : Option Name) (pid : Option Int) (events : List (Event Sample)) : Prop :=
  First (Finds name pid) (fun event => ∃ pid, Finds name pid event) (Misses name) events

def Follows (collectors : Collectors Sample) (state : RunnerState) : Prop :=
  (∀ name, name ∈ collectors.keys ↔ name ∈ (actives state).keys) ∧
    ∀ name collector, collectors.get? name = some collector →
      ∃ process, (actives state).get? name = some process ∧ collector.pid = process.pid

/-- The collectors follow the active processes after every collection. -/
def AlwaysFollows (events : List (Event Sample)) : Prop :=
  ∀ before measure state after, events = before ++ .collected measure state :: after →
    Follows (collectors (before ++ [.collected measure state])) state

section Pids

variable {collectors : Collectors Sample} {name : Option Name} {state : RunnerState} {measure : Measure Sample}

def pidOf (collectors : Collectors Sample) (name : Option Name) : Option (Option Int) :=
  (collectors.get? name).map ProcessTreeCollector.pid

theorem get?_foldl_actives (processes : List ProcessRun) (found : Dict (Option Name) ProcessRun) (name : Option Name) :
    (processes.foldl (fun actives process => actives.set process.process process) found).get? name =
      ((processes.filter fun process => process.process = name).getLast?).or (found.get? name) := by
  induction processes generalizing found with
  | nil => rfl
  | cons process rest ih =>
    rw [List.foldl_cons, ih, Dict.get?_set, List.filter_cons]
    by_cases same : process.process = name
    · simp only [same, if_true, decide_true, List.getLast?_cons]
      cases (rest.filter fun process => process.process = name).getLast? <;> rfl
    · simp [same, Ne.symm same]

theorem get?_actives (state : RunnerState) (name : Option Name) :
    (actives state).get? name = ((activeProcesses state).filter fun process => process.process = name).getLast? := by
  rw [actives, get?_foldl_actives, Dict.get?_empty, Option.or_none]

theorem pidOf_foldl_erase (names : List (Option Name)) (collectors : Collectors Sample) (name : Option Name) :
    pidOf (names.foldl Dict.erase collectors) name = if name ∈ names then none else pidOf collectors name := by
  induction names generalizing collectors with
  | nil => simp
  | cons first rest ih =>
    rw [List.foldl_cons, ih, pidOf, Dict.get?_erase]
    by_cases same : name = first <;> by_cases again : name ∈ rest <;> simp [same, again, pidOf]

theorem pidOf_addCollector (actives : Dict (Option Name) ProcessRun) (collectors : Collectors Sample)
    (first name : Option Name) : pidOf (addCollector actives collectors first) name =
      if name = first then ((actives.get? name).map ProcessRun.pid).or (pidOf collectors name)
      else pidOf collectors name := by
  unfold addCollector pidOf
  by_cases same : name = first
  · subst same
    cases actives.get? name <;> simp
  · cases actives.get? first <;> simp [Dict.get?_set, same]

theorem pidOf_foldl_addCollector (actives : Dict (Option Name) ProcessRun) (names : List (Option Name))
    (collectors : Collectors Sample) (name : Option Name) :
    pidOf (names.foldl (addCollector actives) collectors) name =
      if name ∈ names then ((actives.get? name).map ProcessRun.pid).or (pidOf collectors name)
      else pidOf collectors name := by
  induction names generalizing collectors with
  | nil => simp
  | cons first rest ih =>
    rw [List.foldl_cons, ih, pidOf_addCollector]
    by_cases same : name = first <;> by_cases again : name ∈ rest <;>
      cases actives.get? name <;> simp [same, again]

theorem mem_keys_iff (collectors : Collectors Sample) (name : Option Name) :
    name ∈ collectors.keys ↔ (pidOf collectors name).isSome = true := by
  rw [Dict.mem_keys, pidOf, Option.isSome_map]

theorem pidOf_map (measure : Measure Sample) (collectors : Collectors Sample) (name : Option Name) :
    pidOf (collectors.map (sample measure)) name = pidOf collectors name := by
  rw [pidOf, Dict.get?_map, Option.map_map]
  rfl

theorem pidOf_collect (measure : Measure Sample) (state : RunnerState) (collectors : Collectors Sample)
    (name : Option Name) : pidOf (collect measure state collectors) name =
      ((actives state).get? name).map fun process => (pidOf collectors name).getD process.pid := by
  have current : name ∈ collectors.keys ↔ (pidOf collectors name).isSome = true := mem_keys_iff collectors name
  have active : name ∈ (actives state).keys ↔ ((actives state).get? name).isSome = true := Dict.mem_keys _ name
  simp only [collect, pidOf_map, pidOf_foldl_addCollector, pidOf_foldl_erase, List.mem_filter, decide_eq_true_eq,
    current, active]
  cases (actives state).get? name <;> cases pidOf collectors name <;> simp

theorem pidOf_ensureCollector (process : ProcessRun) (collectors : Collectors Sample) (name : Option Name) :
    pidOf (ensureCollector process collectors) name =
      if name = process.process then (pidOf collectors name).or (some process.pid) else pidOf collectors name := by
  unfold ensureCollector
  by_cases same : name = process.process
  · subst same
    split
    · rename_i known
      obtain ⟨pid, found⟩ := Option.isSome_iff_exists.mp ((mem_keys_iff _ _).mp known)
      simp [found]
    · rename_i unknown
      rw [mem_keys_iff, Option.not_isSome_iff_eq_none] at unknown
      rw [unknown]
      simp [pidOf]
  · split <;> simp [pidOf, Dict.get?_set, same]

theorem pidOf_sampleNow (measure : Measure Sample) (first name : Option Name) (collectors : Collectors Sample) :
    pidOf (final ((sampleNow measure first).run collectors)) name = pidOf collectors name := by
  simp only [sampleNow, EStateM.run_bind, EStateM.run_get]
  cases found : collectors.get? first with
  | none => rfl
  | some collector =>
    by_cases same : name = first
    · subst same
      simp [final, pidOf, found, sample]
    · simp [final, pidOf, Dict.get?_set, same]

theorem pidOf_sampleByProcess (measure : Measure Sample) (procUsage : Dict (Option Name) (Option Sample))
    (state : RunnerState) (processName : Name) (collectors : Collectors Sample) (name : Option Name) :
    pidOf (final ((sampleByProcess measure procUsage state processName).run collectors)) name =
      if name = some processName then (pidOf collectors name).or (((actives state).get? name).map ProcessRun.pid)
      else pidOf collectors name := by
  have active := get?_actives state (some processName)
  unfold sampleByProcess
  cases found : ((activeProcesses state).filter fun process => process.process = some processName).getLast? with
  | none =>
    rw [found] at active
    by_cases same : name = some processName
    · simp [final, same, active]
    · simp [final, same]
  | some process =>
    rw [found] at active
    have named : process.process = some processName := by
      simpa using (List.mem_filter.mp (List.mem_of_getLast? found)).2
    have ensured := pidOf_ensureCollector process collectors name
    rw [named] at ensured
    have same : (if name = some processName then (pidOf collectors name).or (((actives state).get? name).map ProcessRun.pid)
        else pidOf collectors name) = pidOf (ensureCollector process collectors) name := by
      rw [ensured]
      split
      · rename_i same
        rw [same, active]
        rfl
      · rfl
    rw [same]
    simp only [EStateM.run_bind, EStateM.run_modify]
    cases procUsage.get? process.process with
    | some usage => rfl
    | none => exact pidOf_sampleNow measure process.process name _

end Pids

section Runs

variable {events : List (Event Sample)} {name : Option Name} {pid : Option Int}

theorem finds_not_misses (name : Option Name) (pid : Option Int) (event : Event Sample) (finds : Finds name pid event) :
    ¬ Misses name event := by
  cases event with
  | collected measure state =>
    intro misses
    rw [Finds, show (actives state).get? name = none from misses] at finds
    cases finds
  | sampled _ _ _ _ => exact id

theorem collectors_concat (events : List (Event Sample)) (event : Event Sample) :
    collectors (events ++ [event]) = step (collectors events) event := by
  rw [collectors, List.foldl_append]
  rfl

theorem pidOf_collectors (events : List (Event Sample)) (name : Option Name) (pid : Option Int) :
    pidOf (collectors events) name = some pid ↔ FirstFound name pid events := by
  induction events using List.reverseRecOn generalizing pid with
  | nil => simp [FirstFound, first_nil, collectors, pidOf]
  | append_singleton events event ih =>
    have known : Since (fun event => ∃ pid, Finds name pid event) (Misses name) events ↔
        (pidOf (collectors events) name).isSome = true := by
      rw [since_iff_exists_first (finds_not_misses name), Option.isSome_iff_exists]
      exact exists_congr fun pid => (ih pid).symm
    rw [FirstFound, first_concat, known, collectors_concat, ← FirstFound, ← ih]
    cases event with
    | collected measure state =>
      simp only [step, pidOf_collect, Finds, Misses]
      cases (actives state).get? name <;> cases pidOf (collectors events) name <;> simp
    | sampled measure procUsage state processName =>
      simp only [step, pidOf_sampleByProcess, Finds, Misses]
      by_cases same : name = some processName
      · cases (actives state).get? name <;> cases pidOf (collectors events) name <;> simp [same]
      · simp [same]

theorem follows_collect (measure : Measure Sample) (state : RunnerState) (table : Collectors Sample) :
    Follows (collect measure state table) state ↔
      ∀ name process, (actives state).get? name = some process → ∀ pid, pidOf table name = some pid →
        pid = process.pid := by
  constructor
  · rintro ⟨-, current⟩ name process active pid known
    have kept : pidOf (collect measure state table) name = some pid := by
      rw [pidOf_collect, active, known]
      rfl
    obtain ⟨collector, found, rfl⟩ := Option.map_eq_some_iff.mp kept
    obtain ⟨process', active', same⟩ := current name collector found
    rw [active] at active'
    cases active'
    exact same
  · intro current
    refine ⟨fun name => ?_, fun name collector found => ?_⟩
    · rw [mem_keys_iff, Dict.mem_keys, pidOf_collect, Option.isSome_map]
    · have kept : pidOf (collect measure state table) name = some collector.pid := by
        rw [pidOf, found]
        rfl
      rw [pidOf_collect, Option.map_eq_some_iff] at kept
      obtain ⟨process, active, same⟩ := kept
      refine ⟨process, active, ?_⟩
      cases known : pidOf table name with
      | none =>
        rw [known] at same
        exact same.symm
      | some pid =>
        rw [known] at same
        exact same.symm.trans (current name process active pid known)

/-- The collectors follow the active processes just when each collection finds every active process with the pid that
    it was first found with, unless a collection in between missed it. -/
theorem alwaysFollows_iff (events : List (Event Sample)) : AlwaysFollows events ↔
    ∀ before measure state after, events = before ++ .collected measure state :: after →
      ∀ name process, (actives state).get? name = some process → ∀ pid, FirstFound name pid before →
        pid = process.pid := by
  have each : ∀ (before : List (Event Sample)) measure state, Follows (collectors (before ++ [.collected measure state])) state ↔
      ∀ name process, (actives state).get? name = some process → ∀ pid, FirstFound name pid before →
        pid = process.pid := by
    intro before measure state
    rw [collectors_concat]
    simp only [← pidOf_collectors]
    exact follows_collect measure state (collectors before)
  simp only [AlwaysFollows, each]

def running (earlier : List ProcessRun) (pid : Int) : RunnerState where
  processes := Dict.empty.set (some "server") (earlier ++ [
    { seq := 3, process := some "server", state := some .running, pid := some pid }])

/-- A process that was restarted between two collections is still looked for under its old pid. -/
theorem collects_old_pid : ¬ AlwaysFollows [Event.collected (fun _ => ()) (running [] 17),
    .collected (fun _ => ()) (running [{ seq := 5, process := some "server", state := some .failed, pid := some 17 }] 42)] := by
  intro follows
  obtain ⟨process, active, same⟩ := (follows [.collected (fun _ => ()) (running [] 17)] (fun _ => ()) _ [] rfl).2
    (some "server") { pid := some 17, value := some () } (by rfl)
  have current : ((actives (running [{ seq := 5, process := some "server", state := some .failed, pid := some 17 }]
      42)).get? (some "server")).map ProcessRun.pid = some (some 42) := by decide +kernel
  rw [active, Option.map_some, ← same] at current
  exact absurd current (by decide)

end Runs

end TaskResourceMonitor

end Aurora.Thermos
