import Aurora.Library.Transition
import Aurora.Thermos.Monitoring.Resource
import Aurora.Thermos.Monitoring.ResourceHistory
import Mathlib.Tactic.NormNum

namespace Aurora.Thermos

open Collections Transition

/-- The thread of a disk collector. One that dies of an exception never sets its event. -/
inductive DiskThread
  | running
  | finished (value : Int)
  | died
  deriving DecidableEq

/-- `AbstractDiskCollector`; a `DuDiskCollector` and a `MesosDiskCollector` differ in what their threads find. -/
structure DiskCollector where
  thread : Option DiskThread := none
  current : Int := 0
  deriving DecidableEq

namespace DiskCollector

def sample (collector : DiskCollector) : DiskCollector :=
  if collector.thread = none then { collector with thread := some .running } else collector

def value (collector : DiskCollector) : Int × DiskCollector :=
  match collector.thread with
  | some (.finished found) => (found, { thread := none, current := found })
  | none | some .running | some .died => (collector.current, collector)

end DiskCollector

structure FullResourceResult (Sample : Type) where
  procUsage : Dict (Option Name) (Option Sample)
  diskUsage : Int

namespace TaskResourceMonitor

variable {Sample : Type}

inductive Phase
  | waiting
  | collected (now : ℚ)
  | stopped
  deriving DecidableEq

/-- A `TaskResourceMonitor` in `run`. The last fields are a log of what has happened. -/
structure Loop (Sample : Type) where
  nextProcessCollection : ℚ := 0
  nextDiskCollection : ℚ := 0
  collectors : Collectors Sample := .empty
  diskCollector : Option DiskCollector := none
  history : ResourceHistory (FullResourceResult Sample)
  killSignal : Bool := false
  phase : Phase := .waiting
  /-- when disk collections were started, and what they found -/
  started : List ℚ := []
  measured : List Int := []
  /-- the samples of which the history keeps the last -/
  recorded : List (ℚ × FullResourceResult Sample) := []

namespace Loop

/-- The loop waits in between for any time, up to where it is killed. -/
inductive Event (Sample : Type)
  /-- The loop reads the clock and collects; there may be no sandbox yet. -/
  | poll (now : ℚ) (measure : Measure Sample) (state : RunnerState) (sandbox : Bool)
  | record
  /-- The thread of the disk collector ends. -/
  | finish (value : Int)
  | die
  | kill
  | stop

def collectProcesses (interval now : ℚ) (measure : Measure Sample) (state : RunnerState) (loop : Loop Sample) :
    Loop Sample :=
  if now > loop.nextProcessCollection then
    { loop with
      nextProcessCollection := now + interval
      collectors := collect measure state loop.collectors }
  else loop

def collectDisk (interval now : ℚ) (sandbox : Bool) (loop : Loop Sample) : Loop Sample :=
  if now > loop.nextDiskCollection then
    let provided := if sandbox then loop.diskCollector.or (some {}) else loop.diskCollector
    { loop with
      nextDiskCollection := now + interval
      diskCollector := provided.map DiskCollector.sample
      started := loop.started ++ if provided.any fun collector => collector.thread = none then [now] else [] }
  else loop

def record (now : ℚ) (loop : Loop Sample) : Loop Sample :=
  let read := loop.diskCollector.map DiskCollector.value
  let result := { procUsage := loop.collectors.map ProcessTreeCollector.value, diskUsage := (read.map Prod.fst).getD 0 }
  let loop := { loop with diskCollector := read.map Prod.snd, phase := .waiting }
  match loop.history.add (now, result) with
  | .ok history => { loop with history := history, recorded := loop.recorded ++ [(now, result)] }
  | .error _ => loop

variable (processInterval diskInterval : ℚ)

def step (loop : Loop Sample) : Event Sample → Option (Loop Sample)
  | .poll now measure state sandbox =>
    if loop.phase = .waiting ∧ loop.killSignal = false then
      let loop := (loop.collectProcesses processInterval now measure state).collectDisk diskInterval now sandbox
      some { loop with phase := .collected now }
    else none
  | .record =>
    match loop.phase with
    | .collected now => some (loop.record now)
    | .waiting | .stopped => none
  | .finish value =>
    match loop.diskCollector with
    | some { thread := some .running, current := current } =>
      some { loop with
        diskCollector := some { thread := some (.finished value), current := current }
        measured := loop.measured ++ [value] }
    | _ => none
  | .die =>
    match loop.diskCollector with
    | some { thread := some .running, current := current } =>
      some { loop with diskCollector := some { thread := some .died, current := current } }
    | _ => none
  | .kill => some { loop with killSignal := true }
  | .stop => if loop.phase = .waiting ∧ loop.killSignal = true then some { loop with phase := .stopped } else none

def provides (historyTime minCollectionInterval now : ℚ) :
    Except HistoryError (ResourceHistory (FullResourceResult Sample)) :=
  let ratio := historyTime / minCollectionInterval
  let historyLength := ratio.num.tdiv ratio.den
  if historyLength > 10000 then throw (.valueError "Requested history length too large")
  else ResourceHistory.build historyLength (some (now, ⟨.empty, 0⟩)) []

def create (historyTime now : ℚ) : Except HistoryError (Loop Sample) := do
  let history ← provides historyTime (min processInterval diskInterval) now
  return { history := history, recorded := [(now, ⟨.empty, 0⟩)] }

def diskSample (loop : Loop Sample) (timestamp : ℚ) : Except HistoryError Int := do
  return (← loop.history.get timestamp).2.diskUsage

section Accounts

/-- Each disk collection that was started has found something, or is the one that is under way or has died; and what
    the collector has taken over is what the last of them found, or the one before while that waits. -/
def Accounted (started : Nat) (measured : List Int) : Option DiskCollector → Prop
  | none => started = 0 ∧ measured = []
  | some ⟨none, current⟩ => started = measured.length ∧ measured.getLastD 0 = current
  | some ⟨some .running, current⟩ | some ⟨some .died, current⟩ =>
    started = measured.length + 1 ∧ measured.getLastD 0 = current
  | some ⟨some (.finished value), current⟩ =>
    started = measured.length ∧ ∃ earlier, measured = earlier ++ [value] ∧ earlier.getLastD 0 = current

variable {started : Nat} {measured : List Int} {collector : DiskCollector}

theorem Accounted.value (accounted : Accounted started measured (some collector)) :
    Accounted started measured (some collector.value.2) ∧ collector.value.1 = measured.getLastD 0 ∧
      collector.value.2.current = collector.value.1 := by
  obtain ⟨thread, current⟩ := collector
  match thread with
  | none | some .running | some .died => exact ⟨accounted, accounted.2.symm, rfl⟩
  | some (.finished value) =>
    obtain ⟨count, earlier, rfl, _⟩ := accounted
    have latest : (earlier ++ [value]).getLastD 0 = value := by simp
    exact ⟨⟨count, latest⟩, latest.symm, rfl⟩

theorem Accounted.bounds {collector : Option DiskCollector} (accounted : Accounted started measured collector) :
    measured.length ≤ started ∧ started ≤ measured.length + 1 := by
  match collector with
  | none =>
    obtain ⟨rfl, rfl⟩ := accounted
    exact ⟨Nat.le_refl 0, Nat.zero_le 1⟩
  | some ⟨none, _⟩ | some ⟨some (.finished _), _⟩ | some ⟨some .running, _⟩ | some ⟨some .died, _⟩ =>
    have count := accounted.1
    omega

def noticed (collector : Option DiskCollector) : Int := collector.elim 0 DiskCollector.current

theorem getLastD_mem (values : List Int) : values.getLastD 0 ∈ 0 :: values := by
  rcases List.eq_nil_or_concat' values with rfl | ⟨earlier, latest, rfl⟩ <;> simp

theorem Accounted.provided (accounted : Accounted started measured none) : Accounted started measured (some {}) := by
  obtain ⟨rfl, rfl⟩ := accounted
  exact ⟨rfl, rfl⟩

theorem Accounted.sample (accounted : Accounted started measured (some collector)) :
    Accounted (started + if collector.thread = none then 1 else 0) measured (some collector.sample) := by
  obtain ⟨thread, current⟩ := collector
  match thread with
  | none =>
    obtain ⟨rfl, latest⟩ := accounted
    exact ⟨rfl, latest⟩
  | some .running | some .died | some (.finished _) => exact accounted

theorem sample_current : collector.sample.current = collector.current := by
  rw [DiskCollector.sample]
  split <;> rfl

end Accounts

section Runs

variable {processInterval diskInterval : ℚ} {loop next start final : Loop Sample} {event : Event Sample}

theorem collectProcesses_cases (now : ℚ) (measure : Measure Sample) (state : RunnerState) :
    ∃ collectors nextProcessCollection, loop.collectProcesses processInterval now measure state =
      { loop with collectors := collectors, nextProcessCollection := nextProcessCollection } := by
  rw [collectProcesses]
  split_ifs
  · exact ⟨_, _, rfl⟩
  · exact ⟨loop.collectors, loop.nextProcessCollection, rfl⟩

theorem collectDisk_cases (now : ℚ) (sandbox : Bool)
    (accounted : Accounted loop.started.length loop.measured loop.diskCollector) :
    ∃ collector more nextDiskCollection,
      loop.collectDisk diskInterval now sandbox = { loop with
        diskCollector := collector, started := loop.started ++ more, nextDiskCollection := nextDiskCollection } ∧
      Accounted (loop.started ++ more).length loop.measured collector ∧
      noticed collector = noticed loop.diskCollector ∧
      (more = [] ∧ nextDiskCollection = loop.nextDiskCollection ∨
        loop.nextDiskCollection < now ∧ nextDiskCollection = now + diskInterval ∧ (more = [] ∨ more = [now])) := by
  rw [collectDisk]
  by_cases due : now > loop.nextDiskCollection
  · rw [if_pos due]
    have provided : ∀ collector : DiskCollector, Accounted loop.started.length loop.measured (some collector) →
        Accounted (loop.started ++ if collector.thread = none then [now] else []).length loop.measured
          (some collector.sample) := by
      intro collector accounted
      have sampled := accounted.sample
      split_ifs at sampled ⊢ <;> simpa using sampled
    refine ⟨_, _, _, rfl, ?_⟩
    cases known : loop.diskCollector with
    | some collector =>
      rw [known] at accounted
      have sampled := provided collector accounted
      refine ⟨?_, ?_, .inr ⟨due, rfl, ?_⟩⟩
      · cases sandbox <;> simpa using sampled
      · cases sandbox <;> exact sample_current
      · split_ifs <;> simp
    | none =>
      rw [known] at accounted
      refine ⟨?_, ?_, .inr ⟨due, rfl, ?_⟩⟩
      · cases sandbox with
        | false => simpa using accounted
        | true => simpa using provided {} accounted.provided
      · cases sandbox <;> rfl
      · split_ifs <;> simp
  · rw [if_neg due]
    exact ⟨_, [], _, by rw [List.append_nil], by rwa [List.append_nil], rfl, .inl ⟨rfl, rfl⟩⟩

/-- What the loop notes is what the last disk collection found. The history refuses a sample of a time before its
    last one. -/
theorem record_cases (now : ℚ) (accounted : Accounted loop.started.length loop.measured loop.diskCollector) :
    ∃ collector result history recorded,
      loop.record now = { loop with
        diskCollector := collector, phase := .waiting, history := history, recorded := recorded } ∧
      Accounted loop.started.length loop.measured collector ∧ noticed collector = loop.measured.getLastD 0 ∧
      result.diskUsage = loop.measured.getLastD 0 ∧
      ((∃ e, loop.history.add (now, result) = .error e) ∧ history = loop.history ∧ recorded = loop.recorded ∨
        loop.history.add (now, result) = .ok history ∧ recorded = loop.recorded ++ [(now, result)]) := by
  have read : ∃ collector usage, loop.diskCollector.map DiskCollector.value = collector.map (Prod.mk usage) ∧
      Accounted loop.started.length loop.measured collector ∧ noticed collector = usage ∧
      ((loop.diskCollector.map DiskCollector.value).map Prod.fst).getD 0 = usage ∧
      usage = loop.measured.getLastD 0 := by
    cases known : loop.diskCollector with
    | none =>
      rw [known] at accounted
      refine ⟨none, 0, rfl, accounted, rfl, rfl, ?_⟩
      rw [accounted.2]
      rfl
    | some collector =>
      rw [known] at accounted
      obtain ⟨kept, latest, taken⟩ := accounted.value
      exact ⟨some collector.value.2, collector.value.1, rfl, kept, taken, rfl, latest⟩
  obtain ⟨collector, usage, read, kept, noticed, shown, latest⟩ := read
  have left : (loop.diskCollector.map DiskCollector.value).map Prod.snd = collector := by
    rw [read]
    cases collector <;> rfl
  rw [record]
  simp only [left, shown]
  cases added : loop.history.add (now, ⟨loop.collectors.map ProcessTreeCollector.value, usage⟩) with
  | error e => exact ⟨collector, _, _, _, rfl, kept, noticed.trans latest, latest, .inl ⟨⟨e, added⟩, rfl, rfl⟩⟩
  | ok history => exact ⟨collector, _, _, _, rfl, kept, noticed.trans latest, latest, .inr ⟨added, rfl⟩⟩

structure Inv (diskInterval : ℚ) (loop : Loop Sample) : Prop where
  accounted : Accounted loop.started.length loop.measured loop.diskCollector
  spaced : loop.started.Pairwise fun earlier later => earlier + diskInterval < later
  next : ∀ time ∈ loop.started, time + diskInterval ≤ loop.nextDiskCollection
  holds : ∃ size, loop.history.Holds size loop.recorded
  some_sample : loop.recorded ≠ []
  sampled : ∀ sample ∈ loop.recorded, sample.2.diskUsage ∈ 0 :: loop.measured

/-- The clock is ahead of every sample that has been recorded. -/
def Forward (loop : Loop Sample) : Event Sample → Prop
  | .poll now _ _ _ => ∀ sample ∈ loop.recorded, sample.1 < now
  | .record | .finish _ | .die | .kill | .stop => True

instance (loop : Loop Sample) : ∀ event, Decidable (loop.Forward event)
  | .poll now _ _ _ => inferInstanceAs (Decidable (∀ sample ∈ loop.recorded, sample.1 < now))
  | .record | .finish _ | .die | .kill | .stop => isTrue trivial

/-- What holds besides as long as the clock goes forward. -/
structure Current (loop : Loop Sample) : Prop where
  newest : ∃ earlier latest, loop.recorded = earlier ++ [latest] ∧ latest.2.diskUsage = noticed loop.diskCollector
  ahead : ∀ now, loop.phase = .collected now → ∀ sample ∈ loop.recorded, sample.1 < now

theorem Inv.collectProcesses (inv : Inv diskInterval loop) (now : ℚ) (measure : Measure Sample) (state : RunnerState) :
    Inv diskInterval (loop.collectProcesses processInterval now measure state) := by
  obtain ⟨collectors, next, eq⟩ := @collectProcesses_cases _ processInterval loop now measure state
  rw [eq]
  exact ⟨inv.accounted, inv.spaced, inv.next, inv.holds, inv.some_sample, inv.sampled⟩

theorem Inv.collectDisk (inv : Inv diskInterval loop) (positive : 0 ≤ diskInterval) (now : ℚ) (sandbox : Bool) :
    Inv diskInterval (loop.collectDisk diskInterval now sandbox) := by
  obtain ⟨collector, more, next, eq, accounted, -, starts⟩ :=
    @collectDisk_cases _ diskInterval _ now sandbox inv.accounted
  rw [eq]
  refine ⟨accounted, ?_, ?_, inv.holds, inv.some_sample, inv.sampled⟩
  · rcases starts with ⟨rfl, -⟩ | ⟨due, -, rfl | rfl⟩
    · simpa using inv.spaced
    · simpa using inv.spaced
    · refine List.pairwise_append.mpr ⟨inv.spaced, List.pairwise_singleton _ _, ?_⟩
      intro earlier before later last
      rw [List.mem_singleton.mp last]
      exact (inv.next earlier before).trans_lt due
  · rcases starts with ⟨rfl, rfl⟩ | ⟨due, rfl, none_or_now⟩
    · simpa using inv.next
    · intro time mem
      rcases List.mem_append.mp mem with before | last
      · have upto := inv.next time before
        change time + diskInterval ≤ now + diskInterval
        linarith
      · obtain rfl : time = now := by
          rcases none_or_now with rfl | rfl
          · cases last
          · exact List.mem_singleton.mp last
        exact le_refl _

theorem Inv.record (inv : Inv diskInterval loop) (now : ℚ) : Inv diskInterval (loop.record now) := by
  obtain ⟨collector, result, history, recorded, eq, accounted, -, usage, outcome⟩ := record_cases now inv.accounted
  obtain ⟨size, holds⟩ := inv.holds
  rw [eq]
  rcases outcome with ⟨-, rfl, rfl⟩ | ⟨added, rfl⟩
  · exact ⟨accounted, inv.spaced, inv.next, ⟨size, holds⟩, inv.some_sample, inv.sampled⟩
  · refine ⟨accounted, inv.spaced, inv.next, ⟨size, holds.add added⟩, by simp, ?_⟩
    intro sample mem
    rcases List.mem_append.mp mem with before | last
    · exact inv.sampled sample before
    · rw [List.mem_singleton.mp last, usage]
      exact getLastD_mem loop.measured

theorem inv_step (positive : 0 ≤ diskInterval) (inv : Inv diskInterval loop)
    (taken : step processInterval diskInterval loop event = some next) : Inv diskInterval next := by
  cases event with
  | poll now measure state sandbox =>
    simp only [step, Option.ite_none_right_eq_some, Option.some.injEq] at taken
    obtain ⟨-, rfl⟩ := taken
    have kept := (@Inv.collectProcesses _ processInterval _ _ inv now measure state).collectDisk positive now sandbox
    exact ⟨kept.accounted, kept.spaced, kept.next, kept.holds, kept.some_sample, kept.sampled⟩
  | record =>
    cases phase : loop.phase with
    | collected now =>
      simp only [step, phase, Option.some.injEq] at taken
      exact taken ▸ inv.record now
    | waiting | stopped => simp [step, phase] at taken
  | finish value =>
    simp only [step] at taken
    split at taken
    · rename_i current known
      cases taken
      have accounted := inv.accounted
      rw [known] at accounted
      obtain ⟨count, latest⟩ := accounted
      refine ⟨⟨?_, loop.measured, rfl, latest⟩, inv.spaced, inv.next, inv.holds, inv.some_sample, ?_⟩
      · rw [List.length_append, List.length_singleton]
        exact count
      · intro sample mem
        rcases List.mem_cons.mp (inv.sampled sample mem) with zero | found
        · exact List.mem_cons.mpr (.inl zero)
        · exact List.mem_cons_of_mem _ (List.mem_append_left _ found)
    · cases taken
  | die =>
    simp only [step] at taken
    split at taken
    · rename_i current known
      cases taken
      have accounted := inv.accounted
      rw [known] at accounted
      exact ⟨accounted, inv.spaced, inv.next, inv.holds, inv.some_sample, inv.sampled⟩
    · cases taken
  | kill =>
    cases taken
    exact ⟨inv.accounted, inv.spaced, inv.next, inv.holds, inv.some_sample, inv.sampled⟩
  | stop =>
    simp only [step, Option.ite_none_right_eq_some, Option.some.injEq] at taken
    obtain ⟨-, rfl⟩ := taken
    exact ⟨inv.accounted, inv.spaced, inv.next, inv.holds, inv.some_sample, inv.sampled⟩

theorem noticed_collectDisk (inv : Inv diskInterval loop) (now : ℚ) (sandbox : Bool) :
    (loop.collectDisk diskInterval now sandbox).recorded = loop.recorded ∧
      noticed (loop.collectDisk diskInterval now sandbox).diskCollector = noticed loop.diskCollector := by
  obtain ⟨collector, more, next, eq, -, same, -⟩ := @collectDisk_cases _ diskInterval _ now sandbox inv.accounted
  rw [eq]
  exact ⟨rfl, same⟩

theorem add_later {history : ResourceHistory (FullResourceResult Sample)} {size : Nat}
    {samples : List (ℚ × FullResourceResult Sample)} {sample : ℚ × FullResourceResult Sample}
    (holds : history.Holds size samples) (later : ∀ earlier ∈ samples, earlier.1 < sample.1) (e : HistoryError) :
    history.add sample ≠ .error e := by
  have accepted : ¬ (history.values.getItem (-1)).any fun latest => ¬ sample.1 ≥ latest.1 := by
    rw [holds.newest]
    cases known : samples.getLast? with
    | none => simp
    | some latest =>
      have before := later latest (List.mem_of_getLast? known)
      simp [le_of_lt before]
  rw [ResourceHistory.add, if_neg accepted]
  exact fun refused => by cases refused

theorem Current.record (current : Current loop) (inv : Inv diskInterval loop) {now : ℚ}
    (phase : loop.phase = .collected now) : Current (loop.record now) := by
  obtain ⟨collector, result, history, recorded, eq, -, latest, usage, outcome⟩ := record_cases now inv.accounted
  obtain ⟨size, holds⟩ := inv.holds
  rw [eq]
  rcases outcome with ⟨⟨e, refused⟩, -⟩ | ⟨-, rfl⟩
  · exact absurd refused (add_later holds (current.ahead now phase) e)
  · exact ⟨⟨loop.recorded, (now, result), rfl, usage.trans latest.symm⟩, nofun⟩

theorem current_step (inv : Inv diskInterval loop) (current : Current loop) (forward : Forward loop event)
    (taken : step processInterval diskInterval loop event = some next) : Current next := by
  cases event with
  | poll now measure state sandbox =>
    simp only [step, Option.ite_none_right_eq_some, Option.some.injEq] at taken
    obtain ⟨-, rfl⟩ := taken
    obtain ⟨recorded, collector⟩ :=
      noticed_collectDisk (@Inv.collectProcesses _ processInterval _ _ inv now measure state) now sandbox
    obtain ⟨collectors, next, eq⟩ := @collectProcesses_cases _ processInterval loop now measure state
    rw [eq] at recorded collector ⊢
    constructor
    · obtain ⟨earlier, latest, split, usage⟩ := current.newest
      exact ⟨earlier, latest, recorded.trans split, usage.trans collector.symm⟩
    · intro time collected sample mem
      obtain rfl := Phase.collected.inj collected
      exact forward sample (recorded ▸ mem)
  | record =>
    cases phase : loop.phase with
    | collected now =>
      simp only [step, phase, Option.some.injEq] at taken
      exact taken ▸ current.record inv phase
    | waiting | stopped => simp [step, phase] at taken
  | finish | die =>
    simp only [step] at taken
    split at taken
    · rename_i held known
      cases taken
      obtain ⟨earlier, latest, split, usage⟩ := current.newest
      rw [known] at usage
      exact ⟨⟨earlier, latest, split, usage⟩, current.ahead⟩
    · cases taken
  | kill =>
    cases taken
    exact ⟨current.newest, current.ahead⟩
  | stop =>
    simp only [step, Option.ite_none_right_eq_some, Option.some.injEq] at taken
    obtain ⟨-, rfl⟩ := taken
    exact ⟨current.newest, nofun⟩

/-- Once a thread has died, nothing is started or measured any more. -/
theorem died_step {held : Int} (died : loop.diskCollector = some ⟨some .died, held⟩)
    (taken : step processInterval diskInterval loop event = some next) :
    next.diskCollector = some ⟨some .died, held⟩ ∧ next.started = loop.started ∧ next.measured = loop.measured := by
  cases event with
  | poll now measure state sandbox =>
    simp only [step, Option.ite_none_right_eq_some, Option.some.injEq] at taken
    obtain ⟨-, rfl⟩ := taken
    obtain ⟨collectors, next, eq⟩ := @collectProcesses_cases _ processInterval loop now measure state
    rw [eq, collectDisk]
    by_cases due : now > loop.nextDiskCollection
    · simp [due, died, DiskCollector.sample]
    · simp [due, died]
  | record =>
    cases phase : loop.phase with
    | collected now =>
      simp only [step, phase, Option.some.injEq] at taken
      rw [← taken, Loop.record]
      simp only [died, Option.map_some, DiskCollector.value]
      split <;> exact ⟨rfl, rfl, rfl⟩
    | waiting | stopped => simp [step, phase] at taken
  | finish | die => simp [step, died] at taken
  | kill =>
    cases taken
    exact ⟨died, rfl, rfl⟩
  | stop =>
    simp only [step, Option.ite_none_right_eq_some, Option.some.injEq] at taken
    obtain ⟨-, rfl⟩ := taken
    exact ⟨died, rfl, rfl⟩

variable {historyTime now : ℚ} {events : List (Event Sample)}

theorem create_recorded (created : create processInterval diskInterval historyTime now = .ok start) :
    Inv diskInterval start ∧ Current start := by
  rw [create, Replay.bind_eq_ok] at created
  obtain ⟨history, provided, created⟩ := created
  cases created
  have holds : ∃ size, history.Holds size [(now, ⟨.empty, 0⟩)] := by
    rw [provides] at provided
    split_ifs at provided
    exact ⟨_, ResourceHistory.build_holds provided⟩
  constructor
  · exact ⟨⟨rfl, rfl⟩, List.Pairwise.nil, nofun, holds, by simp, by simp⟩
  · exact ⟨⟨[], _, rfl, rfl⟩, nofun⟩

theorem inv_run (created : create processInterval diskInterval historyTime now = .ok start)
    (positive : 0 ≤ diskInterval) (ran : run (step processInterval diskInterval) start events = some final) :
    Inv diskInterval final := by
  have always : Along (step processInterval diskInterval) (fun _ _ => True) start events :=
    .of_forall fun _ _ => trivial
  exact invariant (fun _ _ _ inv _ taken => inv_step positive inv taken) (create_recorded created).1 always ran

theorem current_run (created : create processInterval diskInterval historyTime now = .ok start)
    (positive : 0 ≤ diskInterval) (forward : Along (step processInterval diskInterval) Forward start events)
    (ran : run (step processInterval diskInterval) start events = some final) :
    Inv diskInterval final ∧ Current final :=
  @invariant _ _ _ _ (fun loop => Inv diskInterval loop ∧ Current loop) _ _ _
    (fun _ _ _ held allowed taken => ⟨inv_step positive held.1 taken, current_step held.1 held.2 allowed taken⟩)
    (create_recorded created) forward ran

/-- Disk collections are started more than the interval apart, one after the other. If the thread of one dies, it is
    the last, whatever happens. -/
theorem disk_collections {middle : Loop Sample} {later : List (Event Sample)}
    (created : create processInterval diskInterval historyTime now = .ok start) (positive : 0 ≤ diskInterval)
    (ran : run (step processInterval diskInterval) start events = some middle)
    (further : run (step processInterval diskInterval) middle later = some final) :
    middle.started.Pairwise (fun earlier later => earlier + diskInterval < later) ∧
      middle.measured.length ≤ middle.started.length ∧ middle.started.length ≤ middle.measured.length + 1 ∧
      ∀ held, middle.diskCollector = some ⟨some .died, held⟩ →
        final.diskCollector = middle.diskCollector ∧ final.started = middle.started ∧
          final.measured = middle.measured := by
  have inv := inv_run created positive ran
  refine ⟨inv.spaced, inv.accounted.bounds.1, inv.accounted.bounds.2, ?_⟩
  intro held died
  have always : Along (step processInterval diskInterval) (fun _ _ => True) middle later :=
    .of_forall fun _ _ => trivial
  rw [died]
  exact @invariant _ _ _ _ (fun loop => loop.diskCollector = some ⟨some .died, held⟩ ∧ loop.started = middle.started ∧
      loop.measured = middle.measured) _ _ _
    (fun _ _ _ same _ taken => by
      obtain ⟨collector, started, measured⟩ := died_step same.1 taken
      exact ⟨collector, started.trans same.2.1, measured.trans same.2.2⟩)
    ⟨died, rfl, rfl⟩ always further

def idle : Loop Unit where
  history := {
    maxlen := 3
    values := {
      size := 3
      values := [(0, ⟨.empty, 0⟩)]
      positive := by decide
      fits := by decide
      starts := fun _ => rfl } }
  recorded := [(0, ⟨.empty, 0⟩)]

theorem create_idle : create 1 2 3 0 = .ok idle := by
  have length : provides 3 (min 1 2) 0 =
      ResourceHistory.build 3 (some ((0 : ℚ), (⟨.empty, 0⟩ : FullResourceResult Unit))) [] := by
    rw [provides]
    norm_num
  rw [create, length]
  rfl

def once (now : ℚ) : List (Event Unit) := [.poll now (fun _ => ()) {} true, .record]

theorem disk_collections_died : ∃ middle final, run (step 1 2) idle (once 1 ++ [.die]) = some middle ∧
    run (step 1 2) middle (once 5) = some final ∧
    middle.started.Pairwise (fun earlier later => earlier + 2 < later) ∧
    middle.measured.length ≤ middle.started.length ∧ middle.started.length ≤ middle.measured.length + 1 ∧
    ∀ held, middle.diskCollector = some ⟨some .died, held⟩ →
      final.diskCollector = middle.diskCollector ∧ final.started = middle.started ∧ final.measured = middle.measured :=
  ⟨_, _, rfl, rfl,
    @disk_collections Unit 1 2 idle _ 3 0 (once 1 ++ [.die]) _ (once 5) create_idle (by norm_num) rfl rfl⟩

end Runs

end Loop

end TaskResourceMonitor

end Aurora.Thermos
