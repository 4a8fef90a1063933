import Aurora.Executor.StatusChecker
import Aurora.Thermos.Monitoring.TaskResourceMonitor

namespace Aurora.Executor

open Thermos Thermos.TaskResourceMonitor Thermos.TaskResourceMonitor.Loop Transition

/-- `ResourceManager`; the limits for cpu and ram are just reported. -/
structure ResourceManager where
  maxDisk : Int

namespace ResourceManager

def exceeded (maxDisk sample : Int) : StatusResult :=
  ⟨"Disk limit exceeded.  Reserved " ++ toString maxDisk ++ " bytes vs used " ++ toString sample ++ " bytes.", .failed⟩

def verdict (maxDisk sample : Int) : Option StatusResult :=
  if sample > maxDisk then some (exceeded maxDisk sample) else none

variable {Sample : Type}

def status (manager : ResourceManager) (monitor : Loop Sample) (timestamp : ℚ) :
    Except HistoryError (Option StatusResult) := do
  let sample ← monitor.diskSample timestamp
  return verdict manager.maxDisk sample

variable {manager : ResourceManager} {processInterval diskInterval historyTime now timestamp : ℚ}
  {start final : Loop Sample} {events : List (Loop.Event Sample)}

theorem kept_recorded (inv : Inv diskInterval final) : final.history.iter <:+ final.recorded := by
  obtain ⟨size, holds⟩ := inv.holds
  rw [holds.recent]
  exact List.drop_suffix _ _

theorem some_kept (inv : Inv diskInterval final) : final.history.iter ≠ [] := by
  obtain ⟨size, holds⟩ := inv.holds
  intro none
  have length := congrArg List.length (holds.recent ▸ none)
  have positive := holds.positive
  have some_sample := List.length_pos_iff.mpr inv.some_sample
  rw [List.rtake, List.length_drop, List.length_nil] at length
  omega

/-- Whatever the clock does, a sample that is found has been recorded, and one is found at any time but the very
    times of the samples. -/
theorem get_recorded (inv : Inv diskInterval final) (timestamp : ℚ) :
    (∃ sample ∈ final.recorded, final.history.get timestamp = .ok sample) ∨
      ∃ sample ∈ final.recorded, sample.1 = timestamp := by
  obtain ⟨size, holds⟩ := inv.holds
  by_cases equal : ∃ sample ∈ final.history.iter, sample.1 = timestamp
  · obtain ⟨sample, kept, same⟩ := equal
    exact .inr ⟨sample, (kept_recorded inv).subset kept, same⟩
  · have fresh : ∀ sample ∈ final.history.iter, sample.1 ≠ timestamp :=
      fun sample kept same => equal ⟨sample, kept, same⟩
    obtain ⟨earlier, later, found, split, -, -, got, place⟩ :=
      ResourceHistory.get_of_fresh holds.sorted (some_kept inv) fresh
    refine .inl ⟨found, (kept_recorded inv).subset ?_, got⟩
    rw [split, List.mem_append]
    cases later with
    | cons first rest =>
      obtain rfl := Option.some.inj place
      exact .inr List.mem_cons_self
    | nil => exact .inl (List.mem_of_getLast? place)

theorem get_latest (inv : Inv diskInterval final) {earlier : List (ℚ × FullResourceResult Sample)}
    {latest : ℚ × FullResourceResult Sample} (split : final.recorded = earlier ++ [latest])
    (after : ∀ sample ∈ final.recorded, sample.1 < timestamp) : final.history.get timestamp = .ok latest := by
  obtain ⟨size, holds⟩ := inv.holds
  have kept : ∀ sample ∈ final.history.iter, sample.1 < timestamp :=
    fun sample mem => after sample ((kept_recorded inv).subset mem)
  obtain ⟨before, beyond, found, parts, -, later, got, place⟩ :=
    ResourceHistory.get_of_fresh holds.sorted (some_kept inv) fun sample mem => (kept sample mem).ne
  obtain rfl : beyond = [] := by
    rw [List.eq_nil_iff_forall_not_mem]
    intro sample mem
    exact absurd (kept sample (by simp [parts, mem])) (not_lt.mpr (later sample mem).le)
  rw [List.append_nil] at parts
  have last : final.history.iter.getLast? = some latest := by
    have positive := holds.positive
    rw [holds.recent, split, ResourceHistory.rtake_concat earlier latest positive, List.getLast?_concat]
  rw [← parts, last] at place
  rw [got, Option.some.inj place]

/-- A task is only failed for a disk usage that a collection has found; and whatever the clock does, the status can
    always be told but at the very time of a sample. -/
theorem status_measured (created : create processInterval diskInterval historyTime now = .ok start)
    (positive : 0 ≤ diskInterval) (reserved : 0 ≤ manager.maxDisk)
    (ran : run (step processInterval diskInterval) start events = some final) (timestamp : ℚ) :
    (∃ result, manager.status final timestamp = .ok result ∧ ∀ failure, result = some failure →
      ∃ usage ∈ final.measured, manager.maxDisk < usage ∧ failure = exceeded manager.maxDisk usage) ∨
      ∃ sample ∈ final.recorded, sample.1 = timestamp := by
  have inv := inv_run created positive ran
  rcases get_recorded inv timestamp with ⟨sample, recorded, got⟩ | equal
  · refine .inl ⟨verdict manager.maxDisk sample.2.diskUsage, ?_, ?_⟩
    · rw [status, diskSample, got]
      rfl
    · intro failure failed
      rw [verdict, Option.ite_none_right_eq_some] at failed
      obtain ⟨more, same⟩ := failed
      rcases List.mem_cons.mp (inv.sampled sample recorded) with zero | found
      · omega
      · exact ⟨_, found, more, (Option.some.inj same).symm⟩
  · exact .inr equal

def takenOver (monitor : Loop Sample) : List Int :=
  match monitor.diskCollector with
  | some ⟨some (.finished _), _⟩ => monitor.measured.dropLast
  | _ => monitor.measured

theorem noticed_takenOver (inv : Inv diskInterval final) :
    noticed final.diskCollector = (takenOver final).getLastD 0 := by
  have accounted := inv.accounted
  rw [takenOver]
  match known : final.diskCollector with
  | none =>
    rw [known] at accounted
    simp only [accounted.2]
    rfl
  | some ⟨none, _⟩ | some ⟨some .running, _⟩ | some ⟨some .died, _⟩ =>
    rw [known] at accounted
    exact accounted.2.symm
  | some ⟨some (.finished value), held⟩ =>
    rw [known] at accounted
    obtain ⟨-, before, measured, taken⟩ := accounted
    simp only [measured, List.dropLast_concat]
    exact taken.symm

/-- As long as the clock goes forward, the status is that of what the last disk collection found that the monitor has
    taken over. -/
theorem status_current (created : create processInterval diskInterval historyTime now = .ok start)
    (positive : 0 ≤ diskInterval) (forward : Along (step processInterval diskInterval) Forward start events)
    (ran : run (step processInterval diskInterval) start events = some final)
    (after : ∀ sample ∈ final.recorded, sample.1 < timestamp) :
    manager.status final timestamp = .ok (verdict manager.maxDisk ((takenOver final).getLastD 0)) := by
  obtain ⟨inv, current⟩ := current_run created positive forward ran
  obtain ⟨earlier, latest, split, same⟩ := current.newest
  rw [status, diskSample, get_latest inv split after, ← noticed_takenOver inv, ← same]
  rfl

/-- A disk collection, and a round of the monitor that takes over what it found. -/
def collection : List (Loop.Event Unit) := once 1 ++ [.finish 7] ++ once 2

theorem status_measured_seven : ∃ final, run (step 1 2) idle collection = some final ∧
    ((∃ result, status ⟨5⟩ final 6 = .ok result ∧ ∀ failure, result = some failure →
      ∃ usage ∈ final.measured, 5 < usage ∧ failure = exceeded 5 usage) ∨
      ∃ sample ∈ final.recorded, sample.1 = 6) :=
  ⟨_, rfl, @status_measured Unit ⟨5⟩ 1 2 3 0 idle _ collection create_idle (by norm_num) (by decide) rfl 6⟩

theorem status_current_seven : ∃ final, run (step 1 2) idle collection = some final ∧
    status ⟨5⟩ final 6 = .ok (verdict 5 ((takenOver final).getLastD 0)) ∧ (takenOver final).getLastD 0 = 7 :=
  ⟨_, rfl, @status_current Unit ⟨5⟩ 1 2 3 0 6 idle _ collection create_idle (by norm_num) (by decide +kernel) rfl
    (by decide +kernel), by decide +kernel⟩

end ResourceManager

end Aurora.Executor
