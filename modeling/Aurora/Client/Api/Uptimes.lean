import Aurora.Client.Api.Sla
import Aurora.Library.Rank
import Mathlib.Tactic.Linarith

namespace Aurora.Client

open Collections

variable {Host : Type}

/-- `ValueError`: Percentile must be within (0, 100), got something else instead. -/
inductive JobUptimeError
  | percentileMustBeWithin (percentile : ℚ)
  deriving DecidableEq

def getJobUptime (tasks : List (ScheduledTask Host)) (now percentile : ℚ) : Except JobUptimeError Int :=
  if percentile ≤ 0 ∨ 100 ≤ percentile then .error (.percentileMustBeWithin percentile)
  else
    let uptimes := (instanceUptime tasks now).entries.map Prod.snd
    let total := uptimes.length
    let value := ⌊percentile / 100 * total⌋
    let index := total - value - 1
    if 0 ≤ index ∧ index < total then
      .ok (((uptimes.insertionSort fun first second => first ≤ second)[index.toNat]?).getD 0)
    else .ok 0

def increasedUpCount (tasks : List (ScheduledTask Host)) (now duration : ℚ) (totalTasks : Option Nat) (increase : ℚ) :
    ℚ :=
  let uptimes := (instanceUptime tasks now).map fun uptime : Int => (uptime : ℚ) + increase
  let total := (totalTasks.filter (· ≠ 0)).getD uptimes.entries.length
  let above := (uptimes.entries.filter fun entry => duration ≤ entry.2).length
  if total ≠ 0 then 100 * above / total else 0

theorem share_le (percentile : ℚ) {total : Nat} (positive : 0 < total) (above : Nat) :
    percentile ≤ 100 * above / total ↔ ⌈total * percentile / 100⌉ ≤ above := by
  have positive' : (0 : ℚ) < total := by exact_mod_cast positive
  rw [le_div_iff₀ positive', Int.ceil_le, div_le_iff₀ (by norm_num : (0 : ℚ) < 100)]
  constructor <;> intro le <;> push_cast at le ⊢ <;> linarith

theorem lt_share (percentile : ℚ) {total : Nat} (positive : 0 < total) (above : Nat) :
    percentile < 100 * above / total ↔ ⌊percentile / 100 * total⌋ < above := by
  have positive' : (0 : ℚ) < total := by exact_mod_cast positive
  rw [lt_div_iff₀ positive', Int.floor_lt]
  constructor <;> intro lt <;> push_cast at lt ⊢ <;> linarith

section Counting

variable (tasks : List (ScheduledTask Host)) (now : ℚ)

abbrev uptimesOf : List Int := (instanceUptime tasks now).entries.map Prod.snd

def totalOf (totalTasks : Option Nat) : Nat := (totalTasks.filter (· ≠ 0)).getD (uptimesOf tasks now).length

theorem above_eq_reaching (duration : ℚ) :
    ((instanceUptime tasks now).entries.filter fun entry => duration ≤ entry.2).length =
    Rank.reaching (uptimesOf tasks now) ⌈duration⌉ := by
  rw [Rank.reaching, List.countP_map, ← List.countP_eq_length_filter]
  refine List.countP_congr fun entry _ => ?_
  simp [Int.ceil_le]

theorem increased_eq_reaching (duration increase : ℚ) :
    ((((instanceUptime tasks now).map fun uptime : Int => (uptime : ℚ) + increase).entries.filter
      fun entry => duration ≤ entry.2).length) = Rank.reaching (uptimesOf tasks now) ⌈duration - increase⌉ := by
  rw [Rank.reaching, List.countP_map, ← List.countP_eq_length_filter, Dict.map, Dict.mapKeyed, List.countP_map]
  refine List.countP_congr fun entry _ => ?_
  simp [Int.ceil_le]

theorem getTaskUpCount_reaching (duration : ℚ) (totalTasks : Option Nat) :
    getTaskUpCount tasks now duration totalTasks = if totalOf tasks now totalTasks ≠ 0 then
      100 * (Rank.reaching (uptimesOf tasks now) ⌈duration⌉ : ℚ) / totalOf tasks now totalTasks else 0 := by
  rw [getTaskUpCount, above_eq_reaching]
  simp only [totalOf, List.length_map]

theorem increasedUpCount_eq (duration increase : ℚ) (totalTasks : Option Nat) :
    increasedUpCount tasks now duration totalTasks increase =
      getTaskUpCount tasks now (duration - increase) totalTasks := by
  rw [increasedUpCount, increased_eq_reaching, getTaskUpCount_reaching]
  simp only [totalOf, List.length_map, Dict.map, Dict.mapKeyed]

def targetCount (percentile : ℚ) (totalTasks : Option Nat) : Int :=
  ⌈totalOf tasks now totalTasks * percentile / 100⌉

theorem le_getTaskUpCount {percentile : ℚ} (asked : 0 < percentile) (duration : ℚ) (totalTasks : Option Nat) :
    percentile ≤ getTaskUpCount tasks now duration totalTasks ↔ totalOf tasks now totalTasks ≠ 0 ∧
      targetCount tasks now percentile totalTasks ≤ Rank.reaching (uptimesOf tasks now) ⌈duration⌉ := by
  rw [getTaskUpCount_reaching]
  by_cases empty : totalOf tasks now totalTasks = 0
  · simp [empty, asked]
  · rw [if_pos empty, share_le percentile (Nat.pos_of_ne_zero empty), targetCount]
    exact ⟨fun le => ⟨empty, le⟩, fun h => h.2⟩

/-- Once not reached, the wait is the duration less the uptime at the target's rank. -/
theorem getWaitTimeToSla_eq {percentile duration : ℚ} (totalTasks : Option Nat)
    (missed : ¬ percentile ≤ getTaskUpCount tasks now duration totalTasks) :
    getWaitTimeToSla tasks now percentile duration totalTasks =
      if (uptimesOf tasks now).length - targetCount tasks now percentile totalTasks < 0 then none
      else (((uptimesOf tasks now).insertionSort (· ≤ ·))[
        ((uptimesOf tasks now).length - targetCount tasks now percentile totalTasks).toNat]?).map
          fun uptime : Int => duration - uptime := by
  rw [getWaitTimeToSla, if_neg missed]
  refine ite_congr rfl (fun _ => rfl) fun _ => ?_
  have widened : ∀ entry : Option Int, (entry.bind fun uptime => some (uptime : ℚ)).map (fun uptime => duration - uptime) =
      entry.map fun uptime : Int => duration - uptime := by
    intro entry
    cases entry <;> rfl
  exact widened _

theorem targetCount_pos {percentile : ℚ} (asked : 0 < percentile) {totalTasks : Option Nat}
    (some_total : totalOf tasks now totalTasks ≠ 0) : 0 < targetCount tasks now percentile totalTasks := by
  have total_pos : (0 : ℚ) < totalOf tasks now totalTasks := by exact_mod_cast Nat.pos_of_ne_zero some_total
  exact Int.ceil_pos.mpr (by positivity)

theorem length_le_totalOf {totalTasks : Option Nat} (room : ∀ count ∈ totalTasks, (uptimesOf tasks now).length ≤ count) :
    (uptimesOf tasks now).length ≤ totalOf tasks now totalTasks := by
  unfold totalOf
  cases totalTasks with
  | none => exact Nat.le_refl _
  | some count =>
    by_cases zero : count = 0
    · subst zero
      exact Nat.le_refl _
    · simpa [Option.filter, zero] using room count rfl

theorem le_increasedUpCount {percentile : ℚ} (asked : 0 < percentile) (duration increase : ℚ) (totalTasks : Option Nat) :
    percentile ≤ increasedUpCount tasks now duration totalTasks increase ↔ totalOf tasks now totalTasks ≠ 0 ∧
      targetCount tasks now percentile totalTasks ≤ Rank.reaching (uptimesOf tasks now) ⌈duration - increase⌉ := by
  rw [increasedUpCount_eq, le_getTaskUpCount tasks now asked]

theorem wait_cases {percentile duration : ℚ} (asked : 0 < percentile) (totalTasks : Option Nat)
    (room : ∀ count ∈ totalTasks, (uptimesOf tasks now).length ≤ count)
    (missed : ¬ percentile ≤ getTaskUpCount tasks now duration totalTasks) :
    (∃ uptime : Int, getWaitTimeToSla tasks now percentile duration totalTasks = some (duration - uptime) ∧
      ∀ increase, percentile ≤ increasedUpCount tasks now duration totalTasks increase ↔ duration - uptime ≤ increase) ∨
    (getWaitTimeToSla tasks now percentile duration totalTasks = none ∧
      ∀ increase, ¬ percentile ≤ increasedUpCount tasks now duration totalTasks increase) := by
  simp only [getWaitTimeToSla_eq tasks now totalTasks missed, le_increasedUpCount tasks now asked]
  by_cases empty : totalOf tasks now totalTasks = 0
  · right
    have none_known : uptimesOf tasks now = [] :=
      List.length_eq_zero_iff.mp (Nat.le_zero.mp (empty ▸ length_le_totalOf tasks now room))
    have target : targetCount tasks now percentile totalTasks = 0 := by simp [targetCount, empty]
    exact ⟨by simp [none_known, target], fun _ reached => reached.1 empty⟩
  obtain ⟨target, target_eq⟩ := Int.eq_ofNat_of_zero_le (targetCount_pos tasks now asked empty).le
  have target_pos : 0 < target := by
    have := targetCount_pos tasks now asked empty
    omega
  rw [target_eq]
  by_cases missing : (uptimesOf tasks now).length < target
  · right
    refine ⟨if_pos (by omega), fun increase reached => ?_⟩
    have few := Rank.reaching_le_length (uptimesOf tasks now) ⌈duration - increase⌉
    omega
  · left
    obtain ⟨uptime, found, rank⟩ := Rank.exists_rank target_pos (Nat.le_of_not_lt missing)
    have index : ((uptimesOf tasks now).length - (target : Int)).toNat = (uptimesOf tasks now).length - target := by
      omega
    refine ⟨uptime, ?_, fun increase => ?_⟩
    · rw [if_neg (by omega), index, found, Option.map_some]
    · rw [Int.ofNat_le, rank, Int.ceil_le]
      exact ⟨fun reached => by linarith [reached.2], fun late => ⟨empty, by linarith⟩⟩

end Counting

theorem getWaitTimeToSla_exact (tasks : List (ScheduledTask Host)) (now percentile duration : ℚ)
    (totalTasks : Option Nat) (asked : 0 < percentile)
    (room : ∀ count ∈ totalTasks, (instanceUptime tasks now).entries.length ≤ count) :
    (getWaitTimeToSla tasks now percentile duration totalTasks = some 0 ↔
      percentile ≤ getTaskUpCount tasks now duration totalTasks) ∧
    (∀ wait, getWaitTimeToSla tasks now percentile duration totalTasks = some wait → 0 < wait →
      percentile ≤ increasedUpCount tasks now duration totalTasks wait ∧
      ∀ increase, 0 ≤ increase → increase < wait →
        increasedUpCount tasks now duration totalTasks increase < percentile) ∧
    (getWaitTimeToSla tasks now percentile duration totalTasks = none ↔
      ∀ increase, 0 ≤ increase → increasedUpCount tasks now duration totalTasks increase < percentile) := by
  have now_up : increasedUpCount tasks now duration totalTasks 0 = getTaskUpCount tasks now duration totalTasks := by
    rw [increasedUpCount_eq, sub_zero]
  by_cases met : percentile ≤ getTaskUpCount tasks now duration totalTasks
  · have found : getWaitTimeToSla tasks now percentile duration totalTasks = some 0 := if_pos met
    refine ⟨⟨fun _ => met, fun _ => found⟩, ?_, ?_⟩
    · intro wait returned positive
      rw [found, Option.some_inj] at returned
      exact absurd returned positive.ne
    · refine ⟨fun h => absurd (found.symm.trans h) (by simp), fun never => ?_⟩
      exact absurd met (not_le.mpr (now_up ▸ never 0 le_rfl))
  · rcases wait_cases tasks now asked totalTasks (by simpa using room) met with
      ⟨uptime, found, decides⟩ | ⟨found, never⟩
    · have later : ¬ duration - uptime ≤ 0 := by
        rw [← decides 0, now_up]
        exact met
      rw [found]
      refine ⟨⟨fun h => ?_, fun h => absurd h met⟩, ?_, ?_⟩
      · rw [Option.some_inj] at h
        exact absurd h.le later
      · intro wait returned _
        rw [Option.some_inj] at returned
        subst returned
        refine ⟨(decides _).mpr le_rfl, fun increase _ smaller => ?_⟩
        exact not_le.mp fun reached => not_le.mpr smaller ((decides increase).mp reached)
      · refine ⟨fun h => absurd h (by simp), fun never => ?_⟩
        exact absurd ((decides _).mpr le_rfl) (not_le.mpr (never _ (not_le.mp later).le))
    · rw [found]
      refine ⟨⟨fun h => absurd h (by simp), fun h => absurd h met⟩, fun wait returned => absurd returned (by simp), ?_⟩
      exact ⟨fun _ increase _ => not_le.mp (never increase), fun _ => rfl⟩

def runningFor (durations : List Int) : List (ScheduledTask String) :=
  durations.zipIdx.map fun (duration, id) =>
    ⟨⟨"role", "env", "job"⟩, true, "host", id, [⟨(1000 - duration) * 1000, .running⟩]⟩

theorem getWaitTimeToSla_exact_four :
    50 ≤ increasedUpCount (runningFor [100, 200, 300, 400]) 1000 450 none 150 ∧
    ∀ increase, 0 ≤ increase → increase < 150 →
      increasedUpCount (runningFor [100, 200, 300, 400]) 1000 450 none increase < 50 :=
  (getWaitTimeToSla_exact (runningFor [100, 200, 300, 400]) 1000 50 450 none (by norm_num) (by simp)).2.1 150
    (by decide +kernel) (by norm_num)

section JobUptime

variable {tasks : List (ScheduledTask Host)} {now : ℚ}

theorem jobUptime_spec (known : (instanceUptime tasks now).entries ≠ []) {percentile : ℚ} (above : 0 < percentile)
    (below : percentile < 100) :
    ∃ uptime : Int, getJobUptime tasks now percentile = .ok uptime ∧ uptime ∈ uptimesOf tasks now ∧
      ∀ duration : ℚ, percentile < getTaskUpCount tasks now duration none ↔ duration ≤ uptime := by
  have some_known : 0 < (uptimesOf tasks now).length := by
    rw [List.length_map]
    exact List.length_pos_iff.mpr known
  obtain ⟨value, value_eq⟩ : ∃ value, ⌊percentile / 100 * (uptimesOf tasks now).length⌋ = value := ⟨_, rfl⟩
  have value_nonneg : 0 ≤ value := by
    rw [← value_eq]
    exact Int.floor_nonneg.mpr (by positivity)
  have value_lt : value < (uptimesOf tasks now).length := by
    have some_known' : (0 : ℚ) < (uptimesOf tasks now).length := by exact_mod_cast some_known
    rw [← value_eq, Int.floor_lt]
    push_cast
    nlinarith
  have length_sorted : ((uptimesOf tasks now).insertionSort (· ≤ ·)).length = (uptimesOf tasks now).length :=
    (List.perm_insertionSort _ _).length_eq
  obtain ⟨index, index_eq⟩ : ∃ index : Nat, index = ((uptimesOf tasks now).length - value - 1).toNat := ⟨_, rfl⟩
  have inside : index < ((uptimesOf tasks now).insertionSort (· ≤ ·)).length := by
    rw [length_sorted]
    omega
  have fits : 0 ≤ ((uptimesOf tasks now).length : Int) - value - 1 ∧
      ((uptimesOf tasks now).length : Int) - value - 1 < (uptimesOf tasks now).length := by
    omega
  refine ⟨((uptimesOf tasks now).insertionSort (· ≤ ·))[index], ?_, ?_, fun duration => ?_⟩
  · unfold getJobUptime
    rw [if_neg (by simp [above, below])]
    dsimp only
    rw [value_eq, if_pos fits, ← index_eq, List.getElem?_eq_getElem inside, Option.getD_some]
  · exact (List.perm_insertionSort _ _).mem_iff.mp (List.getElem_mem inside)
  · have total : totalOf tasks now none = (uptimesOf tasks now).length := rfl
    have rank := Rank.insertionSort_rank (uptimesOf tasks now) ⌈duration⌉ index inside
    rw [getTaskUpCount_reaching, total, if_pos some_known.ne', lt_share percentile some_known, value_eq, ← Int.ceil_le, ← rank]
    omega

end JobUptime

theorem getJobUptime_inverse (tasks : List (ScheduledTask Host)) (now percentile : ℚ)
    (known : (instanceUptime tasks now).entries ≠ []) (above : 0 < percentile) (below : percentile < 100) :
    ∃ uptime : Int, getJobUptime tasks now percentile = .ok uptime ∧
      uptime ∈ (instanceUptime tasks now).entries.map Prod.snd ∧
      percentile < getTaskUpCount tasks now uptime none ∧
      (∀ duration : ℚ, uptime < duration → getTaskUpCount tasks now duration none ≤ percentile) ∧
      ∀ larger, percentile ≤ larger → larger < 100 →
        ∃ smaller : Int, getJobUptime tasks now larger = .ok smaller ∧ smaller ≤ uptime := by
  obtain ⟨uptime, found, mem, reaches⟩ := jobUptime_spec known above below
  refine ⟨uptime, found, mem, (reaches uptime).mpr le_rfl, fun duration longer => ?_, fun larger le below' => ?_⟩
  · exact not_lt.mp fun reached => not_le.mpr longer ((reaches duration).mp reached)
  · obtain ⟨smaller, found', -, reaches'⟩ := jobUptime_spec known (above.trans_le le) below'
    have reached : percentile < getTaskUpCount tasks now smaller none := le.trans_lt ((reaches' smaller).mpr le_rfl)
    exact ⟨smaller, found', by exact_mod_cast (reaches smaller).mp reached⟩

theorem getJobUptime_inverse_four : ∃ uptime : Int, getJobUptime (runningFor [100, 200, 300, 400]) 1000 50 = .ok uptime ∧
    uptime ∈ (instanceUptime (runningFor [100, 200, 300, 400]) 1000).entries.map Prod.snd ∧
    50 < getTaskUpCount (runningFor [100, 200, 300, 400]) 1000 uptime none ∧
    (∀ duration : ℚ, uptime < duration → getTaskUpCount (runningFor [100, 200, 300, 400]) 1000 duration none ≤ 50) ∧
    ∀ larger, 50 ≤ larger → larger < 100 →
      ∃ smaller : Int, getJobUptime (runningFor [100, 200, 300, 400]) 1000 larger = .ok smaller ∧ smaller ≤ uptime :=
  getJobUptime_inverse (runningFor [100, 200, 300, 400]) 1000 50 (by decide +kernel) (by norm_num) (by norm_num)

end Aurora.Client
