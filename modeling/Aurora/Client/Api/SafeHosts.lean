import Aurora.Client.Api.Sla
import Mathlib.Data.List.Lemmas
import Mathlib.Tactic.Linarith

namespace Aurora.Client

open Collections

def ScheduledTask.isUp {Host : Type} (now duration : ℚ) (task : ScheduledTask Host) : Bool :=
  (task.uptime now).any fun uptime : Int => duration ≤ (uptime : ℚ)

def upTasks {Host : Type} (now duration : ℚ) (tasks : List (ScheduledTask Host)) : List (ScheduledTask Host) :=
  tasks.filter (ScheduledTask.isUp now duration)

def upPercentage {Host : Type} (now duration : ℚ) (tasks : List (ScheduledTask Host)) (total : Nat) : ℚ :=
  100 * (upTasks now duration tasks).length / total

section Counts

variable {Host : Type} (now duration : ℚ) (tasks : List (ScheduledTask Host))

theorem instanceUptime_concat (task : ScheduledTask Host) :
    instanceUptime (tasks ++ [task]) now = (task.uptime now).elim (instanceUptime tasks now)
      fun uptime => (instanceUptime tasks now).set task.instanceId uptime := by
  rw [instanceUptime, List.foldl_append]
  rfl

theorem upTasks_concat (task : ScheduledTask Host) :
    (upTasks now duration (tasks ++ [task])).length =
      (upTasks now duration tasks).length + if task.isUp now duration then 1 else 0 := by
  rw [upTasks, List.filter_append, List.length_append, List.filter_singleton]
  cases task.isUp now duration <;> rfl

theorem above_le : ((instanceUptime tasks now).entries.countP fun entry => duration ≤ entry.2) ≤
    (upTasks now duration tasks).length := by
  induction tasks using List.reverseRecOn with
  | nil => exact Nat.zero_le _
  | append_singleton tasks task ih =>
    rw [instanceUptime_concat, upTasks_concat]
    unfold ScheduledTask.isUp
    cases task.uptime now with
    | none => simpa using ih
    | some uptime =>
      have grown := Dict.countP_set_le (fun entry : Int × Int => decide (duration ≤ entry.2))
        (instanceUptime tasks now) task.instanceId uptime
      simp only [Option.elim_some, Option.any_some]
      exact grown.trans (Nat.add_le_add_right ih _)

theorem instanceUptime_keys (id : Int) (unused : id ∉ tasks.map ScheduledTask.instanceId) :
    id ∉ (instanceUptime tasks now).keys := by
  induction tasks using List.reverseRecOn with
  | nil => exact List.not_mem_nil
  | append_singleton tasks task ih =>
    simp only [List.map_append, List.map_singleton, List.mem_append, List.mem_singleton, not_or] at unused
    rw [instanceUptime_concat]
    cases task.uptime now with
    | none => exact ih unused.1
    | some uptime =>
      rw [Option.elim_some, ← List.mem_toFinset, Dict.toFinset_keys_set, Finset.mem_insert, List.mem_toFinset, not_or]
      exact ⟨unused.2, ih unused.1⟩

/-- Instances are unique in a job, so every task counts by itself. -/
theorem above_eq (distinct : (tasks.map ScheduledTask.instanceId).Nodup) :
    ((instanceUptime tasks now).entries.countP fun entry => duration ≤ entry.2) =
      (upTasks now duration tasks).length := by
  induction tasks using List.reverseRecOn with
  | nil => rfl
  | append_singleton tasks task ih =>
    rw [List.map_append, List.nodup_append_comm, List.map_singleton, List.singleton_append,
      List.nodup_cons] at distinct
    rw [instanceUptime_concat, upTasks_concat]
    unfold ScheduledTask.isUp
    cases task.uptime now with
    | none => simpa using ih distinct.2
    | some uptime =>
      have fresh := instanceUptime_keys now tasks task.instanceId distinct.1
      simp only [Option.elim_some, Option.any_some]
      rw [Dict.countP_set_new _ _ fresh, ih distinct.2]

theorem getTaskUpCount_le (total : Nat) (some_task : total ≠ 0) :
    getTaskUpCount tasks now duration (some total) ≤ upPercentage now duration tasks total := by
  have counted : (((instanceUptime tasks now).entries.countP fun entry => duration ≤ entry.2 : Nat) : ℚ) ≤
      (upTasks now duration tasks).length := by
    exact_mod_cast above_le now duration tasks
  simp only [getTaskUpCount, upPercentage, Option.filter_some, ← List.countP_eq_length_filter]
  simp only [ne_eq, some_task, not_false_eq_true, decide_true, if_true, Option.getD_some]
  have positive : (0 : ℚ) ≤ total := Nat.cast_nonneg total
  gcongr

theorem getTaskUpCount_eq (total : Nat) (some_task : total ≠ 0)
    (distinct : (tasks.map ScheduledTask.instanceId).Nodup) :
    getTaskUpCount tasks now duration (some total) = upPercentage now duration tasks total := by
  simp only [getTaskUpCount, upPercentage, Option.filter_some, ← List.countP_eq_length_filter,
    above_eq now duration tasks distinct]
  simp [some_task]

end Counts

section Domain

variable {Host κ : Type} [DecidableEq Host] [LinearOrder κ] (cluster : String) (now : ℚ)
  (tasks : List (ScheduledTask Host)) (count : Int) (hostFilter : List Host)

def trackedTasks (job : AuroraJobKey) : List (ScheduledTask Host) :=
  let own := (tasks.filter ScheduledTask.production).filter fun task => jobKeyFromScheduled task cluster = job
  if count ≤ own.length then own else []

def RunsOn (job : AuroraJobKey) (host : Host) : Prop :=
  ∃ task ∈ trackedTasks cluster tasks count job, task.slaveHost = host

namespace DomainUpTimeSlaVector

theorem tasksByJob_init (job : AuroraJobKey) :
    ((initMappings cluster now tasks count hostFilter).tasksByJob.get? job).getD [] =
      trackedTasks cluster tasks count job := by
  have grouped := Dict.getD_groupBy (fun task => jobKeyFromScheduled task cluster)
    (tasks.filter ScheduledTask.production) job
  simp only [initMappings, trackedTasks, Dict.get?_filter]
  rw [← grouped]
  cases (Dict.groupBy (fun task => jobKeyFromScheduled task cluster)
    (tasks.filter ScheduledTask.production)).get? job with
  | none => simp
  | some own =>
    by_cases enough : count ≤ own.length <;> simp [Option.filter, enough]

theorem mem_placed (job : AuroraJobKey) (host : Host) :
    (job, host) ∈ (initMappings cluster now tasks count hostFilter).tasksByJob.entries.flatMap
        (fun entry => entry.2.map fun task => (entry.1, task.slaveHost)) ↔
      RunsOn cluster tasks count job host := by
  rw [RunsOn, ← tasksByJob_init cluster now tasks count hostFilter job]
  simp only [List.mem_flatMap, List.mem_map, Prod.mk.injEq, Prod.exists, Dict.mem_entries]
  constructor
  · rintro ⟨key, own, known, task, member, rfl, rfl⟩
    exact ⟨task, by simpa [known] using member, rfl⟩
  · rintro ⟨task, member, rfl⟩
    cases known : (initMappings cluster now tasks count hostFilter).tasksByJob.get? job with
    | none => simp [known] at member
    | some own => exact ⟨job, own, known, task, by simpa [known] using member, rfl, rfl⟩

theorem mem_jobsByHost (job : AuroraJobKey) (host : Host) :
    job ∈ ((initMappings cluster now tasks count hostFilter).jobsByHost.get? host).getD [] ↔
      RunsOn cluster tasks count job host := by
  rw [← mem_placed cluster now tasks count hostFilter]
  refine (Dict.mem_collect Prod.snd _ Prod.fst host job).trans ?_
  constructor
  · rintro ⟨⟨job, host⟩, member, rfl, rfl⟩
    exact member
  · intro member
    exact ⟨(job, host), member, rfl, rfl⟩

theorem mem_hostsByJob (job : AuroraJobKey) (host : Host) :
    host ∈ ((initMappings cluster now tasks count hostFilter).hostsByJob.get? job).getD [] ↔
      RunsOn cluster tasks count job host := by
  rw [← mem_placed cluster now tasks count hostFilter]
  refine (Dict.mem_collect Prod.fst _ Prod.snd job host).trans ?_
  constructor
  · rintro ⟨⟨job, host⟩, member, rfl, rfl⟩
    exact member
  · intro member
    exact ⟨(job, host), member, rfl, rfl⟩

theorem mem_trackedHosts (host : Host) :
    host ∈ (initMappings cluster now tasks count hostFilter).jobsByHost.keys ↔
      ∃ job, RunsOn cluster tasks count job host := by
  simp only [← mem_placed cluster now tasks count hostFilter, initMappings, Dict.collect, Dict.mem_keys_gather]
  constructor
  · rintro ⟨⟨job, other⟩, member, rfl⟩
    exact ⟨job, member⟩
  · rintro ⟨job, member⟩
    exact ⟨(job, host), member, rfl⟩

theorem mem_foldl_union {α β : Type} [DecidableEq β] (f : α → List β) (items : List α) (start : List β) (b : β) :
    b ∈ items.foldl (fun found item => found ∪ f item) start ↔ b ∈ start ∨ ∃ item ∈ items, b ∈ f item := by
  induction items generalizing start with
  | nil => simp
  | cons item rest ih =>
    rw [List.foldl_cons, ih, List.mem_union_iff, List.exists_mem_cons_iff, or_assoc]

/-- A group of `_iter_groups`: all tracked hosts under one key, and the jobs on those that are admitted. -/
structure GroupOf (groupingFunction : Host → κ) (key : κ) (group : List Host × List AuroraJobKey) : Prop where
  hosts : ∀ host, host ∈ group.1 ↔ groupingFunction host = key ∧ ∃ job, RunsOn cluster tasks count job host
  jobs : ∀ job, job ∈ group.2 ↔ ∃ host, groupingFunction host = key ∧ (hostFilter = [] ∨ host ∈ hostFilter) ∧
    RunsOn cluster tasks count job host

section Groups

variable (groupingFunction : Host → κ)

theorem groupOf_entry {key : κ} {group : List Host} {jobs : List AuroraJobKey}
    (filed : (key, group) ∈ (groupHosts (initMappings cluster now tasks count hostFilter).jobsByHost.keys
      groupingFunction).entries)
    (gathered : jobs = (group.filter fun host => hostFilter = [] || hostFilter.contains host).foldl (fun jobKeys host =>
      jobKeys ∪ ((initMappings cluster now tasks count hostFilter).jobsByHost.get? host).getD []) []) :
    GroupOf cluster tasks count hostFilter groupingFunction key (group, jobs) := by
  have grouped : ∀ host, host ∈ group ↔ groupingFunction host = key ∧ ∃ job, RunsOn cluster tasks count job host := by
    intro host
    have filed := (Dict.mem_entries _ _ _).mp filed
    have collected := Dict.mem_collect groupingFunction
      (initMappings cluster now tasks count hostFilter).jobsByHost.keys id key host
    rw [show (Dict.collect groupingFunction id _).get? key = some group from filed, Option.getD_some] at collected
    rw [collected]
    constructor
    · rintro ⟨other, member, same, rfl⟩
      exact ⟨same, (mem_trackedHosts cluster now tasks count hostFilter other).mp member⟩
    · rintro ⟨same, tracked⟩
      exact ⟨host, (mem_trackedHosts cluster now tasks count hostFilter host).mpr tracked, same, rfl⟩
  refine ⟨grouped, ?_⟩
  intro job
  rw [gathered, mem_foldl_union]
  constructor
  · rintro (none | ⟨host, member, placed⟩)
    · cases none
    · obtain ⟨member, admitted⟩ := List.mem_filter.mp member
      exact ⟨host, ((grouped host).mp member).1, by simpa using admitted,
        (mem_jobsByHost cluster now tasks count hostFilter job host).mp placed⟩
  · rintro ⟨host, same, admitted, runs⟩
    right
    refine ⟨host, List.mem_filter.mpr ⟨(grouped host).mpr ⟨same, job, runs⟩, by simpa using admitted⟩, ?_⟩
    exact (mem_jobsByHost cluster now tasks count hostFilter job host).mpr runs

theorem groupOf_iterGroups {group : List Host × List AuroraJobKey}
    (member : group ∈ (initMappings cluster now tasks count hostFilter).iterGroups
      (initMappings cluster now tasks count hostFilter).jobsByHost.keys groupingFunction hostFilter) :
    ∃ key, GroupOf cluster tasks count hostFilter groupingFunction key group := by
  obtain ⟨⟨key, members⟩, filed, rfl⟩ := List.mem_map.mp member
  exact ⟨key, groupOf_entry cluster now tasks count hostFilter groupingFunction ((List.mem_insertionSort _).mp filed) rfl⟩

theorem iterGroups_of_runsOn {job : AuroraJobKey} {host : Host} (runs : RunsOn cluster tasks count job host) :
    ∃ group ∈ (initMappings cluster now tasks count hostFilter).iterGroups
        (initMappings cluster now tasks count hostFilter).jobsByHost.keys groupingFunction hostFilter,
      GroupOf cluster tasks count hostFilter groupingFunction (groupingFunction host) group := by
  have tracked := (mem_trackedHosts cluster now tasks count hostFilter host).mpr ⟨job, runs⟩
  have keyed := (Dict.mem_keys_gather groupingFunction (fun values item => values.insert (id item))
    (initMappings cluster now tasks count hostFilter).jobsByHost.keys (groupingFunction host)).mpr ⟨host, tracked, rfl⟩
  obtain ⟨⟨key, members⟩, filed, rfl⟩ := List.mem_map.mp keyed
  refine ⟨_, List.mem_map.mpr ⟨(_, members), (List.mem_insertionSort _).mpr filed, rfl⟩, ?_⟩
  exact groupOf_entry cluster now tasks count hostFilter groupingFunction filed rfl

end Groups

section Safe

variable (percentage duration : ℚ) (jobLimits : Dict AuroraJobKey JobUpTimeLimit)

def leftOver (job : AuroraJobKey) (down : Host → Bool) : ℚ :=
  getTaskUpCount ((trackedTasks cluster tasks count job).filter fun task => !down task.slaveHost) now
    (limitOf percentage duration jobLimits job).2 (some (trackedTasks cluster tasks count job).length)

theorem mem_keys_foldl_set {ν : Type} (value : Dict Host ν → Host → ν) (items : List Host) (d : Dict Host ν)
    (host : Host) :
    host ∈ (items.foldl (fun d item => d.set item (value d item)) d).keys ↔ host ∈ d.keys ∨ host ∈ items := by
  induction items generalizing d with
  | nil => simp
  | cons item rest ih =>
    rw [List.foldl_cons, ih, ← List.mem_toFinset, Dict.toFinset_keys_set, Finset.mem_insert, List.mem_toFinset,
      List.mem_cons]
    tauto

section Group

variable {groupingFunction : Host → κ} {key : κ} {group : List Host × List AuroraJobKey}

theorem simulate_group (grouped : GroupOf cluster tasks count hostFilter groupingFunction key group)
    (job : AuroraJobKey) :
    ((initMappings cluster now tasks count hostFilter).simulateHostsDown job
        (group.1.filter fun host => host ∈ ((initMappings cluster now tasks count hostFilter).hostsByJob.get? job).getD [])
        (limitOf percentage duration jobLimits job).2).1 =
      leftOver cluster now tasks count percentage duration jobLimits job (fun host => groupingFunction host = key) := by
  simp only [simulateHostsDown, leftOver, tasksByJob_init]
  congr 1
  apply List.filter_congr
  intro task member
  have runs : RunsOn cluster tasks count job task.slaveHost := ⟨task, member, rfl⟩
  have inside : task.slaveHost ∈ group.1.filter (fun host =>
      host ∈ ((initMappings cluster now tasks count hostFilter).hostsByJob.get? job).getD []) ↔
        groupingFunction task.slaveHost = key := by
    simp only [List.mem_filter, grouped.hosts, mem_hostsByJob, decide_eq_true_eq]
    exact ⟨fun both => both.1.1, fun same => ⟨⟨same, job, runs⟩, runs⟩⟩
  simp [inside]

/-- The job keeps its required percentage when all its tasks under the key go down. -/
def Keeps (groupingFunction : Host → κ) (key : κ) (job : AuroraJobKey) : Prop :=
  (limitOf percentage duration jobLimits job).1 ≤
    leftOver cluster now tasks count percentage duration jobLimits job (fun host => groupingFunction host = key)

section Loop

variable (grouped : GroupOf cluster tasks count hostFilter groupingFunction key group)
include grouped

theorem checkJob_eq_some {job : AuroraJobKey} {start safe : Dict Host (List JobUpTimeLimit)}
    (checked : (initMappings cluster now tasks count hostFilter).checkJob percentage duration jobLimits group.1 start
      job = some safe) :
    Keeps cluster now tasks count percentage duration jobLimits groupingFunction key job ∧
      ∀ host, host ∈ safe.keys ↔ host ∈ start.keys ∨
        (groupingFunction host = key ∧ RunsOn cluster tasks count job host) := by
  simp only [checkJob, simulate_group cluster now tasks count hostFilter percentage duration jobLimits grouped] at checked
  split at checked
  · cases checked
  · rename_i enough
    cases checked
    refine ⟨not_lt.mp enough, ?_⟩
    intro host
    rw [mem_keys_foldl_set]
    simp only [List.mem_filter, grouped.hosts, mem_hostsByJob, decide_eq_true_eq]
    constructor
    · rintro (old | ⟨⟨same, -⟩, runs⟩)
      · exact .inl old
      · exact .inr ⟨same, runs⟩
    · rintro (old | ⟨same, runs⟩)
      · exact .inl old
      · exact .inr ⟨⟨same, job, runs⟩, runs⟩

theorem checkJob_of_keeps {job : AuroraJobKey} (start : Dict Host (List JobUpTimeLimit))
    (kept : Keeps cluster now tasks count percentage duration jobLimits groupingFunction key job) :
    ∃ safe, (initMappings cluster now tasks count hostFilter).checkJob percentage duration jobLimits group.1 start
      job = some safe := by
  have enough : ¬ leftOver cluster now tasks count percentage duration jobLimits job
      (fun host => groupingFunction host = key) < (limitOf percentage duration jobLimits job).1 := not_lt.mpr kept
  simp only [checkJob, simulate_group cluster now tasks count hostFilter percentage duration jobLimits grouped, enough,
    if_false]
  exact ⟨_, rfl⟩

theorem foldlM_eq_some {jobs : List AuroraJobKey} {start safe : Dict Host (List JobUpTimeLimit)}
    (checked : jobs.foldlM ((initMappings cluster now tasks count hostFilter).checkJob percentage duration jobLimits
      group.1) start = some safe) :
    (∀ job ∈ jobs, Keeps cluster now tasks count percentage duration jobLimits groupingFunction key job) ∧
      ∀ host, host ∈ safe.keys ↔ host ∈ start.keys ∨
        (groupingFunction host = key ∧ ∃ job ∈ jobs, RunsOn cluster tasks count job host) := by
  induction jobs generalizing start with
  | nil =>
    cases checked
    simp
  | cons job rest ih =>
    rw [List.foldlM_cons, Option.bind_eq_bind, Option.bind_eq_some_iff] at checked
    obtain ⟨middle, first, later⟩ := checked
    obtain ⟨kept, keys⟩ :=
      checkJob_eq_some cluster now tasks count hostFilter percentage duration jobLimits grouped first
    obtain ⟨others, keys'⟩ := ih later
    refine ⟨List.forall_mem_cons.mpr ⟨kept, others⟩, ?_⟩
    intro host
    rw [keys', keys, List.exists_mem_cons_iff]
    tauto

theorem foldlM_of_keeps {jobs : List AuroraJobKey} (start : Dict Host (List JobUpTimeLimit))
    (kept : ∀ job ∈ jobs, Keeps cluster now tasks count percentage duration jobLimits groupingFunction key job) :
    ∃ safe, jobs.foldlM ((initMappings cluster now tasks count hostFilter).checkJob percentage duration jobLimits
      group.1) start = some safe := by
  induction jobs generalizing start with
  | nil => exact ⟨start, rfl⟩
  | cons job rest ih =>
    obtain ⟨first, others⟩ := List.forall_mem_cons.mp kept
    obtain ⟨middle, checked⟩ :=
      checkJob_of_keeps cluster now tasks count hostFilter percentage duration jobLimits grouped start first
    obtain ⟨safe, ran⟩ := ih middle others
    exact ⟨safe, by rw [List.foldlM_cons, checked]; exact ran⟩

end Loop

end Group

variable (groupingFunction : Host → κ)

def Reported (key : κ) (host : Host) : Prop :=
  groupingFunction host = key ∧ ∃ job other, groupingFunction other = key ∧ (hostFilter = [] ∨ other ∈ hostFilter) ∧
    RunsOn cluster tasks count job other ∧ RunsOn cluster tasks count job host

/-- Every job with a task on an admitted host under the key keeps its percentage. -/
def GroupKeeps (key : κ) : Prop :=
  ∀ job other, groupingFunction other = key → (hostFilter = [] ∨ other ∈ hostFilter) →
    RunsOn cluster tasks count job other →
    Keeps cluster now tasks count percentage duration jobLimits groupingFunction key job

omit [DecidableEq Host] [LinearOrder κ] in
theorem reported_iff {key : κ} {group : List Host × List AuroraJobKey}
    (grouped : GroupOf cluster tasks count hostFilter groupingFunction key group) (host : Host) :
    (host ∈ (Dict.empty : Dict Host (List JobUpTimeLimit)).keys ∨
        groupingFunction host = key ∧ ∃ job ∈ group.2, RunsOn cluster tasks count job host) ↔
      Reported cluster tasks count hostFilter groupingFunction key host := by
  constructor
  · rintro (none | ⟨same, job, listed, runs⟩)
    · cases none
    · obtain ⟨other, same', admitted, runs'⟩ := (grouped.jobs job).mp listed
      exact ⟨same, job, other, same', admitted, runs', runs⟩
  · rintro ⟨same, job, other, same', admitted, runs', runs⟩
    exact .inr ⟨same, job, (grouped.jobs job).mpr ⟨other, same', admitted, runs'⟩, runs⟩

theorem of_mem_getSafeHosts {safe : Dict Host (List JobUpTimeLimit)}
    (member : safe ∈ (initMappings cluster now tasks count hostFilter).getSafeHosts percentage duration jobLimits
      groupingFunction) :
    ∃ key, GroupKeeps cluster now tasks count hostFilter percentage duration jobLimits groupingFunction key ∧
      ∀ host, host ∈ safe.keys ↔ Reported cluster tasks count hostFilter groupingFunction key host := by
  obtain ⟨group, iterated, checked⟩ := List.mem_filterMap.mp member
  obtain ⟨key, grouped⟩ := groupOf_iterGroups cluster now tasks count hostFilter groupingFunction iterated
  obtain ⟨kept, keys⟩ :=
    foldlM_eq_some cluster now tasks count hostFilter percentage duration jobLimits grouped checked
  refine ⟨key, ?_, ?_⟩
  · intro job other same admitted runs
    exact kept job ((grouped.jobs job).mpr ⟨other, same, admitted, runs⟩)
  · intro host
    exact (keys host).trans (reported_iff cluster tasks count hostFilter groupingFunction grouped host)

theorem mem_getSafeHosts {key : κ} {job : AuroraJobKey} {host : Host} (runs : RunsOn cluster tasks count job host)
    (same : groupingFunction host = key)
    (kept : GroupKeeps cluster now tasks count hostFilter percentage duration jobLimits groupingFunction key) :
    ∃ safe ∈ (initMappings cluster now tasks count hostFilter).getSafeHosts percentage duration jobLimits
        groupingFunction,
      ∀ host, host ∈ safe.keys ↔ Reported cluster tasks count hostFilter groupingFunction key host := by
  obtain ⟨group, iterated, grouped⟩ :=
    iterGroups_of_runsOn cluster now tasks count hostFilter groupingFunction runs
  rw [same] at grouped
  have all : ∀ job ∈ group.2, Keeps cluster now tasks count percentage duration jobLimits groupingFunction key job := by
    intro job listed
    obtain ⟨other, same', admitted, runs'⟩ := (grouped.jobs job).mp listed
    exact kept job other same' admitted runs'
  obtain ⟨safe, checked⟩ :=
    foldlM_of_keeps cluster now tasks count hostFilter percentage duration jobLimits grouped .empty all
  obtain ⟨-, keys⟩ := foldlM_eq_some cluster now tasks count hostFilter percentage duration jobLimits grouped checked
  refine ⟨safe, List.mem_filterMap.mpr ⟨group, iterated, checked⟩, ?_⟩
  intro host
  exact (keys host).trans (reported_iff cluster tasks count hostFilter groupingFunction grouped host)

end Safe

end DomainUpTimeSlaVector

section Report

open DomainUpTimeSlaVector

variable (percentage duration : ℚ) (jobLimits : Dict AuroraJobKey JobUpTimeLimit) (groupingFunction : Host → κ)

/-- Every tracked job with a task on one of the hosts is left with its required percentage, counted task by
    task, when they all go down. -/
def Safe (down : Host → Bool) : Prop :=
  ∀ job, (∃ task ∈ trackedTasks cluster tasks count job, down task.slaveHost = true) →
    (limitOf percentage duration jobLimits job).1 ≤
      upPercentage now (limitOf percentage duration jobLimits job).2
        ((trackedTasks cluster tasks count job).filter fun task => !down task.slaveHost)
        (trackedTasks cluster tasks count job).length

structure SafeHostsReported : Prop where
  filtered : hostFilter ≠ [] → ∀ group ∈ (initMappings cluster now tasks count
    hostFilter).getSafeHosts percentage duration jobLimits groupingFunction, ∀ host ∈ group.keys, host ∈ hostFilter
  safe : ∀ group ∈ (initMappings cluster now tasks count hostFilter).getSafeHosts percentage
    duration jobLimits groupingFunction,
    Safe cluster now tasks count percentage duration jobLimits fun host => host ∈ group.keys
  complete : hostFilter = [] → ∀ key, (∃ job host, RunsOn cluster tasks count job host ∧ groupingFunction host = key) →
    Safe cluster now tasks count percentage duration jobLimits (fun host => groupingFunction host = key) →
    ∃ group ∈ (initMappings cluster now tasks count hostFilter).getSafeHosts percentage
        duration jobLimits groupingFunction,
      ∀ host, host ∈ group.keys ↔ groupingFunction host = key ∧ ∃ job, RunsOn cluster tasks count job host

/-- No job with a task on a host of the filter under the key has another one there outside of it. -/
def FilterClosed (key : κ) : Prop :=
  ∀ job host other, RunsOn cluster tasks count job host → RunsOn cluster tasks count job other →
    groupingFunction host = key → groupingFunction other = key → host ∈ hostFilter → other ∈ hostFilter

/-- A reported group all of whose hosts are in the filter takes down just the tasks that it was checked for. -/
theorem safe_of_inside {group : Dict Host (List JobUpTimeLimit)}
    (member : group ∈ (initMappings cluster now tasks count hostFilter).getSafeHosts percentage duration jobLimits
      groupingFunction)
    (inside : hostFilter ≠ [] → ∀ host ∈ group.keys, host ∈ hostFilter) :
    Safe cluster now tasks count percentage duration jobLimits fun host => host ∈ group.keys := by
  intro job ⟨task, tracked, down⟩
  obtain ⟨key, kept, keys⟩ := of_mem_getSafeHosts cluster now tasks count hostFilter percentage duration jobLimits
    groupingFunction member
  have listed : task.slaveHost ∈ group.keys := by simpa using down
  obtain ⟨same, -⟩ := (keys task.slaveHost).mp listed
  have admitted : hostFilter = [] ∨ task.slaveHost ∈ hostFilter := by
    by_cases none : hostFilter = []
    · exact .inl none
    · exact .inr (inside none task.slaveHost listed)
  have runs : RunsOn cluster tasks count job task.slaveHost := ⟨task, tracked, rfl⟩
  have enough : (limitOf percentage duration jobLimits job).1 ≤ _ := kept job task.slaveHost same admitted runs
  have left : ((trackedTasks cluster tasks count job).filter fun task => !decide (task.slaveHost ∈ group.keys)) =
      (trackedTasks cluster tasks count job).filter fun task => !decide (groupingFunction task.slaveHost = key) := by
    apply List.filter_congr
    intro other tracked'
    have here : other.slaveHost ∈ group.keys ↔ groupingFunction other.slaveHost = key := by
      rw [keys]
      constructor
      · intro both
        exact both.1
      · intro same'
        exact ⟨same', job, task.slaveHost, same, admitted, runs, ⟨other, tracked', rfl⟩⟩
    simp [here]
  have some_task : (trackedTasks cluster tasks count job).length ≠ 0 := by
    rw [ne_eq, List.length_eq_zero_iff]
    exact List.ne_nil_of_mem tracked
  rw [left]
  exact enough.trans (getTaskUpCount_le now _ _ _ some_task)

/-- The reported groups are right just when the filter does not cut through the hosts that a job has in a
    group found safe; without a filter, when no group is safe only through tasks that share an instance. -/
theorem safe_hosts_reported :
    SafeHostsReported cluster now tasks count hostFilter percentage duration jobLimits groupingFunction ↔
      (hostFilter ≠ [] → ∀ key,
        GroupKeeps cluster now tasks count hostFilter percentage duration jobLimits groupingFunction key →
        FilterClosed cluster tasks count hostFilter groupingFunction key) ∧
      (hostFilter = [] → ∀ key,
        Safe cluster now tasks count percentage duration jobLimits (fun host => groupingFunction host = key) →
        GroupKeeps cluster now tasks count hostFilter percentage duration jobLimits groupingFunction key) := by
  constructor
  · intro reported
    constructor
    · intro given key kept job host other runs runs' same same' inside
      obtain ⟨group, member, keys⟩ := mem_getSafeHosts cluster now tasks count hostFilter percentage duration jobLimits
        groupingFunction runs same kept
      have listed := (keys other).mpr ⟨same', job, host, same, .inr inside, runs, runs'⟩
      exact reported.filtered given group member other listed
    · intro none key safe job other same admitted runs
      obtain ⟨group, member, keys⟩ := reported.complete none key ⟨job, other, runs, same⟩ safe
      obtain ⟨key', kept, keys'⟩ := of_mem_getSafeHosts cluster now tasks count hostFilter percentage duration jobLimits
        groupingFunction member
      have listed := (keys other).mpr ⟨same, job, runs⟩
      obtain ⟨same', -⟩ := (keys' other).mp listed
      rw [same] at same'
      subst same'
      exact kept job other same admitted runs
  · rintro ⟨closed, counted⟩
    have inside : hostFilter ≠ [] → ∀ group ∈ (initMappings cluster now tasks count hostFilter).getSafeHosts percentage
        duration jobLimits groupingFunction, ∀ host ∈ group.keys, host ∈ hostFilter := by
      intro given group member host listed
      obtain ⟨key, kept, keys⟩ := of_mem_getSafeHosts cluster now tasks count hostFilter percentage duration jobLimits
        groupingFunction member
      obtain ⟨same, job, other, same', admitted, runs', runs⟩ := (keys host).mp listed
      rcases admitted with none | admitted
      · exact absurd none given
      · exact closed given key kept job other host runs' runs same' same admitted
    refine ⟨inside, ?_, ?_⟩
    · intro group member
      exact safe_of_inside cluster now tasks count hostFilter percentage duration jobLimits groupingFunction member
        fun given => inside given group member
    · rintro none key ⟨job, host, runs, same⟩ safe
      obtain ⟨group, member, keys⟩ := mem_getSafeHosts cluster now tasks count hostFilter percentage duration jobLimits
        groupingFunction runs same (counted none key safe)
      refine ⟨group, member, ?_⟩
      intro host
      rw [keys]
      constructor
      · rintro ⟨same, job, other, -, -, -, runs⟩
        exact ⟨same, job, runs⟩
      · rintro ⟨same, job, runs⟩
        exact ⟨same, job, host, same, .inl none, runs, runs⟩

omit [DecidableEq Host] in
/-- Where the instances of a job are unique, no group is safe only through shared ones. -/
theorem groupKeeps_of_distinct (distinct : ∀ job,
      ((trackedTasks cluster tasks count job).map ScheduledTask.instanceId).Nodup) (key : κ)
    (safe : Safe cluster now tasks count percentage duration jobLimits fun host => groupingFunction host = key) :
    GroupKeeps cluster now tasks count hostFilter percentage duration jobLimits groupingFunction key := by
  rintro job other same - ⟨task, tracked, rfl⟩
  have some_task : (trackedTasks cluster tasks count job).length ≠ 0 := by
    rw [ne_eq, List.length_eq_zero_iff]
    exact List.ne_nil_of_mem tracked
  have fewer : ((trackedTasks cluster tasks count job).filter fun task =>
      !decide (groupingFunction task.slaveHost = key)).Sublist (trackedTasks cluster tasks count job) :=
    List.filter_sublist
  have apart := (distinct job).sublist (fewer.map ScheduledTask.instanceId)
  unfold Keeps leftOver
  rw [getTaskUpCount_eq now _ _ _ some_task apart]
  exact safe job ⟨task, tracked, by simpa using same⟩

end Report

end Domain

/-- A rack of two hosts: one job runs on both and elsewhere, another one only on the second. -/
def rackTasks : List (ScheduledTask String) :=
  let running := fun name host id =>
    { job := ⟨"www", "prod", name⟩, production := true, slaveHost := host, instanceId := id,
      taskEvents := [⟨0, .running⟩] }
  [running "web" "rack0-a" 0, running "web" "rack0-b" 1, running "web" "rack1-a" 2, running "web" "rack1-a" 3,
    running "db" "rack0-b" 0, running "db" "rack0-b" 1]

def rackOf (host : String) : Nat := if host = "rack1-a" then 1 else 0

theorem rack_reported : ((DomainUpTimeSlaVector.initMappings "cluster" 1000 rackTasks 2 ["rack0-a"]).getSafeHosts
    50 60 .empty rackOf).map Dict.keys = [["rack0-b", "rack0-a"], []] := by
  decide +kernel

/-- With a filter for one host of the rack the other one is reported as well, and with it a job that was never
    looked at. -/
theorem rack_reported_unsafe : ¬ SafeHostsReported "cluster" 1000 rackTasks 2 ["rack0-a"] 50 60 .empty rackOf := by
  intro reported
  have member : ["rack0-b", "rack0-a"] ∈ ((DomainUpTimeSlaVector.initMappings "cluster" 1000 rackTasks 2
      ["rack0-a"]).getSafeHosts 50 60 .empty rackOf).map Dict.keys := by
    rw [rack_reported]
    exact .head _
  obtain ⟨group, member, keys⟩ := List.mem_map.mp member
  have inside := reported.filtered (List.cons_ne_nil _ _) group member "rack0-b" (by simp [keys])
  simp at inside

end Aurora.Client
