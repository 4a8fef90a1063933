import Aurora.Client.Api.SafeHosts
import Aurora.Client.Api.Uptimes
import Aurora.Library.Filing

namespace Aurora.Client

open Collections

def allSafe {Host : Type} (probed : Dict Host (List JobUpTimeDetails)) : Bool :=
  probed.entries.all fun entry => entry.2.all JobUpTimeDetails.safe

/-- Two reports on a group: the same hosts, and for each the same jobs with the same predicted percentages, in
    whatever order the set of jobs was gone through. -/
structure SameReport {Host : Type} [DecidableEq Host] (safe : Dict Host (List JobUpTimeLimit))
    (probed : Dict Host (List JobUpTimeDetails)) : Prop where
  hosts : ∀ host, host ∈ safe.keys ↔ host ∈ probed.keys
  jobs : ∀ host, (((safe.get? host).getD []).map fun limit => (limit.job, limit.percentage)).Perm
    (((probed.get? host).getD []).map fun details => (details.job, details.predictedPercentage))

section Waiting

variable {Host : Type} (tasks : List (ScheduledTask Host)) (now duration : ℚ)

theorem uptime_later (task : ScheduledTask Host) (seconds : Int) :
    task.uptime (now + seconds) = (task.uptime now).map (· + seconds) := by
  simp only [ScheduledTask.uptime, Option.map_map]
  congr 1
  funext event
  rw [Function.comp, ← Int.floor_add_intCast]
  congr 1
  ring

theorem instanceUptime_later (seconds : Int) :
    instanceUptime tasks (now + seconds) = (instanceUptime tasks now).map (· + seconds) := by
  induction tasks using List.reverseRecOn with
  | nil => rfl
  | append_singleton tasks task ih =>
    rw [instanceUptime_concat, instanceUptime_concat, uptime_later, ih]
    cases task.uptime now with
    | none => rfl
    | some uptime => exact (Dict.map_set _ _ _ _).symm

theorem getTaskUpCount_later (seconds : Int) (totalTasks : Option Nat) :
    getTaskUpCount tasks (now + seconds) duration totalTasks = increasedUpCount tasks now duration totalTasks seconds := by
  simp only [getTaskUpCount, increasedUpCount, instanceUptime_later, Dict.map, Dict.mapKeyed, List.length_map,
    List.filter_map, Function.comp_def, Int.cast_add]

theorem instanceUptime_length_le : (instanceUptime tasks now).entries.length ≤ tasks.length := by
  induction tasks using List.reverseRecOn with
  | nil => exact Nat.zero_le _
  | append_singleton tasks task ih =>
    rw [instanceUptime_concat, List.length_append, List.length_singleton]
    cases task.uptime now with
    | none => exact ih.trans (Nat.le_succ _)
    | some uptime =>
      have grown := Dict.countP_set_le (fun _ => true) (instanceUptime tasks now) task.instanceId uptime
      simp only [List.countP_true, if_true] at grown
      exact grown.trans (Nat.add_le_add_right ih 1)

theorem getTaskUpCount_nonneg (totalTasks : Option Nat) : 0 ≤ getTaskUpCount tasks now duration totalTasks := by
  unfold getTaskUpCount
  dsimp only
  split
  · positivity
  · exact le_rfl

theorem percentage_after_wait {total : Nat} (room : tasks.length ≤ total) {percentage wait : ℚ}
    (missed : getTaskUpCount tasks now duration (some total) < percentage)
    (predicted : getWaitTimeToSla tasks now percentage duration (some total) = some wait) :
    percentage ≤ increasedUpCount tasks now duration (some total) wait ∧
      ((∃ seconds : Int, duration = seconds) →
        percentage ≤ getTaskUpCount tasks (now + wait) duration (some total)) := by
  have asked : 0 < percentage := (getTaskUpCount_nonneg tasks now duration _).trans_lt missed
  have known : ∀ count ∈ some total, (uptimesOf tasks now).length ≤ count := by
    rintro count ⟨⟩
    rw [List.length_map]
    exact (instanceUptime_length_le tasks now).trans room
  rcases wait_cases tasks now asked (some total) known (not_le.mpr missed) with
    ⟨uptime, found, decides⟩ | ⟨found, -⟩
  · rw [found, Option.some_inj] at predicted
    subst predicted
    have reached := (decides _).mpr le_rfl
    refine ⟨reached, ?_⟩
    rintro ⟨seconds, rfl⟩
    have later := getTaskUpCount_later tasks now seconds (seconds - uptime) (some total)
    push_cast at later
    rwa [later]
  · rw [found] at predicted
    cases predicted

end Waiting

namespace DomainUpTimeSlaVector

section Groups

variable {Host κ : Type} [DecidableEq Host] [LinearOrder κ] (vector : DomainUpTimeSlaVector Host)
  (percentage duration : ℚ)

abbrev jobHosts (hosts : List Host) (job : AuroraJobKey) : List Host :=
  hosts.filter fun host => host ∈ (vector.hostsByJob.get? job).getD []

def limitFor (hosts : List Host) (job : AuroraJobKey) : JobUpTimeLimit :=
  ⟨job, (vector.simulateHostsDown job (vector.jobHosts hosts job) duration).1, duration⟩

def detailsFor (hosts : List Host) (job : AuroraJobKey) : JobUpTimeDetails :=
  let (filteredPercentage, totalCount, filteredTasks) := vector.simulateHostsDown job (vector.jobHosts hosts job) duration
  let safe := ¬ filteredPercentage < percentage
  let waitToSla := if safe then some 0 else getWaitTimeToSla filteredTasks vector.now percentage duration (some totalCount)
  ⟨job, filteredPercentage, safe, waitToSla⟩

/-- Without overrides a group is listed unless one of its jobs misses the percentage. -/
theorem safeGroup_eq (hosts : List Host) (jobs : List AuroraJobKey) :
    vector.safeGroup percentage duration .empty hosts jobs =
      if ∃ job ∈ jobs, (vector.limitFor duration hosts job).percentage < percentage then none
      else some (jobs.foldl (fun safe job => safe.file (vector.jobHosts hosts job) (vector.limitFor duration hosts job))
        .empty) :=
  foldlM_guard (fun job => (vector.limitFor duration hosts job).percentage < percentage)
    (fun safe job => Dict.file safe (vector.jobHosts hosts job) (vector.limitFor duration hosts job)) jobs Dict.empty

theorem foldl_probeJob (hosts : List Host) (jobs : List AuroraJobKey) :
    jobs.foldl (vector.probeJob percentage duration hosts) .empty =
      jobs.foldl (fun probed job => probed.file (vector.jobHosts hosts job)
        (vector.detailsFor percentage duration hosts job)) .empty := rfl

/-- Two groups that `get_safe_hosts` and `probe_hosts` go through: the same hosts and the same jobs, each job with a
    host in the group. -/
structure Aligned (listed probed : List Host × List AuroraJobKey) : Prop where
  hosts : ∀ host, host ∈ listed.1 ↔ host ∈ probed.1
  jobs : listed.2.Perm probed.2
  distinct : listed.1.Nodup ∧ probed.1.Nodup
  placed : ∀ job ∈ probed.2, ∃ host, host ∈ vector.jobHosts probed.1 job
  occupied : probed.2 ≠ []

variable {vector percentage duration} {listed probed : List Host × List AuroraJobKey}

theorem Aligned.mem_jobHosts (aligned : Aligned vector listed probed) (job : AuroraJobKey) (host : Host) :
    host ∈ vector.jobHosts listed.1 job ↔ host ∈ vector.jobHosts probed.1 job := by
  simp only [jobHosts, List.mem_filter, aligned.hosts]

theorem Aligned.percentage_eq (aligned : Aligned vector listed probed) (job : AuroraJobKey) :
    (vector.limitFor duration listed.1 job).percentage =
      (vector.detailsFor percentage duration probed.1 job).predictedPercentage := by
  simp only [limitFor, detailsFor, simulateHostsDown, aligned.mem_jobHosts job]

theorem detailsFor_safe (hosts : List Host) (job : AuroraJobKey) :
    (vector.detailsFor percentage duration hosts job).safe = true ↔
      ¬ (vector.detailsFor percentage duration hosts job).predictedPercentage < percentage := by
  simp only [detailsFor, decide_eq_true_eq]

def probeGroup (vector : DomainUpTimeSlaVector Host) (percentage duration : ℚ)
    (group : List Host × List AuroraJobKey) : Dict Host (List JobUpTimeDetails) :=
  group.2.foldl (vector.probeJob percentage duration group.1) .empty

section Probe

variable {group : List Host × List AuroraJobKey} {host : Host}

theorem getD_probeGroup (distinct : group.1.Nodup) (host : Host) :
    ((vector.probeGroup percentage duration group).get? host).getD [] =
      (group.2.filter fun job => host ∈ vector.jobHosts group.1 job).map
        (vector.detailsFor percentage duration group.1) := by
  rw [probeGroup, foldl_probeJob, Dict.getD_foldl_file _ _ _ _ _ fun job => distinct.filter _]
  rfl

theorem mem_keys_probeGroup : host ∈ (vector.probeGroup percentage duration group).keys ↔
    ∃ job ∈ group.2, host ∈ vector.jobHosts group.1 job := by
  rw [probeGroup, foldl_probeJob, Dict.mem_keys_foldl_file]
  simp [Dict.keys, Dict.empty]

theorem mem_details (distinct : group.1.Nodup) {details : List JobUpTimeDetails}
    (known : (host, details) ∈ (vector.probeGroup percentage duration group).entries) (detail : JobUpTimeDetails) :
    detail ∈ details ↔ ∃ job ∈ group.2, host ∈ vector.jobHosts group.1 job ∧
      vector.detailsFor percentage duration group.1 job = detail := by
  have filed := @getD_probeGroup _ _ vector percentage duration group distinct host
  rw [(Dict.mem_entries _ _ _).mp known, Option.getD_some] at filed
  rw [filed]
  simp only [List.mem_map, List.mem_filter, decide_eq_true_eq, and_assoc]

end Probe

theorem Aligned.allSafe_iff (aligned : Aligned vector listed probed) :
    allSafe (vector.probeGroup percentage duration probed) = true ↔
      ¬ ∃ job ∈ listed.2, (vector.limitFor duration listed.1 job).percentage < percentage := by
  have every : (¬ ∃ job ∈ listed.2, (vector.limitFor duration listed.1 job).percentage < percentage) ↔
      ∀ job ∈ probed.2, (vector.detailsFor percentage duration probed.1 job).safe = true := by
    simp only [detailsFor_safe, ← aligned.percentage_eq, aligned.jobs.mem_iff, not_exists, not_and]
  rw [every]
  simp only [allSafe, List.all_eq_true, Prod.forall]
  constructor
  · intro safe job member
    obtain ⟨host, inside⟩ := aligned.placed job member
    have key : host ∈ (vector.probeGroup percentage duration probed).keys :=
      mem_keys_probeGroup.mpr ⟨job, member, inside⟩
    obtain ⟨⟨_, details⟩, filed, rfl⟩ := List.mem_map.mp key
    exact safe _ details filed _ ((mem_details aligned.distinct.2 filed _).mpr ⟨job, member, inside, rfl⟩)
  · intro safe host details filed detail member
    obtain ⟨job, listed, _, rfl⟩ := (mem_details aligned.distinct.2 filed detail).mp member
    exact safe job listed

/-- Of a group that both go through, either neither reports anything safe or both report the same. -/
theorem Aligned.report (aligned : Aligned vector listed probed) :
    (vector.safeGroup percentage duration .empty listed.1 listed.2 = none ∧
        (if (vector.probeGroup percentage duration probed).entries = [] then none
          else some (vector.probeGroup percentage duration probed)).filter allSafe = none) ∨
      ∃ safe report, vector.safeGroup percentage duration .empty listed.1 listed.2 = some safe ∧
        (if (vector.probeGroup percentage duration probed).entries = [] then none
          else some (vector.probeGroup percentage duration probed)).filter allSafe = some report ∧
        SameReport safe report := by
  have some_host : (vector.probeGroup percentage duration probed).entries ≠ [] := by
    obtain ⟨job, member⟩ := List.exists_mem_of_ne_nil _ aligned.occupied
    obtain ⟨host, inside⟩ := aligned.placed job member
    have key : host ∈ (vector.probeGroup percentage duration probed).keys :=
      mem_keys_probeGroup.mpr ⟨job, member, inside⟩
    intro none_filed
    rw [Dict.keys, none_filed] at key
    cases key
  have decides := @Aligned.allSafe_iff _ _ _ percentage duration _ _ aligned
  rw [if_neg some_host, safeGroup_eq, Option.filter_some]
  by_cases missed : ∃ job ∈ listed.2, (vector.limitFor duration listed.1 job).percentage < percentage
  · left
    have violated : allSafe (vector.probeGroup percentage duration probed) = false :=
      Bool.eq_false_iff.mpr fun safe => decides.mp safe missed
    exact ⟨if_pos missed, if_neg (by simp [violated])⟩
  · right
    refine ⟨_, _, if_neg missed, if_pos (decides.mpr missed), ?_, ?_⟩
    · intro host
      rw [Dict.mem_keys_foldl_file, mem_keys_probeGroup]
      simp only [aligned.mem_jobHosts, aligned.jobs.mem_iff]
      simp [Dict.keys, Dict.empty]
    · intro host
      rw [getD_probeGroup aligned.distinct.2, Dict.getD_foldl_file _ _ _ _ _ fun job => aligned.distinct.1.filter _]
      simp only [Dict.get?_empty, Option.getD_none, List.nil_append, List.map_map, aligned.mem_jobHosts]
      have same : (fun limit : JobUpTimeLimit => (limit.job, limit.percentage)) ∘ vector.limitFor duration listed.1 =
          (fun details : JobUpTimeDetails => (details.job, details.predictedPercentage)) ∘
            vector.detailsFor percentage duration probed.1 := by
        funext job
        exact Prod.ext rfl (@Aligned.percentage_eq _ _ _ percentage duration _ _ aligned job)
      rw [same]
      exact (aligned.jobs.filter _).map _

end Groups

section Agreement

variable {Host κ : Type} [DecidableEq Host] [LinearOrder κ] {cluster : String} {now : ℚ}
  {tasks : List (ScheduledTask Host)} {count : Int} {hostFilter : List Host} {groupingFunction : Host → κ}

theorem nodup_foldl_union {α β : Type} [DecidableEq β] (f : α → List β) (distinct : ∀ item, (f item).Nodup)
    (items : List α) (start : List β) (fresh : start.Nodup) :
    (items.foldl (fun found item => found ∪ f item) start).Nodup := by
  induction items generalizing start with
  | nil => exact fresh
  | cons item rest ih => exact ih _ ((distinct item).union start)

theorem mem_group {hosts group : List Host} {key : κ} (filed : (key, group) ∈ (groupHosts hosts groupingFunction).entries) :
    (∀ host, host ∈ group ↔ groupingFunction host = key ∧ host ∈ hosts) ∧ group.Nodup := by
  have known : (Dict.collect groupingFunction id hosts).get? key = some group := (Dict.mem_entries _ _ _).mp filed
  have distinct := Dict.nodup_collect groupingFunction id hosts key
  rw [known, Option.getD_some] at distinct
  refine ⟨fun host => ?_, distinct⟩
  have collected := Dict.mem_collect groupingFunction hosts id key host
  rw [known, Option.getD_some] at collected
  rw [collected]
  constructor
  · rintro ⟨other, member, same, rfl⟩
    exact ⟨same, member⟩
  · rintro ⟨same, member⟩
    exact ⟨host, member, same, rfl⟩

theorem mem_keys_groupHosts {hosts : List Host} (key : κ) :
    key ∈ (groupHosts hosts groupingFunction).keys ↔ ∃ host ∈ hosts, groupingFunction host = key :=
  Dict.mem_keys_gather groupingFunction (fun values item => values.insert (id item)) hosts key

/-- Where the filter is made of the tracked hosts, both methods go through the same groups. -/
theorem aligned_groups (full : ∀ host, host ∈ hostFilter ↔ ∃ job, RunsOn cluster tasks count job host) :
    List.Forall₂ (Aligned (initMappings cluster now tasks count hostFilter))
      ((initMappings cluster now tasks count hostFilter).iterGroups
        (initMappings cluster now tasks count hostFilter).jobsByHost.keys groupingFunction hostFilter)
      ((initMappings cluster now tasks count hostFilter).iterGroups hostFilter groupingFunction []) := by
  rw [iterGroups, iterGroups, List.forall₂_map_left_iff, List.forall₂_map_right_iff]
  have tracked := mem_trackedHosts cluster now tasks count hostFilter
  refine Dict.forall₂_sorted _ _ ?_ ?_
  · intro key
    simp only [mem_keys_groupHosts, tracked, full]
  · intro key group group' filed filed'
    have grouped := groupOf_entry cluster now tasks count hostFilter groupingFunction filed rfl
    obtain ⟨-, distinct⟩ := mem_group filed
    obtain ⟨members, distinct'⟩ := mem_group filed'
    have jobs_distinct : ∀ host, (((initMappings cluster now tasks count hostFilter).jobsByHost.get? host).getD []).Nodup :=
      Dict.nodup_collect Prod.snd Prod.fst _
    have jobs : ∀ job, job ∈ (group'.filter fun host => ([] : List Host) = [] || hostFilter.contains host).foldl
          (fun jobKeys host => jobKeys ∪
            ((initMappings cluster now tasks count hostFilter).jobsByHost.get? host).getD []) [] ↔
        ∃ host ∈ group', RunsOn cluster tasks count job host := by
      intro job
      rw [mem_foldl_union]
      simp only [List.not_mem_nil, false_or, decide_true, Bool.true_or, List.filter_true, mem_jobsByHost]
    refine ⟨?_, ?_, ⟨distinct, distinct'⟩, ?_, ?_⟩
    · intro host
      rw [grouped.hosts, members, full]
    · refine (List.perm_ext_iff_of_nodup (nodup_foldl_union _ jobs_distinct _ [] List.nodup_nil)
        (nodup_foldl_union _ jobs_distinct _ [] List.nodup_nil)).mpr fun job => ?_
      refine (grouped.jobs job).trans (Iff.trans ?_ (jobs job).symm)
      constructor
      · rintro ⟨host, same, -, runs⟩
        exact ⟨host, (members host).mpr ⟨same, (full host).mpr ⟨job, runs⟩⟩, runs⟩
      · rintro ⟨host, member, runs⟩
        obtain ⟨same, admitted⟩ := (members host).mp member
        exact ⟨host, same, .inr admitted, runs⟩
    · intro job listed
      obtain ⟨host, member, runs⟩ := (jobs job).mp listed
      exact ⟨host, List.mem_filter.mpr ⟨member, decide_eq_true
        ((mem_hostsByJob cluster now tasks count hostFilter job host).mpr runs)⟩⟩
    · obtain ⟨host, member, same⟩ := (mem_keys_groupHosts key).mp (List.mem_map_of_mem filed')
      obtain ⟨job, runs⟩ := (full host).mp member
      exact List.ne_nil_of_mem ((jobs job).mpr ⟨host, (members host).mpr ⟨same, member⟩, runs⟩)

def remainingTasks (cluster : String) (tasks : List (ScheduledTask Host)) (count : Int) (hostFilter : List Host)
    (groupingFunction : Host → κ) (host : Host) (job : AuroraJobKey) : List (ScheduledTask Host) :=
  (trackedTasks cluster tasks count job).filter fun task =>
    ¬ (groupingFunction task.slaveHost = groupingFunction host ∧ task.slaveHost ∈ hostFilter)

theorem simulate_probed {key : κ} {group : List Host} (filed : (key, group) ∈ (groupHosts hostFilter groupingFunction).entries)
    {host : Host} (same : groupingFunction host = key) (job : AuroraJobKey) (duration : ℚ) :
    (initMappings cluster now tasks count hostFilter).simulateHostsDown job
        ((initMappings cluster now tasks count hostFilter).jobHosts group job) duration =
      (getTaskUpCount (remainingTasks cluster tasks count hostFilter groupingFunction host job) now duration
          (some (trackedTasks cluster tasks count job).length),
        (trackedTasks cluster tasks count job).length,
        remainingTasks cluster tasks count hostFilter groupingFunction host job) := by
  obtain ⟨members, -⟩ := mem_group filed
  have remaining : ((trackedTasks cluster tasks count job).filter fun task =>
      task.slaveHost ∉ (initMappings cluster now tasks count hostFilter).jobHosts group job) =
        remainingTasks cluster tasks count hostFilter groupingFunction host job := by
    refine List.filter_congr fun task listed => ?_
    have runs := (mem_hostsByJob cluster now tasks count hostFilter job task.slaveHost).mpr ⟨task, listed, rfl⟩
    simp [jobHosts, List.mem_filter, members, same, runs]
  simp only [simulateHostsDown, tasksByJob_init, remaining]
  rfl

theorem probed_details {percentage duration : ℚ} {probed : Dict Host (List JobUpTimeDetails)}
    (member : probed ∈ (initMappings cluster now tasks count hostFilter).probeHosts percentage duration groupingFunction)
    {host : Host} {details : List JobUpTimeDetails} (filed : (host, details) ∈ probed.entries)
    {detail : JobUpTimeDetails} (reported : detail ∈ details) (violated : detail.safe = false) :
    getTaskUpCount (remainingTasks cluster tasks count hostFilter groupingFunction host detail.job) now duration
        (some (trackedTasks cluster tasks count detail.job).length) < percentage ∧
      detail.safeInSecs = getWaitTimeToSla
        (remainingTasks cluster tasks count hostFilter groupingFunction host detail.job) now percentage duration
        (some (trackedTasks cluster tasks count detail.job).length) := by
  obtain ⟨group, iterated, found⟩ := List.mem_filterMap.mp member
  change (if ((initMappings cluster now tasks count hostFilter).probeGroup percentage duration group).entries = [] then none
    else some ((initMappings cluster now tasks count hostFilter).probeGroup percentage duration group)) = some probed
    at found
  split at found
  · cases found
  · cases found
    obtain ⟨⟨key, hosts⟩, sorted, rfl⟩ := List.mem_map.mp iterated
    have grouped : (key, hosts) ∈ (groupHosts hostFilter groupingFunction).entries := (List.mem_insertionSort _).mp sorted
    obtain ⟨members, distinct⟩ := mem_group grouped
    obtain ⟨job, -, inside, rfl⟩ := (mem_details distinct filed detail).mp reported
    have same := ((members host).mp (List.mem_filter.mp inside).1).1
    simp only [detailsFor, simulate_probed grouped same, decide_eq_false_iff_not, not_not] at violated ⊢
    exact ⟨violated, if_neg (not_not.mpr violated)⟩

end Agreement

end DomainUpTimeSlaVector

section Report

open DomainUpTimeSlaVector

variable {Host κ : Type} [DecidableEq Host] [LinearOrder κ] (cluster : String) (now : ℚ)
  (tasks : List (ScheduledTask Host)) (count : Int) (hostFilter : List Host) (percentage duration : ℚ)
  (groupingFunction : Host → κ)

/-- Without overrides, and with a filter made of the hosts that run tracked jobs, the listed groups are the probed
    groups in which all is safe; and whatever the filter, a job that is not safe meets the percentage once its
    remaining tasks have been up for the predicted wait longer. -/
theorem listing_agrees_with_probing :
    ((∀ host, host ∈ hostFilter ↔ ∃ job, RunsOn cluster tasks count job host) →
      List.Forall₂ SameReport
        ((initMappings cluster now tasks count hostFilter).getSafeHosts percentage duration .empty groupingFunction)
        (((initMappings cluster now tasks count hostFilter).probeHosts percentage duration groupingFunction).filter
          allSafe)) ∧
    ∀ probed ∈ (initMappings cluster now tasks count hostFilter).probeHosts percentage duration groupingFunction,
      ∀ host details, (host, details) ∈ probed.entries → ∀ detail ∈ details, detail.safe = false →
        ∀ wait, detail.safeInSecs = some wait →
          percentage ≤ increasedUpCount
              (remainingTasks cluster tasks count hostFilter groupingFunction host detail.job) now duration
              (some (trackedTasks cluster tasks count detail.job).length) wait ∧
            ((∃ seconds : Int, duration = seconds) → percentage ≤ getTaskUpCount
              (remainingTasks cluster tasks count hostFilter groupingFunction host detail.job) (now + wait) duration
              (some (trackedTasks cluster tasks count detail.job).length)) := by
  constructor
  · intro full
    rw [probeHosts, List.filter_filterMap]
    exact forall₂_filterMap (aligned_groups full) fun listed probed aligned => aligned.report
  · intro probed member host details filed detail reported violated wait predicted
    obtain ⟨missed, waits⟩ := probed_details member filed reported violated
    exact percentage_after_wait _ now duration (List.length_filter_le ..) missed (waits ▸ predicted)

end Report

theorem listing_agrees_rack :
    List.Forall₂ SameReport
      ((DomainUpTimeSlaVector.initMappings "cluster" 1000 rackTasks 2 ["rack0-a", "rack0-b", "rack1-a"]).getSafeHosts
        50 60 .empty rackOf)
      (((DomainUpTimeSlaVector.initMappings "cluster" 1000 rackTasks 2 ["rack0-a", "rack0-b", "rack1-a"]).probeHosts
        50 60 rackOf).filter allSafe) := by
  refine (listing_agrees_with_probing "cluster" 1000 rackTasks 2 _ 50 60 rackOf).1 fun host => ?_
  have tracked : (DomainUpTimeSlaVector.initMappings "cluster" 1000 rackTasks 2 []).jobsByHost.keys =
      ["rack0-a", "rack0-b", "rack1-a"] := by decide +kernel
  rw [← DomainUpTimeSlaVector.mem_trackedHosts "cluster" 1000 rackTasks 2 [], tracked]

end Aurora.Client
