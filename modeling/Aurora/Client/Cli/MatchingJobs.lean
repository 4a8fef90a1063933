import Aurora.Common.AuroraJobKey
import Aurora.Library.Glob
import Aurora.Library.Replay
import Mathlib.Data.List.Nodup

namespace Aurora.Client.Cli

open PyText Glob Replay Aurora.Common

structure PartialJobKey where
  cluster : Text
  role : Text
  env : Text
  name : Text

section Context

variable (alnum : Char → Bool)

/-- The clusters that are configured, and the jobs of each, in the order in which its scheduler lists them. -/
structure Fleet where
  clusters : List Text
  configs : Text → List (Common.JobKey Text)
  clusters_nodup : clusters.Nodup
  configs_nodup : ∀ cluster, (configs cluster).Nodup
  /-- No scheduler takes a job whose key is none. -/
  valid : ∀ cluster, ∀ job ∈ configs cluster, validIdentifier alnum job.role = true ∧
    validIdentifier alnum job.environment = true ∧ validIdentifier alnum job.name = true

inductive MatchingError
  /-- EXIT_INVALID_CONFIGURATION, 'Unknown cluster: ...' -/
  | unknownCluster (cluster : Text)
  | invalidIdentifier (invalid : InvalidIdentifier)
  /-- `re.error` -/
  | badRange (bad : BadRange)
  deriving DecidableEq, Repr

def Fleet.getJobs {alnum : Char → Bool} (fleet : Fleet alnum) (cluster : Text) (role : Option Text) :
    List (Common.JobKey Text) :=
  (fleet.configs cluster).filter fun job => role.all (job.role = ·)

namespace AuroraCommandContext

variable {alnum} (fleet : Fleet alnum) (key : PartialJobKey)

def newJobKey (cluster role env name : Text) : Except MatchingError (Common.ValidJobKey alnum) :=
  (Common.AuroraJobKey.create alnum cluster role env name).mapError .invalidIdentifier

def clusterJobs (role : Option Text) (cluster : Text) : Except MatchingError (List (Common.ValidJobKey alnum)) :=
  if fleet.clusters.contains cluster then
    (fleet.getJobs cluster role).mapM fun job => newJobKey cluster job.role job.environment job.name
  else .error (.unknownCluster cluster)

def getJobList (clusters : List Text) (role : Text) : Except MatchingError (List (Common.ValidJobKey alnum)) :=
  let role := if '*' ∈ role then none else some role
  (clusters.mapM (clusterJobs fleet role)).map List.flatten

def isFullyBound : Bool := !([key.cluster, key.role, key.env, key.name].any ('*' ∈ ·))

def fnmatch (name pattern : Text) : Except MatchingError Bool := (Glob.fnmatch name pattern).mapError .badRange

def selects (role env name : Text) (job : Common.ValidJobKey alnum) : Except MatchingError Bool := do
  if ← fnmatch job.role.1 role then
    if ← fnmatch job.env.1 env then fnmatch job.name.1 name
    else return false
  else return false

def filterJobList (role env name : Text) :
    List (Common.ValidJobKey alnum) → Except MatchingError (List (Common.ValidJobKey alnum))
  | [] => .ok []
  | job :: jobs => do
    let selected ← selects role env name job
    let rest ← filterJobList role env name jobs
    return if selected then job :: rest else rest

def getJobsMatchingKey : Except MatchingError (List (Common.ValidJobKey alnum)) :=
  let clustersToSearch := if key.cluster = ['*'] then fleet.clusters else [key.cluster]
  if isFullyBound key then (newJobKey key.cluster key.role key.env key.name).map fun job => [job]
  else do
    let jobs ← getJobList fleet clustersToSearch key.role
    filterJobList key.role key.env key.name jobs

end AuroraCommandContext

section Keys

variable {alnum : Char → Bool} {job other : Common.ValidJobKey alnum} {cluster role env name : Text}

theorem assertValidIdentifier_ok {field : String} {text : Text} {identifier : Identifier alnum} :
    assertValidIdentifier alnum field text = .ok identifier ↔ identifier.1 = text := by
  rw [assertValidIdentifier]
  split
  · rename_i valid
    exact ⟨fun same => Except.ok.inj same ▸ rfl, fun same => congrArg Except.ok (Subtype.ext same.symm)⟩
  · rename_i invalid
    exact ⟨nofun, fun same => absurd (same ▸ identifier.2) invalid⟩

def schedulerKey (job : Common.ValidJobKey alnum) : Common.JobKey Text := ⟨job.role.1, job.env.1, job.name.1⟩

theorem key_ext (clusters : job.cluster = other.cluster) (keys : schedulerKey job = schedulerKey other) :
    job = other := by
  obtain ⟨_, _, _, _⟩ := job
  obtain ⟨_, _, _, _⟩ := other
  simp only [schedulerKey, Common.JobKey.mk.injEq] at clusters keys
  simp [clusters, Subtype.ext_iff, keys]

theorem create_ok : Common.AuroraJobKey.create alnum cluster role env name = .ok job ↔
    job.cluster = cluster ∧ schedulerKey job = ⟨role, env, name⟩ := by
  simp only [Common.AuroraJobKey.create, bind_eq_ok, assertValidIdentifier_ok, schedulerKey, Common.JobKey.mk.injEq]
  constructor
  · rintro ⟨role, rfl, env, rfl, name, rfl, made⟩
    cases made
    exact ⟨rfl, rfl, rfl, rfl⟩
  · rintro ⟨rfl, rfl, rfl, rfl⟩
    exact ⟨job.role, rfl, job.env, rfl, job.name, rfl, rfl⟩

end Keys

namespace AuroraCommandContext

section Search

variable {alnum : Char → Bool} {fleet : Fleet alnum} {job : Common.ValidJobKey alnum} {cluster role env name : Text}

theorem newJobKey_ok : newJobKey cluster role env name = .ok job ↔
    job.cluster = cluster ∧ schedulerKey job = ⟨role, env, name⟩ := by
  rw [newJobKey, mapError_eq_ok, create_ok]

theorem mapM_newJobKey {configs : List (Common.JobKey Text)}
    (valid : ∀ config ∈ configs, validIdentifier alnum config.role = true ∧
      validIdentifier alnum config.environment = true ∧ validIdentifier alnum config.name = true) :
    ∃ jobs : List (Common.ValidJobKey alnum),
      configs.mapM (fun config => newJobKey cluster config.role config.environment config.name) = .ok jobs ∧
        jobs.map schedulerKey = configs ∧ ∀ job ∈ jobs, job.cluster = cluster := by
  induction configs with
  | nil => exact ⟨[], rfl, rfl, by simp⟩
  | cons config configs ih =>
    rw [List.forall_mem_cons] at valid
    obtain ⟨⟨role_valid, env_valid, name_valid⟩, valid⟩ := valid
    obtain ⟨jobs, made, keys, clusters⟩ := ih valid
    let job : Common.ValidJobKey alnum := ⟨cluster, ⟨_, role_valid⟩, ⟨_, env_valid⟩, ⟨_, name_valid⟩⟩
    have created : newJobKey cluster config.role config.environment config.name = .ok job := newJobKey_ok.mpr ⟨rfl, rfl⟩
    refine ⟨job :: jobs, ?_, by rw [List.map_cons, keys]; rfl, by simpa [job] using clusters⟩
    rw [List.mapM_cons, created, made]
    rfl

/-- A job that its cluster's scheduler lists. -/
def Known (fleet : Fleet alnum) (job : Common.ValidJobKey alnum) : Prop :=
  job.cluster ∈ fleet.clusters ∧ schedulerKey job ∈ fleet.configs job.cluster

theorem clusterJobs_ok (role : Option Text) (known : cluster ∈ fleet.clusters) :
    ∃ jobs, clusterJobs fleet role cluster = .ok jobs ∧ jobs.Nodup ∧
      ∀ job, job ∈ jobs ↔ job.cluster = cluster ∧ Known fleet job ∧ role.all (job.role.1 = ·) = true := by
  have valid : ∀ config ∈ fleet.getJobs cluster role, validIdentifier alnum config.role = true ∧
      validIdentifier alnum config.environment = true ∧ validIdentifier alnum config.name = true :=
    fun config mem => fleet.valid cluster config (List.mem_filter.mp mem).1
  obtain ⟨jobs, made, keys, clusters⟩ := @mapM_newJobKey alnum cluster _ valid
  have nodup : (jobs.map schedulerKey).Nodup := keys ▸ (fleet.configs_nodup cluster).filter _
  refine ⟨jobs, by rw [clusterJobs, if_pos (List.contains_iff_mem.mpr known), made],
    List.Nodup.of_map schedulerKey nodup, fun job => ?_⟩
  have listed : schedulerKey job ∈ jobs.map schedulerKey ↔
      schedulerKey job ∈ fleet.configs cluster ∧ role.all (job.role.1 = ·) = true := by
    rw [keys, Fleet.getJobs, List.mem_filter]
    rfl
  constructor
  · intro mem
    obtain ⟨config, asked⟩ := listed.mp (List.mem_map_of_mem mem)
    obtain rfl := clusters job mem
    exact ⟨rfl, ⟨known, config⟩, asked⟩
  · rintro ⟨rfl, ⟨-, config⟩, asked⟩
    obtain ⟨job', mem, same⟩ := List.mem_map.mp (listed.mpr ⟨config, asked⟩)
    exact key_ext (clusters job' mem) same ▸ mem

theorem clustersJobs_ok {clusters : List Text} (known : ∀ cluster ∈ clusters, cluster ∈ fleet.clusters)
    (nodup : clusters.Nodup) (role : Option Text) :
    ∃ lists, clusters.mapM (clusterJobs fleet role) = .ok lists ∧ lists.flatten.Nodup ∧
      ∀ job, job ∈ lists.flatten ↔ job.cluster ∈ clusters ∧ Known fleet job ∧ role.all (job.role.1 = ·) = true := by
  induction clusters with
  | nil => exact ⟨[], rfl, List.nodup_nil, by simp⟩
  | cons cluster clusters ih =>
    rw [List.forall_mem_cons] at known
    rw [List.nodup_cons] at nodup
    obtain ⟨jobs, made, jobs_nodup, mem_jobs⟩ := clusterJobs_ok role known.1
    obtain ⟨lists, others_made, others_nodup, mem_others⟩ := ih known.2 nodup.2
    refine ⟨jobs :: lists, ?_, ?_, fun job => ?_⟩
    · rw [List.mapM_cons, made, others_made]
      rfl
    · rw [List.flatten_cons]
      refine List.Nodup.append jobs_nodup others_nodup fun job mem mem' => nodup.1 ?_
      rw [← ((mem_jobs job).mp mem).1]
      exact ((mem_others job).mp mem').1
    · rw [List.flatten_cons, List.mem_append, mem_jobs, mem_others, List.mem_cons, or_and_right]

theorem getJobList_ok {clusters : List Text} (known : ∀ cluster ∈ clusters, cluster ∈ fleet.clusters)
    (nodup : clusters.Nodup)
    (role : Text) :
    ∃ jobs, getJobList fleet clusters role = .ok jobs ∧ jobs.Nodup ∧
      ∀ job, job ∈ jobs ↔ job.cluster ∈ clusters ∧ Known fleet job ∧ ('*' ∈ role ∨ job.role.1 = role) := by
  obtain ⟨lists, made, lists_nodup, mem_lists⟩ := clustersJobs_ok known nodup (if '*' ∈ role then none else some role)
  refine ⟨lists.flatten, by rw [getJobList, made]; rfl, lists_nodup, fun job => ?_⟩
  rw [mem_lists]
  split <;> simp_all

theorem filterJobList_ok {jobs found : List (Common.ValidJobKey alnum)} :
    filterJobList role env name jobs = .ok found ↔
      (∀ job ∈ jobs, ∃ selected, selects role env name job = .ok selected) ∧
        found = jobs.filter fun job => selects role env name job = .ok true := by
  induction jobs generalizing found with
  | nil => simp [filterJobList, eq_comm]
  | cons job jobs ih =>
    simp only [filterJobList, bind_eq_ok, ih, List.forall_mem_cons]
    constructor
    · rintro ⟨selected, chosen, rest, ⟨all, rfl⟩, made⟩
      refine ⟨⟨⟨selected, chosen⟩, all⟩, ?_⟩
      cases selected <;> cases made <;> simp [chosen]
    · rintro ⟨⟨⟨selected, chosen⟩, all⟩, rfl⟩
      refine ⟨selected, chosen, _, ⟨all, rfl⟩, ?_⟩
      cases selected <;> simp [chosen] <;> rfl

theorem selects_ok : selects role env name job = .ok true ↔
    Glob.fnmatch job.role.1 role = .ok true ∧ Glob.fnmatch job.env.1 env = .ok true ∧
      Glob.fnmatch job.name.1 name = .ok true := by
  simp only [selects, bind_eq_ok, fnmatch, mapError_eq_ok]
  constructor
  · rintro ⟨role_matches, role_is, later⟩
    cases role_matches with
    | false => cases later
    | true =>
      obtain ⟨env_matches, env_is, later⟩ := bind_eq_ok.mp later
      cases env_matches with
      | false => cases later
      | true => exact ⟨role_is, mapError_eq_ok.mp env_is, mapError_eq_ok.mp later⟩
  · rintro ⟨role_is, env_is, name_is⟩
    exact ⟨true, role_is, bind_eq_ok.mpr ⟨true, mapError_eq_ok.mpr env_is, mapError_eq_ok.mpr name_is⟩⟩

end Search

section Answers

variable {alnum : Char → Bool} (fleet : Fleet alnum) (key : PartialJobKey)

/-- No component of the key has any wildcard. -/
def Plain : Prop := ∀ component ∈ [key.cluster, key.role, key.env, key.name], Literal component

def Is (job : Common.ValidJobKey alnum) : Prop :=
  job.cluster = key.cluster ∧ schedulerKey job = ⟨key.role, key.env, key.name⟩

/-- Each component of the job matches that of the key. -/
def Matches (job : Common.ValidJobKey alnum) : Prop :=
  Glob.fnmatch job.cluster key.cluster = .ok true ∧ Glob.fnmatch job.role.1 key.role = .ok true ∧
    Glob.fnmatch job.env.1 key.env = .ok true ∧ Glob.fnmatch job.name.1 key.name = .ok true

/-- A key without wildcards gives itself, any other one the jobs that match it, each once. -/
def Answers : Prop :=
  ∃ jobs, getJobsMatchingKey fleet key = .ok jobs ∧ (Plain key → ∃ job, Is key job ∧ jobs = [job]) ∧
    (¬ Plain key → jobs.Nodup ∧ ∀ job, job ∈ jobs ↔ Known fleet job ∧ Matches key job)

def Asked (job : Common.ValidJobKey alnum) : Prop :=
  (key.cluster = ['*'] ∨ job.cluster = key.cluster) ∧ ('*' ∈ key.role ∨ job.role.1 = key.role)

/-- A key without a star is that of a job, and if it has another wildcard then it is that of the one job that
    matches it; one with a star names a cluster or stands for all of them, its patterns can be compiled as far
    as they are used, and of the known jobs that match in all else, those that are asked for are those that
    match in the cluster. -/
def Suits : Prop :=
  if isFullyBound key then
    (∃ job : Common.ValidJobKey alnum, Is key job) ∧
      (Plain key ∨ ∀ job, Known fleet job ∧ Matches key job ↔ Is key job)
  else
    (key.cluster = ['*'] ∨ key.cluster ∈ fleet.clusters) ∧
      (∀ job, Known fleet job → Asked key job → ∃ selected, selects key.role key.env key.name job = .ok selected) ∧
      ∀ job, Known fleet job → selects key.role key.env key.name job = .ok true →
        (Asked key job ↔ Glob.fnmatch job.cluster key.cluster = .ok true)

variable {fleet key} {job : Common.ValidJobKey alnum}

theorem fullyBound_of_plain (plain : Plain key) : isFullyBound key = true := by
  rw [isFullyBound, Bool.not_eq_true', List.any_eq_false]
  intro component mem
  simpa using (plain component mem).no_star

theorem matches_iff : Matches key job ↔
    Glob.fnmatch job.cluster key.cluster = .ok true ∧ selects key.role key.env key.name job = .ok true := by
  rw [Matches, selects_ok]

theorem is_unique {other : Common.ValidJobKey alnum} (is : Is key job) (is' : Is key other) : job = other :=
  key_ext (is.1.trans is'.1.symm) (is.2.trans is'.2.symm)

theorem bound_ok (bound : isFullyBound key = true) {jobs : List (Common.ValidJobKey alnum)} :
    getJobsMatchingKey fleet key = .ok jobs ↔ ∃ job, Is key job ∧ jobs = [job] := by
  rw [getJobsMatchingKey, if_pos bound]
  constructor
  · intro found
    cases made : @newJobKey alnum key.cluster key.role key.env key.name with
    | error e =>
      rw [made] at found
      cases found
    | ok job =>
      rw [made] at found
      exact ⟨job, newJobKey_ok.mp made, (Except.ok.inj found).symm⟩
  · rintro ⟨job, is, rfl⟩
    rw [newJobKey_ok.mpr is]
    rfl

theorem answers_of_bound (bound : isFullyBound key = true) : Answers fleet key ↔ Suits fleet key := by
  rw [Answers, Suits, if_pos bound]
  constructor
  · rintro ⟨jobs, found, itself, exactly⟩
    obtain ⟨job, is, rfl⟩ := (bound_ok bound).mp found
    refine ⟨⟨job, is⟩, ?_⟩
    by_cases plain : Plain key
    · exact .inl plain
    · refine .inr fun other => ?_
      rw [← (exactly plain).2 other, List.mem_singleton]
      exact ⟨fun same => same ▸ is, fun is' => is_unique is' is⟩
  · rintro ⟨⟨job, is⟩, plain_or_alone⟩
    refine ⟨[job], (bound_ok bound).mpr ⟨job, is, rfl⟩, fun _ => ⟨job, is, rfl⟩, fun not_plain => ?_⟩
    refine ⟨List.nodup_singleton job, fun other => ?_⟩
    rw [List.mem_singleton, plain_or_alone.resolve_left not_plain other]
    exact ⟨fun same => same ▸ is, fun is' => is_unique is' is⟩

theorem search_ok (not_bound : isFullyBound key = false) (named : key.cluster = ['*'] ∨ key.cluster ∈ fleet.clusters) :
    ∃ listed : List (Common.ValidJobKey alnum), listed.Nodup ∧
      (∀ job, job ∈ listed ↔ Known fleet job ∧ Asked key job) ∧
      getJobsMatchingKey fleet key = filterJobList key.role key.env key.name listed := by
  have unfolded : getJobsMatchingKey fleet key =
      getJobList fleet (if key.cluster = ['*'] then fleet.clusters else [key.cluster]) key.role >>=
        filterJobList key.role key.env key.name := by
    rw [getJobsMatchingKey, if_neg (by simp [not_bound])]
  by_cases star : key.cluster = ['*']
  · obtain ⟨listed, got, nodup, mem⟩ :=
      getJobList_ok (fun _ (known : _ ∈ fleet.clusters) => known) fleet.clusters_nodup key.role
    refine ⟨listed, nodup, fun job => ?_, by rw [unfolded, if_pos star, got]; rfl⟩
    rw [mem]
    exact ⟨fun ⟨_, known, asked⟩ => ⟨known, .inl star, asked⟩, fun ⟨known, _, asked⟩ => ⟨known.1, known, asked⟩⟩
  · have known := named.resolve_left star
    obtain ⟨listed, got, nodup, mem⟩ := @getJobList_ok _ fleet [key.cluster]
      (fun cluster mem => List.mem_singleton.mp mem ▸ known) (List.nodup_singleton _) key.role
    refine ⟨listed, nodup, fun job => ?_, by rw [unfolded, if_neg star, got]; rfl⟩
    rw [mem, List.mem_singleton]
    exact ⟨fun ⟨same, known, asked⟩ => ⟨known, .inr same, asked⟩,
      fun ⟨known, same, asked⟩ => ⟨same.resolve_left star, known, asked⟩⟩

theorem named_of_ok (not_bound : isFullyBound key = false) {jobs : List (Common.ValidJobKey alnum)}
    (found : getJobsMatchingKey fleet key = .ok jobs) : key.cluster = ['*'] ∨ key.cluster ∈ fleet.clusters := by
  by_contra unnamed
  rw [not_or, ← List.contains_iff_mem] at unnamed
  rw [getJobsMatchingKey, if_neg (by simp [not_bound]), if_neg unnamed.1, getJobList, List.mapM_cons, clusterJobs,
    if_neg unnamed.2] at found
  cases found

theorem answers_of_not_bound (not_bound : isFullyBound key = false) : Answers fleet key ↔ Suits fleet key := by
  have not_plain : ¬ Plain key := by
    intro plain
    rw [fullyBound_of_plain plain] at not_bound
    cases not_bound
  rw [Answers, Suits, if_neg (by simp [not_bound])]
  constructor
  · rintro ⟨jobs, found, -, exactly⟩
    have named := named_of_ok not_bound found
    obtain ⟨listed, -, mem_listed, search⟩ := @search_ok _ fleet key not_bound named
    obtain ⟨compiles, rfl⟩ := filterJobList_ok.mp (search ▸ found)
    refine ⟨named, fun job known asked => compiles job ((mem_listed job).mpr ⟨known, asked⟩),
      fun job known selected => ?_⟩
    have same := (exactly not_plain).2 job
    rw [List.mem_filter, mem_listed, matches_iff] at same
    simp only [selected, decide_true, and_true] at same
    exact ⟨fun asked => (same.mp ⟨known, asked⟩).2, fun in_cluster => (same.mpr ⟨known, in_cluster⟩).2⟩
  · rintro ⟨named, compiles, agree⟩
    obtain ⟨listed, nodup, mem_listed, search⟩ := @search_ok _ fleet key not_bound named
    have all : ∀ job ∈ listed, ∃ selected, selects key.role key.env key.name job = .ok selected := fun job mem =>
      have ⟨known, asked⟩ := (mem_listed job).mp mem
      compiles job known asked
    refine ⟨_, search.trans (filterJobList_ok.mpr ⟨all, rfl⟩), fun plain => absurd plain not_plain, fun _ => ?_⟩
    refine ⟨nodup.filter _, fun job => ?_⟩
    rw [List.mem_filter, mem_listed, matches_iff, decide_eq_true_eq]
    constructor
    · rintro ⟨⟨known, asked⟩, selected⟩
      exact ⟨known, (agree job known selected).mp asked, selected⟩
    · rintro ⟨known, in_cluster, selected⟩
      exact ⟨⟨known, (agree job known selected).mpr in_cluster⟩, selected⟩

theorem answers_iff (fleet : Fleet alnum) (key : PartialJobKey) : Answers fleet key ↔ Suits fleet key := by
  cases bound : isFullyBound key with
  | true => exact answers_of_bound bound
  | false => exact answers_of_not_bound bound

def westFleet : Fleet fun _ => false where
  clusters := ["west".toList]
  configs cluster := if cluster = "west".toList then [⟨"bozo".toList, "test".toList, "hello".toList⟩] else []
  clusters_nodup := List.nodup_singleton _
  configs_nodup cluster := by split <;> simp
  valid cluster := by
    split
    · rw [List.forall_mem_singleton]
      decide
    · simp

/-- The role is asked for as it stands, although a question mark is a wildcard of the filter. -/
theorem misses_role : ∃ job, Known westFleet job ∧
    Matches ⟨"west".toList, "bo?o".toList, "test".toList, "*".toList⟩ job ∧
    getJobsMatchingKey westFleet ⟨"west".toList, "bo?o".toList, "test".toList, "*".toList⟩ = .ok [] :=
  ⟨⟨"west".toList, ⟨"bozo".toList, by decide⟩, ⟨"test".toList, by decide⟩, ⟨"hello".toList, by decide⟩⟩,
    ⟨by decide, by decide⟩, ⟨by decide, by decide, by decide, by decide⟩, by decide⟩

end Answers

end AuroraCommandContext

end Context

end Aurora.Client.Cli
