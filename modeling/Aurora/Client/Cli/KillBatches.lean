import Aurora.Client.Cli.Jobs
import Aurora.Library.Replay

namespace Aurora.Client.Cli

open Replay AbstractKillCommand

/-- The instance was in a batch that the scheduler accepted and that was seen terminated. -/
def Killed (job : AuroraJobKey) (log : List Event) (i : Int) : Prop :=
  ∃ batch message, i ∈ batch ∧
    [.killTasks (toThrift job) (some batch.toFinset) message (some .ok), .waited (some batch) true] <:+: log

/-- After the last query there was something to kill, and all of it was killed. -/
def Honest (job : AuroraJobKey) (instancesArg : Option (List Int)) (log : List Event) : Prop :=
  ∃ before response after, log = before ++ .queried response :: after ∧ (∀ other, .queried other ∉ after) ∧
    (instancesToKill (response.tasks.getD []) instancesArg).Nonempty ∧
    ∀ i ∈ instancesToKill (response.tasks.getD []) instancesArg, Killed job after i

section Steps

variable {session after : Session} {response : Response}

def Session.asked (session : Session) (response : Response) : Session :=
  { session with queries := session.queries.tail, log := session.log ++ [.queried response] }

/-- The next of the queries is answered with OK. -/
def Answers (queries : List (Except Raised Response)) (response : Response) : Prop :=
  queries.headD (.ok {}) = .ok response ∧ response.responseCode = .ok

theorem observe_ok {event : Event} {done : Unit} : (observe event).run session = .ok done after ↔
    after = { session with log := session.log ++ [event] } := by
  constructor
  · rintro ⟨⟩
    rfl
  · rintro rfl
    rfl

theorem called_ok {α : Type} {answer : Except Raised α} {value : α} :
    (called answer).run session = .ok value after ↔ answer = .ok value ∧ after = session := by
  cases answer with
  | ok other =>
    simp only [called, EStateM.run_pure, EStateM.Result.ok.injEq, Except.ok.injEq]
    tauto
  | error raised => cases raised <;> simp [called]

theorem query_ok : query.run session = .ok response after ↔
    session.queries.headD (.ok {}) = .ok response ∧ after = session.asked response := by
  simp only [query, run_bind_ok, called_ok, observe_ok]
  constructor
  · rintro ⟨_, _, ⟨⟩, _, _, ⟨⟩, _, _, ⟨answered, rfl⟩, _, _, rfl, ⟨⟩⟩
    exact ⟨answered, rfl⟩
  · rintro ⟨answered, rfl⟩
    exact ⟨_, _, rfl, (), _, rfl, _, _, ⟨answered, rfl⟩, (), _, rfl, rfl⟩

theorem logResponseAndRaise_ok {errCode : ExitCode} {errMsg : String} {done : Unit} :
    (Context.logResponseAndRaise response errCode errMsg).run session = .ok done after ↔
      response.responseCode = .ok ∧ after = session := by
  unfold Context.logResponseAndRaise
  by_cases ok : response.responseCode = .ok
  · simp only [ok, if_true, EStateM.run_pure, EStateM.Result.ok.injEq, true_and, eq_comm]
  · simp only [ok, if_false, run_bind_ok, false_and, iff_false]
    rintro ⟨_, _, -, _, _, -, ran⟩
    split at ran
    · obtain ⟨_, _, -, raised⟩ := run_bind_ok.mp ran
      simp at raised
    · simp at ran

variable {clusters : List String} {sets : SetOrder} {job : AuroraJobKey}

theorem getApi_ok {cluster : String} {done : Unit} :
    (Context.getApi clusters cluster).run session = .ok done after ↔ cluster ∈ clusters ∧ after = session := by
  unfold Context.getApi
  by_cases known : cluster ∈ clusters
  · simp only [known, if_true, EStateM.run_pure, EStateM.Result.ok.injEq, true_and, eq_comm]
  · simp [known]

theorem getActiveTasks_ok {tasks : Option (List ActiveTask)} :
    (Context.getActiveTasks clusters job).run session = .ok tasks after ↔
      job.cluster ∈ clusters ∧ ∃ response, Answers session.queries response ∧ tasks = response.tasks ∧
        after = session.asked response := by
  simp only [Context.getActiveTasks, run_bind_ok, getApi_ok, query_ok, logResponseAndRaise_ok]
  constructor
  · rintro ⟨_, _, ⟨known, rfl⟩, response, _, ⟨answered, rfl⟩, _, _, ⟨ok, rfl⟩, ⟨⟩⟩
    exact ⟨known, response, ⟨answered, ok⟩, rfl, rfl⟩
  · rintro ⟨known, response, ⟨answered, ok⟩, rfl, rfl⟩
    exact ⟨(), _, ⟨known, rfl⟩, response, _, ⟨answered, rfl⟩, (), _, ⟨ok, rfl⟩, rfl⟩

theorem hasCountOrPercentageSlaPolicy_ok :
    (∃ found, (Context.hasCountOrPercentageSlaPolicy clusters job).run session = .ok found after) ↔
      job.cluster ∈ clusters ∧ ∃ response, Answers session.queries response ∧ response.tasks.isSome ∧
        after = session.asked response := by
  simp only [Context.hasCountOrPercentageSlaPolicy, run_bind_ok, getActiveTasks_ok]
  constructor
  · rintro ⟨found, _, _, ⟨known, response, answered, rfl, rfl⟩, ran⟩
    cases listed : response.tasks with
    | none => simp [listed] at ran
    | some tasks =>
      simp only [listed, EStateM.run_pure, EStateM.Result.ok.injEq] at ran
      exact ⟨known, response, answered, by simp [listed], ran.2.symm⟩
  · rintro ⟨known, response, answered, listed, rfl⟩
    obtain ⟨tasks, listed⟩ := Option.isSome_iff_exists.mp listed
    refine ⟨_, some tasks, _, ⟨known, response, answered, listed.symm, rfl⟩, rfl⟩

theorem getActiveInstancesOrRaise_ok {instances : List Int} :
    (∃ active, (Context.getActiveInstancesOrRaise clusters sets job instances).run session = .ok active after) ↔
      job.cluster ∈ clusters ∧ ∃ response, Answers session.queries response ∧
        instances.toFinset ⊆ ((response.tasks.getD []).map ActiveTask.instanceId).toFinset ∧
        after = session.asked response := by
  simp only [Context.getActiveInstancesOrRaise, run_bind_ok, getActiveTasks_ok]
  constructor
  · rintro ⟨found, _, _, ⟨known, response, answered, rfl, rfl⟩, ran⟩
    split at ran
    · simp at ran
    · rename_i recognized
      rw [not_not, Finset.sdiff_eq_empty_iff_subset] at recognized
      simp only [EStateM.run_pure, EStateM.Result.ok.injEq] at ran
      exact ⟨known, response, answered, recognized, ran.2.symm⟩
  · rintro ⟨known, response, answered, recognized, rfl⟩
    refine ⟨((response.tasks.getD []).map ActiveTask.instanceId).toFinset, _, _,
      ⟨known, response, answered, rfl, rfl⟩, ?_⟩
    rw [if_neg (by rw [not_not, Finset.sdiff_eq_empty_iff_subset]; exact recognized)]
    rfl

theorem getJobConfigOptional_ok {configFile : Option String} {done : Unit} :
    (Context.getJobConfigOptional configFile).run session = .ok done after ↔
      (configFile.isSome → session.config = .ok ()) ∧ after = session := by
  unfold Context.getJobConfigOptional
  cases configFile with
  | none => simp [eq_comm]
  | some file =>
    simp only [Option.isSome_some, if_true, run_bind_ok, true_implies]
    constructor
    · rintro ⟨_, _, ⟨⟩, ran⟩
      cases loads : session.config with
      | ok done => simpa [loads, eq_comm] using ran
      | error text => simp [loads] at ran
    · rintro ⟨loads, rfl⟩
      exact ⟨_, _, rfl, by simp [loads]⟩

theorem killJob_ok {instances : Option (List Int)} {message : Option String} :
    (killJob job instances message).run session = .ok response after ↔
      (session.kills.headD {}).hooksPass = true ∧ (session.kills.headD {}).outcome = .ok response ∧
        after = { session with
          kills := session.kills.tail
          log := session.log ++
            [.killTasks (toThrift job) (instances.map List.toFinset) message (some response.responseCode)] } := by
  simp only [killJob, run_bind_ok]
  constructor
  · rintro ⟨_, _, ⟨⟩, _, _, ⟨⟩, ran⟩
    split at ran
    · rename_i pass
      simp only [run_bind_ok, observe_ok, called_ok] at ran
      obtain ⟨_, _, rfl, accepted, rfl⟩ := ran
      simp only [accepted, Except.toOption, Option.map_some]
      exact ⟨pass, trivial, trivial⟩
    · simp at ran
  · rintro ⟨pass, accepted, rfl⟩
    refine ⟨_, _, rfl, _, _, rfl, ?_⟩
    simp only [pass, if_true, run_bind_ok, observe_ok, called_ok]
    exact ⟨(), _, rfl, accepted, by rw [accepted]; rfl⟩

theorem waitUntil_ok {instances : Option (List Int)} {terminated : Bool} :
    (waitUntil instances).run session = .ok terminated after ↔
      session.waits.headD (.ok true) = .ok terminated ∧
        after = { session with
          waits := session.waits.tail
          log := session.log ++ [.waited instances terminated] } := by
  simp only [waitUntil, run_bind_ok, called_ok, observe_ok]
  constructor
  · rintro ⟨_, _, ⟨⟩, _, _, ⟨⟩, _, _, ⟨answered, rfl⟩, _, _, rfl, ⟨⟩⟩
    exact ⟨answered, rfl⟩
  · rintro ⟨answered, rfl⟩
    exact ⟨_, _, rfl, _, _, rfl, _, _, ⟨answered, rfl⟩, (), _, rfl, rfl⟩

theorem waitKillTasks_ok {instances : Option (List Int)} {code : ExitCode}
    (ran : (waitKillTasks instances).run session = .ok code after) :
    (code = .ok ∧ after.log = session.log ++ [.waited instances true]) ∨
      (code = .timeout ∧ ∃ msg, after.log = session.log ++ [.waited instances false, .printErr msg]) := by
  simp only [waitKillTasks, run_bind_ok, waitUntil_ok] at ran
  obtain ⟨terminated, _, ⟨-, rfl⟩, ran⟩ := ran
  cases terminated with
  | true =>
    simp only [if_true, EStateM.run_pure, EStateM.Result.ok.injEq] at ran
    exact .inl ⟨ran.1.symm, by rw [← ran.2]⟩
  | false =>
    simp only [Bool.false_eq_true, if_false, run_bind_ok, observe_ok, EStateM.run_pure,
      EStateM.Result.ok.injEq] at ran
    obtain ⟨_, _, rfl, rfl, rfl⟩ := ran
    exact .inr ⟨rfl, _, List.append_assoc _ _ _⟩

end Steps

section Loop

variable {job : AuroraJobKey} {options : KillOptions} {session after : Session} {log more : List Event} {i : Int}

theorem Killed.later (killed : Killed job log i) (before : List Event) : Killed job (before ++ log) i := by
  obtain ⟨batch, message, member, part⟩ := killed
  exact ⟨batch, message, member, part.trans (List.suffix_append before log).isInfix⟩

theorem Killed.longer (killed : Killed job log i) (more : List Event) : Killed job (log ++ more) i := by
  obtain ⟨batch, message, member, part⟩ := killed
  exact ⟨batch, message, member, part.trans (List.prefix_append log more).isInfix⟩

/-- A loop that comes to its end without further errors has killed everything it was given. -/
theorem killBatches_ok {rounds : Nat} {instances : List Int} {errors final : Nat}
    (ran : (killBatches job options rounds instances errors).run session = .ok final after) :
    errors ≤ final ∧ ∃ done, after.log = session.log ++ done ∧ (∀ response, .queried response ∉ done) ∧
      (final = errors → ∀ i ∈ instances, Killed job done i) := by
  induction rounds generalizing instances errors session with
  | zero =>
    cases instances with
    | nil =>
      cases ran
      exact ⟨le_rfl, [], by simp⟩
    | cons => cases ran
  | succ rounds ih =>
    cases instances with
    | nil =>
      cases ran
      exact ⟨le_rfl, [], by simp⟩
    | cons first others =>
      simp only [killBatches, run_bind_ok, killJob_ok, logResponseAndRaise_ok] at ran
      obtain ⟨response, _, ⟨-, -, rfl⟩, _, _, ⟨accepted, rfl⟩, code, waited, waiting, ran⟩ := ran
      obtain ⟨rfl, logged⟩ | ⟨rfl, msg, logged⟩ := waitKillTasks_ok waiting
      · simp only [ne_eq, not_true, if_false, run_bind_ok, observe_ok] at ran
        obtain ⟨_, _, rfl, ran⟩ := ran
        obtain ⟨less, done, more, quiet, killed⟩ := ih ran
        refine ⟨less, _, by rw [more, logged, List.append_assoc, List.append_assoc, List.append_assoc], ?_, ?_⟩
        · simpa using quiet
        · intro same i member
          rw [← List.take_append_drop (batchLength options.batchSize (first :: others)) (first :: others)] at member
          rcases List.mem_append.mp member with here | later
          · exact ⟨_, options.message, here, [], .printOut _ :: done, by rw [accepted]; rfl⟩
          · exact (killed same i later).later [_, _, _]
      · simp only [ne_eq, reduceCtorEq, not_false_eq_true, if_true] at ran
        split at ran
        · simp at ran
        · obtain ⟨less, done, more, quiet, -⟩ := ih ran
          refine ⟨by omega, _, by rw [more, logged, List.append_assoc, List.append_assoc], ?_, by omega⟩
          simpa using quiet

end Loop

section Commands

variable {clusters : List String} {sets : SetOrder} {rounds : Nat} {options : KillOptions} {job : AuroraJobKey}
  {instances : Option (List Int)} {session after : Session} {response : Response} {msg : String}

theorem order_empty : sets.order ∅ = [] := by
  apply List.eq_nil_iff_forall_not_mem.mpr
  intro i member
  simpa using (sets.mem ∅ i).mp member

theorem instancesToKill_nil : instancesToKill [] instances = ∅ := by
  cases instances <;> simp [instancesToKill]

theorem killInBatches_ok {result : Option ExitCode}
    (ran : (killInBatches clusters sets rounds options job instances).run session = .ok result after) :
    job.cluster ∈ clusters ∧ ∃ response done, Answers session.queries response ∧
      after.log = session.log ++ .queried response :: done ∧ (∀ other, .queried other ∉ done) ∧
      ∀ i ∈ instancesToKill (response.tasks.getD []) instances, Killed job done i := by
  simp only [killInBatches, run_bind_ok, getApi_ok, getActiveTasks_ok] at ran
  obtain ⟨_, _, ⟨known, rfl⟩, _, _, ⟨-, response, answered, rfl, rfl⟩, ran⟩ := ran
  refine ⟨known, response, ?_⟩
  split at ran
  · rename_i taskless
    simp only [run_bind_ok, observe_ok, EStateM.run_pure, EStateM.Result.ok.injEq] at ran
    obtain ⟨_, _, rfl, -, rfl⟩ := ran
    refine ⟨_, answered, List.append_assoc _ _ _, by simp, ?_⟩
    rw [taskless, instancesToKill_nil]
    simp
  · obtain ⟨errors, middle, looped, ran⟩ := run_bind_ok.mp ran
    obtain ⟨-, done, more, quiet, killed⟩ := killBatches_ok looped
    split at ran
    · simp at ran
    · rename_i errorless
      simp only [EStateM.run_pure, EStateM.Result.ok.injEq] at ran
      refine ⟨done, answered, by rw [← ran.2, more]; exact List.append_assoc _ _ _, quiet, ?_⟩
      intro i member
      exact killed (by omega) i ((sets.mem _ i).mpr member)

/-- With nothing to kill there is no loop and no exception. -/
theorem killInBatches_untargeted (known : job.cluster ∈ clusters) (answered : Answers session.queries response)
    (untargeted : instancesToKill (response.tasks.getD []) instances = ∅) :
    ∃ result after, (killInBatches clusters sets rounds options job instances).run session = .ok result after := by
  simp only [killInBatches, run_bind_ok, getApi_ok, getActiveTasks_ok]
  by_cases tasks : response.tasks.getD [] = []
  · exact ⟨_, _, (), _, ⟨known, rfl⟩, _, _, ⟨known, response, answered, rfl, rfl⟩, by rw [if_pos tasks]; rfl⟩
  · refine ⟨none, session.asked response, (), _, ⟨known, rfl⟩, _, _, ⟨known, response, answered, rfl, rfl⟩, ?_⟩
    rw [if_neg tasks, untargeted, order_empty]
    cases rounds <;> rfl

theorem reportSuccess_ok {code : ExitCode} (ran : (reportSuccess options job msg).run session = .ok code after) :
    ∃ done, after.log = session.log ++ done ∧ ∀ other, .queried other ∉ done := by
  unfold reportSuccess at ran
  split at ran
  · simp only [run_bind_ok, observe_ok, EStateM.run_pure, EStateM.Result.ok.injEq] at ran
    obtain ⟨_, _, rfl, _, _, rfl, -, rfl⟩ := ran
    exact ⟨_, List.append_assoc _ _ _, by simp⟩
  · simp only [run_bind_ok, observe_ok, EStateM.run_pure, EStateM.Result.ok.injEq] at ran
    obtain ⟨_, _, rfl, -, rfl⟩ := ran
    exact ⟨_, rfl, by simp⟩

theorem reportSuccess_ends : ∃ after, (reportSuccess options job msg).run session = .ok .ok after := by
  unfold reportSuccess
  split <;> exact ⟨_, rfl⟩

theorem killAndReport_ok {code : ExitCode} (batching : options.noBatching = false)
    (ran : (killAndReport clusters sets rounds options job instances msg).run session = .ok code after) :
    job.cluster ∈ clusters ∧ ∃ response done, Answers session.queries response ∧
      after.log = session.log ++ .queried response :: done ∧ (∀ other, .queried other ∉ done) ∧
      ∀ i ∈ instancesToKill (response.tasks.getD []) instances, Killed job done i := by
  simp only [killAndReport, batching, Bool.false_eq_true, if_false, run_bind_ok] at ran
  obtain ⟨_, middle, batched, reported⟩ := ran
  obtain ⟨known, response, done, answered, logged, quiet, killed⟩ := killInBatches_ok batched
  obtain ⟨more, logged', quiet'⟩ := reportSuccess_ok reported
  refine ⟨known, response, done ++ more, answered, by rw [logged', logged, List.append_assoc, List.cons_append], ?_, ?_⟩
  · intro other member
    rcases List.mem_append.mp member with member | member
    · exact quiet other member
    · exact quiet' other member
  · intro i member
    exact (killed i member).longer more

theorem killAndReport_untargeted (batching : options.noBatching = false) (known : job.cluster ∈ clusters)
    (answered : Answers session.queries response)
    (untargeted : instancesToKill (response.tasks.getD []) instances = ∅) :
    ∃ after, (killAndReport clusters sets rounds options job instances msg).run session = .ok .ok after := by
  obtain ⟨result, middle, batched⟩ := @killInBatches_untargeted clusters sets rounds options _ _ _ _ known answered untargeted
  obtain ⟨after, reported⟩ := @reportSuccess_ends options job middle msg
  refine ⟨after, ?_⟩
  simp only [killAndReport, batching, Bool.false_eq_true, if_false, run_bind_ok]
  exact ⟨result, middle, batched, reported⟩

theorem last_query_unique {before before' done done' : List Event} {other : Response}
    (same : before ++ .queried response :: done = before' ++ .queried other :: done')
    (quiet : ∀ r, .queried r ∉ done) (quiet' : ∀ r, .queried r ∉ done') : response = other := by
  rcases List.append_eq_append_iff.mp same with ⟨between, -, rest⟩ | ⟨between, -, rest⟩
  · cases between with
    | nil => simpa using (List.cons.inj rest).1
    | cons event between =>
      have inside : .queried other ∈ done := by simp [(List.cons.inj rest).2]
      exact absurd inside (quiet other)
  · cases between with
    | nil => simpa using (List.cons.inj rest).1.symm
    | cons event between =>
      have inside : .queried response ∈ done' := by simp [(List.cons.inj rest).2]
      exact absurd inside (quiet' response)

theorem honest_iff {before done : List Event} (quiet : ∀ other, .queried other ∉ done)
    (killed : ∀ i ∈ instancesToKill (response.tasks.getD []) instances, Killed job done i) :
    Honest job instances (before ++ .queried response :: done) ↔
      (instancesToKill (response.tasks.getD []) instances).Nonempty := by
  constructor
  · rintro ⟨before', response', done', same, quiet', targeted, -⟩
    rwa [last_query_unique same quiet quiet']
  · intro targeted
    exact ⟨before, response, done, rfl, quiet, targeted, killed⟩

variable (clusters sets rounds instances session msg) in
/-- Success is honest exactly if something is targeted whenever the query is answered. -/
theorem killAndReport_honest_iff (batching : options.noBatching = false) :
    (∀ after, (killAndReport clusters sets rounds options job instances msg).run session = .ok .ok after →
      Honest job instances after.log) ↔
    (job.cluster ∈ clusters → ∀ response, Answers session.queries response →
      (instancesToKill (response.tasks.getD []) instances).Nonempty) := by
  constructor
  · intro honest known response answered
    by_contra untargeted
    rw [Finset.not_nonempty_iff_eq_empty] at untargeted
    obtain ⟨after, ran⟩ :=
      @killAndReport_untargeted clusters sets rounds options _ _ _ _ msg batching known answered untargeted
    obtain ⟨-, other, done, answered', logged, quiet, killed⟩ := killAndReport_ok batching ran
    have same : response = other := by
      have both := answered.1.symm.trans answered'.1
      exact Except.ok.inj both
    subst same
    have claimed := honest after ran
    rw [logged, honest_iff quiet killed, untargeted] at claimed
    exact Finset.not_nonempty_empty claimed
  · intro targeted after ran
    obtain ⟨known, response, done, answered, logged, quiet, killed⟩ := killAndReport_ok batching ran
    rw [logged, honest_iff quiet killed]
    exact targeted known response answered

end Commands

section Execute

variable {clusters : List String} {sets : SetOrder} {options : KillOptions} {job : AuroraJobKey}
  {instances : List Int} {session after : Session}

/-- The checks of a kill before it sends anything pass. -/
structure KillCommand.Checked (clusters : List String) (options : KillOptions) (job : AuroraJobKey)
    (instances : List Int) (session : Session) : Prop where
  known : job.cluster ∈ clusters
  /-- the query for the warning lists tasks -/
  warned : ∃ response, Answers session.queries response ∧ response.tasks.isSome
  strict : options.strict → ∃ response, Answers session.queries.tail response ∧
    instances.toFinset ⊆ ((response.tasks.getD []).map ActiveTask.instanceId).toFinset
  config : options.config.isSome → session.config = .ok ()

def KillCommand.queriesLeft (options : KillOptions) (session : Session) : List (Except Raised Response) :=
  if options.strict then session.queries.tail.tail else session.queries.tail

theorem warnOfSlaPolicy_ok (ran : (KillCommand.warnOfSlaPolicy clusters job).run session = .ok () after) :
    job.cluster ∈ clusters ∧ (∃ response, Answers session.queries response ∧ response.tasks.isSome) ∧
      after.queries = session.queries.tail ∧ after.config = session.config := by
  obtain ⟨found, middle, asked, ran⟩ := run_bind_ok.mp ran
  obtain ⟨known, response, answered, listed, rfl⟩ := hasCountOrPercentageSlaPolicy_ok.mp ⟨found, asked⟩
  refine ⟨known, ⟨response, answered, listed⟩, ?_⟩
  split at ran <;> cases ran <;> exact ⟨rfl, rfl⟩

theorem warnOfSlaPolicy_ends (known : job.cluster ∈ clusters) {response : Response}
    (answered : Answers session.queries response) (listed : response.tasks.isSome) :
    ∃ after, (KillCommand.warnOfSlaPolicy clusters job).run session = .ok () after := by
  obtain ⟨found, asked⟩ := hasCountOrPercentageSlaPolicy_ok.mpr ⟨known, response, answered, listed, rfl⟩
  simp only [KillCommand.warnOfSlaPolicy, run_bind_ok]
  cases found
  · exact ⟨_, _, _, asked, rfl⟩
  · exact ⟨_, _, _, asked, rfl⟩

theorem requireActive_ok (ran : (KillCommand.requireActive clusters sets options job instances).run session = .ok () after) :
    (options.strict → ∃ response, Answers session.queries response ∧
      instances.toFinset ⊆ ((response.tasks.getD []).map ActiveTask.instanceId).toFinset) ∧
      after.queries = (if options.strict then session.queries.tail else session.queries) ∧
      after.config = session.config := by
  unfold KillCommand.requireActive at ran
  split at ran
  · rename_i strict
    obtain ⟨active, middle, asked, ran⟩ := run_bind_ok.mp ran
    obtain ⟨-, response, answered, listed, rfl⟩ := getActiveInstancesOrRaise_ok.mp ⟨active, asked⟩
    cases ran
    exact ⟨fun _ => ⟨response, answered, listed⟩, by rw [if_pos strict]; rfl, rfl⟩
  · rename_i lenient
    cases ran
    exact ⟨fun strict => absurd strict lenient, by rw [if_neg lenient], rfl⟩

theorem requireActive_ends (known : job.cluster ∈ clusters)
    (strictly : options.strict → ∃ response, Answers session.queries response ∧
      instances.toFinset ⊆ ((response.tasks.getD []).map ActiveTask.instanceId).toFinset) :
    ∃ after, (KillCommand.requireActive clusters sets options job instances).run session = .ok () after := by
  unfold KillCommand.requireActive
  split
  · rename_i strict
    obtain ⟨response, answered, listed⟩ := strictly strict
    obtain ⟨active, asked⟩ := @getActiveInstancesOrRaise_ok _ _ clusters sets job instances |>.mpr
      ⟨known, response, answered, listed, rfl⟩
    exact ⟨_, run_bind_ok.mpr ⟨active, _, asked, rfl⟩⟩
  · exact ⟨_, rfl⟩

theorem prepare_ok (ran : (KillCommand.prepare clusters sets options job instances).run session = .ok () after) :
    KillCommand.Checked clusters options job instances session ∧
      after.queries = KillCommand.queriesLeft options session := by
  simp only [KillCommand.prepare, run_bind_ok, getApi_ok, getJobConfigOptional_ok] at ran
  obtain ⟨_, first, warned, _, second, required, _, _, ⟨known, rfl⟩, config, rfl⟩ := ran
  obtain ⟨-, listed, left, same⟩ := warnOfSlaPolicy_ok warned
  obtain ⟨strict, left', same'⟩ := requireActive_ok required
  rw [left] at strict left'
  rw [same', same] at config
  exact ⟨⟨known, listed, strict, config⟩, left'⟩

theorem prepare_ends (checked : KillCommand.Checked clusters options job instances session) :
    ∃ after, (KillCommand.prepare clusters sets options job instances).run session = .ok () after := by
  obtain ⟨response, answered, listed⟩ := checked.warned
  obtain ⟨first, warned⟩ := warnOfSlaPolicy_ends checked.known answered listed
  obtain ⟨-, -, left, same⟩ := warnOfSlaPolicy_ok warned
  have strict := checked.strict
  rw [← left] at strict
  obtain ⟨second, required⟩ := @requireActive_ends clusters sets options job instances _ checked.known strict
  obtain ⟨-, -, same'⟩ := requireActive_ok required
  simp only [KillCommand.prepare, run_bind_ok, getApi_ok, getJobConfigOptional_ok]
  refine ⟨second, (), first, warned, (), second, required, (), second, ⟨checked.known, rfl⟩, ?_, rfl⟩
  rw [same', same]
  exact checked.config

/-- Batched kills report success honestly exactly if, whenever they come to ask for the active tasks and are
    answered, one of them is targeted. -/
theorem kill_success_is_honest (clusters : List String) (sets : SetOrder) (rounds : Nat) (options : KillOptions)
    (job : AuroraJobKey) (session : Session) (batching : options.noBatching = false) :
    (∀ instances : List Int,
      (∀ after, (KillCommand.execute clusters sets rounds options job (some instances)).run session = .ok .ok after →
        Honest job (some instances) after.log) ↔
      (KillCommand.Checked clusters options job instances session →
        ∀ response, Answers (KillCommand.queriesLeft options session) response →
          (instancesToKill (response.tasks.getD []) (some instances)).Nonempty)) ∧
    ((∀ after, (KillAllJobCommand.execute clusters sets rounds options job).run session = .ok .ok after →
        Honest job none after.log) ↔
      (job.cluster ∈ clusters → (options.config.isSome → session.config = .ok ()) →
        ∀ response, Answers session.queries response → (instancesToKill (response.tasks.getD []) none).Nonempty)) := by
  constructor
  · intro instances
    constructor
    · intro honest checked
      obtain ⟨ready, prepared⟩ := @prepare_ends _ sets _ _ _ _ checked
      rw [← (prepare_ok prepared).2]
      apply (killAndReport_honest_iff clusters sets rounds (some instances) ready "Job kill succeeded" batching).mp
      · intro after ran
        exact honest after (run_bind_ok.mpr ⟨(), ready, prepared, ran⟩)
      · exact checked.known
    · intro targeted after ran
      obtain ⟨_, ready, prepared, ran⟩ := run_bind_ok.mp ran
      obtain ⟨checked, left⟩ := prepare_ok prepared
      refine (killAndReport_honest_iff clusters sets rounds _ ready _ batching).mpr (fun _ response answered => ?_) after ran
      rw [left] at answered
      exact targeted checked response answered
  · have unfolded : ∀ after, (KillAllJobCommand.execute clusters sets rounds options job).run session = .ok .ok after ↔
        job.cluster ∈ clusters ∧ (options.config.isSome → session.config = .ok ()) ∧
          (killAndReport clusters sets rounds options job none "Job killall succeeded").run session =
            .ok .ok after := by
      intro after
      simp only [KillAllJobCommand.execute, run_bind_ok, getApi_ok, getJobConfigOptional_ok]
      constructor
      · rintro ⟨_, _, ⟨known, rfl⟩, _, _, ⟨config, rfl⟩, ran⟩
        exact ⟨known, config, ran⟩
      · rintro ⟨known, config, ran⟩
        exact ⟨(), _, ⟨known, rfl⟩, (), _, ⟨config, rfl⟩, ran⟩
    constructor
    · intro honest known config
      apply (killAndReport_honest_iff clusters sets rounds none session "Job killall succeeded" batching).mp
      · intro after ran
        exact honest after ((unfolded after).mpr ⟨known, config, ran⟩)
      · exact known
    · intro targeted after ran
      obtain ⟨known, config, ran⟩ := (unfolded after).mp ran
      exact (killAndReport_honest_iff clusters sets rounds _ session _ batching).mpr (fun _ => targeted known config) after ran

def hello : AuroraJobKey := ⟨"west", "bozo", "test", "hello"⟩

def oneActive (instanceId : Int) : Session where
  queries := [.ok {}, .ok { tasks := some [{ instanceId }] }]

def succeedsWith (ended : EStateM.Result CommandFailure Session ExitCode) (log : List Event) : Bool :=
  match ended with
  | .ok .ok after => after.log = log
  | _ => false

theorem ended_of_succeedsWith {ended : EStateM.Result CommandFailure Session ExitCode} {log : List Event}
    (computed : succeedsWith ended log = true) : ∃ after, ended = .ok .ok after ∧ after.log = log := by
  unfold succeedsWith at computed
  split at computed
  · exact ⟨_, rfl, by simpa using computed⟩
  · cases computed

theorem kill_success_is_honest_active : ∃ after : Session,
    (KillCommand.execute ["west"] .sorted 1 {} hello (some [1])).run (oneActive 1) = .ok .ok after ∧
      Honest hello (some [1]) after.log := by
  obtain ⟨after, ran, -⟩ := @ended_of_succeedsWith
    ((KillCommand.execute ["west"] .sorted 1 {} hello (some [1])).run (oneActive 1))
    [.queried {}, .queried { tasks := some [{ instanceId := 1 }] },
      .killTasks (toThrift hello) (some {1}) none (some .ok), .waited (some [1]) true,
      .printOut "Successfully killed instances [1]", .printOut "Job kill succeeded"] (by decide +kernel)
  refine ⟨after, ran, ?_⟩
  refine ((kill_success_is_honest ["west"] .sorted 1 {} hello (oneActive 1) rfl).1 [1]).mpr ?_ _ ran
  rintro - response ⟨answered, -⟩
  cases answered
  decide

/-- Only instance 2 is active, and only instance 1 is asked for. -/
theorem kill_reports_success_without_target : ∃ after : Session,
    (KillCommand.execute ["west"] .sorted 1 {} hello (some [1])).run (oneActive 2) = .ok .ok after ∧
      ¬ Honest hello (some [1]) after.log := by
  obtain ⟨after, ran, logged⟩ := @ended_of_succeedsWith
    ((KillCommand.execute ["west"] .sorted 1 {} hello (some [1])).run (oneActive 2))
    ([.queried {}] ++ .queried { tasks := some [{ instanceId := 2 }] } :: [.printOut "Job kill succeeded"])
    (by decide +kernel)
  refine ⟨after, ran, fun honest => ?_⟩
  rw [logged, honest_iff (by simp) (by simp [instancesToKill])] at honest
  exact absurd honest (by decide)

end Execute

end Aurora.Client.Cli
