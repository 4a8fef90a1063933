import Aurora.Client.Cli.KillBatches

namespace Aurora.Client.Cli

open Replay AbstractKillCommand

def requests (log : List Event) : List (Option (Finset Int)) :=
  log.filterMap fun event => match event with
    | .killTasks _ instances _ _ => some instances
    | _ => none

theorem requests_append (log more : List Event) : requests (log ++ more) = requests log ++ requests more :=
  List.filterMap_append

def naming (i : Int) (requested : List (Option (Finset Int))) : Nat :=
  requested.countP fun request => request.any fun batch => i ∈ batch

/-- Each target is named in exactly one request, and the requests are batches. -/
structure KilledOnce (batchSize : Int) (targets : Finset Int) (requested : List (Option (Finset Int))) : Prop where
  sized : ∀ request ∈ requested, ∃ batch, request = some batch ∧ batch.Nonempty ∧ (batch.card : Int) ≤ batchSize
  once : ∀ i ∈ targets, naming i requested = 1
  others : ∀ i ∉ targets, naming i requested = 0

/-- All kill requests and waits that are to come succeed. -/
structure Session.Smooth (session : Session) : Prop where
  kills : ∀ reply ∈ session.kills, reply.hooksPass = true ∧
    ∃ response, reply.outcome = .ok response ∧ response.responseCode = .ok
  waits : ∀ answer ∈ session.waits, answer = .ok true

section Cut

structure Cut (size : Int) (instances : List Int) (batches : List (List Int)) : Prop where
  whole : batches.flatten = instances
  sized : ∀ batch ∈ batches, batch ≠ [] ∧ (batch.length : Int) ≤ size

variable {size : Int} {instances : List Int} {batches : List (List Int)}

theorem Cut.nil : Cut size [] [] := ⟨rfl, by simp⟩

theorem Cut.cons {taken : Nat} (cut : Cut size (instances.drop taken) batches) (unfinished : instances ≠ [])
    (positive : 1 ≤ taken) (bounded : (taken : Int) ≤ size) :
    Cut size instances (instances.take taken :: batches) where
  whole := by rw [List.flatten_cons, cut.whole, List.take_append_drop]
  sized := by
    have filled : instances.take taken ≠ [] := by
      rw [ne_eq, List.take_eq_nil_iff, not_or]
      exact ⟨by omega, unfinished⟩
    have short : ((instances.take taken).length : Int) ≤ size := by
      rw [List.length_take]
      omega
    exact List.forall_mem_cons.mpr ⟨⟨filled, short⟩, cut.sized⟩

theorem naming_cut (i : Int) (distinct : batches.flatten.Nodup) :
    naming i (batches.map fun batch => some batch.toFinset) = if i ∈ batches.flatten then 1 else 0 := by
  induction batches with
  | nil => rfl
  | cons batch batches ih =>
    rw [List.flatten_cons, List.nodup_append'] at distinct
    have rest := ih distinct.2.1
    simp only [naming, List.map_cons, List.countP_cons, Option.any_some, List.mem_toFinset, List.flatten_cons,
      List.mem_append] at rest ⊢
    rw [rest]
    by_cases here : i ∈ batch
    · have elsewhere : i ∉ batches.flatten := distinct.2.2 here
      simp [here, elsewhere]
    · simp [here]

theorem Cut.killedOnce {targets : Finset Int} (cut : Cut size instances batches) (distinct : instances.Nodup)
    (mem : ∀ i, i ∈ instances ↔ i ∈ targets) :
    KilledOnce size targets (batches.map fun batch => some batch.toFinset) where
  sized := by
    intro request member
    obtain ⟨batch, listed, rfl⟩ := List.mem_map.mp member
    obtain ⟨filled, short⟩ := cut.sized batch listed
    refine ⟨_, rfl, (List.toFinset_nonempty_iff batch).mpr filled, ?_⟩
    have fewer := batch.toFinset_card_le
    omega
  once := by
    intro i target
    rw [naming_cut i (by rw [cut.whole]; exact distinct), cut.whole, if_pos ((mem i).mpr target)]
  others := by
    intro i other
    rw [naming_cut i (by rw [cut.whole]; exact distinct), cut.whole, if_neg fun member => other ((mem i).mp member)]

end Cut

section Loop

variable {job : AuroraJobKey} {options : KillOptions} {session : Session}

theorem Session.Smooth.reply (smooth : session.Smooth) : (session.kills.headD {}).hooksPass = true ∧
    ∃ response, (session.kills.headD {}).outcome = .ok response ∧ response.responseCode = .ok := by
  cases replies : session.kills with
  | nil => exact ⟨rfl, {}, rfl, rfl⟩
  | cons reply _ => exact smooth.kills reply (by simp [replies])

theorem Session.Smooth.answer (smooth : session.Smooth) : session.waits.headD (.ok true) = .ok true := by
  cases answers : session.waits with
  | nil => rfl
  | cons answer _ => exact smooth.waits answer (by simp [answers])

theorem waitKillTasks_smooth (smooth : session.Smooth) (instances : Option (List Int)) :
    (waitKillTasks instances).run session = .ok .ok { session with
      waits := session.waits.tail
      log := session.log ++ [.waited instances true] } := by
  rw [waitKillTasks, run_bind_of_ok (waitUntil_ok.mpr ⟨smooth.answer, rfl⟩)]
  rfl

def Session.killing (session : Session) (job : AuroraJobKey) (message : Option String) (batch : List Int) : Session :=
  { session with
    kills := session.kills.tail
    waits := session.waits.tail
    log := session.log ++ [.killTasks (toThrift job) (some batch.toFinset) message (some .ok),
      .waited (some batch) true, .printOut ("Successfully killed instances " ++ toString batch)] }

theorem Session.Smooth.killing (smooth : session.Smooth) (message : Option String) (batch : List Int) :
    (session.killing job message batch).Smooth where
  kills := fun reply member => smooth.kills reply (List.mem_of_mem_tail member)
  waits := fun answer member => smooth.waits answer (List.mem_of_mem_tail member)

/-- One round of the loop, when the scheduler and the monitor play along. -/
theorem killBatches_smooth (smooth : session.Smooth) (rounds : Nat) (first : Int) (others : List Int) (errors : Nat) :
    (killBatches job options (rounds + 1) (first :: others) errors).run session =
      (killBatches job options rounds
        ((first :: others).drop (batchLength options.batchSize (first :: others))) errors).run
        (session.killing job options.message
          ((first :: others).take (batchLength options.batchSize (first :: others)))) := by
  obtain ⟨pass, response, outcome, accepted⟩ := smooth.reply
  rw [killBatches]
  generalize (first :: others).take (batchLength options.batchSize (first :: others)) = batch
  have waiting : Session.Smooth { session with
      kills := session.kills.tail
      log := session.log ++
        [.killTasks (toThrift job) (some batch.toFinset) options.message (some .ok)] } :=
    ⟨fun reply member => smooth.kills reply (List.mem_of_mem_tail member), smooth.waits⟩
  rw [run_bind_of_ok (killJob_ok.mpr ⟨pass, outcome, rfl⟩),
    run_bind_of_ok ((@logResponseAndRaise_ok _ _ _ _ _ ()).mpr ⟨accepted, rfl⟩), accepted, Option.map_some,
    run_bind_of_ok (waitKillTasks_smooth waiting (some batch))]
  simp only [ne_eq, not_true, if_false]
  rw [run_bind_of_ok ((@observe_ok _ _ _ ()).mpr rfl)]
  simp only [Session.killing, List.append_assoc, List.cons_append, List.nil_append]

theorem requests_killing (message : Option String) (batch : List Int) :
    ∃ done, (session.killing job message batch).log = session.log ++ done ∧ requests done = [some batch.toFinset] :=
  ⟨_, rfl, rfl⟩

theorem batchLength_pos (positive : 1 ≤ options.batchSize) (first : Int) (others : List Int) :
    1 ≤ batchLength options.batchSize (first :: others) := by
  simp only [batchLength, List.length_cons]
  omega

/-- The loop ends when its batches are not empty, each round taking one from the front. -/
theorem killBatches_ends (positive : 1 ≤ options.batchSize) (smooth : session.Smooth) {rounds : Nat}
    {instances : List Int} (enough : instances.length ≤ rounds) (errors : Nat) :
    ∃ after batches done, (killBatches job options rounds instances errors).run session = .ok errors after ∧
      after.log = session.log ++ done ∧ requests done = batches.map (fun batch => some batch.toFinset) ∧
      Cut options.batchSize instances batches := by
  induction rounds generalizing instances session with
  | zero =>
    rw [List.length_eq_zero_iff.mp (Nat.le_zero.mp enough)]
    exact ⟨session, [], [], rfl, by simp, rfl, .nil⟩
  | succ rounds ih =>
    cases instances with
    | nil => exact ⟨session, [], [], rfl, by simp, rfl, .nil⟩
    | cons first others =>
      have pops := batchLength_pos positive first others
      have bounded : (batchLength options.batchSize (first :: others) : Int) ≤ options.batchSize := by
        unfold batchLength
        omega
      rw [killBatches_smooth smooth]
      obtain ⟨done, logged, requested⟩ := @requests_killing job session options.message
        ((first :: others).take (batchLength options.batchSize (first :: others)))
      have fewer : ((first :: others).drop (batchLength options.batchSize (first :: others))).length ≤ rounds := by
        simp only [List.length_drop, List.length_cons] at enough ⊢
        omega
      obtain ⟨after, batches, more, ran, logged', requested', cut⟩ := ih (smooth.killing options.message
        ((first :: others).take (batchLength options.batchSize (first :: others)))) fewer
      refine ⟨after, _ :: batches, done ++ more, ran, by rw [logged', logged, List.append_assoc],
        by rw [requests_append, requested, requested']; rfl, ?_⟩
      exact cut.cons (List.cons_ne_nil _ _) pops bounded

/-- A batch size that is not positive takes nothing out of the set, and each round asks for no instance. -/
theorem killBatches_stuck (stuck : options.batchSize ≤ 0) (smooth : session.Smooth) (rounds : Nat) (first : Int)
    (others : List Int) (errors : Nat) :
    ∃ after, (killBatches job options rounds (first :: others) errors).run session = .error .unfinished after ∧
      requests after.log = requests session.log ++ List.replicate rounds (some ∅) := by
  induction rounds generalizing session with
  | zero => exact ⟨session, rfl, by simp⟩
  | succ rounds ih =>
    have none : batchLength options.batchSize (first :: others) = 0 := by
      unfold batchLength
      omega
    rw [killBatches_smooth smooth, none]
    obtain ⟨done, logged, requested⟩ := @requests_killing job session options.message []
    obtain ⟨after, ran, more⟩ := ih (smooth.killing options.message [])
    refine ⟨after, ran, ?_⟩
    rw [more, logged, requests_append, requested, List.append_assoc]
    rfl

end Loop

section Command

variable {clusters : List String} {sets : SetOrder} {rounds : Nat} {options : KillOptions} {job : AuroraJobKey}
  {instances : Option (List Int)} {session : Session} {response : Response}

theorem requests_asked : requests [.queried response] = [] := rfl

theorem Session.Smooth.asked (smooth : session.Smooth) (response : Response) : (session.asked response).Smooth :=
  ⟨smooth.kills, smooth.waits⟩

theorem killInBatches_run (known : job.cluster ∈ clusters) (answered : Answers session.queries response) :
    (killInBatches clusters sets rounds options job instances).run session =
      if response.tasks.getD [] = [] then
        .ok (some .invalidParameter) { session.asked response with
          log := (session.asked response).log ++ [.printErr ("No tasks to kill found for job " ++ toPath job)] }
      else
        (do
          let errors ← killBatches job options rounds
            (sets.order (instancesToKill (response.tasks.getD []) instances)) 0
          if 0 < errors then
            throw (.commandError .commandFailure "Errors occurred while killing instances")
          return none : Command (Option ExitCode)).run (session.asked response) := by
  rw [killInBatches, run_bind_of_ok ((@getApi_ok _ _ _ _ ()).mpr ⟨known, rfl⟩),
    run_bind_of_ok (getActiveTasks_ok.mpr ⟨known, response, answered, rfl, rfl⟩)]
  by_cases taskless : response.tasks.getD [] = []
  · simp only [if_pos taskless]
    rfl
  · simp only [if_neg taskless]

theorem killBatches_fits (smooth : session.Smooth) {targets : Finset Int}
    (enough : (sets.order targets).length ≤ rounds) (fits : 1 ≤ options.batchSize ∨ targets = ∅) :
    ∃ after batches done, (killBatches job options rounds (sets.order targets) 0).run session = .ok 0 after ∧
      after.log = session.log ++ done ∧ requests done = batches.map (fun batch => some batch.toFinset) ∧
      Cut options.batchSize (sets.order targets) batches := by
  rcases fits with positive | rfl
  · exact killBatches_ends positive smooth enough 0
  · rw [order_empty]
    exact ⟨session, [], [], by cases rounds <;> rfl, by simp, rfl, .nil⟩

theorem killInBatches_stuck (stuck : options.batchSize ≤ 0) (known : job.cluster ∈ clusters)
    (answered : Answers session.queries response) (smooth : session.Smooth)
    (targeted : (instancesToKill (response.tasks.getD []) instances).Nonempty) :
    ∃ after, (killInBatches clusters sets rounds options job instances).run session = .error .unfinished after ∧
      requests after.log = requests session.log ++ List.replicate rounds (some ∅) := by
  obtain ⟨i, target⟩ := targeted
  rw [killInBatches_run known answered]
  split
  · rename_i taskless
    simp [taskless, instancesToKill_nil] at target
  · cases ordered : sets.order (instancesToKill (response.tasks.getD []) instances) with
    | nil =>
      have member := (sets.mem _ i).mpr target
      simp [ordered] at member
    | cons first others =>
      obtain ⟨after, never, requested⟩ :=
        @killBatches_stuck job options _ stuck (smooth.asked response) rounds first others 0
      refine ⟨after, by rw [EStateM.run_bind, never], ?_⟩
      rw [requested, Session.asked, requests_append, requests_asked, List.append_nil]

/-- A kill whose requests and waits all succeed partitions its targets into batches exactly if the batch size is
    positive or there are no targets. -/
theorem kill_partitions (clusters : List String) (sets : SetOrder) (options : KillOptions) (job : AuroraJobKey)
    (instances : Option (List Int)) (session : Session) (response : Response) (known : job.cluster ∈ clusters)
    (answered : Answers session.queries response) (smooth : session.Smooth) :
    (∃ enough, ∀ rounds, enough ≤ rounds → ∃ result after done,
      (killInBatches clusters sets rounds options job instances).run session = .ok result after ∧
        after.log = session.log ++ done ∧
        KilledOnce options.batchSize (instancesToKill (response.tasks.getD []) instances) (requests done)) ↔
      1 ≤ options.batchSize ∨ instancesToKill (response.tasks.getD []) instances = ∅ := by
  constructor
  · rintro ⟨enough, ends⟩
    obtain ⟨result, after, done, ran, -, -⟩ := ends enough le_rfl
    by_contra neither
    rw [not_or, not_le, ← ne_eq, ← Finset.nonempty_iff_ne_empty] at neither
    have stuck : options.batchSize ≤ 0 := by omega
    obtain ⟨other, never, -⟩ := killInBatches_stuck stuck known answered smooth neither.2
    rw [never] at ran
    cases ran
  · intro fits
    refine ⟨(sets.order (instancesToKill (response.tasks.getD []) instances)).length, fun rounds enough => ?_⟩
    rw [killInBatches_run known answered]
    split
    · rename_i taskless
      refine ⟨_, _, [.queried response, .printErr _], rfl, List.append_assoc _ _ _, ?_⟩
      rw [taskless, instancesToKill_nil]
      exact ⟨by simp [requests], by simp, fun i _ => rfl⟩
    · obtain ⟨after, batches, done, ran, logged, requested, cut⟩ :=
        @killBatches_fits sets rounds options job _ (smooth.asked response) _ enough fits
      refine ⟨none, after, .queried response :: done, ?_, ?_, ?_⟩
      · rw [run_bind_of_ok ran]
        rfl
      · rw [logged]
        exact List.append_assoc _ _ _
      · have same : requests (.queried response :: done) = requests done := rfl
        rw [same, requested]
        exact cut.killedOnce (sets.nodup _) (sets.mem _)

theorem kill_partitions_three : ∃ enough, ∀ rounds, enough ≤ rounds → ∃ result after done,
    (killInBatches ["west"] .sorted rounds { batchSize := 2 } hello none).run
        { queries := [.ok { tasks := some [{ instanceId := 0 }, { instanceId := 1 }, { instanceId := 2 }] }] } =
      .ok result after ∧ after.log = [] ++ done ∧ KilledOnce 2 {0, 1, 2} (requests done) :=
  (kill_partitions ["west"] .sorted { batchSize := 2 } hello none
    { queries := [.ok { tasks := some [{ instanceId := 0 }, { instanceId := 1 }, { instanceId := 2 }] }] }
    { tasks := some [{ instanceId := 0 }, { instanceId := 1 }, { instanceId := 2 }] } (by decide) ⟨rfl, rfl⟩
    ⟨by simp, by simp⟩).mpr (.inl (by decide))

/-- A batch size of 0 is accepted, and the loop sends requests for no instance without end. -/
theorem kill_of_empty_batches :
    (¬ ∃ enough, ∀ rounds, enough ≤ rounds → ∃ result after done,
      (killInBatches ["west"] .sorted rounds { batchSize := 0 } hello none).run
          { queries := [.ok { tasks := some [{ instanceId := 0 }] }] } = .ok result after ∧
        after.log = [] ++ done ∧ KilledOnce 0 {0} (requests done)) ∧
      ∀ rounds, ∃ after,
        (killInBatches ["west"] .sorted rounds { batchSize := 0 } hello none).run
            { queries := [.ok { tasks := some [{ instanceId := 0 }] }] } = .error .unfinished after ∧
          requests after.log = List.replicate rounds (some ∅) := by
  have stuck : ∀ rounds, ∃ after,
      (killInBatches ["west"] .sorted rounds { batchSize := 0 } hello none).run
          { queries := [.ok { tasks := some [{ instanceId := 0 }] }] } = .error .unfinished after ∧
        requests after.log = List.replicate rounds (some ∅) := fun rounds =>
    killInBatches_stuck (by decide) (by decide) ⟨rfl, rfl⟩ ⟨by simp, by simp⟩ ⟨0, by decide⟩
  refine ⟨?_, stuck⟩
  rintro ⟨enough, ends⟩
  obtain ⟨result, after, done, ran, -, -⟩ := ends enough le_rfl
  obtain ⟨other, never, -⟩ := stuck enough
  rw [never] at ran
  cases ran

end Command

end Aurora.Client.Cli
