import Aurora.Executor.HttpLifecycle
import Aurora.Executor.RunnerWaits

namespace Aurora.Executor.Lifecycle

open Guarantee Lifecycle.ThermosTaskRunner

def ReadLast (before after : ThermosTaskRunner) (looked : Answer) : Prop :=
  looked :: after.answers <:+ before.answers

section

variable {before middle after runner : ThermosTaskRunner} {pollInterval timeout rounds waited : Nat}

theorem ReadLast.of_next {looked : Answer} (next : before.answers = looked :: after.answers) :
    ReadLast before after looked := by
  unfold ReadLast
  rw [next]

theorem ReadLast.later {looked : Answer} (later : Later before middle) (read : ReadLast middle after looked) :
    ReadLast before after looked :=
  read.trans later.answers

/-- How `stop` comes back: the runner process and its task have ended, or the task has finished once its processes
    were killed. -/
def Stopped (before after : ThermosTaskRunner) : Prop :=
  (after.kills = before.kills ∧ (after.popen = true → after.dead = true) ∧ (before.monitor = true →
      ∃ looked, ReadLast before after looked ∧ looked.taskState ≠ .active)) ∨
    (after.kills = before.kills + 1 ∧ ∃ looked, ReadLast before after looked ∧ looked.finished = true)

theorem notFinished_meets (runner : ThermosTaskRunner) : Meets (not <$> monitorFinished : Run Bool) runner
    (fun _ after => Looked runner after) fun _ after => False ∧ Looked runner after := by
  rw [map_eq_pure_bind]
  exact .bind monitorFinished_meets (fun _ _ seen => .pure seen.1) fun _ _ raised => raised

structure Killed (before after : ThermosTaskRunner) : Prop where
  keeps : Keeps before after
  posts : after.posts = before.posts
  kills : after.kills = before.kills + 1
  slept : after.slept = before.slept

theorem quitquitquit_meets : Meets quitquitquit runner (fun _ after => Killed runner after)
    fun e after => (∃ exception, e = .escaped exception) ∧ Killed runner after := by
  unfold quitquitquit
  refine .bind answer_meets (fun forced middle ⟨seen, _⟩ => ?_) fun _ _ raised => raised
  apply Meets.modify
  have killed : Killed runner { middle with
      kills := middle.kills + 1, sigkills := middle.sigkills + if forced.killRunner then 1 else 0 } := by
    refine ⟨seen.keeps.trans ⟨{ Later.refl with }, fun sound => ?_⟩, seen.quiet.posts, ?_, seen.slept⟩
    · refine ⟨sound.once, sound.told, sound.running, sound.verdict, ?_⟩
      have before := sound.forced
      simp only
      split_ifs
      · omega
      · omega
    · exact congrArg (· + 1) seen.quiet.kills
  cases forced.forcedKill with
  | returned => exact .pure killed
  | taskRunnerError => exact .pure killed
  | escaped exception => exact .throw ⟨⟨exception, rfl⟩, killed⟩

/-- What forcing the end of the task does, whichever way it comes back. -/
structure Forced (pollInterval timeout rounds waited : Nat) (before after : ThermosTaskRunner) : Prop where
  keeps : Keeps before after
  posts : after.posts = before.posts
  kills : after.kills = before.kills + 1
  inTime : Enough pollInterval timeout rounds waited → after.slept + waited < before.slept + (timeout + pollInterval)

theorem Killed.forced (killed : Killed runner middle)
    (waiting : Waiting pollInterval timeout rounds waited middle after) :
    Forced pollInterval timeout rounds waited runner after where
  keeps := killed.keeps.trans waiting.quiet.keeps
  posts := waiting.quiet.posts.trans killed.posts
  kills := waiting.quiet.kills.trans killed.kills
  inTime := by
    rw [← killed.slept]
    exact waiting.inTime

/-- How a forced kill and the wait after it fail: the kill by what it raises itself, the wait by its deadline. -/
def KillFailed (e : Raised) : Prop :=
  (∃ exception, e = .escaped exception) ∨ e = .taskError "Task did not stop within deadline."

theorem rebindToKill_meets : Meets (rebindToKill pollInterval timeout rounds waited) runner
    (fun _ after => Forced pollInterval timeout rounds waited runner after ∧
      ∃ looked, ReadLast runner after looked ∧ looked.finished = true)
    fun e after => Forced pollInterval timeout rounds waited runner after ∧
      (Enough pollInterval timeout rounds waited → KillFailed e) := by
  unfold rebindToKill
  refine .bind quitquitquit_meets (fun _ middle killed => ?_) fun e after ⟨raised, killed⟩ => ?_
  · refine .bind (await_meets notFinished_meets) (fun total waited ⟨quiet, sum, bound⟩ => ?_)
      fun e after ⟨waiting, ended⟩ => ?_
    · refine .bind monitorFinished_meets (fun finished after ⟨seen, read⟩ => ?_) fun _ _ raised => raised
      have forced := killed.forced (.still ⟨quiet, fun enough => by have below := bound enough; omega⟩ seen.quiet seen.slept)
      cases finished with
      | true =>
        obtain ⟨looked, done, last⟩ := read rfl
        exact .pure ⟨forced, looked, (ReadLast.of_next last).later (killed.keeps.1.trans quiet.keeps.1), done⟩
      | false => exact .throw ⟨forced, fun _ => .inr rfl⟩
    · exact ⟨killed.forced waiting, fun enough => (ended enough).elim⟩
  · exact ⟨killed.forced (.of_still .refl rfl), fun _ => .inl raised⟩

/-- What `stop` does, whichever way it comes back. -/
structure Stopping (pollInterval timeout rounds : Nat) (before after : ThermosTaskRunner) : Prop where
  keeps : Keeps before after
  posts : after.posts = before.posts
  kills : after.kills ≤ before.kills + 1
  inTime : Enough pollInterval timeout rounds 0 → after.slept < before.slept + (timeout + pollInterval)

theorem Forced.stopping (forced : Forced pollInterval timeout rounds waited middle after) (quiet : Quiet runner middle)
    (slept : middle.slept = runner.slept + waited)
    (begun : Enough pollInterval timeout rounds 0 → Enough pollInterval timeout rounds waited) :
    Stopping pollInterval timeout rounds runner after where
  keeps := quiet.keeps.trans forced.keeps
  posts := forced.posts.trans quiet.posts
  kills := (forced.kills.trans (congrArg (· + 1) quiet.kills)).le
  inTime := by
    intro enough
    have below := forced.inTime (begun enough)
    omega

theorem Waiting.stopping (waiting : Waiting pollInterval timeout rounds 0 middle after) (quiet : Quiet runner middle)
    (slept : middle.slept = runner.slept) : Stopping pollInterval timeout rounds runner after where
  keeps := quiet.keeps.trans waiting.quiet.keeps
  posts := waiting.quiet.posts.trans quiet.posts
  kills := (waiting.quiet.kills.trans quiet.kills).le.trans (Nat.le_succ _)
  inTime := by
    intro enough
    have below := waiting.inTime enough
    omega

theorem Quiet.stopping (quiet : Quiet runner after) (slept : after.slept = runner.slept + waited)
    (begun : Enough pollInterval timeout rounds 0 → waited < timeout + pollInterval) :
    Stopping pollInterval timeout rounds runner after where
  keeps := quiet.keeps
  posts := quiet.posts
  kills := quiet.kills.le.trans (Nat.le_succ _)
  inTime := by
    intro enough
    have below := begun enough
    omega

/-- The ways in which `stop` raises. -/
def StopFailed (before : ThermosTaskRunner) (e : Raised) (after : ThermosTaskRunner) : Prop :=
  e = .osError ∨ KillFailed e ∧ after.killSignal = true ∧ after.kills = before.kills + 1

theorem forced_meets (quiet : Quiet runner middle) (told : middle.killSignal = true)
    (slept : middle.slept = runner.slept + waited)
    (begun : Enough pollInterval timeout rounds 0 → Enough pollInterval timeout rounds waited) :
    Meets (rebindToKill pollInterval timeout rounds waited) middle
      (fun _ after => Stopping pollInterval timeout rounds runner after ∧ after.killSignal = true ∧
        Stopped runner after)
      fun e after => Stopping pollInterval timeout rounds runner after ∧
        (Enough pollInterval timeout rounds 0 → StopFailed runner e after) := by
  refine rebindToKill_meets.weaken (fun _ after ⟨forced, looked, read, done⟩ => ?_) fun e after ⟨forced, ended⟩ => ?_
  · have kills := forced.kills.trans (congrArg (· + 1) quiet.kills)
    have set := (forced.keeps.1.told told).1
    exact ⟨forced.stopping quiet slept begun, set, .inr ⟨kills, looked, read.later quiet.keeps.1, done⟩⟩
  · have kills := forced.kills.trans (congrArg (· + 1) quiet.kills)
    have set := (forced.keeps.1.told told).1
    exact ⟨forced.stopping quiet slept begun, fun enough => .inr ⟨ended (begun enough), set, kills⟩⟩

theorem stop_meets (called : runner.forking = true) : Meets (stop pollInterval timeout rounds) runner
    (fun _ after => Stopping pollInterval timeout rounds runner after ∧ after.killSignal = true ∧ Stopped runner after)
    fun e after => Stopping pollInterval timeout rounds runner after ∧
      (Enough pollInterval timeout rounds 0 → StopFailed runner e after) := by
  unfold stop
  apply Meets.get
  simp only [called, Bool.not_true, Bool.false_eq_true, if_false]
  refine .bind terminateRunner_meets (fun _ told ⟨quiet, slept, set⟩ => ?_) fun e after ⟨same, quiet, slept⟩ => ?_
  · have possible (runner : ThermosTaskRunner) : Meets isAlive runner (fun _ after => Looked runner after)
        fun e after => e = .osError ∧ Looked runner after :=
      isAlive_meets.weaken (fun _ _ seen => seen.1) fun _ _ raised => raised
    refine .bind (await_meets possible) (fun waited middle ⟨awaited, sum, bound⟩ => ?_)
      fun e after ⟨waiting, ended⟩ => ?_
    · have begun (enough : Enough pollInterval timeout rounds 0) : Enough pollInterval timeout rounds waited := by
        have lasts := enough.2
        exact ⟨bound enough, by omega⟩
      have before := quiet.trans awaited
      have set := (awaited.keeps.1.told set).1
      refine .bind isAlive_meets (fun alive found ⟨seen, _, dead⟩ => ?_) fun e after ⟨same, seen⟩ => ?_
      · have reached := before.trans seen.quiet
        have told := (seen.keeps.1.told set).1
        have total : found.slept = runner.slept + waited := by
          rw [seen.slept]
          omega
        cases alive with
        | true => exact forced_meets reached told total begun
        | false =>
          simp only [Bool.false_eq_true, if_false]
          refine .bind taskState_meets (fun state last ⟨further, read⟩ => ?_) fun _ _ raised => raised
          have told := (further.keeps.1.told told).1
          have reached' := reached.trans further.quiet
          split_ifs with active
          · exact forced_meets reached' told (further.slept.trans total) begun
          · have same : last.popen = found.popen := by rw [further.same]
            have ended (forked : last.popen = true) : last.dead = true :=
              (further.keeps.1.dead (dead rfl (same.symm.trans forked))).1
            have ended' : Stopped runner last := by
              refine .inl ⟨reached'.kills, ended, fun bound => ?_⟩
              obtain ⟨looked, next, rfl⟩ := read (reached.monitor.trans bound)
              rcases next with next | default
              · have last := (ReadLast.of_next next).later reached.keeps.1
                exact ⟨looked, last, fun same => active (congrArg some same)⟩
              · exact absurd (by rw [default]) active
            exact .pure ⟨reached'.stopping (further.slept.trans total) fun enough => (begun enough).1, told, ended'⟩
      · have total : after.slept = runner.slept + waited := by
          rw [seen.slept]
          omega
        have stopping := (before.trans seen.quiet).stopping total fun enough => (begun enough).1
        exact ⟨stopping, fun _ => .inl same⟩
    · exact ⟨waiting.stopping quiet slept, fun enough => .inl (ended enough)⟩
  · have waiting : Waiting pollInterval timeout rounds 0 after after := .of_still .refl rfl
    exact ⟨waiting.stopping quiet slept, fun _ => .inl same⟩

theorem reason_meets (ended : runner.popen = true → runner.dead = true) : Meets reason runner
    (fun _ after => Looked runner after) fun e after => e = .osError ∧ Looked runner after := by
  unfold reason
  refine .bind computeStatus_meets (fun computed after ⟨seen, _, known⟩ => ?_) fun _ _ raised => raised
  cases computed with
  | none => exact absurd (known ended) Bool.false_ne_true
  | some result => exact .pure seen

def StartFailed (e : Raised) : Prop := e = .osError ∨ ∃ text, e = .taskError text

theorem waitStartLoop_meets : Meets (waitStartLoop pollInterval timeout rounds waited) runner
    (fun _ after => Waiting pollInterval timeout rounds waited runner after)
    fun e after => Waiting pollInterval timeout rounds waited runner after ∧
      (Enough pollInterval timeout rounds waited → StartFailed e) := by
  induction rounds generalizing runner waited with
  | zero => exact .throw ⟨⟨.refl, fun enough => absurd enough not_enough⟩, fun enough => absurd enough not_enough⟩
  | succ rounds ih =>
    unfold waitStartLoop
    split_ifs with early
    · refine .bind isStarted_meets (fun started looked ⟨seen, _⟩ => ?_) fun _ _ raised => raised
      cases started with
      | true =>
        simp only [if_true]
        exact .pure (.of_still seen.quiet seen.slept)
      | false =>
        simp only [Bool.false_eq_true, if_false]
        apply Meets.modify
        have before := seen.quiet.trans (quiet_slept pollInterval)
        have slept := seen.slept
        refine .bind isAlive_meets (fun alive middle ⟨further, _, dead⟩ => ?_) fun e after ⟨same, further⟩ => ?_
        · have quiet := before.trans further.quiet
          have total : middle.slept = runner.slept + pollInterval := by
            rw [further.slept]
            simp only [slept]
          cases alive with
          | true =>
            simp only [if_true]
            refine ih.weaken (fun _ after rest => ?_) fun e after ⟨rest, ended⟩ => ?_
            · exact .round quiet total early rest
            · exact ⟨.round quiet total early rest, fun enough => ended (enough.step early)⟩
          | false =>
            simp only [Bool.false_eq_true, if_false]
            apply Meets.get
            split_ifs
            · refine .bind (reason_meets (dead rfl)) (fun _ after told => ?_) fun e after ⟨same, told⟩ => ?_
              · exact .throw ⟨.lastRound quiet total early told, fun _ => .inr ⟨_, rfl⟩⟩
              · exact ⟨.lastRound quiet total early told, fun _ => .inl same⟩
            · refine .bind (reason_meets (dead rfl)) (fun _ after told => ?_) fun e after ⟨same, told⟩ => ?_
              · exact .pure (.lastRound quiet total early told)
              · exact ⟨.lastRound quiet total early told, fun _ => .inl same⟩
        · exact ⟨.lastRound before (by simp only [slept]) early further, fun _ => .inl same⟩
    · exact .pure (.of_still .refl rfl)

theorem waitStart_meets : Meets (waitStart pollInterval timeout rounds) runner
    (fun _ after => Waiting pollInterval timeout rounds 0 runner after ∧
      ∃ looked, ReadLast runner after looked ∧ (looked.active || looked.finished) = true)
    fun e after => Waiting pollInterval timeout rounds 0 runner after ∧
      (Enough pollInterval timeout rounds 0 → StartFailed e) := by
  unfold waitStart
  refine .bind waitStartLoop_meets (fun _ waited before => ?_) fun _ _ raised => raised
  refine .bind isStarted_meets (fun started middle ⟨seen, read⟩ => ?_) fun _ _ raised => raised
  have waiting := before.still seen.quiet seen.slept
  cases started with
  | true =>
    simp only [Bool.not_true, Bool.false_eq_true, if_false]
    obtain ⟨looked, up, last⟩ := read rfl
    exact .pure ⟨waiting, looked, (ReadLast.of_next last).later before.quiet.keeps.1, up⟩
  | false =>
    simp only [Bool.not_false, if_true]
    refine .bind terminateRunner_meets (fun _ after ⟨quiet, slept, _⟩ => ?_) fun e after ⟨same, quiet, slept⟩ => ?_
    · exact .throw ⟨waiting.still quiet slept, fun _ => .inr ⟨_, rfl⟩⟩
    · exact ⟨waiting.still quiet slept, fun _ => .inl same⟩

/-- What `start` does, whichever way it comes back. -/
structure Starting (pollInterval timeout rounds : Nat) (before after : ThermosTaskRunner) : Prop where
  keeps : Keeps before after
  posts : after.posts = before.posts
  kills : after.kills = before.kills
  inTime : Enough pollInterval timeout rounds 0 → after.slept < before.slept + (timeout + pollInterval)

theorem keeps_bound : Keeps runner { runner with forking := true, monitor := true } :=
  ⟨{ Later.refl with forking := fun _ => rfl }, fun sound => ⟨sound.once, sound.told, sound.running, sound.verdict, sound.forced⟩⟩

theorem keeps_forked : Keeps runner { runner with popen := true, forked := true } :=
  ⟨{ Later.refl with popen := fun _ => rfl }, fun sound => ⟨sound.once, sound.told, sound.running, sound.verdict, sound.forced⟩⟩

theorem start_meets : Meets (start pollInterval timeout rounds) runner
    (fun _ after => Starting pollInterval timeout rounds runner after ∧
      ∃ looked, ReadLast runner after looked ∧ (looked.active || looked.finished) = true)
    fun e after => Starting pollInterval timeout rounds runner after ∧
      (Enough pollInterval timeout rounds 0 → StartFailed e) := by
  unfold start
  apply Meets.modify
  refine .bind answer_meets (fun looked middle ⟨seen, _⟩ => ?_) fun _ _ raised => raised
  have keeps := keeps_bound.trans seen.keeps
  have posts : middle.posts = runner.posts := seen.quiet.posts
  have kills : middle.kills = runner.kills := seen.quiet.kills
  have slept : middle.slept = runner.slept := seen.slept
  cases looked.forkError with
  | some text =>
    refine .throw ⟨⟨keeps, posts, kills, fun enough => ?_⟩, fun _ => .inr ⟨text, rfl⟩⟩
    have begun := enough.1
    omega
  | none =>
    apply Meets.modify
    have forked := keeps.trans keeps_forked
    have starting {after : ThermosTaskRunner}
        (waiting : Waiting pollInterval timeout rounds 0 { middle with popen := true, forked := true } after) :
        Starting pollInterval timeout rounds runner after := by
      refine ⟨forked.trans waiting.quiet.keeps, waiting.quiet.posts.trans posts, waiting.quiet.kills.trans kills, ?_⟩
      intro enough
      have below := waiting.inTime enough
      simp only at below
      omega
    refine waitStart_meets.weaken (fun _ after ⟨waiting, looked, last, up⟩ => ?_) fun e after ⟨waiting, failed⟩ => ?_
    · exact ⟨starting waiting, looked, last.later forked.1, up⟩
    · exact ⟨starting waiting, failed⟩

end

section

open HttpLifecycleManager

variable {runner after : ThermosTaskRunner} {rounds waitTime waited : Nat} {endpoints : List (String × Nat)}

theorem awaitStatus_meets : Meets (awaitStatus waitTime rounds waited) runner
    (fun ended after => Waiting waitPollInterval waitTime rounds waited runner after ∧
      (ended = true → after.status.isSome = true))
    fun e after => Waiting waitPollInterval waitTime rounds waited runner after ∧
      (Enough waitPollInterval waitTime rounds waited → e = .osError) := by
  induction rounds generalizing runner waited with
  | zero => exact .throw ⟨⟨.refl, fun enough => absurd enough not_enough⟩, fun enough => absurd enough not_enough⟩
  | succ rounds ih =>
    unfold awaitStatus
    refine .bind getStatus_meets (fun status middle ⟨quiet, slept, known⟩ => ?_) fun e after ⟨same, seen⟩ => ?_
    · split_ifs with ended late
      · exact .pure ⟨.of_still quiet slept, fun _ => known ▸ ended⟩
      · exact .pure ⟨.of_still quiet slept, nofun⟩
      · apply Meets.modify
        have before := quiet.trans (quiet_slept waitPollInterval)
        have total : middle.slept + waitPollInterval = runner.slept + waitPollInterval := by rw [slept]
        have early := Nat.lt_of_not_le late
        refine ih.weaken (fun ended after ⟨rest, known⟩ => ?_) fun e after ⟨rest, raised⟩ => ?_
        · exact ⟨.round before total early rest, known⟩
        · exact ⟨.round before total early rest, fun enough => raised (enough.step early)⟩
    · exact ⟨.of_still seen.quiet seen.slept, fun _ => same⟩

def budget (endpoints : List (String × Nat)) : Nat := (endpoints.map fun endpoint => endpoint.2 + waitPollInterval).sum

/-- The rounds given to the loop after each call last until its time is up. -/
def Lasting (rounds : Nat) (endpoints : List (String × Nat)) : Prop :=
  ∀ endpoint ∈ endpoints, endpoint.2 + waitPollInterval ≤ rounds * waitPollInterval

/-- What the teardown over HTTP does: it calls some of the endpoints in their order, for as long as they can take. -/
structure Escalated (rounds : Nat) (endpoints called : List (String × Nat)) (before after : ThermosTaskRunner) :
    Prop where
  isPrefix : called <+: endpoints
  posts : after.posts = before.posts ++ called.map Prod.fst
  keeps : Keeps before after
  monitor : after.monitor = before.monitor
  kills : after.kills = before.kills
  inTime : Lasting rounds endpoints → after.slept ≤ before.slept + budget called

theorem Escalated.nil : Escalated rounds endpoints [] runner runner where
  isPrefix := List.nil_prefix
  posts := (List.append_nil _).symm
  keeps := .refl
  monitor := rfl
  kills := rfl
  inTime := fun _ => Nat.le_refl _

theorem Escalated.cons {middle : ThermosTaskRunner} {first : String × Nat} {called : List (String × Nat)}
    (one : Escalated rounds [first] [first] runner middle) (others : Escalated rounds endpoints called middle after) :
    Escalated rounds (first :: endpoints) (first :: called) runner after where
  isPrefix := List.cons_prefix_cons.mpr ⟨rfl, others.isPrefix⟩
  posts := by
    rw [others.posts, one.posts]
    simp
  keeps := one.keeps.trans others.keeps
  monitor := others.monitor.trans one.monitor
  kills := others.kills.trans one.kills
  inTime := by
    intro long
    unfold Lasting at long
    rw [List.forall_mem_cons] at long
    have sooner := one.inTime (by simpa [Lasting] using long.1)
    have later := others.inTime long.2
    simp only [budget, List.map_cons, List.sum_cons, List.map_nil, List.sum_nil] at sooner later ⊢
    omega

theorem keeps_posted (endpoint : String) : Keeps runner { runner with posts := runner.posts ++ [endpoint] } :=
  ⟨{ Later.refl with posts := List.prefix_append _ _ },
    fun sound => ⟨sound.once, sound.told, sound.running, sound.verdict, sound.forced⟩⟩

theorem terminateHttp_meets : Meets (terminateHttp rounds endpoints) runner
    (fun ended after => ∃ called, Escalated rounds endpoints called runner after ∧
      (ended = true → after.status.isSome = true) ∧ (ended = false → called = endpoints))
    fun e after => ∃ called, Escalated rounds endpoints called runner after ∧
      (Lasting rounds endpoints → e = .osError) := by
  induction endpoints generalizing runner with
  | nil => exact .pure ⟨[], .nil, nofun, fun _ => rfl⟩
  | cons first rest ih =>
    obtain ⟨endpoint, waitTime⟩ := first
    unfold terminateHttp
    apply Meets.modify
    refine .bind answer_meets (fun looked middle ⟨seen, _⟩ => ?_) fun _ _ raised => raised
    have keeps := (keeps_posted endpoint).trans seen.keeps
    have posts : middle.posts = runner.posts ++ [endpoint] := seen.quiet.posts
    have monitor : middle.monitor = runner.monitor := seen.quiet.monitor
    have kills : middle.kills = runner.kills := seen.quiet.kills
    have slept : middle.slept = runner.slept := seen.slept
    have one {last : ThermosTaskRunner} (waiting : Waiting waitPollInterval waitTime rounds 0 middle last) :
        Escalated rounds [(endpoint, waitTime)] [(endpoint, waitTime)] runner last := by
      refine ⟨List.prefix_rfl, waiting.quiet.posts.trans posts, keeps.trans waiting.quiet.keeps,
        waiting.quiet.monitor.trans monitor, waiting.quiet.kills.trans kills, fun long => ?_⟩
      have lasts := long _ List.mem_cons_self
      have positive : 0 < waitPollInterval := by decide
      have below := waiting.inTime ⟨by omega, by omega⟩
      simp only [budget, List.map_cons, List.sum_cons, List.map_nil, List.sum_nil]
      omega
    have others {last : ThermosTaskRunner}
        (first : Escalated rounds [(endpoint, waitTime)] [(endpoint, waitTime)] runner last) :
        Meets (terminateHttp rounds rest) last
          (fun ended after => ∃ called, Escalated rounds ((endpoint, waitTime) :: rest) called runner after ∧
            (ended = true → after.status.isSome = true) ∧ (ended = false → called = (endpoint, waitTime) :: rest))
          fun e after => ∃ called, Escalated rounds ((endpoint, waitTime) :: rest) called runner after ∧
            (Lasting rounds ((endpoint, waitTime) :: rest) → e = .osError) := by
      refine ih.weaken (fun ended after ⟨called, escalated, known, all⟩ => ?_)
        fun e after ⟨called, escalated, raised⟩ => ?_
      · exact ⟨_, first.cons escalated, known, fun ended => congrArg _ (all ended)⟩
      · exact ⟨_, first.cons escalated, fun long => raised (List.forall_mem_cons.mp long).2⟩
    split_ifs with handled
    · refine .bind awaitStatus_meets (fun ended last ⟨waiting, known⟩ => ?_) fun e last ⟨waiting, raised⟩ => ?_
      · cases ended with
        | true =>
          simp only [if_true]
          exact .pure ⟨_, (one waiting).cons .nil, fun _ => known rfl, nofun⟩
        | false =>
          simp only [Bool.false_eq_true, if_false]
          exact others (one waiting)
      · refine ⟨_, (one waiting).cons .nil, fun long => raised ?_⟩
        have lasts := long _ List.mem_cons_self
        have positive : 0 < waitPollInterval := by decide
        exact ⟨by omega, by omega⟩
    · exact others (one (.of_still .refl rfl))

/-- What `stop` does after the teardown over HTTP, whichever way it comes back. -/
structure TornDown (pollInterval timeout : Nat) (endpoints called : List (String × Nat))
    (before after : ThermosTaskRunner) : Prop where
  isPrefix : called <+: endpoints
  posts : after.posts = before.posts ++ called.map Prod.fst
  keeps : Keeps before after
  kills : after.kills ≤ before.kills + 1
  inTime : after.slept < before.slept + budget called + (timeout + pollInterval)

variable {pollInterval timeout : Nat} {manager : HttpLifecycleManager}

theorem Escalated.tornDown {middle : ThermosTaskRunner} {called : List (String × Nat)}
    (escalated : Escalated rounds endpoints called runner middle)
    (stopping : Stopping pollInterval timeout rounds middle after)
    (lasting : Lasting rounds endpoints) (enough : Enough pollInterval timeout rounds 0) :
    TornDown pollInterval timeout endpoints called runner after where
  isPrefix := escalated.isPrefix
  posts := stopping.posts.trans escalated.posts
  keeps := escalated.keeps.trans stopping.keeps
  kills := escalated.kills ▸ stopping.kills
  inTime := by
    have first := escalated.inTime lasting
    have rest := stopping.inTime enough
    omega

theorem Escalated.stopped {middle : ThermosTaskRunner} {called : List (String × Nat)}
    (escalated : Escalated rounds endpoints called runner middle) (stopped : Stopped middle after) :
    Stopped runner after := by
  rcases stopped with ⟨kills, ended, last⟩ | ⟨kills, looked, last, finished⟩
  · refine .inl ⟨kills.trans escalated.kills, ended, fun bound => ?_⟩
    obtain ⟨looked, last, inactive⟩ := last (escalated.monitor.trans bound)
    exact ⟨looked, last.later escalated.keeps.1, inactive⟩
  · exact .inr ⟨kills.trans (congrArg (· + 1) escalated.kills), looked, last.later escalated.keeps.1, finished⟩

section Witness

def web : HttpLifecycleManager where
  lifecyclePort := 31337
  escalationEndpoints := [("/quitquitquit", 5 * second), ("/abortabortabort", 5 * second)]
  started := true

def serving : ThermosTaskRunner where
  answers := [{ handled := true }, {}, { waited := .ended 0 }, { taskState := .success }, { taskState := .success }]
  popen := true
  monitor := true
  forking := true
  forked := true

end Witness

end

section Calls

variable {before middle after runner : ThermosTaskRunner} {pollInterval timeout rounds most more : Nat}
  {provided : Provided}

/-- What an operation keeps that kills the processes of the task at most so many times. -/
def Kills (most : Nat) (before after : ThermosTaskRunner) : Prop :=
  Keeps before after ∧ after.kills ≤ before.kills + most

theorem Kills.trans (first : Kills most before middle) (second : Kills more middle after) :
    Kills (most + more) before after := by
  obtain ⟨keeps, few⟩ := first
  obtain ⟨keeps', few'⟩ := second
  exact ⟨keeps.trans keeps', by omega⟩

theorem Quiet.never (quiet : Quiet before after) : Kills 0 before after := ⟨quiet.keeps, quiet.kills.le⟩

theorem stop_kills : Meets (stop pollInterval timeout rounds) runner (fun _ => Kills 1 runner) fun _ =>
    Kills 1 runner := by
  by_cases called : runner.forking = true
  · refine (stop_meets called).weaken (fun _ _ ⟨stopping, _⟩ => ?_) fun _ _ ⟨stopping, _⟩ => ?_
    · exact ⟨stopping.keeps, stopping.kills⟩
    · exact ⟨stopping.keeps, stopping.kills⟩
  · unfold stop
    apply Meets.get
    simp only [called, Bool.not_false, if_true]
    have first : Meets (throw (.taskError "Failed to call TaskRunner.start.") : Run Unit) runner (fun _ _ => False)
        fun _ => Kills 1 runner :=
      .throw ⟨.refl, Nat.le_succ _⟩
    exact .bind first (fun _ _ impossible => impossible.elim) fun _ _ kept => kept

theorem managed_stop_kills (manager : HttpLifecycleManager) :
    Meets (manager.stop pollInterval timeout rounds) runner (fun _ => Kills 1 runner) fun _ => Kills 1 runner := by
  unfold HttpLifecycleManager.stop
  split_ifs
  · exact .throw ⟨.refl, Nat.le_succ _⟩
  · refine .bind terminateHttp_meets (fun _ middle ⟨_, escalated, _⟩ => ?_) fun _ _ ⟨_, escalated, _⟩ => ?_
    · have first : Kills 0 runner middle := ⟨escalated.keeps, escalated.kills.le⟩
      exact stop_kills.weaken (fun _ _ kills => first.trans kills) fun _ _ kills => first.trans kills
    · exact ⟨escalated.keeps, escalated.kills.le.trans (Nat.le_succ _)⟩

theorem terminateRunner_kills {asLoss : Bool} :
    Kills 0 runner (Replay.final ((terminateRunner asLoss).run runner)) :=
  (terminateRunner_meets.weaken (fun _ _ told => told.1.never) fun _ _ failed => failed.2.1.never).final

def Call.limit : Call → Nat
  | .stop _ => 1
  | .start _ | .kill | .lose | .status => 0

theorem perform_kills (call : Call) :
    Kills call.limit provided.runner (perform pollInterval rounds provided call).runner := by
  obtain ⟨manager, runner⟩ := provided
  have start_kills (timeout : Nat) : Kills 0 runner (Replay.final ((start pollInterval timeout rounds).run runner)) :=
    (start_meets.weaken (fun _ _ ⟨starting, _⟩ => ⟨starting.keeps, starting.kills.le⟩)
      fun _ _ ⟨starting, _⟩ => ⟨starting.keeps, starting.kills.le⟩).final
  cases call with
  | start timeout =>
    cases manager with
    | none => exact start_kills timeout
    | some manager => exact start_kills timeout
  | stop timeout =>
    cases manager with
    | none => exact stop_kills.final
    | some manager => exact (managed_stop_kills manager).final
  | kill => exact terminateRunner_kills
  | lose => exact terminateRunner_kills
  | status => exact (getStatus_meets.weaken (fun _ _ got => got.1.never) fun _ _ failed => failed.2.quiet.never).final

theorem performed_kills (calls : List Call) :
    Kills (calls.map Call.limit).sum provided.runner (calls.foldl (perform pollInterval rounds) provided).runner := by
  induction calls generalizing provided with
  | nil => exact ⟨.refl, Nat.le_refl _⟩
  | cons call rest ih =>
    rw [List.map_cons, List.sum_cons]
    exact (perform_kills call).trans ih

end Calls

end Aurora.Executor.Lifecycle
