import Aurora.Executor.ThermosTaskRunner

namespace Aurora.Executor.Lifecycle

open Guarantee Lifecycle.ThermosTaskRunner

structure Later (before after : ThermosTaskRunner) : Prop where
  answers : after.answers <:+ before.answers
  popen : before.popen = true → after.popen = true
  forking : before.forking = true → after.forking = true
  dead : before.dead = true → after.dead = true ∧ after.popenSignal = before.popenSignal ∧
    after.popenRc = before.popenRc ∧ after.signals = before.signals
  told : before.killSignal = true → after.killSignal = true ∧ after.signals = before.signals
  status : before.status.isSome = true → after.status = before.status
  slept : before.slept ≤ after.slept
  posts : before.posts <+: after.posts

/-- A status is what follows from how the process ended, or from there being nothing known of it. -/
def Verdict (runner : ThermosTaskRunner) (result : StatusResult) : Prop :=
  result = ⟨"Task killed by signal None.", .killed⟩ ∨ runner.dead = true ∧ ∃ state,
    Executor.ThermosTaskRunner.computeStatus ⟨false, runner.popenSignal, runner.popenRc, state⟩ = some result

structure Sound (runner : ThermosTaskRunner) : Prop where
  once : runner.signals.length ≤ 1
  told : runner.killSignal = false → runner.signals = []
  running : runner.dead = false → runner.popenSignal = none
  verdict : ∀ result, runner.status = some result → Verdict runner result
  forced : runner.sigkills ≤ runner.kills

/-- What an operation keeps, whether it returns or raises. -/
def Keeps (before after : ThermosTaskRunner) : Prop := Later before after ∧ (Sound before → Sound after)

section

variable {before middle after runner : ThermosTaskRunner}

theorem Later.refl : Later runner runner where
  answers := List.suffix_rfl
  popen := id
  forking := id
  dead := fun dead => ⟨dead, rfl, rfl, rfl⟩
  told := fun told => ⟨told, rfl⟩
  status := fun _ => rfl
  slept := Nat.le_refl _
  posts := List.prefix_rfl

theorem Later.trans (first : Later before middle) (second : Later middle after) : Later before after where
  answers := second.answers.trans first.answers
  popen := fun forked => second.popen (first.popen forked)
  forking := fun called => second.forking (first.forking called)
  dead := by
    intro dead
    obtain ⟨dead, signal, rc, signals⟩ := first.dead dead
    obtain ⟨dead', signal', rc', signals'⟩ := second.dead dead
    exact ⟨dead', signal'.trans signal, rc'.trans rc, signals'.trans signals⟩
  told := by
    intro told
    obtain ⟨told, signals⟩ := first.told told
    obtain ⟨told', signals'⟩ := second.told told
    exact ⟨told', signals'.trans signals⟩
  status := by
    intro known
    have same := first.status known
    rw [← same] at known
    exact (second.status known).trans same
  slept := Nat.le_trans first.slept second.slept
  posts := first.posts.trans second.posts

theorem Keeps.refl : Keeps runner runner := ⟨.refl, id⟩

theorem Keeps.trans (first : Keeps before middle) (second : Keeps middle after) : Keeps before after :=
  ⟨first.1.trans second.1, fun sound => second.2 (first.2 sound)⟩

theorem Verdict.later {result : StatusResult} (later : Later before after) (verdict : Verdict before result) :
    Verdict after result := by
  rcases verdict with unknown | ⟨dead, state, computed⟩
  · exact .inl unknown
  · obtain ⟨dead', signal, rc, _⟩ := later.dead dead
    rw [← signal, ← rc] at computed
    exact .inr ⟨dead', state, computed⟩

end

/-- What an operation does that neither posts nor kills the processes of the task. -/
structure Quiet (before after : ThermosTaskRunner) : Prop where
  keeps : Keeps before after
  monitor : after.monitor = before.monitor
  posts : after.posts = before.posts
  kills : after.kills = before.kills

theorem Quiet.refl {runner : ThermosTaskRunner} : Quiet runner runner := ⟨.refl, rfl, rfl, rfl⟩

theorem Quiet.trans {before middle after : ThermosTaskRunner} (first : Quiet before middle)
    (second : Quiet middle after) : Quiet before after where
  keeps := first.keeps.trans second.keeps
  monitor := second.monitor.trans first.monitor
  posts := second.posts.trans first.posts
  kills := second.kills.trans first.kills

structure Looked (before after : ThermosTaskRunner) : Prop where
  same : after = { before with
    answers := after.answers, popenSignal := after.popenSignal, popenRc := after.popenRc, dead := after.dead }
  keeps : Keeps before after

section

variable {before middle after runner : ThermosTaskRunner}

theorem Looked.refl : Looked runner runner := ⟨rfl, .refl⟩

theorem Looked.trans (first : Looked before middle) (second : Looked middle after) : Looked before after where
  same := by
    rw [second.same, first.same]
  keeps := first.keeps.trans second.keeps

theorem Looked.quiet (looked : Looked before after) : Quiet before after where
  keeps := looked.keeps
  monitor := by rw [looked.same]
  posts := by rw [looked.same]
  kills := by rw [looked.same]

theorem Looked.slept (looked : Looked before after) : after.slept = before.slept := by rw [looked.same]

theorem Looked.killSignal (looked : Looked before after) : after.killSignal = before.killSignal := by rw [looked.same]

theorem Looked.signals (looked : Looked before after) : after.signals = before.signals := by rw [looked.same]

theorem keeps_answers {rest : List Answer} (shorter : rest <:+ runner.answers) :
    Keeps runner { runner with answers := rest } :=
  ⟨{ Later.refl with answers := shorter }, fun sound => ⟨sound.once, sound.told, sound.running, sound.verdict, sound.forced⟩⟩

theorem answer_meets {Raised : _ → _ → Prop} : Meets answer runner
    (fun looked after => Looked runner after ∧ after.dead = runner.dead ∧
      (runner.answers = looked :: after.answers ∨ looked = {})) Raised := by
  cases left : runner.answers with
  | nil =>
    have ran : answer.run runner = .ok {} runner := by
      simp only [answer, EStateM.run, left]
    exact .ok ran ⟨.refl, rfl, .inr rfl⟩
  | cons first rest =>
    have ran : answer.run runner = .ok first { runner with answers := rest } := by
      simp only [answer, EStateM.run, left]
    refine .ok ran ⟨⟨rfl, keeps_answers ?_⟩, rfl, .inl rfl⟩
    rw [left]
    exact List.suffix_cons first rest

theorem keeps_dead {signal rc : Option Int} (alive : runner.dead = false) :
    Keeps runner { runner with popenSignal := signal, popenRc := rc, dead := true } := by
  constructor
  · exact { Later.refl with dead := fun dead => absurd (alive.symm.trans dead) Bool.false_ne_true }
  · intro sound
    constructor
    · exact sound.once
    · exact sound.told
    · intro running
      cases running
    · intro result known
      rcases sound.verdict result known with unknown | ⟨dead, _⟩
      · exact .inl unknown
      · rw [alive] at dead
        cases dead
    · exact sound.forced

theorem isAlive_meets : Meets isAlive runner
    (fun alive after => Looked runner after ∧ (alive = true → after.dead = false ∧ runner.popen = true) ∧
      (alive = false → after.popen = true → after.dead = true))
    fun e after => e = .osError ∧ Looked runner after := by
  unfold isAlive
  apply Meets.get
  by_cases forked : runner.popen = true
  · by_cases dead : runner.dead = true
    · simp only [forked, dead, Bool.not_true, Bool.false_eq_true, if_false, if_true]
      exact .pure ⟨.refl, nofun, fun _ _ => dead⟩
    · simp only [forked, dead, Bool.not_true, Bool.false_eq_true, if_false]
      refine .bind answer_meets (fun looked middle ⟨seen, unchanged, _⟩ => ?_) fun _ _ raised => raised
      have alive : middle.dead = false := unchanged.trans (by simpa using dead)
      cases looked.waited with
      | running => exact .pure ⟨seen, fun _ => ⟨alive, trivial⟩, nofun⟩
      | ended status =>
        apply Meets.modify
        exact .pure ⟨seen.trans ⟨rfl, keeps_dead alive⟩, nofun, fun _ _ => rfl⟩
      | noChild =>
        apply Meets.modify
        exact .pure ⟨seen.trans ⟨rfl, keeps_dead alive⟩, nofun, fun _ _ => rfl⟩
      | osError => exact .throw ⟨rfl, seen⟩
  · simp only [forked, Bool.not_false, if_true]
    exact .pure ⟨.refl, nofun, fun _ started => absurd started forked⟩

theorem taskState_meets {Raised : _ → _ → Prop} : Meets taskState runner
    (fun state after => Looked runner after ∧ (runner.monitor = true →
      ∃ looked, (runner.answers = looked :: after.answers ∨ looked = {}) ∧ state = some looked.taskState)) Raised := by
  unfold taskState
  apply Meets.get
  by_cases bound : runner.monitor = true
  · simp only [bound, if_true]
    refine .bind answer_meets (fun looked after ⟨seen, _, read⟩ => ?_) fun _ _ raised => raised
    exact .pure ⟨seen, fun _ => ⟨looked, read, rfl⟩⟩
  · simp only [bound]
    exact .pure ⟨.refl, nofun⟩

theorem isStarted_meets {Raised : _ → _ → Prop} : Meets isStarted runner
    (fun started after => Looked runner after ∧ (started = true →
      ∃ looked, (looked.active || looked.finished) = true ∧ runner.answers = looked :: after.answers)) Raised := by
  unfold isStarted
  apply Meets.get
  by_cases bound : runner.monitor = true
  · simp only [bound, if_true]
    refine .bind answer_meets (fun looked after ⟨seen, _, read⟩ => ?_) fun _ _ raised => raised
    refine .pure ⟨seen, fun started => ⟨looked, started, ?_⟩⟩
    rcases read with read | default
    · exact read
    · rw [default] at started
      cases started
  · simp only [bound]
    exact .pure ⟨.refl, nofun⟩

theorem verdict_of_dead {result : StatusResult} {state : Option Thermos.TaskState} (sound : Sound runner)
    (computed : Executor.ThermosTaskRunner.computeStatus ⟨false, runner.popenSignal, runner.popenRc, state⟩ =
      some result) : Verdict runner result := by
  by_cases dead : runner.dead = true
  · exact .inr ⟨dead, state, computed⟩
  · have unknown := sound.running (by simpa using dead)
    rw [unknown] at computed
    exact .inl (Option.some.inj computed).symm

theorem computeStatus_isSome {signal rc : Option Int} {state : Option Thermos.TaskState} :
    (Executor.ThermosTaskRunner.computeStatus ⟨false, signal, rc, state⟩).isSome = true := by
  unfold Executor.ThermosTaskRunner.computeStatus
  simp only [Bool.false_eq_true, if_false]
  split_ifs <;> rfl

theorem computeStatus_meets : Meets computeStatus runner
    (fun computed after => Looked runner after ∧
      (∀ result, Sound runner → computed = some result → Verdict after result) ∧
      ((runner.popen = true → runner.dead = true) → computed.isSome = true))
    fun e after => e = .osError ∧ Looked runner after := by
  unfold computeStatus
  refine .bind isAlive_meets (fun alive middle ⟨seen, running, _⟩ => ?_) fun _ _ raised => raised
  cases alive with
  | true =>
    refine .pure ⟨seen, nofun, fun ended => ?_⟩
    obtain ⟨alive, forked⟩ := running rfl
    have dead := (seen.keeps.1.dead (ended forked)).1
    exact absurd (alive.symm.trans dead) Bool.false_ne_true
  | false =>
    simp only [Bool.false_eq_true, if_false]
    apply Meets.get
    split_ifs
    · refine .bind taskState_meets (fun state after ⟨further, _⟩ => ?_) fun _ _ raised => raised
      refine .pure ⟨seen.trans further, fun result sound computed => ?_, fun _ => computeStatus_isSome⟩
      exact (verdict_of_dead (seen.keeps.2 sound) computed).later further.keeps.1
    · refine .pure ⟨seen, fun result sound computed => ?_, fun _ => computeStatus_isSome⟩
      exact verdict_of_dead (seen.keeps.2 sound) computed

theorem Looked.keeps_status {computed : Option StatusResult} (seen : Looked runner after)
    (unknown : runner.status = none) (verdict : ∀ result, Sound runner → computed = some result → Verdict after result) :
    Keeps runner { after with status := computed } := by
  constructor
  · have later := seen.keeps.1
    refine { later with status := fun known => ?_ }
    rw [unknown] at known
    cases known
  · intro sound
    have kept := seen.keeps.2 sound
    exact ⟨kept.once, kept.told, kept.running, fun result known => verdict result sound known, kept.forced⟩

theorem getStatus_meets : Meets getStatus runner
    (fun status after => Quiet runner after ∧ after.slept = runner.slept ∧ status = after.status)
    fun e after => e = .osError ∧ Looked runner after := by
  unfold getStatus
  apply Meets.get
  cases known : runner.status with
  | some result =>
    simp only [Option.isNone_some, Bool.false_eq_true, if_false]
    exact .get (.pure ⟨.refl, rfl, rfl⟩)
  | none =>
    simp only [Option.isNone_none, if_true]
    refine .bind computeStatus_meets (fun computed after ⟨seen, verdict, _⟩ => ?_) fun _ _ raised => raised
    apply Meets.modify
    have quiet := { seen.quiet with keeps := seen.keeps_status known verdict }
    exact .get (.pure ⟨⟨quiet.keeps, quiet.monitor, quiet.posts, quiet.kills⟩, seen.slept, rfl⟩)

theorem keeps_told (untold : runner.killSignal = false) : Keeps runner { runner with killSignal := true } := by
  constructor
  · exact { Later.refl with told := fun told => absurd (untold.symm.trans told) Bool.false_ne_true }
  · intro sound
    exact ⟨sound.once, nofun, sound.running, sound.verdict, sound.forced⟩

theorem keeps_sent (untold : runner.killSignal = false) (seen : Looked { runner with killSignal := true } after)
    (running : after.dead = false) (sent : Signal) :
    Keeps runner { after with signals := after.signals ++ [sent] } := by
  have keeps := (keeps_told untold).trans seen.keeps
  constructor
  · have later := keeps.1
    refine { later with dead := fun dead => ?_, told := fun told => absurd (untold.symm.trans told) Bool.false_ne_true }
    exact absurd (running.symm.trans (later.dead dead).1) Bool.false_ne_true
  · intro sound
    have kept := keeps.2 sound
    have none : after.signals = [] := seen.signals.trans (sound.told untold)
    constructor
    · simp [none]
    · intro told
      have set : after.killSignal = true := seen.killSignal
      exact absurd (told.symm.trans set) Bool.false_ne_true
    · exact kept.running
    · exact kept.verdict
    · exact kept.forced

theorem terminateRunner_meets {asLoss : Bool} : Meets (terminateRunner asLoss) runner
    (fun _ after => Quiet runner after ∧ after.slept = runner.slept ∧ after.killSignal = true)
    fun e after => e = .osError ∧ Quiet runner after ∧ after.slept = runner.slept := by
  unfold terminateRunner
  apply Meets.get
  by_cases told : runner.killSignal = true
  · simp only [told, if_true]
    exact .pure ⟨.refl, rfl, told⟩
  · have untold : runner.killSignal = false := by simpa using told
    simp only [untold, Bool.false_eq_true, if_false]
    apply Meets.modify
    have quiet : Quiet runner { runner with killSignal := true } := ⟨keeps_told untold, rfl, rfl, rfl⟩
    refine .bind isAlive_meets (fun alive after ⟨seen, running, _⟩ => ?_) fun e after ⟨same, seen⟩ => ?_
    · have still := quiet.trans seen.quiet
      cases alive with
      | true =>
        have keeps := keeps_sent untold seen (running rfl).1
        exact .modified ⟨⟨keeps _, still.monitor, still.posts, still.kills⟩, seen.slept, seen.killSignal⟩
      | false => exact .pure ⟨still, seen.slept, seen.killSignal⟩
    · exact ⟨same, quiet.trans seen.quiet, seen.slept⟩

theorem quiet_slept (duration : Nat) : Quiet runner { runner with slept := runner.slept + duration } := by
  refine ⟨⟨?_, fun sound => ?_⟩, rfl, rfl, rfl⟩
  · exact { Later.refl with slept := Nat.le_add_right _ _ }
  · exact ⟨sound.once, sound.told, sound.running, sound.verdict, sound.forced⟩

end

/-- The rounds given to a loop that has waited for some time already last until its time is up. -/
def Enough (pollInterval timeout rounds waited : Nat) : Prop :=
  waited < timeout + pollInterval ∧ timeout + pollInterval ≤ waited + rounds * pollInterval

section

variable {runner after : ThermosTaskRunner} {pollInterval timeout rounds waited : Nat}

theorem Enough.step (enough : Enough pollInterval timeout (rounds + 1) waited) (early : waited < timeout) :
    Enough pollInterval timeout rounds (waited + pollInterval) := by
  obtain ⟨_, lasts⟩ := enough
  rw [Nat.succ_mul] at lasts
  constructor
  · omega
  · omega

theorem not_enough : ¬ Enough pollInterval timeout 0 waited := by
  intro enough
  obtain ⟨below, lasts⟩ := enough
  omega

/-- Outcome of a wait that had gone on for some time: where it had rounds enough, it ends by itself and in time. -/
structure Waiting (pollInterval timeout rounds waited : Nat) (before after : ThermosTaskRunner) : Prop where
  quiet : Quiet before after
  inTime : Enough pollInterval timeout rounds waited → after.slept + waited < before.slept + (timeout + pollInterval)

theorem Waiting.of_still (quiet : Quiet runner after) (slept : after.slept = runner.slept) :
    Waiting pollInterval timeout rounds waited runner after where
  quiet := quiet
  inTime := by
    intro enough
    have below := enough.1
    omega

/-- A round of a wait: some looks, a sleep, and the rounds that are left. -/
theorem Waiting.round {middle : ThermosTaskRunner} (quiet : Quiet runner middle)
    (slept : middle.slept = runner.slept + pollInterval) (early : waited < timeout)
    (rest : Waiting pollInterval timeout rounds (waited + pollInterval) middle after) :
    Waiting pollInterval timeout (rounds + 1) waited runner after where
  quiet := quiet.trans rest.quiet
  inTime := by
    intro enough
    have bound := rest.inTime (enough.step early)
    omega

theorem Waiting.still {middle : ThermosTaskRunner} (waiting : Waiting pollInterval timeout rounds waited runner middle)
    (quiet : Quiet middle after) (slept : after.slept = middle.slept) :
    Waiting pollInterval timeout rounds waited runner after where
  quiet := waiting.quiet.trans quiet
  inTime := by
    rw [slept]
    exact waiting.inTime

theorem Waiting.lastRound {middle : ThermosTaskRunner} (quiet : Quiet runner middle)
    (slept : middle.slept = runner.slept + pollInterval) (early : waited < timeout) (seen : Looked middle after) :
    Waiting pollInterval timeout (rounds + 1) waited runner after :=
  .round quiet slept early (.of_still seen.quiet seen.slept)

theorem await_meets {going : Run Bool} {Possible : Raised → Prop}
    (looks : ∀ runner, Meets going runner (fun _ after => Looked runner after)
      fun e after => Possible e ∧ Looked runner after) :
    Meets (await pollInterval going timeout rounds waited) runner
      (fun total after => Quiet runner after ∧ after.slept + waited = runner.slept + total ∧
        (Enough pollInterval timeout rounds waited → total < timeout + pollInterval))
      fun e after => Waiting pollInterval timeout rounds waited runner after ∧
        (Enough pollInterval timeout rounds waited → Possible e) := by
  induction rounds generalizing runner waited with
  | zero => exact .throw ⟨⟨.refl, fun enough => absurd enough not_enough⟩, fun enough => absurd enough not_enough⟩
  | succ rounds ih =>
    unfold await
    refine .bind (looks runner) (fun alive middle seen => ?_) fun e after ⟨possible, seen⟩ => ?_
    · cases alive with
      | false =>
        simp only [Bool.false_eq_true, if_false]
        refine .pure ⟨seen.quiet, ?_, And.left⟩
        rw [seen.slept]
      | true =>
        simp only [if_true]
        split_ifs with early
        · apply Meets.modify
          have slept := seen.slept
          have quiet := seen.quiet.trans (quiet_slept pollInterval)
          refine ih.weaken (fun total after ⟨further, sum, bound⟩ => ?_) fun e after ⟨waiting, ended⟩ => ?_
          · refine ⟨quiet.trans further, ?_, fun enough => bound (enough.step early)⟩
            simp only at sum
            omega
          · refine ⟨.round quiet ?_ early waiting, fun enough => ended (enough.step early)⟩
            simp only
            omega
        · refine .pure ⟨seen.quiet, ?_, And.left⟩
          rw [seen.slept]
    · exact ⟨.of_still seen.quiet seen.slept, fun _ => possible⟩

theorem monitorFinished_meets {Raised : _ → _ → Prop} : Meets monitorFinished runner
    (fun finished after => Looked runner after ∧ (finished = true →
      ∃ looked, looked.finished = true ∧ runner.answers = looked :: after.answers)) Raised := by
  unfold monitorFinished
  refine .bind answer_meets (fun looked after ⟨seen, _, read⟩ => ?_) fun _ _ raised => raised
  refine .pure ⟨seen, fun finished => ⟨looked, finished, ?_⟩⟩
  rcases read with read | default
  · exact read
  · rw [default] at finished
    cases finished

end

end Aurora.Executor.Lifecycle
