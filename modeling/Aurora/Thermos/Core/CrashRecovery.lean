import Aurora.Thermos.Core.Rebuild

namespace Aurora.Thermos

open Collections Guarantee Relation Replay

namespace TaskRunner

section Recovery

variable {config : RunnerConfig} {kills : Prop}

theorem lives_faithful {first world : World} (lives : Lives config kills (fun _ => True) first world)
    (faithful : world.Faithful) : Lives config kills World.Faithful first world := by
  induction lives with
  | refl => exact .refl
  | tail _ enters ih =>
    have earlier := faithful.of_grown enters.grows
    refine .tail (ih earlier) ?_
    cases enters with
    | run => exact .run
    | kill allowed => exact .kill allowed
    | lose allowed => exact .lose allowed
    | restart _ created => exact .restart earlier created

/-- The runner once the last record of a prefix has been handled: just before it writes the next one. -/
def handledAt (world : World) : List (Runner × RunnerCkpt) → Runner
  | [] => world.runner
  | (runner, _) :: _ => runner

/-- A checkpoint stream whose records were all written between two handlers, with updates that fit the
    plans, rebuilds the runner as it was, prefix by prefix and across restarts. -/
theorem prefixes_rebuild (config : RunnerConfig) {first : Runner} {answers : List Answer}
    (created : create config [] answers = .ok first) {world : World}
    (lives : Lives config True (fun _ => True) { runner := first } world)
    (faithful : world.Faithful) (fitting : world.Fitting) {before after : List (Runner × RunnerCkpt)}
    (split : world.written = before ++ after) (later : List Answer) :
    ∃ recovered, create config (before.map Prod.snd) later = .ok recovered ∧
      ((handledAt world after).core.Switched → recovered.core = (handledAt world after).core) := by
  have sound := sound_of_lives created (lives_faithful lives faithful) (fun _ careful => careful) fitting
  have tracked := sound.tracked faithful
  have rebuilt : ∀ core, Rebuilds config (before.map Prod.snd) core →
      ∃ recovered, create config (before.map Prod.snd) later = .ok recovered ∧ recovered.core = core := by
    intro core rebuilds
    have fresh := create_nil created
    obtain ⟨rebuilt, ran, same, _⟩ := rebuilds first fresh later
    exact ⟨rebuilt.runner, create_eq_ok.mpr ⟨first, rebuilt, fresh, ran, rfl⟩, same⟩
  cases after with
  | nil =>
    rw [List.append_nil] at split
    have now := tracked.now
    unfold World.stream at now
    rw [split] at now
    obtain ⟨recovered, ran, same⟩ := rebuilt _ now
    refine ⟨recovered, ran, ?_⟩
    intro switched
    rw [same]
    exact switched.settled
  | cons entry rest =>
    obtain ⟨recovered, ran, same⟩ := rebuilt _ (tracked.earlier before entry rest split)
    exact ⟨recovered, ran, fun _ => same⟩

end Recovery

section Serving

def raised {α : Type} : Except Error α → Option Error
  | .ok _ => none
  | .error e => some e

theorem eq_error_of_raised {α : Type} {result : Except Error α} {e : Error} (found : raised result = some e) :
    result = .error e := by
  cases result with
  | ok value => cases found
  | error other => exact congrArg Except.error (Option.some.inj found)

def checked (config : RunnerConfig) (holds : Runner → Bool) : Bool :=
  match create config [] [] with
  | .error _ => false
  | .ok first => holds first

theorem created_of_checked {config : RunnerConfig} {holds : Runner → Bool} (passed : checked config holds = true) :
    ∃ first, create config [] [] = .ok first ∧ holds first = true := by
  unfold checked at passed
  cases created : create config [] [] with
  | error e =>
    rw [created] at passed
    cases passed
  | ok first =>
    rw [created] at passed
    exact ⟨first, rfl, passed⟩

def serving : RunnerConfig where
  task := { processes := [{ name := "serve" }] }
  totalRunLimit := 100

/-- The process is launched, and its FORKED record is read. -/
def servingRun (first : Runner) : World := final ((run serving 2).run { runner := first })

def killedRun (first : Runner) : World := final ((kill serving 3 .killed 60).run { servingRun first with answers := [] })

theorem servingRun_lives (first : Runner) :
    Lives serving True (fun _ => True) { runner := first } (servingRun first) :=
  .single (@Enters.run serving True (fun _ => True) { runner := first } 2 [])

def servingChecks (first : Runner) : Bool :=
  (servingRun first).refused.isEmpty ∧ (∀ entry ∈ (servingRun first).written, entry.1.core.Switched) ∧
    (servingRun first).Fitting

theorem servingChecks_pass : checked serving servingChecks = true := by decide +kernel

theorem servingRun_faithful {first : Runner} (passed : servingChecks first = true) :
    (servingRun first).Faithful ∧ (servingRun first).Fitting := by
  obtain ⟨none_refused, switched, fitting⟩ := of_decide_eq_true passed
  exact ⟨⟨switched, World.traceless_of_none (List.isEmpty_iff.mp none_refused)⟩, fitting⟩

theorem prefixes_rebuild_serving : ∃ first, create serving [] [] = .ok first ∧
    ∃ recovered, create serving (((servingRun first).written.take 3).map Prod.snd) [] = .ok recovered ∧
      ((handledAt (servingRun first) ((servingRun first).written.drop 3)).core.Switched →
        recovered.core = (handledAt (servingRun first) ((servingRun first).written.drop 3)).core) := by
  obtain ⟨first, created, passed⟩ := created_of_checked servingChecks_pass
  obtain ⟨faithful, fitting⟩ := servingRun_faithful passed
  exact ⟨first, created, prefixes_rebuild serving created (servingRun_lives first) faithful fitting
    (List.take_append_drop 3 _).symm []⟩

def killedChecks (first : Runner) : Bool := raised (create serving (killedRun first).stream []) = some .assertion

theorem killedChecks_pass : checked serving killedChecks = true := by decide +kernel

/-- The kill writes that the process is lost while the regular plan is still selected, but replaying the
    record before has selected the finalizing plan. -/
theorem killed_stream_raises : ∃ first, create serving [] [] = .ok first ∧
    Lives serving True (fun _ => True) { runner := first } (killedRun first) ∧
      create serving (killedRun first).stream [] = .error .assertion := by
  obtain ⟨first, created, passed⟩ := created_of_checked killedChecks_pass
  refine ⟨first, created, ?_, eq_error_of_raised (of_decide_eq_true passed)⟩
  exact .tail (servingRun_lives first)
    (@Enters.kill serving True (fun _ => True) (servingRun first) 3 [] .killed 60 trivial)

end Serving

end TaskRunner

end Aurora.Thermos
