import Aurora.Thermos.Core.Lockstep
import Aurora.Thermos.Core.Loop
import Aurora.Thermos.Core.Recovery

namespace Aurora.Thermos

open Collections Guarantee Relation Replay

/-- What happens to a runner: one of its entry points is called, or it is gone and another one takes
    over its checkpoint. -/
inductive Enters (config : RunnerConfig) (kills : Prop) (restarts : World → Prop) (world : World) : World → Prop
  | run {rounds : Nat} {answers : List Answer} :
      Enters config kills restarts world (final ((TaskRunner.run config rounds).run { world with answers }))
  | kill {rounds : Nat} {answers : List Answer} {terminalStatus : TaskState} {preemptionWait : Time} (allowed : kills) :
      Enters config kills restarts world
        (final ((TaskRunner.kill config rounds terminalStatus preemptionWait).run { world with answers }))
  | lose {rounds : Nat} {answers : List Answer} (allowed : kills) :
      Enters config kills restarts world (final ((TaskRunner.lose config rounds).run { world with answers }))
  | restart {answers : List Answer} {runner : Runner} (allowed : restarts world)
      (created : TaskRunner.create config world.stream answers = .ok runner) :
      Enters config kills restarts world { world with runner, finalized := false }

/-- Any number of calls, each of which may have been cut off anywhere. -/
abbrev Lives (config : RunnerConfig) (kills : Prop) (restarts : World → Prop) : World → World → Prop :=
  ReflTransGen (Enters config kills restarts)

section Lives

variable {config : RunnerConfig} {kills : Prop} {restarts : World → Prop} {world after : World}

theorem final_of_within {α : Type} {action : Action α} {Post : α → World → Prop}
    (does : Within (Step config kills) action world Post) : ReflTransGen (Step config kills) world (final (action.run world)) := by
  cases ran : action.run world with
  | ok value after => exact (does.of_ok ran).1
  | error e after => exact does.of_error ran

theorem Enters.cases (enters : Enters config kills restarts world after) :
    ReflTransGen (Step config kills) world after ∨ ∃ runner answers, restarts world ∧
      TaskRunner.create config world.stream answers = .ok runner ∧ after = { world with runner, finalized := false } := by
  have answered : ∀ answers, Step config kills world { world with answers } := by
    intro answers
    exact .quiet (TaskRunner.calm_answers world answers).quiet
  cases enters with
  | run => exact .inl (.head (answered _) (final_of_within (TaskRunner.does_run _)))
  | kill allowed => exact .inl (.head (answered _) (final_of_within (TaskRunner.does_kill _ _ _ allowed)))
  | lose allowed => exact .inl (.head (answered _) (final_of_within (TaskRunner.does_kill _ _ _ allowed)))
  | restart allowed created => exact .inr ⟨_, _, allowed, created, rfl⟩

theorem lives_kept {Holds : World → Prop} (lives : Lives config kills restarts world after) (start : Holds world)
    (kept : ∀ before after, Holds before → Step config kills before after → Holds after)
    (restarted : ∀ before runner answers, Holds before → restarts before →
      TaskRunner.create config before.stream answers = .ok runner →
      Holds { before with runner, finalized := false }) : Holds after := by
  induction lives with
  | refl => exact start
  | tail _ enters ih =>
    rcases enters.cases with steps | ⟨runner, answers, allowed, created, rfl⟩
    · exact steps_kept kept steps ih
    · exact restarted _ runner answers ih allowed created

/-- Records are only added. -/
structure Extends (before after : World) : Prop where
  written : before.written <+: after.written
  refused : before.refused <+: after.refused
  started : before.started <+: after.started

theorem Step.grows (step : Step config kills world after) : Extends world after := by
  cases step with
  | quiet same => exact ⟨by rw [same.written], by rw [same.refused], by rw [same.started]⟩
  | refused => exact ⟨List.prefix_rfl, List.prefix_append _ _, List.prefix_rfl⟩
  | header => exact ⟨List.prefix_append _ _, List.prefix_rfl, List.prefix_rfl⟩
  | task => exact ⟨List.prefix_append _ _, List.prefix_rfl, List.prefix_rfl⟩
  | process => exact ⟨List.prefix_append _ _, List.prefix_rfl, List.prefix_rfl⟩
  | switch => exact ⟨List.prefix_rfl, List.prefix_rfl, List.prefix_rfl⟩
  | start => exact ⟨List.prefix_rfl, List.prefix_rfl, List.prefix_append _ _⟩
  | finalize => exact ⟨List.prefix_rfl, List.prefix_rfl, List.prefix_rfl⟩
  | kill => exact ⟨List.prefix_rfl, List.prefix_rfl, List.prefix_rfl⟩

theorem Extends.trans {first second third : World} (left : Extends first second) (right : Extends second third) :
    Extends first third :=
  ⟨left.written.trans right.written, left.refused.trans right.refused, left.started.trans right.started⟩

theorem Enters.grows (enters : Enters config kills restarts world after) : Extends world after := by
  rcases enters.cases with steps | ⟨runner, answers, _, _, rfl⟩
  · have kept : ∀ middle last, Extends world middle → Step config kills middle last → Extends world last :=
      fun middle last grown step => grown.trans step.grows
    exact steps_kept kept steps ⟨List.prefix_rfl, List.prefix_rfl, List.prefix_rfl⟩
  · exact ⟨List.prefix_rfl, List.prefix_rfl, List.prefix_rfl⟩

end Lives

end Aurora.Thermos
