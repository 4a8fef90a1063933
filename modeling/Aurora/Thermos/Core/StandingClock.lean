import Aurora.Thermos.Common.PlannerWait
import Aurora.Thermos.Core.Launches

namespace Aurora.Thermos

open Collections Replay

/-- The next so many readings of the clock all give the same time. -/
structure Stands (now : Time) (reads : Nat) (answers : List Answer) : Prop where
  enough : reads ≤ answers.length
  still : ∀ answer ∈ answers, answer.time = now

section Stands

variable {now : Time} {reads more : Nat} {answers : List Answer}

theorem Stands.tail (stands : Stands now (reads + 1) answers) : Stands now reads answers.tail where
  enough := by
    have enough := stands.enough
    rw [List.length_tail]
    omega
  still := fun answer member => stands.still answer (List.mem_of_mem_tail member)

theorem Stands.head (stands : Stands now (reads + 1) answers) : (answers.headD {}).time = now := by
  cases answers with
  | nil => exact absurd stands.enough (by simp)
  | cons answer answers => exact stands.still answer List.mem_cons_self

theorem Stands.drop (stands : Stands now (more + reads) answers) : Stands now reads (answers.drop more) where
  enough := by
    have enough := stands.enough
    rw [List.length_drop]
    omega
  still := fun answer member => stands.still answer (List.mem_of_mem_drop member)

theorem Stands.fewer (stands : Stands now reads answers) (less : more ≤ reads) : Stands now more answers :=
  ⟨less.trans stands.enough, stands.still⟩

end Stands

namespace TaskRunner

variable {now : Time} {reads : Nat} {world : World}

theorem getRunner_run (world : World) : getRunner.run world = .ok world.runner world := rfl

theorem clockTime_standing (stands : Stands now (reads + 1) world.answers) :
    clockTime.run world = .ok now { world with answers := world.answers.tail } := by
  rw [clockTime_run, stands.head]

theorem waiters_standing (plan : Plan) (names : List Name) (stands : Stands now names.length world.answers) :
    (waiters plan names).run world =
      .ok (names.filter (fun name => !(world.runner.planner plan).isReady name now))
        { world with answers := world.answers.drop names.length } := by
  induction names generalizing world with
  | nil => rfl
  | cons name rest ih =>
    have others := @ih { world with answers := world.answers.tail } stands.tail
    simp only [waiters, EStateM.run_bind, clockTime_standing stands, getRunner_run, others]
    cases ready : (world.runner.planner plan).isReady name now <;>
      simp [ready, EStateM.run_pure, List.drop_tail]

theorem waits_standing (plan : Plan) (names : List Name) (stands : Stands now names.length world.answers) :
    (waits plan names).run world =
      .ok (names.map (fun name => (world.runner.planner plan).getWait name now))
        { world with answers := world.answers.drop names.length } := by
  induction names generalizing world with
  | nil => rfl
  | cons name rest ih =>
    have others := @ih { world with answers := world.answers.tail } stands.tail
    simp only [waits, EStateM.run_bind, clockTime_standing stands, getRunner_run, others]
    simp [EStateM.run_pure, List.drop_tail]

theorem enumerate_run (names : Finset Name) (world : World) :
    ∃ listed, (enumerate names).run world = .ok listed { world with answers := world.answers.tail } ∧
      listed.length = names.card ∧ ∀ name, name ∈ listed ↔ name ∈ names := by
  have answered : answer.run world = .ok (world.answers.headD {}) { world with answers := world.answers.tail } := by
    obtain ⟨runner, answers, checkpoints, written, refused, started, finalized⟩ := world
    cases answers <;> rfl
  have once : ((world.answers.headD {}).order.dedup.filter (· ∈ names)).Nodup := (List.nodup_dedup _).filter _
  simp only [enumerate, EStateM.run_bind, answered, EStateM.run_pure]
  refine ⟨_, rfl, ?_, fun name => mem_listed⟩
  rw [← List.toFinset_card_of_nodup (nodup_listed once names)]
  congr 1
  ext name
  rw [List.mem_toFinset, mem_listed]

theorem shortest_eq_minWait {plan : TaskPlanner} {listed : List Name} (unready : plan.runnableAt now = ∅)
    (all : ∀ name, name ∈ listed ↔ name ∈ plan.waitingAt now) :
    ((listed.map (plan.getWait · now)).min?).getD floatMax = plan.minWait now := by
  rcases plan.planner.runnable.eq_empty_or_nonempty with idle | present
  · have nobody : listed = [] := by
      apply List.eq_nil_iff_forall_not_mem.mpr
      intro name member
      have waits := (TaskPlanner.mem_waitingAt.mp ((all name).mp member)).1
      rw [idle] at waits
      exact absurd waits (Finset.notMem_empty name)
    rw [nobody, TaskPlanner.minWait_of_idle idle]
    rfl
  · obtain ⟨first, waiting, same, least⟩ := TaskPlanner.minWait_of_waiting unready present
    have shortest : (listed.map (plan.getWait · now)).min? = some (plan.minWait now) := by
      rw [List.min?_eq_some_iff]
      constructor
      · rw [same]
        exact List.mem_map_of_mem ((all first).mpr waiting)
      · intro wait member
        obtain ⟨other, listed, rfl⟩ := List.mem_map.mp member
        exact least other ((all other).mp listed)
    rw [shortest]
    rfl

theorem shortest_run (times : List Time) (world : World) :
    (match times with
      | [] => (pure floatMax : Action Time)
      | first :: rest => pure (rest.foldl min first)).run world = .ok (times.min?.getD floatMax) world := by
  cases times <;> rfl

def lone : RunnerConfig where
  task := { processes := [{ name := "p" }] }
  totalRunLimit := 100

end TaskRunner

end Aurora.Thermos
