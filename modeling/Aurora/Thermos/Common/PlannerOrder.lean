import Aurora.Thermos.Common.PlannerCounts
import Mathlib.Data.Finset.Max

namespace Aurora.Thermos

open Collections Replay Relation

namespace TaskPlanner

section Daemons

variable {map : Dict Name Process} {names : List Name} {need process : Name}

theorem addOrder_ordinary {dependencies result : Name → Finset Name}
    (added : addOrder map names dependencies = .ok result) (pair : [need, process] <:+: names) :
    ∃ before, map.get? need = some before ∧ before.daemon = false := by
  induction names generalizing dependencies with
  | nil => simp at pair
  | cons pnk1 tail ih =>
    cases tail with
    | nil =>
      have long := pair.length_le
      simp at long
    | cons pnk rest =>
      unfold addOrder at added
      cases one : map.get? pnk1 with
      | none => simp [one] at added
      | some before =>
        cases two : map.get? pnk with
        | none => simp [one, two] at added
        | some after =>
          simp only [one, two] at added
          split_ifs at added with daemon
          rcases (pair_infix_cons need process pnk1 pnk rest).mp pair with ⟨rfl, rfl⟩ | inside
          · exact ⟨before, one, by simpa using daemon⟩
          · exact ih added inside

theorem addConstraints_ordinary {processes : Finset Name} {constraints : List Constraint} {constraint : Constraint}
    {dependencies result : Name → Finset Name}
    (added : addConstraints map processes constraints dependencies = .ok result) (listed : constraint ∈ constraints)
    (inside : ∀ name ∈ constraint.order, name ∈ processes) (pair : [need, process] <:+: constraint.order) :
    ∃ before, map.get? need = some before ∧ before.daemon = false := by
  induction constraints generalizing dependencies with
  | nil => simp at listed
  | cons first rest ih =>
    simp only [addConstraints] at added
    have within : first.order.toFinset ⊆ processes ↔ ∀ name ∈ first.order, name ∈ processes := by
      simp [Finset.subset_iff]
    split_ifs at added with invalid known
    · cases step : addOrder map first.order dependencies with
      | error e =>
        rw [step] at added
        cases added
      | ok extended =>
        rw [step] at added
        rcases List.mem_cons.mp listed with rfl | later
        · exact addOrder_ordinary step pair
        · exact ih added later
    · rcases List.mem_cons.mp listed with rfl | later
      · exact absurd (within.mpr inside) known
      · exact ih added later

theorem addConstraints_whole {processes : Finset Name} {constraints : List Constraint} {constraint : Constraint}
    {dependencies result : Name → Finset Name}
    (added : addConstraints map processes constraints dependencies = .ok result) (listed : constraint ∈ constraints)
    (member : need ∈ constraint.order) (known : need ∈ processes) : ∀ name ∈ constraint.order, name ∈ processes := by
  induction constraints generalizing dependencies with
  | nil => simp at listed
  | cons first rest ih =>
    simp only [addConstraints] at added
    split_ifs at added with invalid inside
    · cases step : addOrder map first.order dependencies with
      | error e =>
        rw [step] at added
        cases added
      | ok extended =>
        rw [step] at added
        rcases List.mem_cons.mp listed with rfl | later
        · exact fun name listed => inside (List.mem_toFinset.mpr listed)
        · exact ih added later
    · rcases List.mem_cons.mp listed with rfl | later
      · have apart : ¬ Disjoint constraint.order.toFinset processes := fun apart =>
          Finset.disjoint_left.mp apart (List.mem_toFinset.mpr member) known
        exact absurd ⟨fun within => absurd within inside, fun within => absurd within apart⟩ invalid
      · exact ih added later

theorem constraint_whole {limit : Nat} {task : Task} {filter : Process → Bool} {plan : TaskPlanner}
    {constraint : Constraint} (planned : init limit task filter = .ok plan) (listed : constraint ∈ task.constraints)
    (member : need ∈ constraint.order) (selected : Selected task filter need) :
    ∀ name ∈ constraint.order, Selected task filter name := by
  obtain ⟨_, _, added, _, rfl⟩ := parts_of_init planned
  intro name inside
  rw [← selected_iff] at selected ⊢
  exact addConstraints_whole added listed member selected name inside

theorem needed_ordinary {limit : Nat} {task : Task} {filter : Process → Bool} {plan : TaskPlanner}
    (planned : init limit task filter = .ok plan) (edge : Precedes task filter need process) :
    ∃ attributes, plan.attributes.get? need = some attributes ∧ attributes.isDaemon = false := by
  obtain ⟨_, _, added, _, rfl⟩ := parts_of_init planned
  obtain ⟨constraint, listed, pair, inside⟩ := edge
  have known : ∀ name ∈ constraint.order, name ∈ (processMap (task.processes.filter filter)).keys.toFinset :=
    fun name member => (selected_iff task filter name).mpr (inside name member)
  obtain ⟨before, found, ordinary⟩ := addConstraints_ordinary added listed known pair
  exact ⟨taskAttributes before, by rw [Dict.get?_map, found]; rfl, ordinary⟩

end Daemons

section Finishing

variable {limit : Nat} {task : Task} {filter : Process → Bool} {plan middle : TaskPlanner} {done : Finset Name}

/-- Some processes have run once and finished, and nothing else has happened. -/
structure Through (plan : TaskPlanner) (done : Finset Name) (middle : TaskPlanner) : Prop where
  task : SameTask plan middle
  processes : middle.planner.processes = plan.planner.processes
  dependencies : middle.planner.dependencies = plan.planner.dependencies
  idle : middle.planner.running = ∅
  finished : middle.planner.finished = done
  unbroken : middle.planner.failed = ∅
  uncounted : ∀ name ∉ done, runs middle name = 0

theorem Through.start (through : Through plan done middle) {process : Name} (known : process ∈ plan.planner.processes)
    (left : process ∉ done) (met : plan.planner.dependencies process ⊆ done) :
    (perform (.setRunning process)).run middle =
      .ok () { middle with planner := { middle.planner with running := {process} } } := by
  have ready : process ∈ middle.planner.runnable := by
    rw [Planner.mem_runnable, through.processes, through.dependencies, through.idle, through.finished, through.unbroken]
    exact ⟨known, Finset.notMem_empty _, left, Finset.notMem_empty _, met⟩
  have free : process ∉ middle.planner.failed ∧ process ∉ middle.planner.finished ∧
      (process ∈ middle.planner.running ∨ process ∈ middle.planner.runnable) := by
    rw [through.unbroken, through.finished]
    exact ⟨Finset.notMem_empty _, left, .inr ready⟩
  have ran : (setRunning process).run middle =
      .ok () { middle with planner := { middle.planner with running := insert process middle.planner.running } } := by
    rw [setRunning, onPlanner_run, Planner.setRunning_run, if_pos free]
  rw [through.idle] at ran
  exact ran

theorem successTransition_finishes {process : Name} {attributes : TaskAttributes}
    (known : middle.attributes.get? process = some attributes) (ordinary : attributes.isDaemon = false)
    (within : middle.hasReachedRunLimit process = false) (active : process ∈ middle.planner.running)
    (unbroken : process ∉ middle.planner.failed) :
    (successTransition process).run middle = .ok () { middle with planner := { middle.planner with
      running := middle.planner.running.erase process, finished := insert process middle.planner.finished } } := by
  have met : process ∈ middle.planner.running ∧ process ∉ middle.planner.failed := ⟨active, unbroken⟩
  simp only [successTransition, EStateM.run_bind, EStateM.run_get, within, Bool.false_eq_true, if_false,
    attributesOf_run, known, ordinary, Bool.not_false, if_true, onPlanner_run, Planner.setFinished_run, if_pos met]

theorem addSuccess_finishes {process : Name} {attributes : TaskAttributes} (timestamp : Time)
    (known : middle.attributes.get? process = some attributes) (ordinary : attributes.isDaemon = false)
    (within : runs middle process + 1 < middle.totalRunLimit) (active : process ∈ middle.planner.running)
    (unbroken : process ∉ middle.planner.failed) :
    ∃ after, (perform (.addSuccess process timestamp)).run middle = .ok () after ∧ SameTask middle after ∧
      after.planner = { middle.planner with
        running := middle.planner.running.erase process, finished := insert process middle.planner.finished } ∧
      ∀ name ≠ process, runs after name = runs middle name := by
  let counted : TaskPlanner := { middle with
    lastTerminal := middle.lastTerminal.set process timestamp, successes := increment middle.successes process }
  have below : counted.hasReachedRunLimit process = false := by
    simp only [runs] at within
    simp only [counted, hasReachedRunLimit, increment_self, decide_eq_false_iff_not]
    omega
  have ran := @successTransition_finishes counted process attributes known ordinary below active unbroken
  refine ⟨_, ran, ⟨rfl, rfl, rfl⟩, rfl, ?_⟩
  intro name other
  simp only [runs, counted, increment_ne _ other]

theorem Through.finish (through : Through plan done middle) {process : Name} (limited : 1 < plan.totalRunLimit)
    (known : process ∈ plan.planner.processes) (left : process ∉ done)
    (met : plan.planner.dependencies process ⊆ done)
    (ordinary : ∃ attributes, plan.attributes.get? process = some attributes ∧ attributes.isDaemon = false) :
    ∃ after, (feed perform [.setRunning process, .addSuccess process 0]).run middle = .ok () after ∧
      Through plan (insert process done) after := by
  obtain ⟨attributes, found, ordinary⟩ := ordinary
  have started := through.start known left met
  obtain ⟨⟨sameAttributes, sameEphemerals, sameLimit⟩, processes, dependencies, idle, finished, unbroken, uncounted⟩ :=
    through
  obtain ⟨after, ran, task, planner, others⟩ :=
    @addSuccess_finishes { middle with planner := { middle.planner with running := {process} } } process attributes 0
      (by rw [← found, ← sameAttributes]) ordinary
      (by
        have before : runs middle process = 0 := uncounted process left
        simp only [runs] at before ⊢
        omega)
      (Finset.mem_singleton_self process) (by simp [unbroken])
  refine ⟨after, ?_, ⟨?_, ?_, ?_⟩, ?_, ?_, ?_, ?_, ?_, ?_⟩
  · rw [feed_cons, started]
    simp only [feed_cons, ran, feed_nil]
  · rw [task.attributes, sameAttributes]
  · rw [task.ephemerals, sameEphemerals]
  · rw [task.totalRunLimit, sameLimit]
  · rw [planner, processes]
  · rw [planner, dependencies]
  · simp [planner]
  · rw [planner, finished]
  · rw [planner, unbroken]
  · intro name outside
    obtain ⟨other, outside⟩ := not_or.mp (fun member => outside (Finset.mem_insert.mpr member))
    rw [others name other]
    exact uncounted name outside

/-- Processes that wait for nothing outside can all be made to finish. -/
theorem finishable (limited : 1 < plan.totalRunLimit) (start : Through plan ∅ plan)
    (inside : ∀ process ∈ done, process ∈ plan.planner.processes)
    (closed : ∀ process ∈ done, ∀ need ∈ plan.planner.dependencies process, need ∈ done)
    (ordinary : ∀ process ∈ done, ∃ attributes, plan.attributes.get? process = some attributes ∧
      attributes.isDaemon = false) :
    ∃ operations middle, (feed perform operations).run plan = .ok () middle ∧ Through plan done middle := by
  obtain ⟨rank, ranked⟩ := plan.planner.needs_ranked
  induction done using Finset.induction_on_max_value rank with
  | empty => exact ⟨[], plan, rfl, start⟩
  | insert last done fresh highest ih =>
    have earlier : ∀ process ∈ done, ∀ need ∈ plan.planner.dependencies process, need ∈ done := by
      intro process member need edge
      have known := inside process (Finset.mem_insert_of_mem member)
      have lower := (ranked process need ⟨known, edge⟩).2
      rcases Finset.mem_insert.mp (closed process (Finset.mem_insert_of_mem member) need edge) with rfl | member
      · have above := highest process ‹_›
        omega
      · exact member
    obtain ⟨operations, middle, ran, through⟩ := ih (fun process member => inside process (Finset.mem_insert_of_mem member))
      earlier (fun process member => ordinary process (Finset.mem_insert_of_mem member))
    have known := inside last (Finset.mem_insert_self last done)
    have met : plan.planner.dependencies last ⊆ done := by
      intro need edge
      have lower := (ranked last need ⟨known, edge⟩).2
      rcases Finset.mem_insert.mp (closed last (Finset.mem_insert_self last done) need edge) with rfl | member
      · omega
      · exact member
    obtain ⟨after, further, reached⟩ :=
      through.finish limited known fresh met (ordinary last (Finset.mem_insert_self last done))
    refine ⟨operations ++ [.setRunning last, .addSuccess last 0], after, ?_, reached⟩
    rw [feed_append, ran]
    exact further

end Finishing

section Order

variable {limit : Nat} {task : Task} {filter : Process → Bool} {plan : TaskPlanner} {first second : Name}

def StartedAfter (plan : TaskPlanner) (first second : Name) : Prop :=
  ∀ operations middle after, (feed perform operations).run plan = .ok () middle →
    (perform (.setRunning second)).run middle = .ok () after → first ∈ middle.planner.finished

theorem Reached.ancestors_finished (reached : Reached task filter plan)
    (ready : second ∈ plan.planner.running ∨ second ∈ plan.planner.runnable)
    (path : TransGen (Precedes task filter) first second) : first ∈ plan.planner.finished := by
  have started : second ∈ plan.planner.running ∨ second ∈ plan.planner.runnable ∨
      second ∈ plan.planner.finished ∨ second ∈ plan.planner.failed := by
    rcases ready with active | waiting
    · exact .inl active
    · exact .inr (.inl waiting)
  induction path using TransGen.head_induction_on with
  | single edge => exact reached.predecessors_finished started edge
  | head edge _ ih => exact reached.predecessors_finished (.inr (.inr (.inl ih))) edge

theorem not_precedes_self (planned : init limit task filter = .ok plan) (name : Name) :
    ¬ TransGen (Precedes task filter) name name := by
  obtain ⟨rank, ranked⟩ := plan.planner.needs_ranked
  have needs := (fresh_of_init planned).1.needs
  have higher : ∀ {first second}, TransGen (Precedes task filter) first second → rank first < rank second := by
    intro first second path
    induction path with
    | single edge => exact (ranked _ _ ((needs _ _).mpr edge)).2
    | tail _ edge ih => exact ih.trans (ranked _ _ ((needs _ _).mpr edge)).2
  intro cycle
  exact Nat.lt_irrefl _ (higher cycle)

/-- What is ordered in every execution is what the constraints put in order. -/
theorem startedAfter_iff (planned : init limit task filter = .ok plan) (limited : 1 < limit)
    (selected : Selected task filter second) :
    StartedAfter plan first second ↔ TransGen (Precedes task filter) first second := by
  obtain ⟨fresh, sameLimit⟩ := fresh_of_init planned
  constructor
  · intro after
    classical
    let done := plan.planner.processes.filter (fun name => TransGen (Precedes task filter) name second)
    have start : Through plan ∅ plan := by
      obtain ⟨idle, unfinished, unbroken⟩ := fresh.idle
      obtain ⟨failures, successes, losses⟩ := fresh.uncounted
      refine ⟨⟨rfl, rfl, rfl⟩, rfl, rfl, idle, unfinished, unbroken, ?_⟩
      intro name _
      simp only [runs, failures, successes, losses]
    have planned_need : ∀ {process need}, process ∈ plan.planner.processes →
        need ∈ plan.planner.dependencies process → Precedes task filter need process ∧ need ∈ plan.planner.processes := by
      intro process need known edge
      exact ⟨(fresh.needs process need).mp ⟨known, edge⟩, plan.planner.needs_planned ⟨known, edge⟩⟩
    obtain ⟨operations, middle, ran, through⟩ : ∃ operations middle,
        (feed perform operations).run plan = .ok () middle ∧ Through plan done middle := by
      refine finishable (sameLimit ▸ limited) start (fun process member => (Finset.mem_filter.mp member).1) ?_ ?_
      · intro process member need edge
        obtain ⟨known, path⟩ := Finset.mem_filter.mp member
        obtain ⟨precedes, listed⟩ := planned_need known edge
        exact Finset.mem_filter.mpr ⟨listed, .head precedes path⟩
      · intro process member
        obtain ⟨next, edge, _⟩ := TransGen.head'_iff.mp (Finset.mem_filter.mp member).2
        exact needed_ordinary planned edge
    have known := (fresh.selected second).mpr selected
    have left : second ∉ done := fun member => not_precedes_self planned second (Finset.mem_filter.mp member).2
    have met : plan.planner.dependencies second ⊆ done := by
      intro need edge
      obtain ⟨precedes, listed⟩ := planned_need known edge
      exact Finset.mem_filter.mpr ⟨listed, .single precedes⟩
    have finished := after operations middle _ ran (through.start known left met)
    rw [through.finished] at finished
    exact (Finset.mem_filter.mp finished).2
  · intro path operations middle after ran started
    obtain ⟨_, _, ready⟩ := setRunning_ready started
    exact (reached_of_run planned ran).ancestors_finished ready path

end Order

end TaskPlanner

end Aurora.Thermos
