import Aurora.Thermos.Common.PlannerSteps
import Mathlib.Data.List.Infix

namespace Aurora.Thermos

open Collections

/-- `name` belongs to a process that the planner was built for. -/
def Selected (task : Task) (filter : Process → Bool) (name : Name) : Prop :=
  ∃ process ∈ task.processes, filter process = true ∧ process.name = name

def Precedes (task : Task) (filter : Process → Bool) (first second : Name) : Prop :=
  ∃ constraint ∈ task.constraints, [first, second] <:+: constraint.order ∧
    ∀ name ∈ constraint.order, Selected task filter name

namespace TaskPlanner

section ProcessMap

theorem mem_foldl_keys (processes : List Process) (map : Dict Name Process) (name : Name) :
    name ∈ (processes.foldl (fun map process => map.set process.name process) map).keys ↔
      name ∈ map.keys ∨ ∃ process ∈ processes, process.name = name := by
  induction processes generalizing map with
  | nil => simp
  | cons process rest ih =>
    rw [List.foldl_cons, ih]
    have grown : name ∈ (map.set process.name process).keys ↔ name ∈ map.keys ∨ process.name = name := by
      rw [Dict.mem_keys, Dict.mem_keys, Dict.get?_set]
      by_cases same : name = process.name
      · simp [same]
      · have different : process.name ≠ name := fun h => same h.symm
        simp only [same, if_false, different, or_false]
    simp only [grown, List.mem_cons, exists_eq_or_imp, or_assoc]

theorem mem_processMap_keys (processes : List Process) (name : Name) :
    name ∈ (processMap processes).keys ↔ ∃ process ∈ processes, process.name = name := by
  rw [processMap, mem_foldl_keys]
  have none_yet : name ∉ (Dict.empty : Dict Name Process).keys := by simp [Dict.mem_keys]
  simp only [none_yet, false_or]

theorem foldl_get?_name (processes : List Process) (map : Dict Name Process)
    (named : ∀ name process, map.get? name = some process → process.name = name) (name : Name) (process : Process)
    (found : (processes.foldl (fun map process => map.set process.name process) map).get? name = some process) :
    process.name = name ∧ (process ∈ processes ∨ map.get? name = some process) := by
  induction processes generalizing map with
  | nil => exact ⟨named name process found, .inr found⟩
  | cons first rest ih =>
    rw [List.foldl_cons] at found
    have namedSet : ∀ name process, (map.set first.name first).get? name = some process → process.name = name := by
      intro name process known
      rw [Dict.get?_set] at known
      split at known
      · rename_i same
        cases known
        exact same.symm
      · exact named name process known
    obtain ⟨same, origin⟩ := ih _ namedSet found
    refine ⟨same, ?_⟩
    rcases origin with member | known
    · exact .inl (List.mem_cons_of_mem first member)
    · rw [Dict.get?_set] at known
      split at known
      · cases known
        exact .inl List.mem_cons_self
      · exact .inr known

theorem processMap_get? {processes : List Process} {name : Name} {process : Process}
    (found : (processMap processes).get? name = some process) : process ∈ processes ∧ process.name = name := by
  have facts := foldl_get?_name processes .empty (by simp) name process found
  refine ⟨?_, facts.1⟩
  rcases facts.2 with member | known
  · exact member
  · simp at known

theorem selected_iff (task : Task) (filter : Process → Bool) (name : Name) :
    name ∈ (processMap (task.processes.filter filter)).keys.toFinset ↔ Selected task filter name := by
  rw [List.mem_toFinset, mem_processMap_keys]
  constructor
  · rintro ⟨process, member, named⟩
    obtain ⟨listed, accepted⟩ := List.mem_filter.mp member
    exact ⟨process, listed, accepted, named⟩
  · rintro ⟨process, listed, accepted, named⟩
    exact ⟨process, List.mem_filter.mpr ⟨listed, accepted⟩, named⟩

end ProcessMap

section Constraints

theorem pair_infix_cons (need process first second : Name) (rest : List Name) :
    [need, process] <:+: first :: second :: rest ↔
      (need = first ∧ process = second) ∨ [need, process] <:+: second :: rest := by
  rw [List.infix_cons_iff]
  have start : [need, process] <+: first :: second :: rest ↔ need = first ∧ process = second := by
    simp [List.cons_prefix_cons]
  rw [start]

theorem mem_addOrder {map : Dict Name Process} {names : List Name} {dependencies result : Name → Finset Name}
    (added : addOrder map names dependencies = .ok result) (process need : Name) :
    need ∈ result process ↔ need ∈ dependencies process ∨ [need, process] <:+: names := by
  induction names generalizing dependencies with
  | nil =>
    cases added
    simp
  | cons pnk1 tail ih =>
    cases tail with
    | nil =>
      cases added
      have short : ¬ [need, process] <:+: [pnk1] := by
        intro piece
        have long := piece.length_le
        simp at long
      simp only [short, or_false]
    | cons pnk rest =>
      unfold addOrder at added
      cases one : map.get? pnk1 with
      | none => simp [one] at added
      | some before =>
        cases two : map.get? pnk with
        | none => simp [one, two] at added
        | some after =>
          simp only [one, two] at added
          split_ifs at added
          rw [ih added, pair_infix_cons]
          by_cases same : process = pnk
          · subst same
            simp only [if_true, Finset.mem_insert, and_true]
            tauto
          · simp only [same, if_false, and_false, false_or]

theorem mem_addConstraints {map : Dict Name Process} {processes : Finset Name} {constraints : List Constraint}
    {dependencies result : Name → Finset Name}
    (added : addConstraints map processes constraints dependencies = .ok result) (process need : Name) :
    need ∈ result process ↔ need ∈ dependencies process ∨ ∃ constraint ∈ constraints,
      [need, process] <:+: constraint.order ∧ ∀ name ∈ constraint.order, name ∈ processes := by
  induction constraints generalizing dependencies with
  | nil =>
    cases added
    simp
  | cons constraint rest ih =>
    simp only [addConstraints] at added
    have within : constraint.order.toFinset ⊆ processes ↔ ∀ name ∈ constraint.order, name ∈ processes := by
      simp [Finset.subset_iff]
    split_ifs at added with invalid inside
    · cases step : addOrder map constraint.order dependencies with
      | error e =>
        rw [step] at added
        cases added
      | ok extended =>
        rw [step] at added
        rw [ih added, mem_addOrder step]
        have all := within.mp inside
        simp only [List.mem_cons, exists_eq_or_imp, or_assoc]
        rw [and_iff_left all]
    · rw [ih added]
      have outside : ¬ ∀ name ∈ constraint.order, name ∈ processes := fun all => inside (within.mpr all)
      simp only [List.mem_cons, exists_eq_or_imp, outside, and_false, false_or]

end Constraints

/-- A plan as its constructor leaves it. -/
structure Fresh (task : Task) (filter : Process → Bool) (plan : TaskPlanner) : Prop where
  selected : ∀ name, name ∈ plan.planner.processes ↔ Selected task filter name
  needs : ∀ process need, plan.planner.Needs process need ↔ Precedes task filter need process
  known : ∀ name ∈ plan.planner.processes, ∃ process ∈ task.processes, filter process = true ∧
    process.name = name ∧ plan.attributes.get? name = some (taskAttributes process)
  ephemerals : ∀ name, name ∈ plan.ephemerals ↔
    ∃ process ∈ task.processes, filter process = true ∧ process.ephemeral = true ∧ process.name = name
  valid : plan.planner.Valid
  idle : plan.planner.running = ∅ ∧ plan.planner.finished = ∅ ∧ plan.planner.failed = ∅
  uncounted : plan.failures = (fun _ => 0) ∧ plan.successes = (fun _ => 0) ∧ plan.losses = (fun _ => 0)

theorem parts_of_init {limit : Nat} {task : Task} {filter : Process → Bool} {plan : TaskPlanner}
    (planned : init limit task filter = .ok plan) :
    ∃ dependencies planner,
      addConstraints (processMap (task.processes.filter filter)) (processMap (task.processes.filter filter)).keys.toFinset
        task.constraints (fun _ => ∅) = .ok dependencies ∧
      Planner.init (processMap (task.processes.filter filter)).keys.toFinset dependencies = .ok planner ∧
      plan = {
        planner
        attributes := (processMap (task.processes.filter filter)).map taskAttributes
        ephemerals := (((task.processes.filter filter).filter Process.ephemeral).map Process.name).toFinset
        totalRunLimit := limit } := by
  simp only [init, Replay.bind_eq_ok, Replay.pure_eq_ok] at planned
  obtain ⟨⟨processes, dependencies⟩, extracted, planner, built, rfl⟩ := planned
  simp only [extractDependencies, Replay.bind_eq_ok, Replay.pure_eq_ok, Prod.mk.injEq] at extracted
  obtain ⟨_, added, rfl, rfl⟩ := extracted
  exact ⟨_, planner, added, built, rfl⟩

theorem fresh_of_init {limit : Nat} {task : Task} {filter : Process → Bool} {plan : TaskPlanner}
    (planned : init limit task filter = .ok plan) : Fresh task filter plan ∧ plan.totalRunLimit = limit := by
  obtain ⟨dependencies, planner, added, built, rfl⟩ := parts_of_init planned
  unfold Planner.init at built
  split_ifs at built with schedule
  cases built
  refine ⟨⟨selected_iff task filter, ?_, ?_, ?_, Planner.valid_initial _ _ schedule, ⟨rfl, rfl, rfl⟩,
    ⟨rfl, rfl, rfl⟩⟩, rfl⟩
  · intro process need
    simp only [Planner.Needs, mem_addConstraints added, Precedes, ← selected_iff, Finset.notMem_empty, false_or]
    constructor
    · exact And.right
    · rintro ⟨constraint, listed, piece, inside⟩
      exact ⟨inside process (piece.subset (by simp)), constraint, listed, piece, inside⟩
  · intro name member
    rw [List.mem_toFinset, Dict.mem_keys] at member
    obtain ⟨process, found⟩ := Option.isSome_iff_exists.mp member
    obtain ⟨listed, named⟩ := processMap_get? found
    obtain ⟨original, accepted⟩ := List.mem_filter.mp listed
    exact ⟨process, original, accepted, named, by rw [Dict.get?_map, found]; rfl⟩
  · intro name
    simp only [List.mem_toFinset, List.mem_map, List.mem_filter]
    constructor
    · rintro ⟨process, ⟨⟨listed, accepted⟩, ephemeral⟩, named⟩
      exact ⟨process, listed, accepted, ephemeral, named⟩
    · rintro ⟨process, listed, accepted, ephemeral, named⟩
      exact ⟨process, ⟨⟨listed, accepted⟩, ephemeral⟩, named⟩

end TaskPlanner

end Aurora.Thermos
