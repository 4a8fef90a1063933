import Aurora.Library.Layers
import Aurora.Thermos.Common.PlannerOrder

namespace Aurora.Thermos

open Relation Layers

/-- `list(set(itertools.chain.from_iterable(...)))`; the order in which a set is listed is left open. -/
structure Merged {α : Type} (lists : List (List α)) (merged : List α) : Prop where
  nodup : merged.Nodup
  mem : ∀ item, item ∈ merged ↔ ∃ list ∈ lists, item ∈ list

/-- `Units.processes_merge`. -/
def ProcessesMerge (tasks : List Task) (processes : List Process) : Prop := Merged (tasks.map Task.processes) processes

/-- `Units.constraints_merge`. -/
def ConstraintsMerge (tasks : List Task) (constraints : List Constraint) : Prop :=
  Merged (tasks.map Task.constraints) constraints

def Processes.order (processes : List Process) : List Constraint := [{ order := processes.map Process.name }]

namespace Tasks

/-- The constraints that `concat` adds for two neighbouring tasks. -/
def orderAll (t1 t2 : Task) : List Constraint :=
  t1.processes.flatMap fun p1 => t2.processes.flatMap fun p2 => if p1 ≠ p2 then Processes.order [p1, p2] else []

def concat (processes : List Process) (constraints : List Constraint) (tasks : List Task) : Task :=
  match tasks.getLast? with
  | none => { processes := [] }
  | some headTask =>
    { headTask with
      processes
      constraints := constraints ++ (tasks.dropLast.zip tasks.tail).flatMap fun (t1, t2) => orderAll t1 t2
      finalizationWait := (tasks.map Task.finalizationWait).sum }

end Tasks

/-- The constraints of a task have one process come right before another. -/
def Task.Orders (task : Task) (first second : Name) : Prop :=
  ∃ constraint ∈ task.constraints, [first, second] <:+: constraint.order

def Task.names (task : Task) : List Name := task.processes.map Process.name

namespace Tasks

def At (tasks : List Task) (index : Nat) (name : Name) : Prop := ∃ task, tasks[index]? = some task ∧ name ∈ task.names

/-- The constraints of any of the tasks have one process come right before another. -/
def Listed (tasks : List Task) (first second : Name) : Prop := ∃ task ∈ tasks, task.Orders first second

/-- In every execution one task comes after the other, and inside a task its own constraints decide. -/
structure Serialized (plan : TaskPlanner) (tasks : List Task) : Prop where
  oneAfterAnother : ∀ low high first second, low < high → At tasks low first → At tasks high second →
    TaskPlanner.StartedAfter plan first second
  own : ∀ (index : Nat) task first second, tasks[index]? = some task → first ∈ task.names → second ∈ task.names →
    (TaskPlanner.StartedAfter plan first second ↔ TransGen task.Orders first second)

/-- The constraints bridge every gap that empty tasks leave, and no task orders the processes of another one. -/
structure Gapless (tasks : List Task) : Prop where
  bridged : Bridged (At tasks) (Listed tasks)
  own : ∀ (index : Nat) task first second, tasks[index]? = some task → first ∈ task.names → second ∈ task.names →
    Listed tasks first second → TransGen task.Orders first second

section Concat

variable {tasks : List Task} {processes : List Process} {constraints : List Constraint} {first second name : Name}
  {limit : Nat} {plan : TaskPlanner}

theorem at_unique (disjoint : tasks.Pairwise fun t1 t2 => t1.names.Disjoint t2.names) (name : Name) (low high : Nat)
    (atLow : At tasks low name) (atHigh : At tasks high name) : low = high := by
  obtain ⟨t1, known, member⟩ := atLow
  obtain ⟨t2, other, again⟩ := atHigh
  obtain ⟨below, rfl⟩ := List.getElem?_eq_some_iff.mp known
  obtain ⟨above, rfl⟩ := List.getElem?_eq_some_iff.mp other
  have apart := List.pairwise_iff_getElem.mp disjoint
  rcases Nat.lt_trichotomy low high with less | same | more
  · exact absurd again (apart low high below above less member)
  · exact same
  · exact absurd member (apart high low above below more again)

theorem exists_at {task : Task} (listed : task ∈ tasks) (member : name ∈ task.names) : ∃ index, At tasks index name := by
  obtain ⟨index, below, same⟩ := List.getElem_of_mem listed
  exact ⟨index, task, List.getElem?_eq_some_iff.mpr ⟨below, same⟩, member⟩

theorem concat_cons (nonempty : tasks ≠ []) :
    (concat processes constraints tasks).processes = processes ∧
      (concat processes constraints tasks).constraints =
        constraints ++ (tasks.dropLast.zip tasks.tail).flatMap fun (t1, t2) => orderAll t1 t2 := by
  rw [concat, List.getLast?_eq_getLast_of_ne_nil nonempty]
  exact ⟨rfl, rfl⟩

theorem selected_concat (merged : ProcessesMerge tasks processes) :
    Selected (concat processes constraints tasks) (fun _ => true) name ↔ ∃ index, At tasks index name := by
  by_cases nonempty : tasks = []
  · subst nonempty
    simp [Selected, concat, At]
  · simp only [Selected, (concat_cons nonempty).1, merged.mem, List.mem_map]
    constructor
    · rintro ⟨process, ⟨_, ⟨task, listed, rfl⟩, member⟩, _, rfl⟩
      exact exists_at listed (List.mem_map.mpr ⟨process, member, rfl⟩)
    · rintro ⟨index, task, found, member⟩
      obtain ⟨process, inside, named⟩ := List.mem_map.mp member
      exact ⟨process, ⟨_, ⟨task, List.mem_of_getElem? found, rfl⟩, inside⟩, trivial, named⟩

theorem mem_zip_neighbours {t1 t2 : Task} :
    (t1, t2) ∈ tasks.dropLast.zip tasks.tail ↔ ∃ index : Nat, tasks[index]? = some t1 ∧ tasks[index + 1]? = some t2 := by
  induction tasks with
  | nil => simp
  | cons task rest ih =>
    cases rest with
    | nil => simp
    | cons next rest =>
      simp only [List.dropLast_cons_cons, List.tail_cons, List.zip_cons_cons, List.mem_cons, Prod.mk.injEq] at ih ⊢
      rw [ih]
      constructor
      · rintro (⟨rfl, rfl⟩ | ⟨index, found, after⟩)
        · exact ⟨0, rfl, rfl⟩
        · exact ⟨index + 1, found, after⟩
      · rintro ⟨index, found, after⟩
        cases index with
        | zero =>
          left
          exact ⟨(Option.some.inj found).symm, (Option.some.inj after).symm⟩
        | succ index => exact .inr ⟨index, found, after⟩

theorem mem_orderAll {t1 t2 : Task} {constraint : Constraint} :
    constraint ∈ orderAll t1 t2 ↔
      ∃ p1 ∈ t1.processes, ∃ p2 ∈ t2.processes, p1 ≠ p2 ∧ constraint = { order := [p1.name, p2.name] } := by
  simp only [orderAll, List.mem_flatMap, Processes.order]
  refine exists_congr fun p1 => and_congr_right fun _ => exists_congr fun p2 => and_congr_right fun _ => ?_
  by_cases same : p1 = p2 <;> simp [same]

/-- A constraint on processes of the tasks has one of them come right before another. -/
def Known (tasks : List Task) (first second : Name) : Prop :=
  ∃ task ∈ tasks, ∃ constraint ∈ task.constraints, [first, second] <:+: constraint.order ∧
    ∀ name ∈ constraint.order, ∃ index, At tasks index name

theorem Known.listed (known : Known tasks first second) : Listed tasks first second := by
  obtain ⟨task, listed, constraint, own, pair, _⟩ := known
  exact ⟨task, listed, constraint, own, pair⟩

theorem Known.placed (known : Known tasks first second) : ∃ index, At tasks index second := by
  obtain ⟨task, listed, constraint, own, pair, inside⟩ := known
  exact inside second (pair.subset (by simp))

theorem linked_of_added {constraint : Constraint}
    (added : constraint ∈ (tasks.dropLast.zip tasks.tail).flatMap fun (t1, t2) => orderAll t1 t2)
    (pair : [first, second] <:+: constraint.order) : Linked (At tasks) first second := by
  obtain ⟨⟨t1, t2⟩, neighbours, member⟩ := List.mem_flatMap.mp added
  obtain ⟨index, found, after⟩ := mem_zip_neighbours.mp neighbours
  obtain ⟨p1, one, p2, two, _, rfl⟩ := mem_orderAll.mp member
  rcases (TaskPlanner.pair_infix_cons first second p1.name p2.name []).mp pair with ⟨rfl, rfl⟩ | short
  · exact ⟨index, ⟨t1, found, List.mem_map.mpr ⟨p1, one, rfl⟩⟩, t2, after, List.mem_map.mpr ⟨p2, two, rfl⟩⟩
  · have long := short.length_le
    simp at long

theorem added_of_linked (disjoint : tasks.Pairwise fun t1 t2 => t1.names.Disjoint t2.names)
    (linked : Linked (At tasks) first second) :
    { order := [first, second] } ∈ (tasks.dropLast.zip tasks.tail).flatMap fun (t1, t2) => orderAll t1 t2 := by
  obtain ⟨index, atFirst, atSecond⟩ := linked
  have different : first ≠ second := by
    intro same
    subst same
    have twice := at_unique disjoint first index (index + 1) atFirst atSecond
    omega
  obtain ⟨t1, found, one⟩ := atFirst
  obtain ⟨t2, after, two⟩ := atSecond
  obtain ⟨p1, member, rfl⟩ := List.mem_map.mp one
  obtain ⟨p2, again, rfl⟩ := List.mem_map.mp two
  have unequal : p1 ≠ p2 := fun same => different (congrArg Process.name same)
  exact List.mem_flatMap.mpr ⟨(t1, t2), mem_zip_neighbours.mpr ⟨index, found, after⟩,
    mem_orderAll.mpr ⟨p1, member, p2, again, unequal, rfl⟩⟩

theorem precedes_concat (disjoint : tasks.Pairwise fun t1 t2 => t1.names.Disjoint t2.names)
    (processesMerged : ProcessesMerge tasks processes) (constraintsMerged : ConstraintsMerge tasks constraints) :
    Precedes (concat processes constraints tasks) (fun _ => true) first second ↔
      Combined (At tasks) (Known tasks) first second := by
  by_cases nonempty : tasks = []
  · subst nonempty
    simp [Precedes, concat, Combined, Known, Linked, At]
  · simp only [Precedes, (concat_cons nonempty).2, selected_concat processesMerged, List.mem_append]
    constructor
    · rintro ⟨constraint, own | added, pair, inside⟩
      · obtain ⟨_, mapped, member⟩ := (constraintsMerged.mem constraint).mp own
        obtain ⟨task, listed, rfl⟩ := List.mem_map.mp mapped
        exact .inl ⟨task, listed, constraint, member, pair, inside⟩
      · exact .inr (linked_of_added added pair)
    · rintro (⟨task, listed, constraint, own, pair, inside⟩ | linked)
      · have merged := (constraintsMerged.mem constraint).mpr ⟨_, List.mem_map.mpr ⟨task, listed, rfl⟩, own⟩
        exact ⟨constraint, .inl merged, pair, inside⟩
      · refine ⟨_, .inr (added_of_linked disjoint linked), List.infix_refl _, ?_⟩
        obtain ⟨index, atFirst, atSecond⟩ := linked
        intro name member
        rcases List.mem_cons.mp member with rfl | member
        · exact ⟨index, atFirst⟩
        · rw [List.mem_singleton.mp member]
          exact ⟨index + 1, atSecond⟩

theorem known_of_listed (processesMerged : ProcessesMerge tasks processes)
    (constraintsMerged : ConstraintsMerge tasks constraints)
    (planned : TaskPlanner.init limit (concat processes constraints tasks) (fun _ => true) = .ok plan)
    (placed : ∃ index, At tasks index first) (listed : Listed tasks first second) : Known tasks first second := by
  obtain ⟨task, member, constraint, own, pair⟩ := listed
  have inResult : constraint ∈ (concat processes constraints tasks).constraints := by
    rw [(concat_cons (List.ne_nil_of_mem member)).2]
    refine List.mem_append_left _ ((constraintsMerged.mem constraint).mpr ?_)
    exact ⟨_, List.mem_map.mpr ⟨task, member, rfl⟩, own⟩
  have whole := TaskPlanner.constraint_whole planned inResult (pair.subset (by simp))
    ((selected_concat processesMerged).mpr placed)
  exact ⟨task, member, constraint, own, pair, fun name inside => (selected_concat processesMerged).mp (whole name inside)⟩

theorem known_path_of_listed (processesMerged : ProcessesMerge tasks processes)
    (constraintsMerged : ConstraintsMerge tasks constraints)
    (planned : TaskPlanner.init limit (concat processes constraints tasks) (fun _ => true) = .ok plan)
    (placed : ∃ index, At tasks index first) (path : TransGen (Listed tasks) first second) :
    TransGen (Known tasks) first second := by
  induction path with
  | single edge => exact .single (known_of_listed processesMerged constraintsMerged planned placed edge)
  | tail _ edge ih =>
    obtain ⟨_, _, last⟩ := TransGen.tail'_iff.mp ih
    exact ih.tail (known_of_listed processesMerged constraintsMerged planned last.placed edge)

theorem precedes_concat_eq (disjoint : tasks.Pairwise fun t1 t2 => t1.names.Disjoint t2.names)
    (processesMerged : ProcessesMerge tasks processes) (constraintsMerged : ConstraintsMerge tasks constraints) :
    Precedes (concat processes constraints tasks) (fun _ => true) = Combined (At tasks) (Known tasks) := by
  funext first second
  exact propext (precedes_concat disjoint processesMerged constraintsMerged)

theorem Combined.placed (combined : Combined (At tasks) (Known tasks) first second) : ∃ index, At tasks index second := by
  rcases combined with known | ⟨index, _, next⟩
  · exact known.placed
  · exact ⟨index + 1, next⟩

/-- What the result puts in order inside a task is in its own order, where the result runs the tasks one after
    another and no task orders the processes of another one. -/
theorem own_of_combined (disjoint : tasks.Pairwise fun t1 t2 => t1.names.Disjoint t2.names)
    (acyclic : ∀ name, ¬ TransGen (Combined (At tasks) (Known tasks)) name name)
    (sequential : Sequential (At tasks) (Combined (At tasks) (Known tasks))) (gapless : Gapless tasks)
    {index : Nat} {task : Task} (found : tasks[index]? = some task) (one : first ∈ task.names)
    (two : second ∈ task.names) (path : TransGen (Combined (At tasks) (Known tasks)) first second) :
    TransGen task.Orders first second := by
  have inside := (path_within (at_unique disjoint) acyclic sequential (fun _ _ => Combined.placed)
    ⟨task, found, one⟩ ⟨task, found, two⟩ path .refl).2
  refine TransGen.closed ?_ _ _ inside
  intro before after ⟨edge, ⟨_, here, one⟩, ⟨_, there, two⟩⟩
  cases found.symm.trans here
  cases found.symm.trans there
  exact gapless.own index task before after found one two edge.listed

/-- The result of `concat_tasks` runs its tasks one after another, each in its own order, just where the constraints
    bridge the gaps that empty tasks leave and no task orders the processes of another one. -/
theorem concat_serialized_iff (disjoint : tasks.Pairwise fun t1 t2 => t1.names.Disjoint t2.names)
    (processesMerged : ProcessesMerge tasks processes) (constraintsMerged : ConstraintsMerge tasks constraints)
    (planned : TaskPlanner.init limit (concat processes constraints tasks) (fun _ => true) = .ok plan)
    (limited : 1 < limit) : Serialized plan tasks ↔ Gapless tasks := by
  have combined := precedes_concat_eq disjoint processesMerged constraintsMerged
  have unique := at_unique disjoint
  have acyclic : ∀ name, ¬ TransGen (Combined (At tasks) (Known tasks)) name name := by
    intro name
    rw [← combined]
    exact TaskPlanner.not_precedes_self planned name
  have decides : ∀ {first second}, (∃ index, At tasks index second) →
      (TaskPlanner.StartedAfter plan first second ↔ TransGen (Combined (At tasks) (Known tasks)) first second) := by
    intro first second placed
    rw [← combined]
    exact TaskPlanner.startedAfter_iff planned limited ((selected_concat processesMerged).mpr placed)
  constructor
  · rintro ⟨oneAfterAnother, own⟩
    have sequential : Sequential (At tasks) (Combined (At tasks) (Known tasks)) := by
      intro low high first second less atLow atHigh
      exact (decides ⟨high, atHigh⟩).mp (oneAfterAnother low high first second less atLow atHigh)
    constructor
    · intro low high first second apart empty atLow atHigh
      have path := (sequential_iff unique acyclic).mp sequential low high first second apart empty atLow atHigh
      exact TransGen.mono (fun _ _ => Known.listed) _ _ path
    · intro index task first second found one two listed
      have known := known_of_listed processesMerged constraintsMerged planned ⟨index, task, found, one⟩ listed
      exact (own index task first second found one two).mp
        ((decides ⟨index, task, found, two⟩).mpr (.single (.inl known)))
  · intro gapless
    have sequential : Sequential (At tasks) (Combined (At tasks) (Known tasks)) := by
      refine sequential_of_bridged fun low high first second apart empty atLow atHigh => ?_
      exact known_path_of_listed processesMerged constraintsMerged planned ⟨low, atLow⟩
        (gapless.bridged low high first second apart empty atLow atHigh)
    constructor
    · intro low high first second less atLow atHigh
      exact (decides ⟨high, atHigh⟩).mpr (sequential low high first second less atLow atHigh)
    · intro index task first second found one two
      rw [decides ⟨index, task, found, two⟩]
      constructor
      · exact own_of_combined disjoint acyclic sequential gapless found one two
      · intro path
        have listed : TransGen (Listed tasks) first second :=
          TransGen.mono (fun _ _ orders => ⟨task, List.mem_of_getElem? found, orders⟩) _ _ path
        exact TransGen.mono (fun _ _ => Or.inl) _ _
          (known_path_of_listed processesMerged constraintsMerged planned ⟨index, task, found, one⟩ listed)

end Concat

def gapped : List Task := [{ processes := [{ name := "fetch" }] }, { processes := [] }, { processes := [{ name := "build" }] }]

def adjoined : List Task :=
  [{ processes := [{ name := "fetch" }, { name := "check" }], constraints := [{ order := ["fetch", "check"] }] },
    { processes := [{ name := "build" }] }]

theorem gapless_adjoined : Gapless adjoined := by
  constructor
  · rintro low high first second apart _ _ ⟨task, found, _⟩
    obtain ⟨below, _⟩ := List.getElem?_eq_some_iff.mp found
    simp only [adjoined, List.length_cons, List.length_nil] at below
    omega
  · rintro index task first second found one two ⟨other, listed, orders⟩
    match index, found with
    | 0, found =>
      cases found
      rcases List.mem_cons.mp listed with rfl | listed
      · exact .single orders
      · cases List.mem_singleton.mp listed
        simp [Task.Orders] at orders
    | 1, found =>
      cases found
      simp only [Task.names, List.map_cons, List.map_nil, List.mem_singleton] at one two
      subst one two
      rcases List.mem_cons.mp listed with rfl | listed
      · simp [Task.Orders, List.infix_cons_iff] at orders
      · cases List.mem_singleton.mp listed
        simp [Task.Orders] at orders

theorem concat_serialized_adjoined :
    ∃ plan, TaskPlanner.init 9223372036854775807 (concat [{ name := "fetch" }, { name := "check" }, { name := "build" }]
        [{ order := ["fetch", "check"] }] adjoined) (fun _ => true) = .ok plan ∧ Serialized plan adjoined := by
  have accepted : (TaskPlanner.init 9223372036854775807 (concat [{ name := "fetch" }, { name := "check" },
      { name := "build" }] [{ order := ["fetch", "check"] }] adjoined) (fun _ => true)).isOk = true := by
    decide +kernel
  obtain ⟨plan, planned⟩ := Replay.exists_of_isOk accepted
  have disjoint : adjoined.Pairwise fun t1 t2 => t1.names.Disjoint t2.names := by
    simp [adjoined, Task.names, List.disjoint_left]
  refine ⟨plan, planned, (concat_serialized_iff disjoint ⟨by decide, ?_⟩ ⟨by decide, ?_⟩ planned (by decide)).mpr
    gapless_adjoined⟩
  · simp [adjoined, or_assoc]
  · simp [adjoined]

/-- The last task can be started at once. -/
theorem concat_skips_empty :
    (gapped.Pairwise fun t1 t2 => t1.names.Disjoint t2.names) ∧
      ProcessesMerge gapped [{ name := "fetch" }, { name := "build" }] ∧ ConstraintsMerge gapped [] ∧
      ∃ plan, TaskPlanner.init 9223372036854775807 (concat [{ name := "fetch" }, { name := "build" }] [] gapped)
        (fun _ => true) = .ok plan ∧ ¬ Serialized plan gapped := by
  have disjoint : gapped.Pairwise fun t1 t2 => t1.names.Disjoint t2.names := by
    simp [gapped, Task.names, List.disjoint_left]
  refine ⟨disjoint, ⟨by decide, by simp [gapped]⟩, ⟨by decide, by simp [gapped]⟩, ?_⟩
  have accepted : (TaskPlanner.init 9223372036854775807 (concat [{ name := "fetch" }, { name := "build" }] [] gapped)
      (fun _ => true)).isOk = true := by decide +kernel
  obtain ⟨plan, planned⟩ := Replay.exists_of_isOk accepted
  refine ⟨plan, planned, fun serialized => ?_⟩
  have after := serialized.oneAfterAnother 0 2 "fetch" "build" (by decide) ⟨_, rfl, by decide⟩ ⟨_, rfl, by decide⟩
  have selected : Selected (concat [{ name := "fetch" }, { name := "build" }] [] gapped) (fun _ => true) "build" :=
    ⟨{ name := "build" }, by decide, rfl, rfl⟩
  obtain ⟨_, ⟨constraint, listed, _⟩, _⟩ :=
    TransGen.head'_iff.mp ((TaskPlanner.startedAfter_iff planned (by decide) selected).mp after)
  exact absurd listed (by simp [concat, gapped, orderAll])

end Tasks

end Aurora.Thermos
