import Aurora.Library.Cells
import Aurora.Thermos.Common.PlannerSteps

namespace Aurora.Thermos

open Collections Precedence

namespace Planner

variable {α : Type} [DecidableEq α]

section Objects

/-- The arguments of `satisfiable`, which are sets among the objects that there are. -/
structure Arguments (α : Type) [DecidableEq α] where
  store : List (Finset α)
  processes : Fin store.length
  dependencies : Dict α (Fin store.length)

def needsAt (store : List (Finset α)) (dependencies : Dict α Nat) (process : α) : Finset α :=
  (dependencies.get? process).elim ∅ (Cells.read store)

/-- A deep copy so far: the objects, what each object is copied to, and the copy of the map. -/
structure DeepCopy (α : Type) [DecidableEq α] where
  store : List (Finset α)
  memo : Dict Nat Nat := .empty
  dependencies : Dict α Nat := .empty

def DeepCopy.entry (source : List (Finset α)) (copy : DeepCopy α) (entry : α × Nat) : DeepCopy α :=
  match copy.memo.get? entry.2 with
  | some copied => { copy with dependencies := copy.dependencies.set entry.1 copied }
  | none =>
    let (store, copied) := Cells.alloc copy.store (Cells.read source entry.2)
    { store, memo := copy.memo.set entry.2 copied, dependencies := copy.dependencies.set entry.1 copied }

/-- `copy.deepcopy(dependencies)`, which copies a set once, however often it is referred to. -/
def deepcopy (store : List (Finset α)) (dependencies : Dict α Nat) : DeepCopy α :=
  dependencies.entries.foldl (DeepCopy.entry store) { store }

def removeFrom (given : Finset α) (store : List (Finset α)) (processSet : Nat) : List (Finset α) :=
  store.set processSet (Cells.read store processSet \ given)

def filterRunnableAt (store : List (Finset α)) (processes : Finset α) (dependencies : Dict α Nat) : Finset α :=
  filterRunnable processes (needsAt store dependencies)

def filterDependenciesAt (store : List (Finset α)) (dependencies : Dict α Nat) (given : Finset α) :
    List (Finset α) × Dict α Nat :=
  let copy := deepcopy store dependencies
  ((copy.dependencies.entries.map Prod.snd).foldl (removeFrom given) copy.store, copy.dependencies)

/-- The loop of `satisfiable` on objects; none if it is still going after the rounds given to it. -/
def satisfiableLoop : Nat → List (Finset α) → Nat → Dict α Nat → Option (Bool × List (Finset α))
  | 0, _, _, _ => none
  | rounds + 1, store, processes, dependencies =>
    let runnables := filterRunnableAt store (Cells.read store processes) dependencies
    let store := if runnables = ∅ then store else removeFrom runnables store processes
    let (store, dependencies) := filterDependenciesAt store dependencies runnables
    if runnables = ∅ then some (decide ((Cells.read store processes).card = 0), store)
    else satisfiableLoop rounds store processes dependencies

def satisfiableAt (rounds : Nat) (given : Arguments α) : Option (Bool × List (Finset α)) :=
  let (store, processes) := Cells.alloc given.store (Cells.read given.store given.processes)
  let copy := deepcopy store (given.dependencies.map Fin.val)
  satisfiableLoop rounds copy.store processes copy.dependencies

end Objects

section Copies

variable {source : List (Finset α)} {dependencies : Dict α Nat} {copy : DeepCopy α}

/-- A deep copy so far: its sets were all allocated for it, and are equal to those that they were copied from. -/
structure DeepCopy.Faithful (source : List (Finset α)) (dependencies : Dict α Nat) (copy : DeepCopy α) : Prop where
  kept : Cells.Kept source copy.store
  memo : ∀ ref copied, copy.memo.get? ref = some copied →
    source.length ≤ copied ∧ copied < copy.store.length ∧ Cells.read copy.store copied = Cells.read source ref
  copied : ∀ process copied, copy.dependencies.get? process = some copied →
    source.length ≤ copied ∧ copied < copy.store.length ∧
      ∃ ref, dependencies.get? process = some ref ∧ Cells.read copy.store copied = Cells.read source ref

theorem DeepCopy.Faithful.entry (faithful : copy.Faithful source dependencies) {entry : α × Nat}
    (known : dependencies.get? entry.1 = some entry.2) :
    (copy.entry source entry).Faithful source dependencies ∧
      ∀ process, ((copy.entry source entry).dependencies.get? process).isSome ↔
        process = entry.1 ∨ (copy.dependencies.get? process).isSome := by
  unfold DeepCopy.entry
  split
  · rename_i copied memoized
    refine ⟨⟨faithful.kept, faithful.memo, fun process other found => ?_⟩, fun process => ?_⟩
    · rw [Dict.get?_set] at found
      split at found
      · rename_i same
        obtain rfl := Option.some.inj found
        obtain ⟨later, inside, equal⟩ := faithful.memo _ _ memoized
        exact ⟨later, inside, entry.2, same ▸ known, equal⟩
      · exact faithful.copied process other found
    · rw [Dict.get?_set]
      split <;> simp [*]
  · rename_i fresh
    have longer := faithful.kept.length_le
    have stays : ∀ ref, ref < copy.store.length →
        Cells.read (copy.store ++ [Cells.read source entry.2]) ref = Cells.read copy.store ref :=
      fun ref inside => (Cells.Kept.refl copy.store).alloc _ |>.read inside
    have new : Cells.read (copy.store ++ [Cells.read source entry.2]) copy.store.length = Cells.read source entry.2 :=
      Cells.read_alloc copy.store _
    refine ⟨⟨faithful.kept.alloc _, fun ref copied found => ?_, fun process copied found => ?_⟩, fun process => ?_⟩
    · rw [Dict.get?_set] at found
      split at found
      · rename_i same
        obtain rfl := Option.some.inj found
        exact ⟨longer, by simp [Cells.alloc], same ▸ new⟩
      · obtain ⟨later, inside, equal⟩ := faithful.memo ref copied found
        exact ⟨later, by simp [Cells.alloc]; omega, (stays copied inside).trans equal⟩
    · rw [Dict.get?_set] at found
      split at found
      · rename_i same
        obtain rfl := Option.some.inj found
        exact ⟨longer, by simp [Cells.alloc], entry.2, same ▸ known, new⟩
      · obtain ⟨later, inside, ref, origin, equal⟩ := faithful.copied process copied found
        exact ⟨later, by simp [Cells.alloc]; omega, ref, origin, (stays copied inside).trans equal⟩
    · rw [Dict.get?_set]
      split <;> simp [*]

theorem DeepCopy.Faithful.entries (faithful : copy.Faithful source dependencies) {entries : List (α × Nat)}
    (known : ∀ entry ∈ entries, dependencies.get? entry.1 = some entry.2) :
    (entries.foldl (DeepCopy.entry source) copy).Faithful source dependencies ∧
      ∀ process, ((entries.foldl (DeepCopy.entry source) copy).dependencies.get? process).isSome ↔
        process ∈ entries.map Prod.fst ∨ (copy.dependencies.get? process).isSome := by
  induction entries generalizing copy with
  | nil => exact ⟨faithful, by simp⟩
  | cons entry entries ih =>
    rw [List.forall_mem_cons] at known
    obtain ⟨one, there⟩ := faithful.entry known.1
    obtain ⟨all, covered⟩ := ih one known.2
    refine ⟨all, fun process => ?_⟩
    rw [List.foldl_cons, covered, there, List.map_cons, List.mem_cons]
    tauto

theorem deepcopy_faithful (source : List (Finset α)) (dependencies : Dict α Nat) :
    (deepcopy source dependencies).Faithful source dependencies ∧
      needsAt (deepcopy source dependencies).store (deepcopy source dependencies).dependencies =
        needsAt source dependencies := by
  have start : DeepCopy.Faithful source dependencies { store := source } :=
    ⟨Cells.Kept.refl source, nofun, nofun⟩
  obtain ⟨faithful, covered⟩ := start.entries fun entry mem => (Dict.mem_entries dependencies entry.1 entry.2).mp mem
  refine ⟨faithful, funext fun process => ?_⟩
  unfold needsAt deepcopy
  cases copied : (dependencies.entries.foldl (DeepCopy.entry source) { store := source }).dependencies.get? process with
  | none =>
    have unknown : process ∉ dependencies.keys := by
      intro known
      have there := (covered process).mpr (.inl known)
      rw [copied] at there
      cases there
    rw [Dict.mem_keys, Option.not_isSome_iff_eq_none] at unknown
    rw [unknown]
    rfl
  | some ref =>
    obtain ⟨-, -, origin, known, equal⟩ := faithful.copied process ref copied
    rw [known]
    exact equal

end Copies

section Rounds

variable {base store : List (Finset α)} {processes : Nat} {dependencies : Dict α Nat} {given : Finset α}

theorem removeFrom_kept (kept : Cells.Kept base store) {ref : Nat} (later : base.length ≤ ref) :
    Cells.Kept base (removeFrom given store ref) := kept.set later _

theorem read_removeFrom {ref : Nat} (inside : ref < store.length) (other : Nat) :
    Cells.read (removeFrom given store ref) other =
      if other = ref then Cells.read store other \ given else Cells.read store other := by
  unfold removeFrom
  split
  · rename_i same
    rw [same, Cells.read_set_self inside]
  · rename_i different
    rw [Cells.read_set_ne (Ne.symm different)]

-- a set that several processes refer to loses the given ones once and keeps what is left
theorem foldl_removeFrom {refs : List Nat} (kept : Cells.Kept base store)
    (fresh : ∀ ref ∈ refs, base.length ≤ ref ∧ ref < store.length) :
    Cells.Kept base (refs.foldl (removeFrom given) store) ∧
      (refs.foldl (removeFrom given) store).length = store.length ∧
      ∀ other, Cells.read (refs.foldl (removeFrom given) store) other =
        if other ∈ refs then Cells.read store other \ given else Cells.read store other := by
  induction refs generalizing store with
  | nil => exact ⟨kept, rfl, by simp⟩
  | cons ref refs ih =>
    rw [List.forall_mem_cons] at fresh
    have length : (removeFrom given store ref).length = store.length := List.length_set
    obtain ⟨kept', length', reads⟩ := ih (removeFrom_kept kept fresh.1.1) (by rw [length]; exact fresh.2)
    refine ⟨kept', length'.trans length, fun other => ?_⟩
    rw [List.foldl_cons, reads, read_removeFrom fresh.1.2]
    by_cases same : other = ref <;> by_cases again : other ∈ refs <;> simp [same, again]

/-- A later map of dependencies, none of whose sets is one of the objects before. -/
structure Separate (base store : List (Finset α)) (processes : Nat) (dependencies : Dict α Nat) : Prop where
  kept : Cells.Kept base store
  later : base.length ≤ processes
  inside : processes < store.length
  apart : ∀ process ref, dependencies.get? process = some ref → processes < ref ∧ ref < store.length

theorem filterDependenciesAt_eq (separate : Separate base store processes dependencies) :
    Separate base (filterDependenciesAt store dependencies given).1 processes
        (filterDependenciesAt store dependencies given).2 ∧
      Cells.read (filterDependenciesAt store dependencies given).1 processes = Cells.read store processes ∧
      needsAt (filterDependenciesAt store dependencies given).1 (filterDependenciesAt store dependencies given).2 =
        filterDependencies (needsAt store dependencies) given := by
  obtain ⟨faithful, same⟩ := deepcopy_faithful store dependencies
  have refs : ∀ ref ∈ (deepcopy store dependencies).dependencies.entries.map Prod.snd,
      store.length ≤ ref ∧ ref < (deepcopy store dependencies).store.length := by
    intro ref mem
    obtain ⟨⟨process, ref⟩, known, rfl⟩ := List.mem_map.mp mem
    obtain ⟨later, inside, -⟩ := faithful.copied process ref ((Dict.mem_entries _ process ref).mp known)
    exact ⟨later, inside⟩
  obtain ⟨kept, length, reads⟩ := @foldl_removeFrom _ _ _ _ given _ faithful.kept refs
  have longer := faithful.kept.length_le
  have inside := separate.inside
  refine ⟨⟨List.IsPrefix.trans separate.kept kept, separate.later, ?_, fun process ref found => ?_⟩, ?_, ?_⟩
  · rw [filterDependenciesAt, length]
    omega
  · obtain ⟨later, bounded⟩ := refs ref (List.mem_map.mpr ⟨(process, ref), (Dict.mem_entries _ process ref).mpr found, rfl⟩)
    rw [filterDependenciesAt, length]
    omega
  · exact kept.read inside
  · rw [← same]
    funext process
    unfold needsAt filterDependencies filterDependenciesAt
    cases found : (deepcopy store dependencies).dependencies.get? process with
    | none => simp [found]
    | some ref =>
      have mem : ref ∈ (deepcopy store dependencies).dependencies.entries.map Prod.snd :=
        List.mem_map.mpr ⟨(process, ref), (Dict.mem_entries _ process ref).mpr found, rfl⟩
      simp only [found, Option.elim_some, reads, if_pos mem]

theorem unscheduled_stuck {processes : Finset α} {dependencies : α → Finset α}
    (stuck : filterRunnable processes dependencies = ∅) (rounds : Nat) :
    unscheduled rounds processes dependencies = processes := by
  cases rounds with
  | zero => rfl
  | succ rounds => simp [unscheduled, stuck]

theorem unscheduled_succ {processes : Finset α} {dependencies : α → Finset α}
    (ready : filterRunnable processes dependencies ≠ ∅) (rounds : Nat) :
    unscheduled (rounds + 1) processes dependencies =
      unscheduled rounds (processes \ filterRunnable processes dependencies)
        (filterDependencies dependencies (filterRunnable processes dependencies)) := by
  simp [unscheduled, ready]

theorem card_round {processes : Finset α} {dependencies : α → Finset α}
    (ready : filterRunnable processes dependencies ≠ ∅) :
    (processes \ filterRunnable processes dependencies).card < processes.card := by
  obtain ⟨process, member⟩ := Finset.nonempty_iff_ne_empty.mpr ready
  exact Finset.card_lt_card (Finset.sdiff_ssubset (Finset.filter_subset _ _) ⟨process, member⟩)

theorem removeFrom_separate (separate : Separate base store processes dependencies) :
    Separate base (removeFrom given store processes) processes dependencies ∧
      needsAt (removeFrom given store processes) dependencies = needsAt store dependencies := by
  have length : (removeFrom given store processes).length = store.length := List.length_set
  refine ⟨⟨removeFrom_kept separate.kept separate.later, separate.later, length ▸ separate.inside, fun process ref found => ?_⟩,
    funext fun process => ?_⟩
  · rw [length]
    exact separate.apart process ref found
  · unfold needsAt
    cases found : dependencies.get? process with
    | none => rfl
    | some ref =>
      have other : ref ≠ processes := by
        have := (separate.apart process ref found).1
        omega
      exact (read_removeFrom separate.inside ref).trans (if_neg other)

theorem satisfiableLoop_stuck (separate : Separate base store processes dependencies) (rounds rounds' : Nat)
    (stuck : filterRunnableAt store (Cells.read store processes) dependencies = ∅) :
    ∃ after, satisfiableLoop (rounds + 1) store processes dependencies =
        some (decide (unscheduled rounds' (Cells.read store processes) (needsAt store dependencies) = ∅), after) ∧
      Cells.Kept base after := by
  obtain ⟨separate', same, -⟩ := @filterDependenciesAt_eq _ _ _ _ _ _ ∅ separate
  refine ⟨_, ?_, separate'.kept⟩
  rw [unscheduled_stuck stuck]
  simp only [satisfiableLoop, stuck, if_true, same, Finset.card_eq_zero]

/-- Enough rounds give the answer of the plain loop, and the objects from before are kept. -/
theorem satisfiableLoop_eq (rounds : Nat) (separate : Separate base store processes dependencies)
    (enough : (Cells.read store processes).card ≤ rounds) :
    ∃ after, satisfiableLoop (rounds + 1) store processes dependencies =
        some (decide (unscheduled rounds (Cells.read store processes) (needsAt store dependencies) = ∅), after) ∧
      Cells.Kept base after := by
  induction rounds generalizing store dependencies with
  | zero =>
    have none : Cells.read store processes = ∅ := Finset.card_eq_zero.mp (Nat.le_zero.mp enough)
    refine satisfiableLoop_stuck separate 0 0 ?_
    rw [filterRunnableAt, none]
    rfl
  | succ rounds ih =>
    by_cases stuck : filterRunnableAt store (Cells.read store processes) dependencies = ∅
    · exact satisfiableLoop_stuck separate (rounds + 1) (rounds + 1) stuck
    · obtain ⟨separate', needs⟩ := @removeFrom_separate _ _ _ _ _ _
        (filterRunnableAt store (Cells.read store processes) dependencies) separate
      obtain ⟨separate'', left, filtered⟩ := @filterDependenciesAt_eq _ _ _ _ _ _
        (filterRunnableAt store (Cells.read store processes) dependencies) separate'
      rw [read_removeFrom separate.inside, if_pos rfl] at left
      rw [needs] at filtered
      have fewer := card_round stuck
      obtain ⟨after, done, kept⟩ := ih separate'' (by rw [left]; exact Nat.le_of_lt_succ (fewer.trans_le enough))
      refine ⟨after, ?_, kept⟩
      rw [unscheduled_succ stuck, satisfiableLoop]
      simp only [if_neg stuck]
      rw [done, left, filtered]
      rfl

/-- `satisfiable` on objects answers as on plain sets, in one round more than there are processes, and leaves the
    objects alone that were there before. -/
theorem satisfiableAt_eq (given : Arguments α) :
    ∃ after, satisfiableAt ((Cells.read given.store given.processes).card + 1) given =
        some (satisfiable (Cells.read given.store given.processes)
          (needsAt given.store (given.dependencies.map Fin.val)), after) ∧
      Cells.Kept given.store after := by
  have allocated := (Cells.Kept.refl given.store).alloc (Cells.read given.store given.processes)
  have length : (Cells.alloc given.store (Cells.read given.store given.processes)).1.length = given.store.length + 1 := by
    simp [Cells.alloc]
  obtain ⟨faithful, same⟩ := deepcopy_faithful (Cells.alloc given.store (Cells.read given.store given.processes)).1
    (given.dependencies.map Fin.val)
  have longer := faithful.kept.length_le
  have needs : needsAt (Cells.alloc given.store (Cells.read given.store given.processes)).1
      (given.dependencies.map Fin.val) = needsAt given.store (given.dependencies.map Fin.val) := by
    funext process
    unfold needsAt
    rw [Dict.get?_map]
    cases given.dependencies.get? process with
    | none => rfl
    | some ref => exact allocated.read ref.isLt
  have processes : Cells.read (deepcopy (Cells.alloc given.store (Cells.read given.store given.processes)).1
      (given.dependencies.map Fin.val)).store given.store.length = Cells.read given.store given.processes := by
    rw [faithful.kept.read (by omega)]
    exact Cells.read_alloc given.store _
  have separate : Separate given.store (deepcopy (Cells.alloc given.store (Cells.read given.store given.processes)).1
      (given.dependencies.map Fin.val)).store given.store.length
      (deepcopy (Cells.alloc given.store (Cells.read given.store given.processes)).1
      (given.dependencies.map Fin.val)).dependencies :=
    ⟨List.IsPrefix.trans allocated faithful.kept, Nat.le_refl _, by omega, fun process ref found => by
      obtain ⟨later, inside, -⟩ := faithful.copied process ref found
      omega⟩
  obtain ⟨after, done, kept⟩ := satisfiableLoop_eq _ separate (Nat.le_refl _)
  rw [processes, same, needs] at done
  exact ⟨after, done, kept⟩

end Rounds

section Orders

variable {processes : Finset α} {dependencies : α → Finset α}

/-- The processes in an order in which each comes after all that it depends on. -/
structure Schedule (processes : Finset α) (dependencies : α → Finset α) (order : List α) : Prop where
  distinct : order.Nodup
  all : order.toFinset = processes
  ordered : Ordered (fun process need => need ∈ dependencies process) order

theorem schedule_of_unscheduled {rounds : Nat} (scheduled : unscheduled rounds processes dependencies = ∅) :
    ∃ order, Schedule processes dependencies order := by
  induction rounds generalizing processes dependencies with
  | zero =>
    obtain rfl : processes = ∅ := scheduled
    exact ⟨[], List.nodup_nil, rfl, by simp [Ordered]⟩
  | succ rounds ih =>
    by_cases stuck : filterRunnable processes dependencies = ∅
    · rw [unscheduled_stuck stuck] at scheduled
      rw [scheduled]
      exact ⟨[], List.nodup_nil, rfl, by simp [Ordered]⟩
    · rw [unscheduled_succ stuck] at scheduled
      obtain ⟨order, distinct, all, ordered⟩ := ih scheduled
      have part : filterRunnable processes dependencies ⊆ processes := Finset.filter_subset _ _
      refine ⟨(filterRunnable processes dependencies).toList ++ order, ?_, ?_, Ordered.append ?_ ?_⟩
      · refine List.nodup_append.mpr ⟨Finset.nodup_toList _, distinct, fun process ready other left => ?_⟩
        rintro rfl
        rw [← List.mem_toFinset, all, Finset.mem_sdiff] at left
        exact left.2 (Finset.mem_toList.mp ready)
      · rw [List.toFinset_append, Finset.toList_toFinset, all, Finset.union_sdiff_of_subset part]
      · intro process ready need edge
        rw [Finset.mem_toList, filterRunnable, Finset.mem_filter] at ready
        rw [ready.2] at edge
        exact Finset.notMem_empty need edge
      · intro before process after split need edge
        refine ordered before process after split need (Finset.mem_sdiff.mpr ⟨edge.1, fun ready => ?_⟩)
        exact edge.2 (Finset.mem_toList.mpr ready)

theorem Schedule.round {order : List α} (schedule : Schedule processes dependencies order) (given : Finset α) :
    Schedule (processes \ given) (filterDependencies dependencies given) (order.filter fun process => process ∉ given) := by
  refine ⟨schedule.distinct.filter _, ?_, ?_⟩
  · ext process
    simp [← schedule.all]
  · intro before process after split need edge
    refine schedule.ordered.filter (fun process => decide (process ∉ given)) before process after split need ?_
    obtain ⟨needed, left⟩ := Finset.mem_sdiff.mp edge
    exact ⟨needed, decide_eq_true left⟩

theorem unscheduled_of_schedule {rounds : Nat} {order : List α} (schedule : Schedule processes dependencies order)
    (enough : processes.card ≤ rounds) : unscheduled rounds processes dependencies = ∅ := by
  induction rounds generalizing processes dependencies order with
  | zero => exact Finset.card_eq_zero.mp (Nat.le_zero.mp enough)
  | succ rounds ih =>
    cases order with
    | nil =>
      have none : processes = ∅ := schedule.all.symm
      rw [unscheduled_stuck (by rw [none]; rfl), none]
    | cons first rest =>
      have known : first ∈ processes := by
        rw [← schedule.all]
        simp
      have free : dependencies first = ∅ := Finset.eq_empty_of_forall_notMem schedule.ordered.head
      have ready : filterRunnable processes dependencies ≠ ∅ :=
        Finset.ne_empty_of_mem (Finset.mem_filter.mpr ⟨known, free⟩)
      rw [unscheduled_succ ready]
      exact ih (schedule.round _) (Nat.le_of_lt_succ ((card_round ready).trans_le enough))

theorem satisfiable_iff : satisfiable processes dependencies = true ↔ ∃ order, Schedule processes dependencies order := by
  rw [satisfiable, decide_eq_true_iff]
  constructor
  · exact schedule_of_unscheduled
  · rintro ⟨order, schedule⟩
    exact unscheduled_of_schedule schedule (Nat.le_refl _)

theorem Schedule.needs_known {order : List α} (schedule : Schedule processes dependencies order) {process need : α}
    (known : process ∈ processes) (edge : need ∈ dependencies process) : need ∈ processes := by
  rw [← schedule.all, List.mem_toFinset] at known ⊢
  exact schedule.ordered.mem known edge

theorem Schedule.no_cycle {order : List α} (schedule : Schedule processes dependencies order) (process : α) :
    ¬ Relation.TransGen (fun process need => process ∈ processes ∧ need ∈ dependencies process) process process := by
  have same : ∀ process, process ∈ processes ↔ process ∈ order := by
    intro process
    rw [← schedule.all, List.mem_toFinset]
  simp only [same]
  exact schedule.ordered.no_cycle process

/-- `satisfiable` returns, with its arguments as they were, and says whether the processes have an order in which each
    comes after all that it depends on. -/
theorem satisfiable_exact (given : Arguments α) :
    ∃ answer after, satisfiableAt ((Cells.read given.store given.processes).card + 1) given = some (answer, after) ∧
      Cells.Kept given.store after ∧
      (answer = true ↔ ∃ order, Schedule (Cells.read given.store given.processes)
        (needsAt given.store (given.dependencies.map Fin.val)) order) ∧
      ((∃ process, Relation.TransGen (fun process need => process ∈ Cells.read given.store given.processes ∧
        need ∈ needsAt given.store (given.dependencies.map Fin.val) process) process process) → answer = false) ∧
      ((∃ process ∈ Cells.read given.store given.processes,
        ∃ need ∈ needsAt given.store (given.dependencies.map Fin.val) process,
          need ∉ Cells.read given.store given.processes) → answer = false) := by
  obtain ⟨after, done, kept⟩ := satisfiableAt_eq given
  refine ⟨_, after, done, kept, satisfiable_iff, ?_, ?_⟩
  · rintro ⟨process, cycle⟩
    rw [← Bool.not_eq_true, satisfiable_iff]
    rintro ⟨order, schedule⟩
    exact schedule.no_cycle process cycle
  · rintro ⟨process, known, need, edge, unknown⟩
    rw [← Bool.not_eq_true, satisfiable_iff]
    rintro ⟨order, schedule⟩
    exact unknown (schedule.needs_known known edge)

end Orders

end Planner

end Aurora.Thermos
