import Aurora.Config.PortAgreement
import Aurora.Library.Cells
import Mathlib.Data.Finset.Card

namespace Aurora.Config

open Collections Alias Relation

namespace PortResolver

section Loop

variable {portmap : Dict String Port} {rounds : Nat} {visited : Finset Port} {root : Port} {name : String}

/-- The loop raises only once the way from the root leads into a circle. -/
theorem resolveLoop_cycle (raised : resolveLoop portmap rounds visited root = .error .cycle)
    (behind : ∀ port ∈ visited, TransGen (Follows portmap.get?) port root) : Circular portmap.get? root := by
  induction rounds generalizing visited root with
  | zero =>
    cases root with
    | inr number => cases raised
    | inl name =>
      rw [resolveLoop] at raised
      split at raised <;> cases raised
  | succ rounds ih =>
    cases root with
    | inr number => cases raised
    | inl name =>
      rw [resolveLoop] at raised
      split at raised
      · cases raised
      · rename_i next found
        have follows : Follows portmap.get? (.inl name) next := ⟨name, rfl, found⟩
        simp only at raised
        split at raised
        · rename_i again
          rcases Finset.mem_insert.mp again with rfl | again
          · exact ⟨_, .refl, .single follows⟩
          · exact ⟨_, .refl, .head follows (behind next again)⟩
        · refine .step follows (ih raised fun port mem => ?_)
          rcases Finset.mem_insert.mp mem with rfl | mem
          · exact .single follows
          · exact (behind port mem).tail follows

def names (portmap : Dict String Port) : Finset Port := portmap.keys.toFinset.image .inl

theorem card_names_le (portmap : Dict String Port) : (names portmap).card ≤ portmap.entries.length := by
  have names : (names portmap).card ≤ portmap.keys.toFinset.card := Finset.card_image_le
  have keys : portmap.keys.toFinset.card ≤ portmap.keys.length := portmap.keys.toFinset_card_le
  rw [Dict.keys, List.length_map] at keys
  exact names.trans keys

theorem mem_names {next : Port} (found : portmap.get? name = some next) : .inl name ∈ names portmap :=
  Finset.mem_image_of_mem _ (List.mem_toFinset.mpr (Dict.mem_keys_of_get? found))

-- each round adds a name to `visited`, so the rounds are not used up before the names are
theorem resolveLoop_finishes (known : visited ⊆ names portmap) (fresh : root ∉ visited)
    (enough : portmap.entries.length ≤ visited.card + rounds) :
    resolveLoop portmap rounds visited root ≠ .error .unfinished := by
  have limit := card_names_le portmap
  induction rounds generalizing visited root with
  | zero =>
    cases root with
    | inr number => simp [resolveLoop, pure, Except.pure]
    | inl name =>
      rw [resolveLoop]
      split
      · simp [pure, Except.pure]
      · rename_i next found
        have more := Finset.card_le_card (Finset.insert_subset (mem_names found) known)
        rw [Finset.card_insert_of_notMem fresh] at more
        omega
  | succ rounds ih =>
    cases root with
    | inr number => simp [resolveLoop, pure, Except.pure]
    | inl name =>
      rw [resolveLoop]
      split
      · simp [pure, Except.pure]
      · rename_i next found
        simp only
        split
        · simp [throw, throwThe, MonadExceptOf.throw]
        · rename_i unseen
          refine ih (Finset.insert_subset (mem_names found) known) unseen ?_
          rw [Finset.card_insert_of_notMem fresh]
          omega

theorem resolveOne_finishes : resolveOne portmap name ≠ .error .unfinished := by
  unfold resolveOne
  split
  · simp [pure, Except.pure]
  · exact resolveLoop_finishes (Finset.empty_subset _) (Finset.notMem_empty _) (by simp)

theorem resolveOne_cycle : resolveOne portmap name = .error .cycle ↔ Circular portmap.get? (.inl name) := by
  constructor
  · intro raised
    unfold resolveOne at raised
    split at raised
    · cases raised
    · rename_i root found
      exact .step ⟨name, rfl, found⟩ (resolveLoop_cycle raised (by simp))
  · intro circular
    cases one : resolveOne portmap name with
    | ok final =>
      obtain ⟨n, leads⟩ := resolveOne_eq_ok.mp one
      exact absurd circular leads.not_circular
    | error raised =>
      cases raised with
      | cycle => rfl
      | unfinished => exact absurd one resolveOne_finishes

end Loop

section All

variable {portmap start resolved : Dict String Port} {keys : List String} {raised : PortError}

theorem foldlM_raises (failed : keys.foldlM (fun resolved name => return resolved.set name (← resolveOne portmap name))
    start = .error raised) : ∃ name ∈ keys, resolveOne portmap name = .error raised := by
  induction keys generalizing start with
  | nil => cases failed
  | cons head rest ih =>
    rw [List.foldlM_cons] at failed
    cases one : resolveOne portmap head with
    | error other =>
      rw [one] at failed
      cases failed
      exact ⟨head, List.mem_cons_self, one⟩
    | ok value =>
      rw [one] at failed
      obtain ⟨name, mem, raises⟩ := ih failed
      exact ⟨name, List.mem_cons_of_mem _ mem, raises⟩

theorem keys_foldlM (done : keys.foldlM (fun resolved name => return resolved.set name (← resolveOne portmap name))
    start = .ok resolved) (distinct : keys.Nodup) (fresh : ∀ name ∈ keys, name ∉ start.keys) :
    resolved.keys = start.keys ++ keys := by
  induction keys generalizing start with
  | nil =>
    cases done
    exact (List.append_nil _).symm
  | cons head rest ih =>
    obtain ⟨new, distinct⟩ := List.nodup_cons.mp distinct
    rw [List.foldlM_cons] at done
    cases one : resolveOne portmap head with
    | error raised =>
      rw [one] at done
      cases done
    | ok value =>
      rw [one] at done
      have added : (start.set head value).keys = start.keys ++ [head] := by
        rw [Dict.keys_set, if_neg (fresh head List.mem_cons_self)]
      have fresh' : ∀ name ∈ rest, name ∉ (start.set head value).keys := by
        intro name mem
        rw [added, List.mem_append, List.mem_singleton]
        rintro (old | rfl)
        · exact fresh name (List.mem_cons_of_mem _ mem) old
        · exact new mem
      rw [ih done distinct fresh', added, List.append_assoc]
      rfl

end All

section Resolve

variable (parseInt : String → Option Int)

def aliases (portmap : Dict String Port) : String → Option Port := (portmap.map (toInt parseInt)).get?

instance : Inhabited (Dict String Port) := ⟨.empty⟩

/-- `portmap[port] = int(portmap[port])`, where a ValueError leaves the entry as it is. -/
def convert (portmap : Nat) (store : List (Dict String Port)) (port : String) : List (Dict String Port) :=
  store.set portmap ((Cells.read store portmap).adjust (toInt parseInt) port)

/-- The objects once the portmap is copied and the numbers of the copy are read; the copy is the last of them. -/
def converted (store : List (Dict String Port)) (portmap : Nat) : List (Dict String Port) :=
  let (store', copied) := Cells.alloc store (Cells.read store portmap)
  (Cells.read store' copied).keys.foldl (convert parseInt copied) store'

def resolveAt (store : List (Dict String Port)) (portmap : Nat) :
    Except PortError (Dict String Port) × List (Dict String Port) :=
  let store' := converted parseInt store portmap
  let copied := Cells.read store' store.length
  (resolveAll copied copied.keys, store')

variable {portmap resolved : Dict String Port} {name : String}

theorem foldl_convert (names : List String) {before store : List (Dict String Port)} {portmap : Nat}
    (kept : Cells.Kept before store) (later : before.length ≤ portmap) (known : portmap < store.length) :
    Cells.Kept before (names.foldl (convert parseInt portmap) store) ∧
      Cells.read (names.foldl (convert parseInt portmap) store) portmap =
        names.foldl (Dict.adjust (toInt parseInt)) (Cells.read store portmap) := by
  induction names generalizing store with
  | nil => exact ⟨kept, rfl⟩
  | cons name names ih =>
    have kept' : Cells.Kept before (convert parseInt portmap store name) := kept.set later _
    have known' : portmap < (convert parseInt portmap store name).length := by rwa [convert, List.length_set]
    obtain ⟨kept, last⟩ := ih kept' known'
    refine ⟨kept, ?_⟩
    rw [List.foldl_cons, List.foldl_cons, last]
    congr 1
    exact Cells.read_set_self known _

theorem converted_eq (store : List (Dict String Port)) (portmap : Nat) :
    Cells.Kept store (converted parseInt store portmap) ∧
      Cells.read (converted parseInt store portmap) store.length = (Cells.read store portmap).map (toInt parseInt) := by
  have known : store.length < (Cells.alloc store (Cells.read store portmap)).1.length := by simp [Cells.alloc]
  have copied : Cells.read (Cells.alloc store (Cells.read store portmap)).1 store.length = Cells.read store portmap :=
    Cells.read_alloc store _
  have all := foldl_convert parseInt (Cells.read store portmap).keys
    ((Cells.Kept.refl store).alloc (Cells.read store portmap)) (Nat.le_refl _) known
  rw [copied, Dict.foldl_adjust] at all
  unfold converted
  simp only [show (Cells.alloc store (Cells.read store portmap)).2 = store.length from rfl, copied]
  exact all

/-- `resolve` gives the same as on a plain value, and leaves every object alone that was there before. -/
theorem resolveAt_eq (store : List (Dict String Port)) (portmap : Nat) :
    (resolveAt parseInt store portmap).1 = resolve parseInt (Cells.read store portmap) ∧
      Cells.Kept store (resolveAt parseInt store portmap).2 := by
  obtain ⟨kept, copied⟩ := converted_eq parseInt store portmap
  refine ⟨?_, kept⟩
  rw [resolveAt, copied]
  rfl

variable {parseInt}

theorem toInt_toInt (port : Port) : toInt parseInt (toInt parseInt port) = toInt parseInt port := by
  cases port with
  | inr number => rfl
  | inl text => cases read : parseInt text <;> simp [toInt, read]

theorem resolve_keys (done : resolve parseInt portmap = .ok resolved) : resolved.keys = portmap.keys := by
  have keys := keys_foldlM done (Dict.distinct _) (fun name _ => List.not_mem_nil)
  rw [keys, keys_toInt]
  rfl

theorem resolve_finishes : resolve parseInt portmap ≠ .error .unfinished := by
  intro raised
  obtain ⟨name, -, one⟩ := foldlM_raises raised
  exact resolveOne_finishes one

theorem resolve_cycle : resolve parseInt portmap = .error .cycle ↔
    ∃ name ∈ portmap.keys, Circular (aliases parseInt portmap) (.inl name) := by
  constructor
  · intro raised
    obtain ⟨name, mem, one⟩ := foldlM_raises raised
    rw [keys_toInt] at mem
    exact ⟨name, mem, resolveOne_cycle.mp one⟩
  · rintro ⟨name, mem, circular⟩
    cases done : resolve parseInt portmap with
    | ok resolved =>
      obtain ⟨n, final, leads, -⟩ := resolve_known done mem
      exact absurd circular leads.not_circular
    | error raised =>
      cases raised with
      | cycle => rfl
      | unfinished => exact absurd done resolve_finishes

/-- The end of a way is a number, or a name without an entry; it would be read as the same again. -/
theorem resolved_end (done : resolve parseInt portmap = .ok resolved) {final : Port}
    (found : resolved.get? name = some final) :
    toInt parseInt final = final ∧ ∀ other, final = .inl other → other ∉ portmap.keys := by
  have known : name ∈ portmap.keys := resolve_keys done ▸ Dict.mem_keys_of_get? found
  obtain ⟨n, final', leads, found'⟩ := resolve_known done known
  obtain rfl : final' = final := Option.some.inj (found'.symm.trans found)
  have free : ∀ other, final' = .inl other → other ∉ portmap.keys := by
    rintro other rfl
    have missing := leads.final_free
    rwa [← Option.not_isSome_iff_eq_none, ← Dict.mem_keys, keys_toInt] at missing
  refine ⟨?_, free⟩
  rcases leads.final_target with rfl | ⟨k, target⟩
  · exact absurd known (free name rfl)
  · rw [Dict.get?_map] at target
    obtain ⟨port, -, rfl⟩ := Option.map_eq_some_iff.mp target
    exact toInt_toInt port

theorem resolve_resolved (done : resolve parseInt portmap = .ok resolved) : resolve parseInt resolved = .ok resolved := by
  have keys := resolve_keys done
  have stays : ∀ name final, resolved.get? name = some final →
      Leads (resolved.map (toInt parseInt)).get? 1 (.inl name) final := by
    intro name final found
    obtain ⟨same, free⟩ := resolved_end done found
    refine .step (by rw [Dict.get?_map, found, Option.map_some, same]) ?_
    cases final with
    | inr number => exact .value number
    | inl other =>
      have missing := free other rfl
      rw [← keys, Dict.mem_keys, Option.not_isSome_iff_eq_none] at missing
      exact .free (by rw [Dict.get?_map, missing, Option.map_none])
  have ends : ∀ name ∈ resolved.keys, ∃ n final, Leads (resolved.map (toInt parseInt)).get? n (.inl name) final := by
    intro name mem
    obtain ⟨final, found⟩ := Option.isSome_iff_exists.mp ((Dict.mem_keys _ _).mp mem)
    exact ⟨1, final, stays name final found⟩
  obtain ⟨again, done'⟩ := resolve_succeeds ends
  rw [done']
  congr 1
  refine Dict.ext_get? (resolve_keys done') fun name => ?_
  by_cases mem : name ∈ resolved.keys
  · obtain ⟨n, final, leads, found⟩ := resolve_known done' mem
    obtain ⟨final', found'⟩ := Option.isSome_iff_exists.mp ((Dict.mem_keys _ _).mp mem)
    rw [found, found', (leads.unique (stays name final' found')).2]
  · have missing := mem
    rw [Dict.mem_keys, Option.not_isSome_iff_eq_none] at missing
    rw [missing, (resolve_unknown done' mem).2]

/-- Every portmap is resolved without a change to it, in as many rounds as it has names, unless its aliases lead into
    a cycle; then each key has the end of its way, and nothing is left to resolve. -/
theorem resolve_exact (parseInt : String → Option Int) (store : List (Dict String Port)) (ref : Nat) :
    Cells.Kept store (resolveAt parseInt store ref).2 ∧
      (resolveAt parseInt store ref).1 ≠ .error .unfinished ∧
      ((resolveAt parseInt store ref).1 = .error .cycle ↔
        ∃ name ∈ (Cells.read store ref).keys, Circular (aliases parseInt (Cells.read store ref)) (.inl name)) ∧
      ∀ resolved, (resolveAt parseInt store ref).1 = .ok resolved →
        resolved.keys = (Cells.read store ref).keys ∧
        (∀ name ∈ resolved.keys, ∃ n final, Leads (aliases parseInt (Cells.read store ref)) n (.inl name) final ∧
          resolved.get? name = some final) ∧
        resolve parseInt resolved = .ok resolved := by
  obtain ⟨same, kept⟩ := resolveAt_eq parseInt store ref
  rw [same]
  refine ⟨kept, resolve_finishes, resolve_cycle, fun resolved done => ⟨resolve_keys done, fun name mem => ?_,
    resolve_resolved done⟩⟩
  rw [resolve_keys done] at mem
  exact resolve_known done mem

end Resolve

end PortResolver

end Aurora.Config
