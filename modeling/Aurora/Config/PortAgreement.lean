import Aurora.Config.Ports
import Aurora.Library.Alias

namespace Aurora.Config

open Collections Alias

theorem get?_update (d other : Dict String Port) (name : String) :
    (update d other).get? name = (other.get? name).or (d.get? name) := by
  have steps : ∀ (d : Dict String Port) (entry : String × Port),
      d.set entry.1 entry.2 = (some entry.2).elim d (d.set entry.1) := fun _ _ => rfl
  have folded := Dict.get?_foldl_set some (fun d entry => d.set entry.1 entry.2) steps other d name
  simpa [update] using folded

namespace PortResolver

variable {portmap resolved : Dict String Port} {rounds n : Nat} {visited : Finset Port} {root final : Port}
  {name : String} {names : List String}

theorem resolveLoop_leads (done : resolveLoop portmap rounds visited root = .ok final) :
    ∃ n, Leads portmap.get? n root final := by
  induction rounds generalizing visited root with
  | zero =>
    cases root with
    | inr number =>
      rw [resolveLoop] at done
      cases done
      exact ⟨0, .value number⟩
    | inl name =>
      rw [resolveLoop] at done
      split at done
      · rename_i missing
        cases done
        exact ⟨0, .free missing⟩
      · cases done
  | succ rounds ih =>
    cases root with
    | inr number =>
      rw [resolveLoop] at done
      cases done
      exact ⟨0, .value number⟩
    | inl name =>
      rw [resolveLoop] at done
      split at done
      · rename_i missing
        cases done
        exact ⟨0, .free missing⟩
      · rename_i next found
        simp only at done
        split at done
        · cases done
        · obtain ⟨n, leads⟩ := ih done
          exact ⟨n + 1, .step found leads⟩

-- a port that was visited is further from the end than any port still to come, so it is not met again
theorem resolveLoop_of_leads (leads : Leads portmap.get? n root final) (enough : n ≤ rounds)
    (behind : ∀ port ∈ visited, ∃ m, n < m ∧ Leads portmap.get? m port final) :
    resolveLoop portmap rounds visited root = .ok final := by
  induction leads generalizing rounds visited with
  | value number =>
    rw [resolveLoop]
    rfl
  | free missing =>
    rw [resolveLoop, missing]
    rfl
  | @step name next final n found rest ih =>
    obtain ⟨rounds, rfl⟩ : ∃ less, rounds = less + 1 := ⟨rounds - 1, by omega⟩
    have further : ∀ port ∈ insert (Sum.inl name) visited, ∃ m, n < m ∧ Leads portmap.get? m port final := by
      intro port member
      rcases Finset.mem_insert.mp member with rfl | member
      · exact ⟨n + 1, Nat.lt_succ_self n, .step found rest⟩
      · obtain ⟨m, more, leads⟩ := behind port member
        exact ⟨m, by omega, leads⟩
    have unseen : next ∉ insert (Sum.inl name) visited := by
      intro again
      obtain ⟨m, more, leads⟩ := further next again
      have same := (rest.unique leads).1
      omega
    rw [resolveLoop, found]
    simp only [unseen, ite_false]
    exact ih (by omega) further

/-- The rounds suffice for every portmap, as the names on the way are distinct. -/
theorem resolveOne_eq_ok : resolveOne portmap name = .ok final ↔ ∃ n, Leads portmap.get? n (.inl name) final := by
  unfold resolveOne
  split
  · rename_i missing
    constructor
    · intro done
      cases done
      exact ⟨0, .free missing⟩
    · rintro ⟨n, leads⟩
      rw [(leads.unique (.free missing)).2]
      rfl
  · rename_i root found
    constructor
    · intro done
      obtain ⟨n, leads⟩ := resolveLoop_leads done
      exact ⟨n + 1, .step found leads⟩
    · rintro ⟨n, leads⟩
      have bounded := leads.bounded fun k known => (portmap.mem_keys k).mpr known
      cases leads with
      | free missing =>
        rw [missing] at found
        cases found
      | step found' rest =>
        rw [found] at found'
        cases found'
        rw [Dict.keys, List.length_map] at bounded
        exact resolveLoop_of_leads rest (by omega) (by simp)

theorem foldlM_resolved {start : Dict String Port}
    (done : names.foldlM (fun resolved name => return resolved.set name (← resolveOne portmap name)) start = .ok resolved)
    (name : String) :
    (name ∈ names → ∃ final, resolveOne portmap name = .ok final ∧ resolved.get? name = some final) ∧
      (name ∉ names → resolved.get? name = start.get? name) := by
  induction names generalizing start with
  | nil =>
    cases done
    simp
  | cons head rest ih =>
    rw [List.foldlM_cons] at done
    cases one : resolveOne portmap head with
    | error e =>
      rw [one] at done
      cases done
    | ok value =>
      rw [one] at done
      obtain ⟨inside, outside⟩ := ih done
      constructor
      · intro member
        by_cases later : name ∈ rest
        · exact inside later
        · obtain rfl : name = head := (List.mem_cons.mp member).resolve_right later
          exact ⟨value, one, by rw [outside later, Dict.get?_set_self]⟩
      · intro other
        rw [List.mem_cons, not_or] at other
        rw [outside other.2, Dict.get?_set_ne _ _ other.1]

theorem foldlM_succeeds (all : ∀ name ∈ names, ∃ final, resolveOne portmap name = .ok final) (start : Dict String Port) :
    ∃ resolved, names.foldlM (fun resolved name => return resolved.set name (← resolveOne portmap name)) start =
      .ok resolved := by
  induction names generalizing start with
  | nil => exact ⟨start, rfl⟩
  | cons head rest ih =>
    obtain ⟨value, one⟩ := all head List.mem_cons_self
    obtain ⟨resolved, done⟩ := ih (fun name member => all name (List.mem_cons_of_mem _ member)) (start.set head value)
    refine ⟨resolved, ?_⟩
    rw [List.foldlM_cons, one]
    exact done

variable {parseInt : String → Option Int}

theorem keys_toInt (portmap : Dict String Port) : (portmap.map (toInt parseInt)).keys = portmap.keys :=
  Dict.keys_mapKeyed _ portmap

theorem resolve_known (done : resolve parseInt portmap = .ok resolved) (known : name ∈ portmap.keys) :
    ∃ n final, Leads (portmap.map (toInt parseInt)).get? n (.inl name) final ∧ resolved.get? name = some final := by
  obtain ⟨final, one, found⟩ := (foldlM_resolved done name).1 (by rwa [keys_toInt])
  obtain ⟨n, leads⟩ := resolveOne_eq_ok.mp one
  exact ⟨n, final, leads, found⟩

theorem resolve_unknown (done : resolve parseInt portmap = .ok resolved) (unknown : name ∉ portmap.keys) :
    (portmap.map (toInt parseInt)).get? name = none ∧ resolved.get? name = none := by
  constructor
  · rw [← Option.not_isSome_iff_eq_none, ← Dict.mem_keys, keys_toInt]
    exact unknown
  · exact (foldlM_resolved done name).2 (by rwa [keys_toInt])

theorem resolve_succeeds (ends : ∀ name ∈ portmap.keys, ∃ n final, Leads (portmap.map (toInt parseInt)).get? n (.inl name) final) :
    ∃ resolved, resolve parseInt portmap = .ok resolved := by
  apply foldlM_succeeds
  intro name member
  rw [keys_toInt] at member
  obtain ⟨n, final, leads⟩ := ends name member
  exact ⟨final, resolveOne_eq_ok.mpr ⟨n, leads⟩⟩

theorem resolve_leads (done : resolve parseInt portmap = .ok resolved) (name : String) :
    ∃ n, Leads (portmap.map (toInt parseInt)).get? n (.inl name) ((resolved.get? name).getD (.inl name)) := by
  by_cases known : name ∈ portmap.keys
  · obtain ⟨n, final, leads, found⟩ := resolve_known done known
    rw [found]
    exact ⟨n, leads⟩
  · obtain ⟨missing, unresolved⟩ := resolve_unknown done known
    rw [unresolved]
    exact ⟨0, .free missing⟩

end PortResolver

section Agreement

open PortResolver

variable {parseInt : String → Option Int} {config : AuroraConfig} {resolved : Dict String Port} {assigned : Dict String Int}
  {ports : Finset String}

theorem mem_unallocatedName (name : String) (port : Port) : name ∈ unallocatedName port ↔ port = .inl name := by
  cases port with
  | inl other => simp [unallocatedName, eq_comm]
  | inr number => simp [unallocatedName]

theorem ports_of_resolved (done : resolve parseInt config.portmap = .ok resolved) :
    ∃ ports, config.ports parseInt = .ok ports ∧ ∀ name, name ∈ ports ↔
      ∃ source, (source ∈ config.portmap.keys ∨ source ∈ config.referencedPorts) ∧
        (resolved.get? source).getD (.inl source) = .inl name := by
  refine ⟨_, by rw [AuroraConfig.ports, done]; rfl, ?_⟩
  intro name
  simp only [Finset.mem_union, Finset.mem_biUnion, List.mem_toFinset, List.mem_map, mem_unallocatedName]
  constructor
  · rintro (⟨port, ⟨⟨source, port'⟩, member, rfl⟩, rfl⟩ | ⟨source, referenced, ended⟩)
    · have found := (resolved.mem_entries _ _).mp member
      have known : source ∈ config.portmap.keys := by
        by_contra unknown
        rw [(resolve_unknown done unknown).2] at found
        cases found
      exact ⟨source, .inl known, by rw [found]; rfl⟩
    · exact ⟨source, .inr referenced, ended⟩
  · rintro ⟨source, known | referenced, ended⟩
    · obtain ⟨n, final, -, found⟩ := resolve_known done known
      rw [found] at ended
      cases ended
      exact .inl ⟨_, ⟨_, (resolved.mem_entries _ _).mpr found, rfl⟩, rfl⟩
    · exact .inr ⟨source, referenced, ended⟩

def allocated (assigned : Dict String Int) : Port → Option Int
  | .inl name => assigned.get? name
  | .inr number => some number

theorem get?_assigned (portmap : Dict String Port) (assigned : Dict String Int) (name : String) :
    ((update portmap (assigned.map Sum.inr)).map (toInt parseInt)).get? name =
      ((assigned.get? name).map Sum.inr).or ((portmap.map (toInt parseInt)).get? name) := by
  rw [Dict.get?_map, get?_update, Dict.get?_map, Dict.get?_map]
  cases assigned.get? name <;> rfl

-- no name of the portmap is requested from the scheduler, so the assignment keeps the portmap's own entries
theorem assigned_keeps (done : resolve parseInt config.portmap = .ok resolved)
    (requested : ∀ name, name ∈ ports ↔ ∃ source, (source ∈ config.portmap.keys ∨ source ∈ config.referencedPorts) ∧
      (resolved.get? source).getD (.inl source) = .inl name)
    (exact : ∀ name, name ∈ assigned.keys ↔ name ∈ ports) (name : String) (target : Port)
    (found : (config.portmap.map (toInt parseInt)).get? name = some target) :
    ((update config.portmap (assigned.map Sum.inr)).map (toInt parseInt)).get? name = some target := by
  rw [get?_assigned]
  cases given : assigned.get? name with
  | none => exact found
  | some number =>
    obtain ⟨source, -, ended⟩ := (requested name).mp ((exact name).mp (Dict.mem_keys_of_get? given))
    obtain ⟨n, leads⟩ := resolve_leads done source
    rw [ended] at leads
    rw [leads.final_free] at found
    cases found

theorem assigned_leads (done : resolve parseInt config.portmap = .ok resolved)
    (requested : ∀ name, name ∈ ports ↔ ∃ source, (source ∈ config.portmap.keys ∨ source ∈ config.referencedPorts) ∧
      (resolved.get? source).getD (.inl source) = .inl name)
    (exact : ∀ name, name ∈ assigned.keys ↔ name ∈ ports) (name : String) :
    let final := (resolved.get? name).getD (.inl name)
    ∃ n, Leads ((update config.portmap (assigned.map Sum.inr)).map (toInt parseInt)).get? n (.inl name)
      (((allocated assigned final).map Sum.inr).getD final) := by
  intro final
  obtain ⟨n, leads⟩ := resolve_leads done name
  have kept := assigned_keeps done requested exact
  cases ended : final with
  | inr number =>
    rw [show (resolved.get? name).getD (.inl name) = .inr number from ended] at leads
    exact ⟨_, leads.continued kept (.value number)⟩
  | inl last =>
    rw [show (resolved.get? name).getD (.inl name) = .inl last from ended] at leads
    have free := leads.final_free
    simp only [allocated]
    cases given : assigned.get? last with
    | none => exact ⟨_, leads.continued kept (.free (by rw [get?_assigned, given, free]; rfl))⟩
    | some number => exact ⟨_, leads.continued kept (.step (by rw [get?_assigned, given]; rfl) (.value number))⟩

theorem resolvePorts_get? {announce : Option (Dict String Port)} {taskPortmap : Dict String Port}
    (merged : resolve parseInt (update (announce.getD .empty) (assigned.map Sum.inr)) = .ok taskPortmap) :
    ∃ mapped, resolvePorts parseInt announce assigned = .ok mapped ∧
      ∀ name, mapped.get? name = (taskPortmap.get? name).bind Sum.getRight? := by
  refine ⟨_, by rw [resolvePorts, merged]; rfl, ?_⟩
  intro name
  rw [Dict.get?_foldl_set Sum.getRight? _ (by rintro d ⟨name, _ | number⟩ <;> rfl), Dict.get?_empty, Option.or_none]

theorem getRight?_allocated (assigned : Dict String Int) (final : Port) :
    (((allocated assigned final).map Sum.inr).getD final).getRight? = allocated assigned final := by
  cases final with
  | inr number => rfl
  | inl last =>
    simp only [allocated]
    cases assigned.get? last <;> rfl

theorem mapped_get? (done : resolve parseInt config.portmap = .ok resolved)
    (requested : ∀ name, name ∈ ports ↔ ∃ source, (source ∈ config.portmap.keys ∨ source ∈ config.referencedPorts) ∧
      (resolved.get? source).getD (.inl source) = .inl name)
    (exact : ∀ name, name ∈ assigned.keys ↔ name ∈ ports) :
    ∃ mapped, resolvePorts parseInt config.announce assigned = .ok mapped ∧
      ∀ name, mapped.get? name = allocated assigned ((resolved.get? name).getD (.inl name)) := by
  have leads := assigned_leads done requested exact
  obtain ⟨taskPortmap, merged⟩ := resolve_succeeds fun name _ => ⟨_, _, (leads name).choose_spec⟩
  obtain ⟨mapped, succeeded, numbers⟩ := resolvePorts_get? merged
  refine ⟨mapped, succeeded, ?_⟩
  intro name
  obtain ⟨n, expected⟩ := leads name
  obtain ⟨m, reached⟩ := resolve_leads merged name
  rw [numbers]
  have same := congrArg Sum.getRight? (expected.unique reached).2
  rw [getRight?_allocated] at same
  rw [same]
  cases taskPortmap.get? name <;> rfl

/-- What the client requests is enough for the executor to give a number to each name that it needs, the same number
    to names with the same end. -/
theorem client_and_executor_agree (parseInt : String → Option Int) (config : AuroraConfig) {resolved : Dict String Port}
    (resolvable : resolve parseInt config.portmap = .ok resolved) :
    ∃ ports, config.ports parseInt = .ok ports ∧
      ∀ assigned : Dict String Int, (∀ name, name ∈ assigned.keys ↔ name ∈ ports) →
        ∃ mapped, resolvePorts parseInt config.announce assigned = .ok mapped ∧
          (∀ name, name ∈ config.portmap.keys ∨ name ∈ config.referencedPorts → (mapped.get? name).isSome) ∧
          (∀ name port number, config.portmap.get? name = some port → toInt parseInt port = .inr number →
            mapped.get? name = some number) ∧
          (∀ name number, resolved.get? name = some (.inr number) → mapped.get? name = some number) ∧
          ∀ name other, (resolved.get? name).getD (.inl name) = (resolved.get? other).getD (.inl other) →
            mapped.get? name = mapped.get? other := by
  obtain ⟨ports, listed, requested⟩ := ports_of_resolved resolvable
  refine ⟨ports, listed, fun assigned exact => ?_⟩
  obtain ⟨mapped, succeeded, numbers⟩ := mapped_get? resolvable requested exact
  have static : ∀ name number, resolved.get? name = some (.inr number) → mapped.get? name = some number := by
    intro name number found
    rw [numbers, found]
    rfl
  refine ⟨mapped, succeeded, ?_, ?_, static, ?_⟩
  · intro name needed
    rw [numbers]
    cases ended : (resolved.get? name).getD (.inl name) with
    | inr number => rfl
    | inl last => exact (assigned.mem_keys last).mp ((exact last).mpr ((requested last).mpr ⟨name, needed, ended⟩))
  · intro name port number found literal
    obtain ⟨n, final, leads, ended⟩ := resolve_known resolvable (Dict.mem_keys_of_get? found)
    have direct : Leads (config.portmap.map (toInt parseInt)).get? 1 (.inl name) (.inr number) :=
      .step (by rw [Dict.get?_map, found, Option.map_some, literal]) (.value number)
    rw [(leads.unique direct).2] at ended
    exact static name number ended
  · intro name other same
    rw [numbers, numbers, same]

/-- A job with a static port, an alias of it, and a port to be allocated under two names. -/
def frontend : AuroraConfig :=
  ⟨some ⟨[("http", .inl "8080"), ("aurora", .inl "http"), ("https", .inl "secure")], by decide⟩, {"https", "health"}⟩

-- the strings of `frontend` are names but for this one
def parseStatic (text : String) : Option Int := if text = "8080" then some 8080 else none

theorem client_and_executor_agree_frontend :
    ∃ mapped, resolvePorts parseStatic frontend.announce
        ⟨[("secure", 31000), ("health", 31001)], by decide⟩ = .ok mapped ∧
      mapped.get? "aurora" = some 8080 ∧ (mapped.get? "health").isSome ∧ mapped.get? "https" = mapped.get? "secure" := by
  have resolvable : resolve parseStatic frontend.portmap = .ok
       ⟨[("http", .inr 8080), ("aurora", .inr 8080), ("https", .inl "secure")], by decide⟩ := rfl
  obtain ⟨ports, listed, agreed⟩ := client_and_executor_agree _ frontend resolvable
  have requested : frontend.ports parseStatic = .ok {"secure", "health"} := rfl
  rw [requested] at listed
  cases listed
  obtain ⟨mapped, succeeded, needed, -, static, shared⟩ :=
    agreed ⟨[("secure", 31000), ("health", 31001)], by decide⟩ (by simp [Dict.keys])
  exact ⟨mapped, succeeded, static "aurora" 8080 rfl, needed "health" (.inr (by simp [frontend])), shared _ _ rfl⟩

end Agreement

end Aurora.Config
