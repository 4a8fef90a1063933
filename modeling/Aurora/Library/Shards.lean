import Mathlib.Data.List.Basic

namespace Shards

variable {σ ε κ ρ φ : Type} [DecidableEq κ]

/-- Every event has a key, and a step is one of the part that the key has in the state and leaves the other parts. -/
structure Sharded (step : σ → ε → Except φ σ) (key : ε → κ) (part : κ → σ → ρ) (own : ρ → ε → Except φ ρ) : Prop where
  taken : ∀ {s s' e}, step s e = .ok s' → own (part (key e) s) e = .ok (part (key e) s')
  possible : ∀ {s e r}, own (part (key e) s) e = .ok r → ∃ s', step s e = .ok s'
  frame : ∀ {s s' e k}, step s e = .ok s' → k ≠ key e → part k s' = part k s

variable {step : σ → ε → Except φ σ} {key : ε → κ} {part : κ → σ → ρ} {own : ρ → ε → Except φ ρ}
  {events : List ε} {start final : σ}

/-- In a run, a part goes through the events of its own key. -/
theorem Sharded.run_taken (sharded : Sharded step key part own) (ran : events.foldlM step start = .ok final) (k : κ) :
    (events.filter (key · = k)).foldlM own (part k start) = .ok (part k final) := by
  induction events generalizing start with
  | nil =>
    cases ran
    rfl
  | cons event rest ih =>
    rw [List.foldlM_cons] at ran
    cases first : step start event with
    | error e =>
      rw [first] at ran
      cases ran
    | ok next =>
      rw [first] at ran
      have later := ih ran
      by_cases mine : key event = k
      · subst mine
        rw [List.filter_cons_of_pos (by simp), List.foldlM_cons, sharded.taken first]
        exact later
      · rw [List.filter_cons_of_neg (by simpa using mine), ← sharded.frame first fun h => mine h.symm]
        exact later

/-- A run is possible where every part can go through its events. -/
theorem Sharded.run_possible (sharded : Sharded step key part own)
    (all : ∀ k, ∃ r, (events.filter (key · = k)).foldlM own (part k start) = .ok r) :
    ∃ final, events.foldlM step start = .ok final := by
  induction events generalizing start with
  | nil => exact ⟨start, rfl⟩
  | cons event rest ih =>
    obtain ⟨r, mine⟩ := all (key event)
    rw [List.filter_cons_of_pos (by simp), List.foldlM_cons] at mine
    cases first : own (part (key event) start) event with
    | error e =>
      rw [first] at mine
      cases mine
    | ok own' =>
      obtain ⟨next, taken⟩ := sharded.possible first
      have parts : ∀ k, ∃ r, (rest.filter (key · = k)).foldlM own (part k next) = .ok r := by
        intro k
        by_cases same : key event = k
        · subst same
          rw [sharded.taken taken] at mine
          exact ⟨r, mine⟩
        · obtain ⟨r, other⟩ := all k
          rw [List.filter_cons_of_neg (by simpa using same)] at other
          rw [sharded.frame taken fun h => same h.symm]
          exact ⟨r, other⟩
      obtain ⟨final, ran⟩ := ih parts
      refine ⟨final, ?_⟩
      rw [List.foldlM_cons, taken]
      exact ran

theorem foldlM_map {τ : Type} (f : σ → τ) {step : σ → ε → Except φ σ} {step' : τ → ε → Except φ τ}
    (respected : ∀ s e, step' (f s) e = f <$> step s e) (events : List ε) (start : σ) :
    events.foldlM step' (f start) = f <$> events.foldlM step start := by
  induction events generalizing start with
  | nil => rfl
  | cons event rest ih =>
    rw [List.foldlM_cons, List.foldlM_cons, respected]
    cases step start event with
    | error e => rfl
    | ok next => exact ih next

end Shards
