import Mathlib.Data.List.Nodup
import Mathlib.Data.List.Perm.Subperm
import Mathlib.Logic.Relation

namespace Alias

variable {κ ν : Type}

/-- Following a name table leads in so many steps to a value or to a name that the table does not have. -/
inductive Leads (next : κ → Option (κ ⊕ ν)) : Nat → κ ⊕ ν → κ ⊕ ν → Prop
  | value (v : ν) : Leads next 0 (.inr v) (.inr v)
  | free {k : κ} : next k = none → Leads next 0 (.inl k) (.inl k)
  | step {k : κ} {target final : κ ⊕ ν} {n : Nat} :
      next k = some target → Leads next n target final → Leads next (n + 1) (.inl k) final

variable {next : κ → Option (κ ⊕ ν)} {n m : Nat} {start final other : κ ⊕ ν} {k : κ}

theorem Leads.unique (first : Leads next n start final) (second : Leads next m start other) :
    n = m ∧ final = other := by
  induction first generalizing m with
  | value v =>
    cases second
    exact ⟨rfl, rfl⟩
  | free missing =>
    cases second with
    | free _ => exact ⟨rfl, rfl⟩
    | step found _ =>
      rw [missing] at found
      cases found
  | step found _ ih =>
    cases second with
    | free missing =>
      rw [missing] at found
      cases found
    | step found' rest =>
      rw [found] at found'
      cases found'
      obtain ⟨same, last⟩ := ih rest
      exact ⟨by rw [same], last⟩

theorem Leads.names (leads : Leads next n start final) :
    ∃ names : List κ, names.Nodup ∧ names.length = n ∧
      ∀ k ∈ names, (next k).isSome ∧ ∃ m, m ≤ n ∧ Leads next m (.inl k) final := by
  induction leads with
  | value v => exact ⟨[], List.nodup_nil, rfl, by simp⟩
  | free missing => exact ⟨[], List.nodup_nil, rfl, by simp⟩
  | @step k target final n found rest ih =>
    obtain ⟨names, distinct, length, known⟩ := ih
    have whole : Leads next (n + 1) (.inl k) final := .step found rest
    refine ⟨k :: names, List.nodup_cons.mpr ⟨?_, distinct⟩, by simp [length], ?_⟩
    · intro again
      obtain ⟨-, m, fewer, leads⟩ := known k again
      have same := (whole.unique leads).1
      omega
    · intro name member
      rcases List.mem_cons.mp member with rfl | member
      · exact ⟨by simp [found], n + 1, Nat.le_refl _, whole⟩
      · obtain ⟨present, m, fewer, leads⟩ := known name member
        exact ⟨present, m, by omega, leads⟩

theorem Leads.bounded {keys : List κ} (covered : ∀ k, (next k).isSome → k ∈ keys) (leads : Leads next n start final) :
    n ≤ keys.length := by
  obtain ⟨names, distinct, rfl, known⟩ := leads.names
  exact (distinct.subperm fun k member => covered k (known k member).1).length_le

theorem Leads.final_free (leads : Leads next n start (.inl k)) : next k = none := by
  generalize ended : (Sum.inl k : κ ⊕ ν) = final at leads
  induction leads with
  | value v => cases ended
  | free missing =>
    cases ended
    exact missing
  | step _ _ ih => exact ih ended

/-- In a table that keeps the entries of another one, the way goes on from where it ended there. -/
theorem Leads.continued {wider : κ → Option (κ ⊕ ν)} (kept : ∀ k target, next k = some target → wider k = some target)
    (leads : Leads next n start final) {last : κ ⊕ ν} (rest : Leads wider m final last) :
    Leads wider (m + n) start last := by
  induction leads with
  | value v => exact rest
  | free missing => exact rest
  | step found _ ih => exact .step (kept _ _ found) (ih rest)

section Circles

open Relation

def Follows (next : κ → Option (κ ⊕ ν)) (start target : κ ⊕ ν) : Prop := ∃ k, start = .inl k ∧ next k = some target

/-- The way leads into a circle. -/
def Circular (next : κ → Option (κ ⊕ ν)) (start : κ ⊕ ν) : Prop :=
  ∃ entry, ReflTransGen (Follows next) start entry ∧ TransGen (Follows next) entry entry

variable {target : κ ⊕ ν}

theorem Circular.step (follows : Follows next start target) (circular : Circular next target) : Circular next start := by
  obtain ⟨entry, reaches, circle⟩ := circular
  exact ⟨entry, reaches.head follows, circle⟩

theorem Leads.follows (leads : Leads next n start final) (follows : Follows next start target) :
    ∃ m, m < n ∧ Leads next m target final := by
  obtain ⟨k, rfl, found⟩ := follows
  cases leads with
  | free missing =>
    rw [missing] at found
    cases found
  | @step _ _ _ m found' rest =>
    rw [found] at found'
    cases found'
    exact ⟨m, Nat.lt_succ_self m, rest⟩

theorem Leads.reaches (leads : Leads next n start final) (reaches : ReflTransGen (Follows next) start target) :
    ∃ m, Leads next m target final := by
  induction reaches with
  | refl => exact ⟨n, leads⟩
  | tail _ follows ih =>
    obtain ⟨m, leads⟩ := ih
    obtain ⟨m', -, leads⟩ := leads.follows follows
    exact ⟨m', leads⟩

theorem Leads.shorter (leads : Leads next n start final) (reaches : TransGen (Follows next) start target) :
    ∃ m, m < n ∧ Leads next m target final := by
  induction reaches with
  | single follows => exact leads.follows follows
  | tail _ follows ih =>
    obtain ⟨m, fewer, leads⟩ := ih
    obtain ⟨m', fewer', leads⟩ := leads.follows follows
    exact ⟨m', by omega, leads⟩

/-- A way that ends does not lead into a circle. -/
theorem Leads.not_circular (leads : Leads next n start final) : ¬ Circular next start := by
  rintro ⟨entry, reaches, circle⟩
  obtain ⟨m, leads⟩ := leads.reaches reaches
  obtain ⟨m', fewer, leads'⟩ := leads.shorter circle
  have same := (leads.unique leads').1
  omega

/-- Where a way ends is the target of some name, unless it is where the way starts. -/
theorem Leads.final_target (leads : Leads next n start final) : final = start ∨ ∃ k, next k = some final := by
  induction leads with
  | value v => exact .inl rfl
  | free missing => exact .inl rfl
  | step found _ ih =>
    rcases ih with same | known
    · exact .inr ⟨_, same ▸ found⟩
    · exact .inr known

end Circles

end Alias
