import Mathlib.Data.List.SplitBy

/-! Increasing lists of integers, split into their longest consecutive pieces. -/

namespace Runs

variable {α ρ : Type} {piece : List Int} {pieces : List (List Int)}

def Consecutive (piece : List Int) : Prop := piece.IsChain fun a b => b = a + 1

theorem consecutive_span {first last : Int} (steps : Consecutive piece) (begins : piece.head? = some first)
    (ends : piece.getLast? = some last) : first ≤ last ∧ ∀ n, n ∈ piece ↔ first ≤ n ∧ n ≤ last := by
  induction piece generalizing first with
  | nil => cases begins
  | cons head rest ih =>
    obtain rfl : head = first := by simpa using begins
    cases rest with
    | nil =>
      obtain rfl : head = last := by simpa using ends
      refine ⟨Int.le_refl head, fun n => ?_⟩
      simp only [List.mem_singleton]
      omega
    | cons next rest =>
      obtain ⟨step, steps⟩ := List.isChain_cons_cons.mp steps
      have ends : (next :: rest).getLast? = some last := by simpa using ends
      obtain ⟨le, spans⟩ := ih steps rfl ends
      refine ⟨by omega, fun n => ?_⟩
      rw [List.mem_cons, spans]
      omega

/-- Consecutive pieces in increasing order, none of which could be joined to its neighbour. -/
structure Maximal (pieces : List (List Int)) : Prop where
  nonempty : [] ∉ pieces
  consecutive : ∀ piece ∈ pieces, Consecutive piece
  apart : pieces.IsChain fun a b => ∀ x ∈ a.getLast?, ∀ y ∈ b.head?, x + 1 < y

theorem isChain_both {R S : α → α → Prop} {items : List α} (left : items.IsChain R) (right : items.IsChain S) :
    items.IsChain fun a b => R a b ∧ S a b := by
  induction items with
  | nil => exact List.isChain_nil
  | cons head rest ih =>
    rw [List.isChain_cons] at left right ⊢
    exact ⟨fun next mem => ⟨left.1 next mem, right.1 next mem⟩, ih left.2 right.2⟩

theorem maximal_splitBy {same : α → α → Bool} {value : α → Int} {items : List α}
    (increasing : items.IsChain fun a b => value a < value b ∧ (same a b ↔ value b = value a + 1)) :
    Maximal ((items.splitBy same).map (List.map value)) := by
  have parts : [] ∉ items.splitBy same := List.nil_notMem_splitBy same items
  rw [← List.flatten_splitBy same items, List.isChain_flatten parts] at increasing
  obtain ⟨inside, between⟩ := increasing
  constructor
  · simp
  · intro piece mem
    obtain ⟨part, known, rfl⟩ := List.mem_map.mp mem
    have joined := isChain_both (inside part known) (List.isChain_of_mem_splitBy known)
    exact (List.isChain_map value).mpr (joined.imp fun a b both => both.1.2.mp both.2)
  · rw [List.isChain_map]
    refine (isChain_both between (List.isChain_getLast_head_splitBy same items)).imp ?_
    rintro left right ⟨follows, ha, hb, differ⟩ x last y first
    obtain ⟨a, lastA, rfl⟩ : ∃ a, left.getLast? = some a ∧ value a = x := by simpa using last
    obtain ⟨b, firstB, rfl⟩ : ∃ b, right.head? = some b ∧ value b = y := by simpa using first
    obtain rfl : left.getLast ha = a := by simpa [List.getLast?_eq_some_getLast ha] using lastA
    obtain rfl : right.head hb = b := by simpa [List.head?_eq_some_head hb] using firstB
    obtain ⟨less, joins⟩ := follows _ lastA _ firstB
    have unequal : ¬ value (right.head hb) = value (left.getLast ha) + 1 := by
      rw [← joins, differ]
      exact Bool.false_ne_true
    omega

section Spans

variable (first last : ρ → Int)

def Spans (pieces : List (List Int)) (spans : List ρ) : Prop :=
  List.Forall₂ (fun piece span => piece.head? = some (first span) ∧ piece.getLast? = some (last span)) pieces spans

variable {first last} {spans : List ρ}

theorem Maximal.tail (maximal : Maximal (piece :: pieces)) : Maximal pieces where
  nonempty mem := maximal.nonempty (List.mem_cons_of_mem _ mem)
  consecutive other mem := maximal.consecutive other (List.mem_cons_of_mem _ mem)
  apart := maximal.apart.tail

theorem spans_ordered (maximal : Maximal pieces) (ends : Spans first last pieces spans) :
    ∀ span ∈ spans, first span ≤ last span := by
  induction ends with
  | nil => simp
  | cons ends _ ih =>
    rw [List.forall_mem_cons]
    exact ⟨(consecutive_span (maximal.consecutive _ List.mem_cons_self) ends.1 ends.2).1, ih maximal.tail⟩

theorem mem_spans (maximal : Maximal pieces) (ends : Spans first last pieces spans) (n : Int) :
    n ∈ pieces.flatten ↔ ∃ span ∈ spans, first span ≤ n ∧ n ≤ last span := by
  induction ends with
  | nil => simp
  | cons ends _ ih =>
    have spans := (consecutive_span (maximal.consecutive _ List.mem_cons_self) ends.1 ends.2).2
    rw [List.flatten_cons, List.mem_append, spans, ih maximal.tail]
    simp

theorem spans_chain (maximal : Maximal pieces) (ends : Spans first last pieces spans) :
    spans.IsChain fun a b => last a + 1 < first b := by
  induction ends with
  | nil => exact List.isChain_nil
  | cons ends others ih =>
    refine List.isChain_cons.mpr ⟨fun next mem => ?_, ih maximal.tail⟩
    cases others with
    | nil => cases mem
    | cons follows _ =>
      obtain rfl := Option.some.inj mem
      exact maximal.apart.rel _ ends.2 _ follows.1

theorem spans_apart (maximal : Maximal pieces) (ends : Spans first last pieces spans) :
    spans.Pairwise fun a b => last a + 1 < first b := by
  let follows (a b : ρ) : Prop := first b ≤ last b ∧ last a + 1 < first b
  have : Trans follows follows follows := ⟨fun ab bc => ⟨bc.1, by have := ab.1; have := ab.2; have := bc.2; omega⟩⟩
  have ordered := spans_ordered maximal ends
  have chain : spans.IsChain follows :=
    (spans_chain maximal ends).imp_of_mem_imp fun a b _ known less => ⟨ordered b known, less⟩
  exact chain.pairwise.imp And.right

theorem spans_maximal (maximal : Maximal pieces) (ends : Spans first last pieces spans) :
    ∀ span ∈ spans, first span - 1 ∉ pieces.flatten ∧ last span + 1 ∉ pieces.flatten := by
  intro span known
  have ordered := spans_ordered maximal ends
  let placed (a b : ρ) : Prop := a = b ∨ last a + 1 < first b ∨ last b + 1 < first a
  have : Std.Symm placed := ⟨by
    rintro a b (rfl | less | less)
    exacts [.inl rfl, .inr (.inr less), .inr (.inl less)]⟩
  have separate : spans.Pairwise placed := (spans_apart maximal ends).imp fun less => .inr (.inl less)
  have placed : ∀ other ∈ spans, placed span other := fun other mem =>
    separate.forall_of_forall (fun _ _ => .inl rfl) known mem
  have bounds := ordered span known
  constructor
  all_goals
    rw [mem_spans maximal ends]
    rintro ⟨other, mem, low, high⟩
    have := ordered other mem
    rcases placed other mem with rfl | less | less <;> omega

end Spans

end Runs
