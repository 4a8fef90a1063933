import Mathlib.Data.List.Basic

/-! Texts of items with a separator between them, and what splitting them there gives. -/

namespace Separated

variable {α β : Type} [DecidableEq α] {sep : α} {item : List α → β → Prop} {text : List α} {values : List β}

/-- One or more items, each with its value. -/
inductive Listed (sep : α) (item : List α → β → Prop) : List α → List β → Prop
  | one {first value} : item first value → Listed sep item first [value]
  | more {first value rest values} : item first value → Listed sep item rest values →
      Listed sep item (first ++ sep :: rest) (value :: values)

theorem splitOn_of_listed (plain : ∀ text value, item text value → sep ∉ text) (listed : Listed sep item text values) :
    List.Forall₂ item (text.splitOn sep) values := by
  induction listed with
  | one reads =>
    rw [List.splitOn_eq_singleton (plain _ _ reads)]
    exact .cons reads .nil
  | more reads _ ih =>
    rw [List.splitOn_append_cons_self_of_not_mem (plain _ _ reads)]
    exact .cons reads ih

omit [DecidableEq α] in
theorem listed_intercalate {first : List α} {pieces : List (List α)} {value : β}
    (reads : item first value) (others : List.Forall₂ item pieces values) :
    Listed sep item ([sep].intercalate (first :: pieces)) (value :: values) := by
  induction others generalizing first value with
  | nil => simpa using Listed.one reads
  | cons next _ ih =>
    have more := Listed.more reads (ih next)
    rwa [List.intercalate_cons_cons, List.append_assoc, List.singleton_append]

theorem listed_iff (plain : ∀ text value, item text value → sep ∉ text) :
    Listed sep item text values ↔ List.Forall₂ item (text.splitOn sep) values := by
  refine ⟨splitOn_of_listed plain, fun reads => ?_⟩
  have whole : [sep].intercalate (text.splitOn sep) = text := List.intercalate_splitOn sep
  have some : text.splitOn sep ≠ [] := List.splitOn_ne_nil sep text
  generalize text.splitOn sep = pieces at whole some reads
  cases reads with
  | nil => exact absurd rfl some
  | cons first others => exact whole ▸ listed_intercalate first others

theorem notMem_splitOn (sep : α) (text : List α) : ∀ piece ∈ text.splitOn sep, sep ∉ piece := by
  induction text with
  | nil => simp
  | cons first rest ih =>
    rw [List.splitOn_cons_eq_if_modifyHead]
    split_ifs with same
    · simpa using ih
    · rcases pieces : rest.splitOn sep with _ | ⟨piece, pieces⟩
      · simp
      · rw [pieces, List.forall_mem_cons] at ih
        rw [List.modifyHead_cons, List.forall_mem_cons]
        refine ⟨fun mem => ?_, ih.2⟩
        rcases List.mem_cons.mp mem with rfl | later
        · exact same (beq_self_eq_true sep)
        · exact ih.1 later

theorem splitOn_eq_iff {pieces : List (List α)} :
    text.splitOn sep = pieces ↔ pieces ≠ [] ∧ (∀ piece ∈ pieces, sep ∉ piece) ∧ text = [sep].intercalate pieces := by
  constructor
  · rintro rfl
    exact ⟨List.splitOn_ne_nil sep text, notMem_splitOn sep text, (List.intercalate_splitOn sep).symm⟩
  · intro parts
    obtain ⟨some, plain, rfl⟩ := parts
    exact List.splitOn_intercalate sep plain some

omit [DecidableEq α] in
theorem append_cons_inj {front front' back back' : List α} (plain : sep ∉ back) (plain' : sep ∉ back')
    (same : front ++ sep :: back = front' ++ sep :: back') : front = front' ∧ back = back' := by
  rcases List.append_eq_append_iff.mp same with ⟨more, rfl, rest⟩ | ⟨more, rfl, rest⟩
  all_goals
    cases more with
    | nil =>
      rw [List.nil_append, List.cons.injEq] at rest
      simp [rest.2]
    | cons first more =>
      obtain ⟨-, rfl⟩ := List.cons.inj rest
      simp at plain plain'

end Separated
