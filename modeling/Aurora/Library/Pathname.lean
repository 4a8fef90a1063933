import Aurora.Library.PyText
import Mathlib.Data.List.Basic

/-! Canonical path names: their text, and what it means for the text of one to start with that of another. -/

namespace Pathname

open PyText

/-- What may stand between two separators of a canonical path. -/
def IsName (name : Text) : Prop := name ≠ [] ∧ '/' ∉ name ∧ name ≠ ['.'] ∧ name ≠ ['.', '.']

instance (name : Text) : Decidable (IsName name) := inferInstanceAs (Decidable (_ ∧ _))

abbrev Name := { name : Text // IsName name }

abbrev Canonical := List Name

def body (path : Canonical) : Text := path.flatMap fun name => '/' :: name.1

def text (path : Canonical) : Text := if path = [] then ['/'] else body path

def separated (path : Canonical) : Text := body path ++ ['/']

/-- The path goes on in the middle of the base's last name. -/
def Extends (base path : Canonical) : Prop :=
  ∃ parent last longer rest, base = parent ++ [last] ∧ path = parent ++ longer :: rest ∧
    last.1 <+: longer.1 ∧ last ≠ longer

section Names

variable {name other : Text} {rest rest' : Text}

theorem starts_name (plain : '/' ∉ name) (ends : ∀ char ∈ rest'.head?, char = '/') (starts : name ++ rest <+: other ++ rest') :
    name <+: other := by
  induction name generalizing other with
  | nil => exact List.nil_prefix
  | cons char name ih =>
    rw [List.mem_cons, not_or] at plain
    cases other with
    | nil =>
      rcases rest' with _ | ⟨separator, rest'⟩
      · exact absurd (List.prefix_nil.mp starts) (by simp)
      · have same : char = separator := (List.cons_prefix_cons.mp starts).1
        exact absurd (same.trans (ends separator rfl)).symm plain.1
    | cons char' other =>
      obtain ⟨same, tail_starts⟩ := List.cons_prefix_cons.mp starts
      exact List.cons_prefix_cons.mpr ⟨same, ih plain.2 tail_starts⟩

theorem name_eq (plain : '/' ∉ name) (plain' : '/' ∉ other) (ends : ∀ char ∈ rest'.head?, char = '/') :
    name ++ '/' :: rest <+: other ++ rest' ↔ name = other ∧ '/' :: rest <+: rest' := by
  constructor
  · intro starts
    obtain ⟨more, rfl⟩ := starts_name plain ends starts
    rw [List.append_assoc, List.prefix_append_right_inj] at starts
    cases more with
    | nil => exact ⟨(List.append_nil name).symm, starts⟩
    | cons char more =>
      have separator : '/' = char := (List.cons_prefix_cons.mp starts).1
      exact absurd (by rw [separator]; simp) plain'
  · rintro ⟨rfl, starts⟩
    exact (List.prefix_append_right_inj name).mpr starts

end Names

theorem head_body (path : Canonical) : ∀ char ∈ (body path).head?, char = '/' := by
  cases path <;> simp [body]

theorem body_cons (name : Name) (path : Canonical) : body (name :: path) = '/' :: (name.1 ++ body path) := rfl

theorem starts_separated (base path : Canonical) : separated base <+: body path ↔ ∃ name rest, path = base ++ name :: rest := by
  unfold separated
  induction base generalizing path with
  | nil =>
    cases path with
    | nil => simp [body]
    | cons name path => simp [body]
  | cons name base ih =>
    cases path with
    | nil => simp [body]
    | cons name' path =>
      obtain ⟨tail, tail_eq⟩ : ∃ tail, body base ++ ['/'] = '/' :: tail := by
        cases base with
        | nil => exact ⟨[], rfl⟩
        | cons next base => exact ⟨_, rfl⟩
      rw [body_cons, body_cons, List.cons_append, List.cons_prefix_cons, List.append_assoc, tail_eq,
        name_eq name.2.2.1 name'.2.2.1 (head_body path), ← tail_eq, ih, ← Subtype.ext_iff]
      constructor
      · rintro ⟨-, rfl, below, rest, rfl⟩
        exact ⟨below, rest, rfl⟩
      · rintro ⟨below, rest, same⟩
        obtain ⟨rfl, rfl⟩ := List.cons.inj same
        exact ⟨rfl, rfl, below, rest, rfl⟩

theorem extends_cons {name name' : Name} {base path : Canonical} (some_base : base ≠ []) :
    Extends (name :: base) (name' :: path) ↔ name = name' ∧ Extends base path := by
  constructor
  · rintro ⟨parent, last, longer, rest, base_eq, path_eq, starts, different⟩
    cases parent with
    | nil => exact absurd (List.cons.inj base_eq).2 some_base
    | cons first parent =>
      obtain ⟨rfl, base_tail⟩ := List.cons.inj base_eq
      obtain ⟨rfl, path_tail⟩ := List.cons.inj path_eq
      exact ⟨rfl, parent, last, longer, rest, base_tail, path_tail, starts, different⟩
  · rintro ⟨rfl, parent, last, longer, rest, rfl, rfl, starts, different⟩
    exact ⟨name :: parent, last, longer, rest, rfl, rfl, starts, different⟩

theorem extends_single {name name' : Name} {path : Canonical} :
    Extends [name] (name' :: path) ↔ name.1 <+: name'.1 ∧ name ≠ name' := by
  constructor
  · rintro ⟨parent, last, longer, rest, base_eq, path_eq, starts, different⟩
    cases parent with
    | nil =>
      obtain ⟨rfl, -⟩ := List.cons.inj base_eq
      obtain ⟨rfl, -⟩ := List.cons.inj path_eq
      exact ⟨starts, different⟩
    | cons first parent => exact absurd (List.cons.inj base_eq).2 (by simp)
  · rintro ⟨starts, different⟩
    exact ⟨[], name, name', path, rfl, rfl, starts, different⟩

theorem not_extends_nil {base : Canonical} : ¬ Extends base [] := by
  rintro ⟨parent, last, longer, rest, -, path_eq, -⟩
  cases parent <;> cases path_eq

/-- A text that starts with that of the base goes below the base, or extends its last name. -/
theorem starts_body (base path : Canonical) : body base <+: body path ↔ base <+: path ∨ Extends base path := by
  induction base generalizing path with
  | nil => simp [body]
  | cons name base ih =>
    cases path with
    | nil => simp [body, not_extends_nil]
    | cons name' path =>
      rw [body_cons, body_cons, List.cons_prefix_cons, List.cons_prefix_cons]
      cases base with
      | nil =>
        rw [extends_single]
        constructor
        · rintro ⟨-, starts⟩
          by_cases same : name = name'
          · exact .inl ⟨same, List.nil_prefix⟩
          · exact .inr ⟨starts_name name.2.2.1 (head_body path) starts, same⟩
        · rintro (⟨rfl, -⟩ | ⟨starts, -⟩)
          · exact ⟨rfl, by simp [body]⟩
          · refine ⟨rfl, ?_⟩
            rw [show body ([] : Canonical) = [] from rfl, List.append_nil]
            exact starts.trans (List.prefix_append _ _)
      | cons next base =>
        rw [body_cons, name_eq name.2.2.1 name'.2.2.1 (head_body path), ← body_cons, ih, ← Subtype.ext_iff,
          extends_cons (List.cons_ne_nil next base)]
        tauto

theorem body_not_root {path : Canonical} (some_name : path ≠ []) : ¬ body path <+: ['/'] := by
  obtain ⟨name, path, rfl⟩ := List.exists_cons_of_ne_nil some_name
  obtain ⟨char, tail, name_eq⟩ := List.exists_cons_of_ne_nil name.2.1
  rw [body_cons, name_eq]
  exact fun starts => absurd starts.length_le (by simp)

theorem starts_root (path : Canonical) : ['/'] <+: text path := by
  unfold text
  split
  · exact List.prefix_rfl
  · next some_name =>
    obtain ⟨name, path, rfl⟩ := List.exists_cons_of_ne_nil some_name
    exact List.cons_prefix_cons.mpr ⟨rfl, List.nil_prefix⟩

theorem starts_text (base path : Canonical) : text base <+: text path ↔ base <+: path ∨ Extends base path := by
  by_cases root : base = []
  · subst root
    exact ⟨fun _ => .inl List.nil_prefix, fun _ => starts_root path⟩
  · by_cases root' : path = []
    · subst root'
      simp only [text, root, if_false, if_true, List.prefix_nil, not_extends_nil, or_false, iff_false]
      exact body_not_root root
    · rw [text, text, if_neg root, if_neg root', starts_body]

/-- The path is the base or lies below it: the base's text goes on with a separator. -/
def Within (base path : Canonical) : Prop := path = base ∨ separated base <+: text path

theorem within_iff (base path : Canonical) : Within base path ↔ base <+: path := by
  unfold Within
  by_cases root : path = []
  · subst root
    cases base with
    | nil => simp
    | cons name base =>
      have short : ¬ separated (name :: base) <+: ['/'] := fun starts =>
        body_not_root (List.cons_ne_nil name base) ((List.prefix_append _ _).trans starts)
      simp [text, short]
  · rw [text, if_neg root, starts_separated]
    constructor
    · rintro (rfl | ⟨name, rest, rfl⟩)
      · exact List.prefix_rfl
      · exact List.prefix_append _ _
    · rintro ⟨more, rfl⟩
      cases more with
      | nil => exact .inl (List.append_nil base)
      | cons name rest => exact .inr ⟨name, rest, rfl⟩

theorem Extends.not_within {base path : Canonical} (extends_ : Extends base path) : ¬ Within base path := by
  rw [within_iff]
  rintro ⟨more, rfl⟩
  obtain ⟨parent, last, longer, rest, rfl, path_eq, -, different⟩ := extends_
  rw [List.append_assoc, List.append_cancel_left_eq] at path_eq
  exact different (List.cons.inj path_eq).1

end Pathname
