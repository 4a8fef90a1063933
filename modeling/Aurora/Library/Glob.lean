import Aurora.Library.PyText
import Mathlib.Data.List.Infix

/-! Shell-style patterns. -/

namespace Glob

open PyText

inductive Member
  | single (c : Char)
  | range (low high : Char)
  deriving DecidableEq, Repr

inductive Token
  | star
  | any
  | char (c : Char)
  | set (negated : Bool) (members : List Member)
  deriving DecidableEq, Repr

/-- A range whose ends are in the wrong order cannot be compiled. -/
structure BadRange where
  low : Char
  high : Char
  deriving DecidableEq, Repr

def members : Text → List Member
  | low :: '-' :: high :: rest => .range low high :: members rest
  | c :: rest => .single c :: members rest
  | [] => []

/-- What follows an opening bracket up to its closing one, which is none if the first character could be it; none
    where the bracket is not closed. -/
def bracket (text : Text) : Option (Bool × Text × Text) :=
  let negated := text.head? = some '!'
  let text := if negated then text.tail else text
  let first := if text.head? = some ']' then [']'] else []
  let text := text.drop first.length
  match text.dropWhile (· ≠ ']') with
  | [] => none
  | _ :: after => some (negated, first ++ text.takeWhile (· ≠ ']'), after)

def tokensFrom : Nat → Text → List Token
  | 0, _ | _, [] => []
  | fuel + 1, c :: rest =>
    if c = '*' then .star :: tokensFrom fuel rest
    else if c = '?' then .any :: tokensFrom fuel rest
    else if c = '[' then
      match bracket rest with
      | none => .char c :: tokensFrom fuel rest
      | some (negated, body, after) => .set negated (members body) :: tokensFrom fuel after
    else .char c :: tokensFrom fuel rest

def tokens (pattern : Text) : List Token := tokensFrom pattern.length pattern

def Member.accepts : Member → Char → Bool
  | .single own, c => c = own
  | .range low high, c => low ≤ c && c ≤ high

/-- The characters for which a token can stand; a star stands for any text. -/
def Token.accepts : Token → Char → Bool
  | .star, _ | .any, _ => true
  | .char own, c => c = own
  | .set negated members, c => members.any (·.accepts c) != negated

def matchTokens : List Token → Text → Bool
  | [], name => name.isEmpty
  | .star :: rest, name => name.tails.any (matchTokens rest)
  | token :: rest, c :: name => token.accepts c && matchTokens rest name
  | _ :: _, [] => false

def Token.badRange : Token → Option BadRange
  | .set _ members => members.findSome? fun
    | .range low high => if high < low then some ⟨low, high⟩ else none
    | .single _ => none
  | _ => none

def fnmatch (name pattern : Text) : Except BadRange Bool :=
  match (tokens pattern).findSome? Token.badRange with
  | some bad => .error bad
  | none => .ok (matchTokens (tokens pattern) name)

/-- No part of the pattern stands for anything but itself. -/
def Literal (pattern : Text) : Prop := tokens pattern = pattern.map .char

instance (pattern : Text) : Decidable (Literal pattern) := inferInstanceAs (Decidable (_ = _))

/-- The pattern is looked through for characters that could begin one. -/
def hasMagic (pattern : Text) : Bool := pattern.any (· ∈ ['*', '?', '['])

section Literals

variable {pattern name : Text}

theorem literal_cons {c : Char} (other : c ∉ ['*', '?', '[']) : Literal (c :: pattern) ↔ Literal pattern := by
  simp only [List.mem_cons, List.not_mem_nil, or_false, not_or] at other
  simp [Literal, tokens, tokensFrom, other]

theorem literal_of_no_magic (plain : hasMagic pattern = false) : Literal pattern := by
  induction pattern with
  | nil => rfl
  | cons c pattern ih =>
    simp only [hasMagic, List.any_cons, Bool.or_eq_false_iff, decide_eq_false_iff_not] at plain
    exact (literal_cons plain.1).mpr (ih plain.2)

theorem Literal.no_star (literal : Literal pattern) : '*' ∉ pattern := by
  induction pattern with
  | nil => exact List.not_mem_nil
  | cons c pattern ih =>
    rw [Literal, tokens, List.length_cons, tokensFrom, List.map_cons] at literal
    split at literal
    · cases (List.cons.inj literal).1
    · rename_i not_star
      have tail : Literal pattern := by
        split at literal
        · cases (List.cons.inj literal).1
        · split at literal
          · split at literal
            · exact (List.cons.inj literal).2
            · cases (List.cons.inj literal).1
          · exact (List.cons.inj literal).2
      rw [List.mem_cons, not_or]
      exact ⟨Ne.symm not_star, ih tail⟩

theorem badRange_chars : (pattern.map Token.char).findSome? Token.badRange = none := by simp [Token.badRange]

end Literals

section Paths

/-- The name stands for itself unless it could begin a pattern. -/
def partMatches (part name : Text) : Bool := if hasMagic part then matchTokens (tokens part) name else name = part

def partsMatch : List Text → List Text → Bool
  | [], [] => true
  | part :: parts, name :: names => partMatches part name && partsMatch parts names
  | _, _ => false

def glob (disk : List Text) (pattern : Text) : Except BadRange (List Text) :=
  let parts := pattern.splitOn '/'
  match parts.findSome? fun part => (tokens part).findSome? Token.badRange with
  | some bad => .error bad
  | none => .ok (disk.filter fun path => partsMatch parts (path.splitOn '/'))

def Compiles (pattern : Text) : Prop := ∀ part ∈ pattern.splitOn '/', (tokens part).findSome? Token.badRange = none

instance (pattern : Text) : Decidable (Compiles pattern) := inferInstanceAs (Decidable (∀ _ ∈ _, _))

variable {parts parts' names names' : List Text} {pattern : Text} {disk found : List Text}

@[simp] theorem partMatches_star (name : Text) : partMatches ['*'] name = true :=
  List.any_eq_true.mpr ⟨[], (List.mem_tails _ _).mpr List.nil_suffix, rfl⟩

@[simp] theorem partMatches_plain {part : Text} (plain : hasMagic part = false) (name : Text) :
    partMatches part name = decide (name = part) := by
  rw [partMatches, plain]
  rfl

theorem partsMatch_append (length : parts.length = names.length) :
    partsMatch (parts ++ parts') (names ++ names') = (partsMatch parts names && partsMatch parts' names') := by
  induction parts generalizing names with
  | nil =>
    obtain rfl := List.length_eq_zero_iff.mp length.symm
    simp [partsMatch]
  | cons part parts ih =>
    cases names with
    | nil => cases length
    | cons name names => simp [partsMatch, ih (Nat.succ.inj length), Bool.and_assoc]

theorem mem_part (text : Text) : ∀ part ∈ text.splitOn '/', ∀ c ∈ part, c ∈ text ∧ c ≠ '/' := by
  induction text with
  | nil => simp
  | cons c text ih =>
    rw [List.splitOn_cons_eq_if_modifyHead]
    split
    · rw [List.forall_mem_cons]
      exact ⟨by simp, fun part mem d mem' => ⟨List.mem_cons_of_mem _ (ih part mem d mem').1, (ih part mem d mem').2⟩⟩
    · rename_i other
      cases split_ : text.splitOn '/' with
      | nil => exact absurd split_ (List.splitOn_ne_nil '/' text)
      | cons first parts =>
        rw [split_, List.forall_mem_cons] at ih
        rw [List.modifyHead_cons, List.forall_mem_cons, List.forall_mem_cons]
        refine ⟨⟨⟨List.mem_cons_self, by simpa using other⟩, fun d mem => ?_⟩, fun part mem d mem' => ?_⟩
        · exact ⟨List.mem_cons_of_mem _ (ih.1 d mem).1, (ih.1 d mem).2⟩
        · exact ⟨List.mem_cons_of_mem _ (ih.2 part mem d mem').1, (ih.2 part mem d mem').2⟩

theorem partsMatch_plain (plain : ∀ part ∈ parts, hasMagic part = false) :
    partsMatch parts names = true ↔ names = parts := by
  induction parts generalizing names with
  | nil => cases names <;> simp [partsMatch]
  | cons part parts ih =>
    rw [List.forall_mem_cons] at plain
    cases names with
    | nil => simp [partsMatch]
    | cons name names => simp [partsMatch, partMatches_plain plain.1, ih plain.2]

theorem compiles_plain (plain : ∀ part ∈ pattern.splitOn '/', hasMagic part = false) : Compiles pattern := by
  intro part mem
  rw [literal_of_no_magic (plain part mem), badRange_chars]

theorem length_of_partsMatch (matches_ : partsMatch parts names = true) : parts.length = names.length := by
  induction parts generalizing names with
  | nil =>
    cases names with
    | nil => rfl
    | cons name names => cases matches_
  | cons part parts ih =>
    cases names with
    | nil => cases matches_
    | cons name names =>
      rw [partsMatch, Bool.and_eq_true] at matches_
      exact congrArg Nat.succ (ih matches_.2)

theorem glob_ok : glob disk pattern = .ok found ↔
    Compiles pattern ∧ found = disk.filter fun path => partsMatch (pattern.splitOn '/') (path.splitOn '/') := by
  have compiles : (pattern.splitOn '/').findSome? (fun part => (tokens part).findSome? Token.badRange) = none ↔
      Compiles pattern :=
    List.findSome?_eq_none_iff
  rw [← compiles, glob]
  split
  · rename_i bad
    simp [bad]
  · rename_i none
    simp [none, eq_comm]

end Paths

end Glob
