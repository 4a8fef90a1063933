import Aurora.Library.PyText
import Mathlib.Data.List.Basic

/-! Regular expressions made of single characters and of greedy groups of them. -/

namespace Regex

open PyText

inductive Kind
  | notSpace
  | digit
  deriving DecidableEq, Repr

inductive Item
  | char (c : Char)
  /-- Any character but a line feed. -/
  | dot
  /-- One character or more, as many as there are. -/
  | group (kind : Kind)
  deriving DecidableEq, Repr

/-- What a kind takes; which characters are digits is told from outside. -/
def Kind.accepts (isDigit : Char → Bool) : Kind → Char → Bool
  | .notSpace, c => !isSpace c
  | .digit, c => isDigit c

/-- Characters that mean more than themselves, besides the dot. -/
def special : List Char := ['(', ')', '[', '{', '?', '*', '+', '|', '^', '$', '\\']

/-- `re.compile`, which is none for an expression of another kind. -/
def compile : Text → Option (List Item)
  | [] => some []
  | '(' :: '\\' :: 'S' :: '+' :: ')' :: rest => (compile rest).map (.group .notSpace :: ·)
  | '(' :: '\\' :: 'd' :: '+' :: ')' :: rest => (compile rest).map (.group .digit :: ·)
  | '\\' :: c :: rest => if c.isAlphanum then none else (compile rest).map (.char c :: ·)
  | '.' :: rest => (compile rest).map (.dot :: ·)
  | c :: rest => if c ∈ special then none else (compile rest).map (.char c :: ·)

def escaped : List Char := "()[]\x7b\x7d?*+-|^$\\.&~# \t\n\r".toList ++ [Char.ofNat 11, Char.ofNat 12]

def escape (text : Text) : Text := text.flatMap fun c => if c ∈ escaped then ['\\', c] else [c]

/-- The groups of a match at the start of the text; a group gives back what the rest cannot do without. -/
def matchItems (isDigit : Char → Bool) : List Item → Text → Option (List Text)
  | [], _ => some []
  | .char own :: items, c :: text => if c = own then matchItems isDigit items text else none
  | .dot :: items, c :: text => if c = '\n' then none else matchItems isDigit items text
  | .group kind :: items, text =>
    (List.range (text.takeWhile (kind.accepts isDigit)).length).reverse.findSome? fun n =>
      (matchItems isDigit items (text.drop (n + 1))).map (text.take (n + 1) :: ·)
  | _ :: _, [] => none

section Compile

variable {text rest : Text} {c : Char}

def item (c : Char) : Item := if c = '.' then .dot else .char c

theorem compile_cons (plain : c ∉ special) : compile (c :: rest) = (compile rest).map (item c :: ·) := by
  have opening : c ≠ '(' := fun same => plain (same ▸ by decide)
  have backslash : c ≠ '\\' := fun same => plain (same ▸ by decide)
  by_cases dot : c = '.'
  · subst dot
    simp [compile, item]
  · rw [compile]
    · rw [if_neg plain, item, if_neg dot]
    · exact fun _ same _ => opening same
    · exact fun _ same _ => opening same
    · exact fun _ _ same _ => backslash same
    · exact dot

theorem compile_append (plain : ∀ c ∈ text, c ∉ special) :
    compile (text ++ rest) = (compile rest).map (text.map item ++ ·) := by
  induction text with
  | nil => cases compiled : compile rest <;> simp [compiled]
  | cons c text ih =>
    rw [List.forall_mem_cons] at plain
    rw [List.cons_append, compile_cons plain.1, ih plain.2]
    cases compile rest <;> rfl

theorem special_escaped (c : Char) (mem : c ∈ special) : c ∈ escaped :=
  List.contains_iff_mem.mp (List.all_eq_true.mp (by decide : special.all escaped.contains = true) c mem)

theorem not_alphanum (c : Char) (mem : c ∈ escaped) : c.isAlphanum = false :=
  Bool.not_eq_true' _ |>.mp (List.all_eq_true.mp (by decide : escaped.all (fun c => !c.isAlphanum) = true) c mem)

theorem compile_escape (text rest : Text) :
    compile (escape text ++ rest) = (compile rest).map (text.map .char ++ ·) := by
  induction text with
  | nil => cases compiled : compile rest <;> simp [escape, compiled]
  | cons c text ih =>
    rw [escape, List.flatMap_cons, ← escape, List.append_assoc]
    split
    · rename_i special_
      have other : c.isAlphanum = false := not_alphanum c special_
      have step : compile ('\\' :: c :: (escape text ++ rest)) =
          (compile (escape text ++ rest)).map (.char c :: ·) := by
        simp [compile, other]
      rw [List.cons_append, List.singleton_append, step, ih]
      cases compile rest <;> rfl
    · rename_i plain
      have dot : c ≠ '.' := fun same => plain (same ▸ by decide)
      rw [List.singleton_append, compile_cons fun mem => plain (special_escaped c mem), ih, item, if_neg dot]
      cases compile rest <;> rfl

end Compile

section Match

variable {isDigit : Char → Bool} {items : List Item} {kind : Kind} {text name rest : Text} {groups : List Text}

theorem match_chars : matchItems isDigit (name.map .char ++ items) text = some groups ↔
    ∃ rest, text = name ++ rest ∧ matchItems isDigit items rest = some groups := by
  induction name generalizing text with
  | nil => simp
  | cons own name ih =>
    cases text with
    | nil => simp [matchItems]
    | cons c text =>
      rw [List.map_cons, List.cons_append, matchItems]
      by_cases same : c = own
      · subst same
        rw [if_pos rfl, ih]
        simp
      · rw [if_neg same]
        simp [same]

theorem match_self (name rest : Text) :
    matchItems isDigit (name.map .char ++ items) (name ++ rest) = matchItems isDigit items rest := by
  refine Option.ext fun groups => match_chars.trans ⟨?_, fun found => ⟨rest, rfl, found⟩⟩
  rintro ⟨rest', same, found⟩
  rw [List.append_cancel_left same]
  exact found

/-- An expression matches the text that it was made of without escaping. -/
theorem match_items (name rest : Text) :
    matchItems isDigit (name.map item ++ items) (name ++ rest) = matchItems isDigit items rest := by
  induction name with
  | nil => rfl
  | cons c name ih =>
    rw [List.map_cons, List.cons_append, List.cons_append, item]
    split
    · rename_i dot
      rw [matchItems, if_neg (by simp [dot]), ih]
    · rw [matchItems, if_pos rfl, ih]

theorem match_last (kind : Kind) (text : Text) : matchItems isDigit [.group kind] text =
    if text.takeWhile (kind.accepts isDigit) = [] then none else some [text.takeWhile (kind.accepts isDigit)] := by
  rw [matchItems]
  cases taken : text.takeWhile (kind.accepts isDigit) with
  | nil => rfl
  | cons c more =>
    have prefix_ : text.take (more.length + 1) = c :: more := by
      have whole := List.takeWhile_append_dropWhile (p := kind.accepts isDigit) (l := text)
      rw [taken] at whole
      rw [← whole]
      simp
    simp [List.range_succ, matchItems, prefix_]

theorem findSome?_only {β : Type} {places : List Nat} {f : Nat → Option β} {m : Nat} (only : ∀ n, n ≠ m → f n = none) :
    places.findSome? f = if m ∈ places then f m else none := by
  induction places with
  | nil => rfl
  | cons n places ih =>
    rw [List.findSome?_cons, ih]
    by_cases same : n = m
    · subst same
      cases f n <;> simp
    · simp [only n same, Ne.symm same]

theorem length_of_drop {n : Nat} (no_slash : '/' ∉ name) (no_slash' : '/' ∉ rest)
    (dropped : (name ++ '/' :: rest).drop n = '/' :: text) : n = name.length := by
  have whole := List.take_append_drop n (name ++ '/' :: rest)
  have length : ((name ++ '/' :: rest).take n).length = n := by
    have long := congrArg List.length dropped
    simp only [List.length_drop, List.length_cons] at long
    rw [List.length_take]
    omega
  rw [dropped] at whole
  generalize (name ++ '/' :: rest).take n = before at whole length
  rcases List.append_eq_append_iff.mp whole with ⟨more, rfl, tails⟩ | ⟨more, rfl, tails⟩
  · cases more with
    | nil => simpa using length.symm
    | cons c more =>
      obtain ⟨rfl, -⟩ := List.cons.inj tails
      simp at no_slash
  · cases more with
    | nil => simpa using length.symm
    | cons c more =>
      obtain ⟨-, rfl⟩ := List.cons.inj tails
      simp at no_slash'

theorem le_takeWhile {accepts : Char → Bool} :
    name.length ≤ ((name ++ rest).takeWhile accepts).length ↔ ∀ c ∈ name, accepts c = true := by
  induction name with
  | nil => simp
  | cons c name ih =>
    rw [List.cons_append, List.takeWhile_cons, List.forall_mem_cons]
    cases accepted : accepts c with
    | false => simp
    | true => simp [ih]

theorem match_group (no_slash : '/' ∉ name) (no_slash' : '/' ∉ rest) :
    matchItems isDigit (.group kind :: .char '/' :: items) (name ++ '/' :: rest) =
      if name ≠ [] ∧ name.all (kind.accepts isDigit) = true then
        (matchItems isDigit items rest).map (name :: ·)
      else none := by
  have only : ∀ n, n + 1 ≠ name.length →
      (matchItems isDigit (.char '/' :: items) ((name ++ '/' :: rest).drop (n + 1))).map
        ((name ++ '/' :: rest).take (n + 1) :: ·) = none := by
    intro n other
    cases dropped : (name ++ '/' :: rest).drop (n + 1) with
    | nil => rfl
    | cons c text =>
      rw [matchItems, if_neg, Option.map_none]
      rintro rfl
      exact other (length_of_drop no_slash no_slash' dropped)
  rw [matchItems]
  cases name with
  | nil =>
    rw [if_neg fun both => both.1 rfl]
    exact List.findSome?_eq_none_iff.mpr fun n _ => only n (Nat.succ_ne_zero n)
  | cons c name =>
    rw [findSome?_only fun n other => only n fun same => other (Nat.succ.inj same)]
    have reached : name.length ∈
        (List.range ((c :: name ++ '/' :: rest).takeWhile (kind.accepts isDigit)).length).reverse ↔
          c :: name ≠ [] ∧ (c :: name).all (kind.accepts isDigit) = true := by
      rw [List.mem_reverse, List.mem_range, List.all_eq_true, ← @le_takeWhile _ ('/' :: rest), List.length_cons]
      exact ⟨fun less => ⟨List.cons_ne_nil c name, less⟩, And.right⟩
    have taken : (c :: name ++ '/' :: rest).take (name.length + 1) = c :: name := by simp
    have left : (c :: name ++ '/' :: rest).drop (name.length + 1) = '/' :: rest := by simp
    refine if_congr reached ?_ rfl
    rw [taken, left, matchItems, if_pos rfl]

end Match

end Regex
