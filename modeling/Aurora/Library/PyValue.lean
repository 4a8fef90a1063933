import Aurora.Library.SortBy
import Aurora.Library.PyText
import Mathlib.Data.Char
import Mathlib.Data.Rat.Defs

namespace PyValue

open PyText

/-- What a number is worth, unless it is NaN. -/
inductive Exact
  | finite (value : ℚ)
  | infinite (negative : Bool)
  deriving DecidableEq

/-- What is left to the interpreter: its floats, the characters beyond ASCII that it prints as they are, and the
    `__repr__` of its classes, from the name of the class and the `repr` of each field. -/
structure Interpreter (F : Type) where
  exact : F → Option Exact
  floatText : F → Text
  printable : Char → Bool
  objectText : Text → List (Text × Text) → Text

inductive Number (F : Type)
  | bool (value : Bool)
  | int (value : Int)
  | float (value : F)
  deriving DecidableEq

inductive Atom (F : Type)
  | none
  | str (text : Text)
  | bytes (data : List UInt8)
  | number (value : Number F)
  deriving DecidableEq

/-- A value as far as `==` and `repr` look at it. The elements of a set are in the order of its iteration, and an
    object has the fields of its `__dict__`. -/
inductive Value (F : Type)
  | atom (value : Atom F)
  | list (items : List (Value F))
  | tuple (items : List (Value F))
  | set (items : List (Value F))
  | frozenset (items : List (Value F))
  | dict (entries : List (Text × Value F))
  | object (cls : Text) (fields : List (Text × Value F))

namespace Value

variable {F : Type}

@[elab_as_elim]
theorem byParts {motive : Value F → Prop} (atom : ∀ value, motive (.atom value))
    (list : ∀ items, (∀ item ∈ items, motive item) → motive (.list items))
    (tuple : ∀ items, (∀ item ∈ items, motive item) → motive (.tuple items))
    (set : ∀ items, (∀ item ∈ items, motive item) → motive (.set items))
    (frozenset : ∀ items, (∀ item ∈ items, motive item) → motive (.frozenset items))
    (dict : ∀ entries, (∀ entry ∈ entries, motive entry.2) → motive (.dict entries))
    (object : ∀ cls fields, (∀ field ∈ fields, motive field.2) → motive (.object cls fields)) :
    ∀ value, motive value := by
  apply @Value.rec F motive (fun items => ∀ item ∈ items, motive item)
    (fun entries => ∀ entry ∈ entries, motive entry.2) (fun entry => motive entry.2)
  · exact atom
  · exact list
  · exact tuple
  · exact set
  · exact frozenset
  · exact dict
  · exact object
  · exact fun item member => absurd member List.not_mem_nil
  · intro item items first rest
    exact List.forall_mem_cons.mpr ⟨first, rest⟩
  · exact fun entry member => absurd member List.not_mem_nil
  · intro entry entries first rest
    exact List.forall_mem_cons.mpr ⟨first, rest⟩
  · exact fun _ _ held => held

end Value

section Equality

variable {F : Type} [DecidableEq F] (python : Interpreter F)

def Number.exact : Number F → Option Exact
  | .bool value => some (.finite (if value then 1 else 0))
  | .int value => some (.finite value)
  | .float value => python.exact value

/-- One and the same, or equal: a NaN equals itself only where identity is looked at first, as it is inside of a
    container. -/
def Number.same (first second : Number F) : Bool :=
  first = second || ((first.exact python).isSome && first.exact python = second.exact python)

def Atom.same : Atom F → Atom F → Bool
  | .number first, .number second => first.same python second
  | first, second => first = second

namespace Value

mutual

/-- `first == second`. An element is looked for by equality, which is what looking it up by its hash comes to as long
    as equal elements have equal hashes. -/
def same : Value F → Value F → Bool
  | .atom first, .atom second => first.same python second
  | .list items, .list others => sameEach items others
  | .tuple items, .tuple others => sameEach items others
  | .set items, .set others => items.length == others.length && sameAmong items others
  | .set items, .frozenset others => items.length == others.length && sameAmong items others
  | .frozenset items, .set others => items.length == others.length && sameAmong items others
  | .frozenset items, .frozenset others => items.length == others.length && sameAmong items others
  | .dict entries, .dict others => entries.length == others.length && sameEntries entries others
  | .object cls fields, .object cls' others =>
    cls == cls' && fields.length == others.length && sameEntries fields others
  | _, _ => false

def sameEach : List (Value F) → List (Value F) → Bool
  | [], [] => true
  | item :: items, other :: others => same item other && sameEach items others
  | _, _ => false

def sameAmong : List (Value F) → List (Value F) → Bool
  | [], _ => true
  | item :: items, others => others.any (fun other => same item other) && sameAmong items others

def sameEntries : List (Text × Value F) → List (Text × Value F) → Bool
  | [], _ => true
  | (key, value) :: entries, others =>
    others.any (fun other => key == other.1 && same value other.2) && sameEntries entries others

end

theorem sameEach_iff (items others : List (Value F)) : sameEach python items others = true ↔
    List.Forall₂ (fun item other => same python item other = true) items others := by
  induction items generalizing others with
  | nil => cases others <;> simp [sameEach]
  | cons item items ih => cases others <;> simp [sameEach, ih]

theorem sameAmong_iff (items others : List (Value F)) : sameAmong python items others = true ↔
    ∀ item ∈ items, ∃ other ∈ others, same python item other = true := by
  induction items with
  | nil => simp [sameAmong]
  | cons item items ih => simp [sameAmong, ih]

theorem sameEntries_iff (entries others : List (Text × Value F)) : sameEntries python entries others = true ↔
    ∀ entry ∈ entries, ∃ other ∈ others, entry.1 = other.1 ∧ same python entry.2 other.2 = true := by
  induction entries with
  | nil => simp [sameEntries]
  | cons entry entries ih =>
    obtain ⟨key, value⟩ := entry
    rw [sameEntries, Bool.and_eq_true, ih, List.forall_mem_cons, List.any_eq_true]
    simp only [Bool.and_eq_true, beq_iff_eq]

theorem same_refl (value : Value F) : same python value value = true := by
  induction value using byParts with
  | atom value => cases value <;> simp [same, Atom.same, Number.same]
  | list items each =>
    rw [same, sameEach_iff]
    exact List.forall₂_same.mpr each
  | tuple items each =>
    rw [same, sameEach_iff]
    exact List.forall₂_same.mpr each
  | set items each =>
    rw [same, beq_self_eq_true, Bool.true_and, sameAmong_iff]
    exact fun item member => ⟨item, member, each item member⟩
  | frozenset items each =>
    rw [same, beq_self_eq_true, Bool.true_and, sameAmong_iff]
    exact fun item member => ⟨item, member, each item member⟩
  | dict entries each =>
    rw [same, beq_self_eq_true, Bool.true_and, sameEntries_iff]
    exact fun entry member => ⟨entry, member, rfl, each entry member⟩
  | object cls fields each =>
    rw [same, beq_self_eq_true, beq_self_eq_true, Bool.true_and, Bool.true_and, sameEntries_iff]
    exact fun field member => ⟨field, member, rfl, each field member⟩

end Value

end Equality

section Texts

def apostrophe : Char := Char.ofNat 39

def quotation : Char := Char.ofNat 34

def backslash : Char := Char.ofNat 92

/-- A string is written in apostrophes, unless it has one of them and no quotation mark. -/
def quoteOf (hasApostrophe hasQuotation : Bool) : Char :=
  if hasApostrophe && !hasQuotation then quotation else apostrophe

def hex (width code : Nat) : Text :=
  let digits := Nat.toDigits 16 code
  List.replicate (width - digits.length) '0' ++ digits

def escapeAscii (quote : Char) (code : Nat) : Text :=
  if code = quote.toNat || code = backslash.toNat then [backslash, Char.ofNat code]
  else if code = 9 then [backslash, 't']
  else if code = 10 then [backslash, 'n']
  else if code = 13 then [backslash, 'r']
  else if code < 32 || code = 127 then backslash :: 'x' :: hex 2 code
  else [Char.ofNat code]

def escapeChar (printable : Char → Bool) (quote char : Char) : Text :=
  if char.toNat < 128 then escapeAscii quote char.toNat
  else if printable char then [char]
  else if char.toNat < 0x100 then backslash :: 'x' :: hex 2 char.toNat
  else if char.toNat < 0x10000 then backslash :: 'u' :: hex 4 char.toNat
  else backslash :: 'U' :: hex 8 char.toNat

def reprStr (printable : Char → Bool) (text : Text) : Text :=
  let quote := quoteOf (text.contains apostrophe) (text.contains quotation)
  quote :: text.flatMap (escapeChar printable quote) ++ [quote]

def escapeByte (quote : Char) (byte : UInt8) : Text :=
  if byte.toNat < 128 then escapeAscii quote byte.toNat else backslash :: 'x' :: hex 2 byte.toNat

def reprBytes (data : List UInt8) : Text :=
  let quote := quoteOf (data.any (·.toNat == apostrophe.toNat)) (data.any (·.toNat == quotation.toNat))
  'b' :: quote :: data.flatMap (escapeByte quote) ++ [quote]

def commas (texts : List Text) : Text := List.intercalate ", ".toList texts

def tupleText : List Text → Text
  | [text] => "(".toList ++ text ++ ",)".toList
  | texts => "(".toList ++ commas texts ++ ")".toList

def setText : List Text → Text
  | [] => "set()".toList
  | texts => "\x7b".toList ++ commas texts ++ "\x7d".toList

def frozensetText : List Text → Text
  | [] => "frozenset()".toList
  | texts => "frozenset(\x7b".toList ++ commas texts ++ "\x7d)".toList

end Texts

section Repr

variable {F : Type} (python : Interpreter F)

def Number.repr : Number F → Text
  | .bool value => if value then "True".toList else "False".toList
  | .int value => decimal value
  | .float value => python.floatText value

def Atom.repr : Atom F → Text
  | .none => "None".toList
  | .str text => reprStr python.printable text
  | .bytes data => reprBytes data
  | .number value => value.repr python

namespace Value

mutual

def repr : Value F → Text
  | .atom value => value.repr python
  | .list items => "[".toList ++ commas (reprEach items) ++ "]".toList
  | .tuple items => tupleText (reprEach items)
  | .set items => setText (reprEach items)
  | .frozenset items => frozensetText (reprEach items)
  | .dict entries => "\x7b".toList ++ commas ((reprEntries entries).map fun entry =>
      reprStr python.printable entry.1 ++ ": ".toList ++ entry.2) ++ "\x7d".toList
  | .object cls fields => python.objectText cls (reprEntries fields)

def reprEach : List (Value F) → List Text
  | [] => []
  | item :: items => repr item :: reprEach items

def reprEntries : List (Text × Value F) → List (Text × Text)
  | [] => []
  | (key, value) :: entries => (key, repr value) :: reprEntries entries

end

theorem reprEach_eq_map (items : List (Value F)) : reprEach python items = items.map (repr python) := by
  induction items with
  | nil => rfl
  | cons item items ih => simp [reprEach, ih]

end Value

end Repr

end PyValue
