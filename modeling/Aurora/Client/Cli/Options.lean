import Mathlib
import Aurora.Library.PyText
import Aurora.Library.Separated

namespace Aurora.Client.Cli

/-- What `int` looks up of a character beyond ASCII. -/
structure Unicode where
  isSpace : Char → Bool
  decimal : Char → Option (Fin 10)

def Unicode.asciiOnly : Unicode where
  isSpace _ := false
  decimal _ := none

inductive OptionError
  /-- `int` has no number for this text. -/
  | valueError (literal : String)
  /-- 'Invalid instance range: ...', with the pieces of the range -/
  | argumentTypeError (pieces : List String)
  deriving DecidableEq

section Int

variable (unicode : Unicode)

/-- What `int` strips of a text, which is less than what `str.strip` does. -/
def isIntSpace (char : Char) : Bool :=
  char ∈ [' ', '\t', '\n', Char.ofNat 11, Char.ofNat 12, '\r'] || (127 < char.toNat && unicode.isSpace char)

def digit (char : Char) : Option Nat :=
  if char.isDigit then some (char.toNat - '0'.toNat)
  else if 127 < char.toNat then (unicode.decimal char).map Fin.val
  else none

def numeral (text : List Char) : Option Nat :=
  let groups := text.splitOn '_'
  if [] ∈ groups then none
  else (groups.flatten.mapM (digit unicode)).map fun digits => digits.foldl (fun value digit => 10 * value + digit) 0

def int (text : List Char) : Option Int :=
  match PyText.stripWith (isIntSpace unicode) text with
  | '+' :: rest => (numeral unicode rest).map fun value => value
  | '-' :: rest => (numeral unicode rest).map fun value => -value
  | rest => (numeral unicode rest).map fun value => value

end Int

section Parse

variable (unicode : Unicode)

def start (part : List Char) : List Char := (part.splitOn '-').head (List.splitOn_ne_nil '-' part)

def stop (part : List Char) : List Char := (part.splitOn '-').getLast (List.splitOn_ne_nil '-' part)

def readInt (text : List Char) : Except OptionError Int :=
  match int unicode text with
  | some value => return value
  | none => throw (.valueError (String.ofList text))

/-- The integers from the first number up to the second, which is not one of them. -/
def range (start stop : Int) : Finset Int :=
  (Finset.range (stop - start).toNat).image fun offset : Nat => start + offset

theorem mem_range {start stop n : Int} : n ∈ range start stop ↔ start ≤ n ∧ n < stop := by
  simp only [range, Finset.mem_image, Finset.mem_range]
  constructor
  · rintro ⟨offset, below, rfl⟩
    omega
  · intro inside
    exact ⟨(n - start).toNat, by omega, by omega⟩

@[simp]
theorem mem_range_succ {start stop n : Int} : n ∈ range start (stop + 1) ↔ start ≤ n ∧ n ≤ stop := by
  rw [mem_range, Int.lt_add_one_iff]

def parsePart (part : List Char) : Except OptionError (Finset Int) := do
  let start ← readInt unicode (start part)
  let stop := (← readInt unicode (stop part)) + 1
  if start ≥ stop then throw (.argumentTypeError ((part.splitOn '-').map String.ofList))
  return range start stop

def instanceSet (instances : List Char) : Except OptionError (Finset Int) :=
  (instances.splitOn ',').foldlM (fun result part => return result ∪ (← parsePart unicode part)) ∅

def sorted {α : Type} [LinearOrder α] (set : Finset α) : List α := set.sort

def parseInstances (instances : Option String) : Except OptionError (Option (List Int)) :=
  match instances with
  | none => return none
  | some instances =>
    if instances = "" then return none
    else do
      let result ← instanceSet unicode instances.toList
      return some (sorted result)

example : instanceSet .asciiOnly "0,1-3,5".toList = .ok {0, 1, 2, 3, 5} := by decide +kernel

end Parse

section Grammar

/-- A number in plain digits. -/
def Plain (text : List Char) : Prop := text ≠ [] ∧ ∀ char ∈ text, char.isDigit = true

instance (text : List Char) : Decidable (Plain text) :=
  decidable_of_iff (text ≠ [] ∧ text.all Char.isDigit) (by simp [Plain])

def Decimal (text : List Char) (value : Nat) : Prop := Plain text ∧ Nat.ofDigitChars 10 text 0 = value

/-- An item of an instance list, N or N-M, with its two ends. -/
inductive Item : List Char → Nat × Nat → Prop
  | single {text value} : Decimal text value → Item text (value, value)
  | range {text text' low high} : Decimal text low → Decimal text' high → low ≤ high →
      Item (text ++ '-' :: text') (low, high)

/-- The string is a list of items just when it is accepted, and then it gives its instances in order, each once. -/
def FollowsGrammar (unicode : Unicode) (instances : String) : Prop :=
  ((∃ result, parseInstances unicode (some instances) = .ok result) ↔
      ∃ ranges, Separated.Listed ',' Item instances.toList ranges) ∧
    ∀ ranges, Separated.Listed ',' Item instances.toList ranges →
      ∃ result, parseInstances unicode (some instances) = .ok (some result) ∧ result.Pairwise (· < ·) ∧
        ∀ n, n ∈ result ↔ ∃ range ∈ ranges, (range.1 : Int) ≤ n ∧ n ≤ range.2

/-- `int` reads both ends of the part, in order. -/
def Read (unicode : Unicode) (part : List Char) : Prop :=
  ∃ low high, int unicode (start part) = some low ∧ int unicode (stop part) = some high ∧ low ≤ high

/-- At most one dash, with plain digits around it. -/
def Clear (part : List Char) : Prop :=
  (part.splitOn '-').length ≤ 2 ∧ ∀ piece ∈ part.splitOn '-', Plain piece

instance (part : List Char) : Decidable (Clear part) := inferInstanceAs (Decidable (_ ∧ _))

variable {unicode : Unicode} {text part : List Char} {value : Nat}

theorem Plain.notMem (plain : Plain text) {char : Char} (other : char.isDigit = false) : char ∉ text :=
  fun mem => by rw [plain.2 char mem] at other; cases other

theorem isIntSpace_digit {char : Char} (plain : char.isDigit = true) : isIntSpace unicode char = false := by
  have bounds : 48 ≤ char.toNat ∧ char.toNat ≤ 57 := Char.isDigit_iff_toNat.mp plain
  have ascii : ¬ 127 < char.toNat := by omega
  have visible : char ∉ [' ', '\t', '\n', Char.ofNat 11, Char.ofNat 12, '\r'] := by
    intro mem
    simp only [List.mem_cons, List.not_mem_nil, or_false] at mem
    rcases mem with rfl | rfl | rfl | rfl | rfl | rfl <;> exact absurd plain (by decide)
  simp [isIntSpace, ascii, visible]

theorem strip_plain (plain : Plain text) : PyText.stripWith (isIntSpace unicode) text = text := by
  have visible : ∀ char ∈ text, ¬ isIntSpace unicode char = true := fun char mem => by
    rw [isIntSpace_digit (plain.2 char mem)]
    exact Bool.false_ne_true
  have left : text.dropWhile (isIntSpace unicode) = text :=
    List.dropWhile_eq_self_iff.mpr fun some => visible _ (List.getElem_mem some)
  rw [PyText.stripWith, left, List.rdropWhile_eq_self_iff]
  exact fun some => visible _ (List.getLast_mem some)

theorem mapM_digit (digits : ∀ char ∈ text, char.isDigit = true) :
    text.mapM (digit unicode) = some (text.map fun char => char.toNat - '0'.toNat) := by
  induction text with
  | nil => rfl
  | cons char text ih =>
    rw [List.forall_mem_cons] at digits
    rw [List.mapM_cons, digit, if_pos digits.1, ih digits.2]
    rfl

theorem numeral_plain (unicode : Unicode) (plain : Plain text) : numeral unicode text = some (Nat.ofDigitChars 10 text 0) := by
  have groups : text.splitOn '_' = [text] := List.splitOn_eq_singleton (plain.notMem (by decide))
  have some : [] ∉ [text] := by simpa using plain.1.symm
  simp only [numeral, groups, if_neg some, List.flatten_singleton, mapM_digit plain.2, Option.map_some,
    List.foldl_map, Nat.ofDigitChars_eq_foldl]

theorem int_decimal (unicode : Unicode) (decimal : Decimal text value) : int unicode text = some (value : Int) := by
  obtain ⟨plain, rfl⟩ := decimal
  have reads := numeral_plain unicode plain
  rw [int, strip_plain plain]
  split
  · exact absurd List.mem_cons_self (plain.notMem (by decide))
  · exact absurd List.mem_cons_self (plain.notMem (by decide))
  · rw [reads]
    rfl

theorem readInt_ok {number : Int} : readInt unicode text = .ok number ↔ int unicode text = some number := by
  unfold readInt
  cases int unicode text <;> simp [throw, throwThe, MonadExceptOf.throw, pure, Except.pure]

theorem parsePart_ok {instances : Finset Int} : parsePart unicode part = .ok instances ↔
    ∃ low high, int unicode (start part) = some low ∧ int unicode (stop part) = some high ∧ low ≤ high ∧
      instances = range low (high + 1) := by
  simp only [← readInt_ok]
  unfold parsePart
  cases first : readInt unicode (start part) with
  | error raised => simp [bind, Except.bind]
  | ok low =>
    cases last : readInt unicode (stop part) with
    | error raised => simp [bind, Except.bind]
    | ok high =>
      by_cases ordered : low ≤ high
      · have inside : ¬ low ≥ high + 1 := by omega
        simp [bind, Except.bind, pure, Except.pure, ordered, inside, eq_comm]
      · have reversed : low ≥ high + 1 := by omega
        simp [bind, Except.bind, throw, throwThe, MonadExceptOf.throw, ordered, reversed]

theorem parsePart_of_read (read : Read unicode part) : ∃ instances, parsePart unicode part = .ok instances := by
  obtain ⟨low, high, first, last, ordered⟩ := read
  exact ⟨_, parsePart_ok.mpr ⟨low, high, first, last, ordered, rfl⟩⟩

theorem update_ok {parts : List (List Char)} {before result : Finset Int} :
    parts.foldlM (fun result part => return result ∪ (← parsePart unicode part)) before = .ok result ↔
      ∃ sets, List.Forall₂ (fun part set => parsePart unicode part = .ok set) parts sets ∧
        result = sets.foldl (· ∪ ·) before := by
  induction parts generalizing before with
  | nil => simp [pure, Except.pure, eq_comm]
  | cons part parts ih =>
    rw [List.foldlM_cons]
    cases parsed : parsePart unicode part with
    | error raised => simp [bind, Except.bind, List.forall₂_cons_left_iff, parsed]
    | ok set =>
      have step : (do
          let result ← (return before ∪ (← Except.ok set) : Except OptionError (Finset Int))
          parts.foldlM (fun result part => return result ∪ (← parsePart unicode part)) result) =
          parts.foldlM (fun result part => return result ∪ (← parsePart unicode part)) (before ∪ set) := rfl
      rw [step, ih]
      simp [List.forall₂_cons_left_iff, parsed]

theorem mem_foldl_union {sets : List (Finset Int)} {before : Finset Int} {n : Int} :
    n ∈ sets.foldl (· ∪ ·) before ↔ n ∈ before ∨ ∃ set ∈ sets, n ∈ set := by
  induction sets generalizing before with
  | nil => simp
  | cons set sets ih => simp [ih, or_assoc]

theorem read_of_parsePart {instances : Finset Int} (parsed : parsePart unicode part = .ok instances) :
    Read unicode part := by
  obtain ⟨low, high, first, last, ordered, -⟩ := parsePart_ok.mp parsed
  exact ⟨low, high, first, last, ordered⟩

theorem parses_parts {parts : List (List Char)} : (∃ sets, List.Forall₂ (fun part set => parsePart unicode part = .ok set)
    parts sets) ↔ ∀ part ∈ parts, Read unicode part := by
  induction parts with
  | nil => simp
  | cons part parts ih =>
    rw [List.forall_mem_cons, ← ih]
    constructor
    · rintro ⟨_, _ | ⟨parsed, others⟩⟩
      exact ⟨read_of_parsePart parsed, _, others⟩
    · rintro ⟨read, sets, others⟩
      obtain ⟨set, parsed⟩ := parsePart_of_read read
      exact ⟨set :: sets, .cons parsed others⟩

theorem instanceSet_accepts {instances : List Char} : (∃ result, instanceSet unicode instances = .ok result) ↔
    ∀ part ∈ instances.splitOn ',', Read unicode part := by
  rw [← parses_parts]
  constructor
  · rintro ⟨result, done⟩
    obtain ⟨sets, parsed, -⟩ := update_ok.mp done
    exact ⟨sets, parsed⟩
  · rintro ⟨sets, parsed⟩
    exact ⟨_, update_ok.mpr ⟨sets, parsed, rfl⟩⟩

section Items

variable {range : Nat × Nat} {first last : List Char}

theorem ends_of_one (pieces : part.splitOn '-' = [first]) : start part = first ∧ stop part = first := by
  simp [start, stop, pieces]

theorem ends_of_two (pieces : part.splitOn '-' = [first, last]) : start part = first ∧ stop part = last := by
  simp [start, stop, pieces]

theorem pieces_single (plain : Plain text) : text.splitOn '-' = [text] :=
  List.splitOn_eq_singleton (plain.notMem (by decide))

theorem pieces_range (plain : Plain first) (plain' : Plain last) : (first ++ '-' :: last).splitOn '-' = [first, last] := by
  rw [List.splitOn_append_cons_self_of_not_mem (plain.notMem (by decide)), pieces_single plain']

theorem Item.parsed (item : Item part range) :
    parsePart unicode part = .ok (Cli.range range.1 (range.2 + 1)) := by
  cases item with
  | single decimal =>
    obtain ⟨first, last⟩ := ends_of_one (pieces_single decimal.1)
    have reads := int_decimal unicode decimal
    exact parsePart_ok.mpr ⟨_, _, by rw [first, reads], by rw [last, reads], Int.le_refl _, rfl⟩
  | range low high ordered =>
    obtain ⟨first, last⟩ := ends_of_two (pieces_range low.1 high.1)
    exact parsePart_ok.mpr ⟨_, _, by rw [first, int_decimal unicode low], by rw [last, int_decimal unicode high],
      Int.ofNat_le.mpr ordered, rfl⟩

theorem Item.clear (item : Item part range) : Clear part := by
  cases item with
  | single decimal => simpa [Clear, pieces_single decimal.1] using decimal.1
  | range low high _ => simpa [Clear, pieces_range low.1 high.1] using ⟨low.1, high.1⟩

theorem Item.no_comma (item : Item part range) : ',' ∉ part := by
  cases item with
  | single decimal => exact decimal.1.notMem (by decide)
  | range low high _ =>
    have left := low.1.notMem (show ','.isDigit = false by decide)
    have right := high.1.notMem (show ','.isDigit = false by decide)
    simp [left, right]

theorem item_of_clear (read : Read unicode part) (clear : Clear part) : ∃ range, Item part range := by
  obtain ⟨low, high, first, last, ordered⟩ := read
  obtain ⟨few, plain⟩ := clear
  have whole : ['-'].intercalate (part.splitOn '-') = part := List.intercalate_splitOn '-'
  have some : part.splitOn '-' ≠ [] := List.splitOn_ne_nil '-' part
  rcases pieces : part.splitOn '-' with _ | ⟨a, _ | ⟨b, _ | ⟨c, rest⟩⟩⟩
  · exact absurd pieces some
  · rw [pieces] at plain whole
    obtain rfl : a = part := by simpa using whole
    exact ⟨_, .single ⟨plain a List.mem_cons_self, rfl⟩⟩
  · rw [pieces] at plain whole
    have both : a ++ '-' :: b = part := by simpa using whole
    obtain ⟨starts, stops⟩ := ends_of_two pieces
    have left : Decimal a _ := ⟨plain a (by simp), rfl⟩
    have right : Decimal b _ := ⟨plain b (by simp), rfl⟩
    rw [starts, int_decimal unicode left, Option.some.injEq] at first
    rw [stops, int_decimal unicode right, Option.some.injEq] at last
    have item := Item.range left right (by omega)
    exact ⟨_, both ▸ item⟩
  · simp [pieces] at few

end Items

section Lists

variable {instances : String} {ranges : List (Nat × Nat)}

theorem listed_iff_items : Separated.Listed ',' Item instances.toList ranges ↔
    List.Forall₂ Item (instances.toList.splitOn ',') ranges :=
  Separated.listed_iff fun _ _ item => item.no_comma

theorem instanceSet_listed (unicode : Unicode) (listed : Separated.Listed ',' Item instances.toList ranges) :
    ∃ result, instanceSet unicode instances.toList = .ok result ∧
      ∀ n, n ∈ result ↔ ∃ range ∈ ranges, (range.1 : Int) ≤ n ∧ n ≤ range.2 := by
  have items := listed_iff_items.mp listed
  let sets : List (Finset Int) := ranges.map fun range => Cli.range range.1 (range.2 + 1)
  have parsed : List.Forall₂ (fun part set => parsePart unicode part = .ok set) (instances.toList.splitOn ',') sets :=
    List.forall₂_map_right_iff.mpr (items.imp fun _ _ item => item.parsed)
  refine ⟨_, update_ok.mpr ⟨sets, parsed, rfl⟩, fun n => ?_⟩
  rw [mem_foldl_union]
  simp [sets]

theorem parseInstances_set (nonempty : instances ≠ "") : parseInstances unicode (some instances) =
    (instanceSet unicode instances.toList).map fun result => some (sorted result) := by
  rw [parseInstances, if_neg nonempty]
  rfl

theorem parseInstances_accepts (nonempty : instances ≠ "") :
    (∃ result, parseInstances unicode (some instances) = .ok result) ↔
      ∀ part ∈ instances.toList.splitOn ',', Read unicode part := by
  rw [← instanceSet_accepts, parseInstances_set nonempty]
  cases instanceSet unicode instances.toList <;> simp [Except.map]

theorem listed_iff_clear (unicode : Unicode) : (∃ ranges, Separated.Listed ',' Item instances.toList ranges) ↔
    ∀ part ∈ instances.toList.splitOn ',', Read unicode part ∧ Clear part := by
  simp only [listed_iff_items]
  generalize instances.toList.splitOn ',' = parts
  induction parts with
  | nil => simp
  | cons part parts ih =>
    rw [List.forall_mem_cons, ← ih]
    constructor
    · rintro ⟨_, _ | ⟨item, items⟩⟩
      exact ⟨⟨read_of_parsePart item.parsed, item.clear⟩, _, items⟩
    · rintro ⟨⟨read, clear⟩, ranges, items⟩
      obtain ⟨range, item⟩ := item_of_clear read clear
      exact ⟨range :: ranges, .cons item items⟩

/-- The grammar is followed unless every part is read and one of them is not clear: it has text between two dashes,
    or `int` reads more than plain digits in it. -/
theorem followsGrammar_iff (unicode : Unicode) (nonempty : instances ≠ "") : FollowsGrammar unicode instances ↔
    ((∀ part ∈ instances.toList.splitOn ',', Read unicode part) →
      ∀ part ∈ instances.toList.splitOn ',', Clear part) := by
  have accepted : (∃ ranges, Separated.Listed ',' Item instances.toList ranges) →
      ∃ result, parseInstances unicode (some instances) = .ok result := by
    rw [listed_iff_clear unicode, parseInstances_accepts nonempty]
    exact fun parts part mem => (parts part mem).1
  have denotes : ∀ ranges, Separated.Listed ',' Item instances.toList ranges →
      ∃ result, parseInstances unicode (some instances) = .ok (some result) ∧ result.Pairwise (· < ·) ∧
        ∀ n, n ∈ result ↔ ∃ range ∈ ranges, (range.1 : Int) ≤ n ∧ n ≤ range.2 := by
    intro ranges listed
    obtain ⟨result, done, members⟩ := instanceSet_listed unicode listed
    refine ⟨sorted result, ?_, result.sortedLT_sort.pairwise, fun n => ?_⟩
    · rw [parseInstances_set nonempty, done]
      rfl
    · rw [sorted, Finset.mem_sort, members]
  have only_listed : FollowsGrammar unicode instances ↔
      ((∃ result, parseInstances unicode (some instances) = .ok result) →
        ∃ ranges, Separated.Listed ',' Item instances.toList ranges) :=
    ⟨fun follows => follows.1.mp, fun listed => ⟨⟨listed, accepted⟩, denotes⟩⟩
  rw [only_listed, parseInstances_accepts nonempty, listed_iff_clear unicode]
  constructor
  · intro clear read part mem
    exact (clear read part mem).2
  · intro clear read part mem
    exact ⟨read part mem, clear read part mem⟩

/-- The text between the dashes is dropped. -/
theorem drops_middle : parseInstances .asciiOnly (some "0-5-3") = .ok (some [0, 1, 2, 3]) ∧
    ¬ FollowsGrammar .asciiOnly "0-5-3" := by
  have parts : "0-5-3".toList.splitOn ',' = ["0-5-3".toList] := by decide +kernel
  have made : instanceSet .asciiOnly "0-5-3".toList = .ok (range 0 4) := by decide +kernel
  have order : sorted (range 0 4) = [0, 1, 2, 3] := by
    have numbers : range 0 4 = [0, 1, 2, 3].toFinset := by decide
    rw [sorted, numbers, List.toFinset_sort _ (by decide)]
    decide
  have result : parseInstances .asciiOnly (some "0-5-3") = .ok (some [0, 1, 2, 3]) := by
    rw [parseInstances_set (by decide), made, ← order]
    rfl
  refine ⟨result, fun follows => ?_⟩
  have listed := follows.1.mp ⟨_, result⟩
  rw [listed_iff_clear .asciiOnly, parts] at listed
  exact absurd (listed _ List.mem_cons_self).2 (by decide +kernel)

theorem follows_three_items : FollowsGrammar .asciiOnly "0,1-3,5" := by
  refine (followsGrammar_iff .asciiOnly (by decide)).mpr fun _ => ?_
  have parts : "0,1-3,5".toList.splitOn ',' = ["0".toList, "1-3".toList, "5".toList] := by decide +kernel
  rw [parts]
  decide +kernel

end Lists

end Grammar

end Aurora.Client.Cli
