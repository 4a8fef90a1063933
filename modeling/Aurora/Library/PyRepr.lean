import Aurora.Library.PyValue
import Mathlib.Algebra.Group.Nat.Defs

/-! What `repr` writes of strings, numbers and tuples can be told apart, also with more text behind it. -/

namespace PyValue

open PyText

section Codes

variable {α : Type} {code : α → Text} {quote : Char}

def PrefixCode (code : α → Text) : Prop :=
  ∀ first second rest more, code first ++ rest = code second ++ more → first = second ∧ rest = more

def Unquoted (quote : Char) (code : α → Text) : Prop := ∀ item rest more, code item ++ rest ≠ quote :: more

theorem flatMap_inj (apart : PrefixCode code) (inside : Unquoted quote code) {items others : List α}
    {rest more : Text} (same : items.flatMap code ++ quote :: rest = others.flatMap code ++ quote :: more) :
    items = others ∧ rest = more := by
  induction items generalizing others with
  | nil =>
    cases others with
    | nil => exact ⟨rfl, (List.cons.inj same).2⟩
    | cons other others =>
      rw [List.flatMap_cons, List.append_assoc] at same
      exact absurd same.symm (inside _ _ _)
  | cons item items ih =>
    rw [List.flatMap_cons, List.append_assoc] at same
    cases others with
    | nil => exact absurd same (inside _ _ _)
    | cons other others =>
      rw [List.flatMap_cons, List.append_assoc] at same
      obtain ⟨rfl, later⟩ := apart _ _ _ _ same
      obtain ⟨rfl, behind⟩ := ih later
      exact ⟨rfl, behind⟩

end Codes

section Escapes

def digitOf (char : Char) : Nat := if char.isDigit then char.toNat - '0'.toNat else char.toNat - 'a'.toNat + 10

def ofHex (digits : Text) : Nat := digits.foldl (fun value char => 16 * value + digitOf char) 0

theorem digitOf_digitChar {digit : Nat} (small : digit < 16) : digitOf digit.digitChar = digit := by
  have each : ∀ digit : Fin 16, digitOf (Nat.digitChar digit) = digit.val := by decide
  exact each ⟨digit, small⟩

theorem ofHex_append (digits : Text) (char : Char) : ofHex (digits ++ [char]) = 16 * ofHex digits + digitOf char := by
  simp [ofHex]

theorem ofHex_zeros (count : Nat) (digits : Text) : ofHex (List.replicate count '0' ++ digits) = ofHex digits := by
  have zero : digitOf '0' = 0 := by decide
  induction count with
  | zero => rfl
  | succ count ih =>
    rw [List.replicate_succ, List.cons_append]
    simpa [ofHex, zero] using ih

theorem ofHex_toDigits (number : Nat) : ofHex (Nat.toDigits 16 number) = number := by
  induction number using Nat.strongRecOn with
  | ind number ih =>
    by_cases small : number < 16
    · rw [Nat.toDigits_of_lt_base small]
      simp [ofHex, digitOf_digitChar small]
    · have below : number / 16 < number := by omega
      have last : number % 16 < 16 := Nat.mod_lt _ (by decide)
      rw [Nat.toDigits_of_base_le (by decide) (Nat.le_of_not_lt small), ofHex_append, ih _ below, digitOf_digitChar last]
      omega

theorem ofHex_hex (width number : Nat) : ofHex (hex width number) = number := by
  rw [hex, ofHex_zeros, ofHex_toDigits]

theorem length_hex {width number : Nat} (positive : 0 < width) (small : number < 16 ^ width) :
    (hex width number).length = width := by
  have short := (Nat.length_toDigits_le_iff (b := 16) (by decide) positive).mpr small
  rw [hex, List.length_append, List.length_replicate]
  omega

def unescape : Text → Option (Nat × Text)
  | [] => none
  | char :: rest =>
    if char ≠ backslash then some (char.toNat, rest)
    else
      match rest with
      | [] => none
      | tag :: rest =>
        if tag = 't' then some (9, rest)
        else if tag = 'n' then some (10, rest)
        else if tag = 'r' then some (13, rest)
        else if tag = 'x' then some (ofHex (rest.take 2), rest.drop 2)
        else if tag = 'u' then some (ofHex (rest.take 4), rest.drop 4)
        else if tag = 'U' then some (ofHex (rest.take 8), rest.drop 8)
        else some (tag.toNat, rest)

structure Escapes (quote : Char) (code : Nat) (text : Text) : Prop where
  read : ∀ rest, unescape (text ++ rest) = some (code, rest)
  inside : ∀ rest more, text ++ rest ≠ quote :: more

variable {quote : Char} {code : Nat}

theorem escapes_hex {width : Nat} {tag : Char} (positive : 0 < width) (small : code < 16 ^ width)
    (other : quote ≠ backslash)
    (tagged : ∀ rest, unescape (backslash :: tag :: rest) = some (ofHex (rest.take width), rest.drop width)) :
    Escapes quote code (backslash :: tag :: hex width code) where
  read rest := by
    have length := length_hex positive small
    rw [List.cons_append, List.cons_append, tagged, List.take_left' length, List.drop_left' length, ofHex_hex]
  inside rest more same := other (List.cons.inj same).1.symm

theorem escapes_self {char : Char} (plain : char ≠ backslash) (other : char ≠ quote) :
    Escapes quote char.toNat [char] where
  read rest := by simp [unescape, plain]
  inside rest more same := other (List.cons.inj same).1

theorem toNat_ofNat {code : Nat} (small : code < 128) : (Char.ofNat code).toNat = code := by
  have each : ∀ code : Fin 128, (Char.ofNat code).toNat = code.val := by decide
  exact each ⟨code, small⟩

def IsQuote (quote : Char) : Prop := quote = apostrophe ∨ quote = quotation

theorem isQuote_quoteOf (hasApostrophe hasQuotation : Bool) : IsQuote (quoteOf hasApostrophe hasQuotation) := by
  rw [quoteOf]
  split
  · exact .inr rfl
  · exact .inl rfl

theorem IsQuote.ne_backslash (isQuote : IsQuote quote) : quote ≠ backslash := by
  rcases isQuote with rfl | rfl <;> decide

theorem IsQuote.ascii (isQuote : IsQuote quote) : quote.toNat < 128 := by
  rcases isQuote with rfl | rfl <;> decide

theorem escapes_ascii (isQuote : IsQuote quote) (small : code < 128) : Escapes quote code (escapeAscii quote code) := by
  have other := isQuote.ne_backslash
  rw [escapeAscii]
  split_ifs with marked tab newline return_ control
  · have chars : code = 39 ∨ code = 34 ∨ code = 92 := by
      have marked : code = quote.toNat ∨ code = 92 :=
        ((Bool.or_eq_true _ _).mp marked).imp of_decide_eq_true of_decide_eq_true
      rcases isQuote with rfl | rfl
      · exact marked.imp_right .inr
      · exact .inr marked
    refine ⟨fun rest => ?_, fun rest more same => other (List.cons.inj same).1.symm⟩
    rcases chars with rfl | rfl | rfl <;> rfl
  · subst tab
    exact ⟨fun rest => rfl, fun rest more same => other (List.cons.inj same).1.symm⟩
  · subst newline
    exact ⟨fun rest => rfl, fun rest more same => other (List.cons.inj same).1.symm⟩
  · subst return_
    exact ⟨fun rest => rfl, fun rest more same => other (List.cons.inj same).1.symm⟩
  · exact escapes_hex (by decide) (by omega) other fun rest => rfl
  · have plain : Char.ofNat code ≠ quote ∧ Char.ofNat code ≠ backslash := by
      simp only [Bool.or_eq_true, decide_eq_true_eq, not_or] at marked
      exact ⟨fun same => marked.1 (same ▸ (toNat_ofNat small).symm),
        fun same => marked.2 (same ▸ (toNat_ofNat small).symm)⟩
    have self := escapes_self plain.2 plain.1
    rwa [toNat_ofNat small] at self

theorem escapes_char (printable : Char → Bool) (isQuote : IsQuote quote) (char : Char) :
    Escapes quote char.toNat (escapeChar printable quote char) := by
  have other := isQuote.ne_backslash
  rw [escapeChar]
  split_ifs with ascii shown byte short
  · exact escapes_ascii isQuote ascii
  · apply escapes_self
    · rintro rfl
      exact ascii (by decide)
    · rintro rfl
      exact ascii isQuote.ascii
  · exact escapes_hex (by decide) (by omega) other fun rest => rfl
  · exact escapes_hex (by decide) (by omega) other fun rest => rfl
  · have bound : char.toNat < 0x110000 := by
      rcases char.valid with below | ⟨_, below⟩
      · exact below.trans (by decide)
      · exact below
    exact escapes_hex (by decide) (by omega) other fun rest => rfl

theorem escapes_byte (isQuote : IsQuote quote) (byte : UInt8) : Escapes quote byte.toNat (escapeByte quote byte) := by
  have bound := byte.toNat_lt
  rw [escapeByte]
  split_ifs with ascii
  · exact escapes_ascii isQuote ascii
  · exact escapes_hex (by decide) (by omega) isQuote.ne_backslash fun rest => rfl

/-- Characters that are numbered differently have escapes of which none begins another. -/
theorem prefixCode_of_escapes {α : Type} {code : α → Text} {number : α → Nat} (numbered : Function.Injective number)
    (escapes : ∀ item, Escapes quote (number item) (code item)) : PrefixCode code := by
  intro first second rest more same
  have read := (escapes first).read rest
  rw [same, (escapes second).read more] at read
  obtain ⟨numbers, rfl⟩ := Prod.mk.inj (Option.some.inj read)
  exact ⟨(numbered numbers).symm, rfl⟩

theorem toNat_injective : Function.Injective Char.toNat := fun first second same => by
  rw [← Char.ofNat_toNat first, same, Char.ofNat_toNat]

theorem reprStr_append {printable : Char → Bool} {text other rest more : Text}
    (same : reprStr printable text ++ rest = reprStr printable other ++ more) : text = other ∧ rest = more := by
  rw [reprStr, reprStr, List.cons_append, List.cons_append, List.append_assoc, List.append_assoc] at same
  obtain ⟨quotes, same⟩ := List.cons.inj same
  have isQuote := isQuote_quoteOf (other.contains apostrophe) (other.contains quotation)
  rw [quotes] at same
  have escapes := escapes_char printable isQuote
  exact flatMap_inj (prefixCode_of_escapes toNat_injective escapes) (fun char => (escapes char).inside) same

theorem reprBytes_append {data other : List UInt8} {rest more : Text}
    (same : reprBytes data ++ rest = reprBytes other ++ more) : data = other ∧ rest = more := by
  rw [reprBytes, reprBytes, List.cons_append, List.cons_append, List.append_assoc, List.append_assoc] at same
  obtain ⟨quotes, same⟩ := List.cons.inj (List.cons.inj same).2
  have isQuote := isQuote_quoteOf (other.any (·.toNat == apostrophe.toNat)) (other.any (·.toNat == quotation.toNat))
  rw [quotes] at same
  have escapes : ∀ byte, Escapes _ byte.toNat (escapeByte _ byte) := escapes_byte isQuote
  exact flatMap_inj (prefixCode_of_escapes (fun _ _ => UInt8.toNat_inj.mp) escapes)
    (fun byte => (escapes byte).inside) same

end Escapes

section Words

def isWord (char : Char) : Bool := char.isAlphanum || char ∈ ['.', '+', '-']

def Word (text : Text) : Prop := text ≠ [] ∧ ∀ char ∈ text, isWord char = true

def Stops (rest : Text) : Prop := ∀ char more, rest = char :: more → char = ',' ∨ char = ')'

theorem stops_comma (rest : Text) : Stops (',' :: rest) := fun _ _ same => .inl (List.cons.inj same).1.symm

theorem stops_close (rest : Text) : Stops (')' :: rest) := fun _ _ same => .inr (List.cons.inj same).1.symm

variable {text other rest more : Text}

theorem Stops.no_word {char : Char} (stops : Stops (char :: rest)) : isWord char = false := by
  rcases stops char rest rfl with rfl | rfl <;> decide

theorem Word.append_inj (word : Word text) (word' : Word other) (stops : Stops rest) (stops' : Stops more)
    (same : text ++ rest = other ++ more) : text = other ∧ rest = more := by
  rcases List.append_eq_append_iff.mp same with ⟨middle, rfl, rfl⟩ | ⟨middle, rfl, rfl⟩
  · cases middle with
    | nil => simp
    | cons char middle =>
      have inside := word'.2 char (by simp)
      simp [stops.no_word] at inside
  · cases middle with
    | nil => simp
    | cons char middle =>
      have inside := word.2 char (by simp)
      simp [stops'.no_word] at inside

theorem IsQuote.no_word {quote : Char} (isQuote : IsQuote quote) : isWord quote = false := by
  rcases isQuote with rfl | rfl <;> decide

theorem Word.ne_quote {quote : Char} (word : Word text) (isQuote : IsQuote quote) : text ++ rest ≠ quote :: more := by
  obtain ⟨char, text, rfl⟩ := List.exists_cons_of_ne_nil word.1
  intro same
  have inside := word.2 char List.mem_cons_self
  rw [(List.cons.inj same).1, isQuote.no_word] at inside
  cases inside

theorem Word.ne_reprStr (word : Word text) (printable : Char → Bool) (string : Text) :
    text ++ rest ≠ reprStr printable string ++ more :=
  word.ne_quote (isQuote_quoteOf _ _)

theorem Word.ne_reprBytes (word : Word text) (stops : Stops rest) (data : List UInt8) :
    text ++ rest ≠ reprBytes data ++ more := by
  intro same
  rw [reprBytes, List.cons_append, List.cons_append, List.cons_append] at same
  have isQuote := isQuote_quoteOf (data.any (·.toNat == apostrophe.toNat)) (data.any (·.toNat == quotation.toNat))
  obtain ⟨first, text, rfl⟩ := List.exists_cons_of_ne_nil word.1
  obtain ⟨-, same⟩ := List.cons.inj same
  cases text with
  | nil =>
    have quote := stops _ _ same
    rcases isQuote with isQuote | isQuote <;> rw [isQuote] at quote <;> revert quote <;> decide
  | cons char text =>
    have inside := word.2 char (by simp)
    rw [(List.cons.inj same).1, isQuote.no_word] at inside
    cases inside

theorem reprStr_ne_reprBytes (printable : Char → Bool) (string : Text) (data : List UInt8) :
    reprStr printable string ++ rest ≠ reprBytes data ++ more := by
  intro same
  have isQuote := isQuote_quoteOf (string.contains apostrophe) (string.contains quotation)
  have first := (List.cons.inj same).1
  rcases isQuote with isQuote | isQuote <;> rw [isQuote] at first <;> revert first <;> decide

theorem word_toDigits (number : Nat) : Word (Nat.toDigits 10 number) := by
  refine ⟨Nat.toDigits_ne_nil, fun char member => ?_⟩
  have digit := Nat.isDigit_of_mem_toDigits (by decide) (by decide) member
  simp [isWord, Char.isAlphanum, digit]

theorem word_decimal (number : Int) : Word (decimal number) := by
  have digits := word_toDigits number.natAbs
  rw [decimal]
  split
  · exact ⟨by simp, List.forall_mem_cons.mpr ⟨by decide, digits.2⟩⟩
  · exact digits

end Words

section Atoms

variable {F : Type} {python : Interpreter F}

/-- The `repr` of a float is made of digits, a point, an exponent and signs, or is `inf`, `-inf` or `nan`. -/
def FloatTexts (python : Interpreter F) : Prop :=
  ∀ value, python.floatText value ≠ [] ∧
    ∀ char ∈ python.floatText value, char.isDigit = true ∨ char ∈ ['.', 'e', '+', '-', 'i', 'n', 'f', 'a']

theorem FloatTexts.word_repr (floats : FloatTexts python) (number : Number F) : Word (number.repr python) := by
  have letters : ∀ char ∈ ['.', 'e', '+', '-', 'i', 'n', 'f', 'a'], isWord char = true := by simp [isWord]
  cases number with
  | bool value =>
    have true_ : Word "True".toList := by simp [Word, isWord]
    have false_ : Word "False".toList := by simp [Word, isWord]
    cases value
    · exact false_
    · exact true_
  | int value => exact word_decimal value
  | float value =>
    refine ⟨(floats value).1, fun char member => ?_⟩
    rcases (floats value).2 char member with digit | letter
    · simp [isWord, Char.isAlphanum, digit]
    · exact letters char letter

theorem FloatTexts.repr_ne_none (floats : FloatTexts python) (number : Number F) :
    number.repr python ≠ "None".toList := by
  cases number with
  | bool value =>
    cases value
    · exact (by decide : "False".toList ≠ "None".toList)
    · exact (by decide : "True".toList ≠ "None".toList)
  | int value =>
    intro same
    rw [Number.repr, decimal] at same
    have digit : ∀ char ∈ Nat.toDigits 10 value.natAbs, char.isDigit = true := fun char member =>
      Nat.isDigit_of_mem_toDigits (by decide) (by decide) member
    split at same
    · cases same
    · rw [same] at digit
      exact absurd (digit 'N' (by decide)) (by decide)
  | float value =>
    intro same
    have letters := (floats value).2
    rw [show python.floatText value = "None".toList from same] at letters
    exact absurd (letters 'N' (by decide)) (by decide)

/-- The text of an atom does not begin with a parenthesis. -/
theorem Atom.repr_head (floats : FloatTexts python) (atom : Atom F) :
    ∃ char text, atom.repr python = char :: text ∧ char ≠ '(' ∧ char ≠ ')' := by
  cases atom with
  | none => exact ⟨_, _, rfl, by decide, by decide⟩
  | str text =>
    refine ⟨_, _, rfl, ?_⟩
    rcases isQuote_quoteOf (text.contains apostrophe) (text.contains quotation) with isQuote | isQuote <;>
      rw [isQuote] <;> decide
  | bytes data => exact ⟨_, _, rfl, by decide, by decide⟩
  | number value =>
    have word := floats.word_repr value
    obtain ⟨char, text, split⟩ := List.exists_cons_of_ne_nil word.1
    have inside := word.2 char (split ▸ List.mem_cons_self)
    refine ⟨char, text, split, ?_, ?_⟩ <;> rintro rfl <;> revert inside <;> decide

variable [DecidableEq F]

/-- Two of the numbers are equal exactly if their texts are. -/
def Told (python : Interpreter F) (numbers : List (Number F)) : Prop :=
  ∀ first ∈ numbers, ∀ second ∈ numbers, first.same python second = true ↔ first.repr python = second.repr python

theorem Told.mono {numbers others : List (Number F)} (told : Told python numbers) (fewer : others ⊆ numbers) :
    Told python others := fun first member second member' => told first (fewer member) second (fewer member')

theorem Told.parts {numbers others numbers' others' : List (Number F)} (told : Told python (numbers ++ others))
    (fewer : numbers' ⊆ numbers) (fewer' : others' ⊆ others) : Told python (numbers' ++ others') :=
  told.mono (List.append_subset.mpr ⟨fun _ member => List.mem_append_left _ (fewer member),
    fun _ member => List.mem_append_right _ (fewer' member)⟩)

theorem Told.first {numbers later others later' : List (Number F)}
    (told : Told python (numbers ++ later ++ (others ++ later'))) : Told python (numbers ++ others) :=
  told.parts (List.subset_append_left _ _) (List.subset_append_left _ _)

theorem Told.later {numbers later others later' : List (Number F)}
    (told : Told python (numbers ++ later ++ (others ++ later'))) : Told python (later ++ later') :=
  told.parts (List.subset_append_right _ _) (List.subset_append_right _ _)

def Atom.numbers : Atom F → List (Number F)
  | .number value => [value]
  | _ => []

theorem Atom.repr_append (floats : FloatTexts python) {first second : Atom F}
    (told : Told python (first.numbers ++ second.numbers)) {rest more : Text} (stops : Stops rest) (stops' : Stops more)
    (same : first.repr python ++ rest = second.repr python ++ more) : first.same python second = true ∧ rest = more := by
  have none_word : Word "None".toList := by simp [Word, isWord]
  cases first with
  | none =>
    cases second with
    | none => exact ⟨rfl, List.append_cancel_left same⟩
    | str text => exact absurd same (none_word.ne_reprStr _ _)
    | bytes data => exact absurd same (none_word.ne_reprBytes stops _)
    | number value =>
      have texts := (none_word.append_inj (floats.word_repr value) stops stops' same).1
      exact absurd texts.symm (floats.repr_ne_none value)
  | str text =>
    cases second with
    | none => exact absurd same.symm (none_word.ne_reprStr _ _)
    | str other =>
      obtain ⟨rfl, later⟩ := reprStr_append same
      exact ⟨by simp [Atom.same], later⟩
    | bytes data => exact absurd same (reprStr_ne_reprBytes _ _ _)
    | number value => exact absurd same.symm ((floats.word_repr value).ne_reprStr _ _)
  | bytes data =>
    cases second with
    | none => exact absurd same.symm (none_word.ne_reprBytes stops' _)
    | str text => exact absurd same.symm (reprStr_ne_reprBytes _ _ _)
    | bytes other =>
      obtain ⟨rfl, later⟩ := reprBytes_append same
      exact ⟨by simp [Atom.same], later⟩
    | number value => exact absurd same.symm ((floats.word_repr value).ne_reprBytes stops' _)
  | number value =>
    cases second with
    | none =>
      have texts := ((floats.word_repr value).append_inj none_word stops stops' same).1
      exact absurd texts (floats.repr_ne_none value)
    | str text => exact absurd same ((floats.word_repr value).ne_reprStr _ _)
    | bytes data => exact absurd same ((floats.word_repr value).ne_reprBytes stops _)
    | number other =>
      obtain ⟨texts, later⟩ := (floats.word_repr value).append_inj (floats.word_repr other) stops stops' same
      exact ⟨(told value (by simp [Atom.numbers]) other (by simp [Atom.numbers])).mpr texts, later⟩

end Atoms

section Tuples

variable {F : Type} [DecidableEq F] {python : Interpreter F}

namespace Value

mutual

def numbers : Value F → List (Number F)
  | .atom value => value.numbers
  | .list items | .tuple items | .set items | .frozenset items => numbersEach items
  | .dict entries | .object _ entries => numbersEntries entries

def numbersEach : List (Value F) → List (Number F)
  | [] => []
  | item :: items => numbers item ++ numbersEach items

def numbersEntries : List (Text × Value F) → List (Number F)
  | [] => []
  | (_, value) :: entries => numbers value ++ numbersEntries entries

end

inductive Nested : Value F → Prop
  | atom (value : Atom F) : Nested (.atom value)
  | tuple {items : List (Value F)} (each : ∀ item ∈ items, Nested item) : Nested (.tuple items)

end Value

def following : List Text → Text
  | [] => [')']
  | text :: texts => ',' :: ' ' :: (text ++ following texts)

def behindFirst : List Text → Text
  | [] => [',', ')']
  | texts => following texts

theorem commas_following (text : Text) (texts : List Text) :
    commas (text :: texts) ++ [')'] = text ++ following texts := by
  induction texts generalizing text with
  | nil => simp [commas, following]
  | cons other texts ih =>
    have later := ih other
    rw [commas] at later ⊢
    simp only [List.intercalate_cons_cons, following, List.append_assoc, later]
    rfl

theorem tupleText_cons (text : Text) (texts : List Text) :
    tupleText (text :: texts) = '(' :: (text ++ behindFirst texts) := by
  cases texts with
  | nil => simp [tupleText, behindFirst]
  | cons other texts =>
    have closed := commas_following text (other :: texts)
    simp [tupleText, behindFirst, ← closed]

theorem stops_following (texts : List Text) (rest : Text) : Stops (following texts ++ rest) := by
  cases texts with
  | nil => exact stops_close rest
  | cons text texts => exact stops_comma _

theorem stops_behindFirst (texts : List Text) (rest : Text) : Stops (behindFirst texts ++ rest) := by
  cases texts with
  | nil => exact stops_comma _
  | cons text texts => exact stops_following _ rest

namespace Value

omit [DecidableEq F] in
theorem repr_head (floats : FloatTexts python) {value : Value F} (nested : Nested value) :
    ∃ char text, value.repr python = char :: text ∧ char ≠ ')' := by
  cases nested with
  | atom value =>
    obtain ⟨char, text, split, -, close⟩ := value.repr_head floats
    exact ⟨char, text, split, close⟩
  | @tuple items =>
    rw [Value.repr, reprEach_eq_map]
    cases items.map (Value.repr python) with
    | nil => exact ⟨_, _, rfl, by decide⟩
    | cons text texts => exact ⟨_, _, tupleText_cons text texts, by decide⟩

def Readable (python : Interpreter F) (value : Value F) : Prop :=
  ∀ other : Value F, Nested other → Told python (value.numbers ++ other.numbers) → ∀ rest more, Stops rest → Stops more →
    value.repr python ++ rest = other.repr python ++ more → value.same python other = true ∧ rest = more

theorem following_append {items others : List (Value F)} (each : ∀ item ∈ items, Readable python item)
    (nested : ∀ other ∈ others, Nested other) (told : Told python (numbersEach items ++ numbersEach others))
    {rest more : Text} (same : following (items.map (Value.repr python)) ++ rest =
      following (others.map (Value.repr python)) ++ more) :
    sameEach python items others = true ∧ rest = more := by
  induction items generalizing others with
  | nil =>
    cases others with
    | nil => exact ⟨by rw [sameEach], (List.cons.inj same).2⟩
    | cons other others => exact absurd (List.cons.inj same).1 (by decide)
  | cons item items ih =>
    cases others with
    | nil => exact absurd (List.cons.inj same).1 (by decide)
    | cons other others =>
      rw [List.forall_mem_cons] at each nested
      simp only [List.map_cons, following, List.cons_append, List.append_assoc, List.cons.injEq, true_and] at same
      rw [numbersEach, numbersEach] at told
      have first := each.1 other nested.1 told.first _ _ (stops_following _ rest) (stops_following _ more) same
      have later := ih each.2 nested.2 told.later first.2
      exact ⟨by rw [sameEach, first.1, later.1]; rfl, later.2⟩

theorem behindFirst_append {items others : List (Value F)} (each : ∀ item ∈ items, Readable python item)
    (nested : ∀ other ∈ others, Nested other) (told : Told python (numbersEach items ++ numbersEach others))
    {rest more : Text} (same : behindFirst (items.map (Value.repr python)) ++ rest =
      behindFirst (others.map (Value.repr python)) ++ more) :
    sameEach python items others = true ∧ rest = more := by
  cases items with
  | nil =>
    cases others with
    | nil => exact ⟨by rw [sameEach], List.append_cancel_left same⟩
    | cons other others => exact absurd (List.cons.inj (List.cons.inj same).2).1 (by decide)
  | cons item items =>
    cases others with
    | nil => exact absurd (List.cons.inj (List.cons.inj same).2).1 (by decide)
    | cons other others => exact following_append each nested told same

/-- The text of a value that is made of tuples alone decides what the value is worth. -/
theorem readable (floats : FloatTexts python) {value : Value F} (nested : Nested value) : Readable python value := by
  induction nested with
  | atom value =>
    intro other nested told rest more stops stops' same
    cases nested with
    | atom other =>
      rw [Value.same]
      exact Atom.repr_append floats told stops stops' same
    | @tuple others =>
      obtain ⟨char, text, split, other, -⟩ := value.repr_head floats
      rw [Value.repr, split, Value.repr, reprEach_eq_map] at same
      cases texts : others.map (Value.repr python) with
      | nil =>
        rw [texts] at same
        exact absurd (List.cons.inj same).1 other
      | cons first later =>
        rw [texts, tupleText_cons] at same
        exact absurd (List.cons.inj same).1 other
  | @tuple items nested each =>
    intro other nested' told rest more stops stops' same
    cases nested' with
    | atom value =>
      obtain ⟨char, text, split, other, -⟩ := value.repr_head floats
      rw [Value.repr, Value.repr, split, reprEach_eq_map] at same
      cases texts : items.map (Value.repr python) with
      | nil =>
        rw [texts] at same
        exact absurd (List.cons.inj same).1.symm other
      | cons first later =>
        rw [texts, tupleText_cons] at same
        exact absurd (List.cons.inj same).1.symm other
    | @tuple others nested' =>
      rw [Value.repr, Value.repr, reprEach_eq_map, reprEach_eq_map] at same
      rw [Value.same]
      cases items with
      | nil =>
        cases others with
        | nil => exact ⟨by rw [sameEach], List.append_cancel_left same⟩
        | cons other others =>
          obtain ⟨char, text, split, close⟩ := repr_head floats (nested' other List.mem_cons_self)
          rw [List.map_cons, tupleText_cons, split] at same
          exact absurd (List.cons.inj (List.cons.inj same).2).1.symm close
      | cons item items =>
        cases others with
        | nil =>
          obtain ⟨char, text, split, close⟩ := repr_head floats (nested item List.mem_cons_self)
          rw [List.map_cons, tupleText_cons, split] at same
          exact absurd (List.cons.inj (List.cons.inj same).2).1 close
        | cons other others =>
          rw [List.forall_mem_cons] at each nested'
          rw [List.map_cons, List.map_cons, tupleText_cons, tupleText_cons, List.cons_append, List.cons_append,
            List.append_assoc, List.append_assoc] at same
          rw [numbers, numbers, numbersEach, numbersEach] at told
          have first := each.1 other nested'.1 told.first _ _ (stops_behindFirst _ rest) (stops_behindFirst _ more)
            (List.cons.inj same).2
          have later := behindFirst_append each.2 nested'.2 told.later first.2
          exact ⟨by rw [sameEach, first.1, later.1]; rfl, later.2⟩

theorem same_of_repr (floats : FloatTexts python) {first second : Value F} (nested : Nested first)
    (nested' : Nested second) (told : Told python (first.numbers ++ second.numbers))
    (same : first.repr python = second.repr python) : first.same python second = true := by
  have stops : Stops [] := nofun
  exact (readable floats nested second nested' told [] [] stops stops (by rw [same])).1

end Value

end Tuples

end PyValue
