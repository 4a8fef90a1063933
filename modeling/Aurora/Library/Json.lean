import Aurora.Library.Dict
import Aurora.Library.PyText
import Mathlib.Data.Char
import Mathlib.Data.List.Chain

namespace Json

open PyText

/-- What a Python text is made of. The surrogates are 0xd800 + n, and the first half of them are high ones. -/
inductive CodePoint
  | scalar (char : Char)
  | surrogate (n : Fin 0x800)
  deriving DecidableEq

abbrev Str := List CodePoint

def ofText (text : Text) : Str := text.map .scalar

theorem ofText_inj {first second : Text} : ofText first = ofText second ↔ first = second :=
  (List.map_injective_iff.mpr fun _ _ => CodePoint.scalar.inj).eq_iff

/-- A value as `json.loads` gives it. A float is left as it is written. -/
inductive Value
  | null
  | bool (value : Bool)
  | int (value : Int)
  | float (literal : Text)
  | str (text : Str)
  | list (items : List Value)
  | dict (entries : List (Str × Value))

section Dumps

def hexDigit (n : Nat) : Char := Nat.digitChar (n % 16)

def unitEscape (n : Nat) : Text :=
  ['\\', 'u', hexDigit (n / 4096), hexDigit (n / 256), hexDigit (n / 16), hexDigit n]

/-- `ESCAPE_DCT`, and what `replace` does with the characters that are not in it. -/
def escapeChar (char : Char) : Text :=
  if char = '"' then ['\\', '"']
  else if char = '\\' then ['\\', '\\']
  else if char = '\x08' then ['\\', 'b']
  else if char = '\x0c' then ['\\', 'f']
  else if char = '\n' then ['\\', 'n']
  else if char = '\r' then ['\\', 'r']
  else if char = '\t' then ['\\', 't']
  else if ' ' ≤ char ∧ char ≤ '~' then [char]
  else if char.toNat < 0x10000 then unitEscape char.toNat
  else unitEscape (0xd800 + (char.toNat - 0x10000) / 0x400) ++ unitEscape (0xdc00 + (char.toNat - 0x10000) % 0x400)

def escape : CodePoint → Text
  | .scalar char => escapeChar char
  | .surrogate n => unitEscape (0xd800 + n)

def quoted (text : Str) : Text := '"' :: (text.flatMap escape ++ ['"'])

mutual

/-- `json.dumps` without options. -/
def dumps : Value → Text
  | .null => "null".toList
  | .bool true => "true".toList
  | .bool false => "false".toList
  | .int n => decimal n
  | .float literal => literal
  | .str text => quoted text
  | .list [] => "[]".toList
  | .list (item :: items) => '[' :: (dumps item ++ dumpsItems items)
  | .dict [] => "\x7b\x7d".toList
  | .dict ((key, value) :: entries) => '\x7b' :: (quoted key ++ ':' :: ' ' :: (dumps value ++ dumpsEntries entries))

def dumpsItems : List Value → Text
  | [] => [']']
  | item :: items => ',' :: ' ' :: (dumps item ++ dumpsItems items)

def dumpsEntries : List (Str × Value) → Text
  | [] => ['\x7d']
  | (key, value) :: entries => ',' :: ' ' :: (quoted key ++ ':' :: ' ' :: (dumps value ++ dumpsEntries entries))

end

end Dumps

section Loads

def hexValue (char : Char) : Option Nat :=
  if char.isDigit then some (char.toNat - '0'.toNat)
  else if 'a' ≤ char ∧ char ≤ 'f' then some (char.toNat - 'a'.toNat + 10)
  else if 'A' ≤ char ∧ char ≤ 'F' then some (char.toNat - 'A'.toNat + 10)
  else none

def hex4 (a b c d : Char) : Option Nat := do
  return 4096 * (← hexValue a) + 256 * (← hexValue b) + 16 * (← hexValue c) + (← hexValue d)

def unit (n : Nat) : CodePoint :=
  if surrogate : 0xd800 ≤ n ∧ n < 0xe000 then .surrogate ⟨n - 0xd800, by omega⟩ else .scalar (Char.ofNat n)

def consUnit : CodePoint → Str → Str
  | .surrogate high, .surrogate low :: rest =>
    if high.val < 0x400 ∧ 0x400 ≤ low.val then
      .scalar (Char.ofNat (0x10000 + high * 0x400 + (low - 0x400))) :: rest
    else .surrogate high :: .surrogate low :: rest
  | point, rest => point :: rest

def unescape : Char → Option Char
  | '"' => some '"'
  | '\\' => some '\\'
  | '/' => some '/'
  | 'b' => some '\x08'
  | 'f' => some '\x0c'
  | 'n' => some '\n'
  | 'r' => some '\r'
  | 't' => some '\t'
  | _ => none

/-- `scanstring`, behind the opening quote: the text and what is behind the closing quote. -/
def scanString : Text → Option (Str × Text)
  | '"' :: rest => some ([], rest)
  | '\\' :: 'u' :: a :: b :: c :: d :: rest => do
    let point ← hex4 a b c d
    let (text, after) ← scanString rest
    return (consUnit (unit point) text, after)
  | '\\' :: escaped :: rest => do
    let char ← unescape escaped
    let (text, after) ← scanString rest
    return (.scalar char :: text, after)
  | char :: rest =>
    if char ≤ '\x1f' then none
    else do
      let (text, after) ← scanString rest
      return (.scalar char :: text, after)
  | [] => none

def scanDigits (text : Text) : Text × Text := text.span Char.isDigit

/-- The digits before the point, where nothing follows a zero. -/
def scanWhole : Text → Option (Text × Text)
  | '0' :: rest => some (['0'], rest)
  | text => if (scanDigits text).1 = [] then none else some (scanDigits text)

def scanFraction : Text → Text × Text
  | '.' :: rest =>
    match scanDigits rest with
    | ([], _) => ([], '.' :: rest)
    | (digits, after) => ('.' :: digits, after)
  | text => ([], text)

def scanSign : Text → Text × Text
  | '+' :: rest => (['+'], rest)
  | '-' :: rest => (['-'], rest)
  | text => ([], text)

def scanExponent : Text → Text × Text
  | e :: rest =>
    if e = 'e' ∨ e = 'E' then
      let (sign, unsigned) := scanSign rest
      match scanDigits unsigned with
      | ([], _) => ([], e :: rest)
      | (digits, after) => (e :: sign ++ digits, after)
    else ([], e :: rest)
  | [] => ([], [])

def scanUnsigned (text : Text) : Option ((Text × Text) × Text) := do
  let (whole, rest) ← scanWhole text
  let (fraction, rest) := scanFraction rest
  let (exponent, rest) := scanExponent rest
  return ((whole, fraction ++ exponent), rest)

def scanNumber : Text → Option (Value × Text)
  | '-' :: unsigned => do
    let ((whole, more), rest) ← scanUnsigned unsigned
    return (if more = [] then .int (-Nat.ofDigitChars 10 whole 0) else .float ('-' :: whole ++ more), rest)
  | unsigned => do
    let ((whole, more), rest) ← scanUnsigned unsigned
    return (if more = [] then .int (Nat.ofDigitChars 10 whole 0) else .float (whole ++ more), rest)

def isBlank (char : Char) : Bool := char = ' ' || char = '\t' || char = '\n' || char = '\r'

def skip (text : Text) : Text := text.dropWhile isBlank

def words : List (Text × Value) :=
  [("null".toList, .null), ("true".toList, .bool true), ("false".toList, .bool false),
    ("NaN".toList, .float "NaN".toList), ("Infinity".toList, .float "Infinity".toList),
    ("-Infinity".toList, .float "-Infinity".toList)]

def scanWord (text : Text) : Option (Value × Text) :=
  words.findSome? fun (word, value) => if word.isPrefixOf text then some (value, text.drop word.length) else none

def ofPairs (pairs : List (Str × Value)) : List (Str × Value) :=
  pairs.foldl (fun entries (key, value) => Collections.Dict.assign entries key value) []

mutual

def scanOnce : Nat → Text → Option (Value × Text)
  | 0, _ => none
  | _ + 1, '"' :: rest => (scanString rest).map fun (text, after) => (.str text, after)
  | fuel + 1, '[' :: rest =>
    match skip rest with
    | ']' :: after => some (.list [], after)
    | inner => (scanItems fuel inner).map fun (items, after) => (.list items, after)
  | fuel + 1, '\x7b' :: rest =>
    match skip rest with
    | '\x7d' :: after => some (.dict [], after)
    | inner => (scanEntries fuel inner).map fun (pairs, after) => (.dict (ofPairs pairs), after)
  | _ + 1, text => (scanWord text).or (scanNumber text)

def scanItems : Nat → Text → Option (List Value × Text)
  | 0, _ => none
  | fuel + 1, text => do
    let (item, rest) ← scanOnce fuel text
    match skip rest with
    | ',' :: rest =>
      let (items, after) ← scanItems fuel (skip rest)
      return (item :: items, after)
    | ']' :: after => return ([item], after)
    | _ => none

def scanEntries : Nat → Text → Option (List (Str × Value) × Text)
  | fuel + 1, '"' :: rest => do
    let (key, rest) ← scanString rest
    match skip rest with
    | ':' :: rest =>
      let (value, rest) ← scanOnce fuel (skip rest)
      match skip rest with
      | ',' :: rest =>
        let (entries, after) ← scanEntries fuel (skip rest)
        return ((key, value) :: entries, after)
      | '\x7d' :: after => return ([(key, value)], after)
      | _ => none
    | _ => none
  | _, _ => none

end

def loads (text : Text) : Option Value := do
  let (value, rest) ← scanOnce (text.length + 1) (skip text)
  if skip rest = [] then return value else none

end Loads

section Fuel

variable {α : Type} {text rest : Text}

theorem length_skip (text : Text) : (skip text).length ≤ text.length :=
  (List.dropWhile_sublist isBlank).length_le

theorem scanString_shorter {read : Str} (scanned : scanString text = some (read, rest)) :
    rest.length < text.length := by
  fun_induction scanString text generalizing read with
  | case1 after =>
    obtain ⟨-, rfl⟩ := Prod.mk.inj (Option.some.inj scanned)
    simp
  | case2 a b c d after ih =>
    obtain ⟨point, -, scanned⟩ := Option.bind_eq_some_iff.mp scanned
    obtain ⟨⟨inner, left⟩, found, eq⟩ := Option.bind_eq_some_iff.mp scanned
    obtain ⟨-, rfl⟩ := Prod.mk.inj (Option.some.inj eq)
    have := ih found
    simp only [List.length_cons]
    omega
  | case3 escaped after _ ih =>
    obtain ⟨char, -, scanned⟩ := Option.bind_eq_some_iff.mp scanned
    obtain ⟨⟨inner, left⟩, found, eq⟩ := Option.bind_eq_some_iff.mp scanned
    obtain ⟨-, rfl⟩ := Prod.mk.inj (Option.some.inj eq)
    have := ih found
    simp only [List.length_cons]
    omega
  | case4 => cases scanned
  | case5 char after _ _ _ _ ih =>
    obtain ⟨⟨inner, left⟩, found, eq⟩ := Option.bind_eq_some_iff.mp scanned
    obtain ⟨-, rfl⟩ := Prod.mk.inj (Option.some.inj eq)
    have := ih found
    simp only [List.length_cons]
    omega
  | case6 => cases scanned

theorem length_scanDigits (text : Text) : (scanDigits text).2.length ≤ text.length := by
  rw [scanDigits, List.span_eq_takeWhile_dropWhile]
  exact (List.dropWhile_sublist _).length_le

theorem scanWhole_shorter {whole : Text} (scanned : scanWhole text = some (whole, rest)) :
    rest.length < text.length := by
  unfold scanWhole at scanned
  split at scanned
  · obtain ⟨-, rfl⟩ := Prod.mk.inj (Option.some.inj scanned)
    simp
  · split_ifs at scanned with none
    have split := Option.some.inj scanned
    rw [scanDigits, List.span_eq_takeWhile_dropWhile] at none split
    obtain ⟨rfl, rfl⟩ := Prod.mk.inj split
    have whole := congrArg List.length (@List.takeWhile_append_dropWhile _ Char.isDigit text)
    have long : 0 < (text.takeWhile Char.isDigit).length := List.length_pos_of_ne_nil none
    rw [List.length_append] at whole
    omega

theorem length_scanFraction (text : Text) : (scanFraction text).2.length ≤ text.length := by
  unfold scanFraction
  split
  · next after =>
    have digits := length_scanDigits after
    split
    · exact le_rfl
    · next split =>
      simp only [split] at digits
      simp only [List.length_cons]
      omega
  · exact le_rfl

theorem length_scanSign (text : Text) : (scanSign text).2.length ≤ text.length := by
  unfold scanSign
  split <;> simp

theorem length_scanExponent (text : Text) : (scanExponent text).2.length ≤ text.length := by
  unfold scanExponent
  split
  · next e after =>
    split_ifs
    · have sign := length_scanSign after
      have digits := length_scanDigits (scanSign after).2
      dsimp only
      split
      · exact le_rfl
      · next split =>
        simp only [split] at digits
        simp only [List.length_cons]
        omega
    · exact le_rfl
  · exact le_rfl

theorem scanUnsigned_shorter {parts : Text × Text} (scanned : scanUnsigned text = some (parts, rest)) :
    rest.length < text.length := by
  obtain ⟨⟨whole, after⟩, found, eq⟩ := Option.bind_eq_some_iff.mp scanned
  obtain ⟨-, rfl⟩ := Prod.mk.inj (Option.some.inj eq)
  exact ((length_scanExponent _).trans (length_scanFraction after)).trans_lt (scanWhole_shorter found)

theorem scanNumber_shorter {value : Value} (scanned : scanNumber text = some (value, rest)) :
    rest.length < text.length := by
  unfold scanNumber at scanned
  split at scanned
  · obtain ⟨⟨⟨whole, more⟩, after⟩, found, eq⟩ := Option.bind_eq_some_iff.mp scanned
    obtain ⟨-, rfl⟩ := Prod.mk.inj (Option.some.inj eq)
    exact (scanUnsigned_shorter found).trans (by simp)
  · obtain ⟨⟨⟨whole, more⟩, after⟩, found, eq⟩ := Option.bind_eq_some_iff.mp scanned
    obtain ⟨-, rfl⟩ := Prod.mk.inj (Option.some.inj eq)
    exact scanUnsigned_shorter found

theorem scanWord_shorter {value : Value} (scanned : scanWord text = some (value, rest)) :
    rest.length < text.length := by
  obtain ⟨⟨word, worth⟩, member, found⟩ := List.exists_of_findSome?_eq_some scanned
  dsimp only at found
  split_ifs at found with matched
  obtain ⟨-, rfl⟩ := Prod.mk.inj (Option.some.inj found)
  have begins := (List.isPrefixOf_iff_prefix.mp matched).length_le
  have long : 0 < word.length := by
    have all : ∀ entry ∈ words.map Prod.fst, 0 < entry.length := by decide
    exact all word (List.mem_map_of_mem member)
  rw [List.length_drop]
  omega

/-- What is read takes no more fuel than there are characters of it, and there is one at least. -/
def Reads (scan : Nat → Text → Option (α × Text)) (fuel : Nat) : Prop :=
  ∀ ⦃text read rest⦄, scan fuel text = some (read, rest) →
    rest.length < text.length ∧ ∀ enough, text.length ≤ rest.length + enough → scan enough text = some (read, rest)

theorem Reads.behind {scan : Nat → Text → Option (α × Text)} {fuel : Nat} {read : α} (reads : Reads scan fuel)
    (found : scan fuel (skip text) = some (read, rest)) : rest.length < text.length ∧
      ∀ enough, text.length ≤ rest.length + enough → scan enough (skip text) = some (read, rest) := by
  have blank := length_skip text
  obtain ⟨shorter, again⟩ := reads found
  exact ⟨by omega, fun enough bound => again enough (by omega)⟩

theorem scanOnce_reads {fuel : Nat} (items : Reads scanItems fuel) (entries : Reads scanEntries fuel) :
    Reads scanOnce (fuel + 1) := by
  intro text read rest scanned
  suffices parts : rest.length < text.length ∧
      ∀ enough, text.length ≤ rest.length + (enough + 1) → scanOnce (enough + 1) text = some (read, rest) by
    refine ⟨parts.1, fun enough bound => ?_⟩
    obtain ⟨less, rfl⟩ := Nat.exists_eq_add_one_of_ne_zero (by omega : enough ≠ 0)
    exact parts.2 less bound
  unfold scanOnce at scanned
  split at scanned
  · cases ‹fuel + 1 = 0›
  · next after =>
    obtain ⟨⟨string, left⟩, found, eq⟩ := Option.map_eq_some_iff.mp scanned
    obtain ⟨rfl, rfl⟩ := Prod.mk.inj eq
    have shorter := scanString_shorter found
    refine ⟨shorter.trans (Nat.lt_succ_self _), fun enough _ => ?_⟩
    rw [scanOnce, found, Option.map_some]
  · next less after same =>
    obtain rfl := Nat.succ.inj same
    split at scanned
    · next closed =>
      obtain ⟨rfl, rfl⟩ := Prod.mk.inj (Option.some.inj scanned)
      have blank := length_skip after
      rw [closed, List.length_cons] at blank
      refine ⟨by rw [List.length_cons]; omega, fun enough _ => ?_⟩
      simp only [scanOnce, closed]
    · next opened =>
      obtain ⟨⟨list, left⟩, found, eq⟩ := Option.map_eq_some_iff.mp scanned
      obtain ⟨rfl, rfl⟩ := Prod.mk.inj eq
      obtain ⟨shorter, again⟩ := items.behind found
      refine ⟨shorter.trans (Nat.lt_succ_self _), fun enough bound => ?_⟩
      rw [List.length_cons] at bound
      rw [scanOnce]
      split
      · exact absurd ‹_› (opened _)
      · rw [again enough (by omega), Option.map_some]
  · next less after same =>
    obtain rfl := Nat.succ.inj same
    split at scanned
    · next closed =>
      obtain ⟨rfl, rfl⟩ := Prod.mk.inj (Option.some.inj scanned)
      have blank := length_skip after
      rw [closed, List.length_cons] at blank
      refine ⟨by rw [List.length_cons]; omega, fun enough _ => ?_⟩
      simp only [scanOnce, closed]
    · next opened =>
      obtain ⟨⟨list, left⟩, found, eq⟩ := Option.map_eq_some_iff.mp scanned
      obtain ⟨rfl, rfl⟩ := Prod.mk.inj eq
      obtain ⟨shorter, again⟩ := entries.behind found
      refine ⟨shorter.trans (Nat.lt_succ_self _), fun enough bound => ?_⟩
      rw [List.length_cons] at bound
      rw [scanOnce]
      split
      · exact absurd ‹_› (opened _)
      · rw [again enough (by omega), Option.map_some]
  · next string list dict =>
    refine ⟨?_, fun enough _ => ?_⟩
    · rcases Option.or_eq_some_iff.mp scanned with word | ⟨-, number⟩
      · exact scanWord_shorter word
      · exact scanNumber_shorter number
    · rw [scanOnce, scanned]
      · exact string
      · exact list
      · exact dict

theorem scanItems_reads {fuel : Nat} (once : Reads scanOnce fuel) (items : Reads scanItems fuel) :
    Reads scanItems (fuel + 1) := by
  intro text read rest scanned
  rw [scanItems] at scanned
  obtain ⟨⟨item, after⟩, found, scanned⟩ := Option.bind_eq_some_iff.mp scanned
  obtain ⟨shorter, again⟩ := once found
  have blank := length_skip after
  dsimp only at scanned
  split at scanned
  · next more comma =>
    obtain ⟨⟨others, left⟩, later, eq⟩ := Option.bind_eq_some_iff.mp scanned
    obtain ⟨rfl, rfl⟩ : item :: others = read ∧ left = rest := Prod.mk.inj (Option.some.inj eq)
    obtain ⟨less, repeats⟩ := items.behind later
    rw [comma, List.length_cons] at blank
    refine ⟨by omega, fun enough bound => ?_⟩
    obtain ⟨below, rfl⟩ := Nat.exists_eq_add_one_of_ne_zero (by omega : enough ≠ 0)
    rw [scanItems, again below (by omega), Option.bind_eq_bind, Option.bind_some]
    simp only [comma, repeats below (by omega), Option.bind_eq_bind, Option.bind_some, Option.pure_def]
  · next closed =>
    obtain ⟨rfl, rfl⟩ := Prod.mk.inj (Option.some.inj scanned)
    rw [closed, List.length_cons] at blank
    refine ⟨by omega, fun enough bound => ?_⟩
    obtain ⟨below, rfl⟩ := Nat.exists_eq_add_one_of_ne_zero (by omega : enough ≠ 0)
    rw [scanItems, again below (by omega), Option.bind_eq_bind, Option.bind_some]
    simp only [closed, Option.pure_def]
  · cases scanned

theorem scanEntries_reads {fuel : Nat} (once : Reads scanOnce fuel) (entries : Reads scanEntries fuel) :
    Reads scanEntries (fuel + 1) := by
  intro text read rest scanned
  unfold scanEntries at scanned
  split at scanned
  · next less behind same =>
    obtain rfl := Nat.succ.inj same
    obtain ⟨⟨key, after⟩, found, scanned⟩ := Option.bind_eq_some_iff.mp scanned
    have named := scanString_shorter found
    have blank := length_skip after
    dsimp only at scanned
    split at scanned
    · next start colon =>
      obtain ⟨⟨value, behind⟩, valued, scanned⟩ := Option.bind_eq_some_iff.mp scanned
      obtain ⟨shorter, again⟩ := once.behind valued
      have blanks := length_skip behind
      rw [colon, List.length_cons] at blank
      dsimp only at scanned
      split at scanned
      · next more comma =>
        obtain ⟨⟨others, left⟩, later, eq⟩ := Option.bind_eq_some_iff.mp scanned
        obtain ⟨rfl, rfl⟩ : (key, value) :: others = read ∧ left = rest := Prod.mk.inj (Option.some.inj eq)
        obtain ⟨less, repeats⟩ := entries.behind later
        rw [comma, List.length_cons] at blanks
        rw [List.length_cons]
        refine ⟨by omega, fun enough bound => ?_⟩
        obtain ⟨below, rfl⟩ := Nat.exists_eq_add_one_of_ne_zero (by omega : enough ≠ 0)
        rw [scanEntries, found, Option.bind_eq_bind, Option.bind_some]
        simp only [colon, comma, again below (by omega), repeats below (by omega), Option.bind_eq_bind,
          Option.bind_some, Option.pure_def]
      · next closed =>
        obtain ⟨rfl, rfl⟩ := Prod.mk.inj (Option.some.inj scanned)
        rw [closed, List.length_cons] at blanks
        rw [List.length_cons]
        refine ⟨by omega, fun enough bound => ?_⟩
        obtain ⟨below, rfl⟩ := Nat.exists_eq_add_one_of_ne_zero (by omega : enough ≠ 0)
        rw [scanEntries, found, Option.bind_eq_bind, Option.bind_some]
        simp only [colon, closed, again below (by omega), Option.bind_eq_bind, Option.bind_some, Option.pure_def]
      · cases scanned
    · cases scanned
  · cases scanned

theorem scans_read (fuel : Nat) : Reads scanOnce fuel ∧ Reads scanItems fuel ∧ Reads scanEntries fuel := by
  induction fuel with
  | zero =>
    refine ⟨?_, ?_, ?_⟩
    · intro text read rest scanned
      rw [scanOnce] at scanned
      cases scanned
    · intro text read rest scanned
      rw [scanItems] at scanned
      cases scanned
    · intro text read rest scanned
      unfold scanEntries at scanned
      cases scanned
  | succ fuel ih =>
    obtain ⟨once, items, entries⟩ := ih
    exact ⟨scanOnce_reads items entries, scanItems_reads once items, scanEntries_reads once entries⟩

/-- The fuel of `loads` is enough: whatever is read with any other is read with it. -/
theorem loads_fuel {fuel : Nat} {value : Value} (scanned : scanOnce fuel (skip text) = some (value, rest))
    (ended : skip rest = []) : loads text = some value := by
  have again := ((scans_read fuel).1.behind scanned).2 (text.length + 1) (by omega)
  rw [loads, again, Option.bind_eq_bind, Option.bind_some]
  exact if_pos ended

end Fuel
section Strings

/-- What there is once every high surrogate before a low one has made a character with it. -/
def joined (text : Str) : Str := text.foldr consUnit []

theorem hexValue_hexDigit (n : Nat) : hexValue (hexDigit n) = some (n % 16) := by
  have small : ∀ m : Fin 16, hexValue (Nat.digitChar m) = some m.val := by decide
  exact small ⟨n % 16, Nat.mod_lt n (by decide)⟩

theorem hex4_hexDigit {n : Nat} (small : n < 0x10000) :
    hex4 (hexDigit (n / 4096)) (hexDigit (n / 256)) (hexDigit (n / 16)) (hexDigit n) = some n := by
  simp only [hex4, hexValue_hexDigit, Option.bind_eq_bind, Option.bind_some, Option.pure_def, Option.some.injEq]
  omega

variable {text : Str} {after rest : Text}

theorem scanString_unit {n : Nat} (small : n < 0x10000) (scanned : scanString rest = some (text, after)) :
    scanString (unitEscape n ++ rest) = some (consUnit (unit n) text, after) := by
  simp [unitEscape, scanString, hex4_hexDigit small, scanned]

theorem toNat_lt (char : Char) : char.toNat < 0x110000 := by
  rcases char.valid with small | ⟨_, small⟩
  · exact small.trans (by decide)
  · exact small

theorem toNat_not_surrogate (char : Char) : ¬ (0xd800 ≤ char.toNat ∧ char.toNat < 0xe000) := by
  rcases char.valid with small | ⟨large, _⟩
  · exact fun surrogate => absurd small (Nat.not_lt.mpr surrogate.1)
  · exact fun surrogate => absurd surrogate.2 (Nat.not_lt.mpr large)

theorem unit_toNat (char : Char) : unit char.toNat = .scalar char := by
  rw [unit, dif_neg (toNat_not_surrogate char), Char.ofNat_toNat]

theorem unit_surrogate (n : Fin 0x800) : unit (0xd800 + n) = .surrogate n := by
  have inside : 0xd800 ≤ 0xd800 + n.val ∧ 0xd800 + n.val < 0xe000 := by omega
  have cancel : 0xd800 + n.val - 0xd800 = n.val := by omega
  simp only [unit, dif_pos inside, cancel]

theorem consUnit_pair {char : Char} (large : 0x10000 ≤ char.toNat) :
    consUnit (unit (0xd800 + (char.toNat - 0x10000) / 0x400))
      (consUnit (unit (0xdc00 + (char.toNat - 0x10000) % 0x400)) text) = .scalar char :: text := by
  have bound := toNat_lt char
  have high : unit (0xd800 + (char.toNat - 0x10000) / 0x400) =
      .surrogate ⟨(char.toNat - 0x10000) / 0x400, by omega⟩ := unit_surrogate ⟨_, by omega⟩
  have low : unit (0xdc00 + (char.toNat - 0x10000) % 0x400) =
      .surrogate ⟨0x400 + (char.toNat - 0x10000) % 0x400, by omega⟩ := by
    have shifted (k : Nat) : 0xdc00 + k = 0xd800 + (0x400 + k) := by omega
    rw [shifted]
    exact unit_surrogate ⟨_, by omega⟩
  have second : consUnit (.surrogate ⟨0x400 + (char.toNat - 0x10000) % 0x400, by omega⟩) text =
      .surrogate ⟨0x400 + (char.toNat - 0x10000) % 0x400, by omega⟩ :: text := by
    cases text with
    | nil => rfl
    | cons point rest => cases point <;> simp [consUnit]
  rw [high, low, second, consUnit, if_pos (by simp; omega)]
  have whole : 0x10000 + (char.toNat - 0x10000) / 0x400 * 0x400 +
      (0x400 + (char.toNat - 0x10000) % 0x400 - 0x400) = char.toNat := by
    omega
  simp only [whole, Char.ofNat_toNat]

theorem consUnit_scalar (char : Char) (text : Str) : consUnit (.scalar char) text = .scalar char :: text := by
  cases text <;> rfl

theorem scanString_escapeChar (char : Char) (scanned : scanString rest = some (text, after)) :
    scanString (escapeChar char ++ rest) = some (.scalar char :: text, after) := by
  unfold escapeChar
  split_ifs with quote backslash back form line carriage tab plain small
  · simp [scanString, unescape, scanned, quote]
  · simp [scanString, unescape, scanned, backslash]
  · simp [scanString, unescape, scanned, back]
  · simp [scanString, unescape, scanned, form]
  · simp [scanString, unescape, scanned, line]
  · simp [scanString, unescape, scanned, carriage]
  · simp [scanString, unescape, scanned, tab]
  · have visible : ¬ char ≤ '\x1f' := fun control => absurd (plain.1.trans control) (by decide)
    simp [scanString, scanned, backslash, visible]
  · rw [scanString_unit small scanned, unit_toNat, consUnit_scalar]
  · have large : 0x10000 ≤ char.toNat := Nat.not_lt.mp small
    have bound := toNat_lt char
    rw [List.append_assoc, scanString_unit (by omega) (scanString_unit (by omega) scanned), consUnit_pair large]

theorem scanString_escape (point : CodePoint) (scanned : scanString rest = some (text, after)) :
    scanString (escape point ++ rest) = some (consUnit point text, after) := by
  cases point with
  | scalar char => rw [escape, scanString_escapeChar char scanned, consUnit_scalar]
  | surrogate n => rw [escape, scanString_unit (by omega) scanned, unit_surrogate]

theorem scanString_quoted (text : Str) (rest : Text) :
    scanString (text.flatMap escape ++ '"' :: rest) = some (joined text, rest) := by
  induction text with
  | nil => simp [scanString, joined]
  | cons point text ih =>
    rw [List.flatMap_cons, List.append_assoc, scanString_escape point ih]
    rfl

def Apart : CodePoint → CodePoint → Prop
  | .surrogate high, .surrogate low => ¬ (high.val < 0x400 ∧ 0x400 ≤ low.val)
  | _, _ => True

instance : DecidableRel Apart := by
  intro first second
  cases first <;> cases second <;> unfold Apart <;> infer_instance

theorem consUnit_eq_cons_iff {point : CodePoint} :
    consUnit point text = point :: text ↔ ∀ next ∈ text.head?, Apart point next := by
  cases point with
  | scalar char => simp [consUnit_scalar, Apart]
  | surrogate high =>
    cases text with
    | nil => simp [consUnit]
    | cons next rest =>
      cases next with
      | scalar char => simp [consUnit, Apart]
      | surrogate low =>
        simp only [consUnit, List.head?_cons, Option.mem_some_iff, forall_eq', Apart]
        split_ifs with pair
        · simp [pair]
        · exact iff_of_true rfl pair

/-- Exactly the texts without a high surrogate directly before a low one are what they are read back as. -/
theorem joined_eq_iff : joined text = text ↔ text.IsChain Apart := by
  induction text with
  | nil => simp [joined]
  | cons point rest ih =>
    rw [List.isChain_cons, ← ih]
    change consUnit point (joined rest) = point :: rest ↔ _
    constructor
    · intro same
      have kept : joined rest = rest := by
        cases point with
        | scalar char => simpa [consUnit_scalar] using same
        | surrogate high =>
          unfold consUnit at same
          split at same
          · split_ifs at same
            · cases same
            · rename_i eq _
              exact eq.trans (List.cons.inj same).2
          · exact (List.cons.inj same).2
      rw [kept] at same
      exact ⟨consUnit_eq_cons_iff.mp same, kept⟩
    · intro ⟨apart, kept⟩
      rw [kept]
      exact consUnit_eq_cons_iff.mpr apart

end Strings

section Numbers

/-- No number goes on with it. -/
def Ends (rest : Text) : Prop :=
  ∀ char ∈ rest.head?, char.isDigit = false ∧ char ≠ '.' ∧ char ≠ 'e' ∧ char ≠ 'E'

theorem scanDigits_append {digits rest : Text} (all : ∀ char ∈ digits, char.isDigit = true) (ends : Ends rest) :
    scanDigits (digits ++ rest) = (digits, rest) := by
  have stops : ∀ char ∈ rest.head?, char.isDigit = false := fun char head => (ends char head).1
  have first : rest.takeWhile Char.isDigit = [] := by
    cases rest with
    | nil => rfl
    | cons char rest => simp [stops char rfl]
  have second : rest.dropWhile Char.isDigit = rest := by
    cases rest with
    | nil => rfl
    | cons char rest => simp [stops char rfl]
  rw [scanDigits, List.span_eq_takeWhile_dropWhile, List.takeWhile_append_of_pos all, List.dropWhile_append_of_pos all,
    first, second, List.append_nil]

theorem scanFraction_ends {rest : Text} (ends : Ends rest) : scanFraction rest = ([], rest) := by
  unfold scanFraction
  split
  · exact absurd rfl (ends '.' rfl).2.1
  · rfl

theorem scanExponent_ends {rest : Text} (ends : Ends rest) : scanExponent rest = ([], rest) := by
  cases rest with
  | nil => rfl
  | cons char rest =>
    obtain ⟨-, -, lower, upper⟩ := ends char rfl
    simp [scanExponent, lower, upper]

theorem digitChar_ne_zero {n : Nat} (positive : n ≠ 0) (small : n < 10) : Nat.digitChar n ≠ '0' := by
  have all : ∀ m : Fin 10, m.val ≠ 0 → Nat.digitChar m ≠ '0' := by decide
  exact all ⟨n, small⟩ positive

theorem toDigits_head (n : Nat) (positive : n ≠ 0) : (Nat.toDigits 10 n).head? ≠ some '0' := by
  induction n using Nat.strong_induction_on with
  | _ n ih =>
    by_cases small : n < 10
    · rw [Nat.toDigits_of_lt_base small]
      simpa using digitChar_ne_zero positive small
    · have less : n / 10 < n := Nat.div_lt_self (Nat.pos_of_ne_zero positive) (by decide)
      have head := ih (n / 10) less (by omega)
      rw [Nat.toDigits_of_base_le (by decide) (Nat.not_lt.mp small), List.head?_append_of_ne_nil _ Nat.toDigits_ne_nil]
      exact head

theorem isDigit_toDigits (n : Nat) : ∀ char ∈ Nat.toDigits 10 n, char.isDigit = true :=
  fun _ member => Nat.isDigit_of_mem_toDigits (by decide) (by decide) member

theorem ne_of_isDigit {char letter : Char} (digit : char.isDigit = true) (other : letter.isDigit = false) :
    char ≠ letter := by
  rintro rfl
  simp [digit] at other

theorem toDigits_cons (n : Nat) : ∃ char more, Nat.toDigits 10 n = char :: more ∧ char.isDigit = true := by
  obtain ⟨char, more, eq⟩ := List.exists_cons_of_ne_nil (@Nat.toDigits_ne_nil n 10)
  exact ⟨char, more, eq, isDigit_toDigits n char (eq ▸ List.mem_cons_self)⟩

theorem scanWhole_toDigits (n : Nat) {rest : Text} (ends : Ends rest) :
    scanWhole (Nat.toDigits 10 n ++ rest) = some (Nat.toDigits 10 n, rest) := by
  by_cases zero : n = 0
  · subst zero
    rfl
  · have leading : ∀ more, Nat.toDigits 10 n ++ rest = '0' :: more → False := by
      intro more eq
      obtain ⟨char, digits, shown, -⟩ := toDigits_cons n
      rw [shown, List.cons_append, List.cons.injEq] at eq
      exact toDigits_head n zero (by rw [shown, eq.1]; rfl)
    rw [scanWhole, scanDigits_append (isDigit_toDigits n) ends, if_neg Nat.toDigits_ne_nil]
    exact leading

theorem scanUnsigned_toDigits (n : Nat) {rest : Text} (ends : Ends rest) :
    scanUnsigned (Nat.toDigits 10 n ++ rest) = some ((Nat.toDigits 10 n, []), rest) := by
  simp [scanUnsigned, scanWhole_toDigits n ends, scanFraction_ends ends, scanExponent_ends ends]

theorem scanNumber_decimal (n : Int) {rest : Text} (ends : Ends rest) :
    scanNumber (decimal n ++ rest) = some (.int n, rest) := by
  rw [decimal]
  split_ifs with negative
  · have value : -(n.natAbs : Int) = n := by omega
    simp only [List.cons_append, scanNumber, scanUnsigned_toDigits _ ends, Option.bind_eq_bind, Option.bind_some,
      Option.pure_def, if_true, Nat.ofDigitChars_ten_toDigits, value]
  · have unsigned : ∀ more, Nat.toDigits 10 n.natAbs ++ rest = '-' :: more → False := by
      intro more eq
      obtain ⟨char, digits, shown, digit⟩ := toDigits_cons n.natAbs
      rw [shown, List.cons_append, List.cons.injEq] at eq
      exact ne_of_isDigit digit (by decide) eq.1
    have value : (n.natAbs : Int) = n := by omega
    rw [scanNumber]
    · simp only [scanUnsigned_toDigits _ ends, Option.bind_eq_bind, Option.bind_some, Option.pure_def, if_true,
        Nat.ofDigitChars_ten_toDigits, value]
    · exact unsigned

theorem scanWord_decimal (n : Int) (rest : Text) : scanWord (decimal n ++ rest) = none := by
  obtain ⟨char, digits, shown, digit⟩ := toDigits_cons n.natAbs
  have other (letter : Char) (plain : letter.isDigit = false) : letter ≠ char := (ne_of_isDigit digit plain).symm
  rw [decimal, shown]
  split_ifs
  · simp [scanWord, words, other 'I' (by decide)]
  · simp [scanWord, words, other 'n' (by decide), other 't' (by decide), other 'f' (by decide),
      other 'N' (by decide), other 'I' (by decide), other '-' (by decide)]

end Numbers

section Values

mutual

/-- It is read back as it is. Floats are left out: how one is written is not looked at here. -/
def Value.Plain : Value → Prop
  | .null | .bool _ | .int _ => True
  | .float _ => False
  | .str text => joined text = text
  | .list items => PlainItems items
  | .dict entries => (entries.map Prod.fst).Nodup ∧ PlainEntries entries

def PlainItems : List Value → Prop
  | [] => True
  | item :: items => item.Plain ∧ PlainItems items

def PlainEntries : List (Str × Value) → Prop
  | [] => True
  | (key, value) :: entries => joined key = key ∧ value.Plain ∧ PlainEntries entries

end

theorem foldl_assign {κ ν : Type} [DecidableEq κ] (later earlier : List (κ × ν))
    (distinct : ((earlier ++ later).map Prod.fst).Nodup) :
    later.foldl (fun entries (key, value) => Collections.Dict.assign entries key value) earlier = earlier ++ later := by
  induction later generalizing earlier with
  | nil => exact (List.append_nil earlier).symm
  | cons entry later ih =>
    obtain ⟨key, value⟩ := entry
    have fresh : key ∉ earlier.map Prod.fst := by
      rw [List.map_append, List.nodup_append] at distinct
      intro member
      exact distinct.2.2 _ member _ List.mem_cons_self rfl
    simp only [List.foldl_cons, Collections.Dict.assign_new earlier value fresh]
    rw [ih, List.append_assoc, List.singleton_append]
    rwa [List.append_assoc, List.singleton_append]

theorem ofPairs_nodup {entries : List (Str × Value)} (distinct : (entries.map Prod.fst).Nodup) :
    ofPairs entries = entries :=
  foldl_assign entries [] distinct

theorem foldl_set {κ ν : Type} [DecidableEq κ] (dict : Collections.Dict κ ν) :
    dict.entries.foldl (fun all (key, value) => all.set key value) .empty = dict := by
  have filed (entries : List (κ × ν)) (all : Collections.Dict κ ν) :
      (entries.foldl (fun all (key, value) => all.set key value) all).entries =
        entries.foldl (fun entries (key, value) => Collections.Dict.assign entries key value) all.entries := by
    induction entries generalizing all with
    | nil => rfl
    | cons entry entries ih => exact ih _
  have same := (filed dict.entries .empty).trans (foldl_assign dict.entries [] dict.distinct)
  have inj {first second : Collections.Dict κ ν} (same : first.entries = second.entries) : first = second := by
    cases first
    cases second
    cases same
    rfl
  exact inj same

/-- A value begins with a character that is neither blank nor the end of a list. -/
theorem dumps_cons {value : Value} (plain : value.Plain) :
    ∃ char more, dumps value = char :: more ∧ isBlank char = false ∧ char ≠ ']' := by
  cases value with
  | null => exact ⟨'n', _, rfl, by decide, by decide⟩
  | bool truth => cases truth <;> exact ⟨_, _, rfl, by decide, by decide⟩
  | int n =>
    obtain ⟨char, digits, shown, digit⟩ := toDigits_cons n.natAbs
    rw [dumps, decimal]
    split_ifs
    · exact ⟨'-', _, rfl, by decide, by decide⟩
    · have other (letter : Char) : letter.isDigit = false → char ≠ letter := ne_of_isDigit digit
      refine ⟨char, digits, shown, ?_, other ']' (by decide)⟩
      simp [isBlank, other ' ' (by decide), other '\t' (by decide), other '\n' (by decide), other '\r' (by decide)]
  | float literal => exact plain.elim
  | str text => exact ⟨'"', _, rfl, by decide, by decide⟩
  | list items => cases items <;> exact ⟨'[', _, rfl, by decide, by decide⟩
  | dict entries => cases entries <;> exact ⟨'\x7b', _, rfl, by decide, by decide⟩

theorem skip_cons {char : Char} (more : Text) (visible : isBlank char = false) :
    skip (char :: more) = char :: more := by
  simp [skip, visible]

theorem skip_dumps {value : Value} (plain : value.Plain) (rest : Text) :
    skip (dumps value ++ rest) = dumps value ++ rest := by
  obtain ⟨char, more, shown, visible, -⟩ := dumps_cons plain
  rw [shown]
  exact skip_cons _ visible

theorem ends_cons {char : Char} {rest : Text} (other : char.isDigit = false ∧ char ≠ '.' ∧ char ≠ 'e' ∧ char ≠ 'E') :
    Ends (char :: rest) := by
  intro first head
  obtain rfl := Option.some.inj head
  exact other

theorem ends_items (items : List Value) (rest : Text) : Ends (dumpsItems items ++ rest) := by
  cases items <;> exact ends_cons (by decide)

theorem ends_entries (entries : List (Str × Value)) (rest : Text) : Ends (dumpsEntries entries ++ rest) := by
  cases entries <;> exact ends_cons (by decide)

theorem quoted_append (text : Str) (rest : Text) :
    quoted text ++ rest = '"' :: (text.flatMap escape ++ '"' :: rest) := by
  rw [quoted, List.cons_append, List.append_assoc, List.singleton_append]

theorem skip_blank (rest : Text) : skip (' ' :: rest) = skip rest := by
  simp [skip, isBlank]

theorem skip_quoted (key : Str) (rest : Text) : skip (quoted key ++ rest) = quoted key ++ rest :=
  skip_cons _ (by decide)

theorem scanOnce_decimal (fuel : Nat) (n : Int) {rest : Text} (ends : Ends rest) :
    scanOnce (fuel + 1) (decimal n ++ rest) = some (.int n, rest) := by
  have first : ∀ char ∈ (decimal n ++ rest).head?, char ≠ '"' ∧ char ≠ '[' ∧ char ≠ '\x7b' := by
    obtain ⟨char, digits, shown, digit⟩ := toDigits_cons n.natAbs
    have other (letter : Char) : letter.isDigit = false → char ≠ letter := ne_of_isDigit digit
    rw [decimal, shown]
    split_ifs
    · rintro _ ⟨⟩
      decide
    · rintro _ ⟨⟩
      exact ⟨other '"' (by decide), other '[' (by decide), other '\x7b' (by decide)⟩
  rw [scanOnce, scanWord_decimal, scanNumber_decimal n ends, Option.none_or]
  · intro more eq
    exact (first '"' (by rw [eq]; rfl)).1 rfl
  · intro more eq
    exact (first '[' (by rw [eq]; rfl)).2.1 rfl
  · intro more eq
    exact (first '\x7b' (by rw [eq]; rfl)).2.2 rfl

mutual

theorem scanOnce_dumps : ∀ (value : Value) (fuel : Nat) (rest : Text), value.Plain → Ends rest →
    (dumps value).length ≤ fuel → scanOnce (fuel + 1) (dumps value ++ rest) = some (value, rest)
  | .null, _, _, _, _, _ => rfl
  | .bool true, _, _, _, _, _ => rfl
  | .bool false, _, _, _, _, _ => rfl
  | .int n, fuel, _, _, ends, _ => scanOnce_decimal fuel n ends
  | .float _, _, _, plain, _, _ => plain.elim
  | .str text, fuel, rest, plain, _, _ => by
    rw [dumps, quoted_append, scanOnce, scanString_quoted, plain]
    rfl
  | .list [], _, _, _, _, _ => rfl
  | .list (item :: items), fuel, rest, plain, _, enough => by
    obtain ⟨char, more, shown, visible, other⟩ := dumps_cons plain.1
    simp only [dumps, List.length_cons] at enough
    obtain ⟨less, rfl⟩ := Nat.exists_eq_add_one_of_ne_zero (by omega : fuel ≠ 0)
    have scanned := scanItems_dumps item items less rest plain.1 plain.2 (by omega)
    rw [dumps, List.cons_append, List.append_assoc, scanOnce, skip_dumps plain.1, shown, List.cons_append]
    rw [shown, List.cons_append] at scanned
    simp [other, scanned]
  | .dict [], _, _, _, _, _ => rfl
  | .dict ((key, value) :: entries), fuel, rest, plain, _, enough => by
    obtain ⟨distinct, named, plain, others⟩ := plain
    simp only [dumps, List.length_cons] at enough
    obtain ⟨less, rfl⟩ := Nat.exists_eq_add_one_of_ne_zero (by omega : fuel ≠ 0)
    have scanned := scanEntries_dumps key value entries less rest named plain others (by omega)
    simp only [dumps, List.cons_append, List.append_assoc, scanOnce, skip_quoted]
    rw [quoted_append] at scanned ⊢
    simp [scanned, ofPairs_nodup distinct]
termination_by _ fuel => fuel

theorem scanItems_dumps : ∀ (item : Value) (items : List Value) (fuel : Nat) (rest : Text), item.Plain →
    PlainItems items → (dumps item ++ dumpsItems items).length ≤ fuel →
    scanItems (fuel + 1) (dumps item ++ (dumpsItems items ++ rest)) = some (item :: items, rest)
  | item, [], fuel, rest, plain, others, enough => by
    simp only [List.length_append, dumpsItems, List.length_singleton] at enough
    obtain ⟨less, rfl⟩ := Nat.exists_eq_add_one_of_ne_zero (by omega : fuel ≠ 0)
    have scanned := scanOnce_dumps item less (dumpsItems [] ++ rest) plain (ends_items [] rest) (by omega)
    rw [scanItems, scanned, Option.bind_eq_bind, Option.bind_some, dumpsItems, List.singleton_append]
    dsimp only
    rw [skip_cons _ (by decide)]
    rfl
  | item, next :: items, fuel, rest, plain, others, enough => by
    simp only [List.length_append, dumpsItems, List.length_cons] at enough
    obtain ⟨less, rfl⟩ := Nat.exists_eq_add_one_of_ne_zero (by omega : fuel ≠ 0)
    have scanned := scanOnce_dumps item less (dumpsItems (next :: items) ++ rest) plain
      (ends_items (next :: items) rest) (by omega)
    have later := scanItems_dumps next items less rest others.1 others.2 (by simp only [List.length_append]; omega)
    rw [scanItems, scanned, Option.bind_eq_bind, Option.bind_some]
    simp only [dumpsItems, List.cons_append, List.append_assoc]
    rw [skip_cons _ (by decide)]
    simp only [skip_blank, skip_dumps others.1, later, Option.bind_some, Option.pure_def, Option.bind_eq_bind]
termination_by _ _ fuel => fuel

theorem scanEntries_dumps : ∀ (key : Str) (value : Value) (entries : List (Str × Value)) (fuel : Nat) (rest : Text),
    joined key = key → value.Plain → PlainEntries entries →
    (quoted key ++ ':' :: ' ' :: (dumps value ++ dumpsEntries entries)).length ≤ fuel →
    scanEntries (fuel + 1) (quoted key ++ ':' :: ' ' :: (dumps value ++ (dumpsEntries entries ++ rest))) =
      some ((key, value) :: entries, rest)
  | key, value, [], fuel, rest, named, plain, others, enough => by
    simp only [List.length_append, List.length_cons, dumpsEntries] at enough
    obtain ⟨less, rfl⟩ := Nat.exists_eq_add_one_of_ne_zero (by omega : fuel ≠ 0)
    have scanned := scanOnce_dumps value less (dumpsEntries [] ++ rest) plain (ends_entries [] rest) (by omega)
    rw [quoted_append, scanEntries, scanString_quoted, named, Option.bind_eq_bind, Option.bind_some]
    dsimp only
    rw [skip_cons _ (by decide)]
    simp only [skip_blank, skip_dumps plain, scanned, Option.bind_eq_bind, Option.bind_some]
    rw [dumpsEntries, List.singleton_append, skip_cons _ (by decide)]
    rfl
  | key, value, (next, held) :: entries, fuel, rest, named, plain, others, enough => by
    simp only [List.length_append, List.length_cons, dumpsEntries] at enough
    obtain ⟨less, rfl⟩ := Nat.exists_eq_add_one_of_ne_zero (by omega : fuel ≠ 0)
    have scanned := scanOnce_dumps value less (dumpsEntries ((next, held) :: entries) ++ rest) plain
      (ends_entries ((next, held) :: entries) rest) (by omega)
    have later := scanEntries_dumps next held entries less rest others.1 others.2.1 others.2.2
      (by simp only [List.length_append, List.length_cons]; omega)
    rw [quoted_append, scanEntries, scanString_quoted, named, Option.bind_eq_bind, Option.bind_some]
    dsimp only
    rw [skip_cons _ (by decide)]
    simp only [skip_blank, skip_dumps plain, scanned, Option.bind_eq_bind, Option.bind_some]
    simp only [dumpsEntries, List.cons_append, List.append_assoc]
    rw [skip_cons _ (by decide)]
    simp only [skip_blank, skip_quoted, later, Option.bind_some, Option.pure_def]
termination_by _ _ _ fuel => fuel

end

/-- What has been written is read back. -/
theorem loads_dumps {value : Value} (plain : value.Plain) : loads (dumps value) = some value := by
  have scanned := scanOnce_dumps value (dumps value).length [] plain nofun le_rfl
  have start := skip_dumps plain []
  rw [List.append_nil] at scanned start
  rw [← start] at scanned
  exact loads_fuel scanned rfl

end Values

end Json
