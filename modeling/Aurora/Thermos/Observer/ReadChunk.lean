import Aurora.Library.Replay
import Aurora.Library.Utf8
import Aurora.Client.Cli.Options

namespace Aurora.Thermos.Observer

open PyText Utf8 Replay
open Aurora.Client.Cli (Unicode)

/-- An offset or a length, as a handler gets it from the query or as other code gives it. -/
inductive Argument
  | none
  | int (number : Int)
  | text (chars : Text)
  deriving DecidableEq, Repr

namespace Argument

def orMinusOne : Argument → Argument
  | .none => .int (-1)
  | .int number => if number = 0 then .int (-1) else .int number
  | .text chars => if chars = [] then .int (-1) else .text chars

/-- `int(argument)`, which is none for a TypeError or a ValueError. -/
def toInt (unicode : Unicode) : Argument → Option Int
  | .none => Option.none
  | .int number => some number
  | .text chars => Client.Cli.int unicode chars

end Argument

inductive Stored
  | notAFile
  /-- `os.stat` fails. -/
  | gone
  /-- `open` fails. -/
  | locked (size : Nat)
  /-- `fp.read` fails. -/
  | unreadable (size : Nat)
  | contents (bytes : List UInt8)

inductive ReadError
  | osError
  /-- 'read length must be non-negative or -1' -/
  | valueError
  deriving DecidableEq, Repr

inductive Chunk
  /-- The empty dictionary. -/
  | nothing
  | read (offset length : Int) (data : Option Text)
  deriving DecidableEq, Repr

def replace (char : Char) (text data : Text) : Text := data.flatMap fun c => if c = char then text else [c]

def escape (data : Text) : Text :=
  replace '<' "&lt;".toList (replace '>' "&gt;".toList (replace '&' "&amp;".toList data))

/-- `os.stat` of a file, none where there is none or the call fails. -/
def Stored.size : Stored → Option Nat
  | .notAFile | .gone => none
  | .locked size | .unreadable size => some size
  | .contents bytes => some bytes.length

/-- The file is opened and read from the offset on; none where `fp.read` fails. -/
def Stored.readFrom (offset length : Int) : Stored → Except ReadError (Option (List UInt8))
  | .notAFile | .gone | .locked _ => .error .osError
  | .unreadable _ => if offset < 0 then .error .osError else if length < -1 then .error .valueError else .ok none
  | .contents bytes =>
    if offset < 0 then .error .osError
    else if length < -1 then .error .valueError
    else if length = -1 then .ok (some (bytes.drop offset.toNat))
    else .ok (some ((bytes.drop offset.toNat).take length.toNat))

def readAt (stored : Stored) (size offset length : Int) : Except ReadError Chunk :=
  let offset := if offset = -1 then size else offset
  let length := if length = -1 then size - offset else length
  (stored.readFrom offset length).map fun
    | none => .nothing
    | some [] => .read offset 0 none
    | some data => .read offset data.length (some (escape (decode data)))

def readChunk (unicode : Unicode) (stored : Stored) (offset length : Argument) : Except ReadError Chunk :=
  match length.orMinusOne.toInt unicode, offset.orMinusOne.toInt unicode with
  | some length, some offset =>
    match stored.size with
    | none => .ok .nothing
    | some size => readAt stored size offset length
  | _, _ => .ok .nothing

def Chunk.text : Chunk → Text
  | .nothing => []
  | .read _ _ data => data.getD []

def Chunk.length : Chunk → Int
  | .nothing => 0
  | .read _ length _ => length

section Escape

variable {data other : Text}

def escapeChar (c : Char) : Text :=
  if c = '&' then "&amp;".toList else if c = '>' then "&gt;".toList else if c = '<' then "&lt;".toList else [c]

theorem escape_eq_flatMap (data : Text) : escape data = data.flatMap escapeChar := by
  simp only [escape, replace, List.flatMap_assoc]
  congr 1
  funext c
  rcases em (c = '&') with rfl | amp
  · rfl
  · rcases em (c = '>') with rfl | greater
    · rfl
    · rw [if_neg amp, List.flatMap_singleton, if_neg greater, List.flatMap_singleton, escapeChar, if_neg amp,
        if_neg greater]

theorem escape_append (data other : Text) : escape (data ++ other) = escape data ++ escape other := by
  simp only [escape_eq_flatMap, List.flatMap_append]

theorem escapeChar_cases (c : Char) : c = '&' ∨ c = '>' ∨ c = '<' ∨ escapeChar c = [c] ∧ c ≠ '&' := by
  by_cases amp : c = '&'
  · exact .inl amp
  · by_cases greater : c = '>'
    · exact .inr (.inl greater)
    · by_cases less : c = '<'
      · exact .inr (.inr (.inl less))
      · exact .inr (.inr (.inr ⟨by rw [escapeChar, if_neg amp, if_neg greater, if_neg less], amp⟩))

theorem escape_cons_ne_nil (c : Char) (data : Text) : (c :: data).flatMap escapeChar ≠ [] := by
  rw [List.flatMap_cons]
  rcases escapeChar_cases c with rfl | rfl | rfl | ⟨plain, -⟩
  · exact List.cons_ne_nil _ _
  · exact List.cons_ne_nil _ _
  · exact List.cons_ne_nil _ _
  · rw [plain]
    exact List.cons_ne_nil _ _

theorem escape_cons_inj {c d : Char} (same : (c :: data).flatMap escapeChar = (d :: other).flatMap escapeChar) :
    c = d ∧ data.flatMap escapeChar = other.flatMap escapeChar := by
  have amp : escapeChar '&' = ['&', 'a', 'm', 'p', ';'] := rfl
  have greater : escapeChar '>' = ['&', 'g', 't', ';'] := rfl
  have less : escapeChar '<' = ['&', 'l', 't', ';'] := rfl
  rw [List.flatMap_cons, List.flatMap_cons] at same
  rcases escapeChar_cases c with rfl | rfl | rfl | ⟨plain, other_c⟩ <;>
    rcases escapeChar_cases d with rfl | rfl | rfl | ⟨plain', other_d⟩ <;>
    simp only [*, List.cons_append, List.nil_append, List.cons.injEq] at same <;>
    grind

theorem escape_inj : escape data = escape other ↔ data = other := by
  refine ⟨fun same => ?_, fun same => same ▸ rfl⟩
  rw [escape_eq_flatMap, escape_eq_flatMap] at same
  induction data generalizing other with
  | nil =>
    cases other with
    | nil => rfl
    | cons c other => exact absurd same.symm (escape_cons_ne_nil c other)
  | cons c data ih =>
    cases other with
    | nil => exact absurd same (escape_cons_ne_nil c data)
    | cons d other =>
      obtain ⟨rfl, rest⟩ := escape_cons_inj same
      rw [ih rest]

end Escape

section Chunks

variable {unicode : Unicode} {bytes : List UInt8} {offset length : Argument} {a b c n : Nat}

/-- The two chunks that meet at an offset, taken together, are the chunk over both of them. -/
def ReadsAsOne (unicode : Unicode) (stored : Stored) (start middle first second whole : Argument) : Prop :=
  ∃ before after both, readChunk unicode stored start first = .ok before ∧
    readChunk unicode stored middle second = .ok after ∧
    readChunk unicode stored start whole = .ok both ∧ before.text ++ after.text = both.text ∧
    before.length + after.length = both.length

/-- Reading from a on, the byte at b goes on with a character that the bytes before b end in. -/
def cutsCharacter (bytes : List UInt8) (a b : Nat) : Bool :=
  bytes[b]?.any (stateAfter .start ((bytes.drop a).take (b - a))).continues

/-- A range is decoded as its two parts are just if the second does not begin inside of a character. -/
theorem decode_range_iff (m : Nat) (positive : 0 < n) :
    decode ((bytes.drop a).take (m + n)) = decode ((bytes.drop a).take m) ++ decode ((bytes.drop (a + m)).take n) ↔
      cutsCharacter bytes a (a + m) = false := by
  have next : ((bytes.drop (a + m)).take n).head? = bytes[a + m]? := by
    rw [List.head?_take, if_neg (by omega), List.head?_drop]
  rw [List.take_add, List.drop_drop, decode_append_iff, next, cutsCharacter, Nat.add_sub_cancel_left]
  cases bytes[a + m]? <;> simp

theorem toInt_orMinusOne {argument : Argument} {number : Int} (is : argument.toInt unicode = some number)
    (other : argument ≠ .int 0) : argument.orMinusOne.toInt unicode = some number := by
  cases argument with
  | none => cases is
  | int number' =>
    have positive : number' ≠ 0 := fun same => other (same ▸ rfl)
    rw [Argument.orMinusOne, if_neg positive]
    exact is
  | text chars =>
    cases chars with
    | nil => cases is
    | cons c rest => exact is

theorem readChunk_range (offset_is : offset.toInt unicode = some (a : Int)) (other : offset ≠ .int 0)
    (length_is : length.toInt unicode = some (n : Int)) (positive : 0 < n) (within : a + n ≤ bytes.length) :
    readChunk unicode (.contents bytes) offset length =
      .ok (.read a n (some (escape (decode ((bytes.drop a).take n))))) := by
  have length_other : length ≠ .int 0 := by
    rintro rfl
    rw [Argument.toInt, Option.some.injEq] at length_is
    omega
  have some_data : (bytes.drop a).take n ≠ [] := by
    intro none
    have lengths := congrArg List.length none
    simp only [List.length_take, List.length_drop, List.length_nil] at lengths
    omega
  have count : ((bytes.drop a).take n).length = n := by
    rw [List.length_take, List.length_drop]
    omega
  have read : (Stored.contents bytes).readFrom a n = .ok (some ((bytes.drop a).take n)) := by
    have facts : ¬ (a : Int) < 0 ∧ ¬ (n : Int) < -1 ∧ ¬ (n : Int) = -1 := by omega
    simp [Stored.readFrom, facts]
  have set : ¬ (a : Int) = -1 ∧ ¬ (n : Int) = -1 := by omega
  simp only [readChunk, toInt_orMinusOne offset_is other, toInt_orMinusOne length_is length_other, Stored.size, readAt,
    if_neg set.1, if_neg set.2, read]
  generalize (bytes.drop a).take n = data at some_data count
  cases data with
  | nil => exact absurd rfl some_data
  | cons byte data =>
    simp only [Except.map, count]

/-- The integer zero is taken for no offset, and the chunk begins at the end of the file. -/
theorem readChunk_zero (length_is : length.toInt unicode = some (n : Int)) (positive : 0 < n) :
    readChunk unicode (.contents bytes) (.int 0) length = .ok (.read bytes.length 0 none) := by
  have length_other : length ≠ .int 0 := by
    rintro rfl
    rw [Argument.toInt, Option.some.injEq] at length_is
    omega
  have read : (Stored.contents bytes).readFrom bytes.length n = .ok (some []) := by
    have facts : ¬ (bytes.length : Int) < 0 ∧ ¬ (n : Int) < -1 ∧ ¬ (n : Int) = -1 := by omega
    simp [Stored.readFrom, facts]
  have set : ¬ (n : Int) = -1 := by omega
  have offset_is : (Argument.int 0).orMinusOne.toInt unicode = some (-1) := rfl
  simp only [readChunk, toInt_orMinusOne length_is length_other, offset_is, Stored.size, readAt, if_true,
    if_neg set, read]
  rfl

theorem readsAsOne_iff {start middle first second whole : Argument} (ab : a < b) (bc : b < c)
    (within : c ≤ bytes.length)
    (start_is : start.toInt unicode = some (a : Int)) (middle_is : middle.toInt unicode = some (b : Int))
    (first_is : first.toInt unicode = some ((b - a : Nat) : Int))
    (second_is : second.toInt unicode = some ((c - b : Nat) : Int))
    (whole_is : whole.toInt unicode = some ((c - a : Nat) : Int)) :
    ReadsAsOne unicode (.contents bytes) start middle first second whole ↔
      start ≠ .int 0 ∧ cutsCharacter bytes a b = false := by
  have middle_other : middle ≠ .int 0 := by
    rintro rfl
    rw [Argument.toInt, Option.some.injEq] at middle_is
    omega
  have after := readChunk_range middle_is middle_other second_is (by omega) (by omega : b + (c - b) ≤ bytes.length)
  by_cases zero : start = .int 0
  · subst zero
    rw [Argument.toInt, Option.some.injEq] at start_is
    have before := @readChunk_zero unicode bytes first (b - a) first_is (by omega)
    have both := @readChunk_zero unicode bytes whole (c - a) whole_is (by omega)
    simp only [ReadsAsOne, before, after, both, Except.ok.injEq]
    constructor
    · rintro ⟨_, _, _, rfl, rfl, rfl, -, lengths⟩
      simp only [Chunk.length] at lengths
      omega
    · rintro ⟨absurd_, -⟩
      exact absurd rfl absurd_
  · have before := readChunk_range start_is zero first_is (by omega) (by omega : a + (b - a) ≤ bytes.length)
    have both := readChunk_range start_is zero whole_is (by omega) (by omega : a + (c - a) ≤ bytes.length)
    have law := @decode_range_iff bytes a (c - b) (b - a) (by omega)
    rw [show b - a + (c - b) = c - a by omega, show a + (b - a) = b by omega, eq_comm, ← escape_inj,
      escape_append] at law
    simp only [ReadsAsOne, before, after, both, Except.ok.injEq]
    constructor
    · rintro ⟨_, _, _, rfl, rfl, rfl, same, -⟩
      exact ⟨zero, law.mp same⟩
    · rintro ⟨-, whole_character⟩
      refine ⟨_, _, _, rfl, rfl, rfl, law.mpr whole_character, ?_⟩
      simp only [Chunk.length]
      omega

theorem readsAsOne_euro : ReadsAsOne .asciiOnly (.contents [0x61, 0xE2, 0x82, 0xAC, 0x62]) (.text "1".toList)
    (.text "4".toList)
    (.text "3".toList) (.text "1".toList) (.text "4".toList) :=
  (readsAsOne_iff (a := 1) (b := 4) (c := 5) (by decide) (by decide) (by decide) (by decide) (by decide) (by decide)
    (by decide) (by decide)).mpr ⟨by decide, by decide⟩

theorem reads_apart :
    readChunk .asciiOnly (.contents [0xC3, 0xA9]) (.text "0".toList) (.text "1".toList) =
        .ok (.read 0 1 (some [replacement])) ∧
      readChunk .asciiOnly (.contents [0xC3, 0xA9]) (.text "1".toList) (.text "1".toList) =
        .ok (.read 1 1 (some [replacement])) ∧
      readChunk .asciiOnly (.contents [0xC3, 0xA9]) (.text "0".toList) (.text "2".toList) =
        .ok (.read 0 2 (some ['\u00e9'])) := by
  decide

/-- A client reads chunk after chunk, each from where the one before ended, and puts the texts together. -/
def tail (unicode : Unicode) (stored : Stored) (ask : Nat → Argument) : Nat → List Nat → Except ReadError Text
  | _, [] => .ok []
  | offset, length :: lengths => do
    let chunk ← readChunk unicode stored (ask offset) (ask length)
    let rest ← tail unicode stored ask (offset + chunk.length.toNat) lengths
    return chunk.text ++ rest

/-- None of the chunks but the last ends inside of a character. -/
def Whole (bytes : List UInt8) : Nat → List Nat → Prop
  | _, [] | _, [_] => True
  | offset, length :: lengths =>
    cutsCharacter bytes offset (offset + length) = false ∧ Whole bytes (offset + length) lengths

theorem decode_whole {first : Nat} {lengths : List Nat} (positive : ∀ length ∈ lengths, 0 < length)
    (whole : Whole bytes a (first :: lengths)) :
    decode ((bytes.drop a).take (first + lengths.sum)) =
      decode ((bytes.drop a).take first) ++ decode ((bytes.drop (a + first)).take lengths.sum) := by
  cases lengths with
  | nil => simp [decode, decodeFrom, flush]
  | cons length lengths =>
    have some_length := positive length List.mem_cons_self
    exact (decode_range_iff first (by rw [List.sum_cons]; omega)).mpr whole.1

/-- A client that tails a file sees what one sees that reads it at once, where it cuts no character. -/
theorem tail_eq_whole {ask : Nat → Argument} {lengths : List Nat} (asks : ∀ n, (ask n).toInt unicode = some (n : Int))
    (as_text : ∀ n, ask n ≠ .int 0) (positive : ∀ length ∈ lengths, 0 < length)
    (within : a + lengths.sum ≤ bytes.length)
    (whole : Whole bytes a lengths) :
    tail unicode (.contents bytes) ask a lengths = .ok (escape (decode ((bytes.drop a).take lengths.sum))) := by
  induction lengths generalizing a with
  | nil => simp [tail, decode, decodeFrom, flush, escape_eq_flatMap]
  | cons length lengths ih =>
    rw [List.forall_mem_cons] at positive
    rw [List.sum_cons] at within
    have read := readChunk_range (asks a) (as_text a) (asks length) positive.1 (by omega : a + length ≤ bytes.length)
    have later : Whole bytes (a + length) lengths := by
      cases lengths with
      | nil => exact trivial
      | cons next lengths => exact whole.2
    have rest := ih positive.2 (by omega) later
    rw [List.sum_cons, decode_whole positive.2 whole, escape_append, tail]
    exact bind_eq_ok.mpr ⟨_, read, bind_eq_ok.mpr ⟨_, rest, rfl⟩⟩

end Chunks

end Aurora.Thermos.Observer
