import Aurora.Library.PyText
import Mathlib.Data.List.Basic

/-! Decoding of UTF-8 where what is malformed is replaced, byte after byte. -/

namespace Utf8

open PyText

/-- What the second byte of a character is limited to, besides being a continuation byte. -/
inductive Limit
  | free
  | fromA0
  | to9F
  | from90
  | to8F
  deriving DecidableEq, Repr

def isContinuation (byte : UInt8) : Bool := 0x80 ≤ byte && byte ≤ 0xBF

def Limit.allows : Limit → UInt8 → Bool
  | .free, byte => isContinuation byte
  | .fromA0, byte => isContinuation byte && 0xA0 ≤ byte
  | .to9F, byte => isContinuation byte && byte ≤ 0x9F
  | .from90, byte => isContinuation byte && 0x90 ≤ byte
  | .to8F, byte => isContinuation byte && byte ≤ 0x8F

/-- Between characters, or inside of one: how many bytes it lacks after the next one, and its code so far. -/
inductive State
  | start
  | inside (limit : Limit) (lacking : Nat) (code : Nat)
  deriving DecidableEq, Repr

def replacement : Char := Char.ofNat 0xFFFD

def begin_ (byte : UInt8) : Text × State :=
  if byte < 0x80 then ([Char.ofNat byte.toNat], .start)
  else if byte < 0xC2 then ([replacement], .start)
  else if byte < 0xE0 then ([], .inside .free 0 (byte.toNat - 0xC0))
  else if byte < 0xF0 then
    ([], .inside (if byte = 0xE0 then .fromA0 else if byte = 0xED then .to9F else .free) 1 (byte.toNat - 0xE0))
  else if byte < 0xF5 then
    ([], .inside (if byte = 0xF0 then .from90 else if byte = 0xF4 then .to8F else .free) 2 (byte.toNat - 0xF0))
  else ([replacement], .start)

/-- A byte that cannot go on with a character ends it, replaced, and begins the next one. -/
def step : State → UInt8 → Text × State
  | .start, byte => begin_ byte
  | .inside limit lacking code, byte =>
    if limit.allows byte then
      let code := 64 * code + (byte.toNat - 0x80)
      match lacking with
      | 0 => ([Char.ofNat code], .start)
      | lacking + 1 => ([], .inside .free lacking code)
    else (replacement :: (begin_ byte).1, (begin_ byte).2)

/-- A character that is not complete at the end is replaced. -/
def flush : State → Text
  | .start => []
  | .inside _ _ _ => [replacement]

def decodeFrom (state : State) : List UInt8 → Text
  | [] => flush state
  | byte :: rest => (step state byte).1 ++ decodeFrom (step state byte).2 rest

def decode (bytes : List UInt8) : Text := decodeFrom .start bytes

def stateAfter (state : State) (bytes : List UInt8) : State := bytes.foldl (fun state byte => (step state byte).2) state

def State.continues : State → UInt8 → Bool
  | .start, _ => false
  | .inside limit _ _, byte => limit.allows byte

variable {state : State} {byte : UInt8} {bytes rest : List UInt8}

theorem isContinuation_of_allows {limit : Limit} (allows : limit.allows byte = true) : isContinuation byte = true := by
  cases limit with
  | free => exact allows
  | fromA0 | to9F | from90 | to8F =>
    simp only [Limit.allows, Bool.and_eq_true] at allows
    exact allows.1

theorem begin_continuation (continuation : isContinuation byte = true) : begin_ byte = ([replacement], .start) := by
  simp only [isContinuation, Bool.and_eq_true, decide_eq_true_eq] at continuation
  have high : ¬ byte < 0x80 := by grind
  have low : byte < 0xC2 := by grind
  rw [begin_, if_neg high, if_pos low]

/-- A byte that does not go on with a character is read as if the one before had been ended. -/
theorem decodeFrom_cons_of_not (not_continues : state.continues byte = false) :
    decodeFrom state (byte :: rest) = flush state ++ decodeFrom .start (byte :: rest) := by
  cases state with
  | start => rfl
  | inside limit lacking code =>
    simp only [State.continues] at not_continues
    simp [decodeFrom, step, not_continues, flush]

theorem decodeFrom_append (first second : List UInt8) :
    ∃ written, decodeFrom state first = written ++ flush (stateAfter state first) ∧
      decodeFrom state (first ++ second) = written ++ decodeFrom (stateAfter state first) second := by
  induction first generalizing state with
  | nil => exact ⟨[], rfl, rfl⟩
  | cons byte first ih =>
    obtain ⟨written, flushed, going_on⟩ := @ih (step state byte).2
    exact ⟨(step state byte).1 ++ written, by simp [decodeFrom, flushed, stateAfter], by
      simp [decodeFrom, going_on, stateAfter]⟩

theorem length_decodeFrom_lt (continues : state.continues byte = true) :
    (decodeFrom state (byte :: rest)).length < (flush state ++ decodeFrom .start (byte :: rest)).length := by
  induction rest generalizing state byte with
  | nil =>
    cases state with
    | start => cases continues
    | inside limit lacking code =>
      rw [State.continues] at continues
      have begun := begin_continuation (isContinuation_of_allows continues)
      cases lacking <;> simp [decodeFrom, step, begun, continues, flush]
  | cons next rest ih =>
    cases state with
    | start => cases continues
    | inside limit lacking code =>
      rw [State.continues] at continues
      have begun := begin_continuation (isContinuation_of_allows continues)
      have cut : (flush (.inside limit lacking code) ++ decodeFrom .start (byte :: next :: rest)).length =
          2 + (decodeFrom .start (next :: rest)).length := by
        simp [flush, decodeFrom, step, begun]
        omega
      rw [cut, decodeFrom, step, if_pos continues]
      cases lacking with
      | zero =>
        simp only [List.cons_append, List.nil_append, List.length_cons]
        omega
      | succ lacking =>
        change (decodeFrom (.inside .free lacking (64 * code + (byte.toNat - 0x80))) (next :: rest)).length < _
        -- the character goes on at the next byte, which has less of it to read, or has to be replaced there
        cases more : (State.inside .free lacking (64 * code + (byte.toNat - 0x80))).continues next with
        | true =>
          have shorter := ih more
          simp only [flush, List.length_append, List.length_singleton] at shorter
          omega
        | false =>
          rw [decodeFrom_cons_of_not more]
          simp only [flush, List.length_append, List.length_singleton]
          omega

/-- Two pieces are decoded as one just if the second does not go on with a character that the first ends in. -/
theorem decode_append_iff (first second : List UInt8) :
    decode (first ++ second) = decode first ++ decode second ↔
      ∀ byte ∈ second.head?, (stateAfter .start first).continues byte = false := by
  obtain ⟨written, flushed, going_on⟩ := @decodeFrom_append .start first second
  rw [decode, decode, decode, flushed, going_on, List.append_assoc, List.append_cancel_left_eq]
  cases second with
  | nil => simp [decodeFrom, flush]
  | cons byte rest =>
    simp only [List.head?_cons, Option.mem_some_iff, forall_eq']
    constructor
    · intro same
      by_contra continues
      have shorter := @length_decodeFrom_lt _ _ rest (Bool.of_not_eq_false continues)
      rw [same] at shorter
      exact absurd shorter (Nat.lt_irrefl _)
    · exact decodeFrom_cons_of_not

end Utf8
