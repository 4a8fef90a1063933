import Mathlib.Data.List.Infix

namespace Framing

abbrev Bytes := List UInt8

/-- What decoding a whole frame comes to. -/
inductive Decoded (ρ ε : Type)
  | value (record : ρ)
  | endOfFile
  | raised (e : ε)

/-- One attempt to read a record: the position only moves past a record that is there in full. -/
inductive Attempt (ρ ε : Type)
  | record (value : ρ) (size : Nat)
  | nothing
  | raised (e : ε)

def Attempt.isNothing {ρ ε : Type} : Attempt ρ ε → Bool
  | .nothing => true
  | .record _ _ | .raised _ => false

theorem isNothing_iff {ρ ε : Type} {attempt : Attempt ρ ε} : attempt.isNothing = true ↔ attempt = .nothing := by
  cases attempt <;> simp [Attempt.isNothing]

/-- A frame follows its length, which is four bytes with the highest one first. -/
def headerSize : Nat := 4

def frameLength (header : Bytes) : Nat := header.foldl (fun length byte => 256 * length + byte.toNat) 0

variable {ρ ε : Type}

structure Format (ρ ε : Type) where
  maximum : Nat
  exceeded : ε
  decode : Bytes → Decoded ρ ε

def Format.tryRead (format : Format ρ ε) (bytes : Bytes) : Attempt ρ ε :=
  if bytes.length < headerSize then .nothing
  else
    let length := frameLength (bytes.take headerSize)
    if format.maximum < length then .raised format.exceeded
    else if bytes.length < headerSize + length then .nothing
    else
      match format.decode ((bytes.drop headerSize).take length) with
      | .value record => .record record (headerSize + length)
      | .endOfFile => .nothing
      | .raised e => .raised e

variable {format : Format ρ ε} {bytes more : Bytes} {value : ρ} {size : Nat} {e : ε}

theorem tryRead_size (read : format.tryRead bytes = .record value size) :
    headerSize ≤ size ∧ size ≤ bytes.length := by
  simp only [Format.tryRead] at read
  split_ifs at read with short long cut
  split at read
  · cases read
    omega
  · cases read
  · cases read

theorem tryRead_bounds {position : Nat} (read : format.tryRead (bytes.drop position) = .record value size) :
    0 < size ∧ position + size ≤ bytes.length := by
  have bounds := tryRead_size read
  rw [List.length_drop, headerSize] at bounds
  omega

theorem header_append (enough : ¬ bytes.length < headerSize) :
    (bytes ++ more).take headerSize = bytes.take headerSize := by
  rw [List.take_append_of_le_length (by omega)]

theorem frame_append {length : Nat} (whole : ¬ bytes.length < headerSize + length) :
    ((bytes ++ more).drop headerSize).take length = (bytes.drop headerSize).take length := by
  rw [List.drop_append_of_le_length (by omega), List.take_append_of_le_length (by rw [List.length_drop]; omega)]

theorem header_whole (enough : ¬ bytes.length < headerSize) : ¬ (bytes ++ more).length < headerSize := by
  rw [List.length_append]
  omega

theorem frame_whole {length : Nat} (whole : ¬ bytes.length < headerSize + length) :
    ¬ (bytes ++ more).length < headerSize + length := by
  rw [List.length_append]
  omega

theorem tryRead_record_append (read : format.tryRead bytes = .record value size) :
    format.tryRead (bytes ++ more) = .record value size := by
  simp only [Format.tryRead] at read ⊢
  split_ifs at read with short long cut
  simp only [header_whole short, if_false, header_append short, long, frame_whole cut, frame_append cut]
  exact read

/-- A record that is there in full stays where it is while the stream grows. -/
theorem tryRead_record_grown {later : Bytes} {position : Nat}
    (read : format.tryRead (bytes.drop position) = .record value size) (grown : bytes <+: later) :
    format.tryRead (later.drop position) = .record value size := by
  obtain ⟨_, within⟩ := tryRead_bounds read
  obtain ⟨more, rfl⟩ := grown
  rw [List.drop_append_of_le_length (by omega)]
  exact tryRead_record_append read

theorem tryRead_raised_grown {later : Bytes} (read : format.tryRead bytes = .raised e) (grown : bytes <+: later) :
    format.tryRead later = .raised e := by
  obtain ⟨more, rfl⟩ := grown
  simp only [Format.tryRead] at read ⊢
  split_ifs at read with short long cut
  · simp only [header_whole short, if_false, header_append short, long, if_true]
    exact read
  · simp only [header_whole short, if_false, header_append short, long, frame_whole cut, frame_append cut]
    exact read

inductive Reads (format : Format ρ ε) : Bytes → List ρ → Nat → Prop
  | start (bytes : Bytes) : Reads format bytes [] 0
  | record {bytes : Bytes} {value : ρ} {size : Nat} {rest : List ρ} {position : Nat}
      (read : format.tryRead bytes = .record value size) (further : Reads format (bytes.drop size) rest position) :
      Reads format bytes (value :: rest) (size + position)

/-- The records that are there in full, and the position behind the last of them. -/
def Complete (format : Format ρ ε) (bytes : Bytes) (records : List ρ) (position : Nat) : Prop :=
  Reads format bytes records position ∧ format.tryRead (bytes.drop position) = .nothing

namespace Reads

variable {records : List ρ} {position : Nat}

theorem position_le (reads : Reads format bytes records position) : position ≤ bytes.length := by
  induction reads with
  | start bytes => exact Nat.zero_le _
  | record read further ih =>
    have size := tryRead_size read
    rw [List.length_drop] at ih
    omega

theorem append (reads : Reads format bytes records position) : Reads format (bytes ++ more) records position := by
  induction reads with
  | start bytes => exact .start _
  | record read further ih =>
    have size := tryRead_size read
    refine .record (tryRead_record_append read) ?_
    rw [List.drop_append_of_le_length size.2]
    exact ih

theorem grown (reads : Reads format bytes records position) {later : Bytes} (grown : bytes <+: later) :
    Reads format later records position := by
  obtain ⟨more, rfl⟩ := grown
  exact reads.append

theorem snoc (reads : Reads format bytes records position)
    (read : format.tryRead (bytes.drop position) = .record value size) :
    Reads format bytes (records ++ [value]) (position + size) := by
  induction reads with
  | start bytes =>
    rw [List.drop_zero] at read
    rw [Nat.zero_add]
    exact .record read (.start _)
  | record first further ih =>
    rw [Nat.add_assoc]
    refine .record first (ih ?_)
    rw [List.drop_drop]
    exact read

theorem split (reads : Reads format bytes records position) {all : List ρ} {final : Nat}
    (complete : Complete format bytes all final) :
    ∃ rest further, all = records ++ rest ∧ final = position + further ∧
      Complete format (bytes.drop position) rest further := by
  induction reads generalizing all final with
  | start bytes => exact ⟨all, final, rfl, (Nat.zero_add final).symm, by rwa [List.drop_zero]⟩
  | record read further ih =>
    obtain ⟨whole, ended⟩ := complete
    cases whole with
    | start =>
      rw [List.drop_zero, read] at ended
      cases ended
    | record again beyond =>
      cases read.symm.trans again
      rw [← List.drop_drop] at ended
      obtain ⟨rest, left, same, reached, tail⟩ := ih ⟨beyond, ended⟩
      refine ⟨rest, left, by rw [same, List.cons_append], by rw [reached, Nat.add_assoc], ?_⟩
      rw [List.drop_drop] at tail
      exact tail

end Reads

/-- Where a stream can be read to its end, no attempt at a record of it raises. -/
theorem Complete.not_raised {records : List ρ} {position : Nat} (complete : Complete format bytes records position) :
    format.tryRead bytes ≠ .raised e := by
  obtain ⟨reads, ended⟩ := complete
  intro raised
  cases reads with
  | start =>
    rw [List.drop_zero, raised] at ended
    cases ended
  | record read further => cases read.symm.trans raised

end Framing
