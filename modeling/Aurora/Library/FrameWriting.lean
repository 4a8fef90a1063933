import Aurora.Library.Framing
import Mathlib.Data.List.Forall2
import Mathlib.Algebra.Group.Nat.Defs

/-! Streams that frames are written to, and what is read of them where they are cut off. -/

namespace Framing

variable {ρ ε : Type} {format : Format ρ ε} {blob : Bytes} {blobs : List Bytes} {record : ρ} {records : List ρ}

def packLength (length : Nat) : Bytes :=
  [UInt8.ofNat (length / 256 ^ 3), UInt8.ofNat (length / 256 ^ 2), UInt8.ofNat (length / 256), UInt8.ofNat length]

def frame (blob : Bytes) : Bytes := packLength blob.length ++ blob

def stream (blobs : List Bytes) : Bytes := blobs.flatMap frame

/-- How many of the frames are there in full within the first bytes of their stream. -/
def whole : List Bytes → Nat → Nat
  | [], _ => 0
  | blob :: rest, bytes => if (frame blob).length ≤ bytes then whole rest (bytes - (frame blob).length) + 1 else 0

@[simp] theorem length_packLength (length : Nat) : (packLength length).length = headerSize := rfl

@[simp] theorem length_frame (blob : Bytes) : (frame blob).length = headerSize + blob.length := by
  rw [frame, List.length_append, length_packLength]

@[simp] theorem stream_nil : stream [] = [] := rfl

@[simp] theorem stream_cons (blob : Bytes) (blobs : List Bytes) : stream (blob :: blobs) = frame blob ++ stream blobs := rfl

@[simp] theorem stream_append (first second : List Bytes) : stream (first ++ second) = stream first ++ stream second :=
  List.flatMap_append

theorem frameLength_packLength {length : Nat} (fits : length < 256 ^ 4) : frameLength (packLength length) = length := by
  simp only [frameLength, packLength, List.foldl_cons, List.foldl_nil, UInt8.toNat_ofNat']
  omega

theorem whole_le (blobs : List Bytes) (bytes : Nat) : whole blobs bytes ≤ blobs.length := by
  induction blobs generalizing bytes with
  | nil => exact Nat.le_refl 0
  | cons blob rest ih =>
    rw [whole]
    split
    · exact Nat.succ_le_succ (ih _)
    · exact Nat.zero_le _

theorem whole_le_length (blobs : List Bytes) (bytes : Nat) : whole blobs bytes ≤ ((stream blobs).take bytes).length := by
  induction blobs generalizing bytes with
  | nil => exact Nat.zero_le _
  | cons blob rest ih =>
    rw [whole, stream_cons]
    split
    · have within := ih (bytes - (frame blob).length)
      have header : headerSize ≤ (frame blob).length := by
        rw [length_frame]
        omega
      rw [headerSize] at header
      rw [List.length_take] at within ⊢
      rw [List.length_append]
      omega
    · exact Nat.zero_le _

/-- The whole frames end within the bytes, and the next one does not. -/
theorem whole_spec (blobs : List Bytes) (bytes : Nat) :
    (stream (blobs.take (whole blobs bytes))).length ≤ bytes ∧
      ∀ blob ∈ blobs[whole blobs bytes]?,
        bytes < (stream (blobs.take (whole blobs bytes))).length + (frame blob).length := by
  induction blobs generalizing bytes with
  | nil => simp [whole]
  | cons blob rest ih =>
    rw [whole]
    split
    · rename_i fits
      obtain ⟨within, beyond⟩ := ih (bytes - (frame blob).length)
      rw [List.take_succ_cons, stream_cons, List.length_append, List.getElem?_cons_succ]
      refine ⟨by omega, fun next mem => ?_⟩
      have after := beyond next mem
      omega
    · rename_i short
      rw [List.take_zero, stream_nil, List.length_nil, List.getElem?_cons_zero]
      refine ⟨Nat.zero_le _, fun next mem => ?_⟩
      cases Option.some.inj mem
      omega

theorem le_whole (blobs : List Bytes) {count bytes : Nat} (some_blobs : count ≤ blobs.length)
    (there : (stream (blobs.take count)).length ≤ bytes) : count ≤ whole blobs bytes := by
  induction blobs generalizing count bytes with
  | nil => exact some_blobs
  | cons blob rest ih =>
    cases count with
    | zero => exact Nat.zero_le _
    | succ count =>
      rw [List.take_succ_cons, stream_cons, List.length_append] at there
      rw [whole, if_pos (by omega)]
      exact Nat.succ_le_succ (ih (Nat.le_of_succ_le_succ some_blobs) (by omega))

theorem drop_stream (blobs : List Bytes) (count : Nat) :
    (stream blobs).drop (stream (blobs.take count)).length = stream (blobs.drop count) := by
  conv_lhs => rw [← List.take_append_drop count blobs, stream_append, List.take_append_drop]
  exact List.drop_left

/-- A frame whose length fits into its header, and that the format can read. -/
def Format.Holds (format : Format ρ ε) (blob : Bytes) (record : ρ) : Prop :=
  blob.length < 256 ^ 4 ∧ blob.length ≤ format.maximum ∧ format.decode blob = .value record

theorem take_header_frame (blob more : Bytes) : (frame blob ++ more).take headerSize = packLength blob.length := by
  rw [frame, List.append_assoc, List.take_left' (length_packLength _)]

theorem tryRead_frame (holds : format.Holds blob record) (more : Bytes) :
    format.tryRead (frame blob ++ more) = .record record (frame blob).length := by
  obtain ⟨fits, small, decoded⟩ := holds
  have enough : ¬ (frame blob ++ more).length < headerSize := by
    rw [List.length_append, length_frame]
    omega
  have there : ¬ (frame blob ++ more).length < headerSize + blob.length := by
    rw [List.length_append, length_frame]
    omega
  have body : ((frame blob ++ more).drop headerSize).take blob.length = blob := by
    rw [frame, List.append_assoc, List.drop_left' (length_packLength _), List.take_left]
  simp only [Format.tryRead, enough, if_false, take_header_frame, frameLength_packLength fits, Nat.not_lt.mpr small,
    there, body, decoded, length_frame]

theorem tryRead_oversized (fits : blob.length < 256 ^ 4) (large : format.maximum < blob.length) (more : Bytes) :
    format.tryRead (frame blob ++ more) = .raised format.exceeded := by
  have enough : ¬ (frame blob ++ more).length < headerSize := by
    rw [List.length_append, length_frame]
    omega
  simp only [Format.tryRead, enough, if_false, take_header_frame, frameLength_packLength fits, large, if_true]

theorem reads_stream (holds : List.Forall₂ format.Holds blobs records) (more : Bytes) :
    Reads format (stream blobs ++ more) records (stream blobs).length := by
  induction holds with
  | nil => exact .start _
  | cons first rest ih =>
    rw [stream_cons, List.append_assoc, List.length_append]
    apply Reads.record (tryRead_frame first _)
    rw [List.drop_left]
    exact ih

theorem tryRead_torn (holds : format.Holds blob record) {bytes : Nat} (torn : bytes < (frame blob).length) :
    format.tryRead ((frame blob).take bytes) = .nothing := by
  obtain ⟨fits, small, -⟩ := holds
  rw [length_frame] at torn
  have length : ((frame blob).take bytes).length = bytes := by
    rw [List.length_take, length_frame]
    omega
  by_cases short : bytes < headerSize
  · rw [Format.tryRead, length, if_pos short]
  · have header : ((frame blob).take bytes).take headerSize = packLength blob.length := by
      rw [List.take_take, Nat.min_eq_left (by omega), ← List.append_nil (frame blob), take_header_frame]
    simp only [Format.tryRead, length, short, if_false, header, frameLength_packLength fits, Nat.not_lt.mpr small, torn,
      if_true]

/-- Of a stream that is cut off anywhere, just the records are read whose frames are there in full. -/
theorem complete_cut (holds : List.Forall₂ format.Holds blobs records) (bytes : Nat) :
    Complete format ((stream blobs).take bytes) (records.take (whole blobs bytes))
      (stream (blobs.take (whole blobs bytes))).length := by
  induction holds generalizing bytes with
  | nil =>
    rw [stream_nil, List.take_nil, List.take_nil]
    exact ⟨.start [], rfl⟩
  | @cons blob record blobs records first rest ih =>
    rw [stream_cons, whole]
    split
    · rename_i fits
      obtain ⟨reads, ended⟩ := ih (bytes - (frame blob).length)
      have cut : (frame blob ++ stream blobs).take bytes =
          frame blob ++ (stream blobs).take (bytes - (frame blob).length) := by
        rw [List.take_append, List.take_of_length_le fits]
      rw [cut, List.take_succ_cons, List.take_succ_cons, stream_cons, List.length_append]
      constructor
      · apply Reads.record (tryRead_frame first _)
        rw [List.drop_left]
        exact reads
      · rw [← List.drop_drop, List.drop_left]
        exact ended
    · rename_i short
      rw [List.take_append_of_le_length (by omega), List.take_zero, List.take_zero, stream_nil, List.length_nil]
      exact ⟨.start _, tryRead_torn first (by omega)⟩

end Framing
