import Aurora.Common.RecordIo
import Aurora.Library.Transition

namespace Aurora.Common.RecordIo

open Framing

/-- A writer and a reader of one file. What the writer has handed to the file gets to the reader later on, and not at
    all when the writer is killed before. -/
structure Tail (β : Type) where
  out : FileLike := { mode := "ab+" }
  flushed : Nat := 0
  position : Nat := 0
  /-- The records whose write returned True. -/
  acknowledged : List β := []
  /-- The last record whose write returned False. -/
  failed : Option β := none
  read : List β := []
  raised : Option Error := none

/-- What the writer, the file or the reader does next. -/
inductive Move (β : Type)
  | write (record : β) (headerFault blobFault : Option Nat)
  | flush (bytes : Nat)
  | tryRead

namespace Tail

variable {β : Type}

def seen (tail : Tail β) : FileLike :=
  { mode := "rb", content := tail.out.content.take tail.flushed, position := tail.position }

def step (codec : Codec β) (tail : Tail β) : Move β → Option (Tail β)
  | .write record headerFault blobFault =>
    match Writer.doWrite codec record headerFault blobFault tail.out with
    | .ok true out => some { tail with out := out, acknowledged := tail.acknowledged ++ [record] }
    | .ok false out => some { tail with out := out, failed := some record }
    | .error _ _ => none
  | .flush bytes =>
    if tail.flushed + bytes ≤ tail.out.content.length then some { tail with flushed := tail.flushed + bytes } else none
  | .tryRead =>
    match Reader.tryRead codec tail.seen with
    | .ok none file => some { tail with position := file.position }
    | .ok (some record) file => some { tail with position := file.position, read := tail.read ++ [record] }
    | .error e file => some { tail with position := file.position, raised := some e }

/-- Only records are written that can be read, and none after a write that failed. -/
def Orderly (codec : Codec β) (tail : Tail β) : Move β → Prop
  | .write record _ _ => tail.failed = none ∧ ∃ blob, codec.Keeps record blob
  | .flush _ | .tryRead => True

/-- The records that went to the file, the last of them maybe just in part. -/
def sent (tail : Tail β) : List β := tail.acknowledged ++ tail.failed.toList

/-- The file is a part of the stream of all frames, and the reader stands between two of them. -/
structure Inv (codec : Codec β) (tail : Tail β) (blobs : List Bytes) (count : Nat) : Prop where
  appends : tail.out.has 'a' = true
  keeps : List.Forall₂ codec.Keeps tail.sent blobs
  cut : tail.out.content <+: stream blobs
  acknowledged : (stream (blobs.take tail.acknowledged.length)).length ≤ tail.out.content.length
  flushed : tail.flushed ≤ tail.out.content.length
  some_read : count ≤ tail.sent.length
  read : tail.read = tail.sent.take count
  position : tail.position = (stream (blobs.take count)).length
  within : tail.position ≤ tail.flushed
  raised : tail.raised = none

variable {codec : Codec β} {tail next : Tail β} {blobs : List Bytes} {count : Nat}

theorem inv_start : Inv codec ({} : Tail β) [] 0 where
  appends := (by decide : FileLike.has { mode := "ab+" } 'a' = true)
  keeps := .nil
  cut := List.prefix_rfl
  acknowledged := Nat.le_refl 0
  flushed := Nat.le_refl 0
  some_read := Nat.le_refl 0
  read := rfl
  position := rfl
  within := Nat.le_refl 0
  raised := rfl

namespace Inv

/-- What the reader has in front of it is the stream of the records that it has not read yet, cut off. -/
theorem ahead (inv : Inv codec tail blobs count) :
    tail.seen.content.drop tail.seen.position = (stream (blobs.drop count)).take (tail.flushed - tail.position) := by
  obtain ⟨more, whole⟩ := inv.cut
  have visible : tail.out.content.take tail.flushed = (stream blobs).take tail.flushed := by
    rw [← whole, List.take_append_of_le_length inv.flushed]
  simp only [seen, visible, List.drop_take]
  rw [inv.position, drop_stream]

theorem left (inv : Inv codec tail blobs count) :
    List.Forall₂ (format codec).Holds (blobs.drop count) (tail.sent.drop count) :=
  (List.forall₂_drop count inv.keeps).flip.imp fun _ _ => Codec.Keeps.holds

theorem flush (inv : Inv codec tail blobs count) {bytes : Nat}
    (room : tail.flushed + bytes ≤ tail.out.content.length) :
    Inv codec { tail with flushed := tail.flushed + bytes } blobs count :=
  { inv with
    flushed := room
    within := Nat.le_trans inv.within (Nat.le_add_right _ _) }

theorem content_eq (inv : Inv codec tail blobs count) (fine : tail.failed = none) :
    tail.out.content = stream blobs := by
  apply inv.cut.eq_of_length_le
  have length : blobs.length = tail.acknowledged.length := by
    rw [← inv.keeps.length_eq, sent, fine, Option.toList_none, List.append_nil]
  have acknowledged := inv.acknowledged
  rwa [← length, List.take_length] at acknowledged

theorem write (inv : Inv codec tail blobs count) {record : β} {headerFault blobFault : Option Nat} {done : Bool}
    {out : FileLike} {blob : Bytes} (fine : tail.failed = none) (keeps : codec.Keeps record blob)
    (ran : Writer.doWrite codec record headerFault blobFault tail.out = .ok done out) :
    Inv codec { tail with
      out := out
      acknowledged := if done then tail.acknowledged ++ [record] else tail.acknowledged
      failed := if done then none else some record } (blobs ++ [blob]) count := by
  obtain ⟨encoded, bytes, encodes, mode, content, whole⟩ := doWrite_cases inv.appends ran
  obtain rfl : blob = encoded := by
    rw [keeps.1] at encodes
    exact Except.ok.inj encodes
  have before := inv.content_eq fine
  have sent_eq : sent { tail with
      out := out
      acknowledged := if done then tail.acknowledged ++ [record] else tail.acknowledged
      failed := if done then none else some record } = tail.sent ++ [record] := by
    cases done <;> simp [sent, fine]
  have longer : tail.out.content.length ≤ out.content.length := by
    rw [content, List.length_append]
    exact Nat.le_add_right _ _
  have length : blobs.length = tail.acknowledged.length := by
    rw [← inv.keeps.length_eq, sent, fine, Option.toList_none, List.append_nil]
  constructor
  · rw [FileLike.has, mode]
    exact inv.appends
  · rw [sent_eq]
    exact List.rel_append inv.keeps (.cons keeps .nil)
  · simp only [content, before, stream_append, List.prefix_append_right_inj, stream_cons, stream_nil, List.append_nil]
    exact List.take_prefix _ _
  · cases done with
    | false =>
      simp only [Bool.false_eq_true, if_false]
      rw [List.take_append_of_le_length (Nat.le_of_eq length.symm)]
      exact Nat.le_trans inv.acknowledged longer
    | true =>
      simp only [if_true]
      rw [List.length_append, List.length_singleton, ← length, List.take_of_length_le (by simp), content, before,
        stream_append, List.take_of_length_le (whole rfl), stream_cons, stream_nil, List.append_nil]
  · exact Nat.le_trans inv.flushed longer
  · rw [sent_eq, List.length_append]
    exact Nat.le_trans inv.some_read (Nat.le_add_right _ _)
  · rw [sent_eq, List.take_append_of_le_length inv.some_read]
    exact inv.read
  · have some_read := inv.some_read
    rw [inv.keeps.length_eq] at some_read
    rw [List.take_append_of_le_length some_read]
    exact inv.position
  · exact inv.within
  · exact inv.raised

/-- A reader never raises. Either it gets the next record of those that were sent, or it stays where it is. -/
theorem tryRead (inv : Inv codec tail blobs count) :
    Reader.tryRead codec tail.seen = .ok none tail.seen ∨
      ∃ record size, Reader.tryRead codec tail.seen =
          .ok (some record) { tail.seen with position := tail.position + size } ∧
        Inv codec { tail with position := tail.position + size, read := tail.read ++ [record] } blobs (count + 1) := by
  have ahead := inv.ahead
  have left := inv.left
  cases rest : blobs.drop count with
  | nil =>
    left
    rw [rest, stream_nil, List.take_nil] at ahead
    exact Reader.tryRead_nothing (by rw [ahead]; rfl)
  | cons blob more =>
    rw [rest, stream_cons] at ahead
    rw [rest] at left
    obtain ⟨record, records, first, others, sent_eq⟩ := List.forall₂_cons_left_iff.mp left
    by_cases fits : (frame blob).length ≤ tail.flushed - tail.position
    · right
      refine ⟨record, (frame blob).length, ?_, ?_⟩
      · apply Reader.tryRead_record
        rw [ahead, List.take_append, List.take_of_length_le fits]
        exact tryRead_frame first _
      · have there : count < tail.sent.length := by
          by_contra none_left
          rw [List.drop_eq_nil_of_le (Nat.not_lt.mp none_left)] at sent_eq
          cases sent_eq
        have there_blobs : count < blobs.length := by rwa [← inv.keeps.length_eq]
        rw [List.drop_eq_getElem_cons there] at sent_eq
        rw [List.drop_eq_getElem_cons there_blobs] at rest
        obtain ⟨record_eq, -⟩ := List.cons.inj sent_eq
        obtain ⟨blob_eq, -⟩ := List.cons.inj rest
        have within := inv.within
        exact { inv with
          some_read := there
          read := by
            change tail.read ++ [record] = tail.sent.take (count + 1)
            rw [inv.read, List.take_succ_eq_append_getElem there, record_eq]
          position := by
            rw [inv.position, List.take_succ_eq_append_getElem there_blobs, blob_eq, stream_append, List.length_append,
              stream_cons, stream_nil, List.append_nil]
          within := by
            simp only
            omega }
    · left
      apply Reader.tryRead_nothing
      rw [ahead, List.take_append_of_le_length (Nat.le_of_lt (Nat.not_le.mp fits))]
      exact tryRead_torn first (Nat.not_le.mp fits)

/-- From where the reader stands it gets whatever is there in full. -/
theorem drain (inv : Inv codec tail blobs count) {rounds : Nat} (enough : tail.sent.length < rounds) :
    ∃ file, Reader.drain codec rounds tail.seen =
      ((tail.sent.drop count).take (whole (blobs.drop count) (tail.flushed - tail.position)), .ended, file) := by
  have complete := complete_cut inv.left (tail.flushed - tail.position)
  rw [← inv.ahead] at complete
  refine ⟨_, Reader.drain_complete complete ?_⟩
  rw [List.length_take, List.length_drop]
  omega

theorem le_whole (inv : Inv codec tail blobs count) (settled : tail.flushed = tail.out.content.length) :
    tail.acknowledged.length ≤ count + whole (blobs.drop count) (tail.flushed - tail.position) := by
  rcases Nat.le_total tail.acknowledged.length count with done | further
  · omega
  · have some_blobs : tail.acknowledged.length ≤ blobs.length := by
      rw [← inv.keeps.length_eq, sent, List.length_append]
      exact Nat.le_add_right _ _
    have there : (stream ((blobs.drop count).take (tail.acknowledged.length - count))).length ≤
        tail.flushed - tail.position := by
      have all : blobs.take tail.acknowledged.length =
          blobs.take count ++ (blobs.drop count).take (tail.acknowledged.length - count) := by
        rw [← List.take_add, Nat.add_sub_cancel' further]
      have acknowledged := inv.acknowledged
      rw [all, stream_append, List.length_append] at acknowledged
      rw [inv.position, settled]
      omega
    have counted := Framing.le_whole (blobs.drop count) (by rw [List.length_drop]; omega) there
    omega

end Inv

theorem inv_step (inv : Inv codec tail blobs count) {move : Move β} (orderly : Orderly codec tail move)
    (taken : step codec tail move = some next) : ∃ blobs count, Inv codec next blobs count := by
  cases move with
  | write record headerFault blobFault =>
    obtain ⟨fine, blob, keeps⟩ := orderly
    rw [step] at taken
    split at taken
    · rename_i ran
      cases taken
      have kept := inv.write fine keeps ran
      simp only [if_true] at kept
      rw [← fine] at kept
      exact ⟨_, _, kept⟩
    · rename_i ran
      cases taken
      exact ⟨_, _, inv.write fine keeps ran⟩
    · cases taken
  | flush bytes =>
    rw [step] at taken
    split_ifs at taken with room
    cases taken
    exact ⟨_, _, inv.flush room⟩
  | tryRead =>
    rw [step] at taken
    rcases inv.tryRead with stays | ⟨record, size, moves, kept⟩
    · rw [stays] at taken
      cases taken
      exact ⟨_, _, inv⟩
    · rw [moves] at taken
      cases taken
      exact ⟨_, _, kept⟩

/-- However writes, flushes and reads alternate, and wherever a write fails, the reader never raises and has the records
    in the order in which they were written, none left out and none twice. Once everything is flushed it gets all that
    were acknowledged. -/
theorem reads_what_was_written {moves : List (Move β)}
    (orderly : Transition.Along (step codec) (Orderly codec) {} moves)
    (ran : Transition.run (step codec) {} moves = some tail) :
    tail.raised = none ∧ tail.read <+: tail.sent ∧
      ∀ rounds, tail.sent.length < rounds →
        (Reader.drain codec rounds tail.seen).2.1 = .ended ∧
          tail.read ++ (Reader.drain codec rounds tail.seen).1 <+: tail.sent ∧
          (tail.flushed = tail.out.content.length →
            tail.acknowledged <+: tail.read ++ (Reader.drain codec rounds tail.seen).1) := by
  obtain ⟨blobs, count, inv⟩ := @Transition.invariant _ _ _ _ (fun tail => ∃ blobs count, Inv codec tail blobs count)
    _ _ _
    (by
      intro state move next held allowed taken
      obtain ⟨blobs, count, inv⟩ := held
      exact inv_step inv allowed taken)
    ⟨[], 0, inv_start⟩ orderly ran
  refine ⟨inv.raised, ?_, fun rounds enough => ?_⟩
  · rw [inv.read]
    exact List.take_prefix _ _
  · obtain ⟨file, drained⟩ := inv.drain enough
    have joined : tail.read ++ (Reader.drain codec rounds tail.seen).1 =
        tail.sent.take (count + whole (blobs.drop count) (tail.flushed - tail.position)) := by
      rw [drained, inv.read, ← List.take_add]
    rw [joined]
    refine ⟨by rw [drained], List.take_prefix _ _, fun settled => ?_⟩
    have counted := inv.le_whole settled
    calc tail.acknowledged <+: tail.sent.take tail.acknowledged.length := by
          rw [sent, List.take_left]
      _ <+: _ := List.take_prefix_take_left counted

theorem reads_what_was_written_torn :
    ∃ tail : Tail Bytes, Transition.run (step { encode := .ok, decode := .ok }) {}
        [.write [1] none none, .flush 3, .tryRead, .flush 2, .tryRead, .write [2] none (some 0)] = some tail ∧
      tail.read = [[1]] ∧ tail.raised = none ∧ tail.read <+: tail.sent := by
  have keeps : ∀ byte : UInt8, Codec.Keeps { encode := .ok, decode := .ok } [byte] [byte] := by
    intro byte
    refine ⟨rfl, ?_, rfl⟩
    rw [List.length_singleton, maximumRecordSize]
    decide
  refine ⟨_, rfl, rfl, ?_⟩
  have result := @reads_what_was_written _ { encode := .ok, decode := .ok } _
    [.write [1] none none, .flush 3, .tryRead, .flush 2, .tryRead, .write [2] none (some 0)]
    ⟨⟨rfl, _, keeps 1⟩, trivial, trivial, trivial, trivial, ⟨rfl, _, keeps 2⟩, trivial⟩ rfl
  exact ⟨result.1, result.2.1⟩

end Tail

end Aurora.Common.RecordIo
