import Aurora.Common.RecordIo

namespace Aurora.Common.RecordIo

open Framing

/-- What is given to a `StringRecordWriter`: text, bytes, or a value of another type. -/
inductive Blob
  | text (value : String)
  | bytes (value : Bytes)
  | other (type : String)
  deriving DecidableEq

namespace Blob

/-- Whether `if blob:` holds of what a reader gives. -/
def truthy : Blob → Bool
  | text value => value ≠ ""
  | bytes value => value ≠ []
  | other _ => true

end Blob

namespace StringCodec

def encodeText (value : String) : Bytes := value.toUTF8.data.toList

def decodeText (value : Bytes) : Option String := String.fromUTF8? ⟨value.toArray⟩

def encode : Blob → Except Error Bytes
  | .text value => .ok (encodeText value)
  | .bytes value => .ok value
  | .other type => .error (.invalidType s!"blob (type={type}) not String or Bytes!")

def decode (value : Bytes) : Except Error Blob :=
  match decodeText value with
  | some value => .ok (.text value)
  | none => .ok (.bytes value)

def codec : Codec Blob where
  encode := encode
  decode := decode

end StringCodec

namespace Blob

def reread : Blob → Blob
  | text value => text value
  | bytes value =>
    match StringCodec.decodeText value with
    | some value => text value
    | none => bytes value
  | other type => other type

def toBytes : Blob → Bytes
  | text value => StringCodec.encodeText value
  | bytes value => value
  | other _ => []

/-- Text or bytes, and no more of it than can be read. -/
structure Fits (blob : Blob) : Prop where
  kind : ∀ type, blob ≠ .other type
  small : blob.toBytes.length ≤ maximumRecordSize

end Blob

namespace StringCodec

theorem decodeText_encodeText (value : String) : decodeText (encodeText value) = some value := by
  have valid : value.toByteArray.IsValidUTF8 := value.isValidUTF8
  simp only [decodeText, encodeText, String.toUTF8_eq_toByteArray, Array.toArray_toList]
  rw [String.fromUTF8?, dif_pos valid]
  rfl

theorem encode_fits {blob : Blob} (fits : blob.Fits) : encode blob = .ok blob.toBytes := by
  cases blob with
  | text value => rfl
  | bytes value => rfl
  | other type => exact absurd rfl (fits.kind type)

theorem decode_toBytes {blob : Blob} (fits : blob.Fits) : decode blob.toBytes = .ok blob.reread := by
  cases blob with
  | text value =>
    rw [Blob.toBytes, decode, decodeText_encodeText]
    rfl
  | bytes value =>
    simp only [Blob.toBytes, decode, Blob.reread]
    cases decodeText value <;> rfl
  | other type => exact absurd rfl (fits.kind type)

end StringCodec

theorem takes_toBytes {blobs : List Blob} (fits : ∀ blob ∈ blobs, blob.Fits) :
    List.Forall₂ StringCodec.codec.Takes blobs (blobs.map Blob.toBytes) := by
  rw [List.forall₂_map_right_iff, List.forall₂_same]
  intro blob mem
  exact ⟨StringCodec.encode_fits (fits blob mem), lt_of_small (fits blob mem).small⟩

theorem holds_toBytes {blobs : List Blob} (fits : ∀ blob ∈ blobs, blob.Fits) :
    List.Forall₂ (format StringCodec.codec).Holds (blobs.map Blob.toBytes) (blobs.map Blob.reread) := by
  rw [List.forall₂_map_left_iff, List.forall₂_map_right_iff, List.forall₂_same]
  intro blob mem
  exact holds_of_decode (fits blob mem).small (StringCodec.decode_toBytes (fits blob mem))

/-- What was written as strings is read back from a file that is cut off anywhere: text as text, and bytes as text
    where they are UTF-8. The iteration ends in silence with the first empty string, and where a frame is cut off
    before that it raises. -/
theorem iter_strings {file : FileLike} {blobs : List Blob} (appends : file.has 'a' = true) (empty : file.content = [])
    (fits : ∀ blob ∈ blobs, blob.Fits) :
    ∃ written, (blobs.mapM fun blob => Writer.doWrite StringCodec.codec blob none none).run file =
        .ok (blobs.map fun _ => true) written ∧
      ∀ bytes,
        let read := Reader.iter StringCodec.codec Blob.truthy { written with content := written.content.take bytes }
        let there := (blobs.map Blob.reread).take (whole (blobs.map Blob.toBytes) bytes)
        read.1 = there.takeWhile Blob.truthy ∧
          if (∃ blob ∈ there, blob.truthy = false) ∨
              (written.content.take bytes).length =
                (stream ((blobs.map Blob.toBytes).take (whole (blobs.map Blob.toBytes) bytes))).length then
            read.2 = .ended
          else ∃ message, read.2 = .raised (.prematureEndOfStream message) := by
  obtain ⟨written, ran, content⟩ := mapM_doWrite appends (takes_toBytes fits)
  rw [empty, List.nil_append] at content
  refine ⟨written, ran, fun bytes => ?_⟩
  rw [content]
  apply iterate_cut (holds_toBytes fits) (by rw [List.drop_zero])
  exact Nat.lt_succ_of_le (whole_le_length _ _)

theorem iter_strings_some :
    ∃ written, ([.text "a", .text "", .bytes [98]].mapM fun blob =>
        Writer.doWrite StringCodec.codec blob none none).run { mode := "ab+" } = .ok [true, true, true] written ∧
      (Reader.iter StringCodec.codec Blob.truthy { written with content := written.content.take 14 }).1 =
        [.text "a"] := by
  obtain ⟨written, ran, read⟩ := @iter_strings { mode := "ab+" }
    [.text "a", .text "", .bytes [98]] (by decide) rfl (by
      intro blob mem
      simp only [List.mem_cons, List.not_mem_nil, or_false] at mem
      rcases mem with rfl | rfl | rfl <;> exact ⟨fun _ => Blob.noConfusion, by decide⟩)
  refine ⟨written, ran, ?_⟩
  rw [(read 14).1]
  decide

end Aurora.Common.RecordIo
