import Aurora.Library.FrameWriting

namespace Aurora.Common.RecordIo

open Framing

/-- The subclasses of `RecordIO.Error`, and what else is raised on the way. -/
inductive Error
  | prematureEndOfStream (message : String)
  | recordSizeExceeded (message : String)
  | invalidType (message : String)
  | invalidFileHandle (message : String)
  /-- `struct.error`, of a length that does not fit into four bytes -/
  | structError
  /-- raised by the library behind a codec -/
  | codecError (message : String)
  deriving DecidableEq

def maximumRecordSize : Nat := 64 * 1024 * 1024

structure Codec (β : Type) where
  encode : β → Except Error Bytes
  decode : Bytes → Except Error β

/-- An open file. -/
structure FileLike where
  mode : String
  content : Bytes := []
  position : Nat := 0

namespace FileLike

def has (file : FileLike) (c : Char) : Bool := c ∈ file.mode.toList

def read (length : Nat) (file : FileLike) : Bytes × FileLike :=
  let data := (file.content.drop file.position).take length
  (data, { file with position := file.position + data.length })

/-- What is written to a file that appends goes to its end, and else to where the file stands. -/
def put (data : Bytes) (file : FileLike) : FileLike :=
  if file.has 'a' then
    { file with content := file.content ++ data, position := file.content.length + data.length }
  else
    { file with
      content := file.content.take file.position ++ List.replicate (file.position - file.content.length) 0 ++ data ++
        file.content.drop (file.position + data.length)
      position := file.position + data.length }

/-- The write goes through, or raises an IOError after so many bytes of it. -/
def write (fault : Option Nat) (data : Bytes) (file : FileLike) : Bool × FileLike :=
  match fault with
  | none => (true, file.put data)
  | some bytes => (false, file.put (data.take bytes))

end FileLike

abbrev Stream := EStateM Error FileLike

variable {β : Type}

namespace Reader

def create (file : FileLike) : Except Error FileLike :=
  if (file.has 'w' || file.has 'a') && !file.has '+' then
    .error (.invalidFileHandle "Filehandle supplied to RecordReader does not appear to be readable!")
  else .ok file

def doRead (codec : Codec β) : Stream (Option β) := fun file =>
  let (header, file) := file.read headerSize
  if header.length = 0 then .ok none file
  else if header.length ≠ headerSize then
    .error (.prematureEndOfStream s!"Expected {headerSize} bytes in header, got {header.length}") file
  else
    let blobLen := frameLength header
    if blobLen > maximumRecordSize then .error (.recordSizeExceeded "Record exceeds maximum allowable size") file
    else
      let (readBlob, file) := file.read blobLen
      if readBlob.length ≠ blobLen then
        .error (.prematureEndOfStream s!"Expected {blobLen} bytes in frame, got {readBlob.length}") file
      else
        match codec.decode readBlob with
        | .ok blob => .ok (some blob) file
        | .error e => .error e file

def tryRead (codec : Codec β) : Stream (Option β) := fun file =>
  match doRead codec file with
  | .error (.prematureEndOfStream _) later => .ok none { later with position := file.position }
  | other => other

end Reader

namespace Writer

def create (file : FileLike) : Except Error FileLike :=
  if !file.has 'w' && !file.has 'a' && !file.has '+' then
    .error (.invalidFileHandle "Filehandle supplied to RecordWriter does not appear to be writeable!")
  else .ok file

def doWrite (codec : Codec β) (record : β) (headerFault blobFault : Option Nat) : Stream Bool := fun file =>
  match codec.encode record with
  | .error e => .error e file
  | .ok blob =>
    if 256 ^ 4 ≤ blob.length then .error .structError file
    else
      match file.write headerFault (packLength blob.length) with
      | (false, file) => .ok false file
      | (true, file) =>
        match file.write blobFault blob with
        | (false, file) => .ok false file
        | (true, file) => .ok true file

end Writer

inductive Outcome
  | ended
  | raised (e : Error)
  /-- not an outcome of the program: the rounds given to the model are used up -/
  | unfinished
  deriving DecidableEq

namespace Reader

/-- The loop of `Reader.__iter__`, which ends with the first blob that counts as false. -/
def iterate (codec : Codec β) (truthy : β → Bool) : Nat → FileLike → List β × Outcome
  | 0, _ => ([], .unfinished)
  | rounds + 1, file =>
    match doRead codec file with
    | .error e _ => ([], .raised e)
    | .ok none _ => ([], .ended)
    | .ok (some blob) file =>
      if truthy blob then (blob :: (iterate codec truthy rounds file).1, (iterate codec truthy rounds file).2)
      else ([], .ended)

/-- `list(reader)`; the file that `dup` gives starts at the beginning. -/
def iter (codec : Codec β) (truthy : β → Bool) (file : FileLike) : List β × Outcome :=
  iterate codec truthy (file.content.length + 1) { file with position := 0 }

/-- `while True: record = reader.try_read()` until there is none. -/
def drain (codec : Codec β) : Nat → FileLike → List β × Outcome × FileLike
  | 0, file => ([], .unfinished, file)
  | rounds + 1, file =>
    match tryRead codec file with
    | .error e file => ([], .raised e, file)
    | .ok none file => ([], .ended, file)
    | .ok (some blob) file => (blob :: (drain codec rounds file).1, (drain codec rounds file).2)

end Reader

def format (codec : Codec β) : Format β Error where
  maximum := maximumRecordSize
  exceeded := .recordSizeExceeded "Record exceeds maximum allowable size"
  decode bytes :=
    match codec.decode bytes with
    | .ok blob => .value blob
    | .error (.prematureEndOfStream _) => .endOfFile
    | .error e => .raised e

namespace Reader

variable {codec : Codec β} {file : FileLike}

theorem take_nonempty {bytes : Bytes} (some_byte : bytes ≠ []) : (bytes.take headerSize).length ≠ 0 := by
  rw [List.length_take, headerSize]
  have length := List.length_pos_iff.mpr some_byte
  omega

theorem nonempty_of_header {bytes : Bytes} (enough : ¬ bytes.length < headerSize) : bytes ≠ [] := by
  rintro rfl
  exact enough (Nat.succ_pos _)

theorem doRead_eq (codec : Codec β) (file : FileLike) :
    doRead codec file =
      let ahead := file.content.drop file.position
      if ahead = [] then .ok none file
      else if ahead.length < headerSize then
        .error (.prematureEndOfStream s!"Expected {headerSize} bytes in header, got {ahead.length}")
          { file with position := file.position + ahead.length }
      else
        let blobLen := frameLength (ahead.take headerSize)
        if maximumRecordSize < blobLen then
          .error (.recordSizeExceeded "Record exceeds maximum allowable size")
            { file with position := file.position + headerSize }
        else
          let blob := (ahead.drop headerSize).take blobLen
          let later := { file with position := file.position + (headerSize + blob.length) }
          if ahead.length < headerSize + blobLen then
            .error (.prematureEndOfStream s!"Expected {blobLen} bytes in frame, got {blob.length}") later
          else
            match codec.decode blob with
            | .ok blob => .ok (some blob) later
            | .error e => .error e later := by
  obtain ⟨ahead, ahead_eq⟩ : ∃ ahead, file.content.drop file.position = ahead := ⟨_, rfl⟩
  simp only [doRead, FileLike.read, ahead_eq]
  by_cases empty : ahead = []
  · simp [empty]
  · have some_byte := take_nonempty empty
    simp only [some_byte, if_false, empty]
    by_cases short : ahead.length < headerSize
    · have taken : ahead.take headerSize = ahead := List.take_of_length_le (by omega)
      have unequal : ahead.length ≠ headerSize := by omega
      simp [taken, unequal, short]
    · have taken : (ahead.take headerSize).length = headerSize := by
        rw [List.length_take]
        omega
      simp only [taken, ne_eq, not_true_eq_false, if_false, short, gt_iff_lt]
      split
      · rfl
      · have drop : file.content.drop (file.position + headerSize) = ahead.drop headerSize := by
          rw [← ahead_eq, List.drop_drop]
        rw [drop]
        have length : ((ahead.drop headerSize).take (frameLength (ahead.take headerSize))).length ≠
            frameLength (ahead.take headerSize) ↔
              ahead.length < headerSize + frameLength (ahead.take headerSize) := by
          rw [List.length_take, List.length_drop]
          omega
        simp only [← Nat.add_assoc]
        by_cases cut : ahead.length < headerSize + frameLength (ahead.take headerSize)
        · rw [if_pos (length.mpr cut), if_pos cut]
        · rw [if_neg (fun h => cut (length.mp h)), if_neg cut]

/-- `try_read` against the reading of a frame of a stream: it moves past a record that is there in full, and stays
    where it is when there is none. -/
theorem tryRead_nothing (none_there : (format codec).tryRead (file.content.drop file.position) = .nothing) :
    tryRead codec file = .ok none file := by
  rw [tryRead, doRead_eq]
  obtain ⟨ahead, known⟩ : ∃ ahead, file.content.drop file.position = ahead := ⟨_, rfl⟩
  simp only [known, Format.tryRead, format] at none_there ⊢
  by_cases empty : ahead = []
  · simp only [empty, if_true]
  by_cases short : ahead.length < headerSize
  · simp only [empty, short, if_true, if_false]
  by_cases long : maximumRecordSize < frameLength (ahead.take headerSize)
  · rw [if_neg short, if_pos long] at none_there
    cases none_there
  by_cases cut : ahead.length < headerSize + frameLength (ahead.take headerSize)
  · simp only [empty, short, long, cut, if_true, if_false]
  · simp only [empty, short, long, cut, if_false] at none_there ⊢
    split at none_there
    · cases none_there
    · rename_i decoded
      split at decoded
      · cases decoded
      · rename_i torn
        simp only [torn]
      · cases decoded
    · cases none_there

theorem tryRead_record {blob : β} {size : Nat}
    (there : (format codec).tryRead (file.content.drop file.position) = .record blob size) :
    tryRead codec file = .ok (some blob) { file with position := file.position + size } := by
  rw [tryRead, doRead_eq]
  obtain ⟨ahead, known⟩ : ∃ ahead, file.content.drop file.position = ahead := ⟨_, rfl⟩
  simp only [known, Format.tryRead, format] at there ⊢
  by_cases short : ahead.length < headerSize
  · rw [if_pos short] at there
    cases there
  by_cases long : maximumRecordSize < frameLength (ahead.take headerSize)
  · rw [if_neg short, if_pos long] at there
    cases there
  by_cases cut : ahead.length < headerSize + frameLength (ahead.take headerSize)
  · rw [if_neg short, if_neg long, if_pos cut] at there
    cases there
  · have taken : ((ahead.drop headerSize).take (frameLength (ahead.take headerSize))).length =
        frameLength (ahead.take headerSize) := by
      rw [List.length_take, List.length_drop]
      omega
    simp only [nonempty_of_header short, short, long, cut, if_false, taken] at there ⊢
    split at there
    · rename_i decoded
      split at decoded
      · rename_i read
        cases there
        cases decoded
        simp only [read]
      · cases decoded
      · cases decoded
    · cases there
    · cases there

/-- A raising `try_read` leaves the file behind the header, or behind the frame that it could not decode. -/
theorem tryRead_raised {e : Error} (raised : (format codec).tryRead (file.content.drop file.position) = .raised e) :
    ∃ size, headerSize ≤ size ∧ size ≤ (file.content.drop file.position).length ∧
      tryRead codec file = .error e { file with position := file.position + size } := by
  rw [tryRead, doRead_eq]
  obtain ⟨ahead, known⟩ : ∃ ahead, file.content.drop file.position = ahead := ⟨_, rfl⟩
  simp only [known, Format.tryRead, format] at raised ⊢
  by_cases short : ahead.length < headerSize
  · rw [if_pos short] at raised
    cases raised
  by_cases long : maximumRecordSize < frameLength (ahead.take headerSize)
  · rw [if_neg short, if_pos long] at raised
    cases raised
    refine ⟨headerSize, Nat.le_refl _, by omega, ?_⟩
    simp only [nonempty_of_header short, short, long, if_false, if_true]
  by_cases cut : ahead.length < headerSize + frameLength (ahead.take headerSize)
  · rw [if_neg short, if_neg long, if_pos cut] at raised
    cases raised
  · simp only [nonempty_of_header short, short, long, cut, if_false] at raised ⊢
    refine ⟨_, Nat.le_add_right headerSize ((ahead.drop headerSize).take (frameLength (ahead.take headerSize))).length,
      ?_, ?_⟩
    · rw [List.length_take, List.length_drop]
      omega
    · split at raised
      · cases raised
      · cases raised
      · rename_i decoded
        split at decoded
        · cases decoded
        · cases decoded
        · rename_i not_premature read
          cases raised
          cases decoded
          simp only [read]
          split
          · rename_i same
            cases same
            exact absurd rfl (not_premature _)
          · rfl

theorem drain_reads {records : List β} {size : Nat}
    (reads : Reads (format codec) (file.content.drop file.position) records size) (rounds : Nat) :
    drain codec (records.length + rounds) file =
      (records ++ (drain codec rounds { file with position := file.position + size }).1,
        (drain codec rounds { file with position := file.position + size }).2) := by
  generalize ahead : file.content.drop file.position = bytes at reads
  induction reads generalizing file with
  | start bytes => rw [List.length_nil, Nat.zero_add, Nat.add_zero, List.nil_append]
  | record read further ih =>
    subst ahead
    rename_i size _ _
    have rest := @ih { file with position := file.position + size } List.drop_drop.symm
    rw [List.length_cons, Nat.add_right_comm, drain, tryRead_record read]
    simp only [rest, Nat.add_assoc, List.cons_append]

theorem drain_complete {records : List β} {size rounds : Nat}
    (complete : Complete (format codec) (file.content.drop file.position) records size)
    (enough : records.length < rounds) :
    drain codec rounds file = (records, .ended, { file with position := file.position + size }) := by
  obtain ⟨reads, ended⟩ := complete
  obtain ⟨further, rfl⟩ : ∃ further, rounds = records.length + (further + 1) :=
    ⟨rounds - records.length - 1, by omega⟩
  rw [List.drop_drop] at ended
  rw [drain_reads reads, drain, tryRead_nothing ended, List.append_nil]

end Reader

section Writing

variable {codec : Codec β} {record : β} {records : List β} {blob : Bytes} {blobs : List Bytes} {file later : FileLike}

theorem put_appends (appends : file.has 'a' = true) (data : Bytes) :
    file.put data = { file with
      content := file.content ++ data, position := file.content.length + data.length } := by
  rw [FileLike.put, if_pos appends]

/-- `do_write` leaves a part of the frame at the end of the file, and the whole of it where it returns True. -/
theorem doWrite_cases {headerFault blobFault : Option Nat} {done : Bool} (appends : file.has 'a' = true)
    (ran : Writer.doWrite codec record headerFault blobFault file = .ok done later) :
    ∃ blob bytes, codec.encode record = .ok blob ∧ later.mode = file.mode ∧
      later.content = file.content ++ (frame blob).take bytes ∧ (done = true → (frame blob).length ≤ bytes) := by
  rw [Writer.doWrite] at ran
  split at ran
  · cases ran
  · rename_i blob encoded
    split_ifs at ran
    cases headerFault with
    | some bytes =>
      simp only [FileLike.write, put_appends appends] at ran
      cases ran
      refine ⟨blob, min bytes headerSize, encoded, rfl, ?_, Bool.noConfusion⟩
      rw [frame, List.take_append_of_le_length (by rw [length_packLength]; omega)]
      rw [← List.take_take, List.take_of_length_le (Nat.le_of_eq (length_packLength _))]
    | none =>
      have still : (file.put (packLength blob.length)).has 'a' = true := by rw [put_appends appends]; exact appends
      cases blobFault with
      | some bytes =>
        simp only [FileLike.write, put_appends still] at ran
        rw [put_appends appends] at ran
        cases ran
        refine ⟨blob, headerSize + bytes, encoded, rfl, ?_, Bool.noConfusion⟩
        rw [frame, List.append_assoc, ← length_packLength blob.length, List.take_length_add_append]
      | none =>
        simp only [FileLike.write, put_appends still] at ran
        rw [put_appends appends] at ran
        cases ran
        refine ⟨blob, (frame blob).length, encoded, rfl, ?_, fun _ => Nat.le_refl _⟩
        rw [frame, List.append_assoc, List.take_length]

theorem doWrite_done (appends : file.has 'a' = true) (encoded : codec.encode record = .ok blob)
    (fits : blob.length < 256 ^ 4) :
    Writer.doWrite codec record none none file =
      .ok true { file with
        content := file.content ++ frame blob, position := (file.content ++ frame blob).length } := by
  have still : (file.put (packLength blob.length)).has 'a' = true := by rw [put_appends appends]; exact appends
  simp only [Writer.doWrite, encoded, Nat.not_le.mpr fits, if_false, FileLike.write, put_appends still]
  simp only [put_appends appends, frame, List.append_assoc, List.length_append, Nat.add_assoc]

def Codec.Takes (codec : Codec β) (record : β) (blob : Bytes) : Prop :=
  codec.encode record = .ok blob ∧ blob.length < 256 ^ 4

theorem mapM_doWrite (appends : file.has 'a' = true) (takes : List.Forall₂ codec.Takes records blobs) :
    ∃ written, (records.mapM fun record => Writer.doWrite codec record none none).run file =
        .ok (records.map fun _ => true) written ∧ written.content = file.content ++ stream blobs := by
  induction takes generalizing file with
  | nil => exact ⟨file, rfl, (List.append_nil _).symm⟩
  | @cons record blob records blobs first rest ih =>
    obtain ⟨written, ran, content⟩ := @ih { file with
      content := file.content ++ frame blob, position := (file.content ++ frame blob).length } appends
    refine ⟨written, ?_, by rw [content, stream_cons, List.append_assoc]⟩
    rw [EStateM.run] at ran
    have done := doWrite_done appends first.1 first.2
    simp only [List.mapM_cons, List.map_cons, EStateM.run, bind, EStateM.bind, done, ran]
    rfl

/-- The codec gives the record back from its frame, which is not too large to be read. -/
def Codec.Keeps (codec : Codec β) (record : β) (blob : Bytes) : Prop :=
  codec.encode record = .ok blob ∧ blob.length ≤ maximumRecordSize ∧ codec.decode blob = .ok record

theorem lt_of_small (small : blob.length ≤ maximumRecordSize) : blob.length < 256 ^ 4 := by
  rw [maximumRecordSize] at small
  omega

theorem holds_of_decode (small : blob.length ≤ maximumRecordSize) (decoded : codec.decode blob = .ok record) :
    (format codec).Holds blob record :=
  ⟨lt_of_small small, small, by simp only [format, decoded]⟩

theorem Codec.Keeps.takes (keeps : codec.Keeps record blob) : codec.Takes record blob :=
  ⟨keeps.1, lt_of_small keeps.2.1⟩

theorem Codec.Keeps.holds (keeps : codec.Keeps record blob) : (format codec).Holds blob record :=
  holds_of_decode keeps.2.1 keeps.2.2

/-- What was written record after record is read back as far as the frames are there in full, wherever the file is cut
    off; the reader then stands behind the last of them. -/
theorem drain_written (appends : file.has 'a' = true) (empty : file.content = [])
    (keeps : List.Forall₂ codec.Keeps records blobs) :
    ∃ written, (records.mapM fun record => Writer.doWrite codec record none none).run file =
        .ok (records.map fun _ => true) written ∧
      ∀ bytes rounds, records.length < rounds →
        ∃ count, count ≤ records.length ∧
          (stream (blobs.take count)).length ≤ bytes ∧
          (∀ blob ∈ blobs[count]?, bytes < (stream (blobs.take count)).length + (headerSize + blob.length)) ∧
          Reader.drain codec rounds { written with content := written.content.take bytes, position := 0 } =
            (records.take count, .ended, { written with
              content := written.content.take bytes, position := (stream (blobs.take count)).length }) := by
  obtain ⟨written, ran, content⟩ := mapM_doWrite appends (keeps.imp fun _ _ => Codec.Keeps.takes)
  refine ⟨written, ran, fun bytes rounds enough => ⟨whole blobs bytes, ?_, (whole_spec blobs bytes).1, ?_, ?_⟩⟩
  · rw [keeps.length_eq]
    exact whole_le blobs bytes
  · intro blob mem
    rw [← length_frame]
    exact (whole_spec blobs bytes).2 blob mem
  · rw [empty, List.nil_append] at content
    have complete := complete_cut (keeps.flip.imp fun _ _ => Codec.Keeps.holds) bytes
    rw [← content] at complete
    have read := @Reader.drain_complete _ codec
      { written with content := written.content.take bytes, position := 0 } _ _ rounds complete
      (by rw [List.length_take]; omega)
    rw [read, Nat.zero_add]

theorem drain_written_two :
    ∃ written, ([[1], [2]].mapM fun record =>
        Writer.doWrite { encode := .ok, decode := .ok } record none none).run { mode := "ab+" } =
          .ok [true, true] written ∧
      Reader.drain { encode := .ok, decode := .ok } 3
          { written with content := written.content.take 7, position := 0 } =
        ([[1]], .ended, { written with content := written.content.take 7, position := 5 }) := by
  have keeps : List.Forall₂ (Codec.Keeps { encode := .ok, decode := .ok }) [[1], [2]] [[1], [2]] := by
    rw [List.forall₂_same]
    intro blob mem
    refine ⟨rfl, ?_, rfl⟩
    rcases List.mem_pair.mp mem with rfl | rfl <;> decide
  obtain ⟨written, ran, read⟩ := @drain_written _ _ _ _ { mode := "ab+" } (by decide) rfl keeps
  obtain ⟨count, le, within, beyond, drained⟩ := read 7 3 (by decide)
  refine ⟨written, ran, ?_⟩
  obtain rfl : count = 1 := by
    match count, le with
    | 0, _ => exact absurd (beyond [1] rfl) (by decide)
    | 1, _ => rfl
    | 2, _ => exact absurd within (by decide)
  exact drained

/-- The codec gives the record back from its frame, which is of any size. -/
def Codec.Encodes (codec : Codec β) (record : β) (blob : Bytes) : Prop :=
  codec.Takes record blob ∧ codec.decode blob = .ok record

theorem holds_takeWhile (encodes : List.Forall₂ codec.Encodes records blobs) :
    List.Forall₂ (format codec).Holds (blobs.takeWhile fun blob => blob.length ≤ maximumRecordSize)
      (records.take (blobs.takeWhile fun blob => blob.length ≤ maximumRecordSize).length) := by
  induction encodes with
  | nil => exact .nil
  | @cons record blob records blobs first rest ih =>
    by_cases small : blob.length ≤ maximumRecordSize
    · rw [List.takeWhile_cons_of_pos (by simpa using small), List.length_cons, List.take_succ_cons]
      exact .cons (holds_of_decode small first.2) ih
    · rw [List.takeWhile_cons_of_neg (by simpa using small), List.length_nil, List.take_zero]
      exact .nil

theorem fits_of_mem (encodes : List.Forall₂ codec.Encodes records blobs) (mem : blob ∈ blobs) :
    blob.length < 256 ^ 4 := by
  induction encodes with
  | nil => cases mem
  | cons first rest ih =>
    rcases List.mem_cons.mp mem with rfl | later
    · exact first.1.2
    · exact ih later

/-- A record of any size that fits into a frame is acknowledged, but a reader only gets to the first one that is too
    large, and raises there. -/
theorem drain_oversized (appends : file.has 'a' = true) (empty : file.content = [])
    (encodes : List.Forall₂ codec.Encodes records blobs) :
    ∃ written, (records.mapM fun record => Writer.doWrite codec record none none).run file =
        .ok (records.map fun _ => true) written ∧
      ∀ rounds, records.length < rounds →
        let small := blobs.takeWhile fun blob => blob.length ≤ maximumRecordSize
        let read := Reader.drain codec rounds { written with position := 0 }
        read.1 = records.take small.length ∧
          read.2.1 = if small.length = blobs.length then .ended
            else .raised (.recordSizeExceeded "Record exceeds maximum allowable size") := by
  obtain ⟨written, ran, content⟩ := mapM_doWrite appends (encodes.imp fun _ _ => And.left)
  refine ⟨written, ran, ?_⟩
  intro rounds enough small read
  have split : small ++ blobs.dropWhile (fun blob => blob.length ≤ maximumRecordSize) = blobs :=
    List.takeWhile_append_dropWhile
  have holds : List.Forall₂ (format codec).Holds small (records.take small.length) := holds_takeWhile encodes
  have length := holds.length_eq
  obtain ⟨further, rfl⟩ : ∃ further, rounds = (records.take small.length).length + (further + 1) := by
    refine ⟨rounds - (records.take small.length).length - 1, ?_⟩
    rw [List.length_take]
    omega
  have reads := reads_stream holds (stream (blobs.dropWhile fun blob => blob.length ≤ maximumRecordSize))
  rw [← stream_append, split] at reads
  have behind : written.content.drop (stream small).length =
      stream (blobs.dropWhile fun blob => blob.length ≤ maximumRecordSize) := by
    rw [content, empty, List.nil_append, ← split, stream_append, split, List.drop_left]
  have drained := @Reader.drain_reads _ codec { written with position := 0 } _ _
    (by rw [List.drop_zero, content, empty]; exact reads) (further + 1)
  rw [Nat.zero_add, Reader.drain] at drained
  simp only [read, drained]
  cases rest : blobs.dropWhile fun blob => blob.length ≤ maximumRecordSize with
  | nil =>
    rw [rest] at behind split
    rw [List.append_nil] at split
    rw [Reader.tryRead_nothing (by rw [behind]; rfl)]
    simp [split]
  | cons blob more =>
    have large : ¬ blob.length ≤ maximumRecordSize := by
      have first := List.head_dropWhile_not (fun blob : Bytes => decide (blob.length ≤ maximumRecordSize))
        (l := blobs) (by rw [rest]; exact List.cons_ne_nil _ _)
      simpa [rest] using first
    have fits : blob.length < 256 ^ 4 := by
      have mem : blob ∈ blobs := by
        rw [← split, rest]
        simp
      exact fits_of_mem encodes mem
    rw [rest] at behind
    obtain ⟨size, -, -, raised⟩ := @Reader.tryRead_raised _ codec
      { written with position := (stream small).length } _
      (by rw [behind, stream_cons]; exact tryRead_oversized fits (Nat.not_le.mp large) _)
    have shorter : small.length ≠ blobs.length := by
      rw [← split, rest, List.length_append, List.length_cons]
      omega
    rw [raised]
    simp [shorter, format]

theorem drain_oversized_second :
    ∃ written, ([[1], List.replicate (maximumRecordSize + 1) 0, [2]].mapM fun record =>
        Writer.doWrite { encode := .ok, decode := .ok } record none none).run { mode := "ab+" } =
          .ok [true, true, true] written ∧
      (Reader.drain { encode := .ok, decode := .ok } 4 { written with position := 0 }).1 = [[1]] := by
  have encodes : List.Forall₂ (Codec.Encodes { encode := .ok, decode := .ok })
      [[1], List.replicate (maximumRecordSize + 1) 0, [2]] [[1], List.replicate (maximumRecordSize + 1) 0, [2]] := by
    rw [List.forall₂_same]
    intro blob mem
    refine ⟨⟨rfl, ?_⟩, rfl⟩
    simp only [List.mem_cons, List.not_mem_nil, or_false] at mem
    rcases mem with rfl | rfl | rfl
    · decide
    · rw [List.length_replicate, maximumRecordSize]
      decide
    · decide
  obtain ⟨written, ran, read⟩ := @drain_oversized _ _ _ _ { mode := "ab+" } (by decide) rfl encodes
  refine ⟨written, ran, ?_⟩
  rw [(read 4 (by decide)).1, List.takeWhile_cons_of_pos (by decide), List.takeWhile_cons_of_neg (by simp)]
  rfl

end Writing

section Iterating

variable {codec : Codec β} {truthy : β → Bool} {records : List β} {blobs : List Bytes} {file : FileLike}

theorem doRead_of_tryRead {blob : β} {later : FileLike} (read : Reader.tryRead codec file = .ok (some blob) later) :
    Reader.doRead codec file = .ok (some blob) later := by
  rw [Reader.tryRead] at read
  split at read
  · cases read
  · exact read

/-- The error of a frame that is cut off, which `try_read` would have swallowed. -/
theorem doRead_torn {blob : Bytes} {record : β} {bytes : Nat} (holds : (format codec).Holds blob record)
    (torn : bytes < (frame blob).length) (ahead : file.content.drop file.position = (frame blob).take bytes)
    (some_byte : file.content.drop file.position ≠ []) :
    ∃ message later, Reader.doRead codec file = .error (.prematureEndOfStream message) later := by
  have swallowed := @Reader.tryRead_nothing _ codec file (by rw [ahead]; exact tryRead_torn holds torn)
  rw [Reader.tryRead] at swallowed
  split at swallowed
  · rename_i raised
    exact ⟨_, _, raised⟩
  · rw [Reader.doRead_eq] at swallowed
    simp only [some_byte, if_false] at swallowed
    split_ifs at swallowed
    split at swallowed <;> cases swallowed

/-- An iteration gives the records up to the first that counts as false. It ends with that one in silence, or where
    the file ends behind a frame; else it raises. -/
theorem iterate_cut (holds : List.Forall₂ (format codec).Holds blobs records) {bytes rounds : Nat}
    (ahead : file.content.drop file.position = (stream blobs).take bytes) (enough : whole blobs bytes < rounds) :
    (Reader.iterate codec truthy rounds file).1 = (records.take (whole blobs bytes)).takeWhile truthy ∧
      if (∃ record ∈ records.take (whole blobs bytes), truthy record = false) ∨
          ((stream blobs).take bytes).length = (stream (blobs.take (whole blobs bytes))).length then
        (Reader.iterate codec truthy rounds file).2 = .ended
      else ∃ message, (Reader.iterate codec truthy rounds file).2 = .raised (.prematureEndOfStream message) := by
  induction holds generalizing file bytes rounds with
  | nil =>
    cases rounds with
    | zero => exact absurd enough (Nat.not_lt_zero _)
    | succ rounds =>
      rw [stream_nil, List.take_nil] at ahead
      simp [Reader.iterate, Reader.doRead_eq, ahead]
  | @cons blob record blobs records first rest ih =>
    cases rounds with
    | zero => exact absurd enough (Nat.not_lt_zero _)
    | succ rounds =>
      rw [stream_cons] at ahead ⊢
      by_cases fits : (frame blob).length ≤ bytes
      · have cut : (frame blob ++ stream blobs).take bytes =
            frame blob ++ (stream blobs).take (bytes - (frame blob).length) := by
          rw [List.take_append, List.take_of_length_le fits]
        have read := doRead_of_tryRead (@Reader.tryRead_record _ codec file _ _
          (by rw [ahead, cut]; exact tryRead_frame first _))
        have further : file.content.drop (file.position + (frame blob).length) =
            (stream blobs).take (bytes - (frame blob).length) := by
          rw [← List.drop_drop, ahead, cut, List.drop_left]
        have later := @ih { file with position := file.position + (frame blob).length }
          (bytes - (frame blob).length) rounds further (by rw [whole, if_pos fits] at enough; omega)
        rw [whole, if_pos fits, List.take_succ_cons, List.take_succ_cons, stream_cons, cut, Reader.iterate, read]
        cases counts : truthy record with
        | false => simp [counts]
        | true => simpa [counts, -length_frame] using later
      · rw [List.take_append_of_le_length (by omega)] at ahead ⊢
        rw [whole, if_neg fits, List.take_zero, List.take_zero, stream_nil, Reader.iterate]
        by_cases none_there : file.content.drop file.position = []
        · rw [← ahead, Reader.doRead_eq]
          simp [none_there]
        · obtain ⟨message, later, raised⟩ := doRead_torn first (by omega) ahead none_there
          rw [raised, ← ahead]
          have some_byte := List.length_pos_iff.mpr none_there
          rw [List.length_drop] at some_byte
          simp
          omega

end Iterating

end Aurora.Common.RecordIo
