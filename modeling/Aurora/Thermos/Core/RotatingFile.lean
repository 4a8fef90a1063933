import Aurora.Library.Files
import Mathlib.Data.List.Infix

namespace Aurora.Thermos

open Collections Files Framing

structure RotatingFileHandler where
  filename : List Char
  maxBytes : Int
  maxBackups : Int
  /-- `self.file.tell()` -/
  position : Nat
  backed : maxBytes > 0 → maxBackups > 0

namespace RotatingFileHandler

def create (disk : Disk (List Char)) (filename : List Char) (maxBytes maxBackups : Int) (mode : OpenMode) :
    Except String (RotatingFileHandler × Disk (List Char)) :=
  if lacking : maxBytes > 0 ∧ maxBackups ≤ 0 then
    .error "A positive value for max_backups must be specified if max_bytes > 0."
  else
    let (disk, position) := openFile disk filename mode
    .ok ({ filename, maxBytes, maxBackups, position, backed := fun limited => by omega }, disk)

/-- It does not matter if there is no file to move. -/
def swapFiles (src tgt : List Char) (disk : Disk (List Char)) : Disk (List Char) :=
  let disk := if (disk.get? tgt).isSome then disk.erase tgt else disk
  (rename disk src tgt).getD disk

def makeIndexedFilename (filename : List Char) (index : Nat) : List Char := filename ++ '.' :: Nat.toDigits 10 index

def shouldRollover (handler : RotatingFileHandler) : Bool :=
  if handler.maxBytes ≤ 0 ∨ handler.maxBackups ≤ 0 then false else handler.position ≥ handler.maxBytes

def shift (filename : List Char) (disk : Disk (List Char)) (i : Nat) : Disk (List Char) :=
  let src := makeIndexedFilename filename i
  let tgt := makeIndexedFilename filename (i + 1)
  if (disk.get? src).isSome then swapFiles src tgt disk else disk

def downFrom : Nat → List Nat
  | 0 => []
  | last + 1 => (last + 1) :: downFrom last

def rollover (handler : RotatingFileHandler) (disk : Disk (List Char)) : RotatingFileHandler × Disk (List Char) :=
  let disk := (downFrom (handler.maxBackups - 1).toNat).foldl (shift handler.filename) disk
  let disk := swapFiles handler.filename (makeIndexedFilename handler.filename 1) disk
  let (disk, position) := openFile disk handler.filename .wb
  ({ handler with position }, disk)

def write : RotatingFileHandler × Disk (List Char) → Bytes → RotatingFileHandler × Disk (List Char)
  | (handler, disk), b =>
    let contents := overwrite ((disk.get? handler.filename).getD []) handler.position b
    let disk := disk.set handler.filename contents
    let handler := { handler with position := handler.position + b.length }
    if handler.shouldRollover then handler.rollover disk else (handler, disk)

section Names

variable {filename : List Char}

theorem indexed_inj {i j : Nat} : makeIndexedFilename filename i = makeIndexedFilename filename j ↔ i = j := by
  refine ⟨fun same => ?_, fun same => same ▸ rfl⟩
  have digits : Nat.toDigits 10 i = Nat.toDigits 10 j := by simpa [makeIndexedFilename] using same
  rw [← Nat.ofDigitChars_ten_toDigits (n := i), digits, Nat.ofDigitChars_ten_toDigits]

@[simp] theorem indexed_ne (i : Nat) : makeIndexedFilename filename i ≠ filename := by
  intro same
  have length := congrArg List.length same
  simp [makeIndexedFilename] at length

end Names

section Shifts

variable {filename : List Char} {disk : Disk (List Char)}

theorem get?_swapFiles {src tgt : List Char} (apart : src ≠ tgt) (path : List Char) :
    (swapFiles src tgt disk).get? path =
      if path = tgt then disk.get? src else if path = src then none else disk.get? path := by
  have cleared (key : List Char) : (if (disk.get? tgt).isSome then disk.erase tgt else disk).get? key =
      if key = tgt then none else disk.get? key := by
    split
    · rw [Dict.get?_erase]
    · split
      · simp_all
      · rfl
  have source := cleared src
  rw [if_neg apart] at source
  cases held : disk.get? src with
  | none =>
    rw [swapFiles, rename_absent (source.trans held), Option.getD_none, cleared]
    split
    · rfl
    · split
      · simp_all
      · rfl
  | some contents =>
    rw [swapFiles, get?_rename (source.trans held), cleared]
    split <;> rfl

theorem swapFiles_apart {src tgt path : List Char} (apart : src ≠ tgt) (other : path ≠ src) (another : path ≠ tgt) :
    (swapFiles src tgt disk).get? path = disk.get? path := by
  rw [get?_swapFiles apart, if_neg another, if_neg other]

def slot (filename : List Char) (disk : Disk (List Char)) : Nat → Option Bytes
  | 0 => none
  | i + 1 => disk.get? (makeIndexedFilename filename (i + 1))

theorem slot_shift (i j : Nat) :
    slot filename (shift filename disk (i + 1)) j =
      if j = i + 2 then (slot filename disk (i + 1)).or (slot filename disk (i + 2))
      else if j = i + 1 then none else slot filename disk j := by
  cases j with
  | zero => simp [slot]
  | succ j =>
    rw [slot, shift]
    cases held : disk.get? (makeIndexedFilename filename (i + 1)) with
    | none =>
      simp only [Option.isSome_none, Bool.false_eq_true, if_false, slot, held, Option.none_or]
      split
      · rename_i same
        rw [same]
      · split
        · rename_i same
          rw [same, held]
        · rfl
    | some contents =>
      have apart : makeIndexedFilename filename (i + 1) ≠ makeIndexedFilename filename (i + 1 + 1) :=
        indexed_inj.not.mpr (by omega)
      simp only [Option.isSome_some, if_true, get?_swapFiles apart, indexed_inj, slot, held, Option.some_or]

/-- The loop moves each backup up by one; the one with the highest index is overwritten if there is one to move
    over it. -/
theorem slot_shifts (m j : Nat) :
    slot filename ((downFrom m).foldl (shift filename) disk) j =
      if j ≤ m then slot filename disk (j - 1)
      else if j = m + 1 then (slot filename disk m).or (slot filename disk (m + 1)) else slot filename disk j := by
  induction m generalizing disk j with
  | zero =>
    rw [downFrom, List.foldl_nil]
    rcases j with _ | _ | j
    · simp [slot]
    · simp [slot]
    · simp
  | succ m ih =>
    rw [downFrom, List.foldl_cons, ih]
    simp only [slot_shift]
    rcases Nat.lt_trichotomy j (m + 1) with below | rfl | above
    · rw [if_pos (by omega : j ≤ m), if_neg (by omega : ¬ j - 1 = m + 2), if_neg (by omega : ¬ j - 1 = m + 1),
        if_pos (by omega : j ≤ m + 1)]
    · simp
    · rw [if_neg (by omega : ¬ j ≤ m), if_neg (by omega : ¬ j = m + 1), if_neg (by omega : ¬ j ≤ m + 1),
        if_neg (by omega : ¬ j = m + 1)]

theorem get?_shifts (m : Nat) :
    ((downFrom m).foldl (shift filename) disk).get? filename = disk.get? filename := by
  induction m generalizing disk with
  | zero => rfl
  | succ m ih =>
    rw [downFrom, List.foldl_cons, ih, shift]
    split
    · exact swapFiles_apart (indexed_inj.not.mpr (by omega)) (indexed_ne _).symm (indexed_ne _).symm
    · rfl

def Apart (filename path : List Char) : Prop := path ≠ filename ∧ ∀ i, path ≠ makeIndexedFilename filename (i + 1)

theorem shift_apart {path : List Char} (apart : Apart filename path) (i : Nat) :
    (shift filename disk (i + 1)).get? path = disk.get? path := by
  rw [shift]
  split
  · exact swapFiles_apart (indexed_inj.not.mpr (by omega)) (apart.2 i) (apart.2 (i + 1))
  · rfl

theorem shifts_apart {path : List Char} (apart : Apart filename path) (m : Nat) :
    ((downFrom m).foldl (shift filename) disk).get? path = disk.get? path := by
  induction m generalizing disk with
  | zero => rfl
  | succ m ih => rw [downFrom, List.foldl_cons, ih, shift_apart apart]

theorem rollover_apart {handler : RotatingFileHandler} {path : List Char} (apart : Apart handler.filename path) :
    (handler.rollover disk).2.get? path = disk.get? path := by
  simp only [rollover, openFile]
  rw [Dict.get?_set_ne _ _ apart.1, swapFiles_apart (indexed_ne 1).symm apart.1 (apart.2 0), shifts_apart apart]

/-- A rollover puts what the file held first among the backups, of which so many are kept. -/
theorem slot_rollover {handler : RotatingFileHandler} {backups : List Bytes} {contents : Bytes}
    (some_backup : 1 ≤ handler.maxBackups) (held : disk.get? handler.filename = some contents)
    (slots : ∀ i, slot handler.filename disk (i + 1) = (backups.take handler.maxBackups.toNat)[i]?) (i : Nat) :
    slot handler.filename (handler.rollover disk).2 (i + 1) =
      ((contents :: backups).take handler.maxBackups.toNat)[i]? := by
  obtain ⟨last, size⟩ : ∃ last, handler.maxBackups.toNat = last + 1 := ⟨handler.maxBackups.toNat - 1, by omega⟩
  have rounds : (handler.maxBackups - 1).toNat = last := by omega
  have apart (i : Nat) : handler.filename ≠ makeIndexedFilename handler.filename i := (indexed_ne i).symm
  have moved (i : Nat) : slot handler.filename (handler.rollover disk).2 (i + 1) =
      if i = 0 then some contents
      else slot handler.filename ((downFrom last).foldl (shift handler.filename) disk) (i + 1) := by
    simp only [slot, rollover, openFile, rounds, Dict.get?_set, get?_swapFiles (apart 1), indexed_inj,
      indexed_ne, if_false, get?_shifts, held, Nat.add_eq_right]
  rw [size] at slots ⊢
  rw [moved, slot_shifts]
  rcases i with _ | i
  · rfl
  · rw [if_neg (Nat.succ_ne_zero i), List.take_succ_cons, List.getElem?_cons_succ]
    rcases Nat.lt_trichotomy (i + 1) last with below | rfl | above
    · rw [if_pos (by omega : i + 1 + 1 ≤ last), Nat.add_sub_cancel, slots, List.getElem?_take_of_lt (by omega),
        List.getElem?_take_of_lt (by omega)]
    · rw [if_neg (by omega : ¬ i + 1 + 1 ≤ i + 1), if_pos rfl, slots, slots, List.getElem?_take_of_lt (by omega),
        List.getElem?_take_of_lt (by omega), List.getElem?_take_of_lt (by omega)]
      rcases Nat.lt_or_ge i backups.length with inside | outside
      · rw [List.getElem?_eq_getElem inside, Option.some_or]
      · rw [List.getElem?_eq_none outside, Option.none_or, List.getElem?_eq_none (by omega)]
    · rw [if_neg (by omega : ¬ i + 1 + 1 ≤ last), if_neg (by omega : ¬ i + 1 + 1 = last + 1), slots,
        List.getElem?_take_eq_none (by omega), List.getElem?_take_eq_none (by omega)]

end Shifts

end RotatingFileHandler

/-- The writes to a log by segments, the newest of the closed ones first. -/
structure Segments where
  closed : List (List Bytes) := []
  current : List Bytes := []

namespace Segments

def size (segment : List Bytes) : Nat := segment.flatten.length

def write (maxBytes : Int) (log : Segments) (b : Bytes) : Segments :=
  if maxBytes ≤ size (log.current ++ [b]) then { closed := (log.current ++ [b]) :: log.closed }
  else { log with current := log.current ++ [b] }

structure Filled (maxBytes : Int) (segment : List Bytes) : Prop where
  least : maxBytes ≤ size segment
  most : ∃ last, segment.getLast? = some last ∧ size segment < maxBytes + last.length

structure Of (maxBytes : Int) (log : Segments) (writes : List Bytes) : Prop where
  written : writes = log.closed.reverse.flatten ++ log.current
  filled : ∀ segment ∈ log.closed, Filled maxBytes segment
  room : size log.current < maxBytes

theorem Of.write {maxBytes : Int} {log : Segments} {writes : List Bytes} (limited : 0 < maxBytes)
    (of : log.Of maxBytes writes)
    (b : Bytes) : (log.write maxBytes b).Of maxBytes (writes ++ [b]) := by
  have before := of.room
  rw [Segments.write]
  split
  · rename_i full
    refine ⟨by simp [of.written], fun segment mem => ?_, by simpa [size] using limited⟩
    rcases List.mem_cons.mp mem with rfl | old
    · refine ⟨full, b, by simp, ?_⟩
      simp only [size, List.flatten_append, List.flatten_singleton, List.length_append] at before ⊢
      omega
    · exact of.filled segment old
  · rename_i room
    exact ⟨by simp [of.written], of.filled, not_le.mp room⟩

end Segments

namespace RotatingFileHandler

/-- The disk holds the current segment and, of the closed ones, as many of the newest as there may be backups. -/
structure Shows (initial : Disk (List Char)) (filename : List Char) (maxBytes maxBackups : Int)
    (state : RotatingFileHandler × Disk (List Char)) (log : Segments) : Prop where
  named : state.1.filename = filename
  limited : state.1.maxBytes = maxBytes
  bounded : state.1.maxBackups = maxBackups
  current : state.2.get? filename = some log.current.flatten
  position : state.1.position = Segments.size log.current
  backups : ∀ i, slot filename state.2 (i + 1) = ((log.closed.map List.flatten).take maxBackups.toNat)[i]?
  others : ∀ path, Apart filename path → state.2.get? path = initial.get? path

theorem slot_set (filename : List Char) (disk : Disk (List Char)) (contents : Bytes) (i : Nat) :
    slot filename (disk.set filename contents) i = slot filename disk i := by
  cases i with
  | zero => rfl
  | succ i => rw [slot, slot, Dict.get?_set, if_neg (indexed_ne _)]

theorem rollover_current (handler : RotatingFileHandler) (disk : Disk (List Char)) :
    (handler.rollover disk).2.get? handler.filename = some [] := by
  simp [rollover, openFile]

section Runs

variable {initial : Disk (List Char)} {filename : List Char} {maxBytes maxBackups : Int}

theorem Shows.write {state : RotatingFileHandler × Disk (List Char)} {log : Segments} (limited : 0 < maxBytes)
    (shows_ : Shows initial filename maxBytes maxBackups state log) (b : Bytes) :
    Shows initial filename maxBytes maxBackups (write state b) (log.write maxBytes b) := by
  obtain ⟨handler, disk⟩ := state
  obtain ⟨rfl, rfl, rfl, current, position, backups, others⟩ := shows_
  simp only at current position backups limited others
  have backed := handler.backed limited
  have contents : overwrite ((disk.get? handler.filename).getD []) handler.position b =
      (log.current ++ [b]).flatten := by
    rw [current, Option.getD_some, position, Segments.size, overwrite_end]
    simp
  have moved : handler.position + b.length = Segments.size (log.current ++ [b]) := by simp [position, Segments.size]
  have rolls : shouldRollover { handler with position := handler.position + b.length } =
      decide (handler.maxBytes ≤ Segments.size (log.current ++ [b])) := by
    simp [shouldRollover, moved, not_le.mpr limited, not_le.mpr backed]
  have untouched (path : List Char) (apart : Apart handler.filename path) :
      (disk.set handler.filename (log.current ++ [b]).flatten).get? path = initial.get? path := by
    rw [Dict.get?_set_ne _ _ apart.1, others path apart]
  simp only [RotatingFileHandler.write, contents, rolls, decide_eq_true_eq, Segments.write]
  split
  · refine ⟨rfl, rfl, rfl, rollover_current _ _, rfl, fun i => ?_, fun path apart => ?_⟩
    · exact slot_rollover backed (Dict.get?_set_self ..) (fun i => (slot_set ..).trans (backups i)) i
    · exact (rollover_apart apart).trans (untouched path apart)
  · refine ⟨rfl, rfl, rfl, Dict.get?_set_self _ _ _, moved, fun i => ?_, untouched⟩
    simp only [slot_set]
    exact backups i

/-- Neither the log nor any of its backups is there yet. -/
def Fresh (disk : Disk (List Char)) (filename : List Char) : Prop :=
  disk.get? filename = none ∧ ∀ index, disk.get? (makeIndexedFilename filename index) = none

theorem create_shows {mode : OpenMode} {state : RotatingFileHandler × Disk (List Char)} (fresh : Fresh initial filename)
    (created : create initial filename maxBytes maxBackups mode = .ok state) :
    Shows initial filename maxBytes maxBackups state {} := by
  rw [create] at created
  split at created
  · cases created
  · rw [openFile_fresh fresh.1] at created
    cases created
    refine ⟨rfl, rfl, rfl, Dict.get?_set_self .., rfl, fun i => ?_, fun path apart => Dict.get?_set_ne _ _ apart.1⟩
    rw [slot_set, slot, fresh.2]
    simp

theorem Shows.writes {state : RotatingFileHandler × Disk (List Char)} {log : Segments} {past : List Bytes}
    (limited : 0 < maxBytes) (shows_ : Shows initial filename maxBytes maxBackups state log) (of : log.Of maxBytes past)
    (writes : List Bytes) :
    ∃ log : Segments, Shows initial filename maxBytes maxBackups (writes.foldl RotatingFileHandler.write state) log ∧
      log.Of maxBytes (past ++ writes) := by
  induction writes generalizing state log past with
  | nil => exact ⟨log, shows_, by simpa using of⟩
  | cons b writes ih =>
    obtain ⟨later, shown, whole⟩ := ih (shows_.write limited b) (of.write limited b)
    exact ⟨later, shown, by simpa using whole⟩

end Runs

/-- What the backups hold from the highest index down to 1, followed by what the file holds. -/
def onDisk (filename : List Char) (disk : Disk (List Char)) (highest : Nat) : Bytes :=
  ((downFrom highest).map fun i => (disk.get? (makeIndexedFilename filename i)).getD []).flatten ++
    (disk.get? filename).getD []

/-- Whole segments of the writes are lost, the oldest ones; the backups and the file hold the others. -/
structure Rotated (filename : List Char) (maxBytes maxBackups : Int) (disk : Disk (List Char)) (writes : List Bytes)
    (dropped kept : List (List Bytes)) (current : List Bytes) : Prop where
  written : writes = dropped.flatten ++ kept.flatten ++ current
  filled : ∀ segment ∈ dropped ++ kept, Segments.Filled maxBytes segment
  room : Segments.size current < maxBytes
  indices : ∀ index, (disk.get? (makeIndexedFilename filename index)).isSome ↔ 1 ≤ index ∧ index ≤ kept.length
  bounded : kept.length ≤ maxBackups
  contents : onDisk filename disk kept.length = (kept.flatten ++ current).flatten
  lost : dropped ≠ [] → kept.length = maxBackups

theorem map_downFrom {α β : Type} (f : Nat → β) (g : α → β) (items : List α)
    (each : ∀ i (inside : i < items.length), f (i + 1) = g items[i]) :
    (downFrom items.length).map f = (items.map g).reverse := by
  induction items using List.reverseRecOn with
  | nil => rfl
  | append_singleton items item ih =>
    have last := each items.length (by simp)
    rw [List.length_append, List.length_singleton, downFrom, List.map_cons, last, ih fun i inside => ?_]
    · simp
    · rw [each i (by rw [List.length_append]; omega), List.getElem_append_left inside]

theorem Shows.isSome_iff {initial disk : Disk (List Char)} {filename : List Char} {maxBytes maxBackups : Int}
    {handler : RotatingFileHandler} {log : Segments} (fresh : Fresh initial filename)
    (shows_ : Shows initial filename maxBytes maxBackups (handler, disk) log) (index : Nat) :
    (disk.get? (makeIndexedFilename filename index)).isSome ↔
      1 ≤ index ∧ index ≤ (log.closed.take maxBackups.toNat).length := by
  cases index with
  | zero =>
    have apart : Apart filename (makeIndexedFilename filename 0) :=
      ⟨indexed_ne 0, fun i => indexed_inj.not.mpr (by omega)⟩
    have absent : disk.get? (makeIndexedFilename filename 0) = none := (shows_.others _ apart).trans (fresh.2 0)
    simp [absent]
  | succ i =>
    have held : disk.get? (makeIndexedFilename filename (i + 1)) = _ := shows_.backups i
    rw [held, Option.isSome_iff_ne_none, Ne, List.getElem?_eq_none_iff, ← List.map_take, List.length_map]
    omega

/-- After any writes the disk holds a whole number of the last segments. -/
theorem rotation_keeps_segments {initial : Disk (List Char)} {filename : List Char} {maxBytes maxBackups : Int}
    {mode : OpenMode} {state : RotatingFileHandler × Disk (List Char)} (limited : 0 < maxBytes)
    (fresh : Fresh initial filename) (created : create initial filename maxBytes maxBackups mode = .ok state)
    (writes : List Bytes) :
    ∃ dropped kept current,
      Rotated filename maxBytes maxBackups (writes.foldl write state).2 writes dropped kept current := by
  have nothing : ({} : Segments).Of maxBytes [] := ⟨rfl, by simp, by simpa [Segments.size] using limited⟩
  obtain ⟨log, shows_, of⟩ := (create_shows fresh created).writes limited nothing writes
  generalize writes.foldl write state = reached at shows_ ⊢
  obtain ⟨handler, disk⟩ := reached
  have backed : 0 < maxBackups := shows_.bounded ▸ handler.backed (shows_.limited ▸ limited)
  have parts : (log.closed.drop maxBackups.toNat).reverse ++ (log.closed.take maxBackups.toNat).reverse =
      log.closed.reverse := by
    rw [← List.reverse_append, List.take_append_drop]
  refine ⟨(log.closed.drop maxBackups.toNat).reverse, (log.closed.take maxBackups.toNat).reverse, log.current, ?_⟩
  constructor
  · rw [← List.flatten_append, parts]
    exact of.written
  · rw [parts]
    exact fun segment mem => of.filled segment (List.mem_reverse.mp mem)
  · exact of.room
  · rw [List.length_reverse]
    exact shows_.isSome_iff fresh
  · rw [List.length_reverse, List.length_take]
    omega
  · have each (i : Nat) (inside : i < (log.closed.take maxBackups.toNat).length) :
        (disk.get? (makeIndexedFilename filename (i + 1))).getD [] =
          ((log.closed.take maxBackups.toNat)[i]).flatten := by
      have held : disk.get? (makeIndexedFilename filename (i + 1)) = _ := shows_.backups i
      rw [held, ← List.map_take, List.getElem?_map, List.getElem?_eq_getElem inside]
      rfl
    have current : disk.get? filename = some log.current.flatten := shows_.current
    rw [onDisk, List.length_reverse, map_downFrom _ List.flatten _ each, current, Option.getD_some, List.flatten_append,
      List.flatten_flatten, List.map_reverse]
  · intro some_dropped
    rw [List.length_reverse, List.length_take]
    have longer : maxBackups.toNat < log.closed.length := by simpa using some_dropped
    omega

theorem rotation_keeps_segments_of_three :
    ∃ state, create .empty ['l'] 3 1 .wb = .ok state ∧ ∃ dropped kept current,
      Rotated ['l'] 3 1 ([[1, 2], [3, 4], [5], [6, 7, 8], [9]].foldl write state).2
        [[1, 2], [3, 4], [5], [6, 7, 8], [9]]
        dropped kept current := by
  have created : create .empty ['l'] 3 1 .wb = .ok _ := rfl
  exact ⟨_, created, rotation_keeps_segments (by decide) ⟨rfl, fun _ => rfl⟩ created _⟩

example : (create .empty ['l'] 3 1 .wb).map
    (fun state => ([[1, 2], [3, 4], [5], [6, 7, 8], [9]].foldl write state).2.entries) =
    .ok [(['l', '.', '1'], [5, 6, 7, 8]), (['l'], [9])] := by decide

end RotatingFileHandler

end Aurora.Thermos
