import Mathlib.Data.List.Rotate

namespace Aurora.Common

structure RingBuffer (α : Type) where
  size : Nat
  values : List α := []
  zero : Nat := 0
  positive : 1 ≤ size
  fits : values.length ≤ size
  /-- Nothing is overwritten before the buffer is full. -/
  starts : values.length < size → zero = 0

namespace RingBuffer

variable {α : Type}

def create (size : Int) : Except String (RingBuffer α) :=
  if positive : 1 ≤ size then
    .ok { size := size.toNat, positive := by omega, fits := by simp, starts := fun _ => rfl }
  else .error "Size must be an integer >= 1"

def count (buffer : RingBuffer α) : Nat := buffer.values.length

def index (buffer : RingBuffer α) (key : Int) : Option Nat :=
  if buffer.count = 0 then none else some ((key + buffer.zero) % buffer.count).toNat

def getItem (buffer : RingBuffer α) (key : Int) : Option α := (buffer.index key).bind fun i => buffer.values[i]?

def append (buffer : RingBuffer α) (value : α) : RingBuffer α :=
  if room : buffer.count < buffer.size then
    { buffer with
      values := buffer.values ++ [value]
      fits := by
        rw [List.length_append]
        exact room
      starts := fun _ => buffer.starts room }
  else
    { buffer with
      values := buffer.values.set (buffer.zero % buffer.size) value
      zero := buffer.zero + 1
      fits := by simpa using buffer.fits
      starts := fun still => absurd (by simpa [count] using still) room }

def iter (buffer : RingBuffer α) : List α := (List.range buffer.count).filterMap fun (i : Nat) => buffer.getItem i

theorem getItem_eq (buffer : RingBuffer α) {key : Nat} (inside : key < buffer.count) :
    buffer.getItem key = (buffer.values.rotate buffer.zero)[key]? := by
  have some_value : buffer.count ≠ 0 := by omega
  have place : (((key : Int) + buffer.zero) % buffer.count).toNat = (key + buffer.zero) % buffer.values.length := by
    rw [count, ← Int.natCast_add, ← Int.natCast_emod, Int.toNat_natCast]
  rw [List.getElem?_rotate inside]
  simp [getItem, index, some_value, place]

theorem iter_eq (buffer : RingBuffer α) : buffer.iter = buffer.values.rotate buffer.zero := by
  have each : buffer.iter = (List.range buffer.count).filterMap fun i => (buffer.values.rotate buffer.zero)[i]? := by
    rw [iter]
    exact List.filterMap_congr fun i mem => buffer.getItem_eq (List.mem_range.mp mem)
  have same : buffer.count = (buffer.values.rotate buffer.zero).length := by simp [count]
  rw [each, same]
  generalize buffer.values.rotate buffer.zero = items
  induction items using List.reverseRecOn with
  | nil => rfl
  | append_singleton items item ih =>
    rw [List.length_append, List.length_singleton, List.range_succ, List.filterMap_append]
    conv_rhs => rw [← ih]
    congr 1
    · refine List.filterMap_congr fun i mem => ?_
      rw [List.getElem?_append_left (List.mem_range.mp mem)]
    · simp

@[simp] theorem length_iter (buffer : RingBuffer α) : buffer.iter.length = buffer.count := by simp [iter_eq, count]

theorem getItem_nat (buffer : RingBuffer α) {key : Nat} (inside : key < buffer.count) :
    buffer.getItem key = buffer.iter[key]? := by
  rw [iter_eq, buffer.getItem_eq inside]

theorem getItem_last (buffer : RingBuffer α) : buffer.getItem (-1) = buffer.iter.getLast? := by
  rcases Nat.eq_zero_or_pos buffer.count with none_ | some_value
  · have empty : buffer.values = [] := List.length_eq_zero_iff.mp none_
    simp [getItem, index, none_, iter_eq, empty]
  · have from_last : buffer.getItem (-1) = buffer.getItem ((buffer.count - 1 : Nat) : Int) := by
      have place : (-1 + (buffer.zero : Int)) % buffer.count =
          (((buffer.count - 1 : Nat) : Int) + buffer.zero) % buffer.count := by
        rw [← Int.add_emod_right (-1 + (buffer.zero : Int)) (buffer.count : Int)]
        congr 1
        omega
      simp only [getItem, index, place]
    rw [from_last, buffer.getItem_nat (by omega), List.getLast?_eq_getElem?, length_iter]

/-- The oldest value stands where the new one is put, and from then on the reading starts one place later. -/
theorem rotate_set {values : List α} {start : Nat} (some_value : 1 ≤ values.length) (value : α) :
    (values.set (start % values.length) value).rotate (start + 1) = (values.rotate start).tail ++ [value] := by
  have inside : start % values.length < values.length := Nat.mod_lt _ some_value
  have split : values.set (start % values.length) value =
      (values.take (start % values.length) ++ [value]) ++ values.drop (start % values.length + 1) := by
    rw [List.set_eq_take_append_cons_drop, if_pos inside]
    simp
  have length : start % values.length + 1 = (values.take (start % values.length) ++ [value]).length := by
    rw [List.length_append, List.length_take, List.length_singleton]
    omega
  calc (values.set (start % values.length) value).rotate (start + 1)
      = (values.set (start % values.length) value).rotate (start % values.length + 1) := by
        rw [← List.rotate_rotate, ← List.rotate_mod _ start, List.length_set, List.rotate_rotate]
    _ = values.drop (start % values.length + 1) ++ (values.take (start % values.length) ++ [value]) := by
        rw [split]
        conv_lhs => arg 2; rw [length]
        exact List.rotate_append_length_eq _ _
    _ = (values.rotate start).tail ++ [value] := by
        rw [← List.rotate_mod values start, List.rotate_eq_drop_append_take inside.le,
          List.drop_eq_getElem_cons inside, List.cons_append, List.tail_cons, List.append_assoc]

@[simp] theorem size_append (buffer : RingBuffer α) (value : α) : (buffer.append value).size = buffer.size := by
  rw [append]
  split <;> rfl

theorem iter_append (buffer : RingBuffer α) (value : α) :
    (buffer.append value).iter = (if buffer.count < buffer.size then buffer.iter else buffer.iter.tail) ++ [value] := by
  rw [iter_eq, iter_eq, append]
  split
  · rename_i room
    simp [buffer.starts room]
  · rename_i full
    have length : buffer.size = buffer.values.length := by
      have fits := buffer.fits
      rw [count] at full
      omega
    simp only [length]
    exact rotate_set (by rw [← length]; exact buffer.positive) value

end RingBuffer

end Aurora.Common
