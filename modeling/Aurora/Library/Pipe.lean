import Mathlib.Data.List.Basic
import Mathlib.Data.List.Infix

/-! A pipe between processes that write to it and one that reads from it. -/

namespace Piping

variable {β : Type}

structure Pipe (β : Type) where
  /-- What has been read from it. -/
  taken : List β := []
  buffered : List β := []
  /-- No process can write to it any more. -/
  closed : Bool := false

namespace Pipe

def carried (pipe : Pipe β) : List β := pipe.taken ++ pipe.buffered

/-- The reader has what was written, and nothing can follow. -/
def AtEnd (pipe : Pipe β) : Prop := pipe.closed ∧ pipe.buffered = []

def Ready (pipe : Pipe β) : Prop := pipe.closed ∨ pipe.buffered ≠ []

instance (pipe : Pipe β) [DecidableEq β] : Decidable pipe.Ready := inferInstanceAs (Decidable (_ ∨ _))

def write (pipe : Pipe β) (bytes : List β) : Option (Pipe β) :=
  if pipe.closed then none else some { pipe with buffered := pipe.buffered ++ bytes }

def close (pipe : Pipe β) : Option (Pipe β) := if pipe.closed then none else some { pipe with closed := true }

/-- At the end nothing is read. Before it so many bytes are read as are asked for, if so many are there: at least one,
    and no more than the reader has room for; where there are none the reader waits. -/
def read (pipe : Pipe β) (room count : Nat) : Option (List β × Pipe β) :=
  match pipe.buffered, pipe.closed with
  | [], true => some ([], pipe)
  | [], false => none
  | _ :: _, _ =>
    if 1 ≤ count ∧ count ≤ room ∧ count ≤ pipe.buffered.length then
      some (pipe.buffered.take count,
        { pipe with taken := pipe.taken ++ pipe.buffered.take count, buffered := pipe.buffered.drop count })
    else none

variable {pipe later : Pipe β} {bytes : List β} {room count : Nat}

theorem write_eq_some : pipe.write bytes = some later ↔
    pipe.closed = false ∧ { pipe with buffered := pipe.buffered ++ bytes } = later := by
  rw [write]
  cases pipe.closed <;> simp

theorem close_eq_some : pipe.close = some later ↔ pipe.closed = false ∧ { pipe with closed := true } = later := by
  rw [close]
  cases pipe.closed <;> simp

theorem read_cases (got : pipe.read room count = some (bytes, later)) :
    (bytes = [] ∧ later = pipe ∧ pipe.AtEnd) ∨
      (bytes ≠ [] ∧ bytes.length ≤ room ∧ later.taken = pipe.taken ++ bytes ∧ pipe.buffered = bytes ++ later.buffered ∧
        later.closed = pipe.closed) := by
  rw [read] at got
  split at got
  · rename_i empty closed
    cases got
    exact .inl ⟨rfl, rfl, closed, empty⟩
  · cases got
  · rename_i first rest _ _
    split at got
    · rename_i bounds
      cases got
      obtain ⟨some_byte, fits, enough⟩ := bounds
      refine .inr ⟨?_, by rw [List.length_take]; omega, rfl, (List.take_append_drop _ _).symm, rfl⟩
      rw [← List.length_pos_iff, List.length_take]
      omega
    · cases got

theorem write_carried (written : pipe.write bytes = some later) : later.carried = pipe.carried ++ bytes := by
  obtain ⟨-, rfl⟩ := write_eq_some.mp written
  exact (List.append_assoc ..).symm

theorem close_carried (closed : pipe.close = some later) : later.carried = pipe.carried := by
  obtain ⟨-, rfl⟩ := close_eq_some.mp closed
  rfl

theorem read_carried (got : pipe.read room count = some (bytes, later)) : later.carried = pipe.carried := by
  rcases read_cases got with ⟨-, rfl, -⟩ | ⟨-, -, taken, buffered, -⟩
  · rfl
  · rw [carried, carried, taken, buffered, List.append_assoc]

end Pipe

end Piping
