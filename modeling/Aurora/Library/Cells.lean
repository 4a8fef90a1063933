import Mathlib.Data.List.Basic

/-! Mutable objects in the order of their allocation, each found by its place. -/

namespace Cells

variable {α : Type} {before after : List α} {ref : Nat}

def read [Inhabited α] (store : List α) (ref : Nat) : α := store[ref]?.getD default

def alloc (store : List α) (object : α) : List α × Nat := (store ++ [object], store.length)

/-- Every object of the earlier store is as it was. -/
def Kept (before after : List α) : Prop := before <+: after

theorem Kept.refl (store : List α) : Kept store store := List.prefix_rfl

theorem Kept.length_le (kept : Kept before after) : before.length ≤ after.length := List.IsPrefix.length_le kept

theorem Kept.read [Inhabited α] (kept : Kept before after) (known : ref < before.length) :
    read after ref = read before ref := by
  obtain ⟨more, rfl⟩ := kept
  rw [Cells.read, Cells.read, List.getElem?_append_left known]

theorem Kept.alloc (kept : Kept before after) (object : α) : Kept before (alloc after object).1 :=
  List.IsPrefix.trans kept (List.prefix_append after [object])

theorem Kept.set (kept : Kept before after) (later : before.length ≤ ref) (object : α) :
    Kept before (after.set ref object) := by
  obtain ⟨more, rfl⟩ := kept
  rw [List.set_append_right _ _ later]
  exact List.prefix_append _ _

theorem read_alloc [Inhabited α] (store : List α) (object : α) :
    read (alloc store object).1 (alloc store object).2 = object := by
  simp [read, alloc]

theorem read_set_self [Inhabited α] (known : ref < after.length) (object : α) : read (after.set ref object) ref = object := by
  simp [read, known]

theorem read_set_ne [Inhabited α] {other : Nat} (different : ref ≠ other) (object : α) :
    read (after.set ref object) other = read after other := by
  simp [read, List.getElem?_set_ne different]

end Cells
