import Aurora.Library.Dict
import Aurora.Library.Framing

/-! Files by their paths, and what the calls on them change. -/

namespace Files

open Collections Framing

variable {π : Type} [DecidableEq π]

abbrev Disk (π : Type) := Dict π Bytes

/-- Moves a file over what is at the target; none where there is no such file. -/
def rename (disk : Disk π) (src tgt : π) : Option (Disk π) :=
  (disk.get? src).map fun contents => (disk.erase src).set tgt contents

def overwrite (contents : Bytes) (position : Nat) (b : Bytes) : Bytes :=
  contents.take position ++ b ++ contents.drop (position + b.length)

@[simp] theorem overwrite_end (contents b : Bytes) : overwrite contents contents.length b = contents ++ b := by
  simp [overwrite]

inductive OpenMode
  | wb
  | ab
  deriving DecidableEq, Repr

def openFile (disk : Disk π) (path : π) : OpenMode → Disk π × Nat
  | .wb => (disk.set path [], 0)
  | .ab => (disk.set path ((disk.get? path).getD []), ((disk.get? path).getD []).length)

theorem openFile_fresh {disk : Disk π} {path : π} (fresh : disk.get? path = none) (mode : OpenMode) :
    openFile disk path mode = (disk.set path [], 0) := by
  cases mode <;> simp [openFile, fresh]

theorem get?_rename {disk : Disk π} {src tgt : π} {contents : Bytes} (held : disk.get? src = some contents) (path : π) :
    ((rename disk src tgt).getD disk).get? path =
      if path = tgt then some contents else if path = src then none else disk.get? path := by
  simp only [rename, held, Option.map_some, Option.getD_some, Dict.get?_set, Dict.get?_erase]

theorem rename_absent {disk : Disk π} {src : π} (absent : disk.get? src = none) (tgt : π) :
    rename disk src tgt = none := by
  simp [rename, absent]

end Files
