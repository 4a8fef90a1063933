import Aurora.Library.Pathname

namespace Aurora.Thermos.Observer

open PyText Pathname

def join (base relpath : Text) : Text :=
  if relpath.head? = some '/' then relpath
  else if base = [] ∨ base.getLast? = some '/' then base ++ relpath
  else base ++ '/' :: relpath

def relativeTo (path start : Canonical) : Text :=
  let common := ((start.zip path).takeWhile fun names => names.1 = names.2).length
  let parts := List.replicate (start.length - common) ['.', '.'] ++ (path.drop common).map Subtype.val
  if parts = [] then ['.'] else ['/'].intercalate parts

/-- The file system: what a path name stands for once all links are followed, and which names exist. -/
structure FileSystem where
  realpath : Text → Canonical
  pathExists : Text → Bool
  isFile : Text → Bool

namespace TaskObserver

variable (files : FileSystem)

def sanitizePath (basePath : Text) (relpath : Option Text) : Option (Text × Text) :=
  let normalizedBase := files.realpath basePath
  let normalized := files.realpath (join basePath (relpath.getD ['.']))
  if (text normalizedBase).isPrefixOf (text normalized) then
    some (text normalizedBase, relativeTo normalized normalizedBase)
  else none

/-- The sandbox is none without a runner state, a header or its sandbox. -/
def validPath (sandbox : Option Text) (path : Option Text) : Option (Text × Text) :=
  match sandbox with
  | none => none
  | some chroot =>
    match sanitizePath files chroot path with
    | none => none
    | some (chroot, path) =>
      if chroot ≠ [] ∧ path ≠ [] ∧ files.pathExists (join chroot path) then some (chroot, path) else none

def validFile (sandbox : Option Text) (path : Option Text) : Option (Text × Text) :=
  match validPath files sandbox path with
  | none => none
  | some (chroot, path) =>
    if chroot ≠ [] ∧ path ≠ [] ∧ files.isFile (join chroot path) then some (chroot, path) else none

end TaskObserver

inductive Served
  | chunk (filename : Text)
  | listing (chroot path : Text)
  | download (path root : Text)
  | nothing
  | notFound (message : String)
  deriving DecidableEq

namespace TaskObserverFileBrowser

variable (files : FileSystem)

def handleFiledata (sandbox : Option Text) (path : Option Text) : Served :=
  match path with
  | none => .nothing
  | some path =>
    match TaskObserver.validFile files sandbox (some path) with
    | none => .nothing
    | some (chroot, path) => .chunk (join chroot path)

def handleDir (sandbox : Option Text) (path : Option Text) : Served :=
  match TaskObserver.validPath files sandbox (path.filter (· ≠ [])) with
  | none => .notFound "Sandbox does not exist."
  | some (chroot, path) => .listing chroot path

def handleDownload (sandbox : Option Text) (path : Option Text) : Served :=
  match TaskObserver.validPath files sandbox path with
  | none => .notFound "No such file"
  | some (chroot, path) => .download path chroot

end TaskObserverFileBrowser

section Contained

variable {files : FileSystem} {sandbox : Option Text} {basePath : Text} {path : Option Text} {served : Text × Text}

def target (files : FileSystem) (basePath : Text) (relpath : Option Text) : Canonical :=
  files.realpath (join basePath (relpath.getD ['.']))

/-- A path that passes is the base or below it. -/
def Contained (files : FileSystem) (basePath : Text) (relpath : Option Text) : Prop :=
  ∀ served, TaskObserver.sanitizePath files basePath relpath = some served →
    Within (files.realpath basePath) (target files basePath relpath)

theorem sanitizePath_isSome : (TaskObserver.sanitizePath files basePath path).isSome = true ↔
    files.realpath basePath <+: target files basePath path ∨
      Extends (files.realpath basePath) (target files basePath path) := by
  rw [← starts_text, ← List.isPrefixOf_iff_prefix, TaskObserver.sanitizePath, target]
  split
  · next starts => simp [starts]
  · next starts => simp [starts]

theorem validPath_sanitized (valid : TaskObserver.validPath files sandbox path = some served) :
    ∃ basePath, sandbox = some basePath ∧ TaskObserver.sanitizePath files basePath path = some served := by
  unfold TaskObserver.validPath at valid
  split at valid
  · cases valid
  · next basePath =>
    split at valid
    · cases valid
    · next chroot path sanitized =>
      split at valid
      · exact ⟨basePath, rfl, sanitized.trans valid⟩
      · cases valid

theorem validFile_sanitized (valid : TaskObserver.validFile files sandbox path = some served) :
    ∃ basePath, sandbox = some basePath ∧ TaskObserver.sanitizePath files basePath path = some served := by
  unfold TaskObserver.validFile at valid
  split at valid
  · cases valid
  · next chroot path known =>
    split at valid
    · exact validPath_sanitized (known.trans valid)
    · cases valid

/-- Whatever a handler gives out was let pass by the check of its path. -/
theorem served_sanitized {answer : Served} (content : answer ≠ .nothing ∧ ∀ message, answer ≠ .notFound message)
    (handled : answer = TaskObserverFileBrowser.handleFiledata files sandbox path ∨
      answer = TaskObserverFileBrowser.handleDir files sandbox path ∨
      answer = TaskObserverFileBrowser.handleDownload files sandbox path) :
    ∃ basePath asked, sandbox = some basePath ∧ (asked = path ∨ asked = none) ∧
      (TaskObserver.sanitizePath files basePath asked).isSome = true := by
  rcases handled with rfl | rfl | rfl
  · unfold TaskObserverFileBrowser.handleFiledata at content
    split at content
    · exact absurd rfl content.1
    · next path =>
      split at content
      · exact absurd rfl content.1
      · next chroot relpath valid =>
        obtain ⟨basePath, known, sanitized⟩ := validFile_sanitized valid
        exact ⟨basePath, some path, known, .inl rfl, by rw [sanitized]; rfl⟩
  · unfold TaskObserverFileBrowser.handleDir at content
    split at content
    · exact absurd rfl (content.2 _)
    · next chroot relpath valid =>
      obtain ⟨basePath, known, sanitized⟩ := validPath_sanitized valid
      refine ⟨basePath, path.filter (· ≠ []), known, ?_, by rw [sanitized]; rfl⟩
      cases path with
      | none => exact .inl rfl
      | some path => by_cases empty : path = [] <;> simp [Option.filter, empty]
  · unfold TaskObserverFileBrowser.handleDownload at content
    split at content
    · exact absurd rfl (content.2 _)
    · next chroot relpath valid =>
      obtain ⟨basePath, known, sanitized⟩ := validPath_sanitized valid
      exact ⟨basePath, path, known, .inl rfl, by rw [sanitized]; rfl⟩

end Contained

/-- The check holds a path in its base unless the path goes on in the middle of the base's last name. -/
theorem sanitizePath_contained_iff (files : FileSystem) (basePath : Text) (relpath : Option Text) :
    Contained files basePath relpath ↔ ¬ Extends (files.realpath basePath) (target files basePath relpath) := by
  constructor
  · intro contained extends_
    obtain ⟨served, passed⟩ := Option.isSome_iff_exists.mp (sanitizePath_isSome.mpr (.inr extends_))
    exact extends_.not_within (contained served passed)
  · intro apart served passed
    have passed' : (TaskObserver.sanitizePath files basePath relpath).isSome = true := by rw [passed]; rfl
    exact (within_iff _ _).mpr ((sanitizePath_isSome.mp passed').resolve_right apart)

/-- The canonical form of a name in a file system without links, the working directory being the root. -/
def lexical (name : Text) : Canonical :=
  (name.splitOn '/').foldl (fun path part =>
    if part = ['.', '.'] then path.dropLast else if valid : IsName part then path ++ [⟨part, valid⟩] else path) []

def plainFiles : FileSystem where
  realpath := lexical
  pathExists := fun _ => true
  isFile := fun _ => true

theorem sibling_served :
    ¬ Contained plainFiles "/var/sandbox".toList (some "../sandbox-2/secret".toList) ∧
    TaskObserverFileBrowser.handleFiledata plainFiles (some "/var/sandbox".toList) (some "../sandbox-2/secret".toList) =
      .chunk "/var/sandbox/../sandbox-2/secret".toList := by
  refine ⟨fun contained => ?_, by decide +kernel⟩
  have within := contained ("/var/sandbox".toList, "../sandbox-2/secret".toList) (by decide +kernel)
  exact absurd ((within_iff _ _).mp within) (by decide +kernel)

end Aurora.Thermos.Observer
