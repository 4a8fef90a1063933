import Aurora.Library.Glob
import Aurora.Library.Regex
import Aurora.Thermos.Common.TaskPath
import Aurora.Client.Cli.Options

namespace Aurora.Thermos

open PyText (Text decimal isSpace)
open Percent (Harmless)
open Regex (Item matchItems)
open Glob (partsMatch glob)
open Aurora.Client.Cli (Unicode)
open Replay

structure TaskDetector where
  root : Text

namespace TaskDetector

open TaskPath (Keywords)

inductive Raised
  | path (raised : TaskPath.Raised)
  /-- `re.error` of a pattern that is searched for -/
  | badRange (bad : Glob.BadRange)
  /-- The expression is of a kind that is not modelled; what comes of it is left open. -/
  | otherExpression (expression : Text)
  | valueError (literal : Text)
  deriving DecidableEq, Repr

def specPath (room : Nat) (keywords : Keywords) (name : TaskPath.PathName) : Except Raised Text :=
  (TaskPath.chain [] [keywords] >>= (·.getpath room name)).mapError .path

def compile (expression : Text) : Except Raised (List Item) :=
  (Regex.compile expression).elim (.error (.otherExpression expression)) .ok

variable (room : Nat) (detector : TaskDetector) (unicode : Unicode) (disk : List Text)

def taskIdsKeywords (root taskId state : Text) : Keywords :=
  [(.root, some (.text root)), (.taskId, some (.text taskId)), (.state, some (.text state))]

def orStar (state : Option Text) : Text := if state.getD [] = [] then ['*'] else state.getD []

def getTaskIdsPatterns (state : Option Text) : Except Raised (Text × List Item) := do
  let pathGlob ← specPath room (taskIdsKeywords detector.root ['*'] (orStar state)) .taskPath
  let pathRegex ← specPath room (taskIdsKeywords (Regex.escape detector.root) "(\\S+)".toList "(\\S+)".toList) .taskPath
  return (pathGlob, ← compile pathRegex)

def isDigit (c : Char) : Bool := (Client.Cli.digit unicode c).isSome

/-- The pair that a path gives, which is none for any exception. -/
def groups (pathRegex : List Item) (path : Text) : Option (Text × Text) :=
  match matchItems (isDigit unicode) pathRegex path with
  | some [first, second] => some (first, second)
  | _ => none

def getTaskIds (state : Option Text) : Except Raised (List (Text × Text)) := do
  let (pathGlob, pathRegex) ← getTaskIdsPatterns room detector state
  let paths ← (glob disk pathGlob).mapError .badRange
  return (paths.filterMap (groups unicode pathRegex)).filter fun found => state.all (found.1 = ·)

def processRunsKeywords (root taskId logDir process : Text) (run : TaskPath.Value) : Keywords :=
  [(.root, some (.text root)), (.taskId, some (.text taskId)), (.logDir, some (.text logDir)),
    (.process, some (.text process)), (.run, some run)]

def getProcessRunsPatterns (taskId logDir : Text) : Except Raised (Text × List Item) := do
  let pathGlob ← specPath room (processRunsKeywords detector.root taskId logDir ['*'] (.text ['*'])) .processLogdir
  let pathRegex ← specPath room (processRunsKeywords (Regex.escape detector.root) (Regex.escape taskId) logDir
    "(\\S+)".toList (.text "(\\d+)".toList)) .processLogdir
  return (pathGlob, ← compile pathRegex)

def int (run : Text) : Except Raised Int := (Client.Cli.int unicode run).elim (.error (.valueError run)) .ok

def getProcessRuns (taskId logDir : Text) : Except Raised (List (Text × Int)) := do
  let (pathGlob, pathRegex) ← getProcessRunsPatterns room detector taskId logDir
  let paths ← (glob disk pathGlob).mapError .badRange
  (paths.filterMap (groups unicode pathRegex)).mapM fun found => do return (found.1, ← int unicode found.2)

/-- Where an entry stands below a directory: in one that has the entry's first name, with its second name. -/
def pathOf (base : Text) (entry : Text × Text) : Text := base ++ '/' :: (entry.1 ++ '/' :: entry.2)

/-- The entries stand below the directory, and nothing else at that depth. -/
structure Laid (base : Text) (entries : List (Text × Text)) (disk : List Text) : Prop where
  disk_nodup : disk.Nodup
  nodup : entries.Nodup
  names : ∀ entry ∈ entries, '/' ∉ entry.1 ∧ '/' ∉ entry.2
  there : ∀ entry ∈ entries, pathOf base entry ∈ disk
  only : ∀ entry, '/' ∉ entry.1 → '/' ∉ entry.2 → pathOf base entry ∈ disk → entry ∈ entries

section Paths

variable {room} {disk} {base path text : Text} {entry : Text × Text} {entries : List (Text × Text)}

theorem splitOn_pathOf (no_slash : '/' ∉ entry.1) (no_slash' : '/' ∉ entry.2) :
    (pathOf base entry).splitOn '/' = base.splitOn '/' ++ [entry.1, entry.2] := by
  rw [pathOf, List.splitOn_append_cons_self, List.splitOn_append_cons_self_of_not_mem no_slash,
    List.splitOn_eq_singleton no_slash']

theorem two_parts (length : (text.splitOn '/').length = 2) :
    ∃ first second, text = first ++ '/' :: second ∧ '/' ∉ first ∧ '/' ∉ second := by
  by_cases slash : '/' ∈ text
  · obtain ⟨first, second, rfl, no_slash⟩ := List.eq_append_cons_of_mem slash
    refine ⟨first, second, rfl, no_slash, fun slash' => ?_⟩
    obtain ⟨third, fourth, rfl, -⟩ := List.eq_append_cons_of_mem slash'
    have some := List.splitOn_ne_nil '/' fourth
    rw [List.splitOn_append_cons_self_of_not_mem no_slash, List.splitOn_append_cons_self, List.length_cons,
      List.length_append] at length
    have positive := List.length_pos_of_ne_nil some
    have positive' := List.length_pos_of_ne_nil (List.splitOn_ne_nil '/' third)
    omega
  · rw [List.splitOn_eq_singleton slash] at length
    cases length

def searched (disk : List Text) (base : Text) : List Text :=
  disk.filter fun path => partsMatch ((pathOf base (['*'], ['*'])).splitOn '/') (path.splitOn '/')

theorem parts_star (base path : Text) :
    partsMatch ((pathOf base (['*'], ['*'])).splitOn '/') (path.splitOn '/') = true ↔
    ∃ names first second, path.splitOn '/' = names ++ [first, second] ∧ partsMatch (base.splitOn '/') names = true := by
  rw [splitOn_pathOf (by decide) (by decide)]
  constructor
  · intro matches_
    have length := Glob.length_of_partsMatch matches_
    rw [List.length_append] at length
    have split := List.take_append_drop (base.splitOn '/').length (path.splitOn '/')
    have long : ((path.splitOn '/').drop (base.splitOn '/').length).length = 2 := by
      rw [List.length_drop, ← length]
      simp
    have short : (base.splitOn '/').length = ((path.splitOn '/').take (base.splitOn '/').length).length := by
      rw [List.length_take, ← length]
      simp
    obtain ⟨first, second, two⟩ := List.length_eq_two.mp long
    refine ⟨_, first, second, by rw [← two, split], ?_⟩
    rw [← split, Glob.partsMatch_append short, Bool.and_eq_true] at matches_
    exact matches_.1
  · rintro ⟨names, first, second, split, matches_⟩
    rw [split, Glob.partsMatch_append (Glob.length_of_partsMatch matches_), matches_]
    simp [partsMatch]

theorem compiles_pathOf : Glob.Compiles (pathOf base (['*'], ['*'])) ↔ Glob.Compiles base := by
  have parts : (pathOf base (['*'], ['*'])).splitOn '/' = base.splitOn '/' ++ [['*'], ['*']] :=
    splitOn_pathOf (by decide) (by decide)
  simp only [Glob.Compiles, parts, List.forall_mem_append]
  exact and_iff_left (by decide)

theorem pathOf_mem_searched (no_slash : '/' ∉ entry.1) (no_slash' : '/' ∉ entry.2) :
    pathOf base entry ∈ searched disk base ↔
      pathOf base entry ∈ disk ∧ partsMatch (base.splitOn '/') (base.splitOn '/') = true := by
  rw [searched, List.mem_filter, parts_star, splitOn_pathOf no_slash no_slash']
  constructor
  · rintro ⟨there, names, first, second, split, matches_⟩
    obtain ⟨rfl, -⟩ := List.append_inj' split rfl
    exact ⟨there, matches_⟩
  · rintro ⟨there, itself⟩
    exact ⟨there, _, _, _, rfl, itself⟩

/-- What is read comes from entries of the directory, and is read of its own path as well. -/
def Reading (base : Text) (disk : List Text) (read : Text → Option (Text × Text)) : Prop :=
  ∀ path ∈ searched disk base, ∀ found, read path = some found →
    ∃ entry : Text × Text, '/' ∉ entry.1 ∧ '/' ∉ entry.2 ∧ path = pathOf base entry ∧
      read (pathOf base found) = some found

theorem Reading.perm {read : Text → Option (Text × Text)} (reading : Reading base disk read)
    (laid : Laid base entries disk) (itself : entries ≠ [] → partsMatch (base.splitOn '/') (base.splitOn '/') = true)
    (reads : ∀ entry ∈ entries, read (pathOf base entry) = some entry) :
    ((searched disk base).filterMap read).Perm entries := by
  have found_entry : ∀ path ∈ searched disk base, ∀ found, read path = some found →
      found ∈ entries ∧ path = pathOf base found := by
    intro path mem found read_path
    obtain ⟨entry, no_slash, no_slash', rfl, -⟩ := reading path mem found read_path
    have listed := laid.only entry no_slash no_slash' (List.mem_filter.mp mem).1
    obtain rfl := Option.some.inj ((reads entry listed).symm.trans read_path)
    exact ⟨listed, rfl⟩
  refine (List.perm_ext_iff_of_nodup ?_ laid.nodup).mpr fun entry => ?_
  · have nodup : (searched disk base).Nodup := laid.disk_nodup.filter _
    refine List.pairwise_filterMap.mpr
      (nodup.imp_of_mem fun mem mem' other found read_path found' read_path' same => other ?_)
    rw [(found_entry _ mem found read_path).2, (found_entry _ mem' found' read_path').2, same]
  · rw [List.mem_filterMap]
    constructor
    · rintro ⟨path, mem, read_path⟩
      exact (found_entry path mem entry read_path).1
    · intro mem
      have names := laid.names entry mem
      have self := itself (List.ne_nil_of_mem mem)
      exact ⟨pathOf base entry, (pathOf_mem_searched names.1 names.2).mpr ⟨laid.there entry mem, self⟩,
        reads entry mem⟩

theorem perm_iff {read : Text → Option (Text × Text)} (laid : Laid base entries disk)
    (reading : Reading base disk read) :
    ((searched disk base).filterMap read).Perm entries ↔
      (entries ≠ [] → partsMatch (base.splitOn '/') (base.splitOn '/') = true) ∧
        ∀ entry ∈ entries, read (pathOf base entry) = some entry := by
  constructor
  · intro perm
    have read_from : ∀ entry ∈ entries, ∃ path ∈ searched disk base, read path = some entry := fun entry mem =>
      List.mem_filterMap.mp (perm.mem_iff.mpr mem)
    refine ⟨fun some_entry => ?_, fun entry mem => ?_⟩
    · obtain ⟨entry, mem⟩ := List.exists_mem_of_ne_nil _ some_entry
      obtain ⟨path, found, reads⟩ := read_from entry mem
      obtain ⟨entry', no_slash, no_slash', rfl, -⟩ := reading path found entry reads
      exact ((pathOf_mem_searched no_slash no_slash').mp found).2
    · obtain ⟨path, found, reads⟩ := read_from entry mem
      obtain ⟨-, -, -, -, again⟩ := reading path found entry reads
      exact again
  · rintro ⟨itself, reads⟩
    exact reading.perm laid itself reads

theorem harmless_pathOf (plain : '%' ∉ entry.1) (plain' : '%' ∉ entry.2) :
    Harmless room false (pathOf base entry) ↔ Harmless room false base := by
  constructor
  · exact Harmless.before_slash
  · intro harmless
    exact harmless.append_plain (by simp [plain, plain'])

theorem of_searched {rest : Text} (mem : path ∈ searched disk base) (below : path = base ++ '/' :: rest) :
    ∃ entry : Text × Text, '/' ∉ entry.1 ∧ '/' ∉ entry.2 ∧ path = pathOf base entry := by
  subst below
  obtain ⟨names, first, second, split, matches_⟩ := (parts_star base _).mp (List.mem_filter.mp mem).2
  have two : (rest.splitOn '/').length = 2 := by
    have length := congrArg List.length split
    rw [List.splitOn_append_cons_self, List.length_append, List.length_append, Glob.length_of_partsMatch matches_]
      at length
    simpa using length
  obtain ⟨first, second, rfl, no_slash, no_slash'⟩ := two_parts two
  exact ⟨(first, second), no_slash, no_slash', rfl⟩

end Paths

section Groups

variable {unicode} {base : Text} {entry found : Text × Text} {begins : List Item} {kind : Regex.Kind}

def pairItems (begins : List Item) (kind : Regex.Kind) : List Item :=
  begins ++ [.char '/', .group .notSpace, .char '/', .group kind]

/-- What such an expression reads; there is no end to it, so the second name is read as far as it goes. -/
theorem groups_pair (self : ∀ items rest, matchItems (isDigit unicode) (begins ++ items) (base ++ rest) =
      matchItems (isDigit unicode) items rest)
    (kind : Regex.Kind) (no_slash : '/' ∉ entry.1) (no_slash' : '/' ∉ entry.2) :
    groups unicode (pairItems begins kind) (pathOf base entry) =
      if (entry.1 ≠ [] ∧ ∀ c ∈ entry.1, isSpace c = false) ∧
          entry.2.takeWhile (kind.accepts (isDigit unicode)) ≠ [] then
        some (entry.1, entry.2.takeWhile (kind.accepts (isDigit unicode)))
      else none := by
  have first_kind : Regex.Kind.accepts (isDigit unicode) .notSpace = fun c => !isSpace c := rfl
  rw [groups, pairItems, pathOf, self, matchItems, if_pos rfl, Regex.match_group no_slash no_slash',
    Regex.match_last, first_kind]
  simp only [List.all_eq_true, Bool.not_eq_true']
  by_cases visible : entry.1 ≠ [] ∧ ∀ c ∈ entry.1, isSpace c = false
  · rw [if_pos visible]
    by_cases none_ : entry.2.takeWhile (kind.accepts (isDigit unicode)) = []
    · simp [none_]
    · rw [if_neg none_, Option.map_some, if_pos ⟨visible, none_⟩]
  · rw [if_neg visible, if_neg fun both => visible both.1]

theorem groups_again (self : ∀ items rest, matchItems (isDigit unicode) (begins ++ items) (base ++ rest) =
      matchItems (isDigit unicode) items rest) (no_slash : '/' ∉ entry.1) (no_slash' : '/' ∉ entry.2)
    (read : groups unicode (pairItems begins kind) (pathOf base entry) = some found) :
    groups unicode (pairItems begins kind) (pathOf base found) = some found := by
  rw [groups_pair self kind no_slash no_slash'] at read
  split at read
  · rename_i suits
    obtain rfl := Option.some.inj read
    have clean : '/' ∉ entry.2.takeWhile (kind.accepts (isDigit unicode)) :=
      fun mem => no_slash' ((List.takeWhile_sublist _).subset mem)
    let again : Text × Text := (entry.1, entry.2.takeWhile (kind.accepts (isDigit unicode)))
    rw [@groups_pair unicode base again begins self kind no_slash clean, List.takeWhile_idem, if_pos suits]
  · cases read

end Groups

section Tasks

variable {room} {detector unicode disk} {root taskId state path text : Text} {entry : Text × Text}

def tasksDir (root : Text) : Text := root ++ "/tasks".toList

theorem specPath_ok {keywords : Keywords} {name : TaskPath.PathName} {spec : TaskPath}
    (built : TaskPath.chain [] [keywords] = .ok spec) (pieces : TaskPath.interpolate spec.data
      (TaskPath.join (TaskPath.dirTemplate name)) = text) :
    specPath room keywords name = .ok path ↔ Harmless room false path ∧ path = text := by
  rw [specPath, built, mapError_eq_ok]
  exact pieces ▸ TaskPath.getpath_ok

theorem specPath_task : specPath room (taskIdsKeywords root taskId state) .taskPath = .ok path ↔
    Harmless room false path ∧ path = pathOf (tasksDir root) (state, taskId) := by
  obtain ⟨spec, built⟩ : ∃ spec, TaskPath.chain [] [taskIdsKeywords root taskId state] = .ok spec := ⟨_, rfl⟩
  have root_is : spec.data .root = .text root := TaskPath.data_of_lastGiven built rfl
  have taskId_is : spec.data .taskId = .text taskId := TaskPath.data_of_lastGiven built rfl
  have state_is : spec.data .state = .text state := TaskPath.data_of_lastGiven built rfl
  refine specPath_ok built ?_
  simp [TaskPath.interpolate, TaskPath.join, TaskPath.dirTemplate, List.intercalate, List.intersperse, root_is,
    taskId_is, state_is, TaskPath.Value.str, pathOf, tasksDir]

theorem harmless_tasksDir : Harmless room false (tasksDir root) ↔ Harmless room false root := by
  constructor
  · intro harmless
    exact (show Harmless room false (root ++ '/' :: "tasks".toList) from harmless).before_slash
  · intro harmless
    exact harmless.append_plain (by decide)

def taskIdsItems (root : Text) : List Item := pairItems ((tasksDir root).map .char) .notSpace

theorem compile_taskIds : compile (pathOf (tasksDir (Regex.escape root)) ("(\\S+)".toList, "(\\S+)".toList)) =
    .ok (taskIdsItems root) := by
  have groups_ : Regex.compile "/tasks/(\\S+)/(\\S+)".toList =
      some ("/tasks".toList.map .char ++ [.char '/', .group .notSpace, .char '/', .group .notSpace]) := by decide
  have split : pathOf (tasksDir (Regex.escape root)) ("(\\S+)".toList, "(\\S+)".toList) =
      Regex.escape root ++ "/tasks/(\\S+)/(\\S+)".toList := by
    simp [pathOf, tasksDir]
  rw [compile, split, Regex.compile_escape, groups_]
  simp [taskIdsItems, pairItems, tasksDir]

theorem getTaskIdsPatterns_ok {pathGlob : Text} {pathRegex : List Item} :
    detector.getTaskIdsPatterns room none = .ok (pathGlob, pathRegex) ↔
      (Harmless room false detector.root ∧ Harmless room false (Regex.escape detector.root)) ∧
        pathGlob = pathOf (tasksDir detector.root) (['*'], ['*']) ∧ pathRegex = taskIdsItems detector.root := by
  have star : Harmless room false (pathOf (tasksDir detector.root) (['*'], ['*'])) ↔
      Harmless room false detector.root :=
    (harmless_pathOf (by decide) (by decide)).trans harmless_tasksDir
  have expression :
      Harmless room false (pathOf (tasksDir (Regex.escape detector.root)) ("(\\S+)".toList, "(\\S+)".toList)) ↔
        Harmless room false (Regex.escape detector.root) :=
    (harmless_pathOf (by decide) (by decide)).trans harmless_tasksDir
  simp only [getTaskIdsPatterns, bind_eq_ok, specPath_task, pure_eq_ok, Prod.mk.injEq]
  constructor
  · rintro ⟨_, ⟨harmless, rfl⟩, _, ⟨harmless', rfl⟩, items, compiled, rfl, rfl⟩
    rw [compile_taskIds] at compiled
    exact ⟨⟨star.mp harmless, expression.mp harmless'⟩, rfl, (Except.ok.inj compiled).symm⟩
  · rintro ⟨⟨harmless, harmless'⟩, rfl, rfl⟩
    exact ⟨_, ⟨star.mpr harmless, rfl⟩, _, ⟨expression.mpr harmless', rfl⟩, _, compile_taskIds, rfl, rfl⟩

theorem getTaskIds_ok {found : List (Text × Text)} : detector.getTaskIds room unicode disk none = .ok found ↔
    (Harmless room false detector.root ∧ Harmless room false (Regex.escape detector.root)) ∧
      Glob.Compiles detector.root ∧
      found = (searched disk (tasksDir detector.root)).filterMap (groups unicode (taskIdsItems detector.root)) := by
  have compiles : Glob.Compiles (pathOf (tasksDir detector.root) (['*'], ['*'])) ↔ Glob.Compiles detector.root := by
    rw [compiles_pathOf, tasksDir, Glob.Compiles,
      show detector.root ++ "/tasks".toList = detector.root ++ '/' :: "tasks".toList from rfl,
      List.splitOn_append_cons_self, List.forall_mem_append]
    exact and_iff_left (by decide)
  simp only [getTaskIds, bind_eq_ok, mapError_eq_ok, Glob.glob_ok, pure_eq_ok]
  constructor
  · rintro ⟨⟨pathGlob, pathRegex⟩, patterns, paths, ⟨compiled, rfl⟩, rfl⟩
    obtain ⟨harmless, rfl, rfl⟩ := getTaskIdsPatterns_ok.mp patterns
    exact ⟨harmless, compiles.mp compiled, by simp [searched]⟩
  · rintro ⟨harmless, compiled, rfl⟩
    exact ⟨(_, _), getTaskIdsPatterns_ok.mpr ⟨harmless, rfl, rfl⟩, _, ⟨compiles.mpr compiled, rfl⟩, by simp [searched]⟩

theorem groups_task (no_slash : '/' ∉ entry.1) (no_slash' : '/' ∉ entry.2) :
    groups unicode (taskIdsItems root) (pathOf (tasksDir root) entry) =
      if (entry.1 ≠ [] ∧ ∀ c ∈ entry.1, isSpace c = false) ∧
          entry.2.takeWhile (Regex.Kind.accepts (isDigit unicode) .notSpace) ≠ [] then
        some (entry.1, entry.2.takeWhile (Regex.Kind.accepts (isDigit unicode) .notSpace))
      else none :=
  groups_pair (fun _ _ => Regex.match_self _ _) _ no_slash no_slash'

theorem of_groups_task {found : Text × Text} (mem : path ∈ searched disk (tasksDir root))
    (read : groups unicode (taskIdsItems root) path = some found) :
    ∃ entry : Text × Text, '/' ∉ entry.1 ∧ '/' ∉ entry.2 ∧ path = pathOf (tasksDir root) entry := by
  rw [groups] at read
  split at read
  · rename_i matched
    obtain ⟨rest, rfl, later⟩ := Regex.match_chars.mp matched
    cases rest with
    | nil => cases later
    | cons c rest =>
      rw [matchItems] at later
      split at later
      · rename_i slash
        subst slash
        exact of_searched mem rfl
      · cases later
  · cases read

theorem reading_tasks : Reading (tasksDir root) disk (groups unicode (taskIdsItems root)) := by
  intro path mem found read
  obtain ⟨entry, no_slash, no_slash', rfl⟩ := of_groups_task mem read
  exact ⟨entry, no_slash, no_slash', rfl, groups_again (fun _ _ => Regex.match_self _ _) no_slash no_slash' read⟩

/-- `task_path` in one of two states. -/
inductive TaskState
  | active
  | finished
  deriving DecidableEq, Repr

def TaskState.name : TaskState → Text
  | .active => "active".toList
  | .finished => "finished".toList

/-- The tasks are laid out below the root, and nothing else is where tasks would be. -/
structure TasksLaid (room : Nat) (root : Text) (tasks : List (TaskState × Text)) (disk : List Text) : Prop where
  disk_nodup : disk.Nodup
  nodup : tasks.Nodup
  ids : ∀ task ∈ tasks, '/' ∉ task.2
  there : ∀ task ∈ tasks, ∃ path ∈ disk, specPath room (taskIdsKeywords root task.2 task.1.name) .taskPath = .ok path
  only : ∀ state taskId, '/' ∉ state → '/' ∉ taskId → root ++ "/tasks/".toList ++ state ++ '/' :: taskId ∈ disk →
    ∃ task ∈ tasks, state = task.1.name ∧ taskId = task.2

/-- The root is no pattern for another one, and can be put into a path and into an expression; ids have no blanks. -/
structure TasksSuit (room : Nat) (root : Text) (tasks : List (TaskState × Text)) : Prop where
  harmless : Harmless room false root
  escaped : Harmless room false (Regex.escape root)
  compiles : Glob.Compiles root
  itself : tasks ≠ [] → partsMatch (root.splitOn '/') (root.splitOn '/') = true
  ids : ∀ task ∈ tasks, task.2 ≠ [] ∧ ∀ c ∈ task.2, isSpace c = false

def TasksFound (room : Nat) (unicode : Unicode) (root : Text) (tasks : List (TaskState × Text)) (disk : List Text) :
    Prop :=
  ∃ found, getTaskIds room ⟨root⟩ unicode disk none = .ok found ∧
    found.Perm (tasks.map fun task => (task.1.name, task.2))

theorem laid_tasks {tasks : List (TaskState × Text)} (laid : TasksLaid room root tasks disk) :
    Laid (tasksDir root) (tasks.map fun task => (task.1.name, task.2)) disk := by
  have plain : ∀ state : TaskState, '/' ∉ state.name := by rintro (_ | _) <;> decide
  have inj : ∀ state state' : TaskState, state.name = state'.name → state = state' := by
    rintro (_ | _) (_ | _) same <;> first | rfl | (revert same; decide)
  refine ⟨laid.disk_nodup, laid.nodup.map ?_, ?_, ?_, ?_⟩
  · rintro ⟨state, taskId⟩ ⟨state', taskId'⟩ same
    obtain ⟨states, ids⟩ := Prod.mk.inj same
    exact Prod.ext (inj _ _ states) ids
  · intro entry mem
    obtain ⟨task, listed, rfl⟩ := List.mem_map.mp mem
    exact ⟨plain task.1, laid.ids task listed⟩
  · intro entry mem
    obtain ⟨task, listed, rfl⟩ := List.mem_map.mp mem
    obtain ⟨path, there, got⟩ := laid.there task listed
    exact (specPath_task.mp got).2 ▸ there
  · intro entry no_slash no_slash' there
    have place : root ++ "/tasks/".toList ++ entry.1 ++ '/' :: entry.2 ∈ disk := by
      simpa [pathOf, tasksDir] using there
    obtain ⟨task, mem, state_is, taskId_is⟩ := laid.only entry.1 entry.2 no_slash no_slash' place
    exact List.mem_map.mpr ⟨task, mem, Prod.ext state_is.symm taskId_is.symm⟩

theorem visible (all : (text.all fun c => !isSpace c) = true) : ∀ c ∈ text, isSpace c = false := fun c mem => by
  simpa using List.all_eq_true.mp all c mem

theorem parts_tasksDir (root : Text) :
    partsMatch ((tasksDir root).splitOn '/') ((tasksDir root).splitOn '/') =
      partsMatch (root.splitOn '/') (root.splitOn '/') := by
  have last : partsMatch ("tasks".toList.splitOn '/') ("tasks".toList.splitOn '/') = true := by decide
  rw [tasksDir, show root ++ "/tasks".toList = root ++ '/' :: "tasks".toList from rfl, List.splitOn_append_cons_self,
    Glob.partsMatch_append rfl, last, Bool.and_true]

theorem takeWhile_visible : text.takeWhile (Regex.Kind.accepts (isDigit unicode) .notSpace) = text ↔
    ∀ c ∈ text, isSpace c = false := by
  simp [List.takeWhile_eq_self_iff, Regex.Kind.accepts]

theorem tasksFound_iff {tasks : List (TaskState × Text)} (laid : TasksLaid room root tasks disk) :
    TasksFound room unicode root tasks disk ↔ TasksSuit room root tasks := by
  have perm := @perm_iff disk _ _ _ (laid_tasks laid) (@reading_tasks unicode disk root)
  have plain : ∀ task ∈ tasks, '/' ∉ task.1.name := fun task mem =>
    ((laid_tasks laid).names _ (List.mem_map_of_mem mem)).1
  have names : ∀ state : TaskState, state.name ≠ [] ∧ ∀ c ∈ state.name, isSpace c = false := by
    rintro (_ | _)
    · exact ⟨by decide, visible (by decide)⟩
    · exact ⟨by decide, visible (by decide)⟩
  simp only [List.forall_mem_map, ne_eq, List.map_eq_nil_iff, parts_tasksDir] at perm
  constructor
  · rintro ⟨found, got, same⟩
    obtain ⟨harmless, compiles, rfl⟩ := getTaskIds_ok.mp got
    obtain ⟨itself, reads⟩ := perm.mp same
    refine ⟨harmless.1, harmless.2, compiles, itself, fun task mem => ?_⟩
    have read := reads task mem
    rw [groups_task (plain task mem) (laid.ids task mem)] at read
    split at read
    · rename_i suits
      have whole := (Prod.mk.inj (Option.some.inj read)).2
      rw [whole] at suits
      exact ⟨suits.2, takeWhile_visible.mp whole⟩
    · cases read
  · rintro ⟨harmless, escaped, compiles, itself, ids⟩
    refine ⟨_, getTaskIds_ok.mpr ⟨⟨harmless, escaped⟩, compiles, rfl⟩, perm.mpr ⟨itself, fun task mem => ?_⟩⟩
    rw [groups_task (plain task mem) (laid.ids task mem), takeWhile_visible.mpr (ids task mem).2,
      if_pos ⟨names task.1, (ids task mem).1⟩]

end Tasks

section Runs

variable {room} {detector unicode disk} {root taskId logDir process path : Text} {run : TaskPath.Value}
  {entry found : Text × Text}

theorem specPath_run :
    specPath room (processRunsKeywords root taskId logDir process run) .processLogdir = .ok path ↔
    Harmless room false path ∧ path = pathOf logDir (process, run.str) := by
  obtain ⟨spec, built⟩ :
    ∃ spec, TaskPath.chain [] [processRunsKeywords root taskId logDir process run] = .ok spec := ⟨_, rfl⟩
  have logDir_is : spec.data .logDir = .text logDir := TaskPath.data_of_lastGiven built rfl
  have process_is : spec.data .process = .text process := TaskPath.data_of_lastGiven built rfl
  have run_is : spec.data .run = run := TaskPath.data_of_lastGiven built rfl
  refine specPath_ok built ?_
  simp [TaskPath.interpolate, TaskPath.join, TaskPath.dirTemplate, List.intercalate, List.intersperse, logDir_is,
    process_is, run_is, TaskPath.Value.str, pathOf]

/-- No character of the directory means more than itself in an expression, where a dot is one of those it stands for. -/
def PlainDir (logDir : Text) : Prop := ∀ c ∈ logDir, c ∉ Regex.special

instance (logDir : Text) : Decidable (PlainDir logDir) :=
  decidable_of_iff (logDir.all fun c => decide (c ∉ Regex.special)) (by simp [PlainDir])

def runsItems (logDir : Text) : List Item := pairItems (logDir.map Regex.item) .digit

theorem compile_runs (plain : PlainDir logDir) :
    compile (pathOf logDir ("(\\S+)".toList, "(\\d+)".toList)) = .ok (runsItems logDir) := by
  have groups_ : Regex.compile "/(\\S+)/(\\d+)".toList =
      some [.char '/', .group .notSpace, .char '/', .group .digit] := by decide
  have split : pathOf logDir ("(\\S+)".toList, "(\\d+)".toList) = logDir ++ "/(\\S+)/(\\d+)".toList := by
    simp [pathOf]
  rw [compile, split, Regex.compile_append plain, groups_]
  rfl

theorem getProcessRunsPatterns_ok (plain : PlainDir logDir) {pathGlob : Text} {pathRegex : List Item} :
    detector.getProcessRunsPatterns room taskId logDir = .ok (pathGlob, pathRegex) ↔
      Harmless room false logDir ∧ pathGlob = pathOf logDir (['*'], ['*']) ∧ pathRegex = runsItems logDir := by
  have star : Harmless room false (pathOf logDir (['*'], ['*'])) ↔ Harmless room false logDir :=
    harmless_pathOf (by decide) (by decide)
  have expression : Harmless room false (pathOf logDir ("(\\S+)".toList, "(\\d+)".toList)) ↔
      Harmless room false logDir :=
    harmless_pathOf (by decide) (by decide)
  simp only [getProcessRunsPatterns, bind_eq_ok, specPath_run, pure_eq_ok, Prod.mk.injEq, TaskPath.Value.str]
  constructor
  · rintro ⟨_, ⟨harmless, rfl⟩, _, ⟨-, rfl⟩, items, compiled, rfl, rfl⟩
    rw [compile_runs plain] at compiled
    exact ⟨star.mp harmless, rfl, (Except.ok.inj compiled).symm⟩
  · rintro ⟨harmless, rfl, rfl⟩
    exact ⟨_, ⟨star.mpr harmless, rfl⟩, _, ⟨expression.mpr harmless, rfl⟩, _, compile_runs plain, rfl, rfl⟩

theorem no_magic (plain : PlainDir logDir) : ∀ part ∈ logDir.splitOn '/', Glob.hasMagic part = false := by
  intro part mem
  rw [Glob.hasMagic, List.any_eq_false]
  intro c mem' magic
  refine plain c (Glob.mem_part logDir part mem c mem').1 ?_
  simp only [decide_eq_true_eq, List.mem_cons, List.not_mem_nil, or_false] at magic
  rcases magic with rfl | rfl | rfl <;> decide

theorem getProcessRuns_ok (plain : PlainDir logDir) {runs : List (Text × Int)} :
    detector.getProcessRuns room unicode disk taskId logDir = .ok runs ↔
      Harmless room false logDir ∧ ((searched disk logDir).filterMap (groups unicode (runsItems logDir))).mapM
        (fun found => do return (found.1, ← int unicode found.2)) = .ok runs := by
  have compiles : Glob.Compiles (pathOf logDir (['*'], ['*'])) :=
    compiles_pathOf.mpr (Glob.compiles_plain (no_magic plain))
  simp only [getProcessRuns, bind_eq_ok, mapError_eq_ok, Glob.glob_ok]
  constructor
  · rintro ⟨⟨pathGlob, pathRegex⟩, patterns, paths, ⟨-, rfl⟩, mapped⟩
    obtain ⟨harmless, rfl, rfl⟩ := (getProcessRunsPatterns_ok plain).mp patterns
    exact ⟨harmless, mapped⟩
  · rintro ⟨harmless, mapped⟩
    exact ⟨(_, _), (getProcessRunsPatterns_ok plain).mpr ⟨harmless, rfl, rfl⟩, _, ⟨compiles, rfl⟩, mapped⟩

theorem pathOf_of_searched (plain : PlainDir logDir) (mem : path ∈ searched disk logDir) :
    ∃ entry : Text × Text, '/' ∉ entry.1 ∧ '/' ∉ entry.2 ∧ path = pathOf logDir entry := by
  obtain ⟨names, first, second, split, matches_⟩ := (parts_star logDir path).mp (List.mem_filter.mp mem).2
  rw [Glob.partsMatch_plain (no_magic plain)] at matches_
  subst matches_
  have part : ∀ part ∈ [first, second], '/' ∉ part := fun part listed slash =>
    (Glob.mem_part path part (split ▸ List.mem_append_right _ listed) '/' slash).2 rfl
  have no_slash := part first (by simp)
  have no_slash' := part second (by simp)
  refine ⟨(first, second), no_slash, no_slash', ?_⟩
  have parts := @splitOn_pathOf logDir (first, second) no_slash no_slash'
  have same : path.splitOn '/' = (pathOf logDir (first, second)).splitOn '/' := split.trans parts.symm
  have joined := congrArg ['/'].intercalate same
  rwa [List.intercalate_splitOn, List.intercalate_splitOn] at joined

/-- The runs are laid out below the directory, and nothing else is where runs would be. -/
structure RunsLaid (room : Nat) (root taskId logDir : Text) (runs : List (Text × Nat)) (disk : List Text) : Prop where
  disk_nodup : disk.Nodup
  nodup : runs.Nodup
  names : ∀ run ∈ runs, validProcessName run.1 = true
  there : ∀ run ∈ runs, ∃ path ∈ disk,
    specPath room (processRunsKeywords root taskId logDir run.1 (.int run.2)) .processLogdir = .ok path
  only : ∀ process number, '/' ∉ process → '/' ∉ number → logDir ++ '/' :: process ++ '/' :: number ∈ disk →
    ∃ run ∈ runs, process = run.1 ∧ number = (TaskPath.Value.int run.2).str

/-- The directory can be put into a path, and the names of the processes have no blanks. -/
structure RunsSuit (room : Nat) (logDir : Text) (runs : List (Text × Nat)) : Prop where
  harmless : Harmless room false logDir
  names : ∀ run ∈ runs, ∀ c ∈ run.1, isSpace c = false

def RunsFound (room : Nat) (unicode : Unicode) (root taskId logDir : Text) (runs : List (Text × Nat))
    (disk : List Text) : Prop :=
  ∃ found, getProcessRuns room ⟨root⟩ unicode disk taskId logDir = .ok found ∧
    found.Perm (runs.map fun run => (run.1, (run.2 : Int)))

def runEntry (run : Text × Nat) : Text × Text := (run.1, (TaskPath.Value.int run.2).str)

theorem str_run (number : Nat) : (TaskPath.Value.int number).str = Nat.toDigits 10 number := by
  rw [TaskPath.Value.str, decimal, if_neg (by omega), Int.natAbs_natCast]

theorem runEntry_inj {run run' : Text × Nat} (same : runEntry run = runEntry run') : run = run' := by
  obtain ⟨processes, numbers⟩ := Prod.mk.inj same
  exact Prod.ext processes (Int.ofNat.inj (TaskPath.decimal_inj.mp numbers))

theorem laid_runs {runs : List (Text × Nat)} (laid : RunsLaid room root taskId logDir runs disk) :
    Laid logDir (runs.map runEntry) disk := by
  refine ⟨laid.disk_nodup, laid.nodup.map fun _ _ => runEntry_inj, ?_, ?_, ?_⟩
  · intro entry mem
    obtain ⟨run, listed, rfl⟩ := List.mem_map.mp mem
    have number : '/' ∉ decimal run.2 := TaskPath.decimal_plain _ (by decide) (by decide)
    exact ⟨TaskPath.validProcessName_no_slash (laid.names run listed), number⟩
  · intro entry mem
    obtain ⟨run, listed, rfl⟩ := List.mem_map.mp mem
    obtain ⟨path, there, got⟩ := laid.there run listed
    exact (specPath_run.mp got).2 ▸ there
  · intro entry no_slash no_slash' there
    have place : logDir ++ '/' :: entry.1 ++ '/' :: entry.2 ∈ disk := by simpa [pathOf] using there
    obtain ⟨run, listed, process_is, number_is⟩ := laid.only entry.1 entry.2 no_slash no_slash' place
    exact List.mem_map.mpr ⟨run, listed, Prod.ext process_is.symm number_is.symm⟩

theorem int_run (number : Nat) : int unicode (TaskPath.Value.int number).str = .ok (number : Int) := by
  have decimal : Client.Cli.Decimal (Nat.toDigits 10 number) number :=
    ⟨⟨Nat.toDigits_ne_nil, fun c mem => Nat.isDigit_of_mem_toDigits (by decide) (by decide) mem⟩,
      Nat.ofDigitChars_ten_toDigits⟩
  rw [int, str_run, Client.Cli.int_decimal unicode decimal]
  rfl

theorem takeWhile_run (number : Nat) :
    (TaskPath.Value.int number).str.takeWhile (Regex.Kind.accepts (isDigit unicode) .digit) =
      (TaskPath.Value.int number).str := by
  rw [str_run, List.takeWhile_eq_self_iff]
  intro c mem
  have digit := Nat.isDigit_of_mem_toDigits (by decide) (by decide) mem
  rw [Regex.Kind.accepts, isDigit, Client.Cli.digit, if_pos digit]
  rfl

theorem match_dir (items : List Item) (rest : Text) :
    matchItems (isDigit unicode) (logDir.map Regex.item ++ items) (logDir ++ rest) =
      matchItems (isDigit unicode) items rest := Regex.match_items logDir rest

theorem reading_runs (plain : PlainDir logDir) : Reading logDir disk (groups unicode (runsItems logDir)) := by
  intro path mem found read
  obtain ⟨entry, no_slash, no_slash', rfl⟩ := pathOf_of_searched plain mem
  exact ⟨entry, no_slash, no_slash', rfl, groups_again match_dir no_slash no_slash' read⟩

theorem visible_of_read {found : Text × Text} (plain : PlainDir logDir) (mem : path ∈ searched disk logDir)
    (read : groups unicode (runsItems logDir) path = some found) : ∀ c ∈ found.1, isSpace c = false := by
  obtain ⟨entry, no_slash, no_slash', rfl⟩ := pathOf_of_searched plain mem
  rw [runsItems, groups_pair match_dir _ no_slash no_slash'] at read
  split at read
  · rename_i suits
    obtain rfl := Option.some.inj read
    exact suits.1.2
  · cases read

theorem read_run {runs : List (Text × Nat)} (laid : RunsLaid room root taskId logDir runs disk)
    (names : ∀ run ∈ runs, ∀ c ∈ run.1, isSpace c = false) :
    ∀ entry ∈ runs.map runEntry, groups unicode (runsItems logDir) (pathOf logDir entry) = some entry := by
  intro entry mem
  obtain ⟨no_slash, no_slash'⟩ := (laid_runs laid).names entry mem
  obtain ⟨run, listed, rfl⟩ := List.mem_map.mp mem
  have some_name : run.1 ≠ [] := by
    intro none
    have valid := laid.names run listed
    rw [none] at valid
    cases valid
  have some_number : (TaskPath.Value.int run.2).str ≠ [] := str_run run.2 ▸ Nat.toDigits_ne_nil
  rw [runsItems, groups_pair match_dir _ no_slash no_slash', runEntry, takeWhile_run,
    if_pos ⟨⟨some_name, names run listed⟩, some_number⟩]

theorem runsFound_iff {runs : List (Text × Nat)} (laid : RunsLaid room root taskId logDir runs disk)
    (plain : PlainDir logDir) :
    RunsFound room unicode root taskId logDir runs disk ↔ RunsSuit room logDir runs := by
  constructor
  · rintro ⟨found, got, same⟩
    obtain ⟨harmless, mapped⟩ := (getProcessRuns_ok plain).mp got
    refine ⟨harmless, fun run listed => ?_⟩
    obtain ⟨pair, mem, made⟩ := mem_of_mapM mapped _ (same.mem_iff.mpr (List.mem_map_of_mem listed))
    obtain ⟨number, -, made⟩ := bind_eq_ok.mp made
    obtain ⟨process_is, -⟩ := Prod.mk.inj (pure_eq_ok.mp made)
    obtain ⟨path, mem, read⟩ := List.mem_filterMap.mp mem
    exact process_is ▸ visible_of_read plain mem read
  · rintro ⟨harmless, names⟩
    have itself : partsMatch (logDir.splitOn '/') (logDir.splitOn '/') = true :=
      (Glob.partsMatch_plain (no_magic plain)).mpr rfl
    have perm := (@reading_runs unicode disk logDir plain).perm (laid_runs laid) (fun _ => itself) (read_run laid names)
    have made : ∀ entry ∈ (searched disk logDir).filterMap (groups unicode (runsItems logDir)),
        (do return (entry.1, ← int unicode entry.2) : Except Raised (Text × Int)) =
          .ok (entry.1, (Nat.ofDigitChars 10 entry.2 0 : Int)) := by
      intro entry mem
      obtain ⟨run, listed, rfl⟩ := List.mem_map.mp (perm.mem_iff.mp mem)
      rw [runEntry, int_run, str_run, Nat.ofDigitChars_ten_toDigits]
      rfl
    refine ⟨_, (getProcessRuns_ok plain).mpr ⟨harmless, mapM_ok_of_forall made⟩, ?_⟩
    refine (perm.map _).trans (List.Perm.of_eq ?_)
    rw [List.map_map]
    refine List.map_congr_left fun run _ => ?_
    simp [runEntry, str_run, Nat.ofDigitChars_ten_toDigits]

end Runs

section Detection

variable {root taskId logDir : Text} {tasks : List (TaskState × Text)} {runs : List (Text × Nat)} {disk : List Text}

def smallDisk : List Text := ["/r/tasks/active/www".toList, "/logs/server/7".toList]

theorem smallDisk_tasks : TasksLaid 65536 "/r".toList [(.active, "www".toList)] smallDisk where
  disk_nodup := by decide
  nodup := by decide
  ids := by decide
  there := by
    rw [List.forall_mem_singleton]
    exact ⟨"/r/tasks/active/www".toList, by decide, by decide⟩
  only state taskId no_slash no_slash' there := by
    rw [smallDisk, List.mem_pair] at there
    rcases there with here | elsewhere
    · have names : state ++ '/' :: taskId = "active".toList ++ '/' :: "www".toList := by simpa using here
      obtain ⟨rfl, -, rfl⟩ := (List.append_cons_inj_of_notMem no_slash no_slash').mp names
      exact ⟨_, List.mem_singleton_self _, rfl, rfl⟩
    · simp at elsewhere

theorem smallDisk_runs : RunsLaid 65536 "/r".toList "www".toList "/logs".toList [("server".toList, 7)] smallDisk where
  disk_nodup := by decide
  nodup := by decide
  names := by decide
  there := by
    rw [List.forall_mem_singleton]
    exact ⟨"/logs/server/7".toList, by decide, by decide⟩
  only process number no_slash no_slash' there := by
    rw [smallDisk, List.mem_pair] at there
    rcases there with elsewhere | here
    · simp at elsewhere
    · have names : process ++ '/' :: number = "server".toList ++ '/' :: "7".toList := by simpa using here
      obtain ⟨rfl, -, rfl⟩ := (List.append_cons_inj_of_notMem no_slash no_slash').mp names
      exact ⟨_, List.mem_singleton_self _, rfl, rfl⟩

end Detection

end TaskDetector

end Aurora.Thermos
