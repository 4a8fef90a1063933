import Aurora.Library.PercentFormat

namespace Aurora.Thermos

open PyText Percent Replay

namespace TaskPath

inductive Key
  | root
  | taskId
  | state
  | process
  | run
  | logDir
  deriving DecidableEq, Repr

def Key.name : Key → Text
  | .root => "root".toList
  | .taskId => "task_id".toList
  | .state => "state".toList
  | .process => "process".toList
  | .run => "run".toList
  | .logDir => "log_dir".toList

def knownKeys : List Key := [.root, .taskId, .state, .process, .run, .logDir]

inductive PathName
  | taskPath
  | checkpointPath
  | runnerCheckpoint
  | processCheckpoint
  | processLogbase
  | processLogdir
  deriving DecidableEq, Repr

inductive Piece
  | text (chars : Text)
  | key (name : Key)

def dirTemplate : PathName → List (List Piece)
  | .taskPath => [[.key .root], [.text "tasks".toList], [.key .state], [.key .taskId]]
  | .checkpointPath => [[.key .root], [.text "checkpoints".toList], [.key .taskId]]
  | .runnerCheckpoint => [[.key .root], [.text "checkpoints".toList], [.key .taskId], [.text "runner".toList]]
  | .processCheckpoint =>
    [[.key .root], [.text "checkpoints".toList], [.key .taskId], [.text "coordinator.".toList, .key .process]]
  | .processLogbase => [[.key .logDir]]
  | .processLogdir => [[.key .logDir], [.key .process], [.key .run]]

inductive Value
  | text (chars : Text)
  | int (number : Int)
  deriving DecidableEq, Repr

def Value.str : Value → Text
  | .text chars => chars
  | .int number => decimal number

inductive Raised
  | valueError (key : Key)
  | underspecifiedPath (name : PathName) (path : Text)
  | format (failure : Failure)
  deriving DecidableEq, Repr

abbrev Keywords := List (Key × Option Value)

end TaskPath

/-- `self._data`; a path without a filename. -/
structure TaskPath where
  data : TaskPath.Key → TaskPath.Value

namespace TaskPath

def selfInterpolating (key : Key) : Value := .text ("%(".toList ++ key.name ++ ")s".toList)

def evaluated (data : Key → Value) (keywords : Keywords) (key : Key) : Option Value :=
  (keywords.reverse.lookup key).getD (some (data key))

def create (keywords : Keywords) : Except Raised TaskPath :=
  match keywords.find? fun keyword => keyword.2.isNone with
  | some (key, _) => .error (.valueError key)
  | none => .ok { data := fun key => (evaluated selfInterpolating keywords key).getD (selfInterpolating key) }

def given (path : TaskPath) (keywords : Keywords) : Except Raised TaskPath :=
  create (knownKeys.map fun key => (key, evaluated path.data keywords key))

def chain (first : Keywords) (calls : List Keywords) : Except Raised TaskPath := do calls.foldlM given (← create first)

/-- `os.path.join` of the components, none of which is empty or begins with a slash. -/
def join (components : List (List Piece)) : List Piece := [Piece.text ['/']].intercalate components

def interpolate (data : Key → Value) (pieces : List Piece) : Text :=
  pieces.flatMap fun
    | .text chars => chars
    | .key name => (data name).str

/-- The mapping that is put into the path once more; there is memory for a field of such a width. -/
def emptyMapping (room : Nat) : Subject Unit where
  lookup _ := none
  whole := ()
  asInt _ := none
  convert spec c _ :=
    if isShown c then if spec.Fits room then .ok "\x7b\x7d".toList else .error .memoryError
    else if c ∈ ['d', 'i', 'u'] then
      .error (.typeError ("%".push c ++ " format: a real number is required, not dict"))
    else if c ∈ ['o', 'x', 'X'] then
      .error (.typeError ("%".push c ++ " format: an integer is required, not dict"))
    else if c ∈ ['e', 'E', 'f', 'F', 'g', 'G'] then .error (.typeError "must be real number, not dict")
    else if c = 'c' then .error (.typeError "%c requires int or char")
    else .error (.valueError "unsupported format character")

def getpath (room : Nat) (path : TaskPath) (name : PathName) : Except Raised Text :=
  let interpolatedPath := interpolate path.data (join (dirTemplate name))
  match format (emptyMapping room) interpolatedPath with
  | .ok _ => .ok interpolatedPath
  | .error (.keyError _) => .error (.underspecifiedPath name interpolatedPath)
  | .error failure => .error (.format failure)

end TaskPath

def validProcessName : Text → Bool
  | [] => false
  | first :: rest => first ≠ '.' && first ≠ '/' && '/' ∉ rest

namespace TaskPath

def LastGiven (keywords : Keywords) (key : Key) (value : Value) : Prop :=
  keywords.reverse.lookup key = some (some value)

/-- All keys of the path of a checkpoint and of the path of a log were given, these being the last values of them. -/
structure Given (keywords : Keywords) (root taskId logDir process : Text) (run : Int) : Prop where
  root : LastGiven keywords .root (.text root)
  taskId : LastGiven keywords .taskId (.text taskId)
  logDir : LastGiven keywords .logDir (.text logDir)
  process : LastGiven keywords .process (.text process)
  run : LastGiven keywords .run (.int run)

def checkpointBase (root taskId : Text) : Text := root ++ "/checkpoints/".toList ++ taskId ++ "/coordinator.".toList

section Chain

variable {path next : TaskPath} {keywords first : Keywords} {calls : List Keywords}

theorem evaluated_append (data : Key → Value) (keywords others : Keywords) (key : Key) :
    evaluated data (keywords ++ others) key = (others.reverse.lookup key).getD (evaluated data keywords key) := by
  rw [evaluated, List.reverse_append, List.lookup_append]
  cases others.reverse.lookup key <;> rfl

theorem create_isOk (built : create keywords = .ok path) :
    (∀ key, (key, none) ∉ keywords) ∧
      path.data = fun key => (evaluated selfInterpolating keywords key).getD (selfInterpolating key) := by
  rw [create] at built
  split at built
  · cases built
  · rename_i present
    cases built
    refine ⟨fun key mem => ?_, rfl⟩
    have some_ := List.find?_eq_none.mp present _ mem
    exact some_ rfl

theorem data_create (built : create keywords = .ok path) (key : Key) :
    some (path.data key) = evaluated selfInterpolating keywords key := by
  obtain ⟨present, data⟩ := create_isOk built
  rw [data]
  cases found : keywords.reverse.lookup key with
  | none => simp [evaluated, found]
  | some value =>
    cases value with
    | some value => simp [evaluated, found]
    | none =>
      obtain ⟨before, after, same, -⟩ := List.lookup_eq_some_iff.mp found
      have mem : (key, none) ∈ keywords.reverse := by simp [same]
      exact absurd (List.mem_reverse.mp mem) (present key)

theorem lookup_knownKeys (value : Key → Option Value) (key : Key) :
    (knownKeys.map fun key => (key, value key)).reverse.lookup key = some (value key) := by
  cases key <;> rfl

theorem data_given (built : path.given keywords = .ok next) (key : Key) :
    some (next.data key) = evaluated path.data keywords key := by
  rw [data_create built, evaluated, lookup_knownKeys]
  rfl

theorem data_calls (built : calls.foldlM given path = .ok next) (key : Key) :
    some (next.data key) = evaluated path.data calls.flatten key := by
  induction calls generalizing path with
  | nil =>
    rw [List.foldlM_nil, pure_eq_ok] at built
    rw [built]
    rfl
  | cons keywords calls ih =>
    rw [List.foldlM_cons, bind_eq_ok] at built
    obtain ⟨middle, built, later⟩ := built
    rw [ih later, List.flatten_cons, evaluated_append, ← data_given built, evaluated]

theorem data_of_lastGiven {key : Key} {value : Value} (built : chain first calls = .ok path)
    (last : LastGiven (first ++ calls.flatten) key value) : path.data key = value := by
  rw [chain, bind_eq_ok] at built
  obtain ⟨start, built, later⟩ := built
  have data := data_calls later key
  rw [evaluated, data_create built, ← evaluated_append, evaluated, last] at data
  exact Option.some.inj data

end Chain

section Paths

variable {room : Nat} {path other : TaskPath} {first first' : Keywords} {calls calls' : List Keywords}
  {root taskId logDir process process' : Text} {run run' : Int}

theorem interpolate_checkpoint (built : chain first calls = .ok path)
    (given : Given (first ++ calls.flatten) root taskId logDir process run) :
    interpolate path.data (join (dirTemplate .processCheckpoint)) = checkpointBase root taskId ++ process := by
  have root_is := data_of_lastGiven built given.root
  have taskId_is := data_of_lastGiven built given.taskId
  have process_is := data_of_lastGiven built given.process
  simp [interpolate, join, dirTemplate, List.intercalate, List.intersperse, root_is, taskId_is, process_is, Value.str,
    checkpointBase]

theorem interpolate_logdir (built : chain first calls = .ok path)
    (given : Given (first ++ calls.flatten) root taskId logDir process run) :
    interpolate path.data (join (dirTemplate .processLogdir)) = logDir ++ '/' :: (process ++ '/' :: decimal run) := by
  have logDir_is := data_of_lastGiven built given.logDir
  have process_is := data_of_lastGiven built given.process
  have run_is := data_of_lastGiven built given.run
  simp [interpolate, join, dirTemplate, List.intercalate, List.intersperse, logDir_is, process_is, run_is, Value.str]

theorem emptyMapping_bare : (emptyMapping room).Bare room where
  lookup _ := rfl
  asInt _ := rfl
  convert spec c value := by
    simp only [emptyMapping]
    split
    · split <;> simp_all
    · split_ifs <;> simp_all

theorem getpath_isOk_iff (path : TaskPath) (name : PathName) :
    (∃ text, path.getpath room name = .ok text) ↔
      Harmless room false (interpolate path.data (join (dirTemplate name))) := by
  rw [← format_isOk_iff_harmless emptyMapping_bare, getpath]
  split <;> simp_all

theorem getpath_eq_ok {name : PathName} {text : Text} (got : path.getpath room name = .ok text) :
    text = interpolate path.data (join (dirTemplate name)) := by
  rw [getpath] at got
  split at got
  · exact (Except.ok.inj got).symm
  · cases got
  · cases got

theorem getpath_ok {name : PathName} {text : Text} :
    path.getpath room name = .ok text ↔
      Harmless room false text ∧ text = interpolate path.data (join (dirTemplate name)) := by
  constructor
  · intro got
    have same := getpath_eq_ok got
    exact ⟨same ▸ (getpath_isOk_iff path name).mp ⟨text, got⟩, same⟩
  · rintro ⟨harmless, rfl⟩
    obtain ⟨text, got⟩ := (getpath_isOk_iff path name).mpr harmless
    rw [got, getpath_eq_ok got]

theorem toDigits_inj {i j : Nat} : Nat.toDigits 10 i = Nat.toDigits 10 j ↔ i = j := by
  refine ⟨fun same => ?_, fun same => same ▸ rfl⟩
  rw [← Nat.ofDigitChars_ten_toDigits (n := i), same, Nat.ofDigitChars_ten_toDigits]

theorem mem_decimal {c : Char} {number : Int} (mem : c ∈ decimal number) : c = '-' ∨ c.isDigit = true := by
  rw [decimal] at mem
  split at mem
  · rcases List.mem_cons.mp mem with rfl | mem
    · exact .inl rfl
    · exact .inr (Nat.isDigit_of_mem_toDigits (by decide) (by decide) mem)
  · exact .inr (Nat.isDigit_of_mem_toDigits (by decide) (by decide) mem)

theorem minus_not_mem {n : Nat} : '-' ∉ Nat.toDigits 10 n := by
  intro mem
  have digit := Nat.isDigit_of_mem_toDigits (by decide) (by decide) mem
  revert digit
  decide

theorem decimal_inj : decimal run = decimal run' ↔ run = run' := by
  refine ⟨fun same => ?_, fun same => same ▸ rfl⟩
  rw [decimal, decimal] at same
  split at same <;> split at same
  · have digits := toDigits_inj.mp (List.cons.inj same).2
    omega
  · exact absurd (same ▸ List.mem_cons_self) minus_not_mem
  · exact absurd (same ▸ List.mem_cons_self) minus_not_mem
  · have digits := toDigits_inj.mp same
    omega

theorem decimal_plain {c : Char} (number : Int) (minus : c ≠ '-') (digit : c.isDigit = false) : c ∉ decimal number := by
  intro mem
  rcases mem_decimal mem with same | digit'
  · exact minus same
  · simp_all

theorem validProcessName_no_slash (valid : validProcessName process = true) : '/' ∉ process := by
  cases process with
  | nil => exact List.not_mem_nil
  | cons first rest =>
    rw [validProcessName] at valid
    simp_all [Ne.symm]

theorem harmless_checkpoint (root_plain : '%' ∉ root) (taskId_plain : '%' ∉ taskId) :
    Harmless room false (checkpointBase root taskId ++ process) ↔ Harmless room false process := by
  have plain : '%' ∉ checkpointBase root taskId := by simp [checkpointBase, root_plain, taskId_plain]
  exact ⟨.of_plain_append plain, .plain_append plain⟩

theorem harmless_logdir (logDir_plain : '%' ∉ logDir) :
    Harmless room false (logDir ++ '/' :: (process ++ '/' :: decimal run)) ↔ Harmless room false process := by
  have plain : '%' ∉ logDir ++ ['/'] := by simp [logDir_plain]
  have after : '%' ∉ '/' :: decimal run := by simp [decimal_plain run]
  rw [show logDir ++ '/' :: (process ++ '/' :: decimal run) =
    (logDir ++ ['/']) ++ (process ++ '/' :: decimal run) by simp]
  constructor
  · intro harmless
    exact (harmless.of_plain_append plain).before_slash
  · intro harmless
    exact .plain_append plain (harmless.append_plain after)

theorem logdir_inj (no_slash : '/' ∉ process) (no_slash' : '/' ∉ process')
    (same : logDir ++ '/' :: (process ++ '/' :: decimal run) = logDir ++ '/' :: (process' ++ '/' :: decimal run')) :
    process = process' ∧ run = run' := by
  have tails := (List.cons.inj (List.append_cancel_left same)).2
  obtain ⟨rfl, -, numbers⟩ := (List.append_cons_inj_of_notMem no_slash
    (decimal_plain run (by decide) (by decide))).mp tails
  exact ⟨rfl, decimal_inj.mp numbers⟩

/-- The paths for a process can be got just if its name is harmless, and no other process, or run of it, gets
    the same ones. -/
theorem getpath_total_injective_iff (room : Nat) (built : chain first calls = .ok path)
    (given : Given (first ++ calls.flatten) root taskId logDir process run) (root_plain : '%' ∉ root)
    (taskId_plain : '%' ∉ taskId) (logDir_plain : '%' ∉ logDir) (valid : validProcessName process = true) :
    ((∃ text, path.getpath room .processCheckpoint = .ok text) ∧ (∃ text, path.getpath room .processLogdir = .ok text) ∧
      ∀ first' calls' other process' run', chain first' calls' = .ok other →
        Given (first' ++ calls'.flatten) root taskId logDir process' run' → validProcessName process' = true →
        (∀ text, path.getpath room .processCheckpoint = .ok text → other.getpath room .processCheckpoint = .ok text →
          process = process') ∧
        (∀ text, path.getpath room .processLogdir = .ok text → other.getpath room .processLogdir = .ok text →
          process = process' ∧ run = run')) ↔
      Harmless room false process := by
  rw [getpath_isOk_iff, getpath_isOk_iff, interpolate_checkpoint built given, interpolate_logdir built given,
    harmless_checkpoint root_plain taskId_plain, harmless_logdir logDir_plain]
  refine ⟨fun both => both.1, fun harmless => ⟨harmless, harmless, ?_⟩⟩
  intro first' calls' other process' run' built' given' valid'
  constructor
  · intro text got got'
    have same := (getpath_eq_ok got).symm.trans (getpath_eq_ok got')
    rw [interpolate_checkpoint built given, interpolate_checkpoint built' given'] at same
    exact List.append_cancel_left same
  · intro text got got'
    have same := (getpath_eq_ok got).symm.trans (getpath_eq_ok got')
    rw [interpolate_logdir built given, interpolate_logdir built' given'] at same
    exact logdir_inj (validProcessName_no_slash valid) (validProcessName_no_slash valid') same

/-- After a width a percent sign is no conversion, and not every width can be padded to. -/
example : (format (emptyMapping 65536) "a%5%".toList, format (emptyMapping 65536) "%65537s".toList) =
    (.error (.valueError "unsupported format character"), .error .memoryError) := by decide

def someKeywords (process : String) : Keywords :=
  [(.root, some (.text "/var/run/thermos".toList)), (.taskId, some (.text "www".toList)),
    (.logDir, some (.text "/logs".toList)), (.process, some (.text process.toList)), (.run, some (.int 0))]

theorem given_someKeywords (process : String) (run : Int) :
    Given (someKeywords process ++ [[(.run, some (.int run))]].flatten) "/var/run/thermos".toList "www".toList
      "/logs".toList process.toList run := ⟨rfl, rfl, rfl, rfl, rfl⟩

theorem getpath_server : ∃ path, chain (someKeywords "server") [[(.run, some (.int 3))]] = .ok path ∧
    (∃ text, path.getpath 65536 .processCheckpoint = .ok text) ∧
      (∃ text, path.getpath 65536 .processLogdir = .ok text) := by
  obtain ⟨path, built⟩ : ∃ path, chain (someKeywords "server") [[(.run, some (.int 3))]] = .ok path := ⟨_, rfl⟩
  have paths := (getpath_total_injective_iff 65536 built (given_someKeywords "server" 3) (by decide) (by decide)
    (by decide) (by decide)).mpr (harmless_of_plain (by decide))
  exact ⟨path, built, paths.1, paths.2.1⟩

/-- A valid name whose last character is a percent sign. -/
theorem getpath_raises : ∃ path, chain (someKeywords "100%") [] = .ok path ∧ validProcessName "100%".toList = true ∧
    path.getpath 65536 .processCheckpoint = .error (.format (.valueError "incomplete format")) :=
  ⟨_, rfl, by decide, by decide⟩

end Paths

end TaskPath

end Aurora.Thermos
