import Aurora.Client.Api.UpdaterUtil
import Aurora.Client.Cli.MatchingJobs
import Aurora.Client.Cli.Options

namespace Aurora.Client.Cli

open PyText Replay Aurora.Common

inductive SpecifierError
  /-- `AuroraJobKey.ParseError` -/
  | parseError (path : Text)
  | invalidIdentifier (invalid : InvalidIdentifier)
  | argumentTypeError (message : String)
  | instances (e : OptionError)
  deriving DecidableEq

structure TaskInstanceKey (alnum : Char → Bool) (Instance : Type) where
  jobkey : Common.ValidJobKey alnum
  instance' : Instance
  deriving DecidableEq

variable (unicode : Unicode) (alnum : Char → Bool)

def auroraJobKey (cluster role env name : Text) : Except SpecifierError (Common.ValidJobKey alnum) :=
  (Common.AuroraJobKey.create alnum cluster role env name).mapError .invalidIdentifier

/-- `AuroraJobKey.from_path`; a fifth piece, which has all the rest, is one too many. -/
def fromPath (path : Text) : Except SpecifierError (Common.ValidJobKey alnum) :=
  match path.splitOn '/' with
  | [cluster, role, env, name] => auroraJobKey alnum cluster role env name
  | _ => throw (.parseError path)

def instanceSpecifier (specStr : Option Text) :
    Except SpecifierError (TaskInstanceKey alnum (Option (List Int))) :=
  match specStr with
  | none | some [] => throw (.argumentTypeError "Instance specifier must be non-empty")
  | some specStr =>
    match specStr.splitOn '/' with
    | [cluster, role, env, name] => return ⟨← auroraJobKey alnum cluster role env name, none⟩
    | [cluster, role, env, name, instanceStr] => do
      let jobkey ← auroraJobKey alnum cluster role env name
      return ⟨jobkey, ← (parseInstances unicode (some (String.ofList instanceStr))).mapError .instances⟩
    | _ => throw (.argumentTypeError "Instance specifier must be a CLUSTER/ROLE/ENV/JOB/INSTANCES tuple")

def parseTaskInstanceKey (key : Text) : Except SpecifierError (TaskInstanceKey alnum Int) :=
  match key.splitOn '/' with
  | [cluster, role, env, name, instanceStr] => do
    let value ← (int unicode instanceStr).elim
      (throw (.argumentTypeError ("Instance must be an integer, but got " ++ String.ofList instanceStr))) pure
    return ⟨← auroraJobKey alnum cluster role env name, value⟩
  | _ => throw (.argumentTypeError
      ("Task instance specifier " ++ String.ofList key ++ " is not in the form CLUSTER/ROLE/ENV/NAME/INSTANCE"))

section Paths

variable {unicode alnum} {key other : Common.ValidJobKey alnum} {path spec cluster role env name : Text}

theorem identifier_noSlash (identifier : Identifier alnum) : '/' ∉ identifier.1 := by
  obtain ⟨text, valid⟩ := identifier
  intro mem
  rw [validIdentifier, Bool.and_eq_true, List.all_eq_true] at valid
  have inside : '/' ∈ if text.getLast? = some '\n' then text.dropLast else text := by
    split_ifs with ends
    · obtain ⟨body, rfl⟩ := List.getLast?_eq_some_iff.mp ends
      rw [List.dropLast_concat]
      exact (List.mem_append.mp mem).resolve_right (by decide)
    · exact mem
  have allowed := valid.2 '/' inside
  have slash : isWord alnum '/' = false := by
    have ascii : ¬ 127 < '/'.toNat := by decide
    rw [isWord, decide_eq_false ascii, Bool.false_and]
    decide
  rw [slash] at allowed
  exact absurd allowed (by decide)

theorem auroraJobKey_ok : auroraJobKey alnum cluster role env name = .ok key ↔
    key.cluster = cluster ∧ key.role.1 = role ∧ key.env.1 = env ∧ key.name.1 = name := by
  rw [auroraJobKey, mapError_eq_ok, create_ok, schedulerKey, Common.JobKey.mk.injEq]

theorem toPath_intercalate (key : Common.ValidJobKey alnum) :
    key.toPath = ['/'].intercalate [key.cluster, key.role.1, key.env.1, key.name.1] := by
  simp [Common.AuroraJobKey.toPath]

theorem splitOn_toPath : path.splitOn '/' = [key.cluster, key.role.1, key.env.1, key.name.1] ↔
    '/' ∉ key.cluster ∧ path = key.toPath := by
  rw [Separated.splitOn_eq_iff, toPath_intercalate]
  simp [identifier_noSlash]

theorem splitOn_toPath_cons {text : Text} :
    path.splitOn '/' = [key.cluster, key.role.1, key.env.1, key.name.1, text] ↔
      '/' ∉ key.cluster ∧ '/' ∉ text ∧ path = key.toPath ++ '/' :: text := by
  have whole : key.toPath ++ '/' :: text =
      ['/'].intercalate [key.cluster, key.role.1, key.env.1, key.name.1, text] := by
    simp [Common.AuroraJobKey.toPath]
  rw [Separated.splitOn_eq_iff, whole]
  simp [identifier_noSlash, and_assoc]

theorem fromPath_ok : fromPath alnum path = .ok key ↔ '/' ∉ key.cluster ∧ path = key.toPath := by
  rw [← splitOn_toPath, fromPath]
  split
  · rename_i cluster role env name pieces
    rw [pieces, auroraJobKey_ok]
    simp [eq_comm]
  · rename_i other
    constructor
    · nofun
    · intro pieces
      exact absurd pieces (other _ _ _ _)

theorem toPath_inj : key.toPath = other.toPath ↔ key = other := by
  have split (key : Common.ValidJobKey alnum) : key.toPath =
      ((key.cluster ++ '/' :: key.role.1) ++ '/' :: key.env.1) ++ '/' :: key.name.1 := by
    simp [Common.AuroraJobKey.toPath]
  constructor
  · intro same
    rw [split, split] at same
    have name := Separated.append_cons_inj (identifier_noSlash key.name) (identifier_noSlash other.name) same
    have env := Separated.append_cons_inj (identifier_noSlash key.env) (identifier_noSlash other.env) name.1
    have role := Separated.append_cons_inj (identifier_noSlash key.role) (identifier_noSlash other.role) env.1
    apply key_ext role.1
    rw [schedulerKey, schedulerKey, role.2, env.2, name.2]
  · exact congrArg Common.AuroraJobKey.toPath

/-- Keys are equal just when their fields are, and keys that are equal have one hash. -/
theorem keys_compare (key other : Common.ValidJobKey alnum) :
    (key.eq other = true ↔ key = other) ∧
      (key.eq other = true → ∀ ofClass ofText, key.hash ofClass ofText = other.hash ofClass ofText) := by
  have paths : key.eq other = true ↔ key.toPath = other.toPath := decide_eq_true_iff
  constructor
  · rw [paths]
    exact toPath_inj
  · intro same ofClass ofText
    rw [Common.AuroraJobKey.hash, Common.AuroraJobKey.hash, paths.mp same]

/-- What names a job, or some instances of it, on the command line is the path of its key, and behind a slash the
    list of the instances. -/
theorem instanceSpecifier_ok {instances : Option (List Int)} :
    instanceSpecifier unicode alnum (some spec) = .ok ⟨key, instances⟩ ↔
      '/' ∉ key.cluster ∧ (spec = key.toPath ∧ instances = none ∨
        ∃ text, '/' ∉ text ∧ spec = key.toPath ++ '/' :: text ∧
          parseInstances unicode (some (String.ofList text)) = .ok instances) := by
  have whole : '/' ∉ key.cluster ∧ (spec = key.toPath ∧ instances = none ∨
        ∃ text, '/' ∉ text ∧ spec = key.toPath ++ '/' :: text ∧
          parseInstances unicode (some (String.ofList text)) = .ok instances) ↔
      (spec.splitOn '/' = [key.cluster, key.role.1, key.env.1, key.name.1] ∧ instances = none ∨
        ∃ text, spec.splitOn '/' = [key.cluster, key.role.1, key.env.1, key.name.1, text] ∧
          parseInstances unicode (some (String.ofList text)) = .ok instances) := by
    simp only [splitOn_toPath, splitOn_toPath_cons]
    grind
  rw [whole]
  cases spec with
  | nil => simp [instanceSpecifier, throw, throwThe, MonadExceptOf.throw]
  | cons first rest =>
    simp only [instanceSpecifier]
    split
    · rename_i cluster role env name pieces
      simp only [pieces, bind_eq_ok, pure_eq_ok, auroraJobKey_ok, TaskInstanceKey.mk.injEq, List.cons.injEq]
      grind
    · rename_i cluster role env name text pieces
      simp only [pieces, bind_eq_ok, pure_eq_ok, auroraJobKey_ok, mapError_eq_ok, TaskInstanceKey.mk.injEq,
        List.cons.injEq]
      grind
    · rename_i four five
      constructor
      · nofun
      · intro parts
        rcases parts with ⟨pieces, -⟩ | ⟨text, pieces, -⟩
        · exact absurd pieces (four _ _ _ _)
        · exact absurd pieces (five _ _ _ _ _)

theorem parseTaskInstanceKey_ok {value : Int} : parseTaskInstanceKey unicode alnum spec = .ok ⟨key, value⟩ ↔
    '/' ∉ key.cluster ∧ ∃ text, '/' ∉ text ∧ spec = key.toPath ++ '/' :: text ∧ int unicode text = some value := by
  have whole : ('/' ∉ key.cluster ∧ ∃ text, '/' ∉ text ∧ spec = key.toPath ++ '/' :: text ∧
        int unicode text = some value) ↔
      ∃ text, spec.splitOn '/' = [key.cluster, key.role.1, key.env.1, key.name.1, text] ∧
        int unicode text = some value := by
    simp only [splitOn_toPath_cons]
    grind
  rw [whole, parseTaskInstanceKey]
  split
  · rename_i cluster role env name text pieces
    simp only [pieces, bind_eq_ok, pure_eq_ok, auroraJobKey_ok, TaskInstanceKey.mk.injEq, List.cons.injEq]
    cases reads : int unicode text with
    | none =>
      simp only [Option.elim_none, throw, throwThe, MonadExceptOf.throw, reduceCtorEq, false_and, exists_false]
      grind
    | some number =>
      simp only [Option.elim_some, pure_eq_ok]
      grind
  · rename_i five
    constructor
    · nofun
    · intro parts
      obtain ⟨text, pieces, -⟩ := parts
      exact absurd pieces (five _ _ _ _ _)

section Instances

open UpdaterConfig

variable {text : Text} {range : Nat × Nat} {ranges : List (Nat × Nat)}

theorem item_chars (item : Item text range) : text ≠ [] ∧ '/' ∉ text := by
  cases item with
  | single decimal => exact ⟨decimal.1.1, decimal.1.notMem (by decide)⟩
  | range low high _ =>
    have left := low.1.notMem (show '/'.isDigit = false by decide)
    have right := high.1.notMem (show '/'.isDigit = false by decide)
    simp [left, right]

theorem listed_chars (listed : Separated.Listed ',' Item text ranges) : text ≠ [] ∧ '/' ∉ text := by
  induction listed with
  | one item => exact item_chars item
  | more item _ ih => simp [(item_chars item).2, ih.2]

theorem listed_some (listed : Separated.Listed ',' Item text ranges) :
    ∃ n : Int, ∃ range ∈ ranges, (range.1 : Int) ≤ n ∧ n ≤ range.2 := by
  have first : ∀ text range, Item text range → range.1 ≤ range.2 := by
    intro text range item
    cases item with
    | single => exact Nat.le_refl _
    | range _ _ ordered => exact ordered
  cases listed with
  | one item => exact ⟨_, _, List.mem_cons_self, Int.le_refl _, Int.ofNat_le.mpr (first _ _ item)⟩
  | more item _ => exact ⟨_, _, List.mem_cons_self, Int.le_refl _, Int.ofNat_le.mpr (first _ _ item)⟩

/-- The instances that are named on the command line are those of the ranges that the scheduler is asked to update. -/
theorem specified_ranges (unicode : Unicode) (noSlash : '/' ∉ key.cluster)
    (listed : Separated.Listed ',' Item text ranges) :
    ∃ instances spans,
      instanceSpecifier unicode alnum (some (key.toPath ++ '/' :: text)) = .ok ⟨key, some instances⟩ ∧
      instancesToRanges instances = .ok (some spans) ∧
      (spans.Pairwise fun span next => span.last + 1 < next.first) ∧
      ∀ n, (∃ span ∈ spans, span.first ≤ n ∧ n ≤ span.last) ↔
        ∃ range ∈ ranges, (range.1 : Int) ≤ n ∧ n ≤ range.2 := by
  obtain ⟨nonempty, plain⟩ := listed_chars listed
  have same : (String.ofList text).toList = text := String.toList_ofList
  obtain ⟨result, parsed, members⟩ := @instanceSet_listed (String.ofList text) ranges unicode (same.symm ▸ listed)
  have sortedResult : (sorted result).Pairwise (· < ·) := result.sortedLT_sort.pairwise
  have some_instance : sorted result ≠ [] := by
    obtain ⟨n, named⟩ := listed_some listed
    exact List.ne_nil_of_mem ((Finset.mem_sort (· ≤ ·)).mpr ((members n).mpr named))
  have maximal := maximal_groups sortedResult 0
  obtain ⟨spans, made, ends⟩ := mapM_rangeOfSeq maximal.nonempty
  have all : ((groupby (fun pair => pair.1 - pair.2) (enumerate 0 (sorted result))).map (List.map Prod.snd)).flatten =
      sorted result := by
    rw [groupby, ← List.map_flatten, List.flatten_splitBy, enumerate_values]
  refine ⟨sorted result, spans, ?_, ?_, Runs.spans_apart maximal ends, fun n => ?_⟩
  · refine instanceSpecifier_ok.mpr ⟨noSlash, .inr ⟨text, plain, rfl, ?_⟩⟩
    rw [parseInstances_set (by simpa using nonempty), parsed]
    rfl
  · rw [instancesToRanges, if_neg some_instance, made]
    rfl
  · rw [← Runs.mem_spans maximal ends, all, sorted, Finset.mem_sort, members]

def helloKey : Common.ValidJobKey fun _ => false :=
  ⟨"west".toList, ⟨"www-data".toList, by decide⟩, ⟨"prod".toList, by decide⟩, ⟨"hello".toList, by decide⟩⟩

theorem specified_ranges_hello : ∃ instances spans,
    instanceSpecifier .asciiOnly (fun _ => false) (some ("west/www-data/prod/hello/0,1-3".toList)) =
      .ok ⟨helloKey, some instances⟩ ∧
    instancesToRanges instances = .ok (some spans) ∧
    (spans.Pairwise fun span next => span.last + 1 < next.first) ∧
    ∀ n, (∃ span ∈ spans, span.first ≤ n ∧ n ≤ span.last) ↔
      ∃ range ∈ [(0, 0), (1, 3)], ((range.1 : Nat) : Int) ≤ n ∧ n ≤ (range.2 : Nat) := by
  have items : List.Forall₂ Item ("0,1-3".toList.splitOn ',') [(0, 0), (1, 3)] := by
    have pieces : "0,1-3".toList.splitOn ',' = ["0".toList, "1".toList ++ '-' :: "3".toList] := by decide +kernel
    rw [pieces]
    refine .cons (.single ⟨by decide, by decide +kernel⟩) (.cons (.range ?_ ?_ (by decide)) .nil)
    · exact ⟨by decide, by decide +kernel⟩
    · exact ⟨by decide, by decide +kernel⟩
  exact @specified_ranges _ helloKey _ _ .asciiOnly (by decide)
    ((Separated.listed_iff fun _ _ item => item.no_comma).mpr items)

end Instances

end Paths

end Aurora.Client.Cli
