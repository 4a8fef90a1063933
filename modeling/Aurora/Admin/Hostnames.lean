import Aurora.Library.Replay
import Aurora.Library.PyText

namespace Aurora.Admin

open PyText Replay

inductive Abort
  | invalidHostname (hostname : Text)
  | noValidHosts
  | noValidHostsIn (filename : Text)
  | bothGiven
  | specifyEither
  /-- The file cannot be opened, read or decoded. -/
  | unreadable (filename : Text)
  deriving DecidableEq, Repr

section Pattern

def isAlnum (char : Char) : Bool :=
  ('a' ≤ char && char ≤ 'z') || ('A' ≤ char && char ≤ 'Z') || ('0' ≤ char && char ≤ '9')

def hostnameBody : Text → Bool
  | [] => false
  | [first] => isAlnum first
  | first :: second :: rest =>
    isAlnum first && rest.length ≤ 251 &&
      (second :: rest).dropLast.all (fun char => isAlnum char || char = '.' || char = '-') &&
      (second :: rest).getLast?.any isAlnum

/-- `_HOSTNAME_RE.match`: the end of the pattern may stand before a line feed that ends the text. -/
def hostnameRe (hostname : Text) : Bool :=
  hostnameBody hostname || (hostname.getLast? = some '\n' && hostnameBody hostname.dropLast)

end Pattern

/-- The lines of a file that is opened as text, where each of the three line ends is read as a line feed. -/
def fileLines : Text → List Text
  | [] => []
  | '\r' :: '\n' :: rest => ['\n'] :: fileLines rest
  | '\r' :: rest => ['\n'] :: fileLines rest
  | '\n' :: rest => ['\n'] :: fileLines rest
  | char :: rest =>
    match fileLines rest with
    | [] => [[char]]
    | line :: lines => (char :: line) :: lines

/-- What is known of the files: the text of each that can be read. -/
abbrev Files := Text → Option Text

def validateHostname (hostname : Text) : Except Abort Text :=
  if hostnameRe hostname then .ok hostname else .error (.invalidHostname hostname)

def validateAll : List Text → Except Abort Unit
  | [] => .ok ()
  | host :: rest => do
    if host ≠ [] then discard (validateHostname host)
    validateAll rest

/-- What both parsers do with the items that they have stripped. -/
def collect (hostnames : List Text) (nothing : Abort) : Except Abort (List Text) := do
  validateAll hostnames
  if hostnames = [] then throw nothing
  return hostnames

def parseHostnameList (hostnameList : Text) : Except Abort (List Text) :=
  collect ((hostnameList.splitOn ',').map strip) .noValidHosts

def parseHostnameFile (files : Files) (filename : Text) : Except Abort (List Text) :=
  match files filename with
  | none => .error (.unreadable filename)
  | some hosts => collect ((fileLines hosts).map strip) (.noValidHostsIn filename)

def given (option : Option Text) : Bool := option.any (· ≠ [])

def parseHostnamesOptional (files : Files) (listOption fileOption : Option Text) : Except Abort (Option (List Text)) :=
  if given listOption && given fileOption then .error .bothGiven
  else if given fileOption then (parseHostnameFile files (fileOption.getD [])).map some
  else if given listOption then (parseHostnameList (listOption.getD [])).map some
  else .ok none

def parseHostnames (files : Files) (filename hostnames : Option Text) : Except Abort (List Text) :=
  if given filename = given hostnames then .error .specifyEither
  else do
    let hostnames ← (if given filename then parseHostnameFile files (filename.getD [])
      else parseHostnameList (hostnames.getD []))
    if hostnames = [] then throw .noValidHosts else return hostnames

theorem validateHostname_eq_ok {hostname found : Text} :
    validateHostname hostname = .ok found ↔ hostnameRe hostname = true ∧ hostname = found := by
  rw [validateHostname]
  split <;> simp [*]

theorem validateAll_eq_ok {hostnames : List Text} :
    validateAll hostnames = .ok () ↔ ∀ host ∈ hostnames, host ≠ [] → hostnameRe host = true := by
  induction hostnames with
  | nil => simp [validateAll]
  | cons host rest ih =>
    rw [validateAll, List.forall_mem_cons]
    by_cases blank : host = []
    · simpa [blank] using ih
    · rw [if_pos blank, bind_eq_ok]
      constructor
      · rintro ⟨_, checked, later⟩
        obtain ⟨found, valid, -⟩ := bind_eq_ok.mp checked
        exact ⟨fun _ => (validateHostname_eq_ok.mp valid).1, ih.mp later⟩
      · rintro ⟨valid, later⟩
        have checked := validateHostname_eq_ok.mpr ⟨valid blank, rfl⟩
        exact ⟨(), by rw [checked]; rfl, ih.mpr later⟩

theorem collect_eq_ok {hostnames hosts : List Text} {nothing : Abort} :
    collect hostnames nothing = .ok hosts ↔
      hosts = hostnames ∧ hostnames ≠ [] ∧ ∀ host ∈ hostnames, host ≠ [] → hostnameRe host = true := by
  rw [collect, bind_eq_ok]
  constructor
  · rintro ⟨_, valid, rest⟩
    split at rest
    · cases rest
    · rename_i some_host
      cases rest
      exact ⟨rfl, some_host, validateAll_eq_ok.mp valid⟩
  · rintro ⟨rfl, some_host, valid⟩
    exact ⟨(), validateAll_eq_ok.mpr valid, by rw [if_neg some_host]; rfl⟩

def items (files : Files) (filename hostnames : Option Text) : List Text :=
  if given filename then ((files (filename.getD [])).elim [] fileLines).map strip
  else ((hostnames.getD []).splitOn ',').map strip

/-- The hosts are all the items that are not blank, and each of them is a hostname. -/
def OnlyHostnames (items hosts : List Text) : Prop :=
  hosts ≠ [] ∧ (∀ host ∈ hosts, hostnameRe host = true) ∧ hosts = items.filter (· ≠ [])

def Invalid (items : List Text) : Prop := ∃ item ∈ items, item ≠ [] ∧ hostnameRe item = false

theorem collect_only_iff (items : List Text) (nothing : Abort) :
    (∀ hosts, collect items nothing = .ok hosts → OnlyHostnames items hosts) ↔
      Invalid items ∨ ∀ item ∈ items, item ≠ [] := by
  simp only [collect_eq_ok]
  constructor
  · intro only
    by_cases invalid : Invalid items
    · exact .inl invalid
    · refine .inr fun item mem => ?_
      have valid : ∀ host ∈ items, host ≠ [] → hostnameRe host = true := by
        simpa [Invalid, not_exists, not_and] using invalid
      obtain ⟨-, -, same⟩ := only items ⟨rfl, List.ne_nil_of_mem mem, valid⟩
      rw [same] at mem
      simpa using List.of_mem_filter mem
  · rintro clean hosts ⟨rfl, some_host, valid⟩
    rcases clean with ⟨item, mem, some_char, invalid⟩ | clean
    · rw [valid item mem some_char] at invalid
      cases invalid
    · refine ⟨some_host, fun host mem => valid host mem (clean host mem), ?_⟩
      exact (List.filter_eq_self.mpr fun host mem => by simpa using clean host mem).symm

def Unreadable (files : Files) (filename : Option Text) : Prop :=
  given filename = true ∧ files (filename.getD []) = none

def chosen (files : Files) (filename hostnames : Option Text) : Except Abort (List Text) :=
  if given filename then parseHostnameFile files (filename.getD []) else parseHostnameList (hostnames.getD [])

theorem chosen_ne_nil {files : Files} {filename hostnames : Option Text} {hosts : List Text}
    (found : chosen files filename hostnames = .ok hosts) : hosts ≠ [] := by
  rw [chosen, parseHostnameFile] at found
  split at found
  · split at found
    · cases found
    · obtain ⟨rfl, some_host, -⟩ := collect_eq_ok.mp found
      exact some_host
  · obtain ⟨rfl, some_host, -⟩ := collect_eq_ok.mp found
    exact some_host

/-- The file cannot be read, an item is no hostname, or no item is blank. -/
def Clean (files : Files) (filename hostnames : Option Text) : Prop :=
  Unreadable files filename ∨ Invalid (items files filename hostnames) ∨
    ∀ item ∈ items files filename hostnames, item ≠ []

theorem chosen_only_iff (files : Files) (filename hostnames : Option Text) :
    (∀ hosts, chosen files filename hostnames = .ok hosts → OnlyHostnames (items files filename hostnames) hosts) ↔
      Clean files filename hostnames := by
  by_cases file : given filename = true
  · simp only [chosen, file, if_true, items, parseHostnameFile, Clean, Unreadable, true_and]
    cases readable : files (filename.getD []) with
    | none => simp
    | some text => simpa using collect_only_iff ((fileLines text).map strip) _
  · simp only [chosen, file, Bool.false_eq_true, if_false, items, Clean, Unreadable, false_and, false_or]
    exact collect_only_iff _ _

theorem parseHostnames_eq_ok {files : Files} {filename hostnames : Option Text} {hosts : List Text} :
    parseHostnames files filename hostnames = .ok hosts ↔
      given filename ≠ given hostnames ∧ chosen files filename hostnames = .ok hosts := by
  rw [parseHostnames]
  by_cases same : given filename = given hostnames
  · simp [same]
  · rw [if_neg same, bind_eq_ok]
    constructor
    · rintro ⟨found, came, rest⟩
      rw [if_neg (chosen_ne_nil came)] at rest
      exact ⟨same, by rw [← pure_eq_ok.mp rest]; exact came⟩
    · rintro ⟨-, came⟩
      exact ⟨hosts, came, by rw [if_neg (chosen_ne_nil came)]; rfl⟩

theorem map_some_eq_ok {α ε : Type} {action : Except ε α} {found : Option α} :
    action.map some = .ok found ↔ ∃ value, action = .ok value ∧ found = some value := by
  cases action with
  | error e => simp [Except.map]
  | ok value => simp [Except.map, eq_comm]

theorem parseHostnamesOptional_eq_ok {files : Files} {filename hostnames : Option Text} {found : Option (List Text)} :
    parseHostnamesOptional files hostnames filename = .ok found ↔
      (given filename = false ∧ given hostnames = false ∧ found = none) ∨
        (given filename ≠ given hostnames ∧ ∃ hosts, chosen files filename hostnames = .ok hosts ∧
          found = some hosts) := by
  rw [parseHostnamesOptional, chosen]
  cases given filename <;> cases given hostnames <;> simp [map_some_eq_ok]
  exact eq_comm

theorem given_eq_false {option : Option Text} : given option = false ↔ option = none ∨ option = some [] := by
  rcases option with _ | text <;> simp [given]

theorem not_only_of_empty {files : Files} {filename : Option Text} (no_file : given filename = false) :
    ¬ ∀ hosts, chosen files filename (some []) = .ok hosts → OnlyHostnames (items files filename (some [])) hosts := by
  intro only
  have taken : chosen files filename (some []) = .ok [[]] := by
    rw [chosen, no_file]
    rfl
  have valid := (only [[]] taken).2.1 [] (List.mem_singleton_self _)
  cases valid

/-- There is an input; the empty text is one. -/
def Requested (filename hostnames : Option Text) : Prop := given filename = true ∨ hostnames ≠ none

theorem parse_only_hostnames_iff (files : Files) (filename hostnames : Option Text) :
    ((∀ hosts, parseHostnames files filename hostnames = .ok hosts →
        OnlyHostnames (items files filename hostnames) hosts) ↔
        given filename = given hostnames ∨ Clean files filename hostnames) ∧
      ((Requested filename hostnames → ∀ found, parseHostnamesOptional files hostnames filename = .ok found →
          ∃ hosts, found = some hosts ∧ OnlyHostnames (items files filename hostnames) hosts) ↔
        ¬ Requested filename hostnames ∨ (given filename = true ∧ given hostnames = true) ∨
          Clean files filename hostnames) := by
  rw [← chosen_only_iff]
  simp only [parseHostnames_eq_ok, parseHostnamesOptional_eq_ok]
  refine ⟨by tauto, ?_⟩
  by_cases requested : Requested filename hostnames
  · have one : (∀ (found : Option (List Text)) (hosts : List Text), chosen files filename hostnames = .ok hosts →
        found = some hosts → ∃ hosts, found = some hosts ∧ OnlyHostnames (items files filename hostnames) hosts) ↔
        ∀ hosts, chosen files filename hostnames = .ok hosts →
          OnlyHostnames (items files filename hostnames) hosts := by
      constructor
      · intro only hosts came
        obtain ⟨_, same, good⟩ := only _ hosts came rfl
        cases same
        exact good
      · intro only found hosts came same
        exact ⟨hosts, same, only hosts came⟩
    simp only [requested, forall_const, not_true_eq_false, false_or]
    cases file : given filename with
    | false =>
      cases list : given hostnames with
      | false =>
        obtain rfl : hostnames = some [] := by
          have some_input : hostnames ≠ none := requested.resolve_left (by simp [file])
          exact (given_eq_false.mp list).resolve_left some_input
        have never := @not_only_of_empty files filename file
        simp [never]
      | true => simpa using one
    | true =>
      cases given hostnames with
      | false => simpa using one
      | true => simp
  · simp [requested]

/-- A list with a trailing comma, and a file with a blank line. -/
theorem parse_not_only_hostnames :
    parseHostnames (fun _ => none) none (some ['h', '1', ',']) = .ok [['h', '1'], []] ∧
      parseHostnamesOptional (fun _ => some ['h', '1', '\n', ' ', '\n', 'h', '2', '\n']) none (some ['f']) =
        .ok (some [['h', '1'], [], ['h', '2']]) ∧
      ¬ (∀ hosts, parseHostnames (fun _ => none) none (some ['h', '1', ',']) = .ok hosts →
        OnlyHostnames (items (fun _ => none) none (some ['h', '1', ','])) hosts) := by
  refine ⟨by decide, by decide, fun only => ?_⟩
  have valid := (only [['h', '1'], []] (by decide)).2.1 [] (by simp)
  cases valid

end Aurora.Admin
