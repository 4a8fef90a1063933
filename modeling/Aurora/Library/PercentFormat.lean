import Aurora.Library.Replay
import Aurora.Library.PyText
import Mathlib.Algebra.Group.Nat.Defs
import Mathlib.Data.List.Basic

/-! Formatting with the percent operator, where the right operand is a mapping. -/

namespace Percent

open PyText Replay

inductive Failure
  | keyError (key : Text)
  | typeError (message : String)
  | valueError (message : String)
  | memoryError
  deriving DecidableEq, Repr

/-- What stands between a percent sign and the conversion that it introduces. -/
structure Spec where
  flags : Text := []
  width : Option Int := none
  precision : Option Int := none

/-- The mapping, its values and how they are converted; it is a value itself, for a conversion that names no key. -/
structure Subject (ν : Type) where
  lookup : Text → Option ν
  whole : ν
  asInt : ν → Option Int
  convert : Spec → Char → ν → Except Failure Text

inductive Stage
  | literal
  | start
  | key (depth : Nat) (name : Text)
  | flags
  | width (value : Nat)
  | afterWidth
  | dot
  | precision (value : Nat)
  | afterPrecision
  | conversion
  deriving DecidableEq, Repr

structure State (ν : Type) where
  stage : Stage := .literal
  spec : Spec := {}
  /-- The value that the next conversion takes. -/
  next : Option ν
  written : Text := []

def maxWidth : Nat := 2 ^ 63 - 1
def maxPrecision : Nat := 2 ^ 31 - 1

def isFlag (c : Char) : Bool := c ∈ ['#', '0', '-', ' ', '+']
def isLength (c : Char) : Bool := c ∈ ['h', 'l', 'L']
def digitValue (c : Char) : Nat := c.toNat - '0'.toNat

variable {ν : Type} (subject : Subject ν) (state : State ν) (c : Char)

def takeNext : Except Failure ν := state.next.elim (.error (.typeError "not enough arguments for format string")) .ok

def finish : Except Failure (State ν) := do
  let value ← takeNext state
  let text ← subject.convert state.spec c value
  return { stage := .literal, next := none, written := state.written ++ text }

def takeLength : Except Failure (State ν) :=
  if isLength c then .ok { state with stage := .conversion } else finish subject state c

def takeDot : Except Failure (State ν) :=
  if c = '.' then .ok { state with stage := .dot, spec := { state.spec with precision := some 0 } }
  else takeLength subject state c

def takeStar (stage : Stage) (set : Int → Spec) : Except Failure (State ν) := do
  let value ← takeNext state
  match subject.asInt value with
  | some number => return { state with stage, spec := set number, next := none }
  | none => throw (.typeError "* wants int")

def takeWidth (value : Nat) : Except Failure (State ν) :=
  if value > maxWidth then .error (.valueError "width too big")
  else .ok { state with stage := .width value, spec := { state.spec with width := some value } }

def takePrecision (value : Nat) : Except Failure (State ν) :=
  if value > maxPrecision then .error (.valueError "precision too big")
  else .ok { state with stage := .precision value, spec := { state.spec with precision := some value } }

def takeFlag : Except Failure (State ν) :=
  if isFlag c then .ok { state with stage := .flags, spec := { state.spec with flags := state.spec.flags ++ [c] } }
  else if c = '*' then takeStar subject state .afterWidth fun number => { state.spec with width := some number }
  else if c.isDigit then takeWidth state (digitValue c)
  else takeDot subject state c

def takeKey (depth : Nat) (name : Text) : Except Failure (State ν) :=
  if c = ')' then
    if depth ≤ 1 then
      match subject.lookup name with
      | some value => .ok { state with stage := .flags, next := some value }
      | none => .error (.keyError name)
    else .ok { state with stage := .key (depth - 1) (name ++ [c]) }
  else .ok { state with stage := .key (if c = '(' then depth + 1 else depth) (name ++ [c]) }

def step : Except Failure (State ν) :=
  match state.stage with
  | .literal =>
    if c = '%' then .ok { state with stage := .start, spec := {} }
    else .ok { state with written := state.written ++ [c] }
  | .start =>
    -- only here does a percent sign stand for itself: after a flag or a width it is no conversion
    if c = '%' then .ok { state with stage := .literal, written := state.written ++ ['%'] }
    else if c = '(' then .ok { state with stage := .key 1 [] }
    else takeFlag subject state c
  | .key depth name => takeKey subject state c depth name
  | .flags => takeFlag subject state c
  | .width value => if c.isDigit then takeWidth state (10 * value + digitValue c) else takeDot subject state c
  | .afterWidth => takeDot subject state c
  | .dot =>
    if c = '*' then takeStar subject state .afterPrecision fun number => { state.spec with precision := some number }
    else if c.isDigit then takePrecision state (digitValue c)
    else takeLength subject state c
  | .precision value =>
    if c.isDigit then takePrecision state (10 * value + digitValue c) else takeLength subject state c
  | .afterPrecision => takeLength subject state c
  | .conversion => finish subject state c

def conclude : Except Failure Text :=
  match state.stage with
  | .literal => .ok state.written
  | .key _ _ => .error (.valueError "incomplete format key")
  | _ => .error (.valueError "incomplete format")

def format (template : Text) : Except Failure Text :=
  template.foldlM (step subject) { next := some subject.whole } >>= conclude

section Bare

def isShown (c : Char) : Bool := c ∈ ['s', 'r', 'a']

/-- There is memory for a field of the width. -/
def Spec.Fits (room : Nat) (spec : Spec) : Prop := spec.width.getD 0 ≤ room

instance (room : Nat) (spec : Spec) : Decidable (spec.Fits room) := inferInstanceAs (Decidable (_ ≤ _))

/-- A mapping with no keys: it is no number, and can only be shown, in a field that there is room for. -/
structure Subject.Bare (subject : Subject ν) (room : Nat) : Prop where
  lookup : ∀ key, subject.lookup key = none
  asInt : ∀ value, subject.asInt value = none
  convert : ∀ spec c value, (∃ text, subject.convert spec c value = .ok text) ↔ isShown c = true ∧ spec.Fits room

def Digits (digits : Text) : Prop := ∀ c ∈ digits, c.isDigit = true

def number (value : Nat) (digits : Text) : Nat := digits.foldl (fun value c => 10 * value + digitValue c) value

def Length (length : Text) : Prop := length = [] ∨ ∃ c, isLength c = true ∧ length = [c]

def Precision (precision : Text) : Prop :=
  precision = [] ∨ ∃ digits, precision = '.' :: digits ∧ Digits digits ∧ number 0 digits ≤ maxPrecision

def widest (room : Nat) : Nat := min maxWidth room

/-- A width does not begin with a zero, which is a flag. -/
def Width (room : Nat) (width : Text) : Prop :=
  Digits width ∧ width.head? ≠ some '0' ∧ number 0 width ≤ widest room

/-- What may stand between a percent sign and a conversion that names no key. -/
def Directive (room : Nat) (body : Text) : Prop :=
  ∃ flags width precision length, body = flags ++ width ++ precision ++ length ∧ (∀ c ∈ flags, isFlag c = true) ∧
    Width room width ∧ Precision precision ∧ Length length

/-- Texts that are formats for a mapping with no keys: the percent signs come in pairs, but for at most one conversion,
    which shows the mapping. -/
inductive Harmless (room : Nat) : Bool → Text → Prop
  | nil {spent : Bool} : Harmless room spent []
  | plain {spent : Bool} {c : Char} {rest : Text} (other : c ≠ '%') (harmless : Harmless room spent rest) :
      Harmless room spent (c :: rest)
  | percent {spent : Bool} {rest : Text} (harmless : Harmless room spent rest) :
      Harmless room spent ('%' :: '%' :: rest)
  | shown {body rest : Text} {c : Char} (directive : Directive room body) (shows_ : isShown c = true)
      (harmless : Harmless room true rest) : Harmless room false ('%' :: (body ++ c :: rest))

variable {room : Nat}

theorem harmless_of_plain {spent : Bool} {text : Text} (plain : '%' ∉ text) : Harmless room spent text := by
  induction text with
  | nil => exact .nil
  | cons c rest ih =>
    rw [List.mem_cons, not_or] at plain
    exact .plain (Ne.symm plain.1) (ih plain.2)

theorem Harmless.of_plain_append {spent : Bool} {before text : Text} (plain : '%' ∉ before)
    (harmless : Harmless room spent (before ++ text)) : Harmless room spent text := by
  induction before with
  | nil => exact harmless
  | cons c before ih =>
    rw [List.mem_cons, not_or] at plain
    rw [List.cons_append] at harmless
    generalize before ++ text = tail at harmless ih
    cases harmless with
    | plain other harmless => exact ih plain.2 harmless
    | percent harmless => exact absurd rfl plain.1
    | shown directive shows_ harmless => exact absurd rfl plain.1

theorem Harmless.plain_append {spent : Bool} {before text : Text} (plain : '%' ∉ before)
    (harmless : Harmless room spent text) :
    Harmless room spent (before ++ text) := by
  induction before with
  | nil => exact harmless
  | cons c before ih =>
    rw [List.mem_cons, not_or] at plain
    exact .plain (Ne.symm plain.1) (ih plain.2)

theorem Harmless.append_plain {spent : Bool} {text after : Text} (harmless : Harmless room spent text)
    (plain : '%' ∉ after) :
    Harmless room spent (text ++ after) := by
  induction harmless with
  | nil => exact harmless_of_plain plain
  | plain other harmless ih => exact .plain other ih
  | percent harmless ih => exact .percent ih
  | shown directive shows_ harmless ih => simpa using Harmless.shown directive shows_ ih

theorem not_digit_slash {digits : Text} (isDigits : Digits digits) : '/' ∉ digits := by
  intro mem
  have digit := isDigits '/' mem
  revert digit
  decide

theorem Directive.no_slash {body : Text} (directive : Directive room body) : '/' ∉ body := by
  obtain ⟨flags, width, precision, length, rfl, areFlags, ⟨isDigits, -, -⟩, isPrecision, isLength_⟩ := directive
  simp only [List.mem_append, not_or]
  refine ⟨⟨⟨fun mem => ?_, not_digit_slash isDigits⟩, ?_⟩, ?_⟩
  · have flag := areFlags '/' mem
    revert flag
    decide
  · rcases isPrecision with rfl | ⟨digits, rfl, isDigits, -⟩
    · exact List.not_mem_nil
    · simpa using not_digit_slash isDigits
  · rcases isLength_ with rfl | ⟨c, isLength_, rfl⟩
    · exact List.not_mem_nil
    · rw [List.mem_singleton]
      rintro rfl
      revert isLength_
      decide

theorem before_slash {body rest text after : Text} {c : Char} (no_slash : '/' ∉ body) (other : c ≠ '/')
    (split : body ++ c :: rest = text ++ '/' :: after) :
    ∃ more, text = body ++ c :: more ∧ rest = more ++ '/' :: after := by
  rcases List.append_eq_append_iff.mp split with ⟨more, rfl, tails⟩ | ⟨more, rfl, tails⟩
  · cases more with
    | nil => exact absurd (List.cons.inj tails).1 other
    | cons first more =>
      obtain ⟨rfl, rfl⟩ := List.cons.inj tails
      exact ⟨more, rfl, rfl⟩
  · cases more with
    | nil => exact absurd (List.cons.inj tails).1.symm other
    | cons first more =>
      obtain ⟨rfl, -⟩ := List.cons.inj tails
      exact absurd (by simp) no_slash

theorem Harmless.before_slash {spent : Bool} {text after : Text}
    (harmless : Harmless room spent (text ++ '/' :: after)) : Harmless room spent text := by
  generalize whole : text ++ '/' :: after = template at harmless
  induction harmless generalizing text with
  | nil => simp at whole
  | @plain spent c rest other harmless ih =>
    cases text with
    | nil => exact .nil
    | cons first text =>
      obtain ⟨rfl, rest_eq⟩ := List.cons.inj whole
      exact .plain other (ih rest_eq)
  | @percent spent rest harmless ih =>
    rcases text with _ | ⟨first, _ | ⟨second, text⟩⟩
    · exact .nil
    · simp at whole
    · obtain ⟨rfl, rest_eq⟩ := List.cons.inj whole
      obtain ⟨rfl, later⟩ := List.cons.inj rest_eq
      exact .percent (ih later)
  | @shown body rest c directive shows_ harmless ih =>
    cases text with
    | nil => exact .nil
    | cons first text =>
      have other : c ≠ '/' := by
        rintro rfl
        revert shows_
        decide
      obtain ⟨rfl, rest_eq⟩ := List.cons.inj whole
      obtain ⟨more, rfl, later⟩ := Percent.before_slash directive.no_slash other rest_eq.symm
      exact .shown directive shows_ (ih later.symm)

/-- The scanner comes to the end of the text, and no conversion is left open there. -/
def Ends (state : State ν) (text : Text) : Prop :=
  ∃ last, text.foldlM (step subject) state = .ok last ∧ last.stage = .literal

variable {subject state c} {rest : Text}

theorem ends_nil : Ends subject state [] ↔ state.stage = .literal := by
  simp [Ends, pure_eq_ok]

theorem ends_cons :
    Ends subject state (c :: rest) ↔ ∃ next, step subject state c = .ok next ∧ Ends subject next rest := by
  simp only [Ends, List.foldlM_cons, bind_eq_ok]
  constructor
  · rintro ⟨last, ⟨next, first, later⟩, ended⟩
    exact ⟨next, first, last, later, ended⟩
  · rintro ⟨next, first, last, later, ended⟩
    exact ⟨last, ⟨next, first, later⟩, ended⟩

theorem format_isOk_iff {template : Text} :
    (∃ text, format subject template = .ok text) ↔ Ends subject { next := some subject.whole } template := by
  simp only [format, bind_eq_ok, Ends]
  constructor
  · rintro ⟨text, last, scanned, came⟩
    refine ⟨last, scanned, ?_⟩
    rw [conclude] at came
    split at came <;> simp_all
  · rintro ⟨last, scanned, ended⟩
    exact ⟨last.written, last, scanned, by rw [conclude, ended]⟩

/-- What completes a conversion from each stage of it; the digits read before are known to be small, and the width that
    they make is in the specification. -/
def Remainder (room : Nat) (spec : Spec) : Stage → Text → Prop
  | .start, body | .flags, body => Directive room body
  | .width value, body =>
    ∃ digits precision length, body = digits ++ precision ++ length ∧ Digits digits ∧
      (digits ≠ [] → number value digits ≤ widest room) ∧ (digits = [] → spec.Fits room) ∧ Precision precision ∧
      Length length
  | .afterWidth, body =>
    ∃ precision length, body = precision ++ length ∧ spec.Fits room ∧ Precision precision ∧ Length length
  | .dot, body =>
    ∃ digits length, body = digits ++ length ∧ spec.Fits room ∧ Digits digits ∧ number 0 digits ≤ maxPrecision ∧
      Length length
  | .precision value, body =>
    ∃ digits length, body = digits ++ length ∧ spec.Fits room ∧ Digits digits ∧
      (digits ≠ [] → number value digits ≤ maxPrecision) ∧ Length length
  | .afterPrecision, body => spec.Fits room ∧ Length body
  | .conversion, body => spec.Fits room ∧ body = []
  | .literal, _ | .key _ _, _ => False

def Closes (room : Nat) (Body : Text → Prop) (spent : Bool) (text : Text) : Prop :=
  ∃ body c rest, text = body ++ c :: rest ∧ Body body ∧ isShown c = true ∧ spent = false ∧ Harmless room true rest

/-- What a text is like from which the scanner comes to an end. -/
def Clean (room : Nat) (state : State ν) (text : Text) : Prop :=
  match state.stage with
  | .literal => Harmless room state.next.isNone text
  | .start => Harmless room state.next.isNone ('%' :: text)
  | stage => Closes room (Remainder room state.spec stage) state.next.isNone text

theorem Closes.mono {Body Other : Text → Prop} {spent : Bool} {text : Text} (closes : Closes room Body spent text)
    (wider : ∀ body, Body body → Other body) : Closes room Other spent text := by
  obtain ⟨body, c, rest, split, holds, ends⟩ := closes
  exact ⟨body, c, rest, split, wider body holds, ends⟩

theorem Closes.cons {Body Other : Text → Prop} {spent : Bool} {text : Text} (closes : Closes room Body spent text)
    (longer : ∀ body, Body body → Other (c :: body)) : Closes room Other spent (c :: text) := by
  obtain ⟨body, c', rest, split, holds, ends⟩ := closes
  exact ⟨c :: body, c', rest, by rw [split, List.cons_append], longer body holds, ends⟩

theorem Closes.harmless {spent : Bool} {text : Text} (closes : Closes room (Directive room) spent text) :
    Harmless room spent ('%' :: text) := by
  obtain ⟨body, c, rest, rfl, directive, shows_, rfl, harmless⟩ := closes
  exact .shown directive shows_ harmless

variable {next : State ν}

theorem closes_widthDigit {value : Nat} (digit : c.isDigit = true) (took : takeWidth state value = .ok next)
    (clean : Clean room next rest) :
    Closes room (fun body => ∃ digits precision length, body = c :: digits ++ precision ++ length ∧
      Digits (c :: digits) ∧ number value digits ≤ widest room ∧ Precision precision ∧ Length length)
      state.next.isNone (c :: rest) := by
  rw [takeWidth] at took
  split at took
  · cases took
  · rename_i small
    cases took
    have closes : Closes room (Remainder room { state.spec with width := some value } (.width value))
        state.next.isNone rest := clean
    refine closes.cons fun body holds => ?_
    obtain ⟨digits, precision, length, rfl, isDigits, bounded, fits, others⟩ := holds
    refine ⟨digits, precision, length, rfl, by simpa [Digits] using ⟨digit, isDigits⟩, ?_, others⟩
    rcases digits with _ | ⟨d, digits⟩
    · have room_for : value ≤ room := by simpa [Spec.Fits] using fits rfl
      exact Nat.le_min.mpr ⟨Nat.le_of_not_gt small, room_for⟩
    · exact bounded (List.cons_ne_nil _ _)

theorem closes_precisionDigit {value : Nat} (digit : c.isDigit = true) (took : takePrecision state value = .ok next)
    (clean : Clean room next rest) :
    Closes room (fun body => ∃ digits length, body = c :: digits ++ length ∧ state.spec.Fits room ∧
      Digits (c :: digits) ∧ number value digits ≤ maxPrecision ∧ Length length) state.next.isNone (c :: rest) := by
  rw [takePrecision] at took
  split at took
  · cases took
  · rename_i small
    cases took
    have closes : Closes room (Remainder room { state.spec with precision := some value } (.precision value))
        state.next.isNone rest := clean
    refine closes.cons fun body holds => ?_
    obtain ⟨digits, length, rfl, fits, isDigits, bounded, isLength_⟩ := holds
    refine ⟨digits, length, rfl, fits, by simpa [Digits] using ⟨digit, isDigits⟩, ?_, isLength_⟩
    rcases digits with _ | ⟨d, digits⟩
    · exact Nat.le_of_not_gt small
    · exact bounded (List.cons_ne_nil _ _)

section Scanned

variable (bare : subject.Bare room)
include bare

theorem closes_finish (took : finish subject state c = .ok next) (clean : Clean room next rest) :
    Closes room (fun body => state.spec.Fits room ∧ body = []) state.next.isNone (c :: rest) := by
  obtain ⟨value, taken, took⟩ := bind_eq_ok.mp took
  obtain ⟨text, shown, took⟩ := bind_eq_ok.mp took
  cases took
  obtain ⟨shows_, fits⟩ := (bare.convert _ c value).mp ⟨text, shown⟩
  refine ⟨[], c, rest, rfl, ⟨fits, rfl⟩, shows_, ?_, clean⟩
  rw [takeNext] at taken
  cases given : state.next with
  | none =>
    rw [given] at taken
    cases taken
  | some value => rfl

theorem closes_length (took : takeLength subject state c = .ok next) (clean : Clean room next rest) :
    Closes room (fun body => state.spec.Fits room ∧ Length body) state.next.isNone (c :: rest) := by
  rw [takeLength] at took
  split at took
  · rename_i isLength_
    cases took
    have closes : Closes room (Remainder room state.spec .conversion) state.next.isNone rest := clean
    exact closes.cons fun body ⟨fits, empty⟩ => ⟨fits, .inr ⟨c, isLength_, by rw [empty]⟩⟩
  · exact (closes_finish bare took clean).mono fun body ⟨fits, empty⟩ => ⟨fits, .inl empty⟩

theorem closes_dot (took : takeDot subject state c = .ok next) (clean : Clean room next rest) :
    Closes room (Remainder room state.spec .afterWidth) state.next.isNone (c :: rest) := by
  rw [takeDot] at took
  split at took
  · rename_i dot
    subst dot
    cases took
    have closes : Closes room (Remainder room { state.spec with precision := some 0 } .dot) state.next.isNone rest :=
      clean
    refine closes.cons fun body holds => ?_
    obtain ⟨digits, length, rfl, fits, isDigits, bounded, isLength_⟩ := holds
    exact ⟨'.' :: digits, length, rfl, fits, .inr ⟨digits, rfl, isDigits, bounded⟩, isLength_⟩
  · exact (closes_length bare took clean).mono fun body ⟨fits, holds⟩ => ⟨[], body, rfl, fits, .inl rfl, holds⟩

theorem takeStar_ne_ok (stage : Stage) (set : Int → Spec) : takeStar subject state stage set ≠ .ok next := by
  intro took
  obtain ⟨value, -, took⟩ := bind_eq_ok.mp took
  rw [bare.asInt value] at took
  cases took

theorem closes_flag (took : takeFlag subject state c = .ok next) (clean : Clean room next rest) :
    Closes room (Directive room) state.next.isNone (c :: rest) := by
  rw [takeFlag] at took
  split at took
  · rename_i flag
    cases took
    have closes : Closes room (Directive room) state.next.isNone rest := clean
    refine closes.cons fun body directive => ?_
    obtain ⟨flags, width, precision, length, rfl, areFlags, others⟩ := directive
    exact ⟨c :: flags, width, precision, length, rfl, by simpa using ⟨flag, areFlags⟩, others⟩
  · rename_i noFlag
    split at took
    · exact absurd took (takeStar_ne_ok bare _ _)
    · split at took
      · rename_i digit
        refine (closes_widthDigit digit took clean).mono fun body holds => ?_
        obtain ⟨digits, precision, length, rfl, isDigits, bounded, others⟩ := holds
        refine ⟨[], c :: digits, precision, length, rfl, by simp, ⟨isDigits, ?_, ?_⟩, others⟩
        · rintro ⟨⟩
          exact noFlag (by decide)
        · simpa [number] using bounded
      · refine (closes_dot bare took clean).mono fun body holds => ?_
        obtain ⟨precision, length, rfl, -, others⟩ := holds
        exact ⟨[], [], precision, length, rfl, by simp, ⟨by simp [Digits], by simp, by simp [number]⟩, others⟩

/-- The key is either open still or not in the mapping. -/
theorem not_clean_of_takeKey {depth : Nat} {name : Text} (took : takeKey subject state c depth name = .ok next) :
    ¬ Clean room next rest := by
  have never : ∀ (depth : Nat) (name : Text),
      ¬ Closes room (Remainder room state.spec (.key depth name)) state.next.isNone rest := by
    rintro depth name ⟨_, _, _, _, none, _⟩
    exact none
  rw [takeKey, bare.lookup] at took
  split at took
  · split at took
    · cases took
    · cases took
      exact never _ _
  · cases took
    exact never _ _

theorem clean_of_step (took : step subject state c = .ok next) (clean : Clean room next rest) :
    Clean room state (c :: rest) := by
  rw [step] at took
  rw [Clean]
  cases stage : state.stage with
  | literal =>
    simp only [stage] at took
    split at took
    · rename_i percent
      subst percent
      cases took
      exact clean
    · rename_i other
      cases took
      exact .plain other (by simpa [Clean, stage] using clean)
  | start =>
    simp only [stage] at took
    split at took
    · rename_i percent
      subst percent
      cases took
      exact .percent clean
    · split at took
      · cases took
        obtain ⟨_, _, _, _, never, _⟩ : Closes room (Remainder room state.spec (.key 1 [])) state.next.isNone rest :=
          clean
        exact False.elim never
      · exact (closes_flag bare took clean).harmless
  | key depth name =>
    simp only [stage] at took
    exact absurd clean (not_clean_of_takeKey bare took)
  | flags =>
    simp only [stage] at took
    exact closes_flag bare took clean
  | width value =>
    simp only [stage] at took
    split at took
    · rename_i digit
      refine (closes_widthDigit digit took clean).mono fun body holds => ?_
      obtain ⟨digits, precision, length, rfl, isDigits, bounded, others⟩ := holds
      exact ⟨c :: digits, precision, length, rfl, isDigits, fun _ => bounded, nofun, others⟩
    · refine (closes_dot bare took clean).mono fun body holds => ?_
      obtain ⟨precision, length, rfl, fits, others⟩ := holds
      exact ⟨[], precision, length, rfl, by simp [Digits], fun some_digit => absurd rfl some_digit, fun _ => fits,
        others⟩
  | afterWidth =>
    simp only [stage] at took
    exact closes_dot bare took clean
  | dot =>
    simp only [stage] at took
    split at took
    · exact absurd took (takeStar_ne_ok bare _ _)
    · split at took
      · rename_i digit
        refine (closes_precisionDigit digit took clean).mono fun body holds => ?_
        obtain ⟨digits, length, rfl, fits, isDigits, bounded, isLength_⟩ := holds
        exact ⟨c :: digits, length, rfl, fits, isDigits, by simpa [number] using bounded, isLength_⟩
      · exact (closes_length bare took clean).mono fun body ⟨fits, isLength_⟩ =>
          ⟨[], body, rfl, fits, by simp [Digits], by simp [number], isLength_⟩
  | precision value =>
    simp only [stage] at took
    split at took
    · rename_i digit
      refine (closes_precisionDigit digit took clean).mono fun body holds => ?_
      obtain ⟨digits, length, rfl, fits, isDigits, bounded, isLength_⟩ := holds
      exact ⟨c :: digits, length, rfl, fits, isDigits, fun _ => bounded, isLength_⟩
    · exact (closes_length bare took clean).mono fun body ⟨fits, isLength_⟩ =>
        ⟨[], body, rfl, fits, by simp [Digits], fun some_digit => absurd rfl some_digit, isLength_⟩
  | afterPrecision =>
    simp only [stage] at took
    exact closes_length bare took clean
  | conversion =>
    simp only [stage] at took
    exact closes_finish bare took clean

/-- From every stage a text at whose end the scanner has come to the end of the conversions is clean. -/
theorem clean_of_ends {text : Text} (ends : Ends subject state text) : Clean room state text := by
  induction text generalizing state with
  | nil =>
    rw [Clean, ends_nil.mp ends]
    exact .nil
  | cons c rest ih =>
    obtain ⟨next, took, ends⟩ := ends_cons.mp ends
    exact clean_of_step bare took (ih ends)

end Scanned

section Scanning

/-- The scanner goes over a part of a conversion; the value that is next stays, there stays room for the field, and it
    comes to such a stage. -/
def Passes (subject : Subject ν) (room : Nat) (Before After : Stage → Prop) (part : Text) : Prop :=
  ∀ state : State ν, Before state.stage → state.spec.Fits room →
    ∃ next, part.foldlM (step subject) state = .ok next ∧ next.next = state.next ∧ next.spec.Fits room ∧
      After next.stage

theorem Passes.append {First Middle Last : Stage → Prop} {part more : Text}
    (first : Passes subject room First Middle part) (second : Passes subject room Middle Last more) :
    Passes subject room First Last (part ++ more) := by
  intro state before fits
  obtain ⟨middle, took, kept, fits, known⟩ := first state before fits
  obtain ⟨last, took', kept', fits', known'⟩ := second middle known fits
  exact ⟨last, by rw [List.foldlM_append, took]; exact took', kept'.trans kept, fits', known'⟩

theorem Passes.nil {Before After : Stage → Prop} (known : ∀ stage, Before stage → After stage) :
    Passes subject room Before After [] :=
  fun state before fits => ⟨state, rfl, rfl, fits, known state.stage before⟩

theorem Passes.cons {First Middle Last : Stage → Prop} {part : Text}
    (first : ∀ state : State ν, First state.stage → state.spec.Fits room →
      ∃ next, step subject state c = .ok next ∧ next.next = state.next ∧ next.spec.Fits room ∧ Middle next.stage)
    (second : Passes subject room Middle Last part) : Passes subject room First Last (c :: part) := by
  intro state before fits
  obtain ⟨middle, took, kept, fits, known⟩ := first state before fits
  obtain ⟨last, took', kept', fits', known'⟩ := second middle known fits
  exact ⟨last, by rw [List.foldlM_cons, took]; exact took', kept'.trans kept, fits', known'⟩

def AtFlags (stage : Stage) : Prop := stage = .start ∨ stage = .flags

def AtWidth (stage : Stage) : Prop := AtFlags stage ∨ ∃ value, stage = .width value

def AtPrecision (stage : Stage) : Prop := AtWidth stage ∨ stage = .dot ∨ ∃ value, stage = .precision value

def AtEnd (stage : Stage) : Prop := AtPrecision stage ∨ stage = .conversion

theorem isFlag_cases (flag : isFlag c = true) : c = '#' ∨ c = '0' ∨ c = '-' ∨ c = ' ' ∨ c = '+' := by
  simpa [isFlag] using flag

theorem passes_flags {flags : Text} (areFlags : ∀ c ∈ flags, isFlag c = true) :
    Passes subject room AtFlags AtFlags flags := by
  induction flags with
  | nil => exact .nil fun _ known => known
  | cons c flags ih =>
    rw [List.forall_mem_cons] at areFlags
    refine .cons (fun state before fits => ?_) (ih areFlags.2)
    have other : c ≠ '%' ∧ c ≠ '(' := by rcases isFlag_cases areFlags.1 with rfl | rfl | rfl | rfl | rfl <;> decide
    have took : step subject state c = takeFlag subject state c := by
      rcases before with before | before <;> simp [step, before, other]
    have taken : takeFlag subject state c =
        .ok { state with stage := .flags, spec := { state.spec with flags := state.spec.flags ++ [c] } } :=
          if_pos areFlags.1
    exact ⟨_, took.trans taken, rfl, fits, .inr rfl⟩

theorem le_number (value : Nat) (digits : Text) : value ≤ number value digits := by
  induction digits generalizing value with
  | nil => exact Nat.le_refl _
  | cons c digits ih => exact Nat.le_trans (by omega) (ih (10 * value + digitValue c))

theorem small_width {value : Nat} {digits : Text} (bounded : number value digits ≤ widest room) :
    ¬ value > maxWidth ∧ value ≤ room := by
  have small : value ≤ min maxWidth room := Nat.le_trans (le_number value digits) bounded
  exact ⟨Nat.not_lt.mpr (Nat.le_min.mp small).1, (Nat.le_min.mp small).2⟩

theorem fits_width {spec : Spec} {value : Nat} (small : value ≤ room) :
    Spec.Fits room { spec with width := some value } := Int.ofNat_le.mpr small

theorem passes_widthDigits {value : Nat} {digits : Text} (isDigits : Digits digits)
    (bounded : number value digits ≤ widest room) :
    Passes subject room (· = .width value) AtWidth digits := by
  induction digits generalizing value with
  | nil => exact .nil fun stage known => .inr ⟨value, known⟩
  | cons c digits ih =>
    have digit := isDigits c List.mem_cons_self
    obtain ⟨small, room_for⟩ := small_width (show number (10 * value + digitValue c) digits ≤ widest room from bounded)
    refine .cons (fun state before _ => ?_) (ih (fun c mem => isDigits c (List.mem_cons_of_mem _ mem)) bounded)
    have taken : step subject state c = .ok { state with
        stage := .width (10 * value + digitValue c)
        spec := { state.spec with width := some (10 * value + digitValue c : Nat) } } := by
      simp only [step, before, digit, if_true, takeWidth, small, if_false]
    exact ⟨_, taken, rfl, fits_width room_for, rfl⟩

theorem digit_not_flag (digit : c.isDigit = true) (not_zero : c ≠ '0') : isFlag c = false := by
  simp only [isFlag, List.mem_cons, List.not_mem_nil, or_false, decide_eq_false_iff_not]
  rintro (rfl | rfl | rfl | rfl | rfl) <;> simp_all

theorem passes_width {width : Text} (isWidth : Width room width) : Passes subject room AtFlags AtWidth width := by
  obtain ⟨isDigits, no_zero, bounded⟩ := isWidth
  cases width with
  | nil => exact .nil fun _ known => .inl known
  | cons c digits =>
    have digit := isDigits c List.mem_cons_self
    have other : c ≠ '%' ∧ c ≠ '(' := by constructor <;> rintro rfl <;> simp at digit
    have star : c ≠ '*' := by rintro rfl; simp at digit
    have noFlag : isFlag c = false := digit_not_flag digit (by simpa using no_zero)
    have whole : number (digitValue c) digits ≤ widest room := by simpa [number] using bounded
    obtain ⟨small, room_for⟩ := small_width whole
    refine .cons (fun state before _ => ?_)
      (passes_widthDigits (fun c mem => isDigits c (List.mem_cons_of_mem _ mem)) whole)
    have took : step subject state c = takeFlag subject state c := by
      rcases before with before | before <;> simp [step, before, other]
    have taken : takeFlag subject state c = .ok { state with
        stage := .width (digitValue c), spec := { state.spec with width := some (digitValue c : Nat) } } := by
      simp [takeFlag, noFlag, star, digit, takeWidth, small]
    exact ⟨_, took.trans taken, rfl, fits_width room_for, rfl⟩

theorem takeFlag_eq_takeDot (noFlag : isFlag c = false) (star : c ≠ '*') (digit : c.isDigit = false) :
    takeFlag subject state c = takeDot subject state c := by
  simp [takeFlag, noFlag, star, digit]

/-- Once the width is over, a character that cannot belong to it is read as what follows it. -/
theorem step_eq_takeDot (before : AtWidth state.stage) (other : c ≠ '%' ∧ c ≠ '(') (noFlag : isFlag c = false)
    (star : c ≠ '*') (digit : c.isDigit = false) : step subject state c = takeDot subject state c := by
  rcases before with (before | before) | ⟨value, before⟩
  · simp [step, before, other, takeFlag_eq_takeDot noFlag star digit]
  · simp [step, before, takeFlag_eq_takeDot noFlag star digit]
  · simp [step, before, digit]

theorem passes_precisionDigits {value : Nat} {digits : Text} (isDigits : Digits digits)
    (bounded : number value digits ≤ maxPrecision) : Passes subject room (· = .precision value) AtPrecision digits := by
  induction digits generalizing value with
  | nil => exact .nil fun stage known => .inr (.inr ⟨value, known⟩)
  | cons c digits ih =>
    have digit := isDigits c List.mem_cons_self
    have small : ¬ 10 * value + digitValue c > maxPrecision :=
      Nat.not_lt.mpr (Nat.le_trans (le_number _ digits) bounded)
    refine .cons (fun state before fits => ?_) (ih (fun c mem => isDigits c (List.mem_cons_of_mem _ mem)) bounded)
    have taken : step subject state c = .ok { state with
        stage := .precision (10 * value + digitValue c)
        spec := { state.spec with precision := some (10 * value + digitValue c : Nat) } } := by
      simp only [step, before, digit, if_true, takePrecision, small, if_false]
    exact ⟨_, taken, rfl, fits, rfl⟩

theorem passes_precision {precision : Text} (isPrecision : Precision precision) :
    Passes subject room AtWidth AtPrecision precision := by
  rcases isPrecision with rfl | ⟨digits, rfl, isDigits, bounded⟩
  · exact .nil fun _ known => .inl known
  · have dot : Passes subject room AtWidth (· = .dot) ['.'] := by
      refine .cons (fun state before fits => ?_) (.nil fun _ known => known)
      have taken : step subject state '.' = .ok { state with
          stage := .dot, spec := { state.spec with precision := some 0 } } :=
        step_eq_takeDot before (by decide) (by decide) (by decide) (by decide)
      exact ⟨_, taken, rfl, fits, rfl⟩
    refine dot.append ?_
    cases digits with
    | nil => exact .nil fun _ known => .inr (.inl known)
    | cons c digits =>
      have digit := isDigits c List.mem_cons_self
      have star : c ≠ '*' := by rintro rfl; simp at digit
      have whole : number (digitValue c) digits ≤ maxPrecision := by simpa [number] using bounded
      have small : ¬ digitValue c > maxPrecision := Nat.not_lt.mpr (Nat.le_trans (le_number _ digits) whole)
      refine .cons (fun state before fits => ?_)
        (passes_precisionDigits (fun c mem => isDigits c (List.mem_cons_of_mem _ mem)) whole)
      have taken : step subject state c = .ok { state with
          stage := .precision (digitValue c), spec := { state.spec with precision := some (digitValue c : Nat) } } := by
        simp [step, before, star, digit, takePrecision, small]
      exact ⟨_, taken, rfl, fits, rfl⟩

def Closing (c : Char) : Prop :=
  (c ≠ '%' ∧ c ≠ '(') ∧ isFlag c = false ∧ c ≠ '*' ∧ c.isDigit = false ∧ c ≠ '.'

theorem step_eq_takeLength (before : AtPrecision state.stage) (closing : Closing c) :
    step subject state c = takeLength subject state c := by
  obtain ⟨other, noFlag, star, digit, dot⟩ := closing
  rcases before with before | before | ⟨value, before⟩
  · rw [step_eq_takeDot before other noFlag star digit, takeDot, if_neg dot]
  · simp [step, before, star, digit]
  · simp [step, before, digit]

theorem passes_length {length : Text} (isLength_ : Length length) : Passes subject room AtPrecision AtEnd length := by
  rcases isLength_ with rfl | ⟨c, isLength_, rfl⟩
  · exact .nil fun _ known => .inl known
  · refine .cons (fun state before fits => ?_) (.nil fun _ known => .inr known)
    have closing : Closing c := by
      have cases : c = 'h' ∨ c = 'l' ∨ c = 'L' := by simpa [isLength] using isLength_
      rcases cases with rfl | rfl | rfl <;> exact ⟨by decide, by decide, by decide, by decide, by decide⟩
    have taken : step subject state c = .ok { state with stage := .conversion } :=
      (step_eq_takeLength before closing).trans (if_pos isLength_)
    exact ⟨_, taken, rfl, fits, rfl⟩

theorem passes_directive {body : Text} (directive : Directive room body) : Passes subject room AtFlags AtEnd body := by
  obtain ⟨flags, width, precision, length, rfl, areFlags, isWidth, isPrecision, isLength_⟩ := directive
  exact ((passes_flags areFlags).append (passes_width isWidth)).append (passes_precision isPrecision)
    |>.append (passes_length isLength_)

theorem step_eq_finish (before : AtEnd state.stage) (closing : Closing c) (other : isLength c = false) :
    step subject state c = finish subject state c := by
  rcases before with before | before
  · rw [step_eq_takeLength before closing, takeLength, other]
    rfl
  · simp [step, before]

theorem ends_append {Before After : Stage → Prop} {part text : Text} (passes : Passes subject room Before After part)
    (before : Before state.stage) (fits : state.spec.Fits room)
    (ends : ∀ next : State ν, next.next = state.next → next.spec.Fits room → After next.stage →
      Ends subject next text) : Ends subject state (part ++ text) := by
  obtain ⟨next, took, kept, fits, known⟩ := passes state before fits
  obtain ⟨last, scanned, ended⟩ := ends next kept fits known
  exact ⟨last, by rw [List.foldlM_append, took]; exact scanned, ended⟩

/-- A conversion is scanned from its percent sign to the character that concludes it. -/
theorem ends_conversion {body : Text} (directive : Directive room body) (closing : Closing c)
    (other : isLength c = false) (literal : state.stage = .literal)
    (ends : ∀ next : State ν, next.next = state.next → next.spec.Fits room →
      ∃ last, finish subject next c = .ok last ∧ Ends subject last rest) :
    Ends subject state ('%' :: (body ++ c :: rest)) := by
  have opened : step subject state '%' = .ok { state with stage := .start, spec := {} } := by simp [step, literal]
  refine ends_cons.mpr ⟨_, opened, ends_append (passes_directive directive) (.inl rfl) (Int.natCast_nonneg room)
    fun next kept fits known => ?_⟩
  obtain ⟨last, finished, ends⟩ := ends next kept fits
  exact ends_cons.mpr ⟨last, (step_eq_finish known closing other).trans finished, ends⟩

theorem ends_of_harmless (bare : subject.Bare room) {spent : Bool} {text : Text} (harmless : Harmless room spent text)
    (literal : state.stage = .literal) (unspent : spent = false → state.next.isSome = true) :
    Ends subject state text := by
  induction harmless generalizing state with
  | nil => exact ends_nil.mpr literal
  | @plain spent c rest other harmless ih =>
    have taken : step subject state c = .ok { state with written := state.written ++ [c] } := by
      simp [step, literal, other]
    exact ends_cons.mpr ⟨_, taken, ih literal unspent⟩
  | @percent spent rest harmless ih =>
    have opened : step subject state '%' = .ok { state with stage := .start, spec := {} } := by simp [step, literal]
    exact ends_cons.mpr ⟨_, opened, ends_cons.mpr ⟨_, rfl, ih rfl unspent⟩⟩
  | @shown body rest c directive shows_ harmless ih =>
    have cases : c = 's' ∨ c = 'r' ∨ c = 'a' := by simpa [isShown] using shows_
    have closing : Closing c := by
      rcases cases with rfl | rfl | rfl <;> exact ⟨by decide, by decide, by decide, by decide, by decide⟩
    have other : isLength c = false := by rcases cases with rfl | rfl | rfl <;> decide
    refine ends_conversion directive closing other literal fun next kept fits => ?_
    obtain ⟨value, given⟩ := Option.isSome_iff_exists.mp (unspent rfl)
    obtain ⟨text, shown⟩ := (bare.convert next.spec c value).mpr ⟨shows_, fits⟩
    have finished : finish subject next c =
        .ok { stage := .literal, next := none, written := next.written ++ text } := by
      rw [finish, takeNext, kept, given]
      exact bind_eq_ok.mpr ⟨value, rfl, bind_eq_ok.mpr ⟨text, shown, rfl⟩⟩
    exact ⟨_, finished, ih rfl fun same => by cases same⟩

theorem format_isOk_iff_harmless (bare : subject.Bare room) (template : Text) :
    (∃ text, format subject template = .ok text) ↔ Harmless room false template := by
  rw [format_isOk_iff]
  constructor
  · intro ends
    exact clean_of_ends bare ends
  · intro harmless
    exact ends_of_harmless bare harmless rfl fun _ => rfl

end Scanning

end Bare

end Percent
