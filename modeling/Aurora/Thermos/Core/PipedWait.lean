import Aurora.Library.Dict
import Aurora.Library.Framing
import Aurora.Library.Pipe
import Aurora.Library.Transition
import Mathlib.Algebra.Group.Nat.Defs
import Mathlib.Logic.Function.Basic

namespace Aurora.Thermos

open Collections Framing Piping

inductive StdStream
  | stdout
  | stderr
  deriving DecidableEq, Repr

namespace PipedSubprocessExecutor

/-- The descriptors that a process reads its child's output from. -/
structure Popen where
  stdout : Int
  stderr : Int
  distinct : stdout ≠ stderr

def readBufferSize : Nat := 2 ^ 16

inductive Place
  | test
  | poll
  | select
  | read (readResults : List Int)
  | returned (rc : Option Int)
  | raised (key : Int)
  deriving DecidableEq, Repr

structure State where
  /-- The pipes of the child, by the descriptors of their read ends. -/
  pipe : Int → Pipe UInt8
  exited : Option Int
  pipes : Dict Int StdStream
  rc : Option Int
  place : Place
  /-- What was written to each of the handlers. -/
  received : StdStream → Bytes

/-- What one of the processes does next; any process that has a write end may write and close it. -/
inductive Event
  | write (fd : Int) (bytes : Bytes)
  | close (fd : Int)
  | exit (code : Int)
  | test
  | poll
  | select (readResults : List Int)
  | read (count : Nat)
  deriving DecidableEq, Repr

def fileno (popen : Popen) : StdStream → Int
  | .stdout => popen.stdout
  | .stderr => popen.stderr

def start (popen : Popen) : State where
  pipe _ := {}
  exited := none
  pipes := (Dict.empty.set popen.stderr .stderr).set popen.stdout .stdout
  rc := none
  place := .test
  received _ := []

def readOne (state : State) (fd : Int) (rest : List Int) (count : Nat) : Option State :=
  match state.pipes.get? fd with
  | none => some { state with place := .raised fd }
  | some handler =>
    ((state.pipe fd).read readBufferSize count).map fun (buf, pipe) =>
      if buf.length = 0 then { state with pipes := state.pipes.erase fd, place := .read rest }
      else
        { state with
          pipe := Function.update state.pipe fd pipe
          received := Function.update state.received handler (state.received handler ++ buf)
          place := .read rest }

def step (state : State) : Event → Option State
  | .write fd bytes => ((state.pipe fd).write bytes).map fun pipe =>
    { state with pipe := Function.update state.pipe fd pipe }
  | .close fd => ((state.pipe fd).close).map fun pipe => { state with pipe := Function.update state.pipe fd pipe }
  | .exit code => if state.exited = none then some { state with exited := some code } else none
  | .test =>
    match state.place with
    | .test =>
      some { state with place := if state.rc = none ∨ state.pipes.keys ≠ [] then .poll else .returned state.rc }
    | .read [] => some { state with place := .test }
    | _ => none
  | .poll => if state.place = .poll then some { state with rc := state.exited, place := .select } else none
  | .select readResults =>
    if state.place = .select ∧ readResults.Nodup ∧
        ∀ fd ∈ readResults, fd ∈ state.pipes.keys ∧ (state.pipe fd).Ready then
      some { state with place := .read readResults }
    else none
  | .read count =>
    match state.place with
    | .read (fd :: rest) => readOne state fd rest count
    | _ => none

/-- What the place that `wait` has come to says about the other variables. -/
def Known (state : State) : Prop :=
  match state.place with
  | .read readResults => readResults.Nodup ∧ ∀ fd ∈ readResults, fd ∈ state.pipes.keys
  | .returned rc => rc = state.rc ∧ state.rc ≠ none ∧ state.pipes.keys = []
  | .raised _ => False
  | _ => True

structure Sound (popen : Popen) (state : State) : Prop where
  own : ∀ fd handler, state.pipes.get? fd = some handler → fd = fileno popen handler
  ended : ∀ handler, state.pipes.get? (fileno popen handler) = none → (state.pipe (fileno popen handler)).AtEnd
  copied : ∀ handler, state.received handler = (state.pipe (fileno popen handler)).taken
  code : ∀ code, state.rc = some code → state.exited = some code
  known : Known state

variable {popen : Popen} {state next final : State}

theorem fileno_inj {first second : StdStream} : fileno popen first = fileno popen second ↔ first = second := by
  have distinct := popen.distinct
  cases first <;> cases second <;> simp [fileno, distinct, distinct.symm]

theorem sound_start : Sound popen (start popen) where
  own fd handler held := by
    simp only [start, Dict.get?_set, Dict.get?_empty] at held
    split at held
    · cases held
      assumption
    · split at held
      · cases held
        assumption
      · cases held
  ended handler absent := by
    cases handler <;> simp [start, fileno, Dict.get?_set, popen.distinct.symm] at absent
  copied handler := rfl
  code code held := by cases held
  known := trivial

/-- A process that can write does not write to a pipe that is at its end, and takes nothing from any. -/
theorem Sound.change {fd : Int} {pipe : Pipe UInt8} (sound : Sound popen state) (open_ : (state.pipe fd).closed = false)
    (taken : pipe.taken = (state.pipe fd).taken) :
    Sound popen { state with pipe := Function.update state.pipe fd pipe } where
  own := sound.own
  ended handler absent := by
    have atEnd := sound.ended handler absent
    by_cases same : fileno popen handler = fd
    · rw [← same, atEnd.1] at open_
      cases open_
    · simpa [Function.update_of_ne same] using atEnd
  copied handler := by
    rw [sound.copied handler]
    by_cases same : fileno popen handler = fd
    · simp [same, taken]
    · simp [Function.update_of_ne same]
  code := sound.code
  known := sound.known

theorem Sound.readOne {fd : Int} {rest : List Int} {count : Nat} (sound : Sound popen state)
    (place : state.place = .read (fd :: rest)) (read : readOne state fd rest count = some next) : Sound popen next := by
  have known := sound.known
  simp only [Known, place, List.nodup_cons, List.forall_mem_cons] at known
  obtain ⟨⟨fresh, distinct⟩, open_, others⟩ := known
  obtain ⟨handler, held⟩ := Option.isSome_iff_exists.mp ((Dict.mem_keys _ _).mp open_)
  have own := sound.own fd handler held
  rw [PipedSubprocessExecutor.readOne, held] at read
  obtain ⟨⟨buf, pipe⟩, got, rfl⟩ := Option.map_eq_some_iff.mp read
  rcases Pipe.read_cases got with ⟨rfl, rfl, atEnd⟩ | ⟨some_byte, -, taken, buffered, closed⟩
  · -- The pipe is at its end, and nothing more is read from it.
    simp only [List.length_nil, if_true]
    refine ⟨fun other handler held => ?_, fun other absent => ?_, sound.copied, sound.code, distinct,
      fun other mem => ?_⟩
    · rw [Dict.get?_erase] at held
      split at held
      · cases held
      · exact sound.own other handler held
    · rw [Dict.get?_erase] at absent
      split at absent
      · rename_i same
        rw [same]
        exact atEnd
      · exact sound.ended other absent
    · have apart : other ≠ fd := fun same => fresh (same ▸ mem)
      rw [Dict.mem_keys, Dict.get?_erase, if_neg apart, ← Dict.mem_keys]
      exact others other mem
  · -- What is read goes to the handler that the descriptor belongs to, and the other pipe stays as it is.
    simp only [List.length_eq_zero_iff, some_byte, if_false]
    refine ⟨sound.own, fun other absent => ?_, fun other => ?_, sound.code, distinct, others⟩
    · have apart : fileno popen other ≠ fd := by
        rintro rfl
        rw [held] at absent
        cases absent
      simpa [Function.update_of_ne apart] using sound.ended other absent
    · by_cases same : other = handler
      · subst same
        simp [own, taken, sound.copied other]
      · have apart : fileno popen other ≠ fd := by
          rw [own, Ne, fileno_inj]
          exact same
        simpa [Function.update_of_ne apart, Function.update_of_ne same] using sound.copied other

theorem Sound.step {event : Event} (sound : Sound popen state) (taken : step state event = some next) :
    Sound popen next := by
  cases event with
  | write fd bytes =>
    obtain ⟨pipe, written, rfl⟩ := Option.map_eq_some_iff.mp taken
    obtain ⟨open_, rfl⟩ := Pipe.write_eq_some.mp written
    exact sound.change open_ rfl
  | close fd =>
    obtain ⟨pipe, closed, rfl⟩ := Option.map_eq_some_iff.mp taken
    obtain ⟨open_, rfl⟩ := Pipe.close_eq_some.mp closed
    exact sound.change open_ rfl
  | exit code =>
    rw [PipedSubprocessExecutor.step] at taken
    split at taken
    · rename_i running
      cases taken
      refine ⟨sound.own, sound.ended, sound.copied, fun code held => ?_, sound.known⟩
      rw [sound.code code held] at running
      cases running
    · cases taken
  | test =>
    rw [PipedSubprocessExecutor.step] at taken
    split at taken
    · cases taken
      refine ⟨sound.own, sound.ended, sound.copied, sound.code, ?_⟩
      by_cases on : state.rc = none ∨ state.pipes.keys ≠ []
      · simp [Known, on]
      · obtain ⟨some_code, no_pipe⟩ := not_or.mp on
        simp only [Known, on, if_false]
        exact ⟨trivial, some_code, not_not.mp no_pipe⟩
    · cases taken
      exact ⟨sound.own, sound.ended, sound.copied, sound.code, trivial⟩
    · cases taken
  | poll =>
    rw [PipedSubprocessExecutor.step] at taken
    split at taken
    · cases taken
      exact ⟨sound.own, sound.ended, sound.copied, fun _ held => held, trivial⟩
    · cases taken
  | select readResults =>
    rw [PipedSubprocessExecutor.step] at taken
    split at taken
    · rename_i answer
      cases taken
      exact ⟨sound.own, sound.ended, sound.copied, sound.code, answer.2.1, fun fd mem => (answer.2.2 fd mem).1⟩
    · cases taken
  | read count =>
    rw [PipedSubprocessExecutor.step] at taken
    split at taken
    · rename_i fd rest place
      exact sound.readOne place taken
    · cases taken

theorem sound_of_run {events : List Event} (reached : Transition.run step (start popen) events = some final) :
    Sound popen final :=
  Transition.invariant (fun _ _ _ sound _ taken => sound.step taken) sound_start
    (Transition.Along.of_forall fun _ _ => trivial) reached

def Event.writes (fd : Int) : Event → Bytes
  | .write own bytes => if fd = own then bytes else []
  | _ => []

theorem update_carried {own : Int} {pipe : Pipe UInt8} {bytes : Bytes}
    (carried : pipe.carried = (state.pipe own).carried ++ bytes) (fd : Int) :
    (Function.update state.pipe own pipe fd).carried =
      (state.pipe fd).carried ++ if fd = own then bytes else [] := by
  by_cases same : fd = own
  · subst same
    rw [Function.update_self, if_pos rfl, carried]
  · rw [Function.update_of_ne same, if_neg same, List.append_nil]

theorem readOne_carried {own : Int} {rest : List Int} {count : Nat} (read : readOne state own rest count = some next)
    (fd : Int) : (next.pipe fd).carried = (state.pipe fd).carried := by
  rw [readOne] at read
  split at read
  · cases read
    rfl
  · obtain ⟨⟨buf, pipe⟩, got, rfl⟩ := Option.map_eq_some_iff.mp read
    have kept := Pipe.read_carried got
    by_cases atEnd : buf.length = 0
    · simp [atEnd]
    · simpa [atEnd] using update_carried (kept.trans (List.append_nil _).symm) fd

theorem step_carried {event : Event} (taken : step state event = some next) (fd : Int) :
    (next.pipe fd).carried = (state.pipe fd).carried ++ event.writes fd := by
  cases event with
  | write own bytes =>
    obtain ⟨pipe, written, rfl⟩ := Option.map_eq_some_iff.mp taken
    exact update_carried (Pipe.write_carried written) fd
  | close own =>
    obtain ⟨pipe, closed, rfl⟩ := Option.map_eq_some_iff.mp taken
    have kept := (Pipe.close_carried closed).trans (List.append_nil _).symm
    simpa [Event.writes] using update_carried kept fd
  | exit code =>
    rw [step] at taken
    split at taken <;> cases taken
    exact (List.append_nil _).symm
  | test =>
    rw [step] at taken
    split at taken <;> cases taken <;> exact (List.append_nil _).symm
  | poll =>
    rw [step] at taken
    split at taken <;> cases taken
    exact (List.append_nil _).symm
  | select readResults =>
    rw [step] at taken
    split at taken <;> cases taken
    exact (List.append_nil _).symm
  | read count =>
    rw [step] at taken
    split at taken
    · exact (readOne_carried taken fd).trans (List.append_nil _).symm
    · cases taken

theorem carried_of_run {events : List Event} (reached : Transition.run step state events = some final) (fd : Int) :
    (final.pipe fd).carried = (state.pipe fd).carried ++ events.flatMap (Event.writes fd) := by
  induction events generalizing state with
  | nil =>
    cases reached
    exact (List.append_nil _).symm
  | cons event rest ih =>
    obtain ⟨next, taken, reached⟩ := Transition.run_cons.mp reached
    rw [ih reached, step_carried taken, List.flatMap_cons, List.append_assoc]

/-- Each turn of `wait` finds the descriptor that it reads in the dictionary. -/
theorem wait_not_raised {events : List Event} (reached : Transition.run step (start popen) events = some final)
    (key : Int) : final.place ≠ .raised key := by
  intro raised
  have known := (sound_of_run reached).known
  rw [Known, raised] at known
  exact known

theorem wait_complete {events : List Event} (reached : Transition.run step (start popen) events = some final)
    {rc : Option Int} (returned : final.place = .returned rc) :
    (∃ code, rc = some code ∧ final.exited = some code) ∧
      ∀ handler, (final.pipe (fileno popen handler)).AtEnd ∧
        final.received handler = events.flatMap (Event.writes (fileno popen handler)) := by
  have sound := sound_of_run reached
  have known := sound.known
  rw [Known, returned] at known
  obtain ⟨rfl, some_code, no_pipe⟩ := known
  obtain ⟨code, held⟩ := Option.ne_none_iff_exists'.mp some_code
  refine ⟨⟨code, held, sound.code code held⟩, fun handler => ?_⟩
  have absent : final.pipes.get? (fileno popen handler) = none := by
    rw [← Option.not_isSome_iff_eq_none, ← Dict.mem_keys, no_pipe]
    exact List.not_mem_nil
  have atEnd := sound.ended handler absent
  have carried := carried_of_run reached (fileno popen handler)
  rw [Pipe.carried, atEnd.2, List.append_nil] at carried
  exact ⟨atEnd, (sound.copied handler).trans carried⟩

/-- A grandchild writes to the standard error after the child has exited. -/
def grandchildRun : List Event :=
  [.write 5 [104, 105], .test, .poll, .select [5], .read 2, .test, .exit 3, .close 5, .test, .poll, .select [5],
    .write 7 [33], .read 1, .test, .close 7, .test, .poll, .select [7], .read 1, .test, .test, .poll, .select [7],
    .read 1, .test, .test]

theorem wait_complete_grandchild :
    ∃ final, Transition.run step (start ⟨5, 7, by decide⟩) grandchildRun = some final ∧
      final.place = .returned (some 3) ∧
      final.received .stderr = [33] ∧ (∃ code, some 3 = some code ∧ final.exited = some code) ∧
      ∀ handler, (final.pipe (fileno ⟨5, 7, by decide⟩ handler)).AtEnd ∧
        final.received handler = grandchildRun.flatMap (Event.writes (fileno ⟨5, 7, by decide⟩ handler)) := by
  have reached : Transition.run step (start ⟨5, 7, by decide⟩) grandchildRun = some _ := rfl
  exact ⟨_, reached, rfl, rfl, wait_complete reached rfl⟩

end PipedSubprocessExecutor

end Aurora.Thermos
