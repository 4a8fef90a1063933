import Aurora.Library.Replay
import Aurora.Thermos.Core.Muxer

namespace Aurora.Thermos

open Collections ProcessMuxer

/-- The sequence number as `_fast_forward_stream` compares it. -/
def ProcessStatus.number (record : ProcessStatus) : Int := record.seq.getD (-1)

/-- The records of a checkpoint are numbered upwards. -/
def Sequenced (records : List ProcessStatus) : Prop :=
  ∃ numbers : List Int, records.map ProcessStatus.seq = numbers.map some ∧ numbers.Pairwise (· < ·)

theorem Sequenced.upwards {records : List ProcessStatus} (sequenced : Sequenced records) :
    records.Pairwise fun before after => before.number < after.number := by
  obtain ⟨numbers, same, sorted⟩ := sequenced
  have read : records.map ProcessStatus.number = numbers := by
    have mapped := congrArg (List.map fun seq : Option Int => seq.getD (-1)) same
    simp only [List.map_map, Function.comp_def, Option.getD_some, List.map_id'] at mapped
    exact mapped
  rw [← List.pairwise_map, read]
  exact sorted

section FastForward

variable (watermark current : Int) (records : List ProcessStatus)

theorem fastForward_cons (first : ProcessStatus) (rest : List ProcessStatus) :
    fastForward watermark current (first :: rest) =
      if current < watermark then
        if watermark < first.number then 0 else fastForward watermark first.number rest + 1
      else 0 := rfl

theorem fastForward_passes : ∀ record ∈ records.take (fastForward watermark current records),
    record.number ≤ watermark := by
  induction records generalizing current with
  | nil => simp
  | cons first rest ih =>
    rw [fastForward_cons]
    by_cases going : current < watermark
    · by_cases beyond : watermark < first.number
      · simp [going, beyond]
      · simp only [going, if_true, beyond, if_false, List.take_succ_cons, List.forall_mem_cons]
        exact ⟨by omega, ih _⟩
    · simp [going]

/-- What is left lies above it, once a record has been reached that is not below. -/
theorem fastForward_stops (sorted : records.Pairwise fun before after => before.number < after.number)
    (low : current ≤ watermark) (passed : current = watermark → ∀ record ∈ records, watermark < record.number) :
    ∀ record ∈ records.drop (fastForward watermark current records), watermark < record.number := by
  induction records generalizing current with
  | nil => simp
  | cons first rest ih =>
    obtain ⟨above, sorted⟩ := List.pairwise_cons.mp sorted
    rw [fastForward_cons]
    by_cases going : current < watermark
    · by_cases beyond : watermark < first.number
      · simp only [going, if_true, beyond, List.drop_zero, List.forall_mem_cons, true_and]
        intro record member
        have later := above record member
        omega
      · simp only [going, if_true, beyond, if_false, List.drop_succ_cons]
        apply ih first.number sorted (by omega)
        intro reached record member
        have later := above record member
        omega
    · simp only [going, if_false, List.drop_zero]
      exact passed (by omega)

theorem fastForward_le : fastForward watermark current records ≤ records.length := by
  induction records generalizing current with
  | nil => simp [fastForward]
  | cons first rest ih =>
    have shorter := ih first.number
    rw [fastForward_cons, List.length_cons]
    split
    · split <;> omega
    · omega

theorem fastForward_negative (below : watermark < 0) : fastForward watermark (-1) records = 0 := by
  cases records with
  | nil => rfl
  | cons first rest =>
    have stays : ¬ (-1 : Int) < watermark := by omega
    simp [fastForward_cons, stays]

end FastForward

/-- The calls of a muxer, and what happens to the checkpoints between them. -/
inductive MuxerEvent
  | create (name : Name)
  | append (name : Name) (record : ProcessStatus)
  | register (name : Name) (watermark : Int)
  | unregister (name : Name)
  | hasData (name : Name)
  | select

/-- A muxer, the checkpoints it reads, and all that its `select` calls have returned. -/
structure Multiplexing where
  files : ProcessFiles
  muxer : ProcessMuxer
  returned : List ProcessStatus := []

namespace Multiplexing

/-- A call that raises leaves the muxer as it is at that point. -/
def step (m : Multiplexing) : MuxerEvent → Multiplexing
  | .create name => { m with files := m.files.set name (content m.files name) }
  | .append name record => { m with files := m.files.set name (content m.files name ++ [record]) }
  | .register name watermark =>
    { m with muxer := Replay.final ((ProcessMuxer.register name watermark).run m.muxer) }
  | .unregister name => { m with muxer := Replay.final ((ProcessMuxer.unregister name).run m.muxer) }
  | .hasData name => { m with muxer := Replay.final ((ProcessMuxer.hasData m.files name).run m.muxer) }
  | .select =>
    match (ProcessMuxer.select m.files).run m.muxer with
    | .ok updates muxer => { m with muxer, returned := m.returned ++ updates }
    | .error _ muxer => { m with muxer }

def run (m : Multiplexing) (events : List MuxerEvent) : Multiplexing := events.foldl step m

def delivered (m : Multiplexing) (name : Name) : List ProcessStatus :=
  m.returned.filter fun update => update.process = some name

def position (m : Multiplexing) (name : Name) : Option Nat :=
  (m.muxer.processes.get? name).bind Watched.position

end Multiplexing

open Multiplexing

def Lawful (name : Name) (m : Multiplexing) : MuxerEvent → Prop
  | .append writer record =>
    record.process = some writer ∧ (writer = name → Sequenced (content m.files name ++ [record]))
  | .register other _ | .unregister other => other ≠ name
  | .create _ | .hasData _ | .select => True

def LawfulRun (name : Name) : Multiplexing → List MuxerEvent → Prop
  | _, [] => True
  | m, event :: rest => Lawful name m event ∧ LawfulRun name (m.step event) rest

/-- A record at or below the watermark, appended when its checkpoint is open already; below zero
    there is no fast forwarding, so any such record counts. -/
def Late (name : Name) (watermark : Int) (m : Multiplexing) : MuxerEvent → Prop
  | .append writer record =>
    writer = name ∧ record.number ≤ watermark ∧ (watermark < 0 ∨ (m.position name).isSome = true)
  | _ => False

def Timely (name : Name) (watermark : Int) : Multiplexing → List MuxerEvent → Prop
  | _, [] => True
  | m, event :: rest => ¬ Late name watermark m event ∧ Timely name watermark (m.step event) rest

/-- By the next `select` each record above the watermark has been returned once and in order, and no
    other one. -/
def DeliversOnce (name : Name) (watermark : Int) (m : Multiplexing) : Prop :=
  (m.step .select).delivered name = (content m.files name).filter fun record => watermark < record.number

/-- The records before the position of a checkpoint: those passed over, which lie at or below the
    watermark, then those returned. -/
inductive Read (watermark : Int) (records : List ProcessStatus) : List ProcessStatus → Option Nat → Prop
  | closed : Read watermark records [] none
  | opened {passed returned : List ProcessStatus} {reached : Nat} (before : records.take reached = passed ++ returned)
      (bounded : reached ≤ records.length) (low : ∀ record ∈ passed, record.number ≤ watermark) :
      Read watermark records returned (some reached)

def due (watermark : Int) (records : List ProcessStatus) (position : Option Nat) : List ProcessStatus :=
  records.drop (position.getD (fastForward watermark (-1) records))

section Read

variable {watermark : Int} {records returned : List ProcessStatus} {position : Option Nat}

theorem Read.bind (read : Read watermark records returned position) :
    Read watermark records returned (some (position.getD (fastForward watermark (-1) records))) := by
  cases read with
  | closed =>
    have before : records.take (fastForward watermark (-1) records) =
        records.take (fastForward watermark (-1) records) ++ [] := by simp
    exact .opened before (fastForward_le watermark (-1) records) (fastForward_passes watermark (-1) records)
  | opened before bounded low => exact .opened before bounded low

theorem Read.append (record : ProcessStatus) (read : Read watermark records returned position) :
    Read watermark (records ++ [record]) returned position := by
  cases read with
  | closed => exact .closed
  | opened before bounded low =>
    rename_i passed reached
    have longer : (records ++ [record]).take reached = records.take reached :=
      List.take_append_of_le_length bounded
    have bounded' : reached ≤ (records ++ [record]).length := by
      rw [List.length_append]
      omega
    exact .opened (longer.trans before) bounded' low

theorem Read.select {reached : Nat} (read : Read watermark records returned (some reached)) :
    Read watermark records (returned ++ records.drop reached) (some records.length) := by
  cases read with
  | opened before bounded low =>
    rename_i passed
    have whole : records.take records.length = passed ++ (returned ++ records.drop reached) := by
      rw [List.take_length, ← List.append_assoc, ← before, List.take_append_drop]
    exact .opened whole le_rfl low

theorem Read.whole {reached : Nat} (read : Read watermark records returned (some reached)) :
    returned ++ records.drop reached = (records.filter fun record => watermark < record.number) ↔
      ∀ record ∈ returned ++ records.drop reached, watermark < record.number := by
  cases read with
  | opened before bounded low =>
    rename_i passed
    have parts : records = passed ++ (returned ++ records.drop reached) := by
      rw [← List.append_assoc, ← before, List.take_append_drop]
    have silent : passed.filter (fun record => watermark < record.number) = [] := by
      apply List.filter_eq_nil_iff.mpr
      intro record member
      have below := low record member
      simpa using below
    have kept : (records.filter fun record => watermark < record.number) =
        (returned ++ records.drop reached).filter fun record => watermark < record.number := by
      conv_lhs => rw [parts]
      rw [List.filter_append, silent, List.nil_append]
    rw [kept, eq_comm, List.filter_eq_self]
    simp

theorem due_append (record : ProcessStatus) {reached : Nat} (bounded : reached ≤ records.length) :
    due watermark (records ++ [record]) (some reached) = due watermark records (some reached) ++ [record] := by
  simp only [due, Option.getD_some]
  exact List.drop_append_of_le_length bounded

theorem due_closed (sequenced : Sequenced records) (natural : 0 ≤ watermark) :
    ∀ record ∈ due watermark records none, watermark < record.number := by
  apply fastForward_stops watermark (-1) records sequenced.upwards
  · omega
  · intro low
    omega

theorem due_negative (below : watermark < 0) : due watermark records none = records := by
  simp [due, fastForward_negative watermark records below]

end Read

section Calls

variable {files : ProcessFiles} {muxer : ProcessMuxer} {name : Name}

theorem bindProcesses_watched {watermark : Int} {position : Option Nat}
    (watched : muxer.processes.get? name = some ⟨watermark, position⟩) :
    (muxer.bindProcesses files).processes.get? name = some ⟨watermark,
      if (files.get? name).isSome then some (position.getD (fastForward watermark (-1) (content files name)))
      else position⟩ := by
  rw [bindProcesses, Dict.get?_mapKeyed, watched]
  cases position <;> cases given : files.get? name <;> simp [content, given]

theorem final_hasData (other : Name) :
    Replay.final ((ProcessMuxer.hasData files other).run muxer) = muxer.bindProcesses files := by
  unfold ProcessMuxer.hasData
  simp only [EStateM.run_bind, EStateM.run_modify, EStateM.run_get]
  cases (muxer.bindProcesses files).processes.get? other with
  | none => rfl
  | some watched =>
    cases position : watched.position with
    | none => simp only [position]; rfl
    | some reached => simp only [position]; rfl

theorem final_register (other : Name) (watermark : Int) (different : other ≠ name) :
    (Replay.final ((ProcessMuxer.register other watermark).run muxer)).processes.get? name =
      muxer.processes.get? name := by
  have flipped : name ≠ other := different.symm
  simp only [ProcessMuxer.register, EStateM.run_bind, EStateM.run_get]
  by_cases known : (muxer.processes.get? other).isSome = true
  · simp [known, Replay.final]
  · simp [known, Replay.final, Dict.get?_set_ne _ _ flipped]

theorem final_unregister (other : Name) (different : other ≠ name) :
    (Replay.final ((ProcessMuxer.unregister other).run muxer)).processes.get? name =
      muxer.processes.get? name := by
  have flipped : name ≠ other := different.symm
  simp only [ProcessMuxer.unregister, EStateM.run_bind, EStateM.run_get]
  by_cases known : (muxer.processes.get? other).isNone = true
  · simp [known, Replay.final]
  · simp [known, Replay.final, Dict.get?_erase, flipped]

end Calls

structure Watching (name : Name) (watermark : Int) (position : Option Nat) (m : Multiplexing) : Prop where
  authored : ∀ writer, ∀ record ∈ content m.files writer, record.process = some writer
  sequenced : Sequenced (content m.files name)
  watched : m.muxer.processes.get? name = some ⟨watermark, position⟩
  read : Read watermark (content m.files name) (m.delivered name) position

/-- Nothing at or below the watermark has been returned or is about to be. -/
def Clean (name : Name) (watermark : Int) (position : Option Nat) (m : Multiplexing) : Prop :=
  ∀ record ∈ m.delivered name ++ due watermark (content m.files name) position, watermark < record.number

section Steps

variable {name : Name} {watermark : Int} {position : Option Nat} {m : Multiplexing}

/-- Where the checkpoint of the process is read on from once the muxer has tried to open it. -/
def opening (watermark : Int) (position : Option Nat) (file : Option (List ProcessStatus)) : Option Nat :=
  if file.isSome then some (position.getD (fastForward watermark (-1) (file.getD []))) else position

theorem due_opening (records : Option (List ProcessStatus)) :
    due watermark (records.getD []) (opening watermark position records) =
      due watermark (records.getD []) position := by
  cases records with
  | none => rfl
  | some records => rfl

theorem Watching.bind (attended : Watching name watermark position m) :
    Watching name watermark (opening watermark position (m.files.get? name))
      { m with muxer := m.muxer.bindProcesses m.files } where
  authored := attended.authored
  sequenced := attended.sequenced
  watched := bindProcesses_watched attended.watched
  read := by
    unfold opening
    split
    · exact attended.read.bind
    · exact attended.read

theorem delivered_select (attended : Watching name watermark position m) :
    (m.step .select).delivered name =
      m.delivered name ++ due watermark (content m.files name) position := by
  have watched := attended.bind.watched
  show (m.returned ++ _).filter _ = _
  rw [List.filter_append]
  refine congrArg (m.delivered name ++ ·) ((Dict.filter_flatMap _
    (fun key (update : ProcessStatus) => decide (update.process = some key))
    (m.muxer.bindProcesses m.files).processes name fun entry _ update read => ?_).trans ?_)
  · cases reached : entry.2.position with
    | none => simp [reached] at read
    | some position =>
      simp only [reached] at read
      simp [attended.authored entry.1 update (List.mem_of_mem_drop read)]
  rw [watched]
  show _ = due watermark ((m.files.get? name).getD []) position
  rw [← due_opening (m.files.get? name)]
  cases file : m.files.get? name with
  | none =>
    cases position <;> simp [opening, due, content, file]
  | some records => simp [opening, due, content, file]

theorem opening_none {file : Option (List ProcessStatus)} (closed : opening watermark position file = none) :
    position = none ∧ file = none := by
  cases file with
  | none => exact ⟨closed, rfl⟩
  | some records => cases closed

theorem Watching.select (attended : Watching name watermark position m) :
    ∃ after, Watching name watermark after (m.step .select) ∧
      due watermark (content m.files name) after = [] := by
  have bound := attended.bind
  have shown := delivered_select attended
  have same : due watermark (content m.files name) (opening watermark position (m.files.get? name)) =
      due watermark (content m.files name) position := due_opening (m.files.get? name)
  have watched : (m.step .select).muxer.processes.get? name = some ⟨watermark,
      (opening watermark position (m.files.get? name)).map fun _ => (content m.files name).length⟩ := by
    show (Dict.mapKeyed (readToEnd m.files) (m.muxer.bindProcesses m.files).processes).get? name = _
    rw [Dict.get?_mapKeyed, bound.watched]
    rfl
  have read := bound.read
  refine ⟨_, ⟨attended.authored, attended.sequenced, watched, ?_⟩, ?_⟩
  · show Read watermark (content m.files name) ((m.step .select).delivered name) _
    rw [shown, ← same]
    cases opened : opening watermark position (m.files.get? name) with
    | none =>
      obtain ⟨-, missing⟩ := opening_none opened
      have empty : content m.files name = [] := by simp [content, missing]
      rw [opened] at read
      simpa [due, empty, delivered] using read
    | some reached =>
      rw [opened] at read
      exact read.select
  · cases opened : opening watermark position (m.files.get? name) with
    | none =>
      obtain ⟨-, missing⟩ := opening_none opened
      simp [due, content, missing]
    | some reached => simp [due]

theorem Watching.append (attended : Watching name watermark position m) {writer : Name} {record : ProcessStatus}
    (lawful : Lawful name m (.append writer record)) :
    Watching name watermark position (m.step (.append writer record)) := by
  obtain ⟨own, ordered⟩ := lawful
  have others : ∀ reader, reader ≠ writer →
      content (m.step (.append writer record)).files reader = content m.files reader := by
    intro reader different
    simp [content, step, Dict.get?_set_ne _ _ different]
  have mine : content (m.step (.append writer record)).files writer = content m.files writer ++ [record] := by
    simp [content, step]
  constructor
  · intro reader update member
    by_cases same : reader = writer
    · subst same
      rw [mine, List.mem_append, List.mem_singleton] at member
      rcases member with old | rfl
      · exact attended.authored reader update old
      · exact own
    · rw [others reader same] at member
      exact attended.authored reader update member
  · by_cases same : writer = name
    · subst same
      rw [mine]
      exact ordered rfl
    · rw [others name fun h => same h.symm]
      exact attended.sequenced
  · exact attended.watched
  · by_cases same : writer = name
    · subst same
      rw [mine]
      exact attended.read.append record
    · rw [others name fun h => same h.symm]
      exact attended.read

theorem clean_append (attended : Watching name watermark position m) {writer : Name} {record : ProcessStatus}
    (lawful : Lawful name m (.append writer record)) :
    Clean name watermark position (m.step (.append writer record)) ↔
      Clean name watermark position m ∧ ¬ Late name watermark m (.append writer record) := by
  have open_iff : (m.position name).isSome = position.isSome := by
    simp [Multiplexing.position, attended.watched]
  by_cases same : writer = name
  · subst same
    have mine : content (m.step (.append writer record)).files writer = content m.files writer ++ [record] := by
      simp [content, step]
    have returned : (m.step (.append writer record)).delivered writer = m.delivered writer := rfl
    have late : Late writer watermark m (.append writer record) ↔
        record.number ≤ watermark ∧ (watermark < 0 ∨ position.isSome = true) := by
      rw [← open_iff]
      exact and_iff_right rfl
    rw [Clean, Clean, returned, mine, late]
    have read := attended.read
    generalize m.delivered writer = delivered at read ⊢
    cases read with
    | closed =>
      rcases lt_or_ge watermark 0 with below | natural
      · rw [due_negative below, due_negative below]
        simp only [List.nil_append, List.forall_mem_append, List.forall_mem_singleton, below, true_or, and_true,
          not_le]
      · have clear := due_closed (lawful.2 rfl) natural
        have clean := due_closed attended.sequenced natural
        have natural : ¬ watermark < 0 := by omega
        simp only [List.nil_append, natural, Option.isSome_none, Bool.false_eq_true, or_self, and_false,
          not_false_eq_true, and_true]
        exact ⟨fun _ => clean, fun _ => clear⟩
    | opened before bounded low =>
      rw [due_append record bounded, ← List.append_assoc, List.forall_mem_append]
      simp
  · have other : content (m.step (.append writer record)).files name = content m.files name := by
      have different : name ≠ writer := fun h => same h.symm
      simp [content, step, Dict.get?_set_ne _ _ different]
    have punctual : ¬ Late name watermark m (.append writer record) := fun late => same late.1
    rw [Clean, other, and_iff_left punctual]
    rfl

theorem Watching.step (attended : Watching name watermark position m) {event : MuxerEvent}
    (lawful : Lawful name m event) :
    ∃ after, Watching name watermark after (m.step event) ∧
      (Clean name watermark after (m.step event) ↔
        Clean name watermark position m ∧ ¬ Late name watermark m event) := by
  have punctual : ∀ {P : Prop}, P ↔ P ∧ ¬ False := by simp
  cases event with
  | create other =>
    have unchanged : ∀ reader, content (m.step (.create other)).files reader = content m.files reader := by
      intro reader
      by_cases same : reader = other
      · subst same
        simp [Multiplexing.step, content]
      · simp [Multiplexing.step, content, Dict.get?_set_ne _ _ same]
    refine ⟨position, ⟨?_, ?_, attended.watched, ?_⟩, ?_⟩
    · intro writer record member
      rw [unchanged] at member
      exact attended.authored writer record member
    · rw [unchanged]
      exact attended.sequenced
    · rw [unchanged]
      exact attended.read
    · rw [Clean, unchanged]
      exact punctual
  | append writer record => exact ⟨position, attended.append lawful, clean_append attended lawful⟩
  | register other low =>
    have watched := (final_register other low lawful).trans attended.watched
    exact ⟨position, ⟨attended.authored, attended.sequenced, watched, attended.read⟩, punctual⟩
  | unregister other =>
    have watched := (final_unregister other lawful).trans attended.watched
    exact ⟨position, ⟨attended.authored, attended.sequenced, watched, attended.read⟩, punctual⟩
  | hasData other =>
    have called : m.step (.hasData other) = { m with muxer := m.muxer.bindProcesses m.files } := by
      rw [Multiplexing.step, final_hasData]
    have same := @due_opening watermark position (m.files.get? name)
    rw [called]
    refine ⟨_, attended.bind, Iff.trans ?_ punctual⟩
    rw [Clean, Clean]
    show (∀ record ∈ m.delivered name ++ due watermark ((m.files.get? name).getD []) _, _) ↔ _
    rw [same]
    rfl
  | select =>
    obtain ⟨after, kept, empty⟩ := attended.select
    refine ⟨after, kept, Iff.trans ?_ punctual⟩
    rw [Clean, Clean, delivered_select attended]
    show (∀ record ∈ m.delivered name ++ _ ++ due watermark (content m.files name) after, _) ↔ _
    rw [empty, List.append_nil]

end Steps

section Runs

variable {name : Name} {watermark : Int} {position : Option Nat} {m : Multiplexing}

theorem Watching.run (attended : Watching name watermark position m) {events : List MuxerEvent}
    (lawful : LawfulRun name m events) :
    ∃ after, Watching name watermark after (m.run events) ∧
      (Clean name watermark after (m.run events) ↔
        Clean name watermark position m ∧ Timely name watermark m events) := by
  induction events generalizing m position with
  | nil => exact ⟨position, attended, by simp [Timely, Multiplexing.run]⟩
  | cons event rest ih =>
    obtain ⟨here, later⟩ := lawful
    obtain ⟨middle, stepped, clean⟩ := attended.step here
    obtain ⟨after, ran, cleaner⟩ := ih stepped later
    refine ⟨after, ran, ?_⟩
    rw [clean, and_assoc] at cleaner
    exact cleaner

theorem deliversOnce_iff (attended : Watching name watermark position m) :
    DeliversOnce name watermark m ↔ Clean name watermark position m := by
  have shown := delivered_select attended
  have read := attended.read.bind
  rw [DeliversOnce, shown]
  exact read.whole

end Runs

/-- The muxer right after a process has been registered, with nothing returned yet. -/
def watching (files : ProcessFiles) (muxer : ProcessMuxer) (name : Name) (watermark : Int) : Multiplexing where
  files
  muxer := Replay.final ((ProcessMuxer.register name watermark).run muxer)

/-- Each update of a registered process is returned just once and none at or below its watermark, however
    calls and writers interleave, just when no record at or below the watermark is appended late; below a
    negative watermark there must be no record at the start either. -/
theorem ProcessMuxer.delivers_once (files : ProcessFiles) (muxer : ProcessMuxer) (name : Name) (watermark : Int)
    (events : List MuxerEvent) (free : muxer.processes.get? name = none)
    (authored : ∀ writer, ∀ record ∈ content files writer, record.process = some writer)
    (sequenced : Sequenced (content files name))
    (lawful : LawfulRun name (watching files muxer name watermark) events) :
    DeliversOnce name watermark ((watching files muxer name watermark).run events) ↔
      (0 ≤ watermark ∨ ∀ record ∈ content files name, watermark < record.number) ∧
        Timely name watermark (watching files muxer name watermark) events := by
  have watched : (watching files muxer name watermark).muxer.processes.get? name = some ⟨watermark, none⟩ := by
    simp [watching, ProcessMuxer.register, free, Replay.final]
  have attended : Watching name watermark none (watching files muxer name watermark) :=
    ⟨authored, sequenced, watched, .closed⟩
  have start : Clean name watermark none (watching files muxer name watermark) ↔
      0 ≤ watermark ∨ ∀ record ∈ content files name, watermark < record.number := by
    show (∀ record ∈ [] ++ due watermark (content files name) none, _) ↔ _
    rw [List.nil_append]
    rcases lt_or_ge watermark 0 with below | natural
    · rw [due_negative below, or_iff_right (by omega)]
    · exact ⟨fun _ => .inl natural, fun _ => due_closed sequenced natural⟩
  obtain ⟨after, ran, clean⟩ := attended.run lawful
  rw [deliversOnce_iff ran, clean, start]

/-- A process whose first run was lost while its coordinator lived on; the second run is registered with
    the lost run's last number as its watermark. -/
def lostFiles : ProcessFiles :=
  Dict.empty.set "fetch" [{ seq := some 1, process := some "fetch", state := some .forked }]

theorem lostFiles_authored : ∀ writer, ∀ record ∈ content lostFiles writer, record.process = some writer := by
  intro writer record member
  by_cases same : writer = "fetch"
  · subst same
    simp only [content, lostFiles, Dict.get?_set_self, Option.getD_some, List.mem_singleton] at member
    rw [member]
  · simp [content, lostFiles, Dict.get?_set_ne _ _ same] at member

/-- The coordinator of the lost run writes before the checkpoint is opened, that of the next run later. -/
def prompt : List MuxerEvent := [
  .append "fetch" { seq := some 2, process := some "fetch", state := some .running }, .select,
  .append "fetch" { seq := some 4, process := some "fetch", state := some .forked }]

theorem prompt_lawful : LawfulRun "fetch" (watching lostFiles {} "fetch" 2) prompt :=
  ⟨⟨rfl, fun _ => ⟨[1, 2], rfl, by decide⟩⟩, trivial, ⟨rfl, fun _ => ⟨[1, 2, 4], rfl, by decide⟩⟩, trivial⟩

theorem ProcessMuxer.delivers_once_prompt :
    DeliversOnce "fetch" 2 ((watching lostFiles {} "fetch" 2).run prompt) ↔
      (0 ≤ (2 : Int) ∨ ∀ record ∈ content lostFiles "fetch", (2 : Int) < record.number) ∧
        Timely "fetch" 2 (watching lostFiles {} "fetch" 2) prompt :=
  ProcessMuxer.delivers_once lostFiles {} "fetch" 2 prompt rfl lostFiles_authored ⟨[1], rfl, by decide⟩ prompt_lawful

/-- It writes only after the checkpoint has been opened. -/
def belated : List MuxerEvent := [.select,
  .append "fetch" { seq := some 2, process := some "fetch", state := some .running }]

theorem ProcessMuxer.returns_late :
    LawfulRun "fetch" (watching lostFiles {} "fetch" 2) belated ∧
      ¬ DeliversOnce "fetch" 2 ((watching lostFiles {} "fetch" 2).run belated) := by
  constructor
  · exact ⟨trivial, ⟨rfl, fun _ => ⟨[1, 2], rfl, by decide⟩⟩, trivial⟩
  · unfold DeliversOnce
    decide +kernel

end Aurora.Thermos
