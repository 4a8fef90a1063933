import Aurora.Thermos.Core.Attendance
import Aurora.Thermos.Core.Control
import Aurora.Thermos.Core.Delivery

namespace Aurora.Thermos

open Collections ProcessMuxer Replay

namespace Coordinator

def key (coordinator : Coordinator) : Int × Time := (coordinator.pid, coordinator.forkTime)

def origin (coordinator : Coordinator) : Coordinator := { coordinator with fate := .waiting 0 }

/-- FORKED is in the checkpoint of the process. -/
def Announced (files : ProcessFiles) (coordinator : Coordinator) : Prop :=
  coordinator.initialUpdate ∈ content files coordinator.name

inductive Writes (coordinator : Coordinator) (record : ProcessStatus) : Prop
  | forked (initial : record = coordinator.initialUpdate)
  | running (entered : record.state = some .running) (numbered : record.seq = some (coordinator.seq + 1))
  | ended (entered : record.state = some .success ∨ record.state = some .failed ∨ record.state = some .killed)
      (numbered : record.seq = some (coordinator.seq + 2))

def Fares (files : ProcessFiles) (coordinator : Coordinator) : Prop :=
  match coordinator.fate with
  | .waiting total => total < ProcessBase.maximumControlWait + ProcessBase.controlWaitCheckInterval
  | .executing seq running => coordinator.Announced files ∧ seq = coordinator.seq + if running then 2 else 1
  | .finished => coordinator.Announced files
  | .raised e => ∃ message, e = .processError message

inductive Adopts (coordinator : Coordinator) (run : ProcessRun) : Prop
  | awaited (waits : run.state = some .waiting) (numbered : coordinator.seq = run.seq + 1)
  | adopted {state : ProcessState} (entered : run.state = some state) (left : state ≠ .waiting)
      (forkTime : run.forkTime = some coordinator.forkTime) (pid : run.coordinatorPid = some coordinator.pid)
      (reached : coordinator.seq ≤ run.seq) (further : state ≠ .forked → coordinator.seq + 1 ≤ run.seq)

theorem Writes.bounds {coordinator : Coordinator} {record : ProcessStatus} (writes : coordinator.Writes record) :
    ∃ seq, record.seq = some seq ∧ coordinator.seq ≤ seq ∧ seq ≤ coordinator.seq + 2 ∧
      (seq = coordinator.seq → record = coordinator.initialUpdate) := by
  cases writes with
  | forked initial => exact ⟨coordinator.seq, by rw [initial]; rfl, by omega, by omega, fun _ => initial⟩
  | running _ numbered => exact ⟨_, numbered, by omega, by omega, by omega⟩
  | ended _ numbered => exact ⟨_, numbered, by omega, by omega, by omega⟩

theorem Writes.initial {coordinator : Coordinator} {record : ProcessStatus} (writes : coordinator.Writes record)
    (forked : record.state = some .forked) : record = coordinator.initialUpdate := by
  cases writes with
  | forked initial => exact initial
  | running entered => cases entered.symm.trans forked
  | ended entered => rcases entered with entered | entered | entered <;> cases entered.symm.trans forked

end Coordinator

namespace Coordination

variable {c : Coordination} {coordinator : Coordinator} {name : Name} {record : ProcessStatus}

def origins (c : Coordination) : List Coordinator := c.coordinators.map Coordinator.origin

theorem mem_origins : coordinator ∈ c.origins ↔ ∃ forked ∈ c.coordinators, forked.origin = coordinator := List.mem_map

@[simp] theorem content_append (files : ProcessFiles) (name : Name) (records : List ProcessStatus) :
    content (append files name records) name = content files name ++ records := by
  simp [append, content]

theorem content_append_ne (files : ProcessFiles) {name other : Name} (records : List ProcessStatus)
    (different : other ≠ name) : content (append files name records) other = content files other := by
  simp [append, content, Dict.get?_set_ne _ _ different]

theorem mem_content_append {files : ProcessFiles} {name other : Name} {records : List ProcessStatus}
    (member : record ∈ content files other) : record ∈ content (append files name records) other := by
  by_cases same : other = name
  · subst same
    rw [content_append]
    exact List.mem_append_left records member
  · rwa [content_append_ne files records same]

theorem announced_append (files : ProcessFiles) (coordinator : Coordinator) :
    coordinator.Announced (append files coordinator.name [coordinator.initialUpdate]) := by
  rw [Coordinator.Announced, content_append]
  exact List.mem_append_right _ List.mem_cons_self

section Log

/-- The checkpoints hold what the coordinators and their parents wrote, and the coordinators go by it. -/
structure Logged (c : Coordination) : Prop where
  distinct : (c.coordinators.map Coordinator.key).Nodup
  authored : ∀ name, ∀ record ∈ content c.files name, record.process = some name ∧
    ∃ coordinator ∈ c.origins, coordinator.name = name ∧ coordinator.Announced c.files ∧ coordinator.Writes record
  fates : ∀ coordinator ∈ c.coordinators, coordinator.Fares c.files

theorem Logged.origin_eq (logged : Logged c) {first second : Coordinator} (left : first ∈ c.origins)
    (right : second ∈ c.origins) (same : first.key = second.key) : first = second := by
  obtain ⟨one, member, rfl⟩ := mem_origins.mp left
  obtain ⟨other, listed, rfl⟩ := mem_origins.mp right
  rw [List.inj_on_of_nodup_map logged.distinct member listed same]

theorem fares_append {files : ProcessFiles} {records : List ProcessStatus} (fares : coordinator.Fares files) :
    coordinator.Fares (append files name records) := by
  unfold Coordinator.Fares at fares ⊢
  cases fate : coordinator.fate with
  | waiting total => simpa [fate] using fares
  | executing seq running =>
    simp only [fate] at fares ⊢
    exact ⟨mem_content_append fares.1, fares.2⟩
  | finished =>
    simp only [fate] at fares ⊢
    exact mem_content_append fares
  | raised e => simpa [fate] using fares

theorem Logged.append (logged : Logged c) {records : List ProcessStatus}
    (written : ∀ record ∈ records, record.process = some name ∧ ∃ coordinator ∈ c.origins, coordinator.name = name ∧
      coordinator.Announced (append c.files name records) ∧ coordinator.Writes record) :
    Logged { c with files := Coordination.append c.files name records } where
  distinct := logged.distinct
  authored := by
    intro other record member
    have kept : ∀ record ∈ content c.files other, record.process = some other ∧
        ∃ coordinator ∈ c.origins, coordinator.name = other ∧
          coordinator.Announced (Coordination.append c.files name records) ∧ coordinator.Writes record := by
      intro record member
      obtain ⟨own, author, forked, named, announced, writes⟩ := logged.authored other record member
      exact ⟨own, author, forked, named, mem_content_append announced, writes⟩
    by_cases same : other = name
    · subst same
      rw [content_append, List.mem_append] at member
      rcases member with old | new
      · exact kept record old
      · exact written record new
    · rw [content_append_ne _ _ same] at member
      exact kept record member
  fates := fun coordinator member => fares_append (logged.fates coordinator member)

theorem origins_set {index : Nat} (found : c.coordinators[index]? = some coordinator) (fate : Fate) :
    origins { c with coordinators := c.coordinators.set index { coordinator with fate } } = c.origins := by
  obtain ⟨bound, same⟩ := List.getElem?_eq_some_iff.mp found
  unfold origins
  rw [List.map_set]
  apply List.ext_getElem (by simp)
  intro position left right
  rw [List.getElem_set]
  split
  · subst_vars
    simp [Coordinator.origin]
  · rfl

theorem Logged.set (logged : Logged c) {index : Nat} (found : c.coordinators[index]? = some coordinator) {fate : Fate}
    (fares : Coordinator.Fares c.files { coordinator with fate }) :
    Logged { c with coordinators := c.coordinators.set index { coordinator with fate } } where
  distinct := by
    obtain ⟨bound, same⟩ := List.getElem?_eq_some_iff.mp found
    have keys : (c.coordinators.set index { coordinator with fate }).map Coordinator.key =
        c.coordinators.map Coordinator.key := by
      rw [List.map_set]
      apply List.ext_getElem (by simp)
      intro position left right
      rw [List.getElem_set]
      split
      · subst_vars
        simp [Coordinator.key]
      · rfl
    rw [keys]
    exact logged.distinct
  authored := by
    rw [origins_set found]
    exact logged.authored
  fates := by
    intro other member
    rcases List.mem_or_eq_of_mem_set member with old | rfl
    · exact logged.fates other old
    · exact fares

theorem Logged.fork (logged : Logged c) (fresh : ∀ other ∈ c.coordinators, other.key ≠ coordinator.key)
    (waits : coordinator.fate = .waiting 0) : Logged { c with coordinators := c.coordinators ++ [coordinator] } where
  distinct := by
    rw [List.map_append, List.nodup_append]
    refine ⟨logged.distinct, by simp, ?_⟩
    intro key member other only same
    obtain ⟨forked, listed, rfl⟩ := List.mem_map.mp member
    simp only [List.map_cons, List.map_nil, List.mem_singleton] at only
    exact fresh forked listed (same.trans only)
  authored := by
    intro name record member
    obtain ⟨own, author, forked, rest⟩ := logged.authored name record member
    refine ⟨own, author, ?_, rest⟩
    unfold origins at forked ⊢
    rw [List.map_append]
    exact List.mem_append_left _ forked
  fates := by
    intro other member
    rcases List.mem_append.mp member with old | new
    · exact logged.fates other old
    · cases List.mem_singleton.mp new
      simp [Coordinator.Fares, waits, ProcessBase.maximumControlWait, ProcessBase.controlWaitCheckInterval]

/-- A coordinator takes control at its own FORKED record only. -/
theorem Logged.waitForControl (logged : Logged c) (member : coordinator ∈ c.coordinators) (total : Nat) :
    Coordinator.Fares c.files
      { coordinator with fate := coordinator.waitForControl (content c.files coordinator.name) total } := by
  unfold Coordinator.waitForControl
  split_ifs with early
  · cases found : (content c.files coordinator.name)[coordinator.head]? with
    | none =>
      simp only [Coordinator.Fares]
      omega
    | some status =>
      simp only
      split_ifs with lost
      · exact ⟨_, rfl⟩
      · simp only [not_or, not_not] at lost
        obtain ⟨own, forked, time, pid⟩ := lost
        obtain ⟨_, author, listed, named, announced, writes⟩ :=
          logged.authored coordinator.name status (List.mem_of_getElem? found)
        have initial := writes.initial forked
        have same : author = coordinator.origin := by
          apply logged.origin_eq listed (mem_origins.mpr ⟨coordinator, member, rfl⟩)
          rw [initial] at time pid
          simp only [Coordinator.initialUpdate, Option.some.injEq] at time pid
          simp only [Coordinator.key, Coordinator.origin, time, pid]
        subst same
        rw [initial]
        exact ⟨announced, rfl⟩
  · exact ⟨_, rfl⟩

end Log

section Runs

variable {Mine : Coordinator → Prop} {update : ProcessStatus} {earlier runs : List ProcessRun} {run : ProcessRun}

/-- The runs of a process and the coordinators whose FORKED record is in its checkpoint. -/
structure Assigned (Mine : Coordinator → Prop) (runs : List ProcessRun) : Prop where
  adopts : ∀ coordinator, Mine coordinator → ∃ run, runs[coordinator.run]? = some run ∧ coordinator.Adopts run
  alone : ∀ first second, Mine first → Mine second → first.run = second.run → first = second
  later : ∀ coordinator, Mine coordinator → ∀ earlier last, runs = earlier ++ [last] →
    coordinator.run < earlier.length → coordinator.seq + 2 ≤ last.seq
  ceased : ∀ earlier last, runs = earlier ++ [last] → ∀ run ∈ earlier, run.state ≠ some .waiting

/-- The current run waits although a FORKED record of it is in the checkpoint. -/
structure Outstanding (Mine : Coordinator → Prop) (runs : List ProcessRun) (coordinator : Coordinator) : Prop where
  mine : Mine coordinator
  current : ∃ earlier run, runs = earlier ++ [run] ∧ run.state = some .waiting ∧ coordinator.run = earlier.length

theorem Assigned.last (assigned : Assigned Mine (earlier ++ [run])) (mine : Mine coordinator)
    (current : coordinator.run = earlier.length) : coordinator.Adopts run := by
  obtain ⟨found, there, adopts⟩ := assigned.adopts coordinator mine
  rw [current, List.getElem?_concat_length] at there
  cases there
  exact adopts

theorem Assigned.placed (assigned : Assigned Mine (earlier ++ [run])) (mine : Mine coordinator) :
    coordinator.run < earlier.length ∨ coordinator.run = earlier.length := by
  obtain ⟨found, there, _⟩ := assigned.adopts coordinator mine
  have bound := (List.getElem?_eq_some_iff.mp there).1
  rw [List.length_append, List.length_singleton] at bound
  omega

theorem Assigned.fitting (assigned : Assigned Mine (earlier ++ [run])) (waits : run.state = some .waiting)
    (mine : Mine coordinator) (writes : coordinator.Writes record) (numbered : record.seq = some (run.seq + 1)) :
    record = coordinator.initialUpdate ∧ coordinator.run = earlier.length := by
  obtain ⟨seq, given, low, high, initial⟩ := writes.bounds
  cases given.symm.trans numbered
  rcases assigned.placed mine with before | current
  · have later := assigned.later coordinator mine earlier run rfl before
    omega
  · cases assigned.last mine current with
    | awaited _ follows => exact ⟨initial (by omega), current⟩
    | adopted entered left => exact absurd (Option.some.inj (entered.symm.trans waits)) left

theorem Adopts.advance {next : ProcessState} (adopts : coordinator.Adopts run) (entered : update.state = some next)
    (numbered : update.seq = some (run.seq + 1)) (follows : MayFollow run.state next)
    (own : run.state = some .waiting → update = coordinator.initialUpdate) :
    coordinator.Adopts (run.advance update (run.seq + 1) next) := by
  cases adopts with
  | awaited waits follows =>
    have initial := own waits
    subst initial
    cases entered
    refine .adopted rfl (by simp) rfl rfl ?_ (fun other => absurd rfl other)
    rw [ProcessRun.advance_seq]
    omega
  | adopted before left forkTime pid reached further =>
    rw [before] at follows
    cases next with
    | waiting | unknown => simp [MayFollow, predecessors] at follows
    | forked =>
      simp only [MayFollow, predecessors, List.mem_singleton, Option.some.injEq] at follows
      exact absurd follows left
    | running | success | failed | killed | lost =>
      exact .adopted (ProcessRun.advance_state _ _ _ _) (by simp) forkTime pid (by rw [ProcessRun.advance_seq]; omega)
        (fun _ => by rw [ProcessRun.advance_seq]; omega)

/-- A run is opened behind runs that have ended, which no coordinator has still to leave. -/
theorem Assigned.opened (assigned : Assigned Mine earlier)
    (later : ∀ last, earlier.getLast? = some last → last.isTerminal = true ∧ run.seq = last.seq + 1) :
    Assigned Mine (earlier ++ [run]) := by
  have settled : ∀ last, earlier.getLast? = some last → last.state ≠ some .waiting := by
    intro last found waits
    have terminal := (later last found).1
    simp [ProcessRun.isTerminal, waits] at terminal
  constructor
  · intro coordinator mine
    obtain ⟨found, there, adopts⟩ := assigned.adopts coordinator mine
    have bound := (List.getElem?_eq_some_iff.mp there).1
    exact ⟨found, by rw [List.getElem?_append_left bound, there], adopts⟩
  · exact assigned.alone
  · intro coordinator mine front last shape inside
    obtain ⟨rfl, only⟩ := List.append_inj' shape rfl
    cases only
    obtain ⟨front, last, rfl⟩ : ∃ front last, earlier = front ++ [last] := by
      rcases List.eq_nil_or_concat' earlier with rfl | shape
      · cases inside
      · exact shape
    obtain ⟨terminal, follows⟩ := later last List.getLast?_concat
    rcases assigned.placed mine with before | current
    · have reached := assigned.later coordinator mine front last rfl before
      omega
    · cases assigned.last mine current with
      | awaited waits => exact absurd waits (settled last List.getLast?_concat)
      | adopted entered left _ _ _ further =>
        have passed := further (by
          rintro rfl
          simp [ProcessRun.isTerminal, entered] at terminal)
        omega
  · intro front last shape other member
    obtain ⟨rfl, -⟩ := List.append_inj' shape rfl
    rcases List.eq_nil_or_concat' earlier with rfl | ⟨front, last, rfl⟩
    · cases member
    · rcases List.mem_append.mp member with old | new
      · exact assigned.ceased front last rfl other old
      · rw [List.mem_singleton.mp new]
        exact settled last List.getLast?_concat

theorem Assigned.moved {next : ProcessState} (assigned : Assigned Mine (earlier ++ [run]))
    (entered : update.state = some next) (numbered : update.seq = some (run.seq + 1)) (follows : MayFollow run.state next)
    (own : run.state = some .waiting → ∀ coordinator, Mine coordinator → coordinator.run = earlier.length →
      update = coordinator.initialUpdate) : Assigned Mine (earlier ++ [run.advance update (run.seq + 1) next]) := by
  constructor
  · intro coordinator mine
    rcases assigned.placed mine with before | current
    · obtain ⟨found, there, adopts⟩ := assigned.adopts coordinator mine
      rw [List.getElem?_append_left before] at there
      exact ⟨found, by rw [List.getElem?_append_left before, there], adopts⟩
    · refine ⟨_, by rw [current, List.getElem?_concat_length], ?_⟩
      apply Adopts.advance (assigned.last mine current) entered numbered follows
      intro waits
      exact own waits coordinator mine current
  · exact assigned.alone
  · intro coordinator mine front last shape inside
    obtain ⟨rfl, only⟩ := List.append_inj' shape rfl
    cases only
    have reached := assigned.later coordinator mine earlier run rfl inside
    rw [ProcessRun.advance_seq]
    omega
  · intro front last shape
    obtain ⟨rfl, -⟩ := List.append_inj' shape rfl
    exact assigned.ceased earlier run rfl

/-- An accepted update keeps the runs assigned, if a run that waits is only left for its coordinator. -/
theorem Assigned.taken {before after : Option (List ProcessRun)} (assigned : Assigned Mine (before.getD []))
    (taken : RunsTaken name update before after)
    (own : ∀ earlier run next, before = some (earlier ++ [run]) → run.state = some .waiting →
      update.process = some name → update.state = some next → update.seq = some (run.seq + 1) →
      MayFollow (some .waiting) next → ∀ coordinator, Mine coordinator → coordinator.run = earlier.length →
      update = coordinator.initialUpdate) : Assigned Mine (after.getD []) := by
  cases taken with
  | other _ same => rwa [same]
  | opened named entered known later numbered waits grown =>
    rw [known] at assigned
    rw [grown, Option.getD_some]
    exact assigned.opened later
  | moved named entered goes known numbered follows advanced =>
    rw [known, Option.getD_some] at assigned
    rw [advanced, Option.getD_some]
    refine assigned.moved entered numbered follows fun waits => ?_
    exact own _ _ _ known waits named entered numbered (waits ▸ follows)

theorem Assigned.announce {Later : Coordinator → Prop} (assigned : Assigned Mine (earlier ++ [run]))
    (waits : run.state = some .waiting) (placed : coordinator.run = earlier.length) (numbered : coordinator.seq = run.seq + 1)
    (unread : ∀ other, Mine other → other.run ≠ earlier.length)
    (later : ∀ other, Later other → Mine other ∨ other = coordinator) : Assigned Later (earlier ++ [run]) where
  adopts := by
    intro other theirs
    rcases later other theirs with old | rfl
    · exact assigned.adopts other old
    · exact ⟨run, by rw [placed, List.getElem?_concat_length], .awaited waits numbered⟩
  alone := by
    intro first second left right same
    rcases later first left with old | rfl <;> rcases later second right with older | rfl
    · exact assigned.alone first second old older same
    · exact absurd (same.trans placed) (unread first old)
    · exact absurd (same.symm.trans placed) (unread second older)
    · rfl
  later := by
    intro other theirs front last shape inside
    rcases later other theirs with old | rfl
    · exact assigned.later other old front last shape inside
    · obtain ⟨rfl, -⟩ := List.append_inj' shape rfl
      omega
  ceased := assigned.ceased

end Runs

end Coordination

end Aurora.Thermos
