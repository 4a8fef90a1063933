import Aurora.Thermos.Core.Control
import Aurora.Thermos.Monitoring.Monitor
import Mathlib.Data.Nat.Count

namespace Aurora.Thermos

open Framing

namespace ProcessBase

/-- What a forked process knows when it waits for control of its checkpoint stream. -/
structure Forked where
  name : Name
  pid : Int
  forkTime : Time
  ckptHead : Nat

/-- What one round of the loop sees of the checkpoint file: its size, and what it holds when it is read. -/
structure Sighting where
  ckptTail : Nat
  content : Bytes

def takeControl (forked : Forked) (checkpoint : RunnerCkpt) : Except Error Int :=
  match checkpoint.processStatus with
  | none => throw (.processError "No process status in checkpoint!")
  | some status =>
    if status.process ≠ some forked.name ∨ status.state ≠ some .forked ∨ status.forkTime ≠ some forked.forkTime ∨
        status.coordinatorPid ≠ some forked.pid then
      throw (.processError "Lost control of the checkpoint stream!")
    else
      match status.seq with
      | some seq => return seq + 1
      | none => throw .typeError

/-- How far `_wait_for_control` has come: the total wait time, the rounds that slept and those that did not, and the
    sequence number or the exception with which it ended. -/
structure Wait where
  totalWaitTime : Nat := 0
  slept : Nat := 0
  spun : Nat := 0
  result : Option (Except Error Int) := none

section Loop

variable (decode : Bytes → Decoded RunnerCkpt Error) (forked : Forked)

def waitRound (wait : Wait) (sighting : Sighting) : Wait :=
  if wait.result.isSome then wait
  else if wait.totalWaitTime < maximumControlWait then
    if sighting.ckptTail = forked.ckptHead then
      { wait with totalWaitTime := wait.totalWaitTime + controlWaitCheckInterval, slept := wait.slept + 1 }
    else
      match (runnerCkptFormat decode).tryRead (sighting.content.drop forked.ckptHead) with
      | .nothing => { wait with spun := wait.spun + 1 }
      | .raised e => { wait with result := some (.error e) }
      | .record checkpoint _ => { wait with result := some (takeControl forked checkpoint) }
  else { wait with result := some (.error (.processError "Timed out waiting for checkpoint stream!")) }

def waitForControl (sightings : Nat → Sighting) : Nat → Wait
  | 0 => {}
  | rounds + 1 => waitRound decode forked (waitForControl sightings rounds) (sightings rounds)

/-- The loop returns or raises, and has slept no more often than the maximum wait allows and gone round without a sleep
    no more often than the bound. -/
def Ends (bound : Nat) (sightings : Nat → Sighting) : Prop :=
  ∃ rounds result, (waitForControl decode forked sightings rounds).result = some result ∧
    (waitForControl decode forked sightings rounds).slept ≤ maximumControlWait / controlWaitCheckInterval ∧
    (waitForControl decode forked sightings rounds).spun ≤ bound

/-- The file has not changed since the fork. -/
def Unchanged (sighting : Sighting) : Prop := sighting.ckptTail = forked.ckptHead

instance (sighting : Sighting) : Decidable (Unchanged forked sighting) := inferInstanceAs (Decidable (_ = _))

/-- The file has grown, by no more than the beginning of a record. -/
def Torn (sighting : Sighting) : Prop :=
  ¬ Unchanged forked sighting ∧
    ((runnerCkptFormat decode).tryRead (sighting.content.drop forked.ckptHead)).isNothing = true

instance (sighting : Sighting) : Decidable (Torn decode forked sighting) := inferInstanceAs (Decidable (_ ∧ _))

/-- The file has grown by a record, or by what cannot be read as one. -/
def Decides (sighting : Sighting) : Prop :=
  ¬ Unchanged forked sighting ∧
    ((runnerCkptFormat decode).tryRead (sighting.content.drop forked.ckptHead)).isNothing = false

end Loop

section Rounds

variable {decode : Bytes → Decoded RunnerCkpt Error} {forked : Forked} {sightings : Nat → Sighting} {rounds : Nat}

/-- The file has been found unchanged so often that the waiting is used up. -/
def UsedUp (forked : Forked) (sightings : Nat → Sighting) (round : Nat) : Prop :=
  maximumControlWait / controlWaitCheckInterval ≤ Nat.count (fun round => Unchanged forked (sightings round)) round

/-- A loop that is still going has slept in the rounds that found the file unchanged and has spun in those that found the
    beginning of a record, and nothing has ended it. -/
structure Waiting (decode : Bytes → Decoded RunnerCkpt Error) (forked : Forked) (sightings : Nat → Sighting)
    (rounds : Nat) (wait : Wait) : Prop where
  going : wait.result = none
  slept : wait.slept = Nat.count (fun round => Unchanged forked (sightings round)) rounds
  spun : wait.spun = Nat.count (fun round => Torn decode forked (sightings round)) rounds
  total : wait.totalWaitTime = wait.slept * controlWaitCheckInterval
  within : wait.slept ≤ maximumControlWait / controlWaitCheckInterval
  undecided : ∀ round < rounds, ¬ Decides decode forked (sightings round) ∧ ¬ UsedUp forked sightings round

theorem waitRound_late {wait : Wait} {sighting : Sighting} (going : wait.result = none)
    (late : ¬ wait.totalWaitTime < maximumControlWait) : waitRound decode forked wait sighting =
      { wait with result := some (.error (.processError "Timed out waiting for checkpoint stream!")) } := by
  simp [waitRound, going, late]

theorem waitRound_unchanged {wait : Wait} {sighting : Sighting} (going : wait.result = none)
    (early : wait.totalWaitTime < maximumControlWait) (same : Unchanged forked sighting) :
    waitRound decode forked wait sighting =
      { wait with totalWaitTime := wait.totalWaitTime + controlWaitCheckInterval, slept := wait.slept + 1 } := by
  unfold Unchanged at same
  simp [waitRound, going, early, same]

theorem waitRound_torn {wait : Wait} {sighting : Sighting} (going : wait.result = none)
    (early : wait.totalWaitTime < maximumControlWait) (torn : Torn decode forked sighting) :
    waitRound decode forked wait sighting = { wait with spun := wait.spun + 1 } := by
  obtain ⟨grown, read⟩ := torn
  have changed : ¬ sighting.ckptTail = forked.ckptHead := grown
  simp [waitRound, going, early, changed, isNothing_iff.mp read]

theorem waitRound_decides {wait : Wait} {sighting : Sighting} (going : wait.result = none)
    (early : wait.totalWaitTime < maximumControlWait) (decides : Decides decode forked sighting) :
    ∃ result, waitRound decode forked wait sighting = { wait with result := some result } := by
  obtain ⟨grown, read⟩ := decides
  have changed : ¬ sighting.ckptTail = forked.ckptHead := grown
  cases found : (runnerCkptFormat decode).tryRead (sighting.content.drop forked.ckptHead) with
  | nothing =>
    rw [found] at read
    cases read
  | raised e => exact ⟨.error e, by simp [waitRound, going, early, changed, found]⟩
  | record checkpoint size =>
    exact ⟨takeControl forked checkpoint, by simp [waitRound, going, early, changed, found]⟩

theorem waitRound_ended {wait : Wait} {sighting : Sighting} (ended : wait.result.isSome = true) :
    waitRound decode forked wait sighting = wait := by
  simp [waitRound, ended]

/-- One round goes on, or it ends the loop: because it decides, or because all the waiting is used up. -/
theorem Waiting.round {wait : Wait} (waiting : Waiting decode forked sightings rounds wait) :
    Waiting decode forked sightings (rounds + 1) (waitRound decode forked wait (sightings rounds)) ∨
      (Decides decode forked (sightings rounds) ∨ UsedUp forked sightings rounds) ∧
        ∃ result, waitRound decode forked wait (sightings rounds) = { wait with result := some result } := by
  obtain ⟨going, slept, spun, total, within, undecided⟩ := waiting
  by_cases early : wait.totalWaitTime < maximumControlWait
  · have unused : ¬ UsedUp forked sightings rounds := by
      rw [UsedUp, ← slept]
      simp only [maximumControlWait, controlWaitCheckInterval] at early total ⊢
      omega
    have later (last : ¬ Decides decode forked (sightings rounds)) :
        ∀ round < rounds + 1, ¬ Decides decode forked (sightings round) ∧ ¬ UsedUp forked sightings round := by
      intro round before
      rcases Nat.lt_succ_iff_lt_or_eq.mp before with earlier | rfl
      · exact undecided round earlier
      · exact ⟨last, unused⟩
    by_cases same : Unchanged forked (sightings rounds)
    · have whole : ¬ Torn decode forked (sightings rounds) := fun torn => torn.1 same
      left
      rw [waitRound_unchanged going early same]
      refine ⟨going, ?_, ?_, ?_, ?_, later fun decides => decides.1 same⟩
      · rw [Nat.count_succ, if_pos same, slept]
      · rw [Nat.count_succ, if_neg whole, Nat.add_zero]
        exact spun
      · simp only [total]
        exact (Nat.succ_mul _ _).symm
      · simp only [maximumControlWait, controlWaitCheckInterval] at early total ⊢
        omega
    · cases read : ((runnerCkptFormat decode).tryRead ((sightings rounds).content.drop forked.ckptHead)).isNothing with
      | true =>
        left
        rw [waitRound_torn going early ⟨same, read⟩]
        refine ⟨going, ?_, ?_, total, within, later fun decides => ?_⟩
        · rw [Nat.count_succ, if_neg same, Nat.add_zero]
          exact slept
        · rw [Nat.count_succ, if_pos ⟨same, read⟩, spun]
        · exact Bool.noConfusion (read.symm.trans decides.2)
      | false => exact .inr ⟨.inl ⟨same, read⟩, waitRound_decides going early ⟨same, read⟩⟩
  · refine .inr ⟨.inr ?_, _, waitRound_late going early⟩
    rw [UsedUp, ← slept]
    simp only [maximumControlWait, controlWaitCheckInterval] at early total ⊢
    omega

/-- After any number of rounds the loop is still waiting, or an earlier round has ended it for one of the two reasons. -/
theorem waitForControl_rounds (rounds : Nat) :
    Waiting decode forked sightings rounds (waitForControl decode forked sightings rounds) ∨
      ∃ last < rounds, (Decides decode forked (sightings last) ∨ UsedUp forked sightings last) ∧
        Waiting decode forked sightings last (waitForControl decode forked sightings last) ∧
        ∃ result, waitForControl decode forked sightings rounds =
          { waitForControl decode forked sightings last with result := some result } := by
  induction rounds with
  | zero => exact .inl ⟨rfl, by simp [waitForControl], by simp [waitForControl], rfl, Nat.zero_le _, by simp⟩
  | succ rounds ih =>
    rcases ih with waiting | ⟨last, before, reason, waiting, result, ended⟩
    · rcases waiting.round with going | ⟨reason, ended⟩
      · exact .inl going
      · exact .inr ⟨rounds, Nat.lt_succ_self rounds, reason, waiting, ended⟩
    · refine .inr ⟨last, before.trans (Nat.lt_succ_self rounds), reason, waiting, result, ?_⟩
      rw [waitForControl, ended]
      exact waitRound_ended rfl

/-- With at most so many rounds that do not sleep, the wait for control ends just when the file is found to hold a record
    after the fork, or what cannot be read as one, or is found unchanged often enough for a timeout, before it is found
    too often to hold the beginning of a record. -/
theorem ends_iff (decode : Bytes → Decoded RunnerCkpt Error) (forked : Forked) (bound : Nat)
    (sightings : Nat → Sighting) :
    Ends decode forked bound sightings ↔
      ∃ round, (Decides decode forked (sightings round) ∨
          maximumControlWait / controlWaitCheckInterval ≤
            Nat.count (fun round => Unchanged forked (sightings round)) round) ∧
        Nat.count (fun round => Torn decode forked (sightings round)) round ≤ bound := by
  constructor
  · rintro ⟨rounds, result, ended, -, few⟩
    rcases @waitForControl_rounds decode forked sightings rounds with waiting | ⟨last, -, reason, waiting, _, same⟩
    · rw [waiting.going] at ended
      cases ended
    · rw [same] at few
      exact ⟨last, reason, waiting.spun ▸ few⟩
  · rintro ⟨round, reason, few⟩
    rcases @waitForControl_rounds decode forked sightings (round + 1) with waiting | ⟨last, before, -, waiting, result, same⟩
    · obtain ⟨undecided, unused⟩ := waiting.undecided round (Nat.lt_succ_self round)
      rcases reason with decides | used
      · exact absurd decides undecided
      · exact absurd used unused
    · refine ⟨round + 1, result, by rw [same], ?_, ?_⟩
      · rw [same]
        exact waiting.within
      · rw [same]
        calc (waitForControl decode forked sightings last).spun
            = Nat.count (fun round => Torn decode forked (sightings round)) last := waiting.spun
          _ ≤ Nat.count (fun round => Torn decode forked (sightings round)) round :=
              Nat.count_monotone _ (Nat.lt_succ_iff.mp before)
          _ ≤ bound := few

/-- The runner died in the middle of its first record. -/
def cutShort : Sighting where
  ckptTail := 1
  content := [0]

theorem spins_forever : ¬ ∃ bound, Ends (fun _ => .endOfFile) ⟨"server", 7, 0, 0⟩ bound fun _ => cutShort := by
  rintro ⟨bound, rounds, result, ended, -⟩
  have going : waitForControl (fun _ => .endOfFile) ⟨"server", 7, 0, 0⟩ (fun _ => cutShort) rounds = { spun := rounds } := by
    clear ended
    induction rounds with
    | zero => rfl
    | succ rounds ih =>
      rw [waitForControl, ih]
      rfl
  rw [going] at ended
  cases ended

end Rounds

end ProcessBase

end Aurora.Thermos
