import Aurora.Client.Api.Restarter

namespace Aurora.Client.Restarter

open Collections

section Runs

variable (settings : RestartSettings) (rounds : Nat → Round) (initial : Rolling)

def made : Nat → Option Rolling
  | 0 => some initial
  | count + 1 =>
    match made count with
    | some rolling =>
      if rolling.going then
        match rolling.advance settings (rounds count) with
        | .ok next => some next
        | .error _ => none
      else none
    | none => none

structure Advanced (rolling next : Rolling) (failed : List Int) : Prop where
  going : rolling.going = true
  distinct : failed.Nodup
  watched : failed ⊆ rolling.batch settings
  instances : next.instances = rolling.rest settings ++ failed
  threshold : next.threshold = (rolling.threshold.updateFailureCounts failed).1
  response : ∃ response, next.response = some response ∧ response.responseCode = .ok
  batches : next.batches = rolling.batches ++ [(rolling.batch settings, failed)]

variable {settings rounds initial} {rolling next : Rolling} {failed : List Int} {count : Nat}

theorem advance_ok {round : Round} (going : rolling.going = true) (moved : rolling.advance settings round = .ok next) :
    ∃ failed, Advanced settings rolling next failed := by
  unfold Rolling.advance at moved
  split at moved
  · cases moved
  · next accepted =>
    rcases found : round.watch (rolling.batch settings) with _ | failed
    · rw [found] at moved
      cases moved
    · rw [found] at moved
      obtain rfl := Except.ok.inj moved
      exact ⟨failed, going, round.distinct _ _ found, round.watched _ _ found, rfl, rfl,
        ⟨_, rfl, not_not.mp accepted⟩, rfl⟩

theorem made_succ (reached : made settings rounds initial (count + 1) = some next) :
    ∃ rolling failed, made settings rounds initial count = some rolling ∧ Advanced settings rolling next failed := by
  rw [made] at reached
  split at reached
  · next rolling before =>
    split at reached
    · next going =>
      split at reached
      · next moved advanced =>
        obtain rfl := Option.some.inj reached
        obtain ⟨failed, advanced⟩ := advance_ok going advanced
        exact ⟨rolling, failed, before, advanced⟩
      · cases reached
    · cases reached
  · cases reached

theorem made_invariant {holds : Rolling → Prop} (first : holds initial)
    (keeps : ∀ rolling next failed, holds rolling → Advanced settings rolling next failed → holds next)
    (reached : made settings rounds initial count = some rolling) : holds rolling := by
  induction count generalizing rolling with
  | zero => exact Option.some.inj reached ▸ first
  | succ count ih =>
    obtain ⟨before, failed, earlier, advanced⟩ := made_succ reached
    exact keeps before rolling failed (ih earlier) advanced

theorem made_of_succ (reached : made settings rounds initial (count + 1) = some next) :
    ∃ rolling, made settings rounds initial count = some rolling := by
  obtain ⟨rolling, -, before, -⟩ := made_succ reached
  exact ⟨rolling, before⟩

/-- The loop ends in a state that is reached, which goes on no more or fails to advance. -/
theorem loop_ended {fuel : Nat} {ended : RestartEnd} {final : Rolling}
    (reached : made settings rounds initial count = some rolling)
    (loop_eq : loop settings rounds fuel count rolling = some (ended, final)) :
    ∃ last, made settings rounds initial last = some final ∧
      ((final.going = false ∧ ended = (final.response.map RestartEnd.returned).getD .unboundLocalError) ∨
        final.advance settings (rounds last) = .error ended) := by
  induction fuel generalizing count rolling with
  | zero => cases loop_eq
  | succ fuel ih =>
    rw [loop] at loop_eq
    split at loop_eq
    · next going =>
      rcases moved : rolling.advance settings (rounds count) with stopped | next
      · rw [moved] at loop_eq
        obtain ⟨rfl, rfl⟩ : stopped = ended ∧ rolling = final := by simpa using loop_eq
        exact ⟨count, reached, .inr moved⟩
      · rw [moved] at loop_eq
        refine ih ?_ loop_eq
        rw [made, reached]
        dsimp only
        rw [if_pos going, moved]
    · next stopped =>
      obtain ⟨rfl, rfl⟩ : _ = ended ∧ rolling = final := by simpa using loop_eq
      exact ⟨count, reached, .inl ⟨by simpa using stopped, rfl⟩⟩

/-- From a state that is reached and goes on no more, the loop has ended there. -/
theorem loop_of_made {final : Rolling} {last : Nat} (reached : made settings rounds initial last = some final)
    (stopped : final.going = false) (left : Nat) (within : left ≤ last) :
    ∃ rolling, made settings rounds initial (last - left) = some rolling ∧
      loop settings rounds (left + 1) (last - left) rolling =
        some ((final.response.map RestartEnd.returned).getD .unboundLocalError, final) := by
  induction left with
  | zero =>
    refine ⟨final, reached, ?_⟩
    rw [loop, stopped]
    rfl
  | succ left ih =>
    obtain ⟨next, after, ended⟩ := ih (by omega)
    obtain ⟨place, place_eq⟩ : ∃ place, last - (left + 1) = place := ⟨_, rfl⟩
    have place_succ : last - left = place + 1 := by omega
    rw [place_succ] at after ended
    have after' := after
    rw [made] at after'
    obtain ⟨rolling, before⟩ := made_of_succ after
    rw [before] at after'
    dsimp only at after'
    split at after'
    · next going =>
      rcases moved : rolling.advance settings (rounds place) with stopped' | moved_to
      · rw [moved] at after'
        cases after'
      · rw [moved] at after'
        obtain rfl := Option.some.inj after'
        refine ⟨rolling, place_eq ▸ before, ?_⟩
        rw [place_eq, loop, if_pos going, moved]
        exact ended
    · cases after'

end Runs

section Healthy

/-- The last watch of the instance, which was restarted before it, found it healthy. -/
def LastHealthy (batches : List (List Int × List Int)) (instance_ : Int) : Prop :=
  ∃ before batch failed after, batches = before ++ (batch, failed) :: after ∧ instance_ ∈ batch ∧ instance_ ∉ failed ∧
    ∀ later ∈ after, instance_ ∉ later.1

theorem LastHealthy.append {batches : List (List Int × List Int)} {instance_ : Int} {batch failed : List Int}
    (healthy : LastHealthy batches instance_) (outside : instance_ ∉ batch) :
    LastHealthy (batches ++ [(batch, failed)]) instance_ := by
  obtain ⟨before, batch', failed', after, rfl, inside, fine, untouched⟩ := healthy
  refine ⟨before, batch', failed', after ++ [(batch, failed)], by simp, inside, fine, fun later mem => ?_⟩
  rcases List.mem_append.mp mem with mem | mem
  · exact untouched later mem
  · rw [List.mem_singleton.mp mem]
    exact outside

theorem not_lastHealthy {batches : List (List Int × List Int)} {instance_ : Int} {batch failed : List Int}
    (inside : instance_ ∈ batch) (ill : instance_ ∈ failed) :
    ¬ LastHealthy (batches ++ [(batch, failed)]) instance_ := by
  rintro ⟨before, batch', failed', after, split, inside', fine, untouched⟩
  rcases List.eq_nil_or_concat after with rfl | ⟨init, last, rfl⟩
  · have same := (List.append_inj' split rfl).2
    obtain ⟨-, rfl⟩ : batch = batch' ∧ failed = failed' := by simpa using same
    exact fine ill
  · rw [List.concat_eq_append, ← List.cons_append, ← List.append_assoc] at split
    have same := (List.append_inj' split rfl).2
    have last_eq : (batch, failed) = last := by simpa using same
    exact untouched last (by simp) (last_eq ▸ inside)

variable {settings : RestartSettings} {rounds : Nat → Round} {initial rolling next : Rolling} {failed : List Int}

theorem batch_append_rest : rolling.batch settings ++ rolling.rest settings = rolling.instances :=
  List.take_append_drop _ _

theorem mem_instances {instance_ : Int} : instance_ ∈ rolling.instances ↔
    instance_ ∈ rolling.batch settings ∨ instance_ ∈ rolling.rest settings := by
  rw [← List.mem_append, batch_append_rest]

/-- Every instance waits for its restart or was healthy at its last watch, and only requested ones wait. -/
structure Sound (initial rolling : Rolling) : Prop where
  waiting : ∀ instance_ ∈ initial.instances,
    instance_ ∈ rolling.instances ∨ LastHealthy rolling.batches instance_
  requested : rolling.instances ⊆ initial.instances
  answered : ∀ response ∈ rolling.response, response.responseCode = .ok
  last : rolling.batches ≠ [] → (rolling.response.isSome = true ∧ (rolling.threshold.isFailedUpdate = true →
    ∃ instance_ ∈ initial.instances, ¬ LastHealthy rolling.batches instance_))

theorem Sound.advance (sound : Sound initial rolling) (advanced : Advanced settings rolling next failed) :
    Sound initial next := by
  obtain ⟨response, answered, accepted⟩ := advanced.response
  refine ⟨fun instance_ asked => ?_, fun instance_ mem => ?_, fun other found => ?_, fun _ => ⟨?_, fun broken => ?_⟩⟩
  · rw [advanced.instances, advanced.batches]
    by_cases inside : instance_ ∈ rolling.batch settings
    · by_cases ill : instance_ ∈ failed
      · exact .inl (List.mem_append_right _ ill)
      · exact .inr ⟨rolling.batches, _, _, [], rfl, inside, ill, fun _ mem => absurd mem List.not_mem_nil⟩
    · rcases sound.waiting instance_ asked with waits | healthy
      · have later := (mem_instances.mp waits).resolve_left inside
        exact .inl (List.mem_append_left _ later)
      · exact .inr (healthy.append inside)
  · rw [advanced.instances] at mem
    rcases List.mem_append.mp mem with mem | mem
    · exact sound.requested (mem_instances.mpr (.inr mem))
    · exact sound.requested (mem_instances.mpr (.inl (advanced.watched mem)))
  · rw [answered] at found
    exact Option.some.inj found ▸ accepted
  · rw [answered]
    rfl
  · have going := advanced.going
    rw [Rolling.going, Bool.and_eq_true, Bool.not_eq_true', Bool.not_eq_true'] at going
    rw [advanced.threshold] at broken
    rcases failed with _ | ⟨instance_, others⟩
    · exact absurd (broken.symm.trans going.2) (by simp)
    · have inside := advanced.watched (List.mem_cons_self : instance_ ∈ instance_ :: others)
      refine ⟨instance_, sound.requested (mem_instances.mpr (.inl inside)), ?_⟩
      rw [advanced.batches]
      exact not_lastHealthy inside List.mem_cons_self

theorem sound_start (instances : List Int) : Sound (start settings instances) (start settings instances) :=
  ⟨fun _ asked => .inl asked, fun _ mem => mem, fun _ found => absurd found (Option.not_mem_none _),
    fun some_batch => absurd rfl some_batch⟩

theorem made_sound {instances : List Int} {count : Nat}
    (reached : made settings rounds (start settings instances) count = some rolling) :
    Sound (start settings instances) rolling :=
  made_invariant (sound_start instances) (fun _ _ _ sound advanced => sound.advance advanced) reached

theorem made_batches {count : Nat} (reached : made settings rounds initial (count + 1) = some rolling) :
    rolling.batches ≠ [] := by
  obtain ⟨before, failed, -, advanced⟩ := made_succ reached
  simp [advanced.batches]

end Healthy

section Report

variable (settings : RestartSettings) (status : SchedulerResponse) (instances : List Int) (rounds : Nat → Round)

/-- OK after a restart means that every requested instance was restarted and healthy at its last watch. -/
def Honest : Prop :=
  ∀ fuel response batches, restart settings status instances rounds fuel = some (.returned response, batches) →
    response.responseCode = .ok → batches ≠ [] → ∀ instance_ ∈ requested status instances, LastHealthy batches instance_

variable {settings status instances rounds} {rolling : Rolling}

theorem restart_of_made {count : Nat} (accepted : status.responseCode = .ok)
    (reached : made settings rounds (start settings (requested status instances)) (count + 1) = some rolling)
    (stopped : rolling.going = false) :
    ∃ response, response.responseCode = .ok ∧
      restart settings status instances rounds (count + 2) = some (.returned response, rolling.batches) := by
  have some_asked : requested status instances ≠ [] := by
    intro none_asked
    obtain ⟨first, reached'⟩ : ∃ first, made settings rounds (start settings (requested status instances)) 1 = some first := by
      clear stopped
      induction count generalizing rolling with
      | zero => exact ⟨rolling, reached⟩
      | succ count ih =>
        obtain ⟨before, reached⟩ := made_of_succ reached
        exact ih reached
    obtain ⟨before, failed, start_eq, advanced⟩ := made_succ reached'
    have going := advanced.going
    rw [← Option.some.inj start_eq, none_asked] at going
    cases going
  have sound := made_sound reached
  obtain ⟨response, answered⟩ := Option.isSome_iff_exists.mp (sound.last (made_batches reached)).1
  obtain ⟨first, start_eq, ended⟩ := loop_of_made reached stopped (count + 1) le_rfl
  rw [Nat.sub_self] at start_eq ended
  obtain rfl := Option.some.inj start_eq
  refine ⟨response, sound.answered response answered, ?_⟩
  rw [restart, if_neg (not_not.mpr accepted), if_neg some_asked, ended, answered]
  rfl

theorem restart_ok {fuel : Nat} {response : SchedulerResponse} {batches : List (List Int × List Int)}
    (ended : restart settings status instances rounds fuel = some (.returned response, batches))
    (accepted : response.responseCode = .ok) (some_batch : batches ≠ []) :
    status.responseCode = .ok ∧ ∃ count rolling, made settings rounds (start settings (requested status instances))
      (count + 1) = some rolling ∧ rolling.going = false ∧ rolling.batches = batches := by
  unfold restart at ended
  split at ended
  · exact absurd (congrArg Prod.snd (Option.some.inj ended)).symm some_batch
  · next status_ok =>
    split at ended
    · exact absurd (congrArg Prod.snd (Option.some.inj ended)).symm some_batch
    · rw [Option.map_eq_some_iff] at ended
      obtain ⟨⟨how, final⟩, looped, same⟩ := ended
      obtain ⟨rfl, rfl⟩ : how = .returned response ∧ final.batches = batches := by simpa using same
      have begun : made settings rounds (start settings (requested status instances)) 0 =
          some (start settings (requested status instances)) := rfl
      obtain ⟨last, reached, ⟨stopped, -⟩ | failed⟩ := loop_ended begun looped
      · cases last with
        | zero =>
          rw [← Option.some.inj reached] at some_batch
          exact absurd rfl some_batch
        | succ count => exact ⟨not_not.mp status_ok, count, final, reached, stopped, rfl⟩
      · unfold Rolling.advance at failed
        split at failed
        · next refused =>
          obtain rfl : (rounds last).response = response := by simpa using failed
          exact absurd accepted refused
        · split at failed <;> cases failed

end Report

/-- The report of a restart is honest just when no watch takes the failures over what is tolerated. -/
theorem restart_honest_iff (settings : RestartSettings) (status : SchedulerResponse) (instances : List Int)
    (rounds : Nat → Round) :
    Honest settings status instances rounds ↔ (status.responseCode = .ok →
      ∀ count rolling, made settings rounds (start settings (requested status instances)) (count + 1) = some rolling →
        rolling.threshold.isFailedUpdate = false) := by
  constructor
  · intro honest accepted count rolling reached
    by_contra broken
    rw [Bool.not_eq_false] at broken
    have stopped : rolling.going = false := by simp [Rolling.going, broken]
    obtain ⟨response, response_ok, ended⟩ := restart_of_made accepted reached stopped
    have batches := made_batches reached
    obtain ⟨instance_, asked, ill⟩ := ((made_sound reached).last batches).2 broken
    exact ill (honest _ response _ ended response_ok batches instance_ asked)
  · intro tolerated fuel response batches ended accepted some_batch instance_ asked
    obtain ⟨status_ok, count, rolling, reached, stopped, rfl⟩ := restart_ok ended accepted some_batch
    refine ((made_sound reached).waiting instance_ asked).resolve_left fun waits => ?_
    have none_left : rolling.instances = [] := by
      simpa [Rolling.going, tolerated status_ok count rolling reached] using stopped
    rw [none_left] at waits
    exact List.not_mem_nil waits

/-- The scheduler accepts the batch, and the watch finds its first instance failed. -/
def failingRound : Round where
  response := {}
  watch := fun batch => some (batch.take 1)
  distinct := fun batch failed found => by
    obtain rfl := Option.some.inj found
    cases batch <;> simp
  watched := fun batch failed found => by
    obtain rfl := Option.some.inj found
    exact List.take_subset 1 batch

theorem restart_dishonest : ¬ Honest ⟨1, 0, 0⟩ {} [0] fun _ => failingRound := by
  intro honest
  have healthy := honest 2 {} [([0], [0])] (by decide +kernel) rfl (by decide) 0 (by decide)
  exact not_lastHealthy (by decide) (by decide) (show LastHealthy ([] ++ [([0], [0])]) 0 from healthy)

end Aurora.Client.Restarter
