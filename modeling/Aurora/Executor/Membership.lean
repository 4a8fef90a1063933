import Aurora.Executor.Announcer
import Aurora.Library.Transition

namespace Aurora.Executor.Announcing

open Transition

variable {world next : World}

def World.Live (world : World) : Prop := ∃ membership ∈ world.live, world.announcer.membership = some membership

/-- The thread is at a place where it sees the event later. -/
def World.Resting (world : World) : Prop :=
  world.joiner = .top ∨ world.joiner = .waiting ∨ world.joiner = .settling

def World.Called (world : World) : Prop := world.announcer.rejoinEvent = true ∨ world.expiries ≠ []

/-- The thread has taken the event up, and is not yet done with the join. -/
def World.Joining (world : World) : Prop :=
  match world.joiner with
  | .clearing | .entering | .attempting | .sleeping | .recording _ => True
  | .top | .waiting | .settling | .ended | .raised => False

/-- The event is set or will be, and there is a thread to see it. -/
def World.Pending (world : World) : Prop :=
  world.joiner ≠ .ended ∧ world.joiner ≠ .raised ∧ world.Called

structure World.Good (world : World) : Prop where
  cancelled : world.stopper = .returned → world.live = ∅
  covered : world.stopper = .uncalled → world.Live ∨ world.Joining ∨ world.Pending

/-- The steps that do not lead into the announcer's races, or into what it makes of a refused join or a refused
    cancellation. -/
def World.Allowed (world : World) : Event → Prop
  | .thread => world.stopper = .uncalled →
      -- `_join` is not entered with a membership that is no longer joined, or never was
      (world.joiner = .entering → ∀ membership, world.announcer.membership = some membership →
        membership ∈ world.live) ∧
      -- `Membership.error()` is recorded only while a further join is due
      (world.joiner = .recording .error → world.Called)
  -- no session expires once the thread has raised
  | .expire _ => world.stopper = .uncalled → world.joiner ≠ .raised
  -- when `stop` finds no membership, no join is still to be recorded
  | .stop => world.stopper = .signalled → world.announcer.membership = none →
      ∀ membership, world.joiner = .recording membership → membership ∉ world.live
  -- no cancellation of a membership is refused
  | .uncancelled => ∀ membership, world.announcer.membership = some membership → membership ∉ world.live
  -- no join succeeds after that
  | .joined => world.stopper ≠ .returned
  | .failed | .refused | .callback _ _ | .rejoin => True

structure World.Inv (world : World) : Prop where
  uncalled : world.stopper = .uncalled → world.announcer.thread = true ∧ world.stopped = false
  unstopped : world.stopped = false → world.joiner ≠ .ended
  unjoined : .error ∉ world.live
  known : ∀ membership ∈ world.live,
    world.joiner = .recording membership ∨ world.announcer.membership = some membership
  unrecorded : world.joiner = .attempting ∨ world.joiner = .sleeping ∨ (∃ membership, world.joiner = .recording membership) →
    world.announcer.membership = none
  clears : world.expiries.count .clear ≤ 1
  expired : .clear ∈ world.expiries → ∃ membership, membership ∉ world.live ∧
    (world.joiner = .recording membership ∨ world.announcer.membership = some membership)
  joined : world.stopper = .uncalled → ∀ number, world.joiner = .recording (.joined number) →
    .joined number ∈ world.live ∨ world.Called

theorem inv_start (now : ℚ) : (start now).Inv where
  uncalled _ := ⟨rfl, rfl⟩
  unstopped _ := by simp [start]
  unjoined := by simp [start]
  known := by simp [start]
  unrecorded := by simp [start, rejoin]
  clears := by simp [start]
  expired := by simp [start]
  joined := by simp [start]

theorem World.Inv.unique (inv : world.Inv) {membership other : Membership} (live : membership ∈ world.live)
    (named : world.joiner = .recording other ∨ world.announcer.membership = some other) : membership = other := by
  rcases inv.known membership live with recording | recorded
  · rcases named with recording' | recorded'
    · rw [recording] at recording'
      exact Joiner.recording.inj recording'
    · rw [inv.unrecorded (.inr (.inr ⟨_, recording⟩))] at recorded'
      cases recorded'
  · rcases named with recording' | recorded'
    · rw [inv.unrecorded (.inr (.inr ⟨_, recording'⟩))] at recorded
      cases recorded
    · rw [recorded] at recorded'
      exact Option.some.inj recorded'

theorem World.Inv.no_clear (inv : world.Inv) {membership : Membership} (live : membership ∈ world.live) :
    .clear ∉ world.expiries := by
  intro clear
  obtain ⟨other, gone, named⟩ := inv.expired clear
  rw [inv.unique live named] at live
  exact gone live

theorem inv_expire (inv : world.Inv) {membership : Membership} (taken : world.step (.expire membership) = some next) :
    next.Inv := by
  simp only [World.step] at taken
  split at taken
  · rename_i live
    cases taken
    have none := inv.no_clear live
    exact {
      uncalled := inv.uncalled
      unstopped := inv.unstopped
      unjoined := fun member => inv.unjoined (Finset.mem_of_mem_erase member)
      known := fun other member => inv.known other (Finset.mem_of_mem_erase member)
      unrecorded := inv.unrecorded
      clears := by
        simp [List.count_eq_zero_of_not_mem none]
      expired := fun _ => ⟨membership, by simp, inv.known membership live⟩
      joined := fun _ _ _ => .inr (.inr (by simp)) }
  · cases taken

theorem World.Inv.attempting (inv : world.Inv) (attempting : world.joiner = .attempting) :
    world.live = ∅ ∧ .clear ∉ world.expiries := by
  have unnamed : ∀ membership,
      ¬ (world.joiner = .recording membership ∨ world.announcer.membership = some membership) := by
    intro membership named
    rw [attempting, inv.unrecorded (.inl attempting)] at named
    simp at named
  constructor
  · rw [Finset.eq_empty_iff_forall_notMem]
    exact fun membership live => unnamed membership (inv.known membership live)
  · intro clear
    obtain ⟨membership, -, named⟩ := inv.expired clear
    exact unnamed membership named

theorem inv_joined (inv : world.Inv) (taken : world.step .joined = some next) : next.Inv := by
  simp only [World.step] at taken
  split at taken
  · rename_i attempting
    cases taken
    obtain ⟨empty, none⟩ := inv.attempting attempting
    exact {
      uncalled := inv.uncalled
      unstopped := by simp
      unjoined := by simp [empty]
      known := by simp [empty]
      unrecorded := fun _ => inv.unrecorded (.inl attempting)
      clears := inv.clears
      expired := fun clear => absurd clear none
      joined := by simp }
  · cases taken

theorem inv_refused (inv : world.Inv) (taken : world.step .refused = some next) : next.Inv := by
  simp only [World.step] at taken
  split at taken
  · rename_i attempting
    cases taken
    obtain ⟨empty, none⟩ := inv.attempting attempting
    exact {
      uncalled := inv.uncalled
      unstopped := by simp
      unjoined := by simp [empty]
      known := by simp [empty]
      unrecorded := fun _ => inv.unrecorded (.inl attempting)
      clears := inv.clears
      expired := fun clear => absurd clear none
      joined := by simp }
  · cases taken

theorem inv_failed (inv : world.Inv) (taken : world.step .failed = some next) : next.Inv := by
  simp only [World.step] at taken
  split at taken
  · rename_i attempting
    cases taken
    have unrecorded := inv.unrecorded (.inl attempting)
    exact {
      uncalled := inv.uncalled
      unstopped := by simp
      unjoined := inv.unjoined
      known := by simpa [attempting] using inv.known
      unrecorded := fun _ => unrecorded
      clears := inv.clears
      expired := by simpa [attempting] using inv.expired
      joined := by simp }
  · cases taken

theorem inv_rejoin (inv : world.Inv) (taken : world.step .rejoin = some next) : next.Inv := by
  cases taken
  exact { inv with joined := fun _ _ _ => .inr (.inl rfl) }

theorem World.Inv.move (inv : world.Inv) {announcer : Announcer} {joiner : Joiner}
    (membership : announcer.membership = world.announcer.membership) (thread : announcer.thread = world.announcer.thread)
    (before : ∀ membership, world.joiner ≠ .recording membership) (after : ∀ membership, joiner ≠ .recording membership)
    (unstopped : world.stopped = false → joiner ≠ .ended)
    (unrecorded : joiner = .attempting ∨ joiner = .sleeping → world.announcer.membership = none) :
    { world with
      announcer := announcer
      joiner := joiner }.Inv where
  uncalled := by simpa [thread] using inv.uncalled
  unstopped := unstopped
  unjoined := inv.unjoined
  known m member := .inr (by rw [membership]; exact (inv.known m member).resolve_left (before m))
  unrecorded := by
    rintro (attempting | sleeping | ⟨m, recording⟩)
    · exact membership.trans (unrecorded (.inl attempting))
    · exact membership.trans (unrecorded (.inr sleeping))
    · exact absurd recording (after m)
  clears := inv.clears
  expired clear := by
    obtain ⟨m, gone, named⟩ := inv.expired clear
    exact ⟨m, gone, .inr (by rw [membership]; exact named.resolve_left (before m))⟩
  joined _ number recording := absurd recording (after _)

theorem inv_thread (inv : world.Inv) (taken : world.step .thread = some next) : next.Inv := by
  simp only [World.step, World.threadStep] at taken
  cases place : world.joiner with
  | top =>
    simp only [place] at taken
    cases taken
    apply inv.move rfl rfl (by simp [place])
    · split <;> simp
    · intro running
      simp [running]
    · split <;> simp
  | waiting =>
    simp only [place] at taken
    cases taken
    apply inv.move rfl rfl (by simp [place])
    · split <;> simp
    · split <;> simp
    · split <;> simp
  | clearing =>
    simp only [place] at taken
    cases taken
    exact inv.move rfl rfl (by simp [place]) (by simp) (by simp) (by simp)
  | entering =>
    simp only [place] at taken
    cases taken
    apply inv.move rfl rfl (by simp [place])
    · split <;> simp
    · split <;> simp
    · split
      · simp
      · rename_i none
        simpa using none
  | attempting =>
    simp only [place] at taken
    cases taken
  | sleeping =>
    simp only [place] at taken
    cases taken
    have unrecorded := inv.unrecorded (.inr (.inl place))
    exact inv.move rfl rfl (by simp [place]) (by simp) (by simp) fun _ => unrecorded
  | recording membership =>
    simp only [place] at taken
    cases taken
    have unrecorded := inv.unrecorded (.inr (.inr ⟨_, place⟩))
    exact {
      uncalled := inv.uncalled
      unstopped := by simp
      unjoined := inv.unjoined
      known := fun other member => .inr (by rw [inv.unique member (.inl place)])
      unrecorded := by simp
      clears := inv.clears
      expired := by
        intro clear
        obtain ⟨other, gone, named⟩ := inv.expired clear
        rw [place, unrecorded] at named
        exact ⟨other, gone, .inr (by simpa using named)⟩
      joined := by simp }
  | settling =>
    simp only [place] at taken
    cases taken
    exact inv.move rfl rfl (by simp [place]) (by simp) (by simp) (by simp)
  | ended =>
    simp only [place] at taken
    cases taken
  | raised =>
    simp only [place] at taken
    cases taken

theorem callback_cases {index : Nat} {now : ℚ} (taken : world.step (.callback index now) = some next) :
    ∃ front expiry back, world.expiries = front ++ expiry :: back ∧ next = { world with
      announcer := (onExpiration world.announcer now expiry).1
      expiries := front ++ (onExpiration world.announcer now expiry).2.toList ++ back } := by
  simp only [World.step, World.callbackStep, Option.map_eq_some_iff] at taken
  obtain ⟨expiry, found, rfl⟩ := taken
  obtain ⟨bound, rfl⟩ := List.getElem?_eq_some_iff.mp found
  exact ⟨_, _, _, (List.take_append_drop index world.expiries).symm.trans (by rw [List.drop_eq_getElem_cons bound]), rfl⟩

/-- A call of `on_expiration` goes on, past the statement that clears the membership. -/
theorem World.Inv.handle (inv : world.Inv) {announcer : Announcer} {expiries : List Expiry}
    (membership : announcer.membership = world.announcer.membership) (thread : announcer.thread = world.announcer.thread)
    (clears : expiries.count .clear = world.expiries.count .clear)
    (pending : world.stopper = .uncalled → announcer.rejoinEvent = true ∨ expiries ≠ []) :
    { world with
      announcer := announcer
      expiries := expiries }.Inv where
  uncalled := by simpa [thread] using inv.uncalled
  unstopped := inv.unstopped
  unjoined := inv.unjoined
  known := by simpa [membership] using inv.known
  unrecorded := by simpa [membership] using inv.unrecorded
  clears := clears ▸ inv.clears
  expired clear := by
    have cleared : .clear ∈ world.expiries := by
      rw [← List.count_pos_iff] at clear ⊢
      rwa [← clears]
    simpa [membership] using inv.expired cleared
  joined uncalled _ _ := .inr (pending uncalled)

theorem inv_callback (inv : world.Inv) {index : Nat} {now : ℚ} (taken : world.step (.callback index now) = some next) :
    next.Inv := by
  obtain ⟨front, expiry, back, split, rfl⟩ := callback_cases taken
  cases expiry with
  | clear =>
    obtain ⟨membership, gone, named⟩ := inv.expired (by simp [split])
    have empty : world.live = ∅ := by
      rw [Finset.eq_empty_iff_forall_notMem]
      intro other live
      rw [inv.unique live named] at live
      exact gone live
    have none : .clear ∉ front ++ [Expiry.look] ++ back := by
      have once := inv.clears
      rw [split, List.count_append, List.count_cons_self] at once
      rw [← List.count_eq_zero]
      simp only [List.count_append, List.count_singleton]
      simp
      omega
    exact {
      uncalled := inv.uncalled
      unstopped := inv.unstopped
      unjoined := by simp [empty]
      known := by simp [empty]
      unrecorded := fun _ => rfl
      clears := (List.count_eq_zero_of_not_mem none).trans_le (Nat.zero_le 1)
      expired := fun clear => absurd clear none
      joined := fun _ _ _ => .inr (.inr (by simp [onExpiration])) }
  | look =>
    apply inv.handle
    · rfl
    · rfl
    · rw [split]
      simp only [onExpiration]
      split <;> simp
    · intro uncalled
      simp [onExpiration, (inv.uncalled uncalled).1]
  | mark =>
    apply inv.handle
    · rfl
    · rfl
    · rw [split]
      simp [onExpiration]
    · intro _
      simp [onExpiration]
  | rejoin =>
    apply inv.handle
    · rfl
    · rfl
    · rw [split]
      simp [onExpiration]
    · intro _
      exact .inl rfl

theorem World.Inv.stop (inv : world.Inv) {announcer : Announcer} {stopped : Bool} {stopper : Stopper}
    {live : Finset Membership} (membership : announcer.membership = world.announcer.membership)
    (unstopped : stopped = false → world.stopped = false) (called : stopper ≠ .uncalled) (fewer : live ⊆ world.live) :
    { world with
      announcer := announcer
      stopped := stopped
      stopper := stopper
      live := live }.Inv where
  uncalled uncalled := absurd uncalled called
  unstopped running := inv.unstopped (unstopped running)
  unjoined member := inv.unjoined (fewer member)
  known m member := by simpa [membership] using inv.known m (fewer member)
  unrecorded := by simpa [membership] using inv.unrecorded
  clears := inv.clears
  expired clear := by
    obtain ⟨m, gone, named⟩ := inv.expired clear
    exact ⟨m, fun member => gone (fewer member), by simpa [membership] using named⟩
  joined uncalled := absurd uncalled called

theorem inv_stop (inv : world.Inv) (taken : world.step .stop = some next) : next.Inv := by
  simp only [World.step, World.stopStep] at taken
  cases called : world.stopper with
  | uncalled =>
    simp only [called] at taken
    cases taken
    exact inv.stop rfl id (by simp) subset_rfl
  | swapped =>
    simp only [called] at taken
    cases taken
    exact inv.stop rfl (by simp) (by simp) subset_rfl
  | signalled =>
    simp only [called] at taken
    cases taken
    exact inv.stop rfl id (by split <;> simp) subset_rfl
  | cancelling =>
    simp only [called] at taken
    split at taken
    · cases taken
      exact inv.stop rfl id (by simp) (Finset.erase_subset _ _)
    · cases taken
      exact inv.stop rfl id (by simp) subset_rfl
  | returned =>
    simp only [called] at taken
    cases taken
  | raised =>
    simp only [called] at taken
    cases taken

theorem inv_uncancelled (inv : world.Inv) (taken : world.step .uncancelled = some next) : next.Inv := by
  simp only [World.step] at taken
  split at taken
  · cases taken
    exact inv.stop rfl id (by simp) subset_rfl
  · cases taken

theorem inv_step (inv : world.Inv) {event : Event} (taken : world.step event = some next) : next.Inv := by
  cases event with
  | thread => exact inv_thread inv taken
  | joined => exact inv_joined inv taken
  | failed => exact inv_failed inv taken
  | refused => exact inv_refused inv taken
  | expire membership => exact inv_expire inv taken
  | callback index now => exact inv_callback inv taken
  | rejoin => exact inv_rejoin inv taken
  | stop => exact inv_stop inv taken
  | uncancelled => exact inv_uncancelled inv taken

/-- Where the thread is decides what is left to show of a membership that is not joined. -/
theorem good_iff (inv : world.Inv) :
    world.Good ↔ (world.stopper = .returned → world.live = ∅) ∧ (world.stopper = .uncalled →
      (world.joiner = .raised → world.Live) ∧ (world.Resting → world.Live ∨ world.Called)) := by
  constructor
  · rintro ⟨cancelled, covered⟩
    refine ⟨cancelled, fun uncalled => ⟨fun raised => ?_, fun resting => ?_⟩⟩
    · rcases covered uncalled with live | joining | pending
      · exact live
      · simp [World.Joining, raised] at joining
      · exact absurd raised pending.2.1
    · rcases covered uncalled with live | joining | pending
      · exact .inl live
      · rcases resting with place | place | place <;> simp [World.Joining, place] at joining
      · exact .inr pending.2.2
  · rintro ⟨cancelled, covered⟩
    refine ⟨cancelled, fun uncalled => ?_⟩
    obtain ⟨raised, resting⟩ := covered uncalled
    have unended := inv.unstopped (inv.uncalled uncalled).2
    have seen : world.joiner ≠ .raised → world.Resting → world.Live ∨ world.Joining ∨ world.Pending :=
      fun going place => (resting place).imp_right fun called => .inr ⟨unended, going, called⟩
    cases place : world.joiner with
    | top => exact seen (by simp [place]) (.inl place)
    | waiting => exact seen (by simp [place]) (.inr (.inl place))
    | settling => exact seen (by simp [place]) (.inr (.inr place))
    | clearing => exact .inr (.inl (by simp [World.Joining, place]))
    | entering => exact .inr (.inl (by simp [World.Joining, place]))
    | attempting => exact .inr (.inl (by simp [World.Joining, place]))
    | sleeping => exact .inr (.inl (by simp [World.Joining, place]))
    | recording membership => exact .inr (.inl (by simp [World.Joining, place]))
    | ended => exact absurd place unended
    | raised => exact .inl (raised place)

theorem allowed_thread (inv : world.Inv) (good : world.Good) (taken : world.step .thread = some next) :
    next.Good ↔ world.Allowed .thread := by
  rw [good_iff (inv_thread inv taken)]
  obtain ⟨cancelled, covered⟩ := (good_iff inv).mp good
  simp only [World.step, World.threadStep] at taken
  cases place : world.joiner with
  | entering =>
    simp only [place] at taken
    cases taken
    cases recorded : world.announcer.membership with
    | none => simpa [World.Allowed, World.Resting, place, recorded] using cancelled
    | some membership => simpa [World.Allowed, World.Resting, World.Live, place, recorded] using fun _ => cancelled
  | top =>
    simp only [place] at taken
    cases taken
    refine iff_of_true ⟨cancelled, fun uncalled => ?_⟩ (by simp [World.Allowed, place])
    have running := (inv.uncalled uncalled).2
    exact ⟨by simp [running], fun _ => (covered uncalled).2 (.inl place)⟩
  | waiting =>
    simp only [place] at taken
    cases taken
    refine iff_of_true ⟨cancelled, fun uncalled => ⟨?_, fun _ => ?_⟩⟩ (by simp [World.Allowed, place])
    · split <;> simp
    · exact (covered uncalled).2 (.inr (.inl place))
  | clearing =>
    simp only [place] at taken
    cases taken
    exact iff_of_true ⟨cancelled, fun _ => by simp [World.Resting]⟩ (by simp [World.Allowed, place])
  | attempting =>
    simp only [place] at taken
    cases taken
  | sleeping =>
    simp only [place] at taken
    cases taken
    exact iff_of_true ⟨cancelled, fun _ => by simp [World.Resting]⟩ (by simp [World.Allowed, place])
  | recording membership =>
    simp only [place] at taken
    cases taken
    cases membership with
    | error =>
      have dead : .error ∉ world.live := inv.unjoined
      simpa [World.Allowed, World.Resting, World.Live, World.Called, place, dead] using fun _ => cancelled
    | joined number =>
      refine iff_of_true ⟨cancelled, fun uncalled => ⟨by simp, fun _ => ?_⟩⟩ (by simp [World.Allowed, place])
      exact (inv.joined uncalled number place).imp_left fun live => ⟨_, live, rfl⟩
  | settling =>
    simp only [place] at taken
    cases taken
    refine iff_of_true ⟨cancelled, fun uncalled => ⟨by simp, fun _ => ?_⟩⟩ (by simp [World.Allowed, place])
    exact (covered uncalled).2 (.inr (.inr place))
  | ended =>
    simp only [place] at taken
    cases taken
  | raised =>
    simp only [place] at taken
    cases taken

theorem allowed_joined (inv : world.Inv) (taken : world.step .joined = some next) :
    next.Good ↔ world.Allowed .joined := by
  rw [good_iff (inv_joined inv taken)]
  simp only [World.step] at taken
  split at taken
  · cases taken
    simp [World.Allowed, World.Resting]
  · cases taken

theorem good_failed (inv : world.Inv) (good : world.Good) (taken : world.step .failed = some next) : next.Good := by
  rw [good_iff (inv_failed inv taken)]
  simp only [World.step] at taken
  split at taken
  · cases taken
    exact ⟨good.cancelled, by simp [World.Resting]⟩
  · cases taken

theorem good_refused (inv : world.Inv) (good : world.Good) (taken : world.step .refused = some next) : next.Good := by
  rw [good_iff (inv_refused inv taken)]
  simp only [World.step] at taken
  split at taken
  · cases taken
    exact ⟨good.cancelled, by simp [World.Resting]⟩
  · cases taken

theorem good_rejoin (inv : world.Inv) (good : world.Good) (taken : world.step .rejoin = some next) : next.Good := by
  rw [good_iff (inv_rejoin inv taken)]
  obtain ⟨cancelled, covered⟩ := (good_iff inv).mp good
  cases taken
  exact ⟨cancelled, fun uncalled => ⟨(covered uncalled).1, fun _ => .inr (.inl rfl)⟩⟩

theorem allowed_expire (inv : world.Inv) (good : world.Good) {membership : Membership}
    (taken : world.step (.expire membership) = some next) : next.Good ↔ world.Allowed (.expire membership) := by
  rw [good_iff (inv_expire inv taken)]
  simp only [World.step] at taken
  split at taken
  · rename_i live
    cases taken
    have nothingLive : ¬ World.Live { world with
        live := world.live.erase membership
        expiries := world.expiries ++ [.clear] } := by
      rintro ⟨other, member, recorded⟩
      obtain ⟨different, member⟩ := Finset.mem_erase.mp member
      exact different (inv.unique live (.inr recorded)).symm
    have unreturned : world.stopper ≠ .returned := by
      intro returned
      rw [good.cancelled returned] at live
      cases live
    simp [World.Allowed, World.Called, nothingLive, unreturned]
  · cases taken

theorem good_callback (inv : world.Inv) (good : world.Good) {index : Nat} {now : ℚ}
    (taken : world.step (.callback index now) = some next) : next.Good := by
  rw [good_iff (inv_callback inv taken)]
  obtain ⟨front, expiry, back, split, rfl⟩ := callback_cases taken
  refine ⟨good.cancelled, fun uncalled => ⟨fun raised => ?_, fun _ => ?_⟩⟩
  · obtain ⟨membership, live, recorded⟩ := (((good_iff inv).mp good).2 uncalled).1 raised
    have none := inv.no_clear live
    refine ⟨membership, live, ?_⟩
    cases expiry with
    | clear => exact absurd (by simp [split]) none
    | look => exact recorded
    | mark => exact recorded
    | rejoin => exact recorded
  · cases expiry with
    | clear => exact .inr (.inr (by simp [onExpiration]))
    | look => exact .inr (.inr (by simp [onExpiration, (inv.uncalled uncalled).1]))
    | mark => exact .inr (.inr (by simp [onExpiration]))
    | rejoin => exact .inr (.inl rfl)

theorem live_unrecorded (inv : world.Inv) (unrecorded : world.announcer.membership = none) : world.live = ∅ ↔
    ∀ membership, world.joiner = .recording membership → membership ∉ world.live := by
  constructor
  · intro empty membership _
    simp [empty]
  · intro gone
    rw [Finset.eq_empty_iff_forall_notMem]
    intro membership live
    rcases inv.known membership live with recording | recorded
    · exact gone membership recording live
    · simp [unrecorded] at recorded

theorem live_recorded (inv : world.Inv) {membership : Membership}
    (recorded : world.announcer.membership = some membership) : world.live ⊆ {membership} := by
  intro other live
  rw [inv.unique live (.inr recorded), Finset.mem_singleton]

theorem allowed_stop (inv : world.Inv) (taken : world.step .stop = some next) :
    next.Good ↔ world.Allowed .stop := by
  rw [good_iff (inv_stop inv taken)]
  simp only [World.step, World.stopStep] at taken
  cases called : world.stopper with
  | uncalled =>
    simp only [called] at taken
    cases taken
    simp [World.Allowed, called]
  | swapped =>
    simp only [called] at taken
    cases taken
    simp [World.Allowed, called]
  | signalled =>
    simp only [called] at taken
    cases taken
    cases recorded : world.announcer.membership with
    | none =>
      have last := live_unrecorded inv recorded
      simpa [World.Allowed, called, recorded] using last
    | some membership => simp [World.Allowed, called, recorded]
  | cancelling =>
    simp only [called] at taken
    split at taken
    · rename_i membership recorded
      cases taken
      have none_left : world.live.erase membership = ∅ := by
        rw [Finset.erase_eq_empty_iff, ← Finset.subset_singleton_iff]
        exact live_recorded inv recorded
      simp [World.Allowed, called, none_left]
    · cases taken
      simp [World.Allowed, called]
  | returned =>
    simp only [called] at taken
    cases taken
  | raised =>
    simp only [called] at taken
    cases taken

theorem allowed_uncancelled (inv : world.Inv) (taken : world.step .uncancelled = some next) :
    next.Good ↔ world.Allowed .uncancelled := by
  rw [good_iff (inv_uncancelled inv taken)]
  simp only [World.step] at taken
  split at taken
  · rename_i answered
    obtain ⟨membership, recorded⟩ := Option.isSome_iff_exists.mp answered.2
    cases taken
    have last : world.live = ∅ ↔ membership ∉ world.live := by
      refine ⟨fun empty => by simp [empty], fun gone => ?_⟩
      rcases Finset.subset_singleton_iff.mp (live_recorded inv recorded) with empty | same
      · exact empty
      · simp [same] at gone
    simpa [World.Allowed, recorded] using last
  · cases taken

theorem allowed_step (inv : world.Inv) (good : world.Good) {event : Event} (taken : world.step event = some next) :
    next.Good ↔ world.Allowed event := by
  cases event with
  | thread => exact allowed_thread inv good taken
  | joined => exact allowed_joined inv taken
  | failed => exact iff_of_true (good_failed inv good taken) trivial
  | refused => exact iff_of_true (good_refused inv good taken) trivial
  | expire membership => exact allowed_expire inv good taken
  | callback index now => exact iff_of_true (good_callback inv good taken) trivial
  | rejoin => exact iff_of_true (good_rejoin inv good taken) trivial
  | stop => exact allowed_stop inv taken
  | uncancelled => exact allowed_uncancelled inv taken

/-- In any order of the steps, the membership is replaced and left just if each step is an allowed one. -/
theorem announcer_membership (now : ℚ) (events : List Event) {final : World}
    (ran : run World.step (start now) events = some final) :
    (∀ past world, past <+: events → run World.step (start now) past = some world → world.Good) ↔
      Along World.step World.Allowed (start now) events := by
  apply Along.iff_good (fun _ _ _ inv => inv_step inv) (fun _ _ _ inv good => allowed_step inv good) (inv_start now) _ ran
  exact (good_iff (inv_start now)).mpr ⟨by simp [start], fun _ => ⟨by simp [start], fun _ => .inr (.inl rfl)⟩⟩

def joining : List Event := [.thread, .thread, .thread, .thread, .joined]

theorem announcer_membership_left : ∃ world,
    run World.step (start 0) (joining ++ [.thread, .stop, .stop, .stop, .stop]) = some world ∧ world.Good := by
  have allowed : Along World.step World.Allowed (start 0) (joining ++ [.thread, .stop, .stop, .stop, .stop]) := by
    simp [joining, Along, World.step, World.threadStep, World.stopStep, World.Allowed, start, rejoin]
  refine ⟨_, rfl, ?_⟩
  exact (announcer_membership 0 _ rfl).mpr allowed _ _ List.prefix_rfl rfl

theorem not_good_of_raised (uncalled : world.stopper = .uncalled) (raised : world.joiner = .raised)
    (gone : world.live = ∅) : ¬ world.Good := by
  rintro ⟨-, covered⟩
  rcases covered uncalled with ⟨membership, live, -⟩ | joining | pending
  · simp [gone] at live
  · simp [World.Joining, raised] at joining
  · exact pending.2.1 raised

/-- A session that expires before its membership is recorded leaves a membership that is dead, and no thread to replace
    it; a join that `stop` does not wait for is left joined; and what a refused join returns is recorded. -/
theorem membership_races :
    (∃ world, run World.step (start 0) (joining ++ [.expire (.joined 0), .callback 0 1, .callback 0 1, .callback 0 1,
        .callback 0 1, .thread, .thread, .thread, .thread, .thread, .thread]) = some world ∧
        world.announcer.membership = some (.joined 0) ∧ world.stopper = .uncalled ∧ world.joiner = .raised ∧
        world.live = ∅ ∧ ¬ world.Good) ∧
      (∃ world, run World.step (start 0) [.thread, .thread, .thread, .thread, .stop, .stop, .stop, .joined] =
        some world ∧ world.stopper = .returned ∧ world.live = {.joined 0} ∧ ¬ world.Good) ∧
      ∃ world, run World.step (start 0) [.thread, .thread, .thread, .thread, .refused, .thread, .thread] = some world ∧
        world.announcer.membership = some .error ∧ world.stopper = .uncalled ∧ world.joiner = .top ∧
        world.live = ∅ ∧ ¬ world.Good := by
  refine ⟨?_, ?_, ?_⟩
  · refine ⟨_, rfl, rfl, rfl, rfl, ?_, ?_⟩
    · decide
    · exact not_good_of_raised rfl rfl (by decide)
  · refine ⟨_, rfl, rfl, ?_, ?_⟩
    · decide
    · intro good
      exact absurd (good.cancelled rfl) (by decide)
  · refine ⟨_, rfl, rfl, rfl, rfl, rfl, ?_⟩
    rintro ⟨-, covered⟩
    rcases covered rfl with ⟨membership, live, -⟩ | joining | ⟨-, -, event | going⟩
    · simp [start, rejoin] at live
    · exact joining
    · cases event
    · exact going rfl

end Aurora.Executor.Announcing
