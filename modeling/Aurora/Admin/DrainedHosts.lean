import Aurora.Admin.HostMaintenance
import Aurora.Library.Guarantee
import Aurora.Library.Replay

namespace Aurora.Admin

open Collections Client Guarantee Relation HostMaintenance

variable {Host κ : Type} [DecidableEq Host] [LinearOrder κ]

def reported (log : List (Event Host)) : List (Host × MaintenanceMode) :=
  log.flatMap fun event => match event with
    | .status _ statuses => statuses
    | _ => []

def lastStatus (log : List (Event Host)) (host : Host) : Option MaintenanceMode :=
  (((reported log).filter fun status => status.1 = host).getLast?).map Prod.snd

/-- The host was last reported DRAINED, and it was checked and never marked unsafe. -/
structure DrainedSafe (log : List (Event Host)) (host : Host) : Prop where
  drained : lastStatus log host = some .drained
  checked : ∃ hosts unsafeHosts, .checked hosts unsafeHosts ∈ log ∧ host ∈ hosts
  safe : ∀ hosts unsafeHosts, .checked hosts unsafeHosts ∈ log → host ∉ unsafeHosts

/-- The callback has run on drained and safe hosts only. -/
def CalledSafely (log : List (Event Host)) : Prop :=
  ∀ before host after, log = before ++ .called host :: after → DrainedSafe before host

/-- Each status response reports every host that was asked about. -/
def Answered (log : List (Event Host)) : Prop :=
  ∀ asked statuses, .status asked statuses ∈ log → ∀ host ∈ asked, ∃ mode, (host, mode) ∈ statuses

/-- The log grows, and the callback keeps to drained and safe hosts as long as hosts are answered for. -/
structure Grows (before after : Maintenance Host) : Prop where
  longer : before.log <+: after.log
  called : Answered after.log → CalledSafely before.log → CalledSafely after.log

theorem Answered.before {before after : Maintenance Host} (reached : ReflTransGen Grows before after)
    (answered : Answered after.log) : Answered before.log := by
  induction reached with
  | refl => exact answered
  | tail _ step ih =>
    apply ih
    intro asked statuses member
    exact answered asked statuses (step.longer.subset member)

theorem calledSafely_of_grows {before after : Maintenance Host} (reached : ReflTransGen Grows before after)
    (answered : Answered after.log) (safely : CalledSafely before.log) : CalledSafely after.log := by
  induction reached with
  | refl => exact safely
  | tail _ step ih => exact step.called answered (ih (answered.before (.single step)))

section Log

variable {log : List (Event Host)} {host : Host}

theorem calledSafely_snoc {event : Event Host} (safely : CalledSafely log)
    (called : ∀ host, event = .called host → DrainedSafe log host) : CalledSafely (log ++ [event]) := by
  intro before host after split
  rcases List.eq_nil_or_concat' after with rfl | ⟨earlier, last, rfl⟩
  · obtain ⟨rfl, same⟩ := List.append_inj' split rfl
    exact called host (List.singleton_inj.mp same)
  · rw [← List.cons_append, ← List.append_assoc] at split
    obtain ⟨same, -⟩ := List.append_inj' split rfl
    exact safely before host earlier same

theorem lastStatus_snoc (event : Event Host) (silent : ∀ asked statuses, event ≠ .status asked statuses) :
    lastStatus (log ++ [event]) host = lastStatus log host := by
  cases event with
  | status asked statuses => exact absurd rfl (silent asked statuses)
  | _ => simp [lastStatus, reported]

theorem lastStatus_status_of_not_mem (asked : List Host) (statuses : List (Host × MaintenanceMode))
    (unreported : ∀ mode, (host, mode) ∉ statuses) :
    lastStatus (log ++ [.status asked statuses]) host = lastStatus log host := by
  have none : statuses.filter (fun status => status.1 = host) = [] := by
    apply List.filter_eq_nil_iff.mpr
    rintro ⟨other, mode⟩ member same
    have same : other = host := by simpa using same
    exact unreported mode (same ▸ member)
  simp [lastStatus, reported, none]

theorem lastStatus_status_of_drained (asked : List Host) (statuses : List (Host × MaintenanceMode))
    (listed : ∃ mode, (host, mode) ∈ statuses) (drained : ∀ mode, (host, mode) ∈ statuses → mode = .drained) :
    lastStatus (log ++ [.status asked statuses]) host = some .drained := by
  obtain ⟨mode, member⟩ := listed
  have kept : (host, mode) ∈ statuses.filter fun status => status.1 = host := by simp [member]
  obtain ⟨last, ended⟩ := Option.isSome_iff_exists.mp (List.getLast?_isSome.mpr (List.ne_nil_of_mem kept))
  have found := List.mem_filter.mp (List.mem_of_getLast? ended)
  obtain ⟨name, state⟩ := last
  have same : name = host := by simpa using found.2
  subst same
  have state_drained : state = .drained := drained state found.1
  simp [lastStatus, reported, List.getLast?_append, ended, state_drained]

end Log

section Quiet

variable {α β : Type}

/-- Nothing is observed of the operation. -/
def Quiet (action : Operation Host α) : Prop := ∀ m, Within Grows action m fun _ after => after.log = m.log

theorem Quiet.pure (value : α) : Quiet (Pure.pure value : Operation Host α) := fun _ => Within.pure rfl

theorem Quiet.throw (e : MaintenanceError) : Quiet (MonadExcept.throw e : Operation Host α) := fun _ => Within.throw

theorem Quiet.bind {action : Operation Host α} {next : α → Operation Host β} (first : Quiet action)
    (rest : ∀ value, Quiet (next value)) : Quiet (action >>= next) := by
  intro m
  refine (first m).bind fun value middle _ same => ?_
  exact (rest value middle).weaken fun _ after _ later => later.trans same

theorem Quiet.ite {p : Prop} [Decidable p] {first second : Operation Host α} (yes : Quiet first) (no : Quiet second) :
    Quiet (if p then first else second) := by
  split
  · exact yes
  · exact no

theorem quiet_reply : Quiet (reply : Operation Host (Reply Host)) := by
  intro m
  have grows : ∀ rest, Grows m { m with replies := rest } := fun rest =>
    ⟨List.prefix_rfl, fun _ safely => safely⟩
  cases pending : m.replies with
  | nil =>
    have ran : (reply : Operation Host (Reply Host)).run m = .ok {} m := by simp only [reply, EStateM.run, pending]
    exact Within.ok ran .refl rfl
  | cons first rest =>
    have ran : (reply : Operation Host (Reply Host)).run m = .ok first { m with replies := rest } := by
      simp only [reply, EStateM.run, pending]
    exact Within.ok ran (.single (grows rest)) rfl

theorem quiet_checkAndLogResponse (response : Reply Host) :
    Quiet (checkAndLogResponse response : Operation Host Unit) :=
  Quiet.ite (Quiet.pure ()) (Quiet.throw _)

theorem quiet_getTasks : Quiet (getTasks : Operation Host (List (ScheduledTask Host))) :=
  quiet_reply.bind fun _ => Quiet.pure _

theorem quiet_getTasksWhen (wanted : Bool) :
    Quiet (getTasksWhen wanted : Operation Host (List (ScheduledTask Host))) :=
  Quiet.ite quiet_getTasks (Quiet.pure _)

theorem quiet_getDomainUptimeVector (cluster : String) (count : Int) (hosts : List Host) :
    Quiet (getDomainUptimeVector cluster count hosts) := by
  refine (quiet_getTasksWhen _).bind fun tasks => ?_
  refine (quiet_getTasksWhen _).bind fun jobTasks => ?_
  exact quiet_reply.bind fun _ => Quiet.pure _

end Quiet

section Observe

variable {m : Maintenance Host}

theorem within_observe (event : Event Host)
    (called : ∀ host, event = .called host → Answered m.log → DrainedSafe m.log host) :
    Within Grows (observe event) m fun _ after => after.log = m.log ++ [event] := by
  have grows : Grows m { m with log := m.log ++ [event] } := by
    refine ⟨List.prefix_append _ _, fun answered safely => calledSafely_snoc safely ?_⟩
    intro host same
    refine called host same ?_
    intro asked statuses member
    exact answered asked statuses (List.mem_append_left _ member)
  exact Within.modified (.single grows) rfl

theorem within_checkStatus (hostnames : List Host) :
    Within Grows (checkStatus hostnames) m fun statuses after => after.log = m.log ++ [.status hostnames statuses] := by
  refine (quiet_reply m).bind fun response first _ same => ?_
  refine (quiet_checkAndLogResponse response first).bind fun _ second _ same' => ?_
  refine (within_observe (.status hostnames response.statuses) fun _ impossible => by cases impossible).bind
    fun _ third _ logged => ?_
  rw [same', same] at logged
  split
  · exact Within.throw
  · exact Within.pure logged

theorem within_checkSla (cluster : String) (groupingFunction : Host → κ) (percentage duration : ℚ)
    (hostnames : List Host) :
    Within Grows (checkSla cluster groupingFunction percentage duration hostnames) m
      fun unsafeHosts after => after.log = m.log ++ [.checked hostnames unsafeHosts] := by
  refine (quiet_getDomainUptimeVector cluster _ hostnames m).bind fun vector first _ same => ?_
  refine (within_observe _ fun _ impossible => by cases impossible).bind fun _ second _ logged => ?_
  rw [same] at logged
  exact Within.pure logged

end Observe

/-- The hosts in question are DRAINED unless they are listed. -/
def Kept (done : Host → Prop) (notDrained : List Host) (log : List (Event Host)) : Prop :=
  ∀ host, done host → host ∉ notDrained → lastStatus log host = some .drained

def SameChecks (before after : List (Event Host)) : Prop :=
  ∀ hosts unsafeHosts, .checked hosts unsafeHosts ∈ after ↔ .checked hosts unsafeHosts ∈ before

section Drain

variable {m : Maintenance Host} {done : Host → Prop} {notDrained : List Host} {log : List (Event Host)}

theorem kept_of_answered (kept : Kept done notDrained log) (statuses : List (Host × MaintenanceMode))
    (answered : ∀ host ∈ notDrained, ∃ mode, (host, mode) ∈ statuses) :
    Kept done ((statuses.filter fun status => status.2 ≠ .drained).map Prod.fst).dedup
      (log ++ [.status notDrained statuses]) := by
  intro host within outside
  have drained : ∀ mode, (host, mode) ∈ statuses → mode = .drained := by
    intro mode member
    by_contra other
    apply outside
    rw [List.mem_dedup, List.mem_map]
    exact ⟨(host, mode), by simp [member, other], rfl⟩
  by_cases listed : ∃ mode, (host, mode) ∈ statuses
  · exact lastStatus_status_of_drained notDrained statuses listed drained
  · -- a host that the response leaves out was not asked about
    have unasked : host ∉ notDrained := fun asked => listed (answered host asked)
    rw [lastStatus_status_of_not_mem notDrained statuses fun mode member => listed ⟨mode, member⟩]
    exact kept host within unasked

theorem within_waitForDrained (rounds totalWait : Nat) (kept : Answered m.log → Kept done notDrained m.log) :
    Within Grows (waitForDrained rounds totalWait notDrained) m fun left after =>
      SameChecks m.log after.log ∧ (Answered after.log → Kept done left after.log) := by
  induction rounds generalizing totalWait notDrained m with
  | zero => exact Within.pure ⟨fun _ _ => Iff.rfl, kept⟩
  | succ rounds ih =>
    refine (quiet_reply m).bind fun response first _ same => ?_
    split
    · apply Within.pure
      rw [same]
      exact ⟨fun _ _ => Iff.rfl, kept⟩
    · refine (within_checkStatus notDrained).bind fun statuses second _ logged => ?_
      rw [same] at logged
      have checks : SameChecks m.log second.log := by
        intro hosts unsafeHosts
        simp [logged]
      have polled : Answered second.log →
          Kept done ((statuses.filter fun status => status.2 ≠ .drained).map Prod.fst).dedup second.log := by
        intro answered
        have earlier : Answered m.log := by
          intro asked statuses member
          exact answered asked statuses (by simp [logged, member])
        rw [logged]
        exact kept_of_answered (kept earlier) statuses (answered notDrained statuses (by simp [logged]))
      dsimp only
      split
      · exact Within.pure ⟨checks, polled⟩
      · refine (ih _ polled).weaken fun left after _ ended => ?_
        exact ⟨fun hosts unsafeHosts => (ended.1 hosts unsafeHosts).trans (checks hosts unsafeHosts), ended.2⟩

theorem within_drainHosts (hosts : List Host) (kept : Answered m.log → Kept done hosts m.log) :
    Within Grows (drainHosts hosts) m fun left after =>
      SameChecks m.log after.log ∧ (Answered after.log → Kept done left after.log) := by
  refine (quiet_reply m).bind fun response first _ same => ?_
  refine (quiet_checkAndLogResponse response first).bind fun _ second _ same' => ?_
  rw [same] at same'
  rw [← same'] at kept ⊢
  exact within_waitForDrained _ _ kept

end Drain

/-- The batches behind the operator: their hosts are checked, and drained unless they are listed. -/
structure Settled (processed : Host → Prop) (notDrained : List Host) (log : List (Event Host)) : Prop where
  drained : Kept processed notDrained log
  checked : ∀ host, processed host → ∃ hosts unsafeHosts, .checked hosts unsafeHosts ∈ log ∧ host ∈ hosts
  safe : ∀ hosts unsafeHosts, .checked hosts unsafeHosts ∈ log → ∀ host ∈ unsafeHosts, host ∈ notDrained

section Batches

variable {m : Maintenance Host} {processed : Host → Prop} {notDrained : List Host} {log : List (Event Host)}

theorem Settled.drainedSafe (settled : Settled processed notDrained log) {host : Host} (behind : processed host)
    (drained : host ∉ notDrained) : DrainedSafe log host where
  drained := settled.drained host behind drained
  checked := settled.checked host behind
  safe := fun hosts unsafeHosts member marked => drained (settled.safe hosts unsafeHosts member host marked)

theorem Settled.called (settled : Settled processed notDrained log) (host : Host) :
    Settled processed notDrained (log ++ [.called host]) where
  drained := by
    intro other behind outside
    rw [lastStatus_snoc (.called host) fun _ _ => by simp]
    exact settled.drained other behind outside
  checked := by
    intro other behind
    obtain ⟨hosts, unsafeHosts, member, listed⟩ := settled.checked other behind
    exact ⟨hosts, unsafeHosts, List.mem_append_left _ member, listed⟩
  safe := by
    intro hosts unsafeHosts member
    exact settled.safe hosts unsafeHosts (by simpa using member)

theorem within_operateOnHosts (hosts : List Host) (behind : ∀ host ∈ hosts, processed host ∧ host ∉ notDrained)
    (settled : Answered m.log → Settled processed notDrained m.log) :
    Within Grows (operateOnHosts hosts) m fun _ after =>
      Answered after.log → Settled processed notDrained after.log := by
  induction hosts generalizing m with
  | nil => exact Within.pure settled
  | cons host rest ih =>
    obtain ⟨⟨here, drained⟩, later⟩ := List.forall_mem_cons.mp behind
    have called : ∀ other, Event.called host = .called other → Answered m.log → DrainedSafe m.log other := by
      rintro other ⟨⟩ answered
      exact (settled answered).drainedSafe here drained
    refine (within_observe (.called host) called).bind fun _ first grown logged => ?_
    have after_call : Answered first.log → Settled processed notDrained first.log := by
      intro answered
      rw [logged]
      exact (settled (answered.before grown)).called host
    refine (quiet_reply first).bind fun response second _ same => ?_
    rw [← same] at after_call
    split
    · exact ih later after_call
    · exact Within.throw

theorem Settled.marked (settled : Settled processed notDrained log) (hosts unsafeHosts : List Host) :
    Settled processed (notDrained ∪ unsafeHosts) (log ++ [.checked hosts unsafeHosts]) where
  drained := by
    intro host behind outside
    rw [List.mem_union_iff, not_or] at outside
    rw [lastStatus_snoc _ fun _ _ => by simp]
    exact settled.drained host behind outside.1
  checked := by
    intro host behind
    obtain ⟨others, marked, member, listed⟩ := settled.checked host behind
    exact ⟨others, marked, List.mem_append_left _ member, listed⟩
  safe := by
    intro others marked member host listed
    rw [List.mem_union_iff]
    rcases List.mem_append.mp member with member | member
    · exact .inl (settled.safe others marked member host listed)
    · cases List.mem_singleton.mp member
      exact .inr listed

/-- A batch none of whose hosts passes is behind the operator with nothing done. -/
theorem Settled.skipped {hosts unsafeHosts : List Host} (settled : Settled processed notDrained log)
    (here : .checked hosts unsafeHosts ∈ log) (stuck : ∀ host ∈ hosts, host ∈ notDrained) :
    Settled (fun host => processed host ∨ host ∈ hosts) notDrained log where
  drained := by
    rintro host (behind | member) outside
    · exact settled.drained host behind outside
    · exact absurd (stuck host member) outside
  checked := by
    rintro host (behind | member)
    · exact settled.checked host behind
    · exact ⟨hosts, unsafeHosts, here, member⟩
  safe := settled.safe

/-- A batch whose hosts that pass are drained, but for those that failed to, is behind the operator. -/
theorem Settled.drains {hosts unsafeHosts failed : List Host} {later : List (Event Host)}
    (settled : Settled processed (notDrained ∪ unsafeHosts) log) (here : .checked hosts unsafeHosts ∈ log)
    (same : SameChecks log later)
    (left : Kept (fun host => (processed host ∧ host ∉ notDrained ∪ unsafeHosts) ∨ (host ∈ hosts ∧ host ∉ unsafeHosts))
      failed later) :
    Settled (fun host => processed host ∨ host ∈ hosts) (notDrained ∪ unsafeHosts ∪ failed) later where
  drained := by
    rintro host behind outside
    simp only [List.mem_union_iff, not_or] at outside
    obtain ⟨⟨first_out, spared⟩, polled⟩ := outside
    refine left host ?_ polled
    rcases behind with behind | member
    · exact .inl ⟨behind, by simp [first_out, spared]⟩
    · exact .inr ⟨member, spared⟩
  checked := by
    rintro host (behind | member)
    · obtain ⟨others, marked, listed, inside⟩ := settled.checked host behind
      exact ⟨others, marked, (same others marked).mpr listed, inside⟩
    · exact ⟨hosts, unsafeHosts, (same hosts unsafeHosts).mpr here, member⟩
  safe := by
    intro others marked listed host inside
    rw [List.mem_union_iff]
    exact .inl (settled.safe others marked ((same others marked).mp listed) host inside)

theorem within_operateOnBatches (cluster : String) (groupingFunction : Host → κ) (percentage duration : ℚ)
    (callback : Bool) (batches : List (List Host)) (settled : Answered m.log → Settled processed notDrained m.log) :
    Within Grows (operateOnBatches cluster groupingFunction percentage duration callback batches notDrained) m
      fun left after => Answered after.log →
        Settled (fun host => processed host ∨ ∃ hosts ∈ batches, host ∈ hosts) left after.log := by
  induction batches generalizing m processed notDrained with
  | nil =>
    apply Within.pure
    simpa using settled
  | cons hosts batches ih =>
    refine (within_checkSla cluster groupingFunction percentage duration hosts).bind
      fun unsafeHosts first grown logged => ?_
    have checked : Answered first.log → Settled processed (notDrained ∪ unsafeHosts) first.log := by
      intro answered
      rw [logged]
      exact (settled (answered.before grown)).marked hosts unsafeHosts
    have here : .checked hosts unsafeHosts ∈ first.log := by simp [logged]
    have rest : ∀ middle marked, (Answered middle.log → Settled (fun host => processed host ∨ host ∈ hosts) marked middle.log) →
        Within Grows (operateOnBatches cluster groupingFunction percentage duration callback batches marked) middle
          fun left after => Answered after.log →
            Settled (fun host => processed host ∨ ∃ others ∈ hosts :: batches, host ∈ others) left after.log := by
      intro middle marked next
      refine (ih next).weaken fun left after _ ended answered => ?_
      simpa only [List.exists_mem_cons_iff, or_assoc] using ended answered
    dsimp only
    split
    · rename_i skipped
      refine rest first _ fun answered => (checked answered).skipped here fun host member => ?_
      rw [List.mem_union_iff]
      by_contra spared
      have drainable : host ∈ hosts.filter fun host => host ∉ unsafeHosts := by
        simp [member, (not_or.mp spared).2]
      rw [skipped.2] at drainable
      cases drainable
    · -- the hosts that pass are drained before anything is run on them
      have start : Answered first.log →
          Kept (fun host => (processed host ∧ host ∉ notDrained ∪ unsafeHosts) ∨ (host ∈ hosts ∧ host ∉ unsafeHosts))
            (hosts.filter fun host => host ∉ unsafeHosts) first.log := by
        rintro answered host (⟨behind, outside⟩ | ⟨member, spared⟩) undrained
        · exact (checked answered).drained host behind outside
        · exact absurd (by simp [member, spared]) undrained
      refine (within_drainHosts _ start).bind fun failed second grown' drained => ?_
      have next : Answered second.log → Settled (fun host => processed host ∨ host ∈ hosts)
          (notDrained ∪ unsafeHosts ∪ failed) second.log := fun answered =>
        (checked (answered.before grown')).drains here drained.1 (drained.2 answered)
      split
      · have targets : ∀ host ∈ (hosts.filter fun host => host ∉ unsafeHosts).filter
            (fun host => host ∉ notDrained ∪ unsafeHosts ∪ failed),
            (processed host ∨ host ∈ hosts) ∧ host ∉ notDrained ∪ unsafeHosts ∪ failed := by
          intro host member
          simp only [List.mem_filter, decide_eq_true_eq] at member
          exact ⟨.inr member.1.1, member.2⟩
        exact (within_operateOnHosts _ targets next).bind fun _ third _ called => rest third _ called
      · exact rest second _ next

end Batches

theorem mem_iterBatches (hostnames : List Host) (groupingFunction : Host → κ) {host : Host}
    (member : host ∈ hostnames) : ∃ hosts ∈ iterBatches hostnames groupingFunction, host ∈ hosts := by
  have listed := (Dict.mem_collect groupingFunction hostnames id (groupingFunction host) host).mpr
    ⟨host, member, rfl, rfl⟩
  cases known : (Dict.collect groupingFunction id hostnames).get? (groupingFunction host) with
  | none => simp [known] at listed
  | some hosts =>
    rw [known, Option.getD_some] at listed
    refine ⟨hosts, List.mem_map.mpr ⟨(groupingFunction host, hosts), ?_, rfl⟩, listed⟩
    exact (List.mem_insertionSort _).mpr ((Dict.mem_entries _ _ _).mpr known)

section Run

variable (cluster : String) (groupingFunction : Host → κ) (percentage duration : ℚ)

theorem within_performMaintenance (hostnames : List Host) (callback : Bool) (replies : List (Reply Host)) :
    Within Grows (performMaintenance cluster groupingFunction percentage duration hostnames callback) { replies }
      fun returned after => Answered after.log → ∀ host ∈ returned, DrainedSafe after.log host := by
  have start : Within Grows (startMaintenance hostnames) ({ replies } : Maintenance Host)
      fun _ after => after.log = [.started hostnames] := by
    refine (within_observe (.started hostnames) fun _ impossible => by cases impossible).bind
      fun _ first _ logged => ?_
    refine (quiet_reply first).bind fun response second _ same => ?_
    refine (quiet_checkAndLogResponse response second).bind fun _ third _ same' => ?_
    exact Within.pure (same'.trans (same.trans logged))
  refine start.bind fun started first _ logged => ?_
  have settled : Answered first.log → Settled (fun _ => False) [] first.log := by
    intro _
    refine ⟨fun _ none => none.elim, fun _ none => none.elim, ?_⟩
    intro hosts unsafeHosts member
    simp [logged] at member
  refine (within_operateOnBatches cluster groupingFunction percentage duration callback _ settled).bind
    fun notDrained second _ ended => ?_
  apply Within.pure
  intro answered host member
  simp only [List.mem_filter, List.mem_dedup, decide_eq_true_eq] at member
  obtain ⟨hosts, batch, inside⟩ := mem_iterBatches started groupingFunction member.1
  exact (ended answered).drainedSafe (.inr ⟨hosts, batch, inside⟩) member.2

/-- As long as every status response reports the hosts it was asked about, the callback is run on drained and
    safe hosts only, and only such hosts are returned; the callback's part holds when a call exits early, too. -/
theorem maintenance_drained_safe (hostnames : List Host) (callback : Bool) (replies : List (Reply Host))
    (answered : Answered (Replay.final ((performMaintenance cluster groupingFunction percentage duration hostnames
      callback).run { replies })).log) :
    CalledSafely (Replay.final ((performMaintenance cluster groupingFunction percentage duration hostnames
        callback).run { replies })).log ∧
      ∀ returned after, (performMaintenance cluster groupingFunction percentage duration hostnames callback).run
        { replies } = .ok returned after → ∀ host ∈ returned, DrainedSafe after.log host := by
  have within := within_performMaintenance cluster groupingFunction percentage duration hostnames callback replies
  have start : CalledSafely ([] : List (Event Host)) := by
    intro before host after split
    simp at split
  cases ran : (performMaintenance cluster groupingFunction percentage duration hostnames callback).run { replies } with
  | error e after =>
    rw [ran] at answered
    refine ⟨calledSafely_of_grows (within.of_error ran) answered start, ?_⟩
    rintro returned after ⟨⟩
  | ok returned after =>
    rw [ran] at answered
    obtain ⟨reached, drained⟩ := within.of_ok ran
    refine ⟨calledSafely_of_grows reached answered start, ?_⟩
    rintro returned after ⟨⟩
    exact drained answered

end Run

/-- Two hosts without tasks in one group, and what the scheduler answers to the first status query. -/
def twoHosts (statuses : List (String × MaintenanceMode)) : List (Reply String) :=
  [{ statuses := [("a", .scheduled), ("b", .scheduled)] }, {}, {}, {}, {}, { statuses }]

def maintained (statuses : List (String × MaintenanceMode)) :
    EStateM.Result MaintenanceError (Maintenance String) (List String) :=
  (performMaintenance "cluster" (fun _ => 0 : String → Nat) 95 60 ["a", "b"] true).run { replies := twoHosts statuses }

theorem maintained_log : (Replay.final (maintained [("a", .drained), ("b", .drained)])).log =
    [.started ["a", "b"], .checked ["b", "a"] [], .status ["b", "a"] [("a", .drained), ("b", .drained)],
      .called "b", .called "a"] := by
  decide +kernel

theorem maintenance_drained_safe_answered :
    CalledSafely (Replay.final (maintained [("a", .drained), ("b", .drained)])).log ∧
      ∀ returned after, maintained [("a", .drained), ("b", .drained)] = .ok returned after →
        ∀ host ∈ returned, DrainedSafe after.log host := by
  refine maintenance_drained_safe "cluster" (fun _ => 0 : String → Nat) 95 60 ["a", "b"] true
    (twoHosts [("a", .drained), ("b", .drained)]) ?_
  have logged := maintained_log
  unfold maintained at logged
  rw [logged]
  intro asked statuses member host listed
  simp only [List.mem_cons, reduceCtorEq, Event.status.injEq, List.not_mem_nil, or_false, false_or] at member
  obtain ⟨rfl, rfl⟩ := member
  simp only [List.mem_cons, List.not_mem_nil, or_false] at listed
  rcases listed with rfl | rfl <;> exact ⟨.drained, by simp⟩

theorem omitted_log : (Replay.final (maintained [("a", .drained)])).log =
    [.started ["a", "b"], .checked ["b", "a"] [], .status ["b", "a"] [("a", .drained)]] ++
      .called "b" :: [.called "a"] := by
  decide +kernel

/-- The response leaves out a host, which counts as drained from then on. -/
theorem omitted_host_called : ¬ CalledSafely (Replay.final (maintained [("a", .drained)])).log := by
  intro safely
  have safe := safely _ "b" _ omitted_log
  have unreported : lastStatus [.started ["a", "b"], .checked ["b", "a"] [],
      .status ["b", "a"] [("a", MaintenanceMode.drained)]] "b" = none := by decide
  cases unreported.symm.trans safe.drained

end Aurora.Admin
