import Mathlib.Algebra.GroupWithZero.Nat
import Aurora.Common.Zookeeper.JoinSteps

namespace Aurora.Common.Zookeeper

open Transition

namespace World

variable {world next : World} {event : Event} {thread : Thread}

section Invariants

-- grind is kept from looking for ordered modules: with all of Mathlib there are too many to try.
structure Ids (world : World) : Prop where
  unique : (world.made.map Prod.fst).Nodup
  sessions : ∀ node ∈ world.made, node.2 ≤ world.session
  present : ∀ id ∈ world.nodes, (id, world.session) ∈ world.made
  gone : world.kept = false → world.nodes = ∅
  connected : world.state = .connected → world.kept = true
  lost : world.state = .lost → world.kept = false
  earlier : world.state = .lost → ∀ node ∈ world.made, node.2 < world.session
  created : ∀ id ∈ world.created, id ∈ world.made.map Prod.fst
  joined : ∀ id, world.joined = some id → id ∈ world.made.map Prod.fst
  known : ∀ id ∈ world.nodes, id ∈ world.created ∨ world.joined = some id ∨ id ∈ world.abandoned

theorem Ids.took (ids : world.Ids) (single : world.created.length ≤ 1) (none : world.created ≠ [] → world.joined = none)
    (took : world.Took event next) : next.Ids := by
  have same := ids
  obtain ⟨unique, sessions, present, gone, connected, lost, earlier, created, joined, known⟩ := ids
  cases took with
  | run calls called =>
    cases called <;> exact ⟨unique, sessions, present, gone, connected, lost, earlier, created, joined, known⟩
  | createFails | createRefused | present | absent | existsFails | unwatch =>
    exact ⟨unique, sessions, present, gone, connected, lost, earlier, created, joined, known⟩
  | suspend | reconnect | lose =>
    constructor <;> grind -linarith [stateListener, goOn, Receiving]
  | giveUp | create | remove => constructor <;> grind -linarith [Receiving]
  | createAnswer | createAbandoned | removeWatched =>
    constructor <;> grind -linarith [goOn, dispatch, disconnected, acreateCompletion]

structure Chain (world : World) : Prop where
  looking : ∀ id, world.Looking id → world.joined = some id
  watched : ∀ id, world.watch.node = some id → world.joined = some id
  armed : ∀ id, world.watch = .armed id → id ∈ world.nodes
  covered : ∀ id, world.joined = some id → world.Firing ∨ world.Looking id ∨ world.watch.node = some id

theorem Chain.took (chain : world.Chain) (none : world.created ≠ [] → world.joined = none)
    (callback : world.callback = false → 0 < world.expired) (took : world.Took event next) : next.Chain := by
  cases took with
  | run calls called =>
    obtain ⟨others, before, after⟩ := pending_run calls called
    cases called <;> constructor <;> grind -linarith [goOn, Chain, Looking, Firing, Watch.node]
  | present existing | absent existing | existsFails existing =>
    have named := chain.looking _ (.inr (.inr (.inr (existing ▸ List.mem_cons_self))))
    constructor <;> grind -linarith [goOn, dispatch, disconnected, Pending, Chain, Firing, Looking, Watch.node]
  | _ =>
    constructor <;> grind -linarith [stateListener, goOn, dispatch, disconnected, acreateCompletion, Receiving, Pending,
      Chain, Firing, Looking, Watch.node]

/-- What is known of the expire_callback. -/
structure Told (world : World) : Prop where
  callback : world.callback = false ∨ world.Pending .expiryClear → 0 < world.expired
  firing : world.Firing → ∃ id, world.joined = some id ∧ id ∉ world.nodes
  waiting : ∀ callback ∈ world.listenerQueue, callback.keeperState ≠ world.state
  notifier : world.Noticing ∨ .expirySet ∈ world.listenerQueue ∨ .expireNotifier ∈ world.listenerQueue →
    ∃ id, world.joined = some id
  noticed : ∀ id, world.joined = some id →
    world.Firing ∨ .expirySet ∈ world.listenerQueue ∨ .expireNotifier ∈ world.listenerQueue ∨ world.Noticing

theorem Told.called (told : world.Told) (ids : world.Ids) {first : Call} {rest further : List Call} {after : World}
    (calls : world.calls thread = first :: rest) (called : Called world first after further) :
    (after.goOn thread (further ++ rest)).Told := by
  obtain ⟨others, before, after⟩ := pending_run calls called
  cases called <;> constructor <;> grind -linarith [goOn, Told, Firing, Noticing, Ids, Callback.keeperState]

theorem Told.took (told : world.Told) (chain : world.Chain) (ids : world.Ids)
    (none : world.created ≠ [] → world.joined = none) (took : world.Took event next) : next.Told := by
  cases took with
  | run calls called => exact told.called ids calls called
  | suspend receiving =>
    have free := receiving.2
    constructor <;> grind -linarith [stateListener, goOn, Pending, Told, Firing, Noticing, Callback.keeperState]
  | reconnect free | lose free =>
    constructor <;> grind -linarith [stateListener, goOn, Pending, Told, Firing, Noticing, Callback.keeperState]
  | create receiving requested fresh =>
    constructor <;> grind -linarith [Pending, Told, Firing, Noticing, Ids]
  | createAnswer created =>
    constructor <;> grind -linarith [goOn, dispatch, acreateCompletion, Pending, Told, Firing, Noticing]
  | absent existing =>
    have named := chain.looking _ (.inr (.inr (.inr (existing ▸ List.mem_cons_self))))
    constructor <;> grind -linarith [goOn, dispatch, Pending, Told, Firing, Noticing]
  | removeWatched there armed =>
    have named := chain.watched _ (congrArg Watch.node armed)
    constructor <;> grind -linarith [goOn, dispatch, Pending, Told, Firing, Noticing]
  | _ => constructor <;> grind -linarith [goOn, dispatch, disconnected, Pending, Told, Firing, Noticing]

/-- While the completion thread is yet to register for the loss of the session, the exists request is behind that. -/
structure Ordered (world : World) : Prop where
  unasked : ∀ call ∈ world.calls .completion, call.Notifies → world.existing = []
  unwatched : ∀ call ∈ world.calls .completion, call.Notifies → world.watch.node = none
  unqueued : ∀ call ∈ world.calls .completion, call.Notifies → ∀ id, .doExists id ∉ world.listenerQueue
  unheld : ∀ call ∈ world.calls .completion, call.Notifies → ∀ other ∈ world.calls .connection, ¬ other.Looks
  behind : (world.calls .completion).Pairwise fun earlier later => earlier.Looks → ¬ later.Notifies
  watching : ∀ call ∈ world.calls .callback, call = .now .expirySet ∨ call = .expiryClear

theorem Ordered.called (ordered : world.Ordered) {first : Call} {rest further : List Call} {after : World}
    (calls : world.calls thread = first :: rest) (called : Called world first after further) :
    (after.goOn thread (further ++ rest)).Ordered := by
  obtain ⟨unasked, unwatched, unqueued, unheld, behind, watching⟩ := ordered
  cases thread with
  | completion =>
    rw [calls] at unasked unwatched unqueued unheld behind
    simp only [List.forall_mem_cons, List.pairwise_cons] at unasked unwatched unqueued unheld behind
    cases called <;> constructor <;> grind -linarith [goOn, Call.Notifies, Call.Looks, List.pairwise_cons]
  | callback =>
    rw [calls] at watching
    simp only [List.forall_mem_cons] at watching
    cases called <;> constructor <;> grind -linarith [goOn]
  | connection =>
    rw [calls] at unheld
    simp only [List.forall_mem_cons] at unheld
    cases called <;> constructor <;> grind -linarith [goOn, Call.Notifies, Call.Looks]

theorem Ordered.listened (ordered : world.Ordered) (state : KazooState) : (world.stateListener state).Ordered := by
  obtain ⟨unasked, unwatched, unqueued, unheld, behind, watching⟩ := ordered
  refine ⟨unasked, unwatched, ?_, ?_, behind, watching⟩
  · intro call member notifies id queued
    exact unqueued call member notifies id (mem_stateListener_queue.mp queued).1
  · intro call member notifies other held looks
    obtain ⟨id, rfl | rfl⟩ := looks_iff.mp looks
    · exact unqueued call member notifies id (now_mem_stateListener.mp held).1
    · exact once_mem_stateListener.mp held

/-- Where no member is known yet, nothing looks for its node. -/
theorem Chain.unasked (chain : world.Chain) (none : world.joined = none) :
    world.existing = [] ∧ world.watch.node = Option.none ∧ (∀ id, .doExists id ∉ world.listenerQueue) ∧
      ∀ call, world.Pending call → ¬ call.Looks := by
  have looking := chain.looking
  have watched := chain.watched
  simp only [none, reduceCtorEq, imp_false] at looking watched
  refine ⟨?_, Option.eq_none_iff_forall_ne_some.mpr watched, ?_, ?_⟩
  · exact List.eq_nil_iff_forall_not_mem.mpr fun id member => looking id (.inr (.inr (.inr member)))
  · exact fun id member => looking id (.inr (.inr (.inl member)))
  · intro call pending looks
    obtain ⟨id, rfl | rfl⟩ := looks_iff.mp looks
    · exact looking id (.inl pending)
    · exact looking id (.inr (.inl pending))

theorem Ordered.took (ordered : world.Ordered) (chain : world.Chain) (none : world.created ≠ [] → world.joined = none)
    (took : world.Took event next) : next.Ordered := by
  cases took with
  | run calls called => exact ordered.called calls called
  | suspend => exact ordered.listened _
  | reconnect =>
    obtain ⟨unasked, unwatched, unqueued, unheld, behind, watching⟩ := ordered.listened .connected
    exact ⟨unasked, unwatched, unqueued, unheld, behind, watching⟩
  | lose =>
    obtain ⟨unasked, unwatched, unqueued, unheld, behind, watching⟩ := ordered.listened .lost
    refine ⟨unasked, fun call member notifies => ?_, unqueued, unheld, behind, watching⟩
    exact (node_broken _).trans (unwatched call member notifies)
  | createAnswer created =>
    obtain ⟨unasked, unwatched, unqueued, unheld⟩ := chain.unasked (none (by simp [created]))
    have behind := ordered.behind
    have watching := ordered.watching
    constructor <;> grind -linarith [goOn, dispatch, acreateCompletion, Pending, Call.Looks, Call.Notifies]
  | present existing | absent existing | existsFails existing =>
    constructor <;> grind -linarith [goOn, dispatch, disconnected, Ordered, Call.Notifies]
  | _ => constructor <;> grind -linarith [goOn, dispatch, disconnected, Ordered, Call.Notifies, Watch.node]

structure Registered (world : World) : Prop where
  registered : ∀ id, world.watch.node = some id → .expirySet ∈ world.listenerQueue ∨ world.Firing
  session : ∀ id session, world.watch.node = some id → (id, session) ∈ world.made → session ≠ world.session →
    world.Firing

theorem Registered.called (registered : world.Registered) (told : world.Told) {first : Call} {rest further : List Call}
    {after : World} (calls : world.calls thread = first :: rest) (called : Called world first after further) :
    (after.goOn thread (further ++ rest)).Registered := by
  obtain ⟨others, before, after⟩ := pending_run calls called
  cases called <;> constructor <;> grind -linarith [goOn, Registered, Firing, Told]

/-- When an answer to an exists request comes in, the group is registered for the loss of the session. -/
theorem Told.registers (told : world.Told) (ordered : world.Ordered) {id : Nat} (named : world.joined = some id)
    (asked : world.existing ≠ []) (receiving : world.Receiving) :
    .expirySet ∈ world.listenerQueue ∨ world.Firing := by
  have settled (call : Call) (notifies : call.Notifies) : ¬ world.Pending call := by
    intro pending
    rcases pending with handled | watching | held
    · exact asked (ordered.unasked call handled notifies)
    · obtain rfl | rfl := ordered.watching call watching
      · exact notifies
      · exact notifies
    · rw [receiving.2] at held
      cases held
  rcases told.noticed id named with firing | waits | queued | pending | pending | pending
  · exact .inr firing
  · exact .inl waits
  · exact absurd receiving.1.symm (told.waiting _ queued)
  · exact absurd pending (settled _ trivial)
  · exact absurd pending (settled _ trivial)
  · exact absurd pending (settled _ trivial)

theorem Ids.same_session (ids : world.Ids) {id session : Nat} (there : id ∈ world.nodes)
    (made : (id, session) ∈ world.made) : session = world.session := by
  have present := ids.present id there
  have same := List.inj_on_of_nodup_map ids.unique made present rfl
  exact congrArg Prod.snd same

theorem Registered.took (registered : world.Registered) (ordered : world.Ordered) (told : world.Told)
    (chain : world.Chain) (ids : world.Ids) (took : world.Took event next) : next.Registered := by
  cases took with
  | run calls called => exact registered.called told calls called
  | suspend receiving =>
    have free := receiving.2
    constructor <;> grind -linarith [stateListener, goOn, Pending, Registered, Firing, Callback.keeperState]
  | reconnect free | lose free =>
    constructor <;> grind -linarith [stateListener, goOn, Pending, Registered, Firing, Callback.keeperState]
  | create receiving requested fresh =>
    constructor <;> grind -linarith [Pending, Registered, Firing]
  | present existing receiving there =>
    have named := chain.looking _ (.inr (.inr (.inr (existing ▸ List.mem_cons_self))))
    have registers := told.registers ordered named (by simp [existing]) receiving
    refine ⟨fun _ _ => registers, fun id session watched made other => ?_⟩
    obtain rfl := Option.some.inj watched
    exact absurd (ids.same_session there made) other
  | _ =>
    constructor <;> grind -linarith [goOn, dispatch, disconnected, acreateCompletion, Pending, Registered, Firing,
      Watch.node]

section Conservation

variable (weight : Call → Nat)

def load (world : World) : Nat :=
  ((world.calls .completion).map weight).sum + ((world.calls .callback).map weight).sum +
    ((world.calls .connection).map weight).sum + (world.listenerQueue.map fun callback => weight (.once callback)).sum

theorem load_filter (same : ∀ callback, weight (.now callback) = weight (.once callback)) (queue : List Callback)
    (state : KazooState) :
    (((queue.filter fun callback => callback.keeperState = state).map Call.now).map weight).sum +
      ((queue.filter fun callback => callback.keeperState ≠ state).map fun callback => weight (.once callback)).sum =
      (queue.map fun callback => weight (.once callback)).sum := by
  induction queue with
  | nil => rfl
  | cons callback rest ih =>
    by_cases triggered : callback.keeperState = state
    · simp only [triggered, List.filter_cons, decide_true, if_true, List.map_cons, List.sum_cons, ne_eq,
        not_true_eq_false, decide_false, Bool.false_eq_true, if_false, same] at ih ⊢
      omega
    · simp only [triggered, List.filter_cons, decide_true, if_true, List.map_cons, List.sum_cons, ne_eq,
        not_false_eq_true, decide_false, Bool.false_eq_true, if_false] at ih ⊢
      omega

theorem load_listener (same : ∀ callback, weight (.now callback) = weight (.once callback)) (state : KazooState)
    (free : world.calls .connection = []) : (world.stateListener state).load weight = world.load weight := by
  have total := load_filter weight same world.listenerQueue state
  simp only [load, stateListener, goOn, free, reduceCtorEq, if_false, if_true, List.map_nil, List.sum_nil]
  omega

theorem load_dispatch (calls : List Call) :
    (world.dispatch thread calls).load weight = world.load weight + (calls.map weight).sum := by
  cases thread <;>
    simp only [load, dispatch, goOn, reduceCtorEq, if_false, if_true, List.map_append, List.sum_append] <;> omega

theorem load_goOn {first : Call} {rest : List Call} (further : List Call) (calls : world.calls thread = first :: rest) :
    (world.goOn thread (further ++ rest)).load weight + weight first =
      world.load weight + (further.map weight).sum := by
  cases thread <;> simp [load, goOn, calls] <;> omega

def joins (world : World) : Nat :=
  world.load Call.joins + world.creates + world.created.length + world.memberships.length

theorem Called.joins {first : Call} {after : World} {further : List Call} (called : Called world first after further) :
    after.joins + (further.map Call.joins).sum = world.joins + first.joins := by
  cases called with
  | @wait callback | @pass callback => cases callback <;> simp [World.joins, load, Call.joins] <;> omega
  | _ => simp [World.joins, load, Call.joins] <;> omega

theorem same_joins (callback : Callback) : (Call.now callback).joins = (Call.once callback).joins := by
  cases callback <;> rfl

theorem joins_took (took : world.Took event next) : next.joins = world.joins := by
  cases took with
  | @run thread _ rest after further calls called =>
    have made := called.joins
    have popped := load_goOn Call.joins further (called.calls ▸ calls)
    change load _ (after.goOn thread (further ++ rest)) + after.creates + after.created.length +
      after.memberships.length = _
    unfold joins at *
    omega
  | suspend receiving => exact congrArg (· + _ + _ + _) (load_listener _ same_joins _ receiving.2)
  | reconnect free | lose free => exact congrArg (· + _ + _ + _) (load_listener _ same_joins _ free)
  | create receiving requested fresh =>
    change world.load _ + (world.creates - 1) + (world.created ++ _).length + world.memberships.length = _
    rw [List.length_append, List.length_singleton, joins]
    omega
  | createAnswer created | createAbandoned created =>
    simp only [joins, acreateCompletion, disconnected, load_dispatch, created, List.length_cons]
    simp only [load, dispatch, goOn, List.map_cons, List.map_nil, List.sum_cons, List.sum_nil, Call.joins]
    omega
  | createFails | createRefused =>
    simp only [joins, disconnected, load_dispatch]
    simp only [load, dispatch, goOn, List.map_cons, List.map_nil, List.sum_cons, List.sum_nil, Call.joins]
    omega
  | absent | existsFails | removeWatched =>
    simp only [joins, disconnected, load_dispatch]
    rfl
  | giveUp | present | remove | unwatch => rfl

def tells (world : World) : Nat :=
  world.load Call.tells + 2 * world.creates + 2 * world.created.length + world.existing.length + world.watch.tells +
    world.expired

theorem Called.tells {first : Call} {after : World} {further : List Call} (called : Called world first after further) :
    after.tells + (further.map Call.tells).sum ≤ world.tells + first.tells := by
  cases called with
  | @wait callback | @pass callback => cases callback <;> simp [World.tells, load, Call.tells] <;> omega
  | _ => simp [World.tells, load, Call.tells] <;> omega

theorem same_tells (callback : Callback) : (Call.now callback).tells = (Call.once callback).tells := by
  cases callback <;> rfl

theorem tells_took (took : world.Took event next) : next.tells ≤ world.tells := by
  cases took with
  | @run thread _ rest after further calls called =>
    have made := called.tells
    have popped := load_goOn Call.tells further (called.calls ▸ calls)
    change load _ (after.goOn thread (further ++ rest)) + 2 * after.creates + 2 * after.created.length +
      after.existing.length + after.watch.tells + after.expired ≤ _
    unfold tells at *
    omega
  | suspend receiving =>
    have same := load_listener _ same_tells .suspended receiving.2
    exact (congrArg (· + _ + _ + _ + _ + _) same).le
  | reconnect free =>
    have same := load_listener _ same_tells .connected free
    exact (congrArg (· + _ + _ + _ + _ + _) same).le
  | lose free =>
    have same := load_listener _ same_tells .lost free
    have less := tells_broken world.watch
    change load _ (world.stateListener .lost) + 2 * world.creates + 2 * world.created.length + world.existing.length +
      world.watch.broken.tells + world.expired ≤ _
    unfold tells
    omega
  | giveUp =>
    have less := tells_broken world.watch
    change world.load _ + 2 * world.creates + 2 * world.created.length + world.existing.length +
      world.watch.broken.tells + world.expired ≤ _
    unfold tells
    omega
  | create receiving requested fresh =>
    change world.load _ + 2 * (world.creates - 1) + 2 * (world.created ++ _).length + world.existing.length +
      world.watch.tells + world.expired ≤ _
    rw [List.length_append, List.length_singleton, tells]
    omega
  | createAnswer created | createAbandoned created =>
    simp only [tells, acreateCompletion, disconnected, load_dispatch, created, List.length_cons]
    simp only [load, dispatch, goOn, List.map_cons, List.map_nil, List.sum_cons, List.sum_nil, Call.tells]
    omega
  | createFails | createRefused =>
    simp only [tells, disconnected, load_dispatch]
    simp only [load, dispatch, goOn, List.map_cons, List.map_nil, List.sum_cons, List.sum_nil, Call.tells]
    omega
  | present existing =>
    simp only [tells, load, existing, List.length_cons, Watch.tells]
    omega
  | absent existing | existsFails existing =>
    simp only [tells, disconnected, load_dispatch, existing, List.length_cons]
    simp only [load, dispatch, goOn, List.map_cons, List.map_nil, List.sum_cons, List.sum_nil, Call.tells]
    omega
  | removeWatched there armed =>
    simp only [tells, load_dispatch, armed, Watch.tells]
    simp only [load, dispatch, goOn, List.map_cons, List.map_nil, List.sum_cons, List.sum_nil, Call.tells]
    omega
  | remove => exact le_rfl
  | unwatch armed =>
    simp only [tells, load, armed, Watch.tells]
    omega

end Conservation

/-- What is known of the member that the answer to a create named. -/
structure Answered (world : World) : Prop where
  recorded : ∀ id, world.joined = some id → some id ∈ world.memberships ∨ world.Pending (.membershipSet (some id))
  named : ∀ id, some id ∈ world.memberships ∨ world.Pending (.membershipSet (some id)) → world.joined = some id

theorem Answered.took (answered : world.Answered) (none : world.created ≠ [] → world.joined = none)
    (took : world.Took event next) : next.Answered := by
  cases took with
  | run calls called =>
    obtain ⟨others, before, after⟩ := pending_run calls called
    cases called <;> constructor <;> grind -linarith [goOn, Answered]
  | suspend receiving =>
    have free := receiving.2
    constructor <;> grind -linarith [stateListener, goOn, Pending, Answered]
  | reconnect free | lose free => constructor <;> grind -linarith [stateListener, goOn, Pending, Answered]
  | _ => constructor <;> grind -linarith [goOn, dispatch, disconnected, acreateCompletion, Pending, Answered]

theorem load_pos {weight : Call → Nat} {call : Call} (pending : world.Pending call) (weighs : 0 < weight call) :
    0 < world.load weight := by
  have positive {calls : List Call} (member : call ∈ calls) : 0 < (calls.map weight).sum :=
    List.sum_pos_iff_exists_pos_nat.mpr ⟨_, List.mem_map_of_mem member, weighs⟩
  unfold load
  rcases pending with member | member | member
  all_goals
    have some := positive member
    omega

theorem Answered.joins_pos (answered : world.Answered) {id : Nat} (joined : world.joined = some id) :
    world.creates + world.created.length < world.joins := by
  unfold World.joins
  rcases answered.recorded id joined with told | pending
  · have some := List.length_pos_of_mem told
    omega
  · have some := @load_pos world Call.joins _ pending Nat.one_pos
    omega

structure Inv (world : World) : Prop where
  joins : world.joins = 1
  tells : world.tells ≤ 2
  ids : world.Ids
  chain : world.Chain
  told : world.Told
  ordered : world.Ordered
  registered : world.Registered
  answered : world.Answered

theorem inv_start (state : KazooState) : (start state).Inv where
  joins := rfl
  tells := le_rfl
  ids := by
    cases state <;> constructor <;> simp [start]
  chain := by constructor <;> simp [start, Looking, Pending, Watch.node]
  told := by constructor <;> simp [start, Firing, Noticing, Pending]
  ordered := by constructor <;> simp [start]
  registered := by constructor <;> simp [start, Watch.node]
  answered := by constructor <;> simp [start, Pending]

theorem Inv.none (inv : world.Inv) (answers : world.created ≠ []) : world.joined = none := by
  cases joined : world.joined with
  | none => rfl
  | some id =>
    have less := inv.answered.joins_pos joined
    have some := List.length_pos_iff.mpr answers
    rw [inv.joins] at less
    omega

theorem Inv.single (inv : world.Inv) : world.created.length ≤ 1 := by
  have total := inv.joins
  unfold World.joins at total
  omega

theorem inv_step (inv : world.Inv) (taken : world.step event = some next) : next.Inv := by
  have took := took_of_step taken
  have callback (spent : world.callback = false) := inv.told.callback (.inl spent)
  exact {
    joins := (joins_took took).trans inv.joins
    tells := (tells_took took).trans inv.tells
    ids := inv.ids.took inv.single inv.none took
    chain := inv.chain.took inv.none callback took
    told := inv.told.took inv.chain inv.ids inv.none took
    ordered := inv.ordered.took inv.chain inv.none took
    registered := inv.registered.took inv.ordered inv.told inv.chain inv.ids took
    answered := inv.answered.took inv.none took }

/-- The removal of a node is missed where the watch on it is gone. -/
def Unmissed (world : World) (event : Event) : Prop := ∀ id, event = .remove id → world.watch ≠ .dropped id

/-- A node whose watch is gone is there, unless its session is over. -/
def Seen (world : World) : Prop :=
  ∀ id, world.watch = .dropped id → id ∈ world.nodes ∨ world.Firing ∨ world.kept = false

theorem Told.still_firing (told : world.Told) (took : world.Took event next) (firing : world.Firing) : next.Firing := by
  have callback := told.callback
  cases took with
  | run calls called =>
    obtain ⟨others, before, after⟩ := pending_run calls called
    cases called <;> grind -linarith [goOn, Firing]
  | suspend receiving =>
    have free := receiving.2
    grind -linarith [stateListener, goOn, Pending, Firing]
  | reconnect free | lose free => grind -linarith [stateListener, goOn, Pending, Firing]
  | _ => grind -linarith [goOn, dispatch, disconnected, acreateCompletion, Pending, Firing]

theorem Inv.over (inv : world.Inv) (lost : world.state = .lost) {id : Nat} (watched : world.watch.node = some id) :
    world.Firing := by
  have joined := inv.chain.watched id watched
  obtain ⟨⟨_, session⟩, made, rfl⟩ := List.mem_map.mp (inv.ids.joined id joined)
  have earlier := inv.ids.earlier lost _ made
  exact inv.registered.session _ session watched made (Nat.ne_of_lt earlier)

theorem seen_step (inv : world.Inv) (seen : world.Seen) (unmissed : world.Unmissed event)
    (taken : world.step event = some next) : next.Seen := by
  have took := took_of_step taken
  have firing := inv.told.still_firing took
  intro id dropped
  cases took with
  | run calls called =>
    have same := seen id
    cases called <;> grind -linarith [goOn]
  | reconnect free down =>
    rcases down with lost | ⟨suspended, kept⟩
    · exact .inr (.inl (firing (inv.over lost (congrArg Watch.node dropped))))
    · rcases seen id dropped with there | fires | lost
      · exact .inl there
      · exact .inr (.inl (firing fires))
      · exact absurd (kept.symm.trans lost) (by decide)
  | giveUp | lose => exact .inr (.inr rfl)
  | unwatch armed =>
    obtain rfl := Watch.dropped.inj dropped
    exact .inl (inv.chain.armed _ armed)
  | @remove removed =>
    have other : id ≠ removed := by
      intro same
      exact unmissed removed rfl (same ▸ dropped)
    rcases seen id dropped with still | fires | lost
    · exact .inl (Finset.mem_erase.mpr ⟨other, still⟩)
    · exact .inr (.inl (firing fires))
    · exact .inr (.inr lost)
  | _ =>
    have same := seen id
    grind -linarith [stateListener, goOn, dispatch, disconnected, acreateCompletion]

end Invariants

section Runs

/-- Nothing is under way, and the client is connected. -/
structure Quiet (world : World) : Prop where
  connected : world.state = .connected
  idle : ∀ thread, world.calls thread = []
  asked : world.creates = 0
  created : world.created = []
  existing : world.existing = []

variable {state : KazooState} {events : List Event} {final : World}

theorem inv_run (ran : run step (start state) events = some final) : final.Inv := by
  have always : Along step (fun _ _ => True) (start state) events := .of_forall fun _ _ => trivial
  exact invariant (fun _ _ _ inv _ taken => inv_step inv taken) (inv_start state) always ran

theorem seen_run (ran : run step (start state) events = some final)
    (unmissed : Along step Unmissed (start state) events) : final.Seen := by
  have both := @invariant World Event step Unmissed (fun world => world.Inv ∧ world.Seen) (start state) final events
    (fun _ _ _ holds allowed taken => ⟨inv_step holds.1 taken, seen_step holds.1 holds.2 allowed taken⟩)
    ⟨inv_start state, nofun⟩ unmissed ran
  exact both.2

theorem Quiet.pending (quiet : final.Quiet) (call : Call) : ¬ final.Pending call := by
  simp [Pending, quiet.idle]

theorem Quiet.looking (quiet : final.Quiet) (inv : final.Inv) (id : Nat) : ¬ final.Looking id := by
  intro looking
  rcases looking with pending | pending | queued | asked
  · exact quiet.pending _ pending
  · exact quiet.pending _ pending
  · exact inv.told.waiting _ queued quiet.connected.symm
  · simp [quiet.existing] at asked

theorem Quiet.answered (quiet : final.Quiet) (inv : final.Inv) : final.memberships = [final.joined] := by
  have total := inv.joins
  have queued : (final.listenerQueue.map fun callback => (Call.once callback).joins).sum = 0 := by
    rw [List.sum_eq_zero_iff_forall_eq_nat, List.forall_mem_map]
    intro callback member
    have waits := inv.told.waiting callback member
    rw [quiet.connected] at waits
    cases callback with
    | doJoin => exact absurd rfl waits
    | doExists _ | expireNotifier | expirySet => rfl
  simp only [joins, load, quiet.idle, List.map_nil, List.sum_nil, queued, quiet.asked, quiet.created,
    List.length_nil] at total
  obtain ⟨membership, told⟩ := List.length_eq_one_iff.mp (by omega : final.memberships.length = 1)
  rw [told, List.cons.injEq, and_iff_left rfl]
  cases membership with
  | some id => exact (inv.answered.named id (.inl (by simp [told]))).symm
  | none =>
    cases joined : final.joined with
    | none => rfl
    | some id =>
      rcases inv.answered.recorded id joined with recorded | pending
      · simp [told] at recorded
      · exact absurd pending (quiet.pending _)

theorem Seen.called (seen : final.Seen) (quiet : final.Quiet) (inv : final.Inv) {id : Nat}
    (watched : final.watch.node = some id) (absent : id ∉ final.nodes) : final.Firing := by
  cases watch : final.watch with
  | unset | spent => simp [watch, Watch.node] at watched
  | armed other =>
    obtain rfl : other = id := by simpa [watch, Watch.node] using watched
    exact absurd (inv.chain.armed other watch) absent
  | dropped other =>
    obtain rfl : other = id := by simpa [watch, Watch.node] using watched
    rcases seen other watch with there | firing | lost
    · exact absurd there absent
    · exact firing
    · exact absurd ((inv.ids.connected quiet.connected).symm.trans lost) (by decide)

/-- A join is answered once: with the member that is known of, or with an error. Other nodes are left behind only by
    answers that have not arrived. -/
theorem join_answered (ran : run step (start state) events = some final) :
    final.memberships.length ≤ 1 ∧ (final.Quiet → final.memberships = [final.joined]) ∧
      ∀ id ∈ final.nodes, id ∈ final.created ∨ final.joined = some id ∨ id ∈ final.abandoned := by
  have inv := inv_run ran
  have total := inv.joins
  refine ⟨?_, fun quiet => ?_, inv.ids.known⟩
  · unfold joins at total
    omega
  · exact quiet.answered inv

/-- A join whose first answer is lost, and that leaves its node behind. -/
def answerLost : List Event :=
  [.create 3, .createAbandoned, .run .completion, .run .completion, .create 4, .createAnswer] ++
    .replicate 5 (.run .completion) ++ [.existsAnswer]

theorem join_answered_again :
    ∃ final, run step (start .connected) answerLost = some final ∧ final.memberships.length ≤ 1 ∧
      (final.Quiet → final.memberships = [final.joined]) ∧
      ∀ id ∈ final.nodes, id ∈ final.created ∨ final.joined = some id ∨ id ∈ final.abandoned :=
  ⟨_, rfl, @join_answered .connected answerLost _ rfl⟩

/-- The expire_callback is called twice at most, and never while the node is there; the loss of its session is never
    missed, and its removal only where the watch on it is gone. -/
theorem expiry_told (ran : run step (start state) events = some final) :
    final.expired ≤ 2 ∧ (0 < final.expired → ∃ id, final.joined = some id ∧ id ∉ final.nodes) ∧
      (final.Quiet → ∀ id, final.joined = some id →
        (∀ session, (id, session) ∈ final.made → session ≠ final.session → 0 < final.expired) ∧
        (Along step Unmissed (start state) events → (0 < final.expired ↔ id ∉ final.nodes))) := by
  have inv := inv_run ran
  have gone (called : 0 < final.expired) := inv.told.firing (.inl called)
  have most : final.expired ≤ 2 := (Nat.le_add_left _ _).trans inv.tells
  refine ⟨most, gone, fun quiet id joined => ?_⟩
  have called (firing : final.Firing) : 0 < final.expired := firing.resolve_right (quiet.pending _)
  have covered := inv.chain.covered id joined
  have looking := quiet.looking inv id
  constructor
  · intro session made other
    rcases covered with firing | looks | watched
    · exact called firing
    · exact absurd looks looking
    · exact called (inv.registered.session id session watched made other)
  · intro unmissed
    constructor
    · intro expired
      obtain ⟨other, joined', absent⟩ := gone expired
      rw [joined] at joined'
      exact Option.some.inj joined' ▸ absent
    · intro absent
      rcases covered with firing | looks | watched
      · exact called firing
      · exact absurd looks looking
      · exact called ((seen_run ran unmissed).called quiet inv watched absent)

def lossOfSession : List Event :=
  [.create 4, .createAnswer] ++ .replicate 5 (.run .completion) ++ [.existsAnswer, .lose] ++
    .replicate 2 (.run .connection) ++ [.reconnect]

theorem expiry_told_lost :
    ∃ final, run step (start .connected) lossOfSession = some final ∧ final.expired ≤ 2 ∧
      (0 < final.expired → ∃ id, final.joined = some id ∧ id ∉ final.nodes) ∧
      (final.Quiet → ∀ id, final.joined = some id →
        (∀ session, (id, session) ∈ final.made → session ≠ final.session → 0 < final.expired) ∧
        (Along step Unmissed (start .connected) lossOfSession → (0 < final.expired ↔ id ∉ final.nodes))) :=
  ⟨_, rfl, @expiry_told .connected lossOfSession _ rfl⟩

end Runs

end World

end Aurora.Common.Zookeeper
