import Aurora.Common.Zookeeper.KazooGroup

namespace Aurora.Common.Zookeeper

def Call.joins : Call → Nat
  | .now .doJoin | .once .doJoin | .membershipSet _ => 1
  | _ => 0

def Call.tells : Call → Nat
  | .now .doJoin | .once .doJoin => 2
  | .now _ | .once _ => 1
  | .expiryClear | .membershipSet _ => 0

/-- A call on the way to `_once(KazooState.LOST, expiry_capture.set)`. -/
def Call.Notifies : Call → Prop
  | .once .expireNotifier | .now .expireNotifier | .once .expirySet => True
  | _ => False

def Call.Looks : Call → Prop
  | .now (.doExists _) | .once (.doExists _) => True
  | _ => False

@[grind =]
theorem once_looks (callback : Callback) : (Call.once callback).Looks ↔ (Call.now callback).Looks := by
  cases callback <;> exact Iff.rfl

theorem looks_iff {call : Call} : call.Looks ↔ ∃ id, call = .now (.doExists id) ∨ call = .once (.doExists id) := by
  constructor
  · intro looks
    cases call with
    | now callback | once callback =>
      cases callback with
      | doExists id => exact ⟨id, by simp⟩
      | doJoin | expireNotifier | expirySet => exact looks.elim
    | expiryClear | membershipSet _ => exact looks.elim
  · intro found
    obtain ⟨id, rfl | rfl⟩ := found <;> trivial

def Watch.node : Watch → Option Nat
  | .armed id | .dropped id => some id
  | .unset | .spent => none

@[simp, grind =]
theorem node_broken (watch : Watch) : watch.broken.node = watch.node := by
  cases watch <;> rfl

@[simp, grind =]
theorem broken_eq_armed {watch : Watch} {id : Nat} : watch.broken = .armed id ↔ False := by
  cases watch <;> simp [Watch.broken]

def Watch.tells : Watch → Nat
  | .armed _ => 1
  | .unset | .dropped _ | .spent => 0

theorem tells_broken (watch : Watch) : watch.broken.tells ≤ watch.tells := by
  cases watch <;> simp [Watch.broken, Watch.tells]

namespace World

variable {world next : World} {event : Event} {thread : Thread}

section Steps

@[simp, grind =]
theorem goOn_calls (calls : List Call) (other : Thread) :
    (world.goOn thread calls).calls other = if other = thread then calls else world.calls other := rfl

@[simp, grind =]
theorem dispatch_calls (calls : List Call) (other : Thread) : (world.dispatch thread calls).calls other =
    if other = thread then world.calls thread ++ calls else world.calls other := rfl

@[simp, grind =]
theorem now_mem_stateListener {state : KazooState} {callback : Callback} :
    .now callback ∈ (world.stateListener state).calls .connection ↔
      callback ∈ world.listenerQueue ∧ callback.keeperState = state := by
  simp [stateListener]

@[simp, grind =]
theorem once_mem_stateListener {state : KazooState} {callback : Callback} :
    .once callback ∈ (world.stateListener state).calls .connection ↔ False := by
  simp [stateListener]

@[simp, grind =]
theorem clear_mem_stateListener {state : KazooState} :
    .expiryClear ∈ (world.stateListener state).calls .connection ↔ False := by
  simp [stateListener]

@[simp, grind =]
theorem mem_stateListener_queue {state : KazooState} {callback : Callback} :
    callback ∈ (world.stateListener state).listenerQueue ↔
      callback ∈ world.listenerQueue ∧ callback.keeperState ≠ state := by
  simp [stateListener, goOn]

inductive Called (world : World) : Call → World → List Call → Prop
  | join : Called world (.now .doJoin) { world with creates := world.creates + 1 } []
  | look {id} : Called world (.now (.doExists id)) { world with existing := world.existing ++ [id] } []
  | notify : Called world (.now .expireNotifier) world [.once .expirySet]
  | expire (armed : world.callback = true) :
      Called world (.now .expirySet) { world with expired := world.expired + 1 } [.expiryClear]
  | expireAgain (spent : world.callback = false) : Called world (.now .expirySet) world []
  | wait {callback} (later : world.state ≠ callback.keeperState) :
      Called world (.once callback) { world with listenerQueue := world.listenerQueue ++ [callback] } []
  | pass {callback} (now : world.state = callback.keeperState) : Called world (.once callback) world [.now callback]
  | clear : Called world .expiryClear { world with callback := false } []
  | answer {membership} :
      Called world (.membershipSet membership) { world with memberships := world.memberships ++ [membership] } []

theorem called_call (first : Call) : Called world first (world.call first).1 (world.call first).2 := by
  cases first with
  | now callback =>
    cases callback with
    | doJoin => exact .join
    | doExists id => exact .look
    | expireNotifier => exact .notify
    | expirySet =>
      simp only [call]
      split_ifs with armed
      · exact .expire armed
      · exact .expireAgain (Bool.not_eq_true _ ▸ armed)
  | once callback =>
    simp only [call]
    split_ifs with later
    · exact .wait later
    · exact .pass (not_not.mp later)
  | expiryClear => exact .clear
  | membershipSet membership => exact .answer

theorem Called.calls {first : Call} {after : World} {further : List Call} (called : Called world first after further) :
    after.calls = world.calls := by
  cases called <;> rfl

inductive Took (world : World) : Event → World → Prop
  | run {thread first rest after further} (calls : world.calls thread = first :: rest)
      (called : Called world first after further) : Took world (.run thread) (after.goOn thread (further ++ rest))
  | suspend (receiving : world.Receiving) : Took world .suspend (world.stateListener .suspended)
  | reconnect (free : world.calls .connection = [])
      (down : world.state = .lost ∨ world.state = .suspended ∧ world.kept = true) :
      Took world .reconnect { world.stateListener .connected with kept := true }
  | giveUp (down : world.state = .suspended) :
      Took world .giveUp { world with kept := false, nodes := ∅, watch := world.watch.broken }
  | lose (free : world.calls .connection = []) (state : world.state ≠ .lost) :
      Took world .lose { world.stateListener .lost with
        session := world.session + 1, kept := false, nodes := ∅, watch := world.watch.broken }
  | create {id} (receiving : world.Receiving) (requested : world.creates ≠ 0) (fresh : id ∉ world.made.map Prod.fst) :
      Took world (.create id) { world with
        creates := world.creates - 1
        created := world.created ++ [id]
        nodes := insert id world.nodes
        made := world.made ++ [(id, world.session)] }
  | createAnswer {id rest} (created : world.created = id :: rest) (receiving : world.Receiving) :
      Took world .createAnswer ({ world with created := rest }.acreateCompletion id)
  | createAbandoned {id rest} (created : world.created = id :: rest) :
      Took world .createAbandoned
        ({ world with created := rest, abandoned := world.abandoned ++ [id] }.disconnected .doJoin)
  | createFails (requested : world.creates ≠ 0) :
      Took world .createFails ({ world with creates := world.creates - 1 }.disconnected .doJoin)
  | createRefused (requested : world.creates ≠ 0) :
      Took world .createRefused ({ world with creates := world.creates - 1 }.dispatch .completion [.membershipSet none])
  | present {id rest} (existing : world.existing = id :: rest) (receiving : world.Receiving)
      (there : id ∈ world.nodes) :
      Took world .existsAnswer { world with existing := rest, watch := .armed id }
  | absent {id rest} (existing : world.existing = id :: rest) (receiving : world.Receiving) (gone : id ∉ world.nodes) :
      Took world .existsAnswer ({ world with existing := rest }.dispatch .completion [.now .expirySet])
  | existsFails {id rest} (existing : world.existing = id :: rest) :
      Took world .existsFails ({ world with existing := rest }.disconnected (.doExists id))
  | removeWatched {id} (there : id ∈ world.nodes) (armed : world.watch = .armed id) :
      Took world (.remove id) ({ world with nodes := world.nodes.erase id, watch := .spent }.dispatch .callback [.now .expirySet])
  | remove {id} (there : id ∈ world.nodes) (unarmed : world.watch ≠ .armed id) :
      Took world (.remove id) { world with nodes := world.nodes.erase id }
  | unwatch {id} (armed : world.watch = .armed id) : Took world .unwatch { world with watch := .dropped id }

theorem took_of_step (taken : world.step event = some next) : Took world event next := by
  cases event with
  | run thread =>
    cases calls : world.calls thread with
    | nil => simp [step, calls] at taken
    | cons first rest =>
      simp only [step, calls, Option.some.injEq] at taken
      exact taken ▸ .run calls (called_call first)
  | suspend =>
    simp only [step, Option.ite_none_right_eq_some, Option.some.injEq] at taken
    exact taken.2 ▸ .suspend taken.1
  | reconnect =>
    simp only [step, Option.ite_none_right_eq_some, Option.some.injEq] at taken
    exact taken.2 ▸ .reconnect taken.1.1 taken.1.2
  | giveUp =>
    simp only [step, Option.ite_none_right_eq_some, Option.some.injEq] at taken
    exact taken.2 ▸ .giveUp taken.1
  | lose =>
    simp only [step, Option.ite_none_right_eq_some, Option.some.injEq] at taken
    exact taken.2 ▸ .lose taken.1.1 taken.1.2
  | create id =>
    simp only [step, Option.ite_none_right_eq_some, Option.some.injEq] at taken
    exact taken.2 ▸ .create taken.1.1 taken.1.2.1 taken.1.2.2
  | createAnswer =>
    cases created : world.created with
    | nil => simp [step, created] at taken
    | cons id rest =>
      simp only [step, created, Option.ite_none_right_eq_some, Option.some.injEq] at taken
      exact taken.2 ▸ .createAnswer created taken.1
  | createAbandoned =>
    cases created : world.created with
    | nil => simp [step, created] at taken
    | cons id rest =>
      simp only [step, created, Option.some.injEq] at taken
      exact taken ▸ .createAbandoned created
  | createFails =>
    simp only [step, Option.ite_none_right_eq_some, Option.some.injEq] at taken
    exact taken.2 ▸ .createFails taken.1
  | createRefused =>
    simp only [step, Option.ite_none_right_eq_some, Option.some.injEq] at taken
    exact taken.2 ▸ .createRefused taken.1
  | existsAnswer =>
    cases existing : world.existing with
    | nil => simp [step, existing] at taken
    | cons id rest =>
      simp only [step, existing, Option.ite_none_right_eq_some] at taken
      obtain ⟨receiving, taken⟩ := taken
      split_ifs at taken with there
      · exact Option.some.inj taken ▸ .present existing receiving there
      · exact Option.some.inj taken ▸ .absent existing receiving there
  | existsFails =>
    cases existing : world.existing with
    | nil => simp [step, existing] at taken
    | cons id rest =>
      simp only [step, existing, Option.some.injEq] at taken
      exact taken ▸ .existsFails existing
  | remove id =>
    simp only [step, Option.ite_none_right_eq_some] at taken
    obtain ⟨there, taken⟩ := taken
    split_ifs at taken with armed
    · exact Option.some.inj taken ▸ .removeWatched there armed
    · exact Option.some.inj taken ▸ .remove there armed
  | unwatch =>
    cases watch : world.watch with
    | armed id =>
      simp only [step, watch, Option.some.injEq] at taken
      exact taken ▸ .unwatch watch
    | unset | dropped _ | spent => simp [step, watch] at taken

end Steps

section Pending

def Pending (world : World) (call : Call) : Prop :=
  call ∈ world.calls .completion ∨ call ∈ world.calls .callback ∨ call ∈ world.calls .connection

theorem pending_run {first : Call} {rest further : List Call} {after : World}
    (calls : world.calls thread = first :: rest) (called : Called world first after further) :
    ∃ others : List Call, (∀ call, world.Pending call ↔ call = first ∨ call ∈ others) ∧
      ∀ call, (after.goOn thread (further ++ rest)).Pending call ↔ call ∈ further ∨ call ∈ others := by
  have same := called.calls
  cases thread with
  | completion =>
    refine ⟨rest ++ world.calls .callback ++ world.calls .connection, fun call => ?_, fun call => ?_⟩
    · simp [Pending, calls, or_assoc]
    · simp [Pending, same, or_assoc]
  | callback =>
    refine ⟨world.calls .completion ++ rest ++ world.calls .connection, fun call => ?_, fun call => ?_⟩
    · simp only [Pending, calls, List.mem_cons, List.mem_append]
      tauto
    · simp only [Pending, same, goOn_calls, reduceCtorEq, if_false, if_true, List.mem_append]
      tauto
  | connection =>
    refine ⟨world.calls .completion ++ world.calls .callback ++ rest, fun call => ?_, fun call => ?_⟩
    · simp only [Pending, calls, List.mem_cons, List.mem_append]
      tauto
    · simp only [Pending, same, goOn_calls, reduceCtorEq, if_false, if_true, List.mem_append]
      tauto

def Firing (world : World) : Prop := 0 < world.expired ∨ world.Pending (.now .expirySet)

/-- The exists request for a node is to be made, or under way. -/
def Looking (world : World) (id : Nat) : Prop :=
  world.Pending (.now (.doExists id)) ∨ world.Pending (.once (.doExists id)) ∨
    .doExists id ∈ world.listenerQueue ∨ id ∈ world.existing

/-- A thread is yet to register for the loss of the session. -/
def Noticing (world : World) : Prop :=
  world.Pending (.once .expireNotifier) ∨ world.Pending (.now .expireNotifier) ∨ world.Pending (.once .expirySet)

end Pending

end World

end Aurora.Common.Zookeeper
