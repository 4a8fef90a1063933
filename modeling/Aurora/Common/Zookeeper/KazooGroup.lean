import Mathlib.Data.Finset.Basic
import Aurora.Library.Transition

namespace Aurora.Common.Zookeeper

inductive KazooState
  | connected | suspended | lost
  deriving DecidableEq

inductive Callback
  | doJoin
  | doExists (id : Nat)
  | expireNotifier
  /-- `expiry_capture.set`, up to the call of the expire_callback -/
  | expirySet
  deriving DecidableEq

def Callback.keeperState : Callback → KazooState
  | .doJoin | .doExists _ | .expireNotifier => .connected
  | .expirySet => .lost

/-- What a thread is to call in the course of a `join` with an expire_callback. -/
inductive Call
  | now (callback : Callback)
  | once (callback : Callback)
  /-- `self._callback = None` at the end of `expiry_capture.set` -/
  | expiryClear
  /-- `membership_capture.set`, where none is `Membership.error()` -/
  | membershipSet (membership : Option Nat)
  deriving DecidableEq

/-- The threads of the Kazoo client: one runs completions, one the callbacks of watches, and one the state listeners. -/
inductive Thread
  | completion | callback | connection
  deriving DecidableEq

inductive Watch
  | unset
  | armed (id : Nat)
  /-- it is gone without an event of type DELETED, as watches go with their connection -/
  | dropped (id : Nat)
  | spent
  deriving DecidableEq

def Watch.broken : Watch → Watch
  | .armed id => .dropped id
  | watch => watch

/-- A `KazooGroup` in a `join`, its Kazoo client and the ensemble. -/
structure World where
  state : KazooState := .connected
  listenerQueue : List Callback := []
  calls : Thread → List Call := fun _ => []
  /-- create requests, the answers to them that are on their way, and exists requests -/
  creates : Nat := 0
  created : List Nat := []
  existing : List Nat := []
  watch : Watch := .unset
  /-- the member that the answer to a create named -/
  joined : Option Nat := none
  /-- what `membership_capture` has been set to -/
  memberships : List (Option Nat) := []
  /-- whether `expiry_capture` has its callback, and how often that has been called -/
  callback : Bool := true
  expired : Nat := 0
  session : Nat := 0
  /-- whether the ensemble keeps the session -/
  kept : Bool := true
  /-- the nodes that are there, and all that have been created, with their sessions -/
  nodes : Finset Nat := ∅
  made : List (Nat × Nat) := []
  /-- nodes of which the group has never heard -/
  abandoned : List Nat := []

namespace World

def call (world : World) : Call → World × List Call
  | .now .doJoin => ({ world with creates := world.creates + 1 }, [])
  | .now (.doExists id) => ({ world with existing := world.existing ++ [id] }, [])
  | .now .expireNotifier => (world, [.once .expirySet])
  | .now .expirySet =>
    if world.callback then ({ world with expired := world.expired + 1 }, [.expiryClear]) else (world, [])
  | .once callback =>
    if world.state ≠ callback.keeperState then
      ({ world with listenerQueue := world.listenerQueue ++ [callback] }, [])
    else (world, [.now callback])
  | .expiryClear => ({ world with callback := false }, [])
  | .membershipSet membership => ({ world with memberships := world.memberships ++ [membership] }, [])

def goOn (world : World) (thread : Thread) (calls : List Call) : World :=
  { world with calls := fun other => if other = thread then calls else world.calls other }

/-- A completion or a watch event, which its thread gets to after those before it. -/
def dispatch (world : World) (thread : Thread) (calls : List Call) : World :=
  world.goOn thread (world.calls thread ++ calls)

def stateListener (world : World) (state : KazooState) : World :=
  let triggered := world.listenerQueue.filter fun callback => callback.keeperState = state
  let others := world.listenerQueue.filter fun callback => callback.keeperState ≠ state
  { world with state := state, listenerQueue := others }.goOn .connection (triggered.map .now)

def acreateCompletion (world : World) (id : Nat) : World :=
  { world with joined := some id }.dispatch .completion
    [.once .expireNotifier, .now (.doExists id), .membershipSet (some id)]

def disconnected (world : World) (again : Callback) : World := world.dispatch .completion [.once again]

end World

inductive Event
  /-- A thread makes its next call. -/
  | run (thread : Thread)
  | suspend | reconnect
  /-- The ensemble gives up the session of a client that is not connected. -/
  | giveUp
  | lose
  /-- A create is carried out, under a sequence number that is not used yet. -/
  | create (id : Nat)
  /-- The answer to it arrives, or an exception in its place. -/
  | createAnswer | createAbandoned
  /-- The request fails before it is carried out, or it is refused. -/
  | createFails | createRefused
  | existsAnswer | existsFails
  /-- Somebody deletes a node. -/
  | remove (id : Nat)
  | unwatch
  deriving DecidableEq

namespace World

def Receiving (world : World) : Prop := world.state = .connected ∧ world.calls .connection = []

instance (world : World) : Decidable world.Receiving := inferInstanceAs (Decidable (_ ∧ _))

def step (world : World) : Event → Option World
  | .run thread =>
    match world.calls thread with
    | [] => none
    | first :: rest =>
      let (after, further) := world.call first
      some (after.goOn thread (further ++ rest))
  | .suspend => if world.Receiving then some (world.stateListener .suspended) else none
  | .reconnect =>
    if world.calls .connection = [] ∧ (world.state = .lost ∨ world.state = .suspended ∧ world.kept = true) then
      some { world.stateListener .connected with kept := true }
    else none
  | .giveUp =>
    if world.state = .suspended then some { world with kept := false, nodes := ∅, watch := world.watch.broken }
    else none
  | .lose =>
    if world.calls .connection = [] ∧ world.state ≠ .lost then
      some { world.stateListener .lost with
        session := world.session + 1, kept := false, nodes := ∅, watch := world.watch.broken }
    else none
  | .create id =>
    if world.Receiving ∧ world.creates ≠ 0 ∧ id ∉ world.made.map Prod.fst then
      some { world with
        creates := world.creates - 1
        created := world.created ++ [id]
        nodes := insert id world.nodes
        made := world.made ++ [(id, world.session)] }
    else none
  | .createAnswer =>
    match world.created with
    | [] => none
    | id :: rest => if world.Receiving then some ({ world with created := rest }.acreateCompletion id) else none
  | .createAbandoned =>
    match world.created with
    | [] => none
    | id :: rest => some ({ world with created := rest, abandoned := world.abandoned ++ [id] }.disconnected .doJoin)
  | .createFails =>
    if world.creates ≠ 0 then some ({ world with creates := world.creates - 1 }.disconnected .doJoin) else none
  | .createRefused =>
    if world.creates ≠ 0 then some ({ world with creates := world.creates - 1 }.dispatch .completion [.membershipSet none])
    else none
  | .existsAnswer =>
    match world.existing with
    | [] => none
    | id :: rest =>
      if world.Receiving then
        if id ∈ world.nodes then some { world with existing := rest, watch := .armed id }
        else some ({ world with existing := rest }.dispatch .completion [.now .expirySet])
      else none
  | .existsFails =>
    match world.existing with
    | [] => none
    | id :: rest => some ({ world with existing := rest }.disconnected (.doExists id))
  | .remove id =>
    if id ∈ world.nodes then
      if world.watch = .armed id then
        some ({ world with nodes := world.nodes.erase id, watch := .spent }.dispatch .callback [.now .expirySet])
      else some { world with nodes := world.nodes.erase id }
    else none
  | .unwatch =>
    match world.watch with
    | .armed id => some { world with watch := .dropped id }
    | _ => none

def start (state : KazooState) : World := { state := state, kept := state ≠ .lost, creates := 1 }

end World

end Aurora.Common.Zookeeper
