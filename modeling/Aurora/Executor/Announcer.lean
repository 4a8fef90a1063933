import Mathlib.Data.Finset.Insert
import Mathlib.Data.Finset.Option
import Mathlib.Data.Finset.SDiff
import Mathlib.Data.Finset.Erase
import Mathlib.Data.Rat.Defs

namespace Aurora.Executor.Announcing

/-- What `ServerSet.join` returns; each membership that is joined has a number of its own. -/
inductive Membership
  /-- `Membership.error()`, an object like the others -/
  | error
  | joined (number : Nat)
  deriving DecidableEq

structure Announcer where
  membership : Option Membership
  membershipTermination : Option ℚ
  rejoinEvent : Bool
  /-- whether there is a thread, which `stop` takes away -/
  thread : Bool

inductive Joiner
  /-- at the check of `_stopped` -/
  | top
  /-- waiting for the event, or for a second to pass -/
  | waiting
  /-- has seen the event -/
  | clearing
  /-- at the check that opens `_join` -/
  | entering
  /-- in `_join_inner` -/
  | attempting
  | sleeping
  | recording (membership : Membership)
  /-- has recorded its membership, and is to reset the termination time -/
  | settling
  | ended
  /-- ended by `Announcer.Error`, as there was a membership already -/
  | raised
  deriving DecidableEq

inductive Expiry
  | clear
  | look
  | mark
  | rejoin
  deriving DecidableEq

inductive Stopper
  | uncalled
  | swapped
  | signalled
  | cancelling
  | returned
  /-- `cancel` was called with None -/
  | raised
  deriving DecidableEq

structure World where
  announcer : Announcer
  joiner : Joiner
  stopped : Bool
  stopper : Stopper
  /-- the calls of `on_expiration` that go on -/
  expiries : List Expiry
  live : Finset Membership
  joins : Nat

inductive Event
  /-- the next statement of the join thread -/
  | thread
  /-- `ServerSet.join` returns -/
  | joined
  /-- `ServerSet.join` raises -/
  | failed
  /-- `ServerSet.join` returns `Membership.error()` -/
  | refused
  | expire (membership : Membership)
  /-- the next statement of a call of `on_expiration`, by the clock -/
  | callback (index : Nat) (now : ℚ)
  | rejoin
  /-- the next statement of `stop` -/
  | stop
  /-- `ServerSet.cancel` returns False -/
  | uncancelled

def rejoin (announcer : Announcer) : Announcer := { announcer with rejoinEvent := true }

/-- A statement of `ServerSetJoinThread.run`, or of the `_join` that it calls. -/
def World.threadStep (world : World) : Option World :=
  match world.joiner with
  | .top => some { world with joiner := if world.stopped then .ended else .waiting }
  | .waiting => some { world with joiner := if world.announcer.rejoinEvent then .clearing else .top }
  | .clearing => some { world with
      announcer := { world.announcer with rejoinEvent := false }
      joiner := .entering }
  | .entering => some { world with joiner := if world.announcer.membership.isSome then .raised else .attempting }
  | .sleeping => some { world with joiner := .attempting }
  | .recording membership => some { world with
      announcer := { world.announcer with membership := some membership }
      joiner := .settling }
  | .settling => some { world with
      announcer := { world.announcer with membershipTermination := none }
      joiner := .top }
  | .attempting | .ended | .raised => none

def onExpiration (announcer : Announcer) (now : ℚ) : Expiry → Announcer × Option Expiry
  | .clear => ({ announcer with membership := none }, some .look)
  | .look => (announcer, if announcer.thread then some .mark else none)
  | .mark => ({ announcer with membershipTermination := some now }, some .rejoin)
  | .rejoin => (rejoin announcer, none)

def World.callbackStep (world : World) (index : Nat) (now : ℚ) : Option World :=
  (world.expiries[index]?).map fun expiry =>
    let (announcer, next) := onExpiration world.announcer now expiry
    { world with
      announcer := announcer
      expiries := world.expiries.take index ++ next.toList ++ world.expiries.drop (index + 1) }

def World.stopStep (world : World) : Option World :=
  match world.stopper with
  | .uncalled => some { world with
      announcer := { world.announcer with thread := false }
      stopper := .swapped }
  | .swapped => some { world with
      stopped := true
      stopper := .signalled }
  | .signalled => some { world with stopper := if world.announcer.membership.isSome then .cancelling else .returned }
  -- `stop` reads the membership anew, and it may be gone by now
  | .cancelling =>
    match world.announcer.membership with
    | some membership => some { world with
        live := world.live.erase membership
        stopper := .returned }
    | none => some { world with stopper := .raised }
  | .returned | .raised => none

/-- Any thread goes on by a statement, or ZooKeeper answers or lets a session expire, at which it calls `on_expiration`. -/
def World.step (world : World) : Event → Option World
  | .thread => world.threadStep
  | .joined =>
    if world.joiner = .attempting then some { world with
      joiner := .recording (.joined world.joins)
      live := insert (.joined world.joins) world.live
      joins := world.joins + 1 }
    else none
  | .failed => if world.joiner = .attempting then some { world with joiner := .sleeping } else none
  | .refused => if world.joiner = .attempting then some { world with joiner := .recording .error } else none
  | .expire membership =>
    if membership ∈ world.live then some { world with
      live := world.live.erase membership
      expiries := world.expiries ++ [.clear] }
    else none
  | .callback index now => world.callbackStep index now
  | .rejoin => some { world with announcer := rejoin world.announcer }
  | .stop => world.stopStep
  | .uncancelled =>
    if world.stopper = .cancelling ∧ world.announcer.membership.isSome then some { world with stopper := .returned }
    else none

def start (now : ℚ) : World where
  announcer := rejoin {
    membership := none
    membershipTermination := some now
    rejoinEvent := false
    thread := true }
  joiner := .top
  stopped := false
  stopper := .uncalled
  expiries := []
  live := ∅
  joins := 0

end Aurora.Executor.Announcing
