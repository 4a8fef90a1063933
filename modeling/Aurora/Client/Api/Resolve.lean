import Aurora.Common.Zookeeper.ServiceInstance

namespace Aurora.Client

open PyText Common.Zookeeper Json

inductive ResolveError
  | couldNotConnect (message : Text)
  /-- A node below the path has a name that no member has. -/
  | valueError
  deriving DecidableEq

namespace ZookeeperSchedulerClient

variable {platform : Platform}

def uri (scheme : String) (endpoint : Endpoint platform) : Str :=
  ofText (scheme.toList ++ "://".toList) ++ endpoint.host ++ ofText (':' :: endpoint.port.text)

def address (service : ServiceInstance platform) : Str :=
  match service.additionalEndpoints.get? (ofText "https".toList) with
  | some endpoint => uri "https" endpoint
  | none =>
    match service.additionalEndpoints.get? (ofText "http".toList) with
    | some endpoint => uri "http" endpoint
    | none => uri "http" service.serviceEndpoint

variable (unpackThrift : Text → Option Int → Option (ServiceInstance platform))

/-- `_resolve`, with what has been found before the deadline. A first member that cannot be read leaves `_uri` unset. -/
def resolve (clusterName : Text) : Option KazooGroup → Except ResolveError (Option Str)
  | none => throw (.couldNotConnect "Failed to connect to Zookeeper within 10 seconds.".toList)
  | some group =>
    match serverSet platform unpackThrift group with
    | none => throw .valueError
    | some [] => throw (.couldNotConnect ("No schedulers detected in ".toList ++ clusterName ++ ['!']))
    | some (first :: _) => return first.map address

variable {unpackThrift} {group : KazooGroup} {ids : List Nat} {announced : Nat → ServiceInstance platform}

/-- Whoever reads the group finds the instances that were announced, in the order of their ids, and the client talks to
    the first of them. -/
theorem resolve_announced (holds : Announced group ids announced) (clusterName : Text) :
    serverSet platform unpackThrift group =
        some ((ids.mergeSort (· ≤ ·)).map fun id => some { announced id with memberId := some (id : Int) }) ∧
      ∀ leader ∈ ids, (∀ id ∈ ids, leader ≤ id) →
        resolve unpackThrift clusterName (some group) = .ok (some (address (announced leader))) := by
  have found := @serverSet_announced platform group ids announced unpackThrift holds
  refine ⟨found, fun leader member least => ?_⟩
  have listed : leader ∈ ids.mergeSort (· ≤ ·) := List.mem_mergeSort.mpr member
  rw [resolve, found]
  cases sorted : ids.mergeSort (· ≤ ·) with
  | nil => simp [sorted] at listed
  | cons first rest =>
    have order := List.pairwise_mergeSort' (· ≤ ·) ids
    rw [sorted] at listed order
    have below : leader ≤ first := least first (List.mem_mergeSort.mp (sorted ▸ List.mem_cons_self))
    have above : first ≤ leader := by
      rcases List.mem_cons.mp listed with same | later
      · exact same.symm.le
      · exact (List.pairwise_cons.mp order).1 leader later
    obtain rfl := le_antisymm below above
    rfl

def twoSchedulers : KazooGroup :=
  ⟨[idToZnode 9, "lock".toList, idToZnode 4], fun _ => some ServiceInstance.scheduler.pack⟩

theorem resolve_announced_two :
    serverSet ServiceInstance.lenient (fun _ _ => none) twoSchedulers =
        some (([9, 4].mergeSort (· ≤ ·)).map fun id : Nat =>
          some { ServiceInstance.scheduler with memberId := some (id : Int) }) ∧
      @resolve ServiceInstance.lenient (fun _ _ => none) "west".toList (some twoSchedulers) =
        .ok (some (address ServiceInstance.scheduler)) := by
  have holds : Announced twoSchedulers [9, 4] fun _ => ServiceInstance.scheduler :=
    ⟨.of_eq (by decide +kernel), fun _ _ => rfl, fun _ _ => ServiceInstance.scheduler_plain⟩
  have found := @resolve_announced ServiceInstance.lenient (fun _ _ => none) twoSchedulers [9, 4] _ holds "west".toList
  exact ⟨found.1, found.2 4 (by decide) (by decide)⟩

end ZookeeperSchedulerClient

end Aurora.Client
