import Aurora.Client.Cli.Options
import Aurora.Library.Json

namespace Aurora.Common.Zookeeper

open PyText Collections Json

/-- What is left to the platform: `inet_pton`, what `int` makes of a float (nothing where it raises no ValueError, and
    none for a ValueError), and the digits beyond ASCII. -/
structure Platform where
  ipv4 : Str → Bool
  ipv6 : Str → Bool
  truncate : Text → Option (Option Int)
  unicode : Client.Cli.Unicode

/-- An instance of `int`. -/
inductive Port
  | int (n : Int)
  | bool (value : Bool)
  deriving DecidableEq

def Port.toJson : Port → Value
  | .int n => .int n
  | .bool value => .bool value

def Port.text : Port → Text
  | .int n => decimal n
  | .bool true => "True".toList
  | .bool false => "False".toList

variable (platform : Platform)

structure Endpoint where
  host : Str
  port : Port
  inet : Option Str
  inet6 : Option Str
  inet_valid : ∀ address ∈ inet, platform.ipv4 address = true
  inet6_valid : ∀ address ∈ inet6, platform.ipv6 address = true
  deriving DecidableEq

namespace Endpoint

variable {platform}

def toDict (endpoint : Endpoint platform) : Value :=
  .dict ([(ofText "host".toList, .str endpoint.host), (ofText "port".toList, endpoint.port.toJson)] ++
    (endpoint.inet.map fun address => (ofText "inet".toList, .str address)).toList ++
    (endpoint.inet6.map fun address => (ofText "inet6".toList, .str address)).toList)

variable (platform)

/-- The constructor, where nothing stands for an exception. -/
def create (host port : Value) (inet inet6 : Option Str) : Option (Endpoint platform) :=
  match host, port with
  | .str host, .int n =>
    if valid : (∀ address ∈ inet, platform.ipv4 address = true) ∧ ∀ address ∈ inet6, platform.ipv6 address = true then
      some ⟨host, .int n, inet, inet6, valid.1, valid.2⟩
    else none
  | .str host, .bool value =>
    if valid : (∀ address ∈ inet, platform.ipv4 address = true) ∧ ∀ address ∈ inet6, platform.ipv6 address = true then
      some ⟨host, .bool value, inet, inet6, valid.1, valid.2⟩
    else none
  | _, _ => none

def address : Option Value → Option (Option Str)
  | none | some .null => some none
  | some (.str text) => some (some text)
  | some _ => none

def fromDict : Value → Option (Endpoint platform)
  | .dict entries => do
    let inet ← address (Dict.lookup entries (ofText "inet".toList))
    let inet6 ← address (Dict.lookup entries (ofText "inet6".toList))
    create platform (← Dict.lookup entries (ofText "host".toList)) (← Dict.lookup entries (ofText "port".toList))
      inet inet6
  | _ => none

end Endpoint

inductive Status
  | dead | starting | alive | stopping | stopped | warning
  deriving DecidableEq

namespace Status

def name : Status → Text
  | .dead => "DEAD".toList
  | .starting => "STARTING".toList
  | .alive => "ALIVE".toList
  | .stopping => "STOPPING".toList
  | .stopped => "STOPPED".toList
  | .warning => "WARNING".toList

def fromString (text : Str) : Option Status :=
  [dead, starting, alive, stopping, stopped, warning].find? fun status => ofText status.name = text

end Status

structure ServiceInstance where
  serviceEndpoint : Endpoint platform
  additionalEndpoints : Dict Str (Endpoint platform)
  status : Status
  shard : Option Int
  memberId : Option Int

namespace ServiceInstance

variable {platform}

def toDict (service : ServiceInstance platform) : Value :=
  .dict ([(ofText "serviceEndpoint".toList, service.serviceEndpoint.toDict),
      (ofText "additionalEndpoints".toList,
        .dict (service.additionalEndpoints.entries.map fun (name, endpoint) => (name, endpoint.toDict))),
      (ofText "status".toList, .str (ofText service.status.name))] ++
    (service.shard.map fun shard => (ofText "shard".toList, .int shard)).toList ++
    (service.memberId.map fun member => (ofText "member_id".toList, .int member)).toList)

def pack (service : ServiceInstance platform) : Text := dumps service.toDict

variable (platform)

def plainText (text : Str) : Option Text :=
  text.mapM fun
    | .scalar char => some char
    | .surrogate _ => none

def checkInt : Option Value → Option (Option Int)
  | none | some .null => some none
  | some (.int n) => some (some n)
  | some (.bool value) => some (some (if value then 1 else 0))
  | some (.float literal) => platform.truncate literal
  | some (.str text) => some ((plainText text).bind (Client.Cli.int platform.unicode))
  | some (.list _) | some (.dict _) => none

def endpoints (additional : List (Str × Value)) : Option (Dict Str (Endpoint platform)) := do
  let read ← additional.mapM fun (name, value) => return (name, ← Endpoint.fromDict platform value)
  return read.foldl (fun all (name, endpoint) => all.set name endpoint) .empty

def unpackJson (blob : Text) (memberId : Option Int) : Option (ServiceInstance platform) :=
  match loads blob with
  | some (.dict entries) => do
    let status ← Dict.lookup entries (ofText "status".toList)
    let serviceEndpoint ← Dict.lookup entries (ofText "serviceEndpoint".toList)
    match ← Dict.lookup entries (ofText "additionalEndpoints".toList) with
    | .dict additional =>
      let additionalEndpoints ← endpoints platform additional
      let shard ← checkInt platform (Dict.lookup entries (ofText "shard".toList))
      let serviceEndpoint ← Endpoint.fromDict platform serviceEndpoint
      match status with
      | .str text =>
        return ⟨serviceEndpoint, additionalEndpoints, ← Status.fromString text, shard, memberId⟩
      | _ => none
    | _ => none
  | _ => none

def unpack (unpackThrift : Text → Option Int → Option (ServiceInstance platform)) (blob : Text)
    (memberId : Option Int) : Option (ServiceInstance platform) :=
  (unpackJson platform blob memberId).or (unpackThrift blob memberId)

end ServiceInstance

section Groups

/-- What a group sees of its path: the names of the nodes below it, and what is in the nodes that are there. -/
structure KazooGroup where
  children : List Text
  content : Text → Option Text

def memberPrefix : Text := "member_".toList

def znodeOwned (znode : Text) : Bool := memberPrefix.isPrefixOf znode

/-- `int(znode_name[len(cls.MEMBER_PREFIX):])`, which is none for a ValueError. -/
def znodeToId (znode : Text) : Option Int := Client.Cli.int platform.unicode (znode.drop memberPrefix.length)

def idToZnode (id : Int) : Text :=
  memberPrefix ++ if id < 0 then '-' :: (Nat.toDigits 10 id.natAbs).leftpad 9 '0'
    else (Nat.toDigits 10 id.natAbs).leftpad 10 '0'

namespace KazooGroup

variable (group : KazooGroup)

def list : Option (List Int) :=
  ((group.children.filter znodeOwned).mapM (znodeToId platform)).map fun ids => ids.mergeSort (· ≤ ·)

/-- `info` of a member that is not `Membership.error()`. Nothing stands for an answer that is. -/
def info (id : Int) : Option Text := group.content (idToZnode id)

end KazooGroup

def errorId : Int := -1

/-- `list(serverset)`. A member with the id of `Membership.error()` is passed over, since `info` raises for it, and what
    is no text is not unpacked either. -/
def serverSet (unpackThrift : Text → Option Int → Option (ServiceInstance platform)) (group : KazooGroup) :
    Option (List (Option (ServiceInstance platform))) :=
  (group.list platform).map fun ids =>
    (ids.filter fun id => id ≠ errorId).map fun id =>
      (group.info id).bind fun blob => ServiceInstance.unpack platform unpackThrift blob (some id)

end Groups

section RoundTrip

variable {platform}

/-- No text of it has a high surrogate directly before a low one. -/
structure Endpoint.Plain (endpoint : Endpoint platform) : Prop where
  host : endpoint.host.IsChain Apart
  inet : ∀ address ∈ endpoint.inet, address.IsChain Apart
  inet6 : ∀ address ∈ endpoint.inet6, address.IsChain Apart

structure ServiceInstance.Plain (service : ServiceInstance platform) : Prop where
  serviceEndpoint : service.serviceEndpoint.Plain
  names : ∀ entry ∈ service.additionalEndpoints.entries, entry.1.IsChain Apart
  endpoints : ∀ entry ∈ service.additionalEndpoints.entries, entry.2.Plain

theorem joined_ofText (text : Text) : joined (ofText text) = ofText text := by
  rw [joined_eq_iff]
  induction text with
  | nil => exact .nil
  | cons char text ih => exact List.isChain_cons.mpr ⟨fun _ _ => trivial, ih⟩

theorem Endpoint.toDict_plain {endpoint : Endpoint platform} (plain : endpoint.Plain) : endpoint.toDict.Plain := by
  obtain ⟨host, port, inet, inet6, valid, valid6⟩ := endpoint
  have host := joined_eq_iff.mpr plain.host
  have number : port.toJson.Plain := by cases port <;> trivial
  have first := plain.inet
  have second := plain.inet6
  cases inet <;> cases inet6 <;>
    simp_all [Endpoint.toDict, Value.Plain, PlainEntries, joined_ofText, ofText_inj, joined_eq_iff.mpr]

theorem Endpoint.fromDict_toDict (endpoint : Endpoint platform) :
    Endpoint.fromDict platform endpoint.toDict = some endpoint := by
  obtain ⟨host, port, inet, inet6, valid, valid6⟩ := endpoint
  cases port <;> cases inet <;> cases inet6 <;>
    simp_all [Endpoint.toDict, Endpoint.fromDict, Dict.lookup, ofText_inj, Endpoint.address, Endpoint.create,
      Port.toJson]

theorem Status.fromString_name (status : Status) : Status.fromString (ofText status.name) = some status := by
  cases status <;> rfl

theorem ServiceInstance.toDict_plain {service : ServiceInstance platform} (plain : service.Plain) :
    service.toDict.Plain := by
  obtain ⟨serviceEndpoint, additional, status, shard, memberId⟩ := service
  have endpoint := Endpoint.toDict_plain plain.serviceEndpoint
  have distinct : ((additional.entries.map fun (name, endpoint) => (name, endpoint.toDict)).map Prod.fst).Nodup := by
    rw [List.map_map]
    exact additional.distinct
  have entries : PlainEntries (additional.entries.map fun (name, endpoint) => (name, endpoint.toDict)) := by
    have names := plain.names
    have endpoints := plain.endpoints
    generalize additional.entries = listed at names endpoints
    induction listed with
    | nil => trivial
    | cons entry listed ih =>
      rw [List.forall_mem_cons] at names endpoints
      exact ⟨joined_eq_iff.mpr names.1, Endpoint.toDict_plain endpoints.1, ih names.2 endpoints.2⟩
  cases shard <;> cases memberId <;>
    simp_all [toDict, Value.Plain, PlainEntries, joined_ofText, ofText_inj]

namespace ServiceInstance

variable {unpackThrift : Text → Option Int → Option (ServiceInstance platform)} {memberId : Option Int}

theorem endpoints_toDict (additional : Dict Str (Endpoint platform)) :
    endpoints platform (additional.entries.map fun (name, endpoint) => (name, endpoint.toDict)) = some additional := by
  have read (listed : List (Str × Endpoint platform)) :
      (listed.map fun (name, endpoint) => (name, endpoint.toDict)).mapM
        (fun (name, value) => return (name, ← Endpoint.fromDict platform value)) = some listed := by
    induction listed with
    | nil => rfl
    | cons entry listed ih => simp_all [Endpoint.fromDict_toDict]
  rw [endpoints, read, Option.bind_eq_bind, Option.bind_some, foldl_set]
  rfl

theorem unpackJson_pack {service : ServiceInstance platform} (plain : service.Plain) :
    unpackJson platform service.pack memberId = some { service with memberId := memberId } := by
  rw [unpackJson, pack, loads_dumps (toDict_plain plain)]
  obtain ⟨serviceEndpoint, additional, status, shard, own⟩ := service
  cases shard <;> cases own <;>
    simp [toDict, Dict.lookup, ofText_inj, endpoints_toDict, checkInt, Endpoint.fromDict_toDict,
      Status.fromString_name]

/-- An instance that has been packed is read back with the id of the member that holds it. -/
theorem unpack_pack {service : ServiceInstance platform} (plain : service.Plain) :
    unpack platform unpackThrift service.pack memberId = some { service with memberId := memberId } := by
  rw [unpack, unpackJson_pack plain, Option.some_or]

def lenient : Platform := ⟨fun _ => true, fun _ => true, fun _ => none, .asciiOnly⟩

def local8081 : Endpoint lenient :=
  ⟨ofText "local\"host".toList, .int 8081, none, some [.surrogate 3], nofun, fun _ _ => rfl⟩

theorem local8081_plain : local8081.Plain := ⟨by decide, nofun, by simp [local8081]⟩

def scheduler : ServiceInstance lenient :=
  ⟨local8081, Dict.empty.set (ofText "http".toList) local8081, .alive, some 0, none⟩

theorem scheduler_plain : scheduler.Plain where
  serviceEndpoint := local8081_plain
  names := by
    intro entry member
    obtain rfl := List.mem_singleton.mp member
    decide
  endpoints := by
    intro entry member
    obtain rfl := List.mem_singleton.mp member
    exact local8081_plain

theorem unpack_pack_scheduler :
    unpack lenient (fun _ _ => none) scheduler.pack (some 7) = some { scheduler with memberId := some 7 } :=
  unpack_pack scheduler_plain

end ServiceInstance

end RoundTrip

section Members

variable {platform}

theorem znodeToId_idToZnode (id : Nat) : znodeToId platform (idToZnode id) = some (id : Int) := by
  have nonnegative : ¬ (id : Int) < 0 := by omega
  have decimal : Client.Cli.Decimal ((Nat.toDigits 10 id).leftpad 10 '0') id := by
    refine ⟨⟨?_, ?_⟩, ?_⟩
    · simp [List.leftpad]
    · intro char member
      rcases List.mem_append.mp member with zero | digit
      · exact (List.eq_of_mem_replicate zero) ▸ rfl
      · exact isDigit_toDigits id char digit
    · rw [List.leftpad, Nat.ofDigitChars_append, Nat.ofDigitChars_replicate_zero, Nat.mul_zero,
        Nat.ofDigitChars_ten_toDigits]
  rw [znodeToId, idToZnode, if_neg nonnegative, List.drop_left, Int.natAbs_natCast]
  exact Client.Cli.int_decimal platform.unicode decimal

/-- The members of the group are these, each with an instance that was packed for it. -/
structure Announced (group : KazooGroup) (ids : List Nat) (announced : Nat → ServiceInstance platform) : Prop where
  nodes : (group.children.filter znodeOwned).Perm (ids.map fun id : Nat => idToZnode id)
  contents : ∀ id ∈ ids, group.content (idToZnode id) = some (announced id).pack
  plain : ∀ id ∈ ids, (announced id).Plain

variable {group : KazooGroup} {ids : List Nat} {announced : Nat → ServiceInstance platform}
  {unpackThrift : Text → Option Int → Option (ServiceInstance platform)}

theorem mapM_some {α β : Type} {f : α → Option β} {g : α → β} {items : List α}
    (all : ∀ item ∈ items, f item = some (g item)) : items.mapM f = some (items.map g) := by
  induction items with
  | nil => rfl
  | cons item items ih =>
    rw [List.forall_mem_cons] at all
    simp [all.1, ih all.2]

theorem list_announced (holds : Announced group ids announced) :
    group.list platform = some ((ids.mergeSort (· ≤ ·)).map fun id : Nat => (id : Int)) := by
  have read (id : Nat) : (znodeToId platform (idToZnode id)).getD 0 = (id : Int) := by
    rw [znodeToId_idToZnode, Option.getD_some]
  have known : ∀ znode ∈ group.children.filter znodeOwned,
      znodeToId platform znode = some ((znodeToId platform znode).getD 0) := by
    intro znode member
    obtain ⟨id, -, rfl⟩ := List.mem_map.mp (holds.nodes.mem_iff.mp member)
    rw [read, znodeToId_idToZnode]
  have numbers := holds.nodes.map fun znode => (znodeToId platform znode).getD 0
  simp only [List.map_map, Function.comp_def, read] at numbers
  have moved := (List.mergeSort_perm _ (· ≤ ·)).trans
    (numbers.trans ((List.mergeSort_perm ids (· ≤ ·)).map fun id : Nat => (id : Int)).symm)
  have sorted : ((ids.mergeSort (· ≤ ·)).map fun id : Nat => (id : Int)).Pairwise (· ≤ ·) :=
    List.pairwise_map.mpr ((List.pairwise_mergeSort' (· ≤ ·) ids).imp Int.ofNat_le.mpr)
  rw [KazooGroup.list, mapM_some known, Option.map_some, Option.some.injEq]
  exact moved.eq_of_pairwise (fun _ _ _ _ => le_antisymm) (List.pairwise_mergeSort' (· ≤ ·) _) sorted

theorem serverSet_announced (holds : Announced group ids announced) :
    serverSet platform unpackThrift group =
      some ((ids.mergeSort (· ≤ ·)).map fun id => some { announced id with memberId := some (id : Int) }) := by
  have members : ∀ id ∈ (ids.mergeSort (· ≤ ·)).map fun id : Nat => (id : Int), decide (id ≠ errorId) = true := by
    intro id member
    obtain ⟨number, -, rfl⟩ := List.mem_map.mp member
    apply decide_eq_true
    rw [errorId]
    omega
  rw [serverSet, list_announced holds, Option.map_some, List.filter_eq_self.mpr members, List.map_map]
  congr 1
  apply List.map_congr_left
  intro id member
  have listed : id ∈ ids := List.mem_mergeSort.mp member
  simp [KazooGroup.info, holds.contents id listed, ServiceInstance.unpack,
    ServiceInstance.unpackJson_pack (holds.plain id listed)]

end Members

end Aurora.Common.Zookeeper
