import Aurora.Library.Dict
import Mathlib.Data.Finset.Lattice.Basic
import Mathlib.Data.Finset.Union

namespace Aurora.Config

open Collections

/-- A name or a number. -/
abbrev Port := String ⊕ Int

inductive PortError
  | cycle
  /-- not an exception: a loop that is still going when the rounds given to the model are used up -/
  | unfinished
  deriving DecidableEq

def update (d other : Dict String Port) : Dict String Port :=
  other.entries.foldl (fun d entry => d.set entry.1 entry.2) d

section Resolve

-- `int(...)` of a string, which is none for a ValueError
variable (parseInt : String → Option Int)

namespace PortResolver

def toInt : Port → Port
  | .inr number => .inr number
  | .inl text =>
    match parseInt text with
    | some number => .inr number
    | none => .inl text

def resolveLoop (portmap : Dict String Port) : Nat → Finset Port → Port → Except PortError Port
  | _, _, .inr number => return .inr number
  | rounds, visited, .inl root =>
    match portmap.get? root with
    | none => return .inl root
    | some next =>
      match rounds with
      | 0 => throw .unfinished
      | rounds + 1 =>
        let visited := insert (.inl root) visited
        if next ∈ visited then throw .cycle
        else resolveLoop portmap rounds visited next

def resolveOne (portmap : Dict String Port) (staticPort : String) : Except PortError Port :=
  match portmap.get? staticPort with
  | none => return .inl staticPort
  | some root => resolveLoop portmap portmap.entries.length ∅ root

def resolveAll (portmap : Dict String Port) (names : List String) : Except PortError (Dict String Port) :=
  names.foldlM (fun resolved name => return resolved.set name (← resolveOne portmap name)) .empty

def resolve (portmap : Dict String Port) : Except PortError (Dict String Port) :=
  let portmap := portmap.map (toInt parseInt)
  resolveAll portmap portmap.keys

end PortResolver

/-- What the ports of a job depend on: its announcer's portmap, and the thermos ports that its task references. -/
structure AuroraConfig where
  announce : Option (Dict String Port)
  referencedPorts : Finset String

def AuroraConfig.portmap (config : AuroraConfig) : Dict String Port := config.announce.getD .empty

def unallocatedName : Port → Finset String
  | .inl name => {name}
  | .inr _ => ∅

def AuroraConfig.ports (config : AuroraConfig) : Except PortError (Finset String) := do
  let resolvedPortmap ← PortResolver.resolve parseInt config.portmap
  let unallocated := (resolvedPortmap.entries.map Prod.snd).toFinset.biUnion unallocatedName
  let unresolvedReferences := config.referencedPorts.biUnion fun portRef =>
    unallocatedName ((resolvedPortmap.get? portRef).getD (.inl portRef))
  return unallocated ∪ unresolvedReferences

/-- The ports of a task, given the ones that the scheduler assigned. -/
def resolvePorts (announce : Option (Dict String Port)) (portmap : Dict String Int) :
    Except PortError (Dict String Int) := do
  let taskPortmap := update (announce.getD .empty) (portmap.map Sum.inr)
  let taskPortmap ← PortResolver.resolve parseInt taskPortmap
  return taskPortmap.entries.foldl
    (fun ports entry => match entry.2 with
      | .inl _ => ports
      | .inr number => ports.set entry.1 number) .empty

end Resolve

end Aurora.Config
