import Aurora.Thermos.Types

namespace Aurora.Thermos

/-- The fields of `Process(Struct)` that planning and running read. -/
structure Process where
  name : Name
  maxFailures : Int := 1
  daemon : Bool := false
  ephemeral : Bool := false
  minDuration : Int := 5
  final : Bool := false
  deriving DecidableEq

structure Constraint where
  order : List Name
  deriving DecidableEq

structure Task where
  processes : List Process
  constraints : List Constraint := []
  maxFailures : Int := 1
  maxConcurrency : Int := 0
  finalizationWait : Int := 30
  deriving DecidableEq

end Aurora.Thermos
