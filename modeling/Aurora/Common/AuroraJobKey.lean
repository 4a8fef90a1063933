import Aurora.Library.PyText
import Mathlib.Data.List.Basic

namespace Aurora.Common

open PyText

structure JobKey (Name : Type) where
  role : Name
  environment : Name
  name : Name
  deriving DecidableEq

/-- A key with what its cluster and its names are made of. -/
structure AuroraJobKey (Cluster Name : Type) where
  cluster : Cluster
  role : Name
  env : Name
  name : Name
  deriving DecidableEq

-- which characters beyond ASCII are alphanumeric
variable (alnum : Char → Bool)

def isWord (c : Char) : Bool := c.isAlphanum || c = '_' || (127 < c.toNat && alnum c)

/-- `VALID_IDENTIFIER.match`: `^[\w\-\.]+$`, whose end may stand before a line feed that ends the text. -/
def validIdentifier (text : Text) : Bool :=
  let body := if text.getLast? = some '\n' then text.dropLast else text
  body ≠ [] && body.all fun c => isWord alnum c || c = '-' || c = '.'

abbrev Identifier := { text : Text // validIdentifier alnum text = true }

/-- A key that has been checked; its cluster never is. -/
abbrev ValidJobKey := AuroraJobKey Text (Identifier alnum)

structure InvalidIdentifier where
  field : String
  identifier : Text
  deriving DecidableEq, Repr

def assertValidIdentifier (field : String) (identifier : Text) : Except InvalidIdentifier (Identifier alnum) :=
  if valid : validIdentifier alnum identifier = true then .ok ⟨identifier, valid⟩ else .error ⟨field, identifier⟩

namespace AuroraJobKey

def create (cluster role env name : Text) : Except InvalidIdentifier (ValidJobKey alnum) := do
  let role ← assertValidIdentifier alnum "role" role
  let env ← assertValidIdentifier alnum "env" env
  let name ← assertValidIdentifier alnum "name" name
  return { cluster, role, env, name }

variable {alnum}

def toPath (key : ValidJobKey alnum) : Text :=
  key.cluster ++ '/' :: (key.role.1 ++ '/' :: (key.env.1 ++ '/' :: key.name.1))

def eq (key other : ValidJobKey alnum) : Bool := key.toPath = other.toPath

def hash (ofClass : Int) (ofText : Text → Int) (key : ValidJobKey alnum) : Int :=
  ofClass + ofText key.toPath

end AuroraJobKey

end Aurora.Common
