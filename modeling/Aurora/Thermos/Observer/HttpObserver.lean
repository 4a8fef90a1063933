import Aurora.Library.ExpiringDict
import Mathlib.Algebra.Order.Field.Rat
import Mathlib.Data.Rat.Defs

namespace Aurora.Thermos.Observer

open Collections

/-- What is used of the language's strings and hashes, and of `ExpiringDict`. -/
structure Builtins where
  strip : String → String
  lower : String → String
  /-- the hexdigest of the encoded text -/
  sha256 : String → String
  /-- for a max age, whether an entry of an age is still given -/
  young : ℚ → ℚ → Bool

namespace Builtins

variable (builtins : Builtins)

/-- An entry is only given within its max age. -/
def Expires : Prop := ∀ maxAge age, builtins.young maxAge age = true → age ≤ maxAge

/-- An entry that is not given any more is not given later either. -/
def StaysExpired : Prop :=
  ∀ maxAge age older, age ≤ older → builtins.young maxAge older = true → builtins.young maxAge age = true

end Builtins

structure Request where
  headers : String → Option String
  /-- the user and the password, which is None for a user that the web server names -/
  auth : Option (String × Option String)

inductive Claim
  | text (value : String)
  | other
  deriving DecidableEq

abbrev Userinfo := Dict String Claim

inductive Body
  | object (userinfo : Userinfo)
  | notObject
  /-- a ValueError, a KeyError or a TypeError -/
  | invalid
  | raised

/-- What comes of a request to the userinfo endpoint. -/
inductive Answer
  | response (statusCode : Int) (body : Body)
  | raised

structure Call where
  time : ℚ
  token : String
  answer : Answer

structure Replies where
  redisFails : Bool := false
  userinfo : Answer := .raised

structure Options where
  redisKeyPrefix : String := "/aurora/thermos/user/"
  userinfoUrl : Option String := none
  allowTrustedHeaderWithoutBearer : Bool := false
  realm : String := "Thermos Observer"

/-- The caches of the module, and what surrounds them. -/
structure World where
  now : ℚ := 0
  redis : Dict String String := .empty
  cache : ExpiringDict String String ℚ := .empty
  /-- None stands for False, a rejected token -/
  oidcCache : ExpiringDict String (Option Userinfo) ℚ := .empty
  /-- the requests to the userinfo endpoint -/
  calls : List Call := []

inductive Strength
  | trustedHeader | bearer | basic
  deriving DecidableEq

inductive Verdict
  | callback (strength : Strength)
  | unauthorized (wwwAuthenticate : String)
  deriving DecidableEq

def Verdict.runsCallback : Verdict → Bool
  | .callback _ => true
  | .unauthorized _ => false

def cacheMaxAge : ℚ := 1800

def oidcCacheMaxAge : ℚ := 300

def trustedUserHeaders : List String := ["X-Forwarded-User", "X-Auth-Request-User"]

def Request.authorization (request : Request) : String := (request.headers "Authorization").getD ""

def bearerPrefix : String := "Bearer "

def isBearer (authHeader : String) : Bool := bearerPrefix.toList.isPrefixOf authHeader.toList

def bearerToken (authHeader : String) : String := String.ofList (authHeader.toList.drop 7)

section Plugins

variable (builtins : Builtins) (options : Options)

namespace BasicAuth

def getUser (world : World) (replies : Replies) (user : String) : Option String :=
  match world.cache.get? (builtins.young cacheMaxAge) world.now user with
  | some val => some val
  | none => if replies.redisFails then none else world.redis.get? (options.redisKeyPrefix ++ user)

def setCache (user userHash : String) : StateM World Unit :=
  modify fun world => { world with cache := world.cache.set world.now user ("sha256:" ++ userHash) }

def checkPassword (replies : Replies) (user password : String) : StateM World Bool := do
  let userHash := builtins.sha256 (user ++ ":" ++ password)
  if getUser builtins options (← get) replies user = some ("sha256:" ++ userHash) then
    setCache user userHash
    return true
  return false

def apply (request : Request) (replies : Replies) : StateM World Verdict := do
  if let some (user, some password) := request.auth then
    if ← checkPassword builtins options replies user password then
      return .callback .basic
  return .unauthorized ("Basic realm=\"" ++ options.realm ++ "\"")

end BasicAuth

namespace OidcBearerAuth

def remember (token : String) (verdict : Option Userinfo) : StateM World Unit :=
  modify fun world => { world with oidcCache := world.oidcCache.set world.now token verdict }

/-- What is remembered of an answer: None for a rejection, nothing at all for an exception. -/
def verdictOf : Answer → Option (Option Userinfo)
  | .raised => none
  | .response statusCode body =>
    if statusCode ≠ 200 then some none
    else match body with
      | .object userinfo => some (some userinfo)
      | .notObject | .invalid => some none
      | .raised => none

def validateToken (replies : Replies) (token : String) : StateM World (Option Userinfo) := do
  let world ← get
  match world.oidcCache.get? (builtins.young oidcCacheMaxAge) world.now token with
  | some cached => return cached
  | none =>
    if options.userinfoUrl.isNone then
      return none
    modify fun world => { world with calls := world.calls ++ [⟨world.now, token, replies.userinfo⟩] }
    match verdictOf replies.userinfo with
    | none => return none
    | some verdict =>
      remember token verdict
      return verdict

def normalizeUser (value : Option String) : Option String :=
  (value.map fun text => builtins.lower (builtins.strip text)).filter (· ≠ "")

def trustedUser (request : Request) : Option String :=
  trustedUserHeaders.findSome? fun header => normalizeUser builtins (request.headers header)

def claimText : Option Claim → Option String
  | some (.text value) => some value
  | _ => none

def identityClaims : List String := ["email", "preferred_username", "username", "upn", "sub"]

def userinfoCandidates (userinfo : Userinfo) : List String :=
  identityClaims.filterMap fun key => normalizeUser builtins (claimText (userinfo.get? key))

def authenticateTrustedHeaderOnly (request : Request) : Bool := (trustedUser builtins request).isSome

def authenticateBearer (request : Request) (replies : Replies) (authHeader : String) : StateM World Bool := do
  if !isBearer authHeader then
    return false
  match trustedUser builtins request with
  | none => return false
  | some trustedUser =>
    match ← validateToken builtins options replies (bearerToken authHeader) with
    | none => return false
    | some userinfo => return (userinfoCandidates builtins userinfo).contains trustedUser

def apply (request : Request) (replies : Replies) : StateM World Verdict := do
  let authHeader := request.authorization
  let unauthorized := Verdict.unauthorized ("Bearer realm=\"" ++ options.realm ++ "\"")
  if authHeader = "" then
    if options.allowTrustedHeaderWithoutBearer && authenticateTrustedHeaderOnly builtins request then
      return .callback .trustedHeader
    return unauthorized
  if !isBearer authHeader then
    return unauthorized
  if ← authenticateBearer builtins options request replies authHeader then
    return .callback .bearer
  return unauthorized

end OidcBearerAuth

namespace CombinedAuth

def tryOidc (request : Request) (replies : Replies) : StateM World (Option Strength) := do
  let authHeader := request.authorization
  if isBearer authHeader then
    if ← OidcBearerAuth.authenticateBearer builtins options request replies authHeader then
      return some .bearer
  else if options.allowTrustedHeaderWithoutBearer && OidcBearerAuth.authenticateTrustedHeaderOnly builtins request then
    return some .trustedHeader
  return none

def tryBasic (request : Request) (replies : Replies) : StateM World Bool := do
  if let some (user, some password) := request.auth then
    if user ≠ "" ∧ password ≠ "" then
      return ← BasicAuth.checkPassword builtins options replies user password
  return false

def apply (request : Request) (replies : Replies) : StateM World Verdict := do
  if let some strength ← tryOidc builtins options request replies then
    return .callback strength
  if ← tryBasic builtins options request replies then
    return .callback .basic
  return .unauthorized ("Bearer realm=\"" ++ options.realm ++ "\", Basic realm=\"" ++ options.realm ++ "\"")

end CombinedAuth

inductive Plugin
  | basicAuth | oidcBearerAuth | combinedAuth
  deriving DecidableEq

def Plugin.apply : Plugin → Request → Replies → StateM World Verdict
  | .basicAuth => BasicAuth.apply builtins options
  | .oidcBearerAuth => OidcBearerAuth.apply builtins options
  | .combinedAuth => CombinedAuth.apply builtins options

inductive Event
  /-- the clock reads a later time, or stays -/
  | clock (time : ℚ)
  | record (key : String) (value : Option String)
  | dropUser (user : String)
  | dropToken (token : String)
  | request (plugin : Plugin) (request : Request) (replies : Replies)

def World.next (world : World) : Event → World
  | .clock time => { world with now := max world.now time }
  | .record key none => { world with redis := world.redis.erase key }
  | .record key (some value) => { world with redis := world.redis.set key value }
  | .dropUser user => { world with cache := world.cache.drop user }
  | .dropToken token => { world with oidcCache := world.oidcCache.drop token }
  | .request plugin request replies => ((plugin.apply builtins options request replies).run world).2

end Plugins

end Aurora.Thermos.Observer
