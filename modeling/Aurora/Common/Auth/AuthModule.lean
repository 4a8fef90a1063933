import Aurora.Library.Dict
import Mathlib.Algebra.Order.Floor.Defs
import Mathlib.Data.Rat.Floor

namespace Aurora.Common.Auth

open Collections

inductive Json
  | null
  | text (value : String)
  | number (value : ℚ)
  | other (truthy : Bool)
  deriving DecidableEq

def Json.truthy : Json → Bool
  | .null => false
  | .text value => value ≠ ""
  | .number value => value ≠ 0
  | .other truthy => truthy

abbrev SessionData := Dict String Json

structure RefreshRequest where
  tokenEndpoint : Json
  clientId : Json
  refreshToken : Json
  clientSecret : Option Json
  deriving DecidableEq

/-- What a token endpoint answers. -/
inductive Reply
  | object (data : SessionData)
  | requestException
  | valueError

inductive AuthError
  | requestException | valueError | typeError
  deriving DecidableEq

structure SessionStore where
  file : Option SessionData := none
  writable : Bool := true
  sent : List RefreshRequest := []

abbrev SessionAction := EStateM AuthError SessionStore

def given (session : SessionData) (key : String) : Option Json := (session.get? key).filter Json.truthy

def setDefault (data : SessionData) (key : String) (value : Json) : SessionData :=
  if (data.get? key).isSome then data else data.set key value

def getNumber (data : SessionData) (key : String) (default : ℚ) : SessionAction ℚ :=
  match data.get? key with
  | none => return default
  | some (.number value) => return value
  | some _ => throw .typeError

def post (request : RefreshRequest) (reply : Reply) : SessionAction SessionData := do
  modify fun store => { store with sent := store.sent ++ [request] }
  match reply with
  | .object data => return data
  | .requestException => throw .requestException
  | .valueError => throw .valueError

def saveSessionData (data : SessionData) : SessionAction Unit :=
  modify fun store => if store.writable then { store with file := some data } else store

section Refresh

def refreshRequest (defaultClientId : Option String) (session : SessionData) : Option RefreshRequest := do
  let tokenEndpoint ← given session "token_endpoint"
  let clientId ← (given session "client_id").or ((defaultClientId.filter (· ≠ "")).map .text)
  let refreshToken ← given session "refresh_token"
  return ⟨tokenEndpoint, clientId, refreshToken, given session "client_secret"⟩

def renewed (request : RefreshRequest) (newData : SessionData) (now : ℚ) : SessionAction SessionData := do
  let newData := setDefault newData "refresh_token" request.refreshToken
  let newData := setDefault newData "token_endpoint" request.tokenEndpoint
  let newData := setDefault newData "client_id" request.clientId
  let expiresIn ← getNumber newData "expires_in" 3600
  return newData.set "expires_at" (.number (⌊now⌋ + expiresIn))

def refresh (defaultClientId : Option String) (session : SessionData) (reply : Reply) (now : ℚ) :
    SessionAction (Option SessionData) := do
  match refreshRequest defaultClientId session with
  | none => return none
  | some request =>
    let newData ← post request reply
    if (newData.get? "access_token").isNone then
      return none
    return some (← renewed request newData now)

def refreshSessionData (defaultClientId : Option String) (session : SessionData) (reply : Reply) (now : ℚ) :
    SessionAction (Option SessionData) :=
  tryCatch (refresh defaultClientId session reply now) fun
    | .requestException | .valueError => return none
    | e => throw e

def expired (session : SessionData) (now : ℚ) : SessionAction Bool := do
  let expiresAt ← getNumber session "expires_at" 0
  return expiresAt - 60 ≤ now && (given session "refresh_token").isSome

def refreshIfExpired (session : SessionData) (reply : Reply) (now : ℚ) : SessionAction SessionData := do
  if ← expired session now then
    match ← refreshSessionData (some "aurora-cli") session reply now with
    | none => return session
    | some refreshed =>
      saveSessionData refreshed
      return refreshed
  return session

def loadAccessTokenFromSessionFile (reply : Reply) (now : ℚ) : SessionAction (Option Json) := do
  match (← get).file with
  | none => return none
  | some session => return (← refreshIfExpired session reply now).get? "access_token"

end Refresh

structure SessionTokenAuth where
  token : Option Json := none
  auroraToken : Option Json := none

def SessionTokenAuth.init (tokenFile : String) (reply : Reply) (now : ℚ) : SessionAction SessionTokenAuth := do
  if tokenFile ≠ "" then
    return { token := some (.text tokenFile) }
  match (← get).file with
  | none => return {}
  | some session =>
    if session.entries = [] then
      return {}
    if session.get? "token_type" = some (.text "aurora_cookie") ∧ (given session "aurora_token").isSome then
      return { auroraToken := session.get? "aurora_token" }
    return { token := (← refreshIfExpired session reply now).get? "access_token" }

namespace OidcDeviceAuth

def refreshAndSave (clientId : Option String) (session : SessionData) (reply : Reply) (now : ℚ) :
    SessionAction (Option SessionData) := do
  match ← refresh clientId session reply now with
  | none => return none
  | some newData =>
    saveSessionData newData
    return some newData

def refreshToken (clientId : Option String) (session : SessionData) (reply : Reply) (now : ℚ) :
    SessionAction (Option SessionData) :=
  tryCatch (refreshAndSave clientId session reply now) fun
    | .requestException => return none
    | e => throw e

def loadToken (clientId : Option String) (reply : Reply) (now : ℚ) : SessionAction (Option Json) :=
  tryCatch
    (do
      match (← get).file with
      | none => return none
      | some data =>
        if (data.get? "access_token").isNone then
          return none
        if ← expired data now then
          return ((← refreshToken clientId data reply now).getD data).get? "access_token"
        return data.get? "access_token")
    fun
    | .valueError => return none
    | e => throw e

end OidcDeviceAuth

def setGiven (data : SessionData) (key : String) (value : Option String) : SessionData :=
  match value with
  | none => data
  | some text => if text = "" then data else data.set key (.text text)

def persistTokens (clusterName : String) (tokens : SessionData) (tokenEndpoint clientId clientSecret : Option String)
    (now : ℚ) : SessionAction Unit := do
  if (tokens.get? "access_token").isNone then
    throw .valueError
  let expiresIn ← getNumber tokens "expires_in" 3600
  let tokens := (tokens.set "cluster" (.text clusterName)).set "expires_at" (.number (⌊now⌋ + expiresIn))
  let tokens := setGiven tokens "token_endpoint" tokenEndpoint
  let tokens := setGiven tokens "client_id" clientId
  let tokens := setGiven tokens "client_secret" clientSecret
  modify fun store => { store with file := some tokens }

end Aurora.Common.Auth
