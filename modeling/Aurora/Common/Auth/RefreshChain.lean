import Aurora.Common.Auth.AuthModule
import Aurora.Library.Replay

namespace Aurora.Common.Auth

open Collections Replay

/-- The two ways to refresh a session, with the client id that each falls back on. -/
inductive Refresher
  | sessionFile (defaultClientId : Option String)
  | oidcDevice (clientId : Option String)

/-- An answered refresh of the session in the file, which is written back. -/
def refreshFile (refresher : Refresher) (reply : SessionData) (now : ℚ) : SessionAction Unit := do
  match (← get).file with
  | none => return
  | some session =>
    match refresher with
    | .sessionFile defaultClientId =>
      match ← refreshSessionData defaultClientId session (.object reply) now with
      | none => return
      | some refreshed => saveSessionData refreshed
    | .oidcDevice clientId =>
      let _ ← OidcDeviceAuth.refreshToken clientId session (.object reply) now

structure Refresh where
  refresher : Refresher
  reply : SessionData
  now : ℚ

def chain : List Refresh → SessionAction Unit
  | [] => return
  | step :: rest => do
    refreshFile step.refresher step.reply step.now
    chain rest

/-- What a login knows of its client. -/
structure Client where
  tokenEndpoint : String
  clientId : String
  clientSecret : String
  tokenEndpoint_given : tokenEndpoint ≠ ""
  clientId_given : clientId ≠ ""
  clientSecret_given : clientSecret ≠ ""

/-- A response with a token, which does not name the client. -/
structure Successful (reply : SessionData) : Prop where
  accessToken : (reply.get? "access_token").isSome
  refreshToken : ∀ value, reply.get? "refresh_token" = some value → ∃ token, token ≠ "" ∧ value = .text token
  expiresIn : ∀ value, reply.get? "expires_in" = some value → ∃ seconds, value = .number seconds
  tokenEndpoint : reply.get? "token_endpoint" = none
  clientId : reply.get? "client_id" = none
  clientSecret : reply.get? "client_secret" = none

def newToken (token : String) (reply : SessionData) : String :=
  match reply.get? "refresh_token" with
  | some (.text issued) => issued
  | _ => token

def issued : String → List Refresh → List String
  | _, [] => []
  | token, step :: rest => token :: issued (newToken token step.reply) rest

def Client.request (client : Client) (clientSecret : Option Json) (token : String) : RefreshRequest :=
  ⟨.text client.tokenEndpoint, .text client.clientId, .text token, clientSecret⟩

structure Names (client : Client) (token : String) (session : SessionData) : Prop where
  tokenEndpoint : session.get? "token_endpoint" = some (.text client.tokenEndpoint)
  clientId : session.get? "client_id" = some (.text client.clientId)
  refreshToken : session.get? "refresh_token" = some (.text token)
  token_given : token ≠ ""

section Steps

variable {client : Client} {token : String} {session reply : SessionData} {store : SessionStore} {now : ℚ}
  {defaultClientId : Option String}

theorem given_text {key value : String} (found : session.get? key = some (.text value)) (some : value ≠ "") :
    given session key = Option.some (.text value) := by
  simp [given, found, Json.truthy, some]

theorem Names.refreshRequest (names : Names client token session) :
    refreshRequest defaultClientId session = some (client.request (given session "client_secret") token) := by
  simp [Auth.refreshRequest, given_text names.tokenEndpoint client.tokenEndpoint_given,
    given_text names.clientId client.clientId_given, given_text names.refreshToken names.token_given, Client.request]

theorem get?_setDefault (data : SessionData) (key other : String) (value : Json) :
    (setDefault data key value).get? other =
      if other = key then some ((data.get? key).getD value) else data.get? other := by
  unfold setDefault
  split
  · rename_i present
    obtain ⟨found, same⟩ := Option.isSome_iff_exists.mp present
    split
    · rename_i equal
      simp [equal, same]
    · rfl
  · rename_i missing
    rw [Dict.get?_set]
    split
    · simp [Option.not_isSome_iff_eq_none.mp missing]
    · rfl

theorem getNumber_run {key : String} {default : ℚ}
    (number : ∀ value, session.get? key = some value → ∃ seconds, value = .number seconds) :
    ∃ seconds, (getNumber session key default).run store = .ok seconds store := by
  unfold getNumber
  cases found : session.get? key with
  | none => exact ⟨default, rfl⟩
  | some value =>
    obtain ⟨seconds, rfl⟩ := number value found
    exact ⟨seconds, rfl⟩

def completed (request : RefreshRequest) (reply : SessionData) : SessionData :=
  setDefault (setDefault (setDefault reply "refresh_token" request.refreshToken) "token_endpoint" request.tokenEndpoint)
    "client_id" request.clientId

theorem get?_completed (request : RefreshRequest) (key : String) :
    (completed request reply).get? key =
      if key = "client_id" then some ((reply.get? "client_id").getD request.clientId)
      else if key = "token_endpoint" then some ((reply.get? "token_endpoint").getD request.tokenEndpoint)
      else if key = "refresh_token" then some ((reply.get? "refresh_token").getD request.refreshToken)
      else reply.get? key := by
  simp only [completed, get?_setDefault]
  simp

theorem newToken_issued (successful : Successful reply) (token_given : token ≠ "") :
    (reply.get? "refresh_token").getD (.text token) = .text (newToken token reply) ∧ newToken token reply ≠ "" := by
  unfold newToken
  cases found : reply.get? "refresh_token" with
  | none => exact ⟨rfl, token_given⟩
  | some value =>
    obtain ⟨issued, issued_given, rfl⟩ := successful.refreshToken value found
    exact ⟨rfl, issued_given⟩

/-- The session that a successful response makes names the client and the current token, but no secret. -/
theorem renewed_run (successful : Successful reply) (token_given : token ≠ "") (clientSecret : Option Json) :
    ∃ session, (renewed (client.request clientSecret token) reply now).run store = .ok session store ∧
      Names client (newToken token reply) session ∧ session.get? "client_secret" = none := by
  have number : ∀ value, (completed (client.request clientSecret token) reply).get? "expires_in" = some value →
      ∃ seconds, value = .number seconds := by
    intro value found
    rw [get?_completed] at found
    exact successful.expiresIn value (by simpa using found)
  obtain ⟨seconds, ran⟩ := @getNumber_run _ store "expires_in" 3600 number
  obtain ⟨current, current_given⟩ := newToken_issued successful token_given
  refine ⟨(completed (client.request clientSecret token) reply).set "expires_at" (.number (⌊now⌋ + seconds)), ?_, ?_, ?_⟩
  · exact run_bind_of_ok ran
  · constructor
    · simp [Dict.get?_set, get?_completed, successful.tokenEndpoint, Client.request]
    · simp [Dict.get?_set, get?_completed, successful.clientId, Client.request]
    · simp [Dict.get?_set, get?_completed, Client.request, current]
    · exact current_given
  · simp [Dict.get?_set, get?_completed, successful.clientSecret]

theorem refresh_run (names : Names client token session) (successful : Successful reply) :
    ∃ refreshed, (refresh defaultClientId session (.object reply) now).run store =
        .ok (some refreshed) { store with
          sent := store.sent ++ [client.request (given session "client_secret") token] } ∧
      Names client (newToken token reply) refreshed ∧ refreshed.get? "client_secret" = none := by
  obtain ⟨refreshed, ran, names', secretless⟩ := @renewed_run client token reply
    { store with sent := store.sent ++ [client.request (given session "client_secret") token] } now successful
    names.token_given (given session "client_secret")
  refine ⟨refreshed, ?_, names', secretless⟩
  unfold refresh
  rw [names.refreshRequest]
  have posted : (post (client.request (given session "client_secret") token) (.object reply)).run store =
      .ok reply { store with sent := store.sent ++ [client.request (given session "client_secret") token] } := rfl
  simp only [run_bind_of_ok posted]
  have present : ¬ (reply.get? "access_token").isNone := by
    have token := successful.accessToken
    intro missing
    rw [Option.isNone_iff_eq_none.mp missing] at token
    cases token
  rw [if_neg present, run_bind_of_ok ran]
  rfl

theorem saveSessionData_run (writable : store.writable = true) :
    (saveSessionData session).run store = .ok () { store with file := some session } := by
  change EStateM.Result.ok () (if store.writable = true then { store with file := some session } else store) = _
  rw [if_pos writable]

/-- Both ways send the same request and write back a session that lacks the client's secret. -/
theorem refreshFile_run (names : Names client token session) (successful : Successful reply)
    (inFile : store.file = some session) (writable : store.writable = true) (refresher : Refresher) :
    ∃ refreshed, (refreshFile refresher reply now).run store =
        .ok () { store with
          file := some refreshed
          sent := store.sent ++ [client.request (given session "client_secret") token] } ∧
      Names client (newToken token reply) refreshed ∧ refreshed.get? "client_secret" = none := by
  have got : (get : SessionAction SessionStore).run store = .ok store store := rfl
  unfold refreshFile
  rw [run_bind_of_ok got, inFile]
  cases refresher with
  | sessionFile defaultClientId =>
    obtain ⟨refreshed, ran, names', secretless⟩ := @refresh_run client token session reply store now defaultClientId
      names successful
    refine ⟨refreshed, ?_, names', secretless⟩
    simp only [refreshSessionData]
    rw [run_bind_of_ok (run_tryCatch_of_ok ran)]
    exact saveSessionData_run writable
  | oidcDevice clientId =>
    obtain ⟨refreshed, ran, names', secretless⟩ := @refresh_run client token session reply store now clientId
      names successful
    refine ⟨refreshed, ?_, names', secretless⟩
    have saved : (OidcDeviceAuth.refreshAndSave clientId session (.object reply) now).run store =
        .ok (some refreshed) { store with
          file := some refreshed
          sent := store.sent ++ [client.request (given session "client_secret") token] } := by
      rw [OidcDeviceAuth.refreshAndSave, run_bind_of_ok ran]
      exact run_bind_of_ok (saveSessionData_run writable)
    simp only [OidcDeviceAuth.refreshToken]
    rw [run_bind_of_ok (run_tryCatch_of_ok saved)]
    rfl

theorem final_tryCatch {α : Type} {action : SessionAction α} {handle : AuthError → SessionAction α}
    (idle : ∀ e store, final ((handle e).run store) = store) :
    final ((tryCatch action handle).run store) = final (action.run store) := by
  cases ran : action.run store with
  | ok value after => rw [run_tryCatch_of_ok ran]
  | error e after =>
    rw [run_tryCatch_of_error ran, idle e after]
    rfl

theorem loadAccessTokenFromSessionFile_refreshes (inFile : store.file = some session)
    (due : (expired session now).run store = .ok true store) :
    final ((loadAccessTokenFromSessionFile (.object reply) now).run store) =
      final ((refreshFile (.sessionFile (some "aurora-cli")) reply now).run store) := by
  have got : (get : SessionAction SessionStore).run store = .ok store store := rfl
  unfold loadAccessTokenFromSessionFile refreshFile refreshIfExpired
  rw [run_bind_of_ok got, run_bind_of_ok got, inFile]
  simp only [EStateM.run_bind, due, if_true]
  cases (refreshSessionData (some "aurora-cli") session (.object reply) now).run store with
  | error e after => rfl
  | ok refreshed after => cases refreshed <;> rfl

theorem loadToken_refreshes {clientId : Option String} (inFile : store.file = some session)
    (due : (expired session now).run store = .ok true store) (stored : (session.get? "access_token").isSome = true) :
    final ((OidcDeviceAuth.loadToken clientId (.object reply) now).run store) =
      final ((refreshFile (.oidcDevice clientId) reply now).run store) := by
  have got : (get : SessionAction SessionStore).run store = .ok store store := rfl
  have present : (session.get? "access_token").isNone = false := by simpa using stored
  unfold OidcDeviceAuth.loadToken refreshFile
  rw [final_tryCatch fun e store => by cases e <;> rfl, run_bind_of_ok got, run_bind_of_ok got, inFile]
  simp only [present, EStateM.run_bind, due, if_true, Bool.false_eq_true, if_false]
  cases (OidcDeviceAuth.refreshToken clientId session (.object reply) now).run store with
  | error e after => rfl
  | ok refreshed after => rfl

theorem chain_run (names : Names client token session) (secretless : session.get? "client_secret" = none)
    (inFile : store.file = some session) (writable : store.writable = true) {steps : List Refresh}
    (successful : ∀ step ∈ steps, Successful step.reply) :
    ∃ after, (chain steps).run store = .ok () after ∧
      after.sent = store.sent ++ (issued token steps).map (client.request none) := by
  induction steps generalizing token session store with
  | nil => exact ⟨store, rfl, by simp [issued]⟩
  | cons step rest ih =>
    obtain ⟨first, later⟩ := List.forall_mem_cons.mp successful
    obtain ⟨refreshed, ran, names', secretless'⟩ := @refreshFile_run client token session step.reply store step.now
      names first inFile writable step.refresher
    obtain ⟨after, ran', sent⟩ := @ih _ _ { store with
      file := some refreshed
      sent := store.sent ++ [client.request (given session "client_secret") token] } names' secretless' rfl writable later
    refine ⟨after, (run_bind_of_ok ran).trans ran', ?_⟩
    rw [sent, issued, List.map_cons]
    simp [given, secretless]

end Steps

section Login

variable (client : Client) (clusterName : String) (tokens : SessionData) (token : String) (loginTime : ℚ)

def loginAndRefresh (steps : List Refresh) : SessionAction Unit := do
  persistTokens clusterName tokens (some client.tokenEndpoint) (some client.clientId) (some client.clientSecret) loginTime
  chain steps

variable {client clusterName tokens token loginTime}

theorem persistTokens_run {store : SessionStore} (accessToken : (tokens.get? "access_token").isSome)
    (refreshToken : tokens.get? "refresh_token" = some (.text token)) (token_given : token ≠ "")
    (expiresIn : ∀ value, tokens.get? "expires_in" = some value → ∃ seconds, value = .number seconds) :
    ∃ session, (persistTokens clusterName tokens (some client.tokenEndpoint) (some client.clientId)
        (some client.clientSecret) loginTime).run store = .ok () { store with file := some session } ∧
      Names client token session ∧ session.get? "client_secret" = some (.text client.clientSecret) := by
  have present : ¬ (tokens.get? "access_token").isNone := by
    intro missing
    rw [Option.isNone_iff_eq_none.mp missing] at accessToken
    cases accessToken
  obtain ⟨seconds, ran⟩ := @getNumber_run tokens store "expires_in" 3600 expiresIn
  unfold persistTokens
  rw [if_neg present, run_bind_of_ok ran]
  refine ⟨_, rfl, ⟨?_, ?_, ?_, token_given⟩, ?_⟩
  · simp [setGiven, Dict.get?_set, client.tokenEndpoint_given, client.clientId_given, client.clientSecret_given]
  · simp [setGiven, Dict.get?_set, client.tokenEndpoint_given, client.clientId_given, client.clientSecret_given]
  · simp [setGiven, Dict.get?_set, client.tokenEndpoint_given, client.clientId_given, client.clientSecret_given, refreshToken]
  · simp [setGiven, client.tokenEndpoint_given, client.clientId_given, client.clientSecret_given]

theorem loginAndRefresh_run (accessToken : (tokens.get? "access_token").isSome)
    (refreshToken : tokens.get? "refresh_token" = some (.text token)) (token_given : token ≠ "")
    (expiresIn : ∀ value, tokens.get? "expires_in" = some value → ∃ seconds, value = .number seconds)
    {step : Refresh} {rest : List Refresh} (successful : ∀ other ∈ step :: rest, Successful other.reply) :
    ∃ after, (loginAndRefresh client clusterName tokens loginTime (step :: rest)).run {} = .ok () after ∧
      after.sent = client.request (some (.text client.clientSecret)) token ::
        (issued (newToken token step.reply) rest).map (client.request none) := by
  obtain ⟨session, saved, names, secret⟩ := @persistTokens_run client clusterName tokens token loginTime {} accessToken
    refreshToken token_given expiresIn
  obtain ⟨first, later⟩ := List.forall_mem_cons.mp successful
  obtain ⟨refreshed, ran, names', secretless⟩ := @refreshFile_run client token session step.reply
    { file := some session } step.now names first rfl rfl step.refresher
  let store : SessionStore := ⟨some refreshed, true, [client.request (given session "client_secret") token]⟩
  obtain ⟨after, ran', sent⟩ := @chain_run client _ _ store names' secretless rfl rfl _ later
  refine ⟨after, (run_bind_of_ok saved).trans ((run_bind_of_ok ran).trans ran'), ?_⟩
  rw [sent]
  change [client.request (given session "client_secret") token] ++ _ = _
  rw [given_text secret client.clientSecret_given]
  rfl

/-- With a client secret, the refreshes after a login keep to the client exactly if there is at most one. -/
theorem refresh_chain_keeps_client (client : Client) (clusterName : String) (tokens : SessionData) (token : String)
    (loginTime : ℚ) (steps : List Refresh) (accessToken : (tokens.get? "access_token").isSome)
    (refreshToken : tokens.get? "refresh_token" = some (.text token)) (token_given : token ≠ "")
    (expiresIn : ∀ value, tokens.get? "expires_in" = some value → ∃ seconds, value = .number seconds)
    (successful : ∀ step ∈ steps, Successful step.reply) :
    (∃ after, (loginAndRefresh client clusterName tokens loginTime steps).run {} = .ok () after ∧
      after.sent = (issued token steps).map (client.request (some (.text client.clientSecret)))) ↔
      steps.length ≤ 1 := by
  cases steps with
  | nil =>
    obtain ⟨session, saved, -⟩ := @persistTokens_run client clusterName tokens token loginTime {} accessToken
      refreshToken token_given expiresIn
    simp only [List.length_nil, Nat.zero_le, iff_true]
    exact ⟨_, run_bind_of_ok saved, rfl⟩
  | cons step rest =>
    obtain ⟨after, ran, sent⟩ := @loginAndRefresh_run client clusterName tokens token loginTime accessToken refreshToken
      token_given expiresIn step rest successful
    constructor
    · rintro ⟨other, ran', sent'⟩
      rw [ran] at ran'
      cases ran'
      rw [sent] at sent'
      cases rest with
      | nil => exact le_rfl
      | cons second others => simp [issued, Client.request] at sent'
    · intro short
      have last : rest = [] := List.length_eq_zero_iff.mp (by simpa using short)
      subst last
      exact ⟨after, ran, sent⟩

def sampleClient : Client where
  tokenEndpoint := "https://auth/token"
  clientId := "aurora-cli"
  clientSecret := "topsecret"
  tokenEndpoint_given := by decide
  clientId_given := by decide
  clientSecret_given := by decide

def sampleTokens : SessionData := (Dict.empty.set "access_token" (.text "a0")).set "refresh_token" (.text "r0")

def sampleReply : SessionData := Dict.empty.set "access_token" (.text "a1")

theorem sampleReply_successful : Successful sampleReply where
  accessToken := by decide
  refreshToken := fun _ found => by cases found
  expiresIn := fun _ found => by cases found
  tokenEndpoint := by decide
  clientId := by decide
  clientSecret := by decide

def sampleRefresh (now : ℚ) : Refresh := ⟨.sessionFile (some "aurora-cli"), sampleReply, now⟩

theorem refresh_chain_keeps_client_once : ∃ after,
    (loginAndRefresh sampleClient "west" sampleTokens 0 [sampleRefresh 3600]).run {} = .ok () after ∧
      after.sent = [sampleClient.request (some (.text "topsecret")) "r0"] :=
  (refresh_chain_keeps_client sampleClient "west" sampleTokens "r0" 0 [sampleRefresh 3600] (by decide) (by decide)
    (by decide) (fun _ found => by cases found) (by simpa [sampleRefresh] using sampleReply_successful)).mpr le_rfl

/-- The second refresh comes without the client's secret. -/
theorem second_refresh_lacks_secret : ∃ after,
    (loginAndRefresh sampleClient "west" sampleTokens 0 [sampleRefresh 3600, sampleRefresh 7200]).run {} = .ok () after ∧
      after.sent = [sampleClient.request (some (.text "topsecret")) "r0", sampleClient.request none "r0"] :=
  loginAndRefresh_run (by decide) (by decide) (by decide) (fun _ found => by cases found)
    (by simpa [sampleRefresh] using sampleReply_successful)

end Login

end Aurora.Common.Auth
