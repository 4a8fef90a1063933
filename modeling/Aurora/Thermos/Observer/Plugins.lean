import Aurora.Thermos.Observer.HttpObserver

namespace Aurora.Thermos.Observer

open Collections

variable (builtins : Builtins) (options : Options)

def credential (user password : String) : String := "sha256:" ++ builtins.sha256 (user ++ ":" ++ password)

section Basic

variable (replies : Replies) (user password : String) (world : World)

/-- The credentials match the record of their user. -/
def Matches : Prop := BasicAuth.getUser builtins options world replies user = some (credential builtins user password)

instance : Decidable (Matches builtins options replies user password world) := inferInstanceAs (Decidable (_ = _))

def accepted : World := { world with cache := world.cache.set world.now user (credential builtins user password) }

theorem checkPassword_run : (BasicAuth.checkPassword builtins options replies user password).run world =
    if Matches builtins options replies user password world then (true, accepted builtins user password world)
    else (false, world) := by
  simp only [BasicAuth.checkPassword, StateT.run_bind, StateT.run_get, pure_bind]
  by_cases matching : Matches builtins options replies user password world
  · rw [if_pos matching]
    unfold Matches credential at matching
    rw [if_pos matching]
    rfl
  · rw [if_neg matching]
    unfold Matches credential at matching
    rw [if_neg matching]
    rfl

end Basic

section Oidc

variable (replies : Replies) (token : String) (world : World)

namespace OidcBearerAuth

/-- The world after a request to the endpoint, before its answer is remembered. -/
def asked : World := { world with calls := world.calls ++ [⟨world.now, token, replies.userinfo⟩] }

def remembered (verdict : Option Userinfo) : World :=
  { asked replies token world with oidcCache := world.oidcCache.set world.now token verdict }

theorem validateToken_run : (validateToken builtins options replies token).run world =
    match world.oidcCache.get? (builtins.young oidcCacheMaxAge) world.now token with
    | some cached => (cached, world)
    | none =>
      if options.userinfoUrl.isNone then (none, world)
      else match verdictOf replies.userinfo with
        | none => (none, asked replies token world)
        | some verdict => (verdict, remembered replies token world verdict) := by
  simp only [validateToken, StateT.run_bind, StateT.run_get, pure_bind]
  cases world.oidcCache.get? (builtins.young oidcCacheMaxAge) world.now token with
  | some cached => rfl
  | none =>
    cases options.userinfoUrl with
    | none => rfl
    | some url =>
      cases h : verdictOf replies.userinfo with
      | none => rfl
      | some verdict => rfl

theorem authenticateBearer_run (request : Request) (authHeader : String) :
    (authenticateBearer builtins options request replies authHeader).run world =
      match isBearer authHeader, trustedUser builtins request with
      | true, some user =>
        (((validateToken builtins options replies (bearerToken authHeader)).run world).1.any fun userinfo =>
          (userinfoCandidates builtins userinfo).contains user,
         ((validateToken builtins options replies (bearerToken authHeader)).run world).2)
      | _, _ => (false, world) := by
  unfold authenticateBearer
  cases isBearer authHeader with
  | false => rfl
  | true =>
    cases trustedUser builtins request with
    | none => rfl
    | some user =>
      simp only [Bool.not_true, Bool.false_eq_true, if_false, StateT.run_bind]
      rcases (validateToken builtins options replies (bearerToken authHeader)).run world with ⟨_ | userinfo, after⟩
      · rfl
      · rfl

end OidcBearerAuth

end Oidc

section Apply

variable (request : Request) (replies : Replies) (world : World)

theorem BasicAuth.apply_run : (BasicAuth.apply builtins options request replies).run world =
    match request.auth with
    | some (user, some password) =>
      if Matches builtins options replies user password world then
        (.callback .basic, accepted builtins user password world)
      else (.unauthorized ("Basic realm=\"" ++ options.realm ++ "\""), world)
    | _ => (.unauthorized ("Basic realm=\"" ++ options.realm ++ "\""), world) := by
  unfold BasicAuth.apply
  rcases request.auth with _ | ⟨user, _ | password⟩
  · rfl
  · rfl
  · simp only [StateT.run_bind, checkPassword_run]
    by_cases matching : Matches builtins options replies user password world
    · rw [if_pos matching, if_pos matching]
      rfl
    · rw [if_neg matching, if_neg matching]
      rfl

theorem OidcBearerAuth.apply_run : (OidcBearerAuth.apply builtins options request replies).run world =
    if request.authorization = "" then
      if options.allowTrustedHeaderWithoutBearer && authenticateTrustedHeaderOnly builtins request then
        (.callback .trustedHeader, world)
      else (.unauthorized ("Bearer realm=\"" ++ options.realm ++ "\""), world)
    else
      let ended := (authenticateBearer builtins options request replies request.authorization).run world
      (if ended.1 then .callback .bearer else .unauthorized ("Bearer realm=\"" ++ options.realm ++ "\""), ended.2) := by
  unfold OidcBearerAuth.apply
  by_cases empty : request.authorization = ""
  · simp only [empty, if_true]
    split <;> rfl
  · simp only [empty, if_false]
    cases bearer : isBearer request.authorization with
    | false =>
      simp only [authenticateBearer_run, bearer, Bool.not_false, if_true]
      rfl
    | true =>
      simp only [Bool.not_true, Bool.false_eq_true, if_false, StateT.run_bind]
      rcases (authenticateBearer builtins options request replies request.authorization).run world with ⟨_ | _, after⟩
      · rfl
      · rfl

namespace CombinedAuth

theorem tryOidc_run : (tryOidc builtins options request replies).run world =
    if isBearer request.authorization then
      let ended := (OidcBearerAuth.authenticateBearer builtins options request replies request.authorization).run world
      (if ended.1 then some .bearer else none, ended.2)
    else if options.allowTrustedHeaderWithoutBearer &&
        OidcBearerAuth.authenticateTrustedHeaderOnly builtins request then
      (some .trustedHeader, world)
    else (none, world) := by
  unfold tryOidc
  cases bearer : isBearer request.authorization with
  | false =>
    simp only [bearer, Bool.false_eq_true, if_false]
    split <;> rfl
  | true =>
    simp only [bearer, if_true, StateT.run_bind]
    rcases (OidcBearerAuth.authenticateBearer builtins options request replies request.authorization).run world
      with ⟨_ | _, after⟩
    · rfl
    · rfl

theorem tryBasic_run : (tryBasic builtins options request replies).run world =
    match request.auth with
    | some (user, some password) =>
      if user ≠ "" ∧ password ≠ "" ∧ Matches builtins options replies user password world then
        (true, accepted builtins user password world)
      else (false, world)
    | _ => (false, world) := by
  unfold tryBasic
  rcases request.auth with _ | ⟨user, _ | password⟩
  · rfl
  · rfl
  · simp only
    by_cases given : user ≠ "" ∧ password ≠ ""
    · rw [if_pos given]
      simp only [checkPassword_run]
      by_cases matching : Matches builtins options replies user password world
      · rw [if_pos matching, if_pos ⟨given.1, given.2, matching⟩]
      · rw [if_neg matching, if_neg fun all => matching all.2.2]
    · rw [if_neg given, if_neg fun all => given ⟨all.1, all.2.1⟩]
      rfl

theorem apply_run : (CombinedAuth.apply builtins options request replies).run world =
    let oidc := (tryOidc builtins options request replies).run world
    match oidc.1 with
    | some strength => (.callback strength, oidc.2)
    | none =>
      let basic := (tryBasic builtins options request replies).run oidc.2
      (if basic.1 then .callback .basic
        else .unauthorized ("Bearer realm=\"" ++ options.realm ++ "\", Basic realm=\"" ++ options.realm ++ "\""),
       basic.2) := by
  unfold CombinedAuth.apply
  simp only [StateT.run_bind]
  rcases (tryOidc builtins options request replies).run world with ⟨_ | strength, middle⟩
  · change (tryBasic builtins options request replies >>= fun basic =>
      if basic = true then pure (Verdict.callback .basic) else pure _).run middle = _
    simp only [StateT.run_bind]
    rcases (tryBasic builtins options request replies).run middle with ⟨_ | _, after⟩
    · rfl
    · rfl
  · rfl

end CombinedAuth

end Apply

end Aurora.Thermos.Observer
