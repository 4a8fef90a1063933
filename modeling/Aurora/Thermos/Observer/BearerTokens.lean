import Aurora.Thermos.Observer.Credentials

namespace Aurora.Thermos.Observer

open Collections OidcBearerAuth

def lastCall (calls : List Call) (token : String) : Option Call :=
  (calls.filter fun call => call.token = token).getLast?

section Calls

variable {calls : List Call} {call : Call} {token : String}

theorem lastCall_same (same : call.token = token) : lastCall (calls ++ [call]) token = some call := by
  simp [lastCall, same]

theorem lastCall_other (other : call.token ≠ token) : lastCall (calls ++ [call]) token = lastCall calls token := by
  simp [lastCall, other]

end Calls

theorem mem_of_lastCall {calls : List Call} {token : String} {call : Call} (last : lastCall calls token = some call) :
    call ∈ calls :=
  (List.mem_filter.mp (List.mem_of_getLast? last)).1

theorem verdictOf_userinfo {answer : Answer} {userinfo : Userinfo} (verdict : verdictOf answer = some (some userinfo)) :
    answer = .response 200 (.object userinfo) := by
  cases answer with
  | raised => cases verdict
  | response statusCode body =>
    simp only [verdictOf] at verdict
    split at verdict
    · cases verdict
    · rename_i ok
      cases body with
      | object other =>
        cases verdict
        rw [not_not.mp ok]
      | _ => cases verdict

/-- A live entry comes from the last request to the endpoint for its token. -/
def Answered (calls : List Call) (token : String) (verdict : Option Userinfo) (stamp : ℚ) : Prop :=
  ∃ answer, lastCall calls token = some ⟨stamp, token, answer⟩ ∧ verdictOf answer = some verdict

structure World.Inv (builtins : Builtins) (world : World) : Prop where
  cache : world.oidcCache.Live (builtins.young oidcCacheMaxAge ·) (Answered world.calls) world.now
  past : ∀ call ∈ world.calls, call.time ≤ world.now

section Steps

variable {builtins : Builtins} {options : Options} {request : Request} {replies : Replies} {world : World}
  {token : String}

theorem Answered.asked {other : String} {verdict : Option Userinfo} {stamp : ℚ}
    (answered : Answered world.calls other verdict stamp) (different : other ≠ token) :
    Answered (asked replies token world).calls other verdict stamp := by
  obtain ⟨answer, last, same⟩ := answered
  refine ⟨answer, ?_, same⟩
  rw [OidcBearerAuth.asked, lastCall_other (Ne.symm different)]
  exact last

theorem asked_past (inv : world.Inv builtins) : ∀ call ∈ (asked replies token world).calls, call.time ≤ world.now := by
  intro call member
  rcases List.mem_append.mp member with member | member
  · exact inv.past call member
  · rw [List.mem_singleton.mp member]

theorem others_asked (inv : world.Inv builtins)
    (missed : world.oidcCache.get? (builtins.young oidcCacheMaxAge) world.now token = none) :
    world.oidcCache.Live (builtins.young oidcCacheMaxAge ·) (Answered (asked replies token world).calls) world.now := by
  intro other verdict stamp stored young
  apply (inv.cache other verdict stamp stored young).asked
  rintro rfl
  have found := ExpiringDict.get?_eq_some.mpr ⟨stamp, stored, young⟩
  rw [missed] at found
  cases found

theorem validateToken_inv (inv : world.Inv builtins) :
    ((validateToken builtins options replies token).run world).2.Inv builtins := by
  rw [validateToken_run]
  split
  · exact inv
  · rename_i missed
    split
    · exact inv
    · split
      · exact ⟨others_asked inv missed, asked_past inv⟩
      · rename_i verdict same
        refine ⟨ExpiringDict.Live.set (fun other value stamp _ => others_asked inv missed other value stamp) ?_,
          asked_past inv⟩
        exact ⟨replies.userinfo, lastCall_same rfl, same⟩

/-- An accepted token is backed by the last answer of the endpoint for it, which is not too old. -/
theorem validateToken_answered (expires : builtins.Expires) (inv : world.Inv builtins) {userinfo : Userinfo}
    (valid : ((validateToken builtins options replies token).run world).1 = some userinfo) :
    ∃ stamp, lastCall ((validateToken builtins options replies token).run world).2.calls token =
        some ⟨stamp, token, .response 200 (.object userinfo)⟩ ∧
      world.now - stamp ≤ oidcCacheMaxAge := by
  rw [validateToken_run] at valid ⊢
  cases hit : world.oidcCache.get? (builtins.young oidcCacheMaxAge) world.now token with
  | some cached =>
    simp only [hit] at valid ⊢
    subst valid
    obtain ⟨stamp, young, answer, last, verdict⟩ := inv.cache.get? (fun _ => id) hit
    rw [verdictOf_userinfo verdict] at last
    exact ⟨stamp, last, expires _ _ young⟩
  | none =>
    simp only [hit] at valid ⊢
    split at valid
    · cases valid
    · rename_i url
      rw [if_neg url]
      cases same : verdictOf replies.userinfo with
      | none => simp [same] at valid
      | some verdict =>
        simp only [same] at valid ⊢
        subst valid
        refine ⟨world.now, ?_, by simp [oidcCacheMaxAge]⟩
        rw [← verdictOf_userinfo same]
        exact lastCall_same rfl

theorem authenticateBearer_inv (inv : world.Inv builtins) (authHeader : String) :
    ((authenticateBearer builtins options request replies authHeader).run world).2.Inv builtins := by
  rw [authenticateBearer_run]
  split
  · exact validateToken_inv inv
  · exact inv

theorem accepted_inv (inv : world.Inv builtins) (user password : String) :
    (accepted builtins user password world).Inv builtins :=
  ⟨inv.cache, inv.past⟩

theorem basicApply_inv (inv : world.Inv builtins) :
    ((BasicAuth.apply builtins options request replies).run world).2.Inv builtins := by
  rw [BasicAuth.apply_run]
  split
  · split
    · exact accepted_inv inv _ _
    · exact inv
  · exact inv

theorem oidcApply_inv (inv : world.Inv builtins) :
    ((OidcBearerAuth.apply builtins options request replies).run world).2.Inv builtins := by
  rw [OidcBearerAuth.apply_run]
  split
  · split
    · exact inv
    · exact inv
  · exact authenticateBearer_inv inv _

theorem tryOidc_inv (inv : world.Inv builtins) :
    ((CombinedAuth.tryOidc builtins options request replies).run world).2.Inv builtins := by
  rw [CombinedAuth.tryOidc_run]
  split
  · exact authenticateBearer_inv inv _
  · split
    · exact inv
    · exact inv

theorem tryBasic_inv (inv : world.Inv builtins) :
    ((CombinedAuth.tryBasic builtins options request replies).run world).2.Inv builtins := by
  rw [CombinedAuth.tryBasic_run]
  split
  · split
    · exact accepted_inv inv _ _
    · exact inv
  · exact inv

theorem combinedApply_inv (inv : world.Inv builtins) :
    ((CombinedAuth.apply builtins options request replies).run world).2.Inv builtins := by
  rw [CombinedAuth.apply_run]
  have tried := @tryOidc_inv builtins options request replies world inv
  dsimp only
  split
  · exact tried
  · exact tryBasic_inv tried

theorem inv_of_next (stays : builtins.StaysExpired) (inv : world.Inv builtins) (event : Event) :
    (world.next builtins options event).Inv builtins := by
  cases event with
  | clock time =>
    have forward : world.now ≤ max world.now time := le_max_left _ _
    exact ⟨inv.cache.later (stays oidcCacheMaxAge) forward, fun call member => (inv.past call member).trans forward⟩
  | record key value => cases value <;> exact ⟨inv.cache, inv.past⟩
  | dropUser user => exact ⟨inv.cache, inv.past⟩
  | dropToken token => exact ⟨inv.cache.drop token, inv.past⟩
  | request plugin request replies =>
    cases plugin with
    | basicAuth => exact basicApply_inv inv
    | oidcBearerAuth => exact oidcApply_inv inv
    | combinedAuth => exact combinedApply_inv inv

end Steps

/-- In every reachable state a bearer request is only accepted for a user whom the last answer of the endpoint for
    that very token names, and that answer is at most 300 seconds old. -/
theorem bearer_acceptance_sound (builtins : Builtins) (expires : builtins.Expires) (stays : builtins.StaysExpired)
    (options : Options) (start world : World)
    (fresh : start.oidcCache = .empty ∧ start.calls = []) (events : List Event)
    (ran : Transition.run (fun world event => some (World.next builtins options world event)) start events = some world)
    (request : Request) (replies : Replies) (authHeader : String)
    (valid : ((authenticateBearer builtins options request replies authHeader).run world).1 = true) :
    ∃ user userinfo time, isBearer authHeader = true ∧ trustedUser builtins request = some user ∧
      (∃ key ∈ identityClaims, normalizeUser builtins (claimText (userinfo.get? key)) = some user) ∧
      lastCall ((authenticateBearer builtins options request replies authHeader).run world).2.calls
        (bearerToken authHeader) = some ⟨time, bearerToken authHeader, .response 200 (.object userinfo)⟩ ∧
      time ≤ world.now ∧ world.now - time ≤ 300 := by
  have inv : world.Inv builtins := by
    have initial : start.Inv builtins := by
      constructor
      · rw [fresh.1]
        exact .empty
      · simp [fresh.2]
    refine Transition.invariant ?_ initial (Transition.Along.of_forall fun _ _ => trivial) ran
    rintro state event _ inv - ⟨⟩
    exact inv_of_next stays inv event
  have after := @authenticateBearer_inv builtins options request replies world inv authHeader
  have same := @authenticateBearer_same builtins options request replies world authHeader
  rw [authenticateBearer_run] at valid after same ⊢
  cases bearer : isBearer authHeader with
  | false => simp [bearer] at valid
  | true =>
    cases trusted : trustedUser builtins request with
    | none => simp [bearer, trusted] at valid
    | some user =>
      simp only [bearer, trusted] at valid after same ⊢
      obtain ⟨userinfo, validated, named⟩ := (Option.any_eq_true _ _).mp valid
      have listed : user ∈ userinfoCandidates builtins userinfo := by simpa using named
      obtain ⟨time, last, young⟩ := validateToken_answered expires inv validated
      have past := after.past _ (mem_of_lastCall last)
      rw [same.now] at past
      refine ⟨user, userinfo, time, trivial, rfl, ?_, last, past, young⟩
      exact List.mem_filterMap.mp listed

theorem staysExpired_asciiBuiltins : asciiBuiltins.StaysExpired := by
  intro maxAge age older le passed
  exact decide_eq_true (le.trans_lt (of_decide_eq_true passed))

def aliceInfo : Userinfo := Dict.empty.set "email" (.text "Alice@Example.com")

def aliceBearer : Request where
  headers header :=
    if header = "Authorization" then some "Bearer tok" else if header = "X-Forwarded-User" then some " alice@example.com"
    else none
  auth := none

/-- The endpoint names the user of the request; then 200 seconds go by. -/
def aliceServed : World :=
  World.next asciiBuiltins { userinfoUrl := some "https://auth/userinfo" }
    (World.next asciiBuiltins { userinfoUrl := some "https://auth/userinfo" } {}
      (.request .oidcBearerAuth aliceBearer { userinfo := .response 200 (.object aliceInfo) })) (.clock 200)

/-- The second request is served from the cache, 200 seconds after the answer. -/
theorem bearer_acceptance_sound_alice : ∃ (user : String) (userinfo : Userinfo) (time : ℚ),
    trustedUser asciiBuiltins aliceBearer = some user ∧
      (∃ key ∈ identityClaims, normalizeUser asciiBuiltins (claimText (userinfo.get? key)) = some user) ∧
      time ≤ 200 ∧ (200 : ℚ) - time ≤ 300 := by
  have now : aliceServed.now = 200 := by decide +kernel
  obtain ⟨user, userinfo, time, -, trusted, named, -, past, young⟩ := bearer_acceptance_sound asciiBuiltins
    expires_asciiBuiltins staysExpired_asciiBuiltins { userinfoUrl := some "https://auth/userinfo" } {} aliceServed ⟨rfl, rfl⟩
    [.request .oidcBearerAuth aliceBearer { userinfo := .response 200 (.object aliceInfo) }, .clock 200] rfl aliceBearer {}
    "Bearer tok" (by decide +kernel)
  rw [now] at past young
  exact ⟨user, userinfo, time, trusted, named, past, young⟩

end Aurora.Thermos.Observer
