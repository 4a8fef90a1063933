import Aurora.Library.Transition
import Aurora.Thermos.Observer.Plugins
import Mathlib.Tactic.Linarith

namespace Aurora.Thermos.Observer

open Collections

variable {builtins : Builtins} {options : Options}

section Frame

/-- What Basic credentials are checked against is unchanged. -/
structure SameBasic (before after : World) : Prop where
  now : after.now = before.now
  redis : after.redis = before.redis
  cache : after.cache = before.cache

variable {request : Request} {replies : Replies} {world after : World} {user password token : String}

theorem SameBasic.refl : SameBasic world world := ⟨rfl, rfl, rfl⟩

theorem SameBasic.getUser (same : SameBasic world after) :
    BasicAuth.getUser builtins options after replies user = BasicAuth.getUser builtins options world replies user := by
  simp only [BasicAuth.getUser, same.now, same.redis, same.cache]

theorem validateToken_same :
    SameBasic world ((OidcBearerAuth.validateToken builtins options replies token).run world).2 := by
  rw [OidcBearerAuth.validateToken_run]
  split
  · exact .refl
  · split
    · exact .refl
    · split
      · exact ⟨rfl, rfl, rfl⟩
      · exact ⟨rfl, rfl, rfl⟩

theorem authenticateBearer_same (authHeader : String) :
    SameBasic world ((OidcBearerAuth.authenticateBearer builtins options request replies authHeader).run world).2 := by
  rw [OidcBearerAuth.authenticateBearer_run]
  split
  · exact validateToken_same
  · exact .refl

theorem oidcApply_same : SameBasic world ((OidcBearerAuth.apply builtins options request replies).run world).2 := by
  rw [OidcBearerAuth.apply_run]
  split
  · split
    · exact .refl
    · exact .refl
  · exact authenticateBearer_same _

theorem tryOidc_same : SameBasic world ((CombinedAuth.tryOidc builtins options request replies).run world).2 := by
  rw [CombinedAuth.tryOidc_run]
  split
  · exact authenticateBearer_same _
  · split
    · exact .refl
    · exact .refl

theorem tryOidc_not_basic : ((CombinedAuth.tryOidc builtins options request replies).run world).1 ≠ some .basic := by
  rw [CombinedAuth.tryOidc_run]
  split
  · dsimp only
    split <;> simp
  · split <;> simp

/-- The callback is run on the strength of the request's credentials, which are put into the cache. -/
structure Accepted (builtins : Builtins) (options : Options) (request : Request) (replies : Replies)
    (user password : String) (before after : World) : Prop where
  auth : request.auth = some (user, some password)
  matching : Matches builtins options replies user password before
  now : after.now = before.now
  redis : after.redis = before.redis
  cache : after.cache = before.cache.set before.now user (credential builtins user password)

theorem SameBasic.accepted (same : SameBasic world after) (auth : request.auth = some (user, some password))
    (matching : Matches builtins options replies user password after) :
    Accepted builtins options request replies user password world
      (Observer.accepted builtins user password after) where
  auth := auth
  matching := by
    unfold Matches at matching ⊢
    rwa [same.getUser] at matching
  now := same.now
  redis := same.redis
  cache := by simp only [Observer.accepted, same.cache, same.now]

/-- Each request is accepted for its credentials, or leaves the cache of them alone. -/
theorem apply_basic (plugin : Plugin) :
    (((plugin.apply builtins options request replies).run world).1 = .callback .basic ∧
      ∃ user password, Accepted builtins options request replies user password world
        ((plugin.apply builtins options request replies).run world).2) ∨
    (((plugin.apply builtins options request replies).run world).1 ≠ .callback .basic ∧
      SameBasic world ((plugin.apply builtins options request replies).run world).2) := by
  cases plugin with
  | basicAuth =>
    simp only [Plugin.apply, BasicAuth.apply_run]
    split
    · rename_i user password auth
      split
      · rename_i matching
        exact .inl ⟨rfl, user, password, SameBasic.refl.accepted auth matching⟩
      · exact .inr ⟨by simp, .refl⟩
    · exact .inr ⟨by simp, .refl⟩
  | oidcBearerAuth =>
    refine .inr ⟨?_, oidcApply_same⟩
    simp only [Plugin.apply, OidcBearerAuth.apply_run]
    split
    · split <;> simp
    · split <;> simp
  | combinedAuth =>
    have same := @tryOidc_same builtins options request replies world
    simp only [Plugin.apply, CombinedAuth.apply_run]
    cases tried : ((CombinedAuth.tryOidc builtins options request replies).run world).1 with
    | some strength =>
      refine .inr ⟨fun basic => ?_, same⟩
      cases basic
      exact tryOidc_not_basic tried
    | none =>
      simp only [CombinedAuth.tryBasic_run]
      split
      · rename_i user password auth
        split
        · rename_i matching
          exact .inl ⟨rfl, user, password, same.accepted auth matching.2.2⟩
        · exact .inr ⟨by simp, same⟩
      · exact .inr ⟨by simp, same⟩

end Frame

section Watch

/-- The world with what Redis held at each instant so far, and the users whose entry was put into the cache when
    Redis did not hold it (any more). -/
structure Watched where
  world : World
  past : List (ℚ × Dict String String) := []
  stale : List String := []

variable (builtins options)

def basicAccepted (world : World) : Event → Option (String × String)
  | .request plugin request replies =>
    if ((plugin.apply builtins options request replies).run world).1 = .callback .basic then
      request.auth.bind fun auth => auth.2.map fun password => (auth.1, password)
    else none
  | _ => none

def Watched.next (watched : Watched) (event : Event) : Watched where
  world := watched.world.next builtins options event
  past := watched.past ++ [(watched.world.now, watched.world.redis)]
  stale :=
    match basicAccepted builtins options watched.world event with
    | none => watched.stale
    | some (user, password) =>
      if watched.world.redis.get? (options.redisKeyPrefix ++ user) = some (credential builtins user password) then
        watched.stale.filter (· ≠ user)
      else user :: watched.stale

def Watched.HeldLately (watched : Watched) (user value : String) : Prop :=
  ∃ instant ∈ watched.past ++ [(watched.world.now, watched.world.redis)],
    watched.world.now - cacheMaxAge ≤ instant.1 ∧ instant.1 ≤ watched.world.now ∧
      instant.2.get? (options.redisKeyPrefix ++ user) = some value

/-- Basic credentials are accepted only if Redis has held their digest lately. -/
def Watched.Fresh (watched : Watched) (event : Event) : Prop :=
  ∀ accepted, basicAccepted builtins options watched.world event = some accepted →
    watched.HeldLately options accepted.1 (credential builtins accepted.1 accepted.2)

/-- Credentials do not hit an entry of the cache that was put there when Redis did not hold it any more. -/
def Watched.HitsNothingStale (watched : Watched) : Event → Prop
  | .request _ request _ =>
    match request.auth with
    | some (user, some password) =>
      watched.world.cache.get? (builtins.young cacheMaxAge) watched.world.now user = some (credential builtins user password) →
        user ∉ watched.stale
    | _ => True
  | _ => True

/-- What is known of an entry of the cache: unless it is stale, Redis held it when it was set. -/
def Watched.Backed (watched : Watched) (user value : String) (stamp : ℚ) : Prop :=
  stamp ≤ watched.world.now ∧ (user ∉ watched.stale →
    ∃ redis, (stamp, redis) ∈ watched.past ++ [(watched.world.now, watched.world.redis)] ∧
      redis.get? (options.redisKeyPrefix ++ user) = some value)

def Watched.Inv (watched : Watched) : Prop :=
  watched.world.cache.Live (· ≤ cacheMaxAge) (watched.Backed options) watched.world.now

section Steps

variable {builtins options} {watched : Watched} {event : Event} {user password : String}

theorem basicAccepted_of_accepted {plugin : Plugin} {request : Request} {replies : Replies} {after : World}
    (basic : ((plugin.apply builtins options request replies).run watched.world).1 = .callback .basic)
    (accepted : Accepted builtins options request replies user password watched.world after) :
    basicAccepted builtins options watched.world (.request plugin request replies) = some (user, password) := by
  simp [basicAccepted, basic, accepted.auth]

theorem Watched.Backed.kept {value : String} {stamp : ℚ} (backed : watched.Backed options user value stamp)
    (forward : watched.world.now ≤ (watched.world.next builtins options event).now)
    (fresh : user ∉ (watched.next builtins options event).stale → user ∉ watched.stale) :
    (watched.next builtins options event).Backed options user value stamp := by
  refine ⟨backed.1.trans forward, fun unstale => ?_⟩
  obtain ⟨redis, held, same⟩ := backed.2 (fresh unstale)
  exact ⟨redis, List.mem_append_left _ held, same⟩

/-- A step that accepts no credentials keeps what is known of the entries it leaves. -/
theorem inv_of_quiet (quiet : basicAccepted builtins options watched.world event = none)
    (forward : watched.world.now ≤ (watched.world.next builtins options event).now)
    (left : (watched.world.next builtins options event).cache.Live (· ≤ cacheMaxAge) (watched.Backed options)
      (watched.world.next builtins options event).now) : (watched.next builtins options event).Inv options := by
  refine ExpiringDict.Live.weaken left fun user value stamp backed => backed.kept forward ?_
  simp only [Watched.next, quiet]
  exact id

theorem inv_request (inv : watched.Inv options) (plugin : Plugin) (request : Request) (replies : Replies) :
    (watched.next builtins options (.request plugin request replies)).Inv options := by
  rcases @apply_basic builtins options request replies watched.world plugin with ⟨basic, user, password, accepted⟩ | ⟨other, same⟩
  · have took := basicAccepted_of_accepted basic accepted
    have now : (watched.world.next builtins options (.request plugin request replies)).now = watched.world.now :=
      accepted.now
    have held : (watched.next builtins options (.request plugin request replies)).Backed options user
        (credential builtins user password) watched.world.now := by
      refine ⟨now.ge, fun unstale => ?_⟩
      simp only [Watched.next, took] at unstale
      split at unstale
      · rename_i same
        exact ⟨watched.world.redis, List.mem_append_left _ (by simp [Watched.next]), same⟩
      · simp at unstale
    have others : ∀ other value stamp, other ≠ user →
        watched.world.cache.entries.get? other = some (value, stamp) → watched.world.now - stamp ≤ cacheMaxAge →
        (watched.next builtins options (.request plugin request replies)).Backed options other value stamp := by
      intro other value stamp different stored young
      apply (inv other value stamp stored young).kept now.ge
      simp only [Watched.next, took]
      split
      · simp [different]
      · simp [different]
    have live : ExpiringDict.Live (· ≤ cacheMaxAge)
        ((watched.next builtins options (.request plugin request replies)).Backed options)
        (watched.world.cache.set watched.world.now user (credential builtins user password)) watched.world.now :=
      .set others held
    rw [← accepted.cache, ← now] at live
    exact live
  · have quiet : basicAccepted builtins options watched.world (.request plugin request replies) = none := by
      simp [basicAccepted, other]
    apply inv_of_quiet quiet same.now.ge
    simp only [World.next]
    rw [same.cache, same.now]
    exact inv

theorem inv_next (inv : watched.Inv options) : (watched.next builtins options event).Inv options := by
  cases event with
  | clock time => exact inv_of_quiet rfl (le_max_left _ _) (ExpiringDict.Live.later inv (fun _ _ => le_trans) (le_max_left _ _))
  | record key value => cases value <;> exact inv_of_quiet rfl le_rfl inv
  | dropUser user => exact inv_of_quiet rfl le_rfl (ExpiringDict.Live.drop inv user)
  | dropToken token => exact inv_of_quiet rfl le_rfl inv
  | request plugin request replies => exact inv_request inv plugin request replies

theorem fresh_of_inv (expires : builtins.Expires) (inv : watched.Inv options) (hits : watched.HitsNothingStale builtins event) :
    watched.Fresh builtins options event := by
  rintro ⟨user, password⟩ took
  cases event with
  | request plugin request replies =>
    rcases @apply_basic builtins options request replies watched.world plugin with
      ⟨basic, other, word, accepted⟩ | ⟨other, -⟩
    · rw [basicAccepted_of_accepted basic accepted] at took
      cases took
      have matching := accepted.matching
      simp only [Watched.HitsNothingStale, accepted.auth] at hits
      unfold Matches BasicAuth.getUser at matching
      cases hit : watched.world.cache.get? (builtins.young cacheMaxAge) watched.world.now user with
      | some value =>
        simp only [hit, Option.some.injEq] at matching
        subst matching
        obtain ⟨stamp, young, past, backed⟩ := inv.get? (expires cacheMaxAge) hit
        obtain ⟨redis, held, same⟩ := backed (hits hit)
        exact ⟨(stamp, redis), held, by linarith, past, same⟩
      | none =>
        simp only [hit] at matching
        split at matching
        · cases matching
        · refine ⟨(watched.world.now, watched.world.redis), by simp, ?_, le_rfl, matching⟩
          simp [cacheMaxAge]
    · simp [basicAccepted, other] at took
  | _ => cases took

end Steps

/-- Along any run in which credentials hit no stale entry of the cache, credentials are only accepted that Redis has
    held lately. -/
theorem basic_credentials_fresh (builtins : Builtins) (expires : builtins.Expires) (options : Options) (start : World)
    (empty : start.cache = .empty) (events : List Event)
    (unstale : Transition.Along (fun watched event => some (Watched.next builtins options watched event))
      (Watched.HitsNothingStale builtins) { world := start } events) :
    Transition.Along (fun watched event => some (Watched.next builtins options watched event))
      (Watched.Fresh builtins options) { world := start } events := by
  have inv : Watched.Inv options { world := start } := by
    unfold Watched.Inv
    rw [empty]
    exact .empty
  refine Transition.Along.of_invariant ?_ (fun _ _ => fresh_of_inv expires) inv unstale
  rintro watched event _ inv - ⟨⟩
  exact inv_next inv

instance (watched : Watched) (user value : String) : Decidable (watched.HeldLately options user value) :=
  inferInstanceAs (Decidable (∃ _ ∈ _, _))

instance (watched : Watched) (event : Event) : Decidable (watched.Fresh builtins options event) :=
  inferInstanceAs (Decidable (∀ accepted ∈ basicAccepted builtins options watched.world event, _))

instance (watched : Watched) : (event : Event) → Decidable (watched.HitsNothingStale builtins event)
  | .request _ ⟨_, some (_, some _)⟩ _ => inferInstanceAs (Decidable (_ → _))
  | .request _ ⟨_, some (_, none)⟩ _ | .request _ ⟨_, none⟩ _ => inferInstanceAs (Decidable True)
  | .clock _ | .record _ _ | .dropUser _ | .dropToken _ => inferInstanceAs (Decidable True)

/-- The language's functions on ASCII text, and the digests of a few credentials. -/
def asciiBuiltins : Builtins where
  strip text := String.ofList (((text.toList.dropWhile (· = ' ')).reverse.dropWhile (· = ' ')).reverse)
  lower text := String.ofList (text.toList.map Char.toLower)
  sha256 text :=
    match text with
    | "alice:secret" => "3d11dc479c08e3b368773103d64766c2e420ce39727932fcf2d8f4d9d599be59"
    | "alice:wrong" => "c8dfbd2b51f7c208775b60d67cc6af071a039b084790d77eb341795cbe6369ef"
    | "alice:" => "a343e93196f9e943d1e708e2ae634c775ecc9c9e36ece7f76517d387c932c189"
    | _ => ""
  young maxAge age := age < maxAge

theorem expires_asciiBuiltins : asciiBuiltins.Expires := by
  intro maxAge age passed
  exact (of_decide_eq_true passed).le

def aliceKey : String := "/aurora/thermos/user/alice"

def aliceRecord : String := "sha256:3d11dc479c08e3b368773103d64766c2e420ce39727932fcf2d8f4d9d599be59"

def aliceRequest : Event :=
  .request .basicAuth { headers := fun _ => none, auth := some ("alice", some "secret") } {}

theorem basic_credentials_fresh_alice :
    Transition.Along (fun watched event => some (Watched.next asciiBuiltins {} watched event))
      (Watched.Fresh asciiBuiltins {}) { world := {} }
      [.record aliceKey (some aliceRecord), aliceRequest, .record aliceKey none, .clock 1700, aliceRequest] :=
  basic_credentials_fresh asciiBuiltins expires_asciiBuiltins {} {} rfl _ (by decide +kernel)

/-- The request after 1700 seconds renews the entry of the revoked record, which is good for as long again. -/
theorem revoked_password_renewed :
    ¬ Transition.Along (fun watched event => some (Watched.next asciiBuiltins {} watched event))
      (Watched.Fresh asciiBuiltins {}) { world := {} }
      [.record aliceKey (some aliceRecord), aliceRequest, .record aliceKey none, .clock 1700, aliceRequest,
        .clock 3400, aliceRequest] := by
  decide +kernel

end Watch

end Aurora.Thermos.Observer
