import Aurora.Thermos.Observer.Credentials

namespace Aurora.Thermos.Observer

open Collections

variable (builtins : Builtins) (options : Options) (request : Request) (replies : Replies) (world : World)

def runs (plugin : Plugin) : Bool := ((plugin.apply builtins options request replies).run world).1.runsCallback

/-- Passwords come out of an Authorization header of the Basic scheme. -/
def Request.Schemed : Prop :=
  ∀ user password, request.auth = some (user, some password) →
    request.authorization ≠ "" ∧ isBearer request.authorization = false

def trustedAlone : Bool :=
  options.allowTrustedHeaderWithoutBearer && OidcBearerAuth.authenticateTrustedHeaderOnly builtins request

def CredentialsMatch : Prop :=
  ∃ user password, request.auth = some (user, some password) ∧ Matches builtins options replies user password world

theorem runs_basicAuth : runs builtins options request replies world .basicAuth = true ↔
    CredentialsMatch builtins options request replies world := by
  simp only [runs, Plugin.apply, BasicAuth.apply_run, CredentialsMatch]
  rcases request.auth with _ | ⟨user, _ | password⟩
  · simp [Verdict.runsCallback]
  · simp [Verdict.runsCallback]
  · dsimp only
    split
    · rename_i matching
      simpa [Verdict.runsCallback] using matching
    · rename_i mismatch
      simpa [Verdict.runsCallback] using mismatch

theorem runs_oidcBearerAuth : runs builtins options request replies world .oidcBearerAuth =
    if request.authorization = "" then trustedAlone builtins options request
    else ((OidcBearerAuth.authenticateBearer builtins options request replies request.authorization).run world).1 := by
  simp only [runs, Plugin.apply, OidcBearerAuth.apply_run, trustedAlone]
  split
  · split
    · rename_i trusted
      simp only [trusted, Verdict.runsCallback]
    · rename_i untrusted
      simp only [Bool.eq_false_iff.mpr untrusted, Verdict.runsCallback]
  · split
    · rename_i valid
      simp only [valid, Verdict.runsCallback]
    · rename_i invalid
      simp only [Bool.eq_false_iff.mpr invalid, Verdict.runsCallback]

/-- The Basic credentials match, and neither of them is empty. -/
def FullCredentialsMatch : Prop :=
  ∃ user password, request.auth = some (user, some password) ∧ user ≠ "" ∧ password ≠ "" ∧
    Matches builtins options replies user password world

theorem tryBasic_iff : ((CombinedAuth.tryBasic builtins options request replies).run world).1 = true ↔
    FullCredentialsMatch builtins options request replies world := by
  simp only [CombinedAuth.tryBasic_run, FullCredentialsMatch]
  rcases request.auth with _ | ⟨user, _ | password⟩
  · simp
  · simp
  · dsimp only
    split
    · rename_i all
      simpa using all
    · rename_i missing
      simpa using missing

theorem tryOidc_iff : (((CombinedAuth.tryOidc builtins options request replies).run world).1).isSome = true ↔
    if isBearer request.authorization then
      ((OidcBearerAuth.authenticateBearer builtins options request replies request.authorization).run world).1 = true
    else trustedAlone builtins options request = true := by
  simp only [CombinedAuth.tryOidc_run, trustedAlone]
  split
  · split
    · rename_i valid
      simpa using valid
    · rename_i invalid
      simpa using invalid
  · split
    · rename_i trusted
      simpa using trusted
    · rename_i untrusted
      simpa using untrusted

theorem FullCredentialsMatch.same {after : World} (same : SameBasic world after) :
    FullCredentialsMatch builtins options request replies after ↔
      FullCredentialsMatch builtins options request replies world := by
  simp only [FullCredentialsMatch, Matches, same.getUser]

theorem runs_combinedAuth : runs builtins options request replies world .combinedAuth = true ↔
    (if isBearer request.authorization then
      ((OidcBearerAuth.authenticateBearer builtins options request replies request.authorization).run world).1 = true
    else trustedAlone builtins options request = true) ∨
    FullCredentialsMatch builtins options request replies world := by
  rw [← tryOidc_iff]
  have same := @tryOidc_same builtins options request replies world
  simp only [runs, Plugin.apply, CombinedAuth.apply_run]
  cases tried : ((CombinedAuth.tryOidc builtins options request replies).run world).1 with
  | some strength => simp [Verdict.runsCallback]
  | none =>
    have basic := tryBasic_iff builtins options request replies
      ((CombinedAuth.tryOidc builtins options request replies).run world).2
    rw [FullCredentialsMatch.same _ _ _ _ _ same] at basic
    simp only [Option.isSome_none, Bool.false_eq_true, false_or, ← basic]
    split
    · rename_i valid
      simp only [valid, Verdict.runsCallback]
    · rename_i invalid
      simp only [invalid, Verdict.runsCallback]

theorem FullCredentialsMatch.credentialsMatch (full : FullCredentialsMatch builtins options request replies world) :
    CredentialsMatch builtins options request replies world := by
  obtain ⟨user, password, auth, -, -, matching⟩ := full
  exact ⟨user, password, auth, matching⟩

theorem no_credentials (schemed : request.Schemed)
    (unschemed : request.authorization = "" ∨ isBearer request.authorization = true) :
    ¬ CredentialsMatch builtins options request replies world := by
  rintro ⟨user, password, auth, -⟩
  obtain ⟨given, other⟩ := schemed user password auth
  rcases unschemed with empty | bearer
  · exact given empty
  · rw [bearer] at other
    cases other

/-- The combined plugin is the union of the two exactly if, for a header of another scheme than Bearer, a trusted
    header that counts alone comes with matching credentials, and matching credentials are not empty or come with
    such a header. -/
theorem combined_is_union (schemed : request.Schemed) :
    (runs builtins options request replies world .combinedAuth = true ↔
      runs builtins options request replies world .oidcBearerAuth = true ∨
        runs builtins options request replies world .basicAuth = true) ↔
    (request.authorization ≠ "" → isBearer request.authorization = false →
      (trustedAlone builtins options request = true → CredentialsMatch builtins options request replies world) ∧
      (CredentialsMatch builtins options request replies world →
        FullCredentialsMatch builtins options request replies world ∨
          trustedAlone builtins options request = true)) := by
  rw [runs_combinedAuth, runs_oidcBearerAuth, runs_basicAuth]
  have weaker := FullCredentialsMatch.credentialsMatch builtins options request replies world
  by_cases empty : request.authorization = ""
  · have none := no_credentials builtins options request replies world schemed (.inl empty)
    have unbearing : isBearer "" = false := by decide
    simp only [empty, unbearing, ne_eq, not_true, false_implies, iff_true, if_true, Bool.false_eq_true, if_false]
    tauto
  · cases bearer : isBearer request.authorization with
    | true =>
      have none := no_credentials builtins options request replies world schemed (.inr bearer)
      simp only [empty, if_true, if_false, Bool.true_eq_false, false_implies, implies_true, iff_true]
      tauto
    | false =>
      simp only [empty, OidcBearerAuth.authenticateBearer_run, bearer, Bool.false_eq_true, if_false, false_or, ne_eq,
        not_false_eq_true, true_implies]
      tauto

section Requests

/-- A request of a proxy, with or without a trusted user. -/
def requestOf (authorization : String) (user : Option String) (auth : Option (String × Option String)) : Request where
  headers header :=
    if header = "Authorization" then some authorization else if header = "X-Forwarded-User" then user else none
  auth

def emptyPassword : World where
  redis := Dict.empty.set aliceKey "sha256:a343e93196f9e943d1e708e2ae634c775ecc9c9e36ece7f76517d387c932c189"

theorem combined_is_union_secret :
    runs asciiBuiltins {} (requestOf "Basic YWxpY2U6c2VjcmV0" none (some ("alice", some "secret"))) {}
        { redis := Dict.empty.set aliceKey aliceRecord } .combinedAuth = true ↔
      runs asciiBuiltins {} (requestOf "Basic YWxpY2U6c2VjcmV0" none (some ("alice", some "secret"))) {}
          { redis := Dict.empty.set aliceKey aliceRecord } .oidcBearerAuth = true ∨
        runs asciiBuiltins {} (requestOf "Basic YWxpY2U6c2VjcmV0" none (some ("alice", some "secret"))) {}
          { redis := Dict.empty.set aliceKey aliceRecord } .basicAuth = true := by
  refine (combined_is_union asciiBuiltins {} _ {} _ ?_).mpr ?_
  · rintro user password -
    decide +kernel
  · rintro - -
    refine ⟨fun trusted => absurd trusted (by decide +kernel), fun _ => .inl ?_⟩
    exact ⟨"alice", "secret", rfl, by decide, by decide, by decide +kernel⟩

/-- A wrong password next to a trusted header is let through by the combined plugin alone, and an empty password that
    is the recorded one is refused by it alone. -/
theorem combined_is_not_union :
    (runs asciiBuiltins { allowTrustedHeaderWithoutBearer := true }
        (requestOf "Basic YWxpY2U6d3Jvbmc=" (some "bob") (some ("alice", some "wrong"))) {} {} .combinedAuth = true ∧
      runs asciiBuiltins { allowTrustedHeaderWithoutBearer := true }
        (requestOf "Basic YWxpY2U6d3Jvbmc=" (some "bob") (some ("alice", some "wrong"))) {} {} .oidcBearerAuth = false ∧
      runs asciiBuiltins { allowTrustedHeaderWithoutBearer := true }
        (requestOf "Basic YWxpY2U6d3Jvbmc=" (some "bob") (some ("alice", some "wrong"))) {} {} .basicAuth = false) ∧
    (runs asciiBuiltins {} (requestOf "Basic YWxpY2U6" none (some ("alice", some ""))) {} emptyPassword
        .combinedAuth = false ∧
      runs asciiBuiltins {} (requestOf "Basic YWxpY2U6" none (some ("alice", some ""))) {} emptyPassword
        .basicAuth = true) := by
  decide +kernel

end Requests

end Aurora.Thermos.Observer
