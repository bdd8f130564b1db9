import BaptistApi.Claims
import Mathlib.Data.Rat.Defs

/-!
# Verification of tokens

`TokenVerifier` and its `JwksCache`. PyJWT and the server of the JWKS document are given from outside.
-/

namespace BaptistApi

open BaptistApi.RowSecurity

/-! ## What is given -/

inductive AuthMode where
  | mock | supabase
  deriving DecidableEq

structure AuthSettings where
  authMode : AuthMode := .mock
  supabaseJwksUrl : Option String := none
  supabaseJwtAudience : Option String := none
  supabaseJwtIssuer : Option String := none
  mockAuthToken : String := "dev-token"
  mockAuthUserId : Uuid := 1
  mockAuthTenantId : Uuid := 2
  mockAuthRole : String := "as_admin"

/-- The keyword arguments of `jwt.decode`. -/
structure DecodeKwargs where
  algorithms : List String
  require : List String
  verifyAud : Bool
  verifyIss : Bool
  audience : Option String
  issuer : Option String

/-- What is called of PyJWT, and what it takes for an RSA key, public or private. `from_jwk` is given the text of a
JSON object. -/
structure PyJwt (Key : Type) where
  getUnverifiedHeader : String → Except PyError JsonObject
  /-- With such a header, as one of a detached payload, `decode` does not come to the signature. -/
  refusesHeader : JsonObject → Bool
  isRsaJwk : JsonObject → Bool
  isPrivateJwk : JsonObject → Bool
  isPrivate : Key → Bool
  fromJwk : JsonObject → Except PyError Key
  decode : String → Key → DecodeKwargs → Except PyError Json

def PyError.isInvalidToken (e : PyError) : Prop := e = .expiredSignatureError ∨ e = .invalidTokenError

/-- What PyJWT documents about its exceptions. -/
structure PyJwt.Documented {Key : Type} (lib : PyJwt Key) : Prop where
  header : ∀ token e, lib.getUnverifiedHeader token = .error e → e.isInvalidToken
  notRsa : ∀ jwk, lib.fromJwk jwk = .error .invalidKeyError ↔ lib.isRsaJwk jwk = false
  -- The numbers of an RSA key may be malformed.
  fromJwk : ∀ jwk e, lib.fromJwk jwk = .error e → e = .invalidKeyError ∨ e = .valueError ∨ e = .typeError
  privateJwk : ∀ jwk, lib.isPrivateJwk jwk = true ↔ ∃ key, lib.fromJwk jwk = .ok key ∧ lib.isPrivate key = true
  decode : ∀ token key kwargs e, lib.isPrivate key = false → lib.decode token key kwargs = .error e → e.isInvalidToken
  -- A private key has no `verify`, which is an AttributeError.
  decodePrivate : ∀ token header key kwargs, lib.isPrivate key = true → lib.getUnverifiedHeader token = .ok header →
    header.get? "alg" = some (.str "RS256") → "RS256" ∈ kwargs.algorithms →
    ∃ e, lib.decode token key kwargs = .error e ∧
      if lib.refusesHeader header then e.isInvalidToken else e = .other

/-- How the request for the JWKS document ends. A body that is not JSON has none. -/
inductive HttpOutcome where
  | httpError
  /-- What is no `HTTPError`: an `InvalidURL`, or the `RecursionError` of a body that is nested too deep. -/
  | otherError
  | body (json : Option Json)

/-! ## `JwksCache` -/

abbrev Jwks := List (String × JsonObject)

/-- Of two keys with one `kid`, the later. -/
def Jwks.get? (keys : Jwks) (kid : String) : Option JsonObject := keys.reverse.lookup kid

def keyWithId : Json → Option (String × JsonObject)
  | .obj rawKey => ((JsonObject.get? rawKey "kid").bind Json.text?).map fun kid => (kid, rawKey)
  | _ => none

/-- `JwksCache._fetch`. -/
def fetchJwks : HttpOutcome → Except PyError Jwks
  | .httpError => .error .httpError
  | .otherError => .error .other
  | .body (some (.obj payload)) =>
    match JsonObject.get? payload "keys" with
    | some (.arr rawKeys) => .ok (rawKeys.filterMap keyWithId)
    | _ => .error .valueError
  | .body _ => .error .valueError

structure JwksCache where
  keys : Jwks := []
  expiresAt : ℚ := 0

/-- What one call of `get` meets: the clock when it looks, when it has the lock and when it stores, what the cache
holds when it has the lock, and how its request ends. -/
structure Surroundings where
  lookedAt : ℚ
  lockedAt : ℚ
  storedAt : ℚ
  locked : JwksCache
  outcome : HttpOutcome

namespace JwksCache

def fresh (cache : JwksCache) (now : ℚ) : Bool := now < cache.expiresAt && !cache.keys.isEmpty

def get (ttlSeconds : ℕ) (cache : JwksCache) (s : Surroundings) : Except PyError Jwks × JwksCache :=
  if cache.fresh s.lookedAt then (.ok cache.keys, cache)
  else if s.locked.fresh s.lockedAt then (.ok s.locked.keys, s.locked)
  else
    match fetchJwks s.outcome with
    | .error e => (.error e, s.locked)
    | .ok keys =>
      if keys.isEmpty then (.error .valueError, s.locked)
      else (.ok keys, { keys, expiresAt := s.storedAt + ttlSeconds })

/-- The keys that a call of `get` finds: those of a fresh cache, at its first look or under the lock, and else
those of the document. -/
inductive Finds (cache : JwksCache) (s : Surroundings) : Jwks → Prop where
  | cached (h : cache.fresh s.lookedAt = true) : Finds cache s cache.keys
  | locked (h : cache.fresh s.lookedAt = false) (hl : s.locked.fresh s.lockedAt = true) : Finds cache s s.locked.keys
  | fetched (h : cache.fresh s.lookedAt = false) (hl : s.locked.fresh s.lockedAt = false) {keys : Jwks}
      (hf : fetchJwks s.outcome = .ok keys) (hk : keys.isEmpty = false) : Finds cache s keys

end JwksCache

/-! ## `TokenVerifier` -/

inductive Raised where
  | problem (code : ProblemCode)
  /-- What neither `except` clause names. -/
  | escaped (e : PyError)

def PyError.raised : PyError → Raised
  | .expiredSignatureError => .problem .tokenExpired
  | .invalidTokenError => .problem .unauthenticated
  | .typeError => .problem .unauthenticated
  | .valueError => .problem .unauthenticated
  | .keyError => .problem .unauthenticated
  | .httpError => .problem .unauthenticated
  | .invalidKeyError => .escaped .invalidKeyError
  | .other => .escaped .other

def AuthSettings.configured (settings : AuthSettings) : Bool := settings.supabaseJwksUrl.any (· ≠ "")

def AuthSettings.decodeKwargs (settings : AuthSettings) : DecodeKwargs where
  algorithms := ["RS256"]
  require := ["exp", "sub"]
  verifyAud := settings.supabaseJwtAudience.isSome
  verifyIss := settings.supabaseJwtIssuer.isSome
  audience := settings.supabaseJwtAudience.filter (· ≠ "")
  issuer := settings.supabaseJwtIssuer.filter (· ≠ "")

section Verifier

variable {Key : Type} (lib : PyJwt Key) (settings : AuthSettings)

def headerKid (token : String) : Except PyError String := do
  let header ← lib.getUnverifiedHeader token
  if (header.get? "alg").bind Json.text? = some "RS256" then
    match (header.get? "kid").bind Json.text? with
    | some kid => .ok kid
    | none => .error .invalidTokenError
  else .error .invalidTokenError

def userOf (token kid : String) (keys : Jwks) : Except PyError AuthenticatedUser :=
  match keys.get? kid with
  | none => .error .invalidTokenError
  | some jwk => do
    let publicKey ← lib.fromJwk jwk
    match ← lib.decode token publicKey settings.decodeKwargs with
    | .obj claims => AuthenticatedUser.fromClaims claims
    | _ => .error .invalidTokenError

def verifyMock (token : String) : Except Raised AuthenticatedUser :=
  if token = settings.mockAuthToken then
    .ok { id := settings.mockAuthUserId, tenantId := some settings.mockAuthTenantId, role := settings.mockAuthRole
          claims := [("sub", .str settings.mockAuthUserId.str), ("mock", .bool true)] }
  else .error (.problem .unauthenticated)

/-- The outcome, and the cache that the verification leaves. -/
def verifySupabase (ttlSeconds : ℕ) (cache : JwksCache) (s : Surroundings) (token : String) :
    Except Raised AuthenticatedUser × JwksCache :=
  if settings.configured then
    match headerKid lib token with
    | .error e => (.error e.raised, cache)
    | .ok kid =>
      let keys := cache.get ttlSeconds s
      ((keys.1 >>= userOf lib settings token kid).mapError PyError.raised, keys.2)
  else (.error (.problem .unauthenticated), cache)

/-- `TokenVerifier.verify`. -/
def verify (ttlSeconds : ℕ) (cache : JwksCache) (s : Surroundings) (token : String) :
    Except Raised AuthenticatedUser × JwksCache :=
  match settings.authMode with
  | .mock => (verifyMock settings token, cache)
  | .supabase => verifySupabase lib settings ttlSeconds cache s token

end Verifier

/-! ## What escapes -/

/-- The outcome is a user or a problem of authentication. -/
def AuthProblemOnly : Except Raised AuthenticatedUser → Prop
  | .ok _ => True
  | .error (.problem code) => code = .unauthenticated ∨ code = .tokenExpired
  | .error (.escaped _) => False

def PyError.Caught (e : PyError) : Prop := e ≠ .invalidKeyError ∧ e ≠ .other

theorem authProblemOnly_raised {e : PyError} : AuthProblemOnly (.error e.raised) ↔ e.Caught := by
  cases e <;> simp [PyError.raised, AuthProblemOnly, PyError.Caught]

theorem PyError.isInvalidToken.caught {e : PyError} (h : e.isInvalidToken) : e.Caught := by
  rcases h with rfl | rfl <;> simp [PyError.Caught]

theorem fetchJwks_caught {outcome : HttpOutcome} {e : PyError} (h : fetchJwks outcome = .error e) :
    e.Caught ↔ outcome ≠ .otherError := by
  unfold fetchJwks at h
  split at h
  · cases h
    simp [PyError.Caught]
  · cases h
    simp [PyError.Caught]
  · split at h
    · cases h
    · cases h
      simp [PyError.Caught]
  · cases h
    simp [PyError.Caught]

namespace JwksCache

variable {ttlSeconds : ℕ} {cache : JwksCache} {s : Surroundings}

theorem get_ok {keys : Jwks} : (cache.get ttlSeconds s).1 = .ok keys ↔ cache.Finds s keys := by
  constructor
  · intro h
    unfold get at h
    split at h
    · rename_i hcached
      cases h
      exact .cached hcached
    · rename_i hcached
      rw [Bool.not_eq_true] at hcached
      split at h
      · rename_i hlocked
        cases h
        exact .locked hcached hlocked
      · rename_i hlocked
        rw [Bool.not_eq_true] at hlocked
        split at h
        · cases h
        · rename_i fetched hfetched
          split at h
          · cases h
          · rename_i hk
            cases h
            exact .fetched hcached hlocked hfetched (Bool.not_eq_true _ ▸ hk)
  · rintro (hcached | ⟨hcached, hlocked⟩ | ⟨hcached, hlocked, hfetched, hk⟩)
    · simp [get, hcached]
    · simp [get, hcached, hlocked]
    · simp [get, hcached, hlocked, hfetched, hk]

/-- A fetch is needed, and ends in what is no `HTTPError`. -/
structure FetchEscapes (cache : JwksCache) (s : Surroundings) : Prop where
  stale : cache.fresh s.lookedAt = false
  stillStale : s.locked.fresh s.lockedAt = false
  outcome : s.outcome = .otherError

theorem get_caught {e : PyError} (h : (cache.get ttlSeconds s).1 = .error e) :
    e.Caught ↔ ¬ cache.FetchEscapes s := by
  unfold get at h
  split at h
  · cases h
  · rename_i hstale
    split at h
    · cases h
    · rename_i hstill
      rw [Bool.not_eq_true] at hstale hstill
      split at h
      · rename_i hfetched
        cases h
        rw [fetchJwks_caught hfetched]
        exact not_congr ⟨fun ho => ⟨hstale, hstill, ho⟩, FetchEscapes.outcome⟩
      · rename_i keys hfetched
        split at h
        · cases h
          refine iff_of_true (by simp [PyError.Caught]) fun hescapes => ?_
          rw [hescapes.outcome] at hfetched
          cases hfetched
        · cases h

theorem not_fetchEscapes {keys : Jwks} (h : cache.Finds s keys) : ¬ cache.FetchEscapes s := by
  rintro ⟨hstale, hstill, houtcome⟩
  cases h with
  | cached hfresh => cases hstale.symm.trans hfresh
  | locked _ hfresh => cases hstill.symm.trans hfresh
  | fetched _ _ hfetched =>
    rw [houtcome] at hfetched
    cases hfetched

end JwksCache

section Escapes

variable {Key : Type} {lib : PyJwt Key} {settings : AuthSettings}

theorem bind_text?_eq_some {v : Option Json} {s : String} : v.bind Json.text? = some s ↔ v = some (.str s) := by
  cases v <;> simp [text?_eq_some]

/-- By an RS256 header, the token names a key. -/
structure Names (lib : PyJwt Key) (token : String) (header : JsonObject) (kid : String) : Prop where
  unverified : lib.getUnverifiedHeader token = .ok header
  alg : header.get? "alg" = some (.str "RS256")
  named : header.get? "kid" = some (.str kid)

theorem headerKid_ok {token kid : String} : headerKid lib token = .ok kid ↔ ∃ header, Names lib token header kid := by
  have hnames (header : JsonObject) : Names lib token header kid ↔ lib.getUnverifiedHeader token = .ok header ∧
      header.get? "alg" = some (.str "RS256") ∧ header.get? "kid" = some (.str kid) :=
    ⟨fun ⟨hheader, halg, hkid⟩ => ⟨hheader, halg, hkid⟩, fun ⟨hheader, halg, hkid⟩ => ⟨hheader, halg, hkid⟩⟩
  simp only [hnames]
  unfold headerKid
  rw [bind_eq_ok]
  refine exists_congr fun header => and_congr_right fun _ => ?_
  rw [← bind_text?_eq_some, ← bind_text?_eq_some]
  split
  · rename_i halg
    cases (header.get? "kid").bind Json.text? <;> simp [halg]
  · rename_i halg
    simp [halg]

theorem headerKid_caught (hlib : lib.Documented) {token : String} {e : PyError} (h : headerKid lib token = .error e) :
    e.Caught := by
  unfold headerKid at h
  rcases bind_eq_error.mp h with h | ⟨header, -, h⟩
  · exact (hlib.header _ _ h).caught
  · have he : e = .invalidTokenError := by
      split at h
      · split at h
        · cases h
        · cases h
          rfl
      · cases h
        rfl
    subst he
    simp [PyError.Caught]

/-- No public RSA key. A refused header keeps a private key from its use. -/
def OtherKey (lib : PyJwt Key) (header jwk : JsonObject) : Prop :=
  lib.isRsaJwk jwk = false ∨ lib.isPrivateJwk jwk = true ∧ lib.refusesHeader header = false

theorem userOf_caught_of_key {token : String} {publicKey : Key}
    (h : ∀ e, lib.decode token publicKey settings.decodeKwargs = .error e → e.Caught) {e : PyError}
    (he : (do
      match ← lib.decode token publicKey settings.decodeKwargs with
      | .obj claims => AuthenticatedUser.fromClaims claims
      | _ => .error .invalidTokenError) = .error e) : e.Caught := by
  rcases bind_eq_error.mp he with he | ⟨claims, -, he⟩
  · exact h e he
  · split at he
    · rw [fromClaims_error he]
      simp [PyError.Caught]
    · cases he
      simp [PyError.Caught]

theorem decode_caught (hlib : lib.Documented) {token : String} {header : JsonObject}
    (hheader : lib.getUnverifiedHeader token = .ok header) (halg : header.get? "alg" = some (.str "RS256")) (key : Key) :
    (∀ e, lib.decode token key settings.decodeKwargs = .error e → e.Caught) ↔
      ¬ (lib.isPrivate key = true ∧ lib.refusesHeader header = false) := by
  cases hprivate : lib.isPrivate key with
  | false => exact iff_of_true (fun e he => (hlib.decode _ _ _ _ hprivate he).caught) (by simp)
  | true =>
    obtain ⟨e, he, hkind⟩ := hlib.decodePrivate token header key settings.decodeKwargs hprivate hheader halg
      (List.mem_singleton.mpr rfl)
    have hall : (∀ e, lib.decode token key settings.decodeKwargs = .error e → e.Caught) ↔ e.Caught := by
      rw [he]
      exact ⟨fun h => h e rfl, fun h e' he' => Except.error.inj he' ▸ h⟩
    rw [hall]
    split at hkind
    · rename_i hrefuses
      exact iff_of_true hkind.caught (by simp [hrefuses])
    · rename_i htakes
      rw [Bool.not_eq_true] at htakes
      subst hkind
      exact iff_of_false (by simp [PyError.Caught]) (by simp [htakes])

theorem userOf_caught (hlib : lib.Documented) {token kid : String} {header : JsonObject}
    (hheader : lib.getUnverifiedHeader token = .ok header) (halg : header.get? "alg" = some (.str "RS256"))
    {keys : Jwks} :
    (∀ e, userOf lib settings token kid keys = .error e → e.Caught) ↔
      ∀ jwk ∈ keys.get? kid, ¬ OtherKey lib header jwk := by
  unfold userOf
  cases hkey : keys.get? kid with
  | none =>
    refine iff_of_true (fun e he => ?_) fun jwk hjwk => by cases hjwk
    cases he
    simp [PyError.Caught]
  | some jwk =>
    simp only [Option.mem_def, Option.some.injEq, forall_eq']
    constructor
    · rintro h (hrsa | ⟨hprivate, htakes⟩)
      · exact (h .invalidKeyError (bind_eq_error.mpr (Or.inl ((hlib.notRsa jwk).mpr hrsa)))).1 rfl
      · obtain ⟨key, hfrom, hprivate⟩ := (hlib.privateJwk jwk).mp hprivate
        have hcaught : ∀ e, lib.decode token key settings.decodeKwargs = .error e → e.Caught := fun e he =>
          h e (bind_eq_error.mpr (Or.inr ⟨key, hfrom, bind_eq_error.mpr (Or.inl he)⟩))
        exact (decode_caught hlib hheader halg key).mp hcaught ⟨hprivate, htakes⟩
    · intro hother e he
      rcases bind_eq_error.mp he with hfrom | ⟨key, hfrom, he⟩
      · rcases hlib.fromJwk jwk e hfrom with rfl | rfl | rfl
        · exact absurd (Or.inl ((hlib.notRsa jwk).mp hfrom)) hother
        · simp [PyError.Caught]
        · simp [PyError.Caught]
      · refine userOf_caught_of_key ((decode_caught hlib hheader halg key).mpr ?_) he
        rintro ⟨hprivate, htakes⟩
        exact hother (Or.inr ⟨(hlib.privateJwk jwk).mpr ⟨key, hfrom, hprivate⟩, htakes⟩)

/-- The token names a key that is found and is no public RSA key. -/
structure NamesOtherKey (lib : PyJwt Key) (settings : AuthSettings) (cache : JwksCache) (s : Surroundings)
    (token : String) : Prop where
  configured : settings.configured = true
  key : ∃ header kid keys jwk, Names lib token header kid ∧ cache.Finds s keys ∧ Jwks.get? keys kid = some jwk ∧
    OtherKey lib header jwk

/-- The token brings about a fetch that ends in what is no `HTTPError`. -/
structure NeedsOtherFetch (lib : PyJwt Key) (settings : AuthSettings) (cache : JwksCache) (s : Surroundings)
    (token : String) : Prop where
  configured : settings.configured = true
  named : ∃ header kid, Names lib token header kid
  escapes : cache.FetchEscapes s

theorem authProblemOnly_mapError {x : Except PyError AuthenticatedUser} :
    AuthProblemOnly (x.mapError PyError.raised) ↔ ∀ e, x = .error e → e.Caught := by
  cases x with
  | ok user => simp [Except.mapError, AuthProblemOnly]
  | error e => simpa [Except.mapError] using authProblemOnly_raised

/-- **Verification fails only with an authentication problem** unless the token names a key that is no public RSA key,
or needs a fetch whose error httpx does not report as an `HTTPError`. -/
theorem verify_fails_as_auth_iff (hlib : lib.Documented) (hmode : settings.authMode = .supabase) (ttlSeconds : ℕ)
    (cache : JwksCache) (s : Surroundings) (token : String) :
    AuthProblemOnly (verify lib settings ttlSeconds cache s token).1 ↔
      ¬ NamesOtherKey lib settings cache s token ∧ ¬ NeedsOtherFetch lib settings cache s token := by
  unfold verify verifySupabase
  rw [hmode]
  dsimp only
  by_cases hconfigured : settings.configured = true
  · rw [if_pos hconfigured]
    cases hkid : headerKid lib token with
    | error e =>
      have hunnamed {header : JsonObject} {kid : String} : ¬ Names lib token header kid := fun h => by
        cases hkid.symm.trans (headerKid_ok.mpr ⟨header, h⟩)
      refine iff_of_true (authProblemOnly_raised.mpr (headerKid_caught hlib hkid)) ⟨?_, ?_⟩
      · rintro ⟨-, header, kid, _, _, hnames, -⟩
        exact hunnamed hnames
      · rintro ⟨-, ⟨header, kid, hnames⟩, -⟩
        exact hunnamed hnames
    | ok kid =>
      obtain ⟨header, hnames⟩ := headerKid_ok.mp hkid
      dsimp only
      rw [authProblemOnly_mapError]
      cases hkeys : (cache.get ttlSeconds s).1 with
      | error e =>
        -- No keys: what the fetch ends in decides.
        have hcaught : (∀ e', (Except.error e >>= userOf lib settings token kid) = .error e' → e'.Caught) ↔ e.Caught :=
          ⟨fun h => h e rfl, fun h e' he' => Except.error.inj he' ▸ h⟩
        rw [hcaught, JwksCache.get_caught hkeys]
        constructor
        · refine fun h => ⟨?_, fun hfetch => h hfetch.escapes⟩
          rintro ⟨-, _, _, keys, _, -, hfinds, -⟩
          cases hkeys.symm.trans (JwksCache.get_ok.mpr hfinds)
        · exact fun h hescapes => h.2 ⟨hconfigured, ⟨header, kid, hnames⟩, hescapes⟩
      | ok keys =>
        have hfinds := JwksCache.get_ok.mp hkeys
        have hnone : ¬ NeedsOtherFetch lib settings cache s token := fun h => JwksCache.not_fetchEscapes hfinds h.escapes
        refine (userOf_caught hlib hnames.unverified hnames.alg).trans ⟨fun h => ⟨?_, hnone⟩, fun h jwk hjwk hother => ?_⟩
        · rintro ⟨-, header', kid', keys', jwk, hnames', hfinds', hjwk, hother⟩
          cases hnames.unverified.symm.trans hnames'.unverified
          cases hnames.named.symm.trans hnames'.named
          cases hkeys.symm.trans (JwksCache.get_ok.mpr hfinds')
          exact h jwk hjwk hother
        · exact h.1 ⟨hconfigured, header, kid, keys, jwk, hnames, hfinds, hjwk, hother⟩
  · rw [if_neg hconfigured]
    exact iff_of_true (Or.inl rfl) ⟨fun h => hconfigured h.configured, fun h => hconfigured h.configured⟩

end Escapes

/-! ### A document with a key of another kind -/

def sampleHeader (token : String) : Except PyError JsonObject :=
  if token = "eyJhbGciOiJSUzI1NiIsImtpZCI6ImVjIn0.e30.AA" then .ok [("alg", .str "RS256"), ("kid", .str "ec")]
  else if token = "eyJhbGciOiJSUzI1NiIsImtpZCI6Im5vIn0.e30.AA" then .ok [("alg", .str "RS256"), ("kid", .str "no")]
  else .error .invalidTokenError

def isRsa (jwk : JsonObject) : Bool := (jwk.get? "kty").bind Json.text? == some "RSA"

/-- PyJWT where it meets the tokens and the keys below. The signatures of the tokens match no key. -/
def samplePyJwt : PyJwt JsonObject where
  getUnverifiedHeader := sampleHeader
  refusesHeader _ := false
  isRsaJwk := isRsa
  isPrivateJwk jwk := isRsa jwk && (jwk.get? "d").isSome
  isPrivate key := (key.get? "d").isSome
  fromJwk jwk := if isRsa jwk then .ok jwk else .error .invalidKeyError
  decode token key _ := do
    let _ ← sampleHeader token
    .error (if (key.get? "d").isSome then .other else .invalidTokenError)

theorem sampleHeader_error {token : String} {e : PyError} (h : sampleHeader token = .error e) : e.isInvalidToken := by
  unfold sampleHeader at h
  split at h
  · cases h
  · split at h
    · cases h
    · cases h
      exact Or.inr rfl

theorem samplePyJwt_documented : samplePyJwt.Documented where
  header token e h := sampleHeader_error h
  notRsa jwk := by
    simp only [samplePyJwt]
    split <;> simp_all
  fromJwk jwk e h := by
    simp only [samplePyJwt] at h
    split at h
    · cases h
    · cases h
      exact Or.inl rfl
  privateJwk jwk := by
    simp only [samplePyJwt, Bool.and_eq_true]
    constructor
    · exact fun ⟨hrsa, hd⟩ => ⟨jwk, if_pos hrsa, hd⟩
    · rintro ⟨key, hkey, hd⟩
      split at hkey
      · rename_i hrsa
        cases hkey
        exact ⟨hrsa, hd⟩
      · cases hkey
  decode token key kwargs e hpublic h := by
    simp only [samplePyJwt] at hpublic h
    rcases bind_eq_error.mp h with h | ⟨_, -, h⟩
    · exact sampleHeader_error h
    · rw [hpublic] at h
      cases h
      exact Or.inr rfl
  decodePrivate token header key kwargs hprivate hheader _ _ := by
    simp only [samplePyJwt] at hprivate hheader ⊢
    refine ⟨.other, ?_, by simp⟩
    rw [hheader, hprivate]
    rfl

def deployed : AuthSettings where
  authMode := .supabase
  supabaseJwksUrl := some "https://auth.example.test/jwks.json"
  supabaseJwtAudience := some "authenticated"
  supabaseJwtIssuer := some "https://auth.example.test"

/-- An empty cache, and a document with one key, which is no RSA key. -/
def ellipticDocument : Surroundings where
  lookedAt := 1
  lockedAt := 1
  storedAt := 2
  locked := {}
  outcome := .body (some (.obj [("keys", .arr [.obj [("kid", .str "ec"), ("kty", .str "EC"), ("crv", .str "P-256")]])]))

def ellipticKeys : Jwks := [("ec", [("kid", .str "ec"), ("kty", .str "EC"), ("crv", .str "P-256")])]

theorem elliptic_found : (JwksCache.get 600 {} ellipticDocument).1 = .ok ellipticKeys := by rfl

/-- A token with an unknown `kid` is refused. -/
theorem unknown_key_refused :
    AuthProblemOnly (verify samplePyJwt deployed 600 {} ellipticDocument
      "eyJhbGciOiJSUzI1NiIsImtpZCI6Im5vIn0.e30.AA").1 := by
  refine (verify_fails_as_auth_iff samplePyJwt_documented rfl 600 {} ellipticDocument _).mpr ⟨?_, ?_⟩
  · rintro ⟨-, header, kid, keys, jwk, ⟨hheader, -, hkid⟩, hfinds, hjwk, -⟩
    cases hheader
    cases hkid
    cases elliptic_found.symm.trans (JwksCache.get_ok.mpr hfinds)
    have hnone : ellipticKeys.get? "no" = none := by rfl
    rw [hnone] at hjwk
    cases hjwk
  · rintro ⟨-, -, hescapes⟩
    cases hescapes.outcome

/-- A token that names the key in its header ends in an InvalidKeyError. -/
theorem other_key_escapes :
    ¬ ∀ (Key : Type) (lib : PyJwt Key) (settings : AuthSettings) (ttlSeconds : ℕ) (cache : JwksCache)
      (s : Surroundings) (token : String), lib.Documented → settings.authMode = .supabase →
        AuthProblemOnly (verify lib settings ttlSeconds cache s token).1 := by
  intro h
  exact h JsonObject samplePyJwt deployed 600 {} ellipticDocument "eyJhbGciOiJSUzI1NiIsImtpZCI6ImVjIn0.e30.AA"
    samplePyJwt_documented rfl

/-- The key of the name is an RSA key, published with its private part. -/
def privateDocument : Surroundings :=
  { ellipticDocument with
    outcome := .body (some (.obj [("keys", .arr [.obj [("kid", .str "ec"), ("kty", .str "RSA"), ("n", .str "uQ"),
      ("e", .str "Aw"), ("d", .str "Kw")]])])) }

example : ¬ AuthProblemOnly (verify samplePyJwt deployed 600 {} privateDocument
    "eyJhbGciOiJSUzI1NiIsImtpZCI6ImVjIn0.e30.AA").1 := fun h => h

end BaptistApi
