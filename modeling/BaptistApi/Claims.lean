import BaptistApi.LadderSpec
import BaptistApi.PyUuid
import BaptistApi.Writes

/-!
# From the claims of a token to the audit trail

`AuthenticatedUser.from_claims`, `get_tenant_context` and `audit.write_card`. The role is any text on its way,
and at its end the name of an `actor_role`.
-/

namespace BaptistApi

open BaptistApi.Calendar BaptistApi.RowSecurity

/-! ## Claims -/

/-- A Python dict that was read from JSON. -/
abbrev JsonObject := List (String × Json)

/-- Of two entries with one key, the later. -/
def JsonObject.get? (o : JsonObject) (key : String) : Option Json := o.reverse.lookup key

/-- What `isinstance(value, str)` lets through. -/
def Json.text? : Json → Option String
  | .str s => some s
  | _ => none

/-- Exceptions, as `_verify_supabase` tells them apart. -/
inductive PyError where
  | expiredSignatureError
  /-- Another subclass of `InvalidTokenError`. -/
  | invalidTokenError
  /-- A subclass of `PyJWTError`, and not of `InvalidTokenError`. -/
  | invalidKeyError
  | typeError
  | valueError
  | keyError
  | httpError
  | other
  deriving DecidableEq

structure AuthenticatedUser where
  id : Uuid
  tenantId : Option Uuid := none
  role : String
  claims : JsonObject := []

def pyUuid (s : String) : Except PyError Uuid :=
  match Uuid.parse? s with
  | some u => .ok u
  | none => .error .valueError

/-- A value that must be a string. -/
def requireText (v : Option Json) : Except PyError String :=
  match v.bind Json.text? with
  | some s => .ok s
  | none => .error .valueError

def AuthenticatedUser.fromClaims (claims : JsonObject) : Except PyError AuthenticatedUser := do
  let subject ← requireText (claims.get? "sub")
  let tenantId ← ((claims.get? "tenant_id").bind Json.text?).mapM pyUuid
  let role ← requireText ((claims.get? "role").getD (.str "client_user"))
  .ok { id := ← pyUuid subject, tenantId, role, claims }

def getTenantContext (user : AuthenticatedUser) : Except ProblemCode RequestContext :=
  match user.tenantId with
  | none => .error .tenantScopeMissing
  | some tenantId => .ok { tenantId, actorId := user.id, role := user.role }

theorem text?_eq_some {v : Json} {s : String} : v.text? = some s ↔ v = .str s := by
  cases v <;> simp [Json.text?]

theorem requireText_ok {v : Option Json} {s : String} : requireText v = .ok s ↔ v = some (.str s) := by
  unfold requireText
  cases v with
  | none => simp
  | some v => cases v <;> simp [Json.text?]

theorem requireText_error {v : Option Json} {e : PyError} (h : requireText v = .error e) : e = .valueError := by
  unfold requireText at h
  split at h
  · cases h
  · cases h
    rfl

theorem pyUuid_error {s : String} {e : PyError} (h : pyUuid s = .error e) : e = .valueError := by
  unfold pyUuid at h
  split at h
  · cases h
  · cases h
    rfl

theorem mapM_error {α β ε : Type} {f : α → Except ε β} {o : Option α} {e : ε} (h : o.mapM f = .error e) :
    ∃ a ∈ o, f a = .error e := by
  cases o with
  | none => cases h
  | some a =>
    rw [Option.mapM_some] at h
    exact ⟨a, rfl, by cases hf : f a <;> simp_all⟩

theorem fromClaims_error {claims : JsonObject} {e : PyError} (h : AuthenticatedUser.fromClaims claims = .error e) :
    e = .valueError := by
  simp only [AuthenticatedUser.fromClaims, bind_eq_error] at h
  rcases h with h | ⟨subject, -, h | ⟨tenantId, -, h | ⟨role, -, h | ⟨id, -, h⟩⟩⟩⟩
  · exact requireText_error h
  · obtain ⟨s, -, hs⟩ := mapM_error h
    exact pyUuid_error hs
  · exact requireText_error h
  · exact pyUuid_error h
  · cases h

theorem fromClaims_role {claims : JsonObject} {user : AuthenticatedUser}
    (h : AuthenticatedUser.fromClaims claims = .ok user) :
    (claims.get? "role").getD (.str "client_user") = .str user.role := by
  simp only [AuthenticatedUser.fromClaims, bind_eq_ok] at h
  obtain ⟨_, -, _, -, role, hrole, _, -, h⟩ := h
  cases h
  exact Option.some.inj (requireText_ok.mp hrole)

theorem getTenantContext_role {user : AuthenticatedUser} {ctx : RequestContext} (h : getTenantContext user = .ok ctx) :
    ctx.role = user.role := by
  unfold getTenantContext at h
  split at h
  · cases h
  · cases h
    rfl

def RequestContext.claims (ctx : RequestContext) : JsonObject :=
  [("sub", .str ctx.actorId.str), ("tenant_id", .str ctx.tenantId.str), ("role", .str ctx.role)]

theorem context_of_claims (ctx : RequestContext) :
    ∃ user, AuthenticatedUser.fromClaims ctx.claims = .ok user ∧ getTenantContext user = .ok ctx := by
  have hid (u : Uuid) : pyUuid u.str = .ok u := by rw [pyUuid, Uuid.parse?_str]
  have hsub : ctx.claims.get? "sub" = some (.str ctx.actorId.str) := rfl
  have htenant : ctx.claims.get? "tenant_id" = some (.str ctx.tenantId.str) := rfl
  have hrole : ctx.claims.get? "role" = some (.str ctx.role) := rfl
  have htext (s : String) : requireText (some (.str s)) = .ok s := requireText_ok.mpr rfl
  refine ⟨{ id := ctx.actorId, tenantId := some ctx.tenantId, role := ctx.role, claims := ctx.claims }, ?_, rfl⟩
  simp only [AuthenticatedUser.fromClaims, bind_eq_ok]
  refine ⟨_, hsub ▸ htext _, some ctx.tenantId, ?_, _, ?_, _, hid _, rfl⟩
  · rw [htenant, Option.bind_some, Json.text?, Option.mapM_some, hid]
    rfl
  · rw [hrole]
    exact htext _

/-! ## `audit.write_card` inside `tenant_context` -/

def ActorRole.text : ActorRole → String
  | .asAdmin => "as_admin"
  | .asStaff => "as_staff"
  | .clientAdmin => "client_admin"
  | .clientUser => "client_user"
  | .system => "system"

theorem ActorRole.ofText?_eq_some {s : String} {r : ActorRole} : ActorRole.ofText? s = some r ↔ s = r.text := by
  constructor
  · unfold ActorRole.ofText?
    split <;> intro h <;> cases h <;> rfl
  · rintro rfl
    cases r <;> rfl

/-- The texts that the call of the function binds. -/
def CardRequest.texts (c : CardRequest) : List String :=
  [c.verb, c.action, c.resourceType] ++ c.resourceId.toList

/-- What a call of `services.audit.write_card` inserts in a block that `tenant_context` opens. -/
def auditCard (ctx : RequestContext) (now : Timestamp) (db : Db) (c : CardRequest) (id : ℤ) :
    Except SqlError AuditCard :=
  if textStorable ctx.role then
    if c.texts.all textStorable then do
      let detail ← c.detail.mapM jsonb
      writeCard (tenantContext ctx now) db { c with detail } id
    else .error .data
  else .error .data

/-- The database has a place for what the card says. -/
structure CardRequest.Storable (c : CardRequest) : Prop where
  texts : ∀ s ∈ c.texts, textStorable s = true
  detail : ∀ d ∈ c.detail, d.jsonb ≠ none

structure InNameOf (ctx : RequestContext) (card : AuditCard) : Prop where
  tenantId : card.tenantId = ctx.tenantId
  actorId : card.actorId = some ctx.actorId
  actorRole : card.actorRole.text = ctx.role

def Audited (ctx : RequestContext) (now : Timestamp) (db : Db) (c : CardRequest) (id : ℤ) : Prop :=
  ∃ card, auditCard ctx now db c id = .ok card ∧ InNameOf ctx card

/-- The role claim is absent, or it is the name of an `actor_role`. -/
def NamesActorRole (claims : JsonObject) : Prop := ∀ v ∈ claims.get? "role", ∃ r : ActorRole, v = .str r.text

theorem namesActorRole_iff {claims : JsonObject} {role : String}
    (h : (claims.get? "role").getD (.str "client_user") = .str role) :
    NamesActorRole claims ↔ ∃ r : ActorRole, role = r.text := by
  unfold NamesActorRole
  cases hrole : claims.get? "role" with
  | none =>
    rw [hrole] at h
    cases h
    exact iff_of_true (fun v hv => by cases hv) ⟨.clientUser, rfl⟩
  | some v =>
    rw [hrole] at h
    obtain rfl : v = .str role := h
    simp

section Audited

variable {ctx : RequestContext} {now : Timestamp} {db : Db} {c : CardRequest} {id : ℤ}

theorem ofText?_currentRole : ActorRole.ofText? (tenantContext ctx now).currentRole = ActorRole.ofText? ctx.role := by
  unfold Session.currentRole tenantContext
  split
  · rename_i h
    rw [show ctx.role = "" from h]
    rfl
  · rfl

theorem auditCard_ok {card : AuditCard} (h : auditCard ctx now db c id = .ok card) :
    c.Storable ∧ ∃ r : ActorRole, ctx.role = r.text := by
  unfold auditCard at h
  split at h
  · split at h
    · rename_i htexts
      obtain ⟨detail, hdetail, h⟩ := bind_eq_ok.mp h
      obtain ⟨role, -, hrole, -⟩ := writeCard_ok h
      rw [ofText?_currentRole, ActorRole.ofText?_eq_some] at hrole
      refine ⟨⟨List.all_eq_true.mp htexts, fun d hd => ?_⟩, role, hrole⟩
      obtain ⟨d', hd'⟩ := mapM_isOk.mp ⟨detail, hdetail⟩ d hd
      rw [jsonb_ok.mp hd']
      exact Option.some_ne_none d'
    · cases h
  · cases h

theorem audited_of_storable {r : ActorRole} (hrole : ctx.role = r.text) (hc : c.Storable)
    (htenant : ctx.tenantId ∈ db.tenantIds) (hactor : ctx.actorId ∈ db.userIds) (hverb : Verb.ofText? c.verb ≠ none)
    (hlocation : refersTo db.locationIds c.locationId) (happroval : refersTo db.approvalIds c.approvalId) :
    Audited ctx now db c id := by
  have hknown : ActorRole.ofText? (tenantContext ctx now).currentRole = some r := by
    rw [ofText?_currentRole, ActorRole.ofText?_eq_some, hrole]
  have hstorable : textStorable ctx.role = true := by
    rw [hrole]
    cases r <;> decide
  obtain ⟨detail, hdetail⟩ := mapM_isOk.mpr fun d hd => by
    obtain ⟨d', hd'⟩ := Option.ne_none_iff_exists'.mp (hc.detail d hd)
    exact ⟨d', jsonb_ok.mpr hd'⟩
  obtain ⟨card, hcard⟩ := @writeCard_succeeds ctx now db { c with detail } id (by simp [hknown]) hverb
    htenant hlocation hactor happroval
  obtain ⟨role, -, hwritten, -, htenantId, hactorId, hactorRole, -⟩ := writeCard_ok hcard
  refine ⟨card, ?_, Option.some.inj htenantId, hactorId, ?_⟩
  · rw [auditCard, if_pos hstorable, if_pos (List.all_eq_true.mpr hc.texts)]
    exact bind_eq_ok.mpr ⟨detail, hdetail, hcard⟩
  · rw [hactorRole, ← Option.some.inj (hknown.symm.trans hwritten), hrole]

/-- **Which contexts can be audited.** Those whose claims name an `actor_role`, or no role, with texts that the
database can store. -/
theorem context_audited_iff {claims : JsonObject} {user : AuthenticatedUser}
    (huser : AuthenticatedUser.fromClaims claims = .ok user) (hctx : getTenantContext user = .ok ctx)
    (htenant : ctx.tenantId ∈ db.tenantIds) (hactor : ctx.actorId ∈ db.userIds) (hverb : Verb.ofText? c.verb ≠ none)
    (hlocation : refersTo db.locationIds c.locationId) (happroval : refersTo db.approvalIds c.approvalId) :
    Audited ctx now db c id ↔ NamesActorRole claims ∧ c.Storable := by
  have hrole := fromClaims_role huser
  rw [← getTenantContext_role hctx] at hrole
  rw [namesActorRole_iff hrole]
  constructor
  · rintro ⟨card, hcard, -⟩
    exact (auditCard_ok hcard).symm
  · rintro ⟨⟨r, hr⟩, hc⟩
    exact audited_of_storable hr hc htenant hactor hverb hlocation happroval

end Audited

def postCard : CardRequest := { locationId := some 10, verb := "create", action := "post", resourceType := "post" }

theorem postCard_storable : postCard.Storable := ⟨by decide, fun d hd => by cases hd⟩

theorem clinicUser_audited : Audited clinicUser noon (clinic .active) postCard 1 := by
  obtain ⟨user, huser, hctx⟩ := context_of_claims clinicUser
  have hrole : NamesActorRole clinicUser.claims := (namesActorRole_iff (fromClaims_role huser)).mpr
    ⟨.clientUser, (getTenantContext_role hctx).symm⟩
  exact (context_audited_iff huser hctx (by decide) (by decide) (by decide) (by decide) (by decide)).mpr
    ⟨hrole, postCard_storable⟩

/-- The clinic's user, with the role that the tokens of Supabase carry by default. -/
def defaultUser : RequestContext := { clinicUser with role := "authenticated" }

theorem default_role_not_audited :
    ¬ ∀ (claims : JsonObject) (user : AuthenticatedUser) (ctx : RequestContext) (now : Timestamp) (db : Db)
      (c : CardRequest) (id : ℤ), AuthenticatedUser.fromClaims claims = .ok user → getTenantContext user = .ok ctx →
        ctx.tenantId ∈ db.tenantIds → ctx.actorId ∈ db.userIds → Verb.ofText? c.verb ≠ none →
        refersTo db.locationIds c.locationId → refersTo db.approvalIds c.approvalId → c.Storable →
        Audited ctx now db c id := by
  intro h
  obtain ⟨user, huser, hctx⟩ := context_of_claims defaultUser
  obtain ⟨card, hcard, -⟩ := h _ user defaultUser noon (clinic .active) postCard 1 huser hctx (by decide) (by decide)
    (by decide) (by decide) (by decide) postCard_storable
  obtain ⟨r, hr⟩ := (auditCard_ok hcard).2
  cases r <;> revert hr <;> decide

end BaptistApi
