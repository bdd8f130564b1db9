import BaptistApi.Statement

/-!
# The audit trail

`audit.write_card`, which runs with the rights of its owner: no policy and no tenant trigger is in
its way, only its own check and the constraints.
-/

namespace BaptistApi

open BaptistApi.RowSecurity

/-- The arguments of `audit.write_card`. -/
structure CardRequest where
  locationId : Option Uuid
  verb : String
  action : String
  resourceType : String
  resourceId : Option String := none
  approvalId : Option Uuid := none
  detail : Option Json := none
  simulated : Bool := false

/-- `grant execute on function audit.write_card`. -/
def mayWriteCard (role : DbRole) : Bool := role ≠ .appReadonly

/-- `coalesce(full_name, email)` of the actor, when there is a profile. -/
def actorLabel (s : Session) (db : Db) : Option String :=
  (db.userProfile.find? fun u => some u.id == s.currentActorId).map fun u => u.fullName.getD u.email

/-- The card that `audit.write_card` inserts. `id` is the next value of the identity sequence. -/
def writeCard (s : Session) (db : Db) (c : CardRequest) (id : ℤ) : Except SqlError AuditCard :=
  if mayWriteCard s.currentUser then
    match s.currentTenantId with
    | none => .error (.insufficientPrivilege "no tenant bound: refusing audit write")
    | some tenantId =>
      match ActorRole.ofText? s.currentRole with
      | none => .error .data
      | some actorRole =>
        match Verb.ofText? c.verb with
        | none => .error .integrity
        | some verb =>
          let card : AuditCard :=
            { id, tenantId, locationId := c.locationId, actorId := s.currentActorId
              actorLabel := (actorLabel s db).getD "system", actorRole, verb, action := c.action
              resourceType := c.resourceType, resourceId := c.resourceId, approvalId := c.approvalId
              requestId := s.requestId, detail := c.detail, simulated := c.simulated }
          if rowOk db .auditCard card then .ok card else .error .integrity
  else .error (.insufficientPrivilege "permission denied for function write_card")

theorem writeCard_ok {s : Session} {db : Db} {c : CardRequest} {id : ℤ} {card : AuditCard}
    (h : writeCard s db c id = .ok card) :
    ∃ actorRole verb, ActorRole.ofText? s.currentRole = some actorRole ∧
      Verb.ofText? c.verb = some verb ∧ some card.tenantId = s.currentTenantId ∧
      card.actorId = s.currentActorId ∧ card.actorRole = actorRole ∧ card.verb = verb ∧
      card.locationId = c.locationId ∧ card.approvalId = c.approvalId ∧ rowOk db .auditCard card := by
  unfold writeCard at h
  split at h
  · split at h
    · simp at h
    · rename_i tenantId ht
      split at h
      · simp at h
      · rename_i actorRole hrole
        split at h
        · simp at h
        · rename_i verb hverb
          dsimp only at h
          split at h
          · rename_i hok
            cases h
            exact ⟨actorRole, verb, hrole, hverb, ht.symm, rfl, rfl, rfl, rfl, rfl, hok⟩
          · simp at h
  · simp at h

theorem writeCard_succeeds {ctx : RequestContext} {now : Calendar.Timestamp} {db : Db} {c : CardRequest}
    (id : ℤ) (hrole : ActorRole.ofText? (tenantContext ctx now).currentRole ≠ none)
    (hverb : Verb.ofText? c.verb ≠ none) (htenant : ctx.tenantId ∈ db.tenantIds)
    (hlocation : refersTo db.locationIds c.locationId) (hactor : ctx.actorId ∈ db.userIds)
    (happroval : refersTo db.approvalIds c.approvalId) :
    ∃ card, writeCard (tenantContext ctx now) db c id = .ok card := by
  obtain ⟨role, hrole⟩ := Option.ne_none_iff_exists'.mp hrole
  obtain ⟨verb, hverb⟩ := Option.ne_none_iff_exists'.mp hverb
  have htext : (tenantContext ctx now).currentTenantId = some ctx.tenantId := rfl
  have hmay : mayWriteCard (tenantContext ctx now).currentUser = true := rfl
  unfold writeCard
  rw [if_pos hmay, htext]
  dsimp only
  rw [hrole, hverb]
  dsimp only
  rw [if_pos]
  · exact ⟨_, rfl⟩
  · refine ⟨htenant, hlocation, fun i hi => ?_, happroval⟩
    cases hi
    exact hactor

end BaptistApi
