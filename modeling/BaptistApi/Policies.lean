import BaptistApi.Session
import BaptistApi.Lib.RowSecurity

/-!
# Grants, policies and triggers

Every table as migrations 0002 to 0005 leave it.
-/

namespace BaptistApi

open BaptistApi.RowSecurity

/-! ## Grants -/

/-- After 0002 (default privileges included) and the revokes of 0004 and 0005. -/
def grants (t : Relation) : DbRole → Command → Bool
  | .appMigrator, _ => true
  | .appApi, .select => true
  | .appApi, _ => t ≠ .auditCard
  | .appWorker, .select =>
    t ∈ [.tenant, .location, .locationAlias, .auditCard, .costLedger, .costPreview]
  | .appWorker, .insert => t ∈ [.auditCard, .costLedger]
  | .appWorker, _ => false
  | .appReadonly, cmd => cmd = .select

/-- The migrator is a superuser, and owns every table. -/
def bypasses (role : DbRole) : Bool := role = .appMigrator

def Relation.name : Relation → String
  | .tenant => "tenant"
  | .userProfile => "user_profile"
  | .membership => "membership"
  | .membershipLocation => "membership_location"
  | .tenantCredential => "tenant_credential"
  | .location => "location"
  | .locationAlias => "location_alias"
  | .auditCard => "audit_card"
  | .costLedger => "cost_ledger"
  | .costBudget => "cost_budget"
  | .costPreview => "cost_preview"
  | .approval => "approval"

def permissionDenied (t : Relation) : SqlError :=
  .insufficientPrivilege s!"permission denied for table {t.name}"

def violatesPolicy (t : Relation) : SqlError :=
  .insufficientPrivilege s!"new row violates row-level security policy for table {t.name}"

/-! ## Tables with a tenant -/

class TenantOwned (α : Type) where
  tenantId : α → Uuid
  withTenant : α → Uuid → α
  tenantId_withTenant : ∀ a t, tenantId (withTenant a t) = t

instance : TenantOwned Membership := ⟨(·.tenantId), fun r t => { r with tenantId := t }, fun _ _ => rfl⟩
instance : TenantOwned TenantCredential := ⟨(·.tenantId), fun r t => { r with tenantId := t }, fun _ _ => rfl⟩
instance : TenantOwned Location := ⟨(·.tenantId), fun r t => { r with tenantId := t }, fun _ _ => rfl⟩
instance : TenantOwned LocationAlias := ⟨(·.tenantId), fun r t => { r with tenantId := t }, fun _ _ => rfl⟩
instance : TenantOwned AuditCard := ⟨(·.tenantId), fun r t => { r with tenantId := t }, fun _ _ => rfl⟩
instance : TenantOwned CostLedger := ⟨(·.tenantId), fun r t => { r with tenantId := t }, fun _ _ => rfl⟩
instance : TenantOwned CostBudget := ⟨(·.tenantId), fun r t => { r with tenantId := t }, fun _ _ => rfl⟩
instance : TenantOwned CostPreview := ⟨(·.tenantId), fun r t => { r with tenantId := t }, fun _ _ => rfl⟩
instance : TenantOwned Approval := ⟨(·.tenantId), fun r t => { r with tenantId := t }, fun _ _ => rfl⟩

/-- A row as a statement gives it: its `tenant_id` may still be null. -/
structure TenantDraft (α : Type) where
  tenantId : Option Uuid
  row : α

section TenantTables

variable {α : Type} [TenantOwned α]

def tenantIsBound (sc : Scope) (d : TenantDraft α) : Truth :=
  sqlEq d.tenantId sc.session.currentTenantId

def selectTenant (name : String) (roles : List DbRole) : Policy DbRole Scope (TenantDraft α) :=
  { name, command := .select, roles, using_ := some tenantIsBound }

def insertTenant (name : String) (roles : List DbRole) : Policy DbRole Scope (TenantDraft α) :=
  { name, command := .insert, roles, check := some tenantIsBound }

def updateTenant (name : String) (roles : List DbRole) : Policy DbRole Scope (TenantDraft α) :=
  { name, command := .update, roles, using_ := some tenantIsBound, check := some tenantIsBound }

def deleteTenant (name : String) (roles : List DbRole) : Policy DbRole Scope (TenantDraft α) :=
  { name, command := .delete, roles, using_ := some tenantIsBound }

/-- `app.tg_enforce_tenant()`: `old` is there for an UPDATE. -/
def tgEnforceTenant (t : Relation) (sc : Scope) (old : Option α) (new : TenantDraft α) :
    Except SqlError (TenantDraft α) :=
  if sc.session.currentUser = .appMigrator then .ok new
  else
    match sc.session.currentTenantId with
    | none => .error (.insufficientPrivilege s!"no tenant bound: refusing write to {t.name}")
    | some bound =>
      match old, new.tenantId with
      | none, none => .ok { new with tenantId := some bound }
      | none, some u =>
        if u ≠ bound then .error (.insufficientPrivilege s!"cross-tenant insert blocked on {t.name}")
        else .ok new
      -- A null `tenant_id` differs from nothing: NOT NULL refuses it later.
      | some _, none => .ok new
      | some o, some u =>
        if u ≠ TenantOwned.tenantId o then
          .error (.insufficientPrivilege s!"tenant_id is immutable on {t.name}")
        else .ok new

/-- A table with a `tenant_id` and the trigger that enforces it. -/
def tenantTable (t : Relation) (policies : List (Policy DbRole Scope (TenantDraft α))) :
    Table DbRole Scope (TenantDraft α) α SqlError where
  grants := grants t
  bypass := bypasses
  policies := policies
  beforeInsert sc d := tgEnforceTenant t sc none d
  beforeUpdate sc old d := tgEnforceTenant t sc (some old) d
  beforeDelete _ _ := .ok ()
  embed r := { tenantId := some (TenantOwned.tenantId r), row := r }
  complete d :=
    match d.tenantId with
    | some u => .ok (TenantOwned.withTenant d.row u)
    | none => .error .integrity
  denied := permissionDenied t
  violates := violatesPolicy t

/-- A table without a tenant trigger. -/
def plainTable {β : Type} (t : Relation) (policies : List (Policy DbRole Scope β)) :
    Table DbRole Scope β β SqlError where
  grants := grants t
  bypass := bypasses
  policies := policies
  beforeInsert _ d := .ok d
  beforeUpdate _ _ d := .ok d
  beforeDelete _ _ := .ok ()
  embed r := r
  complete d := .ok d
  denied := permissionDenied t
  violates := violatesPolicy t

end TenantTables

/-! ## Migration 0002 -/

def Tables.tenant : Table DbRole Scope Tenant Tenant SqlError :=
  plainTable .tenant
    [{ name := "tenant_context_select", command := .select, roles := [.appApi, .appWorker, .appReadonly]
       using_ := some fun sc r => sqlEq (some r.id) sc.session.currentTenantId }]

def Tables.userProfile : Table DbRole Scope UserProfile UserProfile SqlError :=
  plainTable .userProfile
    [{ name := "user_profile_self", command := .select, roles := [.appApi]
       using_ := some fun sc r => sqlEq (some r.id) sc.session.currentActorId }]

def Tables.membership : Table DbRole Scope (TenantDraft Membership) Membership SqlError :=
  tenantTable .membership
    [selectTenant "membership_select_tenant" [.appApi, .appWorker, .appReadonly],
     insertTenant "membership_insert_tenant" [.appApi, .appWorker],
     updateTenant "membership_update_tenant" [.appApi, .appWorker],
     deleteTenant "membership_delete_tenant" [.appApi]]

/-- `select .. from membership`, as the session sees it. -/
def Scope.memberships (sc : Scope) : List Membership :=
  Tables.membership.visible sc.session.currentUser sc sc.db.membership

/-- `exists (select 1 from membership m where m.id = membership_id and m.tenant_id = ..)`. -/
def membershipIsBound (sc : Scope) (r : MembershipLocation) : Truth :=
  some (sc.memberships.any fun m =>
    m.id == r.membershipId && sqlEq (some m.tenantId) sc.session.currentTenantId == some true)

def Tables.membershipLocation : Table DbRole Scope MembershipLocation MembershipLocation SqlError :=
  plainTable .membershipLocation
    [{ name := "membership_location_select", command := .select
       roles := [.appApi, .appWorker, .appReadonly], using_ := some membershipIsBound },
     { name := "membership_location_insert", command := .insert, roles := [.appApi, .appWorker]
       check := some membershipIsBound },
     { name := "membership_location_update", command := .update, roles := [.appApi, .appWorker]
       using_ := some membershipIsBound, check := some membershipIsBound },
     { name := "membership_location_delete", command := .delete, roles := [.appApi]
       using_ := some membershipIsBound }]

def Scope.membershipLocations (sc : Scope) : List MembershipLocation :=
  Tables.membershipLocation.visible sc.session.currentUser sc sc.db.membershipLocation

def Tables.tenantCredential : Table DbRole Scope (TenantDraft TenantCredential) TenantCredential SqlError :=
  tenantTable .tenantCredential
    [selectTenant "tenant_credential_select_tenant" [.appApi],
     insertTenant "tenant_credential_insert_tenant" [.appApi, .appWorker],
     updateTenant "tenant_credential_update_tenant" [.appApi, .appWorker],
     deleteTenant "tenant_credential_delete_tenant" [.appApi]]

/-! ## Which locations a user may read -/

/-- The assignments of the actor's active memberships in the tenant:
`membership m join membership_location ml on ml.membership_id = m.id`. -/
def assignments (sc : Scope) : List MembershipLocation :=
  (sc.memberships.filter fun m =>
    sqlEq (some m.tenantId) sc.session.currentTenantId == some true &&
      sqlEq (some m.userId) sc.session.currentActorId == some true && m.status == .active).flatMap
    fun m => sc.membershipLocations.filter fun ml => ml.membershipId == m.id

/-- `app.can_read_location(loc)`, which runs with the rights of the caller. -/
def canReadLocation (sc : Scope) (loc : Uuid) : Bool :=
  if sc.session.isOperator then true
  else if (assignments sc).isEmpty then true
  else (assignments sc).any fun ml => ml.locationId == loc

/-! ## Migrations 0003 to 0005 -/

def Tables.location : Table DbRole Scope (TenantDraft Location) Location SqlError :=
  tenantTable .location
    [{ name := "location_select_scoped", command := .select, roles := [.appApi]
       using_ := some fun sc d => sqlAnd (tenantIsBound sc d) (some (canReadLocation sc d.row.id)) },
     selectTenant "location_select_tenant" [.appWorker, .appReadonly],
     insertTenant "location_insert_tenant" [.appApi],
     updateTenant "location_update_tenant" [.appApi],
     deleteTenant "location_delete_tenant" [.appApi]]

def Tables.locationAlias : Table DbRole Scope (TenantDraft LocationAlias) LocationAlias SqlError :=
  tenantTable .locationAlias
    [selectTenant "location_alias_select_tenant" [.appApi, .appWorker, .appReadonly],
     insertTenant "location_alias_insert_tenant" [.appApi, .appWorker],
     updateTenant "location_alias_update_tenant" [.appApi, .appWorker],
     deleteTenant "location_alias_delete_tenant" [.appApi]]

def auditCardAppendOnly (op : String) : SqlError :=
  .insufficientPrivilege s!"audit_card is append-only (attempted {op})"

/-- `trg_audit_card_immutable` fires after `trg_audit_card_enforce_tenant`, by name. -/
def Tables.auditCard : Table DbRole Scope (TenantDraft AuditCard) AuditCard SqlError :=
  { tenantTable .auditCard
      [selectTenant "audit_card_select_tenant" [.appApi, .appWorker, .appReadonly],
       insertTenant "audit_card_insert_worker" [.appWorker]] with
    beforeUpdate := fun sc old d => do
      let _ ← tgEnforceTenant .auditCard sc (some old) d
      .error (auditCardAppendOnly "UPDATE")
    beforeDelete := fun _ _ => .error (auditCardAppendOnly "DELETE") }

def Tables.costLedger : Table DbRole Scope (TenantDraft CostLedger) CostLedger SqlError :=
  tenantTable .costLedger
    [selectTenant "cost_ledger_select_tenant" [.appApi, .appWorker, .appReadonly],
     insertTenant "cost_ledger_insert_tenant" [.appApi, .appWorker],
     updateTenant "cost_ledger_update_tenant" [.appApi],
     deleteTenant "cost_ledger_delete_tenant" [.appApi]]

def Tables.costBudget : Table DbRole Scope (TenantDraft CostBudget) CostBudget SqlError :=
  tenantTable .costBudget
    [selectTenant "cost_budget_select_tenant" [.appApi, .appReadonly],
     insertTenant "cost_budget_insert_tenant" [.appApi],
     updateTenant "cost_budget_update_tenant" [.appApi],
     deleteTenant "cost_budget_delete_tenant" [.appApi]]

def Tables.costPreview : Table DbRole Scope (TenantDraft CostPreview) CostPreview SqlError :=
  tenantTable .costPreview
    [selectTenant "cost_preview_select_tenant" [.appApi, .appWorker, .appReadonly],
     insertTenant "cost_preview_insert_tenant" [.appApi],
     updateTenant "cost_preview_update_tenant" [.appApi],
     deleteTenant "cost_preview_delete_tenant" [.appApi]]

def Tables.approval : Table DbRole Scope (TenantDraft Approval) Approval SqlError :=
  tenantTable .approval
    [selectTenant "approval_select_tenant" [.appApi],
     insertTenant "approval_insert_tenant" [.appApi],
     updateTenant "approval_update_tenant" [.appApi],
     deleteTenant "approval_delete_tenant" [.appApi]]

/-! ## What the API reads -/

section ApiReads

variable {ctx : RequestContext} {now : Calendar.Timestamp} {db : Db}

theorem visible_tenantTable {α : Type} [TenantOwned α] {t : Relation}
    {policies : List (Policy DbRole Scope (TenantDraft α))}
    (hp : ∀ sc d, (tenantTable t policies).passes .select (·.using_) .appApi sc d =
      decide (tenantIsBound sc d = some true)) (rows : List α) :
    (tenantTable t policies).visible .appApi ⟨tenantContext ctx now, db⟩ rows =
      rows.filter fun r => TenantOwned.tenantId r == ctx.tenantId := by
  have hg : (tenantTable t policies).grants .appApi .select = true := rfl
  have hb : (tenantTable t policies).bypass .appApi = false := rfl
  rw [Table.visible, if_pos hg]
  refine List.filter_congr fun r _ => ?_
  rw [Table.readable, hb, hp, Bool.false_or, Bool.eq_iff_iff]
  simp [tenantIsBound, tenantTable, tenantContext, Session.currentTenantId]

theorem mem_visible_tenantTable {α : Type} [TenantOwned α] {t : Relation}
    {policies : List (Policy DbRole Scope (TenantDraft α))}
    (hp : ∀ sc d, (tenantTable t policies).passes .select (·.using_) .appApi sc d =
      decide (tenantIsBound sc d = some true)) {rows : List α} {r : α} :
    r ∈ (tenantTable t policies).visible .appApi ⟨tenantContext ctx now, db⟩ rows ↔
      r ∈ rows ∧ TenantOwned.tenantId r = ctx.tenantId := by
  rw [visible_tenantTable hp, List.mem_filter, beq_iff_eq]

theorem mem_memberships {m : Membership} :
    m ∈ Scope.memberships ⟨tenantContext ctx now, db⟩ ↔
      m ∈ db.membership ∧ m.tenantId = ctx.tenantId :=
  mem_visible_tenantTable fun sc d => by
    simp [Table.passes, tenantTable, selectTenant, insertTenant, updateTenant, deleteTenant]

theorem mem_membershipLocations {ml : MembershipLocation} :
    ml ∈ Scope.membershipLocations ⟨tenantContext ctx now, db⟩ ↔ ml ∈ db.membershipLocation ∧
      ∃ m ∈ db.membership, m.tenantId = ctx.tenantId ∧ m.id = ml.membershipId := by
  have hb : membershipIsBound ⟨tenantContext ctx now, db⟩ ml = some true ↔
      ∃ m ∈ db.membership, m.tenantId = ctx.tenantId ∧ m.id = ml.membershipId := by
    simp only [membershipIsBound, Option.some.injEq, List.any_eq_true, mem_memberships, Bool.and_eq_true,
      beq_iff_eq, sqlEq_true]
    constructor
    · rintro ⟨m, ⟨hm, ht⟩, hid, -⟩
      exact ⟨m, hm, ht, hid⟩
    · rintro ⟨m, hm, ht, hid⟩
      exact ⟨m, ⟨hm, ht⟩, hid, by simp, by rw [ht]; rfl⟩
  have hp : Tables.membershipLocation.passes .select (·.using_) .appApi ⟨tenantContext ctx now, db⟩ ml = true ↔
      membershipIsBound ⟨tenantContext ctx now, db⟩ ml = some true := by
    simp [Table.passes, Tables.membershipLocation, plainTable]
  rw [Scope.membershipLocations, Table.mem_visible, Table.readable, Bool.or_eq_true, ← hb, ← hp]
  simp [Tables.membershipLocation, plainTable, grants, bypasses, tenantContext]

theorem mem_assignments {ml : MembershipLocation} :
    ml ∈ assignments ⟨tenantContext ctx now, db⟩ ↔ ml ∈ db.membershipLocation ∧
      ∃ m ∈ db.membership, m.tenantId = ctx.tenantId ∧ m.userId = ctx.actorId ∧
        m.status = .active ∧ m.id = ml.membershipId := by
  simp only [assignments, List.mem_flatMap, List.mem_filter, mem_memberships, mem_membershipLocations,
    Bool.and_eq_true, beq_iff_eq, sqlEq_true]
  constructor
  · rintro ⟨m, ⟨⟨hm, ht⟩, ⟨-, -, hu⟩, hs⟩, ⟨hml, -⟩, hid⟩
    exact ⟨hml, m, hm, ht, Option.some.inj hu, hs, hid.symm⟩
  · rintro ⟨hml, m, hm, ht, hu, hs, hid⟩
    refine ⟨m, ⟨⟨hm, ht⟩, ⟨⟨by simp, ?_⟩, by simp, ?_⟩, hs⟩, ⟨hml, m, hm, ht, hid⟩, hid.symm⟩
    · rw [ht]; rfl
    · rw [hu]; rfl

theorem canReadLocation_iff {loc : Uuid} (hrole : (tenantContext ctx now).isOperator = false) :
    canReadLocation ⟨tenantContext ctx now, db⟩ loc = true ↔
      (∀ ml, ml ∉ assignments ⟨tenantContext ctx now, db⟩) ∨
        ∃ ml ∈ assignments ⟨tenantContext ctx now, db⟩, ml.locationId = loc := by
  unfold canReadLocation
  rw [if_neg (by simp [hrole])]
  split
  · rename_i h
    rw [List.isEmpty_iff] at h
    simp [h]
  · rename_i h
    rw [List.isEmpty_iff] at h
    have hne : ¬ ∀ ml, ml ∉ assignments ⟨tenantContext ctx now, db⟩ :=
      fun hall => h (List.eq_nil_iff_forall_not_mem.mpr hall)
    simp [hne, List.any_eq_true]

/-! ### The trigger in the API's session -/

theorem beforeInsert_tenantTable {α : Type} [TenantOwned α] {t : Relation}
    {policies : List (Policy DbRole Scope (TenantDraft α))} {d d' : TenantDraft α} :
    (tenantTable t policies).beforeInsert ⟨tenantContext ctx now, db⟩ d = .ok d' ↔
      (d.tenantId = none ∨ d.tenantId = some ctx.tenantId) ∧
        d' = { tenantId := some ctx.tenantId, row := d.row } := by
  obtain ⟨tenantId, row⟩ := d
  simp only [tenantTable, tgEnforceTenant, tenantContext, Session.currentTenantId]
  rcases tenantId with _ | u
  · simp [eq_comm]
  · by_cases hu : u = ctx.tenantId
    · simp [hu, eq_comm]
    · simp [hu]

theorem beforeUpdate_tenantTable {α : Type} [TenantOwned α] {t : Relation}
    {policies : List (Policy DbRole Scope (TenantDraft α))} {old : α} {d : TenantDraft α}
    (hd : d.tenantId = some (TenantOwned.tenantId old)) :
    (tenantTable t policies).beforeUpdate ⟨tenantContext ctx now, db⟩ old d = .ok d := by
  simp [tenantTable, tgEnforceTenant, tenantContext, Session.currentTenantId, hd]

end ApiReads

/-! ## All tables -/

abbrev Draft : Relation → Type
  | .tenant => Tenant
  | .userProfile => UserProfile
  | .membership => TenantDraft Membership
  | .membershipLocation => MembershipLocation
  | .tenantCredential => TenantDraft TenantCredential
  | .location => TenantDraft Location
  | .locationAlias => TenantDraft LocationAlias
  | .auditCard => TenantDraft AuditCard
  | .costLedger => TenantDraft CostLedger
  | .costBudget => TenantDraft CostBudget
  | .costPreview => TenantDraft CostPreview
  | .approval => TenantDraft Approval

def table : (t : Relation) → Table DbRole Scope (Draft t) (Row t) SqlError
  | .tenant => Tables.tenant
  | .userProfile => Tables.userProfile
  | .membership => Tables.membership
  | .membershipLocation => Tables.membershipLocation
  | .tenantCredential => Tables.tenantCredential
  | .location => Tables.location
  | .locationAlias => Tables.locationAlias
  | .auditCard => Tables.auditCard
  | .costLedger => Tables.costLedger
  | .costBudget => Tables.costBudget
  | .costPreview => Tables.costPreview
  | .approval => Tables.approval

/-! ## Queries -/

def Scope.tenants (sc : Scope) : List Tenant :=
  Tables.tenant.visible sc.session.currentUser sc sc.db.tenant

def Scope.userProfiles (sc : Scope) : List UserProfile :=
  Tables.userProfile.visible sc.session.currentUser sc sc.db.userProfile

def Scope.locations (sc : Scope) : List Location :=
  Tables.location.visible sc.session.currentUser sc sc.db.location

def Scope.costLedgers (sc : Scope) : List CostLedger :=
  Tables.costLedger.visible sc.session.currentUser sc sc.db.costLedger

def Scope.costBudgets (sc : Scope) : List CostBudget :=
  Tables.costBudget.visible sc.session.currentUser sc sc.db.costBudget

def Scope.costPreviews (sc : Scope) : List CostPreview :=
  Tables.costPreview.visible sc.session.currentUser sc sc.db.costPreview

def Scope.approvals (sc : Scope) : List Approval :=
  Tables.approval.visible sc.session.currentUser sc sc.db.approval

section ApiSelects

variable {ctx : RequestContext} {now : Calendar.Timestamp} {db : Db}

theorem mem_locations {l : Location} :
    l ∈ Scope.locations ⟨tenantContext ctx now, db⟩ ↔ l ∈ db.location ∧
      l.tenantId = ctx.tenantId ∧ canReadLocation ⟨tenantContext ctx now, db⟩ l.id = true := by
  have hp : Tables.location.passes .select (·.using_) .appApi ⟨tenantContext ctx now, db⟩
      (Tables.location.embed l) = true ↔
      l.tenantId = ctx.tenantId ∧ canReadLocation ⟨tenantContext ctx now, db⟩ l.id = true := by
    simp [Table.passes, Tables.location, tenantTable, selectTenant, insertTenant, updateTenant,
      deleteTenant, tenantIsBound, TenantOwned.tenantId, tenantContext, Session.currentTenantId]
  change l ∈ Tables.location.visible .appApi _ _ ↔ _
  rw [Table.mem_visible, Table.readable, Bool.or_eq_true, hp]
  simp [Tables.location, tenantTable, grants, bypasses]

theorem approvals_eq :
    Scope.approvals ⟨tenantContext ctx now, db⟩ =
      db.approval.filter fun r => r.tenantId == ctx.tenantId :=
  visible_tenantTable (fun sc d => by
    simp [Table.passes, tenantTable, selectTenant, insertTenant, updateTenant, deleteTenant]) _

theorem mem_approvals {r : Approval} :
    r ∈ Scope.approvals ⟨tenantContext ctx now, db⟩ ↔
      r ∈ db.approval ∧ r.tenantId = ctx.tenantId := by
  rw [approvals_eq, List.mem_filter, beq_iff_eq]

theorem costBudgets_eq :
    Scope.costBudgets ⟨tenantContext ctx now, db⟩ =
      db.costBudget.filter fun r => r.tenantId == ctx.tenantId :=
  visible_tenantTable (fun sc d => by
    simp [Table.passes, tenantTable, selectTenant, insertTenant, updateTenant, deleteTenant]) _

theorem costPreviews_eq :
    Scope.costPreviews ⟨tenantContext ctx now, db⟩ =
      db.costPreview.filter fun r => r.tenantId == ctx.tenantId :=
  visible_tenantTable (fun sc d => by
    simp [Table.passes, tenantTable, selectTenant, insertTenant, updateTenant, deleteTenant]) _

theorem mem_costPreviews {r : CostPreview} :
    r ∈ Scope.costPreviews ⟨tenantContext ctx now, db⟩ ↔
      r ∈ db.costPreview ∧ r.tenantId = ctx.tenantId := by
  rw [costPreviews_eq, List.mem_filter, beq_iff_eq]

end ApiSelects

end BaptistApi
