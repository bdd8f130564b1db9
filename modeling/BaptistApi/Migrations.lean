import BaptistApi.Policies
import BaptistApi.Lib.Catalog

/-!
# The migrations

What 0001 to 0005 and their downgrades say about access, and what Alembic makes of a path of them.
-/

namespace BaptistApi

open BaptistApi.Catalogs BaptistApi.RowSecurity

/-! ## What policies say -/

inductive Condition where
  /-- `tenant_id = app.current_tenant_id()` -/
  | tenantBound
  /-- `id = app.current_tenant_id()` -/
  | idIsTenant
  /-- `id = app.current_actor_id()` -/
  | idIsActor
  /-- `exists (select 1 from membership m where m.id = .. and m.tenant_id = app.current_tenant_id())` -/
  | membershipBound
  /-- `tenant_id = app.current_tenant_id() and app.can_read_location(id)` -/
  | readable
  deriving DecidableEq

/-- A condition on a table without the columns it names is never true. -/
def Condition.holds : (t : Relation) → Condition → Scope → Draft t → Truth
  | .tenant, .idIsTenant => fun sc r => sqlEq (some r.id) sc.session.currentTenantId
  | .userProfile, .idIsActor => fun sc r => sqlEq (some r.id) sc.session.currentActorId
  | .membershipLocation, .membershipBound => membershipIsBound
  | .location, .readable => fun sc d => sqlAnd (tenantIsBound sc d) (some (canReadLocation sc d.row.id))
  | .membership, .tenantBound => tenantIsBound
  | .tenantCredential, .tenantBound => tenantIsBound
  | .location, .tenantBound => tenantIsBound
  | .locationAlias, .tenantBound => tenantIsBound
  | .auditCard, .tenantBound => tenantIsBound
  | .costLedger, .tenantBound => tenantIsBound
  | .costBudget, .tenantBound => tenantIsBound
  | .costPreview, .tenantBound => tenantIsBound
  | .approval, .tenantBound => tenantIsBound
  | _, _ => fun _ _ => none

abbrev Ddl := Catalogs.Ddl DbRole Condition Relation

abbrev Catalog := Catalogs.Catalog DbRole Condition Relation

namespace Migrations

def selectPolicy (name : String) (roles : List DbRole) (using_ : Condition) : PolicyText DbRole Condition :=
  { name, command := .select, roles, using_ := some using_ }

def insertPolicy (name : String) (roles : List DbRole) (check : Condition) : PolicyText DbRole Condition :=
  { name, command := .insert, roles, check := some check }

/-- With one condition for the old row and the new one. -/
def updatePolicy (name : String) (roles : List DbRole) (using_ : Condition) : PolicyText DbRole Condition :=
  { name, command := .update, roles, using_ := some using_, check := some using_ }

def deletePolicy (name : String) (roles : List DbRole) (using_ : Condition) : PolicyText DbRole Condition :=
  { name, command := .delete, roles, using_ := some using_ }

def allCommands : List Command := [.select, .insert, .update, .delete]

/-- `alter table .. enable row level security` and `.. force row level security`, for each table. -/
def protect (ts : List Relation) : List Ddl := ts.flatMap fun t => [.enableRowSecurity t, .forceRowSecurity t]

def unprotect (ts : List Relation) : List Ddl := ts.flatMap fun t => [.noForceRowSecurity t, .disableRowSecurity t]

/-! ## 0001 -/

def upgrade0001 : List Ddl :=
  [.createTable .tenant, .createTable .userProfile, .createTable .membership, .createTable .membershipLocation,
    .createTable .tenantCredential]

def downgrade0001 : List Ddl :=
  [.dropTable .tenantCredential, .dropTable .membershipLocation, .dropTable .membership, .dropTable .userProfile,
    .dropTable .tenant]

/-! ## 0002 -/

def spineTables : List Relation :=
  [.tenant, .userProfile, .membership, .membershipLocation, .tenantCredential]

def grants0002 : List Ddl :=
  [.grant allCommands spineTables [.appApi],
    .grantOnAllTables [.select] [.appWorker, .appReadonly],
    .revoke allCommands [.userProfile, .membership, .membershipLocation, .tenantCredential] [.appWorker],
    .grantOnAllTables [.select] [.appReadonly],
    .alterDefaultPrivileges allCommands [.appApi],
    .alterDefaultPrivileges [.select] [.appWorker, .appReadonly]]

def policies0002 : List Ddl :=
  [.createPolicy .tenant (selectPolicy "tenant_context_select" [.appApi, .appWorker, .appReadonly] .idIsTenant),
    .createPolicy .userProfile (selectPolicy "user_profile_self" [.appApi] .idIsActor),
    .createPolicy .membership
      (selectPolicy "membership_select_tenant" [.appApi, .appWorker, .appReadonly] .tenantBound),
    .createPolicy .membership (insertPolicy "membership_insert_tenant" [.appApi, .appWorker] .tenantBound),
    .createPolicy .membership (updatePolicy "membership_update_tenant" [.appApi, .appWorker] .tenantBound),
    .createPolicy .membership (deletePolicy "membership_delete_tenant" [.appApi] .tenantBound),
    .createPolicy .membershipLocation
      (selectPolicy "membership_location_select" [.appApi, .appWorker, .appReadonly] .membershipBound),
    .createPolicy .membershipLocation
      (insertPolicy "membership_location_insert" [.appApi, .appWorker] .membershipBound),
    .createPolicy .membershipLocation
      (updatePolicy "membership_location_update" [.appApi, .appWorker] .membershipBound),
    .createPolicy .membershipLocation (deletePolicy "membership_location_delete" [.appApi] .membershipBound),
    .createPolicy .tenantCredential (selectPolicy "tenant_credential_select_tenant" [.appApi] .tenantBound),
    .createPolicy .tenantCredential
      (insertPolicy "tenant_credential_insert_tenant" [.appApi, .appWorker] .tenantBound),
    .createPolicy .tenantCredential
      (updatePolicy "tenant_credential_update_tenant" [.appApi, .appWorker] .tenantBound),
    .createPolicy .tenantCredential (deletePolicy "tenant_credential_delete_tenant" [.appApi] .tenantBound)]

def upgrade0002 : List Ddl := grants0002 ++ protect spineTables ++ policies0002

/-- The grants and the default privileges stay. -/
def downgrade0002 : List Ddl :=
  [.dropPolicyIfExists "tenant_context_select" .tenant,
    .dropPolicyIfExists "user_profile_self" .userProfile,
    .dropPolicyIfExists "membership_select_tenant" .membership,
    .dropPolicyIfExists "membership_insert_tenant" .membership,
    .dropPolicyIfExists "membership_update_tenant" .membership,
    .dropPolicyIfExists "membership_delete_tenant" .membership,
    .dropPolicyIfExists "membership_location_select" .membershipLocation,
    .dropPolicyIfExists "membership_location_insert" .membershipLocation,
    .dropPolicyIfExists "membership_location_update" .membershipLocation,
    .dropPolicyIfExists "membership_location_delete" .membershipLocation,
    .dropPolicyIfExists "tenant_credential_select_tenant" .tenantCredential,
    .dropPolicyIfExists "tenant_credential_insert_tenant" .tenantCredential,
    .dropPolicyIfExists "tenant_credential_update_tenant" .tenantCredential,
    .dropPolicyIfExists "tenant_credential_delete_tenant" .tenantCredential] ++
  unprotect spineTables ++ [.dropPolicyFunctions]

/-! ## 0003 -/

def upgrade0003 : List Ddl :=
  [.createTable .location, .createTable .locationAlias] ++ protect [.location, .locationAlias] ++
  [.createPolicy .location (selectPolicy "location_select_scoped" [.appApi] .readable),
    .createPolicy .location (selectPolicy "location_select_tenant" [.appWorker, .appReadonly] .tenantBound),
    .createPolicy .location (insertPolicy "location_insert_tenant" [.appApi] .tenantBound),
    .createPolicy .location (updatePolicy "location_update_tenant" [.appApi] .tenantBound),
    .createPolicy .location (deletePolicy "location_delete_tenant" [.appApi] .tenantBound),
    .createPolicy .locationAlias
      (selectPolicy "location_alias_select_tenant" [.appApi, .appWorker, .appReadonly] .tenantBound),
    .createPolicy .locationAlias (insertPolicy "location_alias_insert_tenant" [.appApi, .appWorker] .tenantBound),
    .createPolicy .locationAlias (updatePolicy "location_alias_update_tenant" [.appApi, .appWorker] .tenantBound),
    .createPolicy .locationAlias (deletePolicy "location_alias_delete_tenant" [.appApi] .tenantBound)]

def downgrade0003 : List Ddl :=
  [.dropPolicyIfExists "location_select_scoped" .location,
    .dropPolicyIfExists "location_select_tenant" .location,
    .dropPolicyIfExists "location_insert_tenant" .location,
    .dropPolicyIfExists "location_update_tenant" .location,
    .dropPolicyIfExists "location_delete_tenant" .location,
    .dropPolicyIfExists "location_alias_select_tenant" .locationAlias,
    .dropPolicyIfExists "location_alias_insert_tenant" .locationAlias,
    .dropPolicyIfExists "location_alias_update_tenant" .locationAlias,
    .dropPolicyIfExists "location_alias_delete_tenant" .locationAlias,
    .dropTable .locationAlias, .dropTable .location]

/-! ## 0004 -/

def upgrade0004 : List Ddl :=
  [.createTable .auditCard, .createTable .costLedger, .createTable .costBudget] ++
  protect [.auditCard, .costLedger, .costBudget] ++
  [.createPolicy .auditCard
      (selectPolicy "audit_card_select_tenant" [.appApi, .appWorker, .appReadonly] .tenantBound),
    .createPolicy .auditCard (insertPolicy "audit_card_insert_worker" [.appWorker] .tenantBound),
    .createPolicy .costLedger
      (selectPolicy "cost_ledger_select_tenant" [.appApi, .appWorker, .appReadonly] .tenantBound),
    .createPolicy .costLedger (insertPolicy "cost_ledger_insert_tenant" [.appApi, .appWorker] .tenantBound),
    .createPolicy .costLedger (updatePolicy "cost_ledger_update_tenant" [.appApi] .tenantBound),
    .createPolicy .costLedger (deletePolicy "cost_ledger_delete_tenant" [.appApi] .tenantBound),
    .createPolicy .costBudget (selectPolicy "cost_budget_select_tenant" [.appApi, .appReadonly] .tenantBound),
    .createPolicy .costBudget (insertPolicy "cost_budget_insert_tenant" [.appApi] .tenantBound),
    .createPolicy .costBudget (updatePolicy "cost_budget_update_tenant" [.appApi] .tenantBound),
    .createPolicy .costBudget (deletePolicy "cost_budget_delete_tenant" [.appApi] .tenantBound),
    .revoke [.insert, .update, .delete] [.auditCard] [.appApi],
    .grant [.insert] [.auditCard] [.appWorker],
    .grant [.insert] [.costLedger] [.appWorker],
    .revoke allCommands [.costBudget] [.appWorker]]

def downgrade0004 : List Ddl :=
  [.dropPolicyIfExists "audit_card_select_tenant" .auditCard,
    .dropPolicyIfExists "audit_card_insert_worker" .auditCard,
    .dropPolicyIfExists "cost_ledger_select_tenant" .costLedger,
    .dropPolicyIfExists "cost_ledger_insert_tenant" .costLedger,
    .dropPolicyIfExists "cost_ledger_update_tenant" .costLedger,
    .dropPolicyIfExists "cost_ledger_delete_tenant" .costLedger,
    .dropPolicyIfExists "cost_budget_select_tenant" .costBudget,
    .dropPolicyIfExists "cost_budget_insert_tenant" .costBudget,
    .dropPolicyIfExists "cost_budget_update_tenant" .costBudget,
    .dropPolicyIfExists "cost_budget_delete_tenant" .costBudget,
    .dropTable .costBudget, .dropTable .costLedger, .dropTable .auditCard]

/-! ## 0005 -/

def upgrade0005 : List Ddl :=
  [.createTable .costPreview, .createTable .approval] ++ protect [.costPreview, .approval] ++
  [.createPolicy .costPreview
      (selectPolicy "cost_preview_select_tenant" [.appApi, .appWorker, .appReadonly] .tenantBound),
    .createPolicy .costPreview (insertPolicy "cost_preview_insert_tenant" [.appApi] .tenantBound),
    .createPolicy .costPreview (updatePolicy "cost_preview_update_tenant" [.appApi] .tenantBound),
    .createPolicy .costPreview (deletePolicy "cost_preview_delete_tenant" [.appApi] .tenantBound),
    .createPolicy .approval (selectPolicy "approval_select_tenant" [.appApi] .tenantBound),
    .createPolicy .approval (insertPolicy "approval_insert_tenant" [.appApi] .tenantBound),
    .createPolicy .approval (updatePolicy "approval_update_tenant" [.appApi] .tenantBound),
    .createPolicy .approval (deletePolicy "approval_delete_tenant" [.appApi] .tenantBound),
    .revoke allCommands [.approval] [.appWorker]]

def downgrade0005 : List Ddl :=
  [.dropPolicyIfExists "cost_preview_select_tenant" .costPreview,
    .dropPolicyIfExists "cost_preview_insert_tenant" .costPreview,
    .dropPolicyIfExists "cost_preview_update_tenant" .costPreview,
    .dropPolicyIfExists "cost_preview_delete_tenant" .costPreview,
    .dropPolicyIfExists "approval_select_tenant" .approval,
    .dropPolicyIfExists "approval_insert_tenant" .approval,
    .dropPolicyIfExists "approval_update_tenant" .approval,
    .dropPolicyIfExists "approval_delete_tenant" .approval,
    .dropTable .approval, .dropTable .costPreview]

end Migrations

/-! ## Paths -/

inductive Revision where
  | base | r0001 | r0002 | r0003 | r0004 | r0005
  deriving DecidableEq

inductive Direction where
  | upgrade | downgrade
  deriving DecidableEq

open Migrations in
def Revision.migration : Revision → Direction → Option (Revision × List Ddl)
  | .base, .upgrade => some (.r0001, upgrade0001)
  | .r0001, .upgrade => some (.r0002, upgrade0002)
  | .r0002, .upgrade => some (.r0003, upgrade0003)
  | .r0003, .upgrade => some (.r0004, upgrade0004)
  | .r0004, .upgrade => some (.r0005, upgrade0005)
  | .r0005, .upgrade => none
  | .base, .downgrade => none
  | .r0001, .downgrade => some (.base, downgrade0001)
  | .r0002, .downgrade => some (.r0001, downgrade0002)
  | .r0003, .downgrade => some (.r0002, downgrade0003)
  | .r0004, .downgrade => some (.r0003, downgrade0004)
  | .r0005, .downgrade => some (.r0004, downgrade0005)

structure Migrated where
  revision : Revision
  catalog : Catalog

/-- An empty database. The migrator owns what it creates. -/
def Migrated.initial : Migrated :=
  { revision := .base, catalog := { defaults := fun _ _ => false, tables := fun _ => none } }

/-- A migration that fails leaves everything as it was. -/
def Migrated.step (m : Migrated) (d : Direction) : Migrated :=
  match m.revision.migration d with
  | none => m
  | some (revision, statements) =>
    match m.catalog.execAll .appMigrator statements with
    | some catalog => { revision, catalog }
    | none => m

def Migrated.run (m : Migrated) (path : List Direction) : Migrated := path.foldl Migrated.step m

def Revision.next (r : Revision) (d : Direction) : Revision := (r.migration d).elim r Prod.fst

def Revision.run (r : Revision) (path : List Direction) : Revision := path.foldl Revision.next r

theorem Migrated.run_snoc (m : Migrated) (path : List Direction) (d : Direction) :
    m.run (path ++ [d]) = (m.run path).step d := List.foldl_append

theorem Revision.run_snoc (r : Revision) (path : List Direction) (d : Direction) :
    r.run (path ++ [d]) = (r.run path).next d := List.foldl_append

/-- The table as the policies, privileges and flags of the catalog make it. -/
def Migrated.table (m : Migrated) (t : Relation) : Option (Table DbRole Scope (Draft t) (Row t) SqlError) :=
  (m.catalog.tables t).map fun st => st.rule .appMigrator (Condition.holds t) (BaptistApi.table t)

end BaptistApi
