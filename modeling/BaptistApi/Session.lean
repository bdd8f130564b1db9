import BaptistApi.Schema

/-!
# Sessions

Who runs a statement and for which tenant: the database role, and the settings that
`tenant_context` binds for one transaction.
-/

namespace BaptistApi

open BaptistApi.Calendar

inductive DbRole where
  | appMigrator | appApi | appWorker | appReadonly
  deriving DecidableEq

/-- Why `cost.assert_budget` raised. -/
inductive BudgetRefusal where
  | noBudget | perRunCap | monthlyCap | balanceFloor
  deriving DecidableEq

/-- A failed statement, by the class of error that the driver raises. -/
inductive SqlError where
  /-- 42501: no privilege, a row-level security check, or a tenant trigger. -/
  | insufficientPrivilege (message : String)
  /-- A violated NOT NULL, CHECK, UNIQUE or FOREIGN KEY. -/
  | integrity
  /-- A value its type has no place for. -/
  | data
  /-- P0001. -/
  | raised (reason : BudgetRefusal)
  | inFailedTransaction
  | connectionLost
  deriving DecidableEq

/-- The settings are null when unset or empty. `now` is `now()`: the start of the transaction. -/
structure Session where
  currentUser : DbRole
  tenantId : Option Uuid
  actorId : Option Uuid
  role : String
  requestId : Option String := none
  now : Timestamp

namespace Session

variable (s : Session)

def currentTenantId : Option Uuid := s.tenantId
def currentActorId : Option Uuid := s.actorId
def currentRole : String := if s.role = "" then "none" else s.role

def isOperator : Bool := s.currentRole ∈ ["as_admin", "as_staff", "system"]

/-- `current_date`. The server's time zone is UTC. -/
def currentDate : Date := s.now.date

/-- `date_trunc('month', current_date)::date`. -/
def currentMonth : Date := s.currentDate.truncMonth

end Session

/-- Identity values bound to one database transaction. -/
structure RequestContext where
  tenantId : Uuid
  actorId : Uuid
  role : String
  deriving DecidableEq

/-- Inside `tenant_context(ctx)`, in a transaction that started at `now`. -/
def tenantContext (ctx : RequestContext) (now : Timestamp) : Session :=
  { currentUser := .appApi, tenantId := some ctx.tenantId, actorId := some ctx.actorId
    role := ctx.role, now := now }

/-- What a policy or a trigger may look at. -/
structure Scope where
  session : Session
  db : Db

/-! ## A small clinic

It has two locations, and its user is assigned one of them.
-/

def noon : Timestamp := ⟨⟨2026, 9, 3, by decide, by decide⟩, 43200000000, by decide⟩

def clinicLocation (id : Uuid) (slug : String) : Location :=
  { id, tenantId := 1, slug, name := slug, displayName := none, fleet := none, listingType := .facility
    address := "", city := "", state := "FL", zip := "", lat := none, lng := none, cid := none
    domain := none, isClaimed := none, isVerified := none, ratingValue := none, ratingVotes := none
    status := .active, source := .synthetic, createdAt := noon, updatedAt := noon }

def clinic (status : MembershipStatus) : Db :=
  { tenant := [{ id := 1, slug := "clinic", name := "Clinic", tier := "agency_client" }]
    userProfile := [{ id := 2, email := "user@example.test", fullName := none }]
    membership := [{ id := 3, tenantId := 1, userId := 2, status }]
    location := [clinicLocation 10 "north", clinicLocation 11 "south"]
    membershipLocation := [{ membershipId := 3, locationId := 10 }] }

def clinicUser : RequestContext := { tenantId := 1, actorId := 2, role := "client_user" }

end BaptistApi
