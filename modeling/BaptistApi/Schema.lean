import BaptistApi.Json
import BaptistApi.Lib.Calendar
import BaptistApi.Lib.FixedPoint
import Mathlib.Logic.Function.Basic

/-!
# The tables

The rows of migrations 0001 to 0005, less the columns that nothing here reads, and the database
as one list of rows for each table.
-/

namespace BaptistApi

open BaptistApi.Calendar BaptistApi.FixedPoint

abbrev Uuid := BitVec 128

instance : LawfulBEq Uuid := inferInstance

def hexDigits (u : Uuid) (start count : ℕ) : List Char :=
  (List.range count).map fun i => Nat.digitChar ((u >>> (4 * (31 - start - i))).toNat % 16)

/-- `str(uuid)`. -/
def Uuid.str (u : Uuid) : String :=
  String.ofList (hexDigits u 0 8 ++ '-' :: hexDigits u 8 4 ++ '-' :: hexDigits u 12 4 ++
    '-' :: hexDigits u 16 4 ++ '-' :: hexDigits u 20 12)

example : Uuid.str 13 = "00000000-0000-0000-0000-00000000000d" := by decide +kernel

/-! ## Enumerations -/

inductive MembershipStatus where
  | active | pending | revoked
  deriving DecidableEq

inductive FleetKind where
  | hospital | clinic
  deriving DecidableEq

inductive ListingType where
  | facility | department | practitioner
  deriving DecidableEq

inductive LocationStatus where
  | active | onboarding | paused | archived
  deriving DecidableEq

inductive DataSource where
  | searchatlas | dataforseo | serper | brightlocal | synthetic | computed | clientVerified
  deriving DecidableEq

inductive AliasKind where
  | name | domain
  deriving DecidableEq

inductive ActorRole where
  | asAdmin | asStaff | clientAdmin | clientUser | system
  deriving DecidableEq

/-- `text::actor_role`. -/
def ActorRole.ofText? : String → Option ActorRole
  | "as_admin" => some .asAdmin
  | "as_staff" => some .asStaff
  | "client_admin" => some .clientAdmin
  | "client_user" => some .clientUser
  | "system" => some .system
  | _ => none

inductive Verb where
  | create | update | delete | approve | reject | read | execute
  deriving DecidableEq

/-- The verbs that `audit_card_verb_check` accepts. -/
def Verb.ofText? : String → Option Verb
  | "create" => some .create
  | "update" => some .update
  | "delete" => some .delete
  | "approve" => some .approve
  | "reject" => some .reject
  | "read" => some .read
  | "execute" => some .execute
  | _ => none

inductive Billing where
  | billed | planCredits | projected
  deriving DecidableEq

inductive ApprovalStatus where
  | approved | executing | executed | failed | expired
  deriving DecidableEq

/-! ## Rows -/

structure Tenant where
  id : Uuid
  slug : String
  name : String
  tier : String
  deriving DecidableEq

structure UserProfile where
  id : Uuid
  email : String
  fullName : Option String
  deriving DecidableEq

structure Membership where
  id : Uuid
  tenantId : Uuid
  userId : Uuid
  status : MembershipStatus
  deriving DecidableEq

structure MembershipLocation where
  membershipId : Uuid
  locationId : Uuid
  deriving DecidableEq

structure TenantCredential where
  id : Uuid
  tenantId : Uuid
  provider : String
  deriving DecidableEq

structure Location where
  id : Uuid
  tenantId : Uuid
  slug : String
  name : String
  displayName : Option String
  fleet : Option FleetKind
  listingType : ListingType
  address : String
  city : String
  state : String
  zip : String
  lat : Option (Numeric 10 7)
  lng : Option (Numeric 10 7)
  cid : Option String
  domain : Option String
  isClaimed : Option Bool
  isVerified : Option Bool
  ratingValue : Option (Numeric 2 1)
  ratingVotes : Option ℤ
  status : LocationStatus
  source : DataSource
  createdAt : Timestamp
  updatedAt : Timestamp
  deriving DecidableEq

structure LocationAlias where
  id : Uuid
  tenantId : Uuid
  locationId : Uuid
  kind : AliasKind
  value : String
  createdBy : Option Uuid
  deriving DecidableEq

structure AuditCard where
  id : ℤ
  tenantId : Uuid
  locationId : Option Uuid
  actorId : Option Uuid
  actorLabel : String
  actorRole : ActorRole
  verb : Verb
  action : String
  resourceType : String
  resourceId : Option String
  approvalId : Option Uuid
  requestId : Option String
  detail : Option Json
  simulated : Bool

structure CostLedger where
  id : ℤ
  tenantId : Uuid
  locationId : Option Uuid
  billingDate : Date
  units : ℤ
  unitCostUsd : Numeric 12 6
  costUsd : Numeric 12 4
  billing : Billing
  approvalId : Option Uuid
  deriving DecidableEq

structure CostBudget where
  id : Uuid
  tenantId : Uuid
  periodMonth : Date
  monthlyCapUsd : Numeric 12 2
  perRunCapUsd : Numeric 12 2
  balanceFloorUsd : Numeric 12 2
  hardStop : Bool
  deriving DecidableEq

structure CostPreview where
  id : Uuid
  tenantId : Uuid
  locationId : Option Uuid
  operation : String
  requestedBy : Uuid
  params : Json
  units : Json
  estimatedCostUsd : Numeric 12 4
  gates : Json
  passes : Bool
  expiresAt : Timestamp

structure Approval where
  id : Uuid
  tenantId : Uuid
  locationId : Option Uuid
  costPreviewId : Option Uuid
  operation : String
  approvedBy : Uuid
  idempotencyKey : String
  status : ApprovalStatus
  executedAt : Option Timestamp
  actualCostUsd : Option (Numeric 12 4)
  result : Option Json

/-! ## The database -/

inductive Relation where
  | tenant | userProfile | membership | membershipLocation | tenantCredential | location
  | locationAlias | auditCard | costLedger | costBudget | costPreview | approval
  deriving DecidableEq

def Relation.all : List Relation :=
  [.tenant, .userProfile, .membership, .membershipLocation, .tenantCredential, .location,
    .locationAlias, .auditCard, .costLedger, .costBudget, .costPreview, .approval]

theorem Relation.mem_all (t : Relation) : t ∈ Relation.all := by cases t <;> decide

abbrev Row : Relation → Type
  | .tenant => Tenant
  | .userProfile => UserProfile
  | .membership => Membership
  | .membershipLocation => MembershipLocation
  | .tenantCredential => TenantCredential
  | .location => Location
  | .locationAlias => LocationAlias
  | .auditCard => AuditCard
  | .costLedger => CostLedger
  | .costBudget => CostBudget
  | .costPreview => CostPreview
  | .approval => Approval

structure Db where
  tenant : List Tenant := []
  userProfile : List UserProfile := []
  membership : List Membership := []
  membershipLocation : List MembershipLocation := []
  tenantCredential : List TenantCredential := []
  location : List Location := []
  locationAlias : List LocationAlias := []
  auditCard : List AuditCard := []
  costLedger : List CostLedger := []
  costBudget : List CostBudget := []
  costPreview : List CostPreview := []
  approval : List Approval := []

namespace Db

def rows (db : Db) : (t : Relation) → List (Row t)
  | .tenant => db.tenant
  | .userProfile => db.userProfile
  | .membership => db.membership
  | .membershipLocation => db.membershipLocation
  | .tenantCredential => db.tenantCredential
  | .location => db.location
  | .locationAlias => db.locationAlias
  | .auditCard => db.auditCard
  | .costLedger => db.costLedger
  | .costBudget => db.costBudget
  | .costPreview => db.costPreview
  | .approval => db.approval

def set (db : Db) : (t : Relation) → List (Row t) → Db
  | .tenant, rows => { db with tenant := rows }
  | .userProfile, rows => { db with userProfile := rows }
  | .membership, rows => { db with membership := rows }
  | .membershipLocation, rows => { db with membershipLocation := rows }
  | .tenantCredential, rows => { db with tenantCredential := rows }
  | .location, rows => { db with location := rows }
  | .locationAlias, rows => { db with locationAlias := rows }
  | .auditCard, rows => { db with auditCard := rows }
  | .costLedger, rows => { db with costLedger := rows }
  | .costBudget, rows => { db with costBudget := rows }
  | .costPreview, rows => { db with costPreview := rows }
  | .approval, rows => { db with approval := rows }

def add (db : Db) (t : Relation) (row : Row t) : Db := db.set t (db.rows t ++ [row])

@[simp] theorem rows_set_self (db : Db) (t : Relation) (rows : List (Row t)) :
    (db.set t rows).rows t = rows := by
  cases t <;> rfl

@[simp] theorem rows_set_ne (db : Db) {t u : Relation} (h : u ≠ t) (rows : List (Row t)) :
    (db.set t rows).rows u = db.rows u := by
  cases t <;> cases u <;> first | rfl | exact absurd rfl h

@[simp] theorem rows_add_self (db : Db) (t : Relation) (row : Row t) :
    (db.add t row).rows t = db.rows t ++ [row] :=
  rows_set_self _ _ _

@[simp] theorem rows_add_ne (db : Db) {t u : Relation} (h : u ≠ t) (row : Row t) :
    (db.add t row).rows u = db.rows u :=
  rows_set_ne _ h _

/-- Every row of the first is a row of the second. -/
def Sub (db db' : Db) : Prop := ∀ t, ∀ r ∈ db.rows t, r ∈ db'.rows t

theorem Sub.refl (db : Db) : db.Sub db := fun _ _ h => h

theorem Sub.trans {db db' db'' : Db} (h : db.Sub db') (h' : db'.Sub db'') : db.Sub db'' :=
  fun t r hr => h' t r (h t r hr)

theorem sub_of_append {db db' : Db} (h : ∀ t, ∃ new, db'.rows t = db.rows t ++ new) : db.Sub db' := by
  intro t r hr
  obtain ⟨new, hnew⟩ := h t
  rw [hnew]
  exact List.mem_append_left _ hr

theorem sub_add (db : Db) (t : Relation) (row : Row t) : db.Sub (db.add t row) := by
  intro u r hr
  by_cases h : u = t
  · subst h
    rw [rows_add_self]
    exact List.mem_append_left _ hr
  · rw [rows_add_ne _ h]
    exact hr

end Db

end BaptistApi
