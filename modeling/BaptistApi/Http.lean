import BaptistApi.Policies
import BaptistApi.Problem

/-!
# The reading routes

`GET /v1/me`, `GET /v1/locations` and `GET /v1/locations/{slug}`, each as a function of what its
session sees. `meta` is left out: it carries the time and the request id.
-/

namespace BaptistApi

open BaptistApi.Calendar BaptistApi.FixedPoint

/-! ## Payloads -/

structure MeUser where
  id : Uuid
  email : String
  fullName : Option String

structure MeTenant where
  id : Uuid
  slug : String
  name : String
  tier : String

structure MeResponse where
  user : MeUser
  tenant : MeTenant
  role : String
  locationScope : Option (List String) := none
  mustAcceptInvite : Bool := false

structure LocationSummary where
  slug : String
  name : String
  displayName : Option String
  fleet : Option FleetKind
  listingType : ListingType
  status : LocationStatus
  city : String
  state : String

def LocationSummary.fromModel (l : Location) : LocationSummary :=
  { slug := l.slug, name := l.name, displayName := l.displayName, fleet := l.fleet
    listingType := l.listingType, status := l.status, city := l.city, state := l.state }

structure LocationRating where
  value : Option (Numeric 2 1)
  votes : Option ℤ

structure LocationDetail where
  slug : String
  name : String
  displayName : Option String
  listingType : ListingType
  fleet : Option FleetKind
  address : String
  city : String
  state : String
  zip : String
  lat : Option ℚ
  lng : Option ℚ
  cid : Option String
  domain : Option String
  isClaimed : Option Bool
  isVerified : Option Bool
  rating : LocationRating
  status : LocationStatus
  source : DataSource
  createdAt : Timestamp
  updatedAt : Timestamp

def LocationDetail.fromModel (l : Location) : LocationDetail :=
  { slug := l.slug, name := l.name, displayName := l.displayName, listingType := l.listingType
    fleet := l.fleet, address := l.address, city := l.city, state := l.state, zip := l.zip
    lat := l.lat.map Numeric.value, lng := l.lng.map Numeric.value, cid := l.cid, domain := l.domain
    isClaimed := l.isClaimed, isVerified := l.isVerified
    rating := { value := l.ratingValue, votes := l.ratingVotes }
    status := l.status, source := l.source, createdAt := l.createdAt, updatedAt := l.updatedAt }

structure PageInfo where
  limit : ℤ
  offset : ℤ
  total : ℤ
  hasMore : Bool

def buildPage (limit offset total : ℤ) : PageInfo :=
  { limit, offset, total, hasMore := offset + limit < total }

/-! ## What the routes are given

The collation of the database, the serializer of the response models and SHA-256 are not in this
repository.
-/

/-- `ORDER BY name`. Rows with equal names come in an order of the database's choice. -/
structure OrderByName where
  le : String → String → Bool
  sort : List Location → List Location
  perm : ∀ rows, (sort rows).Perm rows
  sorted : ∀ rows, (sort rows).Pairwise fun l l' => le l.name l'.name = true

/-- Ties are broken by a rule on the returned rows alone. -/
def OrderByName.Fixed (o : OrderByName) : Prop :=
  ∀ rows rows', (rows.map (·.id)).Nodup → rows.Perm rows' → o.sort rows = o.sort rows'

structure Serializer where
  sha256 : String → String
  me : MeResponse → String
  page : List LocationSummary → PageInfo → String
  detail : LocationDetail → String

def computeEtag (sha256 : String → String) (ctx : RequestContext) (payload : String) : String :=
  let tenant := Uuid.str ctx.tenantId
  "\"" ++ tenant ++ "." ++ sha256 (tenant ++ ":" ++ payload) ++ "\""

def matchesEtag (ifNoneMatch : Option String) (etag : String) : Bool := ifNoneMatch == some etag

inductive Response (D : Type) where
  | ok (data : D) (page : Option PageInfo) (etag : String)
  | notModified (etag : String)
  | problem (code : ProblemCode)

def Response.status {D : Type} : Response D → ℕ
  | ok .. => 200
  | notModified _ => 304
  | problem code => (problemDefinitions code).status

def respond {D : Type} (ifNoneMatch : Option String) (data : D) (page : Option PageInfo)
    (etag : String) : Response D :=
  if matchesEtag ifNoneMatch etag then .notModified etag else .ok data page etag

/-! ## `GET /v1/me` -/

structure MeRow where
  user : UserProfile
  tenant : Tenant
  membershipStatus : Option MembershipStatus

/-- `ME_QUERY`: `user_profile u join tenant t left join membership m`. -/
def meQuery (sc : Scope) (tenantId actorId : Uuid) : List MeRow :=
  (sc.userProfiles.filter fun u => u.id == actorId).flatMap fun u =>
    (sc.tenants.filter fun t => t.id == tenantId).flatMap fun t =>
      match sc.memberships.filter fun m => m.tenantId == t.id && m.userId == u.id with
      | [] => [{ user := u, tenant := t, membershipStatus := none }]
      | ms => ms.map fun m => { user := u, tenant := t, membershipStatus := some m.status }

def getMe (ser : Serializer) (ctx : RequestContext) (sc : Scope) (ifNoneMatch : Option String) :
    Response MeResponse :=
  match oneOrNone (meQuery sc ctx.tenantId ctx.actorId) with
  | .error _ => .problem .internalError
  | .ok none => .problem .notFound
  | .ok (some row) =>
    let data : MeResponse :=
      { user := { id := row.user.id, email := row.user.email, fullName := row.user.fullName }
        tenant := { id := row.tenant.id, slug := row.tenant.slug, name := row.tenant.name
                    tier := row.tenant.tier }
        role := ctx.role
        mustAcceptInvite := row.membershipStatus == some .pending }
    respond ifNoneMatch data none (computeEtag ser.sha256 ctx (ser.me data))

/-! ## `GET /v1/locations` -/

def FleetKind.ofText? : String → Option FleetKind
  | "hospital" => some .hospital
  | "clinic" => some .clinic
  | _ => none

def LocationStatus.text : LocationStatus → String
  | .active => "active"
  | .onboarding => "onboarding"
  | .paused => "paused"
  | .archived => "archived"

/-- LIKE: `%` is any sequence, `_` any one character, and a backslash takes the next one literally. -/
def like : List Char → List Char → Bool
  | [], s => s.isEmpty
  | '%' :: p, s => s.tails.any (like p)
  | '_' :: p, s => match s with
    | [] => false
    | _ :: s => like p s
  | '\\' :: [], _ => false
  | '\\' :: c :: p, s => match s with
    | [] => false
    | x :: s => c == x && like p s
  | c :: p, s => match s with
    | [] => false
    | x :: s => c == x && like p s

/-- `name ilike pattern`, where capitals are those of ASCII: `String.toLower` leaves all other letters as they are. -/
def ilike (name pattern : String) : Bool := like pattern.toLower.toList name.toLower.toList

structure ListParams where
  fleet : Option String := none
  status : Option String := none
  q : Option String := none
  limit : ℤ := 50
  offset : ℤ := 0

def matchesFilters (fleet : Option FleetKind) (p : ListParams) (l : Location) : Bool :=
  fleet.all (fun f => l.fleet == some f) && p.status.all (fun s => l.status.text == s) &&
    p.q.all fun q => ilike l.name ("%" ++ q ++ "%")

/-- What the driver sends as a text without U+0000 and as an integer of 64 bits. -/
def ListParams.bindable (p : ListParams) : Bool :=
  p.status.all textStorable && p.q.all textStorable && decide (p.offset < 2 ^ 63)

/-- `LocationRepository.list_locations`. A LIMIT below zero is an error of the database. -/
def listRows (byName : OrderByName) (sc : Scope) (fleet : Option FleetKind) (p : ListParams) :
    Option (List Location × ℕ) :=
  let rows := sc.locations.filter (matchesFilters fleet p)
  if p.limit < 0 ∨ p.bindable = false then none
  else some (((byName.sort rows).drop p.offset.toNat).take p.limit.toNat, rows.length)

theorem bindable_iff {p : ListParams} : p.bindable = true ↔
    (∀ s ∈ p.status, textStorable s = true) ∧ (∀ s ∈ p.q, textStorable s = true) ∧ p.offset < 2 ^ 63 := by
  simp [ListParams.bindable, Option.all_eq_true, and_assoc]

theorem isSome_listRows {byName : OrderByName} {sc : Scope} {fleet : Option FleetKind} {p : ListParams} :
    (listRows byName sc fleet p).isSome = true ↔ 0 ≤ p.limit ∧ p.bindable = true := by
  unfold listRows
  split
  · rename_i h
    simp only [Option.isSome_none, Bool.false_eq_true, false_iff, not_and]
    intro hlimit hbind
    exact h.elim (not_lt.mpr hlimit) (by simp [hbind])
  · rename_i h
    simpa using not_or.mp h

def listLocations (ser : Serializer) (byName : OrderByName) (ctx : RequestContext) (sc : Scope)
    (p : ListParams) (ifNoneMatch : Option String) : Response (List LocationSummary) :=
  if 200 < p.limit ∨ p.offset < 0 then .problem .validationError
  else
    match p.fleet.map FleetKind.ofText? with
    -- The column type refuses a value outside the enumeration: `LookupError`.
    | some none => .problem .internalError
    | fleet =>
      match listRows byName sc fleet.join p with
      | none => .problem .internalError
      | some (rows, total) =>
        let data := rows.map LocationSummary.fromModel
        let page := buildPage p.limit p.offset total
        respond ifNoneMatch data (some page) (computeEtag ser.sha256 ctx (ser.page data page))

/-! ## `GET /v1/locations/{slug}` -/

/-- `LocationRepository.get_by_slug`. -/
def getBySlug (sc : Scope) (slug : String) : Except Unit (Option Location) :=
  oneOrNone (sc.locations.filter fun l => l.slug == slug)

def getLocation (ser : Serializer) (ctx : RequestContext) (sc : Scope) (slug : String)
    (ifNoneMatch : Option String) : Response LocationDetail :=
  -- The driver takes no text with U+0000.
  if textStorable slug then
    match getBySlug sc slug with
    | .error _ => .problem .internalError
    | .ok none => .problem .notFound
    | .ok (some location) =>
      let data := LocationDetail.fromModel location
      respond ifNoneMatch data none (computeEtag ser.sha256 ctx (ser.detail data))
  else .problem .internalError

end BaptistApi
