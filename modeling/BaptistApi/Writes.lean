import BaptistApi.Http
import BaptistApi.Statement

/-!
# The writing routes

`POST /v1/locations` and `PATCH /v1/locations/{slug}`: what the columns make of a payload, what the
flush does to the table, and what the route answers.
-/

namespace BaptistApi

open BaptistApi.Calendar BaptistApi.FixedPoint BaptistApi.RowSecurity

/-- `OPERATOR_ROLES`. -/
def operatorRoles : List String := ["as_admin", "as_staff", "system"]

/-- What a route raises besides an `ApiProblem`. -/
inductive Unhandled where
  | sql (e : SqlError)
  /-- A value outside an enumeration. -/
  | lookupError
  /-- An UPDATE of one row that found another number of rows. -/
  | staleDataError

inductive WriteResponse where
  | created (data : LocationDetail)
  | ok (data : LocationDetail)
  | problem (code : ProblemCode)

def WriteResponse.status : WriteResponse → ℕ
  | created _ => 201
  | ok _ => 200
  | problem code => (problemDefinitions code).status

/-! ## Columns -/

def ListingType.ofText? : String → Option ListingType
  | "facility" => some .facility
  | "department" => some .department
  | "practitioner" => some .practitioner
  | _ => none

/-- The values that `location_status_check` accepts. -/
def LocationStatus.ofText? : String → Option LocationStatus
  | "active" => some .active
  | "onboarding" => some .onboarding
  | "paused" => some .paused
  | "archived" => some .archived
  | _ => none

def textColumn (s : String) : Except Unhandled String :=
  if textStorable s then .ok s else .error (.sql .data)

/-- An enumeration with `validate_strings`. -/
def enumColumn {α : Type} : Option α → Except Unhandled α
  | some a => .ok a
  | none => .error .lookupError

def statusColumn : Option String → Except Unhandled LocationStatus
  | none => .error (.sql .integrity)
  | some s => do
    match LocationStatus.ofText? (← textColumn s) with
    | some status => .ok status
    | none => .error (.sql .integrity)

def coordinateColumn (x : ℚ) : Except Unhandled (Numeric 10 7) :=
  match Numeric.store? 10 7 x with
  | some n => .ok n
  | none => .error (.sql .data)

theorem textColumn_ok {s t : String} : textColumn s = .ok t ↔ textStorable s = true ∧ t = s := by
  unfold textColumn
  split
  · rename_i h; simp [h, eq_comm]
  · rename_i h; simp [h]

theorem enumColumn_ok {α : Type} {o : Option α} {a : α} : enumColumn o = .ok a ↔ o = some a := by
  cases o <;> simp [enumColumn]

theorem coordinateColumn_ok {x : ℚ} {n : Numeric 10 7} :
    coordinateColumn x = .ok n ↔ Numeric.store? 10 7 x = some n := by
  unfold coordinateColumn
  split
  · rename_i h; simp [h]
  · rename_i h; simp [h]

theorem statusColumn_ok {v : Option String} {status : LocationStatus} :
    statusColumn v = .ok status ↔ ∃ s, v = some s ∧ textStorable s = true ∧ LocationStatus.ofText? s = some status := by
  cases v with
  | none => simp [statusColumn]
  | some s =>
    simp only [statusColumn, bind_eq_ok, textColumn_ok, Option.some.injEq, exists_eq_left']
    constructor
    · rintro ⟨t, ⟨hs, rfl⟩, h⟩
      split at h
      · rename_i st hst
        cases h
        exact ⟨hs, hst⟩
      · cases h
    · rintro ⟨hs, h⟩
      exact ⟨s, ⟨hs, rfl⟩, by rw [h]⟩

theorem mapM_isOk {α β ε : Type} {f : α → Except ε β} {o : Option α} :
    (∃ o', o.mapM f = .ok o') ↔ ∀ a ∈ o, ∃ b, f a = .ok b := by
  cases o with
  | none => exact ⟨fun _ a ha => by simp at ha, fun _ => ⟨none, rfl⟩⟩
  | some a =>
    cases h : f a with
    | error e => simp [h]
    | ok b => simp [h]

theorem mapM_ok_none {α β ε : Type} {f : α → Except ε β} {o : Option α} {o' : Option β}
    (h : o.mapM f = .ok o') : o' = none ↔ o = none := by
  cases o with
  | none =>
    cases h
    simp
  | some a =>
    cases hf : f a with
    | error e => simp [hf] at h
    | ok b =>
      simp only [Option.mapM_some, hf, Except.map_ok, Except.ok.injEq] at h
      simp [← h]

/-! ## `POST /v1/locations` -/

structure LocationCreate where
  slug : String
  name : String
  listingType : String
  facilityType : String
  address : String
  city : String
  state : String
  zip : String
  fleet : Option String := none
  lat : Option ℚ := none
  lng : Option ℚ := none
  source : DataSource
  stateLength : state.length = 2

/-- The new row. The other columns take their defaults. -/
def LocationCreate.row (p : LocationCreate) (id tenantId : Uuid) (now : Timestamp) :
    Except Unhandled Location := do
  let _ ← textColumn p.facilityType
  .ok
    { id, tenantId, slug := ← textColumn p.slug, name := ← textColumn p.name, displayName := none
      fleet := ← p.fleet.mapM fun f => enumColumn (FleetKind.ofText? f)
      listingType := ← enumColumn (ListingType.ofText? p.listingType)
      address := ← textColumn p.address, city := ← textColumn p.city, state := ← textColumn p.state
      zip := ← textColumn p.zip, lat := ← p.lat.mapM coordinateColumn
      lng := ← p.lng.mapM coordinateColumn, cid := none, domain := none, isClaimed := none
      isVerified := none, ratingValue := none, ratingVotes := none, status := .active
      source := p.source, createdAt := now, updatedAt := now }

def inRange (x : ℚ) : Prop := |x| < (10 ^ 10 - 1 / 2) / 10 ^ 7

instance (x : ℚ) : Decidable (inRange x) := inferInstanceAs (Decidable (_ < _))

theorem coordinateColumn_isOk {x : ℚ} : (∃ n, coordinateColumn x = .ok n) ↔ inRange x := by
  simp only [coordinateColumn_ok, inRange, ← Numeric.isSome_store?, Option.isSome_iff_exists]

def LocationCreate.texts (p : LocationCreate) : List String :=
  [p.facilityType, p.slug, p.name, p.address, p.city, p.state, p.zip]

structure LocationCreate.Fits (p : LocationCreate) : Prop where
  texts : ∀ s ∈ p.texts, textStorable s = true
  fleet : ∀ f ∈ p.fleet, f ∈ ["hospital", "clinic"]
  listingType : p.listingType ∈ ["facility", "department", "practitioner"]
  lat : ∀ x ∈ p.lat, inRange x
  lng : ∀ x ∈ p.lng, inRange x

theorem isSome_fleetKind {s : String} : (∃ f, FleetKind.ofText? s = some f) ↔ s ∈ ["hospital", "clinic"] := by
  unfold FleetKind.ofText?
  split <;> simp_all

theorem fleetColumn_isOk {s : String} :
    (∃ f, enumColumn (FleetKind.ofText? s) = .ok f) ↔ s ∈ ["hospital", "clinic"] := by
  simp only [enumColumn_ok, isSome_fleetKind]

theorem isSome_listingType {s : String} :
    (∃ t, ListingType.ofText? s = some t) ↔ s ∈ ["facility", "department", "practitioner"] := by
  unfold ListingType.ofText?
  split <;> simp_all

theorem isSome_locationStatus {s : String} :
    (∃ t, LocationStatus.ofText? s = some t) ↔ s ∈ ["active", "onboarding", "paused", "archived"] := by
  unfold LocationStatus.ofText?
  split <;> simp_all

/-- The new row, with the values of the columns that a constraint reads. -/
structure LocationCreate.RowOf (p : LocationCreate) (id tenantId : Uuid) (r : Location) : Prop where
  id : r.id = id
  tenantId : r.tenantId = tenantId
  slug : r.slug = p.slug
  lat : r.lat = none ↔ p.lat = none
  lng : r.lng = none ↔ p.lng = none

theorem LocationCreate.row_cases {p : LocationCreate} {id tenantId : Uuid} {now : Timestamp} {r : Location}
    (h : p.row id tenantId now = .ok r) : p.Fits ∧ p.RowOf id tenantId r := by
  simp only [LocationCreate.row, bind_eq_ok, textColumn_ok, enumColumn_ok] at h
  obtain ⟨_, ⟨hfacility, -⟩, _, ⟨hslug, rfl⟩, _, ⟨hname, rfl⟩, fleet, hfleet, _, hlisting, _, ⟨haddress, rfl⟩,
    _, ⟨hcity, rfl⟩, _, ⟨hstate, rfl⟩, _, ⟨hzip, rfl⟩, lat, hlat, lng, hlng, h⟩ := h
  cases h
  refine ⟨⟨?_, ?_, isSome_listingType.mp ⟨_, hlisting⟩, ?_, ?_⟩, ⟨rfl, rfl, rfl, mapM_ok_none hlat, mapM_ok_none hlng⟩⟩
  · simp [LocationCreate.texts, *]
  · exact fun f hf => fleetColumn_isOk.mp (mapM_isOk.mp ⟨fleet, hfleet⟩ f hf)
  · exact fun x hx => coordinateColumn_isOk.mp (mapM_isOk.mp ⟨lat, hlat⟩ x hx)
  · exact fun x hx => coordinateColumn_isOk.mp (mapM_isOk.mp ⟨lng, hlng⟩ x hx)

theorem LocationCreate.row_of_fits {p : LocationCreate} (h : p.Fits) (id tenantId : Uuid) (now : Timestamp) :
    ∃ r, p.row id tenantId now = .ok r := by
  obtain ⟨texts, fleet, listingType, lat, lng⟩ := h
  simp only [LocationCreate.texts, List.mem_cons, List.not_mem_nil, or_false, forall_eq_or_imp, forall_eq]
    at texts
  obtain ⟨hfacility, hslug, hname, haddress, hcity, hstate, hzip⟩ := texts
  obtain ⟨kind, hkind⟩ := isSome_listingType.mpr listingType
  obtain ⟨fleet', hfleet⟩ := mapM_isOk.mpr fun f hf => fleetColumn_isOk.mpr (fleet f hf)
  obtain ⟨lat', hlat⟩ := mapM_isOk.mpr fun x hx => coordinateColumn_isOk.mpr (lat x hx)
  obtain ⟨lng', hlng⟩ := mapM_isOk.mpr fun x hx => coordinateColumn_isOk.mpr (lng x hx)
  simp only [LocationCreate.row, textColumn, hfacility, hslug, hname, haddress, hcity, hstate, hzip, hkind,
    hfleet, hlat, hlng]
  exact ⟨_, rfl⟩

/-- `BaseRepository.create`, with the `id` that `gen_random_uuid()` gives. -/
def insertLocation (ctx : RequestContext) (now : Timestamp) (db : Db) (id : Uuid) (p : LocationCreate) :
    Except Unhandled Location := do
  let row ← p.row id ctx.tenantId now
  (insertInto (tenantContext ctx now) db .location (Tables.location.embed row) true).mapError .sql

/-- The answer, and the database that the request leaves. The data keep the coordinates as they came. -/
def createLocation (ctx : RequestContext) (now : Timestamp) (db : Db) (id : Uuid) (p : LocationCreate) :
    WriteResponse × Db :=
  if ctx.role ∈ operatorRoles then
    match insertLocation ctx now db id p with
    | .error _ => (.problem .internalError, db)
    | .ok l =>
      (.created { LocationDetail.fromModel l with lat := p.lat, lng := p.lng }, db.add .location l)
  else (.problem .forbiddenRole, db)

/-! ## `PATCH /v1/locations/{slug}` -/

/-- Only the fields of the request are there. A field that is there may be null. -/
structure LocationUpdate where
  displayName : Option (Option String) := none
  status : Option (Option String) := none
  lat : Option (Option ℚ) := none
  lng : Option (Option ℚ) := none
  deriving DecidableEq

/-- What the flush writes: a supplied value that differs from the loaded one. -/
def LocationUpdate.changes (p : LocationUpdate) (l : Location) : LocationUpdate :=
  { displayName := p.displayName.filter (· ≠ l.displayName)
    status := p.status.filter (· ≠ some l.status.text)
    lat := p.lat.filter (· ≠ l.lat.map Numeric.value)
    lng := p.lng.filter (· ≠ l.lng.map Numeric.value) }

/-- The SET of an UPDATE, as the columns take it. -/
structure LocationSet where
  displayName : Option (Option String)
  status : Option LocationStatus
  lat : Option (Option (Numeric 10 7))
  lng : Option (Option (Numeric 10 7))

def LocationUpdate.columns (p : LocationUpdate) : Except Unhandled LocationSet := do
  .ok
    { displayName := ← p.displayName.mapM fun v => v.mapM textColumn
      status := ← p.status.mapM statusColumn
      lat := ← p.lat.mapM fun v => v.mapM coordinateColumn
      lng := ← p.lng.mapM fun v => v.mapM coordinateColumn }

/-- The rewritten row. `trg_location_updated_at` sets its `updated_at`. -/
def LocationSet.apply (s : LocationSet) (now : Timestamp) (r : Location) : Location :=
  { r with
    displayName := s.displayName.getD r.displayName
    status := s.status.getD r.status
    lat := s.lat.getD r.lat
    lng := s.lng.getD r.lng
    updatedAt := now }

structure LocationUpdate.Fits (p : LocationUpdate) : Prop where
  displayName : ∀ v ∈ p.displayName, ∀ s ∈ v, textStorable s = true
  status : ∀ v ∈ p.status, ∃ s ∈ ["active", "onboarding", "paused", "archived"], v = some s
  lat : ∀ v ∈ p.lat, ∀ x ∈ v, inRange x
  lng : ∀ v ∈ p.lng, ∀ x ∈ v, inRange x

theorem statusColumn_isOk {v : Option String} :
    (∃ status, statusColumn v = .ok status) ↔
      ∃ s ∈ ["active", "onboarding", "paused", "archived"], v = some s := by
  simp only [statusColumn_ok]
  constructor
  · rintro ⟨status, s, rfl, -, hs⟩
    exact ⟨s, isSome_locationStatus.mp ⟨status, hs⟩, rfl⟩
  · rintro ⟨s, hs, rfl⟩
    obtain ⟨status, hstatus⟩ := isSome_locationStatus.mpr hs
    have hplain : ∀ t ∈ ["active", "onboarding", "paused", "archived"], textStorable t = true := by decide
    exact ⟨status, s, rfl, hplain s hs, hstatus⟩

theorem LocationUpdate.columns_isOk {p : LocationUpdate} : (∃ s, p.columns = .ok s) ↔ p.Fits := by
  have htext : (∃ o, (p.displayName.mapM fun v => v.mapM textColumn) = .ok o) ↔
      ∀ v ∈ p.displayName, ∀ s ∈ v, textStorable s = true := by
    simp only [mapM_isOk, textColumn_ok, exists_eq_right]
  have hcoordinate (o : Option (Option ℚ)) : (∃ o', (o.mapM fun v => v.mapM coordinateColumn) = .ok o') ↔
      ∀ v ∈ o, ∀ x ∈ v, inRange x := by
    simp only [mapM_isOk, coordinateColumn_isOk]
  have hstatus : (∃ o, p.status.mapM statusColumn = .ok o) ↔
      ∀ v ∈ p.status, ∃ s ∈ ["active", "onboarding", "paused", "archived"], v = some s := by
    simp only [mapM_isOk, statusColumn_isOk]
  simp only [LocationUpdate.columns, bind_eq_ok]
  constructor
  · rintro ⟨s, o, ho, st, hst, lat, hlat, lng, hlng, -⟩
    exact ⟨htext.mp ⟨o, ho⟩, hstatus.mp ⟨st, hst⟩, (hcoordinate _).mp ⟨lat, hlat⟩, (hcoordinate _).mp ⟨lng, hlng⟩⟩
  · rintro ⟨hd, hs, hlat, hlng⟩
    obtain ⟨o, ho⟩ := htext.mpr hd
    obtain ⟨st, hst⟩ := hstatus.mpr hs
    obtain ⟨lat, hlat⟩ := (hcoordinate _).mpr hlat
    obtain ⟨lng, hlng⟩ := (hcoordinate _).mpr hlng
    exact ⟨_, o, ho, st, hst, lat, hlat, lng, hlng, rfl⟩

/-- `UPDATE location SET .. WHERE id = ..`. -/
def LocationSet.statement (s : LocationSet) (now : Timestamp) (id : Uuid) : Stmt where
  table := .location
  body := .update (fun r => if r.id = id then some (Tables.location.embed (s.apply now r)) else none) true

/-- `BaseRepository.update`. Without a change there is nothing to flush. -/
def flushLocation (ctx : RequestContext) (now : Timestamp) (db : Db) (l : Location) (p : LocationUpdate) :
    Except Unhandled (LocationSet × Db) := do
  let changes := p.changes l
  let s ← changes.columns
  if changes = {} then .ok (s, db)
  else
    let e ← (execStatement (tenantContext ctx now) db (s.statement now l.id)).mapError .sql
    if e.rewritten.length = 1 then .ok (s, db.after .location e) else .error .staleDataError

/-- The data keep what was assigned to the instance, and its other values as they were loaded. -/
def LocationUpdate.detail (p : LocationUpdate) (l : Location) (s : LocationSet) : LocationDetail :=
  let loaded := LocationDetail.fromModel l
  { loaded with
    displayName := p.displayName.getD loaded.displayName
    status := s.status.getD loaded.status
    lat := p.lat.getD loaded.lat
    lng := p.lng.getD loaded.lng }

def updateLocation (ctx : RequestContext) (now : Timestamp) (db : Db) (slug : String) (p : LocationUpdate) :
    WriteResponse × Db :=
  if ctx.role ∈ operatorRoles then
    if textStorable slug then
      match getBySlug ⟨tenantContext ctx now, db⟩ slug with
      | .error _ => (.problem .internalError, db)
      | .ok none => (.problem .notFound, db)
      | .ok (some l) =>
        match flushLocation ctx now db l p with
        | .error _ => (.problem .internalError, db)
        | .ok (s, db') => (.ok (p.detail l s), db')
    else (.problem .internalError, db)
  else (.problem .forbiddenRole, db)

end BaptistApi
