import BaptistApi.Patches

/-!
# What a write answers and what a read returns

A write answers with the instance in memory, and a read with the stored row. Between them stand the
rounding of the coordinates and `trg_location_updated_at`.
-/

namespace BaptistApi

open BaptistApi.Calendar BaptistApi.FixedPoint BaptistApi.RowSecurity

def Response.data? {D : Type} : Response D → Option D
  | ok data .. => some data
  | notModified _ => none
  | problem _ => none

def WriteResponse.data? : WriteResponse → Option LocationDetail
  | created data => some data
  | ok data => some data
  | problem _ => none

/-- To a new location `gen_random_uuid()` gives `id`. -/
inductive LocationWrite where
  | create (id : Uuid) (payload : LocationCreate)
  | update (slug : String) (payload : LocationUpdate)

namespace LocationWrite

def request : LocationWrite → LocationRequest
  | create id payload => .create id payload
  | update slug payload => .update slug payload

def run (ctx : RequestContext) (now : Timestamp) (db : Db) : LocationWrite → WriteResponse × Db
  | create id payload => createLocation ctx now db id payload
  | update slug payload => updateLocation ctx now db slug payload

def slug : LocationWrite → String
  | create _ payload => payload.slug
  | update slug _ => slug

def coordinates : LocationWrite → List ℚ
  | create _ payload => payload.lat.toList ++ payload.lng.toList
  | update _ payload => payload.lat.join.toList ++ payload.lng.join.toList

/-- The write sets no `updated_at` other than the one that it has loaded. -/
def KeepsUpdatedAt (ctx : RequestContext) (now : Timestamp) (db : Db) : LocationWrite → Prop
  | create .. => True
  | update slug payload => ∀ l ∈ db.location, l.tenantId = ctx.tenantId → l.slug = slug →
      payload.changes l = {} ∨ l.updatedAt = now

end LocationWrite

/-- In a path, `{slug}` is one segment. -/
def pathSegment (s : String) : Bool := s != "" && !s.toList.contains '/'

/-- The data of `GET /v1/locations/{slug}`. -/
def readBack (ser : Serializer) (ctx : RequestContext) (now : Timestamp) (db : Db) (slug : String)
    (ifNoneMatch : Option String) : Option LocationDetail :=
  if pathSegment slug then (getLocation ser ctx ⟨tenantContext ctx now, db⟩ slug ifNoneMatch).data? else none

/-- The user who has written reads `data`, and nobody of the tenant reads anything else. -/
structure ReadsBack (ser : Serializer) (ctx : RequestContext) (db : Db) (slug : String) (data : LocationDetail) :
    Prop where
  own : ∀ now, readBack ser ctx now db slug none = some data
  others : ∀ (reader : RequestContext) now ifNoneMatch, reader.tenantId = ctx.tenantId →
    ∀ out ∈ readBack ser reader now db slug ifNoneMatch, out = data

/-- Neither the columns nor the trigger make anything else of what the answer says. -/
structure LocationWrite.StoredAsSent (req : LocationWrite) (ctx : RequestContext) (now : Timestamp) (db : Db) : Prop where
  segment : pathSegment req.slug = true
  onGrid : ∀ x ∈ req.coordinates, Numeric.OnGrid 7 x
  updatedAt : req.KeepsUpdatedAt ctx now db

/-! ## The read -/

section Read

variable {ser : Serializer} {ctx : RequestContext} {now : Timestamp} {db : Db}

theorem getBySlug_eq_some (hdb : constraintsOk db) {slug : String} {l : Location} :
    getBySlug ⟨tenantContext ctx now, db⟩ slug = .ok (some l) ↔
      l ∈ Scope.locations ⟨tenantContext ctx now, db⟩ ∧ l.slug = slug := by
  have hunique : LookupsAreUnique ctx ⟨tenantContext ctx now, db⟩ := lookups_unique hdb
  obtain ⟨o, ho⟩ := hunique.location slug
  have hmem : l ∈ (Scope.locations ⟨tenantContext ctx now, db⟩).filter (fun l => l.slug == slug) ↔
      l ∈ Scope.locations ⟨tenantContext ctx now, db⟩ ∧ l.slug = slug := by
    rw [List.mem_filter, beq_iff_eq]
  rw [← hmem]
  constructor
  · intro h
    rw [oneOrNone_eq_some.mp h]
    exact List.mem_singleton_self l
  · intro h
    rw [ho]
    cases o with
    | none =>
      rw [oneOrNone_eq_none.mp ho] at h
      cases h
    | some x =>
      rw [oneOrNone_eq_some.mp ho] at h
      rw [List.mem_singleton.mp h]

theorem data?_respond {D : Type} {ifNoneMatch : Option String} {data out : D} {page : Option PageInfo} {etag : String}
    (h : (respond ifNoneMatch data page etag).data? = some out) : out = data := by
  unfold respond at h
  split at h
  · cases h
  · exact (Option.some.inj h).symm

theorem readBack_stored (hdb : constraintsOk db) {l : Location} (hl : l ∈ db.location) (ht : l.tenantId = ctx.tenantId)
    {ifNoneMatch : Option String} {out : LocationDetail}
    (h : readBack ser ctx now db l.slug ifNoneMatch = some out) : out = LocationDetail.fromModel l := by
  unfold readBack getLocation at h
  split at h
  · split at h
    · split at h
      · cases h
      · cases h
      · rename_i x hx
        obtain ⟨hx, hslug⟩ := (getBySlug_eq_some hdb).mp hx
        obtain ⟨hx, htenant, -⟩ := mem_locations.mp hx
        have hxl : x = l := location_of_slug hdb hx hl (htenant.trans ht.symm) hslug
        rw [data?_respond h, hxl]
    · cases h
  · cases h

theorem readBack_own (hdb : constraintsOk db) (h : ctx.role ∈ operatorRoles) {l : Location} (hl : l ∈ db.location)
    (ht : l.tenantId = ctx.tenantId) (hslug : textStorable l.slug = true) (hsegment : pathSegment l.slug = true) :
    readBack ser ctx now db l.slug none = some (LocationDetail.fromModel l) := by
  have hfound : getBySlug ⟨tenantContext ctx now, db⟩ l.slug = .ok (some l) :=
    (getBySlug_eq_some hdb).mpr ⟨(mem_locations_operator h).mpr ⟨hl, ht⟩, rfl⟩
  simp only [readBack, hsegment, hslug, if_true, getLocation, hfound]
  rfl

theorem readsBack_iff (hdb : constraintsOk db) (h : ctx.role ∈ operatorRoles) {l : Location} (hl : l ∈ db.location)
    (ht : l.tenantId = ctx.tenantId) (hslug : textStorable l.slug = true) {data : LocationDetail} :
    ReadsBack ser ctx db l.slug data ↔ pathSegment l.slug = true ∧ data = LocationDetail.fromModel l := by
  constructor
  · intro hread
    have hown := hread.own l.createdAt
    refine ⟨?_, readBack_stored hdb hl ht hown⟩
    unfold readBack at hown
    split at hown
    · assumption
    · cases hown
  · rintro ⟨hsegment, rfl⟩
    exact ⟨fun now => readBack_own hdb h hl ht hslug hsegment, fun reader now ifNoneMatch hreader out hout =>
      readBack_stored hdb hl (ht.trans hreader.symm) hout⟩

end Read

/-! ## The write -/

theorem supplied_coordinate {v : Option ℚ} {stored : Option (Numeric 10 7)} (h : v.mapM coordinateColumn = .ok stored) :
    v = stored.map Numeric.value ↔ ∀ x ∈ v, Numeric.OnGrid 7 x := by
  obtain ⟨rfl, rfl⟩ | ⟨x, n, rfl, hn, rfl⟩ := mapM_cases h
  · simp
  · rw [coordinateColumn_ok] at hn
    simp only [Option.map_some, Option.some.injEq, Option.mem_def, forall_eq']
    constructor
    · rintro rfl
      exact Numeric.onGrid_value n
    · intro hx
      exact (Numeric.store?_value hx hn).symm

theorem patched_coordinate {v : Option (Option ℚ)} {loaded : Option (Numeric 10 7)}
    {set : Option (Option (Numeric 10 7))}
    (h : ((v.filter (· ≠ loaded.map Numeric.value)).mapM fun x => x.mapM coordinateColumn) = .ok set) :
    v.getD (loaded.map Numeric.value) = (set.getD loaded).map Numeric.value ↔ ∀ x ∈ v.join, Numeric.OnGrid 7 x := by
  obtain ⟨rfl, hsame⟩ | ⟨x, stored, rfl, hstored, rfl⟩ := column_cases h
  · have hkept : v.getD (loaded.map Numeric.value) = loaded.map Numeric.value := by
      cases v with
      | none => rfl
      | some x => exact hsame x rfl
    refine iff_of_true hkept fun x hx => ?_
    obtain ⟨n, -, rfl⟩ := Option.map_eq_some_iff.mp (hsame (some x) (Option.join_eq_some_iff.mp hx)).symm
    exact Numeric.onGrid_value n
  · exact supplied_coordinate hstored

theorem createdAs_iff {p : LocationCreate} {id tenantId : Uuid} {now : Timestamp} {r : Location}
    (h : p.row id tenantId now = .ok r) :
    { LocationDetail.fromModel r with lat := p.lat, lng := p.lng } = LocationDetail.fromModel r ↔
      ∀ x ∈ p.lat.toList ++ p.lng.toList, Numeric.OnGrid 7 x := by
  simp only [LocationCreate.row, bind_eq_ok] at h
  obtain ⟨_, -, _, -, _, -, fleet, -, _, -, _, -, _, -, _, -, _, -, lat, hlat, lng, hlng, h⟩ := h
  cases h
  simp only [LocationDetail.fromModel, LocationDetail.mk.injEq, true_and, and_true, supplied_coordinate hlat,
    supplied_coordinate hlng, List.mem_append, Option.mem_toList, or_imp, forall_and]
  exact Iff.rfl

theorem patchedAs_iff {p : LocationUpdate} {l : Location} {s : LocationSet} (hs : (p.changes l).columns = .ok s)
    (stamp : Timestamp) :
    p.detail l s = LocationDetail.fromModel (s.apply stamp l) ↔
      (∀ x ∈ p.lat.join.toList ++ p.lng.join.toList, Numeric.OnGrid 7 x) ∧ l.updatedAt = stamp := by
  obtain ⟨hd, -, hlat, hlng⟩ := LocationUpdate.columns_cases hs
  have hname : p.displayName.getD l.displayName = s.displayName.getD l.displayName :=
    (overText_eq hd fun x hx hnone => by
      obtain ⟨-, hsame⟩ | ⟨y, t, -, -, hset⟩ := column_cases hd
      · exact hsame x hx
      · rw [hnone] at hset
        cases hset).symm
  simp only [LocationUpdate.detail, LocationDetail.fromModel, LocationSet.apply, LocationDetail.mk.injEq, true_and,
    hname, patched_coordinate hlat, patched_coordinate hlng, List.mem_append, Option.mem_toList, or_imp, forall_and,
    and_assoc]
  exact Iff.rfl

section Write

variable {ctx : RequestContext} {now : Timestamp} {db : Db}

theorem run_after (req : LocationWrite) : (req.run ctx now db).2 = serve ctx now db req.request := by
  cases req <;> rfl

/-- The stored location that the data of an answer are about. -/
structure Stores (ctx : RequestContext) (now : Timestamp) (db : Db) (req : LocationWrite) (data : LocationDetail)
    (l : Location) : Prop where
  operator : ctx.role ∈ operatorRoles
  mem : l ∈ (req.run ctx now db).2.location
  tenantId : l.tenantId = ctx.tenantId
  slug : l.slug = req.slug
  storable : textStorable req.slug = true
  asSent : data = LocationDetail.fromModel l ↔
    (∀ x ∈ req.coordinates, Numeric.OnGrid 7 x) ∧ req.KeepsUpdatedAt ctx now db

theorem create_stores {id : Uuid} {p : LocationCreate} {data : LocationDetail}
    (h : ((LocationWrite.create id p).run ctx now db).1.data? = some data) :
    ∃ l, Stores ctx now db (.create id p) data l := by
  simp only [LocationWrite.run, createLocation] at h
  split at h
  · rename_i hrole
    cases hinsert : insertLocation ctx now db id p with
    | error e =>
      rw [hinsert] at h
      cases h
    | ok l =>
      rw [hinsert] at h
      cases h
      obtain ⟨hrow, -, -⟩ := (insertLocation_ok hrole).mp hinsert
      obtain ⟨hfits, hr⟩ := LocationCreate.row_cases hrow
      refine ⟨l, hrole, ?_, hr.tenantId, hr.slug, hfits.texts _ (by simp [LocationCreate.texts, LocationWrite.slug]),
        (createdAs_iff hrow).trans (and_true _).symm.to_iff⟩
      simp only [LocationWrite.run, createLocation, if_pos hrole, hinsert]
      exact List.mem_append_right _ (List.mem_singleton_self l)
  · cases h

theorem keepsUpdatedAt_iff (hdb : constraintsOk db) {l : Location} (hl : l ∈ db.location) (ht : l.tenantId = ctx.tenantId)
    {p : LocationUpdate} :
    (LocationWrite.update l.slug p).KeepsUpdatedAt ctx now db ↔ p.changes l = {} ∨ l.updatedAt = now := by
  refine ⟨fun h => h l hl ht rfl, fun h x hx htenant hslug => ?_⟩
  have hxl : x = l := location_of_slug hdb hx hl (htenant.trans ht.symm) hslug
  rwa [hxl]

theorem flushLocation_stores (hdb : constraintsOk db) (h : ctx.role ∈ operatorRoles) {l : Location}
    (hl : l ∈ db.location) (ht : l.tenantId = ctx.tenantId) {p : LocationUpdate} {s : LocationSet} {db' : Db}
    (hflush : flushLocation ctx now db l p = .ok (s, db')) :
    ∃ stamp, s.apply stamp l ∈ db'.location ∧ (p.changes l).columns = .ok s ∧
      (l.updatedAt = stamp ↔ p.changes l = {} ∨ l.updatedAt = now) := by
  simp only [flushLocation, bind_eq_ok] at hflush
  obtain ⟨s', hs, hflush⟩ := hflush
  split at hflush
  · rename_i hnone
    cases hflush
    refine ⟨l.updatedAt, ?_, hs, iff_of_true rfl (Or.inl hnone)⟩
    rw [hnone] at hs
    cases hs
    exact hl
  · rename_i hsome
    obtain ⟨e, he, hflush⟩ := bind_eq_ok.mp hflush
    split at hflush
    · cases hflush
      refine ⟨now, ?_, hs, (or_iff_right hsome).symm⟩
      cases (exec_statement hdb h hl ht s).symm.trans (execStatement_ok (mapError_ok.mp he)).1
      rw [Db.after, LocationSet.effect, Effect.removed_rewriting, Effect.rows_rewriting, cascade_nil]
      exact List.mem_map.mpr ⟨l, hl, if_pos (by simp)⟩
    · cases hflush

theorem update_stores (hdb : constraintsOk db) {slug : String} {p : LocationUpdate} {data : LocationDetail}
    (h : ((LocationWrite.update slug p).run ctx now db).1.data? = some data) :
    ∃ l, Stores ctx now db (.update slug p) data l := by
  have hrole : ctx.role ∈ operatorRoles := by
    by_contra hrole
    simp [LocationWrite.run, updateLocation, hrole, WriteResponse.data?] at h
  have hslug : textStorable slug = true := by
    by_contra hslug
    simp [LocationWrite.run, updateLocation, hrole, hslug, WriteResponse.data?] at h
  simp only [LocationWrite.run, updateLocation, if_pos hrole, if_pos hslug] at h
  split at h
  · cases h
  · cases h
  · rename_i l hfound
    obtain ⟨hl, rfl⟩ := (getBySlug_eq_some hdb).mp hfound
    obtain ⟨hl, ht⟩ := (mem_locations_operator hrole).mp hl
    cases hflush : flushLocation ctx now db l p with
    | error e =>
      rw [hflush] at h
      cases h
    | ok written =>
      rw [hflush] at h
      cases h
      obtain ⟨stamp, hmem, hs, hstamp⟩ := flushLocation_stores hdb hrole hl ht hflush
      refine ⟨written.1.apply stamp l, hrole, ?_, ht, rfl, hslug, ?_⟩
      · simp only [LocationWrite.run, updateLocation, if_pos hrole, if_pos hslug, hfound, hflush]
        exact hmem
      · rw [patchedAs_iff hs, hstamp, ← keepsUpdatedAt_iff hdb hl ht]
        exact Iff.rfl

theorem write_stores (hdb : constraintsOk db) {req : LocationWrite} {data : LocationDetail}
    (h : (req.run ctx now db).1.data? = some data) : ∃ l, Stores ctx now db req data l := by
  cases req with
  | create id p => exact create_stores h
  | update slug p => exact update_stores hdb h

/-- **What a write answers is what a read returns** exactly when its path is one segment, the supplied
coordinates have at most seven decimals and `updated_at` stays as it is. -/
theorem answer_read_back_iff (ser : Serializer) (hdb : constraintsOk db) {req : LocationWrite} {data : LocationDetail}
    (h : (req.run ctx now db).1.data? = some data) :
    ReadsBack ser ctx (req.run ctx now db).2 req.slug data ↔ req.StoredAsSent ctx now db := by
  obtain ⟨l, hl⟩ := write_stores hdb h
  have hafter : constraintsOk (req.run ctx now db).2 := by
    rw [run_after]
    exact serve_constraintsOk hdb _
  rw [← hl.slug, readsBack_iff hafter hl.operator hl.mem hl.tenantId (hl.slug ▸ hl.storable), hl.asSent, hl.slug]
  exact ⟨fun ⟨hsegment, hgrid, hstamp⟩ => ⟨hsegment, hgrid, hstamp⟩, fun h => ⟨h.segment, h.onGrid, h.updatedAt⟩⟩

end Write

def oneOClock : Timestamp := { noon with micros := 46800000000, microsOk := by decide }

def eastLocation : LocationWrite := .create 12 { newLocation "east" with lat := some (351 / 10), lng := some (-90) }

theorem east_created : (eastLocation.run clinicOperator noon (clinic .active)).1.data?.isSome = true := by
  decide +kernel

theorem east_reads_back :
    ReadsBack plainSerializer clinicOperator (eastLocation.run clinicOperator noon (clinic .active)).2 "east"
      ((eastLocation.run clinicOperator noon (clinic .active)).1.data?.get east_created) := by
  refine (answer_read_back_iff plainSerializer (by decide +kernel) (Option.some_get east_created).symm).mpr
    ⟨by decide, ?_, trivial⟩
  simp only [eastLocation, LocationWrite.coordinates, Option.toList_some, List.singleton_append, List.mem_cons,
    List.not_mem_nil, or_false, forall_eq_or_imp, forall_eq]
  exact ⟨⟨351000000, by norm_num⟩, ⟨-900000000, by norm_num⟩⟩

/-- The clinic pauses `north`, an hour after it was stored. -/
def pauseNorth : LocationWrite := .update "north" { status := some (some "paused") }

theorem north_paused : (pauseNorth.run clinicOperator oneOClock (clinic .active)).1.data?.isSome = true := by
  decide +kernel

theorem paused_answer_is_stale :
    ¬ ∀ (ser : Serializer) (ctx : RequestContext) (now : Timestamp) (db : Db) (req : LocationWrite)
      (data : LocationDetail), constraintsOk db → (req.run ctx now db).1.data? = some data →
        ReadsBack ser ctx (req.run ctx now db).2 req.slug data := by
  intro h
  have hread := (h plainSerializer clinicOperator oneOClock (clinic .active) pauseNorth _ (by decide +kernel)
    (Option.some_get north_paused).symm).own oneOClock
  have hstamp := congrArg (Option.map LocationDetail.updatedAt) hread
  revert hstamp
  decide +kernel

end BaptistApi
