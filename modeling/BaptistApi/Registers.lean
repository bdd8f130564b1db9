import BaptistApi.Api
import BaptistApi.Lib.Registers

/-!
# Locations are registers

For its clients a tenant's locations are registers, named by their slugs. POST writes an empty one, PATCH
rewrites a full one, GET reads one, and each answer depends on what that one register holds.
-/

namespace BaptistApi

open BaptistApi.Calendar BaptistApi.FixedPoint BaptistApi.Noninterference BaptistApi.RowSecurity

/-! ## The registers -/

/-- The routes that name one location. -/
inductive SlugRequest where
  | get (slug : String) (ifNoneMatch : Option String)
  | create (id : Uuid) (payload : LocationCreate)
  | update (slug : String) (payload : LocationUpdate)

structure SlugArrival where
  ctx : RequestContext
  now : Timestamp
  req : SlugRequest

def SlugArrival.key (a : SlugArrival) : Uuid × String :=
  (a.ctx.tenantId,
    match a.req with
    | .get slug _ => slug
    | .create _ payload => payload.slug
    | .update slug _ => slug)

/-- POST. `known` says that there is such a tenant. -/
def openRegister (known : Bool) (ctx : RequestContext) (now : Timestamp) (id : Uuid) (p : LocationCreate)
    (v : Option Location) : WriteResponse × Option Location :=
  if ctx.role ∈ operatorRoles then
    match v, p.row id ctx.tenantId now with
    | none, .ok r =>
      if known ∧ (r.lat = none ↔ r.lng = none) then
        (.created { LocationDetail.fromModel r with lat := p.lat, lng := p.lng }, some r)
      else (.problem .internalError, none)
    | v, _ => (.problem .internalError, v)
  else (.problem .forbiddenRole, v)

/-- What a PATCH with these columns leaves. -/
def patched (p : LocationUpdate) (l : Location) (s : LocationSet) (now : Timestamp) : Location :=
  if p.changes l = {} then l else s.apply now l

/-- PATCH. -/
def patchRegister (ctx : RequestContext) (now : Timestamp) (slug : String) (p : LocationUpdate) (v : Option Location) :
    WriteResponse × Option Location :=
  if ctx.role ∈ operatorRoles then
    if textStorable slug then
      match v with
      | none => (.problem .notFound, none)
      | some l =>
        match (p.changes l).columns with
        | .error _ => (.problem .internalError, some l)
        | .ok s =>
          let l' := patched p l s now
          if l'.lat = none ↔ l'.lng = none then (.ok (p.detail l s), some l') else (.problem .internalError, some l)
    else (.problem .internalError, v)
  else (.problem .forbiddenRole, v)

/-- GET. `canRead` says which locations the user may read. -/
def readRegister (ser : Serializer) (canRead : Uuid → Bool) (ctx : RequestContext) (slug : String)
    (ifNoneMatch : Option String) (v : Option Location) : GetReply :=
  if textStorable ctx.role && textStorable slug then
    match v.filter fun l => canRead l.id with
    | none => problemReply .notFound
    | some l =>
      let data := LocationDetail.fromModel l
      (respond ifNoneMatch data none (computeEtag ser.sha256 ctx (ser.detail data))).seen fun data _ => some (.location data)
  else problemReply .internalError

/-- The registers of all tenants. Who is known and who may read what never changes. -/
def locationRegisters (ser : Serializer) (known : Uuid → Bool) (canRead : RequestContext → Timestamp → Uuid → Bool) :
    Registers (Uuid × String) (Option Location) SlugArrival ApiAnswer where
  key := SlugArrival.key
  access a v :=
    match a.req with
    | .get slug ifNoneMatch => (.read (readRegister ser (canRead a.ctx a.now) a.ctx slug ifNoneMatch v), v)
    | .create newId payload => (openRegister (known a.ctx.tenantId) a.ctx a.now newId payload v).map .write id
    | .update slug payload => (patchRegister a.ctx a.now slug payload v).map .write id

/-! ## The routes -/

def SlugArrival.arrival (a : SlugArrival) : Arrival :=
  { ctx := a.ctx, now := a.now
    req :=
      match a.req with
      | .get slug ifNoneMatch => .read (.location slug) ifNoneMatch
      | .create id payload => .create id payload
      | .update slug payload => .update slug payload }

def slugRoutes (ser : Serializer) (byName : OrderByName) : Machine Db SlugArrival ApiAnswer (Uuid × String) where
  domain := SlugArrival.key
  answer db a := a.arrival.answer ser byName db
  next db a := a.arrival.next db

/-- What the registers hold. -/
def Db.registers (db : Db) (k : Uuid × String) : Option Location :=
  db.location.find? fun l => l.tenantId == k.1 && l.slug == k.2

section Registers

variable {db : Db}

theorem registers_eq_none {k : Uuid × String} :
    db.registers k = none ↔ ∀ l ∈ db.location, l.tenantId = k.1 → l.slug ≠ k.2 := by
  simp [Db.registers]

theorem registers_eq_some (hdb : constraintsOk db) {k : Uuid × String} {l : Location} :
    db.registers k = some l ↔ l ∈ db.location ∧ l.tenantId = k.1 ∧ l.slug = k.2 := by
  constructor
  · intro h
    have hkey := List.find?_some h
    simp only [Bool.and_eq_true, beq_iff_eq] at hkey
    exact ⟨List.mem_of_find?_eq_some h, hkey⟩
  · rintro ⟨hl, ht, hs⟩
    cases h : db.registers k with
    | none => exact absurd hs (registers_eq_none.mp h l hl ht)
    | some x =>
      have hkey := List.find?_some h
      simp only [Bool.and_eq_true, beq_iff_eq] at hkey
      rw [location_of_slug hdb (List.mem_of_find?_eq_some h) hl (hkey.1.trans ht.symm) (hkey.2.trans hs.symm)]

theorem registers_add {r : Location} {k : Uuid × String} (hk : (r.tenantId, r.slug) = k) (hempty : db.registers k = none) :
    (db.add .location r).registers = Function.update db.registers k (some r) := by
  funext k'
  have hfind : (db.add .location r).registers k' =
      (db.registers k').or ([r].find? fun l => l.tenantId == k'.1 && l.slug == k'.2) :=
    List.find?_append
  rw [hfind]
  subst hk
  by_cases hk' : k' = (r.tenantId, r.slug)
  · subst hk'
    rw [hempty, Function.update_self]
    simp
  · rw [Function.update_of_ne hk']
    have hno : ¬ (r.tenantId = k'.1 ∧ r.slug = k'.2) := fun h => hk' (Prod.ext h.1.symm h.2.symm)
    have hnone : ([r].find? fun l => l.tenantId == k'.1 && l.slug == k'.2) = none := by
      simpa using hno
    rw [hnone, Option.or_none]

theorem registers_rewrite (hdb : constraintsOk db) {l : Location} (hl : l ∈ db.location) {f : Location → Location}
    (hf : ∀ r, (f r).tenantId = r.tenantId ∧ (f r).slug = r.slug) :
    (db.rewriteLocation l.id f).registers = Function.update db.registers (l.tenantId, l.slug) (some (f l)) := by
  funext k
  have hkeys : ((fun x : Location => x.tenantId == k.1 && x.slug == k.2) ∘ fun r => if r.id == l.id then f r else r) =
      fun x => x.tenantId == k.1 && x.slug == k.2 := by
    funext r
    simp only [Function.comp_apply]
    split
    · rw [(hf r).1, (hf r).2]
    · rfl
  have hfind : (db.rewriteLocation l.id f).registers k =
      (db.registers k).map fun r => if r.id == l.id then f r else r := by
    rw [Db.registers, Db.location_rewriteLocation, List.find?_map, hkeys, Db.registers]
  rw [hfind]
  by_cases hk : k = (l.tenantId, l.slug)
  · subst hk
    rw [(registers_eq_some hdb).mpr ⟨hl, rfl, rfl⟩, Function.update_self]
    simp
  · rw [Function.update_of_ne hk]
    cases hx : db.registers k with
    | none => rfl
    | some x =>
      obtain ⟨hmem, ht, hs⟩ := (registers_eq_some hdb).mp hx
      have hne : x.id ≠ l.id := by
        intro hid
        rw [location_of_id hdb hmem hl hid] at ht hs
        exact hk (Prod.ext ht.symm hs.symm)
      simp [hne]

end Registers

/-! ## One request -/

section Step

variable {ctx : RequestContext} {now : Timestamp} {db : Db}

theorem getBySlug_registers (hdb : constraintsOk db) (slug : String) :
    getBySlug ⟨tenantContext ctx now, db⟩ slug = .ok ((db.registers (ctx.tenantId, slug)).filter fun l =>
      canReadLocation ⟨tenantContext ctx now, db⟩ l.id) := by
  have hunique : LookupsAreUnique ctx ⟨tenantContext ctx now, db⟩ := lookups_unique hdb
  obtain ⟨o, ho⟩ := hunique.location slug
  have hmem (l : Location) : o = some l ↔ l ∈ db.location ∧ (l.tenantId = ctx.tenantId ∧ l.slug = slug) ∧
      canReadLocation ⟨tenantContext ctx now, db⟩ l.id = true := by
    rw [← Except.ok.injEq (ε := Unit), ← ho, getBySlug_eq_some hdb, mem_locations]
    tauto
  rw [ho]
  congr 1
  ext l
  rw [hmem, Option.filter_eq_some_iff, registers_eq_some hdb]
  simp only [and_assoc]

theorem reply_readRegister (ser : Serializer) (byName : OrderByName) (hdb : constraintsOk db) (slug : String)
    (ifNoneMatch : Option String) :
    (GetRequest.location slug).reply ser byName ctx now db ifNoneMatch =
      readRegister ser (fun loc => canReadLocation ⟨tenantContext ctx now, db⟩ loc) ctx slug ifNoneMatch
        (db.registers (ctx.tenantId, slug)) := by
  unfold readRegister GetRequest.reply
  cases hrole : textStorable ctx.role with
  | false => rfl
  | true =>
    cases hslug : textStorable slug with
    | false => simp only [GetRequest.handle, getLocation, hslug, Bool.false_eq_true, if_false]; rfl
    | true =>
      simp only [GetRequest.handle, getLocation, hslug, if_true, getBySlug_registers hdb slug]
      cases (db.registers (ctx.tenantId, slug)).filter fun l => canReadLocation ⟨tenantContext ctx now, db⟩ l.id with
      | none => rfl
      | some l => rfl

theorem insertLocation_registers (hdb : constraintsOk db) (hrole : ctx.role ∈ operatorRoles) {id : Uuid}
    (hid : id ∉ db.locationIds) {p : LocationCreate} {r : Location} :
    insertLocation ctx now db id p = .ok r ↔ p.row id ctx.tenantId now = .ok r ∧
      db.registers (ctx.tenantId, p.slug) = none ∧ ctx.tenantId ∈ db.tenantIds ∧ (r.lat = none ↔ r.lng = none) := by
  rw [insertLocation_ok hrole]
  refine and_congr_right fun hrow => ?_
  have hr := (LocationCreate.row_cases hrow).2
  rw [uniqueOk_new hdb (hr.id.symm ▸ hid), registers_eq_none, hr.tenantId, hr.slug, ← hr.tenantId]
  exact Iff.rfl

theorem openRegister_refused {known : Bool} (hrole : ctx.role ∈ operatorRoles) {id : Uuid} {p : LocationCreate}
    {v : Option Location} (h : ∀ r, p.row id ctx.tenantId now = .ok r → v = none → known = true →
      ¬ (r.lat = none ↔ r.lng = none)) :
    openRegister known ctx now id p v = (.problem .internalError, v) := by
  unfold openRegister
  rw [if_pos hrole]
  split
  · rename_i r hrow
    rw [if_neg]
    rintro ⟨hknown, hpaired⟩
    exact h r hrow rfl hknown hpaired
  · rfl

theorem createLocation_registers (now : Timestamp) (hdb : constraintsOk db) {id : Uuid} (hid : id ∉ db.locationIds)
    (p : LocationCreate) :
    let spec := openRegister (decide (ctx.tenantId ∈ db.tenantIds)) ctx now id p (db.registers (ctx.tenantId, p.slug))
    (createLocation ctx now db id p).1 = spec.1 ∧
      (createLocation ctx now db id p).2.registers = Function.update db.registers (ctx.tenantId, p.slug) spec.2 := by
  unfold createLocation
  by_cases hrole : ctx.role ∈ operatorRoles
  · have hok (r : Location) := @insertLocation_registers ctx now db hdb hrole id hid p r
    cases hinsert : insertLocation ctx now db id p with
    | ok r =>
      obtain ⟨hrow, hempty, hknown, hpaired⟩ := (hok r).mp hinsert
      have hr := (LocationCreate.row_cases hrow).2
      have hspec : openRegister (decide (ctx.tenantId ∈ db.tenantIds)) ctx now id p none =
          (.created { LocationDetail.fromModel r with lat := p.lat, lng := p.lng }, some r) := by
        unfold openRegister
        simp only [hrole, hrow, hknown, hpaired, decide_true, and_self, if_true]
      simp only [hempty, hspec, if_pos hrole, true_and]
      exact registers_add (by rw [hr.tenantId, hr.slug]) hempty
    | error e =>
      have hspec : openRegister (decide (ctx.tenantId ∈ db.tenantIds)) ctx now id p (db.registers (ctx.tenantId, p.slug)) =
          (.problem .internalError, db.registers (ctx.tenantId, p.slug)) := by
        refine openRegister_refused hrole fun r hrow hempty hknown hpaired => ?_
        have hinsert' := (hok r).mpr ⟨hrow, hempty, of_decide_eq_true hknown, hpaired⟩
        cases hinsert.symm.trans hinsert'
      simp only [hspec, if_pos hrole, true_and]
      exact (Function.update_eq_self _ _).symm
  · simp only [openRegister, if_neg hrole, true_and]
    exact (Function.update_eq_self _ _).symm

theorem paired_columns {p : LocationUpdate} {l : Location} {s : LocationSet} (hs : (p.changes l).columns = .ok s) :
    (s.lat.getD l.lat = none ↔ s.lng.getD l.lng = none) ↔ p.Paired l := by
  obtain ⟨-, -, hlat, hlng⟩ := LocationUpdate.columns_cases hs
  rw [coordinate_null hlat, coordinate_null hlng, LocationUpdate.Paired]

theorem paired_patched (now : Timestamp) {l : Location} {p : LocationUpdate} {s : LocationSet}
    (hs : (p.changes l).columns = .ok s) :
    ((patched p l s now).lat = none ↔ (patched p l s now).lng = none) ↔ p.Paired l := by
  unfold patched
  split
  · rename_i hnone
    rw [← paired_columns hs]
    rw [hnone] at hs
    cases hs
    exact Iff.rfl
  · exact paired_columns hs

theorem registers_patched (hdb : constraintsOk db) {l : Location} (hl : l ∈ db.location) (p : LocationUpdate)
    (s : LocationSet) :
    (if p.changes l = {} then db else db.rewriteLocation l.id (s.apply now)).registers =
      Function.update db.registers (l.tenantId, l.slug) (some (patched p l s now)) := by
  unfold patched
  split
  · have hfull : db.registers (l.tenantId, l.slug) = some l := (registers_eq_some hdb).mpr ⟨hl, rfl, rfl⟩
    rw [← hfull, Function.update_eq_self]
  · exact registers_rewrite hdb hl fun r => ⟨rfl, rfl⟩

theorem updateLocation_registers (ctx : RequestContext) (now : Timestamp) (hdb : constraintsOk db) (slug : String)
    (p : LocationUpdate) :
    let spec := patchRegister ctx now slug p (db.registers (ctx.tenantId, slug))
    (updateLocation ctx now db slug p).1 = spec.1 ∧
      (updateLocation ctx now db slug p).2.registers = Function.update db.registers (ctx.tenantId, slug) spec.2 := by
  have hsame : db.registers = Function.update db.registers (ctx.tenantId, slug) (db.registers (ctx.tenantId, slug)) :=
    (Function.update_eq_self _ _).symm
  unfold updateLocation patchRegister
  by_cases hrole : ctx.role ∈ operatorRoles
  · by_cases hslug : textStorable slug = true
    · have hread (l : Location) : canReadLocation ⟨tenantContext ctx now, db⟩ l.id = true :=
        canReadLocation_operator hrole l.id
      have hfound : getBySlug ⟨tenantContext ctx now, db⟩ slug = .ok (db.registers (ctx.tenantId, slug)) := by
        rw [getBySlug_registers hdb slug]
        simp only [hread]
        cases db.registers (ctx.tenantId, slug) <;> rfl
      simp only [if_pos hrole, if_pos hslug, hfound]
      cases hv : db.registers (ctx.tenantId, slug) with
      | none => exact ⟨rfl, by rw [hv] at hsame; exact hsame⟩
      | some l =>
        obtain ⟨hl, ht, hs⟩ := (registers_eq_some hdb).mp hv
        have hok := @flushLocation_isOk ctx now db hdb hrole l hl ht p
        cases hflush : flushLocation ctx now db l p with
        | ok r =>
          obtain ⟨s, db'⟩ := r
          obtain ⟨hcolumns, rfl⟩ := flushLocation_ok hdb hrole hl ht hflush
          have hpaired := (paired_patched now hcolumns).mpr (hok.mp ⟨_, hflush⟩).2
          simp only [hcolumns, if_pos hpaired, true_and, hflush]
          rw [registers_patched hdb hl, ht, hs]
        | error e =>
          have hrefused : ∀ s, (p.changes l).columns = .ok s →
              ¬ ((patched p l s now).lat = none ↔ (patched p l s now).lng = none) := by
            intro s hcolumns hpaired
            obtain ⟨r, hr⟩ := hok.mpr ⟨LocationUpdate.columns_isOk.mp ⟨s, hcolumns⟩, (paired_patched now hcolumns).mp hpaired⟩
            cases hflush.symm.trans hr
          rw [hv] at hsame
          cases hcolumns : (p.changes l).columns with
          | error e' =>
            simp only [hcolumns, hflush, true_and]
            exact hsame
          | ok s =>
            simp only [hcolumns, hflush, if_neg (hrefused s hcolumns), true_and]
            exact hsame
    · simp only [if_pos hrole, if_neg hslug, true_and]
      exact hsame
  · simp only [if_neg hrole, true_and]
    exact hsame

end Step

/-! ## Runs -/

def SlugArrival.IdsAreNew (db : Db) (as : List SlugArrival) : Prop :=
  BaptistApi.IdsAreNew db (as.map SlugArrival.arrival)

/-- The requests leave alone who is known and who may read what. -/
structure Served (start : Db) (db : Db) (as : List SlugArrival) : Prop where
  constraints : constraintsOk db
  ids : SlugArrival.IdsAreNew db as
  rest : ∀ t, t ≠ .location → db.rows t = start.rows t

section Runs

variable (ser : Serializer) (byName : OrderByName)

/-- The registers of the tenants in `db`, read as its memberships allow. -/
def Db.registersOf (db : Db) : Registers (Uuid × String) (Option Location) SlugArrival ApiAnswer :=
  locationRegisters ser (fun tenantId => decide (tenantId ∈ db.tenantIds))
    fun ctx now loc => canReadLocation ⟨tenantContext ctx now, db⟩ loc

variable {ser byName}

theorem slugRoutes_step {start db : Db} {a : SlugArrival} {as : List SlugArrival} (h : Served start db (a :: as)) :
    (slugRoutes ser byName).answer db a = ((start.registersOf ser).machine).answer db.registers a ∧
      ((slugRoutes ser byName).next db a).registers = ((start.registersOf ser).machine).next db.registers a := by
  have htenants : start.tenantIds = db.tenantIds := by
    rw [Db.tenantIds, Db.tenantIds, show db.tenant = start.tenant from h.rest .tenant (by decide)]
  have hread (ctx : RequestContext) (now : Timestamp) (loc : Uuid) :
      canReadLocation ⟨tenantContext ctx now, start⟩ loc = canReadLocation ⟨tenantContext ctx now, db⟩ loc :=
    canReadLocation_congr (h.rest .membership (by decide)).symm (h.rest .membershipLocation (by decide)).symm loc
  obtain ⟨ctx, now, req⟩ := a
  cases req with
  | get slug ifNoneMatch =>
    refine ⟨congrArg ApiAnswer.read ?_, (Function.update_eq_self _ _).symm⟩
    simp only [hread]
    exact reply_readRegister ser byName h.constraints slug ifNoneMatch
  | create id p =>
    obtain ⟨hanswer, hnext⟩ := createLocation_registers now h.constraints (h.ids.head id rfl) p
    rw [← htenants] at hanswer hnext
    exact ⟨congrArg ApiAnswer.write hanswer, hnext⟩
  | update slug p =>
    obtain ⟨hanswer, hnext⟩ := updateLocation_registers ctx now h.constraints slug p
    exact ⟨congrArg ApiAnswer.write hanswer, hnext⟩

theorem slugRoutes_refine (ser : Serializer) (byName : OrderByName) (start : Db) :
    (slugRoutes ser byName).Refines (start.registersOf ser).machine (Served start) Db.registers where
  after {_ a _} h :=
    { constraints := Arrival.next_constraintsOk h.constraints a.arrival
      ids := BaptistApi.IdsAreNew.after h.constraints h.ids
      rest := fun t ht => (Arrival.next_rows h.constraints a.arrival ht).trans (h.rest t ht) }
  answer h := (slugRoutes_step h).1
  next h := (slugRoutes_step h).2

/-- **A location is a register.** In every run of requests on locations of any tenants, what is answered about one
slug of one tenant, and what is stored under it in the end, is what one register gives that only the requests on that
slug ever reach. -/
theorem locations_are_registers {db : Db} (hdb : constraintsOk db) {as : List SlugArrival}
    (hids : SlugArrival.IdsAreNew db as) (k : Uuid × String) :
    (slugRoutes ser byName).seen k db as =
        (db.registersOf ser).one.trace (db.registers k) ((slugRoutes ser byName).purge k as) ∧
      ((slugRoutes ser byName).run db as).registers k =
        (db.registersOf ser).one.run (db.registers k) ((slugRoutes ser byName).purge k as) := by
  obtain ⟨htrace, hrun⟩ := (slugRoutes_refine ser byName db).run ⟨hdb, hids, fun _ _ => rfl⟩
  obtain ⟨hseen, hone⟩ := (db.registersOf ser).seen_eq k db.registers as
  have hanswers : (slugRoutes ser byName).seen k db as = (db.registersOf ser).machine.seen k db.registers as := by
    unfold Machine.seen
    rw [htrace]
    rfl
  exact ⟨hanswers.trans hseen, (congrFun hrun k).trans hone⟩

end Runs

/-- The clinic opens `east`, pauses `north`, and a user reads `north`. -/
def clinicDay : List SlugArrival :=
  [⟨clinicOperator, noon, .create 12 (newLocation "east")⟩,
    ⟨clinicOperator, oneOClock, .update "north" { status := some (some "paused") }⟩,
    ⟨clinicUser, oneOClock, .get "north" none⟩]

theorem clinicDay_ids : SlugArrival.IdsAreNew (clinic .active) clinicDay := by
  have hnew : (clinicDay.map SlugArrival.arrival).filterMap Arrival.newId? = [12] := rfl
  have hold : (clinic .active).locationIds = [10, 11] := rfl
  constructor
  · rw [hnew]; simp
  · rw [hnew, hold]; simp

theorem north_is_register :
    (slugRoutes plainSerializer byNameThenId).seen (1, "north") (clinic .active) clinicDay =
        ((clinic .active).registersOf plainSerializer).one.trace ((clinic .active).registers (1, "north"))
          ((slugRoutes plainSerializer byNameThenId).purge (1, "north") clinicDay) ∧
      ((slugRoutes plainSerializer byNameThenId).run (clinic .active) clinicDay).registers (1, "north") =
        ((clinic .active).registersOf plainSerializer).one.run ((clinic .active).registers (1, "north"))
          ((slugRoutes plainSerializer byNameThenId).purge (1, "north") clinicDay) :=
  locations_are_registers (by decide +kernel) clinicDay_ids (1, "north")

end BaptistApi
