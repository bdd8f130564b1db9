import BaptistApi.Api
import BaptistApi.Lib.Noninterference

/-!
# Tenants do not interfere

What the users of one tenant are answered, over any sequence of requests, is what they would be
answered if no other tenant had ever sent one.
-/

namespace BaptistApi

open BaptistApi.Calendar BaptistApi.FixedPoint BaptistApi.Noninterference BaptistApi.RowSecurity

/-- The API, with a domain for each tenant. -/
def api (ser : Serializer) (byName : OrderByName) : Machine Db Arrival ApiAnswer Uuid where
  domain a := a.ctx.tenantId
  answer db a := a.answer ser byName db
  next := Arrival.next

/-! ## States that look the same to a tenant -/

structure SameForTenant (tenantId : Uuid) (db db' : Db) : Prop where
  rest : ∀ t, t ≠ .location → db.rows t = db'.rows t
  location : ∀ l, l.tenantId = tenantId → (l ∈ db.location ↔ l ∈ db'.location)

theorem SameForTenant.refl (tenantId : Uuid) (db : Db) : SameForTenant tenantId db db :=
  ⟨fun _ _ => rfl, fun _ _ => Iff.rfl⟩

section Same

variable {ctx : RequestContext} {now : Timestamp} {db db' : Db}

theorem SameForTenant.canRead (h : SameForTenant ctx.tenantId db db') (loc : Uuid) :
    canReadLocation ⟨tenantContext ctx now, db⟩ loc = canReadLocation ⟨tenantContext ctx now, db'⟩ loc :=
  canReadLocation_congr (h.rest .membership (by decide)) (h.rest .membershipLocation (by decide)) loc

theorem SameForTenant.agree (h : SameForTenant ctx.tenantId db db') : Agree ctx now db db' where
  tenant t _ := by rw [show db.tenant = db'.tenant from h.rest .tenant (by decide)]
  userProfile u _ := by rw [show db.userProfile = db'.userProfile from h.rest .userProfile (by decide)]
  membership m _ _ := by rw [show db.membership = db'.membership from h.rest .membership (by decide)]
  membershipLocation m _ _ _ ml _ := by
    rw [show db.membershipLocation = db'.membershipLocation from h.rest .membershipLocation (by decide)]
  location l := by
    rw [mem_locations, mem_locations, h.canRead]
    exact ⟨fun ⟨hl, ht, hr⟩ => ⟨(h.location l ht).mp hl, ht, hr⟩, fun ⟨hl, ht, hr⟩ => ⟨(h.location l ht).mpr hl, ht, hr⟩⟩

theorem next_hidden {tenantId : Uuid} {a : Arrival} (hdb : constraintsOk db) (ha : a.ctx.tenantId ≠ tenantId)
    {l : Location} (hl : l.tenantId = tenantId) : l ∈ (a.next db).location ↔ l ∈ db.location := by
  have h := a.next_cases hdb
  generalize a.next db = db' at h
  cases h with
  | none => exact Iff.rfl
  | added hreq hrole hrow =>
    have hr := (LocationCreate.row_cases hrow).2.tenantId
    change l ∈ db.location ++ [_] ↔ _
    rw [List.mem_append, List.mem_singleton, or_iff_left]
    rintro rfl
    exact ha (hr.symm.trans hl)
  | rewritten hreq hrole hmem ht =>
    rw [mem_rewriteLocation hdb hmem]
    constructor
    · rintro (rfl | ⟨hx, -⟩)
      · exact absurd (ht.symm.trans hl) ha
      · exact hx
    · intro hx
      refine Or.inr ⟨hx, fun hid => ?_⟩
      rw [location_of_id hdb hx hmem hid] at hl
      exact ha (ht.symm.trans hl)

/-! ## Writes of the tenant -/

theorem rowOk_location_congr (h : db.tenant = db'.tenant) (r : Location) :
    rowOk db .location r ↔ rowOk db' .location r := by
  simp only [rowOk, Db.tenantIds, h]

theorem insertLocation_same (now : Timestamp) (hdb : constraintsOk db) (hdb' : constraintsOk db')
    (hrole : ctx.role ∈ operatorRoles) (h : SameForTenant ctx.tenantId db db') {id : Uuid} (hid : id ∉ db.locationIds)
    (hid' : id ∉ db'.locationIds) {p : LocationCreate} {r : Location} :
    insertLocation ctx now db id p = .ok r ↔ insertLocation ctx now db' id p = .ok r := by
  rw [insertLocation_ok hrole, insertLocation_ok hrole]
  refine and_congr_right fun hrow => ?_
  have hr := (LocationCreate.row_cases hrow).2
  rw [uniqueOk_new hdb (hr.id.symm ▸ hid), uniqueOk_new hdb' (hr.id.symm ▸ hid'), hr.tenantId]
  refine and_congr ?_ (rowOk_location_congr (h.rest .tenant (by decide)) r)
  exact ⟨fun hall l hl ht => hall l ((h.location l ht).mpr hl) ht, fun hall l hl ht => hall l ((h.location l ht).mp hl) ht⟩

theorem SameForTenant.rewritten {tenantId : Uuid} (h : SameForTenant tenantId db db') (hdb : constraintsOk db)
    (hdb' : constraintsOk db') {l : Location} (hl : l ∈ db.location) (hl' : l ∈ db'.location) (f : Location → Location) :
    SameForTenant tenantId (db.rewriteLocation l.id f) (db'.rewriteLocation l.id f) := by
  refine ⟨fun t ht => ?_, fun x hx => ?_⟩
  · rw [Db.rewriteLocation, Db.rewriteLocation, Db.rows_set_ne _ ht, Db.rows_set_ne _ ht, h.rest t ht]
  · rw [mem_rewriteLocation hdb hl, mem_rewriteLocation hdb' hl', h.location x hx]

theorem flushLocation_same (now : Timestamp) (hdb : constraintsOk db) (hdb' : constraintsOk db')
    (hrole : ctx.role ∈ operatorRoles) (h : SameForTenant ctx.tenantId db db') {l : Location} (hl : l ∈ db.location)
    (ht : l.tenantId = ctx.tenantId) (p : LocationUpdate) :
    (∃ e e', flushLocation ctx now db l p = .error e ∧ flushLocation ctx now db' l p = .error e') ∨
      ∃ s db₁ db₁', flushLocation ctx now db l p = .ok (s, db₁) ∧ flushLocation ctx now db' l p = .ok (s, db₁') ∧
        SameForTenant ctx.tenantId db₁ db₁' := by
  have hl' := (h.location l ht).mp hl
  -- Whether the flush goes through depends on the loaded row and the payload alone.
  have hok : (∃ r, flushLocation ctx now db l p = .ok r) ↔ ∃ r, flushLocation ctx now db' l p = .ok r :=
    (flushLocation_isOk hdb hrole hl ht).trans (flushLocation_isOk hdb' hrole hl' ht).symm
  cases hflush : flushLocation ctx now db l p with
  | error e =>
    cases hflush' : flushLocation ctx now db' l p with
    | error e' => exact Or.inl ⟨e, e', rfl, rfl⟩
    | ok r' =>
      obtain ⟨r, hr⟩ := hok.mpr ⟨r', hflush'⟩
      cases hflush.symm.trans hr
  | ok r =>
    obtain ⟨r', hflush'⟩ := hok.mp ⟨r, hflush⟩
    obtain ⟨s, db₁⟩ := r
    obtain ⟨s', db₁'⟩ := r'
    obtain ⟨hs, rfl⟩ := flushLocation_ok hdb hrole hl ht hflush
    obtain ⟨hs', rfl⟩ := flushLocation_ok hdb' hrole hl' ht hflush'
    cases hs.symm.trans hs'
    refine Or.inr ⟨s, _, _, rfl, hflush', ?_⟩
    split
    · exact h
    · exact h.rewritten hdb hdb' hl hl' _

end Same

/-! ## One request -/

section Step

variable {ser : Serializer} {byName : OrderByName} {tenantId : Uuid} {db db' : Db} {a : Arrival}

theorem reply_same (hfixed : byName.Fixed) (hdb : constraintsOk db) (hdb' : constraintsOk db') {ctx : RequestContext}
    {now : Timestamp} (h : SameForTenant ctx.tenantId db db') (req : GetRequest) (ifNoneMatch : Option String) :
    req.reply ser byName ctx now db ifNoneMatch = req.reply ser byName ctx now db' ifNoneMatch := by
  have hagree : Agree ctx now db db' := h.agree
  unfold GetRequest.reply
  cases req with
  | me => simp only [GetRequest.handle, getMe, meQuery_eq hdb hdb' hagree]
  | locations p => simp only [GetRequest.handle, listLocations, listRows_eq hdb hdb' hagree hfixed]
  | location slug => simp only [GetRequest.handle, getLocation, getBySlug, slug_eq hdb hdb' hagree]

theorem create_same (now : Timestamp) (hdb : constraintsOk db) (hdb' : constraintsOk db') {ctx : RequestContext}
    (h : SameForTenant ctx.tenantId db db') {id : Uuid} (hid : id ∉ db.locationIds) (hid' : id ∉ db'.locationIds)
    (p : LocationCreate) :
    SameForTenant ctx.tenantId (createLocation ctx now db id p).2 (createLocation ctx now db' id p).2 ∧
      (createLocation ctx now db id p).1 = (createLocation ctx now db' id p).1 := by
  unfold createLocation
  split
  · rename_i hrole
    have hsame (r : Location) := insertLocation_same now hdb hdb' hrole h hid hid' (p := p) (r := r)
    cases hinsert : insertLocation ctx now db id p with
    | ok r =>
      rw [(hsame r).mp hinsert]
      refine ⟨⟨fun t ht => ?_, fun l hl => ?_⟩, rfl⟩
      · rw [Db.rows_add_ne _ ht, Db.rows_add_ne _ ht, h.rest t ht]
      · change l ∈ db.location ++ [r] ↔ l ∈ db'.location ++ [r]
        rw [List.mem_append, List.mem_append, h.location l hl]
    | error e =>
      cases hinsert' : insertLocation ctx now db' id p with
      | ok r => cases hinsert.symm.trans ((hsame r).mpr hinsert')
      | error e' => exact ⟨h, rfl⟩
  · exact ⟨h, rfl⟩

theorem update_same (now : Timestamp) (hdb : constraintsOk db) (hdb' : constraintsOk db') {ctx : RequestContext}
    (h : SameForTenant ctx.tenantId db db') (slug : String) (p : LocationUpdate) :
    SameForTenant ctx.tenantId (updateLocation ctx now db slug p).2 (updateLocation ctx now db' slug p).2 ∧
      (updateLocation ctx now db slug p).1 = (updateLocation ctx now db' slug p).1 := by
  have hagree : Agree ctx now db db' := h.agree
  have hfound : getBySlug ⟨tenantContext ctx now, db⟩ slug = getBySlug ⟨tenantContext ctx now, db'⟩ slug := by
    unfold getBySlug
    rw [slug_eq hdb hdb' hagree]
  unfold updateLocation
  split
  · rename_i hrole
    split
    · rw [← hfound]
      split
      · exact ⟨h, rfl⟩
      · exact ⟨h, rfl⟩
      · rename_i l hl
        obtain ⟨hl, -⟩ := (getBySlug_eq_some hdb).mp hl
        obtain ⟨hl, ht⟩ := (mem_locations_operator hrole).mp hl
        obtain ⟨e, e', he, he'⟩ | ⟨s, db₁, db₁', hs, hs', hsame⟩ :=
          flushLocation_same now hdb hdb' hrole h hl ht p
        · rw [he, he']
          exact ⟨h, rfl⟩
        · rw [hs, hs']
          exact ⟨hsame, rfl⟩
    · exact ⟨h, rfl⟩
  · exact ⟨h, rfl⟩

theorem shown_same (ser : Serializer) {byName : OrderByName} (hfixed : byName.Fixed) (hdb : constraintsOk db)
    (hdb' : constraintsOk db') (h : SameForTenant a.ctx.tenantId db db') (hid : a.IdIsNew db) (hid' : a.IdIsNew db') :
    SameForTenant a.ctx.tenantId (a.next db) (a.next db') ∧ a.answer ser byName db = a.answer ser byName db' := by
  obtain ⟨ctx, now, req⟩ := a
  cases req with
  | read req ifNoneMatch =>
    exact ⟨h, congrArg ApiAnswer.read (reply_same hfixed hdb hdb' h req ifNoneMatch)⟩
  | create id p =>
    obtain ⟨hnext, hanswer⟩ := create_same now hdb hdb' h (hid id rfl) (hid' id rfl) p
    exact ⟨hnext, congrArg ApiAnswer.write hanswer⟩
  | update slug p =>
    obtain ⟨hnext, hanswer⟩ := update_same now hdb hdb' h slug p
    exact ⟨hnext, congrArg ApiAnswer.write hanswer⟩

/-- A request keeps to the locations of its tenant. -/
structure Arrival.KeepsToTenant (ser : Serializer) (byName : OrderByName) (a : Arrival) (db : Db) : Prop where
  rest : ∀ t, t ≠ .location → (a.next db).rows t = db.rows t
  others : ∀ l : Location, l.tenantId ≠ a.ctx.tenantId → (l ∈ (a.next db).location ↔ l ∈ db.location)
  /-- In a database that differs in the locations of other tenants, it is answered the same and leaves the same. -/
  reads : byName.Fixed → ∀ db', constraintsOk db' → SameForTenant a.ctx.tenantId db db' → a.IdIsNew db → a.IdIsNew db' →
    SameForTenant a.ctx.tenantId (a.next db) (a.next db') ∧ a.answer ser byName db = a.answer ser byName db'

theorem Arrival.keepsToTenant (ser : Serializer) (byName : OrderByName) (a : Arrival) (hdb : constraintsOk db) :
    a.KeepsToTenant ser byName db where
  rest _ ht := a.next_rows hdb ht
  others _ hl := next_hidden hdb (Ne.symm hl) rfl
  reads hfixed _ hdb' h hid hid' := shown_same ser hfixed hdb hdb' h hid hid'

/-- The constraints hold, and the requests to come bring new ids. -/
def Admitted (db : Db) (as : List Arrival) : Prop := constraintsOk db ∧ IdsAreNew db as

theorem api_unwinding (ser : Serializer) {byName : OrderByName} (hfixed : byName.Fixed) :
    (api ser byName).Unwinding Admitted SameForTenant where
  after h := ⟨Arrival.next_constraintsOk h.1 _, h.2.after h.1⟩
  hidden {d s s' a as} h ha hsame := by
    refine ⟨fun t ht => (a.next_rows h.1 ht).trans (hsame.rest t ht), fun l hl => ?_⟩
    exact (next_hidden h.1 ha hl).trans (hsame.location l hl)
  shown {d s s' a as as'} h h' ha hsame := by
    obtain rfl : a.ctx.tenantId = d := ha
    exact shown_same ser hfixed h.1 h'.1 hsame h.2.head h'.2.head

end Step

/-! ## Runs -/

theorem IdsAreNew.purge {ser : Serializer} {byName : OrderByName} {db : Db} {as : List Arrival} (h : IdsAreNew db as)
    (tenantId : Uuid) : IdsAreNew db ((api ser byName).purge tenantId as) := by
  have hsub : (((api ser byName).purge tenantId as).filterMap Arrival.newId?).Sublist (as.filterMap Arrival.newId?) :=
    List.filter_sublist.filterMap _
  exact ⟨h.distinct.sublist hsub, fun id hid => h.unused id (hsub.subset hid)⟩

/-- **Tenants do not interfere.** In every run of requests of any tenants, a tenant's requests are answered as in
the run of its own requests alone, and the tenant's locations end up the same. -/
theorem tenants_do_not_interfere (ser : Serializer) {byName : OrderByName} (hfixed : byName.Fixed) {db : Db}
    (hdb : constraintsOk db) {as : List Arrival} (hids : IdsAreNew db as) (tenantId : Uuid) :
    (api ser byName).seen tenantId db as = (api ser byName).trace db ((api ser byName).purge tenantId as) ∧
      SameForTenant tenantId ((api ser byName).run db as)
        ((api ser byName).run db ((api ser byName).purge tenantId as)) :=
  (api_unwinding ser hfixed).noninterference (.refl tenantId db) ⟨hdb, hids⟩ ⟨hdb, hids.purge tenantId⟩

def otherOperator : RequestContext := { tenantId := 5, actorId := 6, role := "as_admin" }

/-- The clinic and another tenant use the same slugs. -/
def sharedDay : List Arrival :=
  [⟨otherOperator, noon, .create 20 (newLocation "east")⟩, ⟨clinicOperator, noon, .create 21 (newLocation "east")⟩,
    ⟨otherOperator, noon, .update "north" { status := some (some "paused") }⟩,
    ⟨clinicUser, noon, .read (.locations {}) none⟩]

theorem sharedDay_ids : IdsAreNew sharedClinic sharedDay := by
  have hnew : sharedDay.filterMap Arrival.newId? = [20, 21] := rfl
  have hold : sharedClinic.locationIds = [10, 11, 12] := rfl
  constructor
  · rw [hnew]; simp
  · rw [hnew, hold]; simp

theorem sharedDay_isolated :
    (api plainSerializer byNameThenId).seen 1 sharedClinic sharedDay =
        (api plainSerializer byNameThenId).trace sharedClinic ((api plainSerializer byNameThenId).purge 1 sharedDay) ∧
      SameForTenant 1 ((api plainSerializer byNameThenId).run sharedClinic sharedDay)
        ((api plainSerializer byNameThenId).run sharedClinic ((api plainSerializer byNameThenId).purge 1 sharedDay)) :=
  tenants_do_not_interfere plainSerializer byNameThenId_fixed (by decide +kernel) sharedDay_ids 1

end BaptistApi
