import BaptistApi.Etags
import BaptistApi.WriteAnswers

/-!
# The API as a machine

Every route behind a tenant context, what it answers, and what it makes of the database. Requests come
one after another, from users of any tenants.
-/

namespace BaptistApi

open BaptistApi.Calendar BaptistApi.FixedPoint BaptistApi.RowSecurity

/-! ## Requests -/

inductive ApiRequest where
  | read (req : GetRequest) (ifNoneMatch : Option String)
  /-- `gen_random_uuid()` gives `id` to the new location. -/
  | create (id : Uuid) (payload : LocationCreate)
  | update (slug : String) (payload : LocationUpdate)

/-- A request that has been authenticated, in a transaction that started at `now`. -/
structure Arrival where
  ctx : RequestContext
  now : Timestamp
  req : ApiRequest

inductive ApiAnswer where
  | read (reply : GetReply)
  | write (r : WriteResponse)

def Arrival.answer (ser : Serializer) (byName : OrderByName) (db : Db) (a : Arrival) : ApiAnswer :=
  match a.req with
  | .read req ifNoneMatch => .read (req.reply ser byName a.ctx a.now db ifNoneMatch)
  | .create id payload => .write (createLocation a.ctx a.now db id payload).1
  | .update slug payload => .write (updateLocation a.ctx a.now db slug payload).1

def Arrival.next (db : Db) (a : Arrival) : Db :=
  match a.req with
  | .read .. => db
  | .create id payload => (createLocation a.ctx a.now db id payload).2
  | .update slug payload => (updateLocation a.ctx a.now db slug payload).2

/-! ## What a request can do to the database -/

/-- The location with this id, rewritten. -/
def Db.rewriteLocation (db : Db) (id : Uuid) (f : Location → Location) : Db :=
  db.set .location (db.location.map fun r => if r.id == id then f r else r)

section Flush

variable {ctx : RequestContext} {now : Timestamp} {db : Db}

theorem after_effect (s : LocationSet) (id : Uuid) :
    db.after .location (s.effect now id db.location) = db.rewriteLocation id (s.apply now) := by
  rw [Db.after, LocationSet.effect, Effect.removed_rewriting, Effect.rows_rewriting, cascade_nil]
  rfl

theorem flushLocation_ok (hdb : constraintsOk db) (h : ctx.role ∈ operatorRoles) {l : Location} (hl : l ∈ db.location)
    (ht : l.tenantId = ctx.tenantId) {p : LocationUpdate} {s : LocationSet} {db' : Db}
    (hflush : flushLocation ctx now db l p = .ok (s, db')) :
    (p.changes l).columns = .ok s ∧
      db' = if p.changes l = {} then db else db.rewriteLocation l.id (s.apply now) := by
  simp only [flushLocation, bind_eq_ok] at hflush
  obtain ⟨s', hs, hflush⟩ := hflush
  split at hflush
  · rename_i hnone
    cases hflush
    exact ⟨hs, (if_pos hnone).symm⟩
  · rename_i hsome
    obtain ⟨e, he, hflush⟩ := bind_eq_ok.mp hflush
    split at hflush
    · cases hflush
      cases (exec_statement hdb h hl ht s).symm.trans (execStatement_ok (mapError_ok.mp he)).1
      exact ⟨hs, (after_effect s l.id).trans (if_neg hsome).symm⟩
    · cases hflush

end Flush

/-- What a request may do to the database: nothing, a new location, or a rewritten one. -/
inductive Arrival.Change (a : Arrival) (db : Db) : Db → Prop where
  | none : Change a db db
  | added {id : Uuid} {p : LocationCreate} {r : Location} (hreq : a.req = .create id p)
      (hrole : a.ctx.role ∈ operatorRoles) (hrow : p.row id a.ctx.tenantId a.now = .ok r)
      (hu : uniqueOk .location (db.location ++ [r])) (hr : rowOk db .location r) : Change a db (db.add .location r)
  | rewritten {slug : String} {p : LocationUpdate} {l : Location} {s : LocationSet} (hreq : a.req = .update slug p)
      (hrole : a.ctx.role ∈ operatorRoles) (hl : l ∈ db.location) (ht : l.tenantId = a.ctx.tenantId)
      (hslug : l.slug = slug) (hs : (p.changes l).columns = .ok s) (hsome : p.changes l ≠ {}) :
      Change a db (db.rewriteLocation l.id (s.apply a.now))

theorem Arrival.next_cases {db : Db} (hdb : constraintsOk db) (a : Arrival) : a.Change db (a.next db) := by
  unfold Arrival.next
  split
  · exact .none
  · rename_i id payload hreq
    unfold createLocation
    split
    · rename_i hrole
      split
      · exact .none
      · rename_i r hr
        obtain ⟨hrow, hu, hok⟩ := (insertLocation_ok hrole).mp hr
        exact .added hreq hrole hrow hu hok
    · exact .none
  · rename_i slug payload hreq
    unfold updateLocation
    split
    · rename_i hrole
      split
      · split
        · exact .none
        · exact .none
        · rename_i l hfound
          obtain ⟨hl, hslug⟩ := (getBySlug_eq_some hdb).mp hfound
          obtain ⟨hl, ht⟩ := (mem_locations_operator hrole).mp hl
          split
          · exact .none
          · rename_i s db' hflush
            obtain ⟨hs, rfl⟩ := flushLocation_ok hdb hrole hl ht hflush
            by_cases hsome : payload.changes l = {}
            · rw [if_pos hsome]
              exact .none
            · rw [if_neg hsome]
              exact .rewritten hreq hrole hl ht hslug hs hsome
      · exact .none
    · exact .none

theorem Arrival.next_constraintsOk {db : Db} (hdb : constraintsOk db) (a : Arrival) : constraintsOk (a.next db) := by
  unfold Arrival.next
  split
  · exact hdb
  · exact serve_constraintsOk hdb (.create _ _)
  · exact serve_constraintsOk hdb (.update _ _)

theorem Db.location_rewriteLocation (db : Db) (id : Uuid) (f : Location → Location) :
    (db.rewriteLocation id f).location = db.location.map fun r => if r.id == id then f r else r := rfl

theorem Arrival.next_rows {db : Db} (hdb : constraintsOk db) (a : Arrival) {t : Relation} (ht : t ≠ .location) :
    (a.next db).rows t = db.rows t := by
  have h := a.next_cases hdb
  generalize a.next db = db' at h
  cases h with
  | none => rfl
  | added => exact Db.rows_add_ne _ ht _
  | rewritten => exact Db.rows_set_ne _ ht _

section Locations

variable {db db' : Db}

theorem mem_rewriteLocation (hdb : constraintsOk db) {l : Location} (hl : l ∈ db.location) (f : Location → Location)
    (x : Location) : x ∈ (db.rewriteLocation l.id f).location ↔ x = f l ∨ x ∈ db.location ∧ x.id ≠ l.id := by
  rw [Db.location_rewriteLocation, List.mem_map]
  constructor
  · rintro ⟨r, hr, rfl⟩
    by_cases hid : r.id = l.id
    · exact Or.inl (by rw [location_of_id hdb hr hl hid]; simp)
    · exact Or.inr (by simp [hid, hr])
  · rintro (rfl | ⟨hx, hid⟩)
    · exact ⟨l, hl, by simp⟩
    · exact ⟨x, hx, by simp [hid]⟩

theorem canReadLocation_congr {ctx : RequestContext} {now : Timestamp} (hm : db.membership = db'.membership)
    (hml : db.membershipLocation = db'.membershipLocation) (loc : Uuid) :
    canReadLocation ⟨tenantContext ctx now, db⟩ loc = canReadLocation ⟨tenantContext ctx now, db'⟩ loc := by
  have hassigned (ml : MembershipLocation) : ml ∈ assignments ⟨tenantContext ctx now, db⟩ ↔
      ml ∈ assignments ⟨tenantContext ctx now, db'⟩ := by
    rw [mem_assignments, mem_assignments, hm, hml]
  cases hrole : (tenantContext ctx now).isOperator with
  | true => simp only [canReadLocation, hrole, if_true]
  | false =>
    rw [Bool.eq_iff_iff, canReadLocation_iff hrole, canReadLocation_iff hrole]
    simp only [hassigned]

theorem uniqueOk_new (hdb : constraintsOk db) {r : Location} (hid : r.id ∉ db.locationIds) :
    uniqueOk .location (db.location ++ [r]) ↔ ∀ l ∈ db.location, l.tenantId = r.tenantId → l.slug ≠ r.slug := by
  rw [uniqueOk_append]
  refine (and_iff_right (hdb .location).1).trans (forall₂_congr fun l hl => ?_)
  have hne : l.id ≠ r.id := fun h => hid (List.mem_map.mpr ⟨l, hl, h⟩)
  simp [clash, hne]

end Locations

/-! ## Ids that are new -/

/-- The id that a request would give to a new location. -/
def Arrival.newId? (a : Arrival) : Option Uuid :=
  match a.req with
  | .create id _ => some id
  | _ => none

/-- `gen_random_uuid()` gives no id twice. -/
structure IdsAreNew (db : Db) (as : List Arrival) : Prop where
  distinct : (as.filterMap Arrival.newId?).Nodup
  unused : ∀ id ∈ as.filterMap Arrival.newId?, id ∉ db.locationIds

theorem Arrival.newId?_create {a : Arrival} {id : Uuid} {p : LocationCreate} (h : a.req = .create id p) :
    a.newId? = some id := by
  simp [Arrival.newId?, h]

theorem Arrival.next_locationIds {db : Db} (hdb : constraintsOk db) (a : Arrival) :
    ∀ id ∈ (a.next db).locationIds, id ∈ db.locationIds ∨ a.newId? = some id := by
  have h := a.next_cases hdb
  generalize a.next db = db' at h
  intro id hid
  cases h with
  | none => exact Or.inl hid
  | @added id' p r hreq hrole hrow =>
    have hr := (LocationCreate.row_cases hrow).2.id
    change id ∈ (db.location ++ [r]).map (·.id) at hid
    rw [List.map_append, List.map_singleton, List.mem_append, List.mem_singleton] at hid
    rcases hid with hid | rfl
    · exact Or.inl hid
    · rw [hr]
      exact Or.inr (newId?_create hreq)
  | rewritten =>
    refine Or.inl ?_
    rw [Db.locationIds, Db.location_rewriteLocation, List.map_map] at hid
    obtain ⟨r, hr, rfl⟩ := List.mem_map.mp hid
    refine List.mem_map.mpr ⟨r, hr, ?_⟩
    simp only [Function.comp_apply]
    split <;> rfl

theorem IdsAreNew.after {db : Db} (hdb : constraintsOk db) {a : Arrival} {as : List Arrival}
    (h : IdsAreNew db (a :: as)) : IdsAreNew (a.next db) as := by
  have hsub : (as.filterMap Arrival.newId?).Sublist ((a :: as).filterMap Arrival.newId?) :=
    (List.sublist_cons_self a as).filterMap _
  refine ⟨h.distinct.sublist hsub, fun id hid hold => ?_⟩
  rcases a.next_locationIds hdb id hold with hold | hnew
  · exact h.unused id (hsub.subset hid) hold
  · have hdistinct := h.distinct
    rw [List.filterMap_cons_some hnew] at hdistinct
    exact (List.nodup_cons.mp hdistinct).1 hid

/-- What the request creates, if anything, gets an id that is not in use. -/
def Arrival.IdIsNew (a : Arrival) (db : Db) : Prop := ∀ id, a.newId? = some id → id ∉ db.locationIds

theorem IdsAreNew.head {db : Db} {a : Arrival} {as : List Arrival} (h : IdsAreNew db (a :: as)) : a.IdIsNew db :=
  fun id hid => h.unused id (List.mem_filterMap.mpr ⟨a, List.mem_cons_self, hid⟩)

end BaptistApi
