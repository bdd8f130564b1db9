import BaptistApi.Isolation
import BaptistApi.Writes

/-!
# Requests without an internal error

What the routes' validation lets through, the table may still refuse. No route catches that, so it
ends in `INTERNAL_ERROR`.
-/

namespace BaptistApi

open BaptistApi.Calendar BaptistApi.FixedPoint BaptistApi.RowSecurity

/-! ## The operator's session -/

section Operator

variable {ctx : RequestContext} {now : Timestamp} {db : Db}

theorem isOperator_of_mem (h : ctx.role ∈ operatorRoles) : (tenantContext ctx now).isOperator = true := by
  have hne : ctx.role ≠ "" := by
    rintro h0
    rw [h0] at h
    exact absurd h (by decide)
  have hrole : (tenantContext ctx now).currentRole = ctx.role := if_neg hne
  rw [Session.isOperator, decide_eq_true_eq, hrole]
  exact h

theorem canReadLocation_operator (h : ctx.role ∈ operatorRoles) (loc : Uuid) :
    canReadLocation ⟨tenantContext ctx now, db⟩ loc = true := by
  have hop : (tenantContext ctx now).isOperator = true := isOperator_of_mem h
  simp only [canReadLocation, hop, if_true]

theorem mem_locations_operator (h : ctx.role ∈ operatorRoles) {l : Location} :
    l ∈ Scope.locations ⟨tenantContext ctx now, db⟩ ↔ l ∈ db.location ∧ l.tenantId = ctx.tenantId := by
  rw [mem_locations]
  simp [canReadLocation_operator h]

theorem tenantIsBound_embed {r : Location} (hr : r.tenantId = ctx.tenantId) :
    tenantIsBound ⟨tenantContext ctx now, db⟩ (Tables.location.embed r) = some true := by
  simp [tenantIsBound, Tables.location, tenantTable, TenantOwned.tenantId, hr, tenantContext,
    Session.currentTenantId]

theorem readable_operator (h : ctx.role ∈ operatorRoles) {r : Location} (hr : r.tenantId = ctx.tenantId) :
    Tables.location.readable .appApi ⟨tenantContext ctx now, db⟩ (Tables.location.embed r) = true := by
  rw [Table.readable, Bool.or_eq_true, Table.passes_iff]
  refine Or.inr ⟨_, List.mem_cons_self, rfl, by simp, _, rfl, ?_⟩
  rw [tenantIsBound_embed hr, canReadLocation_operator h]
  rfl

theorem accept_operator (h : ctx.role ∈ operatorRoles) {r : Location} (hr : r.tenantId = ctx.tenantId)
    {cmd : Command} (hcmd : cmd = .insert ∨ cmd = .update) :
    Tables.location.accept .appApi cmd true ⟨tenantContext ctx now, db⟩ (Tables.location.embed r) = .ok r := by
  have hpasses : Tables.location.passes cmd (·.check) .appApi ⟨tenantContext ctx now, db⟩
      (Tables.location.embed r) = true := by
    rw [Table.passes_iff]
    rcases hcmd with rfl | rfl
    · exact ⟨insertTenant "location_insert_tenant" [.appApi], by simp [Tables.location, tenantTable], rfl,
        by simp [insertTenant], _, rfl, tenantIsBound_embed hr⟩
    · exact ⟨updateTenant "location_update_tenant" [.appApi], by simp [Tables.location, tenantTable], rfl,
        by simp [updateTenant], _, rfl, tenantIsBound_embed hr⟩
  rw [Table.accept, hpasses, readable_operator h hr]
  simp [Tables.location, tenantTable, TenantOwned.tenantId, TenantOwned.withTenant]

theorem reaches_operator (h : ctx.role ∈ operatorRoles) {r : Location} (hr : r.tenantId = ctx.tenantId) :
    Tables.location.reaches .appApi .update true ⟨tenantContext ctx now, db⟩ r = true := by
  have hpasses : Tables.location.passes .update (·.using_) .appApi ⟨tenantContext ctx now, db⟩
      (Tables.location.embed r) = true := by
    rw [Table.passes_iff]
    exact ⟨updateTenant "location_update_tenant" [.appApi], by simp [Tables.location, tenantTable], rfl,
      by simp [updateTenant], _, rfl, tenantIsBound_embed hr⟩
  rw [Table.reaches, hpasses, readable_operator h hr]
  simp

/-! ## INSERT -/

theorem insertLocation_ok (h : ctx.role ∈ operatorRoles) {id : Uuid} {p : LocationCreate} {r : Location} :
    insertLocation ctx now db id p = .ok r ↔
      p.row id ctx.tenantId now = .ok r ∧ uniqueOk .location (db.location ++ [r]) ∧ rowOk db .location r := by
  have hinsert {row : Location} (hrow : p.row id ctx.tenantId now = .ok row) :
      (table .location).insertRow .appApi ⟨tenantContext ctx now, db⟩ true (Tables.location.embed row) = .ok row := by
    have ht : row.tenantId = ctx.tenantId := (LocationCreate.row_cases hrow).2.tenantId
    have hbefore : Tables.location.beforeInsert ⟨tenantContext ctx now, db⟩ (Tables.location.embed row) =
        .ok (Tables.location.embed row) :=
      beforeInsert_tenantTable.mpr ⟨Or.inr (congrArg some ht), by rw [← ht]; rfl⟩
    exact bind_eq_ok.mpr ⟨_, hbefore, accept_operator h ht (Or.inl rfl)⟩
  rw [insertLocation, bind_eq_ok]
  simp only [mapError_ok]
  constructor
  · rintro ⟨row, hrow, hr⟩
    obtain ⟨hr, hu, hc⟩ := (insertInto_iff rfl).mp hr
    cases (hinsert hrow).symm.trans hr
    exact ⟨hrow, hu, hc⟩
  · rintro ⟨hrow, hu, hc⟩
    exact ⟨r, hrow, (insertInto_iff rfl).mpr ⟨hinsert hrow, hu, hc⟩⟩

/-- No constraint stands against the new row. -/
structure LocationCreate.Accepted (p : LocationCreate) (ctx : RequestContext) (db : Db) (id : Uuid) : Prop where
  fits : p.Fits
  tenant : ctx.tenantId ∈ db.tenantIds
  paired : p.lat = none ↔ p.lng = none
  newSlug : ∀ l ∈ db.location, l.tenantId = ctx.tenantId → l.slug ≠ p.slug
  newId : id ∉ db.locationIds

theorem insertLocation_isOk (hdb : constraintsOk db) (h : ctx.role ∈ operatorRoles) {id : Uuid}
    {p : LocationCreate} : (∃ r, insertLocation ctx now db id p = .ok r) ↔ p.Accepted ctx db id := by
  have hclash {r : Location} (hr : p.RowOf id ctx.tenantId r) :
      (∀ l ∈ db.location, clash .location l r = false) ↔
        (∀ l ∈ db.location, l.tenantId = ctx.tenantId → l.slug ≠ p.slug) ∧ id ∉ db.locationIds := by
    simp only [clash, hr.id, hr.tenantId, hr.slug, Bool.or_eq_false_iff, Bool.and_eq_false_iff, beq_eq_false_iff_ne,
      Db.locationIds, List.mem_map]
    constructor
    · intro hall
      refine ⟨fun l hl ht => (hall l hl).2.resolve_left (not_not.mpr ht), ?_⟩
      rintro ⟨l, hl, hid⟩
      exact (hall l hl).1 hid
    · rintro ⟨hslug, hid⟩ l hl
      exact ⟨fun heq => hid ⟨l, hl, heq⟩, or_iff_not_imp_left.mpr fun ht => hslug l hl (not_not.mp ht)⟩
  simp only [insertLocation_ok h]
  constructor
  · rintro ⟨r, hrow, hu, ht, hpaired⟩
    obtain ⟨hfits, hr⟩ := LocationCreate.row_cases hrow
    obtain ⟨hslug, hid⟩ := (hclash hr).mp ((uniqueOk_append .location).mp hu).2
    exact ⟨hfits, hr.tenantId ▸ ht, by rw [← hr.lat, ← hr.lng, hpaired], hslug, hid⟩
  · rintro ⟨hfits, ht, hpaired, hslug, hid⟩
    obtain ⟨r, hrow⟩ := LocationCreate.row_of_fits hfits id ctx.tenantId now
    have hr := (LocationCreate.row_cases hrow).2
    refine ⟨r, hrow, (uniqueOk_append .location).mpr ⟨(hdb .location).1, (hclash hr).mpr ⟨hslug, hid⟩⟩, ?_, ?_⟩
    · exact hr.tenantId.symm ▸ ht
    · rw [hr.lat, hr.lng, hpaired]

/-! ## UPDATE -/

theorem rowOk_set_location {rows : List Location} (h : rows.map (·.id) = db.locationIds) {t : Relation}
    (r : Row t) : rowOk (db.set .location rows) t r ↔ rowOk db t r := by
  have hids : (db.set .location rows).locationIds = db.locationIds := h
  match t, r with
  | .tenant, _ => exact Iff.rfl
  | .userProfile, _ => exact Iff.rfl
  | .membership, _ => exact Iff.rfl
  | .membershipLocation, _ => simp only [rowOk, hids]; exact Iff.rfl
  | .tenantCredential, _ => exact Iff.rfl
  | .location, _ => exact Iff.rfl
  | .locationAlias, _ => simp only [rowOk, hids]; exact Iff.rfl
  | .auditCard, _ => simp only [rowOk, hids]; exact Iff.rfl
  | .costLedger, _ => simp only [rowOk, hids]; exact Iff.rfl
  | .costBudget, _ => exact Iff.rfl
  | .costPreview, _ => simp only [rowOk, hids]; exact Iff.rfl
  | .approval, _ => simp only [rowOk, hids]; exact Iff.rfl

def locationKeys (r : Location) : Uuid × Uuid × String := (r.id, r.tenantId, r.slug)

theorem constraintsOk_rewrite (hdb : constraintsOk db) {f : Location → Location}
    (hf : ∀ r, locationKeys (f r) = locationKeys r) :
    constraintsOk (db.set .location (db.location.map f)) ↔
      ∀ r ∈ db.location, ((f r).lat = none ↔ (f r).lng = none) := by
  have hid (r : Location) : (f r).id = r.id := congrArg Prod.fst (hf r)
  have hrest (r : Location) : (f r).tenantId = r.tenantId ∧ (f r).slug = r.slug :=
    Prod.mk.inj (congrArg Prod.snd (hf r))
  have hids : (db.location.map f).map (·.id) = db.locationIds := by
    simp [Db.locationIds, Function.comp_def, hid]
  constructor
  · intro h r hr
    exact ((h .location).2 (f r) (List.mem_map_of_mem hr)).2
  · intro h t
    by_cases ht : t = .location
    · subst ht
      rw [tableOk, Db.rows_set_self]
      constructor
      · refine List.pairwise_map.mpr ((hdb .location).1.imp fun {r r'} hrr => ?_)
        simpa only [clash, hid, hrest] using hrr
      · intro r' hr'
        obtain ⟨r, hr, rfl⟩ := List.mem_map.mp hr'
        rw [rowOk_set_location hids]
        exact ⟨(hrest r).1 ▸ ((hdb .location).2 r hr).1, h r hr⟩
    · rw [tableOk, Db.rows_set_ne _ ht]
      exact ⟨(hdb t).1, fun r hr => (rowOk_set_location hids r).mpr ((hdb t).2 r hr)⟩

theorem cascade_nil (db : Db) : cascade db .location [] = db := by
  simp [cascade, Db.set]

def LocationSet.effect (s : LocationSet) (now : Timestamp) (id : Uuid) (rows : List Location) : Effect Location :=
  Effect.rewriting (·.id == id) (s.apply now) rows

theorem exec_statement (hdb : constraintsOk db) (h : ctx.role ∈ operatorRoles) {l : Location}
    (hl : l ∈ db.location) (ht : l.tenantId = ctx.tenantId) (s : LocationSet) :
    Tables.location.exec .appApi ⟨tenantContext ctx now, db⟩ db.location (s.statement now l.id).body =
      .ok (s.effect now l.id db.location) := by
  refine Table.exec_update rfl fun r hr => ?_
  unfold Table.updateRow
  by_cases hid : r.id = l.id
  · have hrl : r = l := location_of_id hdb hr hl hid
    subst hrl
    rw [if_pos (reaches_operator h ht)]
    have htrigger : Tables.location.beforeUpdate ⟨tenantContext ctx now, db⟩ r
        (Tables.location.embed (s.apply now r)) = .ok (Tables.location.embed (s.apply now r)) :=
      beforeUpdate_tenantTable rfl
    have ht' : (s.apply now r).tenantId = ctx.tenantId := ht
    have haccept : Tables.location.accept .appApi .update true ⟨tenantContext ctx now, db⟩
        (Tables.location.embed (s.apply now r)) = .ok (s.apply now r) := accept_operator h ht' (Or.inr rfl)
    simp only [if_true, beq_self_eq_true]
    exact bind_eq_ok.mpr ⟨_, htrigger, bind_eq_ok.mpr ⟨_, haccept, rfl⟩⟩
  · simp [hid]

/-- What the supplied values leave in the two columns is both null or neither. -/
def LocationUpdate.Paired (p : LocationUpdate) (l : Location) : Prop :=
  p.lat.getD (l.lat.map Numeric.value) = none ↔ p.lng.getD (l.lng.map Numeric.value) = none

theorem coordinate_null {supplied : Option (Option ℚ)} {stored : Option (Numeric 10 7)}
    {set : Option (Option (Numeric 10 7))}
    (h : ((supplied.filter (· ≠ stored.map Numeric.value)).mapM fun v => v.mapM coordinateColumn) = .ok set) :
    set.getD stored = none ↔ supplied.getD (stored.map Numeric.value) = none := by
  have hunchanged (hnone : (supplied.filter (· ≠ stored.map Numeric.value)) = none) : set = none :=
    (mapM_ok_none h).mpr hnone
  cases supplied with
  | none => simp [hunchanged rfl]
  | some v =>
    by_cases hv : v = stored.map Numeric.value
    · simp [hunchanged (by simp [hv]), hv]
    · have hchanged : (some v).filter (· ≠ stored.map Numeric.value) = some v := by simp [hv]
      rw [hchanged, Option.mapM_some] at h
      cases hcolumn : v.mapM coordinateColumn with
      | error e => simp [hcolumn] at h
      | ok v' =>
        simp only [hcolumn, Except.map_ok, Except.ok.injEq] at h
        simpa [← h] using mapM_ok_none hcolumn

theorem rewritten_effect (hdb : constraintsOk db) {l : Location} (hl : l ∈ db.location) (s : LocationSet)
    (now : Timestamp) : (s.effect now l.id db.location).rewritten = [s.apply now l] := by
  have hfilter : db.location.filter (·.id == l.id) = [l] := by
    have hmem : l ∈ db.location.filter (·.id == l.id) := List.mem_filter.mpr ⟨hl, by simp⟩
    have hle : (db.location.filter (·.id == l.id)).length ≤ 1 :=
      length_le_one_of_key (location_ids_nodup (hdb .location).1) fun a _ b _ ha hb => by
        rw [eq_of_beq ha, eq_of_beq hb]
    obtain ⟨x, hx⟩ := List.length_eq_one_iff.mp (Nat.le_antisymm hle (List.length_pos_of_mem hmem))
    rw [hx] at hmem ⊢
    rw [List.mem_singleton.mp hmem]
  rw [LocationSet.effect, Effect.rewritten_rewriting, hfilter, List.map_singleton]

theorem execStatement_location (hdb : constraintsOk db) (h : ctx.role ∈ operatorRoles) {l : Location}
    (hl : l ∈ db.location) (ht : l.tenantId = ctx.tenantId) (s : LocationSet) :
    (∃ e, execStatement (tenantContext ctx now) db (s.statement now l.id) = .ok e ∧ e.rewritten.length = 1) ↔
      (s.lat.getD l.lat = none ↔ s.lng.getD l.lng = none) := by
  have hone : (s.effect now l.id db.location).rewritten.length = 1 := congrArg List.length (rewritten_effect hdb hl s now)
  have hafter : constraintsOk (db.after .location (s.effect now l.id db.location)) ↔
      (s.lat.getD l.lat = none ↔ s.lng.getD l.lng = none) := by
    have hkeys (r : Location) : locationKeys (if r.id == l.id then s.apply now r else r) = locationKeys r := by
      split <;> rfl
    rw [Db.after, LocationSet.effect, Effect.removed_rewriting, Effect.rows_rewriting, cascade_nil,
      constraintsOk_rewrite hdb hkeys]
    constructor
    · intro hall
      simpa [LocationSet.apply] using hall l hl
    · intro hpaired r hr
      split
      · rename_i hid
        rw [location_of_id hdb hr hl (eq_of_beq hid)]
        exact hpaired
      · exact ((hdb .location).2 r hr).2
  rw [← hafter]
  constructor
  · rintro ⟨e, he, -⟩
    obtain ⟨hrun, hc⟩ := execStatement_ok he
    cases (exec_statement hdb h hl ht s).symm.trans hrun
    exact hc
  · intro hc
    exact ⟨_, bind_eq_ok.mpr ⟨_, exec_statement hdb h hl ht s, if_pos hc⟩, hone⟩

theorem flushLocation_isOk (hdb : constraintsOk db) (h : ctx.role ∈ operatorRoles) {l : Location}
    (hl : l ∈ db.location) (ht : l.tenantId = ctx.tenantId) {p : LocationUpdate} :
    (∃ r, flushLocation ctx now db l p = .ok r) ↔ (p.changes l).Fits ∧ p.Paired l := by
  have hstored : l.lat = none ↔ l.lng = none := ((hdb .location).2 l hl).2
  have hpaired {s : LocationSet} (hs : (p.changes l).columns = .ok s) :
      (s.lat.getD l.lat = none ↔ s.lng.getD l.lng = none) ↔ p.Paired l := by
    simp only [LocationUpdate.columns, bind_eq_ok] at hs
    obtain ⟨_, _, _, _, lat, hlat, lng, hlng, hs⟩ := hs
    cases hs
    rw [coordinate_null hlat, coordinate_null hlng, LocationUpdate.Paired]
  rw [← LocationUpdate.columns_isOk]
  simp only [flushLocation, bind_eq_ok]
  constructor
  · rintro ⟨r, s, hs, hr⟩
    refine ⟨⟨s, hs⟩, (hpaired hs).mp ?_⟩
    split at hr
    · rename_i hnone
      rw [hnone] at hs
      obtain rfl : (⟨none, none, none, none⟩ : LocationSet) = s := Except.ok.inj hs
      exact hstored
    · obtain ⟨e, he, hr⟩ := bind_eq_ok.mp hr
      split at hr
      · rename_i hone
        exact (execStatement_location hdb h hl ht s).mp ⟨e, mapError_ok.mp he, hone⟩
      · cases hr
  · rintro ⟨⟨s, hs⟩, hp⟩
    by_cases hnone : p.changes l = {}
    · exact ⟨_, s, hs, if_pos hnone⟩
    · obtain ⟨e, he, hone⟩ := (execStatement_location hdb h hl ht s).mpr ((hpaired hs).mpr hp)
      exact ⟨_, s, hs, by rw [if_neg hnone]; exact bind_eq_ok.mpr ⟨e, mapError_ok.mpr he, if_pos hone⟩⟩

/-- No constraint stands against the values that the payload supplies for the stored location. -/
structure LocationUpdate.Accepted (p : LocationUpdate) (l : Location) : Prop where
  displayName : ∀ v ∈ p.displayName, v ≠ l.displayName → ∀ s ∈ v, textStorable s = true
  status : ∀ v ∈ p.status, ∃ s ∈ ["active", "onboarding", "paused", "archived"], v = some s
  lat : ∀ v ∈ p.lat, ∀ x ∈ v, inRange x
  lng : ∀ v ∈ p.lng, ∀ x ∈ v, inRange x
  paired : p.Paired l

theorem inRange_value (n : Numeric 10 7) : inRange n.value :=
  Numeric.isSome_store?.mp (by rw [Numeric.store?_of_value]; rfl)

theorem changes_fit {p : LocationUpdate} {l : Location} :
    (p.changes l).Fits ∧ p.Paired l ↔ p.Accepted l := by
  have hcoordinate (o : Option (Option ℚ)) (stored : Option (Numeric 10 7)) :
      (∀ v ∈ o.filter (· ≠ stored.map Numeric.value), ∀ x ∈ v, inRange x) ↔ ∀ v ∈ o, ∀ x ∈ v, inRange x := by
    simp only [Option.mem_filter_iff, decide_eq_true_eq, and_imp]
    refine forall₂_congr fun v _ => ⟨fun h x hx => ?_, fun h _ => h⟩
    by_cases hv : v = stored.map Numeric.value
    · obtain ⟨n, -, rfl⟩ := Option.map_eq_some_iff.mp (hv ▸ hx)
      exact inRange_value n
    · exact h hv x hx
  have hstatus : (∀ v ∈ p.status.filter (· ≠ some l.status.text),
        ∃ s ∈ ["active", "onboarding", "paused", "archived"], v = some s) ↔
      ∀ v ∈ p.status, ∃ s ∈ ["active", "onboarding", "paused", "archived"], v = some s := by
    simp only [Option.mem_filter_iff, decide_eq_true_eq, and_imp]
    refine forall₂_congr fun v _ => ⟨fun h => ?_, fun h _ => h⟩
    by_cases hv : v = some l.status.text
    · exact ⟨l.status.text, by cases l.status <;> decide, hv⟩
    · exact h hv
  constructor
  · rintro ⟨⟨hd, hs, hlat, hlng⟩, hp⟩
    refine ⟨fun v hv hne => hd v ?_, hstatus.mp hs, (hcoordinate _ _).mp hlat, (hcoordinate _ _).mp hlng, hp⟩
    exact Option.mem_filter_iff.mpr ⟨hv, by simpa using hne⟩
  · rintro ⟨hd, hs, hlat, hlng, hp⟩
    refine ⟨⟨fun v hv => ?_, hstatus.mpr hs, (hcoordinate _ _).mpr hlat, (hcoordinate _ _).mpr hlng⟩, hp⟩
    obtain ⟨hv, hne⟩ := Option.mem_filter_iff.mp hv
    exact hd v hv (by simpa using hne)

end Operator

/-! ## The answers -/

/-- A request. To a new location `gen_random_uuid()` gives `id`. -/
inductive LocationRequest where
  | list (p : ListParams) (ifNoneMatch : Option String)
  | create (id : Uuid) (payload : LocationCreate)
  | update (slug : String) (payload : LocationUpdate)

/-- The declared validation of the parameters. A payload carries its own. -/
def LocationRequest.Valid : LocationRequest → Prop
  | list p _ => p.limit ≤ 200 ∧ 0 ≤ p.offset
  | create .. => True
  | update .. => True

def routeStatus (ser : Serializer) (byName : OrderByName) (ctx : RequestContext) (now : Timestamp) (db : Db) :
    LocationRequest → ℕ
  | .list p ifNoneMatch => (listLocations ser byName ctx ⟨tenantContext ctx now, db⟩ p ifNoneMatch).status
  | .create id payload => (createLocation ctx now db id payload).1.status
  | .update slug payload => (updateLocation ctx now db slug payload).1.status

/-- A 2xx, a 304 or a 4xx. -/
def Answered (status : ℕ) : Prop :=
  200 ≤ status ∧ status < 300 ∨ status = 304 ∨ 400 ≤ status ∧ status < 500

structure ListParams.Accepted (p : ListParams) : Prop where
  limit : 0 ≤ p.limit
  offset : p.offset < 2 ^ 63
  fleet : ∀ f ∈ p.fleet, f ∈ ["hospital", "clinic"]
  status : ∀ s ∈ p.status, textStorable s = true
  q : ∀ s ∈ p.q, textStorable s = true

/-- The database takes what the request sends. -/
def LocationRequest.Accepted (ctx : RequestContext) (db : Db) : LocationRequest → Prop
  | list p _ => p.Accepted
  | create id payload => payload.Accepted ctx db id
  | update slug payload => textStorable slug = true ∧
    ∀ l ∈ db.location, l.tenantId = ctx.tenantId → l.slug = slug → payload.Accepted l

section Answers

variable {ctx : RequestContext} {now : Timestamp} {db : Db}

theorem answered_respond {D : Type} (ifNoneMatch : Option String) (data : D) (page : Option PageInfo)
    (etag : String) : Answered (respond ifNoneMatch data page etag).status := by
  unfold respond
  split
  · simp [Response.status, Answered]
  · simp [Response.status, Answered]

theorem not_answered_internalError : ¬ Answered (problemDefinitions .internalError).status := by
  simp [Answered, problemDefinitions]

theorem answered_list (ser : Serializer) (byName : OrderByName) {sc : Scope} {p : ListParams}
    (ifNoneMatch : Option String) (hvalid : p.limit ≤ 200 ∧ 0 ≤ p.offset) :
    Answered (listLocations ser byName ctx sc p ifNoneMatch).status ↔ p.Accepted := by
  have hin : ¬ (200 < p.limit ∨ p.offset < 0) := by omega
  have haccepted : p.Accepted ↔
      (∀ f ∈ p.fleet, ∃ k, FleetKind.ofText? f = some k) ∧ 0 ≤ p.limit ∧ p.bindable = true := by
    simp only [isSome_fleetKind, bindable_iff]
    constructor
    · rintro ⟨hlimit, hoffset, hfleet, hstatus, hq⟩
      exact ⟨hfleet, hlimit, hstatus, hq, hoffset⟩
    · rintro ⟨hfleet, hlimit, hstatus, hq, hoffset⟩
      exact ⟨hlimit, hoffset, hfleet, hstatus, hq⟩
  rw [haccepted, listLocations, if_neg hin]
  split
  · rename_i hfleet
    obtain ⟨f, hf, hnone⟩ := Option.map_eq_some_iff.mp hfleet
    refine iff_of_false not_answered_internalError fun hok => ?_
    obtain ⟨k, hk⟩ := hok.1 f hf
    rw [hnone] at hk
    cases hk
  · rename_i fleet hfleet
    have hknown : ∀ f ∈ p.fleet, ∃ k, FleetKind.ofText? f = some k := by
      intro f hf
      rw [Option.mem_def.mp hf, Option.map_some] at hfleet
      exact Option.ne_none_iff_exists'.mp fun hnone => hfleet (congrArg some hnone)
    split
    · rename_i hrows
      refine iff_of_false not_answered_internalError fun hok => ?_
      have hsome : (listRows byName sc (p.fleet.map FleetKind.ofText?).join p).isSome = true :=
        isSome_listRows.mpr hok.2
      rw [hrows] at hsome
      cases hsome
    · rename_i rows total hrows
      have hsome : (listRows byName sc (p.fleet.map FleetKind.ofText?).join p).isSome = true := by
        rw [hrows]
        rfl
      exact iff_of_true (answered_respond _ _ _ _) ⟨hknown, isSome_listRows.mp hsome⟩

theorem answered_create (hdb : constraintsOk db) (h : ctx.role ∈ operatorRoles) {id : Uuid} {p : LocationCreate} :
    Answered (createLocation ctx now db id p).1.status ↔ p.Accepted ctx db id := by
  rw [← @insertLocation_isOk ctx now db hdb h, createLocation, if_pos h]
  cases insertLocation ctx now db id p with
  | error e => exact iff_of_false not_answered_internalError (by simp)
  | ok r => simp [WriteResponse.status, Answered]

theorem answered_update (hdb : constraintsOk db) (h : ctx.role ∈ operatorRoles) {slug : String}
    {p : LocationUpdate} :
    Answered (updateLocation ctx now db slug p).1.status ↔ textStorable slug = true ∧
      ∀ l ∈ db.location, l.tenantId = ctx.tenantId → l.slug = slug → p.Accepted l := by
  have hfound {l : Location} : l ∈ (Scope.locations ⟨tenantContext ctx now, db⟩).filter (fun l => l.slug == slug) ↔
      l ∈ db.location ∧ l.tenantId = ctx.tenantId ∧ l.slug = slug := by
    rw [List.mem_filter, mem_locations_operator h, beq_iff_eq, and_assoc]
  have hunique : LookupsAreUnique ctx ⟨tenantContext ctx now, db⟩ := lookups_unique hdb
  obtain ⟨o, ho⟩ := hunique.location slug
  rw [updateLocation, if_pos h]
  by_cases hslug : textStorable slug = true
  · rw [if_pos hslug, ho]
    simp only [hslug, true_and]
    cases o with
    | none =>
      refine iff_of_true (by simp [WriteResponse.status, Answered, problemDefinitions]) fun l hl ht hs => ?_
      have hmem := hfound.mpr ⟨hl, ht, hs⟩
      rw [oneOrNone_eq_none.mp ho] at hmem
      cases hmem
    | some l =>
      have hone := oneOrNone_eq_some.mp ho
      obtain ⟨hl, ht, hs⟩ := hfound.mp (hone ▸ List.mem_singleton_self l)
      have honly : (∀ l' ∈ db.location, l'.tenantId = ctx.tenantId → l'.slug = slug → p.Accepted l') ↔
          p.Accepted l := by
        refine ⟨fun hall => hall l hl ht hs, fun hl l' hl' ht' hs' => ?_⟩
        have hmem := hfound.mpr ⟨hl', ht', hs'⟩
        rw [hone] at hmem
        rwa [List.mem_singleton.mp hmem]
      rw [honly, ← changes_fit, ← @flushLocation_isOk ctx now db hdb h l hl ht]
      cases hflush : flushLocation ctx now db l p with
      | error e =>
        simp only [hflush]
        exact iff_of_false not_answered_internalError (by simp)
      | ok r =>
        simp only [hflush]
        exact iff_of_true (by simp [WriteResponse.status, Answered]) ⟨r, rfl⟩
  · rw [if_neg hslug]
    exact iff_of_false not_answered_internalError fun hok => hslug hok.1

/-- **Which requests are answered.** A request of an operator that passes the declared validation gets
a 2xx, a 304 or a 4xx exactly when the database takes what it sends. -/
theorem answered_iff_accepted (ser : Serializer) (byName : OrderByName) (now : Timestamp)
    (hdb : constraintsOk db) (h : ctx.role ∈ operatorRoles) {req : LocationRequest} (hvalid : req.Valid) :
    Answered (routeStatus ser byName ctx now db req) ↔ req.Accepted ctx db := by
  cases req with
  | list p ifNoneMatch => exact answered_list ser byName ifNoneMatch hvalid
  | create id payload => exact answered_create hdb h
  | update slug payload => exact answered_update hdb h

/-! ### Runs of requests -/

/-- The database after a request. -/
def serve (ctx : RequestContext) (now : Timestamp) (db : Db) : LocationRequest → Db
  | .list .. => db
  | .create id payload => (createLocation ctx now db id payload).2
  | .update slug payload => (updateLocation ctx now db slug payload).2

theorem flushLocation_constraintsOk (hdb : constraintsOk db) {l : Location} {p : LocationUpdate}
    {r : LocationSet × Db} (hr : flushLocation ctx now db l p = .ok r) : constraintsOk r.2 := by
  simp only [flushLocation, bind_eq_ok] at hr
  obtain ⟨s, -, hr⟩ := hr
  split at hr
  · cases hr
    exact hdb
  · obtain ⟨e, he, hr⟩ := bind_eq_ok.mp hr
    split at hr
    · cases hr
      exact (execStatement_ok (mapError_ok.mp he)).2
    · cases hr

theorem serve_constraintsOk (hdb : constraintsOk db) (req : LocationRequest) :
    constraintsOk (serve ctx now db req) := by
  cases req with
  | list p ifNoneMatch => exact hdb
  | create id payload =>
    simp only [serve, createLocation]
    split
    · rename_i h
      split
      · exact hdb
      · rename_i l hl
        obtain ⟨-, hu, hr⟩ := (insertLocation_ok h).mp hl
        exact constraintsOk_add hdb hu hr
    · exact hdb
  | update slug payload =>
    simp only [serve, updateLocation]
    split
    · split
      · split
        · exact hdb
        · exact hdb
        · split
          · exact hdb
          · rename_i s db' hflush
            exact flushLocation_constraintsOk hdb hflush
      · exact hdb
    · exact hdb

theorem served_constraintsOk (hdb : constraintsOk db) (reqs : List (RequestContext × Timestamp × LocationRequest)) :
    constraintsOk (reqs.foldl (fun db q => serve q.1 q.2.1 db q.2.2) db) := by
  induction reqs generalizing db with
  | nil => exact hdb
  | cons q reqs ih => exact ih (serve_constraintsOk hdb q.2.2)

end Answers

/-! ### Requests that the clinic's database refuses -/

def clinicOperator : RequestContext := { tenantId := 1, actorId := 2, role := "as_staff" }

def plainSerializer : Serializer := ⟨id, fun _ => "", fun _ _ => "", fun _ => ""⟩

def newLocation (slug : String) : LocationCreate where
  slug := slug
  name := "Test Facility"
  listingType := "facility"
  facilityType := "hospital"
  address := "1 Test Way"
  city := "Memphis"
  state := "TN"
  zip := "38103"
  source := .computed
  stateLength := by decide

theorem answered_iff_accepted_clinic :
    Answered (routeStatus plainSerializer byNameThenId clinicOperator noon (clinic .active)
        (.update "north" { status := some (some "paused") })) ↔
      LocationRequest.Accepted clinicOperator (clinic .active)
        (.update "north" { status := some (some "paused") }) :=
  answered_iff_accepted _ _ _ (by decide +kernel) (by decide) trivial

/-- A negative limit, a slug that is taken, and a null status. -/
theorem valid_requests_fail :
    constraintsOk (clinic .active) ∧ clinicOperator.role ∈ operatorRoles ∧
      ∀ req ∈ [.list { limit := -1 } none, .create 12 (newLocation "north"), .update "north" { status := some none }],
        req.Valid ∧ routeStatus plainSerializer byNameThenId clinicOperator noon (clinic .active) req = 500 := by
  refine ⟨by decide +kernel, by decide, ?_⟩
  simp only [List.mem_cons, List.not_mem_nil, or_false, forall_eq_or_imp, forall_eq]
  exact ⟨⟨⟨by decide, by decide⟩, by decide +kernel⟩, ⟨trivial, by decide +kernel⟩, trivial, by decide +kernel⟩

end BaptistApi
