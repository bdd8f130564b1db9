import BaptistApi.Lib.Bystanders
import BaptistApi.RoutesAnyTime
import BaptistApi.ServiceTenants

/-!
# Tenants on the routes

Requests of any tenants run beside each other, several of one tenant too, and those of one tenant are answered as if
the others had never sent a statement.
-/

namespace BaptistApi

open BaptistApi.Calendar BaptistApi.FixedPoint BaptistApi.Program BaptistApi.RowSecurity BaptistApi.Transactions

/-! ## A database without the writes of the others -/

structure StandsIn (tenantId : Uuid) (db db' : Db) : Prop where
  same : SameForTenant tenantId db db'
  constraints : constraintsOk db'
  ids : ∀ id ∈ db'.locationIds, id ∈ db.locationIds

section Writes

variable {a : Arrival} {db db' : Db} {x : RouteWrite} {tenantId : Uuid}

theorem locationIds_put (hdb : constraintsOk db) {l : Location} (hl : l ∈ db.location) (s : LocationSet)
    (now : Timestamp) (id : Uuid) : id ∈ (RouteWrite.apply db (.put (s.apply now l))).locationIds ↔ id ∈ db.locationIds := by
  unfold Db.locationIds
  simp only [List.mem_map, mem_put hdb hl]
  constructor
  · rintro ⟨z, rfl | ⟨hz, -⟩, rfl⟩
    · exact ⟨l, hl, rfl⟩
    · exact ⟨z, hz, rfl⟩
  · rintro ⟨z, hz, rfl⟩
    by_cases hid : z.id = l.id
    · exact ⟨s.apply now l, Or.inl rfl, hid.symm⟩
    · exact ⟨z, Or.inr ⟨hz, hid⟩, rfl⟩

theorem StandsIn.ready (hdb : constraintsOk db) (h : StandsIn a.ctx.tenantId db db') (hx : x.Ready a db) :
    x.Ready a db' := by
  have htenants : db.tenant = db'.tenant := h.same.rest .tenant (by decide)
  cases hx with
  | @added r ht hu hr =>
    have hclear := ((uniqueOk_append .location).mp hu).2
    have hid : r.id ∉ db.locationIds := by
      intro hmem
      obtain ⟨l, hl, hid⟩ := List.mem_map.mp hmem
      have hclash : clash .location l r = true := by simp [clash, hid]
      exact Bool.eq_false_iff.mp (hclear l hl) hclash
    refine .added ht ?_ ((rowOk_location_congr htenants r).mp hr)
    rw [uniqueOk_new hdb hid] at hu
    rw [uniqueOk_new h.constraints (fun hmem => hid (h.ids _ hmem))]
    exact fun l hl hl' => hu l ((h.same.location l (hl'.trans ht)).mpr hl) hl'
  | put hl ht hr =>
    exact .put ((h.same.location _ ht).mp hl) ht ((rowOk_location_congr htenants _).mp hr)

theorem StandsIn.shown (hdb : constraintsOk db) (h : StandsIn a.ctx.tenantId db db') (hx : x.Ready a db) :
    StandsIn a.ctx.tenantId (x.apply db) (x.apply db') := by
  have hx' := h.ready hdb hx
  cases hx with
  | @added r =>
    refine ⟨⟨fun t ht => ?_, fun l hl => ?_⟩, hx'.commit h.constraints, fun id hid => ?_⟩
    · change (db.add .location r).rows t = (db'.add .location r).rows t
      rw [Db.rows_add_ne _ ht, Db.rows_add_ne _ ht, h.same.rest t ht]
    · change l ∈ db.location ++ [r] ↔ l ∈ db'.location ++ [r]
      rw [List.mem_append, List.mem_append, h.same.location l hl]
    · change id ∈ (db'.location ++ [r]).map (·.id) at hid
      change id ∈ (db.location ++ [r]).map (·.id)
      rw [List.map_append, List.mem_append] at hid ⊢
      exact hid.imp (h.ids id) fun hr => hr
  | @put l s hl ht =>
    have hl' := (h.same.location l ht).mp hl
    have hsame := h.same.rewritten hdb h.constraints hl hl' fun _ => s.apply a.now l
    refine ⟨hsame, hx'.commit h.constraints, fun id hid => ?_⟩
    rw [locationIds_put h.constraints hl'] at hid
    rw [locationIds_put hdb hl]
    exact h.ids id hid

theorem StandsIn.hidden (hdb : constraintsOk db) (h : StandsIn tenantId db db') (hx : x.Ready a db)
    (ha : a.ctx.tenantId ≠ tenantId) : StandsIn tenantId (x.apply db) db' := by
  cases hx with
  | @added r hr =>
    refine ⟨⟨fun t ht => ?_, fun l hl => ?_⟩, h.constraints, fun id hid => ?_⟩
    · change (db.add .location r).rows t = db'.rows t
      rw [Db.rows_add_ne _ ht, h.same.rest t ht]
    · change l ∈ db.location ++ [r] ↔ _
      rw [List.mem_append, List.mem_singleton, h.same.location l hl, or_iff_left]
      rintro rfl
      exact ha (hr.symm.trans hl)
    · change id ∈ (db.location ++ [r]).map (·.id)
      rw [List.map_append]
      exact List.mem_append_left _ (h.ids id hid)
  | @put l s hmem ht =>
    refine ⟨⟨fun t ht => ?_, fun z hz => ?_⟩, h.constraints, fun id hid => ?_⟩
    · change (db.rewriteLocation l.id fun _ => s.apply a.now l).rows t = db'.rows t
      rw [Db.rewriteLocation, Db.rows_set_ne _ ht, h.same.rest t ht]
    · rw [mem_put hdb hmem, ← h.same.location z hz]
      constructor
      · rintro (rfl | ⟨hl, -⟩)
        · exact absurd (ht.symm.trans hz) ha
        · exact hl
      · refine fun hl => Or.inr ⟨hl, fun hid => ?_⟩
        rw [location_of_id hdb hl hmem hid] at hz
        exact ha (ht.symm.trans hz)
    · rw [locationIds_put hdb hmem]
      exact h.ids id hid

end Writes

/-! ## Statements -/

/-- The id of an INSERT is not in use. -/
def RouteSql.IdIsNew (db : Db) : RouteSql → Prop
  | .insert id _ => id ∉ db.locationIds
  | _ => True

instance idIsNewDecidable (db : Db) : (q : RouteSql) → Decidable (q.IdIsNew db)
  | .insert id _ => inferInstanceAs (Decidable (id ∉ db.locationIds))
  | .meQuery => isTrue trivial
  | .count _ => isTrue trivial
  | .page .. => isTrue trivial
  | .bySlug _ => isTrue trivial
  | .update .. => isTrue trivial

section Statements

variable {ser : Serializer} {byName : OrderByName} {a : Arrival} {db db' : Db}

theorem runRouteSql_same (hfixed : byName.Fixed) (hdb : constraintsOk db) (h : StandsIn a.ctx.tenantId db db')
    {q : RouteSql} (hrefers : q.Refers a db) (hid : q.IdIsNew db) :
    runRouteSql byName a db q = runRouteSql byName a db' q ∨
      (∃ e, runRouteSql byName a db q = .error e) ∧ ∃ e, runRouteSql byName a db' q = .error e := by
  have hdb' := h.constraints
  have hagree : Agree a.ctx a.now db db' := h.same.agree
  cases q with
  | meQuery => exact Or.inl (by simp only [runRouteSql, meQuery_eq hdb hdb' hagree])
  | count p => exact Or.inl (by simp only [runRouteSql, matching_length_same hdb hdb' h.same])
  | page p total => exact Or.inl (by simp only [runRouteSql, listRows_eq hdb hdb' hagree hfixed])
  | bySlug slug => exact Or.inl (by simp only [runRouteSql, slug_eq hdb hdb' hagree])
  | insert id payload =>
    have hsame (r : Location) : insertLocation a.ctx a.now db id payload = .ok r ↔
        insertLocation a.ctx a.now db' id payload = .ok r :=
      insertLocation_same a.now hdb hdb' hrefers h.same hid fun hmem => hid (h.ids id hmem)
    cases hinsert : insertLocation a.ctx a.now db id payload with
    | ok r => exact Or.inl (by simp only [runRouteSql, hinsert, (hsame r).mp hinsert])
    | error e =>
      cases hinsert' : insertLocation a.ctx a.now db' id payload with
      | ok r => cases hinsert.symm.trans ((hsame r).mpr hinsert')
      | error e' =>
        refine Or.inr ⟨⟨e, ?_⟩, e', ?_⟩
        · simp only [runRouteSql, hinsert]
          rfl
        · simp only [runRouteSql, hinsert']
          rfl
  | update l s =>
    obtain ⟨hrole, z, hz, hzid, ht⟩ := hrefers
    have hz' := (h.same.location z ht).mp hz
    exact Or.inl (by rw [runRouteSql_update hdb hrole hz hzid ht, runRouteSql_update hdb' hrole hz' hzid ht])

theorem answer_same (hfixed : byName.Fixed) (hdb : constraintsOk db) {tx : RouteTx}
    (h : StandsIn tx.call.ctx.tenantId db db') (hat : RouteAt ser db tx) {q : RouteSql} {k : RouteReply q → RouteProg}
    (hp : tx.prog = .call q k) (hid : q.IdIsNew db) (e : Unit) :
    tx.answer q k ((service ser byName).exec tx.call e tx.failed ((service ser byName).view db' tx.writes) q) =
      tx.answer q k ((service ser byName).exec tx.call e tx.failed ((service ser byName).view db tx.writes) q) := by
  obtain ⟨hw, hf, herror⟩ := (hat.stage hp).call_cases hp
  have hrefers : q.Refers tx.call db := by
    cases hat with
    | reading _ _ hall => exact hall q (by rw [hp]; rfl)
    | ready v x hx hret => rw [hret] at hp; cases hp
  rw [hw, hf]
  change tx.answer q k ((service ser byName).exec tx.call e false db' q) =
    tx.answer q k ((service ser byName).exec tx.call e false db q)
  rcases runRouteSql_same hfixed hdb h hrefers hid with heq | ⟨⟨e₁, h₁⟩, e₂, h₂⟩
  · simp only [service, heq]
  · simp [service, h₁, h₂, Transactions.Tx.answer, herror]

end Statements

/-! ## Runs -/

/-- `gen_random_uuid()` gives no id that is in use. -/
def LocationIdsNew (w : RouteWorld) : RouteLabel → Prop
  | .exec i _ => ∀ slot ∈ w.slots[i]?, ∀ q ∈ RouteSlot.sql? slot, q.IdIsNew w.db
  | _ => True

instance locationIdsNewDecidable (w : RouteWorld) : (l : RouteLabel) → Decidable (LocationIdsNew w l)
  | .begin _ => isTrue trivial
  | .exec i _ => inferInstanceAs (Decidable (∀ slot ∈ w.slots[i]?, ∀ q ∈ RouteSlot.sql? slot, q.IdIsNew w.db))
  | .lose _ => isTrue trivial
  | .finish _ => isTrue trivial

def arrivalOf (tenantId : Uuid) (a : Arrival) : Bool := a.ctx.tenantId == tenantId

theorem routes_are_bystanders (ser : Serializer) {byName : OrderByName} (hfixed : byName.Fixed) (tenantId : Uuid) :
    (service ser byName).Bystanders (arrivalOf tenantId) (StandsIn tenantId) (RoutesStand ser) LocationIdsNew where
  step _ _ _ hw _ hs := routes_stand_step hw hs
  idle _ _ _ := rfl
  answers w i e tx q k db hw hok hi hp ho hsame := by
    obtain rfl : tx.call.ctx.tenantId = tenantId := by simpa [arrivalOf] using ho
    have hid : q.IdIsNew w.db := hok _ hi q (by simp [RouteSlot.sql?, RouteProg.sql?, hp])
    exact answer_same hfixed hw.db hsame (hw.slot i _ hi) hp hid e
  shown w i tx v db hw hi hp _ ho hsame := by
    obtain rfl : tx.call.ctx.tenantId = tenantId := by simpa [arrivalOf] using ho
    have hat : RouteAt ser w.db tx := hw.slot i _ hi
    cases hat with
    | reading h hwrites =>
      rw [hwrites]
      exact hsame
    | ready v' x hx _ hwrites =>
      rw [hwrites]
      exact hsame.shown hw.db hx
  hidden w i tx v db hw hi hp _ ho hsame := by
    have hne : tx.call.ctx.tenantId ≠ tenantId := by simpa [arrivalOf] using ho
    have hat : RouteAt ser w.db tx := hw.slot i _ hi
    cases hat with
    | reading h hwrites =>
      rw [hwrites]
      exact hsame
    | ready v' x hx _ hwrites =>
      rw [hwrites]
      exact hsame.hidden hw.db hx hne

/-- **No tenant on the routes can tell what the others do**: leave out of any run, in any interleaving and with any
lost connections, every step of the requests of the others. What is left can still happen, each request of the
tenant comes to the same state in it, and is answered the same, and the tenant's locations are the same. -/
theorem route_tenants_apart (ser : Serializer) {byName : OrderByName} (hfixed : byName.Fixed) {db : Db}
    (hdb : constraintsOk db) {ls : List RouteLabel} (hok : (service ser byName).RunsUnder LocationIdsNew { db } ls)
    {w : RouteWorld} (hrun : (service ser byName).run { db } ls = some w) (tenantId : Uuid) :
    ∃ v, (service ser byName).run { db } (hush (arrivalOf tenantId) ls) = some v ∧
      (∀ (i : ℕ) (s : RouteSlot), s.call.ctx.tenantId = tenantId → (v.slots[i]? = some s ↔ w.slots[i]? = some s)) ∧
      SameForTenant tenantId w.db v.db := by
  have hstart : StandsIn tenantId db db := ⟨.refl tenantId db, hdb, fun _ hid => hid⟩
  have hM := routes_are_bystanders ser hfixed tenantId
  obtain ⟨v, hrun', h⟩ := hush_run hM hstart (World.holds_start hdb) hok hrun
  exact ⟨v, hrun', fun i s hs => h.own_slot (by simpa [arrivalOf] using hs), h.rows.same⟩

/-- Both tenants add an `east`. The clinic's comes between the count of its listing and the page, and two of its
operators change it at once. -/
def busyHour : List RouteLabel :=
  [.begin ⟨otherOperator, noon, .update "north" { status := some (some "paused") }⟩,
    .begin ⟨clinicOperator, noon, listing⟩, .begin ⟨clinicOperator, noon, .create 21 (newLocation "east")⟩,
    .begin ⟨otherOperator, noon, .create 20 (newLocation "east")⟩, .exec 0 (), .exec 1 (), .exec 3 (), .exec 2 (),
    .exec 0 (), .finish 3, .finish 0, .finish 2, .exec 1 (), .finish 1,
    .begin ⟨clinicOperator, noon, .update "east" { status := some (some "paused") }⟩,
    .begin ⟨clinicOperator, noon, .update "east" { status := some (some "archived") }⟩, .exec 4 (), .exec 5 (),
    .exec 4 (), .finish 4, .exec 5 (), .finish 5]

theorem busyHour_runs :
    ((service plainSerializer byNameThenId).run { db := sharedClinic } busyHour).isSome = true := by decide +kernel

theorem busyHour_apart :
    let w := ((service plainSerializer byNameThenId).run { db := sharedClinic } busyHour).get busyHour_runs
    ∃ v, (service plainSerializer byNameThenId).run { db := sharedClinic } (hush (arrivalOf 1) busyHour) = some v ∧
      (∀ (i : ℕ) (s : RouteSlot), s.call.ctx.tenantId = 1 → (v.slots[i]? = some s ↔ w.slots[i]? = some s)) ∧
      SameForTenant 1 w.db v.db :=
  route_tenants_apart plainSerializer byNameThenId_fixed (by decide +kernel) (by decide +kernel)
    (Option.some_get busyHour_runs).symm 1

example : ((service plainSerializer byNameThenId).run { db := sharedClinic } (hush (arrivalOf 1) busyHour)).map
    (fun v => v.db.location.map fun l => (l.tenantId, l.slug, l.status)) =
      some [(1, "north", .active), (1, "south", .active), (5, "north", .active), (1, "east", .archived)] := by
  decide +kernel

end BaptistApi
