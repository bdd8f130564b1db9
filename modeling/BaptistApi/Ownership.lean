import BaptistApi.Audit

/-!
# Whose rows a tenant touches

Every statement of `app_api` and `app_worker` touches only rows of the tenant that its transaction
is bound to, and no row ever moves to another tenant.
-/

namespace BaptistApi

open BaptistApi.RowSecurity

/-! ## One statement -/

/-- The row is the bound tenant's. Nothing in `tenant` and `user_profile` is. -/
def ownedByBound (sc : Scope) : (t : Relation) → Draft t → Prop
  | .tenant, _ => False
  | .userProfile, _ => False
  | .membership, d => tenantIsBound sc d = some true
  | .membershipLocation, r => membershipIsBound sc r = some true
  | .tenantCredential, d => tenantIsBound sc d = some true
  | .location, d => tenantIsBound sc d = some true
  | .locationAlias, d => tenantIsBound sc d = some true
  | .auditCard, d => tenantIsBound sc d = some true
  | .costLedger, d => tenantIsBound sc d = some true
  | .costBudget, d => tenantIsBound sc d = some true
  | .costPreview, d => tenantIsBound sc d = some true
  | .approval, d => tenantIsBound sc d = some true

section Guards

variable {α : Type}

/-- Every clause that a write must pass asks for the bound tenant. -/
def writesAskForTenant (policies : List (Policy DbRole Scope (TenantDraft α))) : Prop :=
  ∀ p ∈ policies, p.command ≠ .select →
    (∀ f, p.using_ = some f → f = tenantIsBound) ∧ (∀ f, p.check = some f → f = tenantIsBound)

theorem bound_of_passes {tbl : Table DbRole Scope (TenantDraft α) α SqlError} {cmd : Command}
    {clause : Policy DbRole Scope (TenantDraft α) → Option (Scope → TenantDraft α → Truth)}
    (hclause : ∀ p ∈ tbl.policies, p.command = cmd → ∀ f, clause p = some f → f = tenantIsBound)
    {role : DbRole} {sc : Scope} {d : TenantDraft α} (h : tbl.passes cmd clause role sc d = true) :
    tenantIsBound sc d = some true := by
  obtain ⟨p, hmem, hc, -, f, hcl, hf⟩ := tbl.passes_iff.mp h
  rwa [hclause p hmem hc f hcl] at hf

theorem tenantTable_guarded [TenantOwned α] {t : Relation} {role : DbRole}
    {tbl : Table DbRole Scope (TenantDraft α) α SqlError} (hrole : role ≠ .appMigrator)
    (hbypass : tbl.bypass = bypasses) (hcomplete : tbl.complete = (tenantTable t tbl.policies).complete)
    (hembed : tbl.embed = (tenantTable t tbl.policies).embed) (hp : writesAskForTenant tbl.policies) :
    tbl.Guarded role fun sc d => tenantIsBound sc d = some true := by
  refine ⟨by simp [hbypass, bypasses, hrole], ?_, ?_, ?_, ?_, ?_⟩
  · exact fun sc d h => bound_of_passes (fun p hm hc => (hp p hm (by simp [hc])).2) h
  · exact fun sc d h => bound_of_passes (fun p hm hc => (hp p hm (by simp [hc])).1) h
  · exact fun sc d h => bound_of_passes (fun p hm hc => (hp p hm (by simp [hc])).2) h
  · exact fun sc d h => bound_of_passes (fun p hm hc => (hp p hm (by simp [hc])).1) h
  · intro sc d r h hd
    simp only [hcomplete, tenantTable] at h
    split at h
    · rename_i u hu
      cases h
      rw [hembed]
      simp only [tenantIsBound, tenantTable, TenantOwned.tenantId_withTenant, ← hu] at hd ⊢
      exact hd
    · simp at h

theorem plainTable_guarded {β : Type} {t : Relation} {role : DbRole}
    {policies : List (Policy DbRole Scope β)} (hrole : role ≠ .appMigrator)
    (hp : ∀ p ∈ policies, p.command = .select) :
    (plainTable t policies).Guarded role fun _ _ => False := by
  have hno {cmd : Command} (hcmd : cmd ≠ .select)
      {clause : Policy DbRole Scope β → Option (Scope → β → Truth)} (sc : Scope) (d : β)
      (h : (plainTable t policies).passes cmd clause role sc d = true) : False := by
    obtain ⟨p, hmem, hc, -⟩ := (plainTable t policies).passes_iff.mp h
    exact hcmd (hc.symm.trans (hp p hmem))
  exact ⟨by simp [plainTable, bypasses, hrole], hno (by simp), hno (by simp), hno (by simp), hno (by simp),
    fun _ _ _ _ h => h⟩

theorem membershipIsBound_of_passes {cmd : Command} {role : DbRole} {sc : Scope} {r : MembershipLocation}
    {clause : Policy DbRole Scope MembershipLocation → Option (Scope → MembershipLocation → Truth)}
    (hclause : ∀ p ∈ Tables.membershipLocation.policies, ∀ f, clause p = some f → f = membershipIsBound)
    (h : Tables.membershipLocation.passes cmd clause role sc r = true) : membershipIsBound sc r = some true := by
  obtain ⟨p, hmem, -, -, f, hcl, hf⟩ := Tables.membershipLocation.passes_iff.mp h
  rwa [hclause p hmem f hcl] at hf

theorem membershipLocation_using :
    ∀ p ∈ Tables.membershipLocation.policies, ∀ f, p.using_ = some f → f = membershipIsBound := by
  simp [Tables.membershipLocation, plainTable]

theorem membershipLocation_guarded {role : DbRole} (hrole : role ≠ .appMigrator) :
    Tables.membershipLocation.Guarded role fun sc r => membershipIsBound sc r = some true := by
  have hcheck : ∀ p ∈ Tables.membershipLocation.policies, ∀ f, p.check = some f → f = membershipIsBound := by
    simp [Tables.membershipLocation, plainTable]
  refine ⟨by simp [Tables.membershipLocation, plainTable, bypasses, hrole],
    fun _ _ => membershipIsBound_of_passes hcheck,
    fun _ _ => membershipIsBound_of_passes membershipLocation_using,
    fun _ _ => membershipIsBound_of_passes hcheck,
    fun _ _ => membershipIsBound_of_passes membershipLocation_using, ?_⟩
  intro sc d r h hd
  cases h
  exact hd

/-- The three layers together, table by table. -/
theorem table_guarded (t : Relation) {role : DbRole} (hrole : role ≠ .appMigrator) :
    (table t).Guarded role fun sc d => ownedByBound sc t d := by
  cases t with
  | tenant => exact plainTable_guarded hrole (by simp)
  | userProfile => exact plainTable_guarded hrole (by simp)
  | membershipLocation => exact membershipLocation_guarded hrole
  | auditCard =>
    refine @tenantTable_guarded _ _ .auditCard _ _ hrole rfl rfl rfl ?_
    simp [writesAskForTenant, table, Tables.auditCard, tenantTable, selectTenant, insertTenant]
  | _ =>
    refine tenantTable_guarded hrole rfl rfl rfl ?_
    simp [writesAskForTenant, table, Tables.membership, Tables.tenantCredential, Tables.location,
      Tables.locationAlias, Tables.costLedger, Tables.costBudget, Tables.costPreview, Tables.approval,
      tenantTable, selectTenant, insertTenant, updateTenant, deleteTenant]

end Guards

/-! ## Runs -/

/-- One statement of a transaction that commits, or a call of `audit.write_card`. -/
inductive Event where
  | statement (s : Session) (st : Stmt)
  | writeCard (s : Session) (c : CardRequest) (id : ℤ)

namespace Event

def session : Event → Session
  | statement s _ => s
  | writeCard s _ _ => s

def relation : Event → Relation
  | statement _ st => st.table
  | writeCard _ _ _ => .auditCard

def effect (db : Db) : (ev : Event) → Except SqlError (Effect (Row ev.relation))
  | statement s st => execStatement s db st
  | writeCard s c id => do
    let card ← BaptistApi.writeCard s db c id
    .ok { fates := db.auditCard.map fun r => (r, .kept), added := [card] }

/-- A statement that fails changes nothing. -/
def apply (db : Db) (ev : Event) : Db :=
  match ev.effect db with
  | .ok e => db.after ev.relation e
  | .error _ => db

def run (db : Db) (evs : List Event) : Db := evs.foldl apply db

theorem run_append (db : Db) (evs evs' : List Event) :
    run db (evs ++ evs') = run (run db evs) evs' := List.foldl_append

end Event

/-- The tenant of a row, which an assignment takes from its membership. -/
def belongsTo (db : Db) : (t : Relation) → Row t → Uuid → Prop
  | .tenant, _, _ => False
  | .userProfile, _, _ => False
  | .membership, r, tenantId => r.tenantId = tenantId
  | .membershipLocation, r, tenantId =>
    ∃ m ∈ db.membership, m.id = r.membershipId ∧ m.tenantId = tenantId
  | .tenantCredential, r, tenantId => r.tenantId = tenantId
  | .location, r, tenantId => r.tenantId = tenantId
  | .locationAlias, r, tenantId => r.tenantId = tenantId
  | .auditCard, r, tenantId => r.tenantId = tenantId
  | .costLedger, r, tenantId => r.tenantId = tenantId
  | .costBudget, r, tenantId => r.tenantId = tenantId
  | .costPreview, r, tenantId => r.tenantId = tenantId
  | .approval, r, tenantId => r.tenantId = tenantId

/-- The row belongs to the tenant the session is bound to. -/
def inBoundTenant (s : Session) (db : Db) (t : Relation) (r : Row t) : Prop :=
  ∃ tenantId, s.currentTenantId = some tenantId ∧ belongsTo db t r tenantId

theorem inBoundTenant_of_owned {s : Session} {db : Db} {t : Relation} {r : Row t}
    (h : ownedByBound ⟨s, db⟩ t ((table t).embed r)) : inBoundTenant s db t r := by
  cases t with
  | tenant => exact h.elim
  | userProfile => exact h.elim
  | membershipLocation =>
    simp only [ownedByBound, membershipIsBound, Option.some.injEq, List.any_eq_true, Bool.and_eq_true,
      beq_iff_eq, sqlEq_true] at h
    obtain ⟨m, hm, hid, -, ht⟩ := h
    have hmem : m ∈ db.membership := ((Table.mem_visible _).mp hm).2.1
    exact ⟨m.tenantId, ht.symm, m, hmem, hid, rfl⟩
  | _ => exact ⟨_, (sqlEq_true.mp h).2.symm, rfl⟩

theorem effect_within {db : Db} {ev : Event} (hrole : ev.session.currentUser ≠ .appMigrator)
    {e : Effect (Row ev.relation)} (h : ev.effect db = .ok e) :
    e.Within fun r => inBoundTenant ev.session db ev.relation r := by
  cases ev with
  | statement s st =>
    have hw := (table_guarded st.table hrole).exec_within (execStatement_ok h).1
    exact ⟨fun r r' hm => ⟨inBoundTenant_of_owned (hw.updated r r' hm).1,
      inBoundTenant_of_owned (hw.updated r r' hm).2⟩, fun r hm => inBoundTenant_of_owned (hw.deleted r hm),
      fun r hm => inBoundTenant_of_owned (hw.added r hm)⟩
  | writeCard s c id =>
    obtain ⟨card, hc, hk⟩ := bind_eq_ok.mp h
    cases hk
    obtain ⟨-, -, -, -, ht, -⟩ := writeCard_ok hc
    refine ⟨fun r r' hm => ?_, fun r hm => ?_, fun r hm => ?_⟩
    · obtain ⟨_, -, hx⟩ := List.mem_map.mp hm
      simp at hx
    · obtain ⟨_, -, hx⟩ := List.mem_map.mp hm
      simp at hx
    · rw [List.mem_singleton.mp hm]
      exact ⟨card.tenantId, ht.symm, rfl⟩

theorem effect_olds {db : Db} {ev : Event} {e : Effect (Row ev.relation)} (h : ev.effect db = .ok e) :
    e.olds = db.rows ev.relation := by
  cases ev with
  | statement s st => exact Table.exec_olds (execStatement_ok h).1
  | writeCard s c id =>
    obtain ⟨card, -, hk⟩ := bind_eq_ok.mp h
    cases hk
    simp [Effect.olds, Db.rows, Event.relation, Function.comp_def]

theorem after_card (db : Db) (card : AuditCard) :
    db.after .auditCard { fates := db.auditCard.map fun r => (r, .kept), added := [card] } =
      db.add .auditCard card := by
  simp [Db.after, cascade, Db.add, Effect.rows, Effect.after, Db.rows, List.filterMap_map, Function.comp_def]

theorem apply_constraintsOk {db : Db} (hdb : constraintsOk db) (ev : Event) :
    constraintsOk (ev.apply db) := by
  unfold Event.apply
  split
  · rename_i e h
    cases ev with
    | statement s st => exact (execStatement_ok h).2
    | writeCard s c id =>
      obtain ⟨card, hc, hk⟩ := bind_eq_ok.mp h
      cases hk
      obtain ⟨-, -, -, -, -, -, -, -, -, -, hok⟩ := writeCard_ok hc
      exact (congrArg constraintsOk (after_card db card)).mpr
        (constraintsOk_add hdb (List.pairwise_of_forall fun _ _ => rfl) hok)
  · exact hdb

theorem run_constraintsOk {db : Db} (hdb : constraintsOk db) (evs : List Event) :
    constraintsOk (Event.run db evs) := by
  induction evs generalizing db with
  | nil => exact hdb
  | cons ev evs ih => exact ih (apply_constraintsOk hdb ev)

theorem apply_unbound {db : Db} {ev : Event} (hrole : ev.session.currentUser ≠ .appMigrator)
    (hnone : ev.session.currentTenantId = none) : ev.apply db = db := by
  unfold Event.apply
  split
  · rename_i e h
    have hno : e.Within fun _ => False := by
      have hw := effect_within hrole h
      have hfalse (r : Row ev.relation) (hr : inBoundTenant ev.session db ev.relation r) : False := by
        obtain ⟨tenantId, hb, -⟩ := hr
        rw [hnone] at hb
        simp at hb
      exact ⟨fun r r' hm => (hfalse r (hw.updated r r' hm).1).elim,
        fun r hm => hfalse r (hw.deleted r hm), fun r hm => hfalse r (hw.added r hm)⟩
    obtain ⟨hrows, hremoved⟩ := hno.untouched
    rw [effect_olds h] at hrows
    unfold Db.after
    rw [hrows, hremoved]
    cases ev.relation <;> simp [Db.set, Db.rows, cascade]
  · rfl

/-! ## Rows over a run -/

/-- The row `r` of table `t` is there after the event, as `r'`. -/
inductive Becomes (db : Db) (ev : Event) : (t : Relation) → Row t → Row t → Prop where
  | failed {t : Relation} {r : Row t} {x : SqlError} (h : ev.effect db = .error x) (hr : r ∈ db.rows t) :
      Becomes db ev t r r
  | kept {e : Effect (Row ev.relation)} {r : Row ev.relation} (h : ev.effect db = .ok e)
      (hr : (r, .kept) ∈ e.fates) : Becomes db ev ev.relation r r
  | updated {e : Effect (Row ev.relation)} {r r' : Row ev.relation} (h : ev.effect db = .ok e)
      (hr : (r, .updated r') ∈ e.fates) : Becomes db ev ev.relation r r'
  | elsewhere {t : Relation} {r : Row t} {e : Effect (Row ev.relation)} (h : ev.effect db = .ok e)
      (ht : t ≠ ev.relation) (hr : r ∈ (ev.apply db).rows t) : Becomes db ev t r r

inductive Lineage (t : Relation) : Db → List Event → Row t → Row t → Prop where
  | nil (db : Db) (r : Row t) : Lineage t db [] r r
  | cons {db : Db} {ev : Event} {evs : List Event} {r r' r'' : Row t} (h : Becomes db ev t r r')
      (hrest : Lineage t (ev.apply db) evs r' r'') : Lineage t db (ev :: evs) r r''

theorem after_rows (db : Db) {t : Relation} (e : Effect (Row t)) : (db.after t e).rows t = e.rows := by
  cases t <;> simp [Db.after, cascade, Db.set, Db.rows]

theorem cascade_rows (db : Db) (t : Relation) (removed : List (Row t)) (u : Relation) :
    ∀ r ∈ (cascade db t removed).rows u, r ∈ db.rows u := by
  intro r hr
  cases t with
  | membership =>
    by_cases hu : u = .membershipLocation
    · subst hu
      exact List.mem_of_mem_filter hr
    · rwa [cascade, Db.rows_set_ne _ hu] at hr
  | location =>
    by_cases hu : u = .locationAlias
    · subst hu
      exact List.mem_of_mem_filter hr
    · rw [cascade, Db.rows_set_ne _ hu] at hr
      by_cases hu' : u = .membershipLocation
      · subst hu'
        exact List.mem_of_mem_filter hr
      · rwa [Db.rows_set_ne _ hu'] at hr
  | _ => exact hr

theorem after_rows_ne (db : Db) {t u : Relation} (hu : u ≠ t) (e : Effect (Row t)) :
    ∀ r ∈ (db.after t e).rows u, r ∈ db.rows u := by
  intro r hr
  have hset := cascade_rows (db.set t e.rows) t e.removed u r hr
  rwa [Db.rows_set_ne _ hu] at hset

theorem apply_ok {db : Db} {ev : Event} {e : Effect (Row ev.relation)} (h : ev.effect db = .ok e) :
    ev.apply db = db.after ev.relation e := by
  unfold Event.apply; rw [h]

theorem apply_error {db : Db} {ev : Event} {x : SqlError} (h : ev.effect db = .error x) :
    ev.apply db = db := by
  unfold Event.apply; rw [h]

theorem becomes_mem {db : Db} {ev : Event} {t : Relation} {r r' : Row t} (h : Becomes db ev t r r') :
    r' ∈ (ev.apply db).rows t := by
  cases h with
  | failed h hr => rw [apply_error h]; exact hr
  | kept h hr => rw [apply_ok h, after_rows]; exact Effect.mem_rows.mpr (Or.inl hr)
  | updated h hr => rw [apply_ok h, after_rows]; exact Effect.mem_rows.mpr (Or.inr (Or.inl ⟨_, hr⟩))
  | elsewhere h ht hr => exact hr

theorem membership_ids_nodup {rows : List Membership} (h : uniqueOk .membership rows) :
    (rows.map (·.id)).Nodup :=
  nodup_of_uniqueOk h fun r s heq => by simp [clash, heq]

/-- Each row has a tenant of its own, and a key that no other row has. -/
structure Owned (u : Relation) (key owner : Row u → Uuid) : Prop where
  unique : ∀ r s, key r = key s → clash u r s = true
  belongs : ∀ db r v, belongsTo db u r v → v = owner r

theorem effect_owner_stable {u : Relation} {key owner : Row u → Uuid} (ho : Owned u key owner)
    {s : Session} {db db' : Db} {t : Relation} {e : Effect (Row t)} (ht : t = u)
    (hw : e.Within fun r => inBoundTenant s db t r) (holds : e.olds = db.rows t) (hrows : db'.rows t = e.rows)
    (hold : uniqueOk u (db.rows u)) (hnew : uniqueOk u (db'.rows u)) {r r' : Row u} (hr : r ∈ db.rows u)
    (hr' : r' ∈ db'.rows u) (hk : key r = key r') : owner r = owner r' := by
  subst ht
  rw [← holds] at hold hr
  rw [hrows] at hnew hr'
  -- Whatever the statement touched belongs to one tenant, the bound one.
  have hown (x : Row t) (hx : inBoundTenant s db t x) : some (owner x) = s.currentTenantId := by
    obtain ⟨tenantId, hbound, hbelongs⟩ := hx
    rw [hbound, ho.belongs db x tenantId hbelongs]
  have hwithin : e.Within fun x => some (owner x) = s.currentTenantId :=
    ⟨fun x x' hu => ⟨hown x (hw.updated x x' hu).1, hown x' (hw.updated x x' hu).2⟩,
      fun x hd => hown x (hw.deleted x hd), fun x ha => hown x (hw.added x ha)⟩
  exact Option.some.inj (hwithin.owner_stable (nodup_of_uniqueOk hold ho.unique)
    (nodup_of_uniqueOk hnew ho.unique) hr hr' hk)

theorem owner_stable {u : Relation} {key owner : Row u → Uuid} (ho : Owned u key owner) {db : Db}
    (hdb : constraintsOk db) {ev : Event} (hrole : ev.session.currentUser ≠ .appMigrator) {r r' : Row u}
    (hr : r ∈ db.rows u) (hr' : r' ∈ (ev.apply db).rows u) (hk : key r = key r') : owner r = owner r' := by
  have hnew := (apply_constraintsOk hdb ev u).1
  have same (h : r' ∈ db.rows u) : owner r = owner r' := by
    rw [eq_of_uniqueOk (hdb u).1 ho.unique hr h hk]
  cases h : ev.effect db with
  | error x => exact same (by rwa [apply_error h] at hr')
  | ok e =>
    by_cases ht : ev.relation = u
    · have hrows : (ev.apply db).rows ev.relation = e.rows := by rw [apply_ok h, after_rows]
      exact effect_owner_stable ho ht (effect_within hrole h) (effect_olds h) hrows (hdb u).1 hnew hr hr' hk
    · rw [apply_ok h] at hr'
      exact same (after_rows_ne db (Ne.symm ht) e r' hr')

theorem membership_owned : Owned .membership (·.id) (·.tenantId) :=
  ⟨fun r s h => by simp [clash, h], fun _ _ _ h => h.symm⟩

theorem belongsTo_unique {db : Db} (hdb : constraintsOk db) {t : Relation} {r : Row t} {u v : Uuid}
    (hu : belongsTo db t r u) (hv : belongsTo db t r v) : u = v := by
  cases t with
  | tenant => exact hu.elim
  | userProfile => exact hu.elim
  | membershipLocation =>
    obtain ⟨m, hm, hid, rfl⟩ := hu
    obtain ⟨m', hm', hid', rfl⟩ := hv
    rw [List.inj_on_of_nodup_map (membership_ids_nodup (hdb .membership).1) hm hm' (hid.trans hid'.symm)]
  | _ => exact hu.symm.trans hv

theorem belongsTo_apply {db : Db} (hdb : constraintsOk db) {ev : Event}
    (hrole : ev.session.currentUser ≠ .appMigrator) {t : Relation} {r : Row t} {tenantId : Uuid}
    (hr : belongsTo db t r tenantId) (hmem : r ∈ (ev.apply db).rows t) :
    belongsTo (ev.apply db) t r tenantId := by
  cases t with
  | tenant => exact hr
  | userProfile => exact hr
  | membershipLocation =>
    obtain ⟨m, hm, hid, rfl⟩ := hr
    -- The foreign key says that the membership is there.
    obtain ⟨m', hm', hid'⟩ := List.mem_map.mp ((apply_constraintsOk hdb ev .membershipLocation).2 r hmem).1
    exact ⟨m', hm', hid', (owner_stable membership_owned hdb hrole hm hm' (hid.trans hid'.symm)).symm⟩
  | _ => exact hr

theorem becomes_belongsTo {db : Db} (hdb : constraintsOk db) {ev : Event}
    (hrole : ev.session.currentUser ≠ .appMigrator) {t : Relation} {r r' : Row t}
    (h : Becomes db ev t r r') {tenantId : Uuid} (hr : belongsTo db t r tenantId) :
    belongsTo (ev.apply db) t r' tenantId := by
  refine belongsTo_apply hdb hrole ?_ (becomes_mem h)
  cases h with
  | failed => exact hr
  | kept => exact hr
  | updated h hu =>
    -- Before and after, the row is the bound tenant's.
    obtain ⟨⟨u, hbu, hru⟩, ⟨v, hbv, hrv⟩⟩ := (effect_within hrole h).updated _ _ hu
    obtain rfl : u = v := Option.some.inj (hbu.symm.trans hbv)
    rw [belongsTo_unique hdb hr hru]
    exact hrv
  | elsewhere => exact hr

theorem lineage_belongsTo {t : Relation} {db : Db} (hdb : constraintsOk db) {evs : List Event}
    (hroles : ∀ ev ∈ evs, ev.session.currentUser ≠ .appMigrator) {r r' : Row t}
    (h : Lineage t db evs r r') {tenantId : Uuid} (hr : belongsTo db t r tenantId) :
    belongsTo (Event.run db evs) t r' tenantId := by
  induction h with
  | nil => exact hr
  | cons h _ ih =>
    exact ih (apply_constraintsOk hdb _) (fun ev hev => hroles ev (List.mem_cons_of_mem _ hev))
      (becomes_belongsTo hdb (hroles _ List.mem_cons_self) h hr)

/-- In a run: what a statement touches is the bound tenant's, before and after; an unbound
transaction changes nothing; and a row belongs to one tenant for as long as it is there. -/
structure RowsStayWithTenant (db : Db) (evs : List Event) : Prop where
  touched : ∀ before ev after, evs = before ++ ev :: after → ∀ e,
    ev.effect (Event.run db before) = .ok e →
    e.Within fun r => inBoundTenant ev.session (Event.run db before) ev.relation r
  unbound : ∀ before ev after, evs = before ++ ev :: after → ev.session.currentTenantId = none →
    ev.apply (Event.run db before) = Event.run db before
  stable : ∀ before during after t r r' tenantId, evs = before ++ during ++ after →
    Lineage t (Event.run db before) during r r' → belongsTo (Event.run db before) t r tenantId →
    belongsTo (Event.run db (before ++ during)) t r' tenantId

/-- **Rows stay with their tenant**, in every run of statements by `app_api` and `app_worker`. -/
theorem tenant_ownership {db : Db} (hdb : constraintsOk db) {evs : List Event}
    (hroles : ∀ ev ∈ evs, ev.session.currentUser = .appApi ∨ ev.session.currentUser = .appWorker) :
    RowsStayWithTenant db evs := by
  have hmigrator (ev : Event) (hev : ev ∈ evs) : ev.session.currentUser ≠ .appMigrator := by
    rcases hroles ev hev with h | h <;> rw [h] <;> decide
  refine ⟨?_, ?_, ?_⟩
  · rintro before ev after rfl e h
    exact effect_within (hmigrator ev (by simp)) h
  · rintro before ev after rfl hnone
    exact apply_unbound (hmigrator ev (by simp)) hnone
  · rintro before during after t r r' tenantId rfl hline hr
    rw [Event.run_append]
    refine lineage_belongsTo (run_constraintsOk hdb before) (fun ev hev => hmigrator ev ?_) hline hr
    simp [hev]

/-- The user is assigned the second location of the clinic, and an audit card says so. -/
def assignSouth : List Event :=
  [.statement (tenantContext clinicUser noon)
    { table := .membershipLocation, body := .insert [{ membershipId := 3, locationId := 11 }] false },
   .writeCard (tenantContext clinicUser noon)
    { locationId := some 11, verb := "update", action := "Assigned", resourceType := "membership" } 1]

theorem tenant_ownership_clinic : RowsStayWithTenant (clinic .active) assignSouth :=
  tenant_ownership (by decide +kernel) (by
    intro ev hev
    rcases List.mem_cons.mp hev with rfl | hev
    · exact Or.inl rfl
    · rw [List.mem_singleton.mp hev]
      exact Or.inl rfl)

example : (Event.run (clinic .active) assignSouth).membershipLocation.length = 2 := by decide +kernel

end BaptistApi
