import BaptistApi.LadderInvariant
import BaptistApi.Ownership

/-!
# References across tenants

Row security asks whose a row is, and a foreign key asks whether the row it names is there. Nobody asks
whose that one is.
-/

namespace BaptistApi

open BaptistApi.FixedPoint BaptistApi.Program BaptistApi.RowSecurity BaptistApi.Transactions

/-! ## What rows refer to -/

/-- A row, by its table and its id. -/
abbrev Reference := Relation × Uuid

def located (id : Option Uuid) : List Reference := (id.map fun i => (Relation.location, i)).toList

/-- The references that are to stay within a tenant. An assignment has the tenant of its membership. -/
def references : (t : Relation) → Row t → List Reference
  | .locationAlias, r => [(.location, r.locationId)]
  | .membershipLocation, r => [(.location, r.locationId)]
  | .costLedger, r => located r.locationId
  | .costPreview, r => located r.locationId
  | .approval, r => located r.locationId ++ (r.costPreviewId.map fun i => (Relation.costPreview, i)).toList
  | .auditCard, r => located r.locationId ++ (r.approvalId.map fun i => (Relation.approval, i)).toList
  | _, _ => []

/-- The ids of a table that is referred to, with the tenants of their rows. -/
def Db.owners (db : Db) : Relation → List (Uuid × Uuid)
  | .location => db.location.map fun r => (r.id, r.tenantId)
  | .costPreview => db.costPreview.map fun r => (r.id, r.tenantId)
  | .approval => db.approval.map fun r => (r.id, r.tenantId)
  | _ => []

/-- Each of the references is to a row of the tenant. -/
def refersWithin (db : Db) (tenantId : Uuid) (refs : List Reference) : Prop :=
  ∀ p ∈ refs, (p.2, tenantId) ∈ db.owners p.1

/-- No row refers to a row of another tenant. -/
def NoForeign (db : Db) : Prop :=
  ∀ t, ∀ r ∈ db.rows t, ∀ tenantId, belongsTo db t r tenantId → refersWithin db tenantId (references t r)

theorem mem_located {id : Option Uuid} {p : Reference} : p ∈ located id ↔ p.1 = .location ∧ some p.2 = id := by
  cases id <;> simp [located, Prod.ext_iff, and_comm]

theorem owners_mono {db db' : Db} (h : db.Sub db') (u : Relation) : ∀ p ∈ db.owners u, p ∈ db'.owners u := by
  intro p hp
  cases u with
  | location => obtain ⟨r, hr, rfl⟩ := List.mem_map.mp hp; exact List.mem_map.mpr ⟨r, h .location r hr, rfl⟩
  | costPreview => obtain ⟨r, hr, rfl⟩ := List.mem_map.mp hp; exact List.mem_map.mpr ⟨r, h .costPreview r hr, rfl⟩
  | approval => obtain ⟨r, hr, rfl⟩ := List.mem_map.mp hp; exact List.mem_map.mpr ⟨r, h .approval r hr, rfl⟩
  | _ => cases hp

theorem refersWithin_mono {db db' : Db} (h : db.Sub db') {tenantId : Uuid} {refs : List Reference}
    (hr : refersWithin db tenantId refs) : refersWithin db' tenantId refs :=
  fun p hp => owners_mono h p.1 _ (hr p hp)

theorem refersWithin_append {db : Db} {tenantId : Uuid} {refs refs' : List Reference} :
    refersWithin db tenantId (refs ++ refs') ↔ refersWithin db tenantId refs ∧ refersWithin db tenantId refs' :=
  List.forall_mem_append

theorem NoForeign.append {db db' : Db} (h : NoForeign db) (hsub : db.Sub db')
    (hmembership : db'.membership = db.membership) (hnew : ∀ t, ∀ r ∈ db'.rows t, r ∈ db.rows t ∨
      ∀ tenantId, belongsTo db' t r tenantId → refersWithin db' tenantId (references t r)) : NoForeign db' := by
  intro t r hr tenantId hbelongs
  rcases hnew t r hr with hold | hnew
  · refine refersWithin_mono hsub (h t r hold tenantId ?_)
    cases t with
    | membershipLocation => rw [belongsTo, ← hmembership]; exact hbelongs
    | _ => exact hbelongs
  · exact hnew tenantId hbelongs

/-! ## Calls of the ladder -/

/-- The locations that a call names. -/
def Call.references (a : Call) : List Reference :=
  match a.action with
  | .createPreview r => located r.locationId
  | .execute r => located r.locationId ++ r.bills.flatMap fun b => located b.locationId

/-- The locations never change, so what a call named at its start is still right when it commits. -/
structure Settlement (start db : Db) : Prop where
  locations : db.location = start.location
  noForeign : NoForeign db

theorem Settlement.named {start db db' : Db} {tenantId : Uuid} {refs : List Reference} {id : Option Uuid}
    (h : Settlement start db) (ha : refersWithin start tenantId refs) (hid : ∀ p ∈ located id, p ∈ refs)
    (hsub : db.Sub db') : refersWithin db' tenantId (located id) := by
  refine refersWithin_mono hsub fun p hp => ?_
  have hmem := ha p (hid p hp)
  obtain ⟨hlocation, -⟩ := mem_located.mp hp
  rw [hlocation] at hmem ⊢
  rw [Db.owners, h.locations]
  exact hmem

theorem gained {db : Db} {t : Relation} {rows : List (Row t)} {row x : Row t} (hx : x ∈ rows ++ [row])
    (hnew : ∀ tenantId, belongsTo db t row tenantId → refersWithin db tenantId (references t row)) :
    x ∈ rows ∨ ∀ tenantId, belongsTo db t x tenantId → refersWithin db tenantId (references t x) := by
  rcases List.mem_append.mp hx with hx | hx
  · exact Or.inl hx
  · rw [List.mem_singleton.mp hx]
    exact Or.inr hnew

section Commit

variable {start db : Db} {a : Call} (h : Settlement start db) (ha : refersWithin start a.ctx.tenantId a.references)

include h ha

theorem Settlement.quoted {r : PreviewRequest} {p : CostPreview} (hact : a.action = .createPreview r)
    (ht : p.tenantId = a.ctx.tenantId) (hl : p.locationId = r.locationId) :
    Settlement start { db with costPreview := db.costPreview ++ [p] } := by
  have hsub : db.Sub { db with costPreview := db.costPreview ++ [p] } := Db.sub_add db .costPreview p
  have hnamed : a.references = located r.locationId := by
    unfold Call.references
    rw [hact]
  refine ⟨h.locations, h.noForeign.append hsub rfl fun t x hx => ?_⟩
  cases t with
  | costPreview =>
    refine gained hx fun tenantId hbelongs => ?_
    obtain rfl : p.tenantId = tenantId := hbelongs
    change refersWithin _ _ (located p.locationId)
    rw [ht, hl]
    exact h.named ha (fun q hq => hnamed ▸ hq) hsub
  | _ => exact Or.inl hx

theorem Settlement.executed {r : ExecuteRequest} {id : Uuid} {issued : List Cmd} {ls : List CostLedger}
    {row : Approval} {card : AuditCard} (hopened : Opened a r db issued id) (hl : Billed a db r.bills ls)
    (hr : Closes a r id row) (ht : card.tenantId = a.ctx.tenantId) (hcard : card.approvalId = some id)
    (hloc : card.locationId = r.locationId) (hsub : db.Sub { db with
      approval := db.approval ++ [row], costLedger := db.costLedger ++ ls, auditCard := db.auditCard ++ [card] }) :
    Settlement start { db with
      approval := db.approval ++ [row], costLedger := db.costLedger ++ ls
      auditCard := db.auditCard ++ [card] } := by
  have hnamed : a.references = located r.locationId ++ r.bills.flatMap fun b => located b.locationId := by
    unfold Call.references
    rw [hopened.action]
  have hown : ∀ p ∈ located r.locationId, p ∈ a.references := fun p hp => by
    rw [hnamed]
    exact List.mem_append_left _ hp
  obtain ⟨cost, json, -, rfl⟩ := hr
  refine ⟨h.locations, h.noForeign.append hsub rfl fun t x hx => ?_⟩
  cases t with
  | approval =>
    refine gained hx fun tenantId hbelongs => ?_
    obtain rfl : a.ctx.tenantId = tenantId := hopened.tenant.symm.trans hbelongs
    refine refersWithin_append.mpr ⟨h.named ha hown hsub, fun p hp => ?_⟩
    -- The preview was looked up in the tenant.
    obtain ⟨q, hq, hid, hqt, -⟩ := hopened.preview
    rw [List.mem_singleton.mp hp]
    refine List.mem_map.mpr ⟨q, hq, ?_⟩
    rw [hid, hqt]
    rfl
  | costLedger =>
    rcases List.mem_append.mp hx with hx | hx
    · exact Or.inl hx
    · obtain ⟨htenant, b, hb, hbill⟩ := hl.mem hx
      refine Or.inr fun tenantId hbelongs => ?_
      obtain rfl : a.ctx.tenantId = tenantId := htenant.symm.trans hbelongs
      change refersWithin _ _ (located x.locationId)
      rw [hbill]
      refine h.named ha (fun p hp => ?_) hsub
      rw [hnamed]
      exact List.mem_append_right _ (List.mem_flatMap.mpr ⟨b, hb, hp⟩)
  | auditCard =>
    refine gained hx fun tenantId hbelongs => ?_
    obtain rfl : a.ctx.tenantId = tenantId := ht.symm.trans hbelongs
    change refersWithin _ _ (located card.locationId ++ (card.approvalId.map _).toList)
    rw [hloc, hcard]
    refine refersWithin_append.mpr ⟨h.named ha hown hsub, fun p hp => ?_⟩
    rw [List.mem_singleton.mp hp]
    refine List.mem_map.mpr ⟨_, List.mem_append_right _ List.mem_cons_self, ?_⟩
    rw [← hopened.tenant]
    rfl
  | _ => exact Or.inl hx

theorem Settlement.commit {n : ℕ} {issued : List Cmd} {ws : List Write} {v : Value}
    (hend : Ending a db n issued ws v) : Settlement start (ladder.view db ws) := by
  have hsub := hend.commit.sub
  cases hend with
  | quoted hact ht hl => exact h.quoted ha hact ht hl
  | replayed => exact h
  | executed hopened hl hr ht hv hcard hloc =>
    rw [view_executed hr.id_eq hopened.unique] at hsub ⊢
    exact h.executed ha hopened hl hr ht hcard hloc hsub

end Commit

/-! ## Statements -/

def draftReferences : (t : Relation) → Draft t → List Reference
  | .locationAlias, d => references .locationAlias d.row
  | .membershipLocation, d => references .membershipLocation d
  | .costLedger, d => references .costLedger d.row
  | .costPreview, d => references .costPreview d.row
  | .approval, d => references .approval d.row
  | .auditCard, d => references .auditCard d.row
  | _, _ => []

theorem tgEnforceTenant_row {α : Type} [TenantOwned α] {t : Relation} {sc : Scope} {old : Option α}
    {d d' : TenantDraft α} (h : tgEnforceTenant t sc old d = .ok d') : d'.row = d.row := by
  unfold tgEnforceTenant at h
  split at h
  · cases h; rfl
  · split at h
    · simp at h
    · split at h
      · cases h; rfl
      · split at h <;> cases h; rfl
      · cases h; rfl
      · split at h <;> cases h; rfl

theorem complete_row {α : Type} [TenantOwned α] {t : Relation}
    {policies : List (Policy DbRole Scope (TenantDraft α))} {d : TenantDraft α} {r : α}
    (h : (tenantTable t policies).complete d = .ok r) : ∃ u, r = TenantOwned.withTenant d.row u := by
  simp only [tenantTable] at h
  split at h
  · cases h
    exact ⟨_, rfl⟩
  · simp at h

theorem stored_row {α : Type} [TenantOwned α] {t : Relation}
    {policies : List (Policy DbRole Scope (TenantDraft α))} {sc : Scope} {d d' : TenantDraft α} {r : α}
    (h : (tenantTable t policies).beforeInsert sc d = .ok d' ∨
      ∃ old, (tenantTable t policies).beforeUpdate sc old d = .ok d')
    (hr : (tenantTable t policies).complete d' = .ok r) : ∃ u, r = TenantOwned.withTenant d.row u := by
  obtain ⟨u, rfl⟩ := complete_row hr
  have hrow : d'.row = d.row := by
    obtain h | ⟨old, h⟩ := h
    · exact tgEnforceTenant_row h
    · exact tgEnforceTenant_row h
  exact ⟨u, by rw [hrow]⟩

theorem references_stored {t : Relation} {sc : Scope} {d d' : Draft t} {r : Row t}
    (h : (table t).beforeInsert sc d = .ok d' ∨ ∃ old, (table t).beforeUpdate sc old d = .ok d')
    (hr : (table t).complete d' = .ok r) : references t r = draftReferences t d := by
  cases t with
  | locationAlias => obtain ⟨u, rfl⟩ := stored_row h hr; rfl
  | costLedger => obtain ⟨u, rfl⟩ := stored_row h hr; rfl
  | costPreview => obtain ⟨u, rfl⟩ := stored_row h hr; rfl
  | approval => obtain ⟨u, rfl⟩ := stored_row h hr; rfl
  | auditCard =>
    obtain h | ⟨old, h⟩ := h
    · obtain ⟨u, rfl⟩ := @stored_row AuditCard _ .auditCard [] sc d d' r (Or.inl h) hr
      rfl
    · obtain ⟨_, -, h⟩ := bind_eq_ok.mp h
      simp at h
  | membershipLocation =>
    cases hr
    obtain h | ⟨old, h⟩ := h <;> cases h <;> rfl
  | _ => rfl

theorem references_exist {db : Db} {t : Relation} {r : Row t} (h : rowOk db t r) :
    ∀ p ∈ references t r, ∃ tenantId, (p.2, tenantId) ∈ db.owners p.1 := by
  have location {id : Option Uuid} (hid : refersTo db.locationIds id) :
      ∀ p ∈ located id, ∃ tenantId, (p.2, tenantId) ∈ db.owners p.1 := by
    rintro ⟨u, i⟩ hp
    obtain ⟨rfl, rfl⟩ := mem_located.mp hp
    obtain ⟨x, hx, rfl⟩ := List.mem_map.mp (hid i rfl)
    exact ⟨_, List.mem_map.mpr ⟨x, hx, rfl⟩⟩
  have one {i : Uuid} (hi : i ∈ db.locationIds) : refersTo db.locationIds (some i) := fun j hj => by
    cases hj
    exact hi
  intro p hp
  cases t with
  | locationAlias => exact location (one h.2.1) p hp
  | membershipLocation => exact location (one h.2) p hp
  | costLedger => exact location h.2.1 p hp
  | costPreview => exact location h.2.1 p hp
  | approval =>
    rcases List.mem_append.mp hp with hp | hp
    · exact location h.2.1 p hp
    · obtain ⟨i, hi, rfl⟩ := Option.map_eq_some_iff.mp (Option.mem_toList.mp hp)
      obtain ⟨x, hx, rfl⟩ := List.mem_map.mp (h.2.2.1 i hi)
      exact ⟨_, List.mem_map.mpr ⟨x, hx, rfl⟩⟩
  | auditCard =>
    rcases List.mem_append.mp hp with hp | hp
    · exact location h.2.1 p hp
    · obtain ⟨i, hi, rfl⟩ := Option.map_eq_some_iff.mp (Option.mem_toList.mp hp)
      obtain ⟨x, hx, rfl⟩ := List.mem_map.mp (h.2.2.2 i hi)
      exact ⟨_, List.mem_map.mpr ⟨x, hx, rfl⟩⟩
  | _ => cases hp

/-! ## Ids keep their tenants -/

theorem location_owned : Owned .location (·.id) (·.tenantId) :=
  ⟨fun r s h => by simp [clash, h], fun _ _ _ h => h.symm⟩

theorem costPreview_owned : Owned .costPreview (·.id) (·.tenantId) :=
  ⟨fun r s h => by simp [clash, h], fun _ _ _ h => h.symm⟩

theorem approval_owned : Owned .approval (·.id) (·.tenantId) :=
  ⟨fun r s h => by simp [clash, h], fun _ _ _ h => h.symm⟩

section Step

variable {db : Db} {ev : Event}

theorem pairs_stable {u : Relation} {key owner : Row u → Uuid} (ho : Owned u key owner) (hdb : constraintsOk db)
    (hrole : ev.session.currentUser ≠ .appMigrator) {i v v' : Uuid}
    (h : (i, v) ∈ (db.rows u).map fun r => (key r, owner r))
    (h' : (i, v') ∈ ((ev.apply db).rows u).map fun r => (key r, owner r)) : v = v' := by
  obtain ⟨x, hx, hi⟩ := List.mem_map.mp h
  obtain ⟨y, hy, hi'⟩ := List.mem_map.mp h'
  obtain ⟨hxi, rfl⟩ := Prod.mk.inj hi
  obtain ⟨hyi, rfl⟩ := Prod.mk.inj hi'
  exact owner_stable ho hdb hrole hx hy (hxi.trans hyi.symm)

theorem owners_stable (hdb : constraintsOk db) (hrole : ev.session.currentUser ≠ .appMigrator) {u : Relation}
    {i v v' : Uuid} (h : (i, v) ∈ db.owners u) (h' : (i, v') ∈ (ev.apply db).owners u) : v = v' := by
  cases u with
  | location => exact pairs_stable location_owned hdb hrole h h'
  | costPreview => exact pairs_stable costPreview_owned hdb hrole h h'
  | approval => exact pairs_stable approval_owned hdb hrole h h'
  | _ => cases h

theorem exists_belongsTo {t : Relation} {r : Row t} (h : rowOk db t r) {db' : Db} {v : Uuid}
    (hv : belongsTo db' t r v) : ∃ u, belongsTo db t r u := by
  cases t with
  | tenant => exact hv.elim
  | userProfile => exact hv.elim
  | membershipLocation =>
    obtain ⟨m, hm, hid⟩ := List.mem_map.mp h.1
    exact ⟨m.tenantId, m, hm, hid, rfl⟩
  | _ => exact ⟨_, rfl⟩

theorem brought {s : Session} {st : Stmt} (hrole : s.currentUser ≠ .appMigrator) {e : Effect (Row st.table)}
    (he : (Event.statement s st).effect db = .ok e) {r : Row st.table} (hr : r ∈ e.rows)
    (hnew : r ∉ db.rows st.table) : inBoundTenant s db st.table r ∧
      ∃ d ∈ (table st.table).supplied s.currentUser ⟨s, db⟩ (db.rows st.table) st.body,
        references st.table r = draftReferences st.table d := by
  have hexec := (execStatement_ok he).1
  have hw := @effect_within db (.statement s st) hrole e he
  have hcases : r ∈ e.added ∨ ∃ r₀, (r₀, .updated r) ∈ e.fates := by
    rcases Effect.mem_rows.mp hr with hk | hu | ha
    · have hmem : r ∈ e.olds := List.mem_map.mpr ⟨_, hk, rfl⟩
      rw [Table.exec_olds hexec] at hmem
      exact absurd hmem hnew
    · exact Or.inr hu
    · exact Or.inl ha
  obtain ⟨d, hd, d', hbefore, hstored⟩ := Table.exec_supplied hexec hcases
  refine ⟨?_, d, hd, references_stored hbefore hstored⟩
  obtain ha | ⟨r₀, hu⟩ := hcases
  · exact hw.added r ha
  · exact (hw.updated r₀ r hu).2

theorem statement_noForeign {s : Session} {st : Stmt} (hdb : constraintsOk db) (h : NoForeign db)
    (hrole : s.currentUser ≠ .appMigrator) (hown : ∀ tenantId, s.currentTenantId = some tenantId →
      ∀ d ∈ (table st.table).supplied s.currentUser ⟨s, db⟩ (db.rows st.table) st.body,
        refersWithin db tenantId (draftReferences st.table d)) :
    NoForeign ((Event.statement s st).apply db) := by
  have hdb' := apply_constraintsOk hdb (.statement s st)
  have hrole' : (Event.statement s st).session.currentUser ≠ .appMigrator := hrole
  cases he : (Event.statement s st).effect db with
  | error x =>
    rw [apply_error he]
    exact h
  | ok e =>
    intro t r hr tenantId hbelongs p hp
    have same {u : Uuid} (hu : belongsTo db t r u) : u = tenantId :=
      belongsTo_unique hdb' (belongsTo_apply hdb hrole' hu hr) hbelongs
    -- Before the statement, what the row refers to was a row of the same tenant.
    have hbefore : (p.2, tenantId) ∈ db.owners p.1 := by
      by_cases hold : r ∈ db.rows t
      · obtain ⟨u, hu⟩ := exists_belongsTo ((hdb t).2 r hold) hbelongs
        obtain rfl := same hu
        exact h t r hold u hu p hp
      · have hrel : t = st.table := by
          by_contra hne
          rw [apply_ok he] at hr
          exact hold (after_rows_ne db hne e r hr)
        subst hrel
        have hmem : r ∈ e.rows := by
          rw [apply_ok he] at hr
          exact (after_rows db e) ▸ hr
        obtain ⟨⟨u, hbound, hu⟩, d, hd, hrefs⟩ := brought hrole he hmem hold
        obtain rfl := same hu
        exact hown u hbound d hd p (hrefs ▸ hp)
    obtain ⟨v, hv⟩ := references_exist ((hdb' t).2 r hr) p hp
    obtain rfl := owners_stable hdb hrole' hbefore hv
    exact hv

end Step

/-! ## Cards -/

def CardRequest.references (c : CardRequest) : List Reference :=
  located c.locationId ++ (c.approvalId.map fun i => (Relation.approval, i)).toList

theorem writeCard_noForeign {db : Db} {s : Session} {c : CardRequest} {id : ℤ} (h : NoForeign db)
    (hown : ∀ tenantId, s.currentTenantId = some tenantId → refersWithin db tenantId c.references) :
    NoForeign ((Event.writeCard s c id).apply db) := by
  cases he : (Event.writeCard s c id).effect db with
  | error x =>
    rw [apply_error he]
    exact h
  | ok e =>
    obtain ⟨card, hcard, hk⟩ := bind_eq_ok.mp he
    cases hk
    obtain ⟨-, -, -, -, ht, -, -, -, hloc, happroval, -⟩ := writeCard_ok hcard
    have happly : (Event.writeCard s c id).apply db = db.add .auditCard card :=
      (apply_ok he).trans (after_card db card)
    have hsub := Db.sub_add db .auditCard card
    rw [happly]
    refine h.append hsub rfl fun t x hx => ?_
    cases t with
    | auditCard =>
      rcases List.mem_append.mp hx with hx | hx
      · exact Or.inl hx
      · rw [List.mem_singleton.mp hx]
        refine Or.inr fun tenantId hbelongs => ?_
        obtain rfl : card.tenantId = tenantId := hbelongs
        change refersWithin _ _ (located card.locationId ++ (card.approvalId.map _).toList)
        rw [hloc, happroval]
        exact refersWithin_mono hsub (hown card.tenantId ht.symm)
    | _ => exact Or.inl hx

/-! ## Runs -/

/-- Calls of the ladder, side by side, or one statement, or one call of `audit.write_card`. -/
inductive Act where
  | calls (ls : List LadderLabel)
  | event (ev : Event)

namespace Act

def apply (db : Db) : Act → Db
  | .calls ls =>
    match ladder.run { db } ls with
    | some w => w.db
    | none => db
  | .event ev => ev.apply db

def run (db : Db) (acts : List Act) : Db := acts.foldl apply db

/-- The references that the act brings are to rows of the tenant that its transaction is bound to. -/
def RefersWithin (db : Db) : Act → Prop
  | .calls ls => ∀ a, .begin a ∈ ls → refersWithin db a.ctx.tenantId a.references
  | .event (.statement s st) => ∀ tenantId, s.currentTenantId = some tenantId →
      ∀ d ∈ (table st.table).supplied s.currentUser ⟨s, db⟩ (db.rows st.table) st.body,
        refersWithin db tenantId (draftReferences st.table d)
  | .event (.writeCard s c _) => ∀ tenantId, s.currentTenantId = some tenantId →
      refersWithin db tenantId c.references

/-- Each act of the run is such, in the state it finds. -/
def RunRefersWithin : Db → List Act → Prop
  | _, [] => True
  | db, act :: acts => act.RefersWithin db ∧ RunRefersWithin (act.apply db) acts

/-- The transaction of a direct statement is not one of the migrator. -/
def Subject : Act → Prop
  | .calls _ => True
  | .event ev => ev.session.currentUser ≠ .appMigrator

end Act

theorem act_constraintsOk {db : Db} (hdb : constraintsOk db) (act : Act) : constraintsOk (act.apply db) := by
  cases act with
  | event ev => exact apply_constraintsOk hdb ev
  | calls ls =>
    unfold Act.apply
    dsimp only
    split
    · rename_i w hrun
      exact ladder_constraintsOk hdb hrun
    · exact hdb

theorem act_noForeign {db : Db} (hdb : constraintsOk db) (h : NoForeign db) {act : Act} (hrole : act.Subject)
    (hown : act.RefersWithin db) : NoForeign (act.apply db) := by
  match act with
  | .event (.statement s st) => exact statement_noForeign hdb h hrole hown
  | .event (.writeCard s c id) => exact writeCard_noForeign h hown
  | .calls ls =>
    unfold Act.apply
    dsimp only
    split
    · rename_i w hrun
      exact (ladder_commits (fun _ _ _ _ _ _ _ hset ha hend => Settlement.commit hset ha hend)
        (Keyed.of_constraints hdb) ⟨rfl, h⟩ hown hrun).noForeign
    · exact h

/-- **No row refers to a row of another tenant**, in every run whose acts bring only references to rows of
their own tenant. -/
theorem no_cross_tenant_references {db : Db} (hdb : constraintsOk db) (h : NoForeign db) {acts : List Act}
    (hroles : ∀ act ∈ acts, act.Subject) (hown : Act.RunRefersWithin db acts) : NoForeign (Act.run db acts) := by
  induction acts generalizing db with
  | nil => exact h
  | cons act acts ih =>
    exact ih (act_constraintsOk hdb act) (act_noForeign hdb h (hroles act List.mem_cons_self) hown.1)
      (fun act' hact' => hroles act' (List.mem_cons_of_mem _ hact')) hown.2

/-! ## Two clinics -/

/-- A second clinic, with a location and a user of its own. -/
def rivals : Db :=
  let db := clinic .active
  { db with
    tenant := db.tenant ++ [{ id := 9, slug := "rival", name := "Rival", tier := "agency_client" }]
    userProfile := db.userProfile ++ [{ id := 8, email := "rival@example.test", fullName := none }]
    location := db.location ++ [{ clinicLocation 90 "rival" with tenantId := 9 }]
    costBudget := [clinicBudget], costPreview := [clinicPreview] }

def rivalUser : RequestContext := { tenantId := 9, actorId := 8, role := "client_user" }

def aliasOf (locationId : Uuid) : Act :=
  .event (.statement (tenantContext rivalUser noon)
    { table := .locationAlias
      body := .insert [{ tenantId := some 9, row :=
        { id := 95, tenantId := 9, locationId, kind := .name, value := "North Clinic", createdBy := some 8 } }]
        true })

theorem rivals_noForeign : NoForeign rivals := by
  intro t r hr tenantId hbelongs p hp
  cases t with
  | membershipLocation =>
    obtain ⟨m, hm, -, rfl⟩ := hbelongs
    rw [List.mem_singleton.mp hr] at hp
    rw [List.mem_singleton.mp hm, List.mem_singleton.mp hp]
    decide
  | costPreview =>
    rw [List.mem_singleton.mp hr] at hp
    cases hp
  | locationAlias => cases hr
  | costLedger => cases hr
  | approval => cases hr
  | auditCard => cases hr
  | _ => cases hp

/-- The second clinic names its own location, and the first one buys something. -/
def separately : List Act :=
  [aliasOf 90, .calls ([.begin (purchase "a" [])] ++ List.replicate 8 (.exec 0 (queued 30 1)) ++ [.finish 0])]

theorem no_cross_tenant_references_separately : NoForeign (Act.run rivals separately) := by
  have hroles : ∀ act ∈ separately, act.Subject := by
    intro act hact
    rcases List.mem_cons.mp hact with rfl | hact
    · exact fun hrole : DbRole.appApi = .appMigrator => (nomatch hrole)
    · rw [List.mem_singleton.mp hact]
      trivial
  have halias : (aliasOf 90).RefersWithin rivals := by
    intro tenantId ht d hd p hp
    cases ht
    rw [List.mem_singleton.mp hd] at hp
    rw [List.mem_singleton.mp hp]
    decide
  have hcalls (db : Db) : Act.RefersWithin db
      (.calls ([.begin (purchase "a" [])] ++ List.replicate 8 (.exec 0 (queued 30 1)) ++ [.finish 0])) := by
    intro a ha
    have hcall : a = purchase "a" [] := by simpa [List.mem_replicate] using ha
    rw [hcall]
    exact fun p hp => (nomatch hp)
  exact no_cross_tenant_references (by decide +kernel) rivals_noForeign hroles ⟨halias, hcalls _, trivial⟩

/-- The second clinic gives a name to a location of the first. -/
theorem foreign_alias_accepted : constraintsOk rivals ∧ NoForeign rivals ∧
    ¬ NoForeign (Act.run rivals [aliasOf 10]) := by
  refine ⟨by decide +kernel, rivals_noForeign, fun h => ?_⟩
  let row : LocationAlias :=
    { id := 95, tenantId := 9, locationId := 10, kind := .name, value := "North Clinic", createdBy := some 8 }
  have hmem : row ∈ (Act.run rivals [aliasOf 10]).locationAlias := by decide +kernel
  have hforeign : (10, 9) ∈ (Act.run rivals [aliasOf 10]).owners .location :=
    h .locationAlias row hmem 9 rfl (.location, 10) List.mem_cons_self
  revert hforeign
  decide +kernel

end BaptistApi
