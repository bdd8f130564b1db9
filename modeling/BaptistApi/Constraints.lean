import BaptistApi.Schema

/-!
# Keys, checks and references

The constraints of the migrations. Those on one column with a fixed set of values are already in
the types of the rows.
-/

namespace BaptistApi

open BaptistApi.FixedPoint

/-! ## PRIMARY KEY and UNIQUE -/

/-- Two rows agree on the columns of a key. The `id` of `audit_card` and `cost_ledger` comes from an
identity sequence, which gives no number twice. -/
def clash : (t : Relation) → Row t → Row t → Bool
  | .tenant, r, s => r.id == s.id || r.slug == s.slug
  | .userProfile, r, s => r.id == s.id || r.email.toLower == s.email.toLower
  | .membership, r, s => r.id == s.id || (r.tenantId == s.tenantId && r.userId == s.userId)
  | .membershipLocation, r, s => r.membershipId == s.membershipId && r.locationId == s.locationId
  | .tenantCredential, r, s => r.id == s.id || (r.tenantId == s.tenantId && r.provider == s.provider)
  | .location, r, s => r.id == s.id || (r.tenantId == s.tenantId && r.slug == s.slug)
  | .locationAlias, r, s =>
    r.id == s.id || (r.locationId == s.locationId && r.kind == s.kind && r.value == s.value)
  | .auditCard, _, _ => false
  | .costLedger, _, _ => false
  | .costBudget, r, s => r.id == s.id || (r.tenantId == s.tenantId && r.periodMonth == s.periodMonth)
  | .costPreview, r, s => r.id == s.id
  | .approval, r, s =>
    r.id == s.id || (r.tenantId == s.tenantId && r.idempotencyKey == s.idempotencyKey)

def uniqueOk (t : Relation) (rows : List (Row t)) : Prop :=
  rows.Pairwise fun r s => clash t r s = false

instance (t : Relation) (rows : List (Row t)) : Decidable (uniqueOk t rows) :=
  inferInstanceAs (Decidable (List.Pairwise _ rows))

theorem uniqueOk_append (t : Relation) {rows : List (Row t)} {x : Row t} :
    uniqueOk t (rows ++ [x]) ↔ uniqueOk t rows ∧ ∀ r ∈ rows, clash t r x = false := by
  unfold uniqueOk
  rw [List.pairwise_append]
  simp

theorem nodup_of_uniqueOk {t : Relation} {rows : List (Row t)} (h : uniqueOk t rows) {κ : Type}
    {key : Row t → κ} (hk : ∀ r s, key r = key s → clash t r s = true) : (rows.map key).Nodup := by
  unfold List.Nodup
  rw [List.pairwise_map]
  refine List.Pairwise.imp (fun {r s} hrs heq => ?_) h
  rw [hk r s heq] at hrs
  simp at hrs

theorem eq_of_uniqueOk {t : Relation} {rows : List (Row t)} (h : uniqueOk t rows) {κ : Type} {key : Row t → κ}
    (hk : ∀ r s, key r = key s → clash t r s = true) {r s : Row t} (hr : r ∈ rows) (hs : s ∈ rows)
    (heq : key r = key s) : r = s :=
  List.inj_on_of_nodup_map (nodup_of_uniqueOk h hk) hr hs heq

theorem location_ids_nodup {rows : List Location} (h : uniqueOk .location rows) :
    (rows.map (·.id)).Nodup :=
  nodup_of_uniqueOk h fun r s heq => by simp [clash, heq]

/-! ## CHECK and FOREIGN KEY -/

def Db.tenantIds (db : Db) : List Uuid := db.tenant.map (·.id)
def Db.userIds (db : Db) : List Uuid := db.userProfile.map (·.id)
def Db.membershipIds (db : Db) : List Uuid := db.membership.map (·.id)
def Db.locationIds (db : Db) : List Uuid := db.location.map (·.id)
def Db.previewIds (db : Db) : List Uuid := db.costPreview.map (·.id)
def Db.approvalIds (db : Db) : List Uuid := db.approval.map (·.id)

/-- A null reference refers to nothing. -/
def refersTo (ids : List Uuid) (id : Option Uuid) : Prop := ∀ i ∈ id, i ∈ ids

instance (ids : List Uuid) (id : Option Uuid) : Decidable (refersTo ids id) :=
  match id with
  | none => isTrue fun i hi => by cases hi
  | some i => decidable_of_iff (i ∈ ids) (by simp [refersTo])

/-- `round(units * unit_cost_usd, 4) = cost_usd or billing = 'plan_credits'`. -/
def costLedgerMath (r : CostLedger) : Prop :=
  (roundHalfAway (r.units * r.unitCostUsd.value * 10 ^ 4) : ℚ) / 10 ^ 4 = r.costUsd.value ∨
    r.billing = .planCredits

instance (r : CostLedger) : Decidable (costLedgerMath r) := inferInstanceAs (Decidable (_ ∨ _))

def rowOk (db : Db) : (t : Relation) → Row t → Prop
  | .tenant, _ => True
  | .userProfile, _ => True
  | .membership, r => r.tenantId ∈ db.tenantIds ∧ r.userId ∈ db.userIds
  | .membershipLocation, r => r.membershipId ∈ db.membershipIds ∧ r.locationId ∈ db.locationIds
  | .tenantCredential, r => r.tenantId ∈ db.tenantIds
  | .location, r => r.tenantId ∈ db.tenantIds ∧ (r.lat = none ↔ r.lng = none)
  | .locationAlias, r =>
    r.tenantId ∈ db.tenantIds ∧ r.locationId ∈ db.locationIds ∧ refersTo db.userIds r.createdBy
  | .auditCard, r =>
    r.tenantId ∈ db.tenantIds ∧ refersTo db.locationIds r.locationId ∧
      refersTo db.userIds r.actorId ∧ refersTo db.approvalIds r.approvalId
  | .costLedger, r =>
    r.tenantId ∈ db.tenantIds ∧ refersTo db.locationIds r.locationId ∧ 0 ≤ r.units ∧ costLedgerMath r
  | .costBudget, r => r.tenantId ∈ db.tenantIds
  | .costPreview, r =>
    r.tenantId ∈ db.tenantIds ∧ refersTo db.locationIds r.locationId ∧ r.requestedBy ∈ db.userIds
  | .approval, r =>
    r.tenantId ∈ db.tenantIds ∧ refersTo db.locationIds r.locationId ∧
      refersTo db.previewIds r.costPreviewId ∧ r.approvedBy ∈ db.userIds

instance (db : Db) : (t : Relation) → (r : Row t) → Decidable (rowOk db t r)
  | .tenant, _ => isTrue trivial
  | .userProfile, _ => isTrue trivial
  | .membership, _ => inferInstanceAs (Decidable (_ ∧ _))
  | .membershipLocation, _ => inferInstanceAs (Decidable (_ ∧ _))
  | .tenantCredential, _ => inferInstanceAs (Decidable (_ ∈ _))
  | .location, _ => inferInstanceAs (Decidable (_ ∧ (_ ↔ _)))
  | .locationAlias, _ => inferInstanceAs (Decidable (_ ∧ _ ∧ _))
  | .auditCard, _ => inferInstanceAs (Decidable (_ ∧ _ ∧ _ ∧ _))
  | .costLedger, _ => inferInstanceAs (Decidable (_ ∧ _ ∧ _ ∧ _))
  | .costBudget, _ => inferInstanceAs (Decidable (_ ∈ _))
  | .costPreview, _ => inferInstanceAs (Decidable (_ ∧ _ ∧ _))
  | .approval, _ => inferInstanceAs (Decidable (_ ∧ _ ∧ _ ∧ _))

def tableOk (db : Db) (t : Relation) : Prop := uniqueOk t (db.rows t) ∧ ∀ r ∈ db.rows t, rowOk db t r

instance (db : Db) (t : Relation) : Decidable (tableOk db t) :=
  have : Decidable (∀ r ∈ db.rows t, rowOk db t r) := List.decidableBAll (rowOk db t) (db.rows t)
  inferInstanceAs (Decidable (_ ∧ _))

def constraintsOk (db : Db) : Prop := ∀ t, tableOk db t

instance (db : Db) : Decidable (constraintsOk db) :=
  decidable_of_iff (∀ t ∈ Relation.all, tableOk db t) ⟨fun h t => h t t.mem_all, fun h t _ => h t⟩

theorem location_of_id {db : Db} (h : constraintsOk db) {x y : Location} (hx : x ∈ db.location)
    (hy : y ∈ db.location) (hid : x.id = y.id) : x = y :=
  eq_of_uniqueOk (h .location).1 (fun r s heq => by simp [clash, heq]) hx hy hid

/-! ## More rows keep references valid -/

@[simp] theorem refersTo_none (ids : List Uuid) : refersTo ids none := fun _ hi => by cases hi

theorem refersTo_mono {ids ids' : List Uuid} (h : ∀ i ∈ ids, i ∈ ids') {id : Option Uuid}
    (hr : refersTo ids id) : refersTo ids' id := fun i hi => h i (hr i hi)

theorem ids_mono {db db' : Db} (h : db.Sub db') (t : Relation) (key : Row t → Uuid) :
    ∀ i ∈ (db.rows t).map key, i ∈ (db'.rows t).map key := by
  intro i hi
  obtain ⟨s, hs, rfl⟩ := List.mem_map.mp hi
  exact List.mem_map.mpr ⟨s, h t s hs, rfl⟩

theorem rowOk_mono {db db' : Db} (h : db.Sub db') {t : Relation} {r : Row t} (hr : rowOk db t r) :
    rowOk db' t r := by
  have tenants := ids_mono h .tenant (·.id)
  have users := ids_mono h .userProfile (·.id)
  have memberships := ids_mono h .membership (·.id)
  have locations := ids_mono h .location (·.id)
  have previews := ids_mono h .costPreview (·.id)
  have approvals := ids_mono h .approval (·.id)
  match t, r, hr with
  | .tenant, _, _ => trivial
  | .userProfile, _, _ => trivial
  | .membership, _, hr => exact ⟨tenants _ hr.1, users _ hr.2⟩
  | .membershipLocation, _, hr => exact ⟨memberships _ hr.1, locations _ hr.2⟩
  | .tenantCredential, _, hr => exact tenants _ hr
  | .location, _, hr => exact ⟨tenants _ hr.1, hr.2⟩
  | .locationAlias, _, hr => exact ⟨tenants _ hr.1, locations _ hr.2.1, refersTo_mono users hr.2.2⟩
  | .auditCard, _, hr =>
    exact ⟨tenants _ hr.1, refersTo_mono locations hr.2.1, refersTo_mono users hr.2.2.1,
      refersTo_mono approvals hr.2.2.2⟩
  | .costLedger, _, hr => exact ⟨tenants _ hr.1, refersTo_mono locations hr.2.1, hr.2.2⟩
  | .costBudget, _, hr => exact tenants _ hr
  | .costPreview, _, hr =>
    exact ⟨tenants _ hr.1, refersTo_mono locations hr.2.1, users _ hr.2.2⟩
  | .approval, _, hr =>
    exact ⟨tenants _ hr.1, refersTo_mono locations hr.2.1, refersTo_mono previews hr.2.2.1,
      users _ hr.2.2.2⟩

theorem constraintsOk_append {db db' : Db} (h : constraintsOk db) (hsub : db.Sub db')
    (hu : ∀ t, uniqueOk t (db'.rows t)) (hnew : ∀ t, ∀ r ∈ db'.rows t, r ∈ db.rows t ∨ rowOk db' t r) :
    constraintsOk db' :=
  fun t => ⟨hu t, fun r hr => (hnew t r hr).elim (fun hold => rowOk_mono hsub ((h t).2 r hold)) id⟩

end BaptistApi
