import BaptistApi.Statement
import Mathlib.Data.Set.Basic

/-!
# Who may read a location

`app.can_read_location` lets a user read the locations assigned to their active membership, and
every location when nothing is assigned. What this means for users without an active membership,
and for the deletion of a location.
-/

namespace BaptistApi

open BaptistApi.Calendar BaptistApi.RowSecurity

/-! ## The rule

A set of permitted things where the empty set permits everything.
-/

def Permits {α : Type} (assigned : Set α) (x : α) : Prop := assigned = ∅ ∨ x ∈ assigned

theorem permits_diff_iff {α : Type} (assigned : Set α) (a : α) (x : α) (hx : x ≠ a) :
    (Permits (assigned \ {a}) x → Permits assigned x) ↔ assigned ≠ {a} := by
  unfold Permits
  constructor
  · rintro h rfl
    rcases h (Or.inl (Set.sdiff_self)) with h | h
    · exact Set.singleton_ne_empty a h
    · exact hx h
  · rintro hne (h | h)
    · rcases Set.subset_singleton_iff_eq.mp (Set.sdiff_eq_empty.mp h) with h | h
      · exact Or.inl h
      · exact absurd h hne
    · exact Or.inr h.1

/-! ## The rule in the database -/

section Readers

variable (db : Db) (ctx : RequestContext)

def HasActiveMembership : Prop :=
  ∃ m ∈ db.membership, m.tenantId = ctx.tenantId ∧ m.userId = ctx.actorId ∧ m.status = .active

instance : Decidable (HasActiveMembership db ctx) :=
  List.decidableBEx (fun m : Membership => m.tenantId = ctx.tenantId ∧ m.userId = ctx.actorId ∧ m.status = .active)
    db.membership

/-- The locations assigned to the user's active memberships. -/
def assigned : Set Uuid :=
  {loc | ∃ ml ∈ db.membershipLocation, ml.locationId = loc ∧ ∃ m ∈ db.membership,
    m.tenantId = ctx.tenantId ∧ m.userId = ctx.actorId ∧ m.status = .active ∧ m.id = ml.membershipId}

variable {db ctx} {now : Timestamp}

theorem mem_assigned (now : Timestamp) {loc : Uuid} :
    loc ∈ assigned db ctx ↔ ∃ ml ∈ assignments ⟨tenantContext ctx now, db⟩, ml.locationId = loc := by
  simp only [assigned, Set.mem_ofPred_eq, mem_assignments]
  constructor
  · rintro ⟨ml, hml, hloc, h⟩
    exact ⟨ml, ⟨hml, h⟩, hloc⟩
  · rintro ⟨ml, ⟨hml, h⟩, hloc⟩
    exact ⟨ml, hml, hloc, h⟩

/-- For users who are not operators the SQL function is the rule above. -/
theorem canReadLocation_permits (hrole : (tenantContext ctx now).isOperator = false) {loc : Uuid} :
    canReadLocation ⟨tenantContext ctx now, db⟩ loc = true ↔ Permits (assigned db ctx) loc := by
  rw [canReadLocation_iff hrole, Permits, mem_assigned now]
  apply or_congr_left
  rw [Set.eq_empty_iff_forall_notMem]
  constructor
  · intro h loc' hloc'
    obtain ⟨ml, hml, -⟩ := (mem_assigned now).mp hloc'
    exact h ml hml
  · intro h ml hml
    exact h ml.locationId ((mem_assigned now).mpr ⟨ml, hml, rfl⟩)

theorem assigned_eq_empty (h : ¬ HasActiveMembership db ctx) : assigned db ctx = ∅ := by
  rw [Set.eq_empty_iff_forall_notMem]
  rintro loc ⟨ml, -, -, m, hm, ht, hu, hs, -⟩
  exact h ⟨m, hm, ht, hu, hs⟩

/-- **Without an active membership a user reads every location of the tenant.** So the users for whom
readable implies active membership are those who have one. -/
theorem readable_implies_member_iff (db : Db) (ctx : RequestContext) (now : Timestamp)
    (hrole : (tenantContext ctx now).isOperator = false) :
    ((∀ loc, canReadLocation ⟨tenantContext ctx now, db⟩ loc = true → HasActiveMembership db ctx) ↔
        HasActiveMembership db ctx) ∧
      (¬ HasActiveMembership db ctx → ∀ l ∈ db.location, l.tenantId = ctx.tenantId →
        l ∈ Scope.locations ⟨tenantContext ctx now, db⟩) := by
  have hall (h : ¬ HasActiveMembership db ctx) (loc : Uuid) :
      canReadLocation ⟨tenantContext ctx now, db⟩ loc = true :=
    (canReadLocation_permits hrole).mpr (Or.inl (assigned_eq_empty h))
  refine ⟨⟨fun h => ?_, fun h _ _ => h⟩, fun h l hl ht => mem_locations.mpr ⟨hl, ht, hall h l.id⟩⟩
  by_contra hno
  exact hno (h 0 (hall hno 0))

end Readers

theorem readable_implies_member_iff_revoked :
    ((∀ loc, canReadLocation ⟨tenantContext clinicUser noon, clinic .revoked⟩ loc = true →
        HasActiveMembership (clinic .revoked) clinicUser) ↔
        HasActiveMembership (clinic .revoked) clinicUser) ∧
      (¬ HasActiveMembership (clinic .revoked) clinicUser → ∀ l ∈ (clinic .revoked).location,
        l.tenantId = clinicUser.tenantId →
        l ∈ Scope.locations ⟨tenantContext clinicUser noon, clinic .revoked⟩) :=
  readable_implies_member_iff (clinic .revoked) clinicUser noon (by decide)

/-- Revoking the membership opens the location that the user could not read before. -/
theorem revoked_user_reads :
    ¬ ∀ (db : Db) (ctx : RequestContext) (now : Timestamp) (loc : Uuid), constraintsOk db →
      (tenantContext ctx now).isOperator = false →
      canReadLocation ⟨tenantContext ctx now, db⟩ loc = true → HasActiveMembership db ctx := by
  intro h
  have hread : canReadLocation ⟨tenantContext clinicUser noon, clinic .revoked⟩ 11 = true := by
    decide +kernel
  have hno : ¬ HasActiveMembership (clinic .revoked) clinicUser := by decide +kernel
  exact hno (h (clinic .revoked) clinicUser noon 11 (by decide +kernel) (by decide) hread)

example : canReadLocation ⟨tenantContext clinicUser noon, clinic .active⟩ 11 = false := by decide +kernel

/-! ## Deleting a location -/

def deleteLocation (loc : Uuid) : Stmt :=
  { table := .location, body := .delete (fun r => r.id == loc) true }

section Delete

variable {s : Session} {db : Db} {loc : Location} {e : Effect Location}

theorem deleteLocation_after (hdb : constraintsOk db)
    (h : execStatement s db (deleteLocation loc.id) = .ok e) (hl : loc ∈ e.removed) :
    (∀ l, l ∈ (db.after .location e).location ↔ l ∈ db.location ∧ l.id ≠ loc.id) ∧
      (∀ ml, ml ∈ (db.after .location e).membershipLocation ↔
        ml ∈ db.membershipLocation ∧ ml.locationId ≠ loc.id) ∧
      (db.after .location e).membership = db.membership := by
  have hexec := (execStatement_ok h).1
  have hrows (r : Location) : r ∈ e.rows ↔ r ∈ db.location ∧ ¬ (Tables.location.reaches s.currentUser
      .delete true ⟨s, db⟩ r = true ∧ (r.id == loc.id) = true) := (Table.exec_delete hexec r).1
  have hremoved (r : Location) : r ∈ e.removed ↔ r ∈ db.location ∧ Tables.location.reaches s.currentUser
      .delete true ⟨s, db⟩ r = true ∧ (r.id == loc.id) = true := (Table.exec_delete hexec r).2
  have hids : ∀ i, i ∈ e.removed.map (·.id) ↔ i = loc.id := by
    intro i
    rw [List.mem_map]
    constructor
    · rintro ⟨r, hr, rfl⟩
      simpa using ((hremoved r).mp hr).2.2
    · rintro rfl
      exact ⟨loc, hl, rfl⟩
  refine ⟨fun l => ?_, fun ml => ?_, ?_⟩
  · have hset : (db.after .location e).location = e.rows := by simp [Db.after, cascade, Db.set]
    rw [hset, hrows]
    constructor
    · rintro ⟨hmem, hno⟩
      refine ⟨hmem, fun hid => ?_⟩
      -- Ids are unique, so this is the row that went.
      have hloc := (hremoved loc).mp hl
      obtain rfl : l = loc := location_of_id hdb hmem hloc.1 hid
      exact hno hloc.2
    · rintro ⟨hmem, hid⟩
      exact ⟨hmem, fun hyes => hid (by simpa using hyes.2)⟩
  · have hset : (db.after .location e).membershipLocation =
        (db.membershipLocation).filter fun ml => ml.locationId ∉ e.removed.map (·.id) := by
      simp [Db.after, cascade, Db.set]
    rw [hset, List.mem_filter]
    simp only [hids, decide_eq_true_eq]
  · simp [Db.after, cascade, Db.set]

/-- **Deleting a location widens what a user reads in one case:** it was their last assignment, and the
tenant has another location. -/
theorem deletion_widens_iff (hdb : constraintsOk db)
    (h : execStatement s db (deleteLocation loc.id) = .ok e) (hl : loc ∈ e.removed)
    (ctx : RequestContext) (now : Timestamp) (hrole : (tenantContext ctx now).isOperator = false) :
    (∀ l ∈ Scope.locations ⟨tenantContext ctx now, db.after .location e⟩,
        l ∈ Scope.locations ⟨tenantContext ctx now, db⟩) ↔
      ¬ (assigned db ctx = {loc.id} ∧ ∃ l ∈ db.location, l.tenantId = ctx.tenantId ∧ l.id ≠ loc.id) := by
  obtain ⟨hloc, hml, hm⟩ := deleteLocation_after hdb h hl
  have hassigned : assigned (db.after .location e) ctx = assigned db ctx \ {loc.id} := by
    ext i
    simp only [assigned, Set.mem_ofPred_eq, Set.mem_sdiff, Set.mem_singleton_iff, hml, hm]
    constructor
    · rintro ⟨ml, ⟨hmem, hne⟩, rfl, hx⟩
      exact ⟨⟨ml, hmem, rfl, hx⟩, hne⟩
    · rintro ⟨⟨ml, hmem, rfl, hx⟩, hne⟩
      exact ⟨ml, ⟨hmem, hne⟩, rfl, hx⟩
  simp only [mem_locations, canReadLocation_permits hrole, hloc, hassigned]
  constructor
  · rintro hsub ⟨hlast, l, hmem, ht, hne⟩
    have := (hsub l ⟨⟨hmem, hne⟩, ht, Or.inl (by rw [hlast, Set.sdiff_self])⟩).2.2
    exact (permits_diff_iff _ _ _ hne).mp (fun _ => this) hlast
  · rintro hno l ⟨⟨hmem, hne⟩, ht, hp⟩
    refine ⟨hmem, ht, (permits_diff_iff _ _ _ hne).mpr (fun hlast => ?_) hp⟩
    exact hno ⟨hlast, l, hmem, ht, hne⟩

end Delete

def northDeleted : Effect Location :=
  { fates := [(clinicLocation 10 "north", .deleted), (clinicLocation 11 "south", .kept)] }

theorem deletion_widens_iff_clinic :
    (∀ l ∈ Scope.locations ⟨tenantContext clinicUser noon, (clinic .active).after .location northDeleted⟩,
        l ∈ Scope.locations ⟨tenantContext clinicUser noon, clinic .active⟩) ↔
      ¬ (assigned (clinic .active) clinicUser = {10} ∧
        ∃ l ∈ (clinic .active).location, l.tenantId = clinicUser.tenantId ∧ l.id ≠ 10) :=
  @deletion_widens_iff (tenantContext clinicUser noon) (clinic .active) (clinicLocation 10 "north")
    northDeleted (by decide +kernel) rfl (by decide) clinicUser noon (by decide)

/-- The user of the clinic deletes the one location assigned to them, and reads the other. -/
theorem deleting_last_assignment_widens :
    ¬ ∀ (s : Session) (db : Db) (loc : Location) (e : Effect Location) (ctx : RequestContext)
        (now : Timestamp), constraintsOk db →
      execStatement s db (deleteLocation loc.id) = .ok e → loc ∈ e.removed →
      (tenantContext ctx now).isOperator = false →
      ∀ l ∈ Scope.locations ⟨tenantContext ctx now, db.after .location e⟩,
        l ∈ Scope.locations ⟨tenantContext ctx now, db⟩ := by
  intro h
  have hsub := h (tenantContext clinicUser noon) (clinic .active) (clinicLocation 10 "north") northDeleted
    clinicUser noon (by decide +kernel) rfl (by decide) (by decide) (clinicLocation 11 "south")
  have hafter : clinicLocation 11 "south" ∈ Scope.locations
      ⟨tenantContext clinicUser noon, (clinic .active).after .location northDeleted⟩ := by decide +kernel
  have hbefore : clinicLocation 11 "south" ∉
      Scope.locations ⟨tenantContext clinicUser noon, clinic .active⟩ := by decide +kernel
  exact hbefore (hsub hafter)

end BaptistApi
