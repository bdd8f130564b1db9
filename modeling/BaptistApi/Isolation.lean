import BaptistApi.Constraints
import BaptistApi.Http
import Mathlib.Data.Prod.Lex
import Mathlib.Data.String.Basic

/-!
# Reads do not interfere

What a GET answers depends on the tenant's row, the user's profile and membership, and the locations
the user may read, and on nothing else in the database.
-/

namespace BaptistApi

open BaptistApi.Calendar BaptistApi.RowSecurity

/-! ## Two states that look the same -/

/-- The states agree on what the user of the tenant may know. -/
structure Agree (ctx : RequestContext) (now : Timestamp) (db db' : Db) : Prop where
  tenant : ∀ t, t.id = ctx.tenantId → (t ∈ db.tenant ↔ t ∈ db'.tenant)
  userProfile : ∀ u, u.id = ctx.actorId → (u ∈ db.userProfile ↔ u ∈ db'.userProfile)
  membership : ∀ m, m.tenantId = ctx.tenantId → m.userId = ctx.actorId →
    (m ∈ db.membership ↔ m ∈ db'.membership)
  membershipLocation : ∀ m ∈ db.membership, m.tenantId = ctx.tenantId → m.userId = ctx.actorId →
    ∀ ml, ml.membershipId = m.id → (ml ∈ db.membershipLocation ↔ ml ∈ db'.membershipLocation)
  location : ∀ l, l ∈ Scope.locations ⟨tenantContext ctx now, db⟩ ↔
    l ∈ Scope.locations ⟨tenantContext ctx now, db'⟩

/-! ## Queries of one row -/

theorem eq_of_mem_iff {α : Type} {l l' : List α} (hl : l.Nodup) (hl' : l'.Nodup) (hlen : l.length ≤ 1)
    (h : ∀ a, a ∈ l ↔ a ∈ l') : l = l' := by
  have hp : l.Perm l' := (List.perm_ext_iff_of_nodup hl hl').mpr h
  match l, hlen, hp with
  | [], _, hp => exact (List.nil_perm.mp hp).symm
  | [a], _, hp => exact List.singleton_perm.mp hp

theorem length_le_one_of_key {α κ : Type} {key : α → κ} {rows : List α} (h : (rows.map key).Nodup)
    {p : α → Bool} (hp : ∀ a ∈ rows, ∀ b ∈ rows, p a = true → p b = true → key a = key b) :
    (rows.filter p).length ≤ 1 := by
  have hnd : ((rows.filter p).map key).Nodup := h.sublist (List.filter_sublist.map key)
  match hf : rows.filter p with
  | [] => simp
  | [a] => simp
  | a :: b :: rest =>
    have ha : a ∈ rows.filter p := by rw [hf]; simp
    have hb : b ∈ rows.filter p := by rw [hf]; simp
    rw [List.mem_filter] at ha hb
    rw [hf] at hnd
    simp [hp a ha.1 b hb.1 ha.2 hb.2] at hnd

theorem oneOrNone_ok {α : Type} {l : List α} (h : l.length ≤ 1) : ∃ o, oneOrNone l = .ok o := by
  match l, h with
  | [], _ => exact ⟨none, rfl⟩
  | [a], _ => exact ⟨some a, rfl⟩

section Visible

variable {ctx : RequestContext} {now : Timestamp} {db : Db}

theorem mem_tenants {t : Tenant} :
    t ∈ Scope.tenants ⟨tenantContext ctx now, db⟩ ↔ t ∈ db.tenant ∧ t.id = ctx.tenantId := by
  rw [Scope.tenants, Table.mem_visible]
  simp [Table.readable, Table.passes, Tables.tenant, plainTable, grants, bypasses, tenantContext,
    Session.currentTenantId]

theorem mem_userProfiles {u : UserProfile} :
    u ∈ Scope.userProfiles ⟨tenantContext ctx now, db⟩ ↔ u ∈ db.userProfile ∧ u.id = ctx.actorId := by
  rw [Scope.userProfiles, Table.mem_visible]
  simp [Table.readable, Table.passes, Tables.userProfile, plainTable, grants, bypasses, tenantContext,
    Session.currentActorId]

theorem visible_sublist {Draft Row : Type} (t : Table DbRole Scope Draft Row SqlError) (role : DbRole)
    (sc : Scope) (rows : List Row) : (t.visible role sc rows).Sublist rows := by
  unfold Table.visible
  split
  · exact List.filter_sublist
  · exact List.nil_sublist _

theorem tenant_ids_nodup (h : constraintsOk db) : (db.tenant.map (·.id)).Nodup :=
  nodup_of_uniqueOk (h .tenant).1 fun r s heq => by simp [clash, heq]

theorem user_ids_nodup (h : constraintsOk db) : (db.userProfile.map (·.id)).Nodup :=
  nodup_of_uniqueOk (h .userProfile).1 fun r s heq => by simp [clash, heq]

theorem membership_keys_nodup (h : constraintsOk db) :
    (db.membership.map fun m => (m.tenantId, m.userId)).Nodup :=
  nodup_of_uniqueOk (h .membership).1 fun r s heq => by
    obtain ⟨h1, h2⟩ := Prod.mk.inj heq
    simp [clash, h1, h2]

theorem location_slugs_nodup (h : constraintsOk db) :
    (db.location.map fun l => (l.tenantId, l.slug)).Nodup :=
  nodup_of_uniqueOk (h .location).1 fun r s heq => by
    obtain ⟨h1, h2⟩ := Prod.mk.inj heq
    simp [clash, h1, h2]

theorem location_of_slug (h : constraintsOk db) {x y : Location} (hx : x ∈ db.location) (hy : y ∈ db.location)
    (ht : x.tenantId = y.tenantId) (hs : x.slug = y.slug) : x = y :=
  List.inj_on_of_nodup_map (location_slugs_nodup h) hx hy (Prod.ext ht hs)

end Visible

section Reads

variable {ctx : RequestContext} {now : Timestamp} {db db' : Db}

theorem lookup_eq {α κ : Type} {key : α → κ} {p : α → Bool} {l l' rows rows' : List α}
    (hsub : l.Sublist rows) (hsub' : l'.Sublist rows') (hkey : (rows.map key).Nodup)
    (hkey' : (rows'.map key).Nodup)
    (hp : ∀ a ∈ l, ∀ b ∈ l, p a = true → p b = true → key a = key b)
    (h : ∀ a, p a = true → (a ∈ l ↔ a ∈ l')) : l.filter p = l'.filter p := by
  have hnd : l.Nodup := (hkey.sublist (hsub.map key)).of_map key
  have hnd' : l'.Nodup := (hkey'.sublist (hsub'.map key)).of_map key
  refine eq_of_mem_iff (hnd.filter p) (hnd'.filter p)
    (length_le_one_of_key (hkey.sublist (hsub.map key)) hp) fun a => ?_
  rw [List.mem_filter, List.mem_filter]
  constructor
  · rintro ⟨ha, hpa⟩; exact ⟨(h a hpa).mp ha, hpa⟩
  · rintro ⟨ha, hpa⟩; exact ⟨(h a hpa).mpr ha, hpa⟩

variable (hdb : constraintsOk db) (hdb' : constraintsOk db') (h : Agree ctx now db db')

include hdb hdb' h

theorem users_eq :
    (Scope.userProfiles ⟨tenantContext ctx now, db⟩).filter (fun u => u.id == ctx.actorId) =
      (Scope.userProfiles ⟨tenantContext ctx now, db'⟩).filter (fun u => u.id == ctx.actorId) :=
  lookup_eq (visible_sublist _ _ _ _) (visible_sublist _ _ _ _) (user_ids_nodup hdb) (user_ids_nodup hdb')
    (fun a _ b _ ha hb => by rw [eq_of_beq ha, eq_of_beq hb]) fun u hu => by
    rw [mem_userProfiles, mem_userProfiles, h.userProfile u (eq_of_beq hu)]

theorem tenants_eq :
    (Scope.tenants ⟨tenantContext ctx now, db⟩).filter (fun t => t.id == ctx.tenantId) =
      (Scope.tenants ⟨tenantContext ctx now, db'⟩).filter (fun t => t.id == ctx.tenantId) :=
  lookup_eq (visible_sublist _ _ _ _) (visible_sublist _ _ _ _) (tenant_ids_nodup hdb)
    (tenant_ids_nodup hdb') (fun a _ b _ ha hb => by rw [eq_of_beq ha, eq_of_beq hb]) fun t ht => by
    rw [mem_tenants, mem_tenants, h.tenant t (eq_of_beq ht)]

theorem memberships_eq :
    (Scope.memberships ⟨tenantContext ctx now, db⟩).filter
        (fun m => m.tenantId == ctx.tenantId && m.userId == ctx.actorId) =
      (Scope.memberships ⟨tenantContext ctx now, db'⟩).filter
        (fun m => m.tenantId == ctx.tenantId && m.userId == ctx.actorId) := by
  refine lookup_eq (visible_sublist _ _ _ _) (visible_sublist _ _ _ _) (membership_keys_nodup hdb)
    (membership_keys_nodup hdb') ?_ ?_
  · intro a _ b _ ha hb
    simp only [Bool.and_eq_true, beq_iff_eq] at ha hb
    rw [ha.1, ha.2, hb.1, hb.2]
  · intro m hm
    simp only [Bool.and_eq_true, beq_iff_eq] at hm
    rw [mem_memberships, mem_memberships, h.membership m hm.1 hm.2]

theorem meQuery_eq :
    meQuery ⟨tenantContext ctx now, db⟩ ctx.tenantId ctx.actorId =
      meQuery ⟨tenantContext ctx now, db'⟩ ctx.tenantId ctx.actorId := by
  unfold meQuery
  rw [users_eq hdb hdb' h, tenants_eq hdb hdb' h]
  refine List.flatMap_congr fun u hu => List.flatMap_congr fun t ht => ?_
  rw [List.mem_filter] at hu ht
  rw [eq_of_beq hu.2, eq_of_beq ht.2, memberships_eq hdb hdb' h]

theorem slug_eq (slug : String) :
    (Scope.locations ⟨tenantContext ctx now, db⟩).filter (fun l => l.slug == slug) =
      (Scope.locations ⟨tenantContext ctx now, db'⟩).filter (fun l => l.slug == slug) := by
  refine lookup_eq (visible_sublist _ _ _ _) (visible_sublist _ _ _ _) (location_slugs_nodup hdb)
    (location_slugs_nodup hdb') ?_ (fun l _ => h.location l)
  intro a ha b hb hsa hsb
  rw [(mem_locations.mp ha).2.1, (mem_locations.mp hb).2.1, eq_of_beq hsa, eq_of_beq hsb]

theorem listRows_eq {byName : OrderByName} (hfixed : byName.Fixed) (fleet : Option FleetKind)
    (p : ListParams) :
    listRows byName ⟨tenantContext ctx now, db⟩ fleet p =
      listRows byName ⟨tenantContext ctx now, db'⟩ fleet p := by
  have hids : ((Scope.locations ⟨tenantContext ctx now, db⟩).map (·.id)).Nodup :=
    (location_ids_nodup (hdb .location).1).sublist ((visible_sublist _ _ _ _).map _)
  have hids' : ((Scope.locations ⟨tenantContext ctx now, db'⟩).map (·.id)).Nodup :=
    (location_ids_nodup (hdb' .location).1).sublist ((visible_sublist _ _ _ _).map _)
  have hperm : (Scope.locations ⟨tenantContext ctx now, db⟩).Perm
      (Scope.locations ⟨tenantContext ctx now, db'⟩) :=
    (List.perm_ext_iff_of_nodup (hids.of_map _) (hids'.of_map _)).mpr h.location
  have hfilter := hperm.filter (matchesFilters fleet p)
  have hsort := hfixed _ _ (hids.sublist (List.filter_sublist.map _)) hfilter
  simp only [listRows, hsort, hfilter.length_eq]

end Reads

/-! ## The answers -/

/-- The two states give the same answers. -/
structure SameReads (ser : Serializer) (byName : OrderByName) (ctx : RequestContext) (sc sc' : Scope) :
    Prop where
  me : ∀ ifNoneMatch, getMe ser ctx sc ifNoneMatch = getMe ser ctx sc' ifNoneMatch
  locations : ∀ p ifNoneMatch,
    listLocations ser byName ctx sc p ifNoneMatch = listLocations ser byName ctx sc' p ifNoneMatch
  location : ∀ slug ifNoneMatch,
    getLocation ser ctx sc slug ifNoneMatch = getLocation ser ctx sc' slug ifNoneMatch

/-- The look-ups of one row find at most one. -/
structure LookupsAreUnique (ctx : RequestContext) (sc : Scope) : Prop where
  me : ∃ row, oneOrNone (meQuery sc ctx.tenantId ctx.actorId) = .ok row
  location : ∀ slug, ∃ l, getBySlug sc slug = .ok l

theorem length_flatMap_le_one {α β : Type} {l : List α} {f : α → List β} (hl : l.length ≤ 1)
    (hf : ∀ a ∈ l, (f a).length ≤ 1) : (l.flatMap f).length ≤ 1 := by
  match l, hl with
  | [], _ => simp
  | [a], _ => simpa using hf a (by simp)

theorem lookups_unique {ctx : RequestContext} {now : Timestamp} {db : Db} (hdb : constraintsOk db) :
    LookupsAreUnique ctx ⟨tenantContext ctx now, db⟩ := by
  have sub {Draft Row κ : Type} {t : Table DbRole Scope Draft Row SqlError} {rows : List Row} {key : Row → κ}
      (hk : (rows.map key).Nodup) {p : Row → Bool}
      (hp : ∀ a ∈ t.visible .appApi ⟨tenantContext ctx now, db⟩ rows,
        ∀ b ∈ t.visible .appApi ⟨tenantContext ctx now, db⟩ rows, p a = true → p b = true → key a = key b) :
      ((t.visible .appApi ⟨tenantContext ctx now, db⟩ rows).filter p).length ≤ 1 :=
    length_le_one_of_key (hk.sublist ((visible_sublist _ _ _ _).map key)) hp
  refine ⟨oneOrNone_ok ?_, fun slug => oneOrNone_ok ?_⟩
  · refine length_flatMap_le_one (sub (user_ids_nodup hdb) ?_) fun u hu =>
      length_flatMap_le_one (sub (tenant_ids_nodup hdb) ?_) fun t ht => ?_
    · exact fun a _ b _ ha hb => by rw [eq_of_beq ha, eq_of_beq hb]
    · exact fun a _ b _ ha hb => by rw [eq_of_beq ha, eq_of_beq hb]
    · have hm : ((Scope.memberships ⟨tenantContext ctx now, db⟩).filter
          fun m => m.tenantId == t.id && m.userId == u.id).length ≤ 1 := by
        refine sub (membership_keys_nodup hdb) ?_
        intro a _ b _ ha hb
        simp only [Bool.and_eq_true, beq_iff_eq] at ha hb
        rw [ha.1, ha.2, hb.1, hb.2]
      split
      · simp
      · rw [List.length_map]
        exact hm
  · refine sub (location_slugs_nodup hdb) ?_
    intro a ha b hb hsa hsb
    rw [(mem_locations.mp ha).2.1, (mem_locations.mp hb).2.1, eq_of_beq hsa, eq_of_beq hsb]

/-- **Reads do not interfere.** -/
theorem reads_noninterfering (ser : Serializer) {byName : OrderByName} (hfixed : byName.Fixed)
    {ctx : RequestContext} {now : Timestamp} {db db' : Db} (hdb : constraintsOk db)
    (hdb' : constraintsOk db') (h : Agree ctx now db db') :
    SameReads ser byName ctx ⟨tenantContext ctx now, db⟩ ⟨tenantContext ctx now, db'⟩ ∧
      LookupsAreUnique ctx ⟨tenantContext ctx now, db⟩ := by
  refine ⟨⟨fun inm => ?_, fun p inm => ?_, fun slug inm => ?_⟩, lookups_unique hdb⟩
  · unfold getMe
    rw [meQuery_eq hdb hdb' h]
  · unfold listLocations
    simp only [listRows_eq hdb hdb' h hfixed]
  · unfold getLocation getBySlug
    rw [slug_eq hdb hdb' h]

/-! ### Ties broken by id -/

def nameThenId (l : Location) : Lex (String × ℕ) := toLex (l.name, l.id.toNat)

def sortByNameThenId (rows : List Location) : List Location :=
  rows.mergeSort fun l l' => decide (nameThenId l ≤ nameThenId l')

theorem pairwise_sortByNameThenId (rows : List Location) :
    (sortByNameThenId rows).Pairwise fun l l' => nameThenId l ≤ nameThenId l' := by
  have hs : (sortByNameThenId rows).Pairwise
      fun l l' => decide (nameThenId l ≤ nameThenId l') = true := by
    apply List.pairwise_mergeSort
    · simp only [decide_eq_true_eq]
      exact fun a b c => le_trans
    · simp only [Bool.or_eq_true, decide_eq_true_eq]
      exact fun a b => le_total _ _
  exact hs.imp fun h => of_decide_eq_true h

def byNameThenId : OrderByName where
  le a b := decide (a ≤ b)
  sort := sortByNameThenId
  perm rows := List.mergeSort_perm _ _
  sorted rows := by
    refine (pairwise_sortByNameThenId rows).imp fun {l l'} h => ?_
    rw [nameThenId, nameThenId, Prod.Lex.toLex_le_toLex] at h
    rw [decide_eq_true_eq]
    exact h.elim le_of_lt fun h => h.1.le

theorem byNameThenId_fixed : byNameThenId.Fixed := by
  intro rows rows' hids hperm
  have hsame := ((byNameThenId.perm rows).trans hperm).trans (byNameThenId.perm rows').symm
  refine hsame.eq_of_pairwise (fun a b ha hb hab hba => ?_) (pairwise_sortByNameThenId rows)
    (pairwise_sortByNameThenId rows')
  -- Equal keys mean equal ids, and ids are distinct here.
  have hkey : nameThenId a = nameThenId b := le_antisymm hab hba
  have hid : a.id = b.id := BitVec.eq_of_toNat_eq (congrArg (fun k => (ofLex k).2) hkey)
  exact List.inj_on_of_nodup_map hids ((byNameThenId.perm rows).mem_iff.mp ha)
    (hperm.mem_iff.mpr ((byNameThenId.perm rows').mem_iff.mp hb)) hid

/-- The clinic beside another tenant that uses one of its slugs, and with the unreadable location renamed. -/
def sharedClinic : Db :=
  { clinic .active with
    tenant := (clinic .active).tenant ++ [{ id := 5, slug := "other", name := "Other", tier := "baptist" }]
    location := [clinicLocation 10 "north", { clinicLocation 11 "south" with name := "renamed" },
      { clinicLocation 12 "north" with tenantId := 5 }] }

theorem reads_noninterfering_clinic :
    SameReads ⟨id, fun _ => "", fun _ _ => "", fun _ => ""⟩ byNameThenId clinicUser
        ⟨tenantContext clinicUser noon, clinic .active⟩ ⟨tenantContext clinicUser noon, sharedClinic⟩ ∧
      LookupsAreUnique clinicUser ⟨tenantContext clinicUser noon, clinic .active⟩ :=
  reads_noninterfering _ byNameThenId_fixed (by decide +kernel) (by decide +kernel)
    { tenant := by
        intro t ht
        simp only [sharedClinic, List.mem_append, List.mem_singleton]
        refine ⟨Or.inl, fun h => h.resolve_right ?_⟩
        rintro rfl
        exact absurd ht (by decide)
      userProfile := fun _ _ => Iff.rfl
      membership := fun _ _ _ => Iff.rfl
      membershipLocation := fun _ _ _ _ _ _ => Iff.rfl
      location := by
        have hsame : Scope.locations ⟨tenantContext clinicUser noon, clinic .active⟩ =
          Scope.locations ⟨tenantContext clinicUser noon, sharedClinic⟩ := by decide +kernel
        exact fun l => by rw [hsame] }

end BaptistApi
