import BaptistApi.Migrations
import BaptistApi.Ownership
import Mathlib.Data.Fintype.OfMap

/-!
# What a path of migrations leaves open

A database under migrations passes through nine stages. In two of them `app_api` holds its privileges
and no row security is in the way: after 0002 has been rolled back, and when 0001 is applied again
after that, since the default privileges outlive the tables.
-/

namespace BaptistApi

open BaptistApi.Catalogs BaptistApi.RowSecurity

/-! ## Stages -/

inductive Stage where
  | fresh | spine
  | secured2 | secured3 | secured4 | secured5
  | rolledBack | emptied | recreated
  deriving DecidableEq

namespace Stage

def revision : Stage → Revision
  | fresh => .base
  | spine => .r0001
  | secured2 => .r0002
  | secured3 => .r0003
  | secured4 => .r0004
  | secured5 => .r0005
  | rolledBack => .r0001
  | emptied => .base
  | recreated => .r0001

def next : Stage → Direction → Stage
  | fresh, .upgrade => spine
  | spine, .upgrade => secured2
  | secured2, .upgrade => secured3
  | secured3, .upgrade => secured4
  | secured4, .upgrade => secured5
  | secured5, .upgrade => secured5
  | rolledBack, .upgrade => secured2
  | emptied, .upgrade => recreated
  | recreated, .upgrade => secured2
  | fresh, .downgrade => fresh
  | spine, .downgrade => fresh
  | secured2, .downgrade => rolledBack
  | secured3, .downgrade => secured2
  | secured4, .downgrade => secured3
  | secured5, .downgrade => secured4
  | rolledBack, .downgrade => emptied
  | emptied, .downgrade => emptied
  | recreated, .downgrade => emptied

def run (s : Stage) (path : List Direction) : Stage := path.foldl next s

theorem run_snoc (s : Stage) (path : List Direction) (d : Direction) :
    s.run (path ++ [d]) = (s.run path).next d := List.foldl_append

def tables : Stage → List Relation
  | fresh => []
  | emptied => []
  | spine => Migrations.spineTables
  | rolledBack => Migrations.spineTables
  | recreated => Migrations.spineTables
  | secured2 => Migrations.spineTables
  | secured3 => Migrations.spineTables ++ [.location, .locationAlias]
  | secured4 => Migrations.spineTables ++ [.location, .locationAlias, .auditCard, .costLedger, .costBudget]
  | secured5 => Relation.all

/-- No privilege of the roles of the application is left or was ever there. -/
def untouched : Stage → Bool
  | fresh => true
  | spine => true
  | _ => false

def secured : Stage → Bool
  | secured2 => true
  | secured3 => true
  | secured4 => true
  | secured5 => true
  | _ => false

/-- The default privileges of 0002. -/
def defaultPrivileges : DbRole → Command → Bool
  | .appApi, _ => true
  | .appWorker, cmd => cmd = .select
  | .appReadonly, cmd => cmd = .select
  | .appMigrator, _ => false

/-- The policies that the upgrades create on a table. -/
def policyTexts (t : Relation) : List (PolicyText DbRole Condition) :=
  [Migrations.upgrade0002, Migrations.upgrade0003, Migrations.upgrade0004, Migrations.upgrade0005].flatten.filterMap
    fun
    | .createPolicy u p => if u = t then some p else none
    | _ => none

/-- The rules of a table in a stage that has it. -/
def tableState (s : Stage) (t : Relation) : TableState DbRole Condition :=
  match s with
  | spine => { grants := fun role _ => role = .appMigrator }
  | rolledBack => { grants := grants t }
  | recreated => { grants := fun role cmd => decide (role = .appMigrator) || defaultPrivileges role cmd }
  | _ => { grants := grants t, rowSecurity := true, forced := true, policies := policyTexts t }

def catalog (s : Stage) : Catalog where
  defaults := if s.untouched then fun _ _ => false else defaultPrivileges
  tables t := if t ∈ s.tables then some (s.tableState t) else none

def migrated (s : Stage) : Migrated := { revision := s.revision, catalog := s.catalog }

end Stage

/-! ## The migrations go from stage to stage -/

instance : Fintype Command :=
  Fintype.ofList [.select, .insert, .update, .delete] fun cmd => by cases cmd <;> simp

instance : Fintype DbRole :=
  Fintype.ofList [.appMigrator, .appApi, .appWorker, .appReadonly] fun role => by cases role <;> simp

instance : Fintype Relation := Fintype.ofList Relation.all Relation.mem_all

def SameRules : Option (TableState DbRole Condition) → Option (TableState DbRole Condition) → Prop
  | none, none => True
  | some st, some st' =>
    (∀ role cmd, st.grants role cmd = st'.grants role cmd) ∧ st.rowSecurity = st'.rowSecurity ∧
      st.forced = st'.forced ∧ st.policies = st'.policies
  | _, _ => False

instance : (st st' : Option (TableState DbRole Condition)) → Decidable (SameRules st st')
  | none, none => isTrue trivial
  | some _, some _ => inferInstanceAs (Decidable (_ ∧ _ ∧ _ ∧ _))
  | none, some _ => isFalse id
  | some _, none => isFalse id

theorem SameRules.eq {st st' : Option (TableState DbRole Condition)} (h : SameRules st st') : st = st' := by
  match st, st', h with
  | none, none, _ => rfl
  | some a, some b, ⟨hgrants, hrow, hforced, hpolicies⟩ =>
    exact congrArg some (TableState.ext (funext fun role => funext (hgrants role)) hrow hforced hpolicies)

def SameCatalog (c c' : Catalog) : Prop :=
  (∀ role cmd, c.defaults role cmd = c'.defaults role cmd) ∧ ∀ t, SameRules (c.tables t) (c'.tables t)

instance (c c' : Catalog) : Decidable (SameCatalog c c') := inferInstanceAs (Decidable (_ ∧ _))

theorem SameCatalog.eq {c c' : Catalog} (h : SameCatalog c c') : c = c' :=
  Catalogs.Catalog.ext (funext fun role => funext (h.1 role)) (funext fun t => (h.2 t).eq)

/-- No migration fails, and each leads from stage to stage. -/
theorem step_stage (s : Stage) (d : Direction) : s.migrated.step d = (s.next d).migrated := by
  have hsame : (s.migrated.step d).revision = (s.next d).revision ∧
      SameCatalog (s.migrated.step d).catalog (s.next d).catalog := by
    cases s <;> cases d <;> decide +kernel
  obtain ⟨hrevision, hcatalog⟩ := hsame
  exact congrArg₂ Migrated.mk hrevision hcatalog.eq

theorem run_stage (path : List Direction) : Migrated.initial.run path = (Stage.fresh.run path).migrated := by
  induction path using List.reverseRecOn with
  | nil =>
    have hsame : SameCatalog Migrated.initial.catalog Stage.fresh.catalog := by decide +kernel
    exact congrArg₂ Migrated.mk rfl hsame.eq
  | append_singleton path d ih =>
    rw [Migrated.run_snoc, ih, step_stage, Stage.run_snoc]

theorem run_revision (path : List Direction) : (Stage.fresh.run path).revision = Revision.base.run path := by
  induction path using List.reverseRecOn with
  | nil => rfl
  | append_singleton path d ih =>
    rw [Stage.run_snoc, Revision.run_snoc, ← ih]
    cases Stage.fresh.run path <;> cases d <;> rfl

/-! ## Tables under row security -/

/-- The texts of the migrations say what the policies of the tables say. -/
theorem policyTexts_read (t : Relation) :
    (Stage.policyTexts t).map (PolicyText.read (Condition.holds t)) = (table t).policies := by
  cases t <;> rfl

theorem secured_table {s : Stage} (hs : s.secured = true) {t : Relation} (ht : t ∈ s.tables) :
    s.migrated.table t = some (table t) := by
  have hstate : s.tableState t =
      { grants := grants t, rowSecurity := true, forced := true, policies := Stage.policyTexts t } := by
    cases s <;> first | rfl | cases hs
  have hbypass : (fun role => (table t).bypass role || !(s.tableState t).protects .appMigrator role) =
      (table t).bypass := by
    funext role
    simp [hstate, TableState.protects]
  have hgrants : (table t).grants = grants t := by cases t <;> rfl
  have hentry : s.migrated.catalog.tables t = some (s.tableState t) := if_pos ht
  rw [Migrated.table, hentry, Option.map_some, TableState.rule, hbypass, hstate, policyTexts_read, ← hgrants]

/-- Where the upgrades lead to is what the other modules take the tables to be. -/
theorem upgraded_table (t : Relation) :
    (Migrated.initial.run (List.replicate 5 .upgrade)).table t = some (table t) := by
  rw [run_stage]
  exact secured_table rfl (Relation.mem_all t)

/-! ## Who reaches what -/

/-- The tenant of a row, which a row of `tenant` is itself. -/
def heldBy (db : Db) : (t : Relation) → Row t → Uuid → Prop
  | .tenant, r, tenantId => r.id = tenantId
  | t, r, tenantId => belongsTo db t r tenantId

def Migrated.reads (m : Migrated) (s : Session) (db : Db) {t : Relation} (r : Row t) : Prop :=
  ∃ tbl ∈ m.table t, r ∈ tbl.visible s.currentUser ⟨s, db⟩ (db.rows t)

/-- An UPDATE or DELETE that reads no column reaches the row. -/
def Migrated.changes (m : Migrated) (s : Session) (db : Db) (cmd : Command) {t : Relation} (r : Row t) : Prop :=
  ∃ tbl ∈ m.table t, r ∈ db.rows t ∧ tbl.mayUse s.currentUser cmd false = true ∧
    tbl.reaches s.currentUser cmd false ⟨s, db⟩ r = true

/-- Whatever the tables hold, `app_api` reaches only rows of the tenant that it is bound to. Profiles
belong to no tenant. -/
def Isolated (m : Migrated) : Prop :=
  ∀ (db : Db) (s : Session) (tenantId : Uuid), s.currentUser = .appApi → s.currentTenantId = some tenantId →
    ∀ t, t ≠ .userProfile → ∀ r : Row t,
      m.reads s db r ∨ m.changes s db .update r ∨ m.changes s db .delete r → heldBy db t r tenantId

theorem heldBy_of_owned {s : Session} {db : Db} {tenantId : Uuid} (hs : s.currentTenantId = some tenantId)
    {t : Relation} {r : Row t} (h : ownedByBound ⟨s, db⟩ t ((table t).embed r)) : heldBy db t r tenantId := by
  obtain ⟨tenantId', hbound, hbelongs⟩ := inBoundTenant_of_owned h
  obtain rfl : tenantId = tenantId' := Option.some.inj (hs.symm.trans hbound)
  cases t with
  | tenant => exact hbelongs.elim
  | _ => exact hbelongs

theorem reads_own {s : Session} {db : Db} {tenantId : Uuid} (hs : s.currentTenantId = some tenantId)
    {t : Relation} (ht : t ≠ .userProfile) {r : Row t}
    (h : (table t).passes .select (·.using_) .appApi ⟨s, db⟩ ((table t).embed r) = true) :
    heldBy db t r tenantId := by
  cases t with
  | userProfile => exact absurd rfl ht
  | tenant =>
    have hid : some r.id = s.currentTenantId := by
      simpa [Table.passes, table, Tables.tenant, plainTable] using h
    exact Option.some.inj (hid.trans hs)
  | membershipLocation => exact heldBy_of_owned hs (membershipIsBound_of_passes membershipLocation_using h)
  | location =>
    have hboth : sqlAnd (tenantIsBound ⟨s, db⟩ ((table .location).embed r))
        (some (canReadLocation ⟨s, db⟩ ((table .location).embed r).row.id)) = some true := by
      simpa [Table.passes, table, Tables.location, tenantTable, selectTenant, insertTenant, updateTenant,
        deleteTenant] using h
    exact heldBy_of_owned hs (sqlAnd_true.mp hboth).1
  | _ =>
    refine heldBy_of_owned hs (bound_of_passes (fun p hp hc f hf => ?_) h)
    -- The policies of other commands are in the list too.
    have hselect : p.using_ = some tenantIsBound := by
      simp only [table, Tables.membership, Tables.tenantCredential, Tables.locationAlias, Tables.auditCard,
        Tables.costLedger, Tables.costBudget, Tables.costPreview, Tables.approval, tenantTable, List.mem_cons,
        List.not_mem_nil, or_false] at hp
      rcases hp with rfl | hp
      · rfl
      · exfalso
        revert hc
        rcases hp with rfl | rfl | rfl <;> decide
    exact Option.some.inj (hf.symm.trans hselect)

theorem reaches_own {s : Session} {db : Db} {tenantId : Uuid} (hs : s.currentTenantId = some tenantId)
    {t : Relation} {r : Row t}
    (ht : t ≠ .userProfile) {cmd : Command} (hcmd : cmd ≠ .insert)
    (h : ((table t).bypass .appApi || (table t).passes cmd (·.using_) .appApi ⟨s, db⟩ ((table t).embed r)) = true) :
    heldBy db t r tenantId := by
  have hguard := @table_guarded t .appApi (by decide)
  rw [hguard.subject, Bool.false_or] at h
  cases cmd with
  | select => exact reads_own hs ht h
  | insert => exact absurd rfl hcmd
  | update => exact heldBy_of_owned hs (hguard.update _ _ h)
  | delete => exact heldBy_of_owned hs (hguard.delete _ _ h)

/-! ## Which stages are safe -/

/-- The privileges are there and row security is not. -/
def Stage.opened : Stage → Bool
  | rolledBack => true
  | recreated => true
  | _ => false

theorem secured_isolated {s : Stage} (hs : s.secured = true) : Isolated s.migrated := by
  intro db session tenantId hrole hbound t ht r hreach
  have hfinal {tbl : Table DbRole Scope (Draft t) (Row t) SqlError} (htbl : tbl ∈ s.migrated.table t) :
      tbl = table t := by
    by_cases hin : t ∈ s.tables
    · rw [secured_table hs hin] at htbl
      exact (Option.some.inj htbl).symm
    · rw [Migrated.table, show s.migrated.catalog.tables t = none from if_neg hin] at htbl
      cases htbl
  rcases hreach with ⟨tbl, htbl, hr⟩ | ⟨tbl, htbl, -, -, hr⟩ | ⟨tbl, htbl, -, -, hr⟩
  · rw [hfinal htbl, hrole] at hr
    exact reaches_own hbound ht (by decide) ((Table.mem_visible _).mp hr).2.2
  · rw [hfinal htbl, hrole] at hr
    exact reaches_own hbound ht (by decide) (Bool.and_eq_true_iff.mp hr).1
  · rw [hfinal htbl, hrole] at hr
    exact reaches_own hbound ht (by decide) (Bool.and_eq_true_iff.mp hr).1

theorem untouched_isolated {s : Stage} (hs : ∀ t, ∀ st ∈ s.catalog.tables t, ∀ cmd, st.grants .appApi cmd = false) :
    Isolated s.migrated := by
  intro db session tenantId hrole hbound t ht r hreach
  have hgrants {tbl : Table DbRole Scope (Draft t) (Row t) SqlError} (htbl : tbl ∈ s.migrated.table t)
      (cmd : Command) : tbl.grants session.currentUser cmd = false := by
    obtain ⟨st, hst, rfl⟩ := Option.map_eq_some_iff.mp htbl
    rw [hrole]
    exact hs t st hst cmd
  rcases hreach with ⟨tbl, htbl, hr⟩ | ⟨tbl, htbl, -, hmay, -⟩ | ⟨tbl, htbl, -, hmay, -⟩
  · have hno := ((Table.mem_visible _).mp hr).1
    rw [hgrants htbl] at hno
    cases hno
  · simp [Table.mayUse, hgrants htbl] at hmay
  · simp [Table.mayUse, hgrants htbl] at hmay

def rival : Row .tenant := { id := 2, slug := "rival", name := "Rival", tier := "agency_client" }

def twoTenants : Db :=
  { tenant := [{ id := 1, slug := "clinic", name := "Clinic", tier := "agency_client" }, rival] }

theorem opened_not_isolated {s : Stage} (hs : s.opened = true) : ¬ Isolated s.migrated := by
  intro h
  have hstate : s.migrated.catalog.tables .tenant = some (s.tableState .tenant) := by
    cases s <;> first | rfl | cases hs
  have hgrant : (s.tableState .tenant).grants .appApi .select = true := by
    cases s <;> first | rfl | cases hs
  have hprotects : (s.tableState .tenant).protects .appMigrator .appApi = false := by
    cases s <;> first | rfl | cases hs
  have hread : s.migrated.reads (tenantContext clinicUser noon) twoTenants rival := by
    refine ⟨(s.tableState .tenant).rule .appMigrator (Condition.holds .tenant) (table .tenant), ?_,
      TableState.rule_reads_all hgrant hprotects (List.mem_cons_of_mem _ List.mem_cons_self)⟩
    rw [Migrated.table, hstate]
    rfl
  have hheld : (2 : Uuid) = 1 :=
    h twoTenants (tenantContext clinicUser noon) 1 rfl rfl .tenant (by decide) rival (Or.inl hread)
  exact absurd hheld (by decide)

theorem isolated_iff_stage (s : Stage) : Isolated s.migrated ↔ s.opened = false := by
  constructor
  · intro h
    by_contra hopen
    exact opened_not_isolated (Bool.eq_true_of_not_eq_false hopen) h
  · intro hclosed
    cases s with
    | rolledBack => cases hclosed
    | recreated => cases hclosed
    | secured2 => exact secured_isolated rfl
    | secured3 => exact secured_isolated rfl
    | secured4 => exact secured_isolated rfl
    | secured5 => exact secured_isolated rfl
    | fresh => exact untouched_isolated (by decide +kernel)
    | spine => exact untouched_isolated (by decide +kernel)
    | emptied => exact untouched_isolated (by decide +kernel)

/-! ## Paths -/

def KeepsPolicies (path : List Direction) : Prop :=
  ∀ before after, path = before ++ .downgrade :: after → Revision.base.run before ≠ .r0002

theorem KeepsPolicies.stage {path : List Direction} (h : KeepsPolicies path) :
    Stage.fresh.run path ∉ [Stage.rolledBack, .emptied, .recreated] := by
  induction path using List.reverseRecOn with
  | nil => decide
  | append_singleton path d ih =>
    have hbefore := ih fun before after hsplit => h before (after ++ [d]) (by rw [hsplit]; simp)
    have hlast : d = .downgrade → (Stage.fresh.run path).revision ≠ .r0002 := by
      rintro rfl
      rw [run_revision]
      exact h path [] rfl
    rw [Stage.run_snoc]
    revert hbefore hlast
    generalize Stage.fresh.run path = s
    cases s <;> cases d <;> decide

/-- **Migrations keep tenants apart along a path exactly when it never downgrades from 0002.** That
downgrade drops the policies and keeps the grants. -/
theorem migrations_isolated_iff (path : List Direction) :
    (∀ before after, path = before ++ after → Isolated (Migrated.initial.run before)) ↔ KeepsPolicies path := by
  constructor
  · rintro h before after rfl hrevision
    have hsafe := h (before ++ [.downgrade]) after (by simp)
    rw [run_stage, isolated_iff_stage, Stage.run_snoc] at hsafe
    rw [← run_revision] at hrevision
    revert hsafe hrevision
    generalize Stage.fresh.run before = s
    cases s <;> decide
  · rintro h before after rfl
    rw [run_stage, isolated_iff_stage]
    have hbefore : KeepsPolicies before := fun early late hsplit =>
      h early (late ++ after) (by rw [hsplit]; simp)
    have hstage := hbefore.stage
    revert hstage
    generalize Stage.fresh.run before = s
    cases s <;> decide

/-- 0001 and 0002, and 0002 back. -/
theorem rollback_opens_tenants : ¬ ∀ path : List Direction, Isolated (Migrated.initial.run path) := by
  intro h
  have hsafe := h [.upgrade, .upgrade, .downgrade]
  rw [run_stage] at hsafe
  exact opened_not_isolated rfl hsafe

/-! ## What a path leaves behind -/

/-- The revisions that come with 0002. -/
def Revision.secured : Revision → Bool
  | .base => false
  | .r0001 => false
  | _ => true

theorem Stage.eq_of_revision {s s' : Stage} (h : s.revision = s'.revision) (hs : s.revision.secured = true) : s = s' := by
  revert h hs
  cases s <;> cases s' <;> decide

theorem Stage.run_append (s : Stage) (path path' : List Direction) : s.run (path ++ path') = (s.run path).run path' :=
  List.foldl_append

/-- **What a database has been through is forgotten at 0002.** No migration of a path fails, paths that lead to the
same revision from 0002 on leave the same privileges, flags and policies, and five upgrades lead from everywhere to
what they make of an empty database. -/
theorem catalogs_converge (path : List Direction) :
    (Migrated.initial.run path).revision = Revision.base.run path ∧
      (∀ path', (Revision.base.run path).secured = true → Revision.base.run path = Revision.base.run path' →
        Migrated.initial.run path = Migrated.initial.run path') ∧
      Migrated.initial.run (path ++ List.replicate 5 .upgrade) = Migrated.initial.run (List.replicate 5 .upgrade) := by
  refine ⟨?_, fun path' hsecured hsame => ?_, ?_⟩
  · rw [run_stage, ← run_revision]
    rfl
  · rw [run_stage, run_stage]
    rw [← run_revision] at hsecured
    rw [← run_revision, ← run_revision] at hsame
    rw [Stage.eq_of_revision hsame hsecured]
  · rw [run_stage, run_stage, Stage.run_append]
    generalize Stage.fresh.run path = s
    cases s <;> rfl

end BaptistApi
