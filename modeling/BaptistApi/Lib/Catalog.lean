import BaptistApi.Lib.RowSecurity

/-!
# Catalogs

What a database keeps about access to its tables: privileges, row-level security and policies, and
the privileges that tables get when they are created. The statements that change it. Policies are
kept as text, in a language of expressions.
-/

namespace BaptistApi.Catalogs

open BaptistApi.RowSecurity

abbrev Privileges (Role : Type) : Type := Role → Command → Bool

namespace Privileges

variable {Role : Type} [DecidableEq Role]

def grant (p : Privileges Role) (cmds : List Command) (roles : List Role) : Privileges Role :=
  fun role cmd => p role cmd || (decide (role ∈ roles) && decide (cmd ∈ cmds))

def revoke (p : Privileges Role) (cmds : List Command) (roles : List Role) : Privileges Role :=
  fun role cmd => p role cmd && !(decide (role ∈ roles) && decide (cmd ∈ cmds))

end Privileges

/-- `CREATE POLICY`, with its expressions as they are written. -/
structure PolicyText (Role Expr : Type) where
  name : String
  command : Command
  roles : List Role
  using_ : Option Expr := none
  check : Option Expr := none
  deriving DecidableEq

@[ext]
structure TableState (Role Expr : Type) where
  grants : Privileges Role
  rowSecurity : Bool := false
  /-- Row security holds for the owner too. -/
  forced : Bool := false
  policies : List (PolicyText Role Expr) := []

/-- The default privileges are those of tables that are created later. -/
@[ext]
structure Catalog (Role Expr Rel : Type) where
  defaults : Privileges Role
  tables : Rel → Option (TableState Role Expr)

/-- A statement of a migration that says something about access. -/
inductive Ddl (Role Expr Rel : Type) where
  | createTable (t : Rel)
  | dropTable (t : Rel)
  | grant (cmds : List Command) (ts : List Rel) (roles : List Role)
  | grantOnAllTables (cmds : List Command) (roles : List Role)
  | revoke (cmds : List Command) (ts : List Rel) (roles : List Role)
  | alterDefaultPrivileges (cmds : List Command) (roles : List Role)
  | enableRowSecurity (t : Rel)
  | disableRowSecurity (t : Rel)
  | forceRowSecurity (t : Rel)
  | noForceRowSecurity (t : Rel)
  | createPolicy (t : Rel) (p : PolicyText Role Expr)
  | dropPolicyIfExists (name : String) (t : Rel)
  /-- `DROP SCHEMA .. CASCADE` of the schema whose functions every policy uses. -/
  | dropPolicyFunctions

namespace Catalog

variable {Role Expr Rel : Type} [DecidableEq Role] [DecidableEq Rel]

def put (c : Catalog Role Expr Rel) (t : Rel) (st : Option (TableState Role Expr)) : Catalog Role Expr Rel :=
  { c with tables := fun u => if u = t then st else c.tables u }

/-- A statement about a table that is not there fails. -/
def alter (c : Catalog Role Expr Rel) (t : Rel) (f : TableState Role Expr → Option (TableState Role Expr)) :
    Option (Catalog Role Expr Rel) := do
  let st ← c.tables t
  let st' ← f st
  return c.put t (some st')

def alterGrants (f : Privileges Role → Privileges Role) :
    List Rel → Catalog Role Expr Rel → Option (Catalog Role Expr Rel)
  | [], c => some c
  | t :: ts, c => do
    let c' ← c.alter t fun st => some { st with grants := f st.grants }
    alterGrants f ts c'

/-- One statement by `owner`, who owns what they create. -/
def exec (owner : Role) (c : Catalog Role Expr Rel) : Ddl Role Expr Rel → Option (Catalog Role Expr Rel)
  | .createTable t =>
    match c.tables t with
    | none => some (c.put t (some { grants := fun role cmd => decide (role = owner) || c.defaults role cmd }))
    | some _ => none
  | .dropTable t =>
    match c.tables t with
    | none => none
    | some _ => some (c.put t none)
  | .grant cmds ts roles => alterGrants (·.grant cmds roles) ts c
  | .grantOnAllTables cmds roles =>
    some { c with tables := fun t => (c.tables t).map fun st => { st with grants := st.grants.grant cmds roles } }
  | .revoke cmds ts roles => alterGrants (·.revoke cmds roles) ts c
  | .alterDefaultPrivileges cmds roles => some { c with defaults := c.defaults.grant cmds roles }
  | .enableRowSecurity t => c.alter t fun st => some { st with rowSecurity := true }
  | .disableRowSecurity t => c.alter t fun st => some { st with rowSecurity := false }
  | .forceRowSecurity t => c.alter t fun st => some { st with forced := true }
  | .noForceRowSecurity t => c.alter t fun st => some { st with forced := false }
  | .createPolicy t p =>
    c.alter t fun st =>
      if st.policies.any fun q => q.name == p.name then none
      else some { st with policies := st.policies ++ [p] }
  | .dropPolicyIfExists name t =>
    c.alter t fun st => some { st with policies := st.policies.filter fun q => q.name != name }
  | .dropPolicyFunctions =>
    some { c with tables := fun t => (c.tables t).map fun st => { st with policies := [] } }

/-- A migration: the first statement that fails undoes them all. -/
def execAll (owner : Role) :
    List (Ddl Role Expr Rel) → Catalog Role Expr Rel → Option (Catalog Role Expr Rel)
  | [], c => some c
  | d :: ds, c => do
    let c' ← c.exec owner d
    execAll owner ds c'

end Catalog

/-! ## Access -/

/-- The policy, once its expressions have a meaning. -/
def PolicyText.read {Role Expr Scope Draft : Type} (holds : Expr → Scope → Draft → Truth)
    (p : PolicyText Role Expr) : Policy Role Scope Draft :=
  { name := p.name, command := p.command, roles := p.roles
    using_ := p.using_.map holds, check := p.check.map holds }

namespace TableState

variable {Role Expr Scope Draft Row Err : Type} [DecidableEq Role]

/-- Row security is in the way of everybody but superusers, and of the owner when it is forced. -/
def protects (st : TableState Role Expr) (owner role : Role) : Bool :=
  st.rowSecurity && (decide (role ≠ owner) || st.forced)

/-- The table under these rules. Its superusers, triggers and columns are those of `tbl`. -/
def rule (st : TableState Role Expr) (owner : Role) (holds : Expr → Scope → Draft → Truth)
    (tbl : Table Role Scope Draft Row Err) : Table Role Scope Draft Row Err :=
  { tbl with
    grants := st.grants
    bypass := fun role => tbl.bypass role || !st.protects owner role
    policies := st.policies.map (PolicyText.read holds) }

theorem rule_reads_all {st : TableState Role Expr} {owner role : Role} {holds : Expr → Scope → Draft → Truth}
    {tbl : Table Role Scope Draft Row Err} (hg : st.grants role .select = true)
    (hp : st.protects owner role = false) {sc : Scope} {rows : List Row} {r : Row} (hr : r ∈ rows) :
    r ∈ (st.rule owner holds tbl).visible role sc rows := by
  refine (Table.mem_visible _).mpr ⟨hg, hr, ?_⟩
  have hb : (st.rule owner holds tbl).bypass role = true := by simp [rule, hp]
  rw [Table.readable, hb, Bool.true_or]

end TableState

end BaptistApi.Catalogs
