import Mathlib.Data.List.Forall2
import Mathlib.Data.List.Nodup

/-!
# Row-level security

A table with its grants, permissive policies and row triggers, and what INSERT, UPDATE and DELETE
make of its rows under them. A policy lets a row pass only when its expression is true: NULL denies.
-/

namespace BaptistApi.RowSecurity

/-! ## Three-valued logic -/

/-- The value of a boolean expression: `none` is NULL. -/
abbrev Truth := Option Bool

def sqlEq {α : Type} [DecidableEq α] (a b : Option α) : Truth :=
  match a, b with
  | some x, some y => some (decide (x = y))
  | _, _ => none

def sqlAnd : Truth → Truth → Truth
  | some true, q => q
  | some false, _ => some false
  | none, some false => some false
  | none, _ => none

@[simp] theorem sqlEq_true {α : Type} [DecidableEq α] {a b : Option α} :
    sqlEq a b = some true ↔ a ≠ none ∧ a = b := by
  cases a <;> cases b <;> simp [sqlEq]

@[simp] theorem sqlAnd_true {p q : Truth} : sqlAnd p q = some true ↔ p = some true ∧ q = some true := by
  rcases p with _ | _ | _ <;> rcases q with _ | _ | _ <;> simp [sqlAnd]

/-! ## Tables -/

inductive Command where
  | select | insert | update | delete
  deriving DecidableEq

/-- `CREATE POLICY name ON t FOR command TO roles USING (..) WITH CHECK (..)`. -/
structure Policy (Role Scope Draft : Type) where
  name : String
  command : Command
  roles : List Role
  using_ : Option (Scope → Draft → Truth) := none
  check : Option (Scope → Draft → Truth) := none

/-- A table under row security. A `Draft` is a row as a statement gives it, where a column may still
be NULL; a `Row` is a row as it is stored. A `Scope` is what a policy or a trigger may look at. -/
structure Table (Role Scope Draft Row Err : Type) where
  grants : Role → Command → Bool
  /-- Superusers and roles with BYPASSRLS. -/
  bypass : Role → Bool
  policies : List (Policy Role Scope Draft)
  beforeInsert : Scope → Draft → Except Err Draft
  beforeUpdate : Scope → Row → Draft → Except Err Draft
  beforeDelete : Scope → Row → Except Err Unit
  embed : Row → Draft
  complete : Draft → Except Err Row
  denied : Err
  violates : Err

/-- A statement on one table. The flag says that it reads columns (in WHERE or RETURNING), which
needs the SELECT privilege and brings the SELECT policies in. -/
inductive Statement (Draft Row : Type) where
  | insert (drafts : List Draft) (reads : Bool)
  | update (set : Row → Option Draft) (reads : Bool)
  | delete (where_ : Row → Bool) (reads : Bool)

inductive Fate (Row : Type) where
  | kept
  | updated (new : Row)
  | deleted

/-- What a statement did to each old row, and the rows it added. -/
structure Effect (Row : Type) where
  fates : List (Row × Fate Row)
  added : List Row := []

namespace Effect

variable {Row : Type}

def after : Row × Fate Row → Option Row
  | (r, .kept) => some r
  | (_, .updated r') => some r'
  | (_, .deleted) => none

def olds (e : Effect Row) : List Row := e.fates.map Prod.fst
def rows (e : Effect Row) : List Row := e.fates.filterMap after ++ e.added

def removed (e : Effect Row) : List Row :=
  e.fates.filterMap fun
    | (r, .deleted) => some r
    | _ => none

def rewritten (e : Effect Row) : List Row :=
  e.fates.filterMap fun
    | (_, .updated r') => some r'
    | _ => none

/-- Every row the statement touched satisfies `P`, before and after. -/
structure Within (P : Row → Prop) (e : Effect Row) : Prop where
  updated : ∀ r r', (r, Fate.updated r') ∈ e.fates → P r ∧ P r'
  deleted : ∀ r, (r, Fate.deleted) ∈ e.fates → P r
  added : ∀ r ∈ e.added, P r

theorem mem_rows {e : Effect Row} {r : Row} :
    r ∈ e.rows ↔ (r, .kept) ∈ e.fates ∨ (∃ r₀, (r₀, .updated r) ∈ e.fates) ∨ r ∈ e.added := by
  simp only [rows, List.mem_append, List.mem_filterMap, Prod.exists, ← or_assoc]
  apply or_congr_left
  constructor
  · rintro ⟨r₀, f, hm, hf⟩
    cases f with
    | kept => simp only [after, Option.some.injEq] at hf; subst hf; exact Or.inl hm
    | updated r' => simp only [after, Option.some.injEq] at hf; subst hf; exact Or.inr ⟨r₀, hm⟩
    | deleted => simp [after] at hf
  · rintro (hm | ⟨r₀, hm⟩)
    · exact ⟨r, _, hm, rfl⟩
    · exact ⟨r₀, _, hm, rfl⟩

theorem mem_removed {e : Effect Row} {r : Row} : r ∈ e.removed ↔ (r, .deleted) ∈ e.fates := by
  simp only [removed, List.mem_filterMap, Prod.exists]
  constructor
  · rintro ⟨r₀, f, hm, hf⟩
    cases f <;> simp at hf
    subst hf
    exact hm
  · intro hm
    exact ⟨r, .deleted, hm, rfl⟩

/-- A statement that touches only rows of one owner leaves the owner of every key as it was, also
when keys move between rows. -/
theorem Within.owner_stable {κ ο : Type} {key : Row → κ} {owner : Row → ο} {o : ο} {e : Effect Row}
    (hw : e.Within fun r => owner r = o) (hold : (e.olds.map key).Nodup)
    (hnew : (e.rows.map key).Nodup) {r r' : Row} (hr : r ∈ e.olds) (hr' : r' ∈ e.rows)
    (hk : key r = key r') : owner r = owner r' := by
  obtain ⟨⟨r, f⟩, hf, rfl⟩ := List.mem_map.mp hr
  simp only at hk ⊢
  have hkept (h : f = .kept) : r = r' := by
    subst h
    exact List.inj_on_of_nodup_map hnew (mem_rows.mpr (Or.inl hf)) hr' hk
  -- A row that was not kept belongs to `o`.
  have hown : r = r' ∨ owner r = o := by
    cases f with
    | kept => exact Or.inl (hkept rfl)
    | updated x => exact Or.inr (hw.updated r x hf).1
    | deleted => exact Or.inr (hw.deleted r hf)
  rcases mem_rows.mp hr' with h | ⟨r₀, h⟩ | h
  · have hr'old : r' ∈ e.olds := List.mem_map.mpr ⟨_, h, rfl⟩
    have : r = r' := List.inj_on_of_nodup_map hold (show r ∈ e.olds from hr) hr'old hk
    rw [this]
  · rcases hown with rfl | h'
    · rfl
    · rw [h', (hw.updated r₀ r' h).2]
  · rcases hown with rfl | h'
    · rfl
    · rw [h', hw.added r' h]

theorem rows_of_kept {e : Effect Row} (h : ∀ p ∈ e.fates, p.2 = .kept) : e.rows = e.olds ++ e.added := by
  unfold rows olds
  congr 1
  generalize e.fates = fates at h
  induction fates with
  | nil => rfl
  | cons p fates ih =>
    obtain ⟨r, f⟩ := p
    obtain rfl : f = .kept := h _ List.mem_cons_self
    simp only [List.filterMap_cons, after, List.map_cons]
    rw [ih fun q hq => h q (List.mem_cons_of_mem _ hq)]

theorem Within.untouched {e : Effect Row} (hw : e.Within fun _ => False) :
    e.rows = e.olds ∧ e.removed = [] := by
  have hkept : ∀ p ∈ e.fates, p.2 = .kept := by
    rintro ⟨r, f⟩ hp
    cases f with
    | kept => rfl
    | updated r' => exact (hw.updated r r' hp).1.elim
    | deleted => exact (hw.deleted r hp).elim
  have hadded : e.added = [] := List.eq_nil_iff_forall_not_mem.mpr fun r hr => hw.added r hr
  refine ⟨?_, List.eq_nil_iff_forall_not_mem.mpr fun r hr => hw.deleted r (mem_removed.mp hr)⟩
  rw [rows_of_kept hkept, hadded, List.append_nil]

/-- The rows that satisfy `p` are rewritten by `f`. -/
def rewriting (p : Row → Bool) (f : Row → Row) (rows : List Row) : Effect Row :=
  { fates := rows.map fun r => (r, if p r then .updated (f r) else .kept) }

section Rewriting

variable (p : Row → Bool) (f : Row → Row) (rows : List Row)

theorem rows_rewriting : (rewriting p f rows).rows = rows.map fun r => if p r then f r else r := by
  have hafter (r : Row) : after (r, if p r then .updated (f r) else .kept) = some (if p r then f r else r) := by
    split <;> rfl
  simp [Effect.rows, rewriting, List.filterMap_map, hafter]

theorem removed_rewriting : (rewriting p f rows).removed = [] := by
  refine List.eq_nil_iff_forall_not_mem.mpr fun r hr => ?_
  obtain ⟨r', -, heq⟩ := List.mem_map.mp (mem_removed.mp hr)
  have hfate : (if p r' then Fate.updated (f r') else .kept) = .deleted := (Prod.mk.inj heq).2
  split at hfate <;> cases hfate

theorem rewritten_rewriting : (rewriting p f rows).rewritten = (rows.filter p).map f := by
  simp only [rewritten, rewriting]
  induction rows with
  | nil => rfl
  | cons r rows ih =>
    by_cases hp : p r = true
    · simp [hp, ih]
    · simp [hp, ih]

end Rewriting

end Effect

/-! ## Statements -/

theorem bind_eq_ok {ε α β : Type} {x : Except ε α} {f : α → Except ε β} {b : β} :
    x >>= f = .ok b ↔ ∃ a, x = .ok a ∧ f a = .ok b := by
  cases x <;> simp [bind, Except.bind]

theorem bind_eq_error {ε α β : Type} {x : Except ε α} {f : α → Except ε β} {e : ε} :
    x >>= f = .error e ↔ x = .error e ∨ ∃ a, x = .ok a ∧ f a = .error e := by
  cases x <;> simp [bind, Except.bind]

theorem bind_congr_ok {ε α β : Type} {x : Except ε α} {f g : α → Except ε β} (h : ∀ a, x = .ok a → f a = g a) :
    (x >>= f) = x >>= g := by
  cases x with
  | error e => rfl
  | ok a => exact h a rfl

theorem mapError_ok {α ε ε' : Type} {x : Except ε α} {f : ε → ε'} {a : α} :
    x.mapError f = .ok a ↔ x = .ok a := by
  cases x <;> simp [Except.mapError]

theorem forall₂_of_mapM {α β ε : Type} {f : α → Except ε β} {l : List α} {l' : List β}
    (h : l.mapM f = .ok l') : l.Forall₂ (fun a b => f a = .ok b) l' := by
  induction l generalizing l' with
  | nil =>
    simp only [List.mapM_nil] at h
    cases h
    exact .nil
  | cons a l ih =>
    rw [List.mapM_cons, bind_eq_ok] at h
    obtain ⟨b, hb, h⟩ := h
    obtain ⟨bs, hl, h⟩ := bind_eq_ok.mp h
    cases h
    exact .cons hb (ih hl)

theorem mapM_ok {α β ε : Type} {f : α → Except ε β} {g : α → β} {l : List α}
    (h : ∀ a ∈ l, f a = .ok (g a)) : l.mapM f = .ok (l.map g) := by
  induction l with
  | nil => rfl
  | cons a l ih =>
    rw [List.mapM_cons, h a List.mem_cons_self, ih fun b hb => h b (List.mem_cons_of_mem _ hb)]
    rfl

theorem mem_of_forall₂ {α β : Type} {R : α → β → Prop} {l : List α} {l' : List β}
    (h : l.Forall₂ R l') {b : β} (hb : b ∈ l') : ∃ a ∈ l, R a b := by
  induction h with
  | nil => cases hb
  | cons hr _ ih =>
    obtain rfl | hb := List.mem_cons.mp hb
    · exact ⟨_, List.mem_cons_self, hr⟩
    · obtain ⟨a, ha, hR⟩ := ih hb
      exact ⟨a, List.mem_cons_of_mem _ ha, hR⟩

namespace Table

variable {Role Scope Draft Row Err : Type} [DecidableEq Role]
  (t : Table Role Scope Draft Row Err)

def passes (cmd : Command) (clause : Policy Role Scope Draft → Option (Scope → Draft → Truth))
    (role : Role) (sc : Scope) (d : Draft) : Bool :=
  t.policies.any fun p => decide (p.command = cmd) && decide (role ∈ p.roles) &&
    match clause p with
    | some f => decide (f sc d = some true)
    | none => false

theorem passes_iff {cmd : Command} {clause : Policy Role Scope Draft → Option (Scope → Draft → Truth)}
    {role : Role} {sc : Scope} {d : Draft} :
    t.passes cmd clause role sc d = true ↔
      ∃ p ∈ t.policies, p.command = cmd ∧ role ∈ p.roles ∧ ∃ f, clause p = some f ∧ f sc d = some true := by
  unfold passes
  rw [List.any_eq_true]
  refine exists_congr fun p => and_congr_right fun _ => ?_
  rw [Bool.and_eq_true, Bool.and_eq_true, decide_eq_true_eq, decide_eq_true_eq, and_assoc]
  cases clause p with
  | none => simp
  | some f => simp

def readable (role : Role) (sc : Scope) (d : Draft) : Bool :=
  t.bypass role || t.passes .select (·.using_) role sc d

/-- The rows that a SELECT of the whole table returns. -/
def visible (role : Role) (sc : Scope) (rows : List Row) : List Row :=
  if t.grants role .select then rows.filter fun r => t.readable role sc (t.embed r) else []

theorem mem_visible {role : Role} {sc : Scope} {rows : List Row} {r : Row} :
    r ∈ t.visible role sc rows ↔
      t.grants role .select = true ∧ r ∈ rows ∧ t.readable role sc (t.embed r) = true := by
  unfold visible
  split
  · rename_i h
    rw [List.mem_filter]
    simp [h]
  · rename_i h
    simp [h]

def mayUse (role : Role) (cmd : Command) (reads : Bool) : Bool :=
  t.grants role cmd && (!reads || t.grants role .select)

/-- The row as the triggers left it passes the WITH CHECK of `cmd`. -/
def accept (role : Role) (cmd : Command) (reads : Bool) (sc : Scope) (d : Draft) : Except Err Row :=
  if (t.bypass role || t.passes cmd (·.check) role sc d) && (!reads || t.readable role sc d)
  then t.complete d else .error t.violates

/-- The row passes the USING of `cmd`. -/
def reaches (role : Role) (cmd : Command) (reads : Bool) (sc : Scope) (r : Row) : Bool :=
  (t.bypass role || t.passes cmd (·.using_) role sc (t.embed r)) &&
    (!reads || t.readable role sc (t.embed r))

def insertRow (role : Role) (sc : Scope) (reads : Bool) (d : Draft) : Except Err Row := do
  let d' ← t.beforeInsert sc d
  t.accept role .insert reads sc d'

def updateRow (role : Role) (sc : Scope) (set : Row → Option Draft) (reads : Bool) (r : Row) :
    Except Err (Row × Fate Row) :=
  if t.reaches role .update reads sc r then
    match set r with
    | none => .ok (r, .kept)
    | some d => do
      let d' ← t.beforeUpdate sc r d
      let r' ← t.accept role .update reads sc d'
      .ok (r, .updated r')
  else .ok (r, .kept)

def deleteRow (role : Role) (sc : Scope) (where_ : Row → Bool) (reads : Bool) (r : Row) :
    Except Err (Row × Fate Row) :=
  if t.reaches role .delete reads sc r && where_ r then do
    t.beforeDelete sc r
    .ok (r, .deleted)
  else .ok (r, .kept)

def exec (role : Role) (sc : Scope) (rows : List Row) : Statement Draft Row → Except Err (Effect Row)
  | .insert drafts reads =>
    if t.mayUse role .insert reads then do
      let new ← drafts.mapM (t.insertRow role sc reads)
      .ok { fates := rows.map fun r => (r, .kept), added := new }
    else .error t.denied
  | .update set reads =>
    if t.mayUse role .update reads then do
      let fates ← rows.mapM (t.updateRow role sc set reads)
      .ok { fates }
    else .error t.denied
  | .delete where_ reads =>
    if t.mayUse role .delete reads then do
      let fates ← rows.mapM (t.deleteRow role sc where_ reads)
      .ok { fates }
    else .error t.denied

/-! ## Ownership

If each policy that a role can write through implies that the row belongs to somebody, then each
row that the role touches belongs to them.
-/

structure Guarded (role : Role) (owns : Scope → Draft → Prop) : Prop where
  subject : t.bypass role = false
  insert : ∀ sc d, t.passes .insert (·.check) role sc d = true → owns sc d
  update : ∀ sc d, t.passes .update (·.using_) role sc d = true → owns sc d
  updated : ∀ sc d, t.passes .update (·.check) role sc d = true → owns sc d
  delete : ∀ sc d, t.passes .delete (·.using_) role sc d = true → owns sc d
  /-- Storing a row does not change whose it is. -/
  complete : ∀ sc d r, t.complete d = .ok r → owns sc d → owns sc (t.embed r)

variable {t}

theorem accept_passes {role : Role} {cmd : Command} {reads : Bool} {sc : Scope} {d : Draft} {r : Row}
    (hb : t.bypass role = false) (h : t.accept role cmd reads sc d = .ok r) :
    t.passes cmd (·.check) role sc d = true ∧ t.complete d = .ok r := by
  unfold accept at h
  split at h
  · rename_i hp
    simp only [hb, Bool.false_or, Bool.and_eq_true] at hp
    exact ⟨hp.1, h⟩
  · simp at h

theorem accept_complete {role : Role} {cmd : Command} {reads : Bool} {sc : Scope} {d : Draft} {r : Row}
    (h : t.accept role cmd reads sc d = .ok r) : t.complete d = .ok r := by
  unfold accept at h
  split at h
  · exact h
  · simp at h

theorem insertRow_cases {role : Role} {sc : Scope} {reads : Bool} {d : Draft} {r : Row}
    (h : t.insertRow role sc reads d = .ok r) :
    ∃ d', t.beforeInsert sc d = .ok d' ∧ t.accept role .insert reads sc d' = .ok r :=
  bind_eq_ok.mp h

theorem updateRow_cases {role : Role} {sc : Scope} {set : Row → Option Draft} {reads : Bool} {r : Row}
    {p : Row × Fate Row} (h : t.updateRow role sc set reads r = .ok p) :
    p = (r, .kept) ∨ ∃ d d' r', t.reaches role .update reads sc r = true ∧ set r = some d ∧
      t.beforeUpdate sc r d = .ok d' ∧ t.accept role .update reads sc d' = .ok r' ∧
      p = (r, .updated r') := by
  unfold updateRow at h
  split at h
  · rename_i hr
    split at h
    · cases h; exact Or.inl rfl
    · rename_i d hd
      obtain ⟨d', hb, h⟩ := bind_eq_ok.mp h
      obtain ⟨r', ha, h⟩ := bind_eq_ok.mp h
      cases h
      exact Or.inr ⟨d, d', r', hr, hd, hb, ha, rfl⟩
  · cases h; exact Or.inl rfl

theorem deleteRow_cases {role : Role} {sc : Scope} {where_ : Row → Bool} {reads : Bool} {r : Row}
    {p : Row × Fate Row} (h : t.deleteRow role sc where_ reads r = .ok p) :
    (p = (r, .kept) ∧ ¬ (t.reaches role .delete reads sc r = true ∧ where_ r = true)) ∨
      (t.reaches role .delete reads sc r = true ∧ where_ r = true ∧ p = (r, .deleted)) := by
  unfold deleteRow at h
  split at h
  · rename_i hr
    rw [Bool.and_eq_true] at hr
    obtain ⟨_, _, h⟩ := bind_eq_ok.mp h
    cases h; exact Or.inr ⟨hr.1, hr.2, rfl⟩
  · rename_i hr
    rw [Bool.and_eq_true] at hr
    cases h; exact Or.inl ⟨rfl, hr⟩

theorem exec_cases {role : Role} {sc : Scope} {rows : List Row} {st : Statement Draft Row}
    {e : Effect Row} (h : t.exec role sc rows st = .ok e) :
    (∃ drafts reads new, st = .insert drafts reads ∧ t.mayUse role .insert reads = true ∧
        drafts.Forall₂ (fun d r => t.insertRow role sc reads d = .ok r) new ∧
        e = { fates := rows.map fun r => (r, .kept), added := new }) ∨
      (∃ set reads fates, st = .update set reads ∧ t.mayUse role .update reads = true ∧
        rows.Forall₂ (fun r p => t.updateRow role sc set reads r = .ok p) fates ∧ e = { fates }) ∨
      (∃ where_ reads fates, st = .delete where_ reads ∧ t.mayUse role .delete reads = true ∧
        rows.Forall₂ (fun r p => t.deleteRow role sc where_ reads r = .ok p) fates ∧ e = { fates }) := by
  unfold exec at h
  split at h
  · rename_i drafts reads
    split at h
    · rename_i hm
      obtain ⟨new, hn, hr⟩ := bind_eq_ok.mp h
      cases hr
      exact Or.inl ⟨drafts, reads, new, rfl, hm, forall₂_of_mapM hn, rfl⟩
    · simp at h
  · rename_i set reads
    split at h
    · rename_i hm
      obtain ⟨fates, hn, hr⟩ := bind_eq_ok.mp h
      cases hr
      exact Or.inr (Or.inl ⟨set, reads, fates, rfl, hm, forall₂_of_mapM hn, rfl⟩)
    · simp at h
  · rename_i where_ reads
    split at h
    · rename_i hm
      obtain ⟨fates, hn, hr⟩ := bind_eq_ok.mp h
      cases hr
      exact Or.inr (Or.inr ⟨where_, reads, fates, rfl, hm, forall₂_of_mapM hn, rfl⟩)
    · simp at h

theorem exec_update {role : Role} {sc : Scope} {rows : List Row} {set : Row → Option Draft} {reads : Bool}
    {fate : Row → Row × Fate Row} (hmay : t.mayUse role .update reads = true)
    (h : ∀ r ∈ rows, t.updateRow role sc set reads r = .ok (fate r)) :
    t.exec role sc rows (.update set reads) = .ok { fates := rows.map fate } := by
  simp only [exec, if_pos hmay, mapM_ok h]
  rfl

theorem mem_delete_fates {role : Role} {sc : Scope} {rows : List Row} {where_ : Row → Bool} {reads : Bool}
    {fates : List (Row × Fate Row)}
    (hf : rows.Forall₂ (fun r p => t.deleteRow role sc where_ reads r = .ok p) fates) (r : Row) (f : Fate Row) :
    (r, f) ∈ fates ↔ r ∈ rows ∧
      (f = .kept ∧ ¬ (t.reaches role .delete reads sc r = true ∧ where_ r = true) ∨
        f = .deleted ∧ t.reaches role .delete reads sc r = true ∧ where_ r = true) := by
  constructor
  · intro hm
    obtain ⟨r₀, hr₀, hp⟩ := mem_of_forall₂ hf hm
    obtain ⟨hk, hno⟩ | ⟨hr, hw, hk⟩ := deleteRow_cases hp
    · obtain ⟨rfl, rfl⟩ := Prod.mk.inj hk
      exact ⟨hr₀, Or.inl ⟨rfl, hno⟩⟩
    · obtain ⟨rfl, rfl⟩ := Prod.mk.inj hk
      exact ⟨hr₀, Or.inr ⟨rfl, hr, hw⟩⟩
  · rintro ⟨hr, hfate⟩
    obtain ⟨p, hp, hd⟩ := mem_of_forall₂ hf.flip hr
    obtain ⟨rfl, hno⟩ | ⟨hyes, hw, rfl⟩ := deleteRow_cases hd
    · obtain ⟨rfl, -⟩ | ⟨-, hyes⟩ := hfate
      · exact hp
      · exact absurd hyes hno
    · obtain ⟨-, hno⟩ | ⟨rfl, -⟩ := hfate
      · exact absurd ⟨hyes, hw⟩ hno
      · exact hp

theorem exec_delete {role : Role} {sc : Scope} {rows : List Row} {where_ : Row → Bool} {reads : Bool}
    {e : Effect Row} (h : t.exec role sc rows (.delete where_ reads) = .ok e) (r : Row) :
    (r ∈ e.rows ↔ r ∈ rows ∧ ¬ (t.reaches role .delete reads sc r = true ∧ where_ r = true)) ∧
      (r ∈ e.removed ↔ r ∈ rows ∧ t.reaches role .delete reads sc r = true ∧ where_ r = true) := by
  obtain ⟨_, _, _, heq, -⟩ | ⟨_, _, _, heq, -⟩ | ⟨w, rd, fates, heq, -, hf, rfl⟩ := exec_cases h
  · simp at heq
  · simp at heq
  · cases heq
    rw [Effect.mem_rows, Effect.mem_removed]
    simp [mem_delete_fates hf]

/-- The rows that a statement brings. -/
def supplied (t : Table Role Scope Draft Row Err) (role : Role) (sc : Scope) (rows : List Row) :
    Statement Draft Row → List Draft
  | .insert drafts _ => drafts
  | .update set reads => (rows.filter fun r => t.reaches role .update reads sc r).filterMap set
  | .delete _ _ => []

theorem exec_supplied {role : Role} {sc : Scope} {rows : List Row} {st : Statement Draft Row}
    {e : Effect Row} (h : t.exec role sc rows st = .ok e) {r' : Row}
    (hr : r' ∈ e.added ∨ ∃ r, (r, .updated r') ∈ e.fates) :
    ∃ d ∈ t.supplied role sc rows st, ∃ d', (t.beforeInsert sc d = .ok d' ∨ ∃ r, t.beforeUpdate sc r d = .ok d') ∧
      t.complete d' = .ok r' := by
  obtain ⟨drafts, reads, new, rfl, -, hn, rfl⟩ | ⟨set, reads, fates, rfl, -, hf, rfl⟩ |
    ⟨_, _, fates, rfl, -, hf, rfl⟩ := exec_cases h
  · obtain hr | ⟨r, hr⟩ := hr
    · obtain ⟨d, hd, hrow⟩ := mem_of_forall₂ hn hr
      obtain ⟨d', hb, ha⟩ := insertRow_cases hrow
      exact ⟨d, hd, d', Or.inl hb, accept_complete ha⟩
    · simp at hr
  · obtain hr | ⟨r, hr⟩ := hr
    · simp at hr
    · obtain ⟨r₀, hmem, hp⟩ := mem_of_forall₂ hf hr
      obtain hk | ⟨d, d', r₁, hreach, hset, hb, ha, hk⟩ := updateRow_cases hp
      · simp at hk
      · cases hk
        exact ⟨d, List.mem_filterMap.mpr ⟨_, List.mem_filter.mpr ⟨hmem, hreach⟩, hset⟩, d',
          Or.inr ⟨_, hb⟩, accept_complete ha⟩
  · obtain hr | ⟨r, hr⟩ := hr
    · simp at hr
    · obtain ⟨r₀, -, hp⟩ := mem_of_forall₂ hf hr
      obtain ⟨hk, -⟩ | ⟨-, -, hk⟩ := deleteRow_cases hp <;> cases hk

theorem olds_of_forall₂ {f : Row → Except Err (Row × Fate Row)} (hf : ∀ r p, f r = .ok p → p.1 = r)
    {rows : List Row} {fates : List (Row × Fate Row)}
    (h : rows.Forall₂ (fun r p => f r = .ok p) fates) : fates.map Prod.fst = rows := by
  induction h with
  | nil => rfl
  | cons hp _ ih => rw [List.map_cons, hf _ _ hp, ih]

theorem exec_olds {role : Role} {sc : Scope} {rows : List Row} {st : Statement Draft Row}
    {e : Effect Row} (h : t.exec role sc rows st = .ok e) : e.olds = rows := by
  obtain ⟨_, _, new, -, -, -, rfl⟩ | ⟨_, _, fates, -, -, hf, rfl⟩ | ⟨_, _, fates, -, -, hf, rfl⟩ :=
    exec_cases h
  · simp [Effect.olds, Function.comp_def]
  · refine olds_of_forall₂ (fun r p hp => ?_) hf
    obtain rfl | ⟨_, _, _, -, -, -, -, rfl⟩ := updateRow_cases hp <;> rfl
  · refine olds_of_forall₂ (fun r p hp => ?_) hf
    obtain ⟨rfl, -⟩ | ⟨-, -, rfl⟩ := deleteRow_cases hp <;> rfl

/-- A role whose write policies all imply ownership touches only rows it owns. -/
theorem Guarded.exec_within {role : Role} {owns : Scope → Draft → Prop} (hg : t.Guarded role owns)
    {sc : Scope} {rows : List Row} {st : Statement Draft Row} {e : Effect Row}
    (h : t.exec role sc rows st = .ok e) : e.Within fun r => owns sc (t.embed r) := by
  have accepted {cmd reads d r} (hp : ∀ d, t.passes cmd (·.check) role sc d = true → owns sc d)
      (ha : t.accept role cmd reads sc d = .ok r) : owns sc (t.embed r) := by
    obtain ⟨hpass, hc⟩ := accept_passes hg.subject ha
    exact hg.complete sc d r hc (hp d hpass)
  have reached {cmd reads r} (hp : ∀ d, t.passes cmd (·.using_) role sc d = true → owns sc d)
      (hr : t.reaches role cmd reads sc r = true) : owns sc (t.embed r) := by
    simp only [reaches, hg.subject, Bool.false_or, Bool.and_eq_true] at hr
    exact hp _ hr.1
  obtain ⟨_, _, new, -, -, hn, rfl⟩ | ⟨_, _, fates, -, -, hf, rfl⟩ | ⟨_, _, fates, -, -, hf, rfl⟩ :=
    exec_cases h
  · refine ⟨?_, ?_, ?_⟩
    · intro r r' hm; simp at hm
    · intro r hm; simp at hm
    · intro r hr
      obtain ⟨d, -, hd⟩ := mem_of_forall₂ hn hr
      obtain ⟨d', -, ha⟩ := insertRow_cases hd
      exact accepted (hg.insert sc) ha
  · refine ⟨?_, ?_, ?_⟩
    · intro r r' hm
      obtain ⟨r₀, -, hp⟩ := mem_of_forall₂ hf hm
      obtain hk | ⟨d, d', r₁, hr, -, -, ha, hk⟩ := updateRow_cases hp
      · simp at hk
      · cases hk
        exact ⟨reached (hg.update sc) hr, accepted (hg.updated sc) ha⟩
    · intro r hm
      obtain ⟨r₀, -, hp⟩ := mem_of_forall₂ hf hm
      obtain hk | ⟨_, _, _, -, -, -, -, hk⟩ := updateRow_cases hp <;> cases hk
    · intro r hr; cases hr
  · refine ⟨?_, ?_, ?_⟩
    · intro r r' hm
      obtain ⟨r₀, -, hp⟩ := mem_of_forall₂ hf hm
      obtain ⟨hk, -⟩ | ⟨-, -, hk⟩ := deleteRow_cases hp <;> cases hk
    · intro r hm
      obtain ⟨r₀, -, hp⟩ := mem_of_forall₂ hf hm
      obtain ⟨hk, -⟩ | ⟨hr, -, hk⟩ := deleteRow_cases hp
      · simp at hk
      · cases hk; exact reached (hg.delete sc) hr
    · intro r hr; cases hr

end Table

end BaptistApi.RowSecurity
