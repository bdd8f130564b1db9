import BaptistApi.Lib.Pool
import BaptistApi.Session
import BaptistApi.UuidText

/-!
# Binding a tenant

`tenant_context` on sessions that share a pool of connections: the settings that it makes live on a
connection, which serves other sessions afterwards.
-/

namespace BaptistApi

open BaptistApi.Pools

/-! ## The settings of a connection -/

/-- `current_setting(.., true)` for `app.tenant_id`, `app.actor_id` and `app.role`: null when it was
never set on this connection. -/
structure Settings where
  tenantId : Option String := none
  actorId : Option String := none
  role : Option String := none
  deriving DecidableEq

/-- What `app.current_tenant_id()`, `app.current_actor_id()` and `app.current_role()` give. -/
structure Reading where
  tenantId : Option Uuid
  actorId : Option Uuid
  role : String
  deriving DecidableEq

/-- `nullif(v, '')`. -/
def nullifEmpty (v : Option String) : Option String := if v = some "" then none else v

/-- `v::uuid`. -/
def castUuid : Option String → Except SqlError (Option Uuid)
  | none => .ok none
  | some v =>
    match Uuid.ofText? v with
    | some u => .ok (some u)
    | none => .error .data

namespace Settings

def currentTenantId (s : Settings) : Except SqlError (Option Uuid) := castUuid (nullifEmpty s.tenantId)
def currentActorId (s : Settings) : Except SqlError (Option Uuid) := castUuid (nullifEmpty s.actorId)
def currentRole (s : Settings) : String := (nullifEmpty s.role).getD "none"

def read (s : Settings) : Except SqlError Reading := do
  let tenantId ← s.currentTenantId
  let actorId ← s.currentActorId
  return { tenantId, actorId, role := s.currentRole }

/-- `set_config` of the three settings. -/
def bind (ctx : RequestContext) : Settings :=
  { tenantId := some ctx.tenantId.str, actorId := some ctx.actorId.str, role := some ctx.role }

/-- What the end of a transaction leaves: each setting unset, or empty. -/
def Unbound (s : Settings) : Prop :=
  s.tenantId ∈ [none, some ""] ∧ s.actorId ∈ [none, some ""] ∧ s.role ∈ [none, some ""]

instance (s : Settings) : Decidable s.Unbound := inferInstanceAs (Decidable (_ ∧ _ ∧ _))

end Settings

/-- What statements are to read, in a block of `tenant_context` and outside. -/
def Reading.expected : Option RequestContext → Reading
  | some ctx =>
    { tenantId := some ctx.tenantId, actorId := some ctx.actorId, role := if ctx.role = "" then "none" else ctx.role }
  | none => { tenantId := none, actorId := none, role := "none" }

theorem castUuid_str (u : Uuid) : castUuid (nullifEmpty (some u.str)) = .ok (some u) := by
  have hne : some u.str ≠ some "" := fun h => u.str_ne_empty (Option.some.inj h)
  rw [nullifEmpty, if_neg hne, castUuid, u.ofText?_str]

theorem nullifEmpty_unbound {v : Option String} (h : v ∈ [none, some ""]) : nullifEmpty v = none := by
  rcases List.mem_cons.mp h with rfl | h
  · rfl
  · rw [List.mem_singleton.mp h]
    rfl

theorem read_bind (ctx : RequestContext) : (Settings.bind ctx).read = .ok (Reading.expected (some ctx)) := by
  have hrole : (Settings.bind ctx).currentRole = if ctx.role = "" then "none" else ctx.role := by
    unfold Settings.currentRole Settings.bind nullifEmpty
    by_cases h : ctx.role = ""
    · simp [h]
    · simp [h]
  rw [Settings.read, Settings.currentTenantId, Settings.currentActorId, hrole]
  change (castUuid (nullifEmpty (some ctx.tenantId.str)) >>= fun t =>
    castUuid (nullifEmpty (some ctx.actorId.str)) >>= fun a => _) = _
  rw [castUuid_str, castUuid_str]
  rfl

theorem read_unbound {s : Settings} (h : s.Unbound) : s.read = .ok (Reading.expected none) := by
  obtain ⟨ht, ha, hr⟩ := h
  rw [Settings.read, Settings.currentTenantId, Settings.currentActorId, Settings.currentRole,
    nullifEmpty_unbound ht, nullifEmpty_unbound ha, nullifEmpty_unbound hr]
  rfl

/-- The sessions of the other modules read what a block reads. -/
theorem expected_tenantContext (ctx : RequestContext) (now : Calendar.Timestamp) :
    Reading.expected (some ctx) =
      { tenantId := (tenantContext ctx now).currentTenantId, actorId := (tenantContext ctx now).currentActorId
        role := (tenantContext ctx now).currentRole } := rfl

/-! ## Sessions -/

/-- The transaction of a session. `block` is the argument of `tenant_context`, none for a plain one. -/
structure Tx where
  block : Option RequestContext
  /-- A session takes its connection with the first statement. -/
  conn : Option ℕ := none
  /-- `set_config` has run. -/
  bound : Bool := false
  /-- A statement raised: PostgreSQL takes no other one before ROLLBACK. -/
  failed : Bool := false
  deriving DecidableEq

/-- What `tenant_context` has still to bind. -/
def Tx.pending (tx : Tx) : Option RequestContext := if tx.bound then none else tx.block

inductive Control where
  | idle
  | open (tx : Tx)
  /-- The transaction of a block has ended before the block. -/
  | closed
  deriving DecidableEq

structure BindingWorld where
  pool : Pool ℕ ℕ Settings
  control : ℕ → Control

inductive BindingLabel where
  /-- `async with tenant_context(session, ctx)`. -/
  | enter (i : ℕ) (ctx : RequestContext)
  /-- `session.begin()`, or a first statement that begins a transaction by itself. -/
  | begin (i : ℕ)
  /-- The next statement of the session, on connection `c`. -/
  | exec (i : ℕ) (c : ℕ) (raises : Bool)
  /-- COMMIT or ROLLBACK at the end of the block or of the plain transaction. -/
  | finish (i : ℕ) (left : Settings)
  /-- `session.commit()` or `session.rollback()` within a block. -/
  | finishEarly (i : ℕ) (left : Settings)
  /-- The end of a block that has no transaction any more. -/
  | leave (i : ℕ)

inductive Outcome where
  | done
  | raised
  | read (r : Except SqlError Reading)
  deriving DecidableEq

namespace BindingWorld

/-- Connections as they come, and idle sessions. -/
def start : BindingWorld :=
  { pool := { state := fun _ => {}, owner := fun _ => none }, control := fun _ => .idle }

def put (w : BindingWorld) (i : ℕ) (ctl : Control) : BindingWorld :=
  { w with control := Function.update w.control i ctl }

def connect (w : BindingWorld) (i : ℕ) (tx : Tx) (c : ℕ) : Option (Pool ℕ ℕ Settings) :=
  match tx.conn with
  | none => w.pool.take c i
  | some d => if d = c then some w.pool else none

/-- The first statement of a block is the one of `tenant_context`. -/
def execStatement (w : BindingWorld) (i : ℕ) (tx : Tx) (c : ℕ) (raises : Bool) :
    Option (BindingWorld × Outcome) :=
  if tx.failed then some (w, .raised)
  else
    match w.connect i tx c with
    | none => none
    | some pool =>
      match tx.pending with
      | some ctx =>
        if raises then some ({ w with pool }.put i (.open { tx with conn := some c, failed := true }), .raised)
        else
          some ({ w with pool := pool.set c (Settings.bind ctx) }.put i
            (.open { tx with conn := some c, bound := true }), .done)
      | none =>
        some ({ w with pool }.put i (.open { tx with conn := some c, failed := raises }), .read (pool.state c).read)

/-- The end of a transaction undoes its settings, after COMMIT and ROLLBACK alike. -/
def endTx (w : BindingWorld) (i : ℕ) (tx : Tx) (left : Settings) (ctl : Control) : Option (BindingWorld × Outcome) :=
  match tx.conn with
  | none => some (w.put i ctl, .done)
  | some c => if left.Unbound then some ({ w with pool := w.pool.give c left }.put i ctl, .done) else none

def step (w : BindingWorld) : BindingLabel → Option (BindingWorld × Outcome)
  | .enter i ctx =>
    match w.control i with
    | .idle => some (w.put i (.open { block := some ctx }), .done)
    -- `session.in_transaction()`
    | .open _ => some (w, .raised)
    | .closed => some (w, .raised)
  | .begin i =>
    match w.control i with
    | .idle => some (w.put i (.open { block := none }), .done)
    | .open _ => some (w, .raised)
    | .closed => some (w, .raised)
  | .exec i c raises =>
    match w.control i with
    | .idle => none
    | .open tx => w.execStatement i tx c raises
    | .closed => some (w, .raised)
  | .finish i left =>
    match w.control i with
    | .open tx => w.endTx i tx left .idle
    | _ => none
  | .finishEarly i left =>
    match w.control i with
    | .open tx => if tx.block = none then none else w.endTx i tx left .closed
    | _ => none
  | .leave i =>
    match w.control i with
    | .closed => some (w.put i .idle, .done)
    | _ => none

def run (w : BindingWorld) : List BindingLabel → Option BindingWorld
  | [] => some w
  | l :: ls => do
    let p ← w.step l
    run p.1 ls

end BindingWorld

/-! ## One statement -/

/-- What the transaction should find on its connection. -/
def Tx.Sees (tx : Tx) (s : Settings) : Prop :=
  if tx.bound then ∃ ctx, tx.block = some ctx ∧ s = Settings.bind ctx else s.Unbound

/-- The connections that serve nobody are unbound, and each transaction finds its own binding. -/
structure BindingHolds (w : BindingWorld) : Prop where
  clean : w.pool.Clean Settings.Unbound
  sees : ∀ i tx c, w.control i = .open tx → tx.conn = some c → ∃ s, w.pool.Holds i c s ∧ tx.Sees s
  waits : ∀ i tx, w.control i = .open tx → tx.conn = none → tx.bound = false

/-- The pool after a session has its connection, which still has what its transaction should find. -/
structure Connected (w : BindingWorld) (i : ℕ) (tx : Tx) (c : ℕ) (pool : Pool ℕ ℕ Settings) : Prop where
  clean : pool.Clean Settings.Unbound
  holds : pool.Holds i c (pool.state c)
  sees : tx.Sees (pool.state c)
  others : ∀ j d s, j ≠ i → w.pool.Holds j d s → pool.Holds j d s

theorem BindingHolds.connect {w : BindingWorld} (h : BindingHolds w) {i : ℕ} {tx : Tx}
    (hi : w.control i = .open tx) {c : ℕ} {pool : Pool ℕ ℕ Settings} (hc : w.connect i tx c = some pool) :
    Connected w i tx c pool := by
  unfold BindingWorld.connect at hc
  split at hc
  · rename_i hconn
    obtain ⟨hfree, hpool⟩ := Pool.take_eq_some hc
    have hstate : pool.state c = w.pool.state c := by rw [hpool]
    have hunbound : tx.bound = false := h.waits i tx hi hconn
    refine ⟨h.clean.take hc, hstate ▸ Pool.holds_take hc, ?_, fun j d s _ hj => hj.take_other hc⟩
    unfold Tx.Sees
    rw [hunbound, hstate]
    exact h.clean c hfree
  · rename_i d hconn
    split at hc
    · rename_i hd
      obtain rfl := Option.some.inj hc
      obtain ⟨s, hs, hsees⟩ := h.sees i tx c hi (by rw [hconn, hd])
      have hstate : w.pool.state c = s := hs.2
      exact ⟨h.clean, hstate ▸ hs, hstate ▸ hsees, fun _ _ _ _ hj => hj⟩
    · cases hc

theorem execStatement_cases {w w' : BindingWorld} {i c : ℕ} {tx : Tx} {raises : Bool} {o : Outcome}
    (h : w.execStatement i tx c raises = some (w', o)) :
    (w' = w ∧ o = .raised) ∨
    ∃ pool, w.connect i tx c = some pool ∧
      ((∃ ctx, tx.pending = some ctx ∧ o = .done ∧
          w' = { w with pool := pool.set c (Settings.bind ctx) }.put i
            (.open { tx with conn := some c, bound := true })) ∨
        (o = .raised ∧ w' = { w with pool }.put i (.open { tx with conn := some c, failed := true })) ∨
        (tx.pending = none ∧ o = .read (pool.state c).read ∧
          w' = { w with pool }.put i (.open { tx with conn := some c, failed := raises }))) := by
  unfold BindingWorld.execStatement at h
  split at h
  · cases h
    exact Or.inl ⟨rfl, rfl⟩
  · split at h
    · cases h
    · rename_i pool hpool
      refine Or.inr ⟨pool, hpool, ?_⟩
      split at h
      · rename_i ctx hctx
        split at h
        · cases h
          exact Or.inr (Or.inl ⟨rfl, rfl⟩)
        · cases h
          exact Or.inl ⟨ctx, hctx, rfl, rfl⟩
      · rename_i hnone
        cases h
        exact Or.inr (Or.inr ⟨hnone, rfl, rfl⟩)

theorem Tx.Sees.read {tx : Tx} {s : Settings} (h : tx.Sees s) (hnone : tx.pending = none) :
    s.read = .ok (Reading.expected tx.block) := by
  unfold Tx.pending at hnone
  unfold Tx.Sees at h
  split at h
  · obtain ⟨ctx, hblock, rfl⟩ := h
    rw [hblock]
    exact read_bind ctx
  · rename_i hbound
    rw [if_neg hbound] at hnone
    rw [hnone]
    exact read_unbound h

theorem Tx.Sees.bind {tx : Tx} {ctx : RequestContext} {c : ℕ} (h : tx.pending = some ctx) :
    { tx with conn := some c, bound := true }.Sees (Settings.bind ctx) := by
  unfold Tx.pending at h
  split at h
  · cases h
  · exact ⟨ctx, h, rfl⟩

/-! ## The invariant -/

section Put

variable {w : BindingWorld} {i : ℕ} {pool : Pool ℕ ℕ Settings}

theorem put_control_self (w : BindingWorld) (i : ℕ) (ctl : Control) : (w.put i ctl).control i = ctl :=
  Function.update_self ..

theorem put_control_ne (w : BindingWorld) {i j : ℕ} (h : j ≠ i) (ctl : Control) :
    (w.put i ctl).control j = w.control j := Function.update_of_ne h ..

theorem BindingHolds.goesOn (h : BindingHolds w) {c : ℕ} {tx : Tx} {s : Settings} (hclean : pool.Clean Settings.Unbound)
    (hothers : ∀ j d s, j ≠ i → w.pool.Holds j d s → pool.Holds j d s) (hconn : tx.conn = some c)
    (hholds : pool.Holds i c s) (hsees : tx.Sees s) : BindingHolds ({ w with pool }.put i (.open tx)) := by
  refine ⟨hclean, fun j tx' d hj hd => ?_, fun j tx' hj hd => ?_⟩
  · by_cases hji : j = i
    · subst hji
      rw [put_control_self] at hj
      cases hj
      obtain rfl := Option.some.inj (hconn.symm.trans hd)
      exact ⟨s, hholds, hsees⟩
    · rw [put_control_ne _ hji] at hj
      obtain ⟨s', hs', hsees'⟩ := h.sees j tx' d hj hd
      exact ⟨s', hothers j d s' hji hs', hsees'⟩
  · by_cases hji : j = i
    · subst hji
      rw [put_control_self] at hj
      cases hj
      rw [hconn] at hd
      cases hd
    · rw [put_control_ne _ hji] at hj
      exact h.waits j tx' hj hd

theorem BindingHolds.rests (h : BindingHolds w) {ctl : Control} (hclean : pool.Clean Settings.Unbound)
    (hothers : ∀ j d s, j ≠ i → w.pool.Holds j d s → pool.Holds j d s)
    (hctl : ∀ tx, ctl = .open tx → tx.conn = none ∧ tx.bound = false) :
    BindingHolds ({ w with pool }.put i ctl) := by
  refine ⟨hclean, fun j tx' d hj hd => ?_, fun j tx' hj hd => ?_⟩
  · by_cases hji : j = i
    · subst hji
      rw [put_control_self] at hj
      rw [(hctl tx' hj).1] at hd
      cases hd
    · rw [put_control_ne _ hji] at hj
      obtain ⟨s', hs', hsees'⟩ := h.sees j tx' d hj hd
      exact ⟨s', hothers j d s' hji hs', hsees'⟩
  · by_cases hji : j = i
    · subst hji
      rw [put_control_self] at hj
      exact (hctl tx' hj).2
    · rw [put_control_ne _ hji] at hj
      exact h.waits j tx' hj hd

end Put

theorem BindingHolds.execStatement {w w' : BindingWorld} (h : BindingHolds w) {i c : ℕ} {tx : Tx}
    (hi : w.control i = .open tx) {raises : Bool} {o : Outcome} (he : w.execStatement i tx c raises = some (w', o)) :
    BindingHolds w' := by
  obtain ⟨rfl, -⟩ | ⟨pool, hc, ⟨ctx, hctx, -, rfl⟩ | ⟨-, rfl⟩ | ⟨-, -, rfl⟩⟩ := execStatement_cases he
  · exact h
  · have hp := h.connect hi hc
    exact h.goesOn (hp.clean.set hp.holds _) (fun j d s hji hj => (hp.others j d s hji hj).set_other hp.holds hji _)
      rfl (hp.holds.set _) (Tx.Sees.bind hctx)
  · have hp := h.connect hi hc
    exact h.goesOn hp.clean hp.others rfl hp.holds hp.sees
  · have hp := h.connect hi hc
    exact h.goesOn hp.clean hp.others rfl hp.holds hp.sees

theorem BindingHolds.endTx {w w' : BindingWorld} (h : BindingHolds w) {i : ℕ} {tx : Tx}
    (hi : w.control i = .open tx) {left : Settings} {ctl : Control} (hctl : ∀ tx, ctl ≠ .open tx) {o : Outcome}
    (he : w.endTx i tx left ctl = some (w', o)) : BindingHolds w' := by
  unfold BindingWorld.endTx at he
  split at he
  · cases he
    exact h.rests h.clean (fun _ _ _ _ hj => hj) fun tx' htx => absurd htx (hctl tx')
  · rename_i c hconn
    split at he
    · rename_i hleft
      cases he
      obtain ⟨s, hs, -⟩ := h.sees i tx c hi hconn
      exact h.rests (h.clean.give hleft) (fun j d s' hji hj => hj.give_other hs hji _)
        fun tx' htx => absurd htx (hctl tx')
    · cases he

theorem BindingHolds.step {w w' : BindingWorld} (h : BindingHolds w) {l : BindingLabel} {o : Outcome}
    (hs : w.step l = some (w', o)) : BindingHolds w' := by
  have keeps (i : ℕ) {ctl : Control} (hctl : ∀ tx, ctl = .open tx → tx.conn = none ∧ tx.bound = false) :
      BindingHolds (w.put i ctl) := h.rests h.clean (fun _ _ _ _ hj => hj) hctl
  cases l with
  | enter i ctx =>
    simp only [BindingWorld.step] at hs
    split at hs
    · cases hs
      exact keeps i fun tx htx => by cases htx; exact ⟨rfl, rfl⟩
    · cases hs; exact h
    · cases hs; exact h
  | begin i =>
    simp only [BindingWorld.step] at hs
    split at hs
    · cases hs
      exact keeps i fun tx htx => by cases htx; exact ⟨rfl, rfl⟩
    · cases hs; exact h
    · cases hs; exact h
  | exec i c raises =>
    simp only [BindingWorld.step] at hs
    split at hs
    · cases hs
    · rename_i tx hi
      exact h.execStatement hi hs
    · cases hs; exact h
  | finish i left =>
    simp only [BindingWorld.step] at hs
    split at hs
    · rename_i tx hi
      exact h.endTx hi (by simp) hs
    · cases hs
  | finishEarly i left =>
    simp only [BindingWorld.step] at hs
    split at hs
    · rename_i tx hi
      split at hs
      · cases hs
      · exact h.endTx hi (by simp) hs
    · cases hs
  | leave i =>
    simp only [BindingWorld.step] at hs
    split at hs
    · cases hs
      exact keeps i fun tx htx => by cases htx
    · cases hs

theorem BindingHolds.run {w w' : BindingWorld} (h : BindingHolds w) {ls : List BindingLabel}
    (hr : w.run ls = some w') : BindingHolds w' := by
  induction ls generalizing w with
  | nil => exact Option.some.inj hr ▸ h
  | cons l ls ih =>
    obtain ⟨⟨w₁, o⟩, hs, hr⟩ := Option.bind_eq_some_iff.mp hr
    exact ih (h.step hs) hr

theorem bindingHolds_start : BindingHolds BindingWorld.start := by
  refine ⟨fun c _ => ?_, fun i tx c hi => ?_, fun i tx hi => ?_⟩
  · exact ⟨List.mem_cons_self, List.mem_cons_self, List.mem_cons_self⟩
  · cases hi
  · cases hi

/-! ## What statements read -/

def BindingWorld.block (w : BindingWorld) (i : ℕ) : Option RequestContext :=
  match w.control i with
  | .open tx => tx.block
  | _ => none

def BindingWorld.inTransaction (w : BindingWorld) (i : ℕ) : Prop := ∃ tx, w.control i = .open tx

/-- In a run: a statement that reads the settings finds those of its own block, or none outside; and
`tenant_context` raises in a session with an open transaction, where it changes nothing. -/
structure NeverLeaks (w₀ : BindingWorld) : Prop where
  reads : ∀ ls w, w₀.run ls = some w → ∀ i c raises w' r,
    w.step (.exec i c raises) = some (w', .read r) → r = .ok (Reading.expected (w.block i))
  refuses : ∀ ls w, w₀.run ls = some w → ∀ i ctx, w.inTransaction i → w.step (.enter i ctx) = some (w, .raised)

/-- **The binding never leaks**, however the sessions that share the connections interleave. -/
theorem tenant_binding_never_leaks : NeverLeaks BindingWorld.start := by
  refine ⟨fun ls w hr i c raises w' r hs => ?_, ?_⟩
  · have h := bindingHolds_start.run hr
    simp only [BindingWorld.step] at hs
    split at hs
    · cases hs
    · rename_i tx hi
      have hblock : w.block i = tx.block := by unfold BindingWorld.block; rw [hi]
      obtain ⟨-, ho⟩ | ⟨pool, hc, ⟨_, -, ho, -⟩ | ⟨ho, -⟩ | ⟨hnone, ho, -⟩⟩ := execStatement_cases hs
      · cases ho
      · cases ho
      · cases ho
      · cases ho
        rw [hblock]
        exact (h.connect hi hc).sees.read hnone
    · cases hs
  · rintro ls w - i ctx ⟨tx, hi⟩
    simp only [BindingWorld.step, hi]

/-- Two sessions, one after the other on the same connection, and one beside them. -/
def sharedConnection : List BindingLabel :=
  [.enter 0 clinicUser, .exec 0 7 false, .enter 1 { tenantId := 5, actorId := 6, role := "" }, .exec 1 8 false,
    .exec 0 7 true, .finish 0 { tenantId := some "", actorId := some "", role := some "" }, .begin 2]

example : ((BindingWorld.start.run sharedConnection).bind fun w => (w.step (.exec 2 7 false)).map Prod.snd) =
    some (.read (.ok (Reading.expected none))) := by decide +kernel

example : ((BindingWorld.start.run sharedConnection).bind fun w => (w.step (.exec 1 8 false)).map Prod.snd) =
    some (.read (.ok { tenantId := some 5, actorId := some 6, role := "none" })) := by decide +kernel

end BaptistApi
