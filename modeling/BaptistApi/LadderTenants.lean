import BaptistApi.Agreement
import BaptistApi.Lib.Bystanders
import BaptistApi.TenantBooks

/-!
# Tenants on the ladder

Previews and executions of any tenants run beside each other, and the calls of one tenant are answered as if the
others had never taken a step.
-/

namespace BaptistApi

open BaptistApi.Calendar BaptistApi.FixedPoint BaptistApi.Program BaptistApi.RowSecurity BaptistApi.Transactions

/-! ## What a call knows -/

section Calls

variable {good : ExecuteRequest → PyVal → Prop} {a : Call} {db db' : Db} {n : ℕ} {issued : List Cmd}
  {p : Ladder Value} {ws : List Write} {v : Value}

theorem plus_openWrites (db : Db) (row : Approval) (ls : List CostLedger) :
    db.plus { approval := [row], costLedger := ls } =
      { db with approval := db.approval ++ [row], costLedger := db.costLedger ++ ls } := by
  simp [Db.plus]

theorem Ending.view_eq (h : Ending a db n issued ws v) (hdb : db'.approval.Sublist db.approval) :
    ladder.view db' ws = db'.plus (held ws) := by
  cases h with
  | quoted => simp [Db.plus, held, ladder, Write.apply, Db.add, Db.set, Db.rows]
  | replayed => exact (plus_nothing db').symm
  | executed h hl hr =>
    have hu := List.Pairwise.sublist (hdb.append_right [_]) h.unique
    rw [view_executed hr.id_eq hu, held_executed hr.id_eq]
    simp [Db.plus]

theorem Standing.view_eq (h : Standing good a db n issued p ws) (hdb : db'.approval.Sublist db.approval) :
    ladder.view db' ws = db'.plus (held ws) := by
  cases h with
  | opened => rw [view_openWrites, held_openWrites, plus_openWrites]
  | dispatched => rw [view_openWrites, held_openWrites, plus_openWrites]
  | closed h hl hr =>
    have hu := List.Pairwise.sublist (hdb.append_right [_]) h.unique
    rw [view_closed hr.id_eq hu, held_closed hr.id_eq, plus_openWrites]
  | ended h => exact h.view_eq hdb
  | _ => exact (plus_nothing db').symm

/-- The ids in use where the command makes a new one. -/
def Cmd.usedIds (db : Db) : Cmd → List Uuid
  | .sql (.insertApproval _) => db.approvalIds
  | .sql (.insertPreview _) => db.previewIds
  | _ => []

theorem Standing.known {q : Sql} {k : Reply (.sql q) → Ladder Value} {e : Env}
    (h : Standing good a db n issued p ws) (hp : p = .call (.sql q) k) (hk : Keyed db)
    (hid : e.uuid ∉ Cmd.usedIds db (.sql q)) : q.Known a.ctx.tenantId e (ladder.view db ws) := by
  cases h with
  | begun => cases ha : a.action <;> rw [ha] at hp <;> cases hp <;> trivial
  | spending => cases hp; trivial
  | gated =>
    obtain ⟨_, _, -, hcall⟩ := gated_prog hp
    cases hcall
    exact ⟨hid, hk.previews⟩
  | looked => cases hp; trivial
  | loaded => cases hp
  | priced => cases hp; trivial
  | funded h =>
    cases hp
    obtain ⟨-, x, hx, hxid, ht, -⟩ := h.toPriced
    exact ⟨hid, hk.approvals, x, hx, hxid, ht⟩
  | opened => cases hp
  | @dispatched _ _ _ _ _ rest =>
    cases rest with
    | nil => obtain ⟨_, -, hcall⟩ := dispatched_prog hp; cases hcall; trivial
    | cons => cases hp; trivial
  | @closed _ r id v ls row h hl hr =>
    cases hp
    obtain ⟨-, ht, -⟩ := hr.sameKeys
    refine ⟨row, ?_, congrArg some hr.id_eq.symm, ht.symm.trans h.tenant⟩
    rw [view_closed hr.id_eq h.unique]
    exact List.mem_append_right _ List.mem_cons_self
  | ended => cases hp

theorem Ending.own_rows (h : Ending a db n issued ws v) {d : Uuid} (hd : a.ctx.tenantId ≠ d) :
    ∀ t, ∀ r ∈ (held ws).rows t, ofTenant d t r = false := by
  cases h with
  | @quoted _ r gates p ha ht =>
    have hrows : held [.insert .costPreview p] = { costPreview := [p] } := rfl
    intro t x hx
    rw [hrows] at hx
    cases t with
    | costPreview =>
      rw [List.mem_singleton.mp hx]
      exact beq_false_of_ne (ht ▸ hd)
    | _ => cases hx
  | replayed =>
    intro t x hx
    cases t <;> cases hx
  | @executed _ r id v ls row card h hl hr ht =>
    obtain ⟨-, hrow, -⟩ := hr.sameKeys
    have htenant : row.tenantId = a.ctx.tenantId := hrow.symm.trans h.tenant
    rw [held_executed hr.id_eq]
    intro t x hx
    cases t with
    | approval =>
      rw [List.mem_singleton.mp hx]
      exact beq_false_of_ne (htenant ▸ hd)
    | costLedger =>
      obtain ⟨hledger, -⟩ := hl.mem hx
      exact beq_false_of_ne (hledger ▸ hd)
    | auditCard =>
      rw [List.mem_singleton.mp hx]
      exact beq_false_of_ne (ht ▸ hd)
    | _ => cases hx

end Calls

/-! ## Runs -/

def LadderSlot.usedIds (db : Db) : LadderSlot → List Uuid
  | .running tx =>
    match tx.prog with
    | .call c _ => c.usedIds db
    | _ => []
  | _ => []

/-- `gen_random_uuid()` gives no id that is in use. -/
def NewIds (w : LadderWorld) : LadderLabel → Prop
  | .exec i e => ∀ s ∈ w.slots[i]?, e.uuid ∉ LadderSlot.usedIds w.db s
  | _ => True

instance newIdsDecidable (w : LadderWorld) : (l : LadderLabel) → Decidable (NewIds w l)
  | .begin _ => isTrue trivial
  | .exec i e => inferInstanceAs (Decidable (∀ s ∈ w.slots[i]?, e.uuid ∉ LadderSlot.usedIds w.db s))
  | .lose _ => isTrue trivial
  | .finish _ => isTrue trivial

def callOf (d : Uuid) (a : Call) : Bool := a.ctx.tenantId == d

/-- No statement of a tenant's call can tell whether the others have taken their steps. -/
theorem answers_same {w : LadderWorld} (hw : LadderHolds w) {i : ℕ} {tx : LadderTx} {e : Env}
    (hi : w.slots[i]? = some (.running tx)) (hid : e.uuid ∉ LadderSlot.usedIds w.db (.running tx)) {c : Cmd}
    {k : Reply c → Ladder Value} (hp : tx.prog = .call c k) {db : Db} (hsame : SameBooks tx.call.ctx.tenantId w.db db) :
    exec tx.call e tx.failed (ladder.view db tx.writes) c = exec tx.call e tx.failed (ladder.view w.db tx.writes) c := by
  obtain ⟨-, hs⟩ := standing_of_call (hw.slot i _ hi) hp
  cases c with
  | utcNow => rfl
  | dispatch => rfl
  | sql q =>
    have hviews : SameBooks tx.call.ctx.tenantId (ladder.view w.db tx.writes) (ladder.view db tx.writes) := by
      rw [hs.view_eq (List.Sublist.refl _), hs.view_eq (hsame.fewer .approval)]
      exact hsame.plus _
    have hnew : e.uuid ∉ Cmd.usedIds w.db (.sql q) := by simpa only [LadderSlot.usedIds, hp] using hid
    have hsql : runSql tx.call.session e (ladder.view db tx.writes) q =
        runSql tx.call.session e (ladder.view w.db tx.writes) q :=
      runSql_same hviews (hs.known rfl hw.db hnew)
    simp only [exec, hsql]

theorem tenants_are_bystanders (d : Uuid) : ladder.Bystanders (callOf d) (SameBooks d) LadderHolds NewIds where
  step _ _ _ hw _ hs := ladder_step_holds hw hs
  idle _ e c := by
    cases c with
    | sql q => cases q <;> rfl
    | utcNow => rfl
    | dispatch => rfl
  answers w i e tx c k db hw hok hi hp ho hsame := by
    obtain rfl : tx.call.ctx.tenantId = d := by simpa [callOf] using ho
    exact congrArg (tx.answer c k) (answers_same hw hi (hok _ hi) hp hsame)
  shown w i tx v db hw hi hp _ ho hsame := by
    have hend := ending_of_commit hw hi hp
    rw [Ending.view_eq hend (List.Sublist.refl _), Ending.view_eq hend (hsame.fewer .approval)]
    exact hsame.plus _
  hidden w i tx v db hw hi hp _ ho hsame := by
    have hend := ending_of_commit hw hi hp
    rw [Ending.view_eq hend (List.Sublist.refl _)]
    exact hsame.plus_others (hend.own_rows (by simpa [callOf] using ho))

/-- **No tenant on the ladder can tell what the others do**: leave out of any run, in any interleaving and with any
failures, every step of the calls of the others. What is left can still happen, each call of the tenant comes to the
same state in it, after the same calls of `dispatch`, and the tenant's rows are the same. -/
theorem ladder_tenants_apart {db : Db} (hk : Keyed db) {ls : List LadderLabel} (hok : ladder.RunsUnder NewIds { db } ls)
    {w : LadderWorld} (hrun : ladder.run { db } ls = some w) (d : Uuid) :
    ∃ v, ladder.run { db } (hush (callOf d) ls) = some v ∧
      (∀ (i : ℕ) (s : LadderSlot), s.call.ctx.tenantId = d → (v.slots[i]? = some s ↔ w.slots[i]? = some s)) ∧
      v.effects = w.effects.filter (fun p => p.2.ctx.tenantId == d) ∧ SameBooks d w.db v.db := by
  obtain ⟨v, hrun', h⟩ := hush_run (tenants_are_bystanders d) (SameBooks.refl d db) (World.holds_start hk) hok hrun
  exact ⟨v, hrun', fun i s hs => h.own_slot (by simpa [callOf] using hs), h.effects, h.rows⟩

/-! ## Two tenants, one key -/

def neighbour : RequestContext := { tenantId := 5, actorId := 6, role := "client_user" }

/-- The clinic's shop beside that of a neighbour, who has a preview of the same operation. -/
def mall : Db :=
  { shop with
    tenant := shop.tenant ++ [{ id := 5, slug := "neighbour", name := "Neighbour", tier := "agency_client" }]
    userProfile := shop.userProfile ++ [{ id := 6, email := "neighbour@example.test", fullName := none }]
    costBudget := shop.costBudget ++ [{ clinicBudget with id := 22, tenantId := 5 }]
    costPreview := shop.costPreview ++ [{ clinicPreview with id := 23, tenantId := 5, requestedBy := 6 }] }

def neighbourPurchase : Call :=
  { ctx := neighbour, startedAt := noon
    action := .execute
      { tenantId := 5, locationId := none, operation := "post", approvedBy := 6, previewId := 23
        idempotencyKey := "a", repriceCostUsd := 60, providerBalanceUsd := none } }

/-- Both execute at once, with the same idempotency key, and the neighbour has committed first. -/
def rush : List LadderLabel :=
  [.begin neighbourPurchase, .begin (purchase "a" [])] ++ List.replicate 5 (.exec 0 (queued 30 1)) ++
    List.replicate 5 (.exec 1 (queued 31 2)) ++ List.replicate 3 (.exec 0 (queued 30 1)) ++ [.finish 0] ++
    List.replicate 3 (.exec 1 (queued 31 2)) ++ [.finish 1]

theorem rush_runs : (ladder.run { db := mall } rush).isSome = true := by decide +kernel

theorem ladder_tenants_apart_rush :
    let w := (ladder.run { db := mall } rush).get rush_runs
    ∃ v, ladder.run { db := mall } (hush (callOf 1) rush) = some v ∧
      (∀ (i : ℕ) (s : LadderSlot), s.call.ctx.tenantId = 1 → (v.slots[i]? = some s ↔ w.slots[i]? = some s)) ∧
      v.effects = w.effects.filter (fun p => p.2.ctx.tenantId == 1) ∧ SameBooks 1 w.db v.db :=
  ladder_tenants_apart ⟨by decide +kernel, by decide +kernel⟩ (by decide +kernel) (Option.some_get rush_runs).symm 1

example : ((ladder.run { db := mall } (hush (callOf 1) rush)).map fun v =>
    (v.db.approval.length, v.effects.length, v.db.auditCard.length)) = some (1, 1, 1) := by decide +kernel

end BaptistApi
