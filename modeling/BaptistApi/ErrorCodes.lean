import BaptistApi.Attempts
import BaptistApi.Gates

/-!
# What the error codes say

`execute` turns every error of the budget check into BUDGET_EXCEEDED and every IntegrityError of its
INSERT into DUPLICATE_IDEMPOTENCY_KEY. BALANCE_FLOOR is defined, and nothing raises it.
-/

namespace BaptistApi

open BaptistApi.Calendar BaptistApi.FixedPoint BaptistApi.Program BaptistApi.RowSecurity
  BaptistApi.Transactions

/-! ## The limits of the budget -/

/-- The price is over one of the budget's two caps, or there is no budget. -/
def OverBudget (sc : Scope) (cost : ℚ) : Prop :=
  ∀ b ∈ (currentBudget sc).head?, b.perRunCapUsd.value < cost ∨
    b.hardStop = true ∧ b.monthlyCapUsd.value < monthSpend sc sc.session.currentMonth + cost

instance (sc : Scope) (cost : ℚ) : Decidable (OverBudget sc cost) := inferInstanceAs (Decidable (∀ b ∈ _, _))

def BelowFloor (sc : Scope) (cost : ℚ) (balance : Option ℚ) : Prop :=
  ∃ b ∈ (currentBudget sc).head?, ∃ x ∈ balance, x - cost < b.balanceFloorUsd.value

theorem assertBudget_passes_iff {sc : Scope} {cost : ℚ} {balance : Option ℚ} :
    assertBudget sc cost balance = .ok () ↔ ¬ OverBudget sc cost ∧ ¬ BelowFloor sc cost balance := by
  unfold OverBudget BelowFloor
  match hb : currentBudget sc with
  | [] => simp [assertBudget, hb]
  | b :: rest =>
    rw [assertBudget_ok_iff hb]
    simp only [List.head?_cons, Option.mem_def, Option.some.injEq, forall_eq', exists_eq_left', not_or, not_and,
      not_lt, not_exists, and_assoc]

/-! ## The INSERT of the approval -/

/-- Its references are there, and `gen_random_uuid()` gave a new id. -/
structure Enters (r : ExecuteRequest) (id : Uuid) (db : Db) : Prop where
  unique : uniqueOk .approval db.approval
  newId : ∀ x ∈ db.approval, x.id ≠ id
  references : rowOk db .approval (r.newApproval.row id)

theorem rowTaken_iff {r : ExecuteRequest} {id : Uuid} {db : Db} :
    RowTaken r id db ↔ Enters r id db ∧ ¬ KeyTaken r db := by
  have hclash (x : Approval) : clash .approval x (r.newApproval.row id) = false ↔
      x.id ≠ id ∧ ¬ (x.tenantId = r.tenantId ∧ x.idempotencyKey = r.idempotencyKey) := by
    simp [clash, NewApproval.row, ExecuteRequest.newApproval]
  unfold RowTaken KeyTaken
  rw [uniqueOk_append]
  simp only [hclash]
  constructor
  · rintro ⟨⟨hu, hx⟩, hok⟩
    refine ⟨⟨hu, fun x hm => (hx x hm).1, hok⟩, ?_⟩
    rintro ⟨x, hm, hkey⟩
    exact (hx x hm).2 hkey
  · rintro ⟨⟨hu, hid, hok⟩, hkey⟩
    exact ⟨⟨hu, fun x hm => ⟨hid x hm, fun h => hkey ⟨x, hm, h⟩⟩⟩, hok⟩

section Insert

variable {ctx : RequestContext} {now : Timestamp} {db : Db} {e : Env} {n : NewApproval}

theorem insertInto_approval_eq {d : TenantDraft Approval} :
    insertInto (tenantContext ctx now) db .approval d true =
      (table .approval).insertRow .appApi ⟨tenantContext ctx now, db⟩ true d >>= fun r =>
        if uniqueOk .approval (db.approval ++ [r]) ∧ rowOk db .approval r then .ok r else .error .integrity :=
  if_pos rfl

theorem insertRow_approval (ht : n.tenantId = ctx.tenantId) :
    (table .approval).insertRow .appApi ⟨tenantContext ctx now, db⟩ true
      { tenantId := some n.tenantId, row := n.row e.uuid } = .ok (n.row e.uuid) := by
  refine (@insertRow_api ctx now db Approval _ .approval _ ?_ ?_ true _ _).mpr ⟨Or.inr (congrArg some ht), by rw [← ht]; rfl⟩ <;> intro sc d <;>
    simp [Table.passes, tenantTable, selectTenant, insertTenant, updateTenant, deleteTenant]

theorem insertRow_cross_tenant (ht : n.tenantId ≠ ctx.tenantId) :
    (table .approval).insertRow .appApi ⟨tenantContext ctx now, db⟩ true
      { tenantId := some n.tenantId, row := n.row e.uuid } =
        .error (.insufficientPrivilege s!"cross-tenant insert blocked on {Relation.name .approval}") := by
  have htrigger : (table .approval).beforeInsert ⟨tenantContext ctx now, db⟩
      { tenantId := some n.tenantId, row := n.row e.uuid } =
        .error (.insufficientPrivilege s!"cross-tenant insert blocked on {Relation.name .approval}") := by
    simp [table, Tables.approval, tenantTable, tgEnforceTenant, tenantContext, Session.currentTenantId, ht]
  unfold Table.insertRow
  rw [htrigger]
  rfl

theorem insertApproval_integrity_iff :
    runSql (tenantContext ctx now) e db (.insertApproval n) = .error .integrity ↔
      n.tenantId = ctx.tenantId ∧
        ¬ (uniqueOk .approval (db.approval ++ [n.row e.uuid]) ∧ rowOk db .approval (n.row e.uuid)) := by
  have hrun : runSql (tenantContext ctx now) e db (.insertApproval n) =
      insertInto (tenantContext ctx now) db .approval { tenantId := some n.tenantId, row := n.row e.uuid } true >>=
        fun r => .ok (r.id, [.insert .approval r]) := rfl
  rw [hrun, insertInto_approval_eq]
  by_cases ht : n.tenantId = ctx.tenantId
  · rw [insertRow_approval ht]
    by_cases hok : uniqueOk .approval (db.approval ++ [n.row e.uuid]) ∧ rowOk db .approval (n.row e.uuid)
    · refine iff_of_false (fun h => ?_) fun h => h.2 hok
      simp [bind, Except.bind, hok] at h
    · refine iff_of_true ?_ ⟨ht, hok⟩
      simp only [bind, Except.bind, if_neg hok]
  · rw [insertRow_cross_tenant ht]
    exact iff_of_false (fun h => by cases h) fun h => ht h.1

end Insert

/-! ## The codes -/

section Codes

variable {a : Call} {r : ExecuteRequest} {turns : ℕ → LadderTurn}

theorem insertBills_raises {bs : List Bill} {code : ProblemCode} : ¬ (insertBills bs).Raises (.problem code) := by
  induction bs with
  | nil => exact id
  | cons b bs ih =>
    intro h
    obtain ⟨reply, h⟩ := h
    cases reply with
    | ok v => exact ih h
    | error e => cases h

theorem answer_raises {p : Ladder ApprovalResponse} {x : Exc} (h : (answer p).Raises x) : p.Raises x :=
  (Prog.Raises.of_bind h).elim id fun ⟨_, h⟩ => h.elim

theorem afterInsert_raises {id : Uuid} {code : ProblemCode} : ¬ (r.afterInsert id).Raises (.problem code) := by
  have hrecord (v : PyVal) : ¬ (recordExecuted r id v).Raises (.problem code) := by
    intro h
    cases hv : r.stack.dumps v with
    | error e =>
      rw [recordExecuted_refused hv] at h
      cases h
    | ok text =>
      rw [recordExecuted_encoded hv] at h
      obtain ⟨_ | _, h⟩ := h
      · cases h
      · obtain ⟨_ | _, h⟩ := h <;> cases h
  have hdispatch : ¬ (awaitDispatch r).Raises (.problem code) := by
    rintro ⟨_ | v, h⟩
    · cases h
    · exact (Prog.Raises.of_bind h).elim insertBills_raises fun ⟨_, h⟩ => h
  exact fun h => (Prog.Raises.of_bind h).elim hdispatch fun ⟨v, h⟩ => hrecord v h

theorem raises_of_sql {q : Sql} {β : Type} {f : q.Result → Ladder β} {code : ProblemCode}
    (h : Prog.Raises (Exc.problem code) (Ladder.sql q >>= f)) : ∃ v, (f v).Raises (.problem code) := by
  refine (Prog.Raises.of_bind h).resolve_left ?_
  rintro ⟨_ | _, h⟩ <;> cases h

theorem raises_of_one {α β : Type} {rows : List α} {f : Option α → Ladder β} {code : ProblemCode}
    (h : Prog.Raises (Exc.problem code) (Ladder.one rows >>= f)) : ∃ o, (f o).Raises (.problem code) := by
  refine (Prog.Raises.of_bind h).resolve_left fun h => ?_
  unfold Ladder.one at h
  split at h <;> cases h

theorem loadPreview_raises {tenantId previewId : Uuid} {operation : String} {code : ProblemCode} :
    ¬ (loadPreview tenantId operation previewId).Raises (.problem code) := by
  intro h
  obtain ⟨rows, h⟩ := raises_of_sql h
  obtain ⟨row, h⟩ := raises_of_one h
  cases row <;> cases h

theorem findExistingApproval_raises {tenantId : Uuid} {key : String} {code : ProblemCode} :
    ¬ (findExistingApproval tenantId key).Raises (.problem code) := by
  intro h
  obtain ⟨rows, h⟩ := raises_of_sql h
  obtain ⟨row, h⟩ := raises_of_one h
  cases row <;> cases h

theorem checkPreview_raises {code : ProblemCode} (h : (checkPreview r).Raises (.problem code)) :
    code ∈ [.notFound, .previewExpired, .previewPriceDrift] := by
  obtain h | ⟨preview, h⟩ := Prog.Raises.of_bind h
  · exact absurd h loadPreview_raises
  · cases preview with
    | none =>
      cases h
      decide
    | some preview =>
      obtain ⟨now, h⟩ := h
      change Prog.Raises _ (if preview.expiresAt < now then Ladder.problem .previewExpired
          else if driftTolerance < drift r.repriceCostUsd preview.estimatedCostUsd then
            Ladder.problem .previewPriceDrift
          else pure ()) at h
      split at h
      · cases h
        decide
      · split at h
        · cases h
          decide
        · cases h

/-- The codes that `execute` can raise. BALANCE_FLOOR is not among them. -/
theorem execute_raises {code : ProblemCode} (h : (execute r).Raises (.problem code)) :
    code ∈ [.duplicateIdempotencyKey, .notFound, .previewExpired, .previewPriceDrift, .budgetExceeded] := by
  obtain h | ⟨found, h⟩ := Prog.Raises.of_bind h
  · exact absurd h findExistingApproval_raises
  · cases found with
    | some existing =>
      dsimp only at h
      split at h
      · cases h
        decide
      · cases h
    | none =>
      obtain h | ⟨-, h⟩ := Prog.Raises.of_bind h
      · have hcode := checkPreview_raises h
        revert hcode
        cases code <;> decide
      · obtain h | ⟨-, h⟩ := Prog.Raises.of_bind h
        · obtain ⟨_ | _, h⟩ := h <;> cases h
          decide
        · obtain h | ⟨id, h⟩ := Prog.Raises.of_bind h
          · obtain ⟨e | _, h⟩ := h
            · cases e <;> cases h
              decide
            · cases h
          · exact absurd h afterInsert_raises

theorem run_raises {db : Db} {ls : List LadderLabel} {w : LadderWorld} (hrun : ladder.run { db } ls = some w) {i : ℕ}
    (ha : a.action = .execute r) {code : ProblemCode} (hi : w.slots[i]? = some (.rolledBack a (.error (.problem code)))) :
    code ∈ [.duplicateIdempotencyKey, .notFound, .previewExpired, .previewPriceDrift, .budgetExceeded] := by
  obtain ⟨turns, st, hout, -⟩ := ladder_attempted hrun hi
  have hraises := Engine.attempt_raises (congrArg Prod.fst hout)
  change a.action.prog.Raises _ at hraises
  rw [ha] at hraises
  exact execute_raises (answer_raises hraises)

def lastSeen (turns : ℕ → LadderTurn) (out : Except Exc Value × Progress Write) : Db := (turns (out.2.issued - 1)).db

/-- A code names what happened to the call. -/
structure NamesCause (a : Call) (r : ExecuteRequest) (turns : ℕ → LadderTurn) : Prop where
  duplicate : (ladder.attempt a turns (answer (execute r)) {}).1 = .error (.problem .duplicateIdempotencyKey) →
    KeyTaken r (lastSeen turns (ladder.attempt a turns (answer (execute r)) {}))
  budget : (ladder.attempt a turns (answer (execute r)) {}).1 = .error (.problem .budgetExceeded) →
    OverBudget ⟨a.session, lastSeen turns (ladder.attempt a turns (answer (execute r)) {})⟩ r.repriceCostUsd
  floor : ReachesGate a r turns → (turns 3).lost = false →
    ¬ OverBudget ⟨a.session, (turns 3).db⟩ r.repriceCostUsd →
    BelowFloor ⟨a.session, (turns 3).db⟩ r.repriceCostUsd r.providerBalanceUsd →
    (ladder.attempt a turns (answer (execute r)) {}).1 = .error (.problem .balanceFloor)

/-- The gate is refused for the budget alone. -/
def GateNamed (a : Call) (r : ExecuteRequest) (t : LadderTurn) : Prop :=
  OverBudget ⟨a.session, t.db⟩ r.repriceCostUsd ∨
    t.lost = false ∧ ¬ BelowFloor ⟨a.session, t.db⟩ r.repriceCostUsd r.providerBalanceUsd

/-- The INSERT is refused for the key alone. -/
def InsertNamed (a : Call) (r : ExecuteRequest) (t : LadderTurn) : Prop :=
  t.lost = false → r.tenantId = a.ctx.tenantId → Enters r t.env.uuid t.db ∨ KeyTaken r t.db

theorem gatePasses_iff {t : LadderTurn} :
    GatePasses a r t ↔ t.lost = false ∧ ¬ OverBudget ⟨a.session, t.db⟩ r.repriceCostUsd ∧
      ¬ BelowFloor ⟨a.session, t.db⟩ r.repriceCostUsd r.providerBalanceUsd :=
  and_congr_right fun _ => assertBudget_passes_iff

theorem namesCause_early (h : ¬ ReachesGate a r turns) : NamesCause a r turns := by
  have hcodes := (attempt_before_gate h).codes
  refine ⟨fun hout => ?_, fun hout => ?_, fun hgate => absurd hgate h⟩
  · obtain hmem | ⟨-, hissued, hkey⟩ := hcodes _ hout
    · simp at hmem
    · unfold lastSeen
      rwa [hissued]
  · obtain hmem | ⟨hcode, -⟩ := hcodes _ hout
    · simp at hmem
    · cases hcode

theorem namesCause_refused (hgate : ReachesGate a r turns) (h : ¬ GatePasses a r (turns 3)) :
    NamesCause a r turns ↔ GateNamed a r (turns 3) := by
  have hout := hgate.attempt.trans (attempt_gate_refused h)
  rw [gatePasses_iff, not_and, not_and, not_not] at h
  constructor
  · rintro ⟨-, hbudget, -⟩
    rw [hout] at hbudget
    exact Or.inl (hbudget rfl)
  · intro hnamed
    have hover : OverBudget ⟨a.session, (turns 3).db⟩ r.repriceCostUsd :=
      hnamed.elim id fun ⟨hkept, hfloor⟩ => by_contra fun hover => hfloor (h hkept hover)
    refine ⟨fun hcode => ?_, fun _ => ?_, fun _ _ hno => absurd hover hno⟩
    · rw [hout] at hcode
      cases hcode
    · rw [hout]
      exact hover

theorem namesCause_inserted (hgate : ReachesGate a r turns) (hpass : GatePasses a r (turns 3)) :
    NamesCause a r turns ↔ InsertNamed a r (turns 4) := by
  have hfloor := (gatePasses_iff.mp hpass).2.2
  have hout := hgate.attempt.trans hpass.attempt
  by_cases htaken : InsertTaken a r (turns 4)
  · have hno (code : ProblemCode) : (ladder.attempt a turns (answer (execute r)) {}).1 ≠ .error (.problem code) := by
      rw [hout, htaken.attempt]
      exact fun h => afterInsert_raises (answer_raises (Engine.attempt_raises h))
    refine iff_of_true ⟨fun h => absurd h (hno _), fun h => absurd h (hno _), fun _ _ _ h => absurd h hfloor⟩ ?_
    exact fun _ _ => Or.inl (rowTaken_iff.mp htaken.row).1
  · obtain ⟨x, hx, hbudget, hduplicate⟩ := attempt_insert_refused htaken
    rw [hx] at hout
    rw [Call.session, insertApproval_integrity_iff] at hduplicate
    have hrow : RowTaken r (turns 4).env.uuid (turns 4).db ↔ _ := rowTaken_iff
    constructor
    · rintro ⟨hkey, -, -⟩ hkept ht
      by_cases henters : Enters r (turns 4).env.uuid (turns 4).db
      · refine Or.inr (by_contra fun hfree => htaken ⟨hkept, ht, hrow.mpr ⟨henters, hfree⟩⟩)
      · rw [hout] at hkey
        have hx : x = .problem .duplicateIdempotencyKey :=
          hduplicate.mpr ⟨hkept, ht, fun hok => henters (hrow.mp hok).1⟩
        exact Or.inr (hkey (congrArg Except.error hx))
    · intro hnamed
      refine ⟨fun hcode => ?_, fun hcode => ?_, fun _ _ _ h => absurd h hfloor⟩
      · rw [hout] at hcode ⊢
        obtain ⟨hkept, ht, hno⟩ := hduplicate.mp (Except.error.inj hcode)
        exact (hnamed hkept ht).elim (fun henters => by_contra fun hfree => hno (hrow.mpr ⟨henters, hfree⟩)) id
      · rw [hout] at hcode
        exact absurd (Except.error.inj hcode) hbudget

/-- **The codes name the real cause** exactly when the gate is refused only over budget and the INSERT only for
a taken key. -/
theorem names_cause_iff (a : Call) (r : ExecuteRequest) (turns : ℕ → LadderTurn) :
    NamesCause a r turns ↔ (ReachesGate a r turns → GateNamed a r (turns 3) ∧
      (GatePasses a r (turns 3) → InsertNamed a r (turns 4))) := by
  by_cases hgate : ReachesGate a r turns
  · by_cases hpass : GatePasses a r (turns 3)
    · have hnamed : GateNamed a r (turns 3) := by
        obtain ⟨hkept, -, hfloor⟩ := gatePasses_iff.mp hpass
        exact Or.inr ⟨hkept, hfloor⟩
      rw [namesCause_inserted hgate hpass]
      simp [hgate, hpass, hnamed]
    · rw [namesCause_refused hgate hpass]
      simp [hgate, hpass]
  · exact iff_of_true (namesCause_early hgate) fun h => absurd h hgate

end Codes

def raisedCode (out : Except Exc Value × Progress Write) : Option ProblemCode :=
  match out.1 with
  | .error (.problem code) => some code
  | _ => none

theorem of_raisedCode {out : Except Exc Value × Progress Write} {code : ProblemCode}
    (h : raisedCode out = some code) : out.1 = .error (.problem code) := by
  unfold raisedCode at h
  split at h
  · rename_i hout
    rw [hout, Option.some.inj h]
  · cases h

def quietShop : ℕ → LadderTurn := fun _ => { db := shop, env := queued 30 1 }

/-- A balance that falls below the floor is called a budget, and an approver who does not exist a taken key. -/
theorem other_causes_named :
    ¬ NamesCause (purchase "a" []) { shopRequest with providerBalanceUsd := some 50 } quietShop ∧
      ¬ NamesCause (purchase "a" []) { shopRequest with approvedBy := 99 } quietShop := by
  constructor
  · intro h
    have hout : raisedCode (ladder.attempt (purchase "a" []) quietShop
        (answer (execute { shopRequest with providerBalanceUsd := some 50 })) {}) = some .budgetExceeded := by
      decide +kernel
    have hover : OverBudget ⟨(purchase "a" []).session, shop⟩ shopRequest.repriceCostUsd :=
      h.budget (of_raisedCode hout)
    revert hover
    decide +kernel
  · intro h
    have hout : raisedCode (ladder.attempt (purchase "a" []) quietShop
        (answer (execute { shopRequest with approvedBy := 99 })) {}) = some .duplicateIdempotencyKey := by
      decide +kernel
    obtain ⟨x, hx, -⟩ := h.duplicate (of_raisedCode hout)
    cases hx

end BaptistApi
