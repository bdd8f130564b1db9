import BaptistApi.MonthlyCap

/-!
# Commitments

What the approvals of a month cost, beside the sum that the gate reads.
-/

namespace BaptistApi

open BaptistApi.Calendar BaptistApi.FixedPoint BaptistApi.Program BaptistApi.Transactions

/-- The tenant's approvals that were executed in the month. -/
def executedIn (db : Db) (tenantId : Uuid) (m : Date) : List Approval :=
  db.approval.filter fun x => x.tenantId == tenantId && x.executedAt.any (·.date.truncMonth == m)

def Approval.cost (x : Approval) : ℚ := (x.actualCostUsd.map (·.value)).getD 0

def committedCost (db : Db) (tenantId : Uuid) (m : Date) : ℚ :=
  ((executedIn db tenantId m).map (·.cost)).sum

/-! ## What a commit adds -/

theorem Closes.cost {a : Call} {r : ExecuteRequest} {id : Uuid} {row : Approval} (h : Closes a r id row) :
    ∃ cost, Numeric.store? 12 4 r.repriceCostUsd = some cost ∧ row.cost = cost.value := by
  obtain ⟨cost, result, hc, rfl⟩ := h
  exact ⟨cost, hc, rfl⟩

theorem Closes.executedIn {a : Call} {r : ExecuteRequest} {id : Uuid} {row : Approval} {db db' : Db}
    (h : Closes a r id row) (ht : r.tenantId = a.ctx.tenantId) (hrows : db'.approval = db.approval ++ [row])
    (tenantId : Uuid) (m : Date) :
    executedIn db' tenantId m =
      executedIn db tenantId m ++ if a.ctx.tenantId = tenantId ∧ a.month = m then [row] else [] := by
  obtain ⟨cost, result, -, hrow⟩ := h
  have htenant : row.tenantId = a.ctx.tenantId := by rw [hrow]; exact ht
  have hwhen : row.executedAt = some a.startedAt := by rw [hrow]; rfl
  unfold BaptistApi.executedIn
  rw [hrows, List.filter_append, List.filter_cons, List.filter_nil, htenant, hwhen]
  by_cases hcounts : a.ctx.tenantId = tenantId ∧ a.month = m
  · obtain ⟨hown, hmonth⟩ := hcounts
    rw [Call.month] at hmonth
    simp [hown, hmonth, Call.month]
  · rw [if_neg hcounts, if_neg]
    rw [Call.month] at hcounts
    simpa using hcounts

/-! ## Work that is only queued -/

/-- The `dispatch` of the tenant's executions writes no ledger row. -/
def Queues (tenantId : Uuid) (a : Call) : Prop :=
  a.ctx.tenantId = tenantId → ∀ r, a.action = .execute r → r.bills = []

structure Unbilled (b : CostBudget) (db : Db) : Prop where
  budget : b ∈ db.costBudget
  unique : uniqueOk .costBudget db.costBudget
  empty : ∀ l ∈ db.costLedger, l.tenantId ≠ b.tenantId
  bounded : ∀ x ∈ executedIn db b.tenantId b.periodMonth,
    x.cost ≤ min b.perRunCapUsd.value b.monthlyCapUsd.value

theorem billedIn_empty {db : Db} {tenantId : Uuid} (h : ∀ l ∈ db.costLedger, l.tenantId ≠ tenantId)
    (m : Date) : billedIn db tenantId m = 0 := by
  unfold billedIn
  rw [List.filter_eq_nil_iff.mpr]
  · rfl
  · intro l hl hmatch
    simp only [Bool.and_eq_true, beq_iff_eq] at hmatch
    exact h l hl hmatch.1.1

/-- The gate has seen nothing spent, so it compared the cost alone with the caps. -/
theorem Funded.cost_le {a : Call} {r : ExecuteRequest} {db : Db} {issued : List Cmd} {b : CostBudget}
    (h : Funded a r db issued) (hdb : Unbilled b db) (hstop : b.hardStop = true)
    (ht : a.ctx.tenantId = b.tenantId) (hm : a.month = b.periodMonth) {cost : Numeric 12 4}
    (hc : Numeric.store? 12 4 r.repriceCostUsd = some cost) :
    cost.value ≤ min b.perRunCapUsd.value b.monthlyCapUsd.value := by
  obtain ⟨past, hsub, hbudgets, hpass⟩ := h.passed
  obtain ⟨hrun, hmonth⟩ := gate_fits (hbudgets ▸ hdb.budget) (hbudgets ▸ hdb.unique) ht hm hpass
  have hmonth := hmonth hstop
  rw [billedIn_empty (fun l hl => hdb.empty l (hsub .costLedger l hl)), zero_add] at hmonth
  have hgrid (x : Numeric 12 2) : Numeric.OnGrid 4 x.value :=
    Numeric.OnGrid.mono (by omega) (Numeric.onGrid_value x)
  exact le_min (Numeric.value_le_of_le hc (hgrid _) hrun) (Numeric.value_le_of_le hc (hgrid _) hmonth)

theorem Unbilled.commit {b : CostBudget} (hstop : b.hardStop = true) {db : Db} {a : Call} {n : ℕ}
    {issued : List Cmd} {ws : List Write} {v : Value} (h : Unbilled b db) (hq : Queues b.tenantId a)
    (hend : Ending a db n issued ws v) : Unbilled b (ladder.view db ws) := by
  cases hend with
  | quoted => exact ⟨h.budget, h.unique, h.empty, h.bounded⟩
  | replayed => exact h
  | @executed _ r id result ls row card hopened hl hr =>
    rw [view_executed hr.id_eq hopened.unique]
    refine ⟨h.budget, h.unique, fun l hmem => ?_, fun x hx => ?_⟩
    · rcases List.mem_append.mp hmem with hmem | hmem
      · exact h.empty l hmem
      · intro ht
        obtain ⟨htenant, bill, hbill, -⟩ := hl.mem hmem
        rw [hq (htenant.symm.trans ht) r hopened.action] at hbill
        simp at hbill
    · rw [hr.executedIn hopened.tenant rfl] at hx
      rcases List.mem_append.mp hx with hx | hx
      · exact h.bounded x hx
      · split at hx
        · rename_i hcounts
          obtain ⟨cost, hc, hcost⟩ := hr.cost
          rw [List.mem_singleton.mp hx, hcost]
          exact hopened.toFunded.cost_le h hstop hcounts.1 hcounts.2 hc
        · simp at hx

/-- **Queued work does not count**: the sum that the gate reads stays 0, and each approval of the month is
held to the caps alone. -/
theorem queued_work_is_capped_alone {db : Db} (hk : Keyed db) {b : CostBudget} (hb : b ∈ db.costBudget)
    (hu : uniqueOk .costBudget db.costBudget) (hstop : b.hardStop = true) {ctx : RequestContext}
    {now : Timestamp} (ht : b.tenantId = ctx.tenantId) (hm : b.periodMonth = now.date.truncMonth)
    (hledger : db.costLedger = []) (h0 : executedIn db ctx.tenantId now.date.truncMonth = [])
    {ls : List LadderLabel} {w : LadderWorld} (hqueue : ∀ a, .begin a ∈ ls → Queues ctx.tenantId a)
    (hrun : ladder.run { db } ls = some w) :
    monthSpend ⟨tenantContext ctx now, w.db⟩ now.date.truncMonth = 0 ∧
      (∀ x ∈ executedIn w.db ctx.tenantId now.date.truncMonth,
        x.cost ≤ min b.perRunCapUsd.value b.monthlyCapUsd.value) ∧
      committedCost w.db ctx.tenantId now.date.truncMonth ≤
        (executedIn w.db ctx.tenantId now.date.truncMonth).length *
          min b.perRunCapUsd.value b.monthlyCapUsd.value := by
  rw [← ht, ← hm] at h0
  rw [← ht] at hqueue
  have hstart : Unbilled b db :=
    ⟨hb, hu, fun l hl => (by rw [hledger] at hl; cases hl), fun x hx => (by rw [h0] at hx; cases hx)⟩
  have h : Unbilled b w.db :=
    ladder_commits (fun _ _ _ _ _ _ _ h hq hend => h.commit hstop hq hend) hk hstart hqueue hrun
  have hday : now.date.truncMonth.day = 1 := rfl
  rw [monthSpend_eq hday, ← ht, ← hm]
  refine ⟨billedIn_empty h.empty _, h.bounded, ?_⟩
  have hsum := List.sum_le_card_nsmul ((executedIn w.db b.tenantId b.periodMonth).map (·.cost)) _
    fun c hc => by obtain ⟨x, hx, rfl⟩ := List.mem_map.mp hc; exact h.bounded x hx
  rw [List.length_map, nsmul_eq_mul] at hsum
  exact hsum

/-- Two purchases of 60, one after the other. -/
def twoQueued : List LadderLabel :=
  [.begin (purchase "a" [])] ++ List.replicate 8 (.exec 0 (queued 30 1)) ++
    [.finish 0, .begin (purchase "b" [])] ++ List.replicate 8 (.exec 1 (queued 31 2)) ++ [.finish 1]

def afterTwoQueued : LadderWorld := (ladder.run { db := shop } twoQueued).get (by decide +kernel)

theorem queued_work_is_capped_alone_twice :
    monthSpend ⟨tenantContext clinicUser noon, afterTwoQueued.db⟩ noon.date.truncMonth = 0 ∧
      (∀ x ∈ executedIn afterTwoQueued.db 1 noon.date.truncMonth,
        x.cost ≤ min clinicBudget.perRunCapUsd.value clinicBudget.monthlyCapUsd.value) ∧
      committedCost afterTwoQueued.db 1 noon.date.truncMonth ≤
        (executedIn afterTwoQueued.db 1 noon.date.truncMonth).length *
          min clinicBudget.perRunCapUsd.value clinicBudget.monthlyCapUsd.value := by
  have hqueue (a : Call) (ha : .begin a ∈ twoQueued) : Queues clinicUser.tenantId a := by
    have hcall : a = purchase "a" [] ∨ a = purchase "b" [] := by
      simpa [twoQueued, List.mem_append, List.mem_replicate] using ha
    rcases hcall with rfl | rfl <;>
      · intro _ r hr
        cases hr
        rfl
  have hkeyed : Keyed shop := ⟨by decide +kernel, by decide +kernel⟩
  have hbudgets : uniqueOk .costBudget shop.costBudget := by decide +kernel
  have hrun : ladder.run { db := shop } twoQueued = some afterTwoQueued := (Option.some_get _).symm
  exact queued_work_is_capped_alone hkeyed (b := clinicBudget) List.mem_cons_self hbudgets rfl rfl rfl rfl rfl
    hqueue hrun

theorem two_queued_exceed_cap :
    ((ladder.run { db := shop } twoQueued).map fun w =>
      decide (clinicBudget.monthlyCapUsd.value < committedCost w.db 1 noon.date.truncMonth)) =
        some true := by decide +kernel

/-! ## Work that is billed -/

theorem Ending.committed_eq_billed {db : Db} {a : Call} {n : ℕ} {issued : List Cmd} {ws : List Write}
    {v : Value} {tenantId : Uuid} (h : Ending a db n issued ws v)
    (hself : a.ctx.tenantId = tenantId → ∀ r, a.action = .execute r → BillsItself r) (m : Date) :
    committedCost (ladder.view db ws) tenantId m - billedIn (ladder.view db ws) tenantId m =
      committedCost db tenantId m - billedIn db tenantId m := by
  cases h with
  | quoted => rfl
  | replayed => rfl
  | @executed _ r id result ls row card hopened hl hr =>
    rw [view_executed hr.id_eq hopened.unique, billedIn_append rfl]
    unfold committedCost
    rw [hr.executedIn hopened.tenant rfl, List.map_append, List.sum_append]
    obtain ⟨cost, hc, hcost⟩ := hr.cost
    by_cases ht : a.ctx.tenantId = tenantId
    · subst ht
      rcases billedRows_self (hself rfl r hopened.action) hl m with ⟨hm, hrows⟩ | ⟨hm, cost', hc', hrows⟩
      · rw [if_neg (fun h => hm h.2), hrows]
        simp
      · obtain rfl : cost = cost' := Option.some.inj (hc.symm.trans hc')
        rw [if_pos ⟨rfl, hm⟩, hrows]
        simp [hcost]
    · rw [if_neg (fun h => ht h.1), billedRows_other hl ht]
      simp

/-- When `dispatch` bills what it costs, the approvals of a month and the sum that the gate reads grow
together, in every interleaving. -/
theorem billed_work_counts {db : Db} (hk : Keyed db) {tenantId : Uuid} {ls : List LadderLabel}
    {w : LadderWorld} (hbill : ∀ l ∈ ls, SelfBilling tenantId l) (hrun : ladder.run { db } ls = some w)
    (m : Date) :
    committedCost w.db tenantId m - billedIn w.db tenantId m =
      committedCost db tenantId m - billedIn db tenantId m :=
  ladder_commits (I := fun db' => committedCost db' tenantId m - billedIn db' tenantId m =
      committedCost db tenantId m - billedIn db tenantId m)
    (fun _ _ _ _ _ _ _ h hself hend => (hend.committed_eq_billed hself m).trans h) hk rfl
    (fun _ ha => hbill _ ha) hrun

end BaptistApi
