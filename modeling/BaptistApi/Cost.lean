import BaptistApi.Policies

/-!
# The budget

`cost.month_spend` and `cost.assert_budget`, with the rights of the caller.
-/

namespace BaptistApi

open BaptistApi.Calendar BaptistApi.FixedPoint BaptistApi.RowSecurity

/-- The rows that `cost.month_spend(m)` sums up. -/
def countsTowards (sc : Scope) (m : Date) (r : CostLedger) : Bool :=
  sqlEq (some r.tenantId) sc.session.currentTenantId == some true && r.billing == .billed &&
    decide (m ≤ r.billingDate) && decide (r.billingDate < m.plusMonth)

def monthSpend (sc : Scope) (m : Date) : ℚ :=
  ((sc.costLedgers.filter (countsTowards sc m)).map (·.costUsd.value)).sum

/-- The tenant's `cost_budget` row of the current month. -/
def currentBudget (sc : Scope) : List CostBudget :=
  sc.costBudgets.filter fun b =>
    sqlEq (some b.tenantId) sc.session.currentTenantId == some true &&
      b.periodMonth == sc.session.currentMonth

def assertBudget (sc : Scope) (projected : ℚ) (balance : Option ℚ) : Except SqlError Unit :=
  match currentBudget sc with
  | [] => .error (.raised .noBudget)
  | b :: _ =>
    if b.perRunCapUsd.value < projected then .error (.raised .perRunCap)
    else
      let spent := monthSpend sc sc.session.currentMonth
      if b.hardStop ∧ b.monthlyCapUsd.value < spent + projected then .error (.raised .monthlyCap)
      else
        match balance with
        | some balance =>
          if balance - projected < b.balanceFloorUsd.value then .error (.raised .balanceFloor) else .ok ()
        | none => .ok ()

theorem assertBudget_ok {sc : Scope} {projected : ℚ} {balance : Option ℚ}
    (h : assertBudget sc projected balance = .ok ()) :
    ∃ b, (currentBudget sc).head? = some b ∧ projected ≤ b.perRunCapUsd.value ∧
      (b.hardStop = true → monthSpend sc sc.session.currentMonth + projected ≤ b.monthlyCapUsd.value) := by
  unfold assertBudget at h
  split at h
  · simp at h
  · rename_i b rest hb
    split at h
    · simp at h
    · rename_i hrun
      dsimp only at h
      split at h
      · simp at h
      · rename_i hmonth
        refine ⟨b, by rw [hb]; rfl, not_lt.mp hrun, fun hs => ?_⟩
        exact not_lt.mp fun hlt => hmonth ⟨hs, hlt⟩

/-! ## What a session sums -/

def billedTo (tenantId : Uuid) (r : CostLedger) : Bool := r.tenantId == tenantId && r.billing == .billed

section Bound

variable {sc : Scope} {tenantId : Uuid}

theorem readable_costLedger (ht : sc.session.currentTenantId = some tenantId) {r : CostLedger}
    (hr : r.tenantId = tenantId) :
    Tables.costLedger.readable sc.session.currentUser sc (Tables.costLedger.embed r) = true := by
  have hbound : tenantIsBound sc (Tables.costLedger.embed r) = some true := by
    unfold tenantIsBound
    rw [ht, sqlEq_true]
    exact ⟨Option.some_ne_none _, congrArg some hr⟩
  unfold Table.readable
  cases hrole : sc.session.currentUser with
  | appMigrator => rfl
  | appApi | appWorker | appReadonly =>
    rw [Bool.or_eq_true, Table.passes_iff]
    refine Or.inr ⟨selectTenant "cost_ledger_select_tenant" [.appApi, .appWorker, .appReadonly], ?_, rfl, ?_, _, rfl,
      hbound⟩
    · exact List.mem_cons_self
    · decide

theorem countsTowards_iff (ht : sc.session.currentTenantId = some tenantId) {m : Date} {r : CostLedger} :
    countsTowards sc m r = true ↔ billedTo tenantId r = true ∧ m ≤ r.billingDate ∧ r.billingDate < m.plusMonth := by
  unfold countsTowards billedTo
  rw [ht]
  simp only [Bool.and_eq_true, beq_iff_eq, decide_eq_true_eq, sqlEq_true]
  constructor
  · rintro ⟨⟨⟨⟨-, htenant⟩, hbilled⟩, hlo⟩, hhi⟩
    exact ⟨⟨Option.some.inj htenant, hbilled⟩, hlo, hhi⟩
  · rintro ⟨⟨htenant, hbilled⟩, hlo, hhi⟩
    exact ⟨⟨⟨⟨Option.some_ne_none _, congrArg some htenant⟩, hbilled⟩, hlo⟩, hhi⟩

theorem counted_eq (ht : sc.session.currentTenantId = some tenantId) (m : Date) :
    sc.costLedgers.filter (countsTowards sc m) = sc.db.costLedger.filter (countsTowards sc m) := by
  have hgrant : Tables.costLedger.grants sc.session.currentUser .select = true := by
    cases sc.session.currentUser <;> rfl
  unfold Scope.costLedgers Table.visible
  rw [if_pos hgrant, List.filter_filter]
  refine List.filter_congr fun r _ => ?_
  rw [Bool.eq_iff_iff, Bool.and_eq_true]
  constructor
  · rintro ⟨hcounts, -⟩
    exact hcounts
  · intro hcounts
    have hbilled := ((countsTowards_iff ht).mp hcounts).1
    rw [billedTo, Bool.and_eq_true, beq_iff_eq] at hbilled
    exact ⟨hcounts, readable_costLedger ht hbilled.1⟩

end Bound

section Api

variable {ctx : RequestContext} {now : Timestamp} {db : Db}

theorem currentBudget_eq :
    currentBudget ⟨tenantContext ctx now, db⟩ =
      db.costBudget.filter fun b => b.tenantId == ctx.tenantId && b.periodMonth == now.date.truncMonth := by
  unfold currentBudget
  rw [costBudgets_eq, List.filter_filter]
  refine List.filter_congr fun b _ => ?_
  rw [Bool.eq_iff_iff]
  simp only [Bool.and_eq_true, beq_iff_eq, sqlEq_true]
  constructor
  · rintro ⟨⟨-, hm⟩, ht⟩
    exact ⟨ht, hm⟩
  · rintro ⟨ht, hm⟩
    exact ⟨⟨⟨by simp, by rw [ht]; rfl⟩, hm⟩, ht⟩

theorem mem_currentBudget {b : CostBudget} :
    b ∈ currentBudget ⟨tenantContext ctx now, db⟩ ↔
      b ∈ db.costBudget ∧ b.tenantId = ctx.tenantId ∧ b.periodMonth = now.date.truncMonth := by
  rw [currentBudget_eq, List.mem_filter, Bool.and_eq_true, beq_iff_eq, beq_iff_eq]

/-- What the tenant was billed in the month of `d`. -/
def billedIn (db : Db) (tenantId : Uuid) (m : Date) : ℚ :=
  ((db.costLedger.filter fun r => r.tenantId == tenantId && r.billing == .billed &&
    r.billingDate.truncMonth == m).map (·.costUsd.value)).sum

theorem monthSpend_eq {m : Date} (hm : m.day = 1) :
    monthSpend ⟨tenantContext ctx now, db⟩ m = billedIn db ctx.tenantId m := by
  unfold monthSpend billedIn
  rw [counted_eq rfl]
  congr 2
  refine List.filter_congr fun r _ => ?_
  rw [Bool.eq_iff_iff, countsTowards_iff rfl, Date.window_iff hm]
  simp only [billedTo, Bool.and_eq_true, beq_iff_eq]

end Api

end BaptistApi
