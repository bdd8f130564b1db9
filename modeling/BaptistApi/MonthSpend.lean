import BaptistApi.Constraints
import BaptistApi.Cost
import BaptistApi.Lib.Tiling

/-!
# Month by month

What `cost.month_spend` gives for the months of a run, for every session with a bound tenant.
-/

namespace BaptistApi

open BaptistApi.Calendar BaptistApi.FixedPoint BaptistApi.RowSecurity BaptistApi.Tiling

/-! ## What a run of months costs -/

/-- `d` lies in one of the `n` months from `m` on. -/
def InMonths (m : Date) (n : ℕ) (d : Date) : Prop :=
  m.monthIndex ≤ d.monthIndex ∧ d.monthIndex < m.monthIndex + n

instance decidableInMonths (m : Date) (n : ℕ) (d : Date) : Decidable (InMonths m n d) :=
  inferInstanceAs (Decidable (_ ∧ _))

theorem inMonths_one {m d : Date} : InMonths m 1 d ↔ d.year = m.year ∧ d.month = m.month := by
  rw [← Date.monthIndex_eq_iff]
  unfold InMonths
  push_cast
  omega

theorem inMonths_iff {m d : Date} (hm : m.day = 1) (n : ℕ) :
    InMonths m n d ↔ m ≤ d ∧ d < Date.plusMonth^[n] m := by
  rw [Date.le_iff_monthIndex_le hm, Date.lt_iff_monthIndex_lt (Date.iterate_plusMonth_day hm n),
    Date.monthIndex_iterate_plusMonth]
  rfl

/-- `round(units * unit_cost_usd, 4)`. -/
def CostLedger.computedCost (r : CostLedger) : ℚ := roundHalfAway (r.units * r.unitCostUsd.value * 10 ^ 4) / 10 ^ 4

theorem CostLedger.costUsd_eq {r : CostLedger} (h : costLedgerMath r) (hb : r.billing = .billed) :
    r.costUsd.value = r.computedCost := by
  rcases h with h | h
  · exact h.symm
  · rw [hb] at h
    cases h

/-- What the tenant's billed rows of the `n` months from `m` on come to. -/
def computedSpend (db : Db) (tenantId : Uuid) (m : Date) (n : ℕ) : ℚ :=
  ((db.costLedger.filter fun r => billedTo tenantId r && decide (InMonths m n r.billingDate)).map
    (·.computedCost)).sum

theorem computedSpend_eq_total (db : Db) (tenantId : Uuid) {m : Date} (hm : m.day = 1) (n : ℕ) :
    computedSpend db tenantId m n =
      total (·.billingDate) (·.computedCost) (db.costLedger.filter (billedTo tenantId)) m (Date.plusMonth^[n] m) := by
  unfold computedSpend total
  rw [List.filter_filter]
  congr 2
  refine List.filter_congr fun r _ => ?_
  rw [Bool.and_comm, decide_eq_decide.mpr (inMonths_iff hm n)]

/-! ## What a session sums -/

section Bound

variable {sc : Scope} {tenantId : Uuid}

theorem monthSpend_eq_total (hok : tableOk sc.db .costLedger) (ht : sc.session.currentTenantId = some tenantId)
    (m : Date) :
    monthSpend sc m =
      total (·.billingDate) (·.computedCost) (sc.db.costLedger.filter (billedTo tenantId)) m m.plusMonth := by
  have hrows : sc.db.costLedger.filter (countsTowards sc m) =
      (sc.db.costLedger.filter (billedTo tenantId)).filter
        fun r => decide (m ≤ r.billingDate ∧ r.billingDate < m.plusMonth) := by
    rw [List.filter_filter]
    refine List.filter_congr fun r _ => ?_
    rw [Bool.eq_iff_iff, countsTowards_iff ht, Bool.and_eq_true, decide_eq_true_eq, and_comm]
  unfold monthSpend total
  rw [counted_eq ht, hrows]
  refine congrArg List.sum (List.map_congr_left fun r hr => ?_)
  rw [List.mem_filter, List.mem_filter] at hr
  obtain ⟨⟨hmem, hbilled⟩, -⟩ := hr
  rw [billedTo, Bool.and_eq_true, beq_iff_eq, beq_iff_eq] at hbilled
  exact CostLedger.costUsd_eq (hok.2 r hmem).2.2.2 hbilled.2

theorem mem_counted (ht : sc.session.currentTenantId = some tenantId) {m : Date} {r : CostLedger}
    (hr : r ∈ sc.db.costLedger) :
    r ∈ sc.costLedgers.filter (countsTowards sc m) ↔
      billedTo tenantId r = true ∧ m ≤ r.billingDate ∧ r.billingDate < m.plusMonth := by
  rw [counted_eq ht, List.mem_filter, countsTowards_iff ht, and_iff_right hr]

theorem sum_monthSpend (hok : tableOk sc.db .costLedger) (ht : sc.session.currentTenantId = some tenantId) {m : Date}
    (hm : m.day = 1) (n : ℕ) :
    ∑ k ∈ Finset.range n, monthSpend sc (Date.plusMonth^[k] m) = computedSpend sc.db tenantId m n := by
  have hsum := sum_total CostLedger.billingDate CostLedger.computedCost
    (sc.db.costLedger.filter (billedTo tenantId)) (Date.monotone_iterate_plusMonth hm) n
  rw [computedSpend_eq_total _ _ hm]
  refine Eq.trans (Finset.sum_congr rfl fun k _ => ?_) hsum
  rw [monthSpend_eq_total hok ht, ← Function.iterate_succ_apply' Date.plusMonth]

theorem counted_once (ht : sc.session.currentTenantId = some tenantId) {m : Date} (hm : m.day = 1) {n : ℕ}
    {r : CostLedger} (hr : r ∈ sc.db.costLedger) :
    billedTo tenantId r = true ∧ InMonths m n r.billingDate ↔
      ∃! k, k < n ∧ r ∈ sc.costLedgers.filter (countsTowards sc (Date.plusMonth^[k] m)) := by
  simp only [mem_counted ht hr, ← Function.iterate_succ_apply' Date.plusMonth]
  by_cases hbilled : billedTo tenantId r = true
  · simp only [hbilled, true_and]
    rw [inMonths_iff hm]
    exact existsUnique_tile (Date.monotone_iterate_plusMonth hm)
  · refine iff_of_false (fun h => hbilled h.1) ?_
    rintro ⟨k, ⟨-, h, -⟩, -⟩
    exact hbilled h

/-- **Every billed row counts in one month**: `cost.month_spend` sums the rows of its month, and the months of a
run add up to the rows of the run. -/
theorem month_spend_counts_once (hok : tableOk sc.db .costLedger)
    (ht : sc.session.currentTenantId = some tenantId) {m : Date} (hm : m.day = 1) :
    monthSpend sc m =
        ((sc.db.costLedger.filter fun r => r.tenantId = tenantId ∧ r.billing = .billed ∧
          r.billingDate.year = m.year ∧ r.billingDate.month = m.month).map (·.computedCost)).sum ∧
      ∀ n,
        ∑ k ∈ Finset.range n, monthSpend sc (Date.plusMonth^[k] m) = computedSpend sc.db tenantId m n ∧
          ∀ r ∈ sc.db.costLedger, billedTo tenantId r = true ∧ InMonths m n r.billingDate ↔
            ∃! k, k < n ∧ r ∈ sc.costLedgers.filter (countsTowards sc (Date.plusMonth^[k] m)) := by
  refine ⟨?_, fun n => ⟨sum_monthSpend hok ht hm n, fun r hr => counted_once ht hm hr⟩⟩
  have hone := sum_monthSpend hok ht hm 1
  rw [Finset.sum_range_one] at hone
  refine hone.trans ?_
  unfold computedSpend billedTo
  congr 2
  refine List.filter_congr fun r _ => ?_
  rw [Bool.eq_iff_iff]
  simp only [Bool.and_eq_true, beq_iff_eq, decide_eq_true_eq, inMonths_one, and_assoc]

end Bound

/-! ### A turn of the year -/

def december : Date := ⟨2026, 12, 1, by decide, by decide⟩

/-- Six calls at 0.333333 on New Year's Eve, four at 0.5 the day after, and a row of credits. -/
def yearEndLedger : List CostLedger :=
  [{ id := 1, tenantId := 1, locationId := none, billingDate := ⟨2026, 12, 31, by decide, by decide⟩, units := 6
     unitCostUsd := ⟨333333, by decide⟩, costUsd := ⟨20000, by decide⟩, billing := .billed, approvalId := none },
   { id := 2, tenantId := 1, locationId := none, billingDate := ⟨2027, 1, 1, by decide, by decide⟩, units := 4
     unitCostUsd := ⟨500000, by decide⟩, costUsd := ⟨20000, by decide⟩, billing := .billed, approvalId := none },
   { id := 3, tenantId := 1, locationId := none, billingDate := ⟨2027, 1, 1, by decide, by decide⟩, units := 4
     unitCostUsd := ⟨500000, by decide⟩, costUsd := ⟨5, by decide⟩, billing := .planCredits, approvalId := none }]

def yearEnd : Scope where
  session := { currentUser := .appWorker, tenantId := some 1, actorId := none, role := "system", now := noon }
  db := { clinic .active with costLedger := yearEndLedger }

theorem month_spend_counts_once_at_year_end :
    monthSpend yearEnd december =
        ((yearEnd.db.costLedger.filter fun r => r.tenantId = 1 ∧ r.billing = .billed ∧
          r.billingDate.year = december.year ∧ r.billingDate.month = december.month).map (·.computedCost)).sum ∧
      ∀ n,
        ∑ k ∈ Finset.range n, monthSpend yearEnd (Date.plusMonth^[k] december) =
            computedSpend yearEnd.db 1 december n ∧
          ∀ r ∈ yearEnd.db.costLedger, billedTo 1 r = true ∧ InMonths december n r.billingDate ↔
            ∃! k, k < n ∧ r ∈ yearEnd.costLedgers.filter (countsTowards yearEnd (Date.plusMonth^[k] december)) :=
  month_spend_counts_once (by decide +kernel) rfl rfl

example : computedSpend yearEnd.db 1 december 2 = 4 := by decide +kernel

end BaptistApi
