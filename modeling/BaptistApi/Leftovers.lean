import BaptistApi.Attempts

/-!
# What a failed execution leaves

A caller that catches the exception inside `tenant_context` lets the block end normally, and the
block's COMMIT keeps whatever a healthy transaction wrote.
-/

namespace BaptistApi

open BaptistApi.Calendar BaptistApi.FixedPoint BaptistApi.Program BaptistApi.RowSecurity
  BaptistApi.Transactions

/-! ## From `dispatch` to the end -/

structure BillTaken (a : Call) (t : LadderTurn) (b : Bill) : Prop where
  kept : t.lost = false
  tenant : b.tenantId = none ∨ b.tenantId = some a.ctx.tenantId
  row : ∃ unitCostUsd costUsd, Numeric.store? 12 6 b.unitCostUsd = some unitCostUsd ∧
    Numeric.store? 12 4 b.costUsd = some costUsd ∧
    rowOk t.db .costLedger (b.row a.ctx.tenantId a.startedAt.date t.env.serial unitCostUsd costUsd)

/-- The call gets as far as `dispatch`. -/
structure ReachesDispatch (a : Call) (r : ExecuteRequest) (turns : ℕ → LadderTurn) : Prop
    extends ReachesGate a r turns where
  passes : GatePasses a r (turns 3)
  inserts : InsertTaken a r (turns 4)

section Execution

variable {a : Call} {r : ExecuteRequest} {turns : ℕ → LadderTurn} {row : Approval}

theorem ReachesDispatch.attempt (h : ReachesDispatch a r turns) :
    ladder.attempt a turns (answer (execute r)) {} =
      ladder.attempt a turns (answer (r.afterInsert (turns 4).env.uuid))
        { writes := openWrites (r.newApproval.row (turns 4).env.uuid) [], issued := 5 } := by
  rw [h.toReachesGate.attempt, h.passes.attempt, h.inserts.attempt]

theorem BillTaken.inserts {t : LadderTurn} {b : Bill} (h : BillTaken a t b) (ls : List CostLedger) :
    ∃ l, runSql a.session t.env (ladder.view t.db (openWrites row ls)) (.insertLedger b) =
      .ok ((), [.insert .costLedger l]) := by
  obtain ⟨unitCostUsd, costUsd, hu, hc, hok⟩ := h.row
  rw [view_openWrites]
  exact ⟨_, runSql_insertLedger.mpr ⟨h.tenant, unitCostUsd, costUsd, hu, hc, hok, rfl⟩⟩

end Execution

end BaptistApi
