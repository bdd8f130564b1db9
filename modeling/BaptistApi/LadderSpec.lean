import BaptistApi.LadderExec

/-!
# What the statements of the ladder do

One lemma for each statement, for a session of the API bound to a tenant.
-/

namespace BaptistApi

open BaptistApi.Calendar BaptistApi.FixedPoint BaptistApi.Program BaptistApi.RowSecurity
  BaptistApi.Transactions

section Api

variable {ctx : RequestContext} {now : Timestamp} {db : Db}

/-! ## INSERT -/

theorem insertRow_api {α : Type} [TenantOwned α] {t : Relation}
    {policies : List (Policy DbRole Scope (TenantDraft α))}
    (hcheck : ∀ sc d, (tenantTable t policies).passes .insert (·.check) .appApi sc d =
      decide (tenantIsBound sc d = some true))
    (hselect : ∀ sc d, (tenantTable t policies).passes .select (·.using_) .appApi sc d =
      decide (tenantIsBound sc d = some true)) {reads : Bool} {d : TenantDraft α} {r : α} :
    (tenantTable t policies).insertRow .appApi ⟨tenantContext ctx now, db⟩ reads d = .ok r ↔
      (d.tenantId = none ∨ d.tenantId = some ctx.tenantId) ∧
        r = TenantOwned.withTenant d.row ctx.tenantId := by
  have haccept : (tenantTable t policies).accept .appApi .insert reads ⟨tenantContext ctx now, db⟩
      { tenantId := some ctx.tenantId, row := d.row } = .ok (TenantOwned.withTenant d.row ctx.tenantId) := by
    unfold Table.accept Table.readable
    rw [hcheck, hselect, if_pos]
    · rfl
    · simp [tenantIsBound, tenantContext, Session.currentTenantId]
  constructor
  · intro h
    obtain ⟨d', hd, ha⟩ := Table.insertRow_cases h
    obtain ⟨ht, rfl⟩ := beforeInsert_tenantTable.mp hd
    exact ⟨ht, Except.ok.inj (ha.symm.trans haccept)⟩
  · rintro ⟨ht, rfl⟩
    exact bind_eq_ok.mpr ⟨_, beforeInsert_tenantTable.mpr ⟨ht, rfl⟩, haccept⟩

theorem insertInto_approval {d : TenantDraft Approval} {r : Approval} :
    insertInto (tenantContext ctx now) db .approval d true = .ok r ↔
      ((d.tenantId = none ∨ d.tenantId = some ctx.tenantId) ∧ r = { d.row with tenantId := ctx.tenantId }) ∧
        uniqueOk .approval (db.approval ++ [r]) ∧ rowOk db .approval r := by
  refine (insertInto_iff rfl).trans (and_congr_left fun _ => insertRow_api ?_ ?_) <;> intro sc d <;>
    simp [Table.passes, tenantTable, selectTenant, insertTenant, updateTenant, deleteTenant]

theorem insertInto_costPreview {d : TenantDraft CostPreview} {r : CostPreview} :
    insertInto (tenantContext ctx now) db .costPreview d true = .ok r ↔
      ((d.tenantId = none ∨ d.tenantId = some ctx.tenantId) ∧ r = { d.row with tenantId := ctx.tenantId }) ∧
        uniqueOk .costPreview (db.costPreview ++ [r]) ∧ rowOk db .costPreview r := by
  refine (insertInto_iff rfl).trans (and_congr_left fun _ => insertRow_api ?_ ?_) <;> intro sc d <;>
    simp [Table.passes, tenantTable, selectTenant, insertTenant, updateTenant, deleteTenant]

theorem insertInto_costLedger {d : TenantDraft CostLedger} {r : CostLedger} :
    insertInto (tenantContext ctx now) db .costLedger d false = .ok r ↔
      ((d.tenantId = none ∨ d.tenantId = some ctx.tenantId) ∧ r = { d.row with tenantId := ctx.tenantId }) ∧
        rowOk db .costLedger r := by
  have hunique : uniqueOk .costLedger (db.costLedger ++ [r]) := List.pairwise_of_forall fun _ _ => rfl
  refine (insertInto_iff rfl).trans ?_
  refine (and_congr (insertRow_api ?_ ?_) (and_iff_right hunique)) <;> intro sc d <;>
    simp [Table.passes, tenantTable, selectTenant, insertTenant, updateTenant, deleteTenant]

/-! ## The UPDATE of `execute` -/

def executedRow (now : Timestamp) (cost : Numeric 12 4) (result : Json) (r : Approval) : Approval :=
  { r with status := .executed, executedAt := some now, actualCostUsd := some cost, result := some result }

theorem approval_passes {cmd : Command} (hcmd : cmd = .select ∨ cmd = .update) (d : TenantDraft Approval) :
    Tables.approval.passes cmd (·.using_) .appApi ⟨tenantContext ctx now, db⟩ d =
      decide (d.tenantId = some ctx.tenantId) := by
  have hbound : tenantIsBound ⟨tenantContext ctx now, db⟩ d = some true ↔ d.tenantId = some ctx.tenantId := by
    simp only [tenantIsBound, sqlEq_true, tenantContext, Session.currentTenantId]
    exact ⟨fun h => h.2, fun h => ⟨by simp [h], h⟩⟩
  rcases hcmd with rfl | rfl <;>
    simp [Table.passes, Tables.approval, tenantTable, selectTenant, insertTenant, updateTenant,
      deleteTenant, hbound]

theorem approval_accepts {d : TenantDraft Approval} (hd : d.tenantId = some ctx.tenantId) :
    Tables.approval.accept .appApi .update true ⟨tenantContext ctx now, db⟩ d =
      .ok { d.row with tenantId := ctx.tenantId } := by
  have hcheck : Tables.approval.passes .update (·.check) .appApi ⟨tenantContext ctx now, db⟩ d = true := by
    simp [Table.passes, Tables.approval, tenantTable, selectTenant, insertTenant, updateTenant,
      deleteTenant, tenantIsBound, tenantContext, Session.currentTenantId, hd]
  have hcomplete : Tables.approval.complete d = .ok { d.row with tenantId := ctx.tenantId } := by
    simp only [Tables.approval, tenantTable, hd]
    rfl
  unfold Table.accept Table.readable
  rw [hcheck, approval_passes (Or.inl rfl), hcomplete, if_pos (by simp [hd])]

/-- The fate of one row under the statement. -/
def executedFate (tenantId id : Uuid) (new : Approval) (r : Approval) : Approval × Fate Approval :=
  if r.tenantId = tenantId ∧ r.id = id then (r, .updated new) else (r, .kept)

theorem updateRow_executed (id : Uuid) (cost : Numeric 12 4) (result : Json) (r : Approval) :
    Tables.approval.updateRow .appApi ⟨tenantContext ctx now, db⟩
        (setExecuted (tenantContext ctx now) id cost result) true r =
      .ok (executedFate ctx.tenantId id (executedRow now cost result r) r) := by
  have hreach : Tables.approval.reaches .appApi .update true ⟨tenantContext ctx now, db⟩ r =
      decide (r.tenantId = ctx.tenantId) := by
    unfold Table.reaches Table.readable
    rw [approval_passes (Or.inr rfl), approval_passes (Or.inl rfl)]
    simp [Tables.approval, tenantTable, bypasses, TenantOwned.tenantId]
  unfold Table.updateRow executedFate
  rw [hreach]
  by_cases ht : r.tenantId = ctx.tenantId
  · rw [if_pos (by simp [ht])]
    by_cases hid : r.id = id
    · have hbefore : Tables.approval.beforeUpdate ⟨tenantContext ctx now, db⟩ r
          { tenantId := some r.tenantId, row := executedRow now cost result r } =
            .ok { tenantId := some r.tenantId, row := executedRow now cost result r } :=
        beforeUpdate_tenantTable rfl
      have hset : setExecuted (tenantContext ctx now) id cost result r =
          some { tenantId := some r.tenantId, row := executedRow now cost result r } := if_pos hid
      have hsame : { executedRow now cost result r with tenantId := ctx.tenantId } =
          executedRow now cost result r := by rw [← ht]; rfl
      rw [if_pos ⟨ht, hid⟩, hset]
      dsimp only
      rw [hbefore]
      exact bind_eq_ok.mpr ⟨_, rfl, bind_eq_ok.mpr ⟨_, approval_accepts (by rw [ht]), by rw [hsame]⟩⟩
    · rw [if_neg (fun h => hid h.2)]
      simp [setExecuted, hid]
  · rw [if_neg (by simp [ht]), if_neg (fun h => ht h.1)]

theorem rewritten_executed (tenantId id : Uuid) (new : Approval → Approval) (rows : List Approval) :
    (Effect.rewritten { fates := rows.map fun r => executedFate tenantId id (new r) r }) =
      (rows.filter fun r => r.tenantId == tenantId && r.id == id).map new := by
  have hfates : (rows.map fun r => executedFate tenantId id (new r) r) =
      (Effect.rewriting (fun r => r.tenantId == tenantId && r.id == id) new rows).fates := by
    refine List.map_congr_left fun r _ => ?_
    by_cases h : r.tenantId = tenantId ∧ r.id = id
    · simp [executedFate, h]
    · rw [executedFate, if_neg h, if_neg (by simpa using h)]
  rw [hfates]
  exact Effect.rewritten_rewriting _ _ _

theorem update_executed (id : Uuid) (cost : Numeric 12 4) (result : Json) :
    ∃ eff, Tables.approval.exec .appApi ⟨tenantContext ctx now, db⟩ db.approval
        (.update (setExecuted (tenantContext ctx now) id cost result) true) = .ok eff ∧
      eff.rewritten = (db.approval.filter fun r => r.tenantId == ctx.tenantId && r.id == id).map
        (executedRow now cost result) := by
  refine ⟨_, Table.exec_update rfl fun r _ => updateRow_executed id cost result r, ?_⟩
  exact rewritten_executed ctx.tenantId id (executedRow now cost result) db.approval

/-! ## The statements of the ladder -/

@[simp] theorem numeric_ok {p s : ℕ} {x : ℚ} {n : Numeric p s} :
    numeric p s x = .ok n ↔ Numeric.store? p s x = some n := by
  unfold numeric
  split <;> simp_all

@[simp] theorem jsonb_ok {j j' : Json} : jsonb j = .ok j' ↔ j.jsonb = some j' := by
  unfold jsonb
  split <;> simp_all

variable {e : Env}

theorem runSql_findApproval {tenantId : Uuid} {key : String} {rows : List Approval} {ws : List Write}
    (h : runSql (tenantContext ctx now) e db (.findApproval tenantId key) = .ok (rows, ws)) :
    ws = [] ∧ ∀ a ∈ rows, a ∈ db.approval ∧ a.tenantId = ctx.tenantId ∧ a.tenantId = tenantId ∧
      a.idempotencyKey = key := by
  cases h
  refine ⟨rfl, fun a ha => ?_⟩
  rw [List.mem_filter, mem_approvals, Bool.and_eq_true, beq_iff_eq, beq_iff_eq] at ha
  exact ⟨ha.1.1, ha.1.2, ha.2.1, ha.2.2⟩

theorem runSql_loadPreview {id tenantId : Uuid} {operation : String} {rows : List CostPreview}
    {ws : List Write}
    (h : runSql (tenantContext ctx now) e db (.loadPreview id tenantId operation) = .ok (rows, ws)) :
    ws = [] ∧ ∀ p ∈ rows, p ∈ db.costPreview ∧ p.id = id ∧ p.tenantId = ctx.tenantId ∧
      p.tenantId = tenantId ∧ p.operation = operation := by
  cases h
  refine ⟨rfl, fun p hp => ?_⟩
  simp only [List.mem_filter, mem_costPreviews, Bool.and_eq_true, beq_iff_eq] at hp
  exact ⟨hp.1.1, hp.2.1.1, hp.1.2, hp.2.1.2, hp.2.2⟩

theorem runSql_assertBudget {projected : ℚ} {balance : Option ℚ} {ws : List Write}
    (h : runSql (tenantContext ctx now) e db (.assertBudget projected balance) = .ok ((), ws)) :
    ws = [] ∧ assertBudget ⟨tenantContext ctx now, db⟩ projected balance = .ok () := by
  obtain ⟨_, hok, h⟩ := bind_eq_ok.mp h
  cases h
  exact ⟨rfl, hok⟩

theorem runSql_insertApproval {n : NewApproval} {id : Uuid} {ws : List Write} :
    runSql (tenantContext ctx now) e db (.insertApproval n) = .ok (id, ws) ↔
      n.tenantId = ctx.tenantId ∧ id = e.uuid ∧ ws = [.insert .approval (n.row e.uuid)] ∧
        uniqueOk .approval (db.approval ++ [n.row e.uuid]) ∧ rowOk db .approval (n.row e.uuid) := by
  unfold runSql
  rw [bind_eq_ok]
  constructor
  · rintro ⟨r, hr, h⟩
    obtain ⟨⟨ht, hrow⟩, hu, hok⟩ := insertInto_approval.mp hr
    have ht : n.tenantId = ctx.tenantId := by simpa using ht
    have hrow : r = n.row e.uuid := by rw [hrow, ← ht]; rfl
    cases h
    rw [hrow] at hu hok ⊢
    exact ⟨ht, rfl, rfl, hu, hok⟩
  · rintro ⟨ht, rfl, rfl, hu, hok⟩
    exact ⟨_, insertInto_approval.mpr ⟨⟨Or.inr (congrArg some ht), by rw [← ht]; rfl⟩, hu, hok⟩, rfl⟩

/-- The ledger row that a bill becomes. -/
def Bill.row (b : Bill) (tenantId : Uuid) (today : Date) (id : ℤ) (unitCostUsd : Numeric 12 6)
    (costUsd : Numeric 12 4) : CostLedger :=
  { id, tenantId, locationId := b.locationId, billingDate := b.billingDate.getD today, units := b.units
    unitCostUsd, costUsd, billing := b.billing, approvalId := b.approvalId }

theorem runSql_insertLedger {b : Bill} {ws : List Write} :
    runSql (tenantContext ctx now) e db (.insertLedger b) = .ok ((), ws) ↔
      (b.tenantId = none ∨ b.tenantId = some ctx.tenantId) ∧
        ∃ unitCostUsd costUsd, Numeric.store? 12 6 b.unitCostUsd = some unitCostUsd ∧
          Numeric.store? 12 4 b.costUsd = some costUsd ∧
          rowOk db .costLedger (b.row ctx.tenantId now.date e.serial unitCostUsd costUsd) ∧
          ws = [.insert .costLedger (b.row ctx.tenantId now.date e.serial unitCostUsd costUsd)] := by
  unfold runSql Bill.draft
  simp only [bind_eq_ok, numeric_ok]
  constructor
  · rintro ⟨d, ⟨unitCostUsd, hu, costUsd, hc, hd⟩, r, hr, hws⟩
    cases hd
    obtain ⟨⟨ht, hrow⟩, hok⟩ := insertInto_costLedger.mp hr
    cases hrow
    cases hws
    exact ⟨ht, unitCostUsd, costUsd, hu, hc, hok, rfl⟩
  · rintro ⟨ht, unitCostUsd, costUsd, hu, hc, hok, rfl⟩
    exact ⟨_, ⟨unitCostUsd, hu, costUsd, hc, rfl⟩, _, insertInto_costLedger.mpr ⟨⟨ht, rfl⟩, hok⟩, rfl⟩

theorem runSql_updateApproval {id : Uuid} {cost : ℚ} {result : Json} {ws : List Write} :
    runSql (tenantContext ctx now) e db (.updateApproval id cost result) = .ok ((), ws) ↔
      ∃ cost' result', Numeric.store? 12 4 cost = some cost' ∧ result.jsonb = some result' ∧
        ws = ((db.approval.filter fun r => r.tenantId == ctx.tenantId && r.id == id).map
          (executedRow now cost' result')).map .setApproval := by
  unfold runSql
  simp only [bind_eq_ok, numeric_ok, jsonb_ok]
  constructor
  · rintro ⟨cost', hc, result', hr, eff, heff, hws⟩
    cases hws
    obtain ⟨eff', heff', hrows⟩ := @update_executed ctx now db id cost' result'
    obtain rfl : eff = eff' := Except.ok.inj (heff.symm.trans heff')
    exact ⟨cost', result', hc, hr, by rw [hrows]⟩
  · rintro ⟨cost', result', hc, hr, hws⟩
    obtain ⟨eff, heff, hrows⟩ := @update_executed ctx now db id cost' result'
    exact ⟨cost', hc, result', hr, eff, heff, by rw [hws, hrows]⟩

theorem runSql_writeCard {c : CardRequest} (hdetail : c.detail = none) {id : ℤ} {ws : List Write} :
    runSql (tenantContext ctx now) e db (.writeCard c) = .ok (id, ws) ↔
      ∃ card, writeCard (tenantContext ctx now) db c e.serial = .ok card ∧ id = card.id ∧
        ws = [.insert .auditCard card] := by
  unfold runSql
  simp only [hdetail, bind_eq_ok]
  have hc : { c with detail := none } = c := by rw [← hdetail]
  constructor
  · rintro ⟨_, hd, card, hcard, hws⟩
    cases hd
    cases hws
    rw [hc] at hcard
    exact ⟨card, hcard, rfl, rfl⟩
  · rintro ⟨card, hcard, rfl, rfl⟩
    exact ⟨none, rfl, card, by rw [hc]; exact hcard, rfl⟩

theorem runSql_insertPreview {n : NewPreview} {id : Uuid} {expiresAt : Timestamp} {ws : List Write} :
    runSql (tenantContext ctx now) e db (.insertPreview n) = .ok ((id, expiresAt), ws) ↔
      n.tenantId = ctx.tenantId ∧ ∃ p, n.row (tenantContext ctx now) e.uuid = .ok p ∧
        uniqueOk .costPreview (db.costPreview ++ [p]) ∧ rowOk db .costPreview p ∧
        id = p.id ∧ expiresAt = p.expiresAt ∧ ws = [.insert .costPreview p] := by
  unfold runSql
  simp only [bind_eq_ok]
  have same {p : CostPreview} (hp : n.row (tenantContext ctx now) e.uuid = .ok p)
      (ht : n.tenantId = ctx.tenantId) : { p with tenantId := ctx.tenantId } = p := by
    unfold NewPreview.row at hp
    simp only [bind_eq_ok] at hp
    obtain ⟨_, _, _, _, _, _, _, _, hp⟩ := hp
    cases hp
    rw [← ht]
  constructor
  · rintro ⟨p, hp, r, hr, hws⟩
    obtain ⟨⟨ht, hrow⟩, hu, hok⟩ := insertInto_costPreview.mp hr
    have ht : n.tenantId = ctx.tenantId := by simpa using ht
    have hrow : r = p := hrow.trans (same hp ht)
    cases hws
    rw [hrow] at hu hok ⊢
    exact ⟨ht, p, hp, hu, hok, rfl, rfl, rfl⟩
  · rintro ⟨ht, p, hp, hu, hok, rfl, rfl, rfl⟩
    exact ⟨p, hp, p, insertInto_costPreview.mpr
      ⟨⟨Or.inr (congrArg some ht), (same hp ht).symm⟩, hu, hok⟩, rfl⟩

end Api

end BaptistApi
