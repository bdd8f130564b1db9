import BaptistApi.Ladder
import BaptistApi.Lib.Transactions

/-!
# The ladder against the database

What each statement of the ladder does, and the engine that runs any number of calls side by side,
each inside a `tenant_context` block of its own.
-/

namespace BaptistApi

open BaptistApi.Calendar BaptistApi.FixedPoint BaptistApi.Program BaptistApi.RowSecurity
  BaptistApi.Transactions

/-! ## Row versions -/

inductive Write where
  | insert (t : Relation) (row : Row t)
  | setApproval (row : Approval)

def Write.apply (db : Db) : Write → Db
  | .insert t row => db.add t row
  | .setApproval row =>
    { db with approval := db.approval.map fun a => if a.id = row.id then row else a }

/-! ## Calls -/

inductive Action where
  | createPreview (r : PreviewRequest)
  | execute (r : ExecuteRequest)

structure Call where
  ctx : RequestContext
  startedAt : Timestamp
  action : Action

def Call.session (a : Call) : Session := tenantContext a.ctx a.startedAt

inductive Value where
  | preview (r : PreviewResponse)
  | approval (r : ApprovalResponse)

def Action.prog : Action → Ladder Value
  | .createPreview r => do pure (.preview (← BaptistApi.createPreview r))
  | .execute r => do pure (.approval (← BaptistApi.execute r))

/-- What the outside decides during one command: `gen_random_uuid()`, the next value of an identity
sequence, the clock of the API server, and how `dispatch` ends. -/
structure Env where
  uuid : Uuid
  serial : ℤ
  clock : Timestamp
  outcome : Except String PyVal

/-! ## Rows to insert -/

def NewApproval.row (n : NewApproval) (id : Uuid) : Approval :=
  { id, tenantId := n.tenantId, locationId := n.locationId, costPreviewId := some n.costPreviewId
    operation := n.operation, approvedBy := n.approvedBy, idempotencyKey := n.idempotencyKey
    status := .executing, executedAt := none, actualCostUsd := none, result := none }

def jsonb (j : Json) : Except SqlError Json :=
  match j.jsonb with
  | some j => .ok j
  | none => .error .data

def numeric (p s : ℕ) (x : ℚ) : Except SqlError (Numeric p s) :=
  match Numeric.store? p s x with
  | some n => .ok n
  | none => .error .data

/-- `now() + interval '15 minutes'`. -/
def Session.previewExpiry (s : Session) : Timestamp := s.now.plusMinutes 15 (by omega)

def NewPreview.row (n : NewPreview) (s : Session) (id : Uuid) : Except SqlError CostPreview := do
  let params ← jsonb n.params
  let units ← jsonb n.units
  let estimatedCostUsd ← numeric 12 4 n.estimatedCostUsd
  let gates ← jsonb n.gates
  .ok { id, tenantId := n.tenantId, locationId := n.locationId, operation := n.operation
        requestedBy := n.requestedBy, params, units, estimatedCostUsd, gates, passes := n.passes
        expiresAt := s.previewExpiry }

def Bill.draft (b : Bill) (s : Session) (id : ℤ) : Except SqlError (TenantDraft CostLedger) := do
  let unitCostUsd ← numeric 12 6 b.unitCostUsd
  let costUsd ← numeric 12 4 b.costUsd
  .ok { tenantId := b.tenantId
        row := { id, tenantId := b.tenantId.getD 0, locationId := b.locationId
                 billingDate := b.billingDate.getD s.currentDate, units := b.units, unitCostUsd
                 costUsd, billing := b.billing, approvalId := b.approvalId } }

/-! ## Statements -/

/-- `update approval set status = 'executed', .. where id = :id`. -/
def setExecuted (s : Session) (id : Uuid) (cost : Numeric 12 4) (result : Json) (r : Approval) :
    Option (TenantDraft Approval) :=
  if r.id = id then
    some { tenantId := some r.tenantId
           row := { r with status := .executed, executedAt := some s.now, actualCostUsd := some cost
                           result := some result } }
  else none

/-- The reply of one statement and the row versions it wrote. The texts of a request are taken to have no U+0000, with
which the driver would send none of them. -/
def runSql (s : Session) (e : Env) (db : Db) : (q : Sql) → Except SqlError (q.Result × List Write)
  | .findApproval tenantId key =>
    .ok ((Scope.approvals ⟨s, db⟩).filter fun r => r.tenantId == tenantId && r.idempotencyKey == key, [])
  | .loadPreview id tenantId operation =>
    .ok ((Scope.costPreviews ⟨s, db⟩).filter fun p =>
      p.id == id && p.tenantId == tenantId && p.operation == operation, [])
  | .assertBudget projected balance => do
    BaptistApi.assertBudget ⟨s, db⟩ projected balance
    .ok ((), [])
  | .insertApproval n => do
    let r ← insertInto s db .approval { tenantId := some n.tenantId, row := n.row e.uuid } true
    .ok (r.id, [.insert .approval r])
  | .insertLedger b => do
    let d ← b.draft s e.serial
    let r ← insertInto s db .costLedger d false
    .ok ((), [.insert .costLedger r])
  | .updateApproval id cost result => do
    let cost ← numeric 12 4 cost
    let result ← jsonb result
    let eff ← Tables.approval.exec s.currentUser ⟨s, db⟩ db.approval
      (.update (setExecuted s id cost result) true)
    .ok ((), eff.rewritten.map .setApproval)
  | .writeCard c => do
    let detail ← match c.detail with
      | none => .ok none
      | some d => do .ok (some (← jsonb d))
    let card ← BaptistApi.writeCard s db { c with detail } e.serial
    .ok (card.id, [.insert .auditCard card])
  | .selectBudget => .ok (currentBudget ⟨s, db⟩, [])
  | .monthSpend => .ok (BaptistApi.monthSpend ⟨s, db⟩ s.currentMonth, [])
  | .insertPreview n => do
    let row ← n.row s e.uuid
    let r ← insertInto s db .costPreview { tenantId := some n.tenantId, row } true
    .ok ((r.id, r.expiresAt), [.insert .costPreview r])

def exec (a : Call) (e : Env) (failed : Bool) (db : Db) : (c : Cmd) → Answer Write (Reply c)
  | .sql q =>
    if failed then { reply := .error .inFailedTransaction, fails := true }
    else
      match runSql a.session e db q with
      | .ok (v, ws) => { reply := .ok v, writes := ws }
      | .error x => { reply := .error x, fails := true }
  | .utcNow => { reply := e.clock }
  | .dispatch => { reply := e.outcome }

/-- The rows that a transaction holds. -/
def held (ws : List Write) : Db := ws.foldl Write.apply {}

/-- An INSERT waits for an uncommitted row with one of its keys. -/
def waits (e : Env) : Cmd → List Write → Bool
  | .sql (.insertApproval n), ws => (held ws).approval.any (clash .approval (n.row e.uuid))
  | .sql (.insertPreview _), ws => (held ws).costPreview.any fun r => e.uuid == r.id
  | _, _ => false

def ladder : Engine Db Call Env Write Cmd Reply Exc Value where
  prog a := a.action.prog
  apply := Write.apply
  exec := exec
  waits _ := waits
  external
    | .dispatch => true
    | _ => false
  lost
    | .sql _ => some (.error .connectionLost)
    | _ => none

abbrev LadderTx := Tx Call Write Cmd Reply Exc Value
abbrev LadderWorld := World Db Call Write Cmd Reply Exc Value
abbrev LadderLabel := Label Call Env

/-! ## A purchase of the clinic -/

def clinicBudget : CostBudget :=
  { id := 20, tenantId := 1, periodMonth := noon.date.truncMonth, monthlyCapUsd := ⟨10000, by decide⟩
    perRunCapUsd := ⟨10000, by decide⟩, balanceFloorUsd := ⟨0, by decide⟩, hardStop := true }

def clinicPreview : CostPreview :=
  { id := 21, tenantId := 1, locationId := none, operation := "post", requestedBy := 2, params := .null
    units := .null, estimatedCostUsd := ⟨600000, by decide⟩, gates := .null, passes := true
    expiresAt := noon }

/-- The clinic may spend 100 in September, and has a preview of 60. -/
def shop : Db := { clinic .active with costBudget := [clinicBudget], costPreview := [clinicPreview] }

def purchase (key : String) (bills : List Bill) : Call :=
  { ctx := clinicUser, startedAt := noon
    action := .execute
      { tenantId := 1, locationId := none, operation := "post", approvedBy := 2, previewId := 21
        idempotencyKey := key, repriceCostUsd := 60, providerBalanceUsd := none, bills } }

def queued (uuid : Uuid) (serial : ℤ) : Env :=
  { uuid, serial, clock := noon, outcome := .ok (.dict [(.str "queued", .bool true)]) }

end BaptistApi
