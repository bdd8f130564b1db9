import BaptistApi.Audit
import BaptistApi.Cost
import BaptistApi.Problem
import BaptistApi.Lib.Program

/-!
# The approval ladder

`create_preview` and `execute` as programs: every SQL statement, the clock and `dispatch` are
commands, and what comes back decides how the program goes on.
-/

namespace BaptistApi

open BaptistApi.Calendar BaptistApi.Program

/-! ## Commands -/

/-- A row that `dispatch` adds to `cost_ledger`, in the transaction of the execution. -/
structure Bill where
  tenantId : Option Uuid := none
  locationId : Option Uuid := none
  /-- `current_date` by default. -/
  billingDate : Option Date := none
  units : ℤ
  unitCostUsd : ℚ
  costUsd : ℚ
  billing : Billing
  approvalId : Option Uuid := none

structure NewPreview where
  tenantId : Uuid
  locationId : Option Uuid
  operation : String
  requestedBy : Uuid
  params : Json
  units : Json
  estimatedCostUsd : ℚ
  gates : Json
  passes : Bool

structure NewApproval where
  tenantId : Uuid
  locationId : Option Uuid
  costPreviewId : Uuid
  operation : String
  approvedBy : Uuid
  idempotencyKey : String

inductive Sql where
  | findApproval (tenantId : Uuid) (key : String)
  | loadPreview (id tenantId : Uuid) (operation : String)
  | assertBudget (projected : ℚ) (balance : Option ℚ)
  | insertApproval (a : NewApproval)
  | insertLedger (b : Bill)
  | updateApproval (id : Uuid) (cost : ℚ) (result : Json)
  | writeCard (c : CardRequest)
  | selectBudget
  | monthSpend
  | insertPreview (p : NewPreview)

abbrev Sql.Result : Sql → Type
  | .findApproval .. => List Approval
  | .loadPreview .. => List CostPreview
  | .assertBudget .. => Unit
  | .insertApproval _ => Uuid
  | .insertLedger _ => Unit
  | .updateApproval .. => Unit
  | .writeCard _ => ℤ
  | .selectBudget => List CostBudget
  | .monthSpend => ℚ
  | .insertPreview _ => Uuid × Timestamp

inductive Cmd where
  | sql (q : Sql)
  /-- `datetime.now(UTC)`. -/
  | utcNow
  /-- The call of `dispatch`, with what it does outside the database. -/
  | dispatch

abbrev Reply : Cmd → Type
  | .sql q => Except SqlError q.Result
  | .utcNow => Timestamp
  | .dispatch => Except String PyVal

inductive Exc where
  | problem (code : ProblemCode)
  | sql (e : SqlError)
  | multipleResults
  | encode (e : EncodeError)
  | dispatch (message : String)

abbrev Ladder := Prog Cmd Reply Exc

def Ladder.raise {α : Type} (x : Exc) : Ladder α := Prog.raise x

def Ladder.problem {α : Type} (code : ProblemCode) : Ladder α := Prog.raise (.problem code)

def Ladder.sql (q : Sql) : Ladder q.Result :=
  Prog.call (.sql q) fun
    | .ok v => Prog.ret v
    | .error e => Prog.raise (.sql e)

def Ladder.one {α : Type} (rows : List α) : Ladder (Option α) :=
  match oneOrNone rows with
  | .ok o => Prog.ret o
  | .error _ => Prog.raise .multipleResults

def Ladder.utcNow : Ladder Timestamp := Prog.call .utcNow Prog.ret

/-- `json.dumps(value, default=str)`. -/
def Ladder.dumps (stack : Stack) (v : PyVal) : Ladder Json :=
  match stack.dumps v with
  | .ok j => Prog.ret j
  | .error e => Prog.raise (.encode e)

/-! ## `create_preview` -/

structure CostUnit where
  label : String
  count : ℤ
  unitCostUsd : Decimal
  subtotalUsd : Decimal

def CostUnit.asDict (u : CostUnit) : PyVal :=
  .dict [(.str "label", .str u.label), (.str "count", .int u.count), (.str "unit_cost_usd", .str u.unitCostUsd.str),
    (.str "subtotal_usd", .str u.subtotalUsd.str)]

structure Gate where
  id : String
  pass : Bool
  detail : String

/-- As JSON at once: two levels and no number can always be encoded. -/
def Gate.asDict (g : Gate) : Json :=
  .obj [("id", .str g.id), ("pass", .bool g.pass), ("detail", .str g.detail)]

structure PreviewRequest where
  tenantId : Uuid
  locationId : Option Uuid
  operation : String
  requestedBy : Uuid
  params : PyVal
  units : List CostUnit
  estimatedCostUsd : ℚ
  providerBalanceUsd : Option ℚ
  /-- The stack of the call. -/
  stack : Stack := .ordinary

structure PreviewResponse where
  previewId : Uuid
  operation : String
  expiresAt : Timestamp
  units : List PyVal
  estimatedCostUsd : ℚ
  gates : List Gate
  passes : Bool

def perRunGate (b : CostBudget) (estimated : ℚ) : Gate :=
  { id := "per_run_cap", pass := decide (estimated ≤ b.perRunCapUsd.value)
    detail := s!"${fixed2 estimated} <= ${fixed2 b.perRunCapUsd.value}" }

def monthlyGate (b : CostBudget) (spent estimated : ℚ) : Gate :=
  { id := "monthly_cap", pass := !b.hardStop || decide (spent + estimated ≤ b.monthlyCapUsd.value)
    detail := s!"${fixed2 spent} + ${fixed2 estimated} <= ${fixed2 b.monthlyCapUsd.value}" }

def balanceGate (b : CostBudget) (balance estimated : ℚ) : Gate :=
  { id := "balance_floor", pass := decide (b.balanceFloorUsd.value ≤ balance - estimated)
    detail := s!"${fixed2 (balance - estimated)} >= ${fixed2 b.balanceFloorUsd.value}" }

/-- `_evaluate_gates`. -/
def evaluateGates (estimated : ℚ) (balance : Option ℚ) : Ladder (List Gate) := do
  match ← Ladder.one (← Ladder.sql .selectBudget) with
  | none =>
    pure [{ id := "budget_configured", pass := false
            detail := "No cost budget configured for this tenant/month." }]
  | some b =>
    let spent ← Ladder.sql .monthSpend
    pure ([perRunGate b estimated, monthlyGate b spent estimated] ++
      (balance.map fun balance => balanceGate b balance estimated).toList)

def PreviewRequest.newPreview (r : PreviewRequest) (gates : List Gate) (params units : Json) : NewPreview :=
  { tenantId := r.tenantId, locationId := r.locationId, operation := r.operation
    requestedBy := r.requestedBy, params, units, estimatedCostUsd := r.estimatedCostUsd
    gates := .arr (gates.map (·.asDict)), passes := gates.all (·.pass) }

def PreviewRequest.response (r : PreviewRequest) (gates : List Gate) (id : Uuid) (expiresAt : Timestamp) :
    PreviewResponse :=
  { previewId := id, operation := r.operation, expiresAt, units := r.units.map (·.asDict)
    estimatedCostUsd := r.estimatedCostUsd, gates, passes := gates.all (·.pass) }

def createPreview (r : PreviewRequest) : Ladder PreviewResponse := do
  let gates ← evaluateGates r.estimatedCostUsd r.providerBalanceUsd
  let params ← Ladder.dumps r.stack r.params
  let units ← Ladder.dumps r.stack (.list (r.units.map (·.asDict)))
  let (id, expiresAt) ← Ladder.sql (.insertPreview (r.newPreview gates params units))
  pure (r.response gates id expiresAt)

/-! ## `execute` -/

structure ExecuteRequest where
  tenantId : Uuid
  locationId : Option Uuid
  operation : String
  approvedBy : Uuid
  previewId : Uuid
  idempotencyKey : String
  repriceCostUsd : ℚ
  providerBalanceUsd : Option ℚ
  /-- The ledger rows of the caller's `dispatch`. -/
  bills : List Bill := []
  /-- The stack of the call. -/
  stack : Stack := .ordinary

structure ApprovalResponse where
  approvalId : Uuid
  status : ApprovalStatus
  actualCostUsd : Option ℚ
  result : PyVal

namespace ExecuteRequest

variable (r : ExecuteRequest)

def newApproval : NewApproval :=
  { tenantId := r.tenantId, locationId := r.locationId, costPreviewId := r.previewId
    operation := r.operation, approvedBy := r.approvedBy, idempotencyKey := r.idempotencyKey }

def card (approvalId : Uuid) : CardRequest :=
  { locationId := r.locationId, verb := "execute", action := s!"Executed {r.operation}"
    resourceType := r.operation, resourceId := some (Uuid.str approvalId), approvalId := some approvalId }

def response (approvalId : Uuid) (result : PyVal) : ApprovalResponse :=
  { approvalId, status := .executed, actualCostUsd := some r.repriceCostUsd, result }

end ExecuteRequest

structure ExistingApproval where
  costPreviewId : Option Uuid
  response : ApprovalResponse

def Approval.existing (row : Approval) : ExistingApproval :=
  { costPreviewId := row.costPreviewId
    response := { approvalId := row.id, status := row.status
                  actualCostUsd := row.actualCostUsd.map (·.value)
                  result := (row.result.map (·.loads)).getD .none } }

/-- `_find_existing_approval`. -/
def findExistingApproval (tenantId : Uuid) (key : String) : Ladder (Option ExistingApproval) := do
  match ← Ladder.one (← Ladder.sql (.findApproval tenantId key)) with
  | none => pure none
  | some row => pure (some row.existing)

structure LoadedPreview where
  estimatedCostUsd : ℚ
  expiresAt : Timestamp

/-- `_load_preview`. -/
def loadPreview (tenantId : Uuid) (operation : String) (previewId : Uuid) :
    Ladder (Option LoadedPreview) := do
  match ← Ladder.one (← Ladder.sql (.loadPreview previewId tenantId operation)) with
  | none => pure none
  | some row => pure (some { estimatedCostUsd := row.estimatedCostUsd.value, expiresAt := row.expiresAt })

def driftTolerance : ℚ := 1 / 10

/-- `abs(reprice - baseline) / baseline if baseline else Decimal(0)`. -/
def drift (reprice baseline : ℚ) : ℚ := if baseline ≠ 0 then |reprice - baseline| / baseline else 0

def checkPreview (r : ExecuteRequest) : Ladder Unit := do
  match ← loadPreview r.tenantId r.operation r.previewId with
  | none => Ladder.problem .notFound
  | some preview =>
    let now ← Ladder.utcNow
    if preview.expiresAt < now then Ladder.problem .previewExpired
    else if driftTolerance < drift r.repriceCostUsd preview.estimatedCostUsd then
      Ladder.problem .previewPriceDrift
    else pure ()

/-- Every error of the statement becomes BUDGET_EXCEEDED. -/
def checkBudget (r : ExecuteRequest) : Ladder Unit :=
  Prog.call (.sql (.assertBudget r.repriceCostUsd r.providerBalanceUsd)) fun
    | .ok _ => pure ()
    | .error _ => Ladder.problem .budgetExceeded

/-- The approval row, `executing`: every IntegrityError becomes DUPLICATE_IDEMPOTENCY_KEY. -/
def insertExecuting (r : ExecuteRequest) : Ladder Uuid :=
  Prog.call (.sql (.insertApproval r.newApproval)) fun
    | .ok id => pure id
    | .error .integrity => Ladder.problem .duplicateIdempotencyKey
    | .error e => Ladder.raise (.sql e)

def insertBills : List Bill → Ladder Unit
  | [] => pure ()
  | b :: bs => do
    Ladder.sql (.insertLedger b)
    insertBills bs

/-- `await dispatch()`. -/
def awaitDispatch (r : ExecuteRequest) : Ladder PyVal :=
  Prog.call .dispatch fun
    | .error message => Ladder.raise (.dispatch message)
    | .ok result => do
      insertBills r.bills
      pure result

def recordExecuted (r : ExecuteRequest) (approvalId : Uuid) (result : PyVal) : Ladder ApprovalResponse := do
  let text ← Ladder.dumps r.stack result
  Ladder.sql (.updateApproval approvalId r.repriceCostUsd text)
  let _ ← Ladder.sql (.writeCard (r.card approvalId))
  pure (r.response approvalId result)

def execute (r : ExecuteRequest) : Ladder ApprovalResponse := do
  match ← findExistingApproval r.tenantId r.idempotencyKey with
  | some existing =>
    if existing.costPreviewId ≠ some r.previewId then Ladder.problem .duplicateIdempotencyKey
    else pure existing.response
  | none =>
    checkPreview r
    checkBudget r
    let approvalId ← insertExecuting r
    let result ← awaitDispatch r
    recordExecuted r approvalId result

end BaptistApi
