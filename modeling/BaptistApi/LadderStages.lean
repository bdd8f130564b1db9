import BaptistApi.LadderSpec

/-!
# Where a call stands

The rest of its program, the rows it wrote, and what is known of the database by then.
-/

namespace BaptistApi

open BaptistApi.Calendar BaptistApi.FixedPoint BaptistApi.Program BaptistApi.RowSecurity
  BaptistApi.Transactions

/-! ## What a transaction wrote -/

def openWrites (row : Approval) (ls : List CostLedger) : List Write :=
  .insert .approval row :: ls.map (.insert .costLedger)

@[simp] theorem view_openWrites (db : Db) (row : Approval) (ls : List CostLedger) :
    ladder.view db (openWrites row ls) =
      { db with approval := db.approval ++ [row], costLedger := db.costLedger ++ ls } := by
  have ledger (db : Db) : ladder.view db (ls.map (.insert .costLedger)) =
      { db with costLedger := db.costLedger ++ ls } := by
    induction ls generalizing db with
    | nil => simp
    | cons l ls ih =>
      rw [List.map_cons, Engine.view_cons, ih]
      simp [ladder, Write.apply, Db.add, Db.set, Db.rows]
  unfold openWrites
  rw [Engine.view_cons, ledger]
  rfl

theorem sub_openWrites (db : Db) (row : Approval) (ls : List CostLedger) :
    db.Sub { db with approval := db.approval ++ [row], costLedger := db.costLedger ++ ls } := by
  refine Db.sub_of_append fun t => ?_
  cases t with
  | approval => exact ⟨[row], rfl⟩
  | costLedger => exact ⟨ls, rfl⟩
  | _ => exact ⟨[], (List.append_nil _).symm⟩

theorem openWrites_append (row : Approval) (ls : List CostLedger) (l : CostLedger) :
    openWrites row (ls ++ [l]) = openWrites row ls ++ [.insert .costLedger l] := by
  simp [openWrites]

theorem own_row {db : Db} {row : Approval} {tenantId : Uuid}
    (hu : uniqueOk .approval (db.approval ++ [row])) (ht : row.tenantId = tenantId) :
    (db.approval ++ [row]).filter (fun r => r.tenantId == tenantId && r.id == row.id) = [row] := by
  rw [List.filter_append]
  have hold : db.approval.filter (fun r => r.tenantId == tenantId && r.id == row.id) = [] := by
    rw [List.filter_eq_nil_iff]
    intro r hr h
    have hc := (List.pairwise_append.mp hu).2.2 r hr row List.mem_cons_self
    simp only [Bool.and_eq_true, beq_iff_eq] at h
    simp [clash, h.2] at hc
  rw [hold]
  simp [ht]

theorem apply_setApproval {db : Db} {row row' : Approval} (hid : row'.id = row.id)
    (hu : uniqueOk .approval (db.approval ++ [row])) (ls : List CostLedger) :
    Write.apply { db with approval := db.approval ++ [row], costLedger := ls } (.setApproval row') =
      { db with approval := db.approval ++ [row'], costLedger := ls } := by
  have hold : db.approval.map (fun a => if a.id = row'.id then row' else a) = db.approval := by
    refine (List.map_congr_left fun a ha => ?_).trans (List.map_id _)
    have hc := (List.pairwise_append.mp hu).2.2 a ha row List.mem_cons_self
    rw [if_neg]
    · rfl
    · intro h
      simp [clash, h.trans hid] at hc
  unfold Write.apply
  simp only [List.map_append, hold, List.map_cons, List.map_nil]
  rw [if_pos hid.symm]

theorem view_closed {db : Db} {row row' : Approval} (hid : row'.id = row.id)
    (hu : uniqueOk .approval (db.approval ++ [row])) (ls : List CostLedger) :
    ladder.view db (openWrites row ls ++ [.setApproval row']) =
      { db with approval := db.approval ++ [row'], costLedger := db.costLedger ++ ls } := by
  rw [Engine.view_append, view_openWrites]
  exact apply_setApproval hid hu (db.costLedger ++ ls)

/-! ## The rest of the program -/

def answer (p : Ladder ApprovalResponse) : Ladder Value := do pure (.approval (← p))

def returnBilled (bs : List Bill) (result : PyVal) : Ladder PyVal := do
  insertBills bs
  pure result

namespace ExecuteRequest

variable (r : ExecuteRequest)

def afterUpdate (id : Uuid) (result : PyVal) : Ladder ApprovalResponse := do
  let _ ← Ladder.sql (.writeCard (r.card id))
  pure (r.response id result)

def afterDispatch (bs : List Bill) (id : Uuid) (result : PyVal) : Ladder ApprovalResponse := do
  recordExecuted r id (← returnBilled bs result)

def afterInsert (id : Uuid) : Ladder ApprovalResponse := do
  let result ← awaitDispatch r
  recordExecuted r id result

def afterBudget : Ladder ApprovalResponse := do
  let id ← insertExecuting r
  r.afterInsert id

def afterPrice : Ladder ApprovalResponse := do
  checkBudget r
  r.afterBudget

def afterLookup : Ladder ApprovalResponse := do
  checkPreview r
  r.afterPrice

def priceCheck (p : CostPreview) : Ladder Unit := do
  let now ← Ladder.utcNow
  if p.expiresAt < now then Ladder.problem .previewExpired
  else if driftTolerance < drift r.repriceCostUsd p.estimatedCostUsd.value then
    Ladder.problem .previewPriceDrift
  else pure ()

def afterLoad (p : CostPreview) : Ladder ApprovalResponse := do
  r.priceCheck p
  r.afterPrice

end ExecuteRequest

def quote (p : Ladder PreviewResponse) : Ladder Value := do pure (.preview (← p))

def PreviewRequest.afterGates (r : PreviewRequest) (gates : List Gate) : Ladder PreviewResponse := do
  let params ← Ladder.dumps r.stack r.params
  let units ← Ladder.dumps r.stack (.list (r.units.map (·.asDict)))
  let (id, expiresAt) ← Ladder.sql (.insertPreview (r.newPreview gates params units))
  pure (r.response gates id expiresAt)

def PreviewRequest.gates (r : PreviewRequest) (b : CostBudget) : Ladder (List Gate) := do
  let spent ← Ladder.sql .monthSpend
  pure ([perRunGate b r.estimatedCostUsd, monthlyGate b spent r.estimatedCostUsd] ++
    (r.providerBalanceUsd.map fun balance => balanceGate b balance r.estimatedCostUsd).toList)

def PreviewRequest.afterBudget (r : PreviewRequest) (b : CostBudget) : Ladder PreviewResponse := do
  r.afterGates (← r.gates b)

/-! ## Stages -/

/-- The price of the call is within the tolerance of a preview of its tenant and operation. -/
structure Priced (a : Call) (r : ExecuteRequest) (db : Db) : Prop where
  action : a.action = .execute r
  preview : ∃ p ∈ db.costPreview, p.id = r.previewId ∧ p.tenantId = a.ctx.tenantId ∧
    p.operation = r.operation ∧ drift r.repriceCostUsd p.estimatedCostUsd.value ≤ driftTolerance

def budgetAsserted (issued : List Cmd) : Prop :=
  ∃ projected balance, .sql (.assertBudget projected balance) ∈ issued

/-- The gate passed, on what was committed then. -/
structure Funded (a : Call) (r : ExecuteRequest) (db : Db) (issued : List Cmd) : Prop
    extends Priced a r db where
  passed : ∃ past : Db, past.Sub db ∧ past.costBudget = db.costBudget ∧
    assertBudget ⟨a.session, past⟩ r.repriceCostUsd r.providerBalanceUsd = .ok ()
  asserted : budgetAsserted issued

structure Opened (a : Call) (r : ExecuteRequest) (db : Db) (issued : List Cmd) (id : Uuid) : Prop
    extends Funded a r db issued where
  tenant : r.tenantId = a.ctx.tenantId
  unique : uniqueOk .approval (db.approval ++ [r.newApproval.row id])
  refs : rowOk db .approval (r.newApproval.row id)

/-- The ledger rows that the bills of a call became. -/
structure Billed (a : Call) (db : Db) (bs : List Bill) (ls : List CostLedger) : Prop where
  rows : bs.Forall₂ (fun b l => ∃ id unitCostUsd costUsd, Numeric.store? 12 6 b.unitCostUsd = some unitCostUsd ∧
    Numeric.store? 12 4 b.costUsd = some costUsd ∧
    l = b.row a.ctx.tenantId a.startedAt.date id unitCostUsd costUsd) ls
  refs : ∀ l ∈ ls, rowOk db .costLedger l

theorem Billed.mem {a : Call} {db : Db} {bs : List Bill} {ls : List CostLedger} (h : Billed a db bs ls)
    {l : CostLedger} (hl : l ∈ ls) : l.tenantId = a.ctx.tenantId ∧ ∃ b ∈ bs, l.locationId = b.locationId := by
  obtain ⟨b, hb, id, unitCostUsd, costUsd, -, -, rfl⟩ := mem_of_forall₂ h.rows hl
  exact ⟨rfl, b, hb, rfl⟩

/-- The row of an executed approval. -/
def Closes (a : Call) (r : ExecuteRequest) (id : Uuid) (row : Approval) : Prop :=
  ∃ cost result, Numeric.store? 12 4 r.repriceCostUsd = some cost ∧
    row = executedRow a.startedAt cost result (r.newApproval.row id)

/-- The column took the JSON of what `dispatch` returned. -/
def Recorded (r : ExecuteRequest) (v : PyVal) (row : Approval) : Prop :=
  ∃ text result, r.stack.dumps v = .ok text ∧ text.jsonb = some result ∧ row.result = some result

/-- What `audit.write_card` made of the call's request. -/
def Carded (a : Call) (r : ExecuteRequest) (id : Uuid) (card : AuditCard) : Prop :=
  ∃ (seen : Db) (serial : ℤ), writeCard a.session seen (r.card id) serial = .ok card

/-- Gates that `_evaluate_gates` may give, with some budget and some spend. -/
inductive PreviewRequest.Judged (r : PreviewRequest) : List Gate → Prop where
  | unconfigured : r.Judged [{ id := "budget_configured", pass := false
                               detail := "No cost budget configured for this tenant/month." }]
  | configured (b : CostBudget) (spent : ℚ) :
    r.Judged ([perRunGate b r.estimatedCostUsd, monthlyGate b spent r.estimatedCostUsd] ++
      (r.providerBalanceUsd.map fun balance => balanceGate b balance r.estimatedCostUsd).toList)

/-- The texts that a request gives for its `params` and its `units`. -/
def PreviewRequest.Encodes (r : PreviewRequest) (params units : Json) : Prop :=
  r.stack.dumps r.params = .ok params ∧ r.stack.dumps (.list (r.units.map (·.asDict))) = .ok units

/-- The row that the request asked for. -/
def Quotes (a : Call) (r : PreviewRequest) (gates : List Gate) (p : CostPreview) : Prop :=
  r.Judged gates ∧
    ∃ params units, r.Encodes params units ∧ (r.newPreview gates params units).row a.session p.id = .ok p

theorem Closes.id_eq {a : Call} {r : ExecuteRequest} {id : Uuid} {row : Approval}
    (h : Closes a r id row) : row.id = (r.newApproval.row id).id := by
  obtain ⟨cost, result, -, rfl⟩ := h
  rfl

/-- A call that has only to commit. `n` counts its calls of `dispatch`. -/
inductive Ending (a : Call) (db : Db) : ℕ → List Cmd → List Write → Value → Prop where
  | quoted {issued} {r : PreviewRequest} {gates : List Gate} {p : CostPreview}
    (ha : a.action = .createPreview r) (ht : p.tenantId = a.ctx.tenantId) (hl : p.locationId = r.locationId)
    (hq : Numeric.store? 12 4 r.estimatedCostUsd = some p.estimatedCostUsd)
    (hu : uniqueOk .costPreview (db.costPreview ++ [p])) (hok : rowOk db .costPreview p) (hrow : Quotes a r gates p) :
    Ending a db 0 issued [.insert .costPreview p] (.preview (r.response gates p.id p.expiresAt))
  | replayed {issued} {r : ExecuteRequest} {row : Approval} (ha : a.action = .execute r) (hrow : row ∈ db.approval)
    (ht : row.tenantId = r.tenantId) (hk : row.idempotencyKey = r.idempotencyKey) :
    Ending a db 0 issued [] (.approval row.existing.response)
  | executed {issued} {r : ExecuteRequest} {id : Uuid} {v : PyVal} {ls : List CostLedger} {row : Approval}
    {card : AuditCard} (h : Opened a r db issued id) (hl : Billed a db r.bills ls) (hr : Closes a r id row)
    (ht : card.tenantId = a.ctx.tenantId) (hv : card.verb = .execute) (ha : card.approvalId = some id)
    (hloc : card.locationId = r.locationId) (hactor : refersTo db.userIds card.actorId)
    (hperson : card.actorId = some a.ctx.actorId) (hv' : Recorded r v row) (hcard : Carded a r id card) :
    Ending a db 1 issued
      (openWrites (r.newApproval.row id) ls ++ [.setApproval row] ++ [.insert .auditCard card])
      (.approval (r.response id v))

/-- `good` is what is known of every result of `dispatch`. -/
inductive Standing (good : ExecuteRequest → PyVal → Prop) (a : Call) (db : Db) :
    ℕ → List Cmd → Ladder Value → List Write → Prop where
  | begun {issued} : Standing good a db 0 issued a.action.prog []
  | spending {issued} {r : PreviewRequest} (b : CostBudget) (ha : a.action = .createPreview r) :
    Standing good a db 0 issued (quote (r.afterBudget b)) []
  | gated {issued} {r : PreviewRequest} {gates : List Gate} (ha : a.action = .createPreview r) (hg : r.Judged gates) :
    Standing good a db 0 issued (quote (r.afterGates gates)) []
  | looked {issued} {r : ExecuteRequest} (ha : a.action = .execute r) :
    Standing good a db 0 issued (answer r.afterLookup) []
  | loaded {issued} {r : ExecuteRequest} {p : CostPreview} (ha : a.action = .execute r)
    (hp : p ∈ db.costPreview) (hid : p.id = r.previewId) (ht : p.tenantId = a.ctx.tenantId)
    (hop : p.operation = r.operation) :
    Standing good a db 0 issued (answer (r.afterLoad p)) []
  | priced {issued} {r : ExecuteRequest} (h : Priced a r db) :
    Standing good a db 0 issued (answer r.afterPrice) []
  | funded {issued} {r : ExecuteRequest} (h : Funded a r db issued) :
    Standing good a db 0 issued (answer r.afterBudget) []
  | opened {issued} {r : ExecuteRequest} {id : Uuid} (h : Opened a r db issued id) :
    Standing good a db 0 issued (answer (r.afterInsert id)) (openWrites (r.newApproval.row id) [])
  | dispatched {issued} {r : ExecuteRequest} {id : Uuid} {v : PyVal} {done rest : List Bill}
    {ls : List CostLedger} (h : Opened a r db issued id) (hv : good r v) (hb : r.bills = done ++ rest)
    (hl : Billed a db done ls) :
    Standing good a db 1 issued (answer (r.afterDispatch rest id v))
      (openWrites (r.newApproval.row id) ls)
  | closed {issued} {r : ExecuteRequest} {id : Uuid} {v : PyVal} {ls : List CostLedger} {row : Approval}
    (h : Opened a r db issued id) (hl : Billed a db r.bills ls) (hr : Closes a r id row)
    (hv : Recorded r v row) :
    Standing good a db 1 issued (answer (r.afterUpdate id v))
      (openWrites (r.newApproval.row id) ls ++ [.setApproval row])
  | ended {n issued ws v} (h : Ending a db n issued ws v) : Standing good a db n issued (.ret v) ws

/-! ## One command -/

theorem exec_sql_cases (a : Call) (e : Env) (db : Db) (q : Sql) :
    (∃ v ws, runSql a.session e db q = .ok (v, ws) ∧
        exec a e false db (.sql q) = { reply := .ok v, writes := ws }) ∨
      (∃ x, exec a e false db (.sql q) = { reply := .error x, fails := true }) := by
  unfold exec
  cases h : runSql a.session e db q with
  | ok p => exact Or.inl ⟨p.1, p.2, rfl, by simp [h]⟩
  | error x => exact Or.inr ⟨x, by simp [h]⟩

theorem Funded.issue {a : Call} {r : ExecuteRequest} {db : Db} {issued : List Cmd}
    (h : Funded a r db issued) (c : Cmd) : Funded a r db (issued ++ [c]) := by
  obtain ⟨hp, hpast, projected, balance, hm⟩ := h
  exact ⟨hp, hpast, projected, balance, List.mem_append_left _ hm⟩

theorem Opened.issue {a : Call} {r : ExecuteRequest} {db : Db} {issued : List Cmd} {id : Uuid}
    (h : Opened a r db issued id) (c : Cmd) : Opened a r db (issued ++ [c]) id :=
  { h with toFunded := h.toFunded.issue c }

theorem newPreview_row {r : PreviewRequest} {gates : List Gate} {params units : Json} {s : Session} {id : Uuid}
    {p : CostPreview} (h : (r.newPreview gates params units).row s id = .ok p) :
    p.id = id ∧ p.tenantId = r.tenantId ∧ p.locationId = r.locationId ∧
      Numeric.store? 12 4 r.estimatedCostUsd = some p.estimatedCostUsd := by
  unfold NewPreview.row at h
  simp only [bind_eq_ok, numeric_ok] at h
  obtain ⟨_, -, _, -, _, hq, _, -, h⟩ := h
  cases h
  exact ⟨rfl, rfl, rfl, hq⟩

section Exec

variable {good : ExecuteRequest → PyVal → Prop} {a : Call} {db : Db} {n : ℕ} {issued : List Cmd} {p : Ladder Value}
  {ws : List Write}

theorem afterGates_cases (r : PreviewRequest) (gates : List Gate) :
    (∃ x, quote (r.afterGates gates) = .raise (.encode x)) ∨
      ∃ params units, r.Encodes params units ∧ quote (r.afterGates gates) = quote (do
        let (id, expiresAt) ← Ladder.sql (.insertPreview (r.newPreview gates params units))
        pure (r.response gates id expiresAt)) := by
  unfold PreviewRequest.Encodes PreviewRequest.afterGates Ladder.dumps
  cases hparams : r.stack.dumps r.params with
  | error x => exact Or.inl ⟨x, rfl⟩
  | ok params =>
    cases hunits : r.stack.dumps (.list (r.units.map (·.asDict))) with
    | error x => exact Or.inl ⟨x, rfl⟩
    | ok units => exact Or.inr ⟨params, units, ⟨rfl, rfl⟩, rfl⟩

theorem gated_prog {r : PreviewRequest} {gates : List Gate} {c : Cmd} {k : Reply c → Ladder Value}
    (hp : quote (r.afterGates gates) = .call c k) :
    ∃ params units, r.Encodes params units ∧ (.call c k : Ladder Value) = quote (do
      let (id, expiresAt) ← Ladder.sql (.insertPreview (r.newPreview gates params units))
      pure (r.response gates id expiresAt)) := by
  rcases afterGates_cases r gates with ⟨x, hraise⟩ | ⟨params, units, hencodes, hsent⟩
  · cases hp.symm.trans hraise
  · exact ⟨params, units, hencodes, hp.symm.trans hsent⟩

theorem recordExecuted_encoded {r : ExecuteRequest} {v : PyVal} {text : Json} (h : r.stack.dumps v = .ok text)
    (id : Uuid) : recordExecuted r id v = (do
      Ladder.sql (.updateApproval id r.repriceCostUsd text)
      r.afterUpdate id v) := by
  unfold recordExecuted Ladder.dumps
  rw [h]
  rfl

theorem recordExecuted_refused {r : ExecuteRequest} {v : PyVal} {x : EncodeError} (h : r.stack.dumps v = .error x)
    (id : Uuid) : recordExecuted r id v = Ladder.raise (.encode x) := by
  unfold recordExecuted Ladder.dumps
  rw [h]
  rfl

theorem dispatched_prog {r : ExecuteRequest} {id : Uuid} {v : PyVal} {c : Cmd} {k : Reply c → Ladder Value}
    (hp : answer (r.afterDispatch [] id v) = .call c k) :
    ∃ text, r.stack.dumps v = .ok text ∧ (.call c k : Ladder Value) = answer (do
      Ladder.sql (.updateApproval id r.repriceCostUsd text)
      r.afterUpdate id v) := by
  change answer (recordExecuted r id v) = _ at hp
  cases hv : r.stack.dumps v with
  | error x => rw [recordExecuted_refused hv] at hp; cases hp
  | ok text => rw [recordExecuted_encoded hv] at hp; exact ⟨text, rfl, hp.symm⟩

theorem Standing.refused {q : Sql} {k : Reply (.sql q) → Ladder Value} (h : Standing good a db n issued p ws)
    (hp : p = .call (.sql q) k) (x : SqlError) : ∃ x', k (.error x) = .raise x' := by
  cases h with
  | begun =>
    cases ha : a.action with
    | createPreview r => rw [ha] at hp; cases hp; exact ⟨_, rfl⟩
    | execute r => rw [ha] at hp; cases hp; exact ⟨_, rfl⟩
  | spending => cases hp; exact ⟨_, rfl⟩
  | gated => obtain ⟨_, _, -, hk⟩ := gated_prog hp; cases hk; exact ⟨_, rfl⟩
  | looked => cases hp; exact ⟨_, rfl⟩
  | loaded => cases hp
  | priced => cases hp; exact ⟨_, rfl⟩
  | funded => cases hp; cases x <;> exact ⟨_, rfl⟩
  | opened => cases hp
  | @dispatched _ _ _ _ _ rest =>
    cases rest with
    | nil => obtain ⟨_, -, hk⟩ := dispatched_prog hp; cases hk; exact ⟨_, rfl⟩
    | cons => cases hp; exact ⟨_, rfl⟩
  | closed => cases hp; exact ⟨_, rfl⟩
  | ended => cases hp

/-- A command was answered. Before `dispatch` the program may raise, else it is a stage on. -/
def Reached (good : ExecuteRequest → PyVal → Prop) (a : Call) (db : Db) (n : ℕ) (issued : List Cmd) (p : Ladder Value)
    (ws : List Write) : Prop :=
  (n = 0 ∧ ∃ x, p = .raise x) ∨ Standing good a db n issued p ws

def sameKeys (x y : Approval) : Prop :=
  x.id = y.id ∧ x.tenantId = y.tenantId ∧ x.idempotencyKey = y.idempotencyKey

/-- After a command a transaction holds the keys it held before, and the keys of an INSERT, which no
committed row has. -/
structure Takes (e : Env) (db : Db) (c : Cmd) (ws : List Write) (rows : Db) : Prop where
  approvals : ∀ x ∈ rows.approval, (∃ y ∈ (held ws).approval, sameKeys x y) ∨
    ∃ n, c = .sql (.insertApproval n) ∧ x = n.row e.uuid ∧ uniqueOk .approval (db.approval ++ [x])
  previews : ∀ x ∈ rows.costPreview, x ∈ (held ws).costPreview ∨
    ∃ n, c = .sql (.insertPreview n) ∧ x.id = e.uuid ∧ uniqueOk .costPreview (db.costPreview ++ [x])

theorem takes_nothing {e : Env} {c : Cmd} {rows : Db} (happroval : rows.approval = (held ws).approval)
    (hpreview : rows.costPreview = (held ws).costPreview) : Takes e db c ws rows :=
  ⟨fun x hx => Or.inl ⟨x, happroval ▸ hx, rfl, rfl, rfl⟩, fun _ hx => Or.inl (hpreview ▸ hx)⟩

theorem held_append (ws ws' : List Write) : held (ws ++ ws') = ladder.view (held ws) ws' :=
  List.foldl_append

theorem held_openWrites (row : Approval) (ls : List CostLedger) :
    held (openWrites row ls) = { approval := [row], costLedger := ls } :=
  view_openWrites {} row ls

theorem quote_ends {r : PreviewRequest} {gates : List Gate} {params units : Json} {e : Env} {v : Uuid × Timestamp}
    {ws' : List Write} (ha : a.action = .createPreview r) (hgates : r.Judged gates) (hencodes : r.Encodes params units)
    (hr : runSql a.session e db (.insertPreview (r.newPreview gates params units)) = .ok (v, ws')) :
    Ending a db 0 issued ws' (.preview (r.response gates v.1 v.2)) ∧
      Takes e db (.sql (.insertPreview (r.newPreview gates params units))) [] (held ws') := by
  obtain ⟨ht, p, hp, hu, hok, hid, hexp, rfl⟩ := runSql_insertPreview.mp hr
  obtain ⟨hpid, hpt, hpl, hq⟩ := newPreview_row hp
  rw [hid, hexp]
  refine ⟨.quoted ha (hpt.trans ht) hpl hq hu hok ⟨hgates, params, units, hencodes, hpid ▸ hp⟩, ?_, ?_⟩
  · intro x hx
    cases hx
  · intro x hx
    rw [List.mem_singleton.mp hx]
    exact Or.inr ⟨_, rfl, hpid, hu⟩

section Opened

variable {r : ExecuteRequest} {id : Uuid} {e : Env} {ls : List CostLedger} {ws' : List Write}

theorem Opened.billed {v : PyVal} {done rest : List Bill} {b : Bill} (h : Opened a r db issued id) (hv : good r v)
    (hb : r.bills = done ++ b :: rest) (hl : Billed a db done ls)
    (hr : runSql a.session e (ladder.view db (openWrites (r.newApproval.row id) ls)) (.insertLedger b) =
      .ok ((), ws')) :
    Standing good a db 1 (issued ++ [.sql (.insertLedger b)]) (answer (r.afterDispatch rest id v))
        (openWrites (r.newApproval.row id) ls ++ ws') ∧
      Takes e db (.sql (.insertLedger b)) (openWrites (r.newApproval.row id) ls)
        (held (openWrites (r.newApproval.row id) ls ++ ws')) := by
  rw [view_openWrites] at hr
  obtain ⟨ht, unitCostUsd, costUsd, hu, hc, hok, rfl⟩ := runSql_insertLedger.mp hr
  have hbills : r.bills = (done ++ [b]) ++ rest := by
    rw [hb, List.append_assoc]
    rfl
  rw [← openWrites_append]
  refine ⟨.dispatched (h.issue _) hv hbills ⟨List.rel_append hl.rows (.cons ⟨_, _, _, hu, hc, rfl⟩ .nil), ?_⟩, ?_⟩
  · intro l hmem
    rcases List.mem_append.mp hmem with hmem | hmem
    · exact hl.refs l hmem
    · rw [List.mem_singleton.mp hmem]
      exact hok
  · apply takes_nothing <;> rw [held_openWrites, held_openWrites]

theorem Opened.updated {v : PyVal} {text : Json} (h : Opened a r db issued id) (hl : Billed a db r.bills ls)
    (htext : r.stack.dumps v = .ok text)
    (hr : runSql a.session e (ladder.view db (openWrites (r.newApproval.row id) ls))
      (.updateApproval id r.repriceCostUsd text) = .ok ((), ws')) :
    Standing good a db 1 (issued ++ [.sql (.updateApproval id r.repriceCostUsd text)])
        (answer (r.afterUpdate id v)) (openWrites (r.newApproval.row id) ls ++ ws') ∧
      Takes e db (.sql (.updateApproval id r.repriceCostUsd text)) (openWrites (r.newApproval.row id) ls)
        (held (openWrites (r.newApproval.row id) ls ++ ws')) := by
  rw [view_openWrites] at hr
  obtain ⟨cost, result, hc, hj, rfl⟩ := runSql_updateApproval.mp hr
  have hown : (db.approval ++ [r.newApproval.row id]).filter
      (fun row => row.tenantId == a.ctx.tenantId && row.id == id) = [r.newApproval.row id] :=
    own_row h.unique h.tenant
  rw [hown]
  refine ⟨.closed (h.issue _) hl ⟨cost, result, hc, rfl⟩ ⟨text, result, htext, hj, rfl⟩, ?_, ?_⟩
  · intro x hx
    rw [held_append, held_openWrites] at hx
    rw [held_openWrites]
    refine Or.inl ⟨r.newApproval.row id, List.mem_singleton.mpr rfl, ?_⟩
    simp [ladder, Write.apply, executedRow, NewApproval.row] at hx
    rw [hx]
    exact ⟨rfl, rfl, rfl⟩
  · intro x hx
    rw [held_append, held_openWrites] at hx
    cases hx

theorem Opened.carded {v : PyVal} {row : Approval} {cardId : ℤ} (h : Opened a r db issued id)
    (hl : Billed a db r.bills ls) (hc : Closes a r id row) (hresult : Recorded r v row)
    (hr : runSql a.session e (ladder.view db (openWrites (r.newApproval.row id) ls ++ [.setApproval row]))
      (.writeCard (r.card id)) = .ok (cardId, ws')) :
    Ending a db 1 (issued ++ [.sql (.writeCard (r.card id))])
        (openWrites (r.newApproval.row id) ls ++ [.setApproval row] ++ ws') (.approval (r.response id v)) ∧
      Takes e db (.sql (.writeCard (r.card id))) (openWrites (r.newApproval.row id) ls ++ [.setApproval row])
        (held (openWrites (r.newApproval.row id) ls ++ [.setApproval row] ++ ws')) := by
  obtain ⟨card, hcard, rfl, rfl⟩ := (runSql_writeCard rfl).mp hr
  obtain ⟨_, verb, -, hverb, ht, hperson, -, hv, hloc, ha, hok⟩ := writeCard_ok hcard
  have hexecute : card.verb = .execute := hv.trans (Option.some.inj hverb).symm
  rw [view_closed hc.id_eq h.unique] at hok
  have hactor : refersTo db.userIds card.actorId := hok.2.2.1
  refine ⟨.executed (h.issue _) hl hc (Option.some.inj ht) hexecute ha hloc hactor hperson hresult ⟨_, _, hcard⟩,
    takes_nothing ?_ ?_⟩
  · rw [held_append]
    rfl
  · rw [held_append]
    rfl

end Opened

/-- What a statement answers brings the program a stage on. -/
theorem Standing.answered {q : Sql} {k : Reply (.sql q) → Ladder Value} {e : Env} {v : q.Result}
    {ws' : List Write} (h : Standing good a db n issued p ws) (hp : p = .call (.sql q) k)
    (hr : runSql a.session e (ladder.view db ws) q = .ok (v, ws')) :
    Reached good a db n (issued ++ [.sql q]) (k (.ok v)) (ws ++ ws') ∧
      Takes e db (.sql q) ws (held (ws ++ ws')) := by
  cases h with
  | begun =>
    cases ha : a.action with
    | createPreview r =>
      rw [ha] at hp
      cases hp
      cases hr
      refine ⟨?_, takes_nothing rfl rfl⟩
      match currentBudget ⟨a.session, db⟩ with
      | [] => exact Or.inr (.gated ha .unconfigured)
      | [b] => exact Or.inr (.spending b ha)
      | _ :: _ :: _ => exact Or.inl ⟨rfl, _, rfl⟩
    | execute r =>
      rw [ha] at hp
      cases hp
      obtain ⟨rfl, hrows⟩ := runSql_findApproval hr
      refine ⟨?_, takes_nothing rfl rfl⟩
      match v with
      | [] => exact Or.inr (.looked ha)
      | [row] =>
        obtain ⟨hmem, -, ht, hk⟩ := hrows row List.mem_cons_self
        change Reached good a db 0 _ (answer (if row.existing.costPreviewId ≠ some r.previewId then
          Ladder.problem .duplicateIdempotencyKey else pure row.existing.response)) _
        split
        · exact Or.inl ⟨rfl, _, rfl⟩
        · exact Or.inr (.ended (.replayed ha hmem ht hk))
      | _ :: _ :: _ => exact Or.inl ⟨rfl, _, rfl⟩
  | spending b ha =>
    cases hp
    cases hr
    exact ⟨Or.inr (.gated ha (.configured b _)), takes_nothing rfl rfl⟩
  | gated ha hgates =>
    obtain ⟨params, units, hencodes, hk⟩ := gated_prog hp
    cases hk
    obtain ⟨hend, htakes⟩ := quote_ends ha hgates hencodes hr
    exact ⟨Or.inr (.ended hend), htakes⟩
  | @looked _ r ha =>
    cases hp
    obtain ⟨rfl, hrows⟩ := runSql_loadPreview hr
    refine ⟨?_, takes_nothing rfl rfl⟩
    match v with
    | [] => exact Or.inl ⟨rfl, _, rfl⟩
    | [p] =>
      obtain ⟨hmem, hid, ht, -, hop⟩ := hrows p List.mem_cons_self
      exact Or.inr (.loaded ha hmem hid ht hop)
    | _ :: _ :: _ => exact Or.inl ⟨rfl, _, rfl⟩
  | loaded => cases hp
  | @priced _ r h =>
    cases hp
    obtain ⟨rfl, hpass⟩ := runSql_assertBudget hr
    have hissued : budgetAsserted (issued ++ [.sql (.assertBudget r.repriceCostUsd r.providerBalanceUsd)]) :=
      ⟨_, _, List.mem_append_right _ List.mem_cons_self⟩
    exact ⟨Or.inr (.funded ⟨h, ⟨db, Db.Sub.refl db, rfl, hpass⟩, hissued⟩), takes_nothing rfl rfl⟩
  | @funded _ r h =>
    cases hp
    obtain ⟨ht, rfl, rfl, hu, hok⟩ := runSql_insertApproval.mp hr
    refine ⟨Or.inr (.opened ⟨h.issue _, ht, hu, hok⟩), fun x hx => ?_, fun x hx => ?_⟩
    · rw [List.mem_singleton.mp hx]
      exact Or.inr ⟨_, rfl, rfl, hu⟩
    · cases hx
  | opened => cases hp
  | @dispatched _ r id result done rest ls h hv hb hl =>
    match rest with
    | b :: rest =>
      cases hp
      obtain ⟨hnext, htakes⟩ := h.billed hv hb hl hr
      exact ⟨Or.inr hnext, htakes⟩
    | [] =>
      rw [List.append_nil] at hb
      subst hb
      obtain ⟨text, htext, hk⟩ := dispatched_prog hp
      cases hk
      obtain ⟨hnext, htakes⟩ := h.updated hl htext hr
      exact ⟨Or.inr hnext, htakes⟩
  | closed h hl hc hv =>
    cases hp
    obtain ⟨hend, htakes⟩ := h.carded hl hc hv hr
    exact ⟨Or.inr (.ended hend), htakes⟩
  | ended => cases hp

theorem Standing.clocked {k : Reply .utcNow → Ladder Value} (h : Standing good a db n issued p ws)
    (hp : p = .call .utcNow k) (now : Timestamp) : Reached good a db n (issued ++ [.utcNow]) (k now) ws := by
  cases h with
  | begun => cases ha : a.action <;> rw [ha] at hp <;> cases hp
  | gated => obtain ⟨_, _, -, hk⟩ := gated_prog hp; cases hk
  | @loaded _ r p ha hmem hid ht hop =>
    cases hp
    change Reached good a db 0 _ (answer (do
      (if p.expiresAt < now then Ladder.problem .previewExpired
        else if driftTolerance < drift r.repriceCostUsd p.estimatedCostUsd.value then
          Ladder.problem .previewPriceDrift
        else pure ())
      r.afterPrice)) _
    split
    · exact Or.inl ⟨rfl, _, rfl⟩
    · split
      · exact Or.inl ⟨rfl, _, rfl⟩
      · rename_i hdrift
        exact Or.inr (.priced ⟨ha, p, hmem, hid, ht, hop, not_lt.mp hdrift⟩)
  | @dispatched _ _ _ _ _ rest =>
    cases rest with
    | nil => obtain ⟨_, -, hk⟩ := dispatched_prog hp; cases hk
    | cons => cases hp
  | _ => cases hp

theorem Standing.ending {v : Value} (h : Standing good a db n issued p ws) (hp : p = .ret v) :
    Ending a db n issued ws v := by
  cases h with
  | begun => cases ha : a.action <;> rw [ha] at hp <;> cases hp
  | @gated _ r gates ha hgates =>
    rcases afterGates_cases r gates with ⟨x, hraise⟩ | ⟨_, _, -, hsent⟩
    · cases hp.symm.trans hraise
    · cases hp.symm.trans hsent
  | @dispatched _ r id v done rest =>
    cases rest with
    | nil =>
      change answer (recordExecuted r id v) = _ at hp
      cases hv : r.stack.dumps v with
      | error x => rw [recordExecuted_refused hv] at hp; cases hp
      | ok text => rw [recordExecuted_encoded hv] at hp; cases hp
    | cons => cases hp
  | ended h => cases hp; exact h
  | _ => cases hp

/-- `dispatch` is called once, with the approval row in place. -/
theorem Standing.dispatching {k : Reply .dispatch → Ladder Value} (h : Standing good a db n issued p ws)
    (hp : p = .call .dispatch k) :
    n = 0 ∧ (∃ r id, Opened a r db issued id) ∧
      (∀ v, (∀ r, a.action = .execute r → good r v) → Standing good a db 1 (issued ++ [.dispatch]) (k (.ok v)) ws) ∧
      ∀ message, ∃ x, k (.error message) = .raise x := by
  cases h with
  | begun => cases ha : a.action <;> rw [ha] at hp <;> cases hp
  | gated => obtain ⟨_, _, -, hk⟩ := gated_prog hp; cases hk
  | @opened _ r id h =>
    cases hp
    refine ⟨rfl, ⟨r, id, h⟩, fun v hv => ?_, fun message => ⟨_, rfl⟩⟩
    exact .dispatched (h.issue _) (hv r h.action) (List.nil_append r.bills).symm ⟨.nil, fun _ hl => (nomatch hl)⟩
  | @dispatched _ _ _ _ _ rest =>
    cases rest with
    | nil => obtain ⟨_, -, hk⟩ := dispatched_prog hp; cases hk
    | cons => cases hp
  | _ => cases hp

end Exec

end BaptistApi
