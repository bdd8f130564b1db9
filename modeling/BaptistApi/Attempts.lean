import BaptistApi.LadderAlone
import BaptistApi.Lib.Attempts

/-!
# How far an execution gets

One call of `execute` among others, statement by statement: what it needs to get to its gate and to
its `dispatch`, and how it ends when it does not get there.
-/

namespace BaptistApi

open BaptistApi.Calendar BaptistApi.FixedPoint BaptistApi.Program BaptistApi.RowSecurity
  BaptistApi.Transactions

abbrev LadderTurn := Turn Db Env

theorem ladder_attempted {db : Db} {ls : List LadderLabel} {w : LadderWorld} (hrun : ladder.run { db } ls = some w)
    {i : ℕ} {s : LadderSlot} (hi : w.slots[i]? = some s) : ladder.Attempted s := by
  have : Nonempty Env := ⟨queued 30 1⟩
  exact Engine.run_attempted hrun hi

/-! ## One statement -/

section Statement

variable {β : Type} {a : Call} {turns : ℕ → LadderTurn} {q : Sql} {k : Reply (.sql q) → Ladder β}

theorem attempt_sql {v : q.Result} {ws : List Write} {st : Progress Write} (hf : st.failed = false)
    (hkept : (turns st.issued).lost = false)
    (hr : runSql a.session (turns st.issued).env (ladder.view (turns st.issued).db st.writes) q = .ok (v, ws)) :
    ladder.attempt a turns (.call (.sql q) k) st =
      ladder.attempt a turns (k (.ok v))
        { writes := st.writes ++ ws, effects := st.effects, issued := st.issued + 1 } := by
  have he : ladder.turn a (turns st.issued) st (.sql q) = { reply := .ok v, writes := ws } := by
    rw [Engine.turn_kept hkept]
    change exec a (turns st.issued).env st.failed (ladder.view (turns st.issued).db st.writes) (.sql q) = _
    unfold exec
    simp [hf, hr]
  rw [Engine.attempt_call, he]
  simp [Progress.after, hf, ladder]

theorem attempt_refused {st : Progress Write} (hf : st.failed = false)
    (h : ∀ v, (turns st.issued).lost = false →
      runSql a.session (turns st.issued).env (ladder.view (turns st.issued).db st.writes) q ≠ .ok v) :
    ∃ x, ladder.attempt a turns (.call (.sql q) k) st =
        ladder.attempt a turns (k (.error x)) { failed := true, effects := st.effects, issued := st.issued + 1 } ∧
      ((turns st.issued).lost = true ∧ x = .connectionLost ∨ (turns st.issued).lost = false ∧
        runSql a.session (turns st.issued).env (ladder.view (turns st.issued).db st.writes) q = .error x) := by
  have after {x : SqlError} (he : ladder.turn a (turns st.issued) st (.sql q) = { reply := .error x, fails := true }) :
      ladder.attempt a turns (.call (.sql q) k) st =
        ladder.attempt a turns (k (.error x)) { failed := true, effects := st.effects, issued := st.issued + 1 } := by
    rw [Engine.attempt_call, he]
    simp [Progress.after, ladder]
  cases hlost : (turns st.issued).lost with
  | true => exact ⟨_, after (Engine.turn_lost hlost rfl st), Or.inl ⟨rfl, rfl⟩⟩
  | false =>
    cases hr : runSql a.session (turns st.issued).env (ladder.view (turns st.issued).db st.writes) q with
    | ok v => exact absurd hr (h v hlost)
    | error x =>
      refine ⟨x, after ?_, Or.inr ⟨rfl, rfl⟩⟩
      rw [Engine.turn_kept hlost]
      change exec a (turns st.issued).env st.failed (ladder.view (turns st.issued).db st.writes) (.sql q) = _
      unfold exec
      simp [hf, hr]

end Statement

/-! ## Before the gate -/

/-- The rows of `_find_existing_approval`. -/
def approvalsFound (a : Call) (r : ExecuteRequest) (db : Db) : List Approval :=
  (Scope.approvals ⟨a.session, db⟩).filter fun x =>
    x.tenantId == r.tenantId && x.idempotencyKey == r.idempotencyKey

/-- The rows of `_load_preview`. -/
def previewsFound (a : Call) (r : ExecuteRequest) (db : Db) : List CostPreview :=
  (Scope.costPreviews ⟨a.session, db⟩).filter fun p =>
    p.id == r.previewId && p.tenantId == r.tenantId && p.operation == r.operation

/-- The preview is still valid, and the price has not drifted from it. -/
structure QuoteStands (r : ExecuteRequest) (clock : Timestamp) (p : CostPreview) : Prop where
  valid : clock ≤ p.expiresAt
  price : drift r.repriceCostUsd p.estimatedCostUsd.value ≤ driftTolerance

/-- The call gets as far as `cost.assert_budget`. -/
structure ReachesGate (a : Call) (r : ExecuteRequest) (turns : ℕ → LadderTurn) : Prop where
  kept : (turns 0).lost = false ∧ (turns 1).lost = false
  newKey : approvalsFound a r (turns 0).db = []
  quoted : ∃ p, previewsFound a r (turns 1).db = [p] ∧ QuoteStands r (turns 2).env.clock p

def KeyTaken (r : ExecuteRequest) (db : Db) : Prop :=
  ∃ x ∈ db.approval, x.tenantId = r.tenantId ∧ x.idempotencyKey = r.idempotencyKey

/-- How a call ends that does not get to its gate. -/
structure EndsBeforeGate (r : ExecuteRequest) (turns : ℕ → LadderTurn) (out : Except Exc Value × Progress Write) :
    Prop where
  nothing : out.2.failed = true ∨ out.2.writes = []
  codes : ∀ code, out.1 = .error (.problem code) → code ∈ [.notFound, .previewExpired, .previewPriceDrift] ∨
    code = .duplicateIdempotencyKey ∧ out.2.issued = 1 ∧ KeyTaken r (turns 0).db

section Gate

variable {a : Call} {r : ExecuteRequest} {turns : ℕ → LadderTurn}

theorem endsBeforeGate_sql (x : SqlError) {st : Progress Write} (hf : st.failed = true) :
    EndsBeforeGate r turns (.error (.sql x), st) :=
  ⟨Or.inl hf, fun _ h => by cases h⟩

theorem endsBeforeGate_raised {x : Exc} {st : Progress Write} (hw : st.writes = [])
    (hx : ∀ code, x = .problem code → code ∈ [.notFound, .previewExpired, .previewPriceDrift]) :
    EndsBeforeGate r turns (.error x, st) :=
  ⟨Or.inr hw, fun code h => Or.inl (hx code (Except.error.inj h))⟩

theorem attempt_found (hkept : (turns 0).lost = false) (hnew : approvalsFound a r (turns 0).db = []) :
    ladder.attempt a turns (answer (execute r)) {} = ladder.attempt a turns (answer r.afterLookup) { issued := 1 } := by
  have hrun : runSql a.session (turns 0).env (turns 0).db (.findApproval r.tenantId r.idempotencyKey) =
      .ok ([], []) := congrArg (fun rows => Except.ok (rows, [])) hnew
  exact (attempt_sql rfl hkept hrun).trans rfl

theorem attempt_quote {p : CostPreview} (hkept : (turns 1).lost = false)
    (hp : previewsFound a r (turns 1).db = [p]) :
    ladder.attempt a turns (answer r.afterLookup) { issued := 1 } =
      ladder.attempt a turns (answer (do
        (if p.expiresAt < (turns 2).env.clock then Ladder.problem .previewExpired
          else if driftTolerance < drift r.repriceCostUsd p.estimatedCostUsd.value then
            Ladder.problem .previewPriceDrift
          else pure ())
        r.afterPrice)) { issued := 3 } := by
  have hrun : runSql a.session (turns 1).env (turns 1).db (.loadPreview r.previewId r.tenantId r.operation) =
      .ok ([p], []) := congrArg (fun rows => Except.ok (rows, [])) hp
  have hclock (st : Progress Write) : ladder.turn a (turns 2) st .utcNow = { reply := (turns 2).env.clock } :=
    Engine.turn_outside rfl st
  refine (attempt_sql rfl hkept hrun).trans ?_
  change ladder.attempt a turns (answer (r.afterLoad p)) { issued := 2 } = _
  have hcall : ∃ k, answer (r.afterLoad p) = .call .utcNow k ∧ k (turns 2).env.clock = answer (do
      (if p.expiresAt < (turns 2).env.clock then Ladder.problem .previewExpired
        else if driftTolerance < drift r.repriceCostUsd p.estimatedCostUsd.value then
          Ladder.problem .previewPriceDrift
        else pure ())
      r.afterPrice) := ⟨_, rfl, rfl⟩
  obtain ⟨k, hprog, hk⟩ := hcall
  rw [hprog, Engine.attempt_call, hclock, hk]
  rfl

theorem ReachesGate.attempt (h : ReachesGate a r turns) :
    ladder.attempt a turns (answer (execute r)) {} = ladder.attempt a turns (answer r.afterPrice) { issued := 3 } := by
  obtain ⟨p, hp, hvalid, hprice⟩ := h.quoted
  rw [attempt_found h.kept.1 h.newKey, attempt_quote h.kept.2 hp, if_neg (not_lt.mpr hvalid), if_neg (not_lt.mpr hprice)]
  rfl

theorem ends_of_found (hkept : (turns 0).lost = false) (hfound : approvalsFound a r (turns 0).db ≠ []) :
    EndsBeforeGate r turns (ladder.attempt a turns (answer (execute r)) {}) := by
  have hrun : runSql a.session (turns 0).env (turns 0).db (.findApproval r.tenantId r.idempotencyKey) =
      .ok (approvalsFound a r (turns 0).db, []) := rfl
  match hrows : approvalsFound a r (turns 0).db with
  | [] => exact absurd hrows hfound
  | [row] =>
    rw [hrows] at hrun
    obtain ⟨-, hmem⟩ := runSql_findApproval hrun
    obtain ⟨hrow, -, ht, hkey⟩ := hmem row List.mem_cons_self
    have hnext : ladder.attempt a turns (answer (execute r)) {} = ladder.attempt a turns
        (answer (if row.existing.costPreviewId ≠ some r.previewId then Ladder.problem .duplicateIdempotencyKey
          else pure row.existing.response)) { issued := 1 } := (attempt_sql rfl hkept hrun).trans rfl
    rw [hnext]
    split
    · exact ⟨Or.inr rfl, fun code h => Or.inr (by cases h; exact ⟨rfl, rfl, row, hrow, ht, hkey⟩)⟩
    · exact ⟨Or.inr rfl, fun code h => by cases h⟩
  | x :: y :: rest =>
    rw [hrows] at hrun
    have hnext : ladder.attempt a turns (answer (execute r)) {} = (.error .multipleResults, { issued := 1 }) :=
      (attempt_sql rfl hkept hrun).trans rfl
    rw [hnext]
    exact endsBeforeGate_raised rfl fun code h => by cases h

theorem ends_of_quote (hkept : (turns 1).lost = false)
    (hquote : ¬ ∃ p, previewsFound a r (turns 1).db = [p] ∧ QuoteStands r (turns 2).env.clock p) :
    EndsBeforeGate r turns (ladder.attempt a turns (answer r.afterLookup) { issued := 1 }) := by
  have hrun : runSql a.session (turns 1).env (turns 1).db (.loadPreview r.previewId r.tenantId r.operation) =
      .ok (previewsFound a r (turns 1).db, []) := rfl
  match hrows : previewsFound a r (turns 1).db with
  | [] =>
    rw [hrows] at hrun
    have hnext : ladder.attempt a turns (answer r.afterLookup) { issued := 1 } =
        (.error (.problem .notFound), { issued := 2 }) := (attempt_sql rfl hkept hrun).trans rfl
    rw [hnext]
    exact endsBeforeGate_raised rfl fun code h => by cases h; decide
  | [p] =>
    rw [attempt_quote hkept hrows]
    split
    · exact endsBeforeGate_raised rfl fun code h => by cases h; decide
    · rename_i hvalid
      split
      · exact endsBeforeGate_raised rfl fun code h => by cases h; decide
      · rename_i hprice
        exact absurd ⟨p, hrows, not_lt.mp hvalid, not_lt.mp hprice⟩ hquote
  | x :: y :: rest =>
    rw [hrows] at hrun
    have hnext : ladder.attempt a turns (answer r.afterLookup) { issued := 1 } =
        (.error .multipleResults, { issued := 2 }) := (attempt_sql rfl hkept hrun).trans rfl
    rw [hnext]
    exact endsBeforeGate_raised rfl fun code h => by cases h

theorem attempt_before_gate (h : ¬ ReachesGate a r turns) :
    EndsBeforeGate r turns (ladder.attempt a turns (answer (execute r)) {}) := by
  have lost {q : Sql} {k : Reply (.sql q) → Ladder Value} {st : Progress Write} (hf : st.failed = false)
      (hlost : (turns st.issued).lost ≠ false) (hk : ∀ x, k (.error x) = .raise (.sql x)) :
      EndsBeforeGate r turns (ladder.attempt a turns (.call (.sql q) k) st) := by
    obtain ⟨x, hx, -⟩ := @attempt_refused _ a turns q k st hf fun _ hkept => absurd hkept hlost
    rw [hx, hk]
    exact endsBeforeGate_sql x rfl
  by_cases hkept : (turns 0).lost = false
  · by_cases hnew : approvalsFound a r (turns 0).db = []
    · rw [attempt_found hkept hnew]
      by_cases hkept' : (turns 1).lost = false
      · exact ends_of_quote hkept' fun hquote => h ⟨⟨hkept, hkept'⟩, hnew, hquote⟩
      · exact @lost (.loadPreview _ _ _) _ { issued := 1 } rfl hkept' fun _ => rfl
    · exact ends_of_found hkept hnew
  · exact @lost (.findApproval _ _) _ {} rfl hkept fun _ => rfl

/-! ## The gate and the INSERT -/

def GatePasses (a : Call) (r : ExecuteRequest) (t : LadderTurn) : Prop :=
  t.lost = false ∧ assertBudget ⟨a.session, t.db⟩ r.repriceCostUsd r.providerBalanceUsd = .ok ()

theorem GatePasses.attempt (h : GatePasses a r (turns 3)) :
    ladder.attempt a turns (answer r.afterPrice) { issued := 3 } =
      ladder.attempt a turns (answer r.afterBudget) { issued := 4 } := by
  have hrun : runSql a.session (turns 3).env (turns 3).db (.assertBudget r.repriceCostUsd r.providerBalanceUsd) =
      .ok ((), []) := bind_eq_ok.mpr ⟨(), h.2, rfl⟩
  exact (attempt_sql rfl h.1 hrun).trans rfl

theorem attempt_gate_refused (h : ¬ GatePasses a r (turns 3)) :
    ladder.attempt a turns (answer r.afterPrice) { issued := 3 } =
      (.error (.problem .budgetExceeded), { failed := true, issued := 4 }) := by
  obtain ⟨k, hprog, hk⟩ : ∃ k, answer r.afterPrice =
      .call (.sql (.assertBudget r.repriceCostUsd r.providerBalanceUsd)) k ∧
      ∀ x, k (.error x) = .raise (.problem .budgetExceeded) := ⟨_, rfl, fun _ => rfl⟩
  obtain ⟨x, hx, -⟩ := @attempt_refused _ a turns _ k { issued := 3 } rfl
    fun v hkept hrun => h ⟨hkept, (runSql_assertBudget hrun).2⟩
  rw [hprog, hx, hk]
  rfl

/-- Keys and references let the new approval in. -/
def RowTaken (r : ExecuteRequest) (id : Uuid) (db : Db) : Prop :=
  uniqueOk .approval (db.approval ++ [r.newApproval.row id]) ∧ rowOk db .approval (r.newApproval.row id)

structure InsertTaken (a : Call) (r : ExecuteRequest) (t : LadderTurn) : Prop where
  kept : t.lost = false
  tenant : r.tenantId = a.ctx.tenantId
  row : RowTaken r t.env.uuid t.db

theorem InsertTaken.attempt (h : InsertTaken a r (turns 4)) :
    ladder.attempt a turns (answer r.afterBudget) { issued := 4 } =
      ladder.attempt a turns (answer (r.afterInsert (turns 4).env.uuid))
        { writes := openWrites (r.newApproval.row (turns 4).env.uuid) [], issued := 5 } := by
  have hrun : runSql a.session (turns 4).env (turns 4).db (.insertApproval r.newApproval) =
      .ok ((turns 4).env.uuid, [.insert .approval (r.newApproval.row (turns 4).env.uuid)]) :=
    runSql_insertApproval.mpr ⟨h.tenant, rfl, rfl, h.row.1, h.row.2⟩
  exact (attempt_sql rfl h.kept hrun).trans rfl

/-- Every IntegrityError is called a taken key. -/
theorem attempt_insert_refused (h : ¬ InsertTaken a r (turns 4)) :
    ∃ x, ladder.attempt a turns (answer r.afterBudget) { issued := 4 } = (.error x, { failed := true, issued := 5 }) ∧
      x ≠ .problem .budgetExceeded ∧ (x = .problem .duplicateIdempotencyKey ↔ (turns 4).lost = false ∧
        runSql a.session (turns 4).env (turns 4).db (.insertApproval r.newApproval) = .error .integrity) := by
  have hno (v : Uuid × List Write) (hkept : (turns 4).lost = false) :
      runSql a.session (turns 4).env (turns 4).db (.insertApproval r.newApproval) ≠ .ok v := by
    intro hrun
    obtain ⟨ht, -, -, hu, hok⟩ := runSql_insertApproval.mp hrun
    exact h ⟨hkept, ht, hu, hok⟩
  obtain ⟨k, hprog, hintegrity, hother⟩ : ∃ k, answer r.afterBudget = .call (.sql (.insertApproval r.newApproval)) k ∧
      k (.error .integrity) = .raise (.problem .duplicateIdempotencyKey) ∧
      ∀ e, e ≠ .integrity → k (.error e) = .raise (.sql e) :=
    ⟨_, rfl, rfl, fun e he => by cases e <;> first | rfl | exact absurd rfl he⟩
  obtain ⟨e, he, hwhy⟩ := @attempt_refused _ a turns _ k { issued := 4 } rfl hno
  rw [hprog, he]
  by_cases hint : e = .integrity
  · subst hint
    rw [hintegrity]
    refine ⟨_, rfl, by simp, iff_of_true rfl ?_⟩
    rcases hwhy with ⟨-, hlost⟩ | hrun
    · cases hlost
    · exact hrun
  · rw [hother e hint]
    refine ⟨_, rfl, by simp, iff_of_false (by simp) ?_⟩
    rintro ⟨hkept, hrun⟩
    rcases hwhy with ⟨hlost, -⟩ | ⟨-, hrun'⟩
    · exact absurd (hkept.symm.trans hlost) (by simp)
    · exact hint (Except.error.inj (hrun'.symm.trans hrun))

end Gate

def shopRequest : ExecuteRequest :=
  { tenantId := 1, locationId := none, operation := "post", approvedBy := 2, previewId := 21
    idempotencyKey := "a", repriceCostUsd := 60, providerBalanceUsd := none }

end BaptistApi
