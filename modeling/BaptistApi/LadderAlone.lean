import BaptistApi.LadderInvariant

/-!
# Calls that nobody disturbs

What a call needs to get through when no other one runs.
-/

namespace BaptistApi

open BaptistApi.Calendar BaptistApi.FixedPoint BaptistApi.Program BaptistApi.RowSecurity
  BaptistApi.Transactions

theorem drive_sql {β : Type} {a : Call} {env : ℕ → Env} {db : Db} {q : Sql} {k : Reply (.sql q) → Ladder β}
    {v : q.Result} {ws : List Write} (st : Progress Write) (hf : st.failed = false)
    (hr : runSql a.session (env st.issued) (ladder.view db st.writes) q = .ok (v, ws)) :
    ladder.drive a env db (.call (.sql q) k) st =
      ladder.drive a env db (k (.ok v))
        { writes := st.writes ++ ws, effects := st.effects, issued := st.issued + 1 } := by
  have he : ladder.exec a (env st.issued) st.failed (ladder.view db st.writes) (.sql q) =
      { reply := .ok v, writes := ws } := by
    change exec a (env st.issued) st.failed (ladder.view db st.writes) (.sql q) = _
    unfold exec
    simp [hf, hr]
  rw [Engine.drive_call, he]
  simp [Progress.after, hf, ladder]

/-! ## The texts of the gates -/

/-- jsonb takes the gate as it is. -/
structure Gate.Plain (g : Gate) : Prop where
  id : textStorable g.id = true
  detail : textStorable g.detail = true

theorem Gate.Plain.jsonb {g : Gate} (h : g.Plain) : g.asDict.jsonb = some g.asDict := by
  have hid : textStorable "id" = true := by decide
  have hpass : textStorable "pass" = true := by decide
  have hdetail : textStorable "detail" = true := by decide
  simp [Gate.asDict, Json.jsonb, Json.jsonbEntries, lastOfKey, hid, hpass, hdetail, h.id, h.detail]

theorem jsonb_gates {gates : List Gate} (h : ∀ g ∈ gates, g.Plain) :
    (Json.arr (gates.map (·.asDict))).jsonb = some (.arr (gates.map (·.asDict))) := by
  have hlist : Json.jsonbList (gates.map (·.asDict)) = some (gates.map (·.asDict)) := by
    induction gates with
    | nil => rfl
    | cons g gates ih =>
      rw [List.map_cons, Json.jsonbList, (h g List.mem_cons_self).jsonb,
        ih fun g hg => h g (List.mem_cons_of_mem _ hg)]
      rfl
  rw [Json.jsonb, hlist]
  rfl

/-- What `_evaluate_gates` returns in one state of the database. -/
def displayedGates (sc : Scope) (estimated : ℚ) (balance : Option ℚ) : List Gate :=
  match currentBudget sc with
  | [] =>
    [{ id := "budget_configured", pass := false, detail := "No cost budget configured for this tenant/month." }]
  | b :: _ =>
    [perRunGate b estimated, monthlyGate b (monthSpend sc sc.session.currentMonth) estimated] ++
      (balance.map fun balance => balanceGate b balance estimated).toList

theorem plain_gates (b : CostBudget) (spent estimated : ℚ) (balance : Option ℚ) :
    ∀ g ∈ [perRunGate b estimated, monthlyGate b spent estimated] ++
      (balance.map fun balance => balanceGate b balance estimated).toList, g.Plain := by
  have hrun : (perRunGate b estimated).Plain := by
    have hid : textStorable "per_run_cap" = true := by decide
    refine ⟨hid, ?_⟩
    change textStorable ("$" ++ fixed2 estimated ++ " <= $" ++ fixed2 b.perRunCapUsd.value) = true
    simp
    decide
  have hmonth : (monthlyGate b spent estimated).Plain := by
    have hid : textStorable "monthly_cap" = true := by decide
    refine ⟨hid, ?_⟩
    change textStorable ("$" ++ fixed2 spent ++ " + $" ++ fixed2 estimated ++ " <= $" ++
      fixed2 b.monthlyCapUsd.value) = true
    simp
    decide
  have hbalance (balance : ℚ) : (balanceGate b balance estimated).Plain := by
    have hid : textStorable "balance_floor" = true := by decide
    refine ⟨hid, ?_⟩
    change textStorable ("$" ++ fixed2 (balance - estimated) ++ " >= $" ++ fixed2 b.balanceFloorUsd.value) = true
    simp
    decide
  intro g hg
  cases balance with
  | none =>
    simp only [Option.map_none, Option.toList_none, List.append_nil, List.mem_cons, List.not_mem_nil,
      or_false] at hg
    rcases hg with rfl | rfl
    · exact hrun
    · exact hmonth
  | some balance =>
    simp only [Option.map_some, Option.toList_some, List.mem_append, List.mem_cons, List.not_mem_nil,
      or_false] at hg
    rcases hg with (rfl | rfl) | rfl
    · exact hrun
    · exact hmonth
    · exact hbalance balance

theorem plain_displayedGates (sc : Scope) (estimated : ℚ) (balance : Option ℚ) :
    ∀ g ∈ displayedGates sc estimated balance, g.Plain := by
  unfold displayedGates
  split
  · intro g hg
    rw [List.mem_singleton.mp hg]
    have hid : textStorable "budget_configured" = true := by decide
    have hdetail : textStorable "No cost budget configured for this tenant/month." = true := by decide
    exact ⟨hid, hdetail⟩
  · exact plain_gates _ _ _ _

/-! ## `create_preview` -/

theorem createPreview_gates {a : Call} {r : PreviewRequest} {db : Db} {env : ℕ → Env}
    (ha : a.action = .createPreview r) (hone : (currentBudget ⟨a.session, db⟩).length ≤ 1) :
    ∃ n, ladder.alone a env db = ladder.drive a env db
      (quote (r.afterGates (displayedGates ⟨a.session, db⟩ r.estimatedCostUsd r.providerBalanceUsd)))
      { issued := n } := by
  have hbudgets : runSql a.session (env 0) db .selectBudget = .ok (currentBudget ⟨a.session, db⟩, []) := rfl
  unfold Engine.alone displayedGates
  change ∃ n, ladder.drive a env db a.action.prog {} = _
  rw [ha]
  match hb : currentBudget ⟨a.session, db⟩ with
  | [] =>
    rw [hb] at hbudgets
    exact ⟨1, (drive_sql {} rfl hbudgets).trans rfl⟩
  | [b] =>
    rw [hb] at hbudgets
    have hspent : runSql a.session (env 1) db .monthSpend =
        .ok (monthSpend ⟨a.session, db⟩ a.session.currentMonth, []) := rfl
    exact ⟨2, (drive_sql {} rfl hbudgets).trans (drive_sql { issued := 1 } rfl hspent)⟩
  | _ :: _ :: _ =>
    rw [hb] at hone
    simp at hone

/-- What the columns of `cost_preview` take, the price apart. -/
structure Previewable (a : Call) (r : PreviewRequest) (db : Db) (env : ℕ → Env) : Prop where
  tenant : r.tenantId = a.ctx.tenantId
  texts : ∃ params units, r.Encodes params units ∧ params.jsonb ≠ none ∧ units.jsonb ≠ none
  keyed : Keyed db
  fresh : ∀ n, (env n).uuid ∉ db.previewIds
  refs : r.tenantId ∈ db.tenantIds ∧ refersTo db.locationIds r.locationId ∧ r.requestedBy ∈ db.userIds

theorem createPreview_alone {a : Call} {r : PreviewRequest} {db : Db} {env : ℕ → Env} {cost : Numeric 12 4}
    (ha : a.action = .createPreview r) (hone : (currentBudget ⟨a.session, db⟩).length ≤ 1)
    (hr : Previewable a r db env) (hcost : Numeric.store? 12 4 r.estimatedCostUsd = some cost) :
    ∃ p n, ladder.alone a env db =
        (.ok (.preview (r.response (displayedGates ⟨a.session, db⟩ r.estimatedCostUsd r.providerBalanceUsd)
          p.id p.expiresAt)), { writes := [.insert .costPreview p], issued := n }) ∧
      (∃ n, p.id = (env n).uuid) ∧ p.tenantId = r.tenantId ∧ p.operation = r.operation ∧
      p.estimatedCostUsd = cost ∧ p.expiresAt = a.session.previewExpiry := by
  obtain ⟨n, hgates⟩ := @createPreview_gates a r db env ha hone
  let gates := displayedGates ⟨a.session, db⟩ r.estimatedCostUsd r.providerBalanceUsd
  obtain ⟨params, units, ⟨hparams, hunits⟩, hparams', hunits'⟩ := hr.texts
  obtain ⟨params', hparams'⟩ := Option.ne_none_iff_exists'.mp hparams'
  obtain ⟨units', hunits'⟩ := Option.ne_none_iff_exists'.mp hunits'
  let p : CostPreview :=
    { id := (env n).uuid, tenantId := r.tenantId, locationId := r.locationId, operation := r.operation
      requestedBy := r.requestedBy, params := params', units := units', estimatedCostUsd := cost
      gates := .arr (gates.map (·.asDict)), passes := gates.all (·.pass)
      expiresAt := a.session.previewExpiry }
  have hrow : (r.newPreview gates params units).row a.session (env n).uuid = .ok p := by
    unfold NewPreview.row
    simp only [bind_eq_ok, numeric_ok, jsonb_ok]
    exact ⟨_, hparams', _, hunits', _, hcost, _, jsonb_gates (plain_displayedGates _ _ _), rfl⟩
  have hu : uniqueOk .costPreview (db.costPreview ++ [p]) := by
    refine (uniqueOk_append .costPreview).mpr ⟨hr.keyed.previews, fun q hq => ?_⟩
    simp only [clash, beq_eq_false_iff_ne]
    intro hqid
    exact hr.fresh n (List.mem_map.mpr ⟨q, hq, hqid⟩)
  have hinsert : runSql a.session (env n) db (.insertPreview (r.newPreview gates params units)) =
      .ok ((p.id, p.expiresAt), [.insert .costPreview p]) :=
    runSql_insertPreview.mpr ⟨hr.tenant, p, hrow, hu, hr.refs, rfl, rfl, rfl⟩
  refine ⟨p, n + 1, ?_, ⟨n, rfl⟩, rfl, rfl, rfl, by dsimp only [p]⟩
  rw [hgates]
  unfold PreviewRequest.afterGates Ladder.dumps
  rw [hparams, hunits]
  exact (drive_sql { issued := n } rfl hinsert).trans rfl

/-! ## `execute` -/

/-- What `execute` needs to get to its `dispatch`. -/
structure Ready (a : Call) (r : ExecuteRequest) (db : Db) (e : Env) (p : CostPreview) : Prop where
  action : a.action = .execute r
  tenant : r.tenantId = a.ctx.tenantId
  keyed : Keyed db
  preview : p ∈ db.costPreview
  names : p.id = r.previewId ∧ p.tenantId = r.tenantId ∧ p.operation = r.operation
  valid : e.clock ≤ p.expiresAt
  price : drift r.repriceCostUsd p.estimatedCostUsd.value ≤ driftTolerance
  budget : assertBudget ⟨a.session, db⟩ r.repriceCostUsd r.providerBalanceUsd = .ok ()
  fresh : uniqueOk .approval (db.approval ++ [r.newApproval.row e.uuid])
  refs : rowOk db .approval (r.newApproval.row e.uuid)

section Execute

variable {a : Call} {r : ExecuteRequest} {db : Db} {e : Env} {p : CostPreview}

theorem finds_nothing {id : Uuid} (hfresh : uniqueOk .approval (db.approval ++ [r.newApproval.row id])) :
    runSql a.session e db (.findApproval r.tenantId r.idempotencyKey) = .ok ([], []) := by
  cases hrun : runSql a.session e db (.findApproval r.tenantId r.idempotencyKey) with
  | error x => cases hrun
  | ok v =>
    obtain ⟨rows, ws⟩ := v
    obtain ⟨rfl, hrows⟩ := runSql_findApproval hrun
    cases rows with
    | nil => rfl
    | cons x rows =>
      obtain ⟨hx, -, ht, hk⟩ := hrows x List.mem_cons_self
      have hclash := ((uniqueOk_append .approval).mp hfresh).2 x hx
      simp [clash, NewApproval.row, ExecuteRequest.newApproval, ht, hk] at hclash

theorem Keyed.eq_of_id {p q : CostPreview} (h : Keyed db) (hp : p ∈ db.costPreview) (hq : q ∈ db.costPreview)
    (hid : q.id = p.id) : q = p :=
  eq_of_uniqueOk h.previews (fun _ _ heq => by simp [clash, heq]) hq hp hid

theorem loads_preview (hk : Keyed db) (hp : p ∈ db.costPreview) (ht : r.tenantId = a.ctx.tenantId)
    (hnames : p.id = r.previewId ∧ p.tenantId = r.tenantId ∧ p.operation = r.operation) :
    runSql a.session e db (.loadPreview r.previewId r.tenantId r.operation) = .ok ([p], []) := by
  obtain ⟨hid, htenant, hop⟩ := hnames
  have hnodup : db.costPreview.Nodup := hk.previews.imp fun {x y} hxy heq => by
    rw [heq] at hxy
    simp [clash] at hxy
  have hrows : ((Scope.costPreviews ⟨a.session, db⟩).filter fun q =>
      q.id == r.previewId && q.tenantId == r.tenantId && q.operation == r.operation).Nodup := by
    rw [Call.session, costPreviews_eq]
    exact (hnodup.filter _).filter _
  have hlist : ((Scope.costPreviews ⟨a.session, db⟩).filter fun q =>
      q.id == r.previewId && q.tenantId == r.tenantId && q.operation == r.operation) = [p] := by
    refine ((List.perm_ext_iff_of_nodup hrows (List.nodup_singleton p)).mpr fun q => ?_).eq_singleton
    simp only [List.mem_filter, Call.session, mem_costPreviews, Bool.and_eq_true, beq_iff_eq,
      List.mem_singleton]
    constructor
    · rintro ⟨⟨hq, -⟩, ⟨hqid, -⟩, -⟩
      exact hk.eq_of_id hp hq (hqid.trans hid.symm)
    · rintro rfl
      exact ⟨⟨hp, htenant.trans ht⟩, ⟨hid, htenant⟩, hop⟩
  exact congrArg (fun rows => Except.ok (rows, [])) hlist

theorem execute_alone (h : Ready a r db e p) :
    ladder.alone a (fun _ => e) db = ladder.drive a (fun _ => e) db (answer (r.afterInsert e.uuid))
      { writes := openWrites (r.newApproval.row e.uuid) [], issued := 5 } := by
  have hprice : ladder.drive a (fun _ => e) db (answer (r.afterLoad p)) { issued := 2 } =
      ladder.drive a (fun _ => e) db (answer r.afterPrice) { issued := 3 } := by
    change ladder.drive a (fun _ => e) db (answer (do
      (if p.expiresAt < e.clock then Ladder.problem .previewExpired
        else if driftTolerance < drift r.repriceCostUsd p.estimatedCostUsd.value then
          Ladder.problem .previewPriceDrift
        else pure ())
      r.afterPrice)) { issued := 3 } = _
    rw [if_neg (not_lt.mpr h.valid), if_neg (not_lt.mpr h.price)]
    rfl
  have hbudget : runSql a.session e db (.assertBudget r.repriceCostUsd r.providerBalanceUsd) = .ok ((), []) :=
    bind_eq_ok.mpr ⟨(), h.budget, rfl⟩
  have hinsert : runSql a.session e db (.insertApproval r.newApproval) =
      .ok (e.uuid, [.insert .approval (r.newApproval.row e.uuid)]) :=
    runSql_insertApproval.mpr ⟨h.tenant, rfl, rfl, h.fresh, h.refs⟩
  unfold Engine.alone
  change ladder.drive a (fun _ => e) db a.action.prog {} = _
  rw [h.action]
  refine (drive_sql {} rfl (finds_nothing h.fresh)).trans ?_
  change ladder.drive a (fun _ => e) db (answer r.afterLookup) { issued := 1 } = _
  refine (drive_sql { issued := 1 } rfl (loads_preview h.keyed h.preview h.tenant h.names)).trans ?_
  change ladder.drive a (fun _ => e) db (answer (r.afterLoad p)) { issued := 2 } = _
  rw [hprice]
  refine (drive_sql { issued := 3 } rfl hbudget).trans ?_
  exact (drive_sql { issued := 4 } rfl hinsert).trans rfl

theorem Ready.dispatches (h : Ready a r db e p) : 1 ≤ (ladder.alone a (fun _ => e) db).2.effects := by
  let st : Progress Write := { writes := openWrites (r.newApproval.row e.uuid) [], issued := 5 }
  rw [execute_alone h]
  exact ladder.effects_le_drive a (fun _ => e) db _ (st.after true { reply := e.outcome })

/-- What `execute` needs to get from its `dispatch` to its end. -/
structure Settles (a : Call) (r : ExecuteRequest) (db : Db) (e : Env) (v : PyVal) (cost : Numeric 12 4)
    (result : Json) : Prop where
  returns : e.outcome = .ok v
  bills : r.bills = []
  recorded : ∃ text, r.stack.dumps v = .ok text ∧ text.jsonb = some result
  cost : Numeric.store? 12 4 r.repriceCostUsd = some cost
  role : ActorRole.ofText? a.session.currentRole ≠ none
  actor : a.ctx.actorId ∈ db.userIds

theorem execute_settles {v : PyVal} {cost : Numeric 12 4} {result : Json} (h : Ready a r db e p)
    (hs : Settles a r db e v cost result) :
    ∃ card, ladder.alone a (fun _ => e) db =
      (.ok (.approval (r.response e.uuid v)),
        { writes := openWrites (r.newApproval.row e.uuid) [] ++
            [.setApproval (executedRow a.startedAt cost result (r.newApproval.row e.uuid))] ++
            [.insert .auditCard card]
          effects := 1, issued := 8 }) := by
  let row := r.newApproval.row e.uuid
  let row' := executedRow a.startedAt cost result row
  obtain ⟨text, hdumps, hjson⟩ := hs.recorded
  have hupdate : runSql a.session e (ladder.view db (openWrites row [])) (.updateApproval e.uuid r.repriceCostUsd text) =
      .ok ((), [.setApproval row']) := by
    rw [view_openWrites]
    refine runSql_updateApproval.mpr ⟨cost, result, hs.cost, hjson, ?_⟩
    have hown : (db.approval ++ [row]).filter (fun x => x.tenantId == a.ctx.tenantId && x.id == e.uuid) = [row] :=
      own_row h.fresh h.tenant
    rw [hown]
    rfl
  have htenants : a.ctx.tenantId ∈ db.tenantIds := h.tenant ▸ h.refs.1
  obtain ⟨card, hcard⟩ := @writeCard_succeeds a.ctx a.startedAt
    { db with approval := db.approval ++ [row'], costLedger := db.costLedger ++ [] } (r.card e.uuid) e.serial hs.role
    (by simp [ExecuteRequest.card, Verb.ofText?]) htenants h.refs.2.1 hs.actor fun i hi => by
      obtain rfl := Option.some.inj hi
      exact List.mem_map.mpr ⟨row', List.mem_append_right _ List.mem_cons_self, rfl⟩
  have hwrite : runSql a.session e (ladder.view db (openWrites row [] ++ [.setApproval row'])) (.writeCard (r.card e.uuid)) =
      .ok (card.id, [.insert .auditCard card]) := by
    have hid : row'.id = row.id := rfl
    rw [view_closed hid h.fresh]
    exact (runSql_writeCard rfl).mpr ⟨card, hcard, rfl, rfl⟩
  obtain ⟨k, hprog, hreturned⟩ : ∃ k, answer (r.afterInsert e.uuid) = .call .dispatch k ∧
      k (.ok v) = answer (r.afterDispatch [] e.uuid v) := ⟨_, rfl, by rw [← hs.bills]; rfl⟩
  have hexec (seen : Db) : ladder.exec a e false seen .dispatch = { reply := .ok v } := by
    change ({ reply := e.outcome } : Answer Write (Reply .dispatch)) = _
    rw [hs.returns]
  have hrecord : answer (r.afterDispatch [] e.uuid v) = answer (do
      Ladder.sql (.updateApproval e.uuid r.repriceCostUsd text)
      r.afterUpdate e.uuid v) := by
    change answer (recordExecuted r e.uuid v) = _
    rw [recordExecuted_encoded hdumps]
  refine ⟨card, (execute_alone h).trans ?_⟩
  rw [hprog, Engine.drive_call]
  dsimp only
  rw [hexec, hreturned, hrecord]
  refine (drive_sql { writes := openWrites row [], effects := 1, issued := 6 } rfl hupdate).trans ?_
  refine (drive_sql { writes := openWrites row [] ++ [.setApproval row'], effects := 1, issued := 7 } rfl hwrite).trans ?_
  rfl

end Execute

end BaptistApi
