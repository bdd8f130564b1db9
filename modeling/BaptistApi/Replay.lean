import BaptistApi.Agreement

/-!
# Replays

An approval that is there stays as it is, and every later `execute` with its key gives what it says,
whatever happens to the budgets and the ledger in between.
-/

namespace BaptistApi

open BaptistApi.Calendar BaptistApi.Program BaptistApi.Transactions

/-! ## When the costs change -/

/-- A step of a call, or new contents for one of the two tables. -/
inductive Occurrence where
  | call (l : LadderLabel)
  | budgets (rows : List CostBudget)
  | ledger (rows : List CostLedger)

namespace Occurrence

def step (w : LadderWorld) : Occurrence → Option LadderWorld
  | .call l => ladder.step w l
  | .budgets rows => some { w with db := { w.db with costBudget := rows } }
  | .ledger rows => some { w with db := { w.db with costLedger := rows } }

def run (w : LadderWorld) (os : List Occurrence) : Option LadderWorld := os.foldlM step w

@[simp] theorem run_nil (w : LadderWorld) : run w [] = some w := rfl

@[simp] theorem run_cons (w : LadderWorld) (o : Occurrence) (os : List Occurrence) :
    run w (o :: os) = (step w o).bind fun w' => run w' os := rfl

theorem run_invariant {I : LadderWorld → Prop} (hI : ∀ w o w', I w → step w o = some w' → I w')
    {w w' : LadderWorld} {os : List Occurrence} (h : I w) (hrun : run w os = some w') : I w' := by
  induction os generalizing w with
  | nil => exact Option.some.inj hrun ▸ h
  | cons o os ih =>
    rw [run_cons, Option.bind_eq_some_iff] at hrun
    obtain ⟨w₁, hs, hrun⟩ := hrun
    exact ih (hI w o w₁ h hs) hrun

end Occurrence

theorem Occurrence.run_calls (w : LadderWorld) (ls : List LadderLabel) :
    Occurrence.run w (ls.map .call) = ladder.run w ls := by
  induction ls generalizing w with
  | nil => rfl
  | cons l ls ih =>
    rw [List.map_cons, run_cons, Engine.run_cons]
    exact Option.bind_congr fun w' _ => ih w'

/-- The two states differ in the budgets and the ledger only. -/
def SameButCosts (g db : Db) : Prop :=
  ∃ budgets ledger, db = { g with costBudget := budgets, costLedger := ledger }

theorem SameButCosts.refl (db : Db) : SameButCosts db db := ⟨db.costBudget, db.costLedger, rfl⟩

theorem SameButCosts.view {g db : Db} (h : SameButCosts g db) (ws : List Write) :
    SameButCosts (ladder.view g ws) (ladder.view db ws) := by
  induction ws generalizing g db with
  | nil => exact h
  | cons w ws ih =>
    rw [Engine.view_cons, Engine.view_cons]
    apply ih
    obtain ⟨budgets, ledger, rfl⟩ := h
    change SameButCosts (Write.apply _ w) (Write.apply _ w)
    cases w with
    | setApproval row => exact ⟨budgets, ledger, rfl⟩
    | insert t row =>
      cases t with
      | costBudget => exact ⟨budgets ++ [row], ledger, rfl⟩
      | costLedger => exact ⟨budgets, ledger ++ [row], rfl⟩
      | _ => exact ⟨budgets, ledger, rfl⟩

def Sql.readsCosts : Sql → Bool
  | .assertBudget .. => true
  | .selectBudget => true
  | .monthSpend => true
  | _ => false

section Costs

variable {ctx : RequestContext} {now : Timestamp} {g db : Db} {e : Env}

theorem SameButCosts.runSql (h : SameButCosts g db) {q : Sql} (hq : q.readsCosts = false) {v : q.Result}
    {ws : List Write} (hr : runSql (tenantContext ctx now) e db q = .ok (v, ws)) :
    runSql (tenantContext ctx now) e g q = .ok (v, ws) := by
  obtain ⟨budgets, ledger, rfl⟩ := h
  cases q with
  | findApproval tenantId key =>
    unfold BaptistApi.runSql at hr ⊢
    rw [approvals_eq] at hr ⊢
    exact hr
  | loadPreview id tenantId operation =>
    unfold BaptistApi.runSql at hr ⊢
    rw [costPreviews_eq] at hr ⊢
    exact hr
  | assertBudget => simp [Sql.readsCosts] at hq
  | insertApproval n => exact runSql_insertApproval.mpr (runSql_insertApproval.mp hr)
  | insertLedger b =>
    obtain ⟨⟩ := v
    have hrow := runSql_insertLedger.mp hr
    exact runSql_insertLedger.mpr hrow
  | updateApproval id cost result =>
    obtain ⟨⟩ := v
    have hrows := runSql_updateApproval.mp hr
    exact runSql_updateApproval.mpr hrows
  | writeCard c => exact hr
  | selectBudget => simp [Sql.readsCosts] at hq
  | monthSpend => simp [Sql.readsCosts] at hq
  | insertPreview n =>
    obtain ⟨id, expiresAt⟩ := v
    exact runSql_insertPreview.mpr (runSql_insertPreview.mp hr)

end Costs

/-- The slot is in order, but for what it knows of the budgets and the ledger. -/
def Stands (db : Db) (n : ℕ) (s : LadderSlot) : Prop := ∃ g, SameButCosts g db ∧ SlotOk (fun _ _ => True) g n s

section Stands

variable {g db : Db} {n : ℕ} {tx : LadderTx} {e : Env}

theorem SameButCosts.acted {a : Call} (h : SameButCosts g db) (ha : Acted a g n) : Acted a db n := by
  obtain ⟨budgets, ledger, rfl⟩ := h
  exact ha.imp_right fun ⟨hn, r, hr⟩ => ⟨hn, r, hr.action, hr.preview⟩

theorem SameButCosts.takes {c : Cmd} {ws : List Write} {rows : Db} (h : SameButCosts g db)
    (ht : Takes e g c ws rows) : Takes e db c ws rows := by
  obtain ⟨budgets, ledger, rfl⟩ := h
  exact ⟨ht.approvals, ht.previews⟩

/-- Before the gate a call knows nothing of the costs. -/
theorem SameButCosts.standing {a : Call} {issued : List Cmd} {p : Ladder Value} {ws : List Write} {q : Sql}
    {k : Reply (.sql q) → Ladder Value} (h : SameButCosts g db) (hq : q.readsCosts = true)
    (hst : Standing (fun _ _ => True) a g n issued p ws) (hp : p = .call (.sql q) k) :
    Standing (fun _ _ => True) a db n issued p ws := by
  have other {q' : Sql} {k' : Reply (.sql q') → Ladder Value} (hq' : q'.readsCosts = false)
      (heq : (.call (.sql q') k' : Ladder Value) = .call (.sql q) k) : False := by
    cases heq
    rw [hq'] at hq
    simp at hq
  cases hst with
  | begun => exact .begun
  | spending b ha => exact .spending b ha
  | gated ha hgates => exact .gated ha hgates
  | looked ha => exact .looked ha
  | loaded => cases hp
  | priced hpriced =>
    obtain ⟨budgets, ledger, rfl⟩ := h
    exact .priced ⟨hpriced.action, hpriced.preview⟩
  | funded => exact (other rfl hp).elim
  | opened => cases hp
  | @dispatched _ _ _ _ _ rest =>
    cases rest with
    | nil =>
      obtain ⟨_, -, hk⟩ := dispatched_prog hp
      exact (other rfl hk.symm).elim
    | cons => exact (other rfl hp).elim
  | closed => exact (other rfl hp).elim
  | ended => cases hp

theorem exec_stands {c : Cmd} {k : Reply c → Ladder Value} (h : Stands db n (.running tx))
    (hp : tx.prog = .call c k) :
    Stands db (n + (ladder.external c).toNat)
        (.running (tx.answer c k (exec tx.call e tx.failed (ladder.view db tx.writes) c))) ∧
      Takes e db c tx.writes
        (rowsToCommit (tx.answer c k (exec tx.call e tx.failed (ladder.view db tx.writes) c))) := by
  obtain ⟨g, hg, hslot⟩ := h
  obtain ⟨hf, hst⟩ := standing_of_call hslot hp
  cases c with
  | sql q =>
    cases hq : q.readsCosts with
    | true =>
      have hslot : SlotOk (fun _ _ => True) db n (.running tx) := by
        refine ⟨hg.acted hslot.1, Or.inr ⟨hf, ?_⟩⟩
        rw [hp]
        exact hg.standing hq hst rfl
      obtain ⟨hself, htakes⟩ := @exec_slotOk _ db n tx _ k e hslot hp fun _ _ _ => fun _ _ => trivial
      exact ⟨⟨db, .refl db, hself⟩, htakes⟩
    | false =>
      rcases exec_sql_cases tx.call e (ladder.view db tx.writes) q with ⟨v, ws, hr, he⟩ | ⟨x, he⟩
      · have hrg := (hg.view tx.writes).runSql hq hr
        have heg : exec tx.call e false (ladder.view g tx.writes) (.sql q) = { reply := .ok v, writes := ws } := by
          unfold exec
          simp [Call.session, hrg]
        obtain ⟨hself, htakes⟩ := @exec_slotOk _ g n tx _ k e hslot hp fun _ _ _ => fun _ _ => trivial
        rw [hf, heg] at hself htakes
        rw [hf, he]
        exact ⟨⟨g, hg, hself⟩, hg.takes htakes⟩
      · obtain ⟨x', hx⟩ := hst.refused rfl x
        rw [hf, he]
        exact ⟨⟨g, hg, hslot.1, Or.inl ⟨x', hx⟩⟩, takes_raise hx⟩
  | utcNow =>
    obtain ⟨hself, htakes⟩ := @exec_slotOk _ g n tx _ k e hslot hp fun _ _ _ => fun _ _ => trivial
    exact ⟨⟨g, hg, hself⟩, hg.takes htakes⟩
  | dispatch =>
    obtain ⟨hself, htakes⟩ := @exec_slotOk _ g n tx _ k e hslot hp fun _ _ _ => fun _ _ => trivial
    exact ⟨⟨g, hg, hself⟩, hg.takes htakes⟩

theorem Stands.commits {v : Value} (h : Stands db n (.running tx)) (hp : tx.prog = .ret v) :
    tx.failed = false ∧ ∃ g, SameButCosts g db ∧ Ending tx.call g n tx.issued tx.writes v := by
  obtain ⟨g, hg, hslot⟩ := h
  obtain ⟨hf, hend⟩ := ending_of_ret hslot hp
  exact ⟨hf, g, hg, hend⟩

theorem SameButCosts.commit {v : Value} {issued : List Cmd} {a : Call} {ws : List Write}
    (h : SameButCosts g db) (hend : Ending a g n issued ws v) (hk : Keyed db) :
    Keyed (ladder.view db ws) ∧ Appends db (ladder.view db ws) (held ws) := by
  obtain ⟨budgets, ledger, rfl⟩ := h
  cases hend with
  | quoted ha ht hl hq hu => exact ⟨⟨hk.approvals, hu⟩, appends_quoted _ _⟩
  | replayed => exact ⟨hk, appends_nothing _⟩
  | @executed _ r id v ls row card hopened hl hr =>
    let here : Db := { g with costBudget := budgets, costLedger := ledger }
    have hu : uniqueOk .approval (here.approval ++ [r.newApproval.row id]) := hopened.unique
    refine ⟨?_, appends_executed hr.id_eq hu ls card⟩
    rw [view_executed hr.id_eq hu]
    exact ⟨uniqueOk_sameKeys hr.sameKeys hu, hk.previews⟩

theorem Stands.appends {g g' rows : Db} {t : LadderSlot} (h : Stands g n t) (hg : Appends g g' rows)
    (hk : Keyed g') (hc : Clear rows (rowsOf t)) : Stands g' n t := by
  obtain ⟨past, ⟨budgets, ledger, rfl⟩, hslot⟩ := h
  let next : Db := { g' with costBudget := past.costBudget, costLedger := past.costLedger }
  have happends : Appends past next rows := by
    refine ⟨fun u x hx => ?_, rfl, hg.approvals, hg.previews⟩
    cases u with
    | costBudget => exact hx
    | costLedger => exact hx
    | tenant => exact hg.sub .tenant x hx
    | userProfile => exact hg.sub .userProfile x hx
    | membership => exact hg.sub .membership x hx
    | membershipLocation => exact hg.sub .membershipLocation x hx
    | tenantCredential => exact hg.sub .tenantCredential x hx
    | location => exact hg.sub .location x hx
    | locationAlias => exact hg.sub .locationAlias x hx
    | auditCard => exact hg.sub .auditCard x hx
    | costPreview => exact hg.sub .costPreview x hx
    | approval => exact hg.sub .approval x hx
  exact ⟨next, ⟨g'.costBudget, g'.costLedger, rfl⟩, hslot.appends happends ⟨hk.approvals, hk.previews⟩ hc⟩

end Stands

theorem takes_clear_stands {w : LadderWorld} {i j : ℕ} {e : Env} {c : Cmd} {m : ℕ} {tx : LadderTx} {t : LadderSlot}
    {rows : Db} (hij : j ≠ i) (hw : ∀ u ∈ w.others i, waits e c u.writes = false) (ht : Stands w.db m t)
    (hj : w.slots[j]? = some t) (hclear : Clear (held tx.writes) (rowsOf t))
    (h : Takes e w.db c tx.writes rows) : Clear rows (rowsOf t) := by
  obtain ⟨db, slots, effects⟩ := w
  obtain ⟨g, ⟨budgets, ledger, rfl⟩, hslot⟩ := ht
  let past : LadderWorld := { db := g, slots, effects }
  have htakes : Takes e past.db c tx.writes rows := ⟨h.approvals, h.previews⟩
  exact @takes_clear _ tx past i j e c m t rows hij hw hslot hj hclear htakes

theorem ladder_stands : ladder.Cooperates Keyed Stands Apart fun _ _ => True where
  begins w a _ _ := by
    have hrows : rowsOf (.running { call := a, prog := ladder.prog a }) = {} := rowsToCommit_nothing rfl
    refine ⟨⟨w.db, .refl _, Or.inl rfl, Or.inr ⟨rfl, .begun⟩⟩, fun j t _ => ?_⟩
    unfold Apart
    rw [hrows]
    exact ⟨clear_nothing _, (clear_nothing _).symm⟩
  moves w l i s s' db' acted h _ hi hm := by
    have hslot := h.slot i s hi
    have hpair (j : ℕ) (t : LadderSlot) (hj : j ≠ i) (ht : w.slots[j]? = some t) : Apart s t :=
      h.pair i j s t hj.symm hi ht
    cases hm with
    | @exec e tx c k hp hw =>
      obtain ⟨hself, htakes⟩ := @exec_stands w.db _ tx e c k hslot hp
      obtain ⟨g, -, hg⟩ := hslot
      obtain ⟨hf, -⟩ := standing_of_call hg hp
      have hheld : rowsOf (.running tx) = held tx.writes := rowsToCommit_of_prog fun x hx => by cases hp.symm.trans hx
      refine ⟨h.db, hself, fun j t hj ht => ?_⟩
      have hold := hpair j t hj ht
      unfold Apart at hold
      rw [hheld] at hold
      have hclear := takes_clear_stands hj (hw hf) (h.slot j t ht) ht hold htakes
      exact ⟨h.slot j t ht, hclear, hclear.symm⟩
    | @lose tx c k reply hp hr =>
      obtain ⟨g, hg, hslot⟩ := hslot
      obtain ⟨hself, hrows⟩ := lose_slotOk hslot hp hr
      refine ⟨h.db, ⟨g, hg, hself⟩, fun j t hj ht => ⟨h.slot j t ht, ?_⟩⟩
      change Clear (rowsToCommit _) (rowsOf t) ∧ Clear (rowsOf t) (rowsToCommit _)
      rw [hrows]
      exact ⟨clear_nothing _, (clear_nothing _).symm⟩
    | @commit tx v hp hf =>
      obtain ⟨-, g, hg, hend⟩ := hslot.commits hp
      have hheld : rowsToCommit tx = held tx.writes := rowsToCommit_of_prog fun x hx => by cases hp.symm.trans hx
      obtain ⟨hkeyed, happends⟩ := hg.commit hend h.db
      refine ⟨hkeyed, ⟨_, hg.view tx.writes, hend.committed⟩, fun j t hj ht => ?_⟩
      have hclear : Clear (held tx.writes) (rowsOf t) := hheld ▸ hpair j t hj ht
      exact ⟨(h.slot j t ht).appends happends hkeyed hclear, hclear, hclear.symm⟩
    | @abandon tx v hp hf =>
      obtain ⟨hf', -⟩ := hslot.commits hp
      rw [hf'] at hf
      simp at hf
    | @rollback tx x hp =>
      obtain ⟨g, hg, hslot⟩ := hslot
      exact ⟨h.db, ⟨g, hg, hslot.1⟩, fun j t hj ht => ⟨h.slot j t ht, clear_nothing _, (clear_nothing _).symm⟩⟩

/-- The invariant, when the costs may change at any time. -/
abbrev CallsHold (w : LadderWorld) : Prop := w.Holds Keyed Stands Apart

theorem Occurrence.step_holds {w w' : LadderWorld} {o : Occurrence} (h : CallsHold w)
    (hs : o.step w = some w') : CallsHold w' := by
  have changed {db : Db} (hdb : SameButCosts w.db db) (hk : Keyed db) : CallsHold { w with db := db } := by
    refine ⟨hk, fun i s hi => ?_, h.pair, h.acted⟩
    obtain ⟨budgets, ledger, rfl⟩ := hdb
    obtain ⟨g, ⟨budgets', ledger', hg⟩, hslot⟩ := h.slot i s hi
    exact ⟨g, ⟨budgets, ledger, by rw [hg]⟩, hslot⟩
  cases o with
  | call l => exact ladder_stands.step h trivial hs
  | budgets rows =>
    obtain rfl := Option.some.inj hs
    exact changed ⟨rows, w.db.costLedger, rfl⟩ ⟨h.db.approvals, h.db.previews⟩
  | ledger rows =>
    obtain rfl := Option.some.inj hs
    exact changed ⟨w.db.costBudget, rows, rfl⟩ ⟨h.db.approvals, h.db.previews⟩

/-! ## A call that asks again -/

/-- The call is an execution for the key of the approval, by the tenant. -/
structure Asks (row : Approval) (a : Call) (r : ExecuteRequest) : Prop where
  action : a.action = .execute r
  bound : a.ctx.tenantId = row.tenantId
  tenant : r.tenantId = row.tenantId
  key : r.idempotencyKey = row.idempotencyKey

/-- What the program goes on with when the look-up gave the row. -/
def Approval.replay (row : Approval) (r : ExecuteRequest) : Ladder ApprovalResponse :=
  if row.existing.costPreviewId ≠ some r.previewId then Ladder.problem .duplicateIdempotencyKey
  else pure row.existing.response

/-- The answer to a call that asks again. -/
def Approval.answer (row : Approval) (r : ExecuteRequest) : Except Exc Value :=
  if row.costPreviewId = some r.previewId then .ok (.approval row.existing.response)
  else .error (.problem .duplicateIdempotencyKey)

theorem replay_same {row : Approval} {r : ExecuteRequest} (h : row.costPreviewId = some r.previewId) :
    BaptistApi.answer (row.replay r) = .ret (.approval row.existing.response) := by
  have hfound : row.existing.costPreviewId = some r.previewId := h
  unfold Approval.replay
  rw [if_neg (not_not.mpr hfound)]
  rfl

theorem replay_other {row : Approval} {r : ExecuteRequest} (h : row.costPreviewId ≠ some r.previewId) :
    BaptistApi.answer (row.replay r) = .raise (.problem .duplicateIdempotencyKey) := by
  have hfound : row.existing.costPreviewId ≠ some r.previewId := h
  unfold Approval.replay
  rw [if_pos hfound]
  rfl

section Asks

variable {row : Approval} {a : Call} {r : ExecuteRequest} {db : Db}

theorem Asks.finds (h : Asks row a r) (hk : Keyed db) (hrow : row ∈ db.approval) (e : Env) :
    runSql a.session e db (.findApproval r.tenantId r.idempotencyKey) = .ok ([row], []) := by
  have hnodup : db.approval.Nodup := hk.approvals.imp fun {x y} hxy heq => by
    rw [heq] at hxy
    simp [clash] at hxy
  have hlist : ((Scope.approvals ⟨a.session, db⟩).filter fun x =>
      x.tenantId == r.tenantId && x.idempotencyKey == r.idempotencyKey) = [row] := by
    rw [Call.session, approvals_eq]
    refine ((List.perm_ext_iff_of_nodup ((hnodup.filter _).filter _)
      (List.nodup_singleton row)).mpr fun x => ?_).eq_singleton
    simp only [List.mem_filter, Bool.and_eq_true, beq_iff_eq, List.mem_singleton]
    constructor
    · rintro ⟨⟨hx, -⟩, ht, hkey⟩
      exact hk.eq_of_key hx hrow (Prod.ext (ht.trans h.tenant) (hkey.trans h.key))
    · rintro rfl
      exact ⟨⟨hrow, h.bound.symm⟩, h.tenant.symm, h.key.symm⟩
  exact congrArg (fun rows => Except.ok (rows, [])) hlist

theorem Asks.prog (h : Asks row a r) :
    ∃ k, a.action.prog = .call (.sql (.findApproval r.tenantId r.idempotencyKey)) k ∧
      k (.ok [row]) = BaptistApi.answer (row.replay r) ∧ ∀ x, k (.error x) = .raise (.sql x) := by
  rw [h.action]
  exact ⟨_, rfl, rfl, fun _ => rfl⟩

/-- Nobody else runs, or it does not matter: one look-up gives the answer. -/
theorem Asks.alone (h : Asks row a r) (hk : Keyed db) (hrow : row ∈ db.approval) (env : ℕ → Env) :
    ladder.alone a env db = (row.answer r, { issued := 1 }) := by
  obtain ⟨k, hprog, hfound, -⟩ := h.prog
  have hexec : ladder.exec a (env 0) false db (.sql (.findApproval r.tenantId r.idempotencyKey)) =
      { reply := .ok [row] } := by
    change exec a (env 0) false db _ = _
    unfold exec
    simp [h.finds hk hrow (env 0)]
  unfold Engine.alone
  change ladder.drive a env db a.action.prog {} = _
  rw [hprog, Engine.drive_call]
  change ladder.drive a env db (k (ladder.exec a (env 0) false db _).reply)
    (Progress.after {} false (ladder.exec a (env 0) false db _)) = _
  rw [hexec]
  dsimp only
  rw [hfound]
  unfold Approval.answer
  split
  · rename_i hsame
    rw [replay_same hsame]
    rfl
  · rename_i hother
    rw [replay_other hother]
    rfl

end Asks

/-- Where a call that asks again may stand. It never holds a row, and it ends with the answer unless it
loses its connection before the look-up. -/
inductive Replays (row : Approval) (a : Call) (r : ExecuteRequest) : LadderSlot → Prop where
  | begun : Replays row a r (.running { call := a, prog := a.action.prog })
  | answered {tx : LadderTx} (ha : tx.call = a) (hp : tx.prog = BaptistApi.answer (row.replay r))
    (hw : tx.writes = []) (hf : tx.failed = false) : Replays row a r (.running tx)
  | lost {tx : LadderTx} (ha : tx.call = a) (hp : tx.prog = .raise (.sql .connectionLost)) (hw : tx.writes = []) :
    Replays row a r (.running tx)
  | returned (h : row.costPreviewId = some r.previewId) :
    Replays row a r (.committed a [] (.approval row.existing.response))
  | refused (h : row.costPreviewId ≠ some r.previewId) :
    Replays row a r (.rolledBack a (.error (.problem .duplicateIdempotencyKey)))
  | disconnected : Replays row a r (.rolledBack a (.error (.sql .connectionLost)))

section Replays

variable {row : Approval} {a : Call} {r : ExecuteRequest} {db : Db}

theorem replay_cases (row : Approval) (r : ExecuteRequest) :
    (row.costPreviewId = some r.previewId ∧
        BaptistApi.answer (row.replay r) = .ret (.approval row.existing.response)) ∨
      (row.costPreviewId ≠ some r.previewId ∧
        BaptistApi.answer (row.replay r) = .raise (.problem .duplicateIdempotencyKey)) := by
  by_cases h : row.costPreviewId = some r.previewId
  · exact Or.inl ⟨h, replay_same h⟩
  · exact Or.inr ⟨h, replay_other h⟩

theorem Replays.looks {tx : LadderTx} {c : Cmd} {k : Reply c → Ladder Value} (h : Replays row a r (.running tx))
    (hp : tx.prog = .call c k) : tx = { call := a, prog := a.action.prog } := by
  cases h with
  | begun => rfl
  | answered ha hprog =>
    rcases replay_cases row r with ⟨-, h⟩ | ⟨-, h⟩ <;> rw [hprog, h] at hp <;> cases hp
  | lost ha hprog =>
    rw [hprog] at hp
    cases hp

theorem Replays.ends {tx : LadderTx} (h : Replays row a r (.running tx)) (ha : Asks row a r)
    (hp : ∀ c k, tx.prog ≠ .call c k) :
    tx.call = a ∧ tx.writes = [] ∧ (tx.prog = BaptistApi.answer (row.replay r) ∧ tx.failed = false ∨
      tx.prog = .raise (.sql .connectionLost)) := by
  obtain ⟨k, hprog, -⟩ := ha.prog
  cases h with
  | begun => exact absurd hprog (hp _ k)
  | answered hcall hprog hw hf => exact ⟨hcall, hw, Or.inl ⟨hprog, hf⟩⟩
  | lost hcall hprog hw => exact ⟨hcall, hw, Or.inr hprog⟩

theorem Replays.move {others : List LadderTx} {i : ℕ} {l : LadderLabel} {s s' : LadderSlot} {db' : Db}
    {acted : Bool} (ha : Asks row a r) (hk : Keyed db) (hrow : row ∈ db.approval) (h : Replays row a r s)
    (hm : ladder.Move others db i l s s' db' acted) : Replays row a r s' ∧ acted = false ∧ db' = db := by
  obtain ⟨k, hprog, hfound, herror⟩ := ha.prog
  cases hm with
  | @exec e tx c k' hp hw =>
    obtain rfl := h.looks hp
    rw [hprog] at hp
    cases hp
    have hexec : ladder.exec a e false db (.sql (.findApproval r.tenantId r.idempotencyKey)) =
        { reply := .ok [row] } := by
      change exec a e false db _ = _
      unfold exec
      simp [ha.finds hk hrow e]
    change Replays row a r (.running (Tx.answer _ _ k (ladder.exec a e false db _))) ∧ _
    rw [hexec]
    exact ⟨.answered rfl hfound rfl rfl, rfl, rfl⟩
  | @lose tx c k' reply hp hr =>
    obtain rfl := h.looks hp
    rw [hprog] at hp
    cases hp
    cases hr
    exact ⟨.lost rfl (herror _) rfl, rfl, rfl⟩
  | @commit tx v hp hf =>
    obtain ⟨hcall, hw, ⟨hanswer, -⟩ | hlost⟩ := h.ends ha fun c k heq => by cases hp.symm.trans heq
    · obtain ⟨hsame, hreplay⟩ | ⟨-, hreplay⟩ := replay_cases row r
      · cases hp.symm.trans (hanswer.trans hreplay)
        rw [hcall, hw]
        exact ⟨.returned hsame, rfl, rfl⟩
      · cases hp.symm.trans (hanswer.trans hreplay)
    · cases hp.symm.trans hlost
  | @abandon tx v hp hf =>
    obtain ⟨-, -, ⟨-, hok⟩ | hlost⟩ := h.ends ha fun c k heq => by cases hp.symm.trans heq
    · rw [hok] at hf
      simp at hf
    · cases hp.symm.trans hlost
  | @rollback tx x hp =>
    obtain ⟨hcall, -, ⟨hanswer, -⟩ | hlost⟩ := h.ends ha fun c k heq => by cases hp.symm.trans heq
    · obtain ⟨-, hreplay⟩ | ⟨hother, hreplay⟩ := replay_cases row r
      · cases hp.symm.trans (hanswer.trans hreplay)
      · cases hp.symm.trans (hanswer.trans hreplay)
        rw [hcall]
        exact ⟨.refused hother, rfl, rfl⟩
    · cases hp.symm.trans hlost
      rw [hcall]
      exact ⟨.disconnected, rfl, rfl⟩

end Replays

/-! ## Replay stability -/

/-- The approval is there, and every call for its key that is not among the first `n` replays it. -/
structure ReplayStable (row : Approval) (n : ℕ) (w : LadderWorld) : Prop where
  stays : row ∈ w.db.approval
  /-- A call that runs by itself. -/
  alone : ∀ a r, Asks row a r → ∀ env, (ladder.alone a env w.db).1 = row.answer r ∧
    (ladder.alone a env w.db).2.effects = 0 ∧ ladder.settle w.db (ladder.alone a env w.db) = w.db
  /-- A call beside others. -/
  beside : ∀ (i : ℕ) s r, n ≤ i → w.slots[i]? = some s → Asks row s.call r →
    Replays row s.call r s ∧ w.acts i = 0

/-- Each of the calls after the first `n` that asks again replays the approval. -/
structure Replaying (row : Approval) (n : ℕ) (w : LadderWorld) : Prop where
  there : row ∈ w.db.approval
  slots : ∀ (i : ℕ) s r, n ≤ i → w.slots[i]? = some s → Asks row s.call r → Replays row s.call r s ∧ w.acts i = 0

theorem Replaying.step {row : Approval} {n : ℕ} {w w' : LadderWorld} {l : LadderLabel} (hw : CallsHold w)
    (h : Replaying row n w) (hs : ladder.step w l = some w') : Replaying row n w' := by
  have hrow : row ∈ w'.db.approval := by
    obtain ⟨hdb, -⟩ | ⟨i, tx, v, hi, hp, -, rfl⟩ := ladder.step_commits hs
    · rw [hdb]
      exact h.there
    · obtain ⟨-, g, hg, hend⟩ := (hw.slot i _ hi).commits hp
      exact (hg.commit hend hw.db).2.sub .approval row h.there
  refine ⟨hrow, ?_⟩
  cases ladder.step_cases hs with
  | begin a =>
    intro j t r hj hjt ha
    rcases slot_of_push hjt with hjt | ⟨rfl, rfl⟩
    · exact h.slots j t r hj hjt ha
    · exact ⟨.begun, hw.acts_length⟩
  | @move i _ s s' db' acted hi hm =>
    intro j t r hj hjt ha
    rw [World.acts_moved]
    rcases slot_of_set hjt with ⟨rfl, rfl⟩ | ⟨hji, hjt⟩
    · rw [hm.call_eq] at ha ⊢
      obtain ⟨hreplays, hacts⟩ := h.slots j s r hj hi ha
      obtain ⟨hnext, rfl, -⟩ := hreplays.move ha hw.db h.there hm
      exact ⟨hnext, by simp [hacts]⟩
    · obtain ⟨hreplays, hacts⟩ := h.slots j t r hj hjt ha
      exact ⟨hreplays, by simp [hacts, hji]⟩

theorem Occurrence.step_replaying {row : Approval} {n : ℕ} {w w' : LadderWorld} {o : Occurrence}
    (hw : CallsHold w) (h : Replaying row n w) (hs : o.step w = some w') : Replaying row n w' := by
  cases o with
  | call l => exact h.step hw hs
  | budgets rows =>
    obtain rfl := Option.some.inj hs
    exact ⟨h.there, h.slots⟩
  | ledger rows =>
    obtain rfl := Option.some.inj hs
    exact ⟨h.there, h.slots⟩

theorem Occurrence.holds {db : Db} (hk : Keyed db) {os : List Occurrence} {w : LadderWorld}
    (hrun : Occurrence.run { db } os = some w) : CallsHold w :=
  Occurrence.run_invariant (fun _ _ _ => Occurrence.step_holds) (World.holds_start hk) hrun

theorem replaying_later {w w' : LadderWorld} (hw : CallsHold w) {row : Approval} (hrow : row ∈ w.db.approval)
    {os : List Occurrence} (hlater : Occurrence.run w os = some w') :
    CallsHold w' ∧ Replaying row w.slots.length w' := by
  have hstart : Replaying row w.slots.length w := by
    refine ⟨hrow, fun i s r hi hs _ => ?_⟩
    have hlt : i < w.slots.length := (List.getElem?_eq_some_iff.mp hs).1
    omega
  have hstep (w₁ : LadderWorld) (o : Occurrence) (w₂ : LadderWorld)
      (h : CallsHold w₁ ∧ Replaying row w.slots.length w₁) (hs : o.step w₁ = some w₂) :
      CallsHold w₂ ∧ Replaying row w.slots.length w₂ :=
    ⟨Occurrence.step_holds h.1 hs, Occurrence.step_replaying h.1 h.2 hs⟩
  exact Occurrence.run_invariant hstep ⟨hw, hstart⟩ hlater

/-- **Replay stability.** Once an approval is committed, every call for its key that begins later gives
the same answer, calls no `dispatch` and changes no row. -/
theorem replay_stability {db : Db} (hk : Keyed db) {os os' : List Occurrence} {w w' : LadderWorld}
    (hrun : Occurrence.run { db } os = some w) {row : Approval} (hrow : row ∈ w.db.approval)
    (hlater : Occurrence.run w os' = some w') : ReplayStable row w.slots.length w' := by
  obtain ⟨hw', hrow', hslots⟩ := replaying_later (Occurrence.holds hk hrun) hrow hlater
  refine ⟨hrow', fun a r ha env => ?_, hslots⟩
  rw [ha.alone hw'.db hrow' env]
  refine ⟨rfl, rfl, ?_⟩
  unfold Approval.answer
  split <;> rfl

theorem race_occurs : (Occurrence.run { db := shop } (race.map .call)).isSome = true := by decide +kernel

/-- The clinic after the race for one key. -/
def raced : LadderWorld := (Occurrence.run { db := shop } (race.map .call)).get race_occurs

theorem raced_approval : raced.db.approval ≠ [] := by decide +kernel

/-- The budget of the clinic is gone, and somebody asks again. -/
def askAgain : List Occurrence :=
  [.budgets [], .call (.begin (purchase "a" [])), .call (.exec 3 (queued 33 4)), .call (.finish 3)]

theorem askAgain_runs : (Occurrence.run raced askAgain).isSome = true := by decide +kernel

theorem replay_stability_raced : ReplayStable (raced.db.approval.head raced_approval) raced.slots.length
    ((Occurrence.run raced askAgain).get askAgain_runs) :=
  replay_stability ⟨by decide +kernel, by decide +kernel⟩ (Option.some_get race_occurs).symm
    (List.head_mem raced_approval) (Option.some_get askAgain_runs).symm

end BaptistApi
