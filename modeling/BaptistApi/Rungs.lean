import BaptistApi.Agreement
import BaptistApi.Endings
import BaptistApi.Lib.Dialogue

/-!
# No rung is left out

Before a call dispatches, its transaction has found the key unused, loaded the preview, read the clock before
the preview expired, compared the price, passed the gate of the budget, and inserted the approval. In this
order, with nothing in between, and whatever other calls run beside it.
-/

namespace BaptistApi

open BaptistApi.Calendar BaptistApi.Program BaptistApi.RowSecurity BaptistApi.Transactions

/-! ## The rungs of the program -/

section Programs

variable {es : List (Exchange Reply)}

theorem Ladder.reaches_sql {q : Sql} {v : q.Result} (h : (Ladder.sql q).Reaches es (.ret v)) :
    es = [⟨.sql q, .ok v⟩] := by
  cases h with
  | call _ _ reply h =>
    cases reply with
    | ok u =>
      obtain ⟨rfl, hv⟩ := Prog.reaches_ret.mp h
      cases hv
      rfl
    | error e => cases (Prog.reaches_raise.mp h).2

theorem Ladder.reaches_one {α : Type} {rows : List α} {o : Option α} (h : (Ladder.one rows).Reaches es (.ret o)) :
    es = [] ∧ oneOrNone rows = .ok o := by
  unfold Ladder.one at h
  split at h
  · rename_i o' ho
    obtain ⟨rfl, hv⟩ := Prog.reaches_ret.mp h
    cases hv
    exact ⟨rfl, ho⟩
  · cases (Prog.reaches_raise.mp h).2

theorem findExistingApproval_reaches {tenantId : Uuid} {key : String}
    (h : (findExistingApproval tenantId key).Reaches es (.ret none)) :
    es = [⟨.sql (.findApproval tenantId key), .ok []⟩] := by
  unfold findExistingApproval at h
  obtain ⟨rows, es₁, es₂, rfl, hsql, h⟩ := h.bind_ret
  obtain ⟨o, es₃, es₄, rfl, hone, h⟩ := h.bind_ret
  obtain ⟨rfl, ho⟩ := Ladder.reaches_one hone
  obtain rfl := Ladder.reaches_sql hsql
  cases o with
  | none =>
    obtain ⟨rfl, -⟩ := Prog.reaches_ret.mp h
    rw [oneOrNone_eq_none.mp ho]
    rfl
  | some row => cases (Prog.reaches_ret.mp h).2

theorem loadPreview_reaches {tenantId previewId : Uuid} {operation : String} {o : Option LoadedPreview}
    (h : (loadPreview tenantId operation previewId).Reaches es (.ret o)) (ho : o ≠ none) :
    ∃ p : CostPreview, es = [⟨.sql (.loadPreview previewId tenantId operation), .ok [p]⟩] ∧
      o = some { estimatedCostUsd := p.estimatedCostUsd.value, expiresAt := p.expiresAt } := by
  unfold loadPreview at h
  obtain ⟨rows, es₁, es₂, rfl, hsql, h⟩ := h.bind_ret
  obtain ⟨o', es₃, es₄, rfl, hone, h⟩ := h.bind_ret
  obtain ⟨rfl, hrows⟩ := Ladder.reaches_one hone
  obtain rfl := Ladder.reaches_sql hsql
  cases o' with
  | none =>
    cases (Prog.reaches_ret.mp h).2
    exact absurd rfl ho
  | some p =>
    obtain ⟨rfl, hv⟩ := Prog.reaches_ret.mp h
    cases hv
    rw [oneOrNone_eq_some.mp hrows]
    exact ⟨p, rfl, rfl⟩

theorem checkPreview_reaches {r : ExecuteRequest} {u : Unit} (h : (checkPreview r).Reaches es (.ret u)) :
    ∃ (p : CostPreview) (now : Timestamp),
      es = [⟨.sql (.loadPreview r.previewId r.tenantId r.operation), .ok [p]⟩, ⟨.utcNow, now⟩] ∧
      now ≤ p.expiresAt ∧ drift r.repriceCostUsd p.estimatedCostUsd.value ≤ driftTolerance := by
  unfold checkPreview at h
  obtain ⟨o, es₁, es₂, rfl, hload, hfound⟩ := h.bind_ret
  cases o with
  | none => cases (Prog.reaches_raise.mp hfound).2
  | some preview =>
    obtain ⟨p, rfl, hpreview⟩ := loadPreview_reaches hload (Option.some_ne_none _)
    cases hpreview
    obtain ⟨now, es₃, es₄, rfl, hclock, hchecks⟩ := hfound.bind_ret
    have hnow : es₃ = [⟨.utcNow, now⟩] := by
      cases hclock with
      | call _ _ reply hclock =>
        obtain ⟨rfl, hv⟩ := Prog.reaches_ret.mp hclock
        cases hv
        rfl
    subst hnow
    split at hchecks
    · cases (Prog.reaches_raise.mp hchecks).2
    · rename_i hfresh
      split at hchecks
      · cases (Prog.reaches_raise.mp hchecks).2
      · rename_i hprice
        obtain ⟨rfl, -⟩ := Prog.reaches_ret.mp hchecks
        exact ⟨p, now, rfl, not_lt.mp hfresh, not_lt.mp hprice⟩

theorem checkBudget_reaches {r : ExecuteRequest} {u : Unit} (h : (checkBudget r).Reaches es (.ret u)) :
    es = [⟨.sql (.assertBudget r.repriceCostUsd r.providerBalanceUsd), .ok ()⟩] := by
  cases h with
  | call _ _ reply h =>
    cases reply with
    | ok v =>
      obtain ⟨rfl, -⟩ := Prog.reaches_ret.mp h
      rfl
    | error e => cases (Prog.reaches_raise.mp h).2

theorem insertExecuting_reaches {r : ExecuteRequest} {id : Uuid} (h : (insertExecuting r).Reaches es (.ret id)) :
    es = [⟨.sql (.insertApproval r.newApproval), .ok id⟩] := by
  cases h with
  | call _ _ reply h =>
    cases reply with
    | ok v =>
      obtain ⟨rfl, hv⟩ := Prog.reaches_ret.mp h
      cases hv
      rfl
    | error e => cases e <;> cases (Prog.reaches_raise.mp h).2

theorem awaitDispatch_reaches {r : ExecuteRequest} {k : Reply .dispatch → Ladder PyVal}
    (h : (awaitDispatch r).Reaches es (.call .dispatch k)) : es = [] := by
  unfold awaitDispatch at h
  cases h with
  | here => rfl
  | call _ _ reply h =>
    -- The ledger rows come after it, and nothing dispatches twice.
    refine (h.elim ?_).elim
    cases reply with
    | error message => trivial
    | ok result => exact (insertBills_issues (fun _ => by simp) _).bind fun _ => trivial

theorem recordExecuted_issues {P : Cmd → Prop} {r : ExecuteRequest} {approvalId : Uuid} (hupdate : ∀ cost json,
    P (.sql (.updateApproval approvalId cost json))) (hcard : P (.sql (.writeCard (r.card approvalId)))) (result : PyVal) :
    (recordExecuted r approvalId result).Issues P := by
  unfold recordExecuted
  refine Ladder.issues_dumps.bind fun text => (Ladder.issues_sql (hupdate _ _)).bind fun _ => ?_
  exact (Ladder.issues_sql hcard).bind fun _ => trivial

theorem execute_reaches {r : ExecuteRequest} {k : Reply .dispatch → Ladder ApprovalResponse}
    (h : (execute r).Reaches es (.call .dispatch k)) :
    ∃ (p : CostPreview) (now : Timestamp) (id : Uuid),
      es = [⟨.sql (.findApproval r.tenantId r.idempotencyKey), .ok []⟩,
        ⟨.sql (.loadPreview r.previewId r.tenantId r.operation), .ok [p]⟩, ⟨.utcNow, now⟩,
        ⟨.sql (.assertBudget r.repriceCostUsd r.providerBalanceUsd), .ok ()⟩,
        ⟨.sql (.insertApproval r.newApproval), .ok id⟩] ∧
      now ≤ p.expiresAt ∧ drift r.repriceCostUsd p.estimatedCostUsd.value ≤ driftTolerance := by
  unfold execute at h
  obtain ⟨o, es₁, es₂, rfl, hlookup, hrest⟩ := h.past (findExistingApproval_issues (by simp))
  cases o with
  | some existing =>
    refine (hrest.elim ?_).elim
    dsimp only
    split <;> trivial
  | none =>
    obtain ⟨_, es₃, es₄, rfl, hpreview, hrest⟩ := hrest.past (checkPreview_issues (by simp) (by simp))
    obtain ⟨_, es₅, es₆, rfl, hbudget, hrest⟩ :=
      hrest.past ⟨by simp, fun reply => by cases reply <;> trivial⟩
    obtain ⟨id, es₇, es₈, rfl, hinsert, hrest⟩ := hrest.past ⟨by simp, fun reply => by
      cases reply with
      | ok id => trivial
      | error e => cases e <;> trivial⟩
    obtain ⟨k', hdispatch⟩ := hrest.within (recordExecuted_issues (by simp) (by simp))
    obtain ⟨p, now, rfl, hfresh, hprice⟩ := checkPreview_reaches hpreview
    obtain rfl := findExistingApproval_reaches hlookup
    obtain rfl := checkBudget_reaches hbudget
    obtain rfl := insertExecuting_reaches hinsert
    obtain rfl := awaitDispatch_reaches hdispatch
    exact ⟨p, now, id, rfl, hfresh, hprice⟩

theorem createPreview_issues {P : Cmd → Prop} {r : PreviewRequest} (hbudget : P (.sql .selectBudget))
    (hspend : P (.sql .monthSpend)) (hinsert : ∀ n, P (.sql (.insertPreview n))) : (createPreview r).Issues P := by
  unfold createPreview
  refine (evaluateGates_issues hbudget hspend _ _).bind fun gates => Ladder.issues_dumps.bind fun params => ?_
  exact Ladder.issues_dumps.bind fun units => (Ladder.issues_sql (hinsert _)).bind fun _ => trivial

theorem createPreview_reaches {r : PreviewRequest} {resp : PreviewResponse} (h : (createPreview r).Reaches es (.ret resp)) :
    ∃ es' n id, es = es' ++ [⟨.sql (.insertPreview n), .ok (id, resp.expiresAt)⟩] := by
  unfold createPreview at h
  obtain ⟨gates, es₁, es₂, rfl, -, h₂⟩ := h.bind_ret
  obtain ⟨params, es₃, es₄, rfl, -, h₄⟩ := h₂.bind_ret
  obtain ⟨units, es₅, es₆, rfl, -, h₆⟩ := h₄.bind_ret
  obtain ⟨v, es₇, es₈, rfl, hinsert, h₈⟩ := h₆.bind_ret
  obtain ⟨rfl, hresp⟩ := Prog.reaches_ret.mp h₈
  cases hresp
  obtain rfl := Ladder.reaches_sql hinsert
  exact ⟨es₁ ++ (es₃ ++ es₅), _, v.1, by rw [List.append_nil, List.append_assoc, List.append_assoc]; rfl⟩

theorem action_reaches {action : Action} {k : Reply .dispatch → Ladder Value}
    (h : action.prog.Reaches es (.call .dispatch k)) :
    ∃ r k', action = .execute r ∧ (execute r).Reaches es (.call .dispatch k') := by
  cases action with
  | createPreview r =>
    obtain ⟨k', hquote⟩ := Prog.Reaches.within h fun _ => trivial
    exact (hquote.elim (createPreview_issues (by simp) (by simp) (by simp))).elim
  | execute r =>
    obtain ⟨k', hexecute⟩ := Prog.Reaches.within h fun _ => trivial
    exact ⟨r, k', rfl, hexecute⟩

end Programs

/-! ## What the rungs say of the database -/

theorem Honest.ok {a : Call} {x : Said Db Reply} (h : ladder.Honest a x) {q : Sql} {v : q.Result}
    (hx : x.exchange = ⟨.sql q, .ok v⟩) : ∃ e ws, runSql a.session e x.seen q = .ok (v, ws) := by
  obtain ⟨slot, command, reply, seen⟩ := x
  cases hx
  rcases h with hlost | ⟨e, failed, hreply⟩
  · cases hlost
  · change Except.ok v = (exec a e failed seen (.sql q)).reply at hreply
    unfold exec at hreply
    cases failed with
    | true => cases hreply
    | false =>
      cases hq : runSql a.session e seen q with
      | error err => simp [hq] at hreply
      | ok u =>
        obtain ⟨v', ws⟩ := u
        simp only [hq, Bool.false_eq_true, if_false, Except.ok.injEq] at hreply
        subst hreply
        exact ⟨e, ws, hq⟩

/-- What an execution met on its way to `dispatch`: the states that its statements saw, the preview, the clock,
and the id of the approval. -/
structure Rungs where
  looked : Db
  loaded : Db
  clocked : Db
  gated : Db
  inserted : Db
  preview : CostPreview
  now : Timestamp
  id : Uuid

namespace Rungs

def said (g : Rungs) (i : ℕ) (r : ExecuteRequest) : List (Said Db Reply) :=
  [⟨i, .sql (.findApproval r.tenantId r.idempotencyKey), .ok [], g.looked⟩,
    ⟨i, .sql (.loadPreview r.previewId r.tenantId r.operation), .ok [g.preview], g.loaded⟩,
    ⟨i, .utcNow, g.now, g.clocked⟩,
    ⟨i, .sql (.assertBudget r.repriceCostUsd r.providerBalanceUsd), .ok (), g.gated⟩,
    ⟨i, .sql (.insertApproval r.newApproval), .ok g.id, g.inserted⟩]

/-- What was true on each rung. -/
structure Hold (g : Rungs) (a : Call) (r : ExecuteRequest) : Prop where
  tenant : r.tenantId = a.ctx.tenantId
  unused : ∀ x ∈ g.looked.approval, x.tenantId = r.tenantId → x.idempotencyKey ≠ r.idempotencyKey
  preview : g.preview ∈ g.loaded.costPreview ∧ g.preview.id = r.previewId ∧ g.preview.tenantId = r.tenantId ∧
    g.preview.operation = r.operation
  fresh : g.now ≤ g.preview.expiresAt
  price : drift r.repriceCostUsd g.preview.estimatedCostUsd.value ≤ driftTolerance
  funded : assertBudget ⟨a.session, g.gated⟩ r.repriceCostUsd r.providerBalanceUsd = .ok ()
  unique : uniqueOk .approval (g.inserted.approval ++ [r.newApproval.row g.id])
  refs : rowOk g.inserted .approval (r.newApproval.row g.id)

end Rungs

theorem said_of_exchange {x : Said Db Reply} {i : ℕ} {c : Cmd} {reply : Reply c} (hi : x.slot = i)
    (h : x.exchange = ⟨c, reply⟩) : x = ⟨i, c, reply, x.seen⟩ := by
  obtain ⟨slot, command, reply', seen⟩ := x
  subst hi
  cases h
  rfl

theorem findApproval_nothing {a : Call} {e : Env} {db : Db} {tenantId : Uuid} {key : String} {ws : List Write}
    (h : runSql a.session e db (.findApproval tenantId key) = .ok ([], ws)) (ht : tenantId = a.ctx.tenantId) :
    ∀ x ∈ db.approval, x.tenantId = tenantId → x.idempotencyKey ≠ key := by
  intro x hx htenant hkey
  have hnone : (Scope.approvals ⟨a.session, db⟩).filter (fun r => r.tenantId == tenantId && r.idempotencyKey == key) = [] :=
    (Prod.mk.inj (Except.ok.inj h)).1
  have hmem : x ∈ Scope.approvals ⟨a.session, db⟩ := mem_approvals.mpr ⟨hx, htenant.trans ht⟩
  have hno := List.filter_eq_nil_iff.mp hnone x hmem
  simp [htenant, hkey] at hno

theorem rungs_of_dialogue {a : Call} {r : ExecuteRequest} {k : Reply .dispatch → Ladder ApprovalResponse}
    {said : List (Said Db Reply)} {i : ℕ} (hsaid : ∀ x ∈ said, x.slot = i ∧ ladder.Honest a x)
    (h : (execute r).Reaches (said.map Said.exchange) (.call .dispatch k)) :
    ∃ g : Rungs, said = g.said i r ∧ g.Hold a r := by
  obtain ⟨p, now, id, hexchanges, hfresh, hprice⟩ := execute_reaches h
  obtain ⟨x₁, _, rfl, h₁, hexchanges⟩ := List.map_eq_cons_iff.mp hexchanges
  obtain ⟨x₂, _, rfl, h₂, hexchanges⟩ := List.map_eq_cons_iff.mp hexchanges
  obtain ⟨x₃, _, rfl, h₃, hexchanges⟩ := List.map_eq_cons_iff.mp hexchanges
  obtain ⟨x₄, _, rfl, h₄, hexchanges⟩ := List.map_eq_cons_iff.mp hexchanges
  obtain ⟨x₅, _, rfl, h₅, hexchanges⟩ := List.map_eq_cons_iff.mp hexchanges
  obtain rfl := List.map_eq_nil_iff.mp hexchanges
  simp only [List.forall_mem_cons, List.not_mem_nil, false_imp_iff, implies_true, and_true] at hsaid
  obtain ⟨⟨i₁, t₁⟩, ⟨i₂, t₂⟩, ⟨i₃, -⟩, ⟨i₄, t₄⟩, ⟨i₅, t₅⟩⟩ := hsaid
  obtain ⟨e₁, ws₁, hlooked⟩ := Honest.ok t₁ h₁
  obtain ⟨e₂, ws₂, hloaded⟩ := Honest.ok t₂ h₂
  obtain ⟨e₄, ws₄, hgated⟩ := Honest.ok t₄ h₄
  obtain ⟨e₅, ws₅, hinserted⟩ := Honest.ok t₅ h₅
  obtain ⟨ht, rfl, -, hunique, hrefs⟩ := runSql_insertApproval.mp hinserted
  obtain ⟨hmem, hid, -, htenant, hop⟩ := (runSql_loadPreview hloaded).2 p List.mem_cons_self
  refine ⟨⟨x₁.seen, x₂.seen, x₃.seen, x₄.seen, x₅.seen, p, now, e₅.uuid⟩, ?_, ?_⟩
  · rw [Rungs.said, ← said_of_exchange i₁ h₁, ← said_of_exchange i₂ h₂, ← said_of_exchange i₃ h₃,
      ← said_of_exchange i₄ h₄, ← said_of_exchange i₅ h₅]
  · exact
      { tenant := ht
        unused := findApproval_nothing hlooked ht
        preview := ⟨hmem, hid, htenant, hop⟩
        fresh := hfresh
        price := hprice
        funded := (runSql_assertBudget hgated).2
        unique := hunique
        refs := hrefs }

/-! ## Where previews come from -/

/-- A call that has committed the preview, good for 15 minutes. -/
structure QuotedBy (w : LadderWorld) (b : Call) (p : CostPreview) : Prop where
  committed : ∃ (j : ℕ) (ws : List Write) (resp : PreviewResponse),
    w.slots[j]? = some (.committed b ws (.preview resp)) ∧ resp.previewId = p.id ∧ resp.expiresAt = p.expiresAt
  tenant : b.ctx.tenantId = p.tenantId

theorem QuotedBy.mono {w w' : LadderWorld} {b : Call} {p : CostPreview} (h : QuotedBy w b p)
    (hslots : ∀ (j : ℕ) (ws : List Write) (v : Value),
      w.slots[j]? = some (.committed b ws v) → w'.slots[j]? = some (.committed b ws v)) :
    QuotedBy w' b p := by
  obtain ⟨⟨j, ws, resp, hj, hresp⟩, ht⟩ := h
  exact ⟨⟨j, ws, resp, hslots j ws _ hj, hresp⟩, ht⟩

/-- Previews that were not there from the start have been committed, and those that were loaded are there. -/
structure PreviewsKnown (db : Db) (w : LadderWorld) (h : List (Said Db Reply)) : Prop where
  holds : LadderHolds w
  origin : ∀ p ∈ w.db.costPreview, p ∈ db.costPreview ∨ ∃ b, QuotedBy w b p
  loaded : ∀ x ∈ h, ∀ id tenantId operation rows,
    x.exchange = ⟨.sql (.loadPreview id tenantId operation), .ok rows⟩ → ∀ p ∈ rows, p ∈ w.db.costPreview

theorem Standing.loading {good : ExecuteRequest → PyVal → Prop} {a : Call} {db : Db} {n : ℕ} {issued : List Cmd} {p : Ladder Value}
    {ws : List Write} {id tenantId : Uuid} {operation : String}
    {k : Reply (.sql (.loadPreview id tenantId operation)) → Ladder Value}
    (h : Standing good a db n issued p ws) (hp : p = .call (.sql (.loadPreview id tenantId operation)) k) : ws = [] := by
  cases h with
  | opened => cases hp
  | @dispatched _ _ _ _ _ rest =>
    cases rest with
    | nil => obtain ⟨_, -, hk⟩ := dispatched_prog hp; cases hk
    | cons => cases hp
  | closed => cases hp
  | ended => cases hp
  | _ => rfl

section Steps

variable {db : Db} {w w' : LadderWorld} {h : List (Said Db Reply)} {l : LadderLabel}

theorem say_loaded (hw : LadderHolds w) {x : Said Db Reply} (hx : ladder.say w l = some x) {id tenantId : Uuid}
    {operation : String} {rows : List CostPreview}
    (hexchange : x.exchange = ⟨.sql (.loadPreview id tenantId operation), .ok rows⟩) :
    ∀ p ∈ rows, p ∈ w.db.costPreview := by
  obtain ⟨slot, command, reply, seen⟩ := x
  cases hexchange
  cases l with
  | begin a => cases hx
  | finish i => cases hx
  | exec i e =>
    simp only [Engine.say] at hx
    split at hx
    · rename_i tx hi
      split at hx
      · rename_i c k hp
        simp only [Option.some.injEq, Said.mk.injEq] at hx
        obtain ⟨rfl, rfl, hreply, rfl⟩ := hx
        obtain ⟨hf, hstanding⟩ := standing_of_call (hw.slot i _ hi) hp
        have hnothing := hstanding.loading rfl
        have hhonest : ladder.Honest tx.call ⟨i, .sql (.loadPreview id tenantId operation), .ok rows,
            ladder.view w.db tx.writes⟩ := Or.inr ⟨e, tx.failed, (eq_of_heq hreply).symm⟩
        obtain ⟨_, _, hrun⟩ := Honest.ok hhonest rfl
        rw [hnothing] at hrun
        exact fun p hp => ((runSql_loadPreview hrun).2 p hp).1
      · cases hx
    · cases hx
  | lose i =>
    simp only [Engine.say] at hx
    split at hx
    · split at hx
      · simp only [Option.map_eq_some_iff, Said.mk.injEq] at hx
        obtain ⟨r, hr, rfl, rfl, hreply, -⟩ := hx
        cases hr
        cases eq_of_heq hreply
      · cases hx
    · cases hx

theorem PreviewsKnown.step (hw : PreviewsKnown db w h) (hs : ladder.step w l = some w') :
    PreviewsKnown db w' (h ++ (ladder.say w l).toList) := by
  have hkept : (∀ p ∈ w.db.costPreview, p ∈ w'.db.costPreview) ∧
      ∀ p ∈ w'.db.costPreview, p ∈ db.costPreview ∨ ∃ b, QuotedBy w' b p := by
    obtain ⟨hdb, hslots⟩ | ⟨i, tx, v, hi, hp, -, rfl⟩ := ladder.step_commits hs
    · rw [hdb]
      refine ⟨fun p hp => hp, fun p hp => (hw.origin p hp).imp_right ?_⟩
      rintro ⟨b, hb⟩
      exact ⟨b, hb.mono fun j ws v hj => (hslots j b ws v).mpr hj⟩
    · have hend := ending_of_commit hw.holds hi hp
      have hother {b : Call} {ws : List Write} {u : Value} {j : ℕ} (hj : w.slots[j]? = some (.committed b ws u)) :
          (w.slots.set i (.committed tx.call tx.writes v))[j]? = some (.committed b ws u) := by
        have hne : i ≠ j := by
          rintro rfl
          simp [hi] at hj
        rw [List.getElem?_set_ne hne]
        exact hj
      refine ⟨hend.commit.sub .costPreview, fun p hmem => ?_⟩
      change p ∈ (ladder.view w.db tx.writes).costPreview at hmem
      rw [hend.commit.previews] at hmem
      rcases List.mem_append.mp hmem with hmem | hmem
      · refine (hw.origin p hmem).imp_right ?_
        rintro ⟨b, hb⟩
        exact ⟨b, hb.mono fun j ws u hj => hother hj⟩
      · have hslot : (w.slots.set i (.committed tx.call tx.writes v))[i]? = some (.committed tx.call tx.writes v) :=
          slot_set_self _ hi
        generalize w.acts i = n at hend
        generalize tx.writes = ws at hend hmem hslot
        cases hend with
        | quoted ha ht =>
          cases List.mem_singleton.mp hmem
          exact Or.inr ⟨tx.call, ⟨i, _, _, hslot, rfl, rfl⟩, ht.symm⟩
        | replayed => cases hmem
        | executed hopened hl hr =>
          rw [held_executed hr.id_eq] at hmem
          cases hmem
  refine ⟨ladder_step_holds hw.holds hs, hkept.2, fun x hx id tenantId operation rows hexchange p hp => ?_⟩
  rcases List.mem_append.mp hx with hx | hx
  · exact hkept.1 p (hw.loaded x hx id tenantId operation rows hexchange p hp)
  · exact hkept.1 p (say_loaded hw.holds (Option.mem_toList.mp hx) hexchange p hp)

theorem run_previewsKnown (hk : Keyed db) {ls : List LadderLabel} (hrun : ladder.run { db } ls = some w) :
    PreviewsKnown db w (ladder.conversation { db } ls) := by
  have hstart : PreviewsKnown db { db } [] :=
    ⟨World.holds_start hk, fun p hp => Or.inl hp, fun x hx => (nomatch hx)⟩
  exact run_history ladder.step ladder.say (fun w h l w' hw hs => hw.step hs) hstart hrun

end Steps

theorem newPreview_expiresAt {n : NewPreview} {s : Session} {id : Uuid} {p : CostPreview} (h : n.row s id = .ok p) :
    p.expiresAt = s.previewExpiry := by
  unfold NewPreview.row at h
  simp only [bind_eq_ok] at h
  obtain ⟨_, -, _, -, _, -, _, -, h⟩ := h
  rw [← Except.ok.inj h]

/-- Previews are good for 15 minutes after the start of the transaction that commits them. -/
theorem committed_expiresAt {w : LadderWorld} {h : List (Said Db Reply)} (hw : ladder.Spoken w h) {j : ℕ} {b : Call}
    {ws : List Write} {resp : PreviewResponse} (hj : w.slots[j]? = some (.committed b ws (.preview resp))) :
    resp.expiresAt = b.session.previewExpiry := by
  have hreach := hw.slot j _ hj
  change b.action.prog.Reaches (dialogue h j) (.ret (.preview resp)) at hreach
  cases haction : b.action with
  | execute r =>
    rw [haction] at hreach
    obtain ⟨v, es₁, es₂, -, -, hend⟩ := Prog.Reaches.bind_ret hreach
    cases (Prog.reaches_ret.mp hend).2
  | createPreview r =>
    rw [haction] at hreach
    obtain ⟨resp', es₁, es₂, hdialogue, hquote, hend⟩ := Prog.Reaches.bind_ret hreach
    obtain ⟨rfl, hvalue⟩ := Prog.reaches_ret.mp hend
    cases hvalue
    obtain ⟨es, n, id, rfl⟩ := createPreview_reaches hquote
    have hmem : (⟨.sql (.insertPreview n), .ok (id, resp.expiresAt)⟩ : Exchange Reply) ∈ dialogue h j := by
      rw [hdialogue]
      simp
    obtain ⟨x, hx, hexchange⟩ := List.mem_map.mp hmem
    obtain ⟨hx, hslot⟩ := List.mem_filter.mp hx
    obtain ⟨s, hs, hhonest⟩ := hw.honest x hx
    rw [beq_iff_eq.mp hslot, hj] at hs
    cases hs
    obtain ⟨e, ws', hrun⟩ := Honest.ok hhonest hexchange
    obtain ⟨-, p, hrow, -, -, -, hexpires, -⟩ := runSql_insertPreview.mp hrun
    exact hexpires.trans (newPreview_expiresAt hrow)

/-! ## Runs -/

/-- **No rung is left out**, in every interleaving of previews and executions. What a call says before it
dispatches are the five rungs, each holds in the state that its statement saw, and a preview that was not there
from the start is one that a call of the same tenant has committed, which began at most 15 minutes before the
clock was read. -/
theorem no_rung_left_out {db : Db} (hk : Keyed db) {ls : List LadderLabel} {w : LadderWorld}
    (hrun : ladder.run { db } ls = some w) {i : ℕ} {a : Call} (hacted : (i, a) ∈ w.effects) :
    ∃ (r : ExecuteRequest) (g : Rungs) (before : List (Said Db Reply)) (x : Said Db Reply) (after : List (Said Db Reply)),
      a.action = .execute r ∧ ladder.conversation { db } ls = before ++ x :: after ∧ x.slot = i ∧
      x.command = .dispatch ∧ saidBy before i = g.said i r ∧ g.Hold a r ∧
      (g.preview ∈ db.costPreview ∨
        ∃ b, QuotedBy w b g.preview ∧ b.ctx.tenantId = a.ctx.tenantId ∧ g.now ≤ b.session.previewExpiry) := by
  have hspoken : ladder.Spoken w (ladder.conversation { db } ls) := Engine.run_spoken hrun
  have hknown := run_previewsKnown hk hrun
  obtain ⟨before, x, after, hsplit, hslot, hexternal, ⟨s, hs, rfl⟩, k, hreach⟩ := hspoken.acted i a hacted
  obtain ⟨slot, command, reply, seen⟩ := x
  have hdispatch : command = .dispatch := by
    cases command with
    | sql q => cases hexternal
    | utcNow => cases hexternal
    | dispatch => rfl
  subst hdispatch
  obtain ⟨r, k', haction, hexecute⟩ := action_reaches hreach
  have hbefore : ∀ y ∈ before, y ∈ ladder.conversation { db } ls := fun y hy => hsplit ▸ List.mem_append_left _ hy
  obtain ⟨g, hsaid, hhold⟩ := rungs_of_dialogue (a := s.call) (i := i) (fun y hy => by
    obtain ⟨hy, hyslot⟩ := List.mem_filter.mp hy
    obtain ⟨t, ht, hhonest⟩ := hspoken.honest y (hbefore y hy)
    rw [beq_iff_eq.mp hyslot, hs] at ht
    cases ht
    exact ⟨beq_iff_eq.mp hyslot, hhonest⟩) hexecute
  refine ⟨r, g, before, _, after, haction, hsplit, hslot, rfl, hsaid, hhold, ?_⟩
  -- The second rung loaded the preview.
  have hloaded : (⟨i, .sql (.loadPreview r.previewId r.tenantId r.operation), .ok [g.preview], g.loaded⟩ : Said Db Reply) ∈
      saidBy before i := by
    rw [hsaid]
    simp [Rungs.said]
  have hmem := hknown.loaded _ (hbefore _ (List.mem_filter.mp hloaded).1) _ _ _ _ rfl g.preview List.mem_cons_self
  refine (hknown.origin g.preview hmem).imp_right ?_
  rintro ⟨b, hb⟩
  obtain ⟨j, ws, resp, hj, -, hexpires⟩ := hb.committed
  refine ⟨b, hb, hb.tenant.trans (hhold.preview.2.2.1.trans hhold.tenant), ?_⟩
  rw [← committed_expiresAt hspoken hj, hexpires]
  exact hhold.fresh

/-- A purchase of the clinic, up to its `dispatch`. -/
def dispatching : List LadderLabel := .begin (purchase "a" []) :: List.replicate 6 (.exec 0 (queued 30 1))

theorem dispatching_runs : (ladder.run { db := shop } dispatching).isSome = true := by decide +kernel

theorem dispatching_climbs :
    ∃ (a : Call) (r : ExecuteRequest) (g : Rungs) (before : List (Said Db Reply)) (x : Said Db Reply)
      (after : List (Said Db Reply)),
      a.action = .execute r ∧ ladder.conversation { db := shop } dispatching = before ++ x :: after ∧ x.slot = 0 ∧
      x.command = .dispatch ∧ saidBy before 0 = g.said 0 r ∧ g.Hold a r ∧
      (g.preview ∈ shop.costPreview ∨
        ∃ b, QuotedBy ((ladder.run { db := shop } dispatching).get dispatching_runs) b g.preview ∧
          b.ctx.tenantId = a.ctx.tenantId ∧ g.now ≤ b.session.previewExpiry) := by
  have hacts : ((ladder.run { db := shop } dispatching).get dispatching_runs).effects.map Prod.fst = [0] := by
    decide +kernel
  obtain ⟨⟨i, a⟩, hacted, rfl⟩ := List.mem_map.mp (hacts ▸ List.mem_cons_self : 0 ∈ _)
  exact ⟨a, no_rung_left_out ⟨by decide +kernel, by decide +kernel⟩ (Option.some_get _).symm hacted⟩

end BaptistApi
