import BaptistApi.Dispatches
import BaptistApi.Price
import BaptistApi.Replay
import BaptistApi.RoundTrip

/-!
# What a replay gives back

The first response is made of values in memory, a replayed one of the stored row. Between them are
the rounding of the price and the round trip of the result.
-/

namespace BaptistApi

open BaptistApi.Calendar BaptistApi.FixedPoint BaptistApi.Program BaptistApi.Transactions

structure Repeats (r : ExecuteRequest) (b : Call) (s : ExecuteRequest) : Prop where
  action : b.action = .execute s
  bound : b.ctx.tenantId = r.tenantId
  tenant : s.tenantId = r.tenantId
  key : s.idempotencyKey = r.idempotencyKey
  preview : s.previewId = r.previewId
  operation : s.operation = r.operation

/-- Whatever was executed first at the price `c` with the result `v`, every repetition gives the response
that it gave. -/
def ReturnsOriginal (c : ℚ) (v : PyVal) : Prop :=
  ∀ (db : Db) (ls : List LadderLabel) (w : LadderWorld), Keyed db → ladder.run { db } ls = some w →
    ∀ (i : ℕ) (a : Call) (ws : List Write) (first : ApprovalResponse) (r : ExecuteRequest),
      w.slots[i]? = some (.committed a ws (.approval first)) → a.action = .execute r → w.acts i = 1 →
      first.actualCostUsd = some c → first.result = v →
    ∀ (os : List Occurrence) (w' : LadderWorld), Occurrence.run w os = some w' →
    ∀ (b : Call) (s : ExecuteRequest) (env : ℕ → Env), Repeats r b s →
      (ladder.alone b env w'.db).1 = .ok (.approval first)

def Executable (c : ℚ) (v : PyVal) : Prop := Numeric.store? 12 4 c ≠ none ∧ ∃ stack, Storable stack v

theorem Committed.first {a : Call} {db : Db} {n : ℕ} {ws : List Write} {first : ApprovalResponse}
    {r : ExecuteRequest} (h : Committed a db n ws (.approval first)) (ha : a.action = .execute r) (hn : n = 1) :
    ∃ row ∈ db.approval, ∃ cost text result, Numeric.store? 12 4 r.repriceCostUsd = some cost ∧
      r.stack.dumps first.result = .ok text ∧ text.jsonb = some result ∧ first = r.response row.id first.result ∧
      row.tenantId = r.tenantId ∧ row.idempotencyKey = r.idempotencyKey ∧ row.costPreviewId = some r.previewId ∧
      row.existing.response = { approvalId := row.id, status := .executed, actualCostUsd := some cost.value
                                result := result.loads } := by
  obtain ⟨⟨past, issued, -, -, hend⟩, hrows, -⟩ := h
  cases hend with
  | replayed => simp at hn
  | @executed _ r' id v ls row card hopened hl hr ht hv hcard hloc hactor hperson hresult =>
    obtain rfl : r = r' := Action.execute.inj (ha.symm.trans hopened.action)
    rw [held_executed hr.id_eq] at hrows
    obtain ⟨cost, result, hcost, rfl⟩ := hr
    obtain ⟨text, result', htext, hjson, hrow⟩ := hresult
    obtain rfl : result = result' := Option.some.inj hrow
    exact ⟨_, hrows _ List.mem_cons_self, cost, text, result, hcost, htext, hjson, rfl, rfl, rfl, rfl, rfl⟩

theorem returnsOriginal_of_native {c : ℚ} {v : PyVal}
    (h : Executable c v → Numeric.OnGrid 4 c ∧ v.native = true) : ReturnsOriginal c v := by
  intro db ls w hk hrun i a ws first r hi ha hacts hprice hresult os w' hlater b s env hb
  have hw : CallsHold w := Occurrence.holds hk ((Occurrence.run_calls _ ls).trans hrun)
  have hcommitted := (ladder_holds hk hrun).slot i _ hi
  obtain ⟨row, hrow, cost, text, result, hcost, htext, hjson, hfirst, ht, hkey, hpreview, hexisting⟩ :=
    Committed.first hcommitted ha hacts
  obtain ⟨hw', hlater⟩ := replaying_later hw hrow hlater
  rw [hresult] at htext hfirst
  have hc : r.repriceCostUsd = c := by
    rw [hfirst] at hprice
    exact Option.some.inj hprice
  rw [hc] at hcost
  obtain ⟨hgrid, hnative⟩ := h ⟨by simp [hcost], r.stack, text, htext, by simp [hjson]⟩
  have hasks : Asks row b s :=
    ⟨hb.action, hb.bound.trans ht.symm, hb.tenant.trans ht.symm, hb.key.trans hkey.symm⟩
  rw [hasks.alone hw'.db hlater.there env]
  unfold Approval.answer
  rw [if_pos (hpreview.trans (congrArg some hb.preview.symm)), hexisting, hfirst, ExecuteRequest.response, hc,
    Numeric.store?_value hgrid hcost, (Stack.loads_iff htext hjson).mpr hnative]

/-! ## A first execution at any price -/

theorem zero_fits : (0 : ℤ).natAbs < 10 ^ 12 := by decide

def freePreview : CostPreview := { clinicPreview with estimatedCostUsd := ⟨0, zero_fits⟩ }

/-- The preview costs nothing, so no price drifts from it. -/
def freeClinic : Db := { richClinic with costPreview := [freePreview] }

def firstRequest (stack : Stack) (c : ℚ) : ExecuteRequest := { executionAt c with stack }

def firstExecution (stack : Stack) (c : ℚ) : Call := clinicCall (.execute (firstRequest stack c))

def returning (v : PyVal) : Env := { queued 30 1 with outcome := .ok v }

theorem firstExecution_ready (stack : Stack) {c : ℚ} (hc : c ≤ 10 ^ 9) (v : PyVal) :
    Ready (firstExecution stack c) (firstRequest stack c) freeClinic (returning v) freePreview where
  action := rfl
  tenant := rfl
  keyed := ⟨List.Pairwise.nil, List.pairwise_singleton _ _⟩
  preview := List.mem_cons_self
  names := ⟨rfl, rfl, rfl⟩
  valid := le_refl noon
  price := by
    have hzero : freePreview.estimatedCostUsd.value = 0 := by norm_num [freePreview, Numeric.value]
    rw [hzero, drift_zero]
    norm_num [driftTolerance]
  budget := assertBudget_rich rfl hc
  fresh := List.pairwise_singleton _ _
  refs := ⟨List.mem_cons_self, refersTo_none _, fun i hi => by
    cases hi
    exact List.mem_cons_self, List.mem_cons_self⟩

theorem firstExecution_runs {c : ℚ} {v : PyVal} (h : Executable c v) :
    ∃ stack ls w ws, ladder.run { db := freeClinic } ls = some w ∧
      w.slots[0]? = some (.committed (firstExecution stack c) ws (.approval ((firstRequest stack c).response 30 v))) ∧
      w.acts 0 = 1 := by
  obtain ⟨cost, hcost⟩ := Option.ne_none_iff_exists'.mp h.1
  obtain ⟨stack, text, htext, hjson⟩ := h.2
  obtain ⟨result, hjson⟩ := Option.ne_none_iff_exists'.mp hjson
  have hsmall : c ≤ 10 ^ 9 := by
    have hlt := Numeric.lt_of_store? hcost
    norm_num at hlt ⊢
    linarith
  have hrole : ActorRole.ofText? (tenantContext clinicUser noon).currentRole ≠ none := by decide
  have hsettles : Settles (firstExecution stack c) (firstRequest stack c) freeClinic (returning v) v cost result :=
    ⟨rfl, rfl, ⟨text, htext, hjson⟩, hcost, hrole, List.mem_cons_self⟩
  obtain ⟨card, halone⟩ := execute_settles (firstExecution_ready stack hsmall v) hsettles
  have hidle : World.Idle ({ db := freeClinic } : LadderWorld) := fun i tx hi => by simp at hi
  obtain ⟨ls, w, -, hrun, -, -, hslots, heffects⟩ :=
    ladder.run_alone hidle (firstExecution stack c) fun _ => returning v
  dsimp only at hslots heffects
  rw [halone] at hslots heffects
  refine ⟨stack, _, w, ?ws, hrun, ?slot, ?acts⟩
  case slot =>
    rw [hslots]
    rfl
  case acts =>
    unfold World.acts
    rw [heffects]
    rfl

theorem native_of_returnsOriginal {c : ℚ} {v : PyVal} (h : ReturnsOriginal c v) (hexec : Executable c v) :
    Numeric.OnGrid 4 c ∧ v.native = true := by
  obtain ⟨stack, ls, w, ws, hrun, hslot, hacts⟩ := firstExecution_runs hexec
  have hkeyed : Keyed freeClinic := ⟨List.Pairwise.nil, List.pairwise_singleton _ _⟩
  have hreplay := h freeClinic ls w hkeyed hrun 0 (firstExecution stack c) ws _ (firstRequest stack c) hslot rfl hacts rfl
    rfl [] w rfl (firstExecution stack c) (firstRequest stack c) (fun _ => returning v) ⟨rfl, rfl, rfl, rfl, rfl, rfl⟩
  have hw := ladder_holds hkeyed hrun
  obtain ⟨row, hrow, cost, text, result, hcost, htext, hjson, -, ht, hkey, hpreview, hexisting⟩ :=
    Committed.first (hw.slot 0 _ hslot) rfl hacts
  have hasks : Asks row (firstExecution stack c) (firstRequest stack c) := ⟨rfl, ht.symm, ht.symm, hkey.symm⟩
  rw [hasks.alone hw.db hrow, Approval.answer, if_pos hpreview, hexisting] at hreplay
  injection hreplay with hreplay
  injection hreplay with hreplay
  injection hreplay with _ _ hprice hresult
  refine ⟨?_, (Stack.loads_iff htext hjson).mp hresult⟩
  have hvalue : cost.value = c := Option.some.inj hprice
  rw [← hvalue]
  exact Numeric.onGrid_value cost

/-- **A replay gives the original answer** exactly for the prices with at most four decimals and the
results made of what JSON has. -/
theorem returns_original_iff (c : ℚ) (v : PyVal) :
    ReturnsOriginal c v ↔ (Executable c v → Numeric.OnGrid 4 c ∧ v.native = true) :=
  ⟨native_of_returnsOriginal, returnsOriginal_of_native⟩

/-- A date in the result comes back as its text. -/
theorem printed_date_replayed :
    ¬ ReturnsOriginal 60 (.dict [(.str "scheduled_at", .other (some "2026-09-03 12:00:00"))]) := by
  intro h
  have hexec : Executable 60 (.dict [(.str "scheduled_at", .other (some "2026-09-03 12:00:00"))]) :=
    ⟨by decide +kernel, ⟨2, 2, le_rfl, le_rfl⟩, .obj [("scheduled_at", .str "2026-09-03 12:00:00")],
      Stack.dumps_of_shallow rfl (by decide), fun hnone => by cases hnone⟩
  have hnative := (native_of_returnsOriginal h hexec).2
  simp [PyVal.native, PyVal.nativeEntries] at hnative

end BaptistApi
