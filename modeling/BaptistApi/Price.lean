import BaptistApi.LadderAlone

/-!
# Price protection

The gate divides by the stored price, not by the quoted one. The two are the same for a quote with at
most four decimals, and a price of zero is not compared at all.
-/

namespace BaptistApi

open BaptistApi.Calendar BaptistApi.FixedPoint BaptistApi.Program BaptistApi.Transactions

/-- Whenever `dispatch` is called for a preview quoted at `q`, the cost is within a tenth of it. -/
def PriceProtected (q : ℚ) : Prop :=
  ∀ (db : Db) (ls : List LadderLabel) (w : LadderWorld), Keyed db → ladder.run { db } ls = some w →
    ∀ (i : ℕ) (a : Call) (ws : List Write) (preview : PreviewResponse),
      w.slots[i]? = some (.committed a ws (.preview preview)) → preview.estimatedCostUsd = q →
    ∀ p ∈ w.effects, ∀ r, p.2.action = .execute r → r.previewId = preview.previewId →
      0 ≤ r.repriceCostUsd → |r.repriceCostUsd - q| ≤ q / 10

/-! ## The gate -/

theorem drift_le_iff {c v : ℚ} (hv : 0 < v) : drift c v ≤ driftTolerance ↔ |c - v| ≤ v / 10 := by
  unfold drift driftTolerance
  rw [if_pos hv.ne', div_le_iff₀ hv]
  constructor <;> intro h <;> linarith

@[simp] theorem drift_zero (c : ℚ) : drift c 0 = 0 := by simp [drift]

/-! ## What a quote became -/

theorem SlotOk.priced {good : ExecuteRequest → PyVal → Prop} {db : Db} {n : ℕ} {s : LadderSlot} (h : SlotOk good db n s)
    (hn : n ≠ 0) : ∃ r, Priced s.call r db := by
  cases s with
  | running tx => exact (h.1.resolve_left hn).2
  | rolledBack a outcome => exact (Or.resolve_left h hn).2
  | committed a ws v =>
    obtain ⟨⟨past, issued, hsub, -, hend⟩, -, -⟩ := h
    cases hend with
    | quoted => exact absurd rfl hn
    | replayed => exact absurd rfl hn
    | executed hopened =>
      obtain ⟨hact, q, hq, hprice⟩ := hopened.toPriced
      exact ⟨_, hact, q, hsub .costPreview q hq, hprice⟩

theorem Committed.preview {a : Call} {db : Db} {n : ℕ} {ws : List Write} {preview : PreviewResponse}
    (h : Committed a db n ws (.preview preview)) :
    ∃ p ∈ db.costPreview, p.id = preview.previewId ∧
      Numeric.store? 12 4 preview.estimatedCostUsd = some p.estimatedCostUsd := by
  obtain ⟨⟨past, issued, -, -, hend⟩, -, hpreviews⟩ := h
  cases hend with
  | quoted ha ht hl hq hu => exact ⟨_, hpreviews _ List.mem_cons_self, rfl, hq⟩

theorem price_protected_of_grid {q : ℚ} (h : Numeric.store? 12 4 q ≠ none → 0 < q ∧ Numeric.OnGrid 4 q) :
    PriceProtected q := by
  intro db ls w hk hrun i a ws preview hi hquote p hp r ha hpreview _
  have hw : LadderHolds w := ladder_holds hk hrun
  obtain ⟨x, hx, hid, hstore⟩ := (hw.slot i _ hi).preview
  rw [hquote] at hstore
  obtain ⟨hpos, hgrid⟩ := h (by rw [hstore]; exact Option.some_ne_none _)
  have hvalue : x.estimatedCostUsd.value = q := Numeric.store?_value hgrid hstore
  obtain ⟨s, hs, hcall⟩ := hw.acted p hp
  obtain ⟨r', hact, y, hy, hyid, -, -, hdrift⟩ := (hw.slot p.1 s hs).priced (World.acts_ne_zero hp)
  obtain rfl : r' = r := Action.execute.inj (hact.symm.trans (hcall ▸ ha))
  -- The preview of the gate is the one that was quoted.
  obtain rfl : y = x := hw.db.eq_of_id hx hy (hyid.trans (hpreview.trans hid.symm))
  rw [hvalue] at hdrift
  exact (drift_le_iff hpos).mp hdrift

/-! ## A quote and an execution -/

/-- A month without a hard stop, and with room for the highest prices. -/
def richBudget : CostBudget :=
  { clinicBudget with perRunCapUsd := ⟨10 ^ 12 - 1, by decide⟩, hardStop := false }

def richClinic : Db := { clinic .active with costBudget := [richBudget] }

def quoteOf (q : ℚ) : PreviewRequest :=
  { tenantId := 1, locationId := none, operation := "post", requestedBy := 2, params := .none, units := []
    estimatedCostUsd := q, providerBalanceUsd := none }

def executionAt (c : ℚ) : ExecuteRequest :=
  { tenantId := 1, locationId := none, operation := "post", approvedBy := 2, previewId := 21
    idempotencyKey := "a", repriceCostUsd := c, providerBalanceUsd := none }

def clinicCall (action : Action) : Call := { ctx := clinicUser, startedAt := noon, action }

theorem currentBudget_rich {db : Db} (h : db.costBudget = [richBudget]) :
    currentBudget ⟨tenantContext clinicUser noon, db⟩ = [richBudget] := by
  rw [currentBudget_eq, h]
  decide +kernel

theorem assertBudget_rich {db : Db} (h : db.costBudget = [richBudget]) {c : ℚ} (hc : c ≤ 10 ^ 9) :
    assertBudget ⟨tenantContext clinicUser noon, db⟩ c none = .ok () := by
  have hcap : c ≤ richBudget.perRunCapUsd.value := hc.trans (by norm_num [richBudget, Numeric.value])
  have hstop : richBudget.hardStop = false := rfl
  unfold assertBudget
  rw [currentBudget_rich h]
  dsimp only
  rw [if_neg (not_lt.mpr hcap), if_neg (by simp [hstop])]

def quoting (q : ℚ) : Call := clinicCall (.createPreview (quoteOf q))

theorem quoteOf_previewable (q : ℚ) : Previewable (quoting q) (quoteOf q) richClinic fun _ => queued 21 1 where
  tenant := rfl
  texts := ⟨.null, .arr [], ⟨rfl, rfl⟩, by simp [Json.jsonb], by simp [Json.jsonb, Json.jsonbList]⟩
  keyed := ⟨by decide, by decide⟩
  fresh _ := by decide
  refs := ⟨List.mem_cons_self, refersTo_none _, List.mem_cons_self⟩

/-- The clinic has quoted `q`, the column made `v` of it, and nobody runs. -/
structure Quoted (q : ℚ) (v : Numeric 12 4) (w : LadderWorld) (p : CostPreview) (preview : PreviewResponse) :
    Prop where
  db : w.db = { richClinic with costPreview := [p] }
  idle : w.Idle
  names : p.id = 21 ∧ p.tenantId = 1 ∧ p.operation = "post"
  price : p.estimatedCostUsd = v
  valid : noon ≤ p.expiresAt
  slots : w.slots = [.committed (quoting q) [.insert .costPreview p] (.preview preview)]
  response : preview.previewId = p.id ∧ preview.estimatedCostUsd = q

theorem quoting_runs {q : ℚ} {v : Numeric 12 4} (hv : Numeric.store? 12 4 q = some v) :
    ∃ ls w p preview, ladder.run { db := richClinic } ls = some w ∧ Quoted q v w p preview := by
  have hone : (currentBudget ⟨(quoting q).session, richClinic⟩).length ≤ 1 :=
    (congrArg List.length (currentBudget_rich rfl)).le
  obtain ⟨p, n, hquote, ⟨_, hid⟩, ht, hop, hprice, hexp⟩ := createPreview_alone rfl hone (quoteOf_previewable q) hv
  have hidle : World.Idle ({ db := richClinic } : LadderWorld) := fun i tx hi => by simp at hi
  obtain ⟨ls, w, -, hrun, hidle, hdb, hslots, -⟩ := ladder.run_alone hidle (quoting q) fun _ => queued 21 1
  rw [hquote] at hdb hslots
  have hvalid : noon ≤ p.expiresAt := by
    rw [hexp]
    change noon ≤ (tenantContext clinicUser noon).previewExpiry
    decide +kernel
  exact ⟨_, w, p, _, hrun, hdb, hidle, ⟨hid, ht, hop⟩, hprice, hvalid, hslots, rfl, rfl⟩

theorem Quoted.keyed {q : ℚ} {v : Numeric 12 4} {w : LadderWorld} {p : CostPreview} {preview : PreviewResponse}
    (h : Quoted q v w p preview) : Keyed w.db := by
  rw [h.db]
  exact ⟨List.Pairwise.nil, List.pairwise_singleton _ _⟩

theorem Quoted.fresh {q : ℚ} {v : Numeric 12 4} {w : LadderWorld} {p : CostPreview} {preview : PreviewResponse}
    (h : Quoted q v w p preview) (row : Approval) : uniqueOk .approval (w.db.approval ++ [row]) := by
  rw [h.db]
  exact List.pairwise_singleton _ _

theorem PriceProtected.covers {q : ℚ} (h : PriceProtected q) {v : Numeric 12 4}
    (hv : Numeric.store? 12 4 q = some v) {c : ℚ} (h0 : 0 ≤ c) (hc : c ≤ 10 ^ 9)
    (hdrift : drift c v.value ≤ driftTolerance) : |c - q| ≤ q / 10 := by
  let executing : Call := clinicCall (.execute (executionAt c))
  obtain ⟨ls, w, p, preview, hrun, hquoted⟩ := quoting_runs hv
  have hmem : p ∈ w.db.costPreview := by
    rw [hquoted.db]
    exact List.mem_cons_self
  have hready : Ready executing (executionAt c) w.db (queued 30 2) p := by
    refine ⟨rfl, rfl, hquoted.keyed, hmem, hquoted.names, hquoted.valid, ?_, ?_, hquoted.fresh _, ?_⟩
    · rw [hquoted.price]
      exact hdrift
    · rw [hquoted.db]
      exact assertBudget_rich rfl hc
    · rw [hquoted.db]
      exact ⟨List.mem_cons_self, refersTo_none _, fun i hi => (by
        cases hi
        exact List.mem_singleton.mpr hquoted.names.1.symm), List.mem_cons_self⟩
  obtain ⟨ls', w', -, hrun', -, -, hslots', heffects'⟩ :=
    ladder.run_alone hquoted.idle executing fun _ => queued 30 2
  have hall : ladder.run { db := richClinic } (ls ++ .begin executing :: ls') = some w' := by
    rw [Engine.run_append, hrun]
    exact hrun'
  have hslot : w'.slots[0]? = some (.committed (quoting q) [.insert .costPreview p] (.preview preview)) := by
    rw [hslots', hquoted.slots]
    rfl
  have hacted : (1, executing) ∈ w'.effects := by
    rw [heffects', hquoted.slots]
    have hdispatched := hready.dispatches
    exact List.mem_append_right _ (List.mem_replicate.mpr ⟨by omega, rfl⟩)
  exact h richClinic _ w' ⟨List.Pairwise.nil, List.Pairwise.nil⟩ hall 0 (quoting q) _ preview hslot
    hquoted.response.2 (1, executing) hacted (executionAt c) rfl
    (hquoted.names.1.symm.trans hquoted.response.1.symm) h0

/-- **Price protection** holds exactly for the positive quotes with at most four decimals, and for those
that no preview can hold. -/
theorem price_protected_iff {q : ℚ} (hq : 0 ≤ q) :
    PriceProtected q ↔ (Numeric.store? 12 4 q ≠ none → 0 < q ∧ Numeric.OnGrid 4 q) := by
  refine ⟨fun h hfits => ?_, price_protected_of_grid⟩
  obtain ⟨v, hv⟩ := Option.ne_none_iff_exists'.mp hfits
  have hsmall : v.value < 10 ^ 8 := by
    have hlt := v.value_lt
    norm_num at hlt ⊢
    exact hlt
  rcases (Numeric.value_nonneg_of_nonneg hv hq).eq_or_lt with hzero | hpos
  · -- At a stored price of zero nothing is compared, and 0 and 1 are not both within a tenth.
    have hany (c : ℚ) : drift c v.value ≤ driftTolerance := by
      rw [← hzero, drift_zero]
      norm_num [driftTolerance]
    have hfree := abs_le.mp (h.covers hv le_rfl (by norm_num) (hany 0))
    have hone := abs_le.mp (h.covers hv zero_le_one (by norm_num) (hany 1))
    linarith [hfree.1, hone.2]
  · -- Both ends of the tolerance pass, so the stored price is the quote.
    have hup : drift (11 / 10 * v.value) v.value ≤ driftTolerance := by
      rw [drift_le_iff hpos, abs_le]
      constructor <;> linarith
    have hdown : drift (9 / 10 * v.value) v.value ≤ driftTolerance := by
      rw [drift_le_iff hpos, abs_le]
      constructor <;> linarith
    have habove := abs_le.mp (h.covers hv (by positivity) (by linarith) hup)
    have hbelow := abs_le.mp (h.covers hv (by positivity) (by linarith) hdown)
    have hvalue : v.value = q := by linarith [habove.2, hbelow.1]
    rw [← hvalue]
    exact ⟨hpos, Numeric.onGrid_value v⟩

theorem price_protected_iff_ten :
    PriceProtected 10 ↔ (Numeric.store? 12 4 10 ≠ none → (0 : ℚ) < 10 ∧ Numeric.OnGrid 4 10) :=
  price_protected_iff (by norm_num)

/-- A free preview is executed at any price. -/
theorem free_quote_unprotected : ¬ PriceProtected 0 := by
  intro h
  have hstore : Numeric.store? 12 4 0 = some ⟨0, by decide⟩ := by decide +kernel
  have hdrift : drift 60 (⟨0, by decide⟩ : Numeric 12 4).value ≤ driftTolerance := by
    norm_num [Numeric.value, driftTolerance]
  have hcost := h.covers hstore (by norm_num) (by norm_num) hdrift
  norm_num at hcost

end BaptistApi
