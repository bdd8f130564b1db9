import BaptistApi.Price

/-!
# Displayed and enforced gates

`_evaluate_gates` says in Python what `cost.assert_budget` says in SQL. The two agree in every state; the
quote itself is refused when its price has no place in `cost_preview`.
-/

namespace BaptistApi

open BaptistApi.Calendar BaptistApi.FixedPoint BaptistApi.Program BaptistApi.RowSecurity
  BaptistApi.Transactions

/-! ## The two rules -/

theorem gates_pass_iff (b : CostBudget) (spent estimated : ℚ) (balance : Option ℚ) :
    ([perRunGate b estimated, monthlyGate b spent estimated] ++
        (balance.map fun balance => balanceGate b balance estimated).toList).all (·.pass) = true ↔
      estimated ≤ b.perRunCapUsd.value ∧ (b.hardStop = true → spent + estimated ≤ b.monthlyCapUsd.value) ∧
        ∀ x ∈ balance, b.balanceFloorUsd.value ≤ x - estimated := by
  have hrun : (perRunGate b estimated).pass = true ↔ estimated ≤ b.perRunCapUsd.value := decide_eq_true_iff
  have hmonth : (monthlyGate b spent estimated).pass = true ↔
      (b.hardStop = true → spent + estimated ≤ b.monthlyCapUsd.value) := by
    change (!b.hardStop || decide (spent + estimated ≤ b.monthlyCapUsd.value)) = true ↔ _
    rw [Bool.or_eq_true, Bool.not_eq_true', decide_eq_true_iff, ← Bool.not_eq_true, ← imp_iff_not_or]
  have hfloor (x : ℚ) : (balanceGate b x estimated).pass = true ↔ b.balanceFloorUsd.value ≤ x - estimated :=
    decide_eq_true_iff
  rw [List.all_append, Bool.and_eq_true, List.all_cons, List.all_cons, List.all_nil, Bool.and_true,
    Bool.and_eq_true, hrun, hmonth, and_assoc]
  refine and_congr_right fun _ => and_congr_right fun _ => ?_
  cases balance with
  | none => simp
  | some x => simp [hfloor]

theorem assertBudget_ok_iff {sc : Scope} {b : CostBudget} {rest : List CostBudget}
    (hb : currentBudget sc = b :: rest) {projected : ℚ} {balance : Option ℚ} :
    assertBudget sc projected balance = .ok () ↔
      projected ≤ b.perRunCapUsd.value ∧
        (b.hardStop = true → monthSpend sc sc.session.currentMonth + projected ≤ b.monthlyCapUsd.value) ∧
        ∀ x ∈ balance, b.balanceFloorUsd.value ≤ x - projected := by
  unfold assertBudget
  rw [hb]
  dsimp only
  split
  · rename_i hrun
    simp [not_le.mpr hrun]
  · rename_i hrun
    rw [not_lt] at hrun
    split
    · rename_i hmonth
      simp [hmonth.1, not_le.mpr hmonth.2]
    · rename_i hmonth
      have hmonth' : b.hardStop = true →
          monthSpend sc sc.session.currentMonth + projected ≤ b.monthlyCapUsd.value :=
        fun hs => not_lt.mp fun hlt => hmonth ⟨hs, hlt⟩
      cases balance with
      | none => simpa [hrun] using hmonth'
      | some x =>
        dsimp only
        split
        · rename_i hfloor
          simp [not_le.mpr hfloor]
        · rename_i hfloor
          simp only [true_iff]
          refine ⟨hrun, hmonth', fun y hy => ?_⟩
          obtain rfl := Option.some.inj hy
          exact not_lt.mp hfloor

/-- Displayed and enforced, in one state: without a budget neither passes. -/
theorem displayedGates_pass_iff (sc : Scope) (estimated : ℚ) (balance : Option ℚ) :
    (displayedGates sc estimated balance).all (·.pass) = true ↔ assertBudget sc estimated balance = .ok () := by
  match hb : currentBudget sc with
  | [] =>
    unfold displayedGates assertBudget
    rw [hb]
    simp
  | b :: rest =>
    have hgates : displayedGates sc estimated balance =
        [perRunGate b estimated, monthlyGate b (monthSpend sc sc.session.currentMonth) estimated] ++
          (balance.map fun balance => balanceGate b balance estimated).toList := by
      unfold displayedGates
      rw [hb]
    rw [hgates, gates_pass_iff, assertBudget_ok_iff hb]

/-! ## `create_preview` -/

theorem currentBudget_length {db : Db} (hdb : uniqueOk .costBudget db.costBudget) (a : Call) :
    (currentBudget ⟨a.session, db⟩).length ≤ 1 := by
  have hpairs : (currentBudget ⟨a.session, db⟩).Pairwise fun x y => clash .costBudget x y = false :=
    (hdb.sublist List.filter_sublist).sublist List.filter_sublist
  match hb : currentBudget ⟨a.session, db⟩ with
  | [] => simp
  | [_] => simp
  | x :: y :: rest =>
    rw [hb] at hpairs
    have hx := mem_currentBudget.mp (show x ∈ currentBudget ⟨a.session, db⟩ by rw [hb]; simp)
    have hy := mem_currentBudget.mp (show y ∈ currentBudget ⟨a.session, db⟩ by rw [hb]; simp)
    have hclash := (List.pairwise_cons.mp hpairs).1 y List.mem_cons_self
    simp [clash, hx.2.1, hx.2.2, hy.2.1, hy.2.2] at hclash

theorem afterGates_response {a : Call} {r : PreviewRequest} {db : Db} {env : ℕ → Env} {gates : List Gate} {n : ℕ}
    {v : Value} (h : (ladder.drive a env db (quote (r.afterGates gates)) { issued := n }).1 = .ok v) :
    Numeric.store? 12 4 r.estimatedCostUsd ≠ none ∧
      ∃ id expiresAt, v = .preview (r.response gates id expiresAt) := by
  rcases afterGates_cases r gates with ⟨x, hraise⟩ | ⟨params, units, -, hsent⟩
  · rw [hraise] at h
    cases h
  · rw [hsent] at h
    let q : Sql := .insertPreview (r.newPreview gates params units)
    let st : Progress Write := { issued := n }
    change (ladder.drive a env db (.call (.sql q) _) st).1 = .ok v at h
    have hanswer : ladder.exec a (env st.issued) st.failed (ladder.view db st.writes) (.sql q) =
        exec a (env n) false db (.sql q) := rfl
    rw [Engine.drive_call, hanswer] at h
    obtain ⟨⟨id, expiresAt⟩, ws, hrun, hexec⟩ | ⟨x, hexec⟩ := exec_sql_cases a (env n) db q
    · rw [hexec] at h
      obtain ⟨-, p, hrow, -⟩ := runSql_insertPreview.mp hrun
      have hstore := (newPreview_row hrow).2.2.2
      refine ⟨by rw [hstore]; simp, id, expiresAt, ?_⟩
      cases h
      rfl
    · rw [hexec] at h
      cases h

/-- A quote that comes back says whether the enforced check would let its price through; and the quotes
that come back are those whose price has a place in `cost_preview`. -/
structure GatesAgree (a : Call) (r : PreviewRequest) (db : Db) (env : ℕ → Env) : Prop where
  displayed : ∀ v, (ladder.alone a env db).1 = .ok v → ∃ response, v = .preview response ∧
    (response.passes = true ↔ assertBudget ⟨a.session, db⟩ r.estimatedCostUsd r.providerBalanceUsd = .ok ())
  quoted : Previewable a r db env →
    ((∃ v, (ladder.alone a env db).1 = .ok v) ↔ Numeric.store? 12 4 r.estimatedCostUsd ≠ none)

/-- **Displayed gates agree with enforced ones**, for every quote that `create_preview` returns. -/
theorem displayed_gates_agree {db : Db} (hdb : constraintsOk db) {a : Call} {r : PreviewRequest}
    (ha : a.action = .createPreview r) (env : ℕ → Env) : GatesAgree a r db env := by
  have hone := currentBudget_length (hdb .costBudget).1 a
  obtain ⟨n, hgates⟩ := @createPreview_gates a r db env ha hone
  refine ⟨fun v hv => ?_, fun hr => ⟨?_, fun hstore => ?_⟩⟩
  · rw [hgates] at hv
    obtain ⟨-, id, expiresAt, rfl⟩ := afterGates_response hv
    exact ⟨_, rfl, displayedGates_pass_iff _ _ _⟩
  · rintro ⟨v, hv⟩
    rw [hgates] at hv
    exact (afterGates_response hv).1
  · obtain ⟨cost, hcost⟩ := Option.ne_none_iff_exists'.mp hstore
    obtain ⟨p, n, halone, -⟩ := createPreview_alone ha hone hr hcost
    exact ⟨_, by rw [halone]⟩

theorem displayed_gates_agree_ten :
    GatesAgree (quoting 10) (quoteOf 10) richClinic fun _ => queued 21 1 :=
  displayed_gates_agree (by decide +kernel) rfl _

/-- The budget takes a price of 500000000 in, and `numeric(12,4)` does not. -/
theorem large_price_not_quoted :
    ¬ ∀ (db : Db) (a : Call) (r : PreviewRequest) (env : ℕ → Env), constraintsOk db →
      a.action = .createPreview r → Previewable a r db env →
      ((∃ response, (ladder.alone a env db).1 = .ok (.preview response) ∧ response.passes = true) ↔
        assertBudget ⟨a.session, db⟩ r.estimatedCostUsd r.providerBalanceUsd = .ok ()) := by
  intro h
  have hpasses : assertBudget ⟨tenantContext clinicUser noon, richClinic⟩ (5 * 10 ^ 8) none = .ok () :=
    assertBudget_rich rfl (by norm_num)
  obtain ⟨response, hresponse, -⟩ := (h richClinic (quoting (5 * 10 ^ 8)) (quoteOf (5 * 10 ^ 8))
    (fun _ => queued 21 1) (by decide +kernel) rfl (quoteOf_previewable _)).mpr hpasses
  have hone : (currentBudget ⟨(quoting (5 * 10 ^ 8)).session, richClinic⟩).length ≤ 1 :=
    (congrArg List.length (currentBudget_rich rfl)).le
  obtain ⟨n, hgates⟩ := @createPreview_gates _ (quoteOf (5 * 10 ^ 8)) _ (fun _ => queued 21 1) rfl hone
  rw [hgates] at hresponse
  have hnone : Numeric.store? 12 4 (5 * 10 ^ 8) = none := by decide +kernel
  exact (afterGates_response hresponse).1 hnone

end BaptistApi
