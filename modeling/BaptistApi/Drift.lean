import BaptistApi.Price

/-!
# The unchanged price

The drift is taken from the stored price, but the new one is not rounded. Below half a thousandth of a
dollar the rounding alone can be more than the tolerance.
-/

namespace BaptistApi

open BaptistApi.Calendar BaptistApi.FixedPoint BaptistApi.Program BaptistApi.Transactions

/-- No execution of a preview quoted at `q` that is priced at `q` again ends with PREVIEW_PRICE_DRIFT. -/
def NeverDrifts (q : ℚ) : Prop :=
  ∀ (db : Db) (ls : List LadderLabel) (w : LadderWorld), Keyed db → ladder.run { db } ls = some w →
    ∀ (i : ℕ) (a : Call) (ws : List Write) (preview : PreviewResponse),
      w.slots[i]? = some (.committed a ws (.preview preview)) → preview.estimatedCostUsd = q →
    ∀ (j : ℕ) (b : Call) (r : ExecuteRequest), b.action = .execute r → r.previewId = preview.previewId →
      r.repriceCostUsd = q → w.slots[j]? ≠ some (.rolledBack b (.error (.problem .previewPriceDrift)))

/-- In units of the column: it is stored as 0, or as 5 or more, or it is within a tenth of 1, 2, 3 or 4. -/
def Steady (q : ℚ) : Prop :=
  q * 10 ^ 4 < 1 / 2 ∨ 9 / 2 ≤ q * 10 ^ 4 ∨ ∃ n ∈ [(1 : ℚ), 2, 3, 4], |q * 10 ^ 4 - n| ≤ n / 10

/-! ## Rounding against the tolerance -/

theorem steady_iff {x : ℚ} {m : ℤ} (hlo : m ≤ x + 1 / 2) (hhi : x + 1 / 2 < m + 1) (hpos : 1 ≤ m) :
    |x - m| ≤ m / 10 ↔ x < 1 / 2 ∨ 9 / 2 ≤ x ∨ ∃ n ∈ [(1 : ℚ), 2, 3, 4], |x - n| ≤ n / 10 := by
  have small (n : ℤ) (hn : n ≤ 4) (h : |x - n| ≤ n / 10) : m = n := by
    obtain ⟨h1, h2⟩ := abs_le.mp h
    have hn : (n : ℚ) ≤ 4 := by exact_mod_cast hn
    have hup : (m : ℚ) < n + 1 := by linarith
    have hdown : (n : ℚ) < m + 1 := by linarith
    have hup : m < n + 1 := by exact_mod_cast hup
    have hdown : n < m + 1 := by exact_mod_cast hdown
    omega
  constructor
  · intro h
    rcases le_or_gt 5 m with hm | hm
    · have hm : (5 : ℚ) ≤ m := by exact_mod_cast hm
      exact Or.inr (Or.inl (by linarith))
    · refine Or.inr (Or.inr ⟨m, ?_, h⟩)
      obtain rfl | rfl | rfl | rfl : m = 1 ∨ m = 2 ∨ m = 3 ∨ m = 4 := by omega
      all_goals simp
  · rintro (h | h | ⟨n, hn, h⟩)
    · have hm : (m : ℚ) < 1 := by linarith
      have hm : m < 1 := by exact_mod_cast hm
      omega
    · -- Half a unit is within the tolerance of five units and more.
      have hm : (4 : ℚ) < m := by linarith
      have hm : 4 < m := by exact_mod_cast hm
      have hm : (5 : ℚ) ≤ m := by exact_mod_cast hm
      rw [abs_le]
      constructor <;> linarith
    · have hcast : ∃ k : ℤ, k ≤ 4 ∧ n = k := by
        simp only [List.mem_cons, List.not_mem_nil, or_false] at hn
        rcases hn with rfl | rfl | rfl | rfl
        · exact ⟨1, by omega, by norm_num⟩
        · exact ⟨2, by omega, by norm_num⟩
        · exact ⟨3, by omega, by norm_num⟩
        · exact ⟨4, by omega, by norm_num⟩
      obtain ⟨k, hk, rfl⟩ := hcast
      rw [small k hk h]
      exact h

theorem drift_unchanged_iff {q : ℚ} (hq : 0 ≤ q) {v : Numeric 12 4} (hv : Numeric.store? 12 4 q = some v) :
    drift q v.value ≤ driftTolerance ↔ Steady q := by
  have hx : 0 ≤ q * 10 ^ 4 := by positivity
  rw [Numeric.store?_eq_some, roundHalfAway_nonneg hx] at hv
  have hlo : (v.units : ℚ) ≤ q * 10 ^ 4 + 1 / 2 := hv ▸ Int.floor_le _
  have hhi : q * 10 ^ 4 + 1 / 2 < v.units + 1 := hv ▸ Int.lt_floor_add_one _
  have hunits : 0 ≤ v.units := by
    rw [hv]
    exact Int.floor_nonneg.mpr (by linarith)
  rcases hunits.eq_or_lt with hzero | hpos
  · have hvalue : v.value = 0 := by simp [Numeric.value, ← hzero]
    rw [← hzero] at hhi
    norm_num at hhi
    rw [hvalue, drift_zero]
    refine iff_of_true (by norm_num [driftTolerance]) (Or.inl ?_)
    linarith
  · have hpos' : (0 : ℚ) < v.units := by exact_mod_cast hpos
    have hvalue : 0 < v.value := div_pos hpos' (Numeric.ten_pow_pos 4)
    have hscale : q - v.value = (q * 10 ^ 4 - v.units) / 10 ^ 4 := by
      rw [Numeric.value]
      field_simp
    have htenth : v.value / 10 = (v.units : ℚ) / 10 / 10 ^ 4 := by
      rw [Numeric.value]
      ring
    rw [drift_le_iff hvalue, hscale, htenth, abs_div, abs_of_pos (Numeric.ten_pow_pos 4),
      div_le_div_iff_of_pos_right (Numeric.ten_pow_pos 4)]
    exact steady_iff hlo hhi (by omega)

theorem storable_of_not_steady {q : ℚ} (hq : 0 ≤ q) (h : ¬ Steady q) : ∃ v, Numeric.store? 12 4 q = some v := by
  have hsmall : q * 10 ^ 4 < 9 / 2 := by
    by_contra hlarge
    exact h (Or.inr (Or.inl (not_lt.mp hlarge)))
  have hx : 0 ≤ q * 10 ^ 4 := by positivity
  have hle : roundHalfAway (q * 10 ^ 4) ≤ 5 := roundHalfAway_le (by norm_num; linarith)
  have hge : 0 ≤ roundHalfAway (q * 10 ^ 4) := le_roundHalfAway (by exact_mod_cast hx)
  have hfits : (roundHalfAway (q * 10 ^ 4)).natAbs < 10 ^ 12 := by omega
  exact ⟨⟨_, hfits⟩, Numeric.store?_eq_some.mpr rfl⟩

/-! ## Who ends with the error -/

/-- The call executes a preview that is there, at a price too far from the stored one. -/
def OffPrice (a : Call) (db : Db) : Prop :=
  ∃ r p, a.action = .execute r ∧ p ∈ db.costPreview ∧ p.id = r.previewId ∧
    driftTolerance < drift r.repriceCostUsd p.estimatedCostUsd.value

theorem OffPrice.sub {a : Call} {db db' : Db} (h : OffPrice a db) (hsub : db.Sub db') : OffPrice a db' := by
  obtain ⟨r, p, ha, hp, hprice⟩ := h
  exact ⟨r, p, ha, hsub .costPreview p hp, hprice⟩

section Stages

variable {good : ExecuteRequest → PyVal → Prop} {a : Call} {db : Db} {n : ℕ} {issued : List Cmd}
  {p : Ladder Value} {ws : List Write}

theorem afterGates_ne_drift (r : PreviewRequest) (gates : List Gate) :
    quote (r.afterGates gates) ≠ .raise (.problem .previewPriceDrift) := by
  intro h
  rcases afterGates_cases r gates with ⟨x, hraise⟩ | ⟨_, _, -, hsent⟩
  · cases h.symm.trans hraise
  · cases h.symm.trans hsent

theorem afterDispatch_ne_drift (r : ExecuteRequest) (bs : List Bill) (id : Uuid) (v : PyVal) :
    answer (r.afterDispatch bs id v) ≠ .raise (.problem .previewPriceDrift) := by
  cases bs with
  | cons => intro h; cases h
  | nil =>
    change answer (recordExecuted r id v) ≠ _
    intro h
    cases hv : r.stack.dumps v with
    | error x => rw [recordExecuted_refused hv] at h; cases h
    | ok text => rw [recordExecuted_encoded hv] at h; cases h

theorem Standing.drifting {c : Cmd} {k : Reply c → Ladder Value} (h : Standing good a db n issued p ws)
    (hp : p = .call c k) {reply : Reply c} (hr : k reply = .raise (.problem .previewPriceDrift)) :
    OffPrice a db := by
  cases h with
  | begun =>
    cases ha : a.action with
    | createPreview r =>
      rw [ha] at hp
      cases hp
      match reply with
      | .error x => cases hr
      | .ok [] => exact absurd hr (afterGates_ne_drift r _)
      | .ok [b] => cases hr
      | .ok (_ :: _ :: _) => cases hr
    | execute r =>
      rw [ha] at hp
      cases hp
      match reply with
      | .error x => cases hr
      | .ok [] => cases hr
      | .ok [row] =>
        change answer (if row.existing.costPreviewId ≠ some r.previewId then
          Ladder.problem .duplicateIdempotencyKey else pure row.existing.response) = _ at hr
        split at hr <;> cases hr
      | .ok (_ :: _ :: _) => cases hr
  | @spending _ r b ha =>
    cases hp
    cases reply with
    | error x => cases hr
    | ok spent => exact absurd hr (afterGates_ne_drift r _)
  | gated =>
    obtain ⟨_, _, -, hk⟩ := gated_prog hp
    cases hk
    cases reply <;> cases hr
  | looked =>
    cases hp
    match reply with
    | .error x => cases hr
    | .ok [] => cases hr
    | .ok [p] => cases hr
    | .ok (_ :: _ :: _) => cases hr
  | @loaded _ r p ha hmem hid ht hop =>
    cases hp
    change answer (do
      (if p.expiresAt < reply then Ladder.problem .previewExpired
        else if driftTolerance < drift r.repriceCostUsd p.estimatedCostUsd.value then
          Ladder.problem .previewPriceDrift
        else pure ())
      r.afterPrice) = _ at hr
    split at hr
    · cases hr
    · split at hr
      · rename_i hdrift
        exact ⟨r, p, ha, hmem, hid, hdrift⟩
      · cases hr
  | priced =>
    cases hp
    cases reply <;> cases hr
  | funded =>
    cases hp
    match reply with
    | .ok id => cases hr
    | .error x => cases x <;> cases hr
  | @opened _ r id h =>
    cases hp
    cases reply with
    | error message => cases hr
    | ok v => exact absurd hr (afterDispatch_ne_drift r r.bills id v)
  | @dispatched _ r id v done rest ls =>
    match rest with
    | [] =>
      obtain ⟨_, -, hk⟩ := dispatched_prog hp
      cases hk
      cases reply <;> cases hr
    | b :: rest =>
      cases hp
      cases reply with
      | error x => cases hr
      | ok _ => exact absurd hr (afterDispatch_ne_drift r rest id v)
  | closed =>
    cases hp
    cases reply <;> cases hr
  | ended => cases hp

end Stages

/-- Whoever ends with PREVIEW_PRICE_DRIFT was off the price of the preview. -/
def Drifted (db : Db) : LadderSlot → Prop
  | .running tx => tx.prog = .raise (.problem .previewPriceDrift) → OffPrice tx.call db
  | .committed .. => True
  | .rolledBack a outcome => outcome = .error (.problem .previewPriceDrift) → OffPrice a db

theorem Drifted.sub {db db' : Db} {t : LadderSlot} (h : Drifted db t) (hsub : db.Sub db') : Drifted db' t := by
  cases t with
  | running tx => exact fun hp => (h hp).sub hsub
  | committed => trivial
  | rolledBack a outcome => exact fun ho => (h ho).sub hsub

theorem drift_cooperates : ladder.Cooperates (fun _ => True) (fun db _ s => Drifted db s) (fun _ _ => True)
    fun w _ => LadderHolds w where
  begins w a _ _ := by
    refine ⟨fun hp => ?_, fun _ _ _ => ⟨trivial, trivial⟩⟩
    change a.action.prog = _ at hp
    cases ha : a.action <;> rw [ha] at hp <;> cases hp
  moves w l i s s' db' acted h hw hi hm := by
    have hsub := move_sub hw hi hm
    have hslot := hw.slot i s hi
    refine ⟨trivial, ?_, fun j t _ hj => ⟨(h.slot j t hj).sub hsub, trivial, trivial⟩⟩
    cases hm with
    | exec hp => exact fun hr => (standing_of_call hslot hp).2.drifting rfl hr
    | lose hp => exact fun hr => (standing_of_call hslot hp).2.drifting rfl hr
    | commit => trivial
    | abandon => exact fun ho => by cases ho
    | rollback hp =>
      intro ho
      cases ho
      exact h.slot i _ hi hp

abbrev AllDrifted (w : LadderWorld) : Prop := w.Holds (fun _ => True) (fun db _ s => Drifted db s) fun _ _ => True

theorem drifted_runs {db : Db} (hk : Keyed db) {ls : List LadderLabel} {w : LadderWorld}
    (hrun : ladder.run { db } ls = some w) : LadderHolds w ∧ AllDrifted w := by
  have hstart : LadderHolds { db } ∧ AllDrifted { db } := ⟨World.holds_start hk, World.holds_start trivial⟩
  have hstep (w : LadderWorld) (l : LadderLabel) (w' : LadderWorld) (h : LadderHolds w ∧ AllDrifted w)
      (hs : ladder.step w l = some w') : LadderHolds w' ∧ AllDrifted w' :=
    ⟨ladder_step_holds h.1 hs, drift_cooperates.step h.2 h.1 hs⟩
  exact ladder.run_invariant hstep hstart hrun

theorem neverDrifts_of_steady {q : ℚ} (hq : 0 ≤ q) (h : Steady q) : NeverDrifts q := by
  intro db ls w hk hrun i a ws preview hi hquote j b r hb hpreview hprice hj
  obtain ⟨hw, hall⟩ := drifted_runs hk hrun
  have hdrifted := hall.slot j _ hj rfl
  obtain ⟨x, hx, hid, hstore⟩ := (hw.slot i _ hi).preview
  rw [hquote] at hstore
  obtain ⟨r', p, hb', hp, hpid, hoff⟩ := hdrifted
  obtain rfl : r = r' := Action.execute.inj (hb.symm.trans hb')
  -- The preview that the price was checked against is the one that was quoted.
  obtain rfl : p = x := hw.db.eq_of_id hx hp (hpid.trans (hpreview.trans hid.symm))
  rw [hprice] at hoff
  exact absurd ((drift_unchanged_iff hq hstore).mpr h) (not_le.mpr hoff)

/-! ## A quote and its execution -/

theorem execute_drifts {a : Call} {r : ExecuteRequest} {db : Db} {e : Env} {p : CostPreview}
    (ha : a.action = .execute r) (ht : r.tenantId = a.ctx.tenantId) (hk : Keyed db)
    (hfresh : uniqueOk .approval (db.approval ++ [r.newApproval.row e.uuid])) (hp : p ∈ db.costPreview)
    (hnames : p.id = r.previewId ∧ p.tenantId = r.tenantId ∧ p.operation = r.operation)
    (hvalid : e.clock ≤ p.expiresAt) (hoff : driftTolerance < drift r.repriceCostUsd p.estimatedCostUsd.value) :
    ladder.alone a (fun _ => e) db = (.error (.problem .previewPriceDrift), { issued := 3 }) := by
  unfold Engine.alone
  change ladder.drive a (fun _ => e) db a.action.prog {} = _
  rw [ha]
  refine (drive_sql {} rfl (finds_nothing hfresh)).trans ?_
  change ladder.drive a (fun _ => e) db (answer r.afterLookup) { issued := 1 } = _
  refine (drive_sql { issued := 1 } rfl (loads_preview hk hp ht hnames)).trans ?_
  change ladder.drive a (fun _ => e) db (answer (do
    (if p.expiresAt < e.clock then Ladder.problem .previewExpired
      else if driftTolerance < drift r.repriceCostUsd p.estimatedCostUsd.value then
        Ladder.problem .previewPriceDrift
      else pure ())
    r.afterPrice)) { issued := 3 } = _
  rw [if_neg (not_lt.mpr hvalid), if_pos hoff]
  rfl

theorem steady_of_neverDrifts {q : ℚ} (hq : 0 ≤ q) (h : NeverDrifts q) : Steady q := by
  by_contra hsteady
  obtain ⟨v, hv⟩ := storable_of_not_steady hq hsteady
  let executing : Call := clinicCall (.execute (executionAt q))
  obtain ⟨ls, w, p, preview, hrun, hquoted⟩ := quoting_runs hv
  have hmem : p ∈ w.db.costPreview := by
    rw [hquoted.db]
    exact List.mem_cons_self
  have hoff : driftTolerance < drift q p.estimatedCostUsd.value := by
    rw [hquoted.price]
    exact not_le.mp fun hle => hsteady ((drift_unchanged_iff hq hv).mp hle)
  have halone : ladder.alone executing (fun _ => queued 30 2) w.db =
      (.error (.problem .previewPriceDrift), { issued := 3 }) :=
    @execute_drifts executing (executionAt q) w.db (queued 30 2) p rfl rfl hquoted.keyed (hquoted.fresh _) hmem
      hquoted.names hquoted.valid hoff
  obtain ⟨ls', w', -, hrun', -, -, hslots, -⟩ := ladder.run_alone hquoted.idle executing fun _ => queued 30 2
  rw [halone, hquoted.slots] at hslots
  have hall : ladder.run { db := richClinic } (ls ++ .begin executing :: ls') = some w' := by
    rw [Engine.run_append, hrun]
    exact hrun'
  have hslot : w'.slots[0]? = some (.committed (quoting q) [.insert .costPreview p] (.preview preview)) := by
    rw [hslots]
    rfl
  refine h richClinic _ w' ⟨List.Pairwise.nil, List.Pairwise.nil⟩ hall 0 (quoting q) _ preview hslot
    hquoted.response.2 1 executing (executionAt q) rfl (hquoted.names.1.symm.trans hquoted.response.1.symm) rfl ?_
  rw [hslots]
  rfl

/-- **An unchanged price never drifts** exactly when its rounding stays within the tolerance. -/
theorem unchanged_price_iff {q : ℚ} (hq : 0 ≤ q) : NeverDrifts q ↔ Steady q :=
  ⟨steady_of_neverDrifts hq, neverDrifts_of_steady hq⟩

theorem unchanged_price_iff_ten : NeverDrifts 10 ↔ Steady 10 := unchanged_price_iff (by norm_num)

/-- Half a unit is stored as a whole one, and drifts from it by a half. -/
theorem half_unit_drifts : ¬ NeverDrifts (5 / 10 ^ 5) := by
  intro h
  rcases steady_of_neverDrifts (by norm_num) h with hlow | hhigh | ⟨n, hn, hnear⟩
  · norm_num at hlow
  · norm_num at hhigh
  · simp only [List.mem_cons, List.not_mem_nil, or_false] at hn
    obtain ⟨h1, h2⟩ := abs_le.mp hnear
    rcases hn with rfl | rfl | rfl | rfl <;> norm_num at h1

end BaptistApi
