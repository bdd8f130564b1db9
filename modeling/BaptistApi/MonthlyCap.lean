import BaptistApi.LadderInvariant

/-!
# The monthly cap

The gate reads a sum, and what it lets through enters that sum at COMMIT. Between the two, another
call of the tenant may pass the same gate.
-/

namespace BaptistApi

open BaptistApi.Calendar BaptistApi.FixedPoint BaptistApi.Program BaptistApi.Transactions

/-! ## What a commit adds to the sum -/

theorem onGrid_billedIn (db : Db) (tenantId : Uuid) (m : Date) : Numeric.OnGrid 4 (billedIn db tenantId m) := by
  unfold billedIn
  refine Numeric.OnGrid.sum fun x hx => ?_
  obtain ⟨l, -, rfl⟩ := List.mem_map.mp hx
  exact Numeric.onGrid_value l.costUsd

/-- What the rows `ls` add to the tenant's sum. -/
def billedRows (ls : List CostLedger) (tenantId : Uuid) (m : Date) : ℚ :=
  ((ls.filter fun r => r.tenantId == tenantId && r.billing == .billed &&
    r.billingDate.truncMonth == m).map (·.costUsd.value)).sum

theorem billedIn_append {db db' : Db} {ls : List CostLedger} (h : db'.costLedger = db.costLedger ++ ls)
    (tenantId : Uuid) (m : Date) : billedIn db' tenantId m = billedIn db tenantId m + billedRows ls tenantId m := by
  unfold billedIn billedRows
  rw [h, List.filter_append, List.map_append, List.sum_append]

theorem billedRows_other {a : Call} {db : Db} {bs : List Bill} {ls : List CostLedger} (h : Billed a db bs ls)
    {tenantId : Uuid} (ht : a.ctx.tenantId ≠ tenantId) (m : Date) : billedRows ls tenantId m = 0 := by
  unfold billedRows
  have hnone : ls.filter (fun r => r.tenantId == tenantId && r.billing == .billed &&
      r.billingDate.truncMonth == m) = [] := by
    rw [List.filter_eq_nil_iff]
    intro l hl hmatch
    simp only [Bool.and_eq_true, beq_iff_eq] at hmatch
    exact ht ((h.mem hl).1.symm.trans hmatch.1.1)
  rw [hnone]
  rfl

theorem Ending.ledger {a : Call} {db : Db} {n : ℕ} {issued : List Cmd} {ws : List Write} {v : Value}
    (h : Ending a db n issued ws v) :
    (ladder.view db ws).costLedger = db.costLedger ∨ ∃ r ls, a.action = .execute r ∧
      budgetAsserted issued ∧ Billed a db r.bills ls ∧ (ladder.view db ws).costLedger = db.costLedger ++ ls := by
  cases h with
  | quoted => exact Or.inl rfl
  | replayed => exact Or.inl rfl
  | @executed _ r id result ls row card hopened hl hr =>
    rw [view_executed hr.id_eq hopened.unique]
    exact Or.inr ⟨r, ls, hopened.action, hopened.asserted, hl, rfl⟩

/-! ## Calls that bill themselves -/

/-- `dispatch` writes one ledger row: billed, today, the re-priced cost. -/
def BillsItself (r : ExecuteRequest) : Prop :=
  ∃ b, r.bills = [b] ∧ b.billing = .billed ∧ b.billingDate = none ∧
    Numeric.store? 12 4 b.costUsd = Numeric.store? 12 4 r.repriceCostUsd

def Call.month (a : Call) : Date := a.startedAt.date.truncMonth

theorem billedRows_self {a : Call} {r : ExecuteRequest} {db : Db} {ls : List CostLedger} (hb : BillsItself r)
    (h : Billed a db r.bills ls) (m : Date) :
    (a.month ≠ m ∧ billedRows ls a.ctx.tenantId m = 0) ∨
      (a.month = m ∧ ∃ cost, Numeric.store? 12 4 r.repriceCostUsd = some cost ∧
        billedRows ls a.ctx.tenantId m = cost.value) := by
  obtain ⟨b, hbills, hbilled, hdate, hcost⟩ := hb
  have hrows := h.rows
  rw [hbills] at hrows
  cases hrows with
  | cons hrow hnil =>
    cases hnil
    obtain ⟨id, unitCostUsd, costUsd, -, hc, rfl⟩ := hrow
    by_cases hm : a.month = m
    · refine Or.inr ⟨hm, costUsd, hcost ▸ hc, ?_⟩
      unfold Call.month at hm
      simp [billedRows, Bill.row, hbilled, hdate, hm]
    · refine Or.inl ⟨hm, ?_⟩
      unfold Call.month at hm
      simp [billedRows, Bill.row, hbilled, hdate, hm]

/-! ## One gate at a time -/

/-- The call of the slot has passed its gate and has not ended. -/
def PastGate (tenantId : Uuid) : LadderSlot → Prop
  | .running tx => tx.call.ctx.tenantId = tenantId ∧ tx.failed = false ∧ budgetAsserted tx.issued
  | _ => False

/-- Every execution of the tenant bills itself. -/
def SelfBilling (tenantId : Uuid) : LadderLabel → Prop
  | .begin a => a.ctx.tenantId = tenantId → ∀ r, a.action = .execute r → BillsItself r
  | _ => True

def asksAtGate (tenantId : Uuid) : LadderSlot → Bool
  | .running ⟨call, .call (.sql (.assertBudget _ _)) _, _, _, _⟩ => call.ctx.tenantId == tenantId
  | _ => false

/-- A call of the tenant asks at the gate only when no other one is between its gate and its end. -/
def GateAlone (tenantId : Uuid) (w : LadderWorld) : LadderLabel → Prop
  | .exec i _ => ∀ s ∈ w.slots[i]?, asksAtGate tenantId s = true →
      ∀ p ∈ w.slots.zipIdx, p.2 ≠ i → ¬ PastGate tenantId p.1
  | _ => True

def Cmd.asksBudget : Cmd → Bool
  | .sql (.assertBudget _ _) => true
  | _ => false

instance (issued : List Cmd) : Decidable (budgetAsserted issued) :=
  decidable_of_iff (∃ c ∈ issued, c.asksBudget = true) <| by
    constructor
    · rintro ⟨c, hc, h⟩
      unfold Cmd.asksBudget at h
      split at h
      · exact ⟨_, _, hc⟩
      · simp at h
    · rintro ⟨projected, balance, h⟩
      exact ⟨_, h, rfl⟩

instance (tenantId : Uuid) : DecidablePred (PastGate tenantId)
  | .running _ => inferInstanceAs (Decidable (_ ∧ _ ∧ _))
  | .committed .. => isFalse id
  | .rolledBack .. => isFalse id

instance (tenantId : Uuid) (w : LadderWorld) : ∀ l, Decidable (GateAlone tenantId w l)
  | .exec _ _ => inferInstanceAs (Decidable (∀ s ∈ (_ : Option LadderSlot), _))
  | .begin _ => isTrue trivial
  | .lose _ => isTrue trivial
  | .finish _ => isTrue trivial

structure WithinCap (b : CostBudget) (db : Db) : Prop where
  budget : b ∈ db.costBudget
  unique : uniqueOk .costBudget db.costBudget
  spent : billedIn db b.tenantId b.periodMonth ≤ b.monthlyCapUsd.value

/-- What has passed the gate still fits under the cap. -/
def Fits (b : CostBudget) (db : Db) : LadderSlot → Prop
  | .running tx => tx.call.ctx.tenantId = b.tenantId → ∀ r, tx.call.action = .execute r → BillsItself r ∧
      (tx.failed = false → budgetAsserted tx.issued → tx.call.month = b.periodMonth →
        billedIn db b.tenantId b.periodMonth + r.repriceCostUsd ≤ b.monthlyCapUsd.value)
  | _ => True

theorem budgetAsserted_append {issued : List Cmd} {c : Cmd} (h : budgetAsserted (issued ++ [c])) :
    budgetAsserted issued ∨ ∃ projected balance, c = .sql (.assertBudget projected balance) := by
  obtain ⟨projected, balance, hm⟩ := h
  rcases List.mem_append.mp hm with hm | hm
  · exact Or.inl ⟨projected, balance, hm⟩
  · exact Or.inr ⟨projected, balance, (List.mem_singleton.mp hm).symm⟩

theorem Standing.asserting {good : ExecuteRequest → PyVal → Prop} {a : Call} {db : Db} {n : ℕ} {issued : List Cmd}
    {p : Ladder Value} {ws : List Write} {projected : ℚ} {balance : Option ℚ}
    {k : Reply (.sql (.assertBudget projected balance)) → Ladder Value}
    (h : Standing good a db n issued p ws) (hp : p = .call (.sql (.assertBudget projected balance)) k) :
    ws = [] ∧ ∃ r, a.action = .execute r ∧ projected = r.repriceCostUsd := by
  cases h with
  | begun => cases ha : a.action <;> rw [ha] at hp <;> cases hp
  | gated => obtain ⟨_, _, -, hk⟩ := gated_prog hp; cases hk
  | @priced _ r h => cases hp; exact ⟨rfl, r, h.action, rfl⟩
  | @dispatched _ _ _ _ _ rest =>
    cases rest with
    | nil => obtain ⟨_, -, hk⟩ := dispatched_prog hp; cases hk
    | cons => cases hp
  | _ => cases hp

theorem eq_of_period {b b' : CostBudget} {budgets : List CostBudget} (hu : uniqueOk .costBudget budgets)
    (hb : b ∈ budgets) (hb' : b' ∈ budgets) (ht : b'.tenantId = b.tenantId)
    (hm : b'.periodMonth = b.periodMonth) : b' = b := by
  have hkey : ∀ x y : CostBudget, (x.tenantId, x.periodMonth) = (y.tenantId, y.periodMonth) →
      clash .costBudget x y = true := by
    intro x y h
    obtain ⟨hxt, hxm⟩ := Prod.mk.inj h
    simp [clash, hxt, hxm]
  exact eq_of_uniqueOk hu hkey hb' hb (Prod.ext ht hm)

theorem gate_fits {b : CostBudget} {db : Db} (hb : b ∈ db.costBudget)
    (hu : uniqueOk .costBudget db.costBudget) {a : Call} {cost : ℚ} {balance : Option ℚ}
    (ht : a.ctx.tenantId = b.tenantId) (hm : a.month = b.periodMonth)
    (hpass : assertBudget ⟨a.session, db⟩ cost balance = .ok ()) :
    cost ≤ b.perRunCapUsd.value ∧ (b.hardStop = true →
      billedIn db b.tenantId b.periodMonth + cost ≤ b.monthlyCapUsd.value) := by
  obtain ⟨b', hb', hrun, hcap⟩ := assertBudget_ok hpass
  obtain ⟨hmem, htenant, hmonth⟩ := mem_currentBudget.mp (List.mem_of_head? hb')
  obtain rfl : b' = b := eq_of_period hu hb hmem (htenant.trans ht) (hmonth.trans hm)
  refine ⟨hrun, fun hstop => ?_⟩
  have hle := hcap hstop
  have hday : (a.startedAt.date.truncMonth).day = 1 := rfl
  change monthSpend ⟨tenantContext a.ctx a.startedAt, db⟩ a.startedAt.date.truncMonth + cost ≤ _ at hle
  rw [monthSpend_eq hday, ht] at hle
  rw [← hm]
  exact hle

theorem commit_spent {b : CostBudget} {tx : LadderTx} {db : Db} {n : ℕ} {v : Value}
    (hfit : Fits b db (.running tx)) (hf : tx.failed = false)
    (hend : Ending tx.call db n tx.issued tx.writes v) :
    billedIn (ladder.view db tx.writes) b.tenantId b.periodMonth = billedIn db b.tenantId b.periodMonth ∨
      PastGate b.tenantId (.running tx) ∧
        billedIn (ladder.view db tx.writes) b.tenantId b.periodMonth ≤ b.monthlyCapUsd.value := by
  rcases hend.ledger with hsame | ⟨r, ls, ha, hasserted, hbilled, hledger⟩
  · unfold billedIn
    rw [hsame]
    exact Or.inl rfl
  · have hsum := billedIn_append hledger b.tenantId b.periodMonth
    by_cases ht : tx.call.ctx.tenantId = b.tenantId
    · obtain ⟨hself, hgate⟩ := hfit ht r ha
      rcases billedRows_self hself hbilled b.periodMonth with ⟨-, hrows⟩ | ⟨hm, cost, hcost, hrows⟩
      · rw [ht] at hrows
        rw [hsum, hrows, add_zero]
        exact Or.inl rfl
      · rw [ht] at hrows
        refine Or.inr ⟨⟨ht, hf, hasserted⟩, ?_⟩
        -- The sum and the cap are on the grid of the column, so rounding does not cross the cap.
        have hgrid : Numeric.OnGrid 4 (b.monthlyCapUsd.value - billedIn db b.tenantId b.periodMonth) :=
          (Numeric.OnGrid.mono (by omega) (Numeric.onGrid_value b.monthlyCapUsd)).sub (onGrid_billedIn _ _ _)
        have hle := Numeric.value_le_of_le hcost hgrid (by linarith [hgate hf hasserted hm])
        rw [hsum, hrows]
        linarith
    · rw [hsum, billedRows_other hbilled ht, add_zero]
      exact Or.inl rfl

section Moves

variable {b : CostBudget} {db : Db} {tx : LadderTx} {c : Cmd} {k : Reply c → Ladder Value}
  {ans : Answer Write (Reply c)}

theorem running_of_answered (h : (tx.answer c k ans).failed = false)
    (hc : ¬ ∃ projected balance, c = .sql (.assertBudget projected balance))
    (hasserted : budgetAsserted (tx.answer c k ans).issued) :
    tx.failed = false ∧ budgetAsserted tx.issued := by
  unfold Tx.answer at h hasserted
  rw [Bool.or_eq_false_iff] at h
  exact ⟨h.1, (budgetAsserted_append hasserted).resolve_right hc⟩

theorem PastGate.of_answered {tenantId : Uuid} (h : PastGate tenantId (.running (tx.answer c k ans)))
    (hc : ¬ ∃ projected balance, c = .sql (.assertBudget projected balance)) :
    PastGate tenantId (.running tx) := by
  obtain ⟨ht, hf, hasserted⟩ := h
  exact ⟨ht, running_of_answered hf hc hasserted⟩

theorem Fits.answered (h : Fits b db (.running tx))
    (hc : ¬ ∃ projected balance, c = .sql (.assertBudget projected balance)) :
    Fits b db (.running (tx.answer c k ans)) := by
  intro ht r ha
  obtain ⟨hself, hgate⟩ := h ht r ha
  refine ⟨hself, fun hf hasserted hm => ?_⟩
  obtain ⟨hf, hasserted⟩ := running_of_answered hf hc hasserted
  exact hgate hf hasserted hm

theorem answer_failed (hfails : ans.fails = true) : (tx.answer c k ans).failed = true := by
  unfold Tx.answer
  rw [hfails, Bool.or_true]

theorem Fits.failed (h : Fits b db (.running tx)) (hfails : ans.fails = true) :
    Fits b db (.running (tx.answer c k ans)) := by
  intro ht r ha
  refine ⟨(h ht r ha).1, fun hf => ?_⟩
  rw [answer_failed hfails] at hf
  simp at hf

theorem not_pastGate_failed {tenantId : Uuid} (hfails : ans.fails = true) :
    ¬ PastGate tenantId (.running (tx.answer c k ans)) := by
  rintro ⟨-, hf, -⟩
  rw [answer_failed hfails] at hf
  simp at hf

theorem Fits.asked {good : ExecuteRequest → PyVal → Prop} {n : ℕ} {projected : ℚ} {balance : Option ℚ}
    {k : Reply (.sql (.assertBudget projected balance)) → Ladder Value} {e : Env} (hstop : b.hardStop = true)
    (hdb : WithinCap b db) (h : Fits b db (.running tx)) (hf : tx.failed = false)
    (hst : Standing good tx.call db n tx.issued (.call (.sql (.assertBudget projected balance)) k) tx.writes) :
    Fits b db (.running (tx.answer _ k (exec tx.call e tx.failed (ladder.view db tx.writes)
      (.sql (.assertBudget projected balance))))) := by
  obtain ⟨hws, r, ha, rfl⟩ := hst.asserting rfl
  rw [hf]
  rcases exec_sql_cases tx.call e (ladder.view db tx.writes) (.assertBudget r.repriceCostUsd balance) with
    ⟨_, ws, hr, -⟩ | ⟨x, he⟩
  · intro ht r' ha'
    refine ⟨(h ht r' ha').1, fun _ _ hm => ?_⟩
    obtain rfl : r = r' := Action.execute.inj (ha.symm.trans ha')
    obtain ⟨-, hpass⟩ := runSql_assertBudget hr
    rw [hws] at hpass
    exact (gate_fits hdb.budget hdb.unique ht hm hpass).2 hstop
  · rw [he]
    exact h.failed rfl

theorem WithinCap.commit (h : WithinCap b db) {n : ℕ} {v : Value} (hfit : Fits b db (.running tx))
    (hf : tx.failed = false) (hend : Ending tx.call db n tx.issued tx.writes v) :
    WithinCap b (ladder.view db tx.writes) := by
  obtain ⟨hb, hu, hspent⟩ := h
  rw [← hend.commit.budgets] at hb hu
  refine ⟨hb, hu, ?_⟩
  rcases commit_spent hfit hf hend with hsame | ⟨-, hle⟩
  · rw [hsame]
    exact hspent
  · exact hle

/-- A commit adds to the sum only while nobody else is past the gate. -/
theorem Fits.commit {n : ℕ} {v : Value} {t : LadderSlot} (h : Fits b db t) (hfit : Fits b db (.running tx))
    (hf : tx.failed = false) (hend : Ending tx.call db n tx.issued tx.writes v)
    (hpair : ¬ (PastGate b.tenantId (.running tx) ∧ PastGate b.tenantId t)) :
    Fits b (ladder.view db tx.writes) t := by
  cases t with
  | running u =>
    intro ht r ha
    refine ⟨(h ht r ha).1, fun hfu hasserted hm => ?_⟩
    rcases commit_spent hfit hf hend with hsame | ⟨hpast, -⟩
    · rw [hsame]
      exact (h ht r ha).2 hfu hasserted hm
    · exact absurd ⟨hpast, ht, hfu, hasserted⟩ hpair
  | committed => trivial
  | rolledBack => trivial

end Moves

theorem cap_cooperates {b : CostBudget} (hstop : b.hardStop = true) :
    ladder.Cooperates (WithinCap b) (fun db _ s => Fits b db s)
      (fun s t => ¬ (PastGate b.tenantId s ∧ PastGate b.tenantId t))
      fun w l => (SelfBilling b.tenantId l ∧ GateAlone b.tenantId w l) ∧ LadderHolds w where
  begins w a _ hl := by
    have hno : ¬ budgetAsserted [] := by
      rintro ⟨projected, balance, hm⟩
      simp at hm
    refine ⟨fun ht r hr => ⟨hl.1.1 ht r hr, fun _ hasserted => absurd hasserted hno⟩, ?_⟩
    exact fun j t _ => ⟨fun h => hno h.1.2.2, fun h => hno h.2.2.2⟩
  moves w l i s s' db' acted h hl hi hm := by
    have hslot := hl.2.slot i s hi
    have hfit := h.slot i s hi
    have hpair (j : ℕ) (t : LadderSlot) (hj : j ≠ i) (ht : w.slots[j]? = some t) :=
      h.pair i j s t hj.symm hi ht
    cases hm with
    | @exec e tx c k hp hw =>
      obtain ⟨hf, hst⟩ := standing_of_call hslot hp
      by_cases hc : ∃ projected balance, c = .sql (.assertBudget projected balance)
      · obtain ⟨projected, balance, rfl⟩ := hc
        have halone (j : ℕ) (t : LadderSlot) (hj : j ≠ i) (hjt : w.slots[j]? = some t)
            (ht : tx.call.ctx.tenantId = b.tenantId) : ¬ PastGate b.tenantId t := by
          have hat : asksAtGate b.tenantId (.running tx) = true := by
            obtain ⟨call, prog, ws, failed, issued⟩ := tx
            subst hp
            simpa [asksAtGate] using ht
          exact hl.1.2 _ hi hat (t, j) (List.mem_zipIdx_iff_getElem?.mpr hjt) hj
        refine ⟨h.db, hfit.asked hstop h.db hf hst, fun j t hj hjt => ⟨h.slot j t hjt, ?_, ?_⟩⟩
        · exact fun hb => halone j t hj hjt hb.1.1 hb.2
        · exact fun hb => halone j t hj hjt hb.2.1 hb.1
      · refine ⟨h.db, hfit.answered hc, fun j t hj hjt => ⟨h.slot j t hjt, ?_, ?_⟩⟩
        · exact fun hb => hpair j t hj hjt ⟨hb.1.of_answered hc, hb.2⟩
        · exact fun hb => hpair j t hj hjt ⟨hb.2.of_answered hc, hb.1⟩
    | lose =>
      refine ⟨h.db, hfit.failed rfl, fun j t hj hjt => ⟨h.slot j t hjt, ?_, ?_⟩⟩
      · exact fun hb => not_pastGate_failed rfl hb.1
      · exact fun hb => not_pastGate_failed rfl hb.2
    | commit hp hf =>
      have hend := (ending_of_ret hslot hp).2
      refine ⟨h.db.commit hfit hf hend, trivial, fun j t hj hjt => ⟨?_, fun hb => hb.1, fun hb => hb.2⟩⟩
      exact (h.slot j t hjt).commit hfit hf hend (hpair j t hj hjt)
    | abandon => exact ⟨h.db, trivial, fun j t _ hjt => ⟨h.slot j t hjt, fun hb => hb.1, fun hb => hb.2⟩⟩
    | rollback => exact ⟨h.db, trivial, fun j t _ hjt => ⟨h.slot j t hjt, fun hb => hb.1, fun hb => hb.2⟩⟩

theorem billedIn_within_cap {db : Db} (hk : Keyed db) {b : CostBudget} (h : WithinCap b db)
    (hstop : b.hardStop = true) {ls : List LadderLabel} {w : LadderWorld}
    (hbill : ∀ l ∈ ls, SelfBilling b.tenantId l)
    (halone : ladder.RunsUnder (GateAlone b.tenantId) { db } ls) (hrun : ladder.run { db } ls = some w) :
    billedIn w.db b.tenantId b.periodMonth ≤ b.monthlyCapUsd.value := by
  have hok := (ladder.runsUnder_of_labels hbill).and halone
  have hM : ladder.Cooperates Keyed (SlotOk fun _ _ => True) Apart
      fun w l => SelfBilling b.tenantId l ∧ GateAlone b.tenantId w l :=
    ladder_cooperates fun w l _ i e tx k _ _ _ v _ => fun _ _ => trivial
  have hstart : World.Holds (WithinCap b) (fun db _ s => Fits b db s)
      (fun s t => ¬ (PastGate b.tenantId s ∧ PastGate b.tenantId t)) ({ db } : LadderWorld) :=
    World.holds_start h
  exact ((cap_cooperates hstop).run hstart (hM.runsUnder (World.holds_start hk) hok) hrun).db.spent

/-- **The monthly cap holds** in every run in which no call of the tenant asks at the gate while another
one is past it: `cost.month_spend()` stays under the cap of the month. -/
theorem monthly_cap_holds {db : Db} (hk : Keyed db) {b : CostBudget} (hb : b ∈ db.costBudget)
    (hu : uniqueOk .costBudget db.costBudget) (hstop : b.hardStop = true) {ctx : RequestContext}
    {now : Timestamp} (ht : b.tenantId = ctx.tenantId) (hm : b.periodMonth = now.date.truncMonth)
    (h0 : monthSpend ⟨tenantContext ctx now, db⟩ now.date.truncMonth ≤ b.monthlyCapUsd.value)
    {ls : List LadderLabel} {w : LadderWorld} (hbill : ∀ l ∈ ls, SelfBilling b.tenantId l)
    (halone : ladder.RunsUnder (GateAlone b.tenantId) { db } ls) (hrun : ladder.run { db } ls = some w) :
    monthSpend ⟨tenantContext ctx now, w.db⟩ now.date.truncMonth ≤ b.monthlyCapUsd.value := by
  have hday : now.date.truncMonth.day = 1 := rfl
  rw [monthSpend_eq hday, ← ht, ← hm] at h0 ⊢
  exact billedIn_within_cap hk ⟨hb, hu, h0⟩ hstop hbill halone hrun

/-- `dispatch` bills the 60 of the purchase. -/
def sixty : List Bill := [{ units := 1, unitCostUsd := 60, costUsd := 60, billing := .billed }]

/-- The second purchase looks up its preview before the first one ends, and asks at the gate after. -/
def takeTurns : List LadderLabel :=
  [.begin (purchase "a" sixty), .begin (purchase "b" sixty)] ++ List.replicate 3 (.exec 1 (queued 31 2)) ++
    List.replicate 9 (.exec 0 (queued 30 1)) ++ [.finish 0, .exec 1 (queued 31 2), .finish 1]

/-- The budget of the clinic bounds what it spends in September. -/
theorem monthly_cap_holds_shop :
    monthSpend ⟨tenantContext clinicUser noon,
      ((ladder.run { db := shop } takeTurns).get (by decide +kernel)).db⟩ noon.date.truncMonth ≤
        clinicBudget.monthlyCapUsd.value := by
  have hself (key : String) : SelfBilling 1 (.begin (purchase key sixty) : LadderLabel) := by
    intro _ r hr
    cases hr
    exact ⟨_, rfl, rfl, rfl, rfl⟩
  have hbill : ∀ l ∈ takeTurns, SelfBilling clinicBudget.tenantId l := by
    intro l hl
    simp only [takeTurns, List.mem_append, List.mem_replicate, List.mem_cons, List.not_mem_nil,
      or_false] at hl
    rcases hl with (((rfl | rfl) | ⟨-, rfl⟩) | ⟨-, rfl⟩) | (rfl | rfl | rfl)
    all_goals first | exact hself _ | trivial
  have halone : ladder.RunsUnder (GateAlone clinicBudget.tenantId) { db := shop } takeTurns := by
    decide +kernel
  exact monthly_cap_holds ⟨by decide +kernel, by decide +kernel⟩ List.mem_cons_self (by decide +kernel)
    rfl rfl rfl (by decide +kernel) hbill halone (Option.some_get _).symm

/-- Both purchases ask before either has committed. -/
def overlap : List LadderLabel :=
  [.begin (purchase "a" sixty), .begin (purchase "b" sixty)] ++ List.replicate 4 (.exec 0 (queued 30 1)) ++
    List.replicate 4 (.exec 1 (queued 31 2)) ++ List.replicate 5 (.exec 0 (queued 30 1)) ++ [.finish 0] ++
    List.replicate 5 (.exec 1 (queued 31 2)) ++ [.finish 1]

theorem overlap_exceeds_cap :
    ((ladder.run { db := shop } overlap).map fun w =>
      decide (clinicBudget.monthlyCapUsd.value <
        monthSpend ⟨tenantContext clinicUser noon, w.db⟩ noon.date.truncMonth)) = some true := by decide +kernel

end BaptistApi
