import BaptistApi.Attempts
import BaptistApi.Lib.History
import BaptistApi.MonthlyCap
import BaptistApi.Replay

/-!
# Recorded costs and the caps

The gate compares the cost as it was re-priced, the approval records it rounded to four decimals.
-/

namespace BaptistApi

open BaptistApi.Calendar BaptistApi.FixedPoint BaptistApi.Program BaptistApi.Transactions

/-! ## What a gate saw -/

def Occurrence.look (w : LadderWorld) : Occurrence → Option (Look Db Cmd)
  | .call l => ladder.look w l
  | _ => none

/-- The states in which `cost.assert_budget` ran for slot `i`. -/
def gateLooks (h : List (Look Db Cmd)) (i : ℕ) : List Db := looksOf Cmd.asksBudget h i

def Passed (a : Call) (looks : List Db) : Prop :=
  ∀ seen ∈ looks, ∀ r, a.action = .execute r →
    ∃ balance, assertBudget ⟨a.session, seen⟩ r.repriceCostUsd balance = .ok ()

def ToldBy (looks : List Db) : LadderSlot → Prop
  | .running tx => tx.failed = false → Passed tx.call looks ∧ (budgetAsserted tx.issued → looks ≠ [])
  | .committed a ws _ => Passed a looks ∧ ((held ws).approval ≠ [] → looks ≠ [])
  | .rolledBack _ _ => True

/-- The record has the gate of each call that is past it. -/
structure Told (w : LadderWorld) (h : List (Look Db Cmd)) : Prop where
  holds : CallsHold w
  begun : ∀ x ∈ h, x.slot < w.slots.length
  slot : ∀ (i : ℕ) s, w.slots[i]? = some s → ToldBy (gateLooks h i) s

theorem asksBudget_iff {c : Cmd} :
    c.asksBudget = true ↔ ∃ projected balance, c = .sql (.assertBudget projected balance) := by
  unfold Cmd.asksBudget
  split
  · simp
  · rename_i h
    simp only [Bool.false_eq_true, false_iff]
    rintro ⟨projected, balance, rfl⟩
    exact h projected balance rfl

theorem Passed.append {a : Call} {looks looks' : List Db} (h : Passed a looks) (h' : Passed a looks') :
    Passed a (looks ++ looks') := by
  intro seen hseen
  rcases List.mem_append.mp hseen with hseen | hseen
  · exact h seen hseen
  · exact h' seen hseen

section Steps

variable {w w' : LadderWorld} {h : List (Look Db Cmd)}

theorem Told.begin (hw : Told w h) {a : Call} (hw' : CallsHold w')
    (hslots : w'.slots = w.slots ++ [.running { call := a, prog := ladder.prog a }]) : Told w' h := by
  refine ⟨hw', fun x hx => ?_, fun i s hi => ?_⟩
  · rw [hslots, List.length_append]
    have hlt := hw.begun x hx
    omega
  · rw [hslots] at hi
    rcases slot_of_push hi with hi | ⟨rfl, rfl⟩
    · exact hw.slot i s hi
    · have hnone : gateLooks h w.slots.length = [] := looksOf_nothing fun x hx => (hw.begun x hx).ne
      rw [hnone]
      refine fun _ => ⟨fun _ hseen => (nomatch hseen), ?_⟩
      rintro ⟨projected, balance, hm⟩
      cases hm

theorem Told.set (hw : Told w h) {i : ℕ} {s s' : LadderSlot} {new : List (Look Db Cmd)}
    (hw' : CallsHold w') (hi : w.slots[i]? = some s) (hslots : w'.slots = w.slots.set i s')
    (hnew : ∀ x ∈ new, x.slot = i) (hs : ToldBy (gateLooks h i ++ gateLooks new i) s') : Told w' (h ++ new) := by
  refine ⟨hw', fun x hx => ?_, fun j t hj => ?_⟩
  · rw [hslots, List.length_set]
    rcases List.mem_append.mp hx with hx | hx
    · exact hw.begun x hx
    · rw [hnew x hx]
      exact (List.getElem?_eq_some_iff.mp hi).1
  · rw [hslots] at hj
    unfold gateLooks
    rw [looksOf_append]
    rcases slot_of_set hj with ⟨rfl, rfl⟩ | ⟨hji, hj⟩
    · exact hs
    · have hnone : looksOf Cmd.asksBudget new j = [] :=
        looksOf_nothing fun x hx hj => hji (hj.symm.trans (hnew x hx))
      rw [hnone, List.append_nil]
      exact hw.slot j t hj

theorem ToldBy.answered {looks : List Db} {db : Db} {n : ℕ} {tx : LadderTx} {c : Cmd}
    {k : Reply c → Ladder Value} {e : Env} (hs : Stands db n (.running tx))
    (hp : tx.prog = .call c k) (ht : ToldBy looks (.running tx)) (i : ℕ) :
    ToldBy (looks ++ gateLooks [{ slot := i, command := c, seen := ladder.view db tx.writes }] i)
      (.running (tx.answer c k (exec tx.call e tx.failed (ladder.view db tx.writes) c))) := by
  intro hf
  obtain ⟨g, -, hslot⟩ := hs
  obtain ⟨hfailed, hst⟩ := standing_of_call hslot hp
  obtain ⟨hpassed, hasked⟩ := ht hfailed
  by_cases hc : c.asksBudget = true
  · obtain ⟨projected, balance, rfl⟩ := asksBudget_iff.mp hc
    unfold gateLooks
    rw [looksOf_self hc]
    refine ⟨hpassed.append fun seen hseen r hr => ?_, fun _ => by simp⟩
    rw [List.mem_singleton.mp hseen]
    obtain ⟨-, r', hr', rfl⟩ := hst.asserting rfl
    obtain rfl : r' = r := Action.execute.inj (hr'.symm.trans hr)
    rw [hfailed] at hf
    rcases exec_sql_cases tx.call e (ladder.view db tx.writes) (.assertBudget r'.repriceCostUsd balance) with
      ⟨_, ws, hrun, -⟩ | ⟨x, he⟩
    · exact ⟨balance, (runSql_assertBudget hrun).2⟩
    · rw [he, answer_failed rfl] at hf
      cases hf
  · unfold gateLooks
    rw [looksOf_skip i (by simpa using hc), List.append_nil]
    refine ⟨hpassed, fun hissued => hasked ?_⟩
    exact (budgetAsserted_append hissued).resolve_right fun h => hc (asksBudget_iff.mpr h)

theorem ToldBy.committed {looks : List Db} {db : Db} {n : ℕ} {tx : LadderTx} {v : Value}
    (hs : Stands db n (.running tx)) (hp : tx.prog = .ret v) (ht : ToldBy looks (.running tx)) :
    ToldBy looks (.committed tx.call tx.writes v) := by
  obtain ⟨hf, g, -, hend⟩ := hs.commits hp
  obtain ⟨hpassed, hasked⟩ := ht hf
  refine ⟨hpassed, fun happroval => hasked ?_⟩
  generalize tx.writes = ws at hend happroval
  cases hend with
  | quoted => exact absurd rfl happroval
  | replayed => exact absurd rfl happroval
  | executed hopened => exact hopened.asserted

theorem Told.step (hw : Told w h) {o : Occurrence} (hs : o.step w = some w') :
    Told w' (h ++ (o.look w).toList) := by
  have hw' := Occurrence.step_holds hw.holds hs
  have same (hslots : w'.slots = w.slots) : Told w' (h ++ []) := by
    rw [List.append_nil]
    exact ⟨hw', by rw [hslots]; exact hw.begun, by rw [hslots]; exact hw.slot⟩
  cases o with
  | budgets rows =>
    cases hs
    exact same rfl
  | ledger rows =>
    cases hs
    exact same rfl
  | call l =>
    cases ladder.step_cases hs with
    | begin a =>
      change Told _ (h ++ [])
      rw [List.append_nil]
      exact hw.begin hw' rfl
    | @move i _ s s' db' acted hi hm =>
      have hslot := hw.holds.slot i s hi
      have htold := hw.slot i s hi
      -- Only a command that is answered looks at the state.
      have silent (hl : ladder.look w l = none) (hs' : ToldBy (gateLooks h i) s') :
          Told { db := db', slots := w.slots.set i s'
                 effects := if acted then w.effects ++ [(i, s.call)] else w.effects }
            (h ++ (ladder.look w l).toList) := by
        rw [hl]
        exact hw.set hw' hi rfl (fun _ hx => by cases hx) (by simpa [gateLooks, looksOf] using hs')
      cases hm with
      | @exec e tx c k hp hwait =>
        have hlook : (Occurrence.call (.exec i e)).look w = _ := ladder.look_call e hi hp
        rw [hlook]
        exact hw.set hw' hi rfl (fun x hx => by rw [List.mem_singleton.mp hx]) (htold.answered hslot hp i)
      | lose =>
        refine silent rfl fun hf => ?_
        rw [answer_failed rfl] at hf
        cases hf
      | commit hp hf => exact silent rfl (htold.committed hslot hp)
      | abandon => exact silent rfl trivial
      | rollback => exact silent rfl trivial

end Steps

def gatesRead (db : Db) (os : List Occurrence) (i : ℕ) : List Db :=
  gateLooks (history Occurrence.step Occurrence.look { db } os) i

theorem occurrences_told {db : Db} (hk : Keyed db) {os : List Occurrence} {w : LadderWorld}
    (hrun : Occurrence.run { db } os = some w) : Told w (history Occurrence.step Occurrence.look { db } os) := by
  have hstart : Told { db } [] :=
    ⟨World.holds_start hk, fun _ hx => (nomatch hx), fun i s hi => by simp at hi⟩
  exact run_history _ _ (fun w h o w' hw hs => hw.step hs) hstart hrun

/-! ## The recorded cost -/

theorem onGrid_monthSpend (a : Call) (db : Db) :
    Numeric.OnGrid 4 (monthSpend ⟨a.session, db⟩ a.session.currentMonth) := by
  have hday : a.session.currentMonth.day = 1 := rfl
  have hsum := @monthSpend_eq a.ctx a.startedAt db _ hday
  change Numeric.OnGrid 4 (monthSpend ⟨tenantContext a.ctx a.startedAt, db⟩ a.session.currentMonth)
  rw [hsum]
  exact onGrid_billedIn _ _ _

/-- Rounding to the ledger's grid does not carry a cost past a cap that the gate compared it with. -/
theorem stored_within_caps {a : Call} {db : Db} {x : ℚ} {balance : Option ℚ} {cost : Numeric 12 4}
    (hpass : assertBudget ⟨a.session, db⟩ x balance = .ok ()) (hcost : Numeric.store? 12 4 x = some cost) :
    ∃ b, (currentBudget ⟨a.session, db⟩).head? = some b ∧ cost.value ≤ b.perRunCapUsd.value ∧
      (b.hardStop = true →
        monthSpend ⟨a.session, db⟩ a.session.currentMonth + cost.value ≤ b.monthlyCapUsd.value) := by
  obtain ⟨b, hb, hrun, hmonth⟩ := assertBudget_ok hpass
  have hcap (cap : Numeric 12 2) : Numeric.OnGrid 4 cap.value := .mono (by omega) (Numeric.onGrid_value cap)
  refine ⟨b, hb, Numeric.value_le_of_le hcost (hcap _) hrun, fun hstop => ?_⟩
  -- What is left under the monthly cap is on the grid too.
  have hle := Numeric.value_le_of_le hcost ((hcap b.monthlyCapUsd).sub (onGrid_monthSpend a db))
    (by linarith [hmonth hstop])
  linarith

theorem Ending.recorded {a : Call} {db : Db} {n : ℕ} {issued : List Cmd} {ws : List Write} {v : Value}
    (h : Ending a db n issued ws v) {r : ExecuteRequest} (ha : a.action = .execute r) {row : Approval}
    (hrow : row ∈ (held ws).approval) :
    ∃ cost, row.actualCostUsd = some cost ∧ Numeric.store? 12 4 r.repriceCostUsd = some cost := by
  cases h with
  | quoted => cases hrow
  | replayed => cases hrow
  | @executed _ r' id result ls row' card hopened hl hr =>
    obtain rfl : r' = r := Action.execute.inj (hopened.action.symm.trans ha)
    rw [held_executed hr.id_eq, List.mem_singleton] at hrow
    obtain ⟨cost, result, hcost, hclosed⟩ := hr
    exact ⟨cost, by rw [hrow, hclosed]; rfl, hcost⟩

/-- The approval of an execution records its re-priced cost, and that is within the caps of the budget
that its gate read. -/
structure RecordedWithinCaps (a : Call) (r : ExecuteRequest) (row : Approval) (looks : List Db) : Prop where
  asked : looks ≠ []
  recorded : ∃ cost, row.actualCostUsd = some cost ∧ Numeric.store? 12 4 r.repriceCostUsd = some cost ∧
    ∀ seen ∈ looks, ∃ b, (currentBudget ⟨a.session, seen⟩).head? = some b ∧ cost.value ≤ b.perRunCapUsd.value ∧
      (b.hardStop = true →
        monthSpend ⟨a.session, seen⟩ a.session.currentMonth + cost.value ≤ b.monthlyCapUsd.value)

/-- **Recorded costs respect the caps**, whatever the precision of the re-priced cost is, and whatever
happens to the budgets and the ledger before and after the gate. -/
theorem recorded_cost_within_caps {db : Db} (hk : Keyed db) {os : List Occurrence} {w : LadderWorld}
    (hrun : Occurrence.run { db } os = some w) {i : ℕ} {a : Call} {ws : List Write} {v : Value}
    (hi : w.slots[i]? = some (.committed a ws v)) {r : ExecuteRequest} (ha : a.action = .execute r)
    {row : Approval} (hrow : row ∈ (held ws).approval) :
    row ∈ w.db.approval ∧ RecordedWithinCaps a r row (gatesRead db os i) := by
  have htold := occurrences_told hk hrun
  obtain ⟨g, ⟨budgets, ledger, hdb⟩, hslot⟩ := htold.holds.slot i _ hi
  obtain ⟨hpassed, hasked⟩ := htold.slot i _ hi
  obtain ⟨past, issued, -, -, hend⟩ := hslot.ending
  obtain ⟨cost, hactual, hcost⟩ := hend.recorded ha hrow
  refine ⟨by rw [hdb]; exact hslot.approvals row hrow, hasked (List.ne_nil_of_mem hrow), cost, hactual, hcost, ?_⟩
  intro seen hseen
  obtain ⟨balance, hpass⟩ := hpassed seen hseen r ha
  exact stored_within_caps hpass hcost

/-- The price has a fifth decimal, and is recorded as 60.0001. -/
def fineRequest : ExecuteRequest := { shopRequest with repriceCostUsd := 60 + 5 / 100000 }

def finePurchase : Call := { ctx := clinicUser, startedAt := noon, action := .execute fineRequest }

theorem finePurchase_ready : Ready finePurchase fineRequest shop (queued 30 1) clinicPreview where
  action := rfl
  tenant := rfl
  keyed := ⟨by decide +kernel, by decide +kernel⟩
  preview := List.mem_cons_self
  names := ⟨rfl, rfl, rfl⟩
  valid := le_refl noon
  price := by decide +kernel
  budget := by decide +kernel
  fresh := by decide +kernel
  refs := by decide +kernel

theorem recorded_cost_within_caps_shop :
    ∃ os w row, Occurrence.run { db := shop } os = some w ∧ row ∈ w.db.approval ∧
      RecordedWithinCaps finePurchase fineRequest row (gatesRead shop os 0) := by
  obtain ⟨cost, hcost⟩ : ∃ cost, Numeric.store? 12 4 fineRequest.repriceCostUsd = some cost :=
    Option.isSome_iff_exists.mp (by decide +kernel)
  have hjson : (Json.obj [("queued", .bool true)]).jsonb = some (.obj [("queued", .bool true)]) := by
    have hkey : textStorable "queued" = true := by decide
    simp [Json.jsonb, Json.jsonbEntries, lastOfKey, hkey]
  have hsettles : Settles finePurchase fineRequest shop (queued 30 1) (.dict [(.str "queued", .bool true)])
      cost (.obj [("queued", .bool true)]) :=
    ⟨rfl, rfl, ⟨_, rfl, hjson⟩, hcost, by decide, List.mem_cons_self⟩
  obtain ⟨card, halone⟩ := execute_settles finePurchase_ready hsettles
  have hidle : World.Idle ({ db := shop } : LadderWorld) := fun i tx hi => by simp at hi
  obtain ⟨ls, w, -, hrun, -, -, hslots, -⟩ := ladder.run_alone hidle finePurchase fun _ => queued 30 1
  rw [halone] at hslots
  let row := executedRow noon cost (.obj [("queued", .bool true)]) (fineRequest.newApproval.row 30)
  have hslot : w.slots[0]? = some (.committed finePurchase (openWrites (fineRequest.newApproval.row 30) [] ++
      [.setApproval row] ++ [.insert .auditCard card]) (.approval (fineRequest.response 30 (.dict [(.str "queued", .bool true)])))) := by
    rw [hslots]
    rfl
  have hheld : row ∈ (held (openWrites (fineRequest.newApproval.row 30) [] ++ [.setApproval row] ++
      [.insert .auditCard card])).approval := by
    have hid : row.id = (fineRequest.newApproval.row 30).id := rfl
    rw [held_executed hid]
    exact List.mem_cons_self
  have hoccurs := (Occurrence.run_calls { db := shop } _).trans hrun
  obtain ⟨hrow, hcaps⟩ := recorded_cost_within_caps finePurchase_ready.keyed hoccurs hslot rfl hheld
  exact ⟨_, w, row, hoccurs, hrow, hcaps⟩

end BaptistApi
