import BaptistApi.LadderInvariant

/-!
# Concurrent executions agree

However the calls interleave, a key of a tenant has one approval, executed once and audited once,
and everybody who asked for it got that one.
-/

namespace BaptistApi

open BaptistApi.FixedPoint BaptistApi.Program BaptistApi.Transactions

def Approval.key (x : Approval) : Uuid × String := (x.tenantId, x.idempotencyKey)

/-- The tenant and the idempotency key of an `execute`. -/
def Call.key (a : Call) : Option (Uuid × String) :=
  match a.action with
  | .execute r => some (r.tenantId, r.idempotencyKey)
  | .createPreview _ => none

theorem Call.key_execute {a : Call} {r : ExecuteRequest} (h : a.action = .execute r) :
    a.key = some (r.tenantId, r.idempotencyKey) := by
  unfold Call.key
  rw [h]

theorem clash_of_key {x y : Approval} (h : x.key = y.key) : clash .approval x y = true := by
  obtain ⟨ht, hk⟩ := Prod.mk.inj h
  simp [clash, ht, hk]

theorem Keyed.eq_of_key {db : Db} (h : Keyed db) {x y : Approval} (hx : x ∈ db.approval)
    (hy : y ∈ db.approval) (hkey : x.key = y.key) : x = y :=
  eq_of_uniqueOk h.approvals (fun _ _ => clash_of_key) hx hy hkey

/-! ## Rows and cards -/

/-- The cards that say the approval was executed. -/
def executeCards (db : Db) (id : Uuid) : List AuditCard :=
  db.auditCard.filter fun c => c.verb == .execute && c.approvalId == some id

structure Coherent (db : Db) : Prop where
  executed : ∀ x ∈ db.approval, x.status = .executed ∧ x.executedAt ≠ none ∧ x.actualCostUsd ≠ none ∧
    x.result ≠ none
  audited : ∀ x ∈ db.approval, ∃ c, executeCards db x.id = [c] ∧ c.tenantId = x.tenantId
  referring : ∀ c ∈ db.auditCard, refersTo db.approvalIds c.approvalId

theorem executeCards_append {db : Db} {id : Uuid} {card : AuditCard} {cards : List AuditCard}
    (h : cards = db.auditCard ++ [card]) (hv : card.verb = .execute) {approval : List Approval}
    {ls : List CostLedger} :
    executeCards { db with approval := approval, costLedger := ls, auditCard := cards } id =
      executeCards db id ++ (if card.approvalId = some id then [card] else []) := by
  unfold executeCards
  simp only [h, List.filter_append, List.filter_cons, List.filter_nil, hv, beq_self_eq_true, Bool.true_and,
    beq_iff_eq]

theorem Opened.fresh {a : Call} {r : ExecuteRequest} {db : Db} {issued : List Cmd} {id : Uuid}
    (h : Opened a r db issued id) {x : Approval} (hx : x ∈ db.approval) : x.id ≠ id := by
  intro hid
  have hc := ((uniqueOk_append .approval).mp h.unique).2 x hx
  simp [clash, NewApproval.row, hid] at hc

theorem Coherent.executeCards_fresh {db : Db} (h : Coherent db) {id : Uuid} (hid : ∀ x ∈ db.approval, x.id ≠ id) :
    executeCards db id = [] := by
  unfold executeCards
  rw [List.filter_eq_nil_iff]
  intro c hc hmatch
  simp only [Bool.and_eq_true, beq_iff_eq] at hmatch
  obtain ⟨x, hx, hxid⟩ := List.mem_map.mp (h.referring c hc id hmatch.2)
  exact hid x hx hxid

theorem Coherent.executed_card {db : Db} (h : Coherent db) {row : Approval} {card : AuditCard}
    (hfree : ∀ x ∈ db.approval, x.id ≠ row.id) (hv : card.verb = .execute) (hcard : card.approvalId = some row.id)
    (ht : card.tenantId = row.tenantId) (hexecuted : row.status = .executed ∧ row.executedAt ≠ none ∧
      row.actualCostUsd ≠ none ∧ row.result ≠ none) (ls : List CostLedger) :
    Coherent { db with
      approval := db.approval ++ [row], costLedger := db.costLedger ++ ls
      auditCard := db.auditCard ++ [card] } := by
  refine ⟨fun x hx => ?_, fun x hx => ?_, fun c hc => ?_⟩
  · rcases List.mem_append.mp hx with hx | hx
    · exact h.executed x hx
    · rw [List.mem_singleton.mp hx]
      exact hexecuted
  · rw [executeCards_append rfl hv]
    rcases List.mem_append.mp hx with hx | hx
    · obtain ⟨c, hc, hct⟩ := h.audited x hx
      rw [hc, if_neg]
      · exact ⟨c, rfl, hct⟩
      · rw [hcard]
        exact fun heq => hfree x hx (Option.some.inj heq).symm
    · rw [List.mem_singleton.mp hx, h.executeCards_fresh hfree, if_pos hcard]
      exact ⟨card, rfl, ht⟩
  · intro i hi
    simp only [Db.approvalIds, List.map_append, List.mem_append]
    rcases List.mem_append.mp hc with hc | hc
    · exact Or.inl (h.referring c hc i hi)
    · rw [List.mem_singleton.mp hc, hcard, Option.mem_some_iff] at hi
      exact Or.inr (List.mem_singleton.mpr hi.symm)

theorem Coherent.commit {db : Db} {a : Call} {n : ℕ} {issued : List Cmd} {ws : List Write} {v : Value}
    (h : Coherent db) (hend : Ending a db n issued ws v) : Coherent (ladder.view db ws) := by
  cases hend with
  | quoted => exact ⟨h.executed, h.audited, h.referring⟩
  | replayed => exact h
  | @executed _ r id result ls row card hopened hl hr ht hv hcard hloc =>
    rw [view_executed hr.id_eq hopened.unique]
    obtain ⟨cost, result, -, rfl⟩ := hr
    refine h.executed_card (fun _ hx => hopened.fresh hx) hv hcard (ht.trans hopened.tenant.symm) ?_ ls
    exact ⟨rfl, Option.some_ne_none _, Option.some_ne_none _, Option.some_ne_none _⟩

/-! ## Calls and their rows -/

theorem Committed.rows {a : Call} {db : Db} {n : ℕ} {ws : List Write} {v : Value}
    (h : Committed a db n ws v) :
    n = 0 ∧ (held ws).approval = [] ∨
      n = 1 ∧ ∃ x ∈ db.approval, (held ws).approval = [x] ∧ a.key = some x.key := by
  obtain ⟨⟨past, issued, -, -, hend⟩, hrows, -⟩ := h
  cases hend with
  | quoted => exact Or.inl ⟨rfl, rfl⟩
  | replayed => exact Or.inl ⟨rfl, rfl⟩
  | @executed _ r id result ls row card hopened hl hr =>
    rw [held_executed hr.id_eq] at hrows ⊢
    refine Or.inr ⟨rfl, row, hrows row List.mem_cons_self, rfl, ?_⟩
    rw [Call.key_execute hopened.action]
    obtain ⟨cost, result, -, rfl⟩ := hr
    rfl

theorem Committed.response {a : Call} {db : Db} {n : ℕ} {ws : List Write} {resp : ApprovalResponse}
    (h : Committed a db n ws (.approval resp)) :
    ∃ x ∈ db.approval, x.id = resp.approvalId ∧ a.key = some x.key := by
  obtain ⟨⟨past, issued, hsub, -, hend⟩, hrows, -⟩ := h
  cases hend with
  | @replayed _ r row ha hrow ht hk =>
    refine ⟨row, hsub .approval row hrow, rfl, ?_⟩
    rw [Call.key_execute ha, Approval.key, ht, hk]
  | @executed _ r id result ls row card hopened hl hr =>
    rw [held_executed hr.id_eq] at hrows
    refine ⟨row, hrows row List.mem_cons_self, hr.id_eq, ?_⟩
    rw [Call.key_execute hopened.action]
    obtain ⟨cost, result, -, rfl⟩ := hr
    rfl

/-- Where the committed approvals come from. -/
structure Traced (db : Db) (w : LadderWorld) : Prop where
  kept : ∀ x ∈ db.approval, x ∈ w.db.approval
  origin : ∀ x ∈ w.db.approval, x ∈ db.approval ∨ ∃ (i : ℕ) (a : Call) (ws : List Write) (v : Value),
    w.slots[i]? = some (.committed a ws v) ∧ x ∈ (held ws).approval
  fresh : ∀ (i : ℕ) (a : Call) (ws : List Write) (v : Value), w.slots[i]? = some (.committed a ws v) →
    ∀ x ∈ (held ws).approval, ∀ y ∈ db.approval, clash .approval y x = false

theorem traced_step {db : Db} {w w' : LadderWorld} {l : LadderLabel} (hw : LadderHolds w)
    (h : Traced db w) (hs : ladder.step w l = some w') : Traced db w' := by
  obtain ⟨hdb, hslots⟩ | ⟨i, tx, v, hi, hp, -, rfl⟩ := ladder.step_commits hs
  · refine ⟨fun x hx => hdb ▸ h.kept x hx, fun x hx => ?_, fun i a ws v hi => ?_⟩
    · rcases h.origin x (hdb ▸ hx) with hx | ⟨i, a, ws, v, hi, hx⟩
      · exact Or.inl hx
      · exact Or.inr ⟨i, a, ws, v, (hslots i a ws v).mpr hi, hx⟩
    · exact h.fresh i a ws v ((hslots i a ws v).mp hi)
  · have hend := ending_of_commit hw hi hp
    have hg := hend.commit
    refine ⟨fun x hx => hg.sub .approval x (h.kept x hx), fun x hx => ?_, fun j a ws u hj => ?_⟩
    · rw [hg.approvals] at hx
      rcases List.mem_append.mp hx with hx | hx
      · rcases h.origin x hx with hx | ⟨j, a, ws, u, hj, hx⟩
        · exact Or.inl hx
        · have hne : i ≠ j := by
            rintro rfl
            simp [hi] at hj
          refine Or.inr ⟨j, a, ws, u, ?_, hx⟩
          rw [List.getElem?_set_ne hne]
          exact hj
      · exact Or.inr ⟨i, tx.call, tx.writes, v, slot_set_self _ hi, hx⟩
    · rcases slot_of_set hj with ⟨rfl, hnew⟩ | ⟨-, hj⟩
      · cases hnew
        intro x hx y hy
        exact ((uniqueOk_append .approval).mp (hend.room.approvals x hx)).2 y (h.kept y hy)
      · exact h.fresh j a ws u hj

/-! ## Agreement -/

/-- The committed state `w.db`, reached from `db`, and the committed calls of `w`. -/
structure Agreement (db : Db) (w : LadderWorld) : Prop where
  unique : (w.db.approval.map (·.key)).Nodup
  executed : ∀ x ∈ w.db.approval, x.status = .executed ∧ x.executedAt ≠ none ∧ x.actualCostUsd ≠ none ∧
    x.result ≠ none
  audited : ∀ x ∈ w.db.approval, ∃ c, executeCards w.db x.id = [c] ∧ c.tenantId = x.tenantId
  /-- The transaction that committed an approval called `dispatch` once. -/
  dispatched : ∀ x ∈ w.db.approval, x ∉ db.approval → ∃ (i : ℕ) (a : Call) (ws : List Write) (v : Value),
    w.slots[i]? = some (.committed a ws v) ∧ a.key = some x.key ∧ (held ws).approval = [x] ∧ w.acts i = 1
  /-- A committed transaction for the key of an approval that it did not commit called no `dispatch`. -/
  alone : ∀ x ∈ w.db.approval, ∀ (i : ℕ) (a : Call) (ws : List Write) (v : Value),
    w.slots[i]? = some (.committed a ws v) → a.key = some x.key →
    x ∈ db.approval ∨ (held ws).approval ≠ [x] → w.acts i = 0
  agreed : ∀ (i j : ℕ) (a b : Call) (ws us : List Write) (r s : ApprovalResponse),
    w.slots[i]? = some (.committed a ws (.approval r)) → w.slots[j]? = some (.committed b us (.approval s)) →
    a.key = b.key → r.approvalId = s.approvalId

/-- **Concurrent executions agree**, in every world that calls of the ladder reach. -/
theorem concurrent_executions_agree {db : Db} (hk : Keyed db) (h0 : Coherent db) {ls : List LadderLabel}
    {w : LadderWorld} (hrun : ladder.run { db } ls = some w) : Agreement db w := by
  have hw : LadderHolds w := ladder_holds hk hrun
  have hc : Coherent w.db :=
    ladder_commits (fun _ _ _ _ _ _ _ h _ hend => h.commit hend) hk h0 (fun _ _ => trivial) hrun
  have htraced : LadderHolds w ∧ Traced db w := by
    have hstart : LadderHolds { db } ∧ Traced db { db } :=
      ⟨World.holds_start hk, fun x hx => hx, fun x hx => Or.inl hx, fun i a ws v hi => by cases hi⟩
    have hstep (w : LadderWorld) (l : LadderLabel) (w' : LadderWorld) (h : LadderHolds w ∧ Traced db w)
        (hs : ladder.step w l = some w') : LadderHolds w' ∧ Traced db w' :=
      ⟨ladder_step_holds h.1 hs, traced_step h.1 h.2 hs⟩
    exact ladder.run_invariant hstep hstart hrun
  obtain ⟨-, ht⟩ := htraced
  refine ⟨nodup_of_uniqueOk hw.db.approvals fun _ _ => clash_of_key, hc.executed, hc.audited, ?_, ?_, ?_⟩
  · intro x hx hnew
    rcases ht.origin x hx with hx | ⟨i, a, ws, v, hi, hheld⟩
    · exact absurd hx hnew
    · rcases (hw.slot i _ hi).rows with ⟨-, hrows⟩ | ⟨hn, y, -, hrows, hkey⟩
      · rw [hrows] at hheld
        simp at hheld
      · rw [hrows, List.mem_singleton] at hheld
        subst hheld
        exact ⟨i, a, ws, v, hi, hkey, hrows, hn⟩
  · intro x hx i a ws v hi hkey hother
    rcases (hw.slot i _ hi).rows with ⟨hn, -⟩ | ⟨-, y, hy, hrows, hykey⟩
    · exact hn
    · -- A second row of the key would be the first one.
      obtain rfl : y = x := hw.db.eq_of_key hy hx (Option.some.inj (hykey.symm.trans hkey))
      rcases hother with hold | hother
      · have hfresh := ht.fresh i a ws v hi y (by rw [hrows]; exact List.mem_cons_self) y hold
        simp [clash] at hfresh
      · exact absurd hrows hother
  · intro i j a b ws us r s hi hj hkey
    obtain ⟨x, hx, hrid, hxkey⟩ := (hw.slot i _ hi).response
    obtain ⟨y, hy, hsid, hykey⟩ := (hw.slot j _ hj).response
    have hxy : x.key = y.key := Option.some.inj (hxkey.symm.trans (hkey.trans hykey))
    rw [← hrid, ← hsid, hw.db.eq_of_key hx hy hxy]

/-- Two calls with one key: the second waits for the first, and fails. A third finds the approval. -/
def race : List LadderLabel :=
  [.begin (purchase "a" []), .begin (purchase "a" [])] ++ List.replicate 4 (.exec 0 (queued 30 1)) ++
    List.replicate 4 (.exec 1 (queued 31 2)) ++ List.replicate 4 (.exec 0 (queued 30 1)) ++
    [.finish 0, .exec 1 (queued 31 2), .finish 1, .begin (purchase "a" []), .exec 2 (queued 32 3), .finish 2]

theorem race_runs : (ladder.run { db := shop } race).isSome = true := by decide +kernel

theorem concurrent_executions_agree_race :
    Agreement shop ((ladder.run { db := shop } race).get race_runs) :=
  concurrent_executions_agree ⟨by decide +kernel, by decide +kernel⟩
    ⟨fun _ hx => absurd hx List.not_mem_nil, fun _ hx => absurd hx List.not_mem_nil,
      fun _ hc => absurd hc List.not_mem_nil⟩ (Option.some_get _).symm

example : ((ladder.run { db := shop } race).map fun w =>
    (w.db.approval.length, w.effects.length, w.db.auditCard.length)) = some (1, 1, 1) := by decide +kernel

end BaptistApi
