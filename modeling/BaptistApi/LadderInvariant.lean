import BaptistApi.LadderStages

/-!
# What holds in every world of the ladder

Keys stay unique, and each call stands at a stage of its program. Two calls that may still commit
hold rows with different keys: that is what the waiting is for.
-/

namespace BaptistApi

open BaptistApi.Calendar BaptistApi.FixedPoint BaptistApi.Program BaptistApi.Transactions

abbrev LadderSlot := Slot Call Write Cmd Reply Exc Value

/-! ## Keys -/

structure Keyed (db : Db) : Prop where
  approvals : uniqueOk .approval db.approval
  previews : uniqueOk .costPreview db.costPreview

/-- Each of the rows could be added alone. -/
structure Room (db rows : Db) : Prop where
  approvals : ∀ x ∈ rows.approval, uniqueOk .approval (db.approval ++ [x])
  previews : ∀ p ∈ rows.costPreview, uniqueOk .costPreview (db.costPreview ++ [p])

structure Clear (rows rows' : Db) : Prop where
  approvals : ∀ x ∈ rows.approval, ∀ y ∈ rows'.approval, clash .approval x y = false
  previews : ∀ p ∈ rows.costPreview, ∀ q ∈ rows'.costPreview, clash .costPreview p q = false

theorem clash_comm (t : Relation) (r s : Row t) : clash t r s = clash t s r := by
  cases t <;> simp only [clash, Bool.beq_comm]

theorem Clear.symm {rows rows' : Db} (h : Clear rows rows') : Clear rows' rows :=
  ⟨fun x hx y hy => (clash_comm _ _ _).trans (h.approvals y hy x hx),
    fun p hp q hq => (clash_comm _ _ _).trans (h.previews q hq p hp)⟩

theorem clear_nothing (rows : Db) : Clear {} rows :=
  ⟨fun _ hx => (nomatch hx), fun _ hp => (nomatch hp)⟩

theorem clash_sameKeys {x y : Approval} (h : sameKeys x y) (z : Approval) :
    clash .approval x z = clash .approval y z := by
  obtain ⟨hid, ht, hk⟩ := h
  simp only [clash, hid, ht, hk]

theorem uniqueOk_sameKeys {rows : List Approval} {x y : Approval} (h : sameKeys x y)
    (hx : uniqueOk .approval (rows ++ [x])) : uniqueOk .approval (rows ++ [y]) := by
  obtain ⟨hrows, hnew⟩ := (uniqueOk_append .approval).mp hx
  refine (uniqueOk_append .approval).mpr ⟨hrows, fun r hr => ?_⟩
  rw [clash_comm, ← clash_sameKeys h, clash_comm]
  exact hnew r hr

/-! ## More rows -/

/-- The rows that a transaction held have been added. -/
structure Appends (db db' rows : Db) : Prop where
  sub : db.Sub db'
  budgets : db'.costBudget = db.costBudget
  approvals : db'.approval = db.approval ++ rows.approval
  previews : db'.costPreview = db.costPreview ++ rows.costPreview

theorem Room.appends {db db' rows rows' : Db} (h : Room db rows') (ha : Appends db db' rows)
    (hk : Keyed db') (hc : Clear rows rows') : Room db' rows' := by
  refine ⟨fun x hx => ?_, fun p hp => ?_⟩
  · refine (uniqueOk_append .approval).mpr ⟨hk.approvals, fun y hy => ?_⟩
    rw [ha.approvals, List.mem_append] at hy
    rcases hy with hy | hy
    · exact ((uniqueOk_append .approval).mp (h.approvals x hx)).2 y hy
    · exact hc.approvals y hy x hx
  · refine (uniqueOk_append .costPreview).mpr ⟨hk.previews, fun q hq => ?_⟩
    rw [ha.previews, List.mem_append] at hq
    rcases hq with hq | hq
    · exact ((uniqueOk_append .costPreview).mp (h.previews p hp)).2 q hq
    · exact hc.previews q hq p hp

theorem view_executed {db : Db} {row row' : Approval} (hid : row'.id = row.id)
    (hu : uniqueOk .approval (db.approval ++ [row])) (ls : List CostLedger) (card : AuditCard) :
    ladder.view db (openWrites row ls ++ [.setApproval row'] ++ [.insert .auditCard card]) =
      { db with approval := db.approval ++ [row'], costLedger := db.costLedger ++ ls
                auditCard := db.auditCard ++ [card] } := by
  rw [Engine.view_append, view_closed hid hu]
  rfl

theorem held_executed {row row' : Approval} (hid : row'.id = row.id) (ls : List CostLedger)
    (card : AuditCard) :
    held (openWrites row ls ++ [.setApproval row'] ++ [.insert .auditCard card]) =
      { approval := [row'], costLedger := ls, auditCard := [card] } :=
  @view_executed {} row row' hid (List.pairwise_singleton _ _) ls card

theorem held_closed {row row' : Approval} (hid : row'.id = row.id) (ls : List CostLedger) :
    held (openWrites row ls ++ [.setApproval row']) = { approval := [row'], costLedger := ls } :=
  @view_closed {} row row' hid (List.pairwise_singleton _ _) ls

theorem Closes.sameKeys {a : Call} {r : ExecuteRequest} {id : Uuid} {row : Approval}
    (h : Closes a r id row) : sameKeys (r.newApproval.row id) row := by
  obtain ⟨cost, result, -, rfl⟩ := h
  exact ⟨rfl, rfl, rfl⟩

section Grow

variable {good : ExecuteRequest → PyVal → Prop} {a : Call} {r : ExecuteRequest} {db db' rows : Db} {n : ℕ}
  {issued : List Cmd} {p : Ladder Value} {ws : List Write} {v : Value} {id : Uuid}

theorem Priced.appends (h : Priced a r db) (hg : Appends db db' rows) : Priced a r db' := by
  obtain ⟨ha, q, hq, hprice⟩ := h
  exact ⟨ha, q, hg.sub .costPreview q hq, hprice⟩

theorem Funded.appends (h : Funded a r db issued) (hg : Appends db db' rows) : Funded a r db' issued := by
  obtain ⟨hprice, ⟨past, hsub, hbudgets, hpass⟩, hissued⟩ := h
  exact ⟨hprice.appends hg, ⟨past, hsub.trans hg.sub, hbudgets.trans hg.budgets.symm, hpass⟩, hissued⟩

theorem Opened.appends (h : Opened a r db issued id) (hg : Appends db db' rows)
    (hu : uniqueOk .approval (db'.approval ++ [r.newApproval.row id])) : Opened a r db' issued id :=
  ⟨h.toFunded.appends hg, h.tenant, hu, rowOk_mono hg.sub h.refs⟩

theorem Billed.appends {bs : List Bill} {ls : List CostLedger} (h : Billed a db bs ls)
    (hg : Appends db db' rows) : Billed a db' bs ls :=
  ⟨h.rows, fun l hl => rowOk_mono hg.sub (h.refs l hl)⟩

theorem refersTo_userIds {id : Option Uuid} (h : refersTo db.userIds id) (hg : Appends db db' rows) :
    refersTo db'.userIds id :=
  refersTo_mono (ids_mono hg.sub .userProfile (·.id)) h

theorem Ending.room (h : Ending a db n issued ws v) : Room db (held ws) := by
  cases h with
  | quoted ha ht hl hq hu =>
    refine ⟨fun _ hx => (nomatch hx), fun q hmem => ?_⟩
    rw [List.mem_singleton.mp hmem]
    exact hu
  | replayed => exact ⟨fun _ hx => (nomatch hx), fun _ hq => (nomatch hq)⟩
  | executed h hl hr ht hv ha hloc =>
    rw [held_executed hr.id_eq]
    refine ⟨fun x hx => ?_, fun _ hq => (nomatch hq)⟩
    rw [List.mem_singleton.mp hx]
    exact uniqueOk_sameKeys hr.sameKeys h.unique

theorem Standing.room (h : Standing good a db n issued p ws) : Room db (held ws) := by
  have nothing : Room db (held []) := ⟨fun _ hx => (nomatch hx), fun _ hq => (nomatch hq)⟩
  have own {r : ExecuteRequest} {id : Uuid} {ls : List CostLedger} {row : Approval}
      (h : Opened a r db issued id) (hk : sameKeys (r.newApproval.row id) row) :
      Room db { approval := [row], costLedger := ls } := by
    refine ⟨fun x hx => ?_, fun _ hq => (nomatch hq)⟩
    rw [List.mem_singleton.mp hx]
    exact uniqueOk_sameKeys hk h.unique
  cases h with
  | opened h => rw [held_openWrites]; exact own h ⟨rfl, rfl, rfl⟩
  | dispatched h => rw [held_openWrites]; exact own h ⟨rfl, rfl, rfl⟩
  | closed h hl hr => rw [held_closed hr.id_eq]; exact own h hr.sameKeys
  | ended h => exact h.room
  | _ => exact nothing

theorem Ending.appends (h : Ending a db n issued ws v) (hg : Appends db db' rows)
    (hr : Room db' (held ws)) : Ending a db' n issued ws v := by
  cases h with
  | quoted ha ht hl hq hu hok hrow =>
    exact .quoted ha ht hl hq (hr.previews _ List.mem_cons_self) (rowOk_mono hg.sub hok) hrow
  | replayed ha hrow ht hk => exact .replayed ha (hg.sub .approval _ hrow) ht hk
  | executed h hl hc ht hv ha hloc hactor hperson hresult hcard =>
    rw [held_executed hc.id_eq] at hr
    have hu := uniqueOk_sameKeys ⟨hc.sameKeys.1.symm, hc.sameKeys.2.1.symm, hc.sameKeys.2.2.symm⟩
      (hr.approvals _ List.mem_cons_self)
    exact .executed (h.appends hg hu) (hl.appends hg) hc ht hv ha hloc (refersTo_userIds hactor hg) hperson hresult
      hcard

theorem Standing.appends (h : Standing good a db n issued p ws) (hg : Appends db db' rows)
    (hr : Room db' (held ws)) : Standing good a db' n issued p ws := by
  cases h with
  | begun => exact .begun
  | spending b ha => exact .spending b ha
  | gated ha hgates => exact .gated ha hgates
  | looked ha => exact .looked ha
  | loaded ha hp hid ht hop => exact .loaded ha (hg.sub .costPreview _ hp) hid ht hop
  | priced h => exact .priced (h.appends hg)
  | funded h => exact .funded (h.appends hg)
  | opened h =>
    rw [held_openWrites] at hr
    exact .opened (h.appends hg (hr.approvals _ List.mem_cons_self))
  | dispatched h hv hb hl =>
    rw [held_openWrites] at hr
    exact .dispatched (h.appends hg (hr.approvals _ List.mem_cons_self)) hv hb (hl.appends hg)
  | closed h hl hc hv =>
    rw [held_closed hc.id_eq] at hr
    have hu := uniqueOk_sameKeys ⟨hc.sameKeys.1.symm, hc.sameKeys.2.1.symm, hc.sameKeys.2.2.symm⟩
      (hr.approvals _ List.mem_cons_self)
    exact .closed (h.appends hg hu) (hl.appends hg) hc hv
  | ended h => exact .ended (h.appends hg hr)

theorem appends_quoted (db : Db) (q : CostPreview) :
    Appends db (ladder.view db [.insert .costPreview q]) (held [.insert .costPreview q]) :=
  ⟨Db.sub_add db .costPreview q, rfl, (List.append_nil _).symm, rfl⟩

theorem appends_nothing (db : Db) : Appends db (ladder.view db []) (held []) :=
  ⟨Db.Sub.refl db, rfl, (List.append_nil _).symm, (List.append_nil _).symm⟩

theorem appends_executed {row row' : Approval} (hid : row'.id = row.id)
    (hu : uniqueOk .approval (db.approval ++ [row])) (ls : List CostLedger) (card : AuditCard) :
    Appends db (ladder.view db (openWrites row ls ++ [.setApproval row'] ++ [.insert .auditCard card]))
      (held (openWrites row ls ++ [.setApproval row'] ++ [.insert .auditCard card])) := by
  rw [view_executed hid hu, held_executed hid]
  refine ⟨Db.sub_of_append fun t => ?_, rfl, rfl, (List.append_nil _).symm⟩
  cases t with
  | approval => exact ⟨[row'], rfl⟩
  | costLedger => exact ⟨ls, rfl⟩
  | auditCard => exact ⟨[card], rfl⟩
  | _ => exact ⟨[], (List.append_nil _).symm⟩

theorem Ending.commit (h : Ending a db n issued ws v) : Appends db (ladder.view db ws) (held ws) := by
  cases h with
  | quoted => exact appends_quoted db _
  | replayed => exact appends_nothing db
  | executed h hl hr => exact appends_executed hr.id_eq h.unique _ _

theorem Ending.keyed (h : Ending a db n issued ws v) (hk : Keyed db) : Keyed (ladder.view db ws) := by
  have hroom := h.room
  cases h with
  | quoted ha ht hl hq hu => exact ⟨hk.approvals, hu⟩
  | replayed => exact hk
  | executed h hl hr =>
    rw [view_executed hr.id_eq h.unique]
    exact ⟨uniqueOk_sameKeys hr.sameKeys h.unique, hk.previews⟩

theorem Ending.constraintsOk (h : Ending a db n issued ws v) (hdb : constraintsOk db) :
    constraintsOk (ladder.view db ws) := by
  have hsub := h.commit.sub
  cases h with
  | quoted ha ht hl hq hu hok => exact constraintsOk_add hdb hu hok
  | replayed => exact hdb
  | @executed _ r id result ls row card h hl hr ht hv ha hloc hactor =>
    rw [view_executed hr.id_eq h.unique] at hsub ⊢
    obtain ⟨htenant, hlocation, hpreview, huser⟩ := rowOk_mono hsub h.refs
    refine constraintsOk_append hdb hsub (fun t => ?_) fun t x hx => ?_
    · cases t with
      | approval => exact uniqueOk_sameKeys hr.sameKeys h.unique
      | costLedger => exact List.pairwise_of_forall fun _ _ => rfl
      | auditCard => exact List.pairwise_of_forall fun _ _ => rfl
      | _ => exact (hdb _).1
    · cases t with
      | approval =>
        rcases List.mem_append.mp hx with hx | hx
        · exact Or.inl hx
        · obtain ⟨cost, result, -, rfl⟩ := hr
          rw [List.mem_singleton.mp hx]
          exact Or.inr ⟨htenant, hlocation, hpreview, huser⟩
      | costLedger =>
        rcases List.mem_append.mp hx with hx | hx
        · exact Or.inl hx
        · exact Or.inr (rowOk_mono hsub (hl.refs x hx))
      | auditCard =>
        rcases List.mem_append.mp hx with hx | hx
        · exact Or.inl hx
        · rw [List.mem_singleton.mp hx]
          refine Or.inr ⟨?_, hloc ▸ hlocation, hactor, fun i hi => ?_⟩
          · rw [ht, ← h.tenant]
            exact htenant
          · rw [ha] at hi
            cases hi
            exact List.mem_map.mpr ⟨row, List.mem_append_right _ List.mem_cons_self, hr.id_eq⟩
      | _ => exact Or.inl hx

end Grow

/-! ## Slots -/

/-- What an act outside the database needed, and it happened at most once. -/
def Acted (a : Call) (db : Db) (n : ℕ) : Prop := n = 0 ∨ n = 1 ∧ ∃ r, Priced a r db

/-- The call stood at its end when it committed, and its rows are there. -/
structure Committed (a : Call) (db : Db) (n : ℕ) (ws : List Write) (v : Value) : Prop where
  ending : ∃ past issued, past.Sub db ∧ past.costBudget = db.costBudget ∧ Ending a past n issued ws v
  approvals : ∀ x ∈ (held ws).approval, x ∈ db.approval
  previews : ∀ p ∈ (held ws).costPreview, p ∈ db.costPreview

def SlotOk (good : ExecuteRequest → PyVal → Prop) (db : Db) (n : ℕ) : LadderSlot → Prop
  | .running tx => Acted tx.call db n ∧ ((∃ x, tx.prog = .raise x) ∨
      tx.failed = false ∧ Standing good tx.call db n tx.issued tx.prog tx.writes)
  | .committed a ws v => Committed a db n ws v
  | .rolledBack a _ => Acted a db n

/-- The rows that a call may still commit. -/
def rowsToCommit (tx : LadderTx) : Db :=
  match tx.prog with
  | .raise _ => {}
  | _ => held tx.writes

def rowsOf : LadderSlot → Db
  | .running tx => rowsToCommit tx
  | .committed _ ws _ => held ws
  | .rolledBack _ _ => {}

def Apart (s t : LadderSlot) : Prop := Clear (rowsOf s) (rowsOf t)

theorem rowsToCommit_cases (tx : LadderTx) :
    (∃ x, tx.prog = .raise x) ∧ rowsToCommit tx = {} ∨
      (∀ x, tx.prog ≠ .raise x) ∧ rowsToCommit tx = held tx.writes := by
  unfold rowsToCommit
  split
  · rename_i x hx
    exact Or.inl ⟨⟨x, hx⟩, rfl⟩
  · rename_i hx
    exact Or.inr ⟨hx, rfl⟩

theorem Acted.appends {a : Call} {db db' rows : Db} {n : ℕ} (h : Acted a db n) (hg : Appends db db' rows) :
    Acted a db' n :=
  h.imp_right fun ⟨hn, r, hr⟩ => ⟨hn, r, hr.appends hg⟩

theorem SlotOk.appends {good : ExecuteRequest → PyVal → Prop} {db db' rows : Db} {n : ℕ} {t : LadderSlot}
    (h : SlotOk good db n t) (hg : Appends db db' rows) (hk : Keyed db') (hc : Clear rows (rowsOf t)) :
    SlotOk good db' n t := by
  cases t with
  | running tx =>
    refine ⟨h.1.appends hg, ?_⟩
    obtain ⟨hx, -⟩ | ⟨hx, hrows⟩ := rowsToCommit_cases tx
    · exact Or.inl hx
    · obtain ⟨x, hraise⟩ | ⟨hf, hs⟩ := h.2
      · exact absurd hraise (hx x)
      · rw [rowsOf, hrows] at hc
        exact Or.inr ⟨hf, hs.appends hg (hs.room.appends hg hk hc)⟩
  | committed a ws v =>
    obtain ⟨⟨past, issued, hsub, hbudgets, hend⟩, happrovals, hpreviews⟩ := h
    exact ⟨⟨past, issued, hsub.trans hg.sub, hbudgets.trans hg.budgets.symm, hend⟩,
      fun x hx => hg.sub .approval x (happrovals x hx), fun p hp => hg.sub .costPreview p (hpreviews p hp)⟩
  | rolledBack a x => exact Acted.appends h hg

/-! ## Steps -/

/-- Every result that `dispatch` gives in this step is good. -/
def returnsGood (good : ExecuteRequest → PyVal → Prop) (w : LadderWorld) (l : LadderLabel) : Prop :=
  ∀ i e tx k, l = .exec i e → w.slots[i]? = some (.running tx) → tx.prog = .call .dispatch k →
    ∀ v, e.outcome = .ok v → ∀ r, tx.call.action = .execute r → good r v

section Steps

variable {good : ExecuteRequest → PyVal → Prop} {db : Db} {n : ℕ} {tx : LadderTx}

theorem standing_of_call {c : Cmd} {k : Reply c → Ladder Value} (h : SlotOk good db n (.running tx))
    (hp : tx.prog = .call c k) :
    tx.failed = false ∧ Standing good tx.call db n tx.issued (.call c k) tx.writes := by
  obtain ⟨x, hx⟩ | ⟨hf, hs⟩ := h.2
  · cases hx.symm.trans hp
  · exact ⟨hf, hp ▸ hs⟩

theorem rowsToCommit_raise {x : Exc} (h : tx.prog = .raise x) : rowsToCommit tx = {} := by
  obtain ⟨-, hrows⟩ | ⟨hx, -⟩ := rowsToCommit_cases tx
  · exact hrows
  · exact absurd h (hx x)

theorem takes_toCommit {db : Db} {e : Env} {c : Cmd} {ws : List Write}
    (h : Takes e db c ws (held tx.writes)) : Takes e db c ws (rowsToCommit tx) := by
  obtain ⟨-, hrows⟩ | ⟨-, hrows⟩ := rowsToCommit_cases tx
  · rw [hrows]
    exact ⟨fun _ hx => (nomatch hx), fun _ hx => (nomatch hx)⟩
  · rw [hrows]
    exact h

theorem slotOk_of_reached {c : Cmd} {k : Reply c → Ladder Value} {ans : Answer Write (Reply c)}
    (ha : Acted tx.call db n) (hf : tx.failed = false) (hfails : ans.fails = false)
    (h : Reached good tx.call db n (tx.issued ++ [c]) (k ans.reply) (tx.writes ++ ans.writes)) :
    SlotOk good db n (.running (tx.answer c k ans)) := by
  refine ⟨ha, h.imp And.right fun hs => ⟨?_, ?_⟩⟩
  · simp [Tx.answer, hf, hfails]
  · simpa [Tx.answer, hfails] using hs

theorem takes_answer {c : Cmd} {k : Reply c → Ladder Value} {ans : Answer Write (Reply c)} {e : Env}
    (hfails : ans.fails = false) (h : Takes e db c tx.writes (held (tx.writes ++ ans.writes))) :
    Takes e db c tx.writes (rowsToCommit (tx.answer c k ans)) :=
  takes_toCommit (by simpa [Tx.answer, hfails] using h)

theorem takes_raise {c : Cmd} {k : Reply c → Ladder Value} {ans : Answer Write (Reply c)} {e : Env}
    {ws : List Write} {x : Exc} (hx : k ans.reply = .raise x) :
    Takes e db c ws (rowsToCommit (tx.answer c k ans)) := by
  have hrows : rowsToCommit (tx.answer c k ans) = {} := rowsToCommit_raise hx
  rw [hrows]
  exact ⟨fun _ hr => (nomatch hr), fun _ hr => (nomatch hr)⟩

theorem exec_slotOk {c : Cmd} {k : Reply c → Ladder Value} {e : Env} (h : SlotOk good db n (.running tx))
    (hp : tx.prog = .call c k)
    (hgood : c = .dispatch → ∀ v, e.outcome = .ok v → ∀ r, tx.call.action = .execute r → good r v) :
    SlotOk good db (n + (ladder.external c).toNat)
        (.running (tx.answer c k (exec tx.call e tx.failed (ladder.view db tx.writes) c))) ∧
      Takes e db c tx.writes
        (rowsToCommit (tx.answer c k (exec tx.call e tx.failed (ladder.view db tx.writes) c))) := by
  obtain ⟨hf, hs⟩ := standing_of_call h hp
  rw [hf]
  cases c with
  | sql q =>
    rcases exec_sql_cases tx.call e (ladder.view db tx.writes) q with ⟨v, ws, hr, he⟩ | ⟨x, he⟩
    · obtain ⟨hreach, htakes⟩ := hs.answered rfl hr
      rw [he]
      exact ⟨slotOk_of_reached h.1 hf rfl hreach, takes_answer rfl htakes⟩
    · obtain ⟨x', hx⟩ := hs.refused rfl x
      rw [he]
      exact ⟨⟨h.1, Or.inl ⟨x', hx⟩⟩, takes_raise hx⟩
  | utcNow =>
    have hreach := hs.clocked rfl e.clock
    refine ⟨slotOk_of_reached h.1 hf rfl ?_, takes_answer rfl ?_⟩
    · change Reached good tx.call db n _ _ (tx.writes ++ [])
      rw [List.append_nil]
      exact hreach
    · change Takes e db _ tx.writes (held (tx.writes ++ []))
      rw [List.append_nil]
      exact takes_nothing rfl rfl
  | dispatch =>
    obtain ⟨rfl, ⟨r, id, hopened⟩, hok, herror⟩ := hs.dispatching rfl
    have hacted : Acted tx.call db 1 := Or.inr ⟨rfl, r, hopened.toPriced⟩
    have he : exec tx.call e false (ladder.view db tx.writes) .dispatch = { reply := e.outcome } := rfl
    rw [he]
    cases ho : e.outcome with
    | error message =>
      obtain ⟨x, hx⟩ := herror message
      exact ⟨⟨hacted, Or.inl ⟨x, hx⟩⟩, takes_raise hx⟩
    | ok v =>
      refine ⟨slotOk_of_reached hacted hf rfl (Or.inr ?_), takes_answer rfl ?_⟩
      · dsimp only
        rw [List.append_nil]
        exact hok v (hgood rfl v ho)
      · dsimp only
        rw [List.append_nil]
        exact takes_nothing rfl rfl

theorem lose_slotOk {c : Cmd} {k : Reply c → Ladder Value} {reply : Reply c}
    (h : SlotOk good db n (.running tx)) (hp : tx.prog = .call c k) (hr : ladder.lost c = some reply) :
    SlotOk good db n (.running (tx.answer c k { reply, fails := true })) ∧
      rowsToCommit (tx.answer c k { reply, fails := true }) = {} := by
  obtain ⟨-, hs⟩ := standing_of_call h hp
  cases c with
  | sql q =>
    cases hr
    obtain ⟨x, hx⟩ := hs.refused rfl .connectionLost
    exact ⟨⟨h.1, Or.inl ⟨x, hx⟩⟩, rowsToCommit_raise hx⟩
  | utcNow => cases hr
  | dispatch => cases hr

theorem rowsOf_cases {w : LadderWorld} {i j : ℕ} {e : Env} {c : Cmd} {m : ℕ} {t : LadderSlot} (hij : j ≠ i)
    (hw : ∀ u ∈ w.others i, waits e c u.writes = false) (ht : SlotOk good w.db m t)
    (hj : w.slots[j]? = some t) :
    rowsOf t = {} ∨ (∃ ws, rowsOf t = held ws ∧ waits e c ws = false) ∨
      (∀ y ∈ (rowsOf t).approval, y ∈ w.db.approval) ∧ ∀ q ∈ (rowsOf t).costPreview, q ∈ w.db.costPreview := by
  cases t with
  | running u =>
    obtain ⟨-, hrows⟩ | ⟨hx, hrows⟩ := rowsToCommit_cases u
    · exact Or.inl hrows
    · obtain ⟨x, hraise⟩ | ⟨hf, -⟩ := ht.2
      · exact absurd hraise (hx x)
      · exact Or.inr (Or.inl ⟨u.writes, hrows, hw u (World.mem_others.mpr ⟨j, hij, hj, hf⟩)⟩)
  | committed a ws v => exact Or.inr (Or.inr ⟨ht.approvals, ht.previews⟩)
  | rolledBack => exact Or.inl rfl

/-- The keys of an INSERT are free: the committed rows do not have them, and whoever else holds them
would have made it wait. -/
theorem takes_clear {w : LadderWorld} {i j : ℕ} {e : Env} {c : Cmd} {m : ℕ} {t : LadderSlot} {rows : Db}
    (hij : j ≠ i) (hw : ∀ u ∈ w.others i, waits e c u.writes = false) (ht : SlotOk good w.db m t)
    (hj : w.slots[j]? = some t) (hclear : Clear (held tx.writes) (rowsOf t))
    (h : Takes e w.db c tx.writes rows) : Clear rows (rowsOf t) := by
  refine ⟨fun x hx y hy => ?_, fun p hp q hq => ?_⟩
  · rcases h.approvals x hx with ⟨z, hz, hkeys⟩ | ⟨new, rfl, rfl, hu⟩
    · rw [clash_sameKeys hkeys]
      exact hclear.approvals z hz y hy
    · obtain hrows | ⟨ws, hrows, hwait⟩ | ⟨hsub, -⟩ := rowsOf_cases hij hw ht hj
      · simp [hrows] at hy
      · rw [hrows] at hy
        exact Bool.eq_false_iff.mpr ((List.any_eq_false.mp hwait) y hy)
      · rw [clash_comm]
        exact ((uniqueOk_append .approval).mp hu).2 y (hsub y hy)
  · rcases h.previews p hp with hp | ⟨new, rfl, hid, hu⟩
    · exact hclear.previews p hp q hq
    · obtain hrows | ⟨ws, hrows, hwait⟩ | ⟨-, hsub⟩ := rowsOf_cases hij hw ht hj
      · simp [hrows] at hq
      · rw [hrows] at hq
        have hne := (List.any_eq_false.mp hwait) q hq
        rw [← hid] at hne
        exact Bool.eq_false_iff.mpr hne
      · rw [clash_comm]
        exact ((uniqueOk_append .costPreview).mp hu).2 q (hsub q hq)

theorem rowsToCommit_of_prog (h : ∀ x, tx.prog ≠ .raise x) : rowsToCommit tx = held tx.writes := by
  obtain ⟨⟨x, hx⟩, -⟩ | ⟨-, hrows⟩ := rowsToCommit_cases tx
  · exact absurd hx (h x)
  · exact hrows

theorem rowsToCommit_nothing (h : tx.writes = []) : rowsToCommit tx = {} := by
  obtain ⟨-, hrows⟩ | ⟨-, hrows⟩ := rowsToCommit_cases tx
  · exact hrows
  · rw [hrows, h]
    rfl

theorem ending_of_ret {v : Value} (h : SlotOk good db n (.running tx)) (hp : tx.prog = .ret v) :
    tx.failed = false ∧ Ending tx.call db n tx.issued tx.writes v := by
  obtain ⟨x, hx⟩ | ⟨hf, hs⟩ := h.2
  · cases hx.symm.trans hp
  · exact ⟨hf, hs.ending hp⟩

theorem Ending.committed {a : Call} {issued : List Cmd} {ws : List Write} {v : Value}
    (h : Ending a db n issued ws v) : Committed a (ladder.view db ws) n ws v := by
  have hg := h.commit
  refine ⟨⟨db, issued, hg.sub, hg.budgets.symm, h⟩, fun x hx => ?_, fun p hp => ?_⟩
  · rw [hg.approvals]
    exact List.mem_append_right _ hx
  · rw [hg.previews]
    exact List.mem_append_right _ hp

end Steps

/-- Any number of calls, in any order of steps. -/
theorem ladder_cooperates {good : ExecuteRequest → PyVal → Prop} {ok : LadderWorld → LadderLabel → Prop}
    (hok : ∀ w l, ok w l → returnsGood good w l) : ladder.Cooperates Keyed (SlotOk good) Apart ok where
  begins w a _ _ := by
    have hrows : rowsOf (.running { call := a, prog := ladder.prog a }) = {} := rowsToCommit_nothing rfl
    refine ⟨⟨Or.inl rfl, Or.inr ⟨rfl, .begun⟩⟩, fun j t _ => ?_⟩
    unfold Apart
    rw [hrows]
    exact ⟨clear_nothing _, (clear_nothing _).symm⟩
  moves w l i s s' db' acted h hl hi hm := by
    have hslot := h.slot i s hi
    have hpair (j : ℕ) (t : LadderSlot) (hj : j ≠ i) (ht : w.slots[j]? = some t) : Apart s t :=
      h.pair i j s t hj.symm hi ht
    cases hm with
    | @exec e tx c k hp hw =>
      have hgood (hc : c = .dispatch) (v : PyVal) (hv : e.outcome = .ok v) (r : ExecuteRequest)
          (hr : tx.call.action = .execute r) : good r v := by
        subst hc
        exact hok w _ hl i e tx k rfl hi hp v hv r hr
      obtain ⟨hself, htakes⟩ := exec_slotOk hslot hp hgood
      obtain ⟨hf, -⟩ := standing_of_call hslot hp
      have hheld : rowsOf (.running tx) = held tx.writes := rowsToCommit_of_prog fun x hx => by cases hp.symm.trans hx
      refine ⟨h.db, hself, fun j t hj ht => ?_⟩
      have hold := hpair j t hj ht
      unfold Apart at hold
      rw [hheld] at hold
      have hclear := takes_clear hj (hw hf) (h.slot j t ht) ht hold htakes
      exact ⟨h.slot j t ht, hclear, hclear.symm⟩
    | @lose tx c k reply hp hr =>
      obtain ⟨hself, hrows⟩ := lose_slotOk hslot hp hr
      refine ⟨h.db, hself, fun j t hj ht => ⟨h.slot j t ht, ?_⟩⟩
      change Clear (rowsToCommit _) (rowsOf t) ∧ Clear (rowsOf t) (rowsToCommit _)
      rw [hrows]
      exact ⟨clear_nothing _, (clear_nothing _).symm⟩
    | @commit tx v hp hf =>
      obtain ⟨-, hend⟩ := ending_of_ret hslot hp
      have hheld : rowsToCommit tx = held tx.writes := rowsToCommit_of_prog fun x hx => by cases hp.symm.trans hx
      have hkeyed := hend.keyed h.db
      refine ⟨hkeyed, hend.committed, fun j t hj ht => ?_⟩
      have hclear : Clear (held tx.writes) (rowsOf t) := hheld ▸ hpair j t hj ht
      exact ⟨(h.slot j t ht).appends hend.commit hkeyed hclear, hclear, hclear.symm⟩
    | @abandon tx v hp hf =>
      obtain ⟨hf', -⟩ := ending_of_ret hslot hp
      rw [hf'] at hf
      simp at hf
    | @rollback tx x hp =>
      exact ⟨h.db, hslot.1, fun j t hj ht =>
        ⟨h.slot j t ht, clear_nothing _, (clear_nothing _).symm⟩⟩

theorem move_sub {good : ExecuteRequest → PyVal → Prop} {w : LadderWorld} {i : ℕ} {l : LadderLabel} {s s' : LadderSlot}
    {db' : Db} {acted : Bool} (h : w.Holds Keyed (SlotOk good) Apart) (hi : w.slots[i]? = some s)
    (hm : ladder.Move (w.others i) w.db i l s s' db' acted) : w.db.Sub db' := by
  have hslot := h.slot i s hi
  cases hm with
  | commit hp hf => exact (ending_of_ret hslot hp).2.commit.sub
  | _ => exact Db.Sub.refl _

/-! ## Runs -/

/-- The invariant, when nothing is known of what `dispatch` returns. -/
abbrev LadderHolds (w : LadderWorld) : Prop := w.Holds Keyed (SlotOk fun _ _ => True) Apart

theorem ladder_step_holds {w w' : LadderWorld} {l : LadderLabel} (h : LadderHolds w)
    (hs : ladder.step w l = some w') : LadderHolds w' := by
  have hM : ladder.Cooperates Keyed (SlotOk fun _ _ => True) Apart fun _ _ => True :=
    ladder_cooperates fun w l _ i e tx k _ _ _ v _ => fun _ _ => trivial
  exact hM.step h trivial hs

theorem ladder_holds {db : Db} (hk : Keyed db) {ls : List LadderLabel} {w : LadderWorld}
    (hrun : ladder.run { db } ls = some w) : LadderHolds w :=
  ladder.run_invariant (fun _ _ _ => ladder_step_holds) (World.holds_start hk) hrun

theorem ending_of_commit {w : LadderWorld} (h : LadderHolds w) {i : ℕ} {tx : LadderTx} {v : Value}
    (hi : w.slots[i]? = some (.running tx)) (hp : tx.prog = .ret v) :
    Ending tx.call w.db (w.acts i) tx.issued tx.writes v :=
  (ending_of_ret (h.slot i _ hi) hp).2

theorem ladder_commits {C : Call → Prop} {I : Db → Prop} (hI : ∀ db a n issued ws v, Keyed db → I db →
    C a → Ending a db n issued ws v → I (ladder.view db ws)) {db : Db} (hk : Keyed db) (h0 : I db)
    {ls : List LadderLabel} (hC : ∀ a, .begin a ∈ ls → C a) {w : LadderWorld}
    (hrun : ladder.run { db } ls = some w) : I w.db := by
  have hM := ladder.calls_cooperate C
  have hstep (w : LadderWorld) (l : LadderLabel) (w' : LadderWorld) (h : LadderHolds w ∧ w.Calls C ∧ I w.db)
      (hl : ∀ a, l = .begin a → C a) (hs : ladder.step w l = some w') :
      LadderHolds w' ∧ w'.Calls C ∧ I w'.db := by
    obtain ⟨hw, hc, hi⟩ := h
    refine ⟨ladder_step_holds hw hs, hM.step hc hl hs, ?_⟩
    obtain ⟨hdb, -⟩ | ⟨i, tx, v, hslot, hp, -, rfl⟩ := ladder.step_commits hs
    · rw [hdb]
      exact hi
    · exact hI _ _ _ _ _ _ hw.db hi (hc.slot i _ hslot) (ending_of_commit hw hslot hp)
  have hstart : LadderHolds { db } ∧ World.Calls C ({ db } : LadderWorld) ∧ I db :=
    ⟨World.holds_start hk, World.holds_start trivial, h0⟩
  have hlabels : ladder.RunsUnder (fun _ l => ∀ a, l = .begin a → C a) { db } ls :=
    ladder.runsUnder_of_labels fun l hl a hla => hC a (hla ▸ hl)
  exact (ladder.run_invariant_under hstep hstart hlabels hrun).2.2

theorem Keyed.of_constraints {db : Db} (h : constraintsOk db) : Keyed db := ⟨(h .approval).1, (h .costPreview).1⟩

theorem ladder_constraintsOk {db : Db} (h : constraintsOk db) {ls : List LadderLabel} {w : LadderWorld}
    (hrun : ladder.run { db } ls = some w) : constraintsOk w.db :=
  ladder_commits (fun _ _ _ _ _ _ _ hdb _ hend => hend.constraintsOk hdb) (Keyed.of_constraints h) h
    (fun _ _ => trivial) hrun

end BaptistApi
