import BaptistApi.Agreement
import BaptistApi.Lib.Journal

/-!
# The books of the ladder

Whatever calls run beside each other, the database is what a journal of quotes and executions makes of the
one they started from: whole entries, one after another, and nothing else.
-/

namespace BaptistApi

open BaptistApi.FixedPoint BaptistApi.Program BaptistApi.Transactions

/-- What a call has written when it commits. -/
inductive Entry where
  | quote (a : Call) (preview : CostPreview)
  | execution (a : Call) (approval : Approval) (bills : List CostLedger) (card : AuditCard)

namespace Entry

def call : Entry → Call
  | quote a _ => a
  | execution a _ _ _ => a

/-- `dispatch` was called for the entry. -/
def dispatched : Entry → Bool
  | quote _ _ => false
  | execution _ _ _ _ => true

end Entry

def Db.post (db : Db) : Entry → Db
  | .quote _ preview => { db with costPreview := db.costPreview ++ [preview] }
  | .execution _ approval bills card =>
    { db with
      approval := db.approval ++ [approval]
      costLedger := db.costLedger ++ bills
      auditCard := db.auditCard ++ [card] }

/-- The preview is the row that its request asked for, with gates that it was judged by. -/
structure QuoteFor (a : Call) (r : PreviewRequest) (p : CostPreview) : Prop where
  action : a.action = .createPreview r
  tenant : p.tenantId = a.ctx.tenantId
  row : ∃ gates, Quotes a r gates p

/-- The approval, its ledger rows and its card are those of one execution, the approval with what some result of
`dispatch` is recorded as. -/
structure ExecutionFor (a : Call) (r : ExecuteRequest) (x : Approval) (bills : List CostLedger) (card : AuditCard) :
    Prop where
  action : a.action = .execute r
  tenant : r.tenantId = a.ctx.tenantId
  approval : Closes a r x.id x
  result : ∃ v, Recorded r v x
  billed : r.bills.Forall₂ (fun b l => ∃ id unitCostUsd costUsd, Numeric.store? 12 6 b.unitCostUsd = some unitCostUsd ∧
    Numeric.store? 12 4 b.costUsd = some costUsd ∧ l = b.row a.ctx.tenantId a.startedAt.date id unitCostUsd costUsd) bills
  carded : Carded a r x.id card

/-- The entry is for a call that began. -/
def Entry.Sound (Began : Call → Prop) (e : Entry) : Prop :=
  Began e.call ∧
    match e with
    | .quote a p => ∃ r, QuoteFor a r p
    | .execution a x bills card => ∃ r, ExecutionFor a r x bills card

/-- What a call commits is at most one entry, with `dispatch` called just for an execution. -/
theorem Ending.booked {Began : Call → Prop} {a : Call} {db : Db} {n : ℕ} {issued : List Cmd} {ws : List Write} {v : Value}
    (ha : Began a) (h : Ending a db n issued ws v) :
    ∃ entries : List Entry, ladder.view db ws = entries.foldl Db.post db ∧ (∀ e ∈ entries, e.Sound Began) ∧
      entries.countP Entry.dispatched = n := by
  cases h with
  | replayed => exact ⟨[], rfl, fun _ he => absurd he List.not_mem_nil, rfl⟩
  | @quoted _ r gates p hr ht hl hq hu hok hrow =>
    refine ⟨[.quote a p], rfl, fun e he => ?_, rfl⟩
    obtain rfl := List.mem_singleton.mp he
    exact ⟨ha, r, hr, ht, gates, hrow⟩
  | @executed _ r id v bills row card hopened hl hr ht hexecute happroval hloc hactor hperson hrecorded hcard =>
    obtain rfl : row.id = id := hr.id_eq
    refine ⟨[.execution a row bills card], ?_, fun e he => ?_, rfl⟩
    · rw [view_executed hr.id_eq hopened.unique]
      rfl
    · obtain rfl := List.mem_singleton.mp he
      exact ⟨ha, r, hopened.action, hopened.tenant, hr, ⟨v, hrecorded⟩, hl.rows, hcard⟩

/-- **The ladder keeps its books**: in every world that previews and executions reach, in any order of steps and
with any failures, the database is the sum of a journal of whole entries, and the calls of `dispatch` whose
transactions have committed are those that the journal books. -/
theorem ladder_keeps_books {db : Db} (hk : Keyed db) {ls : List LadderLabel} {w : LadderWorld}
    (hrun : ladder.run { db } ls = some w) :
    ∃ journal : List Entry, w.db = journal.foldl Db.post db ∧ (∀ e ∈ journal, e.Sound fun a => .begin a ∈ ls) ∧
      journal.countP Entry.dispatched = w.kept := by
  let Began (a : Call) : Prop := .begin a ∈ ls
  have hstep (w : LadderWorld) (l : LadderLabel) (w' : LadderWorld) (h : LadderHolds w ∧ w.Calls Began)
      (hl : ∀ a, l = .begin a → Began a) (hs : ladder.step w l = some w') : LadderHolds w' ∧ w'.Calls Began :=
    ⟨ladder_step_holds h.1 hs, (ladder.calls_cooperate Began).step h.2 hl hs⟩
  have hlabels : ladder.RunsUnder (fun _ l => ∀ a, l = .begin a → Began a) { db } ls :=
    ladder.runsUnder_of_labels fun l hl a hla => show Label.begin a ∈ ls from hla ▸ hl
  have hstart : LadderHolds { db } ∧ World.Calls Began ({ db } : LadderWorld) :=
    ⟨World.holds_start hk, World.holds_start trivial⟩
  obtain ⟨journal, hbooked⟩ : ∃ journal, Engine.Booked Db.post Entry.dispatched (Entry.Sound Began) db w journal :=
    Engine.run_booked hstep (fun w i tx v h hi hp _ => (ending_of_commit h.1 hi hp).booked (h.2.slot i _ hi)) hstart
      hlabels hrun
  exact ⟨journal, hbooked.rows, hbooked.sound, hbooked.kept⟩

theorem race_keeps_books :
    let w := (ladder.run { db := shop } race).get race_runs
    ∃ journal : List Entry, w.db = journal.foldl Db.post shop ∧ (∀ e ∈ journal, e.Sound fun a => .begin a ∈ race) ∧
      journal.countP Entry.dispatched = w.kept :=
  ladder_keeps_books ⟨by decide +kernel, by decide +kernel⟩ (Option.some_get race_runs).symm

end BaptistApi
