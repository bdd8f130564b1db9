import BaptistApi.LadderStages

/-!
# The books of one tenant

What a statement of the ladder reads and checks depends on no row of another tenant, if its references are to rows of
its own and the ids it makes are new.
-/

namespace BaptistApi

open BaptistApi.Calendar BaptistApi.FixedPoint BaptistApi.Program BaptistApi.RowSecurity BaptistApi.Transactions

/-! ## Rows -/

/-- The rows of the tables that the ladder writes are one tenant's, those of the others are everybody's. -/
def ofTenant (d : Uuid) : (t : Relation) → Row t → Bool
  | .auditCard, r => r.tenantId == d
  | .costLedger, r => r.tenantId == d
  | .costPreview, r => r.tenantId == d
  | .approval, r => r.tenantId == d
  | _, _ => true

/-- The second database has all rows of the tenant, and no others than the first. -/
structure SameBooks (d : Uuid) (db db' : Db) : Prop where
  fewer : ∀ t, (db'.rows t).Sublist (db.rows t)
  own : ∀ t, (db'.rows t).filter (ofTenant d t) = (db.rows t).filter (ofTenant d t)

/-- Rows at the end of every table. -/
def Db.plus (db rows : Db) : Db :=
  { tenant := db.tenant ++ rows.tenant
    userProfile := db.userProfile ++ rows.userProfile
    membership := db.membership ++ rows.membership
    membershipLocation := db.membershipLocation ++ rows.membershipLocation
    tenantCredential := db.tenantCredential ++ rows.tenantCredential
    location := db.location ++ rows.location
    locationAlias := db.locationAlias ++ rows.locationAlias
    auditCard := db.auditCard ++ rows.auditCard
    costLedger := db.costLedger ++ rows.costLedger
    costBudget := db.costBudget ++ rows.costBudget
    costPreview := db.costPreview ++ rows.costPreview
    approval := db.approval ++ rows.approval }

@[simp] theorem rows_plus (db rows : Db) (t : Relation) : (db.plus rows).rows t = db.rows t ++ rows.rows t := by
  cases t <;> rfl

@[simp] theorem plus_nothing (db : Db) : db.plus {} = db := by simp [Db.plus]

namespace SameBooks

variable {d : Uuid} {db db' : Db}

theorem refl (d : Uuid) (db : Db) : SameBooks d db db := ⟨fun _ => List.Sublist.refl _, fun _ => rfl⟩

theorem plus (h : SameBooks d db db') (rows : Db) : SameBooks d (db.plus rows) (db'.plus rows) := by
  refine ⟨fun t => ?_, fun t => ?_⟩
  · rw [rows_plus, rows_plus]
    exact (h.fewer t).append_right _
  · rw [rows_plus, rows_plus, List.filter_append, List.filter_append, h.own]

theorem plus_others (h : SameBooks d db db') {rows : Db} (hrows : ∀ t, ∀ r ∈ rows.rows t, ofTenant d t r = false) :
    SameBooks d (db.plus rows) db' := by
  refine ⟨fun t => ?_, fun t => ?_⟩
  · rw [rows_plus]
    exact (h.fewer t).trans (List.sublist_append_left _ _)
  · have hnone : (rows.rows t).filter (ofTenant d t) = [] :=
      List.filter_eq_nil_iff.mpr fun r hr => by simp [hrows t r hr]
    rw [rows_plus, List.filter_append, hnone, List.append_nil, h.own]

theorem shared (h : SameBooks d db db') {t : Relation} (ht : ∀ r, ofTenant d t r = true) : db'.rows t = db.rows t := by
  have hall (rows : List (Row t)) : rows.filter (ofTenant d t) = rows := List.filter_eq_self.mpr fun r _ => ht r
  rw [← hall (db'.rows t), h.own, hall]

theorem mem_iff (h : SameBooks d db db') {t : Relation} {r : Row t} (hr : ofTenant d t r = true) :
    r ∈ db'.rows t ↔ r ∈ db.rows t := by
  have hmem (rows : List (Row t)) : r ∈ rows.filter (ofTenant d t) ↔ r ∈ rows := by
    rw [List.mem_filter]
    exact and_iff_left hr
  rw [← hmem, h.own, hmem]

theorem sub (h : SameBooks d db db') : db'.Sub db := fun t _ hr => (h.fewer t).subset hr

theorem uniqueOk_iff (h : SameBooks d db db') {t : Relation} (hkeyed : uniqueOk t (db.rows t)) {x : Row t}
    (hnew : ∀ r ∈ db.rows t, ofTenant d t r = false → clash t r x = false) :
    uniqueOk t (db'.rows t ++ [x]) ↔ uniqueOk t (db.rows t ++ [x]) := by
  constructor
  · intro hu
    refine (uniqueOk_append t).mpr ⟨hkeyed, fun r hr => ?_⟩
    cases hr' : ofTenant d t r with
    | true => exact ((uniqueOk_append t).mp hu).2 r ((h.mem_iff hr').mpr hr)
    | false => exact hnew r hr hr'
  · exact List.Pairwise.sublist ((h.fewer t).append_right [x])

/-! ## What the statements read -/

variable {ctx : RequestContext} {now : Timestamp}

theorem tenantIds (h : SameBooks d db db') : db'.tenantIds = db.tenantIds :=
  congrArg (List.map Tenant.id) (h.shared (t := .tenant) fun _ => rfl)

theorem userProfiles (h : SameBooks d db db') : db'.userProfile = db.userProfile :=
  h.shared (t := .userProfile) fun _ => rfl

theorem userIds (h : SameBooks d db db') : db'.userIds = db.userIds :=
  congrArg (List.map UserProfile.id) h.userProfiles

theorem locationIds (h : SameBooks d db db') : db'.locationIds = db.locationIds :=
  congrArg (List.map Location.id) (h.shared (t := .location) fun _ => rfl)

theorem currentBudgets (h : SameBooks ctx.tenantId db db') :
    currentBudget ⟨tenantContext ctx now, db'⟩ = currentBudget ⟨tenantContext ctx now, db⟩ := by
  have hrows : db'.costBudget = db.costBudget := h.shared (t := .costBudget) fun _ => rfl
  rw [currentBudget_eq, currentBudget_eq, hrows]

theorem approvals (h : SameBooks ctx.tenantId db db') :
    Scope.approvals ⟨tenantContext ctx now, db'⟩ = Scope.approvals ⟨tenantContext ctx now, db⟩ := by
  rw [approvals_eq, approvals_eq]
  exact h.own .approval

theorem previews (h : SameBooks ctx.tenantId db db') :
    Scope.costPreviews ⟨tenantContext ctx now, db'⟩ = Scope.costPreviews ⟨tenantContext ctx now, db⟩ := by
  rw [costPreviews_eq, costPreviews_eq]
  exact h.own .costPreview

theorem monthSpends (h : SameBooks ctx.tenantId db db') (m : Date) :
    monthSpend ⟨tenantContext ctx now, db'⟩ m = monthSpend ⟨tenantContext ctx now, db⟩ m := by
  have hown (db : Db) : Scope.costLedgers ⟨tenantContext ctx now, db⟩ =
      db.costLedger.filter fun r => r.tenantId == ctx.tenantId :=
    visible_tenantTable (fun sc d => by
      simp [Table.passes, tenantTable, selectTenant, insertTenant, updateTenant, deleteTenant]) _
  have hrows : Scope.costLedgers ⟨tenantContext ctx now, db'⟩ = Scope.costLedgers ⟨tenantContext ctx now, db⟩ := by
    rw [hown, hown]
    exact h.own .costLedger
  unfold monthSpend
  rw [hrows]
  rfl

theorem assertBudgets (h : SameBooks ctx.tenantId db db') (projected : ℚ) (balance : Option ℚ) :
    assertBudget ⟨tenantContext ctx now, db'⟩ projected balance =
      assertBudget ⟨tenantContext ctx now, db⟩ projected balance := by
  unfold assertBudget
  rw [h.currentBudgets, h.monthSpends]

end SameBooks

/-! ## What the statements check -/

theorem insertInto_same {s : Session} {db db' : Db} {t : Relation} {d : Draft t} {reads : Bool}
    (hrow : (table t).insertRow s.currentUser ⟨s, db'⟩ reads d = (table t).insertRow s.currentUser ⟨s, db⟩ reads d)
    (hok : ∀ r, (table t).insertRow s.currentUser ⟨s, db⟩ reads d = .ok r →
      (uniqueOk t (db'.rows t ++ [r]) ∧ rowOk db' t r ↔ uniqueOk t (db.rows t ++ [r]) ∧ rowOk db t r)) :
    insertInto s db' t d reads = insertInto s db t d reads := by
  unfold insertInto
  rw [hrow]
  refine if_congr Iff.rfl ?_ rfl
  cases hr : (table t).insertRow s.currentUser ⟨s, db⟩ reads d with
  | error x => rfl
  | ok r => exact if_congr (hok r hr) rfl rfl

section Statements

variable {ctx : RequestContext} {now : Timestamp} {db db' : Db}

theorem insertLedger_same (h : SameBooks ctx.tenantId db db') (d : TenantDraft CostLedger) :
    insertInto (tenantContext ctx now) db' .costLedger d false =
      insertInto (tenantContext ctx now) db .costLedger d false := by
  refine insertInto_same rfl fun r _ => and_congr ?_ ?_
  · exact iff_of_true (List.pairwise_of_forall fun _ _ => rfl) (List.pairwise_of_forall fun _ _ => rfl)
  · simp only [rowOk, h.tenantIds, h.locationIds]

theorem insertPreview_same (h : SameBooks ctx.tenantId db db') (hkeyed : uniqueOk .costPreview db.costPreview)
    {p : CostPreview} (hid : p.id ∉ db.previewIds) (tenantId : Option Uuid) :
    insertInto (tenantContext ctx now) db' .costPreview { tenantId, row := p } true =
      insertInto (tenantContext ctx now) db .costPreview { tenantId, row := p } true := by
  refine insertInto_same rfl fun r hr => ?_
  have hrow : r = { p with tenantId := ctx.tenantId } := by
    refine ((insertRow_api ?_ ?_).mp hr).2 <;> intro sc d <;>
      simp [Table.passes, tenantTable, selectTenant, insertTenant, updateTenant, deleteTenant]
  refine and_congr (h.uniqueOk_iff hkeyed fun q hq _ => ?_) ?_
  · have hne : q.id ≠ p.id := fun heq => hid (heq ▸ List.mem_map_of_mem hq)
    simp [clash, hrow, hne]
  · simp only [rowOk, h.tenantIds, h.locationIds, h.userIds]

theorem insertApproval_same (h : SameBooks ctx.tenantId db db') (hkeyed : uniqueOk .approval db.approval)
    {x : Approval} (hid : x.id ∉ db.approvalIds) {p : CostPreview} (hp : p ∈ db.costPreview)
    (ht : p.tenantId = ctx.tenantId) (hx : x.costPreviewId = some p.id) (tenantId : Option Uuid) :
    insertInto (tenantContext ctx now) db' .approval { tenantId, row := x } true =
      insertInto (tenantContext ctx now) db .approval { tenantId, row := x } true := by
  refine insertInto_same rfl fun r hr => ?_
  have hrow : r = { x with tenantId := ctx.tenantId } := by
    refine ((insertRow_api ?_ ?_).mp hr).2 <;> intro sc d <;>
      simp [Table.passes, tenantTable, selectTenant, insertTenant, updateTenant, deleteTenant]
  refine and_congr (h.uniqueOk_iff hkeyed fun y hy hother => ?_) ?_
  · have hne : y.id ≠ x.id := fun heq => hid (heq ▸ List.mem_map_of_mem hy)
    have htenant : y.tenantId ≠ ctx.tenantId := by simpa [ofTenant] using hother
    simp [clash, hrow, hne, htenant]
  · have hp' : p ∈ db'.costPreview := (h.mem_iff (t := .costPreview) (by simp [ofTenant, ht])).mpr hp
    have hpreview (d : Db) (hd : p ∈ d.costPreview) : refersTo d.previewIds r.costPreviewId := by
      intro i hi
      obtain rfl : p.id = i := by simpa [hrow, hx] using hi
      exact List.mem_map_of_mem hd
    simp only [rowOk, h.tenantIds, h.locationIds, h.userIds, hpreview db hp, hpreview db' hp']

theorem writeCard_same (h : SameBooks ctx.tenantId db db') {c : CardRequest} {x : Approval} (hx : x ∈ db.approval)
    (ht : x.tenantId = ctx.tenantId) (hc : c.approvalId = some x.id) (id : ℤ) :
    writeCard (tenantContext ctx now) db' c id = writeCard (tenantContext ctx now) db c id := by
  have hx' : x ∈ db'.approval := (h.mem_iff (t := .approval) (by simp [ofTenant, ht])).mpr hx
  have happroval (d : Db) (hd : x ∈ d.approval) : refersTo d.approvalIds c.approvalId := by
    intro i hi
    obtain rfl : x.id = i := by simpa [hc] using hi
    exact List.mem_map_of_mem hd
  unfold writeCard actorLabel
  simp only [rowOk, h.tenantIds, h.locationIds, h.userIds, h.userProfiles, happroval db hx, happroval db' hx']

theorem updateApproval_same (h : SameBooks ctx.tenantId db db') (id : Uuid) (cost : Numeric 12 4) (result : Json) :
    ∃ eff eff', Tables.approval.exec .appApi ⟨tenantContext ctx now, db⟩ db.approval
        (.update (setExecuted (tenantContext ctx now) id cost result) true) = .ok eff ∧
      Tables.approval.exec .appApi ⟨tenantContext ctx now, db'⟩ db'.approval
        (.update (setExecuted (tenantContext ctx now) id cost result) true) = .ok eff' ∧
      eff'.rewritten = eff.rewritten := by
  obtain ⟨eff, heff, hrows⟩ := @update_executed ctx now db id cost result
  obtain ⟨eff', heff', hrows'⟩ := @update_executed ctx now db' id cost result
  have hown : db'.approval.filter (fun r => r.tenantId == ctx.tenantId && r.id == id) =
      db.approval.filter fun r => r.tenantId == ctx.tenantId && r.id == id := by
    have hsplit (rows : List Approval) : rows.filter (fun r => r.tenantId == ctx.tenantId && r.id == id) =
        (rows.filter (ofTenant ctx.tenantId .approval)).filter fun r => r.id == id := by
      rw [List.filter_filter]
      exact List.filter_congr fun r _ => Bool.and_comm _ _
    rw [hsplit, hsplit]
    exact congrArg _ (h.own .approval)
  exact ⟨eff, eff', heff, heff', by rw [hrows, hrows', hown]⟩

/-- What a statement of the ladder has to know for its answer to depend on the rows of its tenant alone. -/
def Sql.Known (tenantId : Uuid) (e : Env) (db : Db) : Sql → Prop
  | .insertApproval n =>
    e.uuid ∉ db.approvalIds ∧ uniqueOk .approval db.approval ∧
      ∃ p ∈ db.costPreview, p.id = n.costPreviewId ∧ p.tenantId = tenantId
  | .insertPreview _ => e.uuid ∉ db.previewIds ∧ uniqueOk .costPreview db.costPreview
  | .writeCard c => ∃ x ∈ db.approval, c.approvalId = some x.id ∧ x.tenantId = tenantId
  | _ => True

theorem NewPreview.row_id {n : NewPreview} {s : Session} {id : Uuid} {p : CostPreview} (h : n.row s id = .ok p) :
    p.id = id := by
  unfold NewPreview.row at h
  simp only [bind_eq_ok] at h
  obtain ⟨_, _, _, _, _, _, _, _, h⟩ := h
  cases h
  rfl

theorem runSql_same (h : SameBooks ctx.tenantId db db') {e : Env} {q : Sql} (hq : q.Known ctx.tenantId e db) :
    runSql (tenantContext ctx now) e db' q = runSql (tenantContext ctx now) e db q := by
  cases q with
  | findApproval tenantId key => simp only [runSql, h.approvals]
  | loadPreview id tenantId operation => simp only [runSql, h.previews]
  | assertBudget projected balance => simp only [runSql, h.assertBudgets]
  | insertApproval n =>
    obtain ⟨hid, hkeyed, p, hp, hn, ht⟩ := hq
    simp only [runSql, insertApproval_same h hkeyed (x := n.row e.uuid) hid hp ht (congrArg some hn.symm)]
  | insertLedger b => simp only [runSql, insertLedger_same h]
  | updateApproval id cost result =>
    refine bind_congr_ok fun cost' _ => bind_congr_ok fun result' _ => ?_
    obtain ⟨eff, eff', heff, heff', hrows⟩ := @updateApproval_same ctx now db db' h id cost' result'
    change (Tables.approval.exec .appApi _ db'.approval _ >>= _) = Tables.approval.exec .appApi _ db.approval _ >>= _
    rw [heff, heff']
    change Except.ok ((), eff'.rewritten.map Write.setApproval) = Except.ok ((), eff.rewritten.map Write.setApproval)
    rw [hrows]
  | writeCard c =>
    obtain ⟨x, hx, hc, ht⟩ := hq
    have hcard (detail : Option Json) := @writeCard_same ctx now db db' h { c with detail } x hx ht hc e.serial
    simp only [runSql, hcard]
  | selectBudget => simp only [runSql, h.currentBudgets]
  | monthSpend => simp only [runSql, h.monthSpends]
  | insertPreview n =>
    obtain ⟨hid, hkeyed⟩ := hq
    refine bind_congr_ok fun row hrow => ?_
    rw [insertPreview_same h hkeyed (NewPreview.row_id hrow ▸ hid)]

end Statements

end BaptistApi
