import BaptistApi.Agreement
import BaptistApi.LadderAlone

/-!
# The records of an execution

An approval, the preview that it refers to and the audit card that names it are written from three
sources: the arguments of `create_preview`, those of `execute`, and the session.
-/

namespace BaptistApi

open BaptistApi.FixedPoint BaptistApi.Program BaptistApi.Transactions

/-- The approval agrees with its preview and with its cards. -/
structure Consistent (db : Db) (x : Approval) : Prop where
  preview : ∀ p ∈ db.costPreview, x.costPreviewId = some p.id →
    p.tenantId = x.tenantId ∧ p.operation = x.operation ∧ p.locationId = x.locationId
  card : ∀ c ∈ db.auditCard, c.approvalId = some x.id →
    c.tenantId = x.tenantId ∧ c.locationId = x.locationId ∧ c.actorId = some x.approvedBy

def RecordsAgree (db : Db) : Prop := ∀ x ∈ db.approval, Consistent db x

instance (db : Db) (x : Approval) : Decidable (Consistent db x) :=
  decidable_of_iff
    ((∀ p ∈ db.costPreview, x.costPreviewId = some p.id →
        p.tenantId = x.tenantId ∧ p.operation = x.operation ∧ p.locationId = x.locationId) ∧
      ∀ c ∈ db.auditCard, c.approvalId = some x.id →
        c.tenantId = x.tenantId ∧ c.locationId = x.locationId ∧ c.actorId = some x.approvedBy)
    ⟨fun h => ⟨h.1, h.2⟩, fun h => ⟨h.preview, h.card⟩⟩

instance (db : Db) : Decidable (RecordsAgree db) := List.decidableBAll (Consistent db) db.approval

/-- The execution is for the location of its preview, approved by whoever the session acts for. -/
structure OwnPreview (db : Db) (a : Call) (r : ExecuteRequest) : Prop where
  location : ∀ p ∈ db.costPreview, p.id = r.previewId → p.locationId = r.locationId
  person : r.approvedBy = a.ctx.actorId

instance (db : Db) (a : Call) (r : ExecuteRequest) : Decidable (OwnPreview db a r) :=
  decidable_of_iff
    ((∀ p ∈ db.costPreview, p.id = r.previewId → p.locationId = r.locationId) ∧ r.approvedBy = a.ctx.actorId)
    ⟨fun h => ⟨h.1, h.2⟩, fun h => ⟨h.location, h.person⟩⟩

def Call.execution (a : Call) : Option ExecuteRequest :=
  match a.action with
  | .execute r => some r
  | .createPreview _ => none

def commitsNext : LadderSlot → Bool
  | .running ⟨_, .ret _, _, false, _⟩ => true
  | _ => false

/-- The step commits a new approval only for its own preview. -/
def CommitsOwn (w : LadderWorld) : LadderLabel → Prop
  | .finish i => ∀ s ∈ w.slots[i]?, commitsNext s = true → w.acts i ≠ 0 →
      ∀ r ∈ s.call.execution, OwnPreview w.db s.call r
  | _ => True

instance (w : LadderWorld) : ∀ l, Decidable (CommitsOwn w l)
  | .finish _ => inferInstanceAs (Decidable (∀ s ∈ (_ : Option LadderSlot), _))
  | .begin _ => isTrue trivial
  | .exec _ _ => isTrue trivial
  | .lose _ => isTrue trivial

/-! ## What a commit adds -/

theorem RecordsAgree.commit {db : Db} {a : Call} {n : ℕ} {issued : List Cmd} {ws : List Write} {v : Value}
    (hdb : constraintsOk db) (h : RecordsAgree db) (hend : Ending a db n issued ws v)
    (hown : n ≠ 0 → ∀ r, a.action = .execute r → OwnPreview db a r) : RecordsAgree (ladder.view db ws) := by
  have hk := Keyed.of_constraints hdb
  cases hend with
  | replayed => exact h
  | @quoted _ r gates p ha ht hl hq hu =>
    refine fun x hx => ⟨fun q hq href => ?_, (h x hx).card⟩
    rcases List.mem_append.mp hq with hq | hq
    · exact (h x hx).preview q hq href
    · -- Nobody refers to a preview that was not there.
      rw [List.mem_singleton.mp hq] at href
      obtain ⟨y, hy, hid⟩ := List.mem_map.mp (((hdb .approval).2 x hx).2.2.1 p.id href)
      have hclash := ((uniqueOk_append .costPreview).mp hu).2 y hy
      simp [clash, hid] at hclash
  | @executed _ r id v ls row card hopened hl hr ht hv hcard hloc hactor hperson =>
    obtain ⟨howns, hwho⟩ := hown (by omega) r hopened.action
    have hid := hr.id_eq
    rw [view_executed hid hopened.unique]
    obtain ⟨cost, result, -, rfl⟩ := hr
    refine fun x hx => ?_
    rcases List.mem_append.mp hx with hx | hx
    · refine ⟨(h x hx).preview, fun c hc hname => ?_⟩
      rcases List.mem_append.mp hc with hc | hc
      · exact (h x hx).card c hc hname
      · rw [List.mem_singleton.mp hc, hcard, Option.some.injEq] at hname
        exact absurd hname.symm (hopened.fresh hx)
    · rw [List.mem_singleton.mp hx]
      refine ⟨fun p hp href => ?_, fun c hc hname => ?_⟩
      · obtain ⟨q, hq, hqid, hqt, hqop, -⟩ := hopened.preview
        have hpid : r.previewId = p.id := Option.some.inj href
        obtain rfl : p = q := hk.eq_of_id hq hp (hpid.symm.trans hqid.symm)
        exact ⟨hqt.trans hopened.tenant.symm, hqop, howns p hp hqid⟩
      · rcases List.mem_append.mp hc with hc | hc
        · -- Nobody has a card of an approval that was not there.
          obtain ⟨y, hy, hyid⟩ := List.mem_map.mp (((hdb .auditCard).2 c hc).2.2.2 _ hname)
          exact absurd hyid (hopened.fresh hy)
        · rw [List.mem_singleton.mp hc]
          exact ⟨ht.trans hopened.tenant.symm, hloc, hperson.trans (congrArg some hwho.symm)⟩

theorem records_step {w w' : LadderWorld} {l : LadderLabel} (hw : LadderHolds w) (hdb : constraintsOk w.db)
    (h : RecordsAgree w.db) (hown : CommitsOwn w l) (hs : ladder.step w l = some w') :
    constraintsOk w'.db ∧ RecordsAgree w'.db := by
  cases ladder.step_cases hs with
  | begin => exact ⟨hdb, h⟩
  | @move i _ s s' db' acted hi hm =>
    cases hm with
    | @commit tx v hp hf =>
      have hend := ending_of_commit hw hi hp
      refine ⟨hend.constraintsOk hdb, h.commit hdb hend fun hn r ha => ?_⟩
      obtain ⟨call, prog, writes, failed, issued⟩ := tx
      subst hp hf
      refine hown _ hi rfl hn r ?_
      unfold Call.execution
      rw [Slot.call, ha]
      rfl
    | _ => exact ⟨hdb, h⟩

/-- **The approval record is coherent** in every run whose new approvals are for the location of their
preview and approved by the actor of the session. -/
theorem records_agree {db : Db} (hdb : constraintsOk db) (h0 : RecordsAgree db) {ls : List LadderLabel}
    {w : LadderWorld} (hown : ladder.RunsUnder CommitsOwn { db } ls) (hrun : ladder.run { db } ls = some w) :
    RecordsAgree w.db := by
  have hstart : LadderHolds { db } ∧ constraintsOk db ∧ RecordsAgree db :=
    ⟨World.holds_start (Keyed.of_constraints hdb), hdb, h0⟩
  have hstep (w : LadderWorld) (l : LadderLabel) (w' : LadderWorld)
      (h : LadderHolds w ∧ constraintsOk w.db ∧ RecordsAgree w.db) (hl : CommitsOwn w l)
      (hs : ladder.step w l = some w') : LadderHolds w' ∧ constraintsOk w'.db ∧ RecordsAgree w'.db :=
    ⟨ladder_step_holds h.1 hs, records_step h.1 h.2.1 h.2.2 hl hs⟩
  exact (ladder.run_invariant_under hstep hstart hown hrun).2.2

/-- The clinic has a preview of 60 for its northern location. -/
def northShop : Db := { shop with costPreview := [{ clinicPreview with locationId := some 10 }] }

def buyFor (location : Uuid) : Call :=
  { ctx := clinicUser, startedAt := noon
    action := .execute
      { tenantId := 1, locationId := some location, operation := "post", approvedBy := 2, previewId := 21
        idempotencyKey := "a", repriceCostUsd := 60, providerBalanceUsd := none } }

def buying (location : Uuid) : List LadderLabel :=
  .begin (buyFor location) :: List.replicate 8 (.exec 0 (queued 30 1)) ++ [.finish 0]

theorem buying_north_runs : (ladder.run { db := northShop } (buying 10)).isSome = true := by decide +kernel

theorem buying_south_runs : (ladder.run { db := northShop } (buying 11)).isSome = true := by decide +kernel

theorem records_agree_north : RecordsAgree ((ladder.run { db := northShop } (buying 10)).get buying_north_runs).db :=
  records_agree (by decide +kernel) (by decide +kernel) (by decide +kernel) (Option.some_get buying_north_runs).symm

/-- The preview of one location pays for another one. -/
theorem northern_preview_spent_south :
    ¬ ∀ (db : Db) (ls : List LadderLabel) (w : LadderWorld), constraintsOk db → RecordsAgree db →
      ladder.run { db } ls = some w → RecordsAgree w.db := by
  intro h
  have hagree := h northShop (buying 11) _ (by decide +kernel) (by decide +kernel)
    (Option.some_get buying_south_runs).symm
  have hdiffer : ¬ RecordsAgree ((ladder.run { db := northShop } (buying 11)).get buying_south_runs).db := by
    decide +kernel
  exact hdiffer hagree

end BaptistApi
