import BaptistApi.PatchStages
import Mathlib.Data.List.Permutation

/-!
# Is there a serial order?

A request that writes comes where its transaction commits, and one that changes nothing comes where it
reads. That is an order unless an UPDATE leaves out a column which another request has changed meanwhile.
-/

namespace BaptistApi

open BaptistApi.Calendar BaptistApi.FixedPoint BaptistApi.Program BaptistApi.RowSecurity
  BaptistApi.Transactions

def appliedInTurn (order : List LocationUpdate) (f : PatchedFields) : PatchedFields :=
  order.foldl (fun f p => p.over f) f

theorem appliedInTurn_append (order : List LocationUpdate) (p : LocationUpdate) (f : PatchedFields) :
    appliedInTurn (order ++ [p]) f = p.over (appliedInTurn order f) := by
  simp [appliedInTurn]

def PatchRequest.targets (l : Location) (a : PatchRequest) : Bool :=
  a.slug == l.slug && a.ctx.tenantId == l.tenantId

theorem targets_iff {l : Location} {a : PatchRequest} :
    a.targets l = true ↔ a.slug = l.slug ∧ a.ctx.tenantId = l.tenantId := by
  simp [PatchRequest.targets]

/-- The request has its place in the order: its transaction has committed, or it has nothing to write. -/
def PatchSlot.placed : PatchSlot → Bool
  | .running tx =>
    match tx.prog with
    | .ret _ => !tx.failed && tx.writes.isEmpty
    | _ => false
  | .committed .. => true
  | .rolledBack .. => false

/-- What the requests for the location `l` supply that have their place. -/
def placedPayloads (l : Location) (slots : List PatchSlot) : List LocationUpdate :=
  (slots.filter fun s => PatchSlot.placed s && s.call.targets l).map fun s => s.call.payload

/-- The row of `l` is what they make of it in some order. -/
def InOrder (l : Location) (w : PatchWorld) : Prop :=
  ∃ order, order.Perm (placedPayloads l w.slots) ∧ ∃ x ∈ w.db.location, locationKeys x = locationKeys l ∧
    x.patchedFields = appliedInTurn order l.patchedFields

section Step

variable {keys : List (Uuid × Uuid × String)} {l : Location} {w : PatchWorld} {i : ℕ} {s s' : PatchSlot}

theorem inOrder_unmoved (h : InOrder l w) (hi : w.slots[i]? = some s)
    (hplaced : (PatchSlot.placed s' && s'.call.targets l) = (PatchSlot.placed s && s.call.targets l))
    (hcall : s'.call = s.call) (effects : List (ℕ × PatchRequest)) :
    InOrder l { w with slots := w.slots.set i s', effects } := by
  obtain ⟨order, hperm, hrow⟩ := h
  refine ⟨order, ?_, hrow⟩
  rw [placedPayloads, filter_set_same hi hplaced fun _ => by rw [hcall]]
  exact hperm

theorem inOrder_placed (hdb : constraintsOk w.db) (h : InOrder l w) (hi : w.slots[i]? = some s)
    (hold : PatchSlot.placed s = false) (hnew : PatchSlot.placed s' = true) {db' : Db}
    {x y : Location} (hx : x ∈ w.db.location) (hslug : x.slug = s'.call.slug) (ht : x.tenantId = s'.call.ctx.tenantId)
    (hy : y ∈ db'.location) (hkeys : locationKeys y = locationKeys x)
    (hover : y.patchedFields = s'.call.payload.over x.patchedFields)
    (hothers : ∀ z ∈ w.db.location, z.id ≠ y.id → z ∈ db'.location) (effects : List (ℕ × PatchRequest)) :
    InOrder l { w with db := db', slots := w.slots.set i s', effects } := by
  obtain ⟨order, hperm, z, hz, hzkeys, hfields⟩ := h
  obtain ⟨hzid, hztenant, hzslug⟩ : z.id = l.id ∧ z.tenantId = l.tenantId ∧ z.slug = l.slug := by
    simpa [locationKeys] using hzkeys
  by_cases htarget : s'.call.targets l = true
  · obtain ⟨hs, htl⟩ := targets_iff.mp htarget
    obtain rfl : x = z := location_of_slug hdb hx hz (by rw [ht, htl, hztenant]) (by rw [hslug, hs, hzslug])
    refine ⟨order ++ [s'.call.payload], ?_, y, hy, hkeys.trans hzkeys, ?_⟩
    · refine ((hperm.append_right _).trans ?_)
      exact (filter_set_new hi (by simp [hold]) (by simp [hnew, htarget])).symm
    · rw [hover, hfields, appliedInTurn_append]
  · have hne : z.id ≠ y.id := by
      intro hid
      have hid : z.id = x.id := hid.trans (congrArg Prod.fst hkeys)
      obtain rfl : z = x := location_of_id hdb hz hx hid
      exact htarget (targets_iff.mpr ⟨hslug.symm.trans hzslug, ht.symm.trans hztenant⟩)
    refine ⟨order, ?_, z, hothers z hz hne, hzkeys, hfields⟩
    rw [placedPayloads, filter_set_same hi (by simp [hold, htarget]) (by simp [hold])]
    exact hperm

theorem placed_running {tx : PatchTx} : PatchSlot.placed (.running tx) = true ↔
    (∃ v, tx.prog = .ret v) ∧ tx.failed = false ∧ tx.writes = [] := by
  unfold PatchSlot.placed
  cases hp : tx.prog <;> simp [hp]

theorem not_placed_call {tx : PatchTx} {c : PatchSql} {k : PatchReply c → PatchProg} (h : tx.prog = .call c k) :
    PatchSlot.placed (.running tx) = false := by
  simp [PatchSlot.placed, h]

theorem not_placed_begun (a : PatchRequest) :
    PatchSlot.placed (.running { call := a, prog := patches.prog a }) = false := by
  rw [← Bool.not_eq_true, placed_running]
  rintro ⟨⟨v, hv⟩, -⟩
  change a.prog = .ret v at hv
  unfold PatchRequest.prog at hv
  split at hv <;> cases hv

theorem inOrder_step (hw : PatchesHold keys w) (h : InOrder l w) {label : PatchLabel} (hok : FindsUnwritten w label)
    {w' : PatchWorld} (hs : patches.step w label = some w') : InOrder l w' := by
  have hdb := hw.db.constraints
  cases patches.step_cases hs with
  | begin a =>
    obtain ⟨order, hperm, hrow⟩ := h
    refine ⟨order, ?_, hrow⟩
    simpa [placedPayloads, not_placed_begun a] using hperm
  | @move i _ s s' db' acted hi hm =>
    cases hm with
    | @exec e tx c k hp hwait =>
      obtain ⟨-, -, hidles⟩ := stage_exec hw hi hok hp hwait rfl
      generalize htx : tx.answer c k _ = tx' at hidles ⊢
      have hcall : tx'.call = tx.call := by rw [← htx]; rfl
      have hold := not_placed_call hp
      by_cases hnew : PatchSlot.placed (.running tx') = true
      · obtain ⟨⟨v, hv⟩, -, hnone⟩ := placed_running.mp hnew
        obtain ⟨x, hx, hslug, ht, hover⟩ := hidles v hv hnone
        exact inOrder_placed hdb h hi hold hnew hx hslug ht hx rfl hover.symm (fun z hz _ => hz) _
      · refine inOrder_unmoved h hi ?_ ?_ _
        · simp [hold, hnew]
        · exact hcall
    | lose hp hr =>
      obtain ⟨x, hx⟩ := PatchStage.error_raises (hw.slot i _ hi) hp .connectionLost
      cases hr
      refine inOrder_unmoved h hi ?_ ?_ _
      · simp [PatchSlot.placed, Transactions.Tx.answer, hp, hx]
      · rfl
    | @commit tx v hp hf =>
      rcases PatchStage.writes_cases (hw.slot i _ hi) with hwrites | ⟨row, hrow, hwrites⟩
      · rw [hwrites]
        refine inOrder_unmoved h hi ?_ ?_ _
        · simp only [PatchSlot.placed, hp, hf, hwrites]
          rfl
        · rfl
      · have hdb' := hrow.commit hdb
        obtain ⟨x, hx, hkeys, hslug, ht, hover⟩ := hrow.current
        rw [← hwrites] at hdb'
        have hold : PatchSlot.placed (.running tx) = false := by simp [PatchSlot.placed, hp, hwrites]
        exact @inOrder_placed l w i _ (.committed tx.call tx.writes v) hdb h hi hold rfl _ x row hx hslug ht hdb'.new
          hkeys hover hdb'.others _
    | abandon hp hf =>
      refine inOrder_unmoved h hi ?_ ?_ _
      · simp [PatchSlot.placed, hp, hf]
      · rfl
    | rollback hp =>
      refine inOrder_unmoved h hi ?_ ?_ _
      · simp [PatchSlot.placed, hp]
      · rfl

end Step

def PatchSlot.succeeded : PatchSlot → Bool
  | .committed .. => true
  | _ => false

def payloadsFor (l : Location) (w : PatchWorld) : List LocationUpdate :=
  ((w.slots.map Slot.call).filter (PatchRequest.targets l)).map (·.payload)

/-- The row of `l` is what the payloads make of it one after another, in some order. -/
def Serializable (l : Location) (w : PatchWorld) : Prop :=
  ∃ order, order.Perm (payloadsFor l w) ∧ ∃ x ∈ w.db.location, x.id = l.id ∧
    x.patchedFields = appliedInTurn order l.patchedFields

theorem inOrder_run {db : Db} (hdb : constraintsOk db) {l : Location} (hl : l ∈ db.location) {ls : List PatchLabel}
    {w : PatchWorld} (hrun : patches.run { db } ls = some w) (hok : patches.RunsUnder FindsUnwritten { db } ls) :
    InOrder l w := by
  have hholds : PatchesHold (db.location.map locationKeys) { db } := World.holds_start ⟨hdb, rfl⟩
  have hstart : InOrder l { db } := ⟨[], .rfl, l, hl, rfl, rfl⟩
  exact patches.run_invariant_under (fun w _ w' h hok hs => inOrder_step hok.2 h hok.1 hs) hstart
    ((patches_cooperate _).runsUnder hholds hok) hrun

/-- **Concurrent PATCHes are serializable** in every run whose UPDATEs find the columns that they leave out as
their requests have read them. -/
theorem patches_serializable {db : Db} (hdb : constraintsOk db) {ls : List PatchLabel} {w : PatchWorld}
    (hrun : patches.run { db } ls = some w) (hok : patches.RunsUnder FindsUnwritten { db } ls)
    (hall : ∀ s ∈ w.slots, PatchSlot.succeeded s = true) {l : Location} (hl : l ∈ db.location) : Serializable l w := by
  obtain ⟨order, hperm, x, hx, hkeys, hfields⟩ := inOrder_run hdb hl hrun hok
  have hplaced : placedPayloads l w.slots = payloadsFor l w := by
    unfold placedPayloads payloadsFor
    rw [List.filter_map, List.map_map]
    refine congrArg (List.map _) (List.filter_congr fun s hs => ?_)
    have hs := hall s hs
    cases s with
    | running tx => cases hs
    | committed a ws v => rfl
    | rolledBack a o => cases hs
  exact ⟨order, hplaced ▸ hperm, x, hx, congrArg Prod.fst hkeys, hfields⟩

/-! ## Two requests for one location -/

def patchNorth (p : LocationUpdate) : PatchRequest :=
  { ctx := clinicOperator, startedAt := noon, slug := "north", payload := p }

/-- Both read before either writes, and the second UPDATE comes after the first COMMIT. -/
def sideBySide (p p' : LocationUpdate) : List PatchLabel :=
  [.begin (patchNorth p), .begin (patchNorth p'), .exec 0 (), .exec 1 (), .exec 0 (), .finish 0, .exec 1 (), .finish 1]

def nameAndPause : List PatchLabel :=
  sideBySide { displayName := some (some "North") } { status := some (some "paused") }

theorem nameAndPause_runs : (patches.run { db := clinic .active } nameAndPause).isSome = true := by decide +kernel

theorem patches_serializable_clinic :
    Serializable (clinicLocation 10 "north") ((patches.run { db := clinic .active } nameAndPause).get nameAndPause_runs) :=
  patches_serializable (by decide +kernel) (Option.some_get _).symm (by decide +kernel) (by decide +kernel)
    List.mem_cons_self

def atOrigin : Location := { clinicLocation 10 "north" with lat := Numeric.store? 10 7 0, lng := Numeric.store? 10 7 0 }

def clinicAtOrigin : Db := { clinic .active with location := [atOrigin, clinicLocation 11 "south"] }

def moveEast : LocationUpdate := { lat := some (some 0), lng := some (some 5) }

def moveNorth : LocationUpdate := { lat := some (some 7), lng := some (some 0) }

theorem moves_run : (patches.run { db := clinicAtOrigin } (sideBySide moveEast moveNorth)).isSome = true := by
  decide +kernel

/-- Each of two moves writes one half of its coordinates, and the location is where neither sent it. -/
theorem crossed_moves_not_serializable :
    ¬ ∀ (db : Db) (ls : List PatchLabel) (w : PatchWorld) (l : Location), constraintsOk db →
      patches.run { db } ls = some w → (∀ s ∈ w.slots, PatchSlot.succeeded s = true) → l ∈ db.location →
      Serializable l w := by
  intro h
  let w := (patches.run { db := clinicAtOrigin } (sideBySide moveEast moveNorth)).get moves_run
  obtain ⟨order, hperm, x, hx, hid, hfields⟩ := h clinicAtOrigin _ w atOrigin (by decide +kernel)
    (Option.some_get _).symm (by decide +kernel) List.mem_cons_self
  have hpayloads : payloadsFor atOrigin w = [moveEast, moveNorth] := by decide +kernel
  have hfinal : ∀ x ∈ w.db.location, x.id = atOrigin.id →
      x.patchedFields ≠ appliedInTurn [moveEast, moveNorth] atOrigin.patchedFields ∧
        x.patchedFields ≠ appliedInTurn [moveNorth, moveEast] atOrigin.patchedFields := by decide +kernel
  rw [hpayloads, List.perm_pair] at hperm
  rcases hperm with rfl | rfl
  · exact (hfinal x hx hid).1 hfields
  · exact (hfinal x hx hid).2 hfields

end BaptistApi
