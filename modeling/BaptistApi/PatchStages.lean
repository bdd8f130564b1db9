import BaptistApi.Patches

/-!
# What holds beside patching requests

The stages of one request, and the rows that requests hold: an UPDATE waits for the row of another one.
-/

namespace BaptistApi

open BaptistApi.Calendar BaptistApi.FixedPoint BaptistApi.Program BaptistApi.RowSecurity
  BaptistApi.Transactions

/-! ## What one request has done -/

/-- The row that a request has written: its payload applied to the row that is there. -/
structure Rewrites (a : PatchRequest) (db : Db) (row : Location) : Prop where
  paired : row.lat = none ↔ row.lng = none
  current : ∃ l ∈ db.location, locationKeys row = locationKeys l ∧ l.slug = a.slug ∧ l.tenantId = a.ctx.tenantId ∧
    row.patchedFields = a.payload.over l.patchedFields

/-- A location that has been read, whose UPDATE is to come. -/
structure Loaded (a : PatchRequest) (db : Db) (l : Location) (s : LocationSet) : Prop where
  operator : a.ctx.role ∈ operatorRoles
  keys : locationKeys l ∈ db.location.map locationKeys
  slug : l.slug = a.slug
  tenant : l.tenantId = a.ctx.tenantId
  columns : (a.payload.changes l).columns = .ok s

/-- The payload changes nothing in the row that is there. -/
def Idles (a : PatchRequest) (db : Db) : Prop :=
  ∃ l ∈ db.location, l.slug = a.slug ∧ l.tenantId = a.ctx.tenantId ∧
    a.payload.over l.patchedFields = l.patchedFields

inductive PatchStage (db : Db) (tx : PatchTx) : Prop where
  | fresh (hp : tx.prog = tx.call.prog) (hw : tx.writes = []) (hf : tx.failed = false)
  | loaded (l : Location) (s : LocationSet) (hl : Loaded tx.call db l s) (hw : tx.writes = []) (hf : tx.failed = false)
      (hp : ∃ k, tx.prog = .call (.updateLocation l.id s) k ∧
        (∀ e, k (.error e) = .raise (.unhandled (.sql e))) ∧ k (.ok 1) = .ret (tx.call.payload.detail l s))
  | unchanged (d : LocationDetail) (hp : tx.prog = .ret d) (hw : tx.writes = []) (hf : tx.failed = false)
  | written (d : LocationDetail) (row : Location) (hr : Rewrites tx.call db row) (hp : tx.prog = .ret d)
      (hw : tx.writes = [row]) (hf : tx.failed = false)
  | raised (x : PatchExc) (hp : tx.prog = .raise x) (hw : tx.writes = [])

theorem PatchRequest.prog_call {a : PatchRequest} {c : PatchSql} {k : PatchReply c → PatchProg}
    (h : a.prog = .call c k) : a.ctx.role ∈ operatorRoles ∧ c = .selectBySlug a.slug := by
  unfold PatchRequest.prog at h
  split at h
  · rename_i hrole
    cases h
    exact ⟨hrole, rfl⟩
  · cases h

theorem changes_of_flush {a : PatchRequest} {l : Location} {v : LocationDetail} (h : a.flush l = .ret v) :
    a.payload.changes l = {} := by
  unfold PatchRequest.flush at h
  split at h
  · cases h
  · split at h
    · assumption
    · cases h

theorem stage_flush {db : Db} {a : PatchRequest} {l : Location} (hrole : a.ctx.role ∈ operatorRoles)
    (hl : l ∈ db.location) (hslug : l.slug = a.slug) (ht : l.tenantId = a.ctx.tenantId) (issued : List PatchSql) :
    PatchStage db { call := a, prog := a.flush l, issued } := by
  cases hcolumns : (a.payload.changes l).columns with
  | error e => exact .raised (.unhandled e) (by simp only [PatchRequest.flush, hcolumns]) rfl
  | ok s =>
    by_cases hnone : a.payload.changes l = {}
    · exact .unchanged (a.payload.detail l s) (by simp only [PatchRequest.flush, hcolumns, if_pos hnone]) rfl rfl
    · refine .loaded l s ⟨hrole, List.mem_map_of_mem hl, hslug, ht, hcolumns⟩ rfl rfl ?_
      simp only [PatchRequest.flush, hcolumns, if_neg hnone]
      exact ⟨_, rfl, fun e => rfl, rfl⟩

theorem stage_select {db : Db} {tx : PatchTx} {e : Unit} {c : PatchSql} {k : PatchReply c → PatchProg}
    (hp : tx.prog = .call c k) (hfresh : tx.prog = tx.call.prog) (hw : tx.writes = []) (hf : tx.failed = false)
    {tx' : PatchTx} (htx : tx' = tx.answer c k (patches.exec tx.call e tx.failed (patches.view db tx.writes) c)) :
    PatchStage db tx' ∧ tx'.writes = [] ∧ ∀ v, tx'.prog = .ret v → Idles tx'.call db := by
  obtain ⟨a, prog, writes, failed, issued⟩ := tx
  simp only at hp hfresh hw hf
  subst hw hf hp htx
  obtain ⟨hrole, rfl⟩ := PatchRequest.prog_call hfresh.symm
  unfold PatchRequest.prog at hfresh
  rw [if_pos hrole] at hfresh
  cases hfresh
  by_cases hslug : textStorable a.slug = true
  · rw [Engine.view_nil, exec_selectBySlug hslug]
    cases hone : oneOrNone ((Scope.locations ⟨a.session, db⟩).filter fun l => l.slug == a.slug) with
    | error u =>
      simp only [Transactions.Tx.answer, hone]
      exact ⟨.raised .multipleResults rfl rfl, rfl, fun v hv => by cases hv⟩
    | ok o =>
      cases o with
      | none =>
        simp only [Transactions.Tx.answer, hone]
        exact ⟨.raised (.problem .notFound) rfl rfl, rfl, fun v hv => by cases hv⟩
      | some l =>
        have hmem : l ∈ (Scope.locations ⟨a.session, db⟩).filter fun l => l.slug == a.slug := by
          rw [oneOrNone_eq_some.mp hone]
          exact List.mem_singleton_self l
        rw [List.mem_filter, PatchRequest.session, mem_locations_operator hrole, beq_iff_eq] at hmem
        obtain ⟨⟨hl, ht⟩, hs⟩ := hmem
        simp only [Transactions.Tx.answer, hone]
        exact ⟨stage_flush hrole hl hs ht _, rfl, fun v hv =>
          ⟨l, hl, hs, ht, over_of_unchanged (changes_of_flush hv)⟩⟩
  · rw [Engine.view_nil, exec_selectBySlug_error hslug]
    exact ⟨.raised _ rfl rfl, rfl, fun v hv => by cases hv⟩

theorem Loaded.current {a : PatchRequest} {db : Db} {l : Location} {s : LocationSet} (h : Loaded a db l s) :
    ∃ x ∈ db.location, locationKeys x = locationKeys l ∧ x.slug = a.slug ∧ x.tenantId = a.ctx.tenantId := by
  obtain ⟨x, hx, hkeys⟩ := List.mem_map.mp h.keys
  obtain ⟨-, htenant, hslug⟩ : x.id = l.id ∧ x.tenantId = l.tenantId ∧ x.slug = l.slug := by
    simpa [locationKeys] using hkeys
  exact ⟨x, hx, hkeys, hslug.trans h.slug, htenant.trans h.tenant⟩

theorem stage_update {db : Db} (hdb : constraintsOk db) {tx : PatchTx} {e : Unit} {l : Location} {s : LocationSet}
    {k : PatchReply (.updateLocation l.id s) → PatchProg} (hl : Loaded tx.call db l s) (hw : tx.writes = [])
    (hf : tx.failed = false) (herror : ∀ e, k (.error e) = .raise (.unhandled (.sql e)))
    (hok : k (.ok 1) = .ret (tx.call.payload.detail l s))
    (hfinds : ∀ x ∈ db.location, x.id = l.id → StillHolds tx.call.payload s x) {tx' : PatchTx}
    (htx : tx' = tx.answer (.updateLocation l.id s) k
      (patches.exec tx.call e tx.failed (patches.view db tx.writes) (.updateLocation l.id s))) :
    PatchStage db tx' ∧ (∀ r ∈ tx'.writes, r.id = l.id) ∧ ∀ v, tx'.prog = .ret v → tx'.writes ≠ [] := by
  obtain ⟨x, hx, hkeys, hslug, ht⟩ := hl.current
  have hid : x.id = l.id := congrArg Prod.fst hkeys
  rw [hw, hf, Engine.view_nil] at htx
  cases hexec : execStatement tx.call.session db (s.statement tx.call.session.now l.id) with
  | error x =>
    rw [exec_updateLocation_error hexec] at htx
    rw [htx]
    refine ⟨.raised _ (herror x) rfl, fun r hr => (by cases hr), fun v hv => ?_⟩
    simp only [Transactions.Tx.answer, herror] at hv
    cases hv
  | ok eff =>
    have hrewritten : eff.rewritten = [s.apply tx.call.session.now x] := by
      rw [← hid] at hexec
      cases (exec_statement hdb hl.operator hx ht s).symm.trans (execStatement_ok hexec).1
      exact rewritten_effect hdb hx s _
    have hpaired : (s.apply tx.call.session.now x).lat = none ↔ (s.apply tx.call.session.now x).lng = none :=
      (execStatement_location hdb hl.operator hx ht s).mp ⟨eff, by rw [hid]; exact hexec, congrArg List.length hrewritten⟩
    rw [exec_updateLocation hexec hrewritten] at htx
    have hwrites : tx'.writes = [s.apply tx.call.session.now x] := by simp [htx, Transactions.Tx.answer, hw]
    have hcall : tx'.call = tx.call := by rw [htx]; rfl
    refine ⟨.written _ (s.apply tx.call.session.now x) ⟨hpaired, x, hx, rfl, ?_⟩ (by rw [htx]; exact hok) hwrites ?_, ?_, ?_⟩
    · rw [hcall]
      exact ⟨hslug, ht, over_of_stillHolds hl.columns (hfinds x hx hid) _⟩
    · simp [htx, Transactions.Tx.answer, hf]
    · intro r hr
      rw [hwrites, List.mem_singleton] at hr
      rw [hr]
      exact hid
    · simp [hwrites]

theorem PatchStage.error_raises {db : Db} {tx : PatchTx} (h : PatchStage db tx) {c : PatchSql}
    {k : PatchReply c → PatchProg} (hp : tx.prog = .call c k) (e : SqlError) : ∃ x, k (.error e) = .raise x := by
  cases h with
  | fresh hfresh =>
    rw [hp] at hfresh
    unfold PatchRequest.prog at hfresh
    split at hfresh <;> cases hfresh
    exact ⟨_, rfl⟩
  | loaded l s hl hw hf hcall =>
    obtain ⟨k', hcall, herror, -⟩ := hcall
    rw [hp] at hcall
    cases hcall
    exact ⟨_, herror e⟩
  | unchanged d hret => rw [hp] at hret; cases hret
  | written d row hr hret => rw [hp] at hret; cases hret
  | raised x hraise => rw [hp] at hraise; cases hraise

/-! ## COMMIT -/

/-- One row has its new version, and everything else is as it was. -/
structure Rewritten (db db' : Db) (row : Location) : Prop where
  constraints : constraintsOk db'
  keys : db'.location.map locationKeys = db.location.map locationKeys
  new : row ∈ db'.location
  others : ∀ l ∈ db.location, l.id ≠ row.id → l ∈ db'.location

theorem rewritten_of_commit {db : Db} (hdb : constraintsOk db) {row l : Location} (hl : l ∈ db.location)
    (hkeys : locationKeys row = locationKeys l) (hpaired : row.lat = none ↔ row.lng = none) :
    Rewritten db (patches.apply db row) row := by
  classical
  have hid : row.id = l.id := congrArg Prod.fst hkeys
  let f (x : Location) : Location := if x = l then row else x
  have hf (x : Location) : locationKeys (f x) = locationKeys x := by
    dsimp only [f]
    split
    · rename_i hx
      rw [hkeys, hx]
    · rfl
  have hrows : db.location.map (fun x => if x.id = row.id then row else x) = db.location.map f := by
    refine List.map_congr_left fun x hx => if_congr ?_ rfl rfl
    rw [hid]
    exact ⟨location_of_id hdb hx hl, fun h => h ▸ rfl⟩
  have hmem {x : Location} (hx : x ∈ db.location) : f x ∈ (patches.apply db row).location := by
    change f x ∈ db.location.map _
    rw [hrows]
    exact List.mem_map_of_mem hx
  refine ⟨?_, ?_, ?_, fun x hx hne => ?_⟩
  · change constraintsOk (db.set .location (db.location.map _))
    rw [hrows, constraintsOk_rewrite hdb hf]
    intro x hx
    dsimp only [f]
    split
    · exact hpaired
    · exact ((hdb .location).2 x hx).2
  · change (db.location.map _).map locationKeys = _
    rw [hrows, List.map_map]
    exact List.map_congr_left fun x _ => hf x
  · have hnew := hmem hl
    rwa [show f l = row from if_pos rfl] at hnew
  · have hold := hmem hx
    rwa [show f x = x from if_neg fun h => hne (by rw [h, hid])] at hold

theorem PatchStage.after_commit {db db' : Db} {row : Location} {tx : PatchTx} (h : PatchStage db tx)
    (hr : Rewritten db db' row) (hapart : ∀ r ∈ tx.writes, r.id ≠ row.id) : PatchStage db' tx := by
  cases h with
  | fresh hp hw hf => exact .fresh hp hw hf
  | loaded l s hl hw hf hp =>
    exact .loaded l s ⟨hl.operator, by rw [hr.keys]; exact hl.keys, hl.slug, hl.tenant, hl.columns⟩ hw hf hp
  | unchanged d hp hw hf => exact .unchanged d hp hw hf
  | written d row' hrow hp hw hf =>
    obtain ⟨l, hl, hkeys, hrest⟩ := hrow.current
    have hid : row'.id = l.id := congrArg Prod.fst hkeys
    have hne : l.id ≠ row.id := hid ▸ hapart row' (by rw [hw]; exact List.mem_singleton_self row')
    exact .written d row' ⟨hrow.paired, l, hr.others l hl hne, hkeys, hrest⟩ hp hw hf
  | raised x hp hw => exact .raised x hp hw

/-! ## What holds in every world -/

def PatchStaged (db : Db) (_ : ℕ) : PatchSlot → Prop
  | .running tx => PatchStage db tx
  | _ => True

/-- Two requests hold versions of different rows. -/
def RowsApart : PatchSlot → PatchSlot → Prop
  | .running tx, .running tx' => ∀ r ∈ tx.writes, ∀ r' ∈ tx'.writes, r.id ≠ r'.id
  | _, _ => True

theorem RowsApart.symm {s t : PatchSlot} (h : RowsApart s t) : RowsApart t s := by
  cases s <;> cases t <;> first | trivial | exact fun r hr r' hr' heq => h r' hr' r hr heq.symm

theorem apart_of_nothing {tx : PatchTx} (h : tx.writes = []) (t : PatchSlot) : RowsApart (.running tx) t := by
  cases t with
  | running tx' =>
    intro r hr
    rw [h] at hr
    cases hr
  | committed => trivial
  | rolledBack => trivial

structure PatchDb (keys : List (Uuid × Uuid × String)) (db : Db) : Prop where
  constraints : constraintsOk db
  keys : db.location.map locationKeys = keys

abbrev PatchesHold (keys : List (Uuid × Uuid × String)) (w : PatchWorld) : Prop :=
  w.Holds (PatchDb keys) PatchStaged RowsApart

theorem stage_exec {w : PatchWorld} {keys : List (Uuid × Uuid × String)} (hw : PatchesHold keys w) {i : ℕ} {e : Unit}
    {tx : PatchTx} (hi : w.slots[i]? = some (.running tx)) (hok : FindsUnwritten w (.exec i e)) {c : PatchSql}
    {k : PatchReply c → PatchProg} (hp : tx.prog = .call c k)
    (hwait : tx.failed = false → ∀ t ∈ w.others i, patches.waits tx.call e c t.writes = false) {tx' : PatchTx}
    (htx : tx' = tx.answer c k (patches.exec tx.call e tx.failed (patches.view w.db tx.writes) c)) :
    PatchStage w.db tx' ∧ (∀ t ∈ w.others i, ∀ r ∈ tx'.writes, ∀ r' ∈ t.writes, r.id ≠ r'.id) ∧
      ∀ v, tx'.prog = .ret v → tx'.writes = [] → Idles tx'.call w.db := by
  have hstage : PatchStage w.db tx := hw.slot i _ hi
  cases hstage with
  | fresh hfresh hwrites hf =>
    obtain ⟨hstage, hnone, hidles⟩ := stage_select hp hfresh hwrites hf htx
    exact ⟨hstage, fun t _ r hr => (by rw [hnone] at hr; cases hr), fun v hv _ => hidles v hv⟩
  | loaded l s hl hwrites hf hcall =>
    obtain ⟨k', hcall, herror, hone⟩ := hcall
    rw [hp] at hcall
    cases hcall
    have hfinds : ∀ x ∈ w.db.location, x.id = l.id → StillHolds tx.call.payload s x :=
      hok _ hi (l.id, s) (by simp [PatchSlot.update?, hp])
    obtain ⟨hstage, hids, hwritten⟩ := stage_update hw.db.constraints hl hwrites hf herror hone hfinds htx
    refine ⟨hstage, fun t ht r hr r' hr' heq => ?_, fun v hv hnone => absurd hnone (hwritten v hv)⟩
    have hfree := hwait hf t ht
    simp only [patches, List.any_eq_false, beq_iff_eq] at hfree
    exact hfree r' hr' (heq.symm.trans (hids r hr))
  | unchanged d hret => rw [hp] at hret; cases hret
  | written d row hr hret => rw [hp] at hret; cases hret
  | raised x hraise => rw [hp] at hraise; cases hraise

theorem PatchStage.writes_of_failed {db : Db} {tx : PatchTx} (h : PatchStage db tx) (hf : tx.failed = true) :
    tx.writes = [] := by
  cases h with
  | fresh hp hw hno => rw [hno] at hf; cases hf
  | loaded l s hl hw hno => rw [hno] at hf; cases hf
  | unchanged d hp hw hno => rw [hno] at hf; cases hf
  | written d row hr hp hw hno => rw [hno] at hf; cases hf
  | raised x hp hw => exact hw

theorem PatchStage.writes_cases {db : Db} {tx : PatchTx} (h : PatchStage db tx) :
    tx.writes = [] ∨ ∃ row, Rewrites tx.call db row ∧ tx.writes = [row] := by
  cases h with
  | fresh hp hw => exact Or.inl hw
  | loaded l s hl hw => exact Or.inl hw
  | unchanged d hp hw => exact Or.inl hw
  | written d row hr hp hw => exact Or.inr ⟨row, hr, hw⟩
  | raised x hp hw => exact Or.inl hw

theorem Rewrites.commit {a : PatchRequest} {db : Db} {row : Location} (h : Rewrites a db row) (hdb : constraintsOk db) :
    Rewritten db (patches.view db [row]) row := by
  obtain ⟨l, hl, hkeys, -⟩ := h.current
  exact rewritten_of_commit hdb hl hkeys h.paired

theorem patches_cooperate (keys : List (Uuid × Uuid × String)) :
    patches.Cooperates (PatchDb keys) PatchStaged RowsApart FindsUnwritten where
  begins w a _ _ := by
    have hapart : ∀ t, RowsApart (.running { call := a, prog := a.prog }) t := apart_of_nothing rfl
    exact ⟨.fresh rfl rfl rfl, fun _ t _ => ⟨hapart t, (hapart t).symm⟩⟩
  moves w l i s s' db' acted hw hok hi hm := by
    have same {s' : PatchSlot} (hself : PatchStaged w.db (w.acts i + acted.toNat) s')
        (hapart : ∀ (j : ℕ) t, j ≠ i → w.slots[j]? = some t → RowsApart s' t) :
        PatchDb keys w.db ∧ PatchStaged w.db (w.acts i + acted.toNat) s' ∧
          ∀ (j : ℕ) t, j ≠ i → w.slots[j]? = some t → PatchStaged w.db (w.acts j) t ∧ RowsApart s' t ∧ RowsApart t s' :=
      ⟨hw.db, hself, fun j t hj ht => ⟨hw.slot j t ht, hapart j t hj ht, (hapart j t hj ht).symm⟩⟩
    have ended {a : PatchRequest} {o : Except PatchExc LocationDetail} (t : PatchSlot) :
        RowsApart (.rolledBack a o) t := by cases t <;> trivial
    cases hm with
    | exec hp hwait =>
      obtain ⟨hstage, hapart, -⟩ := stage_exec hw hi hok hp hwait rfl
      refine same hstage fun j t hj ht => ?_
      cases t with
      | running tx' =>
        by_cases hf : tx'.failed = true
        · have hnone := PatchStage.writes_of_failed (hw.slot j _ ht) hf
          exact (apart_of_nothing hnone _).symm
        · exact hapart tx' (World.mem_others.mpr ⟨j, hj, ht, by simpa using hf⟩)
      | committed => trivial
      | rolledBack => trivial
    | @lose tx c k r hp hr =>
      cases hr
      obtain ⟨x, hx⟩ := PatchStage.error_raises (hw.slot i _ hi) hp .connectionLost
      exact same (.raised x hx rfl) fun j t _ _ => apart_of_nothing rfl t
    | @commit tx v hp hf =>
      have committed (t : PatchSlot) : RowsApart (.committed tx.call tx.writes v) t := by cases t <;> trivial
      rcases PatchStage.writes_cases (hw.slot i _ hi) with hwrites | ⟨row, hrow, hwrites⟩
      · rw [hwrites]
        exact same trivial fun j t _ _ => hwrites ▸ committed t
      · have hdb' := hrow.commit hw.db.constraints
        rw [← hwrites] at hdb'
        refine ⟨⟨hdb'.constraints, hdb'.keys.trans hw.db.keys⟩, trivial, fun j t hj ht => ?_⟩
        refine ⟨?_, committed t, (committed t).symm⟩
        cases t with
        | running tx' =>
          refine PatchStage.after_commit (hw.slot j _ ht) hdb' fun r hr => ?_
          exact hw.pair j i _ _ hj ht hi r hr row (by rw [hwrites]; exact List.mem_singleton_self row)
        | committed => trivial
        | rolledBack => trivial
    | abandon hp hf => exact same trivial fun j t _ _ => ended t
    | rollback hp => exact same trivial fun j t _ _ => ended t

end BaptistApi
