import BaptistApi.ServiceRuns

/-!
# What holds whatever the others do

A request may find something else than it has read before. What it may still rely on: the location that it has loaded
is there, and a write that it has made can be committed.
-/

namespace BaptistApi

open BaptistApi.Calendar BaptistApi.FixedPoint BaptistApi.Program BaptistApi.RowSecurity BaptistApi.Transactions

/-! ## Statements and writes -/

/-- The location of an UPDATE is there, if not as it was loaded. -/
def RouteSql.Refers (a : Arrival) (db : Db) : RouteSql → Prop
  | .insert .. => a.ctx.role ∈ operatorRoles
  | .update l _ => a.ctx.role ∈ operatorRoles ∧ ∃ x ∈ db.location, x.id = l.id ∧ x.tenantId = a.ctx.tenantId
  | _ => True

/-- The write can be committed. -/
inductive RouteWrite.Ready (a : Arrival) (db : Db) : RouteWrite → Prop where
  | added {r : Location} (ht : r.tenantId = a.ctx.tenantId) (hu : uniqueOk .location (db.location ++ [r]))
      (hr : rowOk db .location r) : Ready a db (.added r)
  | put {l : Location} {s : LocationSet} (hl : l ∈ db.location) (ht : l.tenantId = a.ctx.tenantId)
      (hr : rowOk db .location (s.apply a.now l)) : Ready a db (.put (s.apply a.now l))

section Writes

variable {a b : Arrival} {db : Db} {x y : RouteWrite} {u : ApiAnswer}

theorem mem_put (hdb : constraintsOk db) {l : Location} (hl : l ∈ db.location) (s : LocationSet) (now : Timestamp)
    (z : Location) : z ∈ (RouteWrite.apply db (.put (s.apply now l))).location ↔
      z = s.apply now l ∨ z ∈ db.location ∧ z.id ≠ l.id :=
  mem_rewriteLocation hdb hl (fun _ => s.apply now l) z

theorem tenants_apply (x : RouteWrite) (db : Db) : (x.apply db).tenant = db.tenant := by cases x <;> rfl

theorem ready_of_written (hdb : constraintsOk db) (h : Written a db u x) : x.Ready a db := by
  have hok (ser : Serializer) (byName : OrderByName) := h.constraintsOk ser byName hdb
  cases h with
  | created hreq hrole hinsert =>
    obtain ⟨hrow, hu, hr⟩ := (insertLocation_ok hrole).mp hinsert
    exact .added (LocationCreate.row_cases hrow).2.tenantId hu hr
  | @updated slug p l s hreq hrole hslug hl ht =>
    have hmem := (mem_put hdb hl s a.now (s.apply a.now l)).mpr (Or.inl rfl)
    have hr := (hok plainSerializer byNameThenId .location).2 _ hmem
    exact .put hl ht ((rowOk_location_congr (tenants_apply _ db) _).mp hr)

namespace RouteWrite.Ready

theorem commit (hdb : constraintsOk db) (h : x.Ready a db) : constraintsOk (x.apply db) := by
  cases h with
  | added ht hu hr => exact constraintsOk_add hdb hu hr
  | @put l s hl ht hr =>
    have hkeys (z : Location) : locationKeys (if z.id == l.id then s.apply a.now z else z) = locationKeys z := by
      split <;> rfl
    have hsame := rewriteLocation_const hdb hl (s.apply a.now)
    change constraintsOk (db.rewriteLocation l.id fun _ => s.apply a.now l)
    rw [hsame]
    refine (constraintsOk_rewrite hdb hkeys).mpr fun z hz => ?_
    split
    · rename_i hid
      rw [location_of_id hdb hz hl (eq_of_beq hid)]
      exact hr.2
    · exact ((hdb .location).2 z hz).2

theorem stays (hdb : constraintsOk db) (hy : y.Ready b db) {l : Location} (hl : l ∈ db.location) :
    ∃ z ∈ (y.apply db).location, locationKeys z = locationKeys l := by
  cases hy with
  | added => exact ⟨l, List.mem_append_left _ hl, rfl⟩
  | @put l' s hl' =>
    by_cases hid : l.id = l'.id
    · rw [location_of_id hdb hl hl' hid]
      exact ⟨s.apply b.now l', (mem_put hdb hl' s b.now _).mpr (Or.inl rfl), rfl⟩
    · exact ⟨l, (mem_put hdb hl' s b.now _).mpr (Or.inr ⟨hl, hid⟩), rfl⟩

theorem free (hdb : constraintsOk db) (hy : y.Ready b db) {r : Location}
    (hu : ∀ l ∈ db.location, clash .location l r = false) (hapart : ¬ (RouteWrite.added r).conflicts y) :
    ∀ l ∈ (y.apply db).location, clash .location l r = false := by
  cases hy with
  | @added r' =>
    intro l hl
    rcases List.mem_append.mp hl with hl | hl
    · exact hu l hl
    · rw [List.mem_singleton.mp hl, clash_comm]
      exact Bool.eq_false_iff.mpr hapart
  | @put l' s hl' =>
    intro l hl
    rcases (mem_put hdb hl' s b.now l).mp hl with rfl | ⟨hl, -⟩
    · exact hu l' hl'
    · exact hu l hl

theorem after (hdb : constraintsOk db) (h : x.Ready a db) (hy : y.Ready b db) (hapart : ¬ x.conflicts y) :
    x.Ready a (y.apply db) := by
  have htenants (r : Location) : rowOk (y.apply db) .location r ↔ rowOk db .location r :=
    rowOk_location_congr (tenants_apply y db) r
  have hdb' := hy.commit hdb
  cases h with
  | added ht hu hr =>
    refine .added ht ((uniqueOk_append .location).mpr ⟨(hdb' .location).1, ?_⟩) ((htenants _).mpr hr)
    exact hy.free hdb ((uniqueOk_append .location).mp hu).2 hapart
  | @put l s hl ht hr =>
    refine .put ?_ ht ((htenants _).mpr hr)
    cases hy with
    | added => exact List.mem_append_left _ hl
    | @put l' s' hl' => exact (mem_put hdb hl' s' b.now l).mpr (Or.inr ⟨hl, hapart⟩)

end RouteWrite.Ready

theorem RouteSql.Refers.after (hdb : constraintsOk db) {q : RouteSql} (h : q.Refers a db) (hy : y.Ready b db) :
    q.Refers a (y.apply db) := by
  cases q with
  | update l s =>
    obtain ⟨hrole, z, hz, hid, ht⟩ := h
    obtain ⟨z', hz', hkeys⟩ := hy.stays hdb hz
    obtain ⟨hid', hrest⟩ := Prod.mk.inj hkeys
    exact ⟨hrole, z', hz', hid'.trans hid, (Prod.mk.inj hrest).1.trans ht⟩
  | _ => exact h

end Writes

/-! ## Where a request stands -/

/-- It has written nothing, or has only to commit. -/
inductive RouteAt (ser : Serializer) (db : Db) (tx : RouteTx) : Prop where
  | reading (h : RouteStage ser db tx) (hw : tx.writes = [])
      (hrefers : ∀ q ∈ RouteProg.sql? tx.prog, q.Refers tx.call db)
  | ready (v : ApiAnswer) (x : RouteWrite) (hx : x.Ready tx.call db) (hp : tx.prog = .ret v) (hw : tx.writes = [x])
      (hf : tx.failed = false)

section Stages

variable {ser : Serializer} {byName : OrderByName} {db : Db} {q : RouteSql} {tx tx' : RouteTx}

theorem prog_refers (ser : Serializer) (a : Arrival) (db : Db) : ∀ q ∈ RouteProg.sql? (a.prog ser), q.Refers a db := by
  intro q hq
  unfold Arrival.prog at hq
  split at hq
  · unfold Arrival.readProg at hq
    split at hq
    · split at hq
      · cases hq
        trivial
      · split at hq
        · cases hq
        · cases hq
          trivial
      · cases hq
        trivial
    · cases hq
  · unfold Arrival.createProg at hq
    split at hq
    · rename_i hrole
      cases hq
      exact hrole
    · cases hq
  · unfold Arrival.updateProg at hq
    split at hq
    · cases hq
      trivial
    · cases hq

theorem RouteStage.refers (h : RouteStage ser db tx) (hfinds : ∀ q ∈ RouteProg.sql? tx.prog, q.Finds tx.call db) :
    ∀ q ∈ RouteProg.sql? tx.prog, q.Refers tx.call db := by
  intro q hq
  have hfind := hfinds q hq
  cases h with
  | fresh hp => exact prog_refers ser tx.call db q (hp ▸ hq)
  | counted p ifNoneMatch total hreq hrole hin hp =>
    rw [hp] at hq
    cases hq
    trivial
  | loaded slug p l s hl hp =>
    rw [hp] at hq
    cases hq
    exact ⟨hl.operator, l, hfind, rfl, hl.tenant⟩
  | answered v hp => rw [hp] at hq; cases hq
  | written v x h hp => rw [hp] at hq; cases hq
  | raised code hp => rw [hp] at hq; cases hq

theorem at_of_answers (hdb : constraintsOk db) (h : Answers ser byName db q tx) : RouteAt ser db tx := by
  rcases h.stage.writes_cases with hw | ⟨v, x, hwritten, hp, hw, hf⟩
  · exact .reading h.stage hw (h.stage.refers h.finds)
  · exact .ready v x (ready_of_written hdb hwritten) hp hw hf

theorem runRouteSql_update (hdb : constraintsOk db) {a : Arrival} (hrole : a.ctx.role ∈ operatorRoles) {l z : Location}
    (hz : z ∈ db.location) (hid : z.id = l.id) (ht : z.tenantId = a.ctx.tenantId) (s : LocationSet) :
    runRouteSql byName a db (.update l s) =
      if (s.lat.getD z.lat = none ↔ s.lng.getD z.lng = none) then .ok (1, [.put (s.apply a.now z)])
      else .error (.sql .integrity) := by
  have hexec : execStatement (tenantContext a.ctx a.now) db (s.statement a.now z.id) =
      if constraintsOk (db.after .location (s.effect a.now z.id db.location)) then
        .ok (s.effect a.now z.id db.location) else .error .integrity := by
    unfold execStatement
    change (Tables.location.exec .appApi _ db.location _ >>= _) = _
    rw [exec_statement hdb hrole hz ht s]
    rfl
  have hrewritten := rewritten_effect hdb hz s a.now
  have hpaired : constraintsOk (db.after .location (s.effect a.now z.id db.location)) ↔
      (s.lat.getD z.lat = none ↔ s.lng.getD z.lng = none) := by
    rw [← @execStatement_location a.ctx a.now db hdb hrole z hz ht s, hexec]
    constructor
    · exact fun hc => ⟨_, if_pos hc, congrArg List.length hrewritten⟩
    · rintro ⟨e, he, -⟩
      by_contra hc
      rw [if_neg hc] at he
      cases he
  rw [hid] at hexec hpaired hrewritten
  change ((execStatement (tenantContext a.ctx a.now) db (s.statement a.now l.id)).mapError Unhandled.sql >>= fun e =>
    .ok (e.rewritten.length, e.rewritten.map RouteWrite.put)) = _
  rw [hexec]
  by_cases hc : constraintsOk (db.after .location (s.effect a.now l.id db.location))
  · rw [if_pos hc, if_pos (hpaired.mp hc)]
    exact congrArg Except.ok (Prod.ext (congrArg List.length hrewritten) (congrArg (List.map RouteWrite.put) hrewritten))
  · rw [if_neg hc, if_neg (hpaired.not.mp hc)]
    rfl

theorem at_exec (hdb : constraintsOk db) (h : RouteAt ser db tx) (hsends : Sends ser byName db q tx tx') :
    RouteAt ser db tx' ∧ ∀ x ∈ tx'.writes, ∀ y, q.waitsFor tx'.call y = false → ¬ x.conflicts y := by
  have raised {code : ProblemCode} (hp : tx'.prog = .raise code) (hw : tx'.writes = []) :
      RouteAt ser db tx' ∧ ∀ x ∈ tx'.writes, ∀ y, q.waitsFor tx'.call y = false → ¬ x.conflicts y := by
    refine ⟨.reading (.raised code hp hw) hw fun q' hq => ?_, fun x hx => ?_⟩
    · rw [hp] at hq
      cases hq
    · rw [hw] at hx
      cases hx
  cases h with
  | ready v x hx hp =>
    obtain ⟨k, e, hcall, -⟩ := hsends.sent
    rw [hp] at hcall
    cases hcall
  | reading h hw hrefers =>
    cases h with
    | fresh hp =>
      have hans := answers_fresh hdb hsends hp
      exact ⟨at_of_answers hdb hans, hans.free⟩
    | counted p ifNoneMatch total hreq hrole hin hp =>
      obtain ⟨rfl, ⟨rows, ws, hrun, rfl⟩ | ⟨-, hraise, hnone⟩⟩ := hsends.query_cases hp
      · have hws : ws = [] := by
          simp only [runRouteSql] at hrun
          split at hrun
          · cases hrun
          · split at hrun
            · cases hrun
            · cases hrun
              rfl
        subst hws
        refine ⟨.reading (.answered _ rfl rfl rfl) rfl fun q' hq => ?_, fun x hx => ?_⟩
        · cases hq
        · cases hx
      · exact raised hraise hnone
    | loaded slug p l s hl hp =>
      obtain ⟨rfl, ⟨n, ws, hrun, rfl⟩ | ⟨-, hraise, hnone⟩⟩ := hsends.query_cases hp
      · obtain ⟨hrole, z, hz, hid, ht⟩ := hrefers (.update l s) (by rw [hp]; rfl)
        rw [runRouteSql_update hdb hrole hz hid ht] at hrun
        split at hrun
        · rename_i hpaired
          cases hrun
          refine ⟨.ready _ _ (.put hz ht ⟨((hdb .location).2 z hz).1, hpaired⟩) rfl rfl rfl, fun x hx y hy => ?_⟩
          rw [List.mem_singleton.mp hx]
          cases y with
          | added l' => exact not_false
          | put l' => exact fun heq => Bool.eq_false_iff.mp hy (beq_iff_eq.mpr (heq.symm.trans hid))
        · cases hrun
      · exact raised hraise hnone
    | answered v hp =>
      obtain ⟨k, e, hcall, -⟩ := hsends.sent
      rw [hp] at hcall
      cases hcall
    | written v x hx hp =>
      obtain ⟨k, e, hcall, -⟩ := hsends.sent
      rw [hp] at hcall
      cases hcall
    | raised code hp => exact (hsends.no_call hp).elim

theorem RouteAt.stage {k : RouteReply q → RouteProg} (h : RouteAt ser db tx) (hp : tx.prog = .call q k) :
    RouteStage ser db tx := by
  cases h with
  | reading h => exact h
  | ready v x hx hret =>
    rw [hret] at hp
    cases hp

theorem RouteAt.writes_of_failed (h : RouteAt ser db tx) (hf : tx.failed = true) : tx.writes = [] := by
  cases h with
  | reading h hw => exact hw
  | ready v x hx hp hw hok =>
    rw [hf] at hok
    cases hok

theorem RouteAt.after {b : Arrival} {y : RouteWrite} (hdb : constraintsOk db) (h : RouteAt ser db tx)
    (hy : y.Ready b db) (hapart : ∀ x ∈ tx.writes, ¬ x.conflicts y) : RouteAt ser (y.apply db) tx := by
  cases h with
  | reading h hw hrefers =>
    refine .reading (h.after fun v x hx => ?_) hw fun q hq => (hrefers q hq).after hdb hy
    rw [hw] at hx
    cases hx
  | ready v x hx hp hw hf =>
    exact .ready v x (hx.after hdb hy (hapart x (by rw [hw]; exact List.mem_singleton_self x))) hp hw hf

end Stages

/-! ## Runs -/

def RouteAtAnyTime (ser : Serializer) (db : Db) (_ : ℕ) : RouteSlot → Prop
  | .running tx => RouteAt ser db tx
  | _ => True

abbrev RoutesStand (ser : Serializer) (w : RouteWorld) : Prop :=
  w.Holds constraintsOk (RouteAtAnyTime ser) WritesApart

section Runs

variable {ser : Serializer} {byName : OrderByName}

theorem stand_exec {w : RouteWorld} (hw : RoutesStand ser w) {i : ℕ} {e : Unit} {tx : RouteTx}
    (hi : w.slots[i]? = some (.running tx)) {q : RouteSql} {k : RouteReply q → RouteProg} (hp : tx.prog = .call q k) :
    Sends ser byName w.db q tx
      (tx.answer q k ((service ser byName).exec tx.call e tx.failed ((service ser byName).view w.db tx.writes) q)) := by
  have hat : RouteAt ser w.db tx := hw.slot i _ hi
  obtain ⟨hwrites, hf, -⟩ := (hat.stage hp).call_cases hp
  refine ⟨hwrites, hf, k, e, hp, ?_⟩
  rw [hwrites, hf]
  rfl

theorem routes_stand :
    (service ser byName).Cooperates constraintsOk (RouteAtAnyTime ser) WritesApart fun _ _ => True where
  begins w a _ _ := by
    have hapart : ∀ t, WritesApart (.running { call := a, prog := a.prog ser }) t := writesApart_nil rfl
    exact ⟨.reading (.fresh rfl rfl rfl) rfl (prog_refers ser a w.db), fun _ t _ => ⟨hapart t, (hapart t).symm⟩⟩
  moves w l i s s' db' acted hw hok hi hm := by
    have same {s' : RouteSlot} (hself : RouteAtAnyTime ser w.db (w.acts i + acted.toNat) s')
        (hapart : ∀ (j : ℕ) t, j ≠ i → w.slots[j]? = some t → WritesApart s' t) :
        constraintsOk w.db ∧ RouteAtAnyTime ser w.db (w.acts i + acted.toNat) s' ∧
          ∀ (j : ℕ) t, j ≠ i → w.slots[j]? = some t →
            RouteAtAnyTime ser w.db (w.acts j) t ∧ WritesApart s' t ∧ WritesApart t s' :=
      ⟨hw.db, hself, fun j t hj ht => ⟨hw.slot j t ht, hapart j t hj ht, (hapart j t hj ht).symm⟩⟩
    cases hm with
    | @exec e tx q k hp hwait =>
      have hsends : Sends ser byName w.db q tx _ := stand_exec hw (e := e) hi hp
      obtain ⟨hself, hfree⟩ := at_exec hw.db (hw.slot i _ hi) hsends
      obtain ⟨-, hf, -⟩ := (RouteAt.stage (hw.slot i _ hi) hp).call_cases hp
      refine same hself fun j t hj ht => writesApart_waited (hwait hf) hfree hj ht ?_
      rintro tx' rfl hf'
      exact RouteAt.writes_of_failed (hw.slot j _ ht) hf'
    | @lose tx q k r hp hr =>
      cases hr
      obtain ⟨-, -, herror⟩ := (RouteAt.stage (hw.slot i _ hi) hp).call_cases hp
      refine same (.reading (.raised .internalError (herror _) rfl) rfl fun q' hq => ?_)
        fun j t _ _ => writesApart_nil rfl t
      simp only [Transactions.Tx.answer, herror] at hq
      cases hq
    | @commit tx v hp hf =>
      have hat : RouteAt ser w.db tx := hw.slot i _ hi
      cases hat with
      | reading h hwrites =>
        rw [hwrites]
        exact same trivial fun j t _ _ => writesApart_committed t
      | ready v' x hx _ hwrites =>
        have hview : (service ser byName).view w.db tx.writes = x.apply w.db := by
          rw [hwrites]
          rfl
        rw [hview]
        refine ⟨hx.commit hw.db, trivial, fun j t hj ht => ⟨?_, writesApart_committed t, (writesApart_committed t).symm⟩⟩
        cases t with
        | running tx' =>
          refine RouteAt.after hw.db (hw.slot j _ ht) hx fun y hy => ?_
          exact hw.pair j i _ _ hj ht hi y hy x (by rw [hwrites]; exact List.mem_singleton_self x)
        | committed => trivial
        | rolledBack => trivial
    | abandon hp hf => exact same trivial fun j t _ _ => writesApart_rolledBack t
    | rollback hp => exact same trivial fun j t _ _ => writesApart_rolledBack t

theorem routes_stand_step {w w' : RouteWorld} {l : RouteLabel} (hw : RoutesStand ser w)
    (hs : (service ser byName).step w l = some w') : RoutesStand ser w' := by
  have hM : (service ser byName).Cooperates constraintsOk (RouteAtAnyTime ser) WritesApart fun _ _ => True :=
    routes_stand
  exact hM.step hw trivial hs

end Runs

end BaptistApi
