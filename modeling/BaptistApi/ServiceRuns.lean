import BaptistApi.ServiceStages

/-!
# Runs of the service

Requests of any number, in any interleaving of their statements, are answered as if they had come one after
another, unless a page or an UPDATE finds that others have changed what its request has read.
-/

namespace BaptistApi

open BaptistApi.Calendar BaptistApi.FixedPoint BaptistApi.Program BaptistApi.RowSecurity BaptistApi.Transactions

/-! ## Requests that are not disturbed -/

def RouteSlot.sql? : RouteSlot → Option RouteSql
  | .running tx => RouteProg.sql? tx.prog
  | _ => none

def Undisturbed (w : RouteWorld) : RouteLabel → Prop
  | .exec i _ => ∀ slot ∈ w.slots[i]?, ∀ q ∈ RouteSlot.sql? slot, q.Finds slot.call w.db
  | _ => True

instance undisturbedDecidable (w : RouteWorld) : (label : RouteLabel) → Decidable (Undisturbed w label)
  | .begin _ => isTrue trivial
  | .lose _ => isTrue trivial
  | .finish _ => isTrue trivial
  | .exec i _ => inferInstanceAs (Decidable (∀ slot ∈ w.slots[i]?, ∀ q ∈ RouteSlot.sql? slot, _))

/-! ## What holds in every world -/

def RouteStaged (ser : Serializer) (db : Db) (_ : ℕ) : RouteSlot → Prop
  | .running tx => RouteStage ser db tx
  | _ => True

def WritesApart : RouteSlot → RouteSlot → Prop
  | .running tx, .running tx' => ∀ x ∈ tx.writes, ∀ y ∈ tx'.writes, ¬ x.conflicts y
  | _, _ => True

theorem WritesApart.symm {s t : RouteSlot} (h : WritesApart s t) : WritesApart t s := by
  cases s with
  | running tx =>
    cases t with
    | running tx' => exact fun y hy x hx hc => h x hx y hy (RouteWrite.conflicts_symm hc)
    | committed => trivial
    | rolledBack => trivial
  | committed => cases t <;> trivial
  | rolledBack => cases t <;> trivial

theorem writesApart_nil {tx : RouteTx} (h : tx.writes = []) (t : RouteSlot) : WritesApart (.running tx) t := by
  cases t with
  | running tx' =>
    intro x hx
    rw [h] at hx
    cases hx
  | committed => trivial
  | rolledBack => trivial

theorem writesApart_committed {a : Arrival} {ws : List RouteWrite} {v : ApiAnswer} (t : RouteSlot) :
    WritesApart (.committed a ws v) t := by cases t <;> trivial

theorem writesApart_rolledBack {a : Arrival} {o : Except ProblemCode ApiAnswer} (t : RouteSlot) :
    WritesApart (.rolledBack a o) t := by cases t <;> trivial

theorem writesApart_waited {w : RouteWorld} {i j : ℕ} {a : Arrival} {q : RouteSql} {tx : RouteTx} {t : RouteSlot}
    (hwait : ∀ t ∈ w.others i, t.writes.any (q.waitsFor a) = false)
    (hfree : ∀ x ∈ tx.writes, ∀ y, q.waitsFor a y = false → ¬ x.conflicts y) (hj : j ≠ i) (ht : w.slots[j]? = some t)
    (hfailed : ∀ tx', t = .running tx' → tx'.failed = true → tx'.writes = []) : WritesApart (.running tx) t := by
  cases t with
  | running tx' =>
    by_cases hf : tx'.failed = true
    · exact (writesApart_nil (hfailed tx' rfl hf) _).symm
    · intro x hx y hy
      have hnone := hwait tx' (World.mem_others.mpr ⟨j, hj, ht, by simpa using hf⟩)
      exact hfree x hx y (Bool.eq_false_iff.mpr (List.any_eq_false.mp hnone y hy))
  | committed => trivial
  | rolledBack => trivial

abbrev RoutesHold (ser : Serializer) (w : RouteWorld) : Prop := w.Holds constraintsOk (RouteStaged ser) WritesApart

theorem RouteStage.writes_of_failed {ser : Serializer} {db : Db} {tx : RouteTx} (h : RouteStage ser db tx)
    (hf : tx.failed = true) : tx.writes = [] := by
  rcases h.writes_cases with hw | ⟨v, x, -, -, -, hok⟩
  · exact hw
  · rw [hf] at hok
    cases hok

section Steps

variable {ser : Serializer} {byName : OrderByName}

theorem prog_error {a : Arrival} {q : RouteSql} {k : RouteReply q → RouteProg} (h : a.prog ser = .call q k)
    (e : Unhandled) : k (.error e) = .raise .internalError := by
  rcases prog_cases ser a with ⟨code, hraise⟩ | ⟨q', k', hquery, -⟩
  · rw [hraise] at h
    cases h
  · rw [hquery] at h
    cases h
    rfl

theorem RouteStage.call_cases {db : Db} {tx : RouteTx} (h : RouteStage ser db tx) {q : RouteSql}
    {k : RouteReply q → RouteProg} (hp : tx.prog = .call q k) :
    tx.writes = [] ∧ tx.failed = false ∧ ∀ e, k (.error e) = .raise .internalError := by
  cases h with
  | fresh hfresh hw hf => exact ⟨hw, hf, prog_error (hfresh.symm.trans hp)⟩
  | counted p ifNoneMatch total hreq hrole hin hcall hw hf =>
    rw [hcall] at hp
    cases hp
    exact ⟨hw, hf, fun _ => rfl⟩
  | loaded slug p l s hl hcall hw hf =>
    rw [hcall] at hp
    cases hp
    exact ⟨hw, hf, fun _ => rfl⟩
  | answered v hret => rw [hret] at hp; cases hp
  | written v x h hret => rw [hret] at hp; cases hp
  | raised code hraise => rw [hraise] at hp; cases hp

theorem answers_exec {db : Db} (hdb : constraintsOk db) {tx tx' : RouteTx} (h : RouteStage ser db tx) {q : RouteSql}
    (hsends : Sends ser byName db q tx tx') (hfinds : q.Finds tx.call db) : Answers ser byName db q tx' := by
  cases h with
  | fresh hfresh => exact answers_fresh hdb hsends hfresh
  | counted p ifNoneMatch total hreq hrole hin hcall =>
    obtain ⟨rfl, -⟩ := hsends.query_cases hcall
    exact answers_page hsends hreq hrole hin hfinds hcall
  | loaded slug p l s hl hcall =>
    obtain ⟨rfl, -⟩ := hsends.query_cases hcall
    exact answers_update hdb hsends hl hfinds hcall
  | answered v hret =>
    obtain ⟨k, e, hp, -⟩ := hsends.sent
    rw [hret] at hp
    cases hp
  | written v x h hret =>
    obtain ⟨k, e, hp, -⟩ := hsends.sent
    rw [hret] at hp
    cases hp
  | raised code hraise => exact (hsends.no_call hraise).elim

theorem answers_step {w : RouteWorld} (hw : RoutesHold ser w) {i : ℕ} {e : Unit} (hok : Undisturbed w (.exec i e))
    {tx : RouteTx} (hi : w.slots[i]? = some (.running tx)) {q : RouteSql} {k : RouteReply q → RouteProg}
    (hp : tx.prog = .call q k) :
    Answers ser byName w.db q
      (tx.answer q k ((service ser byName).exec tx.call e tx.failed ((service ser byName).view w.db tx.writes) q)) := by
  have hstage : RouteStage ser w.db tx := hw.slot i _ hi
  obtain ⟨hwrites, hf, -⟩ := hstage.call_cases hp
  refine answers_exec hw.db hstage ⟨hwrites, hf, k, e, hp, ?_⟩ (hok _ hi q (by simp [RouteSlot.sql?, RouteProg.sql?, hp]))
  rw [hwrites, hf]
  rfl

theorem routes_cooperate : (service ser byName).Cooperates constraintsOk (RouteStaged ser) WritesApart Undisturbed where
  begins w a _ _ := by
    have hapart : ∀ t, WritesApart (.running { call := a, prog := a.prog ser }) t := writesApart_nil rfl
    exact ⟨.fresh rfl rfl rfl, fun _ t _ => ⟨hapart t, (hapart t).symm⟩⟩
  moves w l i s s' db' acted hw hok hi hm := by
    have same {s' : RouteSlot} (hself : RouteStaged ser w.db (w.acts i + acted.toNat) s')
        (hapart : ∀ (j : ℕ) t, j ≠ i → w.slots[j]? = some t → WritesApart s' t) :
        constraintsOk w.db ∧ RouteStaged ser w.db (w.acts i + acted.toNat) s' ∧
          ∀ (j : ℕ) t, j ≠ i → w.slots[j]? = some t →
            RouteStaged ser w.db (w.acts j) t ∧ WritesApart s' t ∧ WritesApart t s' :=
      ⟨hw.db, hself, fun j t hj ht => ⟨hw.slot j t ht, hapart j t hj ht, (hapart j t hj ht).symm⟩⟩
    cases hm with
    | @exec e tx q k hp hwait =>
      have hans : Answers ser byName w.db q _ := answers_step hw hok hi hp
      obtain ⟨-, hf, -⟩ := RouteStage.call_cases (hw.slot i _ hi) hp
      refine same hans.stage fun j t hj ht => writesApart_waited (hwait hf) hans.free hj ht ?_
      rintro tx' rfl hf'
      exact RouteStage.writes_of_failed (hw.slot j _ ht) hf'
    | @lose tx q k r hp hr =>
      cases hr
      obtain ⟨-, -, herror⟩ := RouteStage.call_cases (hw.slot i _ hi) hp
      exact same (.raised .internalError (herror _) rfl) fun j t _ _ => writesApart_nil rfl t
    | @commit tx v hp hf =>
      rcases RouteStage.writes_cases (hw.slot i _ hi) with hwrites | ⟨v', x, hwritten, -, hwrites, -⟩
      · rw [hwrites]
        exact same trivial fun j t _ _ => writesApart_committed t
      · have hdb' := hwritten.constraintsOk ser byName hw.db
        have hview : (service ser byName).view w.db tx.writes = x.apply w.db := by
          rw [hwrites]
          rfl
        rw [hview]
        refine ⟨hdb', trivial, fun j t hj ht => ⟨?_, writesApart_committed t, (writesApart_committed t).symm⟩⟩
        cases t with
        | running tx' =>
          refine RouteStage.after (hw.slot j _ ht) fun v y hy h => h.after hw.db hdb' hwritten ?_
          exact hw.pair j i _ _ hj ht hi y hy x (by rw [hwrites]; exact List.mem_singleton_self x)
        | committed => trivial
        | rolledBack => trivial
    | abandon hp hf => exact same trivial fun j t _ _ => writesApart_rolledBack t
    | rollback hp => exact same trivial fun j t _ _ => writesApart_rolledBack t

theorem prog_ne_ret (a : Arrival) (v : ApiAnswer) : a.prog ser ≠ .ret v := by
  rcases prog_cases ser a with ⟨code, hraise⟩ | ⟨q, k, hquery, -⟩
  · rw [hraise]
    exact fun h => by cases h
  · rw [hquery]
    exact fun h => by cases h

theorem routes_serialize :
    (service ser byName).Serializes Arrival.next (Arrival.answer ser byName) (RoutesHold ser) Undisturbed where
  step w l w' hw hok hs := routes_cooperate.step hw hok hs
  begins := prog_ne_ret
  reads w i e tx q k tx' hw hok hi hp htx v hret _ hnone := by
    subst htx
    exact (answers_step hw hok hi hp).reads v hret hnone
  commits w i tx v hw hi hp hf hsome := by
    rcases RouteStage.writes_cases (hw.slot i _ hi) with hnone | ⟨v', x, hwritten, hret, hwrites, -⟩
    · exact absurd hnone hsome
    · cases hp.symm.trans hret
      rw [hwrites]
      exact hwritten.settles ser byName hw.db

end Steps

/-! ## A serial order -/

/-- **Requests side by side are served as if one after another**: in any interleaving that disturbs none of them,
those that commit, and those that have read all and write nothing, have an order in which, one at a time, they
would be given the same answers and leave the same rows; those that fail leave nothing, and what comes later only
adds to the end. -/
theorem routes_serializable (ser : Serializer) (byName : OrderByName) {db : Db} (hdb : constraintsOk db)
    {ls ls' : List RouteLabel} {w w' : RouteWorld} (hok : (service ser byName).RunsUnder Undisturbed { db } (ls ++ ls'))
    (hrun : (service ser byName).run { db } ls = some w) (hrun' : (service ser byName).run w ls' = some w') :
    ∃ order order', order <+: order' ∧ SerialOrder Arrival.next (Arrival.answer ser byName) db w order ∧
      SerialOrder Arrival.next (Arrival.answer ser byName) db w' order' :=
  run_serial routes_serialize (World.holds_start hdb) hok hrun hrun'

def listing : ApiRequest := .read (.locations {}) none

/-- A listing counts before the new location comes, and reads its page before the other requests commit. -/
def crossing : List RouteLabel :=
  [.begin ⟨clinicOperator, noon, .create 20 (newLocation "east")⟩,
    .begin ⟨clinicOperator, noon, .update "north" { status := some (some "paused") }⟩,
    .begin ⟨clinicOperator, noon, listing⟩, .exec 2 (), .exec 1 (), .exec 0 (), .exec 1 (), .exec 2 ()]

def crossed : List RouteLabel := [.finish 0, .finish 2, .finish 1]

abbrev plainService : Engine Db Arrival Unit RouteWrite RouteSql RouteReply ProblemCode ApiAnswer :=
  service plainSerializer plainCollation.byName

theorem crossing_runs : (plainService.run { db := clinic .active } crossing).isSome = true := by decide +kernel

theorem crossed_runs :
    (plainService.run ((plainService.run { db := clinic .active } crossing).get crossing_runs) crossed).isSome = true := by
  decide +kernel

theorem crossing_serializable :
    let w := (plainService.run { db := clinic .active } crossing).get crossing_runs
    ∃ order order', order <+: order' ∧
      SerialOrder Arrival.next (Arrival.answer plainSerializer plainCollation.byName) (clinic .active) w order ∧
      SerialOrder Arrival.next (Arrival.answer plainSerializer plainCollation.byName) (clinic .active)
        ((plainService.run w crossed).get crossed_runs) order' :=
  routes_serializable plainSerializer plainCollation.byName (by decide +kernel) (by decide +kernel)
    (Option.some_get _).symm (Option.some_get _).symm

end BaptistApi
