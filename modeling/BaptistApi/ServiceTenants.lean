import BaptistApi.ServiceRuns

/-!
# Tenants side by side

Where each tenant has one request under way at a time, nobody is disturbed, whatever the others do meanwhile.
-/

namespace BaptistApi

open BaptistApi.Calendar BaptistApi.FixedPoint BaptistApi.Program BaptistApi.RowSecurity BaptistApi.Transactions

/-- The tenant of a request that is under way. -/
def RouteSlot.tenant? : RouteSlot → Option Uuid
  | .running tx => some tx.call.ctx.tenantId
  | _ => none

/-- A request comes when none of its tenant is under way. -/
def OneAtATime (w : RouteWorld) : RouteLabel → Prop
  | .begin a => ∀ slot ∈ w.slots, RouteSlot.tenant? slot ≠ some a.ctx.tenantId
  | _ => True

instance oneAtATimeDecidable (w : RouteWorld) : (label : RouteLabel) → Decidable (OneAtATime w label)
  | .begin a => inferInstanceAs (Decidable (∀ slot ∈ w.slots, RouteSlot.tenant? slot ≠ some a.ctx.tenantId))
  | .exec .. => isTrue trivial
  | .lose _ => isTrue trivial
  | .finish _ => isTrue trivial

/-! ## What a request has read stays there -/

section Hidden

variable {ser : Serializer} {db db' : Db}

theorem matching_length_same (hdb : constraintsOk db) (hdb' : constraintsOk db') {ctx : RequestContext} {now : Timestamp}
    (h : SameForTenant ctx.tenantId db db') (p : ListParams) :
    (matchingLocations ctx now db p).length = (matchingLocations ctx now db' p).length := by
  have hids (d : Db) (hd : constraintsOk d) : (Scope.locations ⟨tenantContext ctx now, d⟩).Nodup :=
    ((location_ids_nodup (hd .location).1).sublist ((visible_sublist _ _ _ _).map _)).of_map _
  have hperm := (List.perm_ext_iff_of_nodup (hids db hdb) (hids db' hdb')).mpr h.agree.location
  exact (hperm.filter _).length_eq

theorem same_next {a : Arrival} (hdb : constraintsOk db) {tenantId : Uuid} (ha : a.ctx.tenantId ≠ tenantId) :
    SameForTenant tenantId db (a.next db) :=
  ⟨fun _ ht => (a.next_rows hdb ht).symm, fun _ hl => (next_hidden hdb ha hl).symm⟩

theorem RouteStage.finds_hidden (hdb : constraintsOk db) {tx : RouteTx} (h : RouteStage ser db tx) {b : Arrival}
    (hb : b.ctx.tenantId ≠ tx.call.ctx.tenantId) {q : RouteSql} (hq : q ∈ RouteProg.sql? tx.prog)
    (hfinds : q.Finds tx.call db) : q.Finds tx.call (b.next db) := by
  cases h with
  | fresh hp =>
    rw [hp] at hq
    rcases prog_cases ser tx.call with ⟨code, hraise⟩ | ⟨q', k, hquery, hall⟩
    · rw [hraise] at hq
      cases hq
    · rw [hquery] at hq
      cases hq
      exact hall _
  | counted p ifNoneMatch total hreq hrole hin hp =>
    rw [hp] at hq
    cases hq
    exact Eq.trans hfinds (matching_length_same hdb (b.next_constraintsOk hdb) (same_next hdb hb) p)
  | loaded slug p l s hl hp =>
    rw [hp] at hq
    cases hq
    exact (next_hidden hdb hb hl.tenant).mpr hfinds
  | answered v hp => rw [hp] at hq; cases hq
  | written v x h hp => rw [hp] at hq; cases hq
  | raised code hp => rw [hp] at hq; cases hq

end Hidden

/-! ## What holds in every world -/

def RouteFound (ser : Serializer) (db : Db) (n : ℕ) (s : RouteSlot) : Prop :=
  RouteStaged ser db n s ∧ ∀ q ∈ RouteSlot.sql? s, q.Finds s.call db

def TenantsApart (s t : RouteSlot) : Prop :=
  WritesApart s t ∧ ∀ d, RouteSlot.tenant? s = some d → RouteSlot.tenant? t ≠ some d

theorem TenantsApart.symm {s t : RouteSlot} (h : TenantsApart s t) : TenantsApart t s :=
  ⟨h.1.symm, fun d ht hs => h.2 d hs ht⟩

abbrev TenantsHold (ser : Serializer) (w : RouteWorld) : Prop := w.Holds constraintsOk (RouteFound ser) TenantsApart

section Tenants

variable {ser : Serializer} {byName : OrderByName} {w : RouteWorld}

theorem routes_hold (h : TenantsHold ser w) : RoutesHold ser w :=
  ⟨h.db, fun i s hi => (h.slot i s hi).1, fun i j s t hij hi hj => (h.pair i j s t hij hi hj).1, h.acted⟩

theorem undisturbed (h : TenantsHold ser w) (l : RouteLabel) : Undisturbed w l := by
  cases l with
  | exec i e => exact fun slot hi => (h.slot i slot hi).2
  | begin a => trivial
  | lose i => trivial
  | finish i => trivial

theorem tenant_moved {others : List RouteTx} {db db' : Db} {i : ℕ} {l : RouteLabel} {s s' : RouteSlot} {acted : Bool}
    (h : (service ser byName).Move others db i l s s' db' acted) {d : Uuid} (hs : RouteSlot.tenant? s' = some d) :
    RouteSlot.tenant? s = some d := by
  cases h with
  | exec => exact hs
  | lose => exact hs
  | commit => cases hs
  | abandon => cases hs
  | rollback => cases hs

theorem found_moved (h : TenantsHold ser w) {i : ℕ} {l : RouteLabel} {s s' : RouteSlot} {db' : Db} {acted : Bool}
    (hi : w.slots[i]? = some s) (hm : (service ser byName).Move (w.others i) w.db i l s s' db' acted) :
    ∀ q ∈ RouteSlot.sql? s', q.Finds s'.call db' := by
  cases hm with
  | exec hp => exact (answers_step (routes_hold h) (undisturbed h _) hi hp).finds
  | @lose tx q k r hp hr =>
    cases hr
    obtain ⟨-, -, herror⟩ := RouteStage.call_cases (h.slot i _ hi).1 hp
    intro q' hq
    simp only [RouteSlot.sql?, Transactions.Tx.answer, herror] at hq
    cases hq
  | commit => exact fun q hq => by cases hq
  | abandon => exact fun q hq => by cases hq
  | rollback => exact fun q hq => by cases hq

theorem found_beside (h : TenantsHold ser w) {i : ℕ} {l : RouteLabel} {s s' : RouteSlot} {db' : Db} {acted : Bool}
    (hi : w.slots[i]? = some s) (hm : (service ser byName).Move (w.others i) w.db i l s s' db' acted) {j : ℕ}
    {t : RouteSlot} (hj : j ≠ i) (ht : w.slots[j]? = some t) : ∀ q ∈ RouteSlot.sql? t, q.Finds t.call db' := by
  have hfound := (h.slot j t ht).2
  cases hm with
  | exec => exact hfound
  | lose => exact hfound
  | abandon => exact hfound
  | rollback => exact hfound
  | @commit tx v hp hf =>
    rcases RouteStage.writes_cases (h.slot i _ hi).1 with hwrites | ⟨v', x, hwritten, -, hwrites, -⟩
    · rw [hwrites]
      exact hfound
    · have hview : (service ser byName).view w.db tx.writes = tx.call.next w.db := by
        rw [hwrites]
        exact (hwritten.settles ser byName h.db).2
      rw [hview]
      cases t with
      | running tx' =>
        have hne : tx.call.ctx.tenantId ≠ tx'.call.ctx.tenantId := fun heq =>
          (h.pair i j _ _ (Ne.symm hj) hi ht).2 _ rfl (congrArg some heq.symm)
        exact fun q hq => RouteStage.finds_hidden h.db (h.slot j _ ht).1 hne hq (hfound q hq)
      | committed => exact fun q hq => by cases hq
      | rolledBack => exact fun q hq => by cases hq

theorem tenants_cooperate : (service ser byName).Cooperates constraintsOk (RouteFound ser) TenantsApart OneAtATime where
  begins w a hw hok := by
    have hroutes : (service ser byName).Cooperates constraintsOk (RouteStaged ser) WritesApart Undisturbed :=
      routes_cooperate
    obtain ⟨hstage, hapart⟩ := hroutes.begins w a (routes_hold hw) trivial
    refine ⟨⟨hstage, fun q hq => ?_⟩, fun j t ht => ?_⟩
    · rcases prog_cases ser a with ⟨code, hraise⟩ | ⟨q', k, hquery, hall⟩
      · simp only [RouteSlot.sql?, service, hraise] at hq
        cases hq
      · simp only [RouteSlot.sql?, service, hquery] at hq
        cases hq
        exact hall _
    · have hnew : TenantsApart (.running { call := a, prog := a.prog ser }) t := by
        refine ⟨(hapart j t ht).1, fun d hd => ?_⟩
        cases hd
        exact hok t (List.mem_of_getElem? ht)
      exact ⟨hnew, hnew.symm⟩
  moves w l i s s' db' acted hw _ hi hm := by
    obtain ⟨hdb', hself, hothers⟩ :=
      routes_cooperate.moves w l i s s' db' acted (routes_hold hw) (undisturbed hw l) hi hm
    refine ⟨hdb', ⟨hself, found_moved hw hi hm⟩, fun j t hj ht => ?_⟩
    obtain ⟨hstage, hapart, -⟩ := hothers j t hj ht
    have hmoved : TenantsApart s' t :=
      ⟨hapart, fun d hd => (hw.pair i j s t (Ne.symm hj) hi ht).2 d (tenant_moved hm hd)⟩
    exact ⟨⟨hstage, found_beside hw hi hm hj ht⟩, hmoved, hmoved.symm⟩

theorem tenants_undisturbed (h : TenantsHold ser w) {ls : List RouteLabel}
    (hok : (service ser byName).RunsUnder OneAtATime w ls) : (service ser byName).RunsUnder Undisturbed w ls :=
  (tenants_cooperate.runsUnder h hok).mono fun _ l hw => undisturbed hw.2 l

theorem tenants_serialize :
    (service ser byName).Serializes Arrival.next (Arrival.answer ser byName) (TenantsHold ser) OneAtATime where
  step _ _ _ hw hok hs := tenants_cooperate.step hw hok hs
  begins := prog_ne_ret
  reads w i e tx q k tx' hw _ := routes_serialize.reads w i e tx q k tx' (routes_hold hw) (undisturbed hw _)
  commits w i tx v hw := routes_serialize.commits w i tx v (routes_hold hw)

end Tenants

/-! ## Each tenant as if alone -/

theorem IdsAreNew.subperm {db : Db} {as as' : List Arrival} (h : IdsAreNew db as') (hsub : as.Subperm as') :
    IdsAreNew db as := by
  obtain ⟨l, hperm, hl⟩ := hsub
  have hids := hperm.filterMap Arrival.newId?
  refine ⟨hids.nodup_iff.mp (h.distinct.sublist (hl.filterMap _)), fun id hid => ?_⟩
  exact h.unused id ((hl.filterMap _).subset (hids.mem_iff.mpr hid))

/-- **Each tenant is served as if alone**: while each has one request under way at a time, requests of any tenants
in any interleaving disturb nobody and have a serial order, and in it every tenant is given the answers, and left the
locations, of a serial run of its own requests. -/
theorem tenants_served_as_if_alone (ser : Serializer) {byName : OrderByName} (hfixed : byName.Fixed) {db : Db}
    (hdb : constraintsOk db) {ls : List RouteLabel} (hids : IdsAreNew db (ls.filterMap Label.call?))
    (hok : (service ser byName).RunsUnder OneAtATime { db } ls) {w : RouteWorld}
    (hrun : (service ser byName).run { db } ls = some w) :
    (service ser byName).RunsUnder Undisturbed { db } ls ∧
    ∃ order, SerialOrder Arrival.next (Arrival.answer ser byName) db w order ∧ ∀ tenantId,
      let own := (order.map Placed.call).filter fun a => a.ctx.tenantId = tenantId
      (order.filter fun e => e.call.ctx.tenantId = tenantId).map (fun e => (e.call, e.value)) =
          (api ser byName).trace db own ∧
        SameForTenant tenantId w.db ((api ser byName).run db own) := by
  refine ⟨tenants_undisturbed (World.holds_start hdb) hok, ?_⟩
  have hM : (service ser byName).Serializes Arrival.next (Arrival.answer ser byName) (TenantsHold ser) OneAtATime :=
    tenants_serialize
  obtain ⟨-, order, -, horder⟩ := SerialOrder.run (.start db) hM (World.holds_start hdb) hok hrun
  have hcalls := horder.calls
  rw [Engine.run_calls hrun] at hcalls
  have hnew : IdsAreNew db (order.map Placed.call) := hids.subperm hcalls
  have hmachine : SerialOrder (api ser byName).next (api ser byName).answer db w order := horder
  refine ⟨order, horder, fun tenantId => ?_⟩
  obtain ⟨hseen, hsame⟩ := (api_unwinding ser hfixed).noninterference (.refl tenantId db) ⟨hdb, hnew⟩
    ⟨hdb, hnew.purge tenantId⟩
  rw [← hmachine.run_eq] at hsame
  refine ⟨Eq.trans ?_ hseen, hsame⟩
  rw [Noninterference.Machine.seen, hmachine.trace, List.filter_map]
  rfl

/-- One tenant pauses its `north` while the clinic lists its own, and then both add an `east`. -/
def twoAtOnce : List RouteLabel :=
  [.begin ⟨otherOperator, noon, .update "north" { status := some (some "paused") }⟩,
    .begin ⟨clinicOperator, noon, listing⟩, .exec 0 (), .exec 1 (), .exec 0 (), .finish 0, .exec 1 (), .finish 1,
    .begin ⟨clinicOperator, noon, .create 21 (newLocation "east")⟩,
    .begin ⟨otherOperator, noon, .create 20 (newLocation "east")⟩, .exec 2 (), .exec 3 (), .finish 3, .finish 2]

theorem twoAtOnce_ids : IdsAreNew sharedClinic (twoAtOnce.filterMap Label.call?) := by
  have hnew : (twoAtOnce.filterMap Label.call?).filterMap Arrival.newId? = [21, 20] := rfl
  have hold : sharedClinic.locationIds = [10, 11, 12] := rfl
  constructor
  · rw [hnew]; simp
  · rw [hnew, hold]; simp

theorem twoAtOnce_runs :
    ((service plainSerializer byNameThenId).run { db := sharedClinic } twoAtOnce).isSome = true := by decide +kernel

theorem twoAtOnce_as_if_alone :
    (service plainSerializer byNameThenId).RunsUnder Undisturbed { db := sharedClinic } twoAtOnce ∧
    ∃ order, SerialOrder Arrival.next (Arrival.answer plainSerializer byNameThenId) sharedClinic
        (((service plainSerializer byNameThenId).run { db := sharedClinic } twoAtOnce).get twoAtOnce_runs) order ∧
      ∀ tenantId,
        let own := (order.map Placed.call).filter fun a => a.ctx.tenantId = tenantId
        (order.filter fun e => e.call.ctx.tenantId = tenantId).map (fun e => (e.call, e.value)) =
            (api plainSerializer byNameThenId).trace sharedClinic own ∧
          SameForTenant tenantId
            (((service plainSerializer byNameThenId).run { db := sharedClinic } twoAtOnce).get twoAtOnce_runs).db
            ((api plainSerializer byNameThenId).run sharedClinic own) :=
  tenants_served_as_if_alone plainSerializer byNameThenId_fixed (by decide +kernel) twoAtOnce_ids (by decide +kernel)
    (Option.some_get twoAtOnce_runs).symm

end BaptistApi
