import BaptistApi.Lib.Noninterference
import BaptistApi.Lib.Transactions
import Mathlib.Data.List.Nodup
import Mathlib.Data.List.Perm.Subperm

/-!
# Serial orders

A transaction that writes has its place in the serial order where it commits, and one that only reads where
it has read. If each would come there to what it came to beside the others, the run is as good as a serial one.
-/

namespace BaptistApi.Transactions

open BaptistApi.Program

variable {σ A E W C : Type} {R : C → Type} {X α : Type}

/-- The call and the value of a transaction that has only to commit and has written nothing. -/
def Tx.place? (tx : Tx A W C R X α) : Option (A × α) :=
  match tx.prog with
  | .ret v => if tx.failed = false ∧ tx.writes.isEmpty = true then some (tx.call, v) else none
  | _ => none

/-- The call and the value of a transaction that has its place. -/
def Slot.place? : Slot A W C R X α → Option (A × α)
  | .committed a _ v => some (a, v)
  | .running tx => tx.place?
  | .rolledBack _ _ => none

section Places

variable {tx : Tx A W C R X α}

theorem place?_call {c : C} {k : R c → Prog C R X α} (hp : tx.prog = .call c k) : tx.place? = none := by
  simp only [Tx.place?, hp]

theorem place?_raise {x : X} (hp : tx.prog = .raise x) : tx.place? = none := by
  simp only [Tx.place?, hp]

theorem place?_ret {v : α} (hp : tx.prog = .ret v) (hf : tx.failed = false) :
    tx.place? = if tx.writes.isEmpty = true then some (tx.call, v) else none := by
  simp [Tx.place?, hp, hf]

theorem place?_failed (hf : tx.failed = true) : tx.place? = none := by
  unfold Tx.place?
  split
  · simp [hf]
  · rfl

theorem place?_eq_some {a : A} {v : α} (h : tx.place? = some (a, v)) :
    tx.prog = .ret v ∧ tx.failed = false ∧ tx.writes = [] ∧ tx.call = a := by
  unfold Tx.place? at h
  split at h
  · rename_i u hp
    split at h
    · rename_i hdone
      cases h
      exact ⟨hp, hdone.1, List.isEmpty_iff.mp hdone.2, rfl⟩
    · cases h
  · cases h

theorem call_of_place {s : Slot A W C R X α} {a : A} {v : α} (h : s.place? = some (a, v)) : s.call = a := by
  cases s with
  | running tx => exact (place?_eq_some h).2.2.2
  | committed a' ws v' =>
    cases h
    rfl
  | rolledBack => cases h

end Places

/-! ## Orders -/

structure Placed (A α : Type) where
  slot : Nat
  call : A
  value : α

/-- What calls make of the rows, one after another. -/
def served (next : σ → A → σ) (db : σ) (order : List (Placed A α)) : σ := order.foldl (fun db e => next db e.call) db

/-- The rows are those of the serial run, each transaction that has its place answers as it does there, and all that
have one are in the order, once. -/
structure SerialOrder (next : σ → A → σ) (answer : σ → A → α) (db : σ) (w : World σ A W C R X α)
    (order : List (Placed A α)) : Prop where
  rows : w.db = served next db order
  answers : ∀ before e after, order = before ++ e :: after → e.value = answer (served next db before) e.call
  once : (order.map Placed.slot).Nodup
  placed : ∀ i a v, ⟨i, a, v⟩ ∈ order ↔ ∃ s, w.slots[i]? = some s ∧ s.place? = some (a, v)

section Order

variable {next : σ → A → σ} {answer : σ → A → α} {db : σ} {w w' : World σ A W C R X α} {order : List (Placed A α)}

theorem SerialOrder.start (db : σ) : SerialOrder next answer db ({ db } : World σ A W C R X α) [] := by
  refine ⟨rfl, fun before e after h => ?_, List.nodup_nil, fun i a v => ?_⟩
  · simp at h
  · constructor
    · intro h
      cases h
    · rintro ⟨s, hs, -⟩
      simp at hs

theorem SerialOrder.same (h : SerialOrder next answer db w order) (hdb : w'.db = w.db)
    (hplaces : ∀ i : Nat, (w'.slots[i]?.bind Slot.place?) = w.slots[i]?.bind Slot.place?) :
    SerialOrder next answer db w' order := by
  refine ⟨hdb.trans h.rows, h.answers, h.once, fun i a v => (h.placed i a v).trans ?_⟩
  rw [← Option.bind_eq_some_iff, ← Option.bind_eq_some_iff, hplaces]

theorem SerialOrder.snoc (h : SerialOrder next answer db w order) {i : Nat} {a : A} {v : α}
    (hnone : (w.slots[i]?.bind Slot.place?) = none) (hdb : w'.db = next w.db a) (hv : v = answer w.db a)
    (hself : (w'.slots[i]?.bind Slot.place?) = some (a, v))
    (hplaces : ∀ j : Nat, j ≠ i → (w'.slots[j]?.bind Slot.place?) = w.slots[j]?.bind Slot.place?) :
    SerialOrder next answer db w' (order ++ [⟨i, a, v⟩]) := by
  have hplaced (j : Nat) (b : A) (u : α) : (⟨j, b, u⟩ : Placed A α) ∈ order ↔
      (w.slots[j]?.bind Slot.place?) = some (b, u) := by
    rw [h.placed, Option.bind_eq_some_iff]
  have hnew : i ∉ order.map Placed.slot := by
    intro hmem
    obtain ⟨⟨j, b, u⟩, he, rfl⟩ := List.mem_map.mp hmem
    rw [(hplaced _ _ _).mp he] at hnone
    cases hnone
  refine ⟨?_, fun before e after hsplit => ?_, ?_, fun j b u => ?_⟩
  · rw [served, List.foldl_append]
    exact hdb.trans (by rw [h.rows]; rfl)
  · rcases List.eq_nil_or_concat after with rfl | ⟨after, e', rfl⟩
    · obtain ⟨rfl, he⟩ := List.append_inj' hsplit rfl
      cases he
      exact hv.trans (by rw [h.rows])
    · have hsplit' : order ++ [⟨i, a, v⟩] = (before ++ e :: after) ++ [e'] := by
        rw [hsplit]
        simp
      exact h.answers before e after (List.append_inj' hsplit' rfl).1
  · rw [List.map_append, List.map_singleton]
    exact List.nodup_append.mpr ⟨h.once, by simp, fun j hj k hk hjk => hnew (by simp at hk; rwa [← hk, ← hjk])⟩
  · rw [List.mem_append, hplaced, List.mem_singleton, ← Option.bind_eq_some_iff]
    by_cases hji : j = i
    · subst hji
      rw [hnone, hself]
      simp only [Placed.mk.injEq, true_and, Option.some.injEq, Prod.mk.injEq, reduceCtorEq, false_or]
      exact ⟨fun ⟨h₁, h₂⟩ => ⟨h₁.symm, h₂.symm⟩, fun ⟨h₁, h₂⟩ => ⟨h₁.symm, h₂.symm⟩⟩
    · rw [hplaces j hji]
      exact or_iff_left fun heq => hji (congrArg Placed.slot heq)

theorem SerialOrder.calls (h : SerialOrder next answer db w order) :
    (order.map Placed.call).Subperm (w.slots.map Slot.call) := by
  have hnodup : (order.map fun e => (e.call, e.slot)).Nodup :=
    List.Nodup.of_map Prod.snd (by rw [List.map_map]; exact h.once)
  have hsub : (order.map fun e => (e.call, e.slot)) ⊆ (w.slots.map Slot.call).zipIdx := by
    intro p hp
    obtain ⟨⟨i, a, v⟩, he, rfl⟩ := List.mem_map.mp hp
    obtain ⟨s, hs, hplace⟩ := (h.placed i a v).mp he
    rw [List.mem_zipIdx_iff_getElem?, List.getElem?_map, hs, Option.map_some, call_of_place hplace]
  obtain ⟨l, hperm, hl⟩ := hnodup.subperm hsub
  refine ⟨l.map Prod.fst, ?_, ?_⟩
  · have hfst := hperm.map Prod.fst
    rwa [List.map_map] at hfst
  · have hfst := hl.map Prod.fst
    rwa [List.zipIdx_map_fst] at hfst

section Machines

variable {D : Type} {N : Noninterference.Machine σ A α D} {w : World σ A W C R X α} {order : List (Placed A α)}

theorem SerialOrder.trace (h : SerialOrder N.next N.answer db w order) :
    N.trace db (order.map Placed.call) = order.map fun e => (e.call, e.value) := by
  have hafter (before after : List (Placed A α)) (hsplit : order = before ++ after) :
      N.trace (served N.next db before) (after.map Placed.call) = after.map fun e => (e.call, e.value) := by
    induction after generalizing before with
    | nil => rfl
    | cons e after ih =>
      have ih := ih (before ++ [e]) (by rw [hsplit, List.append_assoc]; rfl)
      rw [served, List.foldl_append] at ih
      rw [List.map_cons, List.map_cons, Noninterference.Machine.trace, h.answers before e after hsplit]
      exact congrArg _ ih
  exact hafter [] order rfl

theorem SerialOrder.run_eq (h : SerialOrder N.next N.answer db w order) : w.db = N.run db (order.map Placed.call) := by
  rw [h.rows, served, Noninterference.Machine.run, List.foldl_map]

end Machines

end Order

/-! ## Calls -/

def Label.call? : Label A E → Option A
  | .begin a => some a
  | _ => none

theorem Engine.step_calls {M : Engine σ A E W C R X α} {w w' : World σ A W C R X α} {l : Label A E}
    (h : M.step w l = some w') : w'.slots.map Slot.call = w.slots.map Slot.call ++ l.call?.toList := by
  cases M.step_cases h with
  | begin a => simp [Label.call?, Slot.call]
  | @move i l s s' db' acted hi hm =>
    have hnone : l.call? = none := by cases hm <;> rfl
    rw [hnone, Option.toList_none, List.append_nil]
    refine List.ext_getElem? fun j => ?_
    rw [List.getElem?_map, List.getElem?_map]
    by_cases hj : j = i
    · subst hj
      rw [slot_set_self s' hi, hi, Option.map_some, Option.map_some, hm.call_eq]
    · rw [List.getElem?_set_ne (Ne.symm hj)]

theorem Engine.run_calls {M : Engine σ A E W C R X α} {w w' : World σ A W C R X α} {ls : List (Label A E)}
    (h : M.run w ls = some w') : w'.slots.map Slot.call = w.slots.map Slot.call ++ ls.filterMap Label.call? := by
  induction ls generalizing w with
  | nil =>
    cases h
    simp
  | cons l ls ih =>
    obtain ⟨w₁, hs, hrun⟩ := Option.bind_eq_some_iff.mp h
    rw [ih hrun, M.step_calls hs, List.append_assoc]
    cases hl : l.call? <;> simp [hl]

/-! ## Steps and runs -/

section Runs

variable {M : Engine σ A E W C R X α} {next : σ → A → σ} {answer : σ → A → α} {I : World σ A W C R X α → Prop}
  {ok : World σ A W C R X α → Label A E → Prop}

/-- What the invariant `I` has to give for a serial order. -/
structure Engine.Serializes (M : Engine σ A E W C R X α) (next : σ → A → σ) (answer : σ → A → α)
    (I : World σ A W C R X α → Prop) (ok : World σ A W C R X α → Label A E → Prop) : Prop where
  step : ∀ w l w', I w → ok w l → M.step w l = some w' → I w'
  begins : ∀ a v, M.prog a ≠ .ret v
  /-- Who has read all and writes nothing has the answer of the moment. -/
  reads : ∀ w (i : Nat) e tx c k tx', I w → ok w (.exec i e) → w.slots[i]? = some (.running tx) → tx.prog = .call c k →
    tx' = tx.answer c k (M.exec tx.call e tx.failed (M.view w.db tx.writes) c) → ∀ v, tx'.prog = .ret v →
    tx'.failed = false → tx'.writes = [] → v = answer w.db tx.call ∧ next w.db tx.call = w.db
  /-- Who commits what it has written has the answer and the effect of the moment. -/
  commits : ∀ w (i : Nat) tx v, I w → w.slots[i]? = some (.running tx) → tx.prog = .ret v → tx.failed = false →
    tx.writes ≠ [] → v = answer w.db tx.call ∧ M.view w.db tx.writes = next w.db tx.call

variable {db : σ} {w w' : World σ A W C R X α} {order : List (Placed A α)}

theorem places_set {i : Nat} {s : Slot A W C R X α} (hi : w.slots[i]? = some s) (s' : Slot A W C R X α) :
    ((w.slots.set i s')[i]?.bind Slot.place?) = s'.place? ∧
      ∀ j : Nat, j ≠ i → ((w.slots.set i s')[j]?.bind Slot.place?) = w.slots[j]?.bind Slot.place? := by
  refine ⟨by rw [slot_set_self s' hi]; rfl, fun j hj => ?_⟩
  rw [List.getElem?_set_ne (Ne.symm hj)]

theorem places_same {i : Nat} {s s' : Slot A W C R X α} (hi : w.slots[i]? = some s) (hs : s'.place? = s.place?) (j : Nat) :
    ((w.slots.set i s')[j]?.bind Slot.place?) = w.slots[j]?.bind Slot.place? := by
  obtain ⟨hself, hothers⟩ := places_set hi s'
  by_cases hj : j = i
  · subst hj
    rw [hself, hi]
    exact hs
  · exact hothers j hj

theorem SerialOrder.step (h : SerialOrder next answer db w order) (hM : M.Serializes next answer I ok) {l : Label A E}
    (hI : I w) (hl : ok w l) (hs : M.step w l = some w') :
    ∃ order', order <+: order' ∧ SerialOrder next answer db w' order' := by
  cases M.step_cases hs with
  | begin a =>
    refine ⟨order, List.prefix_rfl, h.same rfl fun i => ?_⟩
    have hnone : Tx.place? ({ call := a, prog := M.prog a } : Tx A W C R X α) = none := by
      cases hp : M.prog a with
      | ret v => exact absurd hp (hM.begins a v)
      | raise x => exact place?_raise rfl
      | call c k => exact place?_call rfl
    cases hi : w.slots[i]? with
    | some s => rw [slot_push _ hi]
    | none =>
      cases ht : (w.slots ++ [.running { call := a, prog := M.prog a }])[i]? with
      | none => rfl
      | some t =>
        rcases slot_of_push ht with hold | ⟨-, rfl⟩
        · rw [hi] at hold
          cases hold
        · exact hnone
  | @move i _ s s' db' acted hi hm =>
    cases hm with
    | @exec e tx c k hp hw =>
      have hbefore : Slot.place? (.running tx) = none := place?_call hp
      cases hplace : Tx.place? (tx.answer c k (M.exec tx.call e tx.failed (M.view w.db tx.writes) c)) with
      | none => exact ⟨order, List.prefix_rfl, h.same rfl (places_same hi (hplace.trans hbefore.symm))⟩
      | some p =>
        obtain ⟨a, v⟩ := p
        obtain ⟨hret, hf, hnone, rfl⟩ := place?_eq_some hplace
        obtain ⟨hv, hnext⟩ := hM.reads w i e tx c k _ hI hl hi hp rfl v hret hf hnone
        obtain ⟨hself, hothers⟩ :=
          places_set hi (.running (tx.answer c k (M.exec tx.call e tx.failed (M.view w.db tx.writes) c)))
        exact ⟨_, List.prefix_append _ _, h.snoc (by rw [hi]; exact hbefore) hnext.symm hv (hself.trans hplace) hothers⟩
    | @lose tx c k r hp hr =>
      refine ⟨order, List.prefix_rfl, h.same rfl (places_same hi ?_)⟩
      exact (place?_failed (by simp [Tx.answer])).trans (place?_call hp).symm
    | @commit tx v hp hf =>
      have hbefore := place?_ret hp hf
      by_cases hnone : tx.writes = []
      · refine ⟨order, List.prefix_rfl, h.same (by rw [hnone]; rfl) (places_same hi ?_)⟩
        rw [hnone] at hbefore
        exact hbefore.symm
      · obtain ⟨hv, hnext⟩ := hM.commits w i tx v hI hi hp hf hnone
        obtain ⟨hself, hothers⟩ := places_set hi (.committed tx.call tx.writes v)
        rw [if_neg (by simpa using hnone)] at hbefore
        exact ⟨_, List.prefix_append _ _, h.snoc (by rw [hi]; exact hbefore) hnext hv hself hothers⟩
    | @abandon tx v hp hf => exact ⟨order, List.prefix_rfl, h.same rfl (places_same hi (place?_failed hf).symm)⟩
    | @rollback tx x hp => exact ⟨order, List.prefix_rfl, h.same rfl (places_same hi (place?_raise hp).symm)⟩

theorem runsUnder_append {ls ls' : List (Label A E)} (h : M.RunsUnder ok w (ls ++ ls')) :
    M.RunsUnder ok w ls ∧ ∀ w', M.run w ls = some w' → M.RunsUnder ok w' ls' := by
  induction ls generalizing w with
  | nil =>
    refine ⟨trivial, fun w' hrun => ?_⟩
    cases hrun
    exact h
  | cons l ls ih =>
    refine ⟨⟨h.1, fun w₁ hs => (ih (h.2 w₁ hs)).1⟩, fun w' hrun => ?_⟩
    obtain ⟨w₁, hs, hrun⟩ := Option.bind_eq_some_iff.mp hrun
    exact (ih (h.2 w₁ hs)).2 w' hrun

theorem SerialOrder.run (h : SerialOrder next answer db w order) (hM : M.Serializes next answer I ok)
    {ls : List (Label A E)} (hI : I w) (hok : M.RunsUnder ok w ls) (hrun : M.run w ls = some w') :
    I w' ∧ ∃ order', order <+: order' ∧ SerialOrder next answer db w' order' := by
  refine M.run_invariant_under (I := fun w => I w ∧ ∃ order', order <+: order' ∧ SerialOrder next answer db w order') ?_
    ⟨hI, order, List.prefix_rfl, h⟩ hok hrun
  rintro w l w' ⟨hI, order₁, hprefix, horder⟩ hl hs
  obtain ⟨order₂, hprefix', horder'⟩ := horder.step hM hI hl hs
  exact ⟨hM.step w l w' hI hl hs, order₂, hprefix.trans hprefix', horder'⟩

/-- **Every run has a serial order, and going on only adds to its end**: who has its place before another begins
comes before it. -/
theorem run_serial (hM : M.Serializes next answer I ok) {ls ls' : List (Label A E)} (h0 : I { db })
    (hok : M.RunsUnder ok { db } (ls ++ ls')) (hrun : M.run { db } ls = some w) (hrun' : M.run w ls' = some w') :
    ∃ order order', order <+: order' ∧ SerialOrder next answer db w order ∧ SerialOrder next answer db w' order' := by
  obtain ⟨hbefore, hafter⟩ := runsUnder_append hok
  obtain ⟨hI, order, -, horder⟩ := SerialOrder.run (.start db) hM h0 hbefore hrun
  obtain ⟨-, order', hprefix, horder'⟩ := horder.run hM hI (hafter w hrun) hrun'
  exact ⟨order, order', hprefix, horder, horder'⟩

end Runs

end BaptistApi.Transactions
