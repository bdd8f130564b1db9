import BaptistApi.Lib.Transactions
import Mathlib.Logic.Hydra

/-!
# Transactions that end

A program that waits for nobody once it holds rows cannot be part of a circle of waits. Where every
program is like that, all of them end, whatever the schedule is and whatever the outside decides.
-/

/-! ## Commands that a program may still issue -/

namespace BaptistApi.Program.Prog

variable {C : Type} {R : C → Type} {X α β : Type}

/-- What is left of a program after one answer. -/
inductive Follows : Prog C R X α → Prog C R X α → Prop where
  | answer (c : C) (k : R c → Prog C R X α) (r : R c) : Follows (k r) (.call c k)

theorem follows_wellFounded : WellFounded (Follows (C := C) (R := R) (X := X) (α := α)) := by
  refine ⟨fun p => ?_⟩
  induction p with
  | ret v => exact ⟨_, fun q hq => by cases hq⟩
  | raise x => exact ⟨_, fun q hq => by cases hq⟩
  | call c k ih =>
    refine ⟨_, fun q hq => ?_⟩
    cases hq with
    | answer _ _ r => exact ih r

/-- Every command that the program may issue satisfies `P`. -/
def Issues (P : C → Prop) : Prog C R X α → Prop
  | ret _ => True
  | raise _ => True
  | call c k => P c ∧ ∀ r, (k r).Issues P

/-- After a command that may take a lock, all commands are quiet. -/
def LocksLast (locks quiet : C → Prop) : Prog C R X α → Prop
  | ret _ => True
  | raise _ => True
  | call c k => (locks c → ∀ r, (k r).Issues quiet) ∧ ∀ r, (k r).LocksLast locks quiet

variable {P locks quiet : C → Prop}

theorem Issues.bind {p : Prog C R X α} {f : α → Prog C R X β} (hp : p.Issues P) (hf : ∀ v, (f v).Issues P) :
    (p >>= f).Issues P := by
  induction p with
  | ret v => exact hf v
  | raise x => trivial
  | call c k ih => exact ⟨hp.1, fun r => ih r (hp.2 r)⟩

theorem Issues.locksLast {p : Prog C R X α} (hp : p.Issues quiet) : p.LocksLast locks quiet := by
  induction p with
  | ret v => trivial
  | raise x => trivial
  | call c k ih => exact ⟨fun _ => hp.2, fun r => ih r (hp.2 r)⟩

theorem LocksLast.after {p : Prog C R X α} {f : α → Prog C R X β} (hp : p.Issues fun c => ¬ locks c)
    (hf : ∀ v, (f v).LocksLast locks quiet) : (p >>= f).LocksLast locks quiet := by
  induction p with
  | ret v => exact hf v
  | raise x => trivial
  | call c k ih => exact ⟨fun hc => absurd hc hp.1, fun r => ih r (hp.2 r)⟩

theorem LocksLast.bind {p : Prog C R X α} {f : α → Prog C R X β} (hp : p.LocksLast locks quiet)
    (hf : ∀ v, (f v).Issues quiet) : (p >>= f).LocksLast locks quiet := by
  induction p with
  | ret v => exact (hf v).locksLast
  | raise x => trivial
  | call c k ih => exact ⟨fun hc r => (hp.1 hc r).bind hf, fun r => ih r (hp.2 r)⟩

end BaptistApi.Program.Prog

namespace BaptistApi.Transactions

open BaptistApi.Program

/-! ## What must come about -/

/-- There is a way on, and on every way `P` comes about after finitely many steps. -/
inductive Inevitable {S : Type} (next : S → S → Prop) (P : S → Prop) : S → Prop where
  | now {s : S} (h : P s) : Inevitable next P s
  | later {s : S} (hgo : ∃ s', next s s') (h : ∀ s', next s s' → Inevitable next P s') : Inevitable next P s

theorem Inevitable.of_wellFounded {S : Type} {next : S → S → Prop} {P I : S → Prop}
    (hwf : WellFounded fun s' s => next s s') (hstep : ∀ s s', I s → next s s' → I s')
    (hlive : ∀ s, I s → ¬ P s → ∃ s', next s s') {s : S} (h : I s) : Inevitable next P s := by
  induction s using hwf.induction with
  | _ s ih =>
    by_cases hP : P s
    · exact .now hP
    · exact .later (hlive s h hP) fun s' hs => ih s' hs (hstep s s' h hs)

/-! ## The world -/

variable {σ A E W C : Type} {R : C → Type} {X α : Type}

/-- What the transaction in a slot has still to do. -/
def Slot.rest? : Slot A W C R X α → Option (Prog C R X α)
  | .running tx => some tx.prog
  | _ => none

def World.rest (w : World σ A W C R X α) : Multiset (Prog C R X α) := w.slots.filterMap Slot.rest?

theorem filterMap_set {S T : Type} {f : S → Option T} {slots : List S} {i : ℕ} {s t : S} {x : T}
    (hi : slots[i]? = some s) (hx : f s = some x) :
    List.Perm ((slots.set i t).filterMap f ++ [x]) (slots.filterMap f ++ (f t).toList) := by
  induction slots generalizing i with
  | nil => simp at hi
  | cons y slots ih =>
    cases i with
    | zero =>
      obtain rfl : y = s := by simpa using hi
      cases ht : f t with
      | none => simp [hx, ht]
      | some z =>
        simp only [List.set_cons_zero, List.filterMap_cons, hx, ht, Option.toList_some, List.cons_append]
        have hlast (u : T) : List.Perm (slots.filterMap f ++ [u]) (u :: slots.filterMap f) := List.perm_append_singleton _ _
        exact ((hlast x).cons z).trans ((List.Perm.swap _ _ _).trans ((hlast z).symm.cons x))
    | succ i =>
      have ih := ih (i := i) (by simpa using hi)
      cases hy : f y with
      | none => simpa [hy] using ih
      | some z => simpa [hy] using ih

theorem World.rest_set {w : World σ A W C R X α} {i : ℕ} {s s' : Slot A W C R X α} {p : Prog C R X α}
    (hi : w.slots[i]? = some s) (hp : s.rest? = some p) (db : σ) (effects : List (ℕ × A)) :
    World.rest { db := db, slots := w.slots.set i s', effects := effects } + {p} =
      w.rest + (s'.rest?.toList : Multiset (Prog C R X α)) :=
  Multiset.coe_eq_coe.mpr (filterMap_set hi hp)

namespace Engine

variable (M : Engine σ A E W C R X α)

/-- A step of a call that has begun. -/
def Onward (w w' : World σ A W C R X α) : Prop := ∃ l, (∀ a, l ≠ .begin a) ∧ M.step w l = some w'

/-- One in which no connection is lost. -/
def Unaided (w w' : World σ A W C R X α) : Prop :=
  ∃ l, (∀ a, l ≠ .begin a) ∧ (∀ i, l ≠ .lose i) ∧ M.step w l = some w'

theorem Unaided.onward {w w' : World σ A W C R X α} (h : M.Unaided w w') : M.Onward w w' := by
  obtain ⟨l, hbegin, -, hs⟩ := h
  exact ⟨l, hbegin, hs⟩

theorem onward_cutExpand {w w' : World σ A W C R X α} (h : M.Onward w w') :
    Relation.CutExpand Prog.Follows w'.rest w.rest := by
  obtain ⟨l, hl, hs⟩ := h
  cases M.step_cases hs with
  | begin a => exact absurd rfl (hl a)
  | move hi hm =>
    have hdone {p' : Prog C R X α} (hp' : p' ∈ ((none : Option (Prog C R X α)).toList : Multiset (Prog C R X α))) :
        False := by simp at hp'
    cases hm with
    | exec hp =>
      refine ⟨_, _, fun p' hp' => ?_, World.rest_set hi (congrArg some hp) _ _⟩
      rw [Multiset.mem_singleton.mp hp']
      exact .answer _ _ _
    | lose hp =>
      refine ⟨_, _, fun p' hp' => ?_, World.rest_set hi (congrArg some hp) _ _⟩
      rw [Multiset.mem_singleton.mp hp']
      exact .answer _ _ _
    | commit => exact ⟨_, _, fun p' hp' => (hdone hp').elim, World.rest_set hi rfl _ _⟩
    | abandon => exact ⟨_, _, fun p' hp' => (hdone hp').elim, World.rest_set hi rfl _ _⟩
    | rollback => exact ⟨_, _, fun p' hp' => (hdone hp').elim, World.rest_set hi rfl _ _⟩

theorem onward_wellFounded : WellFounded fun w' w : World σ A W C R X α => M.Onward w w' :=
  Subrelation.wf (fun h => M.onward_cutExpand h) (InvImage.wf World.rest Prog.follows_wellFounded.cutExpand)

/-- Rows are written by commands of the kind `locks`, and `quiet` commands wait for nobody. -/
structure WaitsFor (locks quiet : C → Prop) : Prop where
  writes : ∀ a e failed db c, (M.exec a e failed db c).writes ≠ [] → locks c
  rows : ∀ a e c ws, M.waits a e c ws = true → ws ≠ [] ∧ ¬ quiet c

variable {M} {locks quiet : C → Prop}

/-- Who holds rows waits for nobody any more. -/
def HoldersQuiet (locks quiet : C → Prop) (w : World σ A W C R X α) : Prop :=
  ∀ (i : ℕ) tx, w.slots[i]? = some (.running tx) →
    tx.prog.LocksLast locks quiet ∧ (tx.writes ≠ [] → tx.prog.Issues quiet)

theorem WaitsFor.step (hM : M.WaitsFor locks quiet) (hprog : ∀ a, (M.prog a).LocksLast locks quiet)
    {w w' : World σ A W C R X α} {l : Label A E} (hw : HoldersQuiet locks quiet w) (hs : M.step w l = some w') :
    HoldersQuiet locks quiet w' := by
  cases M.step_cases hs with
  | begin a =>
    intro i tx hi
    rcases slot_of_push hi with hi | ⟨-, hi⟩
    · exact hw i tx hi
    · cases hi
      exact ⟨hprog a, fun h => absurd rfl h⟩
  | move hi hm =>
    intro j tx' hj
    rcases slot_of_set hj with ⟨rfl, hslot⟩ | ⟨-, hj⟩
    · clear hj
      cases hm with
      | @exec e tx c k hp =>
        cases hslot
        have htx := hw _ _ hi
        rw [hp] at htx
        refine ⟨htx.1.2 _, fun hheld => ?_⟩
        -- It held rows before, or this command wrote some.
        simp only [Tx.answer] at hheld
        split at hheld
        · exact absurd rfl hheld
        · by_cases hold : tx.writes = []
          · rw [hold, List.nil_append] at hheld
            exact htx.1.1 (hM.writes _ _ _ _ _ hheld) _
          · exact (htx.2 hold).2 _
      | @lose tx c k r hp =>
        cases hslot
        have htx := hw _ _ hi
        rw [hp] at htx
        exact ⟨htx.1.2 _, fun hheld => absurd rfl hheld⟩
      | commit => cases hslot
      | abandon => cases hslot
      | rollback => cases hslot
    · exact hw j tx' hj

theorem unaided_of_free [Nonempty E] {w : World σ A W C R X α} {i : ℕ} {tx : Tx A W C R X α}
    (hi : w.slots[i]? = some (.running tx))
    (hfree : ∀ c k, tx.prog = .call c k → ∀ e, ∀ t ∈ w.others i, M.waits tx.call e c t.writes = false) :
    ∃ w', M.Unaided w w' := by
  cases hp : tx.prog with
  | ret v =>
    by_cases hf : tx.failed = true
    · exact ⟨_, .finish i, by simp, by simp, by simp only [step, hi, hp, hf]; rfl⟩
    · exact ⟨_, .finish i, by simp, by simp, by simp only [step, hi, hp, hf]; rfl⟩
  | raise x => exact ⟨_, .finish i, by simp, by simp, by simp only [step, hi, hp]; rfl⟩
  | call c k =>
    obtain ⟨e⟩ := ‹Nonempty E›
    have hany : (w.others i).any (fun t => M.waits tx.call e c t.writes) = false := by
      rw [List.any_eq_false]
      intro t ht
      rw [hfree c k hp e t ht]
      exact Bool.false_ne_true
    exact ⟨_, .exec i e, by simp, by simp, by simp only [step, hi, hp, hany, Bool.and_false]; rfl⟩

theorem WaitsFor.live [Nonempty E] (hM : M.WaitsFor locks quiet) {w : World σ A W C R X α}
    (hw : HoldersQuiet locks quiet w) (hrunning : ¬ w.Idle) : ∃ w', M.Unaided w w' := by
  by_cases hheld : ∃ (i : ℕ) (tx : Tx A W C R X α), w.slots[i]? = some (.running tx) ∧ tx.writes ≠ []
  · obtain ⟨i, tx, hi, hwrites⟩ := hheld
    refine unaided_of_free hi fun c k hp e t _ => Bool.eq_false_iff.mpr fun hwaits => ?_
    have hquiet := (hw i tx hi).2 hwrites
    rw [hp] at hquiet
    exact (hM.rows _ _ _ _ hwaits).2 hquiet.1
  · -- Nobody holds rows, so anyone who runs can go on.
    simp only [World.Idle, not_forall, not_not] at hrunning
    obtain ⟨i, tx, hi⟩ := hrunning
    refine unaided_of_free hi fun c k _ e t ht => Bool.eq_false_iff.mpr fun hwaits => ?_
    obtain ⟨j, -, hj, -⟩ := World.mem_others.mp ht
    exact hheld ⟨j, t, hj, (hM.rows _ _ _ _ hwaits).1⟩

/-- **Every call that has begun ends**, after every run, and none needs that a connection is lost. -/
theorem WaitsFor.ends [Nonempty E] (hM : M.WaitsFor locks quiet) (hprog : ∀ a, (M.prog a).LocksLast locks quiet)
    {db : σ} {ls : List (Label A E)} {w : World σ A W C R X α} (hrun : M.run { db } ls = some w) :
    Inevitable M.Onward World.Idle w ∧ Inevitable M.Unaided World.Idle w := by
  have hstart : HoldersQuiet locks quiet ({ db } : World σ A W C R X α) := fun i tx hi => by simp at hi
  have hw : HoldersQuiet locks quiet w := M.run_invariant (fun _ _ _ h hs => hM.step hprog h hs) hstart hrun
  have hstep (w w' : World σ A W C R X α) (h : HoldersQuiet locks quiet w) (hs : M.Onward w w') :
      HoldersQuiet locks quiet w' := by
    obtain ⟨l, -, hs⟩ := hs
    exact hM.step hprog h hs
  constructor
  · refine Inevitable.of_wellFounded M.onward_wellFounded hstep (fun w h hrunning => ?_) hw
    obtain ⟨w', hs⟩ := hM.live h hrunning
    exact ⟨w', hs.onward⟩
  · have hwf : WellFounded fun w' w : World σ A W C R X α => M.Unaided w w' :=
      Subrelation.wf (fun hs => hs.onward) M.onward_wellFounded
    exact Inevitable.of_wellFounded hwf (fun w w' h hs => hstep w w' h hs.onward) (fun w h => hM.live h) hw

end Engine

end BaptistApi.Transactions
