import BaptistApi.Lib.History
import BaptistApi.Lib.Progress

/-!
# What a program said and heard

A program that has come to a command has had certain replies before. That is a matter of the program
alone, and holds of each program in every run, whoever else runs.
-/

/-! ## Programs -/

namespace BaptistApi.Program

/-- A command with its reply. -/
abbrev Exchange {C : Type} (R : C → Type) : Type := (c : C) × R c

namespace Prog

variable {C : Type} {R : C → Type} {X α β : Type}

/-- After these exchanges the program goes on as `q`. -/
inductive Reaches : Prog C R X α → List (Exchange R) → Prog C R X α → Prop where
  | here (p : Prog C R X α) : Reaches p [] p
  | call (c : C) (k : R c → Prog C R X α) (r : R c) {es : List (Exchange R)} {q : Prog C R X α}
      (h : Reaches (k r) es q) : Reaches (.call c k) (⟨c, r⟩ :: es) q

variable {p q : Prog C R X α} {es : List (Exchange R)} {c : C}

theorem Reaches.snoc {k : R c → Prog C R X α} (h : p.Reaches es (.call c k)) (r : R c) :
    p.Reaches (es ++ [⟨c, r⟩]) (k r) := by
  generalize hq : Prog.call c k = q at h
  induction h with
  | here =>
    subst hq
    exact .call c k r (.here _)
  | call c' k' r' _ ih => exact .call c' k' r' (ih hq)

theorem reaches_ret {v : α} : (ret v : Prog C R X α).Reaches es q ↔ es = [] ∧ q = ret v := by
  constructor
  · intro h
    cases h
    exact ⟨rfl, rfl⟩
  · rintro ⟨rfl, rfl⟩
    exact .here _

theorem reaches_raise {x : X} : (raise x : Prog C R X α).Reaches es q ↔ es = [] ∧ q = raise x := by
  constructor
  · intro h
    cases h
    exact ⟨rfl, rfl⟩
  · rintro ⟨rfl, rfl⟩
    exact .here _

theorem Reaches.elim {k : R c → Prog C R X α} (h : p.Reaches es (.call c k)) (hp : p.Issues (· ≠ c)) : False := by
  generalize hq : Prog.call c k = q at h
  induction h with
  | here =>
    subst hq
    exact hp.1 rfl
  | call _ _ r _ ih => exact ih (hp.2 r) hq

theorem Reaches.bind_ret {f : α → Prog C R X β} {v : β} (h : (p >>= f).Reaches es (.ret v)) :
    ∃ u es₁ es₂, es = es₁ ++ es₂ ∧ p.Reaches es₁ (.ret u) ∧ (f u).Reaches es₂ (.ret v) := by
  induction p generalizing es with
  | ret u => exact ⟨u, [], es, rfl, .here _, h⟩
  | raise x => cases (reaches_raise.mp h).2
  | call c k ih =>
    cases h with
    | call _ _ r h =>
      obtain ⟨u, es₁, es₂, rfl, hp, hf⟩ := ih r h
      exact ⟨u, ⟨c, r⟩ :: es₁, es₂, rfl, .call c k r hp, hf⟩

theorem Reaches.past {f : α → Prog C R X β} {k : R c → Prog C R X β} (h : (p >>= f).Reaches es (.call c k))
    (hp : p.Issues (· ≠ c)) :
    ∃ u es₁ es₂, es = es₁ ++ es₂ ∧ p.Reaches es₁ (.ret u) ∧ (f u).Reaches es₂ (.call c k) := by
  induction p generalizing es with
  | ret u => exact ⟨u, [], es, rfl, .here _, h⟩
  | raise x => cases (reaches_raise.mp h).2
  | call c' k' ih =>
    generalize hq : Prog.call c k = q at h
    cases h with
    | here =>
      cases hq
      exact absurd rfl hp.1
    | call _ _ r h =>
      subst hq
      obtain ⟨u, es₁, es₂, rfl, hreach, hf⟩ := ih r h (hp.2 r)
      exact ⟨u, ⟨c', r⟩ :: es₁, es₂, rfl, .call c' k' r hreach, hf⟩

theorem Reaches.within {f : α → Prog C R X β} {k : R c → Prog C R X β} (h : (p >>= f).Reaches es (.call c k))
    (hf : ∀ v, (f v).Issues (· ≠ c)) : ∃ k', p.Reaches es (.call c k') := by
  induction p generalizing es with
  | ret v => exact (Reaches.elim h (hf v)).elim
  | raise x => cases (reaches_raise.mp h).2
  | call c' k' ih =>
    generalize hq : Prog.call c k = q at h
    cases h with
    | here =>
      cases hq
      exact ⟨k', .here _⟩
    | call _ _ r h =>
      subst hq
      obtain ⟨k'', hreach⟩ := ih r h
      exact ⟨k'', .call c' k' r hreach⟩

end Prog

end BaptistApi.Program

/-! ## Runs -/

namespace BaptistApi.Transactions

open BaptistApi.Program

/-- A command of a slot, its reply, and the state that the command saw. -/
structure Said (σ : Type) {C : Type} (R : C → Type) where
  slot : ℕ
  command : C
  reply : R command
  seen : σ

variable {σ A E W C : Type} {R : C → Type} {X α : Type}

def Said.exchange (x : Said σ R) : Exchange R := ⟨x.command, x.reply⟩

/-- What slot `i` said and heard. -/
def saidBy (h : List (Said σ R)) (i : ℕ) : List (Said σ R) := h.filter fun x => x.slot == i

def dialogue (h : List (Said σ R)) (i : ℕ) : List (Exchange R) := (saidBy h i).map Said.exchange

theorem dialogue_append (h h' : List (Said σ R)) (i : ℕ) : dialogue (h ++ h') i = dialogue h i ++ dialogue h' i := by
  simp [dialogue, saidBy]

theorem dialogue_self (x : Said σ R) : dialogue [x] x.slot = [x.exchange] := by
  simp [dialogue, saidBy]

theorem dialogue_nothing {h : List (Said σ R)} {i : ℕ} (hi : ∀ x ∈ h, x.slot ≠ i) : dialogue h i = [] := by
  have hnone : saidBy h i = [] := by
    unfold saidBy
    rw [List.filter_eq_nil_iff]
    intro x hx hmatch
    exact hi x hx (beq_iff_eq.mp hmatch)
  rw [dialogue, hnone, List.map_nil]

/-- What a slot has still to do. -/
def Slot.prog : Slot A W C R X α → Prog C R X α
  | .running tx => tx.prog
  | .committed _ _ v => .ret v
  | .rolledBack _ (.ok v) => .ret v
  | .rolledBack _ (.error x) => .raise x

namespace Engine

variable (M : Engine σ A E W C R X α)

def say (w : World σ A W C R X α) : Label A E → Option (Said σ R)
  | .exec i e =>
    match w.slots[i]? with
    | some (.running tx) =>
      match tx.prog with
      | .call c _ =>
        let seen := M.view w.db tx.writes
        some { slot := i, command := c, reply := (M.exec tx.call e tx.failed seen c).reply, seen }
      | _ => none
    | _ => none
  | .lose i =>
    match w.slots[i]? with
    | some (.running tx) =>
      match tx.prog with
      | .call c _ => (M.lost c).map fun r => { slot := i, command := c, reply := r, seen := M.view w.db tx.writes }
      | _ => none
    | _ => none
  | _ => none

/-- Everything that was said in a run. -/
def conversation (w : World σ A W C R X α) (ls : List (Label A E)) : List (Said σ R) := history M.step M.say w ls

/-- The reply is that of the database, or of a lost connection. -/
def Honest (a : A) (x : Said σ R) : Prop :=
  M.lost x.command = some x.reply ∨ ∃ e failed, x.reply = (M.exec a e failed x.seen x.command).reply

/-- The world has come about by what was said. -/
structure Spoken (w : World σ A W C R X α) (h : List (Said σ R)) : Prop where
  slot : ∀ (i : ℕ) s, w.slots[i]? = some s → (M.prog s.call).Reaches (dialogue h i) s.prog
  honest : ∀ x ∈ h, ∃ s, w.slots[x.slot]? = some s ∧ M.Honest s.call x
  acted : ∀ (i : ℕ) a, (i, a) ∈ w.effects → ∃ h₁ x h₂, h = h₁ ++ x :: h₂ ∧ x.slot = i ∧ M.external x.command = true ∧
    (∃ s, w.slots[i]? = some s ∧ s.call = a) ∧ ∃ k, (M.prog a).Reaches (dialogue h₁ i) (.call x.command k)

variable {M} {w w' : World σ A W C R X α} {h : List (Said σ R)}

theorem Honest.exec (a : A) (e : E) (failed : Bool) (seen : σ) (i : ℕ) (c : C) :
    M.Honest a { slot := i, command := c, reply := (M.exec a e failed seen c).reply, seen } := Or.inr ⟨e, failed, rfl⟩

theorem Spoken.begun (hw : M.Spoken w h) {x : Said σ R} (hx : x ∈ h) : x.slot < w.slots.length := by
  obtain ⟨s, hs, -⟩ := hw.honest x hx
  exact (List.getElem?_eq_some_iff.mp hs).1

theorem Spoken.set (hw : M.Spoken w h) {i : ℕ} {s s' : Slot A W C R X α} {db' : σ} {acted : Bool} {new : List (Said σ R)}
    (hi : w.slots[i]? = some s) (hcall : s'.call = s.call) (hnew : ∀ x ∈ new, x.slot = i ∧ M.Honest s.call x)
    (hreach : (M.prog s.call).Reaches (dialogue h i ++ dialogue new i) s'.prog)
    (hacted : acted = true → ∃ x k, new = [x] ∧ M.external x.command = true ∧ s.prog = .call x.command k) :
    M.Spoken { db := db', slots := w.slots.set i s', effects := if acted then w.effects ++ [(i, s.call)] else w.effects }
      (h ++ new) := by
  -- A call stays the same.
  have hkeeps {j : ℕ} {t : Slot A W C R X α} (hj : w.slots[j]? = some t) :
      ∃ t', (w.slots.set i s')[j]? = some t' ∧ t'.call = t.call := by
    by_cases hji : j = i
    · subst hji
      cases hi.symm.trans hj
      exact ⟨s', slot_set_self s' hi, hcall⟩
    · exact ⟨t, by rw [List.getElem?_set_ne (Ne.symm hji)]; exact hj, rfl⟩
  refine ⟨fun j t hj => ?_, fun x hx => ?_, fun j a hmem => ?_⟩
  · rw [dialogue_append]
    rcases slot_of_set hj with ⟨rfl, rfl⟩ | ⟨hji, hj⟩
    · rw [hcall]
      exact hreach
    · have hnone : dialogue new j = [] := dialogue_nothing fun x hx hxj => hji (hxj.symm.trans (hnew x hx).1)
      rw [hnone, List.append_nil]
      exact hw.slot j t hj
  · rcases List.mem_append.mp hx with hx | hx
    · obtain ⟨t, ht, hhonest⟩ := hw.honest x hx
      obtain ⟨t', ht', hsame⟩ := hkeeps ht
      exact ⟨t', ht', hsame ▸ hhonest⟩
    · obtain ⟨hslot, hhonest⟩ := hnew x hx
      exact ⟨s', by rw [hslot]; exact slot_set_self s' hi, hcall ▸ hhonest⟩
  · have old (hmem : (j, a) ∈ w.effects) : ∃ h₁ x h₂, h ++ new = h₁ ++ x :: h₂ ∧ x.slot = j ∧
        M.external x.command = true ∧ (∃ t, (w.slots.set i s')[j]? = some t ∧ t.call = a) ∧
        ∃ k, (M.prog a).Reaches (dialogue h₁ j) (.call x.command k) := by
      obtain ⟨h₁, x, h₂, rfl, hslot, hext, ⟨t, ht, rfl⟩, hk⟩ := hw.acted j a hmem
      exact ⟨h₁, x, h₂ ++ new, by simp, hslot, hext, hkeeps ht, hk⟩
    cases acted with
    | false => exact old hmem
    | true =>
      rcases List.mem_append.mp hmem with hmem | hmem
      · exact old hmem
      · cases List.mem_singleton.mp hmem
        obtain ⟨x, k, rfl, hext, hp⟩ := hacted rfl
        have hx := hnew x List.mem_cons_self
        refine ⟨h, x, [], rfl, hx.1, hext, ⟨s', slot_set_self s' hi, hcall⟩, k, ?_⟩
        rw [← hp]
        exact hw.slot i s hi

theorem Spoken.step (hw : M.Spoken w h) {l : Label A E} (hs : M.step w l = some w') :
    M.Spoken w' (h ++ (M.say w l).toList) := by
  cases M.step_cases hs with
  | begin a =>
    change M.Spoken _ (h ++ [])
    rw [List.append_nil]
    refine ⟨fun i s hi => ?_, fun x hx => ?_, fun i b hmem => ?_⟩
    · rcases slot_of_push hi with hi | ⟨rfl, rfl⟩
      · exact hw.slot i s hi
      · have hnone : dialogue h w.slots.length = [] := dialogue_nothing fun x hx => (hw.begun hx).ne
        rw [hnone]
        exact .here _
    · obtain ⟨s, hs, hhonest⟩ := hw.honest x hx
      exact ⟨s, slot_push _ hs, hhonest⟩
    · obtain ⟨h₁, x, h₂, hsplit, hslot, hext, ⟨s, hs, hcall⟩, hk⟩ := hw.acted i b hmem
      exact ⟨h₁, x, h₂, hsplit, hslot, hext, ⟨s, slot_push _ hs, hcall⟩, hk⟩
  | @move i _ s s' db' acted hi hm =>
    have hreach := hw.slot i s hi
    have silent (hsay : M.say w l = none) (hcall : s'.call = s.call) (hprog : s'.prog = s.prog)
        (hacted : acted = false) :
        M.Spoken { db := db', slots := w.slots.set i s'
                   effects := if acted then w.effects ++ [(i, s.call)] else w.effects } (h ++ (M.say w l).toList) := by
      rw [hsay]
      refine hw.set hi hcall (fun x hx => by cases hx) ?_ fun h => ?_
      · rw [hprog]
        simpa [dialogue, saidBy] using hreach
      · rw [hacted] at h
        cases h
    cases hm with
    | @exec e tx c k hp =>
      have hsay : M.say w (.exec i e) = some { slot := i, command := c
                                               reply := (M.exec tx.call e tx.failed (M.view w.db tx.writes) c).reply
                                               seen := M.view w.db tx.writes } := by
        simp only [say, hi, hp]
      rw [hsay]
      refine hw.set hi rfl (fun x hx => ?_) ?_ fun hacted => ⟨_, k, rfl, hacted, by exact hp⟩
      · obtain rfl := List.mem_singleton.mp hx
        exact ⟨rfl, .exec _ _ _ _ _ _⟩
      · rw [Option.toList_some, dialogue_self]
        have hcalled : (M.prog tx.call).Reaches (dialogue h i) (.call c k) := hp ▸ hreach
        exact hcalled.snoc _
    | @lose tx c k r hp hr =>
      have hsay : M.say w (.lose i) = some { slot := i, command := c, reply := r, seen := M.view w.db tx.writes } := by
        simp only [say, hi, hp, hr, Option.map_some]
      rw [hsay]
      refine hw.set hi rfl (fun x hx => ?_) ?_ fun hacted => by cases hacted
      · obtain rfl := List.mem_singleton.mp hx
        exact ⟨rfl, Or.inl hr⟩
      · rw [Option.toList_some, dialogue_self]
        have hcalled : (M.prog tx.call).Reaches (dialogue h i) (.call c k) := hp ▸ hreach
        exact hcalled.snoc _
    | commit hp => exact silent rfl rfl hp.symm rfl
    | abandon hp => exact silent rfl rfl hp.symm rfl
    | rollback hp => exact silent rfl rfl hp.symm rfl

/-- **Each program has come where its dialogue leads to**, in every run. -/
theorem run_spoken {db : σ} {ls : List (Label A E)} (hrun : M.run { db } ls = some w) :
    M.Spoken w (M.conversation { db } ls) := by
  have hstart : M.Spoken ({ db } : World σ A W C R X α) [] :=
    ⟨fun i s hi => by simp at hi, fun x hx => (nomatch hx), fun i a hmem => (nomatch hmem)⟩
  exact run_history M.step M.say (fun w h l w' hw hs => hw.step hs) hstart hrun

end Engine

end BaptistApi.Transactions
