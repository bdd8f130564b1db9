import BaptistApi.Lib.Program
import Mathlib.Tactic.Common

/-!
# Transactions under READ COMMITTED

Many programs run side by side, each in a transaction of its own. A statement sees the rows that
were committed when it started and the rows its own transaction wrote. A statement may have to wait
for another transaction to end. A failed statement aborts its transaction: its rows are gone, and a
later COMMIT acts as ROLLBACK. What a program did outside the database is never undone.
-/

namespace BaptistApi.Transactions

open BaptistApi.Program

/-- The answer to one command: the reply, the row versions it wrote, and whether it failed. -/
structure Answer (W ρ : Type) where
  reply : ρ
  writes : List W := []
  fails : Bool := false

/-- A database `σ` and the programs that use it. A call `A` says what one transaction is to do, and
`E` is what the world outside decides during one command (a generated id, the clock). -/
structure Engine (σ A E W C : Type) (R : C → Type) (X α : Type) where
  prog : A → Prog C R X α
  apply : σ → W → σ
  /-- The flag says that the transaction is already aborted. The state is what the command sees. -/
  exec : A → E → Bool → σ → (c : C) → Answer W (R c)
  /-- The command must wait while another transaction holds these uncommitted rows. -/
  waits : A → E → C → List W → Bool
  /-- The command acts outside the database. -/
  external : C → Bool
  /-- The answer to a statement that is lost with its connection, for commands that are statements. -/
  lost : (c : C) → Option (R c)

variable {σ A E W C : Type} {R : C → Type} {X α : Type}

structure Tx (A W C : Type) (R : C → Type) (X α : Type) where
  call : A
  prog : Prog C R X α
  writes : List W := []
  failed : Bool := false
  /-- The commands so far, in order. -/
  issued : List C := []

inductive Slot (A W C : Type) (R : C → Type) (X α : Type) where
  | running (tx : Tx A W C R X α)
  | committed (call : A) (writes : List W) (value : α)
  | rolledBack (call : A) (outcome : Except X α)

def Slot.call : Slot A W C R X α → A
  | .running tx => tx.call
  | .committed a _ _ => a
  | .rolledBack a _ => a

/-- The committed rows, every transaction ever begun, and each act outside the database with the
transaction that did it. -/
structure World (σ A W C : Type) (R : C → Type) (X α : Type) where
  db : σ
  slots : List (Slot A W C R X α) := []
  effects : List (Nat × A) := []

inductive Label (A E : Type) where
  | begin (a : A)
  | exec (i : Nat) (e : E)
  | lose (i : Nat)
  | finish (i : Nat)

def Tx.answer (tx : Tx A W C R X α) (c : C) (k : R c → Prog C R X α) (ans : Answer W (R c)) :
    Tx A W C R X α :=
  { tx with
    prog := k ans.reply
    writes := if ans.fails then [] else tx.writes ++ ans.writes
    failed := tx.failed || ans.fails
    issued := tx.issued ++ [c] }

/-- The other transactions that still hold rows. -/
def World.others (w : World σ A W C R X α) (i : Nat) : List (Tx A W C R X α) :=
  w.slots.zipIdx.filterMap fun p =>
    match p.1 with
    | .running tx => if p.2 = i ∨ tx.failed = true then none else some tx
    | _ => none

/-- How often transaction `i` acted outside the database. -/
def World.acts (w : World σ A W C R X α) (i : Nat) : Nat := w.effects.countP fun p => p.1 == i

section Slots

variable {S : Type} {slots : List S} {s t : S} {i j : Nat}

theorem slot_of_push (h : (slots ++ [s])[i]? = some t) : slots[i]? = some t ∨ i = slots.length ∧ t = s := by
  rcases Nat.lt_or_ge i slots.length with hlt | hge
  · rw [List.getElem?_append_left hlt] at h
    exact Or.inl h
  · rw [List.getElem?_append_right hge, List.getElem?_singleton] at h
    split at h
    · exact Or.inr ⟨by omega, (Option.some.inj h).symm⟩
    · simp at h

theorem slot_push (s : S) (h : slots[i]? = some t) : (slots ++ [s])[i]? = some t := by
  rw [List.getElem?_append_left (List.getElem?_eq_some_iff.mp h).1]
  exact h

theorem slot_of_set (h : (slots.set i s)[j]? = some t) : (j = i ∧ t = s) ∨ (j ≠ i ∧ slots[j]? = some t) := by
  rw [List.getElem?_set] at h
  split at h
  · rename_i hij
    split at h
    · exact Or.inl ⟨hij.symm, (Option.some.inj h).symm⟩
    · simp at h
  · rename_i hij
    exact Or.inr ⟨fun hji => hij hji.symm, h⟩

theorem slot_set_self (s : S) (h : slots[i]? = some t) : (slots.set i s)[i]? = some s :=
  List.getElem?_set_self (List.getElem?_eq_some_iff.mp h).1

theorem filter_set_same {T : Type} {p : S → Bool} {f : S → T} (h : slots[i]? = some s) (hp : p t = p s)
    (hf : p s = true → f t = f s) : ((slots.set i t).filter p).map f = (slots.filter p).map f := by
  induction slots generalizing i with
  | nil => rfl
  | cons x slots ih =>
    cases i with
    | zero =>
      obtain rfl : x = s := by simpa using h
      cases hx : p x with
      | false => simp [hp, hx]
      | true => simp [hp, hx, hf hx]
    | succ i =>
      have ih := ih (i := i) (by simpa using h)
      cases hx : p x <;> simp [hx, ih]

theorem filter_set_new {T : Type} {p : S → Bool} {f : S → T} (h : slots[i]? = some s) (hold : p s = false)
    (hnew : p t = true) : List.Perm (((slots.set i t).filter p).map f) ((slots.filter p).map f ++ [f t]) := by
  induction slots generalizing i with
  | nil => simp at h
  | cons x slots ih =>
    cases i with
    | zero =>
      obtain rfl : x = s := by simpa using h
      simp only [List.set_cons_zero, List.filter_cons, hnew, hold, if_true, Bool.false_eq_true, if_false, List.map_cons]
      exact (List.perm_append_singleton _ _).symm
    | succ i =>
      have ih := ih (i := i) (by simpa using h)
      cases hx : p x <;> simp [hx, ih]

end Slots

theorem World.mem_others {w : World σ A W C R X α} {i : Nat} {tx : Tx A W C R X α} :
    tx ∈ w.others i ↔ ∃ j, j ≠ i ∧ w.slots[j]? = some (.running tx) ∧ tx.failed = false := by
  simp only [World.others, List.mem_filterMap, Prod.exists, List.mem_zipIdx_iff_getElem?]
  constructor
  · rintro ⟨s, j, hs, h⟩
    cases s with
    | running t =>
      simp only [Option.ite_none_left_eq_some, not_or, Bool.not_eq_true, Option.some.injEq] at h
      obtain ⟨⟨hj, hf⟩, rfl⟩ := h
      exact ⟨j, hj, hs, hf⟩
    | committed _ _ _ => cases h
    | rolledBack _ _ => cases h
  · rintro ⟨j, hj, hs, hf⟩
    exact ⟨_, j, hs, by simp [hj, hf]⟩

theorem World.acts_ne_zero {w : World σ A W C R X α} {p : Nat × A} (h : p ∈ w.effects) : w.acts p.1 ≠ 0 :=
  Nat.ne_of_gt (List.countP_pos_iff.mpr ⟨p, h, beq_self_eq_true p.1⟩)

namespace Engine

variable (M : Engine σ A E W C R X α)

/-- The rows a transaction sees. -/
def view (db : σ) (ws : List W) : σ := ws.foldl M.apply db

@[simp] theorem view_nil (db : σ) : M.view db [] = db := rfl

@[simp] theorem view_append (db : σ) (ws vs : List W) :
    M.view db (ws ++ vs) = M.view (M.view db ws) vs := List.foldl_append

@[simp] theorem view_cons (db : σ) (v : W) (ws : List W) :
    M.view db (v :: ws) = M.view (M.apply db v) ws := rfl

/-- One step of the world, if the label names one that can be taken now. -/
def step (w : World σ A W C R X α) : Label A E → Option (World σ A W C R X α)
  | .begin a => some { w with slots := w.slots ++ [.running { call := a, prog := M.prog a }] }
  | .exec i e =>
    match w.slots[i]? with
    | some (.running tx) =>
      match tx.prog with
      | .call c k =>
        if !tx.failed && (w.others i).any (fun t => M.waits tx.call e c t.writes) then none
        else
          let ans := M.exec tx.call e tx.failed (M.view w.db tx.writes) c
          some { w with
            slots := w.slots.set i (.running (tx.answer c k ans))
            effects := if M.external c then w.effects ++ [(i, tx.call)] else w.effects }
      | _ => none
    | _ => none
  | .lose i =>
    match w.slots[i]? with
    | some (.running tx) =>
      match tx.prog with
      | .call c k =>
        match M.lost c with
        | some r =>
          some { w with slots := w.slots.set i (.running (tx.answer c k { reply := r, fails := true })) }
        | none => none
      | _ => none
    | _ => none
  | .finish i =>
    match w.slots[i]? with
    | some (.running tx) =>
      match tx.prog with
      | .ret v =>
        if tx.failed then some { w with slots := w.slots.set i (.rolledBack tx.call (.ok v)) }
        else some { w with
          db := M.view w.db tx.writes
          slots := w.slots.set i (.committed tx.call tx.writes v) }
      | .raise x => some { w with slots := w.slots.set i (.rolledBack tx.call (.error x)) }
      | .call _ _ => none
    | _ => none

def run (w : World σ A W C R X α) (ls : List (Label A E)) : Option (World σ A W C R X α) :=
  ls.foldlM M.step w

theorem run_append (w : World σ A W C R X α) (ls ls' : List (Label A E)) :
    M.run w (ls ++ ls') = (M.run w ls).bind fun w' => M.run w' ls' := List.foldlM_append

@[simp] theorem run_nil (w : World σ A W C R X α) : M.run w [] = some w := rfl

@[simp] theorem run_cons (w : World σ A W C R X α) (l : Label A E) (ls : List (Label A E)) :
    M.run w (l :: ls) = (M.step w l).bind fun w' => M.run w' ls := rfl

/-- What one transaction does in one step: its slot before and after, the rows committed then, and
whether it acted outside the database. The other transactions that hold rows are `others`. -/
inductive Move (others : List (Tx A W C R X α)) (db : σ) (i : Nat) :
    Label A E → Slot A W C R X α → Slot A W C R X α → σ → Bool → Prop where
  | exec {e : E} {tx : Tx A W C R X α} {c : C} {k : R c → Prog C R X α}
      (hp : tx.prog = .call c k)
      (hw : tx.failed = false → ∀ t ∈ others, M.waits tx.call e c t.writes = false) :
      Move others db i (.exec i e) (.running tx)
        (.running (tx.answer c k (M.exec tx.call e tx.failed (M.view db tx.writes) c))) db (M.external c)
  | lose {tx : Tx A W C R X α} {c : C} {k : R c → Prog C R X α} {r : R c}
      (hp : tx.prog = .call c k) (hr : M.lost c = some r) :
      Move others db i (.lose i) (.running tx)
        (.running (tx.answer c k { reply := r, fails := true })) db false
  | commit {tx : Tx A W C R X α} {v : α} (hp : tx.prog = .ret v) (hf : tx.failed = false) :
      Move others db i (.finish i) (.running tx) (.committed tx.call tx.writes v)
        (M.view db tx.writes) false
  | abandon {tx : Tx A W C R X α} {v : α} (hp : tx.prog = .ret v) (hf : tx.failed = true) :
      Move others db i (.finish i) (.running tx) (.rolledBack tx.call (.ok v)) db false
  | rollback {tx : Tx A W C R X α} {x : X} (hp : tx.prog = .raise x) :
      Move others db i (.finish i) (.running tx) (.rolledBack tx.call (.error x)) db false

/-- Everything a step can be, with its guard. -/
inductive Step (w : World σ A W C R X α) : Label A E → World σ A W C R X α → Prop where
  | begin (a : A) :
      Step w (.begin a) { w with slots := w.slots ++ [.running { call := a, prog := M.prog a }] }
  | move {i : Nat} {l : Label A E} {s s' : Slot A W C R X α} {db' : σ} {acted : Bool}
      (hi : w.slots[i]? = some s) (hm : M.Move (w.others i) w.db i l s s' db' acted) :
      Step w l { db := db', slots := w.slots.set i s'
                 effects := if acted then w.effects ++ [(i, s.call)] else w.effects }

theorem step_cases {w w' : World σ A W C R X α} {l : Label A E} (h : M.step w l = some w') :
    M.Step w l w' := by
  cases l with
  | begin a => cases h; exact .begin a
  | exec i e =>
    simp only [step] at h
    split at h
    · rename_i tx hi
      split at h
      · rename_i c k hp
        split at h
        · simp at h
        · rename_i hw
          cases h
          refine .move hi (.exec hp fun hf t ht => ?_)
          simp only [hf, Bool.not_false, Bool.true_and, List.any_eq_true, not_exists, not_and,
            Bool.not_eq_true] at hw
          exact hw t ht
      · simp at h
    · simp at h
  | lose i =>
    simp only [step] at h
    split at h
    · rename_i tx hi
      split at h
      · rename_i c k hp
        split at h
        · rename_i r hr
          cases h
          exact .move hi (.lose hp hr)
        · simp at h
      · simp at h
    · simp at h
  | finish i =>
    simp only [step] at h
    split at h
    · rename_i tx hi
      split at h
      · rename_i v hp
        split at h
        · rename_i hf
          cases h
          exact .move hi (.abandon hp hf)
        · rename_i hf
          cases h
          exact .move hi (.commit hp (by simpa using hf))
      · rename_i x hp
        cases h
        exact .move hi (.rollback hp)
      · simp at h
    · simp at h

theorem step_commits {w w' : World σ A W C R X α} {l : Label A E} (h : M.step w l = some w') :
    (w'.db = w.db ∧ ∀ (i : Nat) a ws v,
        w'.slots[i]? = some (.committed a ws v) ↔ w.slots[i]? = some (.committed a ws v)) ∨
      ∃ i tx v, w.slots[i]? = some (.running tx) ∧ tx.prog = .ret v ∧ tx.failed = false ∧
        w' = { w with
          db := M.view w.db tx.writes
          slots := w.slots.set i (.committed tx.call tx.writes v) } := by
  -- A slot that runs, before and after, is no committed one.
  have same {i : Nat} {tx : Tx A W C R X α} {s' : Slot A W C R X α} (hi : w.slots[i]? = some (.running tx))
      (hs : ∀ a ws v, s' ≠ .committed a ws v) (j : Nat) (a : A) (ws : List W) (v : α) :
      (w.slots.set i s')[j]? = some (.committed a ws v) ↔ w.slots[j]? = some (.committed a ws v) := by
    by_cases hji : j = i
    · subst hji
      rw [slot_set_self s' hi, hi]
      simp [hs a ws v]
    · rw [List.getElem?_set_ne (Ne.symm hji)]
  cases M.step_cases h with
  | begin a =>
    refine Or.inl ⟨rfl, fun i b ws v => ⟨fun hi => ?_, slot_push _⟩⟩
    rcases slot_of_push hi with hi | ⟨-, hi⟩
    · exact hi
    · simp at hi
  | @move i _ s s' db' acted hi hm =>
    cases hm with
    | exec => exact Or.inl ⟨rfl, same hi fun _ _ _ hx => by cases hx⟩
    | lose => exact Or.inl ⟨rfl, same hi fun _ _ _ hx => by cases hx⟩
    | @commit tx v hp hf => exact Or.inr ⟨i, tx, v, hi, hp, hf, rfl⟩
    | abandon => exact Or.inl ⟨rfl, same hi fun _ _ _ hx => by cases hx⟩
    | rollback => exact Or.inl ⟨rfl, same hi fun _ _ _ hx => by cases hx⟩

/-! ## Rules for whole runs -/

/-- Every step of the run meets the condition `ok` in the state before it. -/
def RunsUnder (ok : World σ A W C R X α → Label A E → Prop) :
    World σ A W C R X α → List (Label A E) → Prop
  | _, [] => True
  | w, l :: ls => ok w l ∧ ∀ w', M.step w l = some w' → RunsUnder ok w' ls

/-- Runs are deterministic in their labels, so a condition on one run can be checked. -/
instance runsUnderDecidable (ok : World σ A W C R X α → Label A E → Prop) [∀ w l, Decidable (ok w l)] :
    ∀ w ls, Decidable (M.RunsUnder ok w ls)
  | _, [] => isTrue trivial
  | w, l :: ls =>
    match inferInstanceAs (Decidable (ok w l)) with
    | isFalse hl => isFalse fun h => hl h.1
    | isTrue hl =>
      match hs : M.step w l with
      | none => isTrue ⟨hl, fun w' h => by rw [hs] at h; cases h⟩
      | some w₁ =>
        match runsUnderDecidable ok w₁ ls with
        | isFalse hr => isFalse fun h => hr (h.2 w₁ hs)
        | isTrue hr => isTrue ⟨hl, fun w' h => by rw [hs] at h; cases h; exact hr⟩

theorem run_invariant_under {ok : World σ A W C R X α → Label A E → Prop}
    {I : World σ A W C R X α → Prop}
    (hstep : ∀ w l w', I w → ok w l → M.step w l = some w' → I w')
    {w w' : World σ A W C R X α} {ls : List (Label A E)}
    (h0 : I w) (hok : M.RunsUnder ok w ls) (hrun : M.run w ls = some w') : I w' := by
  induction ls generalizing w with
  | nil => cases hrun; exact h0
  | cons l ls ih =>
    simp only [run_cons, Option.bind_eq_some_iff] at hrun
    obtain ⟨w₁, h1, hrest⟩ := hrun
    exact ih (hstep w l w₁ h0 hok.1 h1) (hok.2 w₁ h1) hrest

theorem runsUnder_true (w : World σ A W C R X α) (ls : List (Label A E)) :
    M.RunsUnder (fun _ _ => True) w ls := by
  induction ls generalizing w with
  | nil => trivial
  | cons l ls ih => exact ⟨trivial, fun w' _ => ih w'⟩

variable {M} in
theorem RunsUnder.and {ok ok' : World σ A W C R X α → Label A E → Prop} {w : World σ A W C R X α}
    {ls : List (Label A E)} (h : M.RunsUnder ok w ls) (h' : M.RunsUnder ok' w ls) :
    M.RunsUnder (fun w l => ok w l ∧ ok' w l) w ls := by
  induction ls generalizing w with
  | nil => trivial
  | cons l ls ih => exact ⟨⟨h.1, h'.1⟩, fun w' hs => ih (h.2 w' hs) (h'.2 w' hs)⟩

variable {M} in
theorem RunsUnder.mono {ok ok' : World σ A W C R X α → Label A E → Prop} {w : World σ A W C R X α}
    {ls : List (Label A E)} (h : M.RunsUnder ok w ls) (himp : ∀ w l, ok w l → ok' w l) : M.RunsUnder ok' w ls := by
  induction ls generalizing w with
  | nil => trivial
  | cons l ls ih => exact ⟨himp w l h.1, fun w' hs => ih (h.2 w' hs)⟩

theorem runsUnder_of_labels {p : Label A E → Prop} {w : World σ A W C R X α} {ls : List (Label A E)}
    (h : ∀ l ∈ ls, p l) : M.RunsUnder (fun _ l => p l) w ls := by
  induction ls generalizing w with
  | nil => trivial
  | cons l ls ih => exact ⟨h l List.mem_cons_self, fun _ _ => ih fun l' hl => h l' (List.mem_cons_of_mem _ hl)⟩

theorem run_invariant {I : World σ A W C R X α → Prop}
    (hstep : ∀ w l w', I w → M.step w l = some w' → I w')
    {w w' : World σ A W C R X α} {ls : List (Label A E)}
    (h0 : I w) (hrun : M.run w ls = some w') : I w' :=
  M.run_invariant_under (fun w l w' h _ hs => hstep w l w' h hs) h0 (M.runsUnder_true w ls) hrun

/-! ## Transactions that leave each other alone

An invariant of the world is often three things: what the committed rows satisfy, what each
transaction satisfies beside them, and what any two transactions satisfy. One transaction at a time
then has to keep them, for itself and for all the others.
-/

end Engine

section Rely

variable (D : σ → Prop) (P : σ → Nat → Slot A W C R X α → Prop)
  (G : Slot A W C R X α → Slot A W C R X α → Prop)

/-- `P` is told how often the transaction acted outside the database. -/
structure World.Holds (w : World σ A W C R X α) : Prop where
  db : D w.db
  slot : ∀ (i : Nat) s, w.slots[i]? = some s → P w.db (w.acts i) s
  pair : ∀ (i j : Nat) s t, i ≠ j → w.slots[i]? = some s → w.slots[j]? = some t → G s t
  acted : ∀ p ∈ w.effects, ∃ s, w.slots[p.1]? = some s ∧ s.call = p.2

structure Engine.Cooperates (M : Engine σ A E W C R X α)
    (ok : World σ A W C R X α → Label A E → Prop) : Prop where
  begins : ∀ w a, w.Holds D P G → ok w (.begin a) →
    P w.db 0 (.running { call := a, prog := M.prog a }) ∧ ∀ (j : Nat) t, w.slots[j]? = some t →
      G (.running { call := a, prog := M.prog a }) t ∧ G t (.running { call := a, prog := M.prog a })
  moves : ∀ w l (i : Nat) s s' db' acted, w.Holds D P G → ok w l → w.slots[i]? = some s →
    M.Move (w.others i) w.db i l s s' db' acted →
    D db' ∧ P db' (w.acts i + acted.toNat) s' ∧ ∀ (j : Nat) t, j ≠ i → w.slots[j]? = some t →
      P db' (w.acts j) t ∧ G s' t ∧ G t s'

variable {D P G}

theorem Engine.Move.call_eq {M : Engine σ A E W C R X α} {others : List (Tx A W C R X α)} {db db' : σ}
    {i : Nat} {l : Label A E} {s s' : Slot A W C R X α} {acted : Bool}
    (h : M.Move others db i l s s' db' acted) : s'.call = s.call := by
  cases h <;> rfl

theorem World.Holds.acts_length {w : World σ A W C R X α} (h : w.Holds D P G) :
    w.acts w.slots.length = 0 := by
  unfold World.acts
  rw [List.countP_eq_zero]
  intro p hp
  obtain ⟨s, hs, -⟩ := h.acted p hp
  have hlt : p.1 < w.slots.length := (List.getElem?_eq_some_iff.mp hs).1
  rw [beq_iff_eq]
  omega

theorem World.Holds.begun {w : World σ A W C R X α} (h : w.Holds D P G) {s : Slot A W C R X α}
    (hnew : P w.db 0 s) (hothers : ∀ (j : Nat) t, w.slots[j]? = some t → G s t ∧ G t s) :
    World.Holds D P G { w with slots := w.slots ++ [s] } := by
  refine ⟨h.db, ?_, ?_, ?_⟩
  · intro i t hi
    rcases slot_of_push hi with hi | ⟨rfl, rfl⟩
    · exact h.slot i t hi
    · rw [← h.acts_length] at hnew
      exact hnew
  · intro i j t u hij hi hj
    rcases slot_of_push hi with hiold | ⟨rfl, rfl⟩
    · rcases slot_of_push hj with hjold | ⟨rfl, rfl⟩
      · exact h.pair i j t u hij hiold hjold
      · exact (hothers i t hiold).2
    · rcases slot_of_push hj with hjold | ⟨rfl, rfl⟩
      · exact (hothers j u hjold).1
      · exact absurd rfl hij
  · intro p hp
    obtain ⟨t, ht, hcall⟩ := h.acted p hp
    exact ⟨t, slot_push s ht, hcall⟩

theorem World.acts_moved (w : World σ A W C R X α) (i j : Nat) (a : A) (acted : Bool) (db : σ)
    (slots : List (Slot A W C R X α)) :
    World.acts { db := db, slots := slots, effects := if acted then w.effects ++ [(i, a)] else w.effects } j =
      w.acts j + (if j = i then acted.toNat else 0) := by
  unfold World.acts
  cases acted
  · simp
  · by_cases hj : j = i
    · simp [hj]
    · simp [hj, Ne.symm hj]

theorem World.Holds.moved {w : World σ A W C R X α} (h : w.Holds D P G) {i : Nat} {s s' : Slot A W C R X α}
    {db' : σ} {acted : Bool} (hi : w.slots[i]? = some s) (hcall : s'.call = s.call) (hdb : D db')
    (hself : P db' (w.acts i + acted.toNat) s')
    (hothers : ∀ (j : Nat) t, j ≠ i → w.slots[j]? = some t → P db' (w.acts j) t ∧ G s' t ∧ G t s') :
    World.Holds D P G
      { db := db', slots := w.slots.set i s'
        effects := if acted then w.effects ++ [(i, s.call)] else w.effects } := by
  refine ⟨hdb, ?_, ?_, ?_⟩
  · intro j t hj
    rw [World.acts_moved]
    rcases slot_of_set hj with ⟨rfl, rfl⟩ | ⟨hji, hj⟩
    · simpa using hself
    · simpa [hji] using (hothers j t hji hj).1
  · intro j k t u hjk hj hk
    rcases slot_of_set hj with ⟨rfl, rfl⟩ | ⟨hji, hjold⟩
    · rcases slot_of_set hk with ⟨rfl, rfl⟩ | ⟨hki, hkold⟩
      · exact absurd rfl hjk
      · exact (hothers k u hki hkold).2.1
    · rcases slot_of_set hk with ⟨rfl, rfl⟩ | ⟨hki, hkold⟩
      · exact (hothers j t hji hjold).2.2
      · exact h.pair j k t u hjk hjold hkold
  · -- Whoever acted before is there still, and whoever acts now is the one that moved.
    have old {q : Nat × A} (hq : q ∈ w.effects) : ∃ t, (w.slots.set i s')[q.1]? = some t ∧ t.call = q.2 := by
      obtain ⟨t, ht, htcall⟩ := h.acted q hq
      by_cases hqi : q.1 = i
      · rw [hqi, hi, Option.some.injEq] at ht
        rw [hqi]
        exact ⟨s', slot_set_self s' hi, hcall.trans (ht ▸ htcall)⟩
      · rw [List.getElem?_set_ne (Ne.symm hqi)]
        exact ⟨t, ht, htcall⟩
    intro p hp
    dsimp only at hp
    split at hp
    · rcases List.mem_append.mp hp with hp | hp
      · exact old hp
      · rw [List.mem_singleton.mp hp]
        exact ⟨s', slot_set_self s' hi, hcall⟩
    · exact old hp

variable {M : Engine σ A E W C R X α} {ok : World σ A W C R X α → Label A E → Prop}

theorem Engine.Cooperates.step (hM : M.Cooperates D P G ok) {w w' : World σ A W C R X α}
    {l : Label A E} (h : w.Holds D P G) (hok : ok w l) (hs : M.step w l = some w') : w'.Holds D P G := by
  cases M.step_cases hs with
  | begin a =>
    obtain ⟨hnew, hothers⟩ := hM.begins w a h hok
    exact h.begun hnew hothers
  | move hi hm =>
    obtain ⟨hdb, hself, hothers⟩ := hM.moves w l _ _ _ _ _ h hok hi hm
    exact h.moved hi hm.call_eq hdb hself hothers

theorem Engine.Cooperates.run (hM : M.Cooperates D P G ok) {w w' : World σ A W C R X α}
    {ls : List (Label A E)} (h : w.Holds D P G) (hok : M.RunsUnder ok w ls)
    (hrun : M.run w ls = some w') : w'.Holds D P G :=
  M.run_invariant_under (fun _ _ _ hw hl hs => hM.step hw hl hs) h hok hrun

theorem Engine.Cooperates.runsUnder (hM : M.Cooperates D P G ok) {w : World σ A W C R X α}
    {ls : List (Label A E)} (h : w.Holds D P G) (hok : M.RunsUnder ok w ls) :
    M.RunsUnder (fun w l => ok w l ∧ w.Holds D P G) w ls := by
  induction ls generalizing w with
  | nil => trivial
  | cons l ls ih => exact ⟨⟨hok.1, h⟩, fun w' hs => ih (hM.step h hok.1 hs) (hok.2 w' hs)⟩

theorem World.holds_start {db : σ} (h : D db) : World.Holds D P G ({ db } : World σ A W C R X α) :=
  ⟨h, fun _ _ hi => by simp at hi, fun _ _ _ _ _ hi => by simp at hi, fun _ hp => by simp at hp⟩

/-- Every call there is satisfies `Begun`. -/
abbrev World.Calls (Begun : A → Prop) (w : World σ A W C R X α) : Prop :=
  w.Holds (fun _ => True) (fun _ _ s => Begun s.call) fun _ _ => True

theorem Engine.calls_cooperate (Begun : A → Prop) : M.Cooperates (fun _ => True) (fun _ _ s => Begun s.call)
    (fun _ _ => True) fun _ l => ∀ a, l = .begin a → Begun a where
  begins _ a _ hl := ⟨hl a rfl, fun _ _ _ => ⟨trivial, trivial⟩⟩
  moves _ _ i s s' _ _ hw _ hi hm := by
    refine ⟨trivial, ?_, fun j t _ hj => ⟨hw.slot j t hj, trivial, trivial⟩⟩
    rw [hm.call_eq]
    exact hw.slot i s hi

end Rely

namespace Engine

variable (M : Engine σ A E W C R X α)

/-! ## One transaction alone

`drive` runs a program with nobody else around. `serial` below ties it to the world: it is what a
schedule that does not interleave computes.
-/

end Engine

structure Progress (W : Type) where
  writes : List W := []
  failed : Bool := false
  effects : Nat := 0
  issued : Nat := 0

def Progress.after {ρ : Type} (st : Progress W) (external : Bool) (ans : Answer W ρ) : Progress W :=
  { writes := if ans.fails then [] else st.writes ++ ans.writes
    failed := st.failed || ans.fails
    effects := if external then st.effects + 1 else st.effects
    issued := st.issued + 1 }

namespace Engine

variable (M : Engine σ A E W C R X α)

def drive {β : Type} (a : A) (env : Nat → E) (db : σ) :
    Prog C R X β → Progress W → Except X β × Progress W
  | .ret v, st => (.ok v, st)
  | .raise x, st => (.error x, st)
  | .call c k, st =>
    let ans := M.exec a (env st.issued) st.failed (M.view db st.writes) c
    drive a env db (k ans.reply) (st.after (M.external c) ans)

/-- COMMIT when the block ends normally and the transaction is not aborted, else ROLLBACK. -/
def settle {β : Type} (db : σ) : Except X β × Progress W → σ
  | (.ok _, st) => if st.failed then db else M.view db st.writes
  | (.error _, _) => db

def alone (a : A) (env : Nat → E) (db : σ) : Except X α × Progress W :=
  M.drive a env db (M.prog a) {}

variable {M} in
@[simp] theorem drive_ret {β : Type} (a : A) (env : Nat → E) (db : σ) (v : β) (st : Progress W) :
    M.drive a env db (.ret v : Prog C R X β) st = (.ok v, st) := rfl

variable {M} in
@[simp] theorem drive_raise {β : Type} (a : A) (env : Nat → E) (db : σ) (x : X) (st : Progress W) :
    M.drive a env db (.raise x : Prog C R X β) st = (.error x, st) := rfl

variable {M} in
theorem drive_call {β : Type} (a : A) (env : Nat → E) (db : σ) (c : C) (k : R c → Prog C R X β)
    (st : Progress W) :
    M.drive a env db (.call c k) st =
      M.drive a env db (k (M.exec a (env st.issued) st.failed (M.view db st.writes) c).reply)
        (st.after (M.external c) (M.exec a (env st.issued) st.failed (M.view db st.writes) c)) := rfl

theorem effects_le_drive {β : Type} (a : A) (env : Nat → E) (db : σ) (p : Prog C R X β) (st : Progress W) :
    st.effects ≤ (M.drive a env db p st).2.effects := by
  induction p generalizing st with
  | ret v => exact Nat.le_refl _
  | raise x => exact Nat.le_refl _
  | call c k ih =>
    refine Nat.le_trans ?_ (ih _ _)
    simp only [Progress.after]
    split <;> omega

/-- The slot in which a transaction ends. -/
def lastSlot (a : A) : Except X α × Progress W → Slot A W C R X α
  | (.ok v, st) => if st.failed then .rolledBack a (.ok v) else .committed a st.writes v
  | (.error x, _) => .rolledBack a (.error x)

theorem mem_others_set {w : World σ A W C R X α} {i : Nat} {t : Tx A W C R X α}
    (s : Slot A W C R X α) (db : σ) (fx : List (Nat × A)) :
    t ∈ ({ db := db, slots := w.slots.set i s, effects := fx } : World σ A W C R X α).others i ↔
      t ∈ w.others i := by
  simp only [World.mem_others]
  constructor
  · rintro ⟨j, hj, hs, hf⟩
    rw [List.getElem?_set_ne hj.symm] at hs
    exact ⟨j, hj, hs, hf⟩
  · rintro ⟨j, hj, hs, hf⟩
    refine ⟨j, hj, ?_, hf⟩
    rw [List.getElem?_set_ne hj.symm]
    exact hs

theorem serial {w : World σ A W C R X α} {i : Nat} {tx : Tx A W C R X α} {st : Progress W}
    (env : Nat → E) (hi : w.slots[i]? = some (.running tx)) (ho : ∀ t, t ∉ w.others i)
    (hw : tx.writes = st.writes) (hf : tx.failed = st.failed) :
    ∃ ls k, (∀ b, .begin b ∉ ls) ∧
      st.effects + k = (M.drive tx.call env w.db tx.prog st).2.effects ∧
      M.run w ls = some {
        db := M.settle w.db (M.drive tx.call env w.db tx.prog st)
        slots := w.slots.set i (lastSlot tx.call (M.drive tx.call env w.db tx.prog st))
        effects := w.effects ++ List.replicate k (i, tx.call) } := by
  obtain ⟨a, p, ws, failed, issued⟩ := tx
  simp only at hw hf
  subst hw hf
  induction p generalizing w st issued with
  | ret v =>
    refine ⟨[.finish i], 0, by simp, rfl, ?_⟩
    by_cases h : st.failed = true <;> simp [step, hi, h, settle, lastSlot]
  | raise x =>
    refine ⟨[.finish i], 0, by simp, rfl, ?_⟩
    simp [step, hi, settle, lastSlot]
  | call c k ih =>
    have hlt : i < w.slots.length := (List.getElem?_eq_some_iff.mp hi).1
    have hany : (w.others i).any (fun t => M.waits a (env st.issued) c t.writes) = false := by
      rw [List.any_eq_false]
      intro t ht
      exact absurd ht (ho t)
    let ans := M.exec a (env st.issued) st.failed (M.view w.db st.writes) c
    let w₁ : World σ A W C R X α := { w with
      slots := w.slots.set i (.running (Tx.answer ⟨a, .call c k, st.writes, st.failed, issued⟩ c k ans))
      effects := if M.external c then w.effects ++ [(i, a)] else w.effects }
    have h1 : M.step w (.exec i (env st.issued)) = some w₁ := by
      simp [step, hi, hany, w₁, ans]
    have hslot : w₁.slots[i]? = some (.running ⟨a, k ans.reply, (st.after (M.external c) ans).writes,
        (st.after (M.external c) ans).failed, issued ++ [c]⟩) := by
      simp [w₁, hlt, Tx.answer, Progress.after]
    obtain ⟨ls, n, hbegin, hcount, hrun⟩ := ih ans.reply
      (fun t ht => ho t ((mem_others_set _ _ _).mp ht)) _ hslot
    refine ⟨.exec i (env st.issued) :: ls, n + (if M.external c then 1 else 0), by simpa using hbegin, ?_, ?_⟩
    · change _ = (M.drive a env w.db (k ans.reply) (st.after (M.external c) ans)).2.effects
      rw [← hcount]
      cases M.external c <;> (simp [Progress.after]; try omega)
    · rw [run_cons, h1]
      refine hrun.trans (congrArg some ?_)
      have heffects : w₁.effects ++ List.replicate n (i, a) =
          w.effects ++ List.replicate (n + (if M.external c then 1 else 0)) (i, a) := by
        dsimp only [w₁]
        cases M.external c <;> simp [List.replicate_succ]
      rw [heffects]
      simp [List.set_set, drive, ans]

end Engine

/-- Nobody runs. -/
def World.Idle (w : World σ A W C R X α) : Prop := ∀ (i : Nat) tx, w.slots[i]? ≠ some (.running tx)

namespace Engine

variable (M : Engine σ A E W C R X α)

/-- A call that begins when nobody runs can go on alone to its end. -/
theorem run_alone {w : World σ A W C R X α} (h : w.Idle) (a : A) (env : Nat → E) :
    ∃ ls w', (∀ b, .begin b ∉ ls) ∧ M.run w (.begin a :: ls) = some w' ∧ w'.Idle ∧
      w'.db = M.settle w.db (M.alone a env w.db) ∧
      w'.slots = w.slots ++ [lastSlot a (M.alone a env w.db)] ∧
      w'.effects = w.effects ++ List.replicate (M.alone a env w.db).2.effects (w.slots.length, a) := by
  let w₁ : World σ A W C R X α :=
    { w with slots := w.slots ++ [.running { call := a, prog := M.prog a }] }
  have hi : w₁.slots[w.slots.length]? = some (.running { call := a, prog := M.prog a }) := by simp [w₁]
  have ho : ∀ t, t ∉ w₁.others w.slots.length := by
    intro t ht
    obtain ⟨j, hj, hs, -⟩ := World.mem_others.mp ht
    rcases slot_of_push hs with hs | ⟨hlast, -⟩
    · exact h j t hs
    · exact hj hlast
  obtain ⟨ls, k, hbegin, hcount, hrun⟩ := @serial _ _ _ _ _ _ _ _ M _ _ _ {} env hi ho rfl rfl
  have hset (s : Slot A W C R X α) : w₁.slots.set w.slots.length s = w.slots ++ [s] := by simp [w₁]
  rw [hset] at hrun
  have hk : k = (M.alone a env w.db).2.effects := by
    rw [← Nat.zero_add k]
    exact hcount
  refine ⟨ls, _, hbegin, hrun, fun j tx hj => ?_, rfl, rfl, by rw [hk]⟩
  rcases slot_of_push hj with hj | ⟨-, hj⟩
  · exact h j tx hj
  · unfold lastSlot at hj
    split at hj
    · split at hj <;> simp at hj
    · simp at hj

end Engine

end BaptistApi.Transactions
