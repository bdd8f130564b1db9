import BaptistApi.Lib.Transactions

/-!
# What the commands of a run saw

A run keeps no record of the states that its commands were answered in. `history` is that record, and
`run_history` is the rule for what is true of a world and of the record so far.
-/

namespace BaptistApi.Transactions

open BaptistApi.Program

/-! ## Records -/

section Record

variable {S L O : Type} (step : S → L → Option S) (look : S → L → Option O)

/-- What the steps of a run give to see, in order. -/
def history (s : S) : List L → List O
  | [] => []
  | l :: ls =>
    (look s l).toList ++
      match step s l with
      | some s' => history s' ls
      | none => []

theorem run_history {I : S → List O → Prop}
    (hstep : ∀ s h l s', I s h → step s l = some s' → I s' (h ++ (look s l).toList))
    {s s' : S} {h : List O} {ls : List L} (h0 : I s h) (hrun : ls.foldlM step s = some s') :
    I s' (h ++ history step look s ls) := by
  induction ls generalizing s h with
  | nil =>
    cases hrun
    rw [history, List.append_nil]
    exact h0
  | cons l ls ih =>
    simp only [List.foldlM_cons, Option.bind_eq_bind, Option.bind_eq_some_iff] at hrun
    obtain ⟨s₁, h1, hrest⟩ := hrun
    rw [history, h1, ← List.append_assoc]
    exact ih (hstep s h l s₁ h0 h1) hrest

end Record

/-! ## Entries and those before them -/

section Justified

variable {O : Type} {P : List O → O → Prop}

/-- Each entry of the record is right after those before it. -/
def Justified (P : List O → O → Prop) (h : List O) : Prop := ∀ p e q, h = p ++ e :: q → P p e

theorem justified_nil : Justified P [] := by
  intro p e q h
  simp at h

theorem Justified.append {h : List O} (hh : Justified P h) {e : O} (he : P h e) : Justified P (h ++ [e]) := by
  intro p e' q heq
  rcases List.eq_nil_or_concat q with rfl | ⟨q', x, rfl⟩
  · obtain ⟨rfl, hlast⟩ := List.append_inj' heq rfl
    cases hlast
    exact he
  · rw [List.concat_eq_append, ← List.cons_append, ← List.append_assoc] at heq
    exact hh p e' q' (List.append_inj_left' heq rfl)

theorem Justified.of_mem {h : List O} (hh : Justified P h) {e : O} (he : e ∈ h) :
    ∃ p q, h = p ++ e :: q ∧ P p e := by
  obtain ⟨p, q, heq⟩ := List.mem_iff_append.mp he
  exact ⟨p, q, heq, hh p e q heq⟩

end Justified

/-! ## Looks -/

/-- A command that was answered, whose it was, and the state it saw. -/
structure Look (σ C : Type) where
  slot : Nat
  command : C
  seen : σ

variable {σ A E W C : Type} {R : C → Type} {X α : Type}

/-- The states that the commands `p` of slot `i` saw. -/
def looksOf (p : C → Bool) (h : List (Look σ C)) (i : Nat) : List σ :=
  (h.filter fun x => x.slot == i && p x.command).map (·.seen)

theorem looksOf_append (p : C → Bool) (h h' : List (Look σ C)) (i : Nat) :
    looksOf p (h ++ h') i = looksOf p h i ++ looksOf p h' i := by
  simp [looksOf]

theorem looksOf_self {p : C → Bool} {x : Look σ C} (h : p x.command = true) : looksOf p [x] x.slot = [x.seen] := by
  simp [looksOf, h]

theorem looksOf_skip {p : C → Bool} {x : Look σ C} (i : Nat) (h : p x.command = false) : looksOf p [x] i = [] := by
  simp [looksOf, h]

theorem looksOf_nothing {p : C → Bool} {h : List (Look σ C)} {i : Nat} (hi : ∀ x ∈ h, x.slot ≠ i) :
    looksOf p h i = [] := by
  unfold looksOf
  rw [List.filter_eq_nil_iff.mpr, List.map_nil]
  intro x hx hmatch
  simp only [Bool.and_eq_true, beq_iff_eq] at hmatch
  exact hi x hx hmatch.1

namespace Engine

variable (M : Engine σ A E W C R X α)

def look (w : World σ A W C R X α) : Label A E → Option (Look σ C)
  | .exec i _ =>
    match w.slots[i]? with
    | some (.running tx) =>
      match tx.prog with
      | .call c _ => some { slot := i, command := c, seen := M.view w.db tx.writes }
      | _ => none
    | _ => none
  | _ => none

theorem look_call {w : World σ A W C R X α} {i : Nat} {tx : Tx A W C R X α} {c : C} {k : R c → Prog C R X α}
    (e : E) (hi : w.slots[i]? = some (.running tx)) (hp : tx.prog = .call c k) :
    M.look w (.exec i e) = some { slot := i, command := c, seen := M.view w.db tx.writes } := by
  unfold look
  simp only [hi, hp]

end Engine

end BaptistApi.Transactions
