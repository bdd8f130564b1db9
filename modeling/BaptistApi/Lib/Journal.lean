import BaptistApi.Lib.Transactions

/-!
# The journal of a run

Each commit posts entries. What is committed is then the sum of a journal, and acts outside the database
are booked with the transaction that did them.
-/

namespace BaptistApi.Transactions

open BaptistApi.Program

variable {σ A E W C : Type} {R : C → Type} {X α : Type}

/-! ## Acts that were committed -/

def Slot.done : Slot A W C R X α → Bool
  | .committed _ _ _ => true
  | _ => false

/-- How often transactions that have committed acted outside the database. -/
def World.kept (w : World σ A W C R X α) : Nat := w.effects.countP fun p => w.slots[p.1]?.any Slot.done

section Kept

variable {slots : List (Slot A W C R X α)} {effects : List (Nat × A)} {i : Nat} {s s' : Slot A W C R X α}

theorem any_done_push (tx : Tx A W C R X α) (j : Nat) :
    (slots ++ [.running tx])[j]?.any Slot.done = slots[j]?.any Slot.done := by
  cases hj : slots[j]? with
  | some t => rw [slot_push _ hj]
  | none =>
    cases ht : (slots ++ [.running tx])[j]? with
    | none => rfl
    | some t =>
      rcases slot_of_push ht with hold | ⟨-, rfl⟩
      · rw [hj] at hold
        cases hold
      · rfl

theorem any_done_set (hi : slots[i]? = some s) (j : Nat) :
    (slots.set i s')[j]?.any Slot.done = if j = i then s'.done else slots[j]?.any Slot.done := by
  by_cases hji : j = i
  · subst hji
    rw [slot_set_self s' hi, if_pos rfl]
    rfl
  · rw [List.getElem?_set_ne (Ne.symm hji), if_neg hji]

theorem kept_same (hi : slots[i]? = some s) (hs : s.done = false) (hs' : s'.done = false) (acted : Bool) (a : A) :
    ((if acted then effects ++ [(i, a)] else effects).countP fun p => (slots.set i s')[p.1]?.any Slot.done) =
      effects.countP fun p => slots[p.1]?.any Slot.done := by
  have hsame : (effects.countP fun p => (slots.set i s')[p.1]?.any Slot.done) =
      effects.countP fun p => slots[p.1]?.any Slot.done := by
    refine List.countP_congr fun p _ => ?_
    rw [any_done_set hi]
    split
    · rename_i hp
      rw [hp, hi, hs']
      simp [hs]
    · rfl
  cases acted with
  | false => exact hsame
  | true =>
    rw [if_pos rfl, List.countP_append, hsame]
    simp [any_done_set hi, hs']

theorem kept_commit (hi : slots[i]? = some s) (hs : s.done = false) (hs' : s'.done = true) :
    (effects.countP fun p => (slots.set i s')[p.1]?.any Slot.done) =
      (effects.countP fun p => slots[p.1]?.any Slot.done) + effects.countP fun p => p.1 == i := by
  induction effects with
  | nil => rfl
  | cons p effects ih =>
    rw [List.countP_cons, List.countP_cons, List.countP_cons, ih, any_done_set hi]
    by_cases hp : p.1 = i
    · have hbefore : slots[i]?.any Slot.done = false := by
        rw [hi]
        exact hs
      simp only [hp, hs', hbefore, if_true, beq_self_eq_true, Bool.false_eq_true, if_false]
      omega
    · have hne : (p.1 == i) = false := by simpa using hp
      simp only [hne, if_neg hp, Bool.false_eq_true, if_false]
      omega

end Kept

/-! ## Journals -/

namespace Engine

variable (M : Engine σ A E W C R X α) {Entry : Type} (post : σ → Entry → σ) (acted : Entry → Bool)

/-- What is committed is what the journal makes of the first rows, and it books as many acts as were
committed. -/
structure Booked (Sound : Entry → Prop) (db : σ) (w : World σ A W C R X α) (journal : List Entry) : Prop where
  rows : w.db = journal.foldl post db
  sound : ∀ e ∈ journal, Sound e
  kept : journal.countP acted = w.kept

variable {M post acted} {Sound : Entry → Prop} {db : σ} {w w' : World σ A W C R X α} {journal : List Entry}

theorem Booked.start (db : σ) : Booked post acted Sound db ({ db } : World σ A W C R X α) [] :=
  ⟨rfl, fun _ he => absurd he List.not_mem_nil, rfl⟩

theorem Booked.step (h : Booked post acted Sound db w journal) {l : Label A E}
    (hcommit : ∀ (i : Nat) tx v, w.slots[i]? = some (.running tx) → tx.prog = .ret v → tx.failed = false →
      ∃ entries : List Entry, M.view w.db tx.writes = entries.foldl post w.db ∧ (∀ e ∈ entries, Sound e) ∧
        entries.countP acted = w.acts i)
    (hs : M.step w l = some w') : ∃ journal', Booked post acted Sound db w' journal' := by
  cases M.step_cases hs with
  | begin a =>
    refine ⟨journal, h.rows, h.sound, h.kept.trans ?_⟩
    exact List.countP_congr fun p _ => by rw [any_done_push]
  | @move i _ s s' db' acted hi hm =>
    cases hm with
    | exec hp hw => exact ⟨journal, h.rows, h.sound, h.kept.trans (kept_same hi rfl rfl _ _).symm⟩
    | @lose tx c k r hp hr => exact ⟨journal, h.rows, h.sound, h.kept.trans (kept_same hi rfl rfl false tx.call).symm⟩
    | @commit tx v hp hf =>
      obtain ⟨entries, hview, hsound, hkept⟩ := hcommit i tx v hi hp hf
      refine ⟨journal ++ entries, ?_, ?_, ?_⟩
      · rw [List.foldl_append, ← h.rows]
        exact hview
      · intro e he
        rcases List.mem_append.mp he with he | he
        · exact h.sound e he
        · exact hsound e he
      · rw [List.countP_append, h.kept, hkept]
        exact (kept_commit hi rfl rfl).symm
    | @abandon tx v hp hf => exact ⟨journal, h.rows, h.sound, h.kept.trans (kept_same hi rfl rfl false tx.call).symm⟩
    | @rollback tx x hp => exact ⟨journal, h.rows, h.sound, h.kept.trans (kept_same hi rfl rfl false tx.call).symm⟩

/-- **Every run has its journal**, if what the steps preserve lets each commit be booked. -/
theorem run_booked {ok : World σ A W C R X α → Label A E → Prop} {I : World σ A W C R X α → Prop}
    (hstep : ∀ w l w', I w → ok w l → M.step w l = some w' → I w')
    (hcommit : ∀ w (i : Nat) tx v, I w → w.slots[i]? = some (.running tx) → tx.prog = .ret v → tx.failed = false →
      ∃ entries : List Entry, M.view w.db tx.writes = entries.foldl post w.db ∧ (∀ e ∈ entries, Sound e) ∧
        entries.countP acted = w.acts i)
    {ls : List (Label A E)} (h0 : I { db }) (hok : M.RunsUnder ok { db } ls) (hrun : M.run { db } ls = some w) :
    ∃ journal, Booked post acted Sound db w journal := by
  have hinv : I w ∧ ∃ journal, Booked post acted Sound db w journal := by
    refine M.run_invariant_under (I := fun w => I w ∧ ∃ journal, Booked post acted Sound db w journal) ?_
      ⟨h0, [], .start db⟩ hok hrun
    rintro w l w' ⟨hI, journal, hbooked⟩ hl hs
    exact ⟨hstep w l w' hI hl hs, hbooked.step (hcommit w · · · hI) hs⟩
  exact hinv.2

end Engine

end BaptistApi.Transactions
