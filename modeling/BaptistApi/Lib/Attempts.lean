import BaptistApi.Lib.Transactions

/-!
# One call among others

The commands of one call, each answered in the state that it meets. What the other transactions commit
in between, and when the connection is lost, is part of what it meets.
-/

namespace BaptistApi.Transactions

open BaptistApi.Program

/-- What one command meets. -/
structure Turn (σ E : Type) where
  db : σ
  env : E
  lost : Bool := false

variable {σ A E W C : Type} {R : C → Type} {X α β : Type}

namespace Engine

variable (M : Engine σ A E W C R X α)

def turn (a : A) (t : Turn σ E) (st : Progress W) (c : C) : Answer W (R c) :=
  match t.lost, M.lost c with
  | true, some r => { reply := r, fails := true }
  | _, _ => M.exec a t.env st.failed (M.view t.db st.writes) c

def attempt (a : A) (turns : Nat → Turn σ E) : Prog C R X β → Progress W → Except X β × Progress W
  | .ret v, st => (.ok v, st)
  | .raise x, st => (.error x, st)
  | .call c k, st =>
    let ans := M.turn a (turns st.issued) st c
    attempt a turns (k ans.reply) (st.after (M.external c) ans)

variable {M} {a : A} {turns : Nat → Turn σ E}

@[simp] theorem attempt_ret (v : β) (st : Progress W) :
    M.attempt a turns (.ret v : Prog C R X β) st = (.ok v, st) := rfl

@[simp] theorem attempt_raise (x : X) (st : Progress W) :
    M.attempt a turns (.raise x : Prog C R X β) st = (.error x, st) := rfl

theorem attempt_call (c : C) (k : R c → Prog C R X β) (st : Progress W) :
    M.attempt a turns (.call c k) st =
      M.attempt a turns (k (M.turn a (turns st.issued) st c).reply)
        (st.after (M.external c) (M.turn a (turns st.issued) st c)) := rfl

theorem turn_kept {t : Turn σ E} (h : t.lost = false) (st : Progress W) (c : C) :
    M.turn a t st c = M.exec a t.env st.failed (M.view t.db st.writes) c := by
  unfold turn
  simp [h]

theorem turn_lost {t : Turn σ E} {c : C} {r : R c} (h : t.lost = true) (hr : M.lost c = some r) (st : Progress W) :
    M.turn a t st c = { reply := r, fails := true } := by
  unfold turn
  simp [h, hr]

theorem turn_outside {t : Turn σ E} {c : C} (h : M.lost c = none) (st : Progress W) :
    M.turn a t st c = M.exec a t.env st.failed (M.view t.db st.writes) c := by
  unfold turn
  rw [h]
  cases t.lost <;> rfl

theorem attempt_raises {p : Prog C R X β} {st : Progress W} {x : X} (h : (M.attempt a turns p st).1 = .error x) :
    p.Raises x := by
  induction p generalizing st with
  | ret v => cases h
  | raise y => exact Except.error.inj h
  | call c k ih => exact ⟨_, ih _ h⟩

variable (M) in
/-- A transaction stands where an attempt of its call stands, or has ended as one ends. -/
def Attempted : Slot A W C R X α → Prop
  | .running tx => ∃ (turns : Nat → Turn σ E) (st : Progress W), st.writes = tx.writes ∧ st.failed = tx.failed ∧
      ∀ turns' : Nat → Turn σ E, (∀ n < st.issued, turns' n = turns n) →
        M.attempt tx.call turns' (M.prog tx.call) {} = M.attempt tx.call turns' tx.prog st
  | .committed a ws v => ∃ (turns : Nat → Turn σ E) (st : Progress W),
      M.attempt a turns (M.prog a) {} = (.ok v, st) ∧ st.failed = false ∧ st.writes = ws
  | .rolledBack a o => ∃ (turns : Nat → Turn σ E) (st : Progress W),
      M.attempt a turns (M.prog a) {} = (o, st) ∧ (st.failed = true ∨ ∃ x, o = .error x)

theorem Attempted.answered {tx : Tx A W C R X α} {c : C} {k : R c → Prog C R X α} {ans : Answer W (R c)}
    (h : M.Attempted (.running tx)) (hp : tx.prog = .call c k) (t : Turn σ E)
    (ht : ∀ st : Progress W, st.writes = tx.writes → st.failed = tx.failed → M.turn tx.call t st c = ans) :
    M.Attempted (.running (tx.answer c k ans)) := by
  obtain ⟨turns, st, hw, hf, hall⟩ := h
  -- The turns so far, and then the one of this command.
  refine ⟨fun n => if n = st.issued then t else turns n, st.after (M.external c) ans, ?_, ?_, fun turns' hagree => ?_⟩
  · simp [Progress.after, Tx.answer, hw]
  · simp [Progress.after, Tx.answer, hf]
  · have hnow : turns' st.issued = t := (hagree _ (Nat.lt_succ_self _)).trans (if_pos rfl)
    have hpast : ∀ n < st.issued, turns' n = turns n := fun n hn =>
      (hagree n (Nat.lt_succ_of_lt hn)).trans (if_neg (Nat.ne_of_lt hn))
    change M.attempt tx.call turns' (M.prog tx.call) {} = M.attempt tx.call turns' (k ans.reply) _
    rw [hall turns' hpast, hp, attempt_call, hnow, ht st hw hf]

theorem attempts_cooperate [Nonempty E] :
    M.Cooperates (fun _ => True) (fun _ _ s => M.Attempted s) (fun _ _ => True) fun _ _ => True where
  begins w a _ _ := by
    have e : E := Classical.arbitrary E
    exact ⟨⟨fun _ => { db := w.db, env := e }, {}, rfl, rfl, fun _ _ => rfl⟩, fun _ _ _ => ⟨trivial, trivial⟩⟩
  moves w _ i s s' _ _ hw _ hi hm := by
    refine ⟨trivial, ?_, fun j t _ hj => ⟨hw.slot j t hj, trivial, trivial⟩⟩
    have hs : M.Attempted s := hw.slot i s hi
    cases hm with
    | @exec e tx c k hp _ =>
      refine hs.answered hp { db := w.db, env := e } fun st hwrites hf => ?_
      rw [turn_kept rfl, hwrites, hf]
    | @lose tx c k r hp hr =>
      have e : E := Classical.arbitrary E
      exact hs.answered hp { db := w.db, env := e, lost := true } fun st _ _ => turn_lost rfl hr st
    | commit hp hf =>
      obtain ⟨turns, st, hwrites, hfailed, hall⟩ := hs
      exact ⟨turns, st, (hall turns fun _ _ => rfl).trans (by rw [hp]; rfl), hfailed.trans hf, hwrites⟩
    | abandon hp hf =>
      obtain ⟨turns, st, -, hfailed, hall⟩ := hs
      exact ⟨turns, st, (hall turns fun _ _ => rfl).trans (by rw [hp]; rfl), Or.inl (hfailed.trans hf)⟩
    | rollback hp =>
      obtain ⟨turns, st, -, -, hall⟩ := hs
      exact ⟨turns, st, (hall turns fun _ _ => rfl).trans (by rw [hp]; rfl), Or.inr ⟨_, rfl⟩⟩

theorem run_attempted [Nonempty E] {db : σ} {ls : List (Label A E)} {w : World σ A W C R X α}
    (hrun : M.run { db } ls = some w) {i : Nat} {s : Slot A W C R X α} (hi : w.slots[i]? = some s) : M.Attempted s :=
  (attempts_cooperate.run (World.holds_start trivial) (M.runsUnder_true _ _) hrun).slot i s hi

end Engine

end BaptistApi.Transactions
