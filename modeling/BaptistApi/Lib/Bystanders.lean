import BaptistApi.Lib.Serial

/-!
# Bystanders

Some of the calls are of one owner. Where the owner's calls see nothing of what the others commit, every run stays
possible when the others take no step in it, and the owner's calls do in it what they did.
-/

namespace BaptistApi.Transactions

open BaptistApi.Program

variable {σ A E W C : Type} {R : C → Type} {X α : Type}

/-! ## The run without the others -/

section Hush

variable (own : A → Bool)

/-- The call of the step is the owner's, or it begins. -/
def Label.heard (calls : List A) : Label A E → Bool
  | .begin _ => true
  | .exec i _ => (calls[i]?).any own
  | .lose i => (calls[i]?).any own
  | .finish i => (calls[i]?).any own

/-- The others begin, and take no step. -/
def hush (ls : List (Label A E)) : List (Label A E) := ls.filter (Label.heard own (ls.filterMap Label.call?))

variable (M : Engine σ A E W C R X α)

def Slot.hushed (s : Slot A W C R X α) : Slot A W C R X α :=
  if own s.call then s else .running { call := s.call, prog := M.prog s.call }

/-- The second world is the first one without the steps of the others. -/
structure Hushed (Same : σ → σ → Prop) (w v : World σ A W C R X α) : Prop where
  rows : Same w.db v.db
  slots : v.slots = w.slots.map (Slot.hushed own M)
  effects : v.effects = w.effects.filter fun p => own p.2

end Hush

section Slots

variable {own : A → Bool} {M : Engine σ A E W C R X α}

theorem hushed_own {s : Slot A W C R X α} (h : own s.call = true) : Slot.hushed own M s = s := if_pos h

theorem hushed_other {s : Slot A W C R X α} (h : own s.call = false) :
    Slot.hushed own M s = .running { call := s.call, prog := M.prog s.call } :=
  if_neg (by simp [h])

theorem hushed_call (s : Slot A W C R X α) : (Slot.hushed own M s).call = s.call := by
  cases h : own s.call with
  | true => rw [hushed_own h]
  | false =>
    rw [hushed_other h]
    rfl

theorem hushed_fresh (a : A) :
    Slot.hushed own M (.running { call := a, prog := M.prog a }) = .running { call := a, prog := M.prog a } :=
  ite_self _

theorem hushed_moved {s s' : Slot A W C R X α} (hcall : s'.call = s.call) (h : own s.call = false) :
    Slot.hushed own M s' = Slot.hushed own M s := by
  rw [hushed_other h, hushed_other (hcall ▸ h), hcall]

theorem Hushed.mem_others {Same : σ → σ → Prop} {w v : World σ A W C R X α} (h : Hushed own M Same w v) {i : Nat}
    {t : Tx A W C R X α} (ht : t ∈ v.others i) : t ∈ w.others i ∨ t.writes = [] := by
  obtain ⟨j, hji, hj, hf⟩ := World.mem_others.mp ht
  rw [h.slots, List.getElem?_map, Option.map_eq_some_iff] at hj
  obtain ⟨s, hs, heq⟩ := hj
  cases ho : own s.call with
  | true =>
    rw [hushed_own ho] at heq
    exact Or.inl (World.mem_others.mpr ⟨j, hji, heq ▸ hs, hf⟩)
  | false =>
    rw [hushed_other ho] at heq
    cases heq
    exact Or.inr rfl

theorem Hushed.own_slot {Same : σ → σ → Prop} {w v : World σ A W C R X α} (h : Hushed own M Same w v) {i : Nat}
    {s : Slot A W C R X α} (ho : own s.call = true) : v.slots[i]? = some s ↔ w.slots[i]? = some s := by
  rw [h.slots, List.getElem?_map, Option.map_eq_some_iff]
  constructor
  · rintro ⟨t, ht, rfl⟩
    rw [hushed_call] at ho
    rwa [hushed_own ho]
  · exact fun hs => ⟨s, hs, hushed_own ho⟩

end Slots

/-! ## Steps -/

theorem Engine.step_of_move {M : Engine σ A E W C R X α} {w : World σ A W C R X α} {i : Nat} {l : Label A E}
    {s s' : Slot A W C R X α} {db' : σ} {acted : Bool} (hi : w.slots[i]? = some s)
    (hm : M.Move (w.others i) w.db i l s s' db' acted) :
    M.step w l = some { db := db', slots := w.slots.set i s'
                        effects := if acted then w.effects ++ [(i, s.call)] else w.effects } := by
  cases hm with
  | @exec e tx c k hp hw =>
    have hfree : (!tx.failed && (w.others i).any fun t => M.waits tx.call e c t.writes) = false := by
      rw [Bool.and_eq_false_iff, Bool.not_eq_false']
      refine or_iff_not_imp_left.mpr fun hf => List.any_eq_false.mpr fun t ht => ?_
      simp [hw (by simpa using hf) t ht]
    simp [Engine.step, hi, hp, hfree, Slot.call]
  | lose hp hr => simp [Engine.step, hi, hp, hr]
  | commit hp hf => simp [Engine.step, hi, hp, hf]
  | abandon hp hf => simp [Engine.step, hi, hp, hf]
  | rollback hp => simp [Engine.step, hi, hp]

/-- What the invariant `I` has to give so that the others are bystanders of the owner's calls. `Same` is said of the
committed rows of a world and of those without the others. -/
structure Engine.Bystanders (M : Engine σ A E W C R X α) (own : A → Bool) (Same : σ → σ → Prop)
    (I : World σ A W C R X α → Prop) (ok : World σ A W C R X α → Label A E → Prop) : Prop where
  step : ∀ w l w', I w → ok w l → M.step w l = some w' → I w'
  /-- Nobody waits for a transaction that has written nothing. -/
  idle : ∀ a e c, M.waits a e c [] = false
  answers : ∀ w (i : Nat) e tx c k db, I w → ok w (.exec i e) → w.slots[i]? = some (.running tx) →
    tx.prog = .call c k → own tx.call = true → Same w.db db →
      tx.answer c k (M.exec tx.call e tx.failed (M.view db tx.writes) c) =
        tx.answer c k (M.exec tx.call e tx.failed (M.view w.db tx.writes) c)
  shown : ∀ w (i : Nat) tx v db, I w → w.slots[i]? = some (.running tx) → tx.prog = .ret v → tx.failed = false →
    own tx.call = true → Same w.db db → Same (M.view w.db tx.writes) (M.view db tx.writes)
  hidden : ∀ w (i : Nat) tx v db, I w → w.slots[i]? = some (.running tx) → tx.prog = .ret v → tx.failed = false →
    own tx.call = false → Same w.db db → Same (M.view w.db tx.writes) db

section Runs

variable {M : Engine σ A E W C R X α} {own : A → Bool} {Same : σ → σ → Prop} {I : World σ A W C R X α → Prop}
  {ok : World σ A W C R X α → Label A E → Prop} {w w' v : World σ A W C R X α} {l : Label A E}

theorem Hushed.own_move (hM : M.Bystanders own Same I ok) (hI : I w) (hok : ok w l) (h : Hushed own M Same w v)
    {i : Nat} {s s' : Slot A W C R X α} {db' : σ} {acted : Bool} (hi : w.slots[i]? = some s) (ho : own s.call = true)
    (hm : M.Move (w.others i) w.db i l s s' db' acted) :
    ∃ db'', M.Move (v.others i) v.db i l s s' db'' acted ∧ Same db' db'' := by
  cases hm with
  | @exec e tx c k hp hw =>
    refine ⟨v.db, ?_, h.rows⟩
    rw [← hM.answers w i e tx c k v.db hI hok hi hp ho h.rows]
    refine .exec hp fun hf t ht => ?_
    rcases h.mem_others ht with ht | hnone
    · exact hw hf t ht
    · rw [hnone]
      exact hM.idle _ _ _
  | lose hp hr => exact ⟨v.db, .lose hp hr, h.rows⟩
  | @commit tx x hp hf => exact ⟨_, .commit hp hf, hM.shown w i tx x v.db hI hi hp hf ho h.rows⟩
  | abandon hp hf => exact ⟨v.db, .abandon hp hf, h.rows⟩
  | rollback hp => exact ⟨v.db, .rollback hp, h.rows⟩

theorem Hushed.other_move (hM : M.Bystanders own Same I ok) (hI : I w) (h : Hushed own M Same w v) {i : Nat}
    {s s' : Slot A W C R X α} {db' : σ} {acted : Bool} (hi : w.slots[i]? = some s) (ho : own s.call = false)
    (hm : M.Move (w.others i) w.db i l s s' db' acted) : Same db' v.db := by
  cases hm with
  | @commit tx x hp hf => exact hM.hidden w i tx x v.db hI hi hp hf ho h.rows
  | _ => exact h.rows

theorem heard_of_move {calls : List A} {i : Nat} {s s' : Slot A W C R X α} {db db' : σ} {acted : Bool}
    {others : List (Tx A W C R X α)} (hcall : calls[i]? = some s.call) (hm : M.Move others db i l s s' db' acted) :
    Label.heard own calls l = own s.call := by
  cases hm <;> simp [Label.heard, hcall]

theorem Hushed.step (hM : M.Bystanders own Same I ok) (hI : I w) (hok : ok w l) (h : Hushed own M Same w v) {calls : List A}
    (hcalls : ∀ (i : Nat) s, w.slots[i]? = some s → calls[i]? = some s.call) (hs : M.step w l = some w') :
    ∃ v', M.run v ([l].filter (Label.heard own calls)) = some v' ∧ Hushed own M Same w' v' := by
  cases M.step_cases hs with
  | begin a =>
    refine ⟨_, rfl, h.rows, ?_, h.effects⟩
    rw [h.slots, List.map_append, List.map_singleton, hushed_fresh]
  | @move i _ s s' db' acted hi hm =>
    have hheard : Label.heard own calls l = own s.call := heard_of_move (hcalls i s hi) hm
    cases ho : own s.call with
    | true =>
      obtain ⟨db'', hm', hsame⟩ := h.own_move hM hI hok hi ho hm
      have hi' : v.slots[i]? = some s := by
        rw [h.slots, List.getElem?_map, hi, Option.map_some, hushed_own ho]
      refine ⟨{ db := db'', slots := v.slots.set i s'
                effects := if acted then v.effects ++ [(i, s.call)] else v.effects }, ?_, hsame, ?_, ?_⟩
      · rw [List.filter_singleton, hheard, ho, cond_true, M.run_cons, M.step_of_move hi' hm']
        rfl
      · dsimp only
        rw [h.slots, List.map_set, hushed_own (hm.call_eq ▸ ho)]
      · dsimp only
        rw [h.effects]
        cases acted <;> simp [ho]
    | false =>
      refine ⟨v, ?_, h.other_move hM hI hi ho hm, ?_, ?_⟩
      · rw [List.filter_singleton, hheard, ho]
        rfl
      · dsimp only
        obtain ⟨hlt, hget⟩ := List.getElem?_eq_some_iff.mp hi
        rw [h.slots, List.map_set, hushed_moved hm.call_eq ho, ← List.map_set, ← hget, List.set_getElem_self]
      · dsimp only
        rw [h.effects]
        cases acted <;> simp [ho]

/-- **The others leave no trace.** -/
theorem Hushed.run (hM : M.Bystanders own Same I ok) (h : Hushed own M Same w v) {ls : List (Label A E)} (hI : I w)
    (hok : M.RunsUnder ok w ls) (hrun : M.run w ls = some w') :
    ∃ v', M.run v (ls.filter (Label.heard own (w.slots.map Slot.call ++ ls.filterMap Label.call?))) = some v' ∧
      Hushed own M Same w' v' := by
  induction ls generalizing w v with
  | nil =>
    cases hrun
    exact ⟨v, rfl, h⟩
  | cons l ls ih =>
    obtain ⟨w₁, hs, hrest⟩ := Option.bind_eq_some_iff.mp hrun
    have hcalls (i : Nat) (s : Slot A W C R X α) (hi : w.slots[i]? = some s) :
        (w.slots.map Slot.call ++ (l :: ls).filterMap Label.call?)[i]? = some s.call := by
      have hlt : i < (w.slots.map Slot.call).length := by simpa using (List.getElem?_eq_some_iff.mp hi).1
      rw [List.getElem?_append_left hlt, List.getElem?_map, hi, Option.map_some]
    obtain ⟨v₁, hv₁, h₁⟩ := h.step hM hI hok.1 hcalls hs
    obtain ⟨v', hv', h'⟩ := ih h₁ (hM.step w l w₁ hI hok.1 hs) (hok.2 w₁ hs) hrest
    have hlist : w₁.slots.map Slot.call ++ ls.filterMap Label.call? =
        w.slots.map Slot.call ++ (l :: ls).filterMap Label.call? := by
      rw [M.step_calls hs, List.append_assoc, List.filterMap_cons]
      cases l.call? <;> rfl
    have hsplit (p : Label A E → Bool) : (l :: ls).filter p = [l].filter p ++ ls.filter p := List.filter_append [l] ls
    rw [hlist] at hv'
    refine ⟨v', ?_, h'⟩
    rw [hsplit, M.run_append, hv₁]
    exact hv'

theorem hush_run (hM : M.Bystanders own Same I ok) {db : σ} (hsame : Same db db) {ls : List (Label A E)} (h0 : I { db })
    (hok : M.RunsUnder ok { db } ls) (hrun : M.run { db } ls = some w) :
    ∃ v, M.run { db } (hush own ls) = some v ∧ Hushed own M Same w v := by
  have hstart : Hushed own M Same ({ db } : World σ A W C R X α) { db } := ⟨hsame, rfl, rfl⟩
  exact hstart.run hM h0 hok hrun

end Runs

end BaptistApi.Transactions
