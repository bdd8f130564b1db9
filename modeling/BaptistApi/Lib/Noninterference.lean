import Mathlib.Data.List.Basic

/-!
# Noninterference

A machine whose actions come from several domains. What a domain is answered is the same when the
actions of all others are left out, if each action keeps a relation between states that look the same
to the domain: from elsewhere on one side alone, from the domain itself on both sides at once.
-/

namespace BaptistApi.Noninterference

/-- An action of some domain gives an answer and a next state. -/
structure Machine (σ A O D : Type) where
  domain : A → D
  answer : σ → A → O
  next : σ → A → σ

namespace Machine

variable {σ A O D : Type} (M : Machine σ A O D)

def run (s : σ) (as : List A) : σ := as.foldl M.next s

/-- Each action with its answer. -/
def trace : σ → List A → List (A × O)
  | _, [] => []
  | s, a :: as => (a, M.answer s a) :: trace (M.next s a) as

variable [DecidableEq D]

/-- The actions of one domain. -/
def purge (d : D) (as : List A) : List A := as.filter fun a => M.domain a = d

/-- What the domain is answered. -/
def seen (d : D) (s : σ) (as : List A) : List (A × O) := (M.trace s as).filter fun p => M.domain p.1 = d

/-- The states that look the same to a domain. `Ok s as` says that the actions `as` may come in state `s`. -/
structure Unwinding (Ok : σ → List A → Prop) (Same : D → σ → σ → Prop) : Prop where
  after : ∀ {s a as}, Ok s (a :: as) → Ok (M.next s a) as
  hidden : ∀ {d s s' a as}, Ok s (a :: as) → M.domain a ≠ d → Same d s s' → Same d (M.next s a) s'
  shown : ∀ {d s s' a as as'}, Ok s (a :: as) → Ok s' (a :: as') → M.domain a = d → Same d s s' →
    Same d (M.next s a) (M.next s' a) ∧ M.answer s a = M.answer s' a

variable {M} {Ok : σ → List A → Prop} {Same : D → σ → σ → Prop}

/-- **The unwinding theorem.** -/
theorem Unwinding.noninterference (h : M.Unwinding Ok Same) {d : D} {s s' : σ} (hsame : Same d s s') {as : List A}
    (hok : Ok s as) (hok' : Ok s' (M.purge d as)) :
    M.seen d s as = M.trace s' (M.purge d as) ∧ Same d (M.run s as) (M.run s' (M.purge d as)) := by
  induction as generalizing s s' with
  | nil => exact ⟨rfl, hsame⟩
  | cons a as ih =>
    by_cases ha : M.domain a = d
    · have hpurge : M.purge d (a :: as) = a :: M.purge d as := by simp [purge, ha]
      rw [hpurge] at hok' ⊢
      obtain ⟨hnext, hanswer⟩ := h.shown hok hok' ha hsame
      obtain ⟨hseen, hrun⟩ := ih hnext (h.after hok) (h.after hok')
      refine ⟨?_, hrun⟩
      simp only [seen, trace, List.filter_cons, ha, decide_true, if_true, hanswer]
      exact congrArg _ hseen
    · have hpurge : M.purge d (a :: as) = M.purge d as := by simp [purge, ha]
      rw [hpurge] at hok' ⊢
      obtain ⟨hseen, hrun⟩ := ih (h.hidden hok ha hsame) (h.after hok) hok'
      refine ⟨?_, hrun⟩
      simp only [seen, trace, List.filter_cons, ha, decide_false, Bool.false_eq_true, if_false]
      exact hseen

end Machine

end BaptistApi.Noninterference
