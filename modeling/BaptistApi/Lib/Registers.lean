import BaptistApi.Lib.Noninterference
import Mathlib.Logic.Function.Basic

/-!
# Registers

A store in which each action addresses one register. What is answered about a register depends on the
actions that address it, and on no others. A machine refines a store of registers when each of its
actions answers as the store does and leaves what the store leaves.
-/

namespace BaptistApi.Noninterference

variable {σ τ κ ν A O D : Type}

/-! ## Refinement -/

/-- `abs` is what the states of `M` stand for. -/
structure Machine.Refines (M : Machine σ A O D) (N : Machine τ A O D) (Ok : σ → List A → Prop) (abs : σ → τ) : Prop where
  after : ∀ {s a as}, Ok s (a :: as) → Ok (M.next s a) as
  answer : ∀ {s a as}, Ok s (a :: as) → M.answer s a = N.answer (abs s) a
  next : ∀ {s a as}, Ok s (a :: as) → abs (M.next s a) = N.next (abs s) a

theorem Machine.Refines.run {M : Machine σ A O D} {N : Machine τ A O D} {Ok : σ → List A → Prop} {abs : σ → τ}
    (h : M.Refines N Ok abs) {s : σ} {as : List A} (hok : Ok s as) :
    M.trace s as = N.trace (abs s) as ∧ abs (M.run s as) = N.run (abs s) as := by
  induction as generalizing s with
  | nil => exact ⟨rfl, rfl⟩
  | cons a as ih =>
    obtain ⟨htrace, hrun⟩ := ih (h.after hok)
    rw [h.next hok] at htrace hrun
    refine ⟨?_, hrun⟩
    simp only [trace, h.answer hok, htrace]

/-! ## A store of registers -/

structure Registers (κ ν A O : Type) where
  key : A → κ
  access : A → ν → O × ν

namespace Registers

variable [DecidableEq κ] (R : Registers κ ν A O)

def machine : Machine (κ → ν) A O κ where
  domain := R.key
  answer s a := (R.access a (s (R.key a))).1
  next s a := Function.update s (R.key a) (R.access a (s (R.key a))).2

/-- One register alone. -/
def one : Machine ν A O κ where
  domain := R.key
  answer v a := (R.access a v).1
  next v a := (R.access a v).2

theorem unwinding : R.machine.Unwinding (fun _ _ => True) fun k s s' => s k = s' k where
  after _ := trivial
  hidden _ ha hsame := (Function.update_of_ne (Ne.symm ha) _ _).trans hsame
  shown _ _ ha hsame := by
    obtain rfl := ha
    have hregister : ∀ {s s' : κ → ν} {a : A}, s (R.key a) = s' (R.key a) →
        R.machine.next s a (R.key a) = R.machine.next s' a (R.key a) ∧ R.machine.answer s a = R.machine.answer s' a := by
      intro s s' a h
      simp only [machine, Function.update_self, h, and_self]
    exact hregister hsame

theorem trace_one {k : κ} (s : κ → ν) {as : List A} (h : ∀ a ∈ as, R.key a = k) :
    R.machine.trace s as = R.one.trace (s k) as ∧ R.machine.run s as k = R.one.run (s k) as := by
  induction as generalizing s with
  | nil => exact ⟨rfl, rfl⟩
  | cons a as ih =>
    obtain rfl := h a List.mem_cons_self
    obtain ⟨htrace, hrun⟩ := ih (R.machine.next s a) fun b hb => h b (List.mem_cons_of_mem _ hb)
    have hnext : R.machine.next s a (R.key a) = (R.access a (s (R.key a))).2 := Function.update_self _ _ _
    rw [hnext] at htrace hrun
    refine ⟨?_, hrun⟩
    simp only [Machine.trace, htrace]
    rfl

/-- **A register is a machine of its own.** -/
theorem seen_eq (k : κ) (s : κ → ν) (as : List A) :
    R.machine.seen k s as = R.one.trace (s k) (R.machine.purge k as) ∧
      R.machine.run s as k = R.one.run (s k) (R.machine.purge k as) := by
  obtain ⟨hseen, hrun⟩ := R.unwinding.noninterference (show s k = s k from rfl) (show True from trivial) trivial
  obtain ⟨htrace, hone⟩ := R.trace_one s fun a (ha : a ∈ R.machine.purge k as) =>
    of_decide_eq_true (List.mem_filter.mp ha).2
  exact ⟨hseen.trans htrace, hrun.trans hone⟩

end Registers

end BaptistApi.Noninterference
