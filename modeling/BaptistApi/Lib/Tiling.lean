import Mathlib.Algebra.BigOperators.Group.Finset.Basic
import Mathlib.Data.Nat.SuccPred
import Mathlib.Order.Interval.Set.Union
import Mathlib.Order.SuccPred.IntervalSucc

/-!
# Tiles

A rising sequence of cuts divides the span `[c 0, c n)` into the half-open tiles `[c k, c (k + 1))`. Each
item of the span lies in one tile, so what the tiles add up to is what the span does.
-/

namespace BaptistApi.Tiling

/-! ## One tile for each item -/

section Tiles

variable {α : Type*} [LinearOrder α] {c : ℕ → α}

theorem existsUnique_tile (hc : Monotone c) {n : ℕ} {x : α} :
    (c 0 ≤ x ∧ x < c n) ↔ ∃! k, k < n ∧ c k ≤ x ∧ x < c (k + 1) := by
  constructor
  · intro hx
    have hcover := Ico_subset_biUnion_Ico n c hx
    simp only [Set.mem_iUnion, Finset.mem_range] at hcover
    obtain ⟨k, hk, htile⟩ := hcover
    refine ⟨k, ⟨hk, htile⟩, ?_⟩
    rintro j ⟨-, hj⟩
    by_contra hne
    exact Set.disjoint_left.mp (hc.pairwise_disjoint_on_Ico_succ hne) hj htile
  · rintro ⟨k, ⟨hk, hlo, hhi⟩, -⟩
    exact ⟨(hc (Nat.zero_le k)).trans hlo, hhi.trans_le (hc hk)⟩

end Tiles

/-! ## Sums -/

section Sums

variable {α β M : Type*} [LinearOrder α] [AddCommMonoid M] {pos : β → α} {f : β → M} {l : List β}

/-- What the items of `l` in `[a, b)` add up to. -/
def total (pos : β → α) (f : β → M) (l : List β) (a b : α) : M :=
  ((l.filter fun x => a ≤ pos x ∧ pos x < b).map f).sum

theorem total_self (a : α) : total pos f l a a = 0 := by
  have hnone : l.filter (fun x => decide (a ≤ pos x ∧ pos x < a)) = [] := by
    rw [List.filter_eq_nil_iff]
    intro x _ hx
    rw [decide_eq_true_eq] at hx
    exact absurd hx.2 (not_lt.mpr hx.1)
  unfold total
  rw [hnone]
  rfl

theorem total_cons (x : β) (a b : α) :
    total pos f (x :: l) a b = (if a ≤ pos x ∧ pos x < b then f x else 0) + total pos f l a b := by
  unfold total
  rw [List.filter_cons]
  split
  · rename_i h
    rw [decide_eq_true_eq] at h
    rw [if_pos h, List.map_cons, List.sum_cons]
  · rename_i h
    rw [decide_eq_true_eq] at h
    rw [if_neg h, zero_add]

theorem total_add {a b d : α} (hab : a ≤ b) (hbd : b ≤ d) :
    total pos f l a b + total pos f l b d = total pos f l a d := by
  induction l with
  | nil => simp [total]
  | cons x l ih =>
    simp only [total_cons]
    rw [add_add_add_comm, ih]
    congr 1
    rcases lt_or_ge (pos x) b with h | h
    · simp [h, h.trans_le hbd, not_le.mpr h]
    · simp [h, hab.trans h, not_lt.mpr h]

theorem sum_total (pos : β → α) (f : β → M) (l : List β) {c : ℕ → α} (hc : Monotone c) (n : ℕ) :
    ∑ k ∈ Finset.range n, total pos f l (c k) (c (k + 1)) = total pos f l (c 0) (c n) := by
  induction n with
  | zero => rw [Finset.sum_range_zero, total_self]
  | succ n ih => rw [Finset.sum_range_succ, ih, total_add (hc (Nat.zero_le n)) (hc (Nat.le_succ n))]

end Sums

end BaptistApi.Tiling
