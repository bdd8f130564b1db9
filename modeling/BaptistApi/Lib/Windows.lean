import Mathlib.Data.List.Basic
import Mathlib.Tactic.Common

/-!
# Windows of sorted lists

A list is read in windows of one size, each of them cut from an arrangement of its own: two arrangements
agree but for the order of ties. The windows are a partition as long as none of them ends inside a tie.
-/

namespace BaptistApi.Windows

variable {α : Type} (le : α → α → Bool)

structure Arrangement (rows s : List α) : Prop where
  perm : s.Perm rows
  sorted : s.Pairwise fun a b => le a b = true

/-- How many come strictly before `a`. -/
def below (rows : List α) (a : α) : ℕ := rows.countP fun b => !le a b

/-- How many come before `a` or tie with it, `a` among them. -/
def upTo (rows : List α) (a : α) : ℕ := rows.countP fun b => le b a

/-- A cut after `m` rows goes through a tie. -/
def Splits (rows : List α) (m : ℕ) : Prop := ∃ a ∈ rows, below le rows a < m ∧ m < upTo le rows a

instance (rows : List α) (m : ℕ) : Decidable (Splits le rows m) := inferInstanceAs (Decidable (∃ a ∈ rows, _))

def window (s : List α) (n k : ℕ) : List α := (s.drop (k * n)).take n

variable {le} {rows s s' : List α} {m : ℕ}

theorem not_splits_zero : ¬ Splits le rows 0 := by
  rintro ⟨a, -, h, -⟩
  omega

theorem not_splits_length (h : rows.length ≤ m) : ¬ Splits le rows m := by
  rintro ⟨a, -, -, hm⟩
  have hle : upTo le rows a ≤ rows.length := List.countP_le_length
  omega

namespace Arrangement

theorem below_eq (h : Arrangement le rows s) (a : α) : below le rows a = below le s a := h.perm.symm.countP_eq _

theorem upTo_eq (h : Arrangement le rows s) (a : α) : upTo le rows a = upTo le s a := h.perm.symm.countP_eq _

theorem length_eq (h : Arrangement le rows s) : s.length = rows.length := h.perm.length_eq

theorem le_across (h : Arrangement le rows s) {a b : α} (ha : a ∈ s.take m) (hb : b ∈ s.drop m) : le a b = true := by
  have hs := h.sorted
  rw [← List.take_append_drop m s, List.pairwise_append] at hs
  exact hs.2.2 a ha b hb

theorem take_eq_filter (h : Arrangement le rows s) (refl : ∀ a, le a a = true) (hm : ¬ Splits le rows m) :
    s.take m = s.filter fun a => decide (upTo le rows a ≤ m) := by
  have htake : ∀ a ∈ s.take m, upTo le rows a ≤ m := by
    intro a ha
    have hlt : (s.take m).countP (fun b => !le a b) < (s.take m).length := by
      refine Nat.lt_of_le_of_ne List.countP_le_length fun heq => ?_
      simpa [refl] using List.countP_eq_length.mp heq a ha
    have hnone : (s.drop m).countP (fun b => !le a b) = 0 :=
      List.countP_eq_zero.mpr fun b hb => by simp [h.le_across ha hb]
    have hbelow : below le rows a < m := by
      rw [h.below_eq, below, ← List.take_append_drop m s, List.countP_append, hnone]
      exact Nat.lt_of_lt_of_le hlt (List.length_take_le m s)
    exact Nat.le_of_not_lt fun hup => hm ⟨a, h.perm.mem_iff.mp (List.mem_of_mem_take ha), hbelow, hup⟩
  have hdrop : ∀ a ∈ s.drop m, ¬ upTo le rows a ≤ m := by
    intro a ha
    have hlen : (s.take m).length = m := by
      have hpos := List.length_pos_of_mem ha
      rw [List.length_drop] at hpos
      rw [List.length_take]
      omega
    have hall : (s.take m).countP (fun b => le b a) = m :=
      (List.countP_eq_length.mpr fun b hb => h.le_across hb ha).trans hlen
    have hself : 0 < (s.drop m).countP (fun b => le b a) := List.countP_pos_iff.mpr ⟨a, ha, refl a⟩
    rw [h.upTo_eq, upTo, ← List.take_append_drop m s, List.countP_append, hall]
    omega
  conv_rhs => rw [← List.take_append_drop m s, List.filter_append]
  rw [List.filter_eq_self.mpr (by simpa using htake), List.filter_eq_nil_iff.mpr (by simpa using hdrop), List.append_nil]

theorem take_perm (h : Arrangement le rows s) (h' : Arrangement le rows s') (refl : ∀ a, le a a = true)
    (hm : ¬ Splits le rows m) : (s.take m).Perm (s'.take m) := by
  rw [h.take_eq_filter refl hm, h'.take_eq_filter refl hm]
  exact (h.perm.trans h'.perm.symm).filter _

theorem le_of_below (h : Arrangement le rows s) (trans : ∀ a b c, le a b = true → le b c = true → le a c = true)
    {A B : List α} {a x : α} (hs : s = A ++ x :: B) (ha : below le rows a < A.length + 1) : le a x = true := by
  by_contra hax
  have hsorted := h.sorted
  rw [hs] at hsorted
  have hbefore := (List.pairwise_append.mp hsorted).2.2
  have hall : (A ++ [x]).countP (fun b => !le a b) = (A ++ [x]).length := by
    refine List.countP_eq_length.mpr fun b hb => ?_
    rw [Bool.not_eq_true', ← Bool.not_eq_true]
    intro hab
    rcases List.mem_append.mp hb with hb | hb
    · exact hax (trans a b x hab (hbefore b hb x List.mem_cons_self))
    · exact hax (List.mem_singleton.mp hb ▸ hab)
  rw [h.below_eq, below, hs, List.append_cons, List.countP_append, hall, List.length_append,
    List.length_singleton] at ha
  omega

theorem le_of_upTo (h : Arrangement le rows s) (trans : ∀ a b c, le a b = true → le b c = true → le a c = true)
    {A B : List α} {a y : α} (hs : s = A ++ y :: B) (ha : A.length < upTo le rows a) : le y a = true := by
  by_contra hya
  have hsorted := h.sorted
  rw [hs] at hsorted
  have hafter := (List.pairwise_cons.mp (List.pairwise_append.mp hsorted).2.1).1
  have hnone : (y :: B).countP (fun b => le b a) = 0 := by
    refine List.countP_eq_zero.mpr fun b hb hba => hya ?_
    rcases List.mem_cons.mp hb with rfl | hb
    · exact hba
    · exact trans y b a (hafter b hb) hba
  have hle : A.countP (fun b => le b a) ≤ A.length := List.countP_le_length
  rw [h.upTo_eq, upTo, hs, List.countP_append, hnone] at ha
  omega

theorem exchange (h : Arrangement le rows s) {A B : List α} {x y : α} (hs : s = A ++ x :: y :: B)
    (hyx : le y x = true) : Arrangement le rows (A ++ y :: x :: B) := by
  obtain ⟨hsortA, hsort, hacross⟩ := List.pairwise_append.mp (hs ▸ h.sorted)
  obtain ⟨hx, hsort⟩ := List.pairwise_cons.mp hsort
  obtain ⟨hy, hsortB⟩ := List.pairwise_cons.mp hsort
  have hswap : (y :: x :: B).Perm (x :: y :: B) := List.Perm.swap x y B
  refine ⟨((hswap.append_left A).trans (hs ▸ .rfl)).trans h.perm, List.pairwise_append.mpr ⟨hsortA, ?_, ?_⟩⟩
  · refine List.pairwise_cons.mpr ⟨fun c hc => ?_, List.pairwise_cons.mpr ⟨?_, hsortB⟩⟩
    · rcases List.mem_cons.mp hc with rfl | hc
      · exact hyx
      · exact hy c hc
    · exact fun c hc => hx c (List.mem_cons_of_mem y hc)
  · exact fun b hb c hc => hacross b hb c (hswap.mem_iff.mp hc)

theorem swap (h : Arrangement le rows s) (trans : ∀ a b c, le a b = true → le b c = true → le a c = true)
    (hm : Splits le rows m) :
    ∃ A x y B, s = A ++ x :: y :: B ∧ A.length + 1 = m ∧ Arrangement le rows (A ++ y :: x :: B) := by
  obtain ⟨a, ha, hbelow, hup⟩ := hm
  have hm : m < s.length := Nat.lt_of_lt_of_le hup (h.upTo_eq a ▸ List.countP_le_length)
  obtain ⟨y, B, hB⟩ : ∃ y B, s.drop m = y :: B := List.exists_cons_of_length_pos (by rw [List.length_drop]; omega)
  obtain ⟨A, x, hA⟩ : ∃ A x, s.take m = A ++ [x] := by
    refine ⟨_, _, (List.dropLast_append_getLast (List.ne_nil_of_length_pos ?_)).symm⟩
    rw [List.length_take]
    omega
  have hlen : A.length + 1 = m := by
    have hlen := congrArg List.length hA
    rw [List.length_take, List.length_append, List.length_singleton] at hlen
    omega
  have hs : s = (A ++ [x]) ++ y :: B := by rw [← List.take_append_drop m s, hA, hB]
  have hs' : s = A ++ x :: y :: B := by rw [hs, List.append_assoc, List.singleton_append]
  have hax : le a x = true := h.le_of_below trans hs' (hlen ▸ hbelow)
  have hya : le y a = true := h.le_of_upTo trans hs (by rw [List.length_append, List.length_singleton]; omega)
  exact ⟨A, x, y, B, hs', hlen, h.exchange hs' (trans y a x hya hax)⟩

end Arrangement

/-- The windows are a partition when no cut goes through a tie. -/
theorem windows_perm {n : ℕ} {s : ℕ → List α} (hs : ∀ k, Arrangement le rows (s k)) (refl : ∀ a, le a a = true)
    (hn : ∀ k, ¬ Splits le rows (k * n)) (K : ℕ) :
    ((List.range K).flatMap fun k => window (s k) n k).Perm ((s K).take (K * n)) := by
  induction K with
  | zero => simp
  | succ K ih =>
    rw [List.range_succ, List.flatMap_append, List.flatMap_singleton]
    have hcut : (s K).take (K * n) ++ window (s K) n K = (s K).take ((K + 1) * n) := by
      rw [window, Nat.succ_mul, List.take_add]
    refine (ih.append_right _).trans ?_
    rw [hcut]
    exact (hs K).take_perm (hs (K + 1)) refl (hn (K + 1))

/-! ## A row that moves back while the windows go on -/

theorem Arrangement.getElem?_below (h : Arrangement le rows s) (refl : ∀ a, le a a = true) (hrows : rows.Nodup) {x : α}
    (hx : x ∈ rows) (halone : ∀ y ∈ rows, le x y = true → le y x = true → y = x) : s[below le rows x]? = some x := by
  obtain ⟨A, B, hs⟩ := List.append_of_mem (h.perm.mem_iff.mpr hx)
  have hmem (y : α) (hy : y ∈ A ++ x :: B) : y ∈ rows := h.perm.mem_iff.mp (hs ▸ hy)
  have hnodup : (A ++ x :: B).Nodup := hs ▸ h.perm.nodup_iff.mpr hrows
  have hsorted : (A ++ x :: B).Pairwise fun a b => le a b = true := hs ▸ h.sorted
  obtain ⟨-, hafter, hacross⟩ := List.pairwise_append.mp hsorted
  have hbefore : A.countP (fun b => !le x b) = A.length := by
    refine List.countP_eq_length.mpr fun b hb => ?_
    rw [Bool.not_eq_true', ← Bool.not_eq_true]
    intro hxb
    have heq := halone b (hmem b (List.mem_append_left _ hb)) hxb (hacross b hb x List.mem_cons_self)
    exact (List.nodup_append.mp hnodup).2.2 b hb x List.mem_cons_self heq
  have hrest : (x :: B).countP (fun b => !le x b) = 0 := by
    refine List.countP_eq_zero.mpr fun b hb => ?_
    rcases List.mem_cons.mp hb with rfl | hb
    · simp [refl]
    · simp [(List.pairwise_cons.mp hafter).1 b hb]
  have hbelow : below le rows x = A.length := by
    rw [h.below_eq, below, hs, List.countP_append, hbefore, hrest, Nat.add_zero]
  rw [hbelow, hs]
  simp

theorem mem_window_of_getElem? {n k i : ℕ} {x : α} (hx : s[i]? = some x) (hlow : k * n ≤ i) (hhigh : i < (k + 1) * n) :
    x ∈ window s n k := by
  rw [Nat.succ_mul] at hhigh
  have hget : (window s n k)[i - k * n]? = some x := by
    rw [window, List.getElem?_take_of_lt (by omega), List.getElem?_drop, ← hx]
    congr 1
    omega
  exact List.mem_of_getElem? hget

/-- What moves towards the end, from one window to the next, does not slip past them. -/
theorem exists_window_of_monotone {pos : ℕ → ℕ} (hmono : ∀ k, pos k ≤ pos (k + 1)) {n K : ℕ}
    (hlast : pos K < (K + 1) * n) : ∃ k, k ≤ K ∧ k * n ≤ pos k ∧ pos k < (k + 1) * n := by
  induction K with
  | zero => exact ⟨0, Nat.le_refl 0, by simp, hlast⟩
  | succ K ih =>
    by_cases hin : pos K < (K + 1) * n
    · obtain ⟨k, hk, hwindow⟩ := ih hin
      exact ⟨k, Nat.le_succ_of_le hk, hwindow⟩
    · exact ⟨K + 1, Nat.le_refl _, Nat.le_trans (Nat.le_of_not_lt hin) (hmono K), hlast⟩

end BaptistApi.Windows
