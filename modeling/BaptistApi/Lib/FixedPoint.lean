import Mathlib.Algebra.Order.Round
import Mathlib.Data.Rat.Floor
import Mathlib.Tactic.Linarith
import Mathlib.Tactic.Positivity
import Mathlib.Tactic.FieldSimp
import Mathlib.Tactic.Ring

/-!
# Fixed-point columns

`Numeric p s` is a `numeric(p, s)` column: at most `p` digits, `s` of them after the point. A value
is stored by rounding half away from zero, and is refused when too many digits are left.
-/

namespace BaptistApi.FixedPoint

/-- Round to the nearest integer, halves away from zero. -/
def roundHalfAway (x : ℚ) : ℤ := if 0 ≤ x then ⌊x + 1 / 2⌋ else -⌊-x + 1 / 2⌋

theorem roundHalfAway_nonneg {x : ℚ} (h : 0 ≤ x) : roundHalfAway x = ⌊x + 1 / 2⌋ := if_pos h

theorem roundHalfAway_neg {x : ℚ} (h : x < 0) : roundHalfAway x = -⌊-x + 1 / 2⌋ :=
  if_neg (not_le.mpr h)

@[simp] theorem roundHalfAway_intCast (n : ℤ) : roundHalfAway n = n := by
  have half (m : ℤ) : ⌊(m : ℚ) + 1 / 2⌋ = m := by
    rw [Int.floor_eq_iff]
    constructor <;> linarith
  rcases le_or_gt 0 (n : ℚ) with h | h
  · rw [roundHalfAway_nonneg h, half]
  · rw [roundHalfAway_neg h, ← Int.cast_neg, half, neg_neg]

theorem roundHalfAway_mono {x y : ℚ} (h : x ≤ y) : roundHalfAway x ≤ roundHalfAway y := by
  rcases le_or_gt 0 x with hx | hx
  · rw [roundHalfAway_nonneg hx, roundHalfAway_nonneg (hx.trans h)]
    exact Int.floor_le_floor (by linarith)
  · rw [roundHalfAway_neg hx]
    rcases le_or_gt 0 y with hy | hy
    · rw [roundHalfAway_nonneg hy]
      have h1 : 0 ≤ ⌊-x + 1 / 2⌋ := Int.floor_nonneg.mpr (by linarith)
      have h2 : 0 ≤ ⌊y + 1 / 2⌋ := Int.floor_nonneg.mpr (by linarith)
      omega
    · rw [roundHalfAway_neg hy]
      exact neg_le_neg (Int.floor_le_floor (by linarith))

theorem roundHalfAway_le {x : ℚ} {n : ℤ} (h : x ≤ n) : roundHalfAway x ≤ n := by
  simpa using roundHalfAway_mono h

theorem le_roundHalfAway {x : ℚ} {n : ℤ} (h : n ≤ x) : n ≤ roundHalfAway x := by
  simpa using roundHalfAway_mono h

theorem natAbs_roundHalfAway (x : ℚ) : ((roundHalfAway x).natAbs : ℤ) = ⌊|x| + 1 / 2⌋ := by
  have hfloor : 0 ≤ ⌊|x| + 1 / 2⌋ := Int.floor_nonneg.mpr (by positivity)
  rcases le_or_gt 0 x with h | h
  · rw [roundHalfAway_nonneg h, ← abs_of_nonneg h, abs_abs]
    exact Int.natAbs_of_nonneg hfloor
  · rw [roundHalfAway_neg h, Int.natAbs_neg, ← abs_of_neg h]
    exact Int.natAbs_of_nonneg hfloor

/-- A stored `numeric(p, s)` value, in units of `10 ^ -s`. -/
structure Numeric (p s : ℕ) where
  units : ℤ
  fits : units.natAbs < 10 ^ p
  deriving DecidableEq

namespace Numeric

variable {p s : ℕ}

def value (n : Numeric p s) : ℚ := n.units / 10 ^ s

/-- What the column makes of a value: `none` is the error `numeric field overflow`. -/
def store? (p s : ℕ) (x : ℚ) : Option (Numeric p s) :=
  if h : (roundHalfAway (x * 10 ^ s)).natAbs < 10 ^ p then some ⟨_, h⟩ else none

/-- `x` has at most `s` decimals. -/
def OnGrid (s : ℕ) (x : ℚ) : Prop := ∃ n : ℤ, x = n / 10 ^ s

theorem ten_pow_pos (s : ℕ) : (0 : ℚ) < 10 ^ s := by positivity

theorem store?_eq_some {x : ℚ} {n : Numeric p s} :
    store? p s x = some n ↔ n.units = roundHalfAway (x * 10 ^ s) := by
  unfold store?
  split
  · rename_i h
    constructor
    · intro hn; rw [← Option.some.inj hn]
    · intro hn; congr 1; cases n; simpa using hn.symm
  · rename_i h
    constructor
    · intro hn; cases hn
    · intro hn; exact absurd (hn ▸ n.fits) h

/-- The values that a column takes: those below its largest one and a half unit more. -/
theorem isSome_store? {x : ℚ} : (store? p s x).isSome = true ↔ |x| < (10 ^ p - 1 / 2) / 10 ^ s := by
  have hlt : (roundHalfAway (x * 10 ^ s)).natAbs < 10 ^ p ↔ |x * 10 ^ s| + 1 / 2 < 10 ^ p := by
    zify
    rw [← Int.natCast_natAbs, natAbs_roundHalfAway, Int.floor_lt]
    push_cast
    exact Iff.rfl
  have hsome : (store? p s x).isSome = true ↔ (roundHalfAway (x * 10 ^ s)).natAbs < 10 ^ p := by
    unfold store?
    split
    · rename_i h; simp [h]
    · rename_i h; simp [h]
  rw [hsome, hlt, lt_div_iff₀ (ten_pow_pos s), abs_mul, abs_of_pos (ten_pow_pos s), lt_sub_iff_add_lt]

theorem onGrid_value (n : Numeric p s) : OnGrid s n.value := ⟨n.units, rfl⟩

theorem store?_of_value (n : Numeric p s) : store? p s n.value = some n := by
  rw [store?_eq_some, value, div_mul_cancel₀ _ (ten_pow_pos s).ne', roundHalfAway_intCast]

theorem store?_value {x : ℚ} {n : Numeric p s} (hx : OnGrid s x) (h : store? p s x = some n) :
    n.value = x := by
  obtain ⟨m, rfl⟩ := hx
  rw [store?_eq_some, div_mul_cancel₀ _ (ten_pow_pos s).ne', roundHalfAway_intCast] at h
  rw [value, h]

theorem OnGrid.mono {s t : ℕ} (h : s ≤ t) {x : ℚ} (hx : OnGrid s x) : OnGrid t x := by
  obtain ⟨n, rfl⟩ := hx
  refine ⟨n * 10 ^ (t - s), ?_⟩
  obtain ⟨d, rfl⟩ := Nat.exists_eq_add_of_le h
  rw [Nat.add_sub_cancel_left, pow_add]
  push_cast
  field_simp

theorem OnGrid.sub {x y : ℚ} (hx : OnGrid s x) (hy : OnGrid s y) : OnGrid s (x - y) := by
  obtain ⟨m, rfl⟩ := hx
  obtain ⟨n, rfl⟩ := hy
  exact ⟨m - n, by push_cast; ring⟩

theorem OnGrid.sum {l : List ℚ} (h : ∀ x ∈ l, OnGrid s x) : OnGrid s l.sum := by
  induction l with
  | nil => exact ⟨0, by simp⟩
  | cons x l ih =>
    obtain ⟨m, hm⟩ := h x List.mem_cons_self
    obtain ⟨n, hn⟩ := ih fun y hy => h y (List.mem_cons_of_mem _ hy)
    rw [List.sum_cons, hm, hn]
    exact ⟨m + n, by push_cast; ring⟩

theorem value_le_of_le {x y : ℚ} {n : Numeric p s} (h : store? p s x = some n) (hy : OnGrid s y)
    (hxy : x ≤ y) : n.value ≤ y := by
  obtain ⟨m, rfl⟩ := hy
  rw [store?_eq_some] at h
  have hm : roundHalfAway (x * 10 ^ s) ≤ m :=
    roundHalfAway_le ((le_div_iff₀ (ten_pow_pos s)).mp hxy)
  rw [value, h]
  exact div_le_div_of_nonneg_right (by exact_mod_cast hm) (ten_pow_pos s).le

theorem value_lt (n : Numeric p s) : n.value < 10 ^ p / 10 ^ s := by
  have h : n.units < 10 ^ p := by
    have hfits := n.fits
    zify at hfits
    exact (le_abs_self n.units).trans_lt hfits
  rw [value]
  exact div_lt_div_of_pos_right (by exact_mod_cast h) (ten_pow_pos s)

theorem lt_of_store? {x : ℚ} {n : Numeric p s} (h : store? p s x = some n) : x < 10 ^ p / 10 ^ s := by
  rw [store?_eq_some] at h
  by_contra hx
  have hle : ((10 ^ p : ℤ) : ℚ) ≤ x * 10 ^ s := by
    push_cast
    exact (div_le_iff₀ (ten_pow_pos s)).mp (not_lt.mp hx)
  have hunits := le_roundHalfAway hle
  have hfits := n.fits
  rw [← h] at hunits
  zify at hfits
  exact absurd (hunits.trans (le_abs_self _)) (not_le.mpr hfits)

theorem value_nonneg_of_nonneg {x : ℚ} {n : Numeric p s} (h : store? p s x = some n)
    (hx : 0 ≤ x) : 0 ≤ n.value := by
  rw [store?_eq_some] at h
  have h0 : (0 : ℤ) ≤ roundHalfAway (x * 10 ^ s) := by
    apply le_roundHalfAway
    have := ten_pow_pos s
    push_cast
    positivity
  rw [value, h]
  exact div_nonneg (by exact_mod_cast h0) (ten_pow_pos s).le

end Numeric

end BaptistApi.FixedPoint
