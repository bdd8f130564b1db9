import BaptistApi.Schema

/-!
# Uuids as text

A setting holds the text of a uuid, and the SQL functions cast it back.
-/

namespace BaptistApi

def hexValue (c : Char) : Option ℕ :=
  if '0' ≤ c ∧ c ≤ '9' then some (c.toNat - '0'.toNat)
  else if 'a' ≤ c ∧ c ≤ 'f' then some (c.toNat - 'a'.toNat + 10)
  else if 'A' ≤ c ∧ c ≤ 'F' then some (c.toNat - 'A'.toNat + 10)
  else none

/-- The digits of a uuid when `n` of them are read. A hyphen may stand after each group of four. -/
def readDigits : (n : ℕ) → (hyphen : Bool) → List Char → Option (List ℕ)
  | n, _, [] => if n = 32 then some [] else none
  | n, hyphen, c :: cs =>
    if hyphen && c == '-' then readDigits n false cs
    else do
      let v ← hexValue c
      let vs ← readDigits (n + 1) (decide (n + 1 < 32 ∧ (n + 1) % 4 = 0)) cs
      return v :: vs

def ofDigits (vs : List ℕ) (start : ℕ) : ℕ := vs.foldl (fun acc v => 16 * acc + v) start

/-- `text::uuid`, less the form with braces. -/
def Uuid.ofText? (s : String) : Option Uuid :=
  (readDigits 0 false s.toList).map fun vs => BitVec.ofNat 128 (ofDigits vs 0)

/-! ## The text of a uuid reads back -/

def nibble (u : Uuid) (k : ℕ) : ℕ := (u >>> (4 * (31 - k))).toNat % 16

theorem hexValue_digitChar {v : ℕ} (h : v < 16) : hexValue (Nat.digitChar v) = some v := by
  have hall : ∀ w < 16, hexValue (Nat.digitChar w) = some w := by decide
  exact hall v h

theorem digitChar_ne_hyphen {v : ℕ} (h : v < 16) : (Nat.digitChar v == '-') = false := by
  have hall : ∀ w < 16, (Nat.digitChar w == '-') = false := by decide
  exact hall v h

theorem nibble_lt (u : Uuid) (k : ℕ) : nibble u k < 16 := Nat.mod_lt _ (by decide)

theorem hexDigits_succ (u : Uuid) (start count : ℕ) :
    hexDigits u start (count + 1) = Nat.digitChar (nibble u start) :: hexDigits u (start + 1) count := by
  unfold hexDigits nibble
  rw [List.range_succ_eq_map, List.map_cons, List.map_map]
  congr 1
  refine List.map_congr_left fun i _ => ?_
  have hshift : 31 - start - (i + 1) = 31 - (start + 1) - i := by omega
  simp [hshift]

def nibbles (u : Uuid) (start count : ℕ) : List ℕ := (List.range count).map fun i => nibble u (start + i)

theorem nibbles_succ (u : Uuid) (start count : ℕ) :
    nibbles u start (count + 1) = nibble u start :: nibbles u (start + 1) count := by
  unfold nibbles
  rw [List.range_succ_eq_map, List.map_cons, List.map_map]
  refine congrArg _ (List.map_congr_left fun i _ => ?_)
  exact congrArg (nibble u) (by omega)

theorem nibbles_append (u : Uuid) (start count count' : ℕ) :
    nibbles u start count ++ nibbles u (start + count) count' = nibbles u start (count + count') := by
  induction count generalizing start with
  | zero => simp [nibbles]
  | succ count ih =>
    have hstart : start + (count + 1) = start + 1 + count := by omega
    rw [nibbles_succ, List.cons_append, hstart, ih, Nat.succ_add, nibbles_succ]

theorem readDigits_group (u : Uuid) {start count : ℕ} {hyphen : Bool} (hcount : 0 < count) (rest : List Char) :
    readDigits start hyphen (hexDigits u start count ++ rest) =
      (readDigits (start + count) (decide (start + count < 32 ∧ (start + count) % 4 = 0)) rest).map
        (nibbles u start count ++ ·) := by
  induction count generalizing start hyphen with
  | zero => omega
  | succ count ih =>
    rw [hexDigits_succ, List.cons_append, readDigits, digitChar_ne_hyphen (nibble_lt u start), Bool.and_false,
      if_neg (by decide), hexValue_digitChar (nibble_lt u start), nibbles_succ]
    rcases Nat.eq_zero_or_pos count with rfl | hpos
    · simp [hexDigits, nibbles, bind, Option.map_eq_bind]
    · have hsum : start + 1 + count = start + (count + 1) := by omega
      rw [ih hpos, hsum]
      cases readDigits (start + (count + 1)) _ rest <;> rfl

theorem readDigits_hyphen (u : Uuid) {start count : ℕ} {hyphen : Bool} (hcount : 0 < count)
    (hend : start + count < 32 ∧ (start + count) % 4 = 0) (rest : List Char) :
    readDigits start hyphen (hexDigits u start count ++ '-' :: rest) =
      (readDigits (start + count) false rest).map (nibbles u start count ++ ·) := by
  rw [readDigits_group u hcount, decide_eq_true hend, readDigits]
  rfl

theorem ofDigits_nibbles (u : Uuid) {k : ℕ} (hk : k ≤ 32) :
    ofDigits (nibbles u 0 k) 0 = u.toNat / 16 ^ (32 - k) := by
  induction k with
  | zero =>
    have hlt : u.toNat < 16 ^ (32 - 0) := u.isLt
    rw [Nat.div_eq_of_lt hlt]
    rfl
  | succ k ih =>
    have hpow : (16 : ℕ) ^ (32 - k) = 16 ^ (31 - k) * 16 := by
      rw [← Nat.pow_succ, show 32 - k = 31 - k + 1 by omega]
    have hnibble : nibble u k = u.toNat / 16 ^ (31 - k) % 16 := by
      rw [nibble, BitVec.toNat_ushiftRight, Nat.shiftRight_eq_div_pow, Nat.pow_mul]
    have hlast : ofDigits (nibbles u 0 (k + 1)) 0 = 16 * ofDigits (nibbles u 0 k) 0 + nibble u k := by
      rw [← nibbles_append u 0 k 1, ofDigits, List.foldl_append, Nat.zero_add]
      rfl
    rw [hlast, ih (by omega), hpow, ← Nat.div_div_eq_div_mul, hnibble, show 32 - (k + 1) = 31 - k by omega]
    omega

theorem Uuid.digits_str (u : Uuid) : readDigits 0 false u.str.toList = some (nibbles u 0 32) := by
  unfold Uuid.str
  rw [String.toList_ofList]
  simp only [List.append_assoc, List.cons_append]
  rw [readDigits_hyphen u (by decide) (by decide), readDigits_hyphen u (by decide) (by decide),
    readDigits_hyphen u (by decide) (by decide), readDigits_hyphen u (by decide) (by decide),
    ← List.append_nil (hexDigits u 20 12), readDigits_group u (by decide), readDigits, if_pos rfl]
  simp only [Option.map_some, List.append_nil]
  rw [nibbles_append u 16 4 12, nibbles_append u 12 4 16, nibbles_append u 8 4 20, nibbles_append u 0 8 24]

/-- **The cast undoes `str`.** -/
theorem Uuid.ofText?_str (u : Uuid) : Uuid.ofText? u.str = some u := by
  have hvalue := ofDigits_nibbles u (le_refl 32)
  rw [Nat.sub_self, Nat.pow_zero, Nat.div_one] at hvalue
  rw [Uuid.ofText?, u.digits_str, Option.map_some, hvalue, BitVec.ofNat_toNat, BitVec.setWidth_eq]

theorem Uuid.str_ne_empty (u : Uuid) : u.str ≠ "" := by
  intro h
  have hlist : u.str.toList = [] := by rw [h]; rfl
  unfold Uuid.str at hlist
  rw [String.toList_ofList] at hlist
  simp at hlist

end BaptistApi
