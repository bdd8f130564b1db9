import BaptistApi.UuidText

/-!
# `uuid.UUID` of a text

Braces, hyphens and the URN prefix are taken off, and the 32 characters left are read by `int(_, 16)`, which
takes more than hexadecimal digits: a sign, the prefix `0x`, blanks, single underscores, digits of any script.
-/

namespace BaptistApi

/-- `str.replace(pat, "")`, with `skip` characters of an occurrence to go. -/
def removeAll (pat : List Char) : (skip : ℕ) → List Char → List Char
  | _, [] => []
  | 0, c :: cs => if pat.isPrefixOf (c :: cs) then removeAll pat (pat.length - 1) cs else c :: removeAll pat 0 cs
  | skip + 1, _ :: cs => removeAll pat skip cs

def isBrace (c : Char) : Bool := c == '{' || c == '}'

/-- `str.strip("{}")`. -/
def stripBraces (cs : List Char) : List Char := ((cs.dropWhile isBrace).reverse.dropWhile isBrace).reverse

/-! ## `int(_, 16)` -/

/-- The zeros of Unicode 15, less that of ASCII. The other nine digits follow each. -/
def decimalZeros : List ℕ :=
  [0x660, 0x6F0, 0x7C0, 0x966, 0x9E6, 0xA66, 0xAE6, 0xB66, 0xBE6, 0xC66, 0xCE6, 0xD66, 0xDE6, 0xE50, 0xED0, 0xF20,
    0x1040, 0x1090, 0x17E0, 0x1810, 0x1946, 0x19D0, 0x1A80, 0x1A90, 0x1B50, 0x1BB0, 0x1C40, 0x1C50, 0xA620, 0xA8D0,
    0xA900, 0xA9D0, 0xA9F0, 0xAA50, 0xABF0, 0xFF10, 0x104A0, 0x10D30, 0x11066, 0x110F0, 0x11136, 0x111D0, 0x112F0,
    0x11450, 0x114D0, 0x11650, 0x116C0, 0x11730, 0x118E0, 0x11950, 0x11C50, 0x11D50, 0x11DA0, 0x11F50, 0x16A60,
    0x16AC0, 0x16B50, 0x1D7CE, 0x1D7D8, 0x1D7E2, 0x1D7EC, 0x1D7F6, 0x1E140, 0x1E2F0, 0x1E4F0, 0x1E950, 0x1FBF0]

/-- The white space of Unicode beyond ASCII. -/
def wideSpaces : List ℕ :=
  [0x85, 0xA0, 0x1680, 0x2000, 0x2001, 0x2002, 0x2003, 0x2004, 0x2005, 0x2006, 0x2007, 0x2008, 0x2009, 0x200A,
    0x2028, 0x2029, 0x202F, 0x205F, 0x3000]

/-- The ASCII character that stands for a digit or a blank of any script. -/
def toAscii (c : Char) : Char :=
  if c.toNat < 127 then c
  else if c.toNat ∈ wideSpaces then ' '
  else
    match decimalZeros.find? fun z => z ≤ c.toNat && c.toNat < z + 10 with
    | some z => Char.ofNat ('0'.toNat + (c.toNat - z))
    | none => '?'

/-- The white space of C. -/
def isBlank (c : Char) : Bool := c == ' ' || (9 ≤ c.toNat && c.toNat ≤ 13)

def afterSign : List Char → List Char
  | '+' :: cs => cs
  | cs => cs

/-- One underscore may follow the prefix. -/
def afterPrefix : List Char → List Char
  | '0' :: c :: cs =>
    if c == 'x' || c == 'X' then
      match cs with
      | '_' :: cs => cs
      | cs => cs
    else '0' :: c :: cs
  | cs => cs

/-- Digits with single underscores between them, and blanks behind. -/
def readHex : (acc : ℕ) → (afterDigit : Bool) → List Char → Option ℕ
  | acc, afterDigit, [] => if afterDigit then some acc else none
  | acc, afterDigit, c :: cs =>
    match hexValue c with
    | some v => readHex (16 * acc + v) true cs
    | none =>
      if c == '_' && afterDigit then readHex acc false cs
      else if afterDigit && (c :: cs).all isBlank then some acc
      else none

/-- `int(_, 16)` of a text without hyphens. -/
def hexInt? (cs : List Char) : Option ℕ :=
  readHex 0 false (afterPrefix (afterSign ((cs.map toAscii).dropWhile isBlank)))

/-- `UUID(s)`. The error is a ValueError. -/
def Uuid.parse? (s : String) : Option Uuid :=
  let text := removeAll "uuid:".toList 0 (removeAll "urn:".toList 0 s.toList)
  let digits := (stripBraces text).filter (· ≠ '-')
  if digits.length = 32 then (hexInt? digits).map (BitVec.ofNat 128) else none

/-! ## The text of a uuid reads back -/

theorem removeAll_of_not_mem {p : Char} {pat cs : List Char} (h : p ∉ cs) : removeAll (p :: pat) 0 cs = cs := by
  induction cs with
  | nil => rfl
  | cons c cs ih =>
    rw [List.mem_cons, not_or] at h
    obtain ⟨hc, hcs⟩ := h
    have hno : (p :: pat).isPrefixOf (c :: cs) = false := by simp [List.isPrefixOf, hc]
    rw [removeAll, if_neg (by simp [hno]), ih hcs]

theorem stripBraces_of_none {cs : List Char} (h : ∀ c ∈ cs, isBrace c = false) : stripBraces cs = cs := by
  have hdrop {cs : List Char} (h : ∀ c ∈ cs, isBrace c = false) : cs.dropWhile isBrace = cs := by
    cases cs with
    | nil => rfl
    | cons c cs => rw [List.dropWhile_cons_of_neg (by simp [h c List.mem_cons_self])]
  unfold stripBraces
  rw [hdrop h, hdrop fun c hc => h c (List.mem_reverse.mp hc), List.reverse_reverse]

theorem digitChar_props {v : ℕ} (h : v < 16) :
    Nat.digitChar v ≠ 'u' ∧ isBrace (Nat.digitChar v) = false ∧ Nat.digitChar v ≠ '-' ∧
      toAscii (Nat.digitChar v) = Nat.digitChar v ∧ isBlank (Nat.digitChar v) = false ∧ Nat.digitChar v ≠ '+' ∧
      Nat.digitChar v ≠ 'x' ∧ Nat.digitChar v ≠ 'X' := by
  have hall : ∀ w < 16, Nat.digitChar w ≠ 'u' ∧ isBrace (Nat.digitChar w) = false ∧ Nat.digitChar w ≠ '-' ∧
      toAscii (Nat.digitChar w) = Nat.digitChar w ∧ isBlank (Nat.digitChar w) = false ∧ Nat.digitChar w ≠ '+' ∧
      Nat.digitChar w ≠ 'x' ∧ Nat.digitChar w ≠ 'X' := by decide +kernel
  exact hall v h

theorem hexDigits_eq_map (u : Uuid) (start count : ℕ) :
    hexDigits u start count = (nibbles u start count).map Nat.digitChar := by
  induction count generalizing start with
  | zero => rfl
  | succ count ih => rw [hexDigits_succ, nibbles_succ, List.map_cons, ih]

theorem mem_nibbles {u : Uuid} {start count v : ℕ} (h : v ∈ nibbles u start count) : v < 16 := by
  obtain ⟨i, -, rfl⟩ := List.mem_map.mp h
  exact nibble_lt u _

theorem mem_str {u : Uuid} {c : Char} (h : c ∈ u.str.toList) : c = '-' ∨ ∃ v < 16, c = Nat.digitChar v := by
  have hdigits {start count : ℕ} (hc : c ∈ hexDigits u start count) : ∃ v < 16, c = Nat.digitChar v := by
    rw [hexDigits_eq_map] at hc
    obtain ⟨v, hv, rfl⟩ := List.mem_map.mp hc
    exact ⟨v, mem_nibbles hv, rfl⟩
  unfold Uuid.str at h
  rw [String.toList_ofList] at h
  simp only [List.mem_append, List.mem_cons, or_assoc] at h
  rcases h with h | h | h | h | h | h | h | h | h
  all_goals first | exact Or.inl h | exact Or.inr (hdigits h)

theorem filter_str (u : Uuid) : u.str.toList.filter (· ≠ '-') = (nibbles u 0 32).map Nat.digitChar := by
  have hdigits (start count : ℕ) :
      (hexDigits u start count).filter (· ≠ '-') = (nibbles u start count).map Nat.digitChar := by
    rw [hexDigits_eq_map, List.filter_eq_self]
    intro c hc
    obtain ⟨v, hv, rfl⟩ := List.mem_map.mp hc
    simp [(digitChar_props (mem_nibbles hv)).2.2.1]
  have hhyphen (cs : List Char) : ('-' :: cs).filter (· ≠ '-') = cs.filter (· ≠ '-') := by simp
  unfold Uuid.str
  rw [String.toList_ofList]
  simp only [List.filter_append, List.append_assoc, List.cons_append, hhyphen, hdigits, ← List.map_append]
  rw [nibbles_append u 16 4 12, nibbles_append u 12 4 16, nibbles_append u 8 4 20, nibbles_append u 0 8 24]

theorem readHex_digits {vs : List ℕ} (hvs : ∀ v ∈ vs, v < 16) (acc : ℕ) :
    readHex acc true (vs.map Nat.digitChar) = some (ofDigits vs acc) := by
  induction vs generalizing acc with
  | nil => rfl
  | cons v vs ih =>
    rw [List.map_cons, readHex, hexValue_digitChar (hvs v List.mem_cons_self)]
    exact ih (fun w hw => hvs w (List.mem_cons_of_mem _ hw)) _

theorem hexInt?_digits {v w : ℕ} {vs : List ℕ} (hvs : ∀ x ∈ v :: w :: vs, x < 16) :
    hexInt? ((v :: w :: vs).map Nat.digitChar) = some (ofDigits (v :: w :: vs) 0) := by
  have hascii : ((v :: w :: vs).map Nat.digitChar).map toAscii = (v :: w :: vs).map Nat.digitChar := by
    rw [List.map_map]
    exact List.map_congr_left fun x hx => (digitChar_props (hvs x hx)).2.2.2.1
  obtain ⟨-, -, -, -, hblank, hplus, -⟩ := digitChar_props (hvs v List.mem_cons_self)
  obtain ⟨-, -, -, -, -, -, hx, hX⟩ := digitChar_props (hvs w (by simp))
  have hsign : afterSign ((v :: w :: vs).map Nat.digitChar) = (v :: w :: vs).map Nat.digitChar := by
    rw [List.map_cons]
    unfold afterSign
    split
    · rename_i cs heq
      exact absurd (List.cons.inj heq).1 hplus
    · rfl
  have hprefix : afterPrefix ((v :: w :: vs).map Nat.digitChar) = (v :: w :: vs).map Nat.digitChar := by
    rw [List.map_cons, List.map_cons]
    unfold afterPrefix
    split
    · rename_i c cs heq
      obtain ⟨hv, hw⟩ := List.cons.inj heq
      obtain ⟨rfl, rfl⟩ := List.cons.inj hw
      rw [if_neg (by simp [hx, hX]), hv]
    · rfl
  have hread : readHex 0 false ((v :: w :: vs).map Nat.digitChar) =
      readHex 0 true ((v :: w :: vs).map Nat.digitChar) := by
    rw [List.map_cons, readHex, readHex, hexValue_digitChar (hvs v List.mem_cons_self)]
  unfold hexInt?
  rw [hascii, List.map_cons, List.dropWhile_cons_of_neg (by simp [hblank]), ← List.map_cons, hsign, hprefix, hread,
    readHex_digits hvs]

theorem Uuid.parse?_str (u : Uuid) : Uuid.parse? u.str = some u := by
  have hu : 'u' ∉ u.str.toList := by
    intro h
    obtain h | ⟨v, hv, h⟩ := mem_str h
    · revert h
      decide
    · exact (digitChar_props hv).1 h.symm
  have hbrace : ∀ c ∈ u.str.toList, isBrace c = false := by
    intro c hc
    obtain rfl | ⟨v, hv, rfl⟩ := mem_str hc
    · rfl
    · exact (digitChar_props hv).2.1
  have hlength : ((nibbles u 0 32).map Nat.digitChar).length = 32 := by simp [nibbles]
  have hfirst : nibbles u 0 32 = nibble u 0 :: nibble u 1 :: nibbles u 2 30 := by rw [nibbles_succ, nibbles_succ]
  have hall : ∀ v ∈ nibbles u 0 32, v < 16 := fun v hv => mem_nibbles hv
  have hdigits : hexInt? ((nibbles u 0 32).map Nat.digitChar) = some (ofDigits (nibbles u 0 32) 0) := by
    rw [hfirst] at hall ⊢
    exact hexInt?_digits hall
  have hvalue := ofDigits_nibbles u (le_refl 32)
  rw [Nat.sub_self, Nat.pow_zero, Nat.div_one] at hvalue
  have hurn : removeAll "urn:".toList 0 u.str.toList = u.str.toList := removeAll_of_not_mem hu
  have huuid : removeAll "uuid:".toList 0 u.str.toList = u.str.toList := removeAll_of_not_mem hu
  unfold Uuid.parse?
  dsimp only
  rw [hurn, huuid, stripBraces_of_none hbrace, filter_str, if_pos hlength, hdigits, Option.map_some, hvalue,
    BitVec.ofNat_toNat, BitVec.setWidth_eq]

example : Uuid.parse? "{urn:uuid:00000000-0000-0000-0000-00000000000d}" = some 13 := by decide +kernel
example : Uuid.parse? "0x_0000000000000000000000000000d" = some 13 := by decide +kernel

end BaptistApi
