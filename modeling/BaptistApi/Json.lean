import Mathlib.Algebra.Order.Round
import Mathlib.Data.Rat.Floor

/-!
# Python values on their way into a jsonb column

What `json.dumps(value, default=str)` writes, what jsonb makes of it, and how a Decimal is printed.
-/

namespace BaptistApi

/-! ## Python values -/

/-- A finite float is the number that its `repr` shows. -/
inductive PyFloat where
  | finite (q : ℚ)
  | nan
  | infinity (negative : Bool)
  deriving DecidableEq

inductive PyKey where
  | str (s : String)
  | int (n : ℤ)
  | float (repr : String)
  | bool (b : Bool)
  | none
  /-- Anything else, as a tuple or a UUID. -/
  | other
  deriving DecidableEq

inductive PyVal where
  | none
  | bool (b : Bool)
  | int (n : ℤ)
  | float (f : PyFloat)
  | str (s : String)
  | list (xs : List PyVal)
  | tuple (xs : List PyVal)
  | dict (entries : List (PyKey × PyVal))
  /-- A list or dict that this one is part of. -/
  | cycle
  /-- A value json does not know, with its `str()`, or without one when `str()` raises. -/
  | other (str : Option String)

/-! ## JSON -/

inductive Json where
  | null
  | bool (b : Bool)
  | int (n : ℤ)
  | num (f : PyFloat)
  | str (s : String)
  | arr (xs : List Json)
  | obj (entries : List (String × Json))
  /-- A text nested deeper than PostgreSQL's parser goes. -/
  | deep (text : Json)

inductive EncodeError where
  | keyType
  | strRaised
  /-- `int.__repr__` refuses to print so many digits. -/
  | digits
  | circular
  /-- `RecursionError`. -/
  | recursion
  deriving DecidableEq

/-- `sys.int_info.default_max_str_digits`. -/
def maxStrDigits : ℕ := 4300

@[irreducible] def printable (n : ℤ) : Bool := n.natAbs < 10 ^ maxStrDigits

/-- How deep a value may be nested before the encoder runs out of the interpreter's stack, and a text before
PostgreSQL's parser runs out of its own. Two levels are always left. -/
structure Stack where
  levels : ℕ
  parser : ℕ
  enough : 2 ≤ levels
  parses : 2 ≤ parser

def Stack.ordinary : Stack := ⟨1000, 1000, by decide, by decide⟩

/-- `Py_EnterRecursiveCall`. -/
def enter : ℕ → Except EncodeError ℕ
  | 0 => .error .recursion
  | levels + 1 => .ok levels

def PyKey.text : PyKey → Except EncodeError String
  | .str s => .ok s
  | .int n => if printable n then .ok (toString n) else .error .digits
  | .float repr => .ok repr
  | .bool b => .ok (if b then "true" else "false")
  | .none => .ok "null"
  | .other => .error .keyType

mutual

/-- `json.dumps(value, default=str)`. -/
def dumps (levels : ℕ) : PyVal → Except EncodeError Json
  | .none => .ok .null
  | .bool b => .ok (.bool b)
  | .int n => if printable n then .ok (.int n) else .error .digits
  | .float f => .ok (.num f)
  | .str s => .ok (.str s)
  | .list xs => do .ok (.arr (← dumpsList (← enter levels) xs))
  | .tuple xs => do .ok (.arr (← dumpsList (← enter levels) xs))
  | .dict entries => do .ok (.obj (← dumpsEntries (← enter levels) entries))
  | .cycle => do
    let _ ← enter levels
    .error .circular
  | .other Option.none => .error .strRaised
  -- What `str` gives is encoded one level down.
  | .other (some s) => do
    let _ ← enter levels
    .ok (.str s)

def dumpsList (levels : ℕ) : List PyVal → Except EncodeError (List Json)
  | [] => .ok []
  | x :: xs => do .ok ((← dumps levels x) :: (← dumpsList levels xs))

def dumpsEntries (levels : ℕ) : List (PyKey × PyVal) → Except EncodeError (List (String × Json))
  | [] => .ok []
  | (k, x) :: rest => do .ok ((← k.text, ← dumps levels x) :: (← dumpsEntries levels rest))

end

example : printable (10 ^ 4300) = false := by decide +kernel
example : dumps 1 (.list [.list []]) = .error .recursion := rfl

mutual

/-- How deep a text is nested. -/
def Json.depth : Json → ℕ
  | .arr xs => Json.depthList xs + 1
  | .obj entries => Json.depthEntries entries + 1
  | .deep text => text.depth
  | .null | .bool _ | .int _ | .num _ | .str _ => 0

def Json.depthList : List Json → ℕ
  | [] => 0
  | x :: xs => max x.depth (Json.depthList xs)

def Json.depthEntries : List (String × Json) → ℕ
  | [] => 0
  | (_, x) :: rest => max x.depth (Json.depthEntries rest)

end

/-- The text as PostgreSQL finds it. -/
def Stack.dumps (stack : Stack) (v : PyVal) : Except EncodeError Json := do
  let text ← BaptistApi.dumps stack.levels v
  .ok (if text.depth ≤ stack.parser then text else .deep text)

/-- PostgreSQL has no U+0000 in its texts. Nor has it the lone surrogates of Python, for which U+0000 stands here. -/
def textStorable (s : String) : Bool := s.toList.all fun c => c.toNat ≠ 0

/-- Of two entries with one key, jsonb keeps the later. -/
def lastOfKey : List (String × Json) → List (String × Json)
  | [] => []
  | (k, v) :: rest => if rest.any (fun e => e.1 == k) then lastOfKey rest else (k, v) :: lastOfKey rest

mutual

/-- `cast(:text as jsonb)`. Python writes NaN and Infinity, which are not JSON. -/
def Json.jsonb : Json → Option Json
  | .null => some .null
  | .bool b => some (.bool b)
  | .int n => some (.int n)
  | .num (.finite q) => some (.num (.finite q))
  | .num _ => none
  | .str s => if textStorable s then some (.str s) else none
  | .arr xs => do some (.arr (← Json.jsonbList xs))
  | .obj entries => do some (.obj (lastOfKey (← Json.jsonbEntries entries)))
  | .deep _ => none

def Json.jsonbList : List Json → Option (List Json)
  | [] => some []
  | x :: xs => do some ((← x.jsonb) :: (← Json.jsonbList xs))

def Json.jsonbEntries : List (String × Json) → Option (List (String × Json))
  | [] => some []
  | (k, x) :: rest => do
    if textStorable k then some ((k, ← x.jsonb) :: (← Json.jsonbEntries rest)) else none

end

mutual

/-- A jsonb value as the driver hands it back. A number is taken to come back as it was written, though PostgreSQL
prints 1e16 without its exponent and the driver then makes an int of it. -/
def Json.loads : Json → PyVal
  | .null => .none
  | .bool b => .bool b
  | .int n => .int n
  | .num f => .float f
  | .str s => .str s
  | .arr xs => .list (Json.loadsList xs)
  | .obj entries => .dict (Json.loadsEntries entries)
  | .deep text => text.loads

def Json.loadsList : List Json → List PyVal
  | [] => []
  | x :: xs => x.loads :: Json.loadsList xs

def Json.loadsEntries : List (String × Json) → List (PyKey × PyVal)
  | [] => []
  | (k, x) :: rest => (.str k, x.loads) :: Json.loadsEntries rest

end

/-! ## What is sent -/

theorem Stack.dumps_of_shallow {stack : Stack} {v : PyVal} {text : Json}
    (h : BaptistApi.dumps stack.levels v = .ok text) (hdepth : text.depth ≤ 2) : stack.dumps v = .ok text := by
  unfold Stack.dumps
  rw [h]
  exact congrArg Except.ok (if_pos (hdepth.trans stack.parses))

/-- What jsonb takes is the text that the encoder gave. -/
theorem Stack.dumps_levels {stack : Stack} {v : PyVal} {text j : Json} (h : stack.dumps v = .ok text)
    (hjson : text.jsonb = some j) : BaptistApi.dumps stack.levels v = .ok text := by
  unfold Stack.dumps at h
  cases hv : BaptistApi.dumps stack.levels v with
  | error e =>
    rw [hv] at h
    cases h
  | ok whole =>
    rw [hv] at h
    have htext : (if whole.depth ≤ stack.parser then whole else .deep whole) = text := Except.ok.inj h
    split at htext
    · rw [htext]
    · subst htext
      cases hjson

/-! ## Decimals in print -/

/-- `coefficient * 10 ^ exponent`, with the digits that `str` shows. -/
structure Decimal where
  coefficient : ℤ
  exponent : ℤ
  deriving DecidableEq

def withPoint (digits : List Char) (places : ℕ) : List Char :=
  let padded := List.replicate (places + 1 - digits.length) '0' ++ digits
  padded.take (padded.length - places) ++ (if places = 0 then [] else '.' :: padded.drop (padded.length - places))

/-- `str(Decimal)`: plain digits down to 10 ^ -6, scientific notation outside. -/
def Decimal.str (d : Decimal) : String :=
  let digits := (toString d.coefficient.natAbs).toList
  let adjusted := d.exponent + digits.length - 1
  let sign := if d.coefficient < 0 then "-" else ""
  if d.exponent ≤ 0 ∧ -6 ≤ adjusted then sign ++ String.ofList (withPoint digits d.exponent.natAbs)
  else
    let power := (if adjusted < 0 then "E-" else "E+") ++ toString adjusted.natAbs
    sign ++ String.ofList (withPoint digits (digits.length - 1)) ++ power

def roundHalfEven (x : ℚ) : ℤ :=
  let f := ⌊x⌋
  let r := x - f
  if r < 1 / 2 then f else if 1 / 2 < r then f + 1 else if f % 2 = 0 then f else f + 1

/-- The format `.2f`. -/
def fixed2 (x : ℚ) : String :=
  let cents := roundHalfEven (x * 100)
  (if x < 0 then "-" else "") ++ String.ofList (withPoint (toString cents.natAbs).toList 2)

/-! ## Plain text -/

@[simp] theorem textStorable_append (s t : String) :
    textStorable (s ++ t) = (textStorable s && textStorable t) := by
  simp [textStorable, String.toList_append]

theorem mem_withPoint {c : Char} {digits : List Char} {places : ℕ} (h : c ∈ withPoint digits places) :
    c = '0' ∨ c = '.' ∨ c ∈ digits := by
  have padded {c : Char} (hc : c ∈ List.replicate (places + 1 - digits.length) '0' ++ digits) :
      c = '0' ∨ c = '.' ∨ c ∈ digits := by
    rcases List.mem_append.mp hc with hc | hc
    · exact Or.inl (List.eq_of_mem_replicate hc)
    · exact Or.inr (Or.inr hc)
  unfold withPoint at h
  dsimp only at h
  rcases List.mem_append.mp h with h | h
  · exact padded (List.mem_of_mem_take h)
  · split at h
    · simp at h
    · rcases List.mem_cons.mp h with h | h
      · exact Or.inr (Or.inl h)
      · exact padded (List.mem_of_mem_drop h)

theorem toNat_ne_zero_of_isDigit {c : Char} (h : c.isDigit = true) : c.toNat ≠ 0 := by
  intro h0
  have h48 : 48 ≤ c.toNat := by
    simp only [Char.isDigit, Bool.and_eq_true, decide_eq_true_eq] at h
    exact h.1
  omega

@[simp] theorem textStorable_fixed2 (x : ℚ) : textStorable (fixed2 x) = true := by
  have hdigits (n : ℕ) : textStorable (String.ofList (withPoint (toString n).toList 2)) = true := by
    simp only [textStorable, String.toList_ofList, List.all_eq_true, decide_eq_true_eq]
    intro c hc
    rcases mem_withPoint hc with rfl | rfl | hc
    · decide
    · decide
    · rw [Nat.toString_eq_repr, Nat.toList_repr] at hc
      exact toNat_ne_zero_of_isDigit (Nat.isDigit_of_mem_toDigits (by decide) (by decide) hc)
  unfold fixed2
  dsimp only
  rw [textStorable_append, hdigits, Bool.and_true]
  split <;> decide

example : fixed2 (7 / 2) = "3.50" := by decide +kernel
example : (Decimal.mk 150 (-2)).str = "1.50" := by decide +kernel

end BaptistApi
