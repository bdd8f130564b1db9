import BaptistApi.Json
import BaptistApi.Lib.RowSecurity

/-!
# The round trip of a result

Which Python values come back from a jsonb column as they went in.
-/

namespace BaptistApi

open BaptistApi.RowSecurity

def PyKey.isStr : PyKey → Bool
  | .str _ => true
  | _ => false

mutual

/-- Made of what JSON has: no tuple, no key that is not a string, nothing that `default=str` prints. -/
def PyVal.native : PyVal → Bool
  | .none => true
  | .bool _ => true
  | .int _ => true
  | .float _ => true
  | .str _ => true
  | .list xs => PyVal.nativeList xs
  | .tuple _ => false
  | .dict entries => PyVal.nativeEntries entries
  | .cycle => false
  | .other _ => false

def PyVal.nativeList : List PyVal → Bool
  | [] => true
  | x :: xs => x.native && PyVal.nativeList xs

def PyVal.nativeEntries : List (PyKey × PyVal) → Bool
  | [] => true
  | (k, x) :: rest => k.isStr && decide (k ∉ rest.map Prod.fst) && x.native && PyVal.nativeEntries rest

end

/-! ## One step of the encoder and of the column -/

theorem dumpsList_cons {levels : ℕ} {x : PyVal} {xs : List PyVal} {ts : List Json}
    (h : dumpsList levels (x :: xs) = .ok ts) :
    ∃ t ts', dumps levels x = .ok t ∧ dumpsList levels xs = .ok ts' ∧ ts = t :: ts' := by
  rw [dumpsList, bind_eq_ok] at h
  obtain ⟨t, ht, h⟩ := h
  obtain ⟨ts', hts, h⟩ := bind_eq_ok.mp h
  exact ⟨t, ts', ht, hts, (Except.ok.inj h).symm⟩

theorem dumpsEntries_cons {levels : ℕ} {k : PyKey} {x : PyVal} {rest : List (PyKey × PyVal)} {ts : List (String × Json)}
    (h : dumpsEntries levels ((k, x) :: rest) = .ok ts) :
    ∃ s t ts', k.text = .ok s ∧ dumps levels x = .ok t ∧ dumpsEntries levels rest = .ok ts' ∧ ts = (s, t) :: ts' := by
  rw [dumpsEntries, bind_eq_ok] at h
  obtain ⟨s, hs, h⟩ := h
  obtain ⟨t, ht, h⟩ := bind_eq_ok.mp h
  obtain ⟨ts', hts, h⟩ := bind_eq_ok.mp h
  exact ⟨s, t, ts', hs, ht, hts, (Except.ok.inj h).symm⟩

theorem dumps_list {levels : ℕ} {xs : List PyVal} {t : Json} (h : dumps levels (.list xs) = .ok t) :
    ∃ below ts, dumpsList below xs = .ok ts ∧ t = .arr ts := by
  rw [dumps, bind_eq_ok] at h
  obtain ⟨below, -, h⟩ := h
  obtain ⟨ts, hts, h⟩ := bind_eq_ok.mp h
  exact ⟨below, ts, hts, (Except.ok.inj h).symm⟩

theorem dumps_dict {levels : ℕ} {entries : List (PyKey × PyVal)} {t : Json} (h : dumps levels (.dict entries) = .ok t) :
    ∃ below ts, dumpsEntries below entries = .ok ts ∧ t = .obj ts := by
  rw [dumps, bind_eq_ok] at h
  obtain ⟨below, -, h⟩ := h
  obtain ⟨ts, hts, h⟩ := bind_eq_ok.mp h
  exact ⟨below, ts, hts, (Except.ok.inj h).symm⟩

theorem dumps_int {levels : ℕ} {n : ℤ} {t : Json} (h : dumps levels (.int n) = .ok t) : t = .int n := by
  rw [dumps] at h
  split at h
  · exact (Except.ok.inj h).symm
  · cases h

theorem dumps_other {levels : ℕ} {s : String} {t : Json} (h : dumps levels (.other (some s)) = .ok t) : t = .str s := by
  rw [dumps, bind_eq_ok] at h
  obtain ⟨-, -, h⟩ := h
  exact (Except.ok.inj h).symm

theorem dumps_cycle (levels : ℕ) {t : Json} : dumps levels .cycle ≠ .ok t := by
  intro h
  rw [dumps, bind_eq_ok] at h
  obtain ⟨-, -, h⟩ := h
  cases h

theorem jsonbList_cons {t : Json} {ts js : List Json} (h : Json.jsonbList (t :: ts) = some js) :
    ∃ j js', t.jsonb = some j ∧ Json.jsonbList ts = some js' ∧ js = j :: js' := by
  simp only [Json.jsonbList, Option.bind_eq_bind, Option.bind_eq_some_iff, Option.some.injEq] at h
  obtain ⟨j, hj, js', hjs, rfl⟩ := h
  exact ⟨j, js', hj, hjs, rfl⟩

theorem jsonbEntries_cons {s : String} {t : Json} {ts js : List (String × Json)}
    (h : Json.jsonbEntries ((s, t) :: ts) = some js) :
    ∃ j js', t.jsonb = some j ∧ Json.jsonbEntries ts = some js' ∧ js = (s, j) :: js' := by
  rw [Json.jsonbEntries] at h
  split at h
  · simp only [Option.bind_eq_bind, Option.bind_eq_some_iff, Option.some.injEq] at h
    obtain ⟨j, hj, js', hjs, rfl⟩ := h
    exact ⟨j, js', hj, hjs, rfl⟩
  · simp at h

/-! ## Keys -/

theorem PyKey.str_of_text {k : PyKey} {s : String} (h : k.text = .ok s) (hk : k.isStr = true) : k = .str s := by
  unfold PyKey.text at h
  split at h <;> simp_all [PyKey.isStr]

theorem isStr_of_native {entries : List (PyKey × PyVal)} (h : PyVal.nativeEntries entries = true) {k : PyKey}
    (hk : k ∈ entries.map Prod.fst) : k.isStr = true := by
  induction entries with
  | nil => simp at hk
  | cons entry rest ih =>
    simp only [PyVal.nativeEntries, Bool.and_eq_true] at h
    rcases List.mem_cons.mp hk with rfl | hk
    · exact h.1.1.1
    · exact ih h.2 hk

theorem keys_forall₂ {levels : ℕ} {entries : List (PyKey × PyVal)} {ts js : List (String × Json)}
    (ht : dumpsEntries levels entries = .ok ts) (hj : Json.jsonbEntries ts = some js) :
    (entries.map Prod.fst).Forall₂ (fun k s => k.text = .ok s) (js.map Prod.fst) := by
  induction entries generalizing ts js with
  | nil =>
    cases ht
    cases hj
    exact .nil
  | cons entry rest ih =>
    obtain ⟨s, t, ts', hs, -, hts, rfl⟩ := dumpsEntries_cons ht
    obtain ⟨j, js', -, hjs, rfl⟩ := jsonbEntries_cons hj
    exact .cons hs (ih hts hjs)

theorem length_loadsEntries (js : List (String × Json)) : (Json.loadsEntries js).length = js.length := by
  induction js with
  | nil => rfl
  | cons e js ih => rw [Json.loadsEntries, List.length_cons, List.length_cons, ih]

theorem length_lastOfKey_le (js : List (String × Json)) : (lastOfKey js).length ≤ js.length := by
  induction js with
  | nil => exact Nat.le_refl 0
  | cons e js ih =>
    rw [lastOfKey, List.length_cons]
    split
    · omega
    · rw [List.length_cons]
      omega

theorem any_key_iff {rest : List (PyKey × PyVal)} {js : List (String × Json)} {s : String}
    (h : (rest.map Prod.fst).Forall₂ (fun k s => k.text = .ok s) (js.map Prod.fst)) :
    (js.any fun e => e.1 == s) = true ↔ ∃ k ∈ rest.map Prod.fst, k.text = .ok s := by
  have hany : (js.any fun e => e.1 == s) = true ↔ s ∈ js.map Prod.fst := by
    simp only [List.any_eq_true, beq_iff_eq, List.mem_map]
  rw [hany]
  generalize rest.map Prod.fst = ks, js.map Prod.fst = ss at h
  induction h with
  | nil => simp
  | cons hk _ ih => simp [hk, ih, eq_comm]

mutual

/-- A value comes back as it was exactly when it is native. -/
theorem loads_iff : ∀ (v : PyVal) {levels : ℕ} {t j : Json}, dumps levels v = .ok t → t.jsonb = some j →
    (j.loads = v ↔ v.native = true)
  | .none, _, _, _, ht, hj => by cases ht; cases hj; simp [Json.loads, PyVal.native]
  | .bool b, _, _, _, ht, hj => by cases ht; cases hj; simp [Json.loads, PyVal.native]
  | .int n, _, _, _, ht, hj => by cases dumps_int ht; cases hj; simp [Json.loads, PyVal.native]
  | .float f, _, _, _, ht, hj => by
    cases ht
    cases f <;> cases hj
    simp [Json.loads, PyVal.native]
  | .str s, _, _, _, ht, hj => by
    cases ht
    rw [Json.jsonb] at hj
    split at hj <;> cases hj
    simp [Json.loads, PyVal.native]
  | .list xs, _, _, _, ht, hj => by
    obtain ⟨_, ts, hts, rfl⟩ := dumps_list ht
    simp only [Json.jsonb, Option.bind_eq_bind, Option.bind_eq_some_iff, Option.some.injEq] at hj
    obtain ⟨js, hjs, rfl⟩ := hj
    rw [Json.loads, PyVal.native, PyVal.list.injEq]
    exact loadsList_iff xs hts hjs
  | .tuple xs, _, _, _, ht, hj => by
    rw [dumps, bind_eq_ok] at ht
    obtain ⟨_, -, ht⟩ := ht
    obtain ⟨ts, -, ht⟩ := bind_eq_ok.mp ht
    cases ht
    simp only [Json.jsonb, Option.bind_eq_bind, Option.bind_eq_some_iff, Option.some.injEq] at hj
    obtain ⟨js, hjs, rfl⟩ := hj
    simp [Json.loads, PyVal.native]
  | .dict entries, _, _, _, ht, hj => by
    obtain ⟨_, ts, hts, rfl⟩ := dumps_dict ht
    simp only [Json.jsonb, Option.bind_eq_bind, Option.bind_eq_some_iff, Option.some.injEq] at hj
    obtain ⟨js, hjs, rfl⟩ := hj
    rw [Json.loads, PyVal.native, PyVal.dict.injEq]
    exact loadsEntries_iff entries hts hjs
  | .cycle, _, _, _, ht, _ => absurd ht (dumps_cycle _)
  | .other (some s), _, _, _, ht, hj => by
    cases dumps_other ht
    rw [Json.jsonb] at hj
    split at hj <;> cases hj
    simp [Json.loads, PyVal.native]
  | .other none, _, _, _, ht, _ => by cases ht

theorem loadsList_iff : ∀ (xs : List PyVal) {levels : ℕ} {ts js : List Json}, dumpsList levels xs = .ok ts →
    Json.jsonbList ts = some js → (Json.loadsList js = xs ↔ PyVal.nativeList xs = true)
  | [], _, _, _, ht, hj => by cases ht; cases hj; simp [Json.loadsList, PyVal.nativeList]
  | x :: xs, _, _, _, ht, hj => by
    obtain ⟨t, ts', hx, hts, rfl⟩ := dumpsList_cons ht
    obtain ⟨j, js', hjx, hjs, rfl⟩ := jsonbList_cons hj
    rw [Json.loadsList, PyVal.nativeList, List.cons.injEq, Bool.and_eq_true, loads_iff x hx hjx,
      loadsList_iff xs hts hjs]

theorem loadsEntries_iff : ∀ (entries : List (PyKey × PyVal)) {levels : ℕ} {ts js : List (String × Json)},
    dumpsEntries levels entries = .ok ts → Json.jsonbEntries ts = some js →
    (Json.loadsEntries (lastOfKey js) = entries ↔ PyVal.nativeEntries entries = true)
  | [], _, _, _, ht, hj => by cases ht; cases hj; simp [Json.loadsEntries, lastOfKey, PyVal.nativeEntries]
  | (k, x) :: rest, _, _, _, ht, hj => by
    obtain ⟨s, t, ts', hs, hx, hts, rfl⟩ := dumpsEntries_cons ht
    obtain ⟨j, js', hjx, hjs, rfl⟩ := jsonbEntries_cons hj
    have hkeys := keys_forall₂ hts hjs
    have hrest := loadsEntries_iff rest hts hjs
    have hval := loads_iff x hx hjx
    simp only [PyVal.nativeEntries, Bool.and_eq_true, decide_eq_true_eq]
    rw [lastOfKey]
    split
    · -- The entry is lost, so what comes back is too short.
      rename_i hdup
      constructor
      · intro h
        have hlen := congrArg List.length h
        have hjs := hkeys.length_eq
        have hle := length_lastOfKey_le js'
        rw [length_loadsEntries, List.length_cons] at hlen
        rw [List.length_map, List.length_map] at hjs
        omega
      · rintro ⟨⟨⟨hstr, hnew⟩, -⟩, hnative⟩
        obtain ⟨k', hk', htext⟩ := (any_key_iff hkeys).mp hdup
        rw [PyKey.str_of_text hs hstr] at hnew
        rw [PyKey.str_of_text htext (isStr_of_native hnative hk')] at hk'
        exact absurd hk' hnew
    · rename_i hfresh
      rw [any_key_iff hkeys] at hfresh
      rw [Json.loadsEntries, List.cons.injEq, Prod.mk.injEq, hval, hrest]
      constructor
      · rintro ⟨⟨rfl, hx⟩, hnative⟩
        exact ⟨⟨⟨rfl, fun hk => hfresh ⟨_, hk, rfl⟩⟩, hx⟩, hnative⟩
      · rintro ⟨⟨⟨hstr, -⟩, hx⟩, hnative⟩
        exact ⟨⟨(PyKey.str_of_text hs hstr).symm, hx⟩, hnative⟩

end

theorem Stack.loads_iff {stack : Stack} {v : PyVal} {text j : Json} (h : stack.dumps v = .ok text)
    (hjson : text.jsonb = some j) : j.loads = v ↔ v.native = true :=
  BaptistApi.loads_iff v (Stack.dumps_levels h hjson) hjson

end BaptistApi
