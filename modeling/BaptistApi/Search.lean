import BaptistApi.Paging

/-!
# Search by name

`list_locations` puts the user's text between two wildcards, so the text is read as a pattern.
-/

namespace BaptistApi

open BaptistApi.Calendar BaptistApi.FixedPoint BaptistApi.RowSecurity BaptistApi.Windows

/-! ## LIKE -/

/-- The characters that a pattern does not stand for. -/
def metacharacters : List Char := ['%', '_', '\\']

def Plain (p : List Char) : Prop := ∀ c ∈ p, c ∉ metacharacters

instance (p : List Char) : Decidable (Plain p) := List.decidableBAll _ p

theorem like_percent {p s : List Char} : like ('%' :: p) s = true ↔ ∃ t, t <:+ s ∧ like p t = true := by
  simp [like, List.any_eq_true]

theorem like_plain_cons {c : Char} (hc : c ∉ metacharacters) {p s : List Char} :
    like (c :: p) s = true ↔ ∃ t, s = c :: t ∧ like p t = true := by
  simp only [metacharacters, List.mem_cons, List.not_mem_nil, or_false, not_or] at hc
  obtain ⟨hpercent, hunderscore, hbackslash⟩ := hc
  cases s with
  | nil =>
    have hlike : like (c :: p) [] = false := by
      rw [like]
      · exact hpercent
      · exact hunderscore
      · exact fun h _ => hbackslash h
      · exact fun _ _ h _ => hbackslash h
    simp [hlike]
  | cons x s =>
    have hlike : like (c :: p) (x :: s) = (c == x && like p s) := by
      rw [like]
      · exact hpercent
      · exact hunderscore
      · exact fun h _ => hbackslash h
      · exact fun _ _ h _ => hbackslash h
    rw [hlike, Bool.and_eq_true, beq_iff_eq]
    constructor
    · rintro ⟨rfl, h⟩
      exact ⟨s, rfl, h⟩
    · rintro ⟨t, ht, h⟩
      cases ht
      exact ⟨rfl, h⟩

theorem like_literal {p s : List Char} (hp : Plain p) : like (p ++ ['%']) s = true ↔ p <+: s := by
  induction p generalizing s with
  | nil =>
    refine iff_of_true (like_percent.mpr ⟨[], List.nil_suffix, rfl⟩) List.nil_prefix
  | cons c p ih =>
    have hrest : Plain p := fun x hx => hp x (List.mem_cons_of_mem c hx)
    rw [List.cons_append, like_plain_cons (hp c List.mem_cons_self)]
    constructor
    · rintro ⟨t, rfl, ht⟩
      exact List.cons_prefix_cons.mpr ⟨rfl, (ih hrest).mp ht⟩
    · rintro ⟨u, rfl⟩
      exact ⟨p ++ u, rfl, (ih hrest).mpr (List.prefix_append p u)⟩

theorem like_infix {p s : List Char} (hp : Plain p) : like ('%' :: (p ++ ['%'])) s = true ↔ p <:+: s := by
  rw [like_percent]
  simp only [like_literal hp, List.infix_iff_prefix_suffix, and_comm]

/-- A text that the pattern matches, no longer than the pattern itself. -/
def matchedBy : List Char → List Char
  | [] => []
  | '%' :: p => matchedBy p
  | '_' :: p => 'x' :: matchedBy p
  -- A last backslash takes the wildcard that comes after it.
  | '\\' :: [] => ['%']
  | '\\' :: c :: p => c :: matchedBy p
  | c :: p => c :: matchedBy p

theorem not_metacharacter {c : Char} {p : List Char} (hpercent : c = '%' → False) (hunderscore : c = '_' → False)
    (hlast : c = '\\' → p = [] → False) (hescape : ∀ d q, c = '\\' → p = d :: q → False) : c ∉ metacharacters := by
  have hbackslash : c ≠ '\\' := by
    rintro rfl
    cases p with
    | nil => exact hlast rfl rfl
    | cons d q => exact hescape d q rfl rfl
  simp only [metacharacters, List.mem_cons, List.not_mem_nil, or_false, not_or]
  exact ⟨hpercent, hunderscore, hbackslash⟩

/-- The pattern `p` finds `s`, which is no longer than `p` and made of its characters, of `x` and of `%`. Only a
plain pattern is found by itself. -/
structure Matched (p s : List Char) : Prop where
  found : like (p ++ ['%']) s = true
  length : s.length ≤ p.length
  drawn : ∀ c ∈ s, c ∈ p ∨ c = 'x' ∨ c = '%'
  plain : s = p → Plain p

theorem drawn_cons {p q s : List Char} {d : Char} (hd : d ∈ q ∨ d = 'x' ∨ d = '%') (hpq : ∀ c ∈ p, c ∈ q)
    (h : ∀ c ∈ s, c ∈ p ∨ c = 'x' ∨ c = '%') : ∀ c ∈ d :: s, c ∈ q ∨ c = 'x' ∨ c = '%' := by
  intro c hc
  rcases List.mem_cons.mp hc with rfl | hc
  · exact hd
  · exact (h c hc).imp_left (hpq c)

theorem matched_matchedBy (p : List Char) : Matched p (matchedBy p) := by
  fun_induction matchedBy p with
  | case1 => exact ⟨rfl, le_rfl, fun c hc => (nomatch hc), fun _ c hc => (nomatch hc)⟩
  | case2 p ih =>
    refine ⟨like_percent.mpr ⟨_, List.suffix_rfl, ih.found⟩, ih.length.trans (Nat.le_succ _), ?_, fun h => ?_⟩
    · exact fun c hc => (ih.drawn c hc).imp_left (List.mem_cons_of_mem _)
    · have hlength := ih.length
      rw [h, List.length_cons] at hlength
      omega
  | case3 p ih =>
    refine ⟨ih.found, Nat.succ_le_succ ih.length, ?_, fun h => by simp at h⟩
    exact drawn_cons (Or.inr (Or.inl rfl)) (fun c hc => List.mem_cons_of_mem _ hc) ih.drawn
  | case4 => exact ⟨rfl, le_rfl, fun c hc => Or.inr (Or.inr (List.mem_singleton.mp hc)), fun h => by simp at h⟩
  | case5 c p ih =>
    refine ⟨by simpa [like] using ih.found, (Nat.succ_le_succ ih.length).trans (Nat.le_succ _), ?_, fun h => ?_⟩
    · exact drawn_cons (Or.inl (by simp)) (fun d hd => by simp [hd]) ih.drawn
    · have hlength := ih.length
      have heq := congrArg List.length h
      simp only [List.length_cons] at heq
      omega
  | case6 c p hpercent hunderscore hlast hescape ih =>
    have hc := not_metacharacter hpercent hunderscore hlast hescape
    refine ⟨(like_plain_cons hc).mpr ⟨_, rfl, ih.found⟩, Nat.succ_le_succ ih.length, ?_, fun h => ?_⟩
    · exact drawn_cons (Or.inl List.mem_cons_self) (fun d hd => List.mem_cons_of_mem _ hd) ih.drawn
    · intro d hd
      rcases List.mem_cons.mp hd with rfl | hd
      · exact hc
      · exact ih.plain (List.cons.inj h).2 d hd

/-! ## Letter case -/

def asciiText (s : String) : Prop := ∀ c ∈ s.toList, c.toNat < 128

instance (s : String) : Decidable (asciiText s) := List.decidableBAll _ s.toList

theorem ascii_toLower {c : Char} (hc : c.toNat < 128) :
    (c.toLower ∈ metacharacters ↔ c ∈ metacharacters) ∧ c.toLower.toLower = c.toLower ∧ c.toLower.toNat < 128 := by
  have hall : ∀ n < 128, ((Char.ofNat n).toLower ∈ metacharacters ↔ Char.ofNat n ∈ metacharacters) ∧
      (Char.ofNat n).toLower.toLower = (Char.ofNat n).toLower ∧ (Char.ofNat n).toLower.toNat < 128 := by
    decide +kernel
  have h := hall c.toNat hc
  rwa [Char.ofNat_toNat] at h

theorem toList_toLower (s : String) : s.toLower.toList = s.toList.map Char.toLower := String.toList_map

theorem plain_toLower {q : String} (hq : asciiText q) : Plain q.toLower.toList ↔ Plain q.toList := by
  unfold Plain
  rw [toList_toLower, List.forall_mem_map]
  exact forall₂_congr fun c hc => not_congr (ascii_toLower (hq c hc)).1

/-! ## The search -/

/-- The name contains `q`, in capitals or not. -/
def containsText (q : String) (l : Location) : Bool := decide (q.toLower.toList <:+: l.name.toLower.toList)

/-- Each page of the search for `q`, and its total, is of the readable locations that contain `q`. -/
def FindsSubstring (q : String) : Prop :=
  ∀ (ser : Serializer) (o : OrderByName) (ctx : RequestContext) (now : Timestamp) (db : Db) (n k : ℕ),
    (∀ l ∈ db.location, asciiText l.name) → 1 ≤ n → n ≤ 200 → k * n < 2 ^ 63 →
    askPage ser o ctx now db { q := some q } n k =
      some (pageData o ((Scope.locations ⟨tenantContext ctx now, db⟩).filter (containsText q)) n k)

theorem toList_pattern (q : String) : ("%" ++ q ++ "%").toLower.toList = '%' :: (q.toLower.toList ++ ['%']) := by
  simp [toList_toLower]

theorem ilike_plain {q name : String} (hq : Plain q.toLower.toList) :
    ilike name ("%" ++ q ++ "%") = decide (q.toLower.toList <:+: name.toLower.toList) := by
  rw [Bool.eq_iff_iff, decide_eq_true_iff, ilike, toList_pattern, like_infix hq]

theorem matchesFilters_search (q : String) (l : Location) :
    matchesFilters none { q := some q } l = ilike l.name ("%" ++ q ++ "%") := by
  simp [matchesFilters]

theorem search_accepted {q : String} {n k : ℕ} (hq : textStorable q = true) (hk : k * n < 2 ^ 63) :
    (ListParams.page { q := some q } n k).Accepted :=
  page_accepted_iff.mpr ⟨by simp, bindable_iff.mpr ⟨by simp [ListParams.page], by simpa [ListParams.page] using hq,
    by simp only [ListParams.page]; omega⟩⟩

def clinicMatching (q : String) : Db :=
  { clinic .active with
    location := [{ clinicLocation 10 "north" with name := String.ofList (matchedBy q.toLower.toList) }] }

theorem matching_name {q : String} (hq : asciiText q) :
    asciiText (String.ofList (matchedBy q.toLower.toList)) ∧
      (String.ofList (matchedBy q.toLower.toList)).toLower.toList = matchedBy q.toLower.toList := by
  have hchar {c : Char} (hc : c ∈ matchedBy q.toLower.toList) : c.toNat < 128 ∧ c.toLower = c := by
    rcases (matched_matchedBy _).drawn c hc with hc | rfl | rfl
    · rw [toList_toLower] at hc
      obtain ⟨d, hd, rfl⟩ := List.mem_map.mp hc
      exact (ascii_toLower (hq d hd)).2.symm
    · decide
    · decide
  refine ⟨fun c hc => ?_, ?_⟩
  · rw [String.toList_ofList] at hc
    exact (hchar hc).1
  · rw [toList_toLower, String.toList_ofList]
    exact (List.map_congr_left fun c hc => (hchar hc).2).trans (List.map_id _)

theorem plain_of_findsSubstring {q : String} (hq : asciiText q) (h : FindsSubstring q) : Plain q.toLower.toList := by
  obtain ⟨hascii, hlower⟩ := matching_name hq
  have hpage := h plainSerializer plainCollation.byName clinicOperator noon (clinicMatching q) 1 0
    (by simpa [clinicMatching] using hascii) le_rfl (by decide) (by decide)
  have hdata := ((askPage_eq_some (by decide)).mp hpage).2
  have htotal := Int.ofNat.inj (congrArg (fun out => out.2.total) hdata)
  obtain ⟨l, hname, htenant, hl⟩ : ∃ l : Location, l.name = String.ofList (matchedBy q.toLower.toList) ∧
      l.tenantId = clinicOperator.tenantId ∧ (clinicMatching q).location = [l] := ⟨_, rfl, rfl, rfl⟩
  have hreads (x : Location) : x ∈ Scope.locations ⟨tenantContext clinicOperator noon, clinicMatching q⟩ → x = l := by
    intro hx
    have hx := (mem_locations.mp hx).1
    rw [hl] at hx
    exact List.mem_singleton.mp hx
  have hfound : l ∈ matchingLocations clinicOperator noon (clinicMatching q) { q := some q } := by
    refine List.mem_filter.mpr ⟨(mem_locations_operator (by decide)).mpr ⟨hl ▸ List.mem_singleton_self l, htenant⟩, ?_⟩
    have hmatches := like_percent.mpr ⟨_, List.suffix_rfl, (matched_matchedBy q.toLower.toList).found⟩
    rw [← hlower, ← hname, ← toList_pattern] at hmatches
    exact (matchesFilters_search q l).trans hmatches
  rw [matchingLocations] at hfound
  obtain ⟨x, hx⟩ := List.exists_mem_of_length_pos (htotal.trans_gt (List.length_pos_of_mem hfound))
  obtain ⟨hvisible, hcontains⟩ := List.mem_filter.mp hx
  rw [hreads x hvisible, containsText, decide_eq_true_eq, hname, hlower] at hcontains
  have hlen := hcontains.length_le
  exact (matched_matchedBy _).plain (hcontains.eq_of_length (Nat.le_antisymm hlen (matched_matchedBy _).length)).symm

/-- **Search by `q` is substring search** exactly for the texts without metacharacters and without U+0000. -/
theorem finds_substring_iff {q : String} (hq : asciiText q) :
    FindsSubstring q ↔ Plain q.toList ∧ textStorable q = true := by
  constructor
  · intro h
    refine ⟨(plain_toLower hq).mp (plain_of_findsSubstring hq h), ?_⟩
    have hpage := h plainSerializer plainCollation.byName clinicOperator noon {} 1 0 (fun l hl => (nomatch hl)) le_rfl
      (by decide) (by decide)
    exact ((askPage_eq_some (by decide)).mp hpage).1.q q rfl
  · rintro ⟨hplain, hstorable⟩ ser o ctx now db n k hascii hn hmax hk
    refine (askPage_eq_some hmax).mpr ⟨search_accepted hstorable hk, ?_⟩
    congr 1
    refine List.filter_congr fun l _ => ?_
    exact ((ilike_plain ((plain_toLower hq).mpr hplain)).symm.trans (matchesFilters_search q l).symm)

theorem finds_north : FindsSubstring "Nor" := (finds_substring_iff (by decide)).mpr ⟨by decide, by decide⟩

/-- An underscore finds both locations of the clinic, and neither name has one. -/
theorem underscore_finds_all : ¬ ∀ q, asciiText q → FindsSubstring q := by
  intro h
  have hpage := h "_" (by decide) plainSerializer plainCollation.byName clinicOperator noon (clinic .active) 1 0
    (by decide +kernel) le_rfl (by decide) (by decide)
  have htotal := congrArg (fun out => out.2.total) ((askPage_eq_some (by decide)).mp hpage).2
  revert htotal
  decide +kernel

end BaptistApi
