import BaptistApi.Answers
import BaptistApi.Lib.Windows
import Mathlib.Data.List.Sort

/-!
# Walking through the pages

`GET /v1/locations` at offset 0, then one page further each time, until `page.has_more` is false. Every
request is a statement of its own, and the database orders equal names anew for each.
-/

namespace BaptistApi

open BaptistApi.Calendar BaptistApi.FixedPoint BaptistApi.RowSecurity BaptistApi.Windows

/-- The order of names in the database. -/
structure Collation where
  le : String → String → Bool
  total : ∀ a b, le a b = true ∨ le b a = true
  trans : ∀ a b c, le a b = true → le b c = true → le a c = true

namespace Collation

variable (c : Collation)

def rowLe (l l' : Location) : Bool := c.le l.name l'.name

theorem rowLe_refl (l : Location) : c.rowLe l l = true := (c.total _ _).elim id id

theorem rowLe_trans (l₁ l₂ l₃ : Location) (h : c.rowLe l₁ l₂ = true) (h' : c.rowLe l₂ l₃ = true) :
    c.rowLe l₁ l₃ = true := c.trans _ _ _ h h'

instance : Std.Total fun l l' => c.rowLe l l' = true := ⟨fun l l' => c.total l.name l'.name⟩
instance : IsTrans Location fun l l' => c.rowLe l l' = true := ⟨c.rowLe_trans⟩

/-- A choice among equal names. -/
def byName : OrderByName where
  le := c.le
  sort rows := rows.insertionSort fun l l' => c.rowLe l l' = true
  perm := List.perm_insertionSort _
  sorted rows := List.pairwise_insertionSort (fun l l' => c.rowLe l l' = true) rows

/-- Another one, for the rows of one query. -/
noncomputable def arranging {rows s : List Location} (h : Arrangement c.rowLe rows s) : OrderByName where
  le := c.le
  sort rows' := open Classical in if rows' = rows then s else c.byName.sort rows'
  perm rows' := by
    split
    · rename_i heq
      rw [heq]
      exact h.perm
    · exact c.byName.perm rows'
  sorted rows' := by
    split
    · exact h.sorted
    · exact c.byName.sorted rows'

end Collation

theorem arrangement_of_order {c : Collation} {o : OrderByName} (h : o.le = c.le) (rows : List Location) :
    Arrangement c.rowLe rows (o.sort rows) :=
  ⟨o.perm rows, by simpa only [Collation.rowLe, h] using o.sorted rows⟩

/-! ## One page -/

def ListParams.page (p : ListParams) (n k : ℕ) : ListParams := { p with limit := n, offset := (k * n : ℕ) }

def matchingLocations (ctx : RequestContext) (now : Timestamp) (db : Db) (p : ListParams) : List Location :=
  (Scope.locations ⟨tenantContext ctx now, db⟩).filter (matchesFilters (p.fleet.map FleetKind.ofText?).join p)

theorem matchingLocations_now (ctx : RequestContext) (now now' : Timestamp) (db : Db) (p : ListParams) :
    matchingLocations ctx now db p = matchingLocations ctx now' db p := rfl

theorem matchingLocations_sublist (ctx : RequestContext) (now : Timestamp) (db : Db) (p : ListParams) :
    (matchingLocations ctx now db p).Sublist db.location := List.filter_sublist.trans (visible_sublist _ _ _ _)

def pageData (o : OrderByName) (rows : List Location) (n k : ℕ) : List LocationSummary × PageInfo :=
  ((window (o.sort rows) n k).map LocationSummary.fromModel, buildPage n (k * n : ℕ) rows.length)

/-- The page of the route, in a session that is bound: a role with U+0000 does not get so far. -/
def askPage (ser : Serializer) (o : OrderByName) (ctx : RequestContext) (now : Timestamp) (db : Db) (p : ListParams)
    (n k : ℕ) : Option (List LocationSummary × PageInfo) :=
  match listLocations ser o ctx ⟨tenantContext ctx now, db⟩ (p.page n k) none with
  | .ok data (some page) _ => some (data, page)
  | _ => none

section Page

variable {ser : Serializer} {o : OrderByName} {ctx : RequestContext} {now : Timestamp} {db : Db} {p : ListParams}
  {n k : ℕ}

theorem knownFleet_iff : (∀ f ∈ p.fleet, f ∈ ["hospital", "clinic"]) ↔ p.fleet.map FleetKind.ofText? ≠ some none := by
  simp only [← isSome_fleetKind]
  cases p.fleet with
  | none => simp
  | some f => simp [Option.ne_none_iff_exists']

theorem page_accepted_iff : (p.page n k).Accepted ↔
    p.fleet.map FleetKind.ofText? ≠ some none ∧ (p.page n k).bindable = true := by
  rw [← knownFleet_iff, bindable_iff]
  constructor
  · rintro ⟨-, hoffset, hfleet, hstatus, hq⟩
    exact ⟨hfleet, hstatus, hq, hoffset⟩
  · rintro ⟨hfleet, hstatus, hq, hoffset⟩
    exact ⟨Int.natCast_nonneg n, hoffset, hfleet, hstatus, hq⟩

theorem askPage_eq_some (hn : n ≤ 200) {out : List LocationSummary × PageInfo} :
    askPage ser o ctx now db p n k = some out ↔
      (p.page n k).Accepted ∧ out = pageData o (matchingLocations ctx now db p) n k := by
  have hin : ¬ (200 < (p.page n k).limit ∨ (p.page n k).offset < 0) := by
    simp only [ListParams.page]
    omega
  have hlimit : ¬ (p.page n k).limit < 0 := by
    simp only [ListParams.page]
    omega
  have hrows (fleet : Option FleetKind) (hb : (p.page n k).bindable = true) :
      listRows o ⟨tenantContext ctx now, db⟩ fleet (p.page n k) =
        some (window (o.sort ((Scope.locations ⟨tenantContext ctx now, db⟩).filter (matchesFilters fleet p))) n k,
          ((Scope.locations ⟨tenantContext ctx now, db⟩).filter (matchesFilters fleet p)).length) := by
    unfold listRows
    rw [if_neg (by simp [hlimit, hb])]
    rfl
  have hnone (fleet : Option FleetKind) (hb : ¬ (p.page n k).bindable = true) :
      listRows o ⟨tenantContext ctx now, db⟩ fleet (p.page n k) = none := by
    unfold listRows
    rw [if_pos (Or.inr (by simpa using hb))]
  have hfleet : (p.page n k).fleet = p.fleet := rfl
  rw [page_accepted_iff]
  unfold askPage listLocations matchingLocations
  rw [if_neg hin, hfleet]
  by_cases hb : (p.page n k).bindable = true
  · match p.fleet.map FleetKind.ofText? with
    | some none => simp
    | none =>
      simp only [hrows _ hb]
      exact ⟨fun h => ⟨⟨by simp, hb⟩, (Option.some.inj h).symm⟩, fun h => congrArg some h.2.symm⟩
    | some (some f) =>
      simp only [hrows _ hb]
      exact ⟨fun h => ⟨⟨by simp, hb⟩, (Option.some.inj h).symm⟩, fun h => congrArg some h.2.symm⟩
  · match p.fleet.map FleetKind.ofText? with
    | some none => simp
    | none => simp [hnone _ hb, hb]
    | some (some f) => simp [hnone _ hb, hb]

end Page

/-! ## The walk -/

section Walk

variable (ser : Serializer) (orders : ℕ → OrderByName) (ctx : RequestContext) (times : ℕ → Timestamp) (db : Db)
  (p : ListParams) (n : ℕ)

/-- From page `k` on, until `page.has_more` is false. -/
def walk : ℕ → ℕ → Option (List (List LocationSummary × PageInfo))
  | 0, _ => none
  | fuel + 1, k => do
    let out ← askPage ser (orders k) ctx (times k) db p n k
    if out.2.hasMore then return out :: (← walk fuel (k + 1)) else return [out]

/-- The walk ends, and has shown each matching location once and the right total on each page. -/
def VisitsOnce : Prop :=
  ∃ fuel pages, walk ser orders ctx times db p n fuel 0 = some pages ∧
    (pages.flatMap Prod.fst).Perm ((matchingLocations ctx (times 0) db p).map LocationSummary.fromModel) ∧
    ∀ out ∈ pages, out.2.total = (matchingLocations ctx (times 0) db p).length

end Walk

def lastPage (n total : ℕ) : ℕ := (total - 1) / n

section Walk

variable {ser : Serializer} {orders : ℕ → OrderByName} {ctx : RequestContext} {times : ℕ → Timestamp} {db : Db}
  {p : ListParams} {n : ℕ}

theorem hasMore_iff (hn : 1 ≤ n) (o : OrderByName) (rows : List Location) (k : ℕ) :
    (pageData o rows n k).2.hasMore = true ↔ k < lastPage n rows.length := by
  have hcast : ((k * n : ℕ) : ℤ) + n < rows.length ↔ (k + 1) * n < rows.length := by
    rw [Nat.succ_mul]
    omega
  simp only [pageData, buildPage, decide_eq_true_eq, hcast, lastPage]
  have hpos : 0 < (k + 1) * n := Nat.mul_pos (by omega) (by omega)
  have hdiv : k < (rows.length - 1) / n ↔ (k + 1) * n ≤ rows.length - 1 :=
    Nat.le_div_iff_mul_le (by omega)
  rw [hdiv]
  omega

theorem walk_cases (hn : 1 ≤ n ∧ n ≤ 200) {rows : List Location} (hrows : rows = matchingLocations ctx (times 0) db p)
    {fuel k : ℕ} {pages : List (List LocationSummary × PageInfo)} (hk : k ≤ lastPage n rows.length)
    (h : walk ser orders ctx times db p n fuel k = some pages) :
    (∀ j, k ≤ j → j ≤ lastPage n rows.length → (p.page n j).Accepted) ∧
      pages = (List.range' k (lastPage n rows.length + 1 - k)).map fun j => pageData (orders j) rows n j := by
  induction fuel generalizing k pages with
  | zero => cases h
  | succ fuel ih =>
    obtain ⟨out, hout, h⟩ := Option.bind_eq_some_iff.mp h
    obtain ⟨haccepted, hdata⟩ := (askPage_eq_some hn.2).mp hout
    rw [matchingLocations_now ctx (times k) (times 0), ← hrows] at hdata
    subst hdata
    by_cases hmore : (pageData (orders k) rows n k).2.hasMore = true
    · rw [if_pos hmore] at h
      obtain ⟨rest, hrest, hpages⟩ := Option.bind_eq_some_iff.mp h
      rw [hasMore_iff hn.1] at hmore
      obtain ⟨hall, rfl⟩ := ih hmore hrest
      cases hpages
      refine ⟨fun j hj hlast => ?_, ?_⟩
      · rcases Nat.lt_or_eq_of_le hj with hlt | rfl
        · exact hall j hlt hlast
        · exact haccepted
      · rw [show lastPage n rows.length + 1 - k = lastPage n rows.length + 1 - (k + 1) + 1 by omega, List.range'_succ,
          List.map_cons]
    · rw [if_neg hmore] at h
      cases h
      rw [hasMore_iff hn.1] at hmore
      obtain rfl : k = lastPage n rows.length := by omega
      refine ⟨fun j hj hlast => Nat.le_antisymm hj hlast ▸ haccepted, ?_⟩
      rw [Nat.add_sub_cancel_left]
      rfl

theorem walk_ends (hn : 1 ≤ n ∧ n ≤ 200) {rows : List Location} (hrows : rows = matchingLocations ctx (times 0) db p)
    {m k : ℕ} (hk : k + m = lastPage n rows.length)
    (hall : ∀ j, k ≤ j → j ≤ lastPage n rows.length → (p.page n j).Accepted) :
    ∃ pages, walk ser orders ctx times db p n (m + 1) k = some pages := by
  have hpage (k : ℕ) (h : (p.page n k).Accepted) :
      askPage ser (orders k) ctx (times k) db p n k = some (pageData (orders k) rows n k) := by
    rw [askPage_eq_some hn.2, matchingLocations_now ctx (times k) (times 0), ← hrows]
    exact ⟨h, rfl⟩
  induction m generalizing k with
  | zero =>
    have hlast : ¬ (pageData (orders k) rows n k).2.hasMore = true := by
      rw [hasMore_iff hn.1]
      omega
    exact ⟨_, Option.bind_eq_some_iff.mpr ⟨_, hpage k (hall k le_rfl (by omega)), if_neg hlast⟩⟩
  | succ m ih =>
    have hmore : (pageData (orders k) rows n k).2.hasMore = true := by
      rw [hasMore_iff hn.1]
      omega
    obtain ⟨rest, hrest⟩ := ih (k := k + 1) (by omega) fun j hj => hall j (by omega)
    refine ⟨pageData (orders k) rows n k :: rest, Option.bind_eq_some_iff.mpr
      ⟨_, hpage k (hall k le_rfl (by omega)), ?_⟩⟩
    rw [if_pos hmore]
    exact Option.bind_eq_some_iff.mpr ⟨rest, hrest, rfl⟩

def shown (orders : ℕ → OrderByName) (rows : List Location) (n : ℕ) : List Location :=
  (List.range (lastPage n rows.length + 1)).flatMap fun k => window ((orders k).sort rows) n k

theorem visitsOnce_iff (hn : 1 ≤ n ∧ n ≤ 200) {rows : List Location}
    (hrows : rows = matchingLocations ctx (times 0) db p) :
    VisitsOnce ser orders ctx times db p n ↔ (∀ k, k ≤ lastPage n rows.length → (p.page n k).Accepted) ∧
      ((shown orders rows n).map LocationSummary.fromModel).Perm (rows.map LocationSummary.fromModel) := by
  have hdata : ((List.range (lastPage n rows.length + 1)).map fun k => pageData (orders k) rows n k).flatMap Prod.fst =
      (shown orders rows n).map LocationSummary.fromModel := by
    simp [shown, List.flatMap_map, List.map_flatMap, pageData]
  have hrange (k : ℕ) : List.range' 0 (k + 1 - 0) = List.range (k + 1) := by rw [List.range_eq_range', Nat.sub_zero]
  unfold VisitsOnce
  rw [← hrows]
  constructor
  · rintro ⟨fuel, pages, hwalk, hperm, -⟩
    obtain ⟨hall, rfl⟩ := walk_cases hn hrows (Nat.zero_le _) hwalk
    rw [hrange, hdata] at hperm
    exact ⟨fun k => hall k (Nat.zero_le k), hperm⟩
  · rintro ⟨hall, hperm⟩
    obtain ⟨pages, hwalk⟩ := @walk_ends ser orders _ _ _ _ _ hn _ hrows _ _ (Nat.zero_add _) fun j _ => hall j
    obtain ⟨-, hpages⟩ := walk_cases hn hrows (Nat.zero_le _) hwalk
    rw [hrange] at hpages
    refine ⟨_, pages, hwalk, by rwa [hpages, hdata], fun out hout => ?_⟩
    rw [hpages] at hout
    obtain ⟨k, -, rfl⟩ := List.mem_map.mp hout
    rfl

theorem length_le_lastPage (hn : 1 ≤ n) (total : ℕ) : total ≤ (lastPage n total + 1) * n := by
  have hdiv := Nat.div_add_mod (total - 1) n
  have hmod := Nat.mod_lt (total - 1) (show n > 0 by omega)
  rw [lastPage, Nat.succ_mul, Nat.mul_comm]
  omega

theorem shown_perm {c : Collation} (hn : 1 ≤ n) {rows : List Location} (ho : ∀ k, (orders k).le = c.le)
    (h : ∀ k, ¬ Splits c.rowLe rows (k * n)) : (shown orders rows n).Perm rows := by
  have harranged (k : ℕ) := arrangement_of_order (ho k) rows
  refine (windows_perm harranged c.rowLe_refl h _).trans ?_
  rw [List.take_of_length_le ((harranged _).length_eq.trans_le (length_le_lastPage hn rows.length))]
  exact (harranged _).perm

theorem mem_window_last {A B : List Location} {x : Location} {k : ℕ} (hlen : A.length + 1 = (k + 1) * n) (hn : 1 ≤ n) :
    x ∈ window (A ++ x :: B) n k := by
  rw [Nat.succ_mul] at hlen
  have hdrop : (A.drop (k * n)).length = n - 1 := by
    rw [List.length_drop]
    omega
  rw [window, List.drop_append_of_le_length (by omega), List.take_append, hdrop, show n - (n - 1) = 1 by omega]
  simp

theorem mem_window_first {A B : List Location} {x : Location} {k : ℕ} (hlen : A.length = k * n) (hn : 1 ≤ n) :
    x ∈ window (A ++ x :: B) n k := by
  obtain ⟨m, rfl⟩ : ∃ m, n = m + 1 := ⟨n - 1, by omega⟩
  rw [window, List.drop_left' hlen]
  simp

/-- Two orders that differ in one tie, before and after the cut that goes through it, show a row twice. -/
theorem shown_twice {c : Collation} (hn : 1 ≤ n) {rows : List Location} {k : ℕ} (h : Splits c.rowLe rows (k * n)) :
    ∃ orders : ℕ → OrderByName, (∀ k, (orders k).le = c.le) ∧
      ∀ {κ : Type} (key : Location → κ), ¬ ((shown orders rows n).map key).Nodup := by
  have hbase : Arrangement c.rowLe rows (c.byName.sort rows) := arrangement_of_order rfl rows
  obtain ⟨A, x, y, B, hs, hlen, hswap⟩ := hbase.swap c.rowLe_trans h
  obtain ⟨k, rfl⟩ : ∃ j, k = j + 1 := by
    refine ⟨k - 1, (Nat.sub_add_cancel (Nat.one_le_iff_ne_zero.mpr ?_)).symm⟩
    rintro rfl
    rw [Nat.zero_mul] at h
    exact not_splits_zero h
  have hk : k + 1 ≤ lastPage n rows.length := by
    have hlt : (k + 1) * n < rows.length := not_le.mp fun hle => not_splits_length hle h
    exact (Nat.le_div_iff_mul_le (by omega)).mpr (by omega)
  let orders (j : ℕ) : OrderByName := if j ≤ k then c.byName else c.arranging hswap
  refine ⟨orders, fun j => ?_, fun key hnodup => ?_⟩
  · dsimp only [orders]
    split <;> rfl
  · have hbefore : (orders k).sort rows = A ++ x :: y :: B := by rw [← hs]; simp [orders]
    have hafter : (orders (k + 1)).sort rows = (A ++ [y]) ++ x :: B := by simp [orders, Collation.arranging]
    have hx : x ∈ window ((orders k).sort rows) n k := hbefore ▸ mem_window_last hlen hn
    have hx' : x ∈ window ((orders (k + 1)).sort rows) n (k + 1) := hafter ▸ mem_window_first (by simpa using hlen) hn
    rw [shown, List.map_flatMap, List.nodup_flatMap] at hnodup
    have hdisjoint := List.pairwise_iff_getElem.mp hnodup.2 k (k + 1) (by simp; omega) (by simp; omega) (by omega)
    simp only [List.getElem_range, Function.onFun] at hdisjoint
    exact hdisjoint (List.mem_map_of_mem hx) (List.mem_map_of_mem hx')

end Walk

/-- **Paging visits each location once**, however the database orders equal names, exactly when its requests are
accepted and no page ends between two locations whose names are equal in the order. -/
theorem paging_visits_once_iff (ser : Serializer) (c : Collation) (ctx : RequestContext) (times : ℕ → Timestamp)
    {db : Db} (hdb : constraintsOk db) (p : ListParams) {n : ℕ} (hn : 1 ≤ n ∧ n ≤ 200) :
    (∀ orders : ℕ → OrderByName, (∀ k, (orders k).le = c.le) → VisitsOnce ser orders ctx times db p n) ↔
      (∀ k, k ≤ lastPage n (matchingLocations ctx (times 0) db p).length → (p.page n k).Accepted) ∧
        ∀ k, ¬ Splits c.rowLe (matchingLocations ctx (times 0) db p) (k * n) := by
  have hslugs : ((matchingLocations ctx (times 0) db p).map (·.slug)).Nodup := by
    have hnodup := (location_slugs_nodup hdb).sublist ((matchingLocations_sublist ctx (times 0) db p).map _)
    refine List.Nodup.of_map (fun slug => (ctx.tenantId, slug)) ?_
    rw [List.map_map]
    refine (List.map_congr_left fun l hl => ?_) ▸ hnodup
    rw [(mem_locations.mp (List.mem_of_mem_filter hl)).2.1]
    rfl
  constructor
  · intro h
    refine ⟨((visitsOnce_iff hn rfl).mp (h (fun _ => c.byName) fun _ => rfl)).1, fun k hk => ?_⟩
    obtain ⟨orders, ho, htwice⟩ := shown_twice hn.1 hk
    have hperm := ((visitsOnce_iff hn rfl).mp (h orders ho)).2.map LocationSummary.slug
    rw [List.map_map, List.map_map] at hperm
    exact htwice _ (hperm.nodup_iff.mpr hslugs)
  · rintro ⟨hall, hsplits⟩ orders ho
    exact (visitsOnce_iff hn rfl).mpr ⟨hall, (shown_perm hn.1 ho hsplits).map _⟩

def plainCollation : Collation where
  le a b := decide (a ≤ b)
  total a b := by simpa using le_total a b
  trans a b c hab hbc := by
    rw [decide_eq_true_eq] at hab hbc ⊢
    exact le_trans hab hbc

theorem paging_visits_once_clinic :
    VisitsOnce plainSerializer (fun _ => plainCollation.byName) clinicOperator (fun _ => noon) (clinic .active) {} 1 := by
  have hrows : (matchingLocations clinicOperator noon (clinic .active) {}).length = 2 := by decide +kernel
  refine (paging_visits_once_iff plainSerializer plainCollation clinicOperator (fun _ => noon) (by decide +kernel) {}
    (by decide)).mpr ⟨fun k hk => ?_, fun k => ?_⟩ _ fun _ => rfl
  · have hk : k ≤ 1 := by rwa [hrows] at hk
    refine page_accepted_iff.mpr ⟨by simp, bindable_iff.mpr ⟨by simp [ListParams.page], by simp [ListParams.page], ?_⟩⟩
    simp only [ListParams.page]
    omega
  · match k with
    | 0 => exact not_splits_zero
    | 1 => decide +kernel
    | k + 2 => exact not_splits_length (by rw [hrows]; omega)

/-- Equal names in the order of the table, or against it. -/
def eitherWay (k : ℕ) : OrderByName where
  le := plainCollation.le
  sort rows := plainCollation.byName.sort (if k % 2 = 0 then rows else rows.reverse)
  perm rows := by
    refine (plainCollation.byName.perm _).trans ?_
    split
    · rfl
    · exact List.reverse_perm rows
  sorted _ := plainCollation.byName.sorted _

def twins : Db :=
  { clinic .active with location := (clinic .active).location.map fun l => { l with name := "Clinic" } }

theorem paging_shows_twin_twice :
    ¬ ∀ (ser : Serializer) (c : Collation) (ctx : RequestContext) (times : ℕ → Timestamp) (db : Db) (p : ListParams)
      (n : ℕ) (orders : ℕ → OrderByName), constraintsOk db → 1 ≤ n ∧ n ≤ 200 → (∀ k, (orders k).le = c.le) →
      VisitsOnce ser orders ctx times db p n := by
  intro h
  have hvisits := h plainSerializer plainCollation clinicOperator (fun _ => noon) twins {} 1 eitherWay
    (by decide +kernel) (by decide) fun _ => rfl
  have hperm := ((visitsOnce_iff (by decide) rfl).mp hvisits).2.map LocationSummary.slug
  revert hperm
  decide +kernel

end BaptistApi
