import BaptistApi.Api
import BaptistApi.Paging

/-!
# Walks among writers

The pages of `GET /v1/locations` are asked for one after another, while other requests are served in between. A
page takes two statements, the count and the rows, and each of them sees what has been committed by then.
-/

namespace BaptistApi

open BaptistApi.Calendar BaptistApi.FixedPoint BaptistApi.RowSecurity BaptistApi.Windows

/-! ## What no request rewrites -/

/-- The columns of a location that stay as they are once it is there. -/
structure Place where
  id : Uuid
  tenantId : Uuid
  slug : String
  name : String
  fleet : Option FleetKind

def Location.place (l : Location) : Place :=
  { id := l.id, tenantId := l.tenantId, slug := l.slug, name := l.name, fleet := l.fleet }

theorem place_apply (s : LocationSet) (now : Timestamp) (l : Location) : (s.apply now l).place = l.place := rfl

theorem Arrival.next_places {db : Db} (hdb : constraintsOk db) (a : Arrival) :
    db.location.map Location.place <+: (a.next db).location.map Location.place := by
  have h := a.next_cases hdb
  generalize a.next db = db' at h
  cases h with
  | none => exact List.prefix_refl _
  | @added _ _ r =>
    change _ <+: (db.location ++ [r]).map Location.place
    rw [List.map_append]
    exact List.prefix_append _ _
  | @rewritten _ _ l s =>
    have hsame : (db.rewriteLocation l.id (s.apply a.now)).location.map Location.place =
        db.location.map Location.place := by
      rw [Db.location_rewriteLocation, List.map_map]
      refine List.map_congr_left fun r _ => ?_
      rw [Function.comp_apply]
      split
      · exact place_apply s a.now r
      · rfl
    rw [hsame]

/-! ## What the statements of a walk see -/

/-- The database after the requests of the first `j` intervals. -/
def Db.amid (db : Db) (arrivals : List (List Arrival)) (j : ℕ) : Db := (arrivals.take j).flatten.foldl Arrival.next db

section Amid

variable {db : Db} {as : List Arrival} {arrivals : List (List Arrival)}

theorem foldl_next_constraintsOk (hdb : constraintsOk db) : constraintsOk (as.foldl Arrival.next db) := by
  induction as generalizing db with
  | nil => exact hdb
  | cons a as ih => exact ih (a.next_constraintsOk hdb)

theorem foldl_next_rows (hdb : constraintsOk db) {t : Relation} (ht : t ≠ .location) :
    (as.foldl Arrival.next db).rows t = db.rows t := by
  induction as generalizing db with
  | nil => rfl
  | cons a as ih => exact (ih (a.next_constraintsOk hdb)).trans (a.next_rows hdb ht)

theorem foldl_next_places (hdb : constraintsOk db) :
    db.location.map Location.place <+: (as.foldl Arrival.next db).location.map Location.place := by
  induction as generalizing db with
  | nil => exact List.prefix_refl _
  | cons a as ih => exact (a.next_places hdb).trans (ih (a.next_constraintsOk hdb))

theorem amid_constraintsOk (hdb : constraintsOk db) (j : ℕ) : constraintsOk (db.amid arrivals j) :=
  foldl_next_constraintsOk hdb

theorem amid_places (hdb : constraintsOk db) {i j : ℕ} (hij : i ≤ j) :
    (db.amid arrivals i).location.map Location.place <+: (db.amid arrivals j).location.map Location.place := by
  obtain ⟨rest, hrest⟩ : (arrivals.take i).flatten <+: (arrivals.take j).flatten := by
    obtain ⟨more, hmore⟩ := List.take_prefix_take_left hij
    exact ⟨more.flatten, by rw [← hmore, List.flatten_append]⟩
  unfold Db.amid
  rw [← hrest, List.foldl_append]
  exact foldl_next_places (amid_constraintsOk hdb i)

theorem amid_last {j : ℕ} (hj : arrivals.length ≤ j) : db.amid arrivals j = db.amid arrivals arrivals.length := by
  unfold Db.amid
  rw [List.take_of_length_le hj, List.take_length]

end Amid

/-! ## What a listing without a status shows -/

/-- Whether a listing without a status shows the location in this place. -/
def Place.listed (ctx : RequestContext) (now : Timestamp) (db : Db) (p : ListParams) (place : Place) : Bool :=
  place.tenantId == ctx.tenantId && canReadLocation ⟨tenantContext ctx now, db⟩ place.id &&
    (p.fleet.map FleetKind.ofText?).join.all (fun f => place.fleet == some f) &&
    p.q.all fun q => ilike place.name ("%" ++ q ++ "%")

section Listed

variable {ctx : RequestContext} {now : Timestamp} {db : Db} {p : ListParams}

theorem locations_eq : Scope.locations ⟨tenantContext ctx now, db⟩ =
    db.location.filter fun l => l.tenantId == ctx.tenantId && canReadLocation ⟨tenantContext ctx now, db⟩ l.id := by
  have hgrants : Tables.location.grants .appApi .select = true := rfl
  change Tables.location.visible .appApi _ _ = _
  rw [Table.visible, if_pos hgrants]
  refine List.filter_congr fun l hl => ?_
  have hmem := @mem_locations ctx now db l
  change l ∈ Tables.location.visible .appApi _ _ ↔ _ at hmem
  rw [Table.mem_visible] at hmem
  rw [Bool.eq_iff_iff, Bool.and_eq_true, beq_iff_eq]
  exact ⟨fun h => (hmem.mp ⟨hgrants, hl, h⟩).2, fun h => (hmem.mpr ⟨hl, h⟩).2.2⟩

theorem matchingLocations_eq (hstatus : p.status = none) :
    matchingLocations ctx now db p = db.location.filter fun l => l.place.listed ctx now db p := by
  unfold matchingLocations
  rw [locations_eq, List.filter_filter]
  refine List.filter_congr fun l _ => ?_
  simp only [matchesFilters, hstatus, Option.all_none, Bool.and_true, Place.listed, Location.place]
  ac_rfl

theorem map_place_matching (hstatus : p.status = none) :
    (matchingLocations ctx now db p).map Location.place =
      (db.location.map Location.place).filter (Place.listed ctx now db p) := by
  rw [matchingLocations_eq hstatus, List.filter_map]
  rfl

theorem listed_amid (hdb : constraintsOk db) (arrivals : List (List Arrival)) (j : ℕ) :
    Place.listed ctx now (db.amid arrivals j) p = Place.listed ctx now db p := by
  funext place
  have hread := @canReadLocation_congr (db.amid arrivals j) db ctx now (foldl_next_rows (t := .membership) hdb (by decide))
    (foldl_next_rows (t := .membershipLocation) hdb (by decide)) place.id
  rw [Place.listed, Place.listed, hread]

theorem matching_places (hdb : constraintsOk db) (hstatus : p.status = none) (arrivals : List (List Arrival)) {i j : ℕ}
    (hij : i ≤ j) : (matchingLocations ctx now (db.amid arrivals i) p).map Location.place <+:
      (matchingLocations ctx now (db.amid arrivals j) p).map Location.place := by
  rw [map_place_matching hstatus, map_place_matching hstatus, listed_amid hdb, listed_amid hdb]
  exact (amid_places hdb hij).filter _

theorem matching_places_last (hdb : constraintsOk db) (hstatus : p.status = none) (arrivals : List (List Arrival)) (j : ℕ) :
    (matchingLocations ctx now (db.amid arrivals j) p).map Location.place <+:
      (matchingLocations ctx now (db.amid arrivals arrivals.length) p).map Location.place := by
  rcases le_total j arrivals.length with hj | hj
  · exact matching_places hdb hstatus arrivals hj
  · rw [amid_last hj]

end Listed

/-! ## The walk -/

/-- One page. The count is a statement before the rows. -/
def askPageAmid (ser : Serializer) (o : OrderByName) (ctx : RequestContext) (now : Timestamp) (counted seen : Db)
    (p : ListParams) (n k : ℕ) : Option (List LocationSummary × PageInfo) := do
  let (_, page) ← askPage ser o ctx now counted p n k
  let (data, _) ← askPage ser o ctx now seen p n k
  return (data, page)

/-- With no writer between the statements, it is the page of the route. -/
theorem askPageAmid_self (ser : Serializer) (o : OrderByName) (ctx : RequestContext) (now : Timestamp) (db : Db)
    (p : ListParams) (n k : ℕ) : askPageAmid ser o ctx now db db p n k = askPage ser o ctx now db p n k := by
  unfold askPageAmid
  cases askPage ser o ctx now db p n k with
  | none => rfl
  | some out => rfl

/-- From page `k` on, until `page.has_more` is false. The requests of an interval of `arrivals` come before each
statement but the first. -/
def walkAmid (ser : Serializer) (orders : ℕ → OrderByName) (ctx : RequestContext) (times : ℕ → Timestamp) (db : Db)
    (arrivals : List (List Arrival)) (p : ListParams) (n : ℕ) :
    ℕ → ℕ → Option (List (List LocationSummary × PageInfo))
  | 0, _ => none
  | fuel + 1, k => do
    let out ← askPageAmid ser (orders k) ctx (times k) (db.amid arrivals (2 * k)) (db.amid arrivals (2 * k + 1)) p n k
    if out.2.hasMore then return out :: (← walkAmid ser orders ctx times db arrivals p n fuel (k + 1)) else return [out]

theorem walkAmid_nil (ser : Serializer) (orders : ℕ → OrderByName) (ctx : RequestContext) (times : ℕ → Timestamp)
    (db : Db) (p : ListParams) (n fuel k : ℕ) :
    walkAmid ser orders ctx times db [] p n fuel k = walk ser orders ctx times db p n fuel k := by
  induction fuel generalizing k with
  | zero => rfl
  | succ fuel ih =>
    have hamid (j : ℕ) : db.amid [] j = db := by simp [Db.amid]
    simp only [walkAmid, walk, hamid, askPageAmid_self, ih]

section Walk

variable {ser : Serializer} {orders : ℕ → OrderByName} {ctx : RequestContext} {times : ℕ → Timestamp} {db : Db}
  {arrivals : List (List Arrival)} {p : ListParams} {n : ℕ}

/-- Page `k` of a walk, whose statements see `rows (2 * k)` and `rows (2 * k + 1)`. -/
def pageAmid (orders : ℕ → OrderByName) (rows : ℕ → List Location) (n k : ℕ) : List LocationSummary × PageInfo :=
  ((pageData (orders k) (rows (2 * k + 1)) n k).1, (pageData (orders k) (rows (2 * k)) n k).2)

/-- How a walk from page `k` to page `K` ends. -/
structure WalkEnds (orders : ℕ → OrderByName) (rows : ℕ → List Location) (n k K : ℕ)
    (pages : List (List LocationSummary × PageInfo)) : Prop where
  from_ : k ≤ K
  pages_eq : pages = (List.range' k (K + 1 - k)).map (pageAmid orders rows n)
  last : (pageAmid orders rows n K).2.hasMore = false

theorem walkAmid_ends (hn : 1 ≤ n ∧ n ≤ 200) {rows : ℕ → List Location} {total : ℕ}
    (hrows : ∀ j, rows j = matchingLocations ctx (times 0) (db.amid arrivals j) p)
    (htotal : ∀ j, (rows j).length ≤ total) {m k : ℕ} (hk : k + m = lastPage n total)
    (hall : ∀ j, k ≤ j → j ≤ lastPage n total → (p.page n j).Accepted) :
    ∃ K pages, walkAmid ser orders ctx times db arrivals p n (m + 1) k = some pages ∧
      WalkEnds orders rows n k K pages := by
  have hpage (k j : ℕ) (h : (p.page n k).Accepted) : askPage ser (orders k) ctx (times k) (db.amid arrivals j) p n k =
      some (pageData (orders k) (rows j) n k) := by
    rw [askPage_eq_some hn.2, matchingLocations_now ctx (times k) (times 0), ← hrows]
    exact ⟨h, rfl⟩
  have hask (k : ℕ) (h : (p.page n k).Accepted) : askPageAmid ser (orders k) ctx (times k) (db.amid arrivals (2 * k))
      (db.amid arrivals (2 * k + 1)) p n k = some (pageAmid orders rows n k) := by
    rw [askPageAmid, hpage k _ h, hpage k _ h]
    rfl
  have hmore {k : ℕ} (h : (pageAmid orders rows n k).2.hasMore = true) : k < lastPage n total := by
    have hlast := (hasMore_iff hn.1 (orders k) (rows (2 * k)) k).mp h
    exact hlast.trans_le (Nat.div_le_div_right (Nat.sub_le_sub_right (htotal _) 1))
  induction m generalizing k with
  | zero =>
    have hlast : (pageAmid orders rows n k).2.hasMore = false := by
      rw [← Bool.not_eq_true]
      intro h
      exact absurd (hmore h) (by omega)
    refine ⟨k, [pageAmid orders rows n k], ?_, le_rfl, ?_, hlast⟩
    · exact Option.bind_eq_some_iff.mpr ⟨_, hask k (hall k le_rfl (by omega)), by rw [hlast]; rfl⟩
    · rw [Nat.add_sub_cancel_left]
      rfl
  | succ m ih =>
    by_cases hgo : (pageAmid orders rows n k).2.hasMore = true
    · obtain ⟨K, rest, hrest, hends⟩ := ih (k := k + 1) (by omega) fun j hj => hall j (by omega)
      refine ⟨K, pageAmid orders rows n k :: rest, ?_, (Nat.le_succ k).trans hends.from_, ?_, hends.last⟩
      · refine Option.bind_eq_some_iff.mpr ⟨_, hask k (hall k le_rfl (by omega)), ?_⟩
        rw [if_pos hgo]
        exact Option.bind_eq_some_iff.mpr ⟨rest, hrest, rfl⟩
      · have hfrom := hends.from_
        rw [show K + 1 - k = K + 1 - (k + 1) + 1 by omega, List.range'_succ, List.map_cons, ← hends.pages_eq]
    · refine ⟨k, [pageAmid orders rows n k], ?_, le_rfl, ?_, eq_false_of_ne_true hgo⟩
      · exact Option.bind_eq_some_iff.mpr ⟨_, hask k (hall k le_rfl (by omega)), if_neg hgo⟩
      · rw [Nat.add_sub_cancel_left]
        rfl

/-! ## Nobody is missed -/

/-- How many locations come before the name. -/
def namesBefore (c : Collation) (rows : List Location) (name : String) : ℕ :=
  (rows.map Location.place).countP fun place => !c.le name place.name

theorem below_eq_namesBefore (c : Collation) (rows : List Location) (l : Location) :
    below c.rowLe rows l = namesBefore c rows l.name := by
  rw [namesBefore, List.countP_map]
  rfl

theorem namesBefore_lt (c : Collation) {rows : List Location} {l : Location} (hl : l ∈ rows) {name : String}
    (hname : l.name = name) : namesBefore c rows name < rows.length := by
  rw [namesBefore, ← List.length_map Location.place]
  refine Nat.lt_of_le_of_ne List.countP_le_length fun heq => ?_
  have hbefore := List.countP_eq_length.mp heq l.place (List.mem_map_of_mem hl)
  have hrefl : c.le name l.place.name = true := hname ▸ c.rowLe_refl l
  rw [hrefl] at hbefore
  cases hbefore

theorem matching_nodup {now : Timestamp} (hdb : constraintsOk db) (p : ListParams) :
    (matchingLocations ctx now db p).Nodup :=
  ((location_slugs_nodup hdb).sublist ((matchingLocations_sublist ctx now db p).map _)).of_map

theorem shown_in_window {c : Collation} {now : Timestamp} {o : OrderByName} (ho : o.le = c.le) (hdb : constraintsOk db)
    {y : Location} (hy : y ∈ matchingLocations ctx now db p)
    (halone : ∀ l ∈ matchingLocations ctx now db p, c.le y.name l.name = true → c.le l.name y.name = true → l.id = y.id)
    {k : ℕ} (hlow : k * n ≤ namesBefore c (matchingLocations ctx now db p) y.name)
    (hhigh : namesBefore c (matchingLocations ctx now db p) y.name < (k + 1) * n) :
    y ∈ window (o.sort (matchingLocations ctx now db p)) n k := by
  have hmem {l : Location} (hl : l ∈ matchingLocations ctx now db p) : l ∈ db.location :=
    (matchingLocations_sublist ctx now db p).subset hl
  rw [← below_eq_namesBefore] at hlow hhigh
  refine mem_window_of_getElem? ?_ hlow hhigh
  refine (arrangement_of_order ho _).getElem?_below c.rowLe_refl (matching_nodup hdb p) hy fun l hl hyl hly => ?_
  exact location_of_id hdb (hmem hl) (hmem hy) (halone l hl hyl hly)

theorem WalkEnds.pages_concat {rows : ℕ → List Location} {K : ℕ} {pages : List (List LocationSummary × PageInfo)}
    (h : WalkEnds orders rows n 0 K pages) :
    pages = (List.range K).map (pageAmid orders rows n) ++ [pageAmid orders rows n K] := by
  rw [h.pages_eq, Nat.sub_zero, ← List.range_eq_range', List.range_succ, List.map_append]
  rfl

theorem WalkEnds.counted {rows : ℕ → List Location} {k K : ℕ} {pages : List (List LocationSummary × PageInfo)}
    (h : WalkEnds orders rows n k K pages) (hn : 1 ≤ n) : (rows (2 * K)).length ≤ (K + 1) * n := by
  have hlast : lastPage n (rows (2 * K)).length ≤ K := by
    rw [← not_lt, ← hasMore_iff hn (orders K), Bool.not_eq_true]
    exact h.last
  exact (length_le_lastPage hn _).trans (Nat.mul_le_mul_right n (Nat.succ_le_succ hlast))

/-- No other location among the rows has the name of `x`. -/
def SoleName (c : Collation) (rows : List Location) (x : Location) : Prop :=
  ∀ l ∈ rows, c.le x.name l.name = true → c.le l.name x.name = true → l.id = x.id

instance (c : Collation) (rows : List Location) (x : Location) : Decidable (SoleName c rows x) :=
  inferInstanceAs (Decidable (∀ l ∈ rows, _))

def ShownOn (pages : List (List LocationSummary × PageInfo)) (x : Location) : Prop :=
  ∃ out ∈ pages, ∃ shown ∈ out.1, shown.slug = x.slug

instance (pages : List (List LocationSummary × PageInfo)) (x : Location) : Decidable (ShownOn pages x) :=
  inferInstanceAs (Decidable (∃ out ∈ pages, _))

/-- The rows of the last page were read when there were more locations than had been counted for it. -/
def CountedTooEarly (ctx : RequestContext) (now : Timestamp) (db : Db) (arrivals : List (List Arrival)) (p : ListParams)
    (pages : List (List LocationSummary × PageInfo)) : Prop :=
  ∃ before last, pages = before ++ [last] ∧
    last.2.total < ((matchingLocations ctx now (db.amid arrivals (2 * before.length + 1)) p).length : ℤ)

/-- **A walk misses nobody**, whatever requests come between its statements. It ends, and has shown each location that
was there from the start and keeps its name for itself, unless its last page was counted too early. -/
theorem walk_misses_nobody (ser : Serializer) {c : Collation} (ho : ∀ k, (orders k).le = c.le) (ctx : RequestContext)
    (times : ℕ → Timestamp) (hdb : constraintsOk db) (arrivals : List (List Arrival)) (hstatus : p.status = none)
    (hn : 1 ≤ n ∧ n ≤ 200)
    (hall : ∀ k, k ≤ lastPage n (matchingLocations ctx (times 0) (db.amid arrivals arrivals.length) p).length →
      (p.page n k).Accepted) :
    ∃ fuel pages, walkAmid ser orders ctx times db arrivals p n fuel 0 = some pages ∧
      ∀ x ∈ matchingLocations ctx (times 0) db p,
        SoleName c (matchingLocations ctx (times 0) (db.amid arrivals arrivals.length) p) x →
          ShownOn pages x ∨ CountedTooEarly ctx (times 0) db arrivals p pages := by
  let rows (j : ℕ) : List Location := matchingLocations ctx (times 0) (db.amid arrivals j) p
  have hplaces {i j : ℕ} (hij : i ≤ j) : (rows i).map Location.place <+: (rows j).map Location.place :=
    matching_places hdb hstatus arrivals hij
  have hplacesLast (j : ℕ) : (rows j).map Location.place <+: (rows arrivals.length).map Location.place :=
    matching_places_last hdb hstatus arrivals j
  have htotal (j : ℕ) : (rows j).length ≤ (rows arrivals.length).length := by
    simpa using (hplacesLast j).length_le
  obtain ⟨K, pages, hwalk, hends⟩ := @walkAmid_ends ser orders ctx times db arrivals p n hn rows _ (fun _ => rfl) htotal
    _ 0 (Nat.zero_add _) fun j _ => hall j
  refine ⟨_, pages, hwalk, fun x hx halone => ?_⟩
  -- The location is in its place whenever it is looked for, and no other one comes to bear its name.
  have hthere (j : ℕ) : ∃ y ∈ rows j, y.place = x.place :=
    List.mem_map.mp ((hplaces (Nat.zero_le j)).subset (List.mem_map_of_mem hx))
  have hsole {j : ℕ} {y : Location} (hy : y.place = x.place) (l : Location) (hl : l ∈ rows j)
      (hyl : c.le y.name l.name = true) (hly : c.le l.name y.name = true) : l.id = y.id := by
    obtain ⟨l', hl', hplace⟩ := List.mem_map.mp ((hplacesLast j).subset (List.mem_map_of_mem hl))
    have hname : y.name = x.name := congrArg Place.name hy
    have hname' : l'.name = l.name := congrArg Place.name hplace
    have hid : l'.id = x.id := by
      refine halone l' hl' ?_ ?_
      · rw [hname', ← hname]; exact hyl
      · rw [hname', ← hname]; exact hly
    exact (congrArg Place.id hplace).symm.trans (hid.trans (congrArg Place.id hy).symm)
  by_cases hlate : (rows (2 * K)).length < (rows (2 * K + 1)).length
  · refine Or.inr ⟨_, _, hends.pages_concat, ?_⟩
    rw [List.length_map, List.length_range]
    exact Int.ofNat_lt.mpr hlate
  · left
    have hmono (k : ℕ) : namesBefore c (rows (2 * k + 1)) x.name ≤ namesBefore c (rows (2 * (k + 1) + 1)) x.name :=
      (hplaces (by omega)).countP_le
    have hlast : namesBefore c (rows (2 * K + 1)) x.name < (K + 1) * n := by
      obtain ⟨y, hy, hplace⟩ := hthere (2 * K + 1)
      have hlt : namesBefore c (rows (2 * K + 1)) x.name < (rows (2 * K + 1)).length :=
        namesBefore_lt c hy (congrArg Place.name hplace)
      have hcount : (rows (2 * K)).length ≤ (K + 1) * n := hends.counted hn.1
      omega
    obtain ⟨k, hk, hlow, hhigh⟩ := exists_window_of_monotone hmono hlast
    obtain ⟨y, hy, hplace⟩ := hthere (2 * k + 1)
    have hname : y.name = x.name := congrArg Place.name hplace
    have hshown : y ∈ window ((orders k).sort (rows (2 * k + 1))) n k :=
      shown_in_window (ho k) (amid_constraintsOk hdb _) hy (hsole hplace) (hname ▸ hlow) (hname ▸ hhigh)
    refine ⟨pageAmid orders rows n k, ?_, LocationSummary.fromModel y, List.mem_map_of_mem hshown,
      congrArg Place.slug hplace⟩
    rw [hends.pages_eq]
    exact List.mem_map_of_mem (List.mem_range'_1.mpr (by omega))

end Walk

-- Counted before `east` came and read after it, the only page leaves out `south`.
example :
    ∃ pages, walkAmid plainSerializer (fun _ => plainCollation.byName) clinicOperator (fun _ => noon) (clinic .active)
        [[⟨clinicOperator, noon, .create 20 (newLocation "east")⟩]] {} 2 1 0 = some pages ∧
      ¬ ShownOn pages (clinicLocation 11 "south") :=
  ⟨_, rfl, by decide +kernel⟩

theorem page_accepted_of_lt {n k : ℕ} (h : k * n < 2 ^ 63) : (({} : ListParams).page n k).Accepted := by
  refine page_accepted_iff.mpr ⟨by simp, bindable_iff.mpr ⟨by simp [ListParams.page], by simp [ListParams.page], ?_⟩⟩
  simp only [ListParams.page]
  omega

/-- A location comes between the two pages, and another one is rewritten before the rows of the second. -/
def interrupted : List (List Arrival) :=
  [[], [⟨clinicOperator, noon, .create 20 (newLocation "east")⟩],
    [⟨clinicOperator, noon, .update "north" { status := some (some "paused") }⟩]]

theorem interrupted_misses_nobody :
    ∃ fuel pages,
      walkAmid plainSerializer (fun _ => plainCollation.byName) clinicOperator (fun _ => noon) (clinic .active) interrupted
        {} 1 fuel 0 = some pages ∧
      ∀ x ∈ matchingLocations clinicOperator noon (clinic .active) {},
        SoleName plainCollation (matchingLocations clinicOperator noon ((clinic .active).amid interrupted 3) {}) x →
          ShownOn pages x ∨ CountedTooEarly clinicOperator noon (clinic .active) interrupted {} pages := by
  have hrows : (matchingLocations clinicOperator noon ((clinic .active).amid interrupted 3) {}).length = 3 := by
    decide +kernel
  refine walk_misses_nobody plainSerializer (fun _ => rfl) clinicOperator (fun _ => noon) (by decide +kernel) interrupted
    rfl (by decide) fun k hk => page_accepted_of_lt ?_
  change k ≤ lastPage 1 (matchingLocations clinicOperator noon ((clinic .active).amid interrupted 3) {}).length at hk
  have hk : k ≤ 2 := by rwa [hrows] at hk
  omega

/-! ## Only rewritten -/

/-- The order of places. -/
def Collation.placeLe (c : Collation) (a b : Place) : Bool := c.le a.name b.name

section Steady

variable {ser : Serializer} {orders : ℕ → OrderByName} {ctx : RequestContext} {times : ℕ → Timestamp} {db : Db}
  {arrivals : List (List Arrival)} {p : ListParams} {n : ℕ}

theorem arrangement_places {c : Collation} {o : OrderByName} (ho : o.le = c.le) (rows : List Location) :
    Arrangement c.placeLe (rows.map Location.place) ((o.sort rows).map Location.place) :=
  ⟨(o.perm rows).map _, List.pairwise_map.mpr (arrangement_of_order ho rows).sorted⟩

theorem splits_places {c : Collation} {rows : List Location} {m : ℕ}
    (h : Splits c.placeLe (rows.map Location.place) m) : Splits c.rowLe rows m := by
  obtain ⟨place, hplace, hbelow, hup⟩ := h
  obtain ⟨l, hl, rfl⟩ := List.mem_map.mp hplace
  rw [below, List.countP_map] at hbelow
  rw [upTo, List.countP_map] at hup
  exact ⟨l, hl, hbelow, hup⟩

theorem map_window {α β : Type} (f : α → β) (s : List α) (n k : ℕ) : (window s n k).map f = window (s.map f) n k := by
  rw [window, window, List.map_take, List.map_drop]

theorem WalkEnds.slugs {rows : ℕ → List Location} {K : ℕ} {pages : List (List LocationSummary × PageInfo)}
    (h : WalkEnds orders rows n 0 K pages) : (pages.flatMap Prod.fst).map LocationSummary.slug =
      ((List.range (K + 1)).flatMap fun k =>
        window (((orders k).sort (rows (2 * k + 1))).map Location.place) n k).map Place.slug := by
  rw [h.pages_eq, Nat.sub_zero, ← List.range_eq_range']
  simp only [List.flatMap_map, List.map_flatMap, ← map_window, List.map_map, pageAmid, pageData]
  rfl

/-- **Rewriting does not disturb a walk**: while no location comes that it would list, and no page ends between two
locations of one name, it shows each location once. -/
theorem patches_leave_walks_alone (ser : Serializer) {c : Collation} (ho : ∀ k, (orders k).le = c.le)
    (ctx : RequestContext) (times : ℕ → Timestamp) (hdb : constraintsOk db) (arrivals : List (List Arrival))
    (hstatus : p.status = none) (hn : 1 ≤ n ∧ n ≤ 200)
    (hsteady : (matchingLocations ctx (times 0) (db.amid arrivals arrivals.length) p).length =
      (matchingLocations ctx (times 0) db p).length)
    (hall : ∀ k, k ≤ lastPage n (matchingLocations ctx (times 0) db p).length → (p.page n k).Accepted)
    (hties : ∀ k, ¬ Splits c.rowLe (matchingLocations ctx (times 0) db p) (k * n)) :
    ∃ fuel pages, walkAmid ser orders ctx times db arrivals p n fuel 0 = some pages ∧
      ((pages.flatMap Prod.fst).map LocationSummary.slug).Perm
        ((matchingLocations ctx (times 0) db p).map (·.slug)) ∧
      ∀ out ∈ pages, out.2.total = ((matchingLocations ctx (times 0) db p).length : ℤ) := by
  let rows (j : ℕ) : List Location := matchingLocations ctx (times 0) (db.amid arrivals j) p
  have hplaces (j : ℕ) : (rows j).map Location.place = (rows 0).map Location.place := by
    have hfirst : (rows 0).map Location.place <+: (rows j).map Location.place :=
      matching_places hdb hstatus arrivals (Nat.zero_le j)
    have hlast : (rows j).map Location.place <+: (rows arrivals.length).map Location.place :=
      matching_places_last hdb hstatus arrivals j
    refine (hfirst.eq_of_length_le (hlast.length_le.trans_eq ?_)).symm
    rw [List.length_map, List.length_map]
    exact hsteady
  have hlength (j : ℕ) : (rows j).length = (rows 0).length := by
    simpa using congrArg List.length (hplaces j)
  obtain ⟨K, pages, hwalk, hends⟩ := @walkAmid_ends ser orders ctx times db arrivals p n hn rows _ (fun _ => rfl)
    (fun j => (hlength j).le) _ 0 (Nat.zero_add _) fun j _ => hall j
  refine ⟨_, pages, hwalk, ?_, fun out hout => ?_⟩
  · have harranged (k : ℕ) : Arrangement c.placeLe ((rows 0).map Location.place)
        (((orders k).sort (rows (2 * k + 1))).map Location.place) :=
      hplaces (2 * k + 1) ▸ arrangement_places (ho k) (rows (2 * k + 1))
    have hwindows := windows_perm harranged (fun place => (c.total _ _).elim id id)
      (fun k h => hties k (splits_places h)) (K + 1)
    have hwhole : ((rows 0).map Location.place).length ≤ (K + 1) * n := by
      rw [List.length_map, ← hlength (2 * K)]
      exact hends.counted hn.1
    rw [List.take_of_length_le ((harranged _).length_eq.trans_le hwhole)] at hwindows
    rw [hends.slugs]
    exact ((hwindows.trans (harranged _).perm).map Place.slug).trans (by rw [List.map_map]; rfl)
  · rw [hends.pages_eq] at hout
    obtain ⟨k, -, rfl⟩ := List.mem_map.mp hout
    exact congrArg Nat.cast (hlength (2 * k))

end Steady

/-- Each location is rewritten before its page is read. -/
def rewriting : List (List Arrival) :=
  [[⟨clinicOperator, noon, .update "north" { status := some (some "paused") }⟩], [],
    [⟨clinicOperator, noon, .update "south" { displayName := some (some "South") }⟩]]

theorem rewriting_leaves_walk_alone :
    ∃ fuel pages,
      walkAmid plainSerializer (fun _ => plainCollation.byName) clinicOperator (fun _ => noon) (clinic .active) rewriting
        {} 1 fuel 0 = some pages ∧
      ((pages.flatMap Prod.fst).map LocationSummary.slug).Perm
        ((matchingLocations clinicOperator noon (clinic .active) {}).map (·.slug)) ∧
      ∀ out ∈ pages, out.2.total = ((matchingLocations clinicOperator noon (clinic .active) {}).length : ℤ) := by
  have hrows : (matchingLocations clinicOperator noon (clinic .active) {}).length = 2 := by decide +kernel
  refine patches_leave_walks_alone plainSerializer (fun _ => rfl) clinicOperator (fun _ => noon) (by decide +kernel)
    rewriting rfl (by decide) (by decide +kernel) (fun k hk => page_accepted_of_lt ?_) fun k => ?_
  · have hk : k ≤ 1 := by rwa [hrows] at hk
    omega
  · match k with
    | 0 => exact not_splits_zero
    | 1 => decide +kernel
    | k + 2 => exact not_splits_length (by rw [hrows]; omega)

end BaptistApi
