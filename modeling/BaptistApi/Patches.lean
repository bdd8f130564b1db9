import BaptistApi.Answers
import BaptistApi.Lib.Transactions

/-!
# Requests that patch side by side

`PATCH /v1/locations/{slug}` as a program of two statements, among any number of others, each in a
transaction of its own. The UPDATE sets the columns whose new value differs from the one that was read.
-/

namespace BaptistApi

open BaptistApi.Calendar BaptistApi.FixedPoint BaptistApi.Program BaptistApi.RowSecurity
  BaptistApi.Transactions

/-! ## The values that a payload sets -/

structure PatchedFields where
  displayName : Option String
  status : LocationStatus
  lat : Option (Numeric 10 7)
  lng : Option (Numeric 10 7)
  deriving DecidableEq

def Location.patchedFields (l : Location) : PatchedFields :=
  { displayName := l.displayName, status := l.status, lat := l.lat, lng := l.lng }

def overStatus (v : Option (Option String)) (stored : LocationStatus) : LocationStatus :=
  (v.bind fun s => s.bind LocationStatus.ofText?).getD stored

def overCoordinate (v : Option (Option ℚ)) (stored : Option (Numeric 10 7)) : Option (Numeric 10 7) :=
  (v.map fun x => x.bind (Numeric.store? 10 7)).getD stored

/-- The payload applied: a supplied value takes the place of the stored one. -/
def LocationUpdate.over (p : LocationUpdate) (f : PatchedFields) : PatchedFields :=
  { displayName := p.displayName.getD f.displayName, status := overStatus p.status f.status
    lat := overCoordinate p.lat f.lat, lng := overCoordinate p.lng f.lng }

/-- A column that the UPDATE leaves out still has the value that the payload supplies for it. -/
structure StillHolds (p : LocationUpdate) (s : LocationSet) (l : Location) : Prop where
  displayName : ∀ v ∈ p.displayName, s.displayName = none → v = l.displayName
  status : ∀ v ∈ p.status, s.status = none → v = some l.status.text
  lat : ∀ v ∈ p.lat, s.lat = none → v = l.lat.map Numeric.value
  lng : ∀ v ∈ p.lng, s.lng = none → v = l.lng.map Numeric.value

instance (p : LocationUpdate) (s : LocationSet) (l : Location) : Decidable (StillHolds p s l) :=
  decidable_of_iff
    ((∀ v ∈ p.displayName, s.displayName.isNone → v = l.displayName) ∧
      (∀ v ∈ p.status, s.status.isNone → v = some l.status.text) ∧
      (∀ v ∈ p.lat, s.lat.isNone → v = l.lat.map Numeric.value) ∧
      ∀ v ∈ p.lng, s.lng.isNone → v = l.lng.map Numeric.value) (by
    simp only [Option.isNone_iff_eq_none]
    exact ⟨fun ⟨hd, hs, hlat, hlng⟩ => ⟨hd, hs, hlat, hlng⟩, fun ⟨hd, hs, hlat, hlng⟩ => ⟨hd, hs, hlat, hlng⟩⟩)

theorem ofText?_text (status : LocationStatus) : LocationStatus.ofText? status.text = some status := by
  cases status <;> rfl

theorem mapM_cases {α β ε : Type} {f : α → Except ε β} {o : Option α} {o' : Option β} (h : o.mapM f = .ok o') :
    (o = none ∧ o' = none) ∨ ∃ a b, o = some a ∧ f a = .ok b ∧ o' = some b := by
  cases o with
  | none => exact Or.inl ⟨rfl, (mapM_ok_none h).mpr rfl⟩
  | some a =>
    cases hf : f a with
    | error e => simp [hf] at h
    | ok b =>
      simp only [Option.mapM_some, hf, Except.map_ok, Except.ok.injEq] at h
      exact Or.inr ⟨a, b, rfl, hf, h.symm⟩

theorem column_cases {α β ε : Type} [DecidableEq α] {v : Option α} {loaded : α} {f : α → Except ε β} {set : Option β}
    (h : (v.filter (· ≠ loaded)).mapM f = .ok set) :
    (set = none ∧ ∀ x ∈ v, x = loaded) ∨ ∃ x y, v = some x ∧ f x = .ok y ∧ set = some y := by
  obtain ⟨hsame, hnone⟩ | ⟨x, y, hx, hy, hset⟩ := mapM_cases h
  · refine Or.inl ⟨hnone, fun x hx => ?_⟩
    rw [Option.mem_def.mp hx] at hsame
    simpa using hsame
  · exact Or.inr ⟨x, y, (Option.filter_eq_some_iff.mp hx).1, hy, hset⟩

theorem overText_eq {v : Option (Option String)} {loaded stored : Option String} {set : Option (Option String)}
    (hset : ((v.filter (· ≠ loaded)).mapM fun x => x.mapM textColumn) = .ok set)
    (hkept : ∀ x ∈ v, set = none → x = stored) : set.getD stored = v.getD stored := by
  obtain ⟨hnone, -⟩ | ⟨x, y, rfl, hy, rfl⟩ := column_cases hset
  · cases v with
    | none => rw [hnone]
    | some x => rw [hnone, hkept x rfl hnone]; rfl
  · obtain ⟨rfl, rfl⟩ | ⟨t, t', rfl, ht, rfl⟩ := mapM_cases hy
    · rfl
    · rw [(textColumn_ok.mp ht).2]

theorem overStatus_eq {v : Option (Option String)} {loaded stored : LocationStatus} {set : Option LocationStatus}
    (hset : (v.filter (· ≠ some loaded.text)).mapM statusColumn = .ok set)
    (hkept : ∀ x ∈ v, set = none → x = some stored.text) : set.getD stored = overStatus v stored := by
  unfold overStatus
  obtain ⟨hnone, -⟩ | ⟨x, y, rfl, hy, rfl⟩ := column_cases hset
  · cases v with
    | none => rw [hnone]; rfl
    | some x => simp [hnone, hkept x rfl hnone, ofText?_text]
  · obtain ⟨t, rfl, -, ht⟩ := statusColumn_ok.mp hy
    simp [ht]

theorem overCoordinate_eq {v : Option (Option ℚ)} {loaded stored : Option (Numeric 10 7)}
    {set : Option (Option (Numeric 10 7))}
    (hset : ((v.filter (· ≠ loaded.map Numeric.value)).mapM fun x => x.mapM coordinateColumn) = .ok set)
    (hkept : ∀ x ∈ v, set = none → x = stored.map Numeric.value) :
    set.getD stored = overCoordinate v stored := by
  unfold overCoordinate
  obtain ⟨hnone, -⟩ | ⟨x, y, rfl, hy, rfl⟩ := column_cases hset
  · cases v with
    | none => rw [hnone]; rfl
    | some x => cases stored <;> simp [hnone, hkept x rfl hnone, Numeric.store?_of_value]
  · obtain ⟨rfl, rfl⟩ | ⟨t, t', rfl, ht, rfl⟩ := mapM_cases hy
    · rfl
    · rw [coordinateColumn_ok] at ht
      simp [ht]

theorem LocationUpdate.columns_cases {p : LocationUpdate} {s : LocationSet} (h : p.columns = .ok s) :
    (p.displayName.mapM fun v => v.mapM textColumn) = .ok s.displayName ∧
      p.status.mapM statusColumn = .ok s.status ∧
      (p.lat.mapM fun v => v.mapM coordinateColumn) = .ok s.lat ∧
      (p.lng.mapM fun v => v.mapM coordinateColumn) = .ok s.lng := by
  simp only [LocationUpdate.columns, bind_eq_ok] at h
  obtain ⟨_, hd, _, hs, _, hlat, _, hlng, h⟩ := h
  cases h
  exact ⟨hd, hs, hlat, hlng⟩

theorem over_of_stillHolds {p : LocationUpdate} {l x : Location} {s : LocationSet} (hs : (p.changes l).columns = .ok s)
    (hx : StillHolds p s x) (now : Timestamp) : (s.apply now x).patchedFields = p.over x.patchedFields := by
  obtain ⟨hd, hst, hlat, hlng⟩ := LocationUpdate.columns_cases hs
  unfold LocationUpdate.over Location.patchedFields
  congr 1
  · exact overText_eq hd hx.displayName
  · exact overStatus_eq hst hx.status
  · exact overCoordinate_eq hlat hx.lat
  · exact overCoordinate_eq hlng hx.lng

theorem over_of_unchanged {p : LocationUpdate} {l : Location} (h : p.changes l = {}) :
    p.over l.patchedFields = l.patchedFields := by
  let s : LocationSet := ⟨none, none, none, none⟩
  have hcolumns : (p.changes l).columns = .ok s := by
    rw [h]
    rfl
  have kept {α : Type} [DecidableEq α] {v : Option α} {loaded : α} (hv : v.filter (· ≠ loaded) = none) :
      ∀ x ∈ v, x = loaded := by
    intro x hx
    rw [Option.mem_def.mp hx] at hv
    simpa using hv
  have hx : StillHolds p s l := by
    simp only [LocationUpdate.changes, LocationUpdate.mk.injEq] at h
    obtain ⟨hd, hs, hlat, hlng⟩ := h
    exact ⟨fun v hv _ => kept hd v hv, fun v hv _ => kept hs v hv, fun v hv _ => kept hlat v hv,
      fun v hv _ => kept hlng v hv⟩
  exact (over_of_stillHolds hcolumns hx l.updatedAt).symm

/-! ## The requests -/

structure PatchRequest where
  ctx : RequestContext
  startedAt : Timestamp
  slug : String
  payload : LocationUpdate

def PatchRequest.session (a : PatchRequest) : Session := tenantContext a.ctx a.startedAt

inductive PatchSql where
  | selectBySlug (slug : String)
  | updateLocation (id : Uuid) (s : LocationSet)

/-- The rows of a SELECT, and the row count of an UPDATE. -/
abbrev PatchSql.Result : PatchSql → Type
  | .selectBySlug _ => List Location
  | .updateLocation .. => ℕ

abbrev PatchReply (q : PatchSql) : Type := Except SqlError q.Result

inductive PatchExc where
  | problem (code : ProblemCode)
  | unhandled (e : Unhandled)
  | multipleResults

abbrev PatchProg := Prog PatchSql PatchReply PatchExc LocationDetail

/-- `LocationService.update`, of the location that was read. -/
def PatchRequest.flush (a : PatchRequest) (l : Location) : PatchProg :=
  match (a.payload.changes l).columns with
  | .error e => .raise (.unhandled e)
  | .ok s =>
    if a.payload.changes l = {} then .ret (a.payload.detail l s)
    else .call (.updateLocation l.id s) fun
      | .error e => .raise (.unhandled (.sql e))
      | .ok n => if n = 1 then .ret (a.payload.detail l s) else .raise (.unhandled .staleDataError)

/-- The route, behind `require_operator`. -/
def PatchRequest.prog (a : PatchRequest) : PatchProg :=
  if a.ctx.role ∈ operatorRoles then
    .call (.selectBySlug a.slug) fun
      | .error e => .raise (.unhandled (.sql e))
      | .ok rows =>
        match oneOrNone rows with
        | .error _ => .raise .multipleResults
        | .ok none => .raise (.problem .notFound)
        | .ok (some l) => a.flush l
  else .raise (.problem .forbiddenRole)

def runPatchSql (s : Session) (db : Db) : (q : PatchSql) → Except SqlError (q.Result × List Location)
  | .selectBySlug slug =>
    if textStorable slug then .ok ((Scope.locations ⟨s, db⟩).filter fun l => l.slug == slug, []) else .error .data
  | .updateLocation id set => do
    let e ← execStatement s db (set.statement s.now id)
    .ok (e.rewritten.length, e.rewritten)

/-- A transaction writes new versions of locations. An UPDATE waits for another one of its row. -/
def patches : Engine Db PatchRequest Unit Location PatchSql PatchReply PatchExc LocationDetail where
  prog := PatchRequest.prog
  apply db row := { db with location := db.location.map fun l => if l.id = row.id then row else l }
  exec a _ failed db q :=
    if failed then { reply := .error .inFailedTransaction, fails := true }
    else
      match runPatchSql a.session db q with
      | .ok (v, rows) => { reply := .ok v, writes := rows }
      | .error x => { reply := .error x, fails := true }
  waits _ _ q rows :=
    match q with
    | .updateLocation id _ => rows.any (·.id == id)
    | _ => false
  external _ := false
  lost _ := some (.error .connectionLost)

section Statements

variable {a : PatchRequest} {e : Unit} {db : Db}

theorem exec_selectBySlug {slug : String} (h : textStorable slug = true) :
    patches.exec a e false db (.selectBySlug slug) =
      { reply := .ok ((Scope.locations ⟨a.session, db⟩).filter fun l => l.slug == slug), writes := [] } := by
  simp [patches, runPatchSql, h]

theorem exec_selectBySlug_error {slug : String} (h : ¬ textStorable slug = true) :
    patches.exec a e false db (.selectBySlug slug) = { reply := .error .data, fails := true } := by
  simp [patches, runPatchSql, h]

theorem exec_updateLocation {id : Uuid} {s : LocationSet} {eff : Effect (Row (s.statement a.session.now id).table)}
    (h : execStatement a.session db (s.statement a.session.now id) = .ok eff) {rows : List Location}
    (hrows : eff.rewritten = rows) :
    patches.exec a e false db (.updateLocation id s) = { reply := .ok rows.length, writes := rows } := by
  subst hrows
  simp only [patches, runPatchSql, h, bind, Except.bind]
  rfl

theorem exec_updateLocation_error {id : Uuid} {s : LocationSet} {x : SqlError}
    (h : execStatement a.session db (s.statement a.session.now id) = .error x) :
    patches.exec a e false db (.updateLocation id s) = { reply := .error x, fails := true } := by
  simp [patches, runPatchSql, h, bind, Except.bind]

end Statements

abbrev PatchTx := Transactions.Tx PatchRequest Location PatchSql PatchReply PatchExc LocationDetail
abbrev PatchSlot := Slot PatchRequest Location PatchSql PatchReply PatchExc LocationDetail
abbrev PatchWorld := World Db PatchRequest Location PatchSql PatchReply PatchExc LocationDetail
abbrev PatchLabel := Label PatchRequest Unit

def PatchSlot.update? : PatchSlot → Option (Uuid × LocationSet)
  | .running tx =>
    match tx.prog with
    | .call (.updateLocation id s) _ => some (id, s)
    | _ => none
  | _ => none

/-- An UPDATE finds the columns that it leaves out as its request has read them. -/
def FindsUnwritten (w : PatchWorld) : PatchLabel → Prop
  | .exec i _ => ∀ slot ∈ w.slots[i]?, ∀ u ∈ PatchSlot.update? slot, ∀ l ∈ w.db.location, l.id = u.1 →
      StillHolds slot.call.payload u.2 l
  | _ => True

instance (w : PatchWorld) : (label : PatchLabel) → Decidable (FindsUnwritten w label)
  | .begin _ => isTrue trivial
  | .lose _ => isTrue trivial
  | .finish _ => isTrue trivial
  | .exec i _ => inferInstanceAs (Decidable (∀ slot ∈ w.slots[i]?, ∀ u ∈ PatchSlot.update? slot, _))

end BaptistApi
