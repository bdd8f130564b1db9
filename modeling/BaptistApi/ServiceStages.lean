import BaptistApi.ApiIsolation
import BaptistApi.LadderInvariant
import BaptistApi.Service

/-!
# What holds beside other requests

The stages of one request, and what a write that waits for its COMMIT may rely on: nobody else writes a location
of its keys or its row.
-/

namespace BaptistApi

open BaptistApi.Calendar BaptistApi.FixedPoint BaptistApi.Program BaptistApi.RowSecurity BaptistApi.Transactions

abbrev RouteTx := Transactions.Tx Arrival RouteWrite RouteSql RouteReply ProblemCode ApiAnswer
abbrev RouteSlot := Slot Arrival RouteWrite RouteSql RouteReply ProblemCode ApiAnswer
abbrev RouteWorld := World Db Arrival RouteWrite RouteSql RouteReply ProblemCode ApiAnswer
abbrev RouteLabel := Label Arrival Unit

/-! ## What a request has written -/

/-- The value and the write of a request that has only to commit. -/
inductive Written (a : Arrival) (db : Db) : ApiAnswer → RouteWrite → Prop where
  | created {id : Uuid} {p : LocationCreate} {r : Location} (hreq : a.req = .create id p)
      (hrole : a.ctx.role ∈ operatorRoles) (hinsert : insertLocation a.ctx a.now db id p = .ok r) :
      Written a db (.write (.created { LocationDetail.fromModel r with lat := p.lat, lng := p.lng })) (.added r)
  | updated {slug : String} {p : LocationUpdate} {l : Location} {s : LocationSet} (hreq : a.req = .update slug p)
      (hrole : a.ctx.role ∈ operatorRoles) (hslug : textStorable slug = true) (hl : l ∈ db.location)
      (ht : l.tenantId = a.ctx.tenantId) (hs : l.slug = slug) (hcolumns : (p.changes l).columns = .ok s)
      (hsome : p.changes l ≠ {}) (hfits : (p.changes l).Fits ∧ p.Paired l) :
      Written a db (.write (.ok (p.detail l s))) (.put (s.apply a.now l))

def RouteWrite.conflicts : RouteWrite → RouteWrite → Prop
  | .added l, .added l' => clash .location l l' = true
  | .put l, .put l' => l.id = l'.id
  | _, _ => False

theorem RouteWrite.conflicts_symm {x y : RouteWrite} (h : x.conflicts y) : y.conflicts x := by
  cases x with
  | added l =>
    cases y with
    | added l' => exact (clash_comm .location l' l).trans h
    | put l' => exact h
  | put l =>
    cases y with
    | added l' => exact h
    | put l' => exact Eq.symm h

section Written

variable {a b : Arrival} {db : Db} {u v : ApiAnswer} {x y : RouteWrite}

theorem rewriteLocation_const (hdb : constraintsOk db) {l : Location} (hl : l ∈ db.location) (f : Location → Location) :
    (db.rewriteLocation l.id fun _ => f l) = db.rewriteLocation l.id f := by
  unfold Db.rewriteLocation
  congr 1
  refine List.map_congr_left fun r hr => ?_
  split
  · rename_i hid
    rw [location_of_id hdb hr hl (eq_of_beq hid)]
  · rfl

theorem Written.settles (ser : Serializer) (byName : OrderByName) (hdb : constraintsOk db) (h : Written a db v x) :
    v = a.answer ser byName db ∧ x.apply db = a.next db := by
  cases h with
  | created hreq hrole hinsert =>
    simp only [Arrival.answer, Arrival.next, hreq, createLocation, if_pos hrole, hinsert]
    exact ⟨trivial, rfl⟩
  | @updated slug p l s hreq hrole hslug hl ht hs hcolumns hsome hfits =>
    have hfound : getBySlug ⟨tenantContext a.ctx a.now, db⟩ slug = .ok (some l) :=
      (getBySlug_eq_some hdb).mpr ⟨(mem_locations_operator hrole).mpr ⟨hl, ht⟩, hs⟩
    obtain ⟨⟨s', db'⟩, hflush⟩ :
      ∃ r, flushLocation a.ctx a.now db l p = .ok r := (flushLocation_isOk hdb hrole hl ht).mpr hfits
    obtain ⟨hs', hdb'⟩ := flushLocation_ok hdb hrole hl ht hflush
    cases hcolumns.symm.trans hs'
    rw [if_neg hsome] at hdb'
    simp only [Arrival.answer, Arrival.next, hreq, updateLocation, if_pos hrole, if_pos hslug, hfound, hflush]
    exact ⟨trivial, (rewriteLocation_const hdb hl (s.apply a.now)).trans hdb'.symm⟩

theorem Written.constraintsOk (ser : Serializer) (byName : OrderByName) (hdb : BaptistApi.constraintsOk db)
    (h : Written a db v x) : BaptistApi.constraintsOk (x.apply db) := by
  rw [(h.settles ser byName hdb).2]
  exact a.next_constraintsOk hdb

theorem Written.after (hdb : BaptistApi.constraintsOk db) (hdb' : BaptistApi.constraintsOk (y.apply db))
    (h : Written a db v x) (hy : Written b db u y) (hapart : ¬ x.conflicts y) : Written a (y.apply db) v x := by
  cases h with
  | @created id p r hreq hrole hinsert =>
    refine .created hreq hrole ?_
    obtain ⟨hrow, hu, hr⟩ := (insertLocation_ok hrole).mp hinsert
    refine (insertLocation_ok hrole).mpr ⟨hrow, (uniqueOk_append .location).mpr ⟨(hdb' .location).1, ?_⟩, ?_⟩
    · have hclear := ((uniqueOk_append .location).mp hu).2
      cases hy with
      | created =>
        intro l hl
        rcases List.mem_append.mp hl with hl | hl
        · exact hclear l hl
        · rw [List.mem_singleton.mp hl, clash_comm]
          exact Bool.eq_false_iff.mpr hapart
      | @updated slug p' l s hreq' hrole' hslug hl =>
        intro l' hl'
        have hmem := (mem_rewriteLocation hdb hl (fun _ => s.apply b.now l) l').mp hl'
        rcases hmem with rfl | ⟨hl', -⟩
        · exact hclear l hl
        · exact hclear l' hl'
    · refine (rowOk_location_congr ?_ r).mp hr
      cases hy with
      | created => rfl
      | updated => rfl
  | updated hreq hrole hslug hl ht hs hcolumns hsome hfits =>
    refine .updated hreq hrole hslug ?_ ht hs hcolumns hsome hfits
    cases hy with
    | created => exact List.mem_append_left _ hl
    | @updated slug' p' l' s' hreq' hrole' hslug' hl' =>
      exact (mem_rewriteLocation hdb hl' (fun _ => s'.apply b.now l') _).mpr (Or.inr ⟨hl, hapart⟩)

end Written

/-! ## What a request finds -/

def RouteProg.sql? : RouteProg → Option RouteSql
  | .call q _ => some q
  | _ => none

/-- The page finds as many locations as were counted, and the UPDATE its location as it was loaded. -/
def RouteSql.Finds (a : Arrival) (db : Db) : RouteSql → Prop
  | .page p total => total = (matchingLocations a.ctx a.now db p).length
  | .update l _ => l ∈ db.location
  | _ => True

instance findsDecidable (a : Arrival) (db : Db) : (q : RouteSql) → Decidable (q.Finds a db)
  | .meQuery => isTrue trivial
  | .count _ => isTrue trivial
  | .page .. => inferInstanceAs (Decidable (_ = _))
  | .bySlug _ => isTrue trivial
  | .insert .. => isTrue trivial
  | .update l _ => inferInstanceAs (Decidable (l ∈ db.location))

theorem prog_cases (ser : Serializer) (a : Arrival) : (∃ code, a.prog ser = .raise code) ∨
    ∃ (q : RouteSql) (k : q.Result → RouteProg), a.prog ser = query q k ∧ ∀ db, q.Finds a db := by
  unfold Arrival.prog
  split
  · rename_i req ifNoneMatch hreq
    unfold Arrival.readProg
    split
    · split
      · exact Or.inr ⟨_, _, rfl, fun _ => trivial⟩
      · split
        · exact Or.inl ⟨_, rfl⟩
        · exact Or.inr ⟨_, _, rfl, fun _ => trivial⟩
      · exact Or.inr ⟨_, _, rfl, fun _ => trivial⟩
    · exact Or.inl ⟨_, rfl⟩
  · unfold Arrival.createProg
    split
    · exact Or.inr ⟨_, _, rfl, fun _ => trivial⟩
    · exact Or.inl ⟨_, rfl⟩
  · unfold Arrival.updateProg
    split
    · exact Or.inr ⟨_, _, rfl, fun _ => trivial⟩
    · exact Or.inl ⟨_, rfl⟩

/-! ## What a request has done -/

/-- A location that has been read, whose UPDATE is to come. -/
structure RouteLoaded (a : Arrival) (slug : String) (p : LocationUpdate) (l : Location) (s : LocationSet) : Prop where
  req : a.req = .update slug p
  operator : a.ctx.role ∈ operatorRoles
  storable : textStorable slug = true
  tenant : l.tenantId = a.ctx.tenantId
  slug : l.slug = slug
  columns : (p.changes l).columns = .ok s
  changes : p.changes l ≠ {}

inductive RouteStage (ser : Serializer) (db : Db) (tx : RouteTx) : Prop where
  | fresh (hp : tx.prog = tx.call.prog ser) (hw : tx.writes = []) (hf : tx.failed = false)
  | counted (p : ListParams) (ifNoneMatch : Option String) (total : ℕ)
      (hreq : tx.call.req = .read (.locations p) ifNoneMatch) (hrole : textStorable tx.call.ctx.role = true)
      (hin : ¬ (200 < p.limit ∨ p.offset < 0))
      (hp : tx.prog = query (.page p total) fun rows => .ret (.read (pageReply ser tx.call.ctx ifNoneMatch p rows total)))
      (hw : tx.writes = []) (hf : tx.failed = false)
  | loaded (slug : String) (p : LocationUpdate) (l : Location) (s : LocationSet) (hl : RouteLoaded tx.call slug p l s)
      (hp : tx.prog = query (.update l s) fun n =>
        if n = 1 then .ret (.write (.ok (p.detail l s))) else .raise .internalError)
      (hw : tx.writes = []) (hf : tx.failed = false)
  | answered (v : ApiAnswer) (hp : tx.prog = .ret v) (hw : tx.writes = []) (hf : tx.failed = false)
  | written (v : ApiAnswer) (x : RouteWrite) (h : Written tx.call db v x) (hp : tx.prog = .ret v)
      (hw : tx.writes = [x]) (hf : tx.failed = false)
  | raised (code : ProblemCode) (hp : tx.prog = .raise code) (hw : tx.writes = [])

theorem RouteStage.after {ser : Serializer} {db db' : Db} {tx : RouteTx} (h : RouteStage ser db tx)
    (hwritten : ∀ v, ∀ x ∈ tx.writes, Written tx.call db v x → Written tx.call db' v x) : RouteStage ser db' tx := by
  cases h with
  | fresh hp hw hf => exact .fresh hp hw hf
  | counted p ifNoneMatch total hreq hrole hin hp hw hf => exact .counted p ifNoneMatch total hreq hrole hin hp hw hf
  | loaded slug p l s hl hp hw hf => exact .loaded slug p l s hl hp hw hf
  | answered v hp hw hf => exact .answered v hp hw hf
  | written v x h hp hw hf => exact .written v x (hwritten v x (by rw [hw]; exact List.mem_singleton_self x) h) hp hw hf
  | raised code hp hw => exact .raised code hp hw

theorem RouteStage.writes_cases {ser : Serializer} {db : Db} {tx : RouteTx} (h : RouteStage ser db tx) :
    tx.writes = [] ∨ ∃ v x, Written tx.call db v x ∧ tx.prog = .ret v ∧ tx.writes = [x] ∧ tx.failed = false := by
  cases h with
  | fresh hp hw => exact Or.inl hw
  | counted p ifNoneMatch total hreq hrole hin hp hw => exact Or.inl hw
  | loaded slug p l s hl hp hw => exact Or.inl hw
  | answered v hp hw => exact Or.inl hw
  | written v x h hp hw hf => exact Or.inr ⟨v, x, h, hp, hw, hf⟩
  | raised code hp hw => exact Or.inl hw

/-! ## One statement -/

theorem found_cases {α : Type} (rows : List α) (k : α → RouteProg) :
    (∃ code, found rows k = .raise code) ∨ ∃ row, oneOrNone rows = .ok (some row) ∧ found rows k = k row := by
  unfold found
  split
  · exact Or.inl ⟨_, rfl⟩
  · exact Or.inl ⟨_, rfl⟩
  · rename_i row hrow
    exact Or.inr ⟨row, hrow, rfl⟩

/-- What becomes of a request when its statement is answered. -/
structure Answers (ser : Serializer) (byName : OrderByName) (db : Db) (q : RouteSql) (tx : RouteTx) : Prop where
  stage : RouteStage ser db tx
  /-- It has read all that it reads, and is answered as it would be now. -/
  reads : ∀ v, tx.prog = .ret v → tx.writes = [] → v = tx.call.answer ser byName db ∧ tx.call.next db = db
  free : ∀ x ∈ tx.writes, ∀ y, q.waitsFor tx.call y = false → ¬ x.conflicts y
  finds : ∀ q' ∈ RouteProg.sql? tx.prog, q'.Finds tx.call db

section Statements

variable {ser : Serializer} {byName : OrderByName} {db : Db} {q : RouteSql} {tx tx' : RouteTx}

theorem answers_raised {code : ProblemCode} (hp : tx.prog = .raise code) (hw : tx.writes = []) :
    Answers ser byName db q tx where
  stage := .raised code hp hw
  reads v hv _ := by
    rw [hp] at hv
    cases hv
  free x hx := by
    rw [hw] at hx
    cases hx
  finds q' hq := by
    rw [hp] at hq
    cases hq

theorem answers_read {v : ApiAnswer} (hp : tx.prog = .ret v) (hw : tx.writes = []) (hf : tx.failed = false)
    (hv : v = tx.call.answer ser byName db) (hnext : tx.call.next db = db) : Answers ser byName db q tx where
  stage := .answered v hp hw hf
  reads v' hv' _ := by
    rw [hp] at hv'
    cases hv'
    exact ⟨hv, hnext⟩
  free x hx := by
    rw [hw] at hx
    cases hx
  finds q' hq := by
    rw [hp] at hq
    cases hq

/-- A transaction that has written nothing sends its next statement. -/
structure Sends (ser : Serializer) (byName : OrderByName) (db : Db) (q : RouteSql) (tx tx' : RouteTx) : Prop where
  writes : tx.writes = []
  failed : tx.failed = false
  sent : ∃ k e, tx.prog = .call q k ∧ tx' = tx.answer q k ((service ser byName).exec tx.call e false db q)

theorem Sends.query_cases (h : Sends ser byName db q tx tx') {q' : RouteSql} {k : q'.Result → RouteProg}
    (hp : tx.prog = query q' k) : q = q' ∧
      ((∃ v ws, runRouteSql byName tx.call db q' = .ok (v, ws) ∧
          tx' = { call := tx.call, prog := k v, writes := ws, issued := tx.issued ++ [q'] }) ∨
        tx'.call = tx.call ∧ tx'.prog = .raise .internalError ∧ tx'.writes = []) := by
  obtain ⟨hw, hf, k', e, hp', htx⟩ := h
  obtain ⟨a, prog, writes, failed, issued⟩ := tx
  simp only at hp hw hf hp' htx
  subst hw hf hp
  cases hp'
  refine ⟨rfl, ?_⟩
  subst htx
  cases hrun : runRouteSql byName a db q with
  | error x =>
    have hexec : (service ser byName).exec a e false db q = { reply := .error x, fails := true } := by
      simp [service, hrun]
    rw [hexec]
    exact Or.inr ⟨rfl, rfl, rfl⟩
  | ok r =>
    have hexec : (service ser byName).exec a e false db q = { reply := .ok r.1, writes := r.2 } := by
      simp [service, hrun]
    rw [hexec]
    exact Or.inl ⟨r.1, r.2, rfl, rfl⟩

theorem answers_flush (hdb : constraintsOk db) {a : Arrival} {slug : String} {p : LocationUpdate} {l : Location}
    (hreq : a.req = .update slug p) (hrole : a.ctx.role ∈ operatorRoles) (hslug : textStorable slug = true)
    (hl : l ∈ db.location) (ht : l.tenantId = a.ctx.tenantId) (hs : l.slug = slug) (issued : List RouteSql) :
    Answers ser byName db q { call := a, prog := flushProg p l, issued } := by
  cases hcolumns : (p.changes l).columns with
  | error x => exact answers_raised (by simp only [flushProg, hcolumns]; rfl) rfl
  | ok s =>
    by_cases hnone : p.changes l = {}
    · have hfound : getBySlug ⟨tenantContext a.ctx a.now, db⟩ slug = .ok (some l) :=
        (getBySlug_eq_some hdb).mpr ⟨(mem_locations_operator hrole).mpr ⟨hl, ht⟩, hs⟩
      have hflush : flushLocation a.ctx a.now db l p = .ok (s, db) := by
        simp only [flushLocation, hcolumns, if_pos hnone]
        rfl
      refine answers_read (v := .write (.ok (p.detail l s))) ?_ rfl rfl ?_ ?_
      · simp only [flushProg, hcolumns, if_pos hnone]
      · simp only [Arrival.answer, hreq, updateLocation, if_pos hrole, if_pos hslug, hfound, hflush]
      · simp only [Arrival.next, hreq, updateLocation, if_pos hrole, if_pos hslug, hfound, hflush]
    · have hcall : flushProg p l = query (.update l s) fun n =>
          if n = 1 then .ret (.write (.ok (p.detail l s))) else .raise .internalError := by
        simp only [flushProg, hcolumns, if_neg hnone]
      rw [hcall]
      refine ⟨.loaded slug p l s ⟨hreq, hrole, hslug, ht, hs, hcolumns, hnone⟩ rfl rfl rfl, fun v hv => ?_, fun x hx => ?_,
        fun q' hq => ?_⟩
      · cases hv
      · cases hx
      · cases hq
        exact hl

/-! ## The statements of the routes -/

theorem Sends.no_call (h : Sends ser byName db q tx tx') {code : ProblemCode} (hp : tx.prog = .raise code) : False := by
  obtain ⟨-, -, k, e, hcall, -⟩ := h
  rw [hp] at hcall
  cases hcall

theorem answers_me (h : Sends ser byName db q tx tx') {ifNoneMatch : Option String}
    (hreq : tx.call.req = .read .me ifNoneMatch) (hrole : textStorable tx.call.ctx.role = true)
    (hp : tx.prog = query .meQuery fun rows => found rows fun row =>
      .ret (.read (meReply ser tx.call.ctx ifNoneMatch row))) : Answers ser byName db q tx' := by
  obtain ⟨rfl, ⟨rows, ws, hrun, rfl⟩ | ⟨-, hraise, hw⟩⟩ := h.query_cases hp
  · cases hrun
    rcases found_cases _ fun row => .ret (.read (meReply ser tx.call.ctx ifNoneMatch row)) with
      ⟨code, hcode⟩ | ⟨row, hrow, hret⟩
    · exact answers_raised hcode rfl
    · refine answers_read hret rfl rfl ?_ ?_
      · simp only [Arrival.answer, hreq, GetRequest.reply, hrole, if_true, GetRequest.handle, getMe, hrow]
        rfl
      · simp only [Arrival.next, hreq]
  · exact answers_raised hraise hw

theorem answers_bySlug (h : Sends ser byName db q tx tx') {slug : String} {ifNoneMatch : Option String}
    (hreq : tx.call.req = .read (.location slug) ifNoneMatch) (hrole : textStorable tx.call.ctx.role = true)
    (hp : tx.prog = query (.bySlug slug) fun rows => found rows fun l =>
      .ret (.read (locationReply ser tx.call.ctx ifNoneMatch l))) : Answers ser byName db q tx' := by
  obtain ⟨rfl, ⟨rows, ws, hrun, rfl⟩ | ⟨-, hraise, hw⟩⟩ := h.query_cases hp
  · simp only [runRouteSql] at hrun
    split at hrun
    · rename_i hslug
      cases hrun
      rcases found_cases _ fun l => .ret (.read (locationReply ser tx.call.ctx ifNoneMatch l)) with
        ⟨code, hcode⟩ | ⟨l, hl, hret⟩
      · exact answers_raised hcode rfl
      · refine answers_read hret rfl rfl ?_ ?_
        · simp only [Arrival.answer, hreq, GetRequest.reply, hrole, hslug, if_true, GetRequest.handle, getLocation,
            getBySlug, hl]
          rfl
        · simp only [Arrival.next, hreq]
    · cases hrun
  · exact answers_raised hraise hw

theorem answers_count (h : Sends ser byName db q tx tx') {p : ListParams} {ifNoneMatch : Option String}
    (hreq : tx.call.req = .read (.locations p) ifNoneMatch) (hrole : textStorable tx.call.ctx.role = true)
    (hin : ¬ (200 < p.limit ∨ p.offset < 0))
    (hp : tx.prog = query (.count p) fun total => query (.page p total) fun rows =>
      .ret (.read (pageReply ser tx.call.ctx ifNoneMatch p rows total))) : Answers ser byName db q tx' := by
  obtain ⟨rfl, ⟨total, ws, hrun, rfl⟩ | ⟨-, hraise, hw⟩⟩ := h.query_cases hp
  · simp only [runRouteSql] at hrun
    split at hrun
    · cases hrun
    · split at hrun
      · cases hrun
        refine ⟨.counted p ifNoneMatch _ hreq hrole hin rfl rfl rfl, fun v hv => ?_, fun x hx => ?_, fun q' hq => ?_⟩
        · cases hv
        · cases hx
        · cases hq
          exact rfl
      · cases hrun
  · exact answers_raised hraise hw

theorem answers_page (h : Sends ser byName db q tx tx') {p : ListParams} {ifNoneMatch : Option String}
    (hreq : tx.call.req = .read (.locations p) ifNoneMatch) (hrole : textStorable tx.call.ctx.role = true)
    (hin : ¬ (200 < p.limit ∨ p.offset < 0)) {total : ℕ}
    (htotal : total = (matchingLocations tx.call.ctx tx.call.now db p).length)
    (hp : tx.prog = query (.page p total) fun rows =>
      .ret (.read (pageReply ser tx.call.ctx ifNoneMatch p rows total))) : Answers ser byName db q tx' := by
  obtain ⟨rfl, ⟨rows, ws, hrun, rfl⟩ | ⟨-, hraise, hw⟩⟩ := h.query_cases hp
  · simp only [runRouteSql] at hrun
    split at hrun
    · cases hrun
    · rename_i fleet hfleet
      split at hrun
      · cases hrun
      · rename_i rows' total' hlist
        cases hrun
        refine answers_read rfl rfl rfl ?_ ?_
        · have hcount : total' = total := by
            rw [htotal]
            unfold listRows at hlist
            split at hlist
            · cases hlist
            · cases hlist
              rfl
          subst hcount
          simp only [Arrival.answer, hreq, GetRequest.reply, hrole, if_true, GetRequest.handle, listLocations, if_neg hin,
            hlist]
          rfl
        · simp only [Arrival.next, hreq]
  · exact answers_raised hraise hw

theorem answers_insert (h : Sends ser byName db q tx tx') {id : Uuid} {payload : LocationCreate}
    (hreq : tx.call.req = .create id payload) (hrole : tx.call.ctx.role ∈ operatorRoles)
    (hp : tx.prog = query (.insert id payload) fun l =>
      .ret (.write (.created { LocationDetail.fromModel l with lat := payload.lat, lng := payload.lng }))) :
    Answers ser byName db q tx' := by
  obtain ⟨rfl, ⟨l, ws, hrun, rfl⟩ | ⟨-, hraise, hw⟩⟩ := h.query_cases hp
  · simp only [runRouteSql, bind_eq_ok] at hrun
    obtain ⟨r, hinsert, hrun⟩ := hrun
    cases hrun
    refine ⟨.written _ _ (.created hreq hrole hinsert) rfl rfl rfl, fun v hv hnone => ?_, fun x hx y hy => ?_,
      fun q' hq => ?_⟩
    · cases hnone
    · rw [List.mem_singleton.mp hx]
      have hr := (LocationCreate.row_cases ((insertLocation_ok hrole).mp hinsert).1).2
      cases y with
      | put l' => exact not_false
      | added l' =>
        intro hclash
        change clash .location l l' = true at hclash
        rw [clash_comm, clash, hr.id, hr.tenantId, hr.slug] at hclash
        exact Bool.eq_false_iff.mp hy hclash
    · cases hq
  · exact answers_raised hraise hw

theorem answers_update (hdb : constraintsOk db) (h : Sends ser byName db q tx tx') {slug : String} {p : LocationUpdate}
    {l : Location} {s : LocationSet} (hloaded : RouteLoaded tx.call slug p l s) (hl : l ∈ db.location)
    (hp : tx.prog = query (.update l s) fun n =>
      if n = 1 then .ret (.write (.ok (p.detail l s))) else .raise .internalError) : Answers ser byName db q tx' := by
  obtain ⟨rfl, ⟨n, ws, hrun, rfl⟩ | ⟨-, hraise, hw⟩⟩ := h.query_cases hp
  · simp only [runRouteSql, bind_eq_ok] at hrun
    obtain ⟨e, he, hrun⟩ := hrun
    have hexec := mapError_ok.mp he
    have hrewritten : e.rewritten = [s.apply tx.call.now l] := by
      cases (exec_statement hdb hloaded.operator hl hloaded.tenant s).symm.trans (execStatement_ok hexec).1
      exact rewritten_effect hdb hl s _
    rw [hrewritten] at hrun
    cases hrun
    have hflush : flushLocation tx.call.ctx tx.call.now db l p = .ok (s, db.after .location e) := by
      refine bind_eq_ok.mpr ⟨s, hloaded.columns, ?_⟩
      rw [if_neg hloaded.changes]
      exact bind_eq_ok.mpr ⟨e, he, if_pos (congrArg List.length hrewritten)⟩
    have hfits := (flushLocation_isOk hdb hloaded.operator hl hloaded.tenant).mp ⟨_, hflush⟩
    have hwritten : Written tx.call db (.write (.ok (p.detail l s))) (.put (s.apply tx.call.now l)) :=
      .updated hloaded.req hloaded.operator hloaded.storable hl hloaded.tenant hloaded.slug hloaded.columns hloaded.changes
        hfits
    refine ⟨.written _ _ hwritten rfl rfl rfl, fun v hv hnone => ?_, fun x hx y hy => ?_, fun q' hq => ?_⟩
    · cases hnone
    · rw [List.mem_singleton.mp hx]
      cases y with
      | added l' => exact not_false
      | put l' => exact fun heq => Bool.eq_false_iff.mp hy (beq_iff_eq.mpr (Eq.symm heq))
    · cases hq
  · exact answers_raised hraise hw

theorem answers_select (hdb : constraintsOk db) (h : Sends ser byName db q tx tx') {slug : String} {p : LocationUpdate}
    (hreq : tx.call.req = .update slug p) (hrole : tx.call.ctx.role ∈ operatorRoles)
    (hp : tx.prog = query (.bySlug slug) fun rows => found rows (flushProg p)) : Answers ser byName db q tx' := by
  obtain ⟨rfl, ⟨rows, ws, hrun, rfl⟩ | ⟨-, hraise, hw⟩⟩ := h.query_cases hp
  · simp only [runRouteSql] at hrun
    split at hrun
    · rename_i hslug
      cases hrun
      rcases found_cases _ (flushProg p) with ⟨code, hcode⟩ | ⟨l, hl, hflush⟩
      · exact answers_raised hcode rfl
      · obtain ⟨hmem, hs⟩ := (getBySlug_eq_some hdb).mp hl
        obtain ⟨hmem, ht⟩ := (mem_locations_operator hrole).mp hmem
        rw [hflush]
        exact answers_flush hdb hreq hrole hslug hmem ht hs _
    · cases hrun
  · exact answers_raised hraise hw

theorem answers_fresh (hdb : constraintsOk db) (h : Sends ser byName db q tx tx') (hp : tx.prog = tx.call.prog ser) :
    Answers ser byName db q tx' := by
  unfold Arrival.prog at hp
  cases hreq : tx.call.req with
  | read req ifNoneMatch =>
    simp only [hreq, Arrival.readProg] at hp
    split at hp
    · rename_i hrole
      cases req with
      | me => exact answers_me h hreq hrole hp
      | locations p =>
        simp only at hp
        split at hp
        · exact (h.no_call hp).elim
        · rename_i hin
          exact answers_count h hreq hrole hin hp
      | location slug => exact answers_bySlug h hreq hrole hp
    · exact (h.no_call hp).elim
  | create id payload =>
    simp only [hreq, Arrival.createProg] at hp
    split at hp
    · rename_i hrole
      exact answers_insert h hreq hrole hp
    · exact (h.no_call hp).elim
  | update slug payload =>
    simp only [hreq, Arrival.updateProg] at hp
    split at hp
    · rename_i hrole
      exact answers_select hdb h hreq hrole hp
    · exact (h.no_call hp).elim

end Statements

end BaptistApi
