import BaptistApi.Api
import BaptistApi.Paging
import BaptistApi.Lib.Serial

/-!
# The routes side by side

Every route behind a tenant context as a program of its statements, among any number of others, each in a
transaction of its own.
-/

namespace BaptistApi

open BaptistApi.Calendar BaptistApi.FixedPoint BaptistApi.Program BaptistApi.RowSecurity BaptistApi.Transactions

/-! ## Statements -/

/-- With what the route holds when it sends them: the total that was counted, the instance that was loaded. -/
inductive RouteSql where
  | meQuery
  | count (p : ListParams)
  | page (p : ListParams) (total : ℕ)
  | bySlug (slug : String)
  | insert (id : Uuid) (payload : LocationCreate)
  | update (l : Location) (s : LocationSet)

abbrev RouteSql.Result : RouteSql → Type
  | .meQuery => List MeRow
  | .count _ => ℕ
  | .page .. => List Location
  | .bySlug _ => List Location
  | .insert .. => Location
  | .update .. => ℕ

abbrev RouteReply (q : RouteSql) : Type := Except Unhandled q.Result

inductive RouteWrite where
  | added (l : Location)
  | put (l : Location)

/-! ## Programs -/

/-- A problem is an exception here, as in the code: the transaction is rolled back. -/
abbrev RouteProg := Prog RouteSql RouteReply ProblemCode ApiAnswer

def query (q : RouteSql) (k : q.Result → RouteProg) : RouteProg :=
  .call q fun
    | .ok v => k v
    | .error _ => .raise .internalError

def found {α : Type} (rows : List α) (k : α → RouteProg) : RouteProg :=
  match oneOrNone rows with
  | .error _ => .raise .internalError
  | .ok none => .raise .notFound
  | .ok (some row) => k row

def MeRow.data (row : MeRow) (ctx : RequestContext) : MeResponse :=
  { user := { id := row.user.id, email := row.user.email, fullName := row.user.fullName }
    tenant := { id := row.tenant.id, slug := row.tenant.slug, name := row.tenant.name, tier := row.tenant.tier }
    role := ctx.role
    mustAcceptInvite := row.membershipStatus == some .pending }

section Routes

variable (ser : Serializer) (byName : OrderByName)

def meReply (ctx : RequestContext) (ifNoneMatch : Option String) (row : MeRow) : GetReply :=
  (respond ifNoneMatch (row.data ctx) none (computeEtag ser.sha256 ctx (ser.me (row.data ctx)))).seen
    fun data _ => some (.me data)

def pageReply (ctx : RequestContext) (ifNoneMatch : Option String) (p : ListParams) (rows : List Location) (total : ℕ) :
    GetReply :=
  let data := rows.map LocationSummary.fromModel
  let page := buildPage p.limit p.offset total
  (respond ifNoneMatch data (some page) (computeEtag ser.sha256 ctx (ser.page data page))).seen
    fun data page => page.map (.page data)

def locationReply (ctx : RequestContext) (ifNoneMatch : Option String) (l : Location) : GetReply :=
  let data := LocationDetail.fromModel l
  (respond ifNoneMatch data none (computeEtag ser.sha256 ctx (ser.detail data))).seen fun data _ => some (.location data)

/-- The role is bound before the first statement. -/
def Arrival.readProg (a : Arrival) (ifNoneMatch : Option String) (req : GetRequest) : RouteProg :=
  if textStorable a.ctx.role then
    match req with
    | .me => query .meQuery fun rows => found rows fun row => .ret (.read (meReply ser a.ctx ifNoneMatch row))
    | .locations p =>
      if 200 < p.limit ∨ p.offset < 0 then .raise .validationError
      else query (.count p) fun total => query (.page p total) fun rows =>
        .ret (.read (pageReply ser a.ctx ifNoneMatch p rows total))
    | .location slug => query (.bySlug slug) fun rows => found rows fun l =>
        .ret (.read (locationReply ser a.ctx ifNoneMatch l))
  else .raise .internalError

def Arrival.createProg (a : Arrival) (id : Uuid) (payload : LocationCreate) : RouteProg :=
  if a.ctx.role ∈ operatorRoles then
    query (.insert id payload) fun l =>
      .ret (.write (.created { LocationDetail.fromModel l with lat := payload.lat, lng := payload.lng }))
  else .raise .forbiddenRole

def flushProg (payload : LocationUpdate) (l : Location) : RouteProg :=
  match (payload.changes l).columns with
  | .error _ => .raise .internalError
  | .ok s =>
    if payload.changes l = {} then .ret (.write (.ok (payload.detail l s)))
    else query (.update l s) fun n =>
      if n = 1 then .ret (.write (.ok (payload.detail l s))) else .raise .internalError

def Arrival.updateProg (a : Arrival) (slug : String) (payload : LocationUpdate) : RouteProg :=
  if a.ctx.role ∈ operatorRoles then query (.bySlug slug) fun rows => found rows (flushProg payload)
  else .raise .forbiddenRole

def Arrival.prog (a : Arrival) : RouteProg :=
  match a.req with
  | .read req ifNoneMatch => a.readProg ser ifNoneMatch req
  | .create id payload => a.createProg id payload
  | .update slug payload => a.updateProg slug payload

/-! ## The database -/

def runRouteSql (a : Arrival) (db : Db) : (q : RouteSql) → Except Unhandled (q.Result × List RouteWrite)
  | .meQuery => .ok (meQuery ⟨tenantContext a.ctx a.now, db⟩ a.ctx.tenantId a.ctx.actorId, [])
  | .count p =>
    match p.fleet.map FleetKind.ofText? with
    | some none => .error .lookupError
    | _ =>
      if p.status.all textStorable && p.q.all textStorable then .ok ((matchingLocations a.ctx a.now db p).length, [])
      else .error (.sql .data)
  | .page p _ =>
    match p.fleet.map FleetKind.ofText? with
    | some none => .error .lookupError
    | fleet =>
      match listRows byName ⟨tenantContext a.ctx a.now, db⟩ fleet.join p with
      | none => .error (.sql .data)
      | some (rows, _) => .ok (rows, [])
  | .bySlug slug =>
    if textStorable slug then
      .ok ((Scope.locations ⟨tenantContext a.ctx a.now, db⟩).filter fun l => l.slug == slug, [])
    else .error (.sql .data)
  | .insert id payload => do
    let l ← insertLocation a.ctx a.now db id payload
    .ok (l, [.added l])
  | .update l s => do
    let e ← (execStatement (tenantContext a.ctx a.now) db (s.statement a.now l.id)).mapError .sql
    .ok (e.rewritten.length, e.rewritten.map .put)

def RouteWrite.apply (db : Db) : RouteWrite → Db
  | .added l => db.add .location l
  | .put l => db.rewriteLocation l.id fun _ => l

/-- An INSERT waits for another one of its keys, and an UPDATE for another one of its row. -/
def RouteSql.waitsFor (a : Arrival) : RouteSql → RouteWrite → Bool
  | .insert id payload, .added l => l.id == id || (l.tenantId == a.ctx.tenantId && l.slug == payload.slug)
  | .update l _, .put l' => l'.id == l.id
  | _, _ => false

def service : Engine Db Arrival Unit RouteWrite RouteSql RouteReply ProblemCode ApiAnswer where
  prog := Arrival.prog ser
  apply := RouteWrite.apply
  exec a _ failed db q :=
    if failed then { reply := .error (.sql .inFailedTransaction), fails := true }
    else
      match runRouteSql byName a db q with
      | .ok (v, ws) => { reply := .ok v, writes := ws }
      | .error e => { reply := .error e, fails := true }
  waits a _ q ws := ws.any (q.waitsFor a)
  external _ := false
  lost _ := some (.error (.sql .connectionLost))

end Routes

end BaptistApi
