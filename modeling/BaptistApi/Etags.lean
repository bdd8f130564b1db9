import BaptistApi.Isolation
import BaptistApi.UuidText
import Mathlib.Data.Countable.Basic
import Mathlib.Data.Rat.Encodable
import Mathlib.Logic.Equiv.List
import Mathlib.Tactic.DeriveCountable

/-!
# Conditional GET

The three reading routes, as a client sees them, and what an ETag says about the body that it came with.
-/

namespace BaptistApi

open BaptistApi.Calendar BaptistApi.FixedPoint

/-! ## Tags -/

section Tags

variable {digest : String → String} {ctx ctx' : RequestContext} {payload payload' : String}

theorem length_str (u : Uuid) : u.str.toList.length = 36 := by
  simp [Uuid.str, hexDigits]

theorem str_injective : Function.Injective Uuid.str := by
  intro u v h
  have hread := Uuid.ofText?_str u
  rw [h, Uuid.ofText?_str] at hread
  exact (Option.some.inj hread).symm

theorem toList_computeEtag (digest : String → String) (ctx : RequestContext) (payload : String) :
    (computeEtag digest ctx payload).toList = "\"".toList ++ (ctx.tenantId.str.toList ++
      (".".toList ++ ((digest (ctx.tenantId.str ++ ":" ++ payload)).toList ++ "\"".toList))) := by
  simp only [computeEtag, String.toList_append, List.append_assoc]

/-- The tenant stands in the tag, in as many characters for each. -/
theorem computeEtag_parts (h : computeEtag digest ctx payload = computeEtag digest ctx' payload') :
    ctx.tenantId = ctx'.tenantId ∧
      digest (ctx.tenantId.str ++ ":" ++ payload) = digest (ctx'.tenantId.str ++ ":" ++ payload') := by
  have hlist := congrArg String.toList h
  rw [toList_computeEtag, toList_computeEtag] at hlist
  have htext := List.append_cancel_left hlist
  have hlength : ctx.tenantId.str.toList.length = ctx'.tenantId.str.toList.length := by rw [length_str, length_str]
  obtain ⟨htenant, hrest⟩ := List.append_inj htext hlength
  have hdigest := List.append_cancel_right (List.append_cancel_left hrest)
  exact ⟨str_injective (String.toList_inj.mp htenant), String.toList_inj.mp hdigest⟩

theorem computeEtag_same (htenant : ctx.tenantId = ctx'.tenantId) (hpayload : payload = payload') :
    computeEtag digest ctx payload = computeEtag digest ctx' payload' := by
  rw [computeEtag, computeEtag, htenant, hpayload]

theorem computeEtag_eq_iff (hdigest : Function.Injective digest) :
    computeEtag digest ctx payload = computeEtag digest ctx' payload' ↔
      ctx.tenantId = ctx'.tenantId ∧ payload = payload' := by
  constructor
  · intro h
    obtain ⟨htenant, hhash⟩ := computeEtag_parts h
    refine ⟨htenant, ?_⟩
    have hinput := hdigest hhash
    rw [htenant] at hinput
    exact (String.append_right_inj _).mp hinput
  · exact fun ⟨htenant, hpayload⟩ => computeEtag_same htenant hpayload

end Tags

/-! ## Answers -/

/-- A body without its `meta`. -/
inductive Body where
  | me (data : MeResponse)
  | page (data : List LocationSummary) (page : PageInfo)
  | location (data : LocationDetail)

def Serializer.json (ser : Serializer) : Body → String
  | .me data => ser.me data
  | .page data page => ser.page data page
  | .location data => ser.detail data

inductive GetRequest where
  | me
  | locations (p : ListParams)
  | location (slug : String)

structure GetReply where
  status : ℕ
  etag : Option String
  body : Option Body

def Response.seen {D : Type} (r : Response D) (body : D → Option PageInfo → Option Body) : GetReply :=
  match r with
  | .ok data page etag => { status := r.status, etag := some etag, body := body data page }
  | .notModified etag => { status := r.status, etag := some etag, body := none }
  | .problem _ => { status := r.status, etag := none, body := none }

def problemReply (code : ProblemCode) : GetReply :=
  { status := (problemDefinitions code).status, etag := none, body := none }

/-- The reply of the route, in a session that is bound. -/
def GetRequest.handle (ser : Serializer) (byName : OrderByName) (ctx : RequestContext) (now : Timestamp) (db : Db)
    (ifNoneMatch : Option String) : GetRequest → GetReply
  | .me => (getMe ser ctx ⟨tenantContext ctx now, db⟩ ifNoneMatch).seen fun data _ => some (.me data)
  | .locations p => (listLocations ser byName ctx ⟨tenantContext ctx now, db⟩ p ifNoneMatch).seen
      fun data page => page.map (.page data)
  | .location slug => (getLocation ser ctx ⟨tenantContext ctx now, db⟩ slug ifNoneMatch).seen
      fun data _ => some (.location data)

/-- `tenant_context` binds the role first, and the driver takes no text with U+0000. -/
def GetRequest.reply (ser : Serializer) (byName : OrderByName) (ctx : RequestContext) (now : Timestamp) (db : Db)
    (ifNoneMatch : Option String) (req : GetRequest) : GetReply :=
  if textStorable ctx.role then req.handle ser byName ctx now db ifNoneMatch else problemReply .internalError

/-- A problem whatever the request carries, or one body with its tag. -/
inductive Serves (ser : Serializer) (ctx : RequestContext) (reply : Option String → GetReply) : Prop where
  | problem (code : ProblemCode)
      (h : ∀ ifNoneMatch, reply ifNoneMatch = ⟨(problemDefinitions code).status, none, none⟩)
  | body (b : Body) (tag : String) (htag : tag = computeEtag ser.sha256 ctx (ser.json b))
      (h : ∀ ifNoneMatch, reply ifNoneMatch =
        if ifNoneMatch = some tag then ⟨304, some tag, none⟩ else ⟨200, some tag, some b⟩)

theorem seen_respond {D : Type} {ifNoneMatch : Option String} {data : D} {page : Option PageInfo} {tag : String}
    {body : D → Option PageInfo → Option Body} {b : Body} (hb : body data page = some b) :
    (respond ifNoneMatch data page tag).seen body =
      if ifNoneMatch = some tag then ⟨304, some tag, none⟩ else ⟨200, some tag, some b⟩ := by
  unfold respond matchesEtag
  by_cases h : ifNoneMatch = some tag
  · simp [h, Response.seen, Response.status]
  · simp [h, Response.seen, Response.status, hb]

section Replies

variable (ser : Serializer) (byName : OrderByName) (ctx : RequestContext) (now : Timestamp) (db : Db)

theorem serves_respond {D : Type} {data : D} {page : Option PageInfo} {body : D → Option PageInfo → Option Body}
    {b : Body} {json : String} (hb : body data page = some b) (hjson : json = ser.json b) :
    Serves ser ctx fun ifNoneMatch => (respond ifNoneMatch data page (computeEtag ser.sha256 ctx json)).seen body :=
  .body b _ (congrArg _ hjson) fun _ => seen_respond hb

theorem serves_handle (req : GetRequest) :
    Serves ser ctx fun ifNoneMatch => req.handle ser byName ctx now db ifNoneMatch := by
  cases req with
  | me =>
    simp only [GetRequest.handle, getMe]
    split
    · exact .problem .internalError fun _ => rfl
    · exact .problem .notFound fun _ => rfl
    · exact serves_respond ser ctx rfl rfl
  | locations p =>
    simp only [GetRequest.handle, listLocations]
    split
    · exact .problem .validationError fun _ => rfl
    · split
      · exact .problem .internalError fun _ => rfl
      · split
        · exact .problem .internalError fun _ => rfl
        · exact serves_respond ser ctx rfl rfl
  | location slug =>
    simp only [GetRequest.handle, getLocation]
    split
    · split
      · exact .problem .internalError fun _ => rfl
      · exact .problem .notFound fun _ => rfl
      · exact serves_respond ser ctx rfl rfl
    · exact .problem .internalError fun _ => rfl

theorem serves (req : GetRequest) : Serves ser ctx fun ifNoneMatch => req.reply ser byName ctx now db ifNoneMatch := by
  unfold GetRequest.reply
  split
  · exact serves_handle ser byName ctx now db req
  · exact .problem .internalError fun _ => rfl

end Replies

theorem not_notModified (code : ProblemCode) : (problemDefinitions code).status ≠ 304 := by
  cases code <;> decide

theorem notModified_iff {ser : Serializer} (hsha : Function.Injective ser.sha256) (hjson : Function.Injective ser.json)
    {ctx ctx' : RequestContext} {earlier later : Option String → GetReply} (he : Serves ser ctx earlier)
    (hl : Serves ser ctx' later) {ifNoneMatch : Option String} {tag : String} (htag : (earlier ifNoneMatch).etag = some tag) :
    (later (some tag)).status = 304 ↔ ctx.tenantId = ctx'.tenantId ∧ (later none).body = (earlier none).body := by
  cases he with
  | problem code h =>
    rw [h] at htag
    cases htag
  | body b t ht h =>
    have hsame : t = tag := by
      rw [h] at htag
      split at htag <;> exact Option.some.inj htag
    subst hsame
    have hbody : (earlier none).body = some b := by rw [h, if_neg (by simp)]
    rw [hbody]
    cases hl with
    | problem code h' =>
      rw [h', h']
      exact iff_of_false (not_notModified code) fun hsame => by cases hsame.2
    | body b' t' ht' h' =>
      have hbody' : (later none).body = some b' := by rw [h', if_neg (by simp)]
      have htags : t = t' ↔ ctx.tenantId = ctx'.tenantId ∧ b' = b := by
        rw [ht, ht', computeEtag_eq_iff hsha, hjson.eq_iff, eq_comm (a := b)]
      rw [hbody', Option.some.injEq, ← htags, h']
      split
      · rename_i hmatch
        exact iff_of_true rfl (Option.some.inj hmatch)
      · rename_i hmatch
        exact iff_of_false (by simp) fun hsame => hmatch (congrArg some hsame)

/-- **Conditional GETs are exact.** Whatever the digest is, a tag names its tenant, and one payload of one tenant has
one tag. It names the payload when the digest has no collisions, and then the three routes answer 304 to the tag of an earlier answer, of whatever route and
state, exactly when they have the same body for the same tenant. -/
theorem conditional_gets_exact :
    (∀ (digest : String → String) (ctx ctx' : RequestContext) (payload payload' : String),
      (computeEtag digest ctx payload = computeEtag digest ctx' payload' → ctx.tenantId = ctx'.tenantId) ∧
      (ctx.tenantId = ctx'.tenantId → payload = payload' →
        computeEtag digest ctx payload = computeEtag digest ctx' payload')) ∧
    ∀ ser : Serializer, Function.Injective ser.sha256 →
      (∀ (ctx ctx' : RequestContext) (payload payload' : String),
        computeEtag ser.sha256 ctx payload = computeEtag ser.sha256 ctx' payload' ↔
          ctx.tenantId = ctx'.tenantId ∧ payload = payload') ∧
      (Function.Injective ser.json →
        ∀ (byName byName' : OrderByName) (ctx ctx' : RequestContext) (now now' : Timestamp) (db db' : Db)
          (req req' : GetRequest) (ifNoneMatch : Option String) (tag : String),
          (req.reply ser byName ctx now db ifNoneMatch).etag = some tag →
            ((req'.reply ser byName' ctx' now' db' (some tag)).status = 304 ↔ ctx.tenantId = ctx'.tenantId ∧
              (req'.reply ser byName' ctx' now' db' none).body = (req.reply ser byName ctx now db none).body)) := by
  refine ⟨fun digest ctx ctx' payload payload' => ⟨fun h => (computeEtag_parts h).1, fun htenant hpayload => ?_⟩,
    fun ser hsha => ⟨?_, ?_⟩⟩
  · exact computeEtag_same htenant hpayload
  · exact fun ctx ctx' payload payload' => computeEtag_eq_iff hsha
  · intro hjson byName byName' ctx ctx' now now' db db' req req' ifNoneMatch tag htag
    exact notModified_iff hsha hjson (serves ser byName ctx now db req) (serves ser byName' ctx' now' db' req') htag

/-! ### The clinic's `north`, asked for twice -/

instance countableChar : Countable Char := Function.Injective.countable (f := Char.toNat) fun _ _ h => Char.toNat_inj.mp h
instance countableString : Countable String := Function.Injective.countable (f := String.toList) fun _ _ h => String.toList_inj.mp h
instance : Countable Uuid := Function.Injective.countable (f := BitVec.toNat) fun _ _ h => BitVec.eq_of_toNat_eq h
instance : Countable Timestamp := Timestamp.key_injective.countable

instance {p s : ℕ} : Countable (Numeric p s) :=
  Function.Injective.countable (f := Numeric.units) fun m n h => by
    cases m
    cases n
    simpa using h

deriving instance Countable for FleetKind, ListingType, LocationStatus, DataSource, MeUser, MeTenant, MeResponse,
  LocationSummary, PageInfo, LocationRating, LocationDetail, Body

theorem exists_injective_of_samples {α : Type} [Countable α] {samples : List (α × String)}
    (hkeys : (samples.map Prod.fst).Nodup) (hvalues : (samples.map Prod.snd).Nodup) :
    ∃ f : α → String, Function.Injective f ∧ ∀ x ∈ samples, f x.1 = x.2 := by
  induction samples with
  | nil =>
    obtain ⟨g, hg⟩ := exists_injective_nat α
    refine ⟨fun a => String.ofList (List.replicate (g a) ' '), fun a b h => hg ?_, by simp⟩
    simpa using congrArg List.length (String.ofList_injective h)
  | cons x samples ih =>
    rw [List.map_cons, List.nodup_cons] at hkeys hvalues
    obtain ⟨f, hf, hsamples⟩ := ih hkeys.2 hvalues.2
    -- The text of `x` changes places with the one that was given to it.
    refine ⟨Equiv.swap (f x.1) x.2 ∘ f, (Equiv.swap (f x.1) x.2).injective.comp hf, fun y hy => ?_⟩
    rcases List.mem_cons.mp hy with rfl | hy
    · exact Equiv.swap_apply_left _ _
    · have hkey : f y.1 ≠ f x.1 := fun h => hkeys.1 (List.mem_map.mpr ⟨y, hy, hf h⟩)
      have hvalue : f y.1 ≠ x.2 := fun h => hvalues.1 (List.mem_map.mpr ⟨y, hy, (hsamples y hy).symm.trans h⟩)
      exact (Equiv.swap_apply_of_ne_of_ne hkey hvalue).trans (hsamples y hy)

def pausedNorth : Location := { clinicLocation 10 "north" with status := .paused }

def pausedClinic : Db := { clinic .active with location := [pausedNorth, clinicLocation 11 "south"] }

/-- What pydantic makes of `north`. -/
def northJson (status : String) : String :=
  "\x7b\"slug\":\"north\",\"name\":\"north\",\"display_name\":null,\"listing_type\":\"facility\",\"fleet\":null," ++
    "\"address\":\"\",\"city\":\"\",\"state\":\"FL\",\"zip\":\"\",\"lat\":null,\"lng\":null,\"cid\":null,\"domain\":null," ++
    "\"is_claimed\":null,\"is_verified\":null,\"rating\":\x7b\"value\":null,\"votes\":null\x7d,\"status\":\"" ++ status ++
    "\",\"source\":\"synthetic\",\"created_at\":\"2026-09-03T12:00:00Z\",\"updated_at\":\"2026-09-03T12:00:00Z\"\x7d"

def northBodies : List (Body × String) :=
  [(.location (.fromModel (clinicLocation 10 "north")), northJson "active"),
    (.location (.fromModel pausedNorth), northJson "paused")]

/-- With their SHA-256. -/
def northDigests : List (String × String) :=
  [(Uuid.str 1 ++ ":" ++ northJson "active", "40a636736d0b92664cb31b2b2fd54c4a534be370068fc7cdebe5f8d1929d63c3"),
    (Uuid.str 1 ++ ":" ++ northJson "paused", "27020fa6def9317217cde98ebed7d1e9e33f96ce4df55111118abd8676fd6e2e")]

theorem exists_north_serializer : ∃ ser : Serializer, Function.Injective ser.sha256 ∧ Function.Injective ser.json ∧
    (∀ x ∈ northBodies, ser.json x.1 = x.2) ∧ ∀ x ∈ northDigests, ser.sha256 x.1 = x.2 := by
  have hbodies : (northBodies.map Prod.fst).Nodup := by
    refine List.nodup_cons.mpr ⟨fun h => ?_, List.nodup_singleton _⟩
    have hstatus := congrArg LocationDetail.status (Body.location.inj (List.mem_singleton.mp h))
    revert hstatus
    decide
  obtain ⟨json, hjson, htexts⟩ := exists_injective_of_samples hbodies (by decide +kernel)
  obtain ⟨sha256, hsha, hdigests⟩ := @exists_injective_of_samples _ _ northDigests (by decide +kernel) (by decide +kernel)
  have hsame : Serializer.json ⟨sha256, fun d => json (.me d), fun d p => json (.page d p), fun d => json (.location d)⟩ =
      json := by
    funext b
    cases b <;> rfl
  exact ⟨⟨sha256, fun d => json (.me d), fun d p => json (.page d p), fun d => json (.location d)⟩, hsha,
    hsame ▸ hjson, hsame ▸ htexts, hdigests⟩

def northTag : String :=
  "\"00000000-0000-0000-0000-000000000001.40a636736d0b92664cb31b2b2fd54c4a534be370068fc7cdebe5f8d1929d63c3\""

theorem location_body {ser : Serializer} {byName : OrderByName} {ctx : RequestContext} {now : Timestamp} {db : Db}
    {slug : String} {l : Location} (hrole : textStorable ctx.role = true) (hslug : textStorable slug = true)
    (h : getBySlug ⟨tenantContext ctx now, db⟩ slug = .ok (some l)) :
    ((GetRequest.location slug).reply ser byName ctx now db none).body = some (.location (.fromModel l)) := by
  simp only [GetRequest.reply, GetRequest.handle, hrole, hslug, if_true, getLocation, h]
  rfl

theorem north_etag {ser : Serializer} (hjson : ∀ x ∈ northBodies, ser.json x.1 = x.2)
    (hsha : ∀ x ∈ northDigests, ser.sha256 x.1 = x.2) :
    ((GetRequest.location "north").reply ser byNameThenId clinicUser noon (clinic .active) none).etag = some northTag := by
  have hfound : getBySlug ⟨tenantContext clinicUser noon, clinic .active⟩ "north" =
      .ok (some (clinicLocation 10 "north")) := by rfl
  have htext : ser.detail (.fromModel (clinicLocation 10 "north")) = northJson "active" :=
    hjson (.location (.fromModel (clinicLocation 10 "north")), northJson "active") List.mem_cons_self
  have hdigest := hsha _ List.mem_cons_self
  have hrole : textStorable clinicUser.role = true := by decide
  have hslug : textStorable "north" = true := by decide
  simp only [GetRequest.reply, GetRequest.handle, hrole, hslug, if_true, getLocation, hfound, respond, matchesEtag,
    Response.seen, htext, computeEtag]
  have htenant : clinicUser.tenantId = 1 := rfl
  rw [htenant, hdigest]
  decide +kernel

/-- The tag of `north` is answered with a 304 while `north` is as it was, and with the data after it was paused. -/
theorem north_revalidates : ∃ ser : Serializer, (∀ x ∈ northBodies, ser.json x.1 = x.2) ∧
    (∀ x ∈ northDigests, ser.sha256 x.1 = x.2) ∧
    ((GetRequest.location "north").reply ser byNameThenId clinicUser noon (clinic .active) (some northTag)).status = 304 ∧
    ((GetRequest.location "north").reply ser byNameThenId clinicUser noon pausedClinic (some northTag)).status ≠ 304 := by
  obtain ⟨ser, hsha, hinj, hjson, hdigests⟩ := exists_north_serializer
  have hexact (db : Db) := (conditional_gets_exact.2 ser hsha).2 hinj byNameThenId byNameThenId clinicUser clinicUser noon
    noon (clinic .active) db (.location "north") (.location "north") none northTag (north_etag hjson hdigests)
  refine ⟨ser, hjson, hdigests, (hexact _).mpr ⟨rfl, rfl⟩, fun h => ?_⟩
  have hbody := ((hexact _).mp h).2
  have hdata (db : Db) {l : Location} := @location_body ser byNameThenId clinicUser noon db "north" l (by decide) (by decide)
  rw [@hdata pausedClinic pausedNorth (by rfl), @hdata (clinic .active) (clinicLocation 10 "north") (by rfl)] at hbody
  have hstatus := congrArg LocationDetail.status (Body.location.inj (Option.some.inj hbody))
  revert hstatus
  decide

end BaptistApi
