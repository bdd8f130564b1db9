import BaptistApi.Constraints
import BaptistApi.Policies

/-!
# Statements

INSERT, UPDATE and DELETE on one table, with the foreign keys' cascades and the constraints checked
at the end of the statement.
-/

namespace BaptistApi

open BaptistApi.RowSecurity

structure Stmt where
  table : Relation
  body : Statement (Draft table) (Row table)

/-- `ON DELETE CASCADE`, after the rows have left `t`. -/
def cascade (db : Db) : (t : Relation) → List (Row t) → Db
  | .membership, removed =>
    db.set .membershipLocation (db.membershipLocation.filter fun ml =>
      ml.membershipId ∉ removed.map (·.id))
  | .location, removed =>
    (db.set .membershipLocation (db.membershipLocation.filter fun ml =>
      ml.locationId ∉ removed.map (·.id))).set .locationAlias
      (db.locationAlias.filter fun a => a.locationId ∉ removed.map (·.id))
  | _, _ => db

/-- The state after a statement that did `e` to the rows of `t`. -/
def Db.after (db : Db) (t : Relation) (e : Effect (Row t)) : Db :=
  cascade (db.set t e.rows) t e.removed

def execStatement (s : Session) (db : Db) (st : Stmt) : Except SqlError (Effect (Row st.table)) := do
  let e ← (table st.table).exec s.currentUser ⟨s, db⟩ (db.rows st.table) st.body
  if constraintsOk (db.after st.table e) then .ok e else .error .integrity

theorem execStatement_ok {s : Session} {db : Db} {st : Stmt} {e : Effect (Row st.table)}
    (h : execStatement s db st = .ok e) :
    (table st.table).exec s.currentUser ⟨s, db⟩ (db.rows st.table) st.body = .ok e ∧
      constraintsOk (db.after st.table e) := by
  unfold execStatement at h
  obtain ⟨e', he, h⟩ := bind_eq_ok.mp h
  split at h
  · rename_i hc
    cases h
    exact ⟨he, hc⟩
  · simp at h

/-- `INSERT INTO t VALUES (d)` of one row. The row it gives is the one that enters the table. -/
def insertInto (s : Session) (db : Db) (t : Relation) (d : Draft t) (returning : Bool) :
    Except SqlError (Row t) :=
  if (table t).mayUse s.currentUser .insert returning then do
    let r ← (table t).insertRow s.currentUser ⟨s, db⟩ returning d
    if uniqueOk t (db.rows t ++ [r]) ∧ rowOk db t r then .ok r else .error .integrity
  else .error (permissionDenied t)

theorem insertInto_iff {s : Session} {db : Db} {t : Relation} {d : Draft t} {returning : Bool} {r : Row t}
    (hmay : (table t).mayUse s.currentUser .insert returning = true) :
    insertInto s db t d returning = .ok r ↔
      (table t).insertRow s.currentUser ⟨s, db⟩ returning d = .ok r ∧
        uniqueOk t (db.rows t ++ [r]) ∧ rowOk db t r := by
  unfold insertInto
  rw [if_pos hmay, bind_eq_ok]
  constructor
  · rintro ⟨r', hr, h⟩
    split at h
    · rename_i hc
      cases h
      exact ⟨hr, hc⟩
    · simp at h
  · rintro ⟨hr, hc⟩
    exact ⟨r, hr, if_pos hc⟩

theorem constraintsOk_add {db : Db} {t : Relation} {r : Row t} (h : constraintsOk db)
    (hu : uniqueOk t (db.rows t ++ [r])) (hr : rowOk db t r) : constraintsOk (db.add t r) := by
  intro u
  by_cases hut : u = t
  · subst hut
    unfold tableOk
    rw [Db.rows_add_self]
    refine ⟨hu, fun x hx => ?_⟩
    rcases List.mem_append.mp hx with hx | hx
    · exact rowOk_mono (Db.sub_add db u r) ((h u).2 x hx)
    · rw [List.mem_singleton.mp hx]
      exact rowOk_mono (Db.sub_add db u r) hr
  · unfold tableOk
    rw [Db.rows_add_ne _ hut]
    exact ⟨(h u).1, fun x hx => rowOk_mono (Db.sub_add db t r) ((h u).2 x hx)⟩

end BaptistApi
