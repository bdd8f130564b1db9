import BaptistApi.Agreement

/-!
# How often a key is dispatched

A rollback takes the approval row with it, and not the effect of `dispatch`. So a key is dispatched
at most once as long as nothing fails after `dispatch`, and again when something did.
-/

namespace BaptistApi

open BaptistApi.FixedPoint BaptistApi.Program BaptistApi.Transactions

/-! ## What cannot fail after `dispatch` -/

/-- The UPDATE, the bills and the audit card of this call will be accepted. -/
structure Acceptable (db : Db) (a : Call) (r : ExecuteRequest) : Prop where
  role : ActorRole.ofText? a.session.currentRole ≠ none
  actor : a.ctx.actorId ∈ db.userIds
  cost : Numeric.store? 12 4 r.repriceCostUsd ≠ none
  bills : ∀ b ∈ r.bills, (b.tenantId = none ∨ b.tenantId = some a.ctx.tenantId) ∧
    ∃ unitCostUsd costUsd, Numeric.store? 12 6 b.unitCostUsd = some unitCostUsd ∧
      Numeric.store? 12 4 b.costUsd = some costUsd ∧
      ∀ id, rowOk db .costLedger (b.row a.ctx.tenantId a.startedAt.date id unitCostUsd costUsd)

/-- `json.dumps` gives a text of the result, and jsonb takes it. -/
def Storable (stack : Stack) (v : PyVal) : Prop := ∃ text, stack.dumps v = .ok text ∧ text.jsonb ≠ none

abbrev Returnable (r : ExecuteRequest) (v : PyVal) : Prop := Storable r.stack v

theorem Acceptable.sub {db db' : Db} {a : Call} {r : ExecuteRequest} (h : Acceptable db a r)
    (hsub : db.Sub db') : Acceptable db' a r := by
  refine ⟨h.role, ?_, h.cost, fun b hb => ?_⟩
  · obtain ⟨u, hu, hid⟩ := List.mem_map.mp h.actor
    exact List.mem_map.mpr ⟨u, hsub .userProfile u hu, hid⟩
  · obtain ⟨ht, unitCostUsd, costUsd, hu, hc, hok⟩ := h.bills b hb
    exact ⟨ht, unitCostUsd, costUsd, hu, hc, fun id => rowOk_mono hsub (hok id)⟩

section Stages

variable {a : Call} {db : Db} {n : ℕ} {issued : List Cmd} {p : Ladder Value} {ws : List Write}

theorem Standing.count {good : ExecuteRequest → PyVal → Prop} (h : Standing good a db n issued p ws) : n = 0 ∨ n = 1 := by
  cases h with
  | ended h => cases h <;> simp
  | _ => simp

theorem Standing.settles {q : Sql} {k : Reply (.sql q) → Ladder Value}
    (h : Standing Returnable a db 1 issued p ws) (hp : p = .call (.sql q) k)
    (hok : ∀ r, a.action = .execute r → Acceptable db a r) (e : Env) :
    ∃ v ws', runSql a.session e (ladder.view db ws) q = .ok (v, ws') := by
  cases h with
  | @dispatched _ r id v done rest ls hopened hv hb hl =>
    have hacc := hok r hopened.action
    rw [view_openWrites]
    cases rest with
    | nil =>
      obtain ⟨text, htext, hk⟩ := dispatched_prog hp
      cases hk
      obtain ⟨text', htext', hj⟩ := hv
      obtain rfl : text = text' := Except.ok.inj (htext.symm.trans htext')
      obtain ⟨cost, hc⟩ := Option.ne_none_iff_exists'.mp hacc.cost
      obtain ⟨result, hr⟩ := Option.ne_none_iff_exists'.mp hj
      exact ⟨(), _, runSql_updateApproval.mpr ⟨cost, result, hc, hr, rfl⟩⟩
    | cons b rest =>
      cases hp
      have hmem : b ∈ r.bills := by rw [hb]; simp
      obtain ⟨ht, unitCostUsd, costUsd, hu, hc, hrow⟩ := hacc.bills b hmem
      have hrow' := rowOk_mono (sub_openWrites db (r.newApproval.row id) ls) (hrow e.serial)
      exact ⟨(), _, runSql_insertLedger.mpr ⟨ht, unitCostUsd, costUsd, hu, hc, hrow', rfl⟩⟩
  | @closed _ r id v ls row hopened hl hr =>
    cases hp
    have hacc := hok r hopened.action
    obtain ⟨htenant, hlocation, -, -⟩ := hopened.refs
    have hown : refersTo (Db.approvalIds { db with
        approval := db.approval ++ [row], costLedger := db.costLedger ++ ls }) (r.card id).approvalId := by
      intro i hi
      cases hi
      refine List.mem_map.mpr ⟨row, List.mem_append_right _ List.mem_cons_self, hr.id_eq⟩
    obtain ⟨card, hcard⟩ : ∃ card, writeCard a.session { db with
        approval := db.approval ++ [row], costLedger := db.costLedger ++ ls } (r.card id) e.serial = .ok card :=
      writeCard_succeeds _ hacc.role (Option.some_ne_none _) (hopened.tenant ▸ htenant) hlocation hacc.actor hown
    rw [view_closed hr.id_eq hopened.unique]
    exact ⟨card.id, _, (runSql_writeCard rfl).mpr ⟨card, hcard, rfl, rfl⟩⟩
  | ended => cases hp

end Stages

/-! ## Runs in which nothing fails after `dispatch` -/

/-- A call that has dispatched is on its way to commit, or has committed. -/
def Settled (db : Db) (n : ℕ) : LadderSlot → Prop
  | .running tx => n ≠ 0 → (∀ r, tx.call.action = .execute r → Acceptable db tx.call r) ∧
      ∀ x, tx.prog ≠ .raise x
  | .committed _ _ _ => True
  | .rolledBack _ _ => n = 0

theorem Settled.sub {db db' : Db} {n : ℕ} {s : LadderSlot} (h : Settled db n s) (hsub : db.Sub db') :
    Settled db' n s := by
  cases s with
  | running tx => exact fun hn => ⟨fun r hr => ((h hn).1 r hr).sub hsub, (h hn).2⟩
  | committed => trivial
  | rolledBack => exact h

end BaptistApi
