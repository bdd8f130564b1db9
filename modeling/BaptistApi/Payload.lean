import BaptistApi.Replay

/-!
# A key used again

The look-up compares the preview of the request with that of the stored approval, and nothing else.
-/

namespace BaptistApi

open BaptistApi.Calendar BaptistApi.Program BaptistApi.Transactions

structure SamePayload (row : Approval) (r : ExecuteRequest) : Prop where
  preview : row.costPreviewId = some r.previewId
  operation : r.operation = row.operation
  location : r.locationId = row.locationId

/-- The stored response for the same payload only, and the error for any other one. -/
structure RefusesOthers (row : Approval) (r : ExecuteRequest) (answer : Except Exc Value) : Prop where
  stored : ∀ v, answer = .ok v → SamePayload row r
  refused : ¬ SamePayload row r → answer = .error (.problem .duplicateIdempotencyKey)

theorem refusesOthers_iff {row : Approval} {r : ExecuteRequest} :
    RefusesOthers row r (row.answer r) ↔
      (row.costPreviewId = some r.previewId → r.operation = row.operation ∧ r.locationId = row.locationId) := by
  unfold Approval.answer
  constructor
  · intro h hpreview
    rw [if_pos hpreview] at h
    obtain ⟨-, hoperation, hlocation⟩ := h.stored _ rfl
    exact ⟨hoperation, hlocation⟩
  · intro h
    split
    · rename_i hpreview
      have hsame : SamePayload row r := ⟨hpreview, (h hpreview).1, (h hpreview).2⟩
      exact ⟨fun _ _ => hsame, fun hother => absurd hsame hother⟩
    · exact ⟨fun _ hv => by simp at hv, fun _ => rfl⟩

/-- **A key used again is refused for another payload** exactly when the preview differs, or the
operation and the location are those of the approval. -/
theorem reused_key_refused_iff {db : Db} (hk : Keyed db) {row : Approval} (hrow : row ∈ db.approval) {a : Call}
    {r : ExecuteRequest} (ha : Asks row a r) (env : ℕ → Env) :
    RefusesOthers row r (ladder.alone a env db).1 ↔
      (row.costPreviewId = some r.previewId → r.operation = row.operation ∧ r.locationId = row.locationId) := by
  rw [ha.alone hk hrow env]
  exact refusesOthers_iff

def buyOnce : List LadderLabel :=
  .begin (purchase "a" []) :: List.replicate 8 (.exec 0 (queued 30 1)) ++ [.finish 0]

theorem buyOnce_runs : (ladder.run { db := shop } buyOnce).isSome = true := by decide +kernel

def bought : LadderWorld := (ladder.run { db := shop } buyOnce).get buyOnce_runs

theorem bought_approval : bought.db.approval ≠ [] := by decide +kernel

/-- The key and the preview of the purchase, for another operation at one of the locations. -/
def otherPurchase : ExecuteRequest :=
  { tenantId := 1, locationId := some 10, operation := "delete", approvedBy := 2, previewId := 21
    idempotencyKey := "a", repriceCostUsd := 60, providerBalanceUsd := none }

theorem asks_other : Asks (bought.db.approval.head bought_approval)
    { ctx := clinicUser, startedAt := noon, action := .execute otherPurchase } otherPurchase :=
  ⟨rfl, by decide +kernel, by decide +kernel, by decide +kernel⟩

theorem reused_key_refused_iff_bought :
    RefusesOthers (bought.db.approval.head bought_approval) otherPurchase
        (ladder.alone { ctx := clinicUser, startedAt := noon, action := .execute otherPurchase }
          (fun _ => queued 31 2) bought.db).1 ↔
      ((bought.db.approval.head bought_approval).costPreviewId = some otherPurchase.previewId →
        otherPurchase.operation = (bought.db.approval.head bought_approval).operation ∧
          otherPurchase.locationId = (bought.db.approval.head bought_approval).locationId) :=
  reused_key_refused_iff ⟨by decide +kernel, by decide +kernel⟩ (List.head_mem bought_approval) asks_other _

/-- Another operation at another location is answered with the purchase. -/
theorem other_operation_replayed :
    ¬ ∀ (db : Db) (ls : List LadderLabel) (w : LadderWorld), Keyed db → ladder.run { db } ls = some w →
      ∀ row ∈ w.db.approval, ∀ (a : Call) (r : ExecuteRequest) (env : ℕ → Env), Asks row a r →
        RefusesOthers row r (ladder.alone a env w.db).1 := by
  intro h
  have hkeyed : Keyed bought.db := ⟨by decide +kernel, by decide +kernel⟩
  have hrow := List.head_mem bought_approval
  have hrefuses := h shop buyOnce bought ⟨by decide +kernel, by decide +kernel⟩ (Option.some_get buyOnce_runs).symm _
    hrow _ otherPurchase (fun _ => queued 31 2) asks_other
  rw [asks_other.alone hkeyed hrow, refusesOthers_iff] at hrefuses
  have hpreview : (bought.db.approval.head bought_approval).costPreviewId = some otherPurchase.previewId := by
    decide +kernel
  have hoperation : otherPurchase.operation ≠ (bought.db.approval.head bought_approval).operation := by
    decide +kernel
  exact hoperation (hrefuses hpreview).1

end BaptistApi
