/-!
# Problems

The error catalogue of the API, and what the routes make of a query that should give one row.
-/

namespace BaptistApi

inductive ProblemCode where
  | unauthenticated | tokenExpired | tenantScopeMissing | forbiddenRole | locationOutOfScope
  | notFound | conflict | duplicateIdempotencyKey | previewExpired | previewPriceDrift
  | validationError | phiGateFailed | budgetExceeded | balanceFloor | moduleDisabled
  | rateLimited | providerError | providerBlocked | internalError
  deriving DecidableEq

structure ProblemDefinition where
  status : Nat
  title : String
  detail : String
  deriving DecidableEq

def problemDefinitions : ProblemCode → ProblemDefinition
  | .unauthenticated => ⟨401, "Unauthenticated", "Authentication is required."⟩
  | .tokenExpired => ⟨401, "Token expired", "The access token has expired."⟩
  | .tenantScopeMissing => ⟨403, "Tenant scope missing", "The token has no tenant scope."⟩
  | .forbiddenRole => ⟨403, "Forbidden role", "This operation is not available for your role."⟩
  | .locationOutOfScope =>
    ⟨403, "Location out of scope", "The location is outside your assigned scope."⟩
  | .notFound => ⟨404, "Not found", "The requested resource was not found."⟩
  | .conflict => ⟨409, "Conflict", "The resource changed before this operation completed."⟩
  | .duplicateIdempotencyKey =>
    ⟨409, "Duplicate idempotency key", "The idempotency key was already used with a different payload."⟩
  | .previewExpired => ⟨410, "Preview expired", "The cost preview has expired."⟩
  | .previewPriceDrift =>
    ⟨412, "Preview price drift", "The current price differs materially from the preview."⟩
  | .validationError => ⟨422, "Validation error", "The request did not match the API contract."⟩
  | .phiGateFailed => ⟨422, "PHI gate failed", "The content did not pass the PHI check."⟩
  | .budgetExceeded =>
    ⟨402, "Budget exceeded", "The requested operation exceeds the configured budget."⟩
  | .balanceFloor => ⟨402, "Balance floor", "The operation would breach the provider balance floor."⟩
  | .moduleDisabled => ⟨423, "Module disabled", "This module is disabled for the current scope."⟩
  | .rateLimited => ⟨429, "Rate limited", "Too many requests; try again later."⟩
  | .providerError => ⟨502, "Provider error", "An upstream provider failed."⟩
  | .providerBlocked => ⟨503, "Provider blocked", "An upstream provider rejected the request."⟩
  | .internalError => ⟨500, "Internal error", "An unexpected error occurred."⟩

/-- `Result.one_or_none()`; the error is `MultipleResultsFound`. -/
def oneOrNone {α : Type} : List α → Except Unit (Option α)
  | [] => .ok none
  | [a] => .ok (some a)
  | _ :: _ :: _ => .error ()

theorem oneOrNone_eq_none {α : Type} {l : List α} : oneOrNone l = .ok none ↔ l = [] := by
  match l with
  | [] => simp [oneOrNone]
  | [a] => simp [oneOrNone]
  | a :: b :: l => simp [oneOrNone]

theorem oneOrNone_eq_some {α : Type} {l : List α} {a : α} : oneOrNone l = .ok (some a) ↔ l = [a] := by
  match l with
  | [] => simp [oneOrNone]
  | [b] => simp [oneOrNone]
  | b :: c :: l => simp [oneOrNone]

end BaptistApi
