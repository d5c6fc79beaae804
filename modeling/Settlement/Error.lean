import Settlement.Ledger.Account

/-!
The errors of the service: how each is worded, classed and reported.
-/

namespace Settlement

inductive ErrorKind where
  /-- Refused before any effect. -/
  | validation
  /-- Recorded as failed, never retried. -/
  | business
  /-- Contention; retried up to the ceiling of attempts. -/
  | conflict
  /-- The source was debited and the refund failed. -/
  | compensationFailure
  /-- Recorded as failed and reported as internal. -/
  | infrastructure
deriving DecidableEq, Repr

def ErrorKind.name : ErrorKind → String
  | validation => "Validation"
  | business => "Business"
  | conflict => "Conflict"
  | compensationFailure => "CompensationFailure"
  | infrastructure => "Infrastructure"

inductive ServiceError where
  | badRequest (text : String)
  /-- Unknown, or not the caller's to see. -/
  | notFound (text : String)
  | forbidden (text : String)
  | accountNotFound (account : AccountId)
  | accountInactive (account : AccountId)
  | insufficientFunds (account : AccountId)
  | limitExceeded (text : String)
  | externalServiceUnavailable (text : String)
  | conflict (text : String)
  | compensationFailed (text : String)
  | internal (text : String)
  | database (text : String)
deriving DecidableEq

namespace ServiceError

def message : ServiceError → String
  | badRequest text | notFound text | forbidden text | limitExceeded text
  | externalServiceUnavailable text | conflict text => text
  | accountNotFound account => "Account " ++ Digits.intText account ++ " not found"
  | accountInactive account => "Account " ++ Digits.intText account ++ " is not active"
  | insufficientFunds account => "Insufficient funds on account " ++ Digits.intText account
  | compensationFailed text => "Compensation failed: " ++ text
  | internal text => "Internal error: " ++ text
  | database text => "Database error: " ++ text

def kind : ServiceError → ErrorKind
  | badRequest _ | notFound _ | forbidden _ => .validation
  | accountNotFound _ | accountInactive _ | insufficientFunds _ | limitExceeded _
  | externalServiceUnavailable _ => .business
  | conflict _ => .conflict
  | compensationFailed _ => .compensationFailure
  | internal _ | database _ => .infrastructure

def isRetryable (e : ServiceError) : Bool := e.kind == .conflict

def code : ServiceError → String
  | badRequest _ => "BAD_REQUEST"
  | notFound _ => "NOT_FOUND"
  | forbidden _ => "FORBIDDEN"
  | accountNotFound _ => "ACCOUNT_NOT_FOUND"
  | accountInactive _ => "ACCOUNT_INACTIVE"
  | insufficientFunds _ => "INSUFFICIENT_FUNDS"
  | limitExceeded _ => "LIMIT_EXCEEDED"
  | externalServiceUnavailable _ => "EXTERNAL_SERVICE_UNAVAILABLE"
  | conflict _ => "CONFLICT"
  | compensationFailed _ => "COMPENSATION_FAILED"
  | internal _ => "INTERNAL_ERROR"
  | database _ => "DATABASE_ERROR"

def httpStatus : ServiceError → Nat
  | badRequest _ => 400
  | forbidden _ => 403
  | notFound _ => 404
  | conflict _ => 409
  | accountNotFound _ | accountInactive _ | insufficientFunds _ | limitExceeded _ => 422
  | externalServiceUnavailable _ => 503
  | compensationFailed _ | internal _ | database _ => 500

end ServiceError

/-- The balance of an account stays with the ledger; the service passes on the rest. -/
def LedgerError.toService : LedgerError → ServiceError
  | accountNotFound account => .accountNotFound account
  | accountInactive account => .accountInactive account
  | insufficientFunds account _ _ => .insufficientFunds account
  | e@invalidAmount => .badRequest e.message
  | e@(lockConflict _) => .conflict e.message
  | unavailable text => .internal text

def MoneyError.toService (e : MoneyError) : ServiceError := .badRequest e.message

@[simp] theorem LedgerError.toService_isRetryable (e : LedgerError) :
    e.toService.isRetryable = e.isRetryable := by
  cases e <;> rfl

end Settlement
