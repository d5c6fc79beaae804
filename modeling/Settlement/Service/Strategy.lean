import Settlement.Service.Basic

/-!
What each type of transaction does to the ledger. A deposit is one credit and a withdrawal one debit.
A transfer debits its source and then credits its target, storing each step; a credit that fails for
good is answered by a refund under an operation id of its own.
-/

namespace Settlement

structure StrategyFailure where
  error : ServiceError
  compensation : CompensationStatus
deriving DecidableEq

namespace StrategyFailure

def plain (e : ServiceError) : StrategyFailure := ⟨e, .none⟩

def ofLedger (e : LedgerError) : StrategyFailure := plain e.toService

def isRetryable (f : StrategyFailure) : Bool := f.error.isRetryable

end StrategyFailure

inductive Compensation where
  | notNeeded
  | refunded
  /-- The refund was refused for good; the source stays debited. -/
  | failed (account : AccountId) (error : LedgerError)
deriving DecidableEq

def Compensation.status : Compensation → CompensationStatus
  | notNeeded => .none
  | refunded => .succeeded
  | failed .. => .failed

namespace Service

open Program Fallible

def sourceOf (tx : TransactionRecord) : Except ServiceError AccountId :=
  match tx.source with
  | some account => .ok account
  | none => .error (.internal ("Transaction " ++ Digits.intText tx.id ++ " has no source account"))

def targetOf (tx : TransactionRecord) : Except ServiceError AccountId :=
  match tx.target with
  | some account => .ok account
  | none => .error (.internal ("Transaction " ++ Digits.intText tx.id ++ " has no target account"))

/-- Credits the source with the debited amount, under the operation id of the compensation. -/
def refund (tx : TransactionRecord) (source : AccountId) : Program LedgerError Unit := do
  match ← attempt (mutate .credit source tx.amount (.compensation tx.id)) with
  | .ok _ =>
    log .info Log.Target.strategy "Compensation refund applied"
      [("tx_id", .int tx.id), ("account_id", .int source), ("amount", .shown tx.amount.text)]
  | .error e =>
    log .error Log.Target.strategy "Compensation refund failed, manual reconciliation required"
      [("tx_id", .int tx.id), ("account_id", .int source), ("amount", .shown tx.amount.text),
        ("code", .text e.code), ("error", .shown e.message)]
    throw e

def debitSource (s : Service) (tx : TransactionRecord) (source : AccountId) :
    Program StrategyFailure Unit := do
  let _ ← mapError .ofLedger (mutate .debit source tx.amount (.forward tx.id))
  let _ ← mapError .plain (advanceStep tx.id .debitDone)
  log .info Log.Target.strategy "Transfer debit done"
    [("tx_id", .int tx.id), ("ledger", .text s.ledgerName), ("account_id", .int source),
      ("amount", .shown tx.amount.text), ("step", .shown TransactionStep.debitDone.name)]

/-- The refund after a credit that failed for good with `e`. A contended refund leaves the transfer as
it is, for another attempt. -/
def refundAfter (tx : TransactionRecord) (source target : AccountId) (e : LedgerError) :
    Program StrategyFailure Unit := do
  match ← attempt (refund tx source) with
  | .ok () => throw ⟨e.toService, .succeeded⟩
  | .error r =>
    if r.isRetryable then throw (.ofLedger r)
    else
      throw ⟨.compensationFailed ("credit to account " ++ Digits.intText target ++ " failed (" ++
        e.message ++ ") and refund of " ++ tx.amount.text ++ " to account " ++
        Digits.intText source ++ " failed (" ++ r.message ++ ")"), .failed⟩

def creditTarget (s : Service) (tx : TransactionRecord) (source target : AccountId) :
    Program StrategyFailure Unit := do
  match ← attempt (mutate .credit target tx.targetAmount (.forward tx.id)) with
  | .ok _ =>
    let _ ← mapError .plain (advanceStep tx.id .creditDone)
    log .info Log.Target.strategy "Transfer credit done"
      [("tx_id", .int tx.id), ("ledger", .text s.ledgerName), ("account_id", .int target),
        ("amount", .shown tx.targetAmount.text), ("step", .shown TransactionStep.creditDone.name)]
  | .error e =>
    if e.isRetryable then throw (.ofLedger e)
    log .warn Log.Target.strategy "Transfer credit failed, compensating"
      [("tx_id", .int tx.id), ("account_id", .int target), ("code", .text e.code),
        ("error", .shown e.message)]
    refundAfter tx source target e

def executeTransfer (s : Service) (tx : TransactionRecord) : Program StrategyFailure Unit := do
  let source ← known ((sourceOf tx).mapError .plain)
  let target ← known ((targetOf tx).mapError .plain)
  match tx.step with
  | .none =>
    debitSource s tx source
    creditTarget s tx source target
  | .debitDone => creditTarget s tx source target
  | .creditDone => return ()

def executeDeposit (s : Service) (tx : TransactionRecord) : Program StrategyFailure Unit := do
  let target ← known ((targetOf tx).mapError .plain)
  let _ ← mapError .ofLedger (mutate .credit target tx.amount (.forward tx.id))
  log .info Log.Target.strategy "Deposit credited"
    [("tx_id", .int tx.id), ("ledger", .text s.ledgerName), ("account_id", .int target),
      ("amount", .shown tx.amount.text)]

def executeWithdraw (s : Service) (tx : TransactionRecord) : Program StrategyFailure Unit := do
  let source ← known ((sourceOf tx).mapError .plain)
  let _ ← mapError .ofLedger (mutate .debit source tx.amount (.forward tx.id))
  log .info Log.Target.strategy "Withdrawal debited"
    [("tx_id", .int tx.id), ("ledger", .text s.ledgerName), ("account_id", .int source),
      ("amount", .shown tx.amount.text)]

def execute (s : Service) (type : OperationType) (tx : TransactionRecord) :
    Program StrategyFailure Unit :=
  match type with
  | .transfer => executeTransfer s tx
  | .deposit => executeDeposit s tx
  | .withdraw => executeWithdraw s tx

/-- Returns the debited funds of a transfer that will not complete. Other types and other steps have
nothing to return. -/
def compensate (type : OperationType) (tx : TransactionRecord) :
    Program ServiceError Compensation := do
  if type ≠ .transfer ∨ tx.step ≠ .debitDone then
    return .notNeeded
  let source ← known (sourceOf tx)
  match ← attempt (refund tx source) with
  | .ok () => return .refunded
  | .error e => if e.isRetryable then throw e.toService else return .failed source e

end Service
end Settlement
