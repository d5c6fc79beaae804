import Settlement.Service.Strategy

/-!
Driving a stored transaction to its end: bounded attempts with growing pauses, the terminal write, and
the single attempt of a recovery.
-/

namespace Settlement
namespace Service

open Program Fallible

def load (id : TransactionId) : Program ServiceError TransactionRecord := do
  match ← get id with
  | some tx => return tx
  | none => throw (.internal ("Transaction " ++ Digits.intText id ++ " not found"))

def viewOf (id : TransactionId) : Program ServiceError TransactionView :=
  TransactionRecord.view <$> load id

/-- The terminal write. If another driver was first, its outcome stands. -/
def close (id : TransactionId) (fin : Finalization) : Program ServiceError Unit := do
  if !(← finalize id fin) then
    log .debug Log.Target.service "Finalization skipped, already terminal"
      [("tx_id", .int id), ("status", .shown fin.status.name)]

def fail (id : TransactionId) (failure : StrategyFailure) : Program ServiceError ServiceError := do
  close id (.failed failure.error.message failure.compensation)
  if failure.compensation = .failed then
    log .error Log.Target.service "Transaction FAILED, compensation failed"
      [("tx_id", .int id), ("error", .shown failure.error.message)]
  else
    log .warn Log.Target.service "Transaction FAILED"
      [("tx_id", .int id), ("compensation", .shown failure.compensation.name),
        ("error", .shown failure.error.message)]
  return failure.error

def exhaustion (tx : TransactionRecord) (conflict : ServiceError) :
    Compensation → String × ServiceError
  | .failed account e =>
    let error : ServiceError := .compensationFailed ("retries exhausted (" ++ conflict.message ++
      ") and refund of " ++ tx.amount.text ++ " to account " ++ Digits.intText account ++
      " failed (" ++ e.message ++ ")")
    (error.message, error)
  | .notNeeded | .refunded => ("Retry limit exceeded: " ++ conflict.message, conflict)

/-- Ends a record whose attempts all met a conflict. Debited funds are returned first; if that meets
a conflict too, the record stays open for a sweep. -/
def failExhausted (s : Service) (type : OperationType) (id : TransactionId)
    (conflict : ServiceError) : Program ServiceError ServiceError := do
  let tx ← load id
  match ← attempt (compensate type tx) with
  | .ok compensation =>
    let (message, reported) := exhaustion tx conflict compensation
    close id (.failed message compensation.status)
    log .warn Log.Target.service "Transaction FAILED after retry exhaustion"
      [("tx_id", .int id), ("attempts", .int s.retry.maxAttempts),
        ("compensation", .shown compensation.status.name)]
    return reported
  | .error e =>
    if e.isRetryable then
      log .warn Log.Target.service "Refund contended after retry exhaustion, left for recovery"
        [("tx_id", .int id), ("step", .shown tx.step.name), ("error", .shown e.message)]
      return conflict
    else throw e

/-- One attempt. After a conflict comes `again`, if there is an attempt left. -/
def attemptOnce (s : Service) (id : TransactionId) (number : Nat)
    (again : Option (Unit → Program ServiceError TransactionView)) :
    Program ServiceError TransactionView := do
  if !(← markProcessing id) then
    log .debug Log.Target.service "Transaction already terminal, returning it" [("tx_id", .int id)]
    viewOf id
  else
    let tx ← load id
    log .info Log.Target.service "Executing saga attempt"
      [("tx_id", .int id), ("attempt", .int number), ("step", .shown tx.step.name)]
    match ← attempt (execute s tx.type tx) with
    | .ok () =>
      close id .completed
      log .info Log.Target.service "Transaction completed"
        [("tx_id", .int id), ("attempt", .int number)]
      viewOf id
    | .error failure =>
      if failure.isRetryable then
        match again with
        | some again =>
          log .warn Log.Target.service "Ledger conflict, retrying"
            [("tx_id", .int id), ("attempt", .int number),
              ("backoff_ms", .int (s.retry.backoff number)),
              ("error", .shown failure.error.message)]
          pause (s.retry.backoff number)
          again ()
        | none => throw (← failExhausted s tx.type id failure.error)
      else throw (← fail id failure)

def driveFrom (s : Service) (id : TransactionId) : (left number : Nat) →
    Program ServiceError TransactionView
  | 0, number => attemptOnce s id number none
  | left + 1, number => attemptOnce s id number (some fun _ => driveFrom s id left (number + 1))

/-- Drives a record until it is terminal or its attempts are used up. There is at least one. -/
def drive (s : Service) (id : TransactionId) : Program ServiceError TransactionView :=
  driveFrom s id (s.retry.maxAttempts - 1) 1

inductive RecoveryOutcome where
  | completed
  | failed
  /-- The ledger is contended; the record waits for the next sweep. -/
  | deferred
  /-- Someone else ended it first. -/
  | skipped
deriving DecidableEq, Repr

def RecoveryOutcome.name : RecoveryOutcome → String
  | completed => "Completed"
  | failed => "Failed"
  | deferred => "Deferred"
  | skipped => "Skipped"

def recover (s : Service) (id : TransactionId) : Program ServiceError RecoveryOutcome := do
  if !(← markProcessing id) then
    return .skipped
  let current ← load id
  match ← attempt (execute s current.type current) with
  | .ok () =>
    close id .completed
    log .info Log.Target.service "Recovered transaction completed" [("tx_id", .int id)]
    return .completed
  | .error failure =>
    if failure.isRetryable then
      log .warn Log.Target.service "Recovery deferred, ledger busy"
        [("tx_id", .int id), ("error", .shown failure.error.message)]
      return .deferred
    else
      close id (.failed ("Recovery failed: " ++ failure.error.message) failure.compensation)
      log .warn Log.Target.service "Recovered transaction failed"
        [("tx_id", .int id), ("compensation", .shown failure.compensation.name),
          ("error", .shown failure.error.message)]
      return .failed

end Service
end Settlement
