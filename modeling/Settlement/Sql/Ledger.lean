import Settlement.Sql.Session

/-!
A ledger in a database. A mutation locks the row of its account, looks whether it was applied before,
and then changes the balance and stores the applied row, both in one transaction; nothing is committed
unless both writes went through.
-/

namespace Settlement
namespace Sql
namespace Ledger

open Session Fallible

def name : String := "postgres"

/-- The error of a ledger behind an error of the database. Contention is a conflict. -/
def ofSql (account : AccountId) (e : SqlError) : Session ε LedgerError := do
  let fields := [("account_id", .int account), ("error", .shown e.message)]
  if e.isContention then
    log .debug Log.Target.sqlLedger "Ledger lock contention" fields
    return .lockConflict account
  else
    log .error Log.Target.sqlLedger "Ledger database error" fields
    return .unavailable e.message

def onAccount (account : AccountId) (p : Session SqlError α) : Session LedgerError α := do
  match ← attempt p with
  | .ok a => return a
  | .error e => throw (← ofSql account e)

inductive Verdict where
  | refused (e : LedgerError)
  /-- The applied row was there already. -/
  | known
  /-- Somebody else stored the applied row first. -/
  | outrun
  /-- Both writes went through. -/
  | written
deriving DecidableEq

def underLock (lockTimeoutMs : Nat) (direction : Direction) (account : AccountId) (amount : Decimal)
    (operation : OperationId) : Session SqlError Verdict := do
  let _ ← execute (.setLockTimeout lockTimeoutMs)
  match ← fetchOptional (.lockAccount account) with
  | none => return .refused (.accountNotFound account)
  | some row =>
    let balance ← loggedColumn row "balance" .decimal
    let status ← loggedColumn row "status" .int16
    match balance, status with
    | some balance, some status =>
      if let some found ← fetchOptional (.findApplied operation account) then
        let _ ← scalar found .int32
        return .known
      if AccountStatus.ofId? status ≠ some .active then
        return .refused (.accountInactive account)
      if direction = .debit ∧ balance < amount then
        return .refused (.insufficientFunds account balance amount)
      let delta := direction.delta amount
      let _ ← execute (.addBalance delta account)
      if (← execute (.insertApplied operation account delta)) = 0 then
        return .outrun
      return .written
    | _, _ => return .refused (.unavailable "Critical: accounts_tb row unreadable")

/-- Rolls back. A refused rollback leaves the transaction to be abandoned. -/
def rollBack : Session ε Unit := do
  match ← attempt rollback with
  | .ok () => return ()
  | .error _ => abandon

def mutate (lockTimeoutMs : Nat) (direction : Direction) (account : AccountId) (amount : Decimal)
    (operation : OperationId) : Session LedgerError MutationOutcome := do
  if amount ≤ Decimal.zero then
    throw .invalidAmount
  onAccount account beginTransaction
  let fields := [("account_id", .int account), ("operation_id", .shown operation.text)]
  let named := fields ++ [("direction", Log.FieldValue.shown direction.name)]
  match ← attempt (underLock lockTimeoutMs direction account amount operation) with
  | .error e =>
    let e ← ofSql account e
    abandon
    throw e
  | .ok (.refused e) =>
    rollBack
    throw e
  | .ok .known =>
    rollBack
    log .debug Log.Target.sqlLedger "Ledger mutation already applied" named
    return .replayed
  | .ok .outrun =>
    rollBack
    log .warn Log.Target.sqlLedger "Concurrent duplicate mutation rejected by unique key" fields
    return .replayed
  | .ok .written =>
    match ← attempt commit with
    | .ok () =>
      log .debug Log.Target.sqlLedger "Ledger mutation applied"
        (named ++ [("amount", .shown amount.text)])
      return .applied
    | .error e =>
      let e ← ofSql account e
      abandon
      throw e

def openAccount (owner : UserId) (currency : Currency) : Session LedgerError AccountId :=
  onAccount 0 do scalar (← fetchOne (.openAccount owner currency)) .int64

def closeAccount (account : AccountId) : Session LedgerError Unit := do
  if (← onAccount account (execute (.closeAccount account))) = 0 then
    throw (.accountNotFound account)

def getAccount (account : AccountId) : Session LedgerError Account := do
  match ← onAccount account (fetchOptional (.selectAccount account)) with
  | none => throw (.accountNotFound account)
  | some row =>
    match Currency.read (← column row "currency" .text) with
    | .error e => throw (.unavailable e.message)
    | .ok currency =>
      let status ← column row "status" .int16
      match AccountStatus.ofId? status with
      | none => throw (.unavailable ("Invalid account status: " ++ Digits.intText status))
      | some status =>
        let _ ← instantColumn row "created_at"
        let id ← column row "account_id" .int64
        let owner ← column row "owner_id" .int64
        let balance ← column row "balance" .decimal
        return { id, owner, currency, balance, status }

def answer (lockTimeoutMs : Nat) : (call : LedgerCall) → Flow Request Request.Answer call.Answer
  | .getAccount account => (getAccount account).run
  | .mutate direction account amount operation =>
    (mutate lockTimeoutMs direction account amount operation).run

end Ledger
end Sql
end Settlement
