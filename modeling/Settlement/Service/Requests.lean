import Settlement.Service.Categories
import Settlement.Service.Drive
import Settlement.Service.Limits
import Settlement.Service.Rates

/-!
The requests of callers: transfer, deposit, withdraw and history. A request is checked in full before
its record is stored; a key that has a record already answers with that record.
-/

namespace Settlement

structure TransferRequest where
  source : AccountId
  target : AccountId
  amount : Decimal
  category : Option CategoryId
deriving DecidableEq

structure DepositRequest where
  target : AccountId
  amount : Decimal
  /-- Without effect: deposits have no category. -/
  category : Option CategoryId
deriving DecidableEq

structure WithdrawRequest where
  source : AccountId
  amount : Decimal
  category : Option CategoryId
deriving DecidableEq

namespace Service

open Program Fallible

def requireKey (key : String) : Program ServiceError Unit :=
  if trimBlanks key.toList = [] then throw (.badRequest "Idempotency-Key header is required")
  else return ()

def requireActive (account : Account) : Program ServiceError Unit :=
  if account.status = .active then return () else throw (.accountInactive account.id)

def existingAccount (account : AccountId) : Program ServiceError Account :=
  (getAccount account).mapError fun
    | .accountNotFound _ => .notFound "Account not found"
    | e => e.toService

/-- Another user's account looks exactly like a missing one. -/
def ownedAccount (account : AccountId) (user : UserId) : Program ServiceError Account := do
  let found ← existingAccount account
  if found.owner ≠ user then
    log .debug Log.Target.service "Account not owned by caller"
      [("account_id", .int account), ("user_id", .int user)]
    throw (.notFound "Account not found")
  return found

/-- Answers a request whose key has a record. One that no attempt was started on is driven now. -/
def replay (s : Service) (existing : TransactionRecord) (user : UserId) :
    Program ServiceError TransactionView := do
  if existing.user ≠ user then
    throw (.notFound "Transaction not found")
  log .info Log.Target.service "Idempotency key match: returning previous result"
    [("tx_id", .int existing.id), ("status", .shown existing.status.name)]
  if existing.status = .created then drive s existing.id
  else return existing.view

/-- Stores a transaction and drives it, or answers with the record that took the key meanwhile. -/
def createAndDrive (s : Service) (new : NewTransaction) : Program ServiceError TransactionView := do
  match ← insert new with
  | .inserted tx =>
    log .info Log.Target.service "Transaction created"
      [("tx_id", .int tx.id), ("operation", .shown tx.type.name), ("amount", .shown tx.amount.text),
        ("status", .shown tx.status.name)]
    drive s tx.id
  | .duplicateKey =>
    log .warn Log.Target.service "Concurrent request saved the transaction first"
      [("idempotency_key", .shown new.key)]
    match ← getByKey new.key with
    | none =>
      log .error Log.Target.service "Duplicate key reported but no record found"
        [("idempotency_key", .shown new.key)]
      throw (.internal "Internal conflict handling error")
    | some winner =>
      if winner.user ≠ new.user then
        throw (.notFound "Transaction not found")
      return winner.view

def validAmount (amount : Decimal) : Program ServiceError Decimal :=
  known ((Money.validate amount).mapError MoneyError.toService)

def converted (amount rate : Decimal) : Program ServiceError Decimal :=
  match Money.convert amount rate with
  | some target => return target
  | none => breakOff "Multiplication overflowed"

def newTransfer (s : Service) (request : TransferRequest) (user : UserId) (key : String) :
    Program ServiceError NewTransaction := do
  let amount ← validAmount request.amount
  if request.source = request.target then
    throw (.badRequest "Source and target account cannot be the same")
  let source ← ownedAccount request.source user
  let target ← existingAccount request.target
  requireActive source
  requireActive target
  let rate ← (getRate s source.currency target.currency).mapError RateError.toService
  let targetAmount ← converted amount rate
  let category ← resolveCategory request.category user .transfer
  checkLimit s user targetAmount
  return {
    user, source := some source.id, target := some target.id, amount, targetAmount, rate,
    currency := source.currency, type := .transfer, category := category.map (·.id), key }

def newDeposit (request : DepositRequest) (user : UserId) (key : String) :
    Program ServiceError NewTransaction := do
  let amount ← validAmount request.amount
  let target ← ownedAccount request.target user
  requireActive target
  let _ ← resolveCategory request.category user .deposit
  return {
    user, source := none, target := some target.id, amount, targetAmount := amount, rate := .one,
    currency := target.currency, type := .deposit, category := none, key }

def newWithdraw (s : Service) (request : WithdrawRequest) (user : UserId) (key : String) :
    Program ServiceError NewTransaction := do
  let amount ← validAmount request.amount
  let source ← ownedAccount request.source user
  requireActive source
  let category ← resolveCategory request.category user .withdraw
  checkLimit s user amount
  return {
    user, source := some source.id, target := none, amount, targetAmount := amount, rate := .one,
    currency := source.currency, type := .withdraw, category := category.map (·.id), key }

def submit (s : Service) (user : UserId) (key : String)
    (check : Program ServiceError NewTransaction) : Program ServiceError TransactionView := do
  requireKey key
  match ← getByKey key with
  | some existing => replay s existing user
  | none => createAndDrive s (← check)

def transfer (s : Service) (request : TransferRequest) (user : UserId) (key : String) :
    Program ServiceError TransactionView :=
  submit s user key (newTransfer s request user key)

def deposit (s : Service) (request : DepositRequest) (user : UserId) (key : String) :
    Program ServiceError TransactionView :=
  submit s user key (newDeposit request user key)

def withdraw (s : Service) (request : WithdrawRequest) (user : UserId) (key : String) :
    Program ServiceError TransactionView :=
  submit s user key (newWithdraw s request user key)

def accountHistory (s : Service) (account : AccountId) (user : UserId) (page : PageRequest) :
    Program ServiceError (Page TransactionView) := do
  let _ ← ownedAccount account user
  let records ← history account (page.clamped s.retry.pageSizeMax)
  return records.map (·.view)

end Service
end Settlement
