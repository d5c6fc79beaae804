import Settlement.Sql.Session

/-!
A transaction store in a database. Each write is one conditional statement; that it changed no row
means that the condition did not hold.
-/

namespace Settlement
namespace Sql
namespace Transactions

open Session Fallible

/-- The value of a state column, or an internal error with the number found there. -/
def stateColumn (row : Row) (name complaint : String) (ofId? : Int → Option α) :
    Session ServiceError α := do
  let id ← column row name .int16
  match ofId? id with
  | some a => return a
  | none => throw (.internal (complaint ++ Digits.intText id))

def ofRow (row : Row) : Session ServiceError TransactionRecord := do
  match Currency.read (← column row "currency" .text) with
  | .error e => throw (.internal e.message)
  | .ok currency =>
    let status ← stateColumn row "status" "Invalid status ID: " TransactionStatus.ofId?
    let step ← stateColumn row "step" "Invalid step ID: " TransactionStep.ofId?
    let compensation ←
      stateColumn row "compensation" "Invalid compensation ID: " CompensationStatus.ofId?
    let type ← stateColumn row "operation_type" "Invalid operation_type: " OperationType.ofId?
    return {
      id := ← column row "tx_id" .int64
      user := ← column row "user_id" .int64
      source := ← column row "source_account_id" (.optional .int64)
      target := ← column row "target_account_id" (.optional .int64)
      amount := ← column row "amount" .decimal
      targetAmount := ← column row "target_amount" .decimal
      rate := ← column row "exchange_rate" .decimal
      currency, status, step, compensation, type
      category := ← column row "category_id" (.optional .int64)
      key := ← column row "idempotency_key" .text
      attempts := ← column row "attempts" .int32
      errorMessage := ← column row "error_message" (.optional .text)
      createdAt := ← instantColumn row "created_at"
      updatedAt := ← instantColumn row "updated_at" }

def ofRows (rows : List Row) : Session ServiceError (List TransactionRecord) := rows.mapM ofRow

def ofRow? : Option Row → Session ServiceError (Option TransactionRecord)
  | none => return none
  | some row => some <$> ofRow row

def get (id : TransactionId) : Session ServiceError (Option TransactionRecord) := do
  ofRow? (← forService (fetchOptional (.selectTransaction id)))

def getByKey (key : String) : Session ServiceError (Option TransactionRecord) := do
  ofRow? (← forService (fetchOptional (.selectByKey key)))

def insertedId (new : NewTransaction) : Session SqlError TransactionId := do
  scalar (← fetchOne (.insertTransaction new)) .int64

def insert (new : NewTransaction) : Session ServiceError InsertOutcome := do
  match ← attempt (insertedId new) with
  | .error e =>
    if e.isUniqueViolation then
      log .warn Log.Target.sqlStore "Idempotency key already taken"
        [("idempotency_key", .shown new.key)]
      return .duplicateKey
    else throw (.database e.message)
  | .ok id =>
    match ← get id with
    | some record => return .inserted record
    | none =>
      throw (.internal ("Transaction " ++ Digits.intText id ++ " vanished after insert"))

def changed (s : Statement) : Session ServiceError Bool := do
  return decide (0 < (← forService (execute s)))

def findStuck (cutoff : Instant) (limit : Nat) :
    Session ServiceError (List TransactionRecord) := do
  ofRows (← forService (fetchAll (.findStuck cutoff (signed64 limit))))

def history (account : AccountId) (page : PageRequest) :
    Session ServiceError (Page TransactionRecord) := do
  let total ← forService do scalar (← fetchOne (.countHistory account)) .int64
  let statement := .selectHistory account (signed64 page.size) (signed64 page.offset)
  let items ← ofRows (← forService (fetchAll statement))
  return ⟨items, page.page, page.size, total.toNat⟩

def sumSpending (user : UserId) (since : Instant) : Session ServiceError Decimal := do
  let sum ← forService do scalar (← fetchOne (.sumSpending user since)) (.optional .decimal)
  return sum.getD .zero

def answer : (call : StoreCall) → Flow Request Request.Answer call.Answer
  | .insert new => (insert new).run
  | .get id => (get id).run
  | .getByKey key => (getByKey key).run
  | .markProcessing id => (changed (.markProcessing id)).run
  | .advanceStep id step => (changed (.advanceStep id step)).run
  | .finalize id fin => (changed (.finalize id fin)).run
  | .findStuck cutoff limit => (findStuck cutoff limit).run
  | .history account page => (history account page).run
  | .sumSpending user since => (sumSpending user since).run

end Transactions
end Sql
end Settlement
