import Settlement.Service.Categories
import Settlement.Sql.Value

/-!
The statements sent to a database, each as one constructor with what varies in it, and their text and
parameters. Numbers of records reach the database as signed integers of 64 bits.
-/

namespace Settlement
namespace Sql

inductive Definition where
  | accounts | applied
  | categories | transactions | statusIndex | sourceIndex | targetIndex | limits
deriving DecidableEq, Repr

namespace Definition

def ledger : List Definition := [accounts, applied]

def service : List Definition :=
  [categories, transactions, statusIndex, sourceIndex, targetIndex, limits]

def text : Definition → String
  | accounts =>
    "CREATE TABLE IF NOT EXISTS accounts_tb ( account_id BIGSERIAL PRIMARY KEY, " ++
    "owner_id BIGINT NOT NULL, currency VARCHAR(3) NOT NULL, " ++
    "balance NUMERIC(19, 4) NOT NULL DEFAULT 0 CHECK (balance >= 0), " ++
    "status SMALLINT NOT NULL DEFAULT 1, created_at TIMESTAMPTZ NOT NULL DEFAULT NOW() )"
  | applied =>
    "CREATE TABLE IF NOT EXISTS applied_transactions_tb ( operation_id VARCHAR(64) NOT NULL, " ++
    "account_id BIGINT NOT NULL REFERENCES accounts_tb (account_id), " ++
    "amount NUMERIC(19, 4) NOT NULL, applied_at TIMESTAMPTZ NOT NULL DEFAULT NOW(), " ++
    "PRIMARY KEY (operation_id, account_id) )"
  | categories =>
    "CREATE TABLE IF NOT EXISTS transaction_categories_tb ( category_id BIGSERIAL PRIMARY KEY, " ++
    "user_id BIGINT, name VARCHAR(64) NOT NULL, UNIQUE (user_id, name) )"
  | transactions =>
    "CREATE TABLE IF NOT EXISTS transactions_tb ( tx_id BIGSERIAL PRIMARY KEY, " ++
    "user_id BIGINT NOT NULL, source_account_id BIGINT, target_account_id BIGINT, " ++
    "amount NUMERIC(19, 4) NOT NULL, target_amount NUMERIC(19, 4) NOT NULL, " ++
    "exchange_rate NUMERIC(19, 8) NOT NULL, currency VARCHAR(3) NOT NULL, " ++
    "status SMALLINT NOT NULL, step SMALLINT NOT NULL DEFAULT 0, " ++
    "compensation SMALLINT NOT NULL DEFAULT 0, operation_type SMALLINT NOT NULL, " ++
    "category_id BIGINT REFERENCES transaction_categories_tb (category_id), " ++
    "idempotency_key VARCHAR(128) NOT NULL UNIQUE, attempts INT NOT NULL DEFAULT 0, " ++
    "error_message TEXT, created_at TIMESTAMPTZ NOT NULL DEFAULT NOW(), " ++
    "updated_at TIMESTAMPTZ NOT NULL DEFAULT NOW() )"
  | statusIndex =>
    "CREATE INDEX IF NOT EXISTS idx_transactions_status_updated " ++
    "ON transactions_tb (status, updated_at)"
  | sourceIndex =>
    "CREATE INDEX IF NOT EXISTS idx_transactions_source " ++
    "ON transactions_tb (source_account_id, created_at DESC)"
  | targetIndex =>
    "CREATE INDEX IF NOT EXISTS idx_transactions_target " ++
    "ON transactions_tb (target_account_id, created_at DESC)"
  | limits =>
    "CREATE TABLE IF NOT EXISTS transaction_limits_tb ( user_id BIGINT PRIMARY KEY, " ++
    "daily_limit NUMERIC(19, 4) NOT NULL, single_limit NUMERIC(19, 4) NOT NULL )"

end Definition

inductive Statement where
  /-- Does the database answer? -/
  | ping
  | define (definition : Definition)
  /-- Adds a global category, unless there is one of this name. -/
  | seedCategory (name : String)
  | setLockTimeout (milliseconds : Nat)
  /-- Reads balance and status under the lock of the row. -/
  | lockAccount (account : AccountId)
  | findApplied (operation : OperationId) (account : AccountId)
  | addBalance (delta : Decimal) (account : AccountId)
  | insertApplied (operation : OperationId) (account : AccountId) (delta : Decimal)
  | openAccount (owner : UserId) (currency : Currency)
  | closeAccount (account : AccountId)
  | selectAccount (account : AccountId)
  | insertTransaction (new : NewTransaction)
  | selectTransaction (id : TransactionId)
  | selectByKey (key : String)
  | markProcessing (id : TransactionId)
  | advanceStep (id : TransactionId) (step : TransactionStep)
  | finalize (id : TransactionId) (fin : Finalization)
  | findStuck (cutoff : Instant) (limit : Int)
  | countHistory (account : AccountId)
  | selectHistory (account : AccountId) (limit offset : Int)
  | sumSpending (user : UserId) (since : Instant)
  | selectLimit (user : UserId)
  | insertLimit (limit : Limit)
  | updateLimit (limit : Limit)
  | selectCategory (id : CategoryId)
  | listCategories (user : UserId)
  | insertCategory (user : UserId) (name : String)
deriving DecidableEq

/-- A number of 64 bits as the signed integer of the same bits. -/
def signed64 (n : Nat) : Int := Int.bmod n (maxNat64 + 1)

/-- What a signed integer of 64 bits holds is kept. -/
theorem signed64_of_le {n : Nat} (h : n ≤ maxInt64) : signed64 n = n := by
  unfold maxInt64 at h
  exact Int.bmod_eq_of_le (by omega) (by unfold maxNat64; omega)

/-- What it does not hold becomes negative. -/
theorem signed64_of_lt {n : Nat} (h : maxInt64 < n) (hw : n ≤ maxNat64) :
    signed64 n = n - 18446744073709551616 := by
  unfold maxInt64 at h
  unfold maxNat64 at hw
  rw [signed64, maxNat64, Int.bmod_def]
  omega

theorem signed64_neg {n : Nat} (h : maxInt64 < n) (hw : n ≤ maxNat64) : signed64 n < 0 := by
  rw [signed64_of_lt h hw]
  unfold maxNat64 at hw
  omega

namespace Statement

def selectRecords : String :=
  "SELECT tx_id, user_id, source_account_id, target_account_id, amount, target_amount, " ++
  "exchange_rate, currency, status, step, compensation, operation_type, category_id, " ++
  "idempotency_key, attempts, error_message, created_at, updated_at FROM transactions_tb"

def text : Statement → String
  | ping => "SELECT 1"
  | define definition => definition.text
  | seedCategory _ =>
    "INSERT INTO transaction_categories_tb (user_id, name) SELECT NULL, $1::VARCHAR " ++
    "WHERE NOT EXISTS ( SELECT 1 FROM transaction_categories_tb " ++
    "WHERE user_id IS NULL AND name = $1 )"
  | setLockTimeout milliseconds =>
    "SET LOCAL lock_timeout = '" ++ Digits.natText milliseconds ++ "ms'"
  | lockAccount _ => "SELECT balance, status FROM accounts_tb WHERE account_id = $1 FOR UPDATE"
  | findApplied .. =>
    "SELECT 1 FROM applied_transactions_tb WHERE operation_id = $1 AND account_id = $2"
  | addBalance .. => "UPDATE accounts_tb SET balance = balance + $1 WHERE account_id = $2"
  | insertApplied .. =>
    "INSERT INTO applied_transactions_tb (operation_id, account_id, amount, applied_at) " ++
    "VALUES ($1, $2, $3, NOW()) ON CONFLICT (operation_id, account_id) DO NOTHING"
  | openAccount .. =>
    "INSERT INTO accounts_tb (owner_id, currency, balance, status) VALUES ($1, $2, 0, $3) " ++
    "RETURNING account_id"
  | closeAccount _ => "UPDATE accounts_tb SET status = $1 WHERE account_id = $2"
  | selectAccount _ =>
    "SELECT account_id, owner_id, currency, balance, status, created_at FROM accounts_tb " ++
    "WHERE account_id = $1"
  | insertTransaction _ =>
    "INSERT INTO transactions_tb (user_id, source_account_id, target_account_id, amount, " ++
    "target_amount, exchange_rate, currency, status, step, compensation, operation_type, " ++
    "category_id, idempotency_key, created_at, updated_at) VALUES ($1, $2, $3, $4, $5, $6, $7, " ++
    "$8, $9, $10, $11, $12, $13, NOW(), NOW()) RETURNING tx_id"
  | selectTransaction _ => selectRecords ++ " WHERE tx_id = $1"
  | selectByKey _ => selectRecords ++ " WHERE idempotency_key = $1"
  | markProcessing _ =>
    "UPDATE transactions_tb SET status = $1, attempts = attempts + 1, updated_at = NOW() " ++
    "WHERE tx_id = $2 AND status IN ($3, $1)"
  | advanceStep .. =>
    "UPDATE transactions_tb SET step = $1, updated_at = NOW() " ++
    "WHERE tx_id = $2 AND step < $1 AND status IN ($3, $4)"
  | finalize .. =>
    "UPDATE transactions_tb SET status = $1, compensation = $2, error_message = $3, " ++
    "updated_at = NOW() WHERE tx_id = $4 AND status IN ($5, $6)"
  | findStuck .. =>
    selectRecords ++
      " WHERE status IN ($1, $2) AND updated_at < $3 ORDER BY updated_at ASC LIMIT $4"
  | countHistory _ =>
    "SELECT COUNT(*) FROM transactions_tb WHERE source_account_id = $1 OR target_account_id = $1"
  | selectHistory .. =>
    selectRecords ++ " WHERE source_account_id = $1 OR target_account_id = $1 " ++
    "ORDER BY created_at DESC, tx_id DESC LIMIT $2 OFFSET $3"
  | sumSpending .. =>
    "SELECT SUM(target_amount) FROM transactions_tb WHERE user_id = $1 AND status = $2 AND " ++
    "operation_type IN ($3, $4) AND created_at >= $5"
  | selectLimit _ =>
    "SELECT user_id, daily_limit, single_limit FROM transaction_limits_tb WHERE user_id = $1"
  | insertLimit _ =>
    "INSERT INTO transaction_limits_tb (user_id, daily_limit, single_limit) VALUES ($1, $2, $3) " ++
    "ON CONFLICT (user_id) DO NOTHING"
  | updateLimit _ =>
    "UPDATE transaction_limits_tb SET daily_limit = $1, single_limit = $2 WHERE user_id = $3"
  | selectCategory _ =>
    "SELECT category_id, user_id, name FROM transaction_categories_tb WHERE category_id = $1"
  | listCategories _ =>
    "SELECT category_id, user_id, name FROM transaction_categories_tb " ++
    "WHERE user_id IS NULL OR user_id = $1 ORDER BY category_id"
  | insertCategory .. =>
    "INSERT INTO transaction_categories_tb (user_id, name) VALUES ($1, $2) " ++
    "RETURNING category_id, user_id, name"

def openStates : List Arg := [.int TransactionStatus.created.id, .int TransactionStatus.processing.id]

def args : Statement → List Arg
  | ping | define _ | setLockTimeout _ => []
  | seedCategory name => [.text name]
  | lockAccount account | selectAccount account | countHistory account => [.int account]
  | findApplied operation account => [.text operation.text, .int account]
  | addBalance delta account => [.decimal delta, .int account]
  | insertApplied operation account delta => [.text operation.text, .int account, .decimal delta]
  | openAccount owner currency =>
    [.int owner, .text currency.code, .int AccountStatus.active.id]
  | closeAccount account => [.int AccountStatus.closed.id, .int account]
  | insertTransaction new =>
    [.int new.user, .ofOption .int new.source, .ofOption .int new.target, .decimal new.amount,
      .decimal new.targetAmount, .decimal new.rate, .text new.currency.code,
      .int TransactionStatus.created.id, .int TransactionStep.none.id,
      .int CompensationStatus.none.id, .int new.type.id, .ofOption .int new.category, .text new.key]
  | selectTransaction id | selectCategory id => [.int id]
  | selectByKey key => [.text key]
  | markProcessing id =>
    [.int TransactionStatus.processing.id, .int id, .int TransactionStatus.created.id]
  | advanceStep id step => [.int step.id, .int id] ++ openStates
  | finalize id fin =>
    [.int fin.status.id, .int fin.compensation.id, .ofOption .text fin.errorMessage, .int id] ++
      openStates
  | findStuck cutoff limit => openStates ++ [.instant cutoff, .int limit]
  | selectHistory account limit offset => [.int account, .int limit, .int offset]
  | sumSpending user since =>
    [.int user, .int TransactionStatus.completed.id, .int OperationType.transfer.id,
      .int OperationType.withdraw.id, .instant since]
  | selectLimit user | listCategories user => [.int user]
  | insertLimit limit => [.int limit.user, .decimal limit.daily, .decimal limit.single]
  | updateLimit limit => [.decimal limit.daily, .decimal limit.single, .int limit.user]
  | insertCategory user name => [.int user, .text name]

end Statement
end Sql
end Settlement
