import Settlement.Money
import Settlement.Ledger.Operation

/-!
Accounts, the outcomes of mutating their balances, and the errors of a ledger.
-/

namespace Settlement

abbrev AccountId := Int
abbrev UserId := Int

/-- Microseconds since the start of the year 2000, UTC. -/
abbrev Instant := Int

def Instant.first : Instant := -8335547913600000000

def Instant.last : Instant := 8209320191999999999

inductive AccountStatus where
  | active | closed
deriving DecidableEq, Repr

namespace AccountStatus

def all : List AccountStatus := [active, closed]

def id : AccountStatus → Int
  | active => 1
  | closed => 2

def name : AccountStatus → String
  | active => "ACTIVE"
  | closed => "CLOSED"

def ofId? (n : Int) : Option AccountStatus := all.find? (·.id == n)

def ofName? (s : String) : Option AccountStatus := all.find? (·.name == s)

end AccountStatus

structure Account where
  id : AccountId
  owner : UserId
  currency : Currency
  balance : Decimal
  status : AccountStatus
deriving DecidableEq

/-- One mutation that a ledger has applied. Debits carry a negative amount. -/
structure AppliedRow where
  operation : OperationId
  account : AccountId
  amount : Decimal
deriving DecidableEq

inductive Direction where
  | debit | credit
deriving DecidableEq, Repr

def Direction.name : Direction → String
  | debit => "Debit"
  | credit => "Credit"

def Direction.delta (direction : Direction) (amount : Decimal) : Decimal :=
  match direction with
  | debit => -amount
  | credit => amount

inductive MutationOutcome where
  /-- The balance changed by this call. -/
  | applied
  /-- The mutation had been applied before; nothing changed. -/
  | replayed
deriving DecidableEq, Repr

def MutationOutcome.name : MutationOutcome → String
  | applied => "Applied"
  | replayed => "Replayed"

inductive LedgerError where
  | accountNotFound (account : AccountId)
  | accountInactive (account : AccountId)
  | insufficientFunds (account : AccountId) (balance requested : Decimal)
  | invalidAmount
  /-- The account was not free in time; the mutation did not happen. -/
  | lockConflict (account : AccountId)
  | unavailable (text : String)
deriving DecidableEq

namespace LedgerError

def message : LedgerError → String
  | accountNotFound account => "Account " ++ Digits.intText account ++ " not found"
  | accountInactive account => "Account " ++ Digits.intText account ++ " is not active"
  | insufficientFunds account balance requested =>
    "Insufficient funds on account " ++ Digits.intText account ++ ": balance " ++ balance.text ++
      ", requested " ++ requested.text
  | invalidAmount => "Amount must be greater than zero"
  | lockConflict account => "Account " ++ Digits.intText account ++ " is locked by another operation"
  | unavailable text => "Ledger unavailable: " ++ text

def code : LedgerError → String
  | accountNotFound _ => "ACCOUNT_NOT_FOUND"
  | accountInactive _ => "ACCOUNT_INACTIVE"
  | insufficientFunds .. => "INSUFFICIENT_FUNDS"
  | invalidAmount => "INVALID_AMOUNT"
  | lockConflict _ => "LOCK_CONFLICT"
  | unavailable _ => "LEDGER_UNAVAILABLE"

def isRetryable : LedgerError → Bool
  | lockConflict _ => true
  | _ => false

end LedgerError
end Settlement
