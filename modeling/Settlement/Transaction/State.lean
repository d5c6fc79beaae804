/-!
The states of a transaction record. Each is stored as a small integer and shown by its name.
-/

namespace Settlement

inductive TransactionStatus where
  /-- Stored, no attempt started yet. -/
  | created
  /-- An attempt drives the transaction, or did so and stopped. -/
  | processing
  | completed
  | failed
deriving DecidableEq, Repr

namespace TransactionStatus

def all : List TransactionStatus := [created, processing, completed, failed]

def id : TransactionStatus → Int
  | created => 0
  | processing => 10
  | completed => 20
  | failed => -10

def name : TransactionStatus → String
  | created => "CREATED"
  | processing => "PROCESSING"
  | completed => "COMPLETED"
  | failed => "FAILED"

def isTerminal : TransactionStatus → Bool
  | completed | failed => true
  | created | processing => false

def ofId? (n : Int) : Option TransactionStatus := all.find? (·.id == n)

def ofName? (s : String) : Option TransactionStatus := all.find? (·.name == s)

end TransactionStatus

/-- How far the money of a transfer has moved. Deposits and withdrawals stay at `none`. -/
inductive TransactionStep where
  | none
  /-- The source is debited; the funds are in flight. -/
  | debitDone
  | creditDone
deriving DecidableEq, Repr

namespace TransactionStep

def all : List TransactionStep := [none, debitDone, creditDone]

def id : TransactionStep → Int
  | none => 0
  | debitDone => 10
  | creditDone => 20

def name : TransactionStep → String
  | none => "NONE"
  | debitDone => "DEBIT_DONE"
  | creditDone => "CREDIT_DONE"

def ofId? (n : Int) : Option TransactionStep := all.find? (·.id == n)

def ofName? (s : String) : Option TransactionStep := all.find? (·.name == s)

instance : LT TransactionStep where
  lt a b := a.id < b.id

instance (a b : TransactionStep) : Decidable (a < b) :=
  inferInstanceAs (Decidable (a.id < b.id))

end TransactionStep

inductive OperationType where
  | transfer | deposit | withdraw
deriving DecidableEq, Repr

namespace OperationType

def all : List OperationType := [transfer, deposit, withdraw]

def id : OperationType → Int
  | transfer => 1
  | deposit => 2
  | withdraw => 3

def name : OperationType → String
  | transfer => "TRANSFER"
  | deposit => "DEPOSIT"
  | withdraw => "WITHDRAW"

def isSpending : OperationType → Bool
  | transfer | withdraw => true
  | deposit => false

def ofId? (n : Int) : Option OperationType := all.find? (·.id == n)

def ofName? (s : String) : Option OperationType := all.find? (·.name == s)

end OperationType

inductive CompensationStatus where
  | none
  /-- The source was refunded. -/
  | succeeded
  /-- The source stays debited and nothing was credited. -/
  | failed
deriving DecidableEq, Repr

namespace CompensationStatus

def all : List CompensationStatus := [none, succeeded, failed]

def id : CompensationStatus → Int
  | none => 0
  | succeeded => 1
  | failed => -1

def name : CompensationStatus → String
  | none => "NONE"
  | succeeded => "SUCCEEDED"
  | failed => "FAILED"

def ofId? (n : Int) : Option CompensationStatus := all.find? (·.id == n)

def ofName? (s : String) : Option CompensationStatus := all.find? (·.name == s)

end CompensationStatus
end Settlement
