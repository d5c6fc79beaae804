import Settlement.Flow
import Settlement.Transaction.Record

/-!
The single calls that the service makes: on the ledger, the transaction store, the limits, the
categories, the exchange rates and the clock. Each call is one atomic step of its surroundings.
-/

namespace Settlement

structure Limit where
  user : UserId
  daily : Decimal
  single : Decimal
deriving DecidableEq

/-- A category without an owner is global. -/
structure Category where
  id : CategoryId
  owner : Option UserId
  name : String
deriving DecidableEq

structure RateResponse where
  base : String
  rates : List (String × Decimal)

inductive RateError where
  | unavailable (text : String)
deriving DecidableEq

inductive LedgerCall where
  | getAccount (account : AccountId)
  | mutate (direction : Direction) (account : AccountId) (amount : Decimal) (operation : OperationId)
deriving DecidableEq

abbrev LedgerCall.Answer : LedgerCall → Type
  | getAccount _ => Except LedgerError Account
  | mutate .. => Except LedgerError MutationOutcome

inductive StoreCall where
  | insert (new : NewTransaction)
  | get (id : TransactionId)
  | getByKey (key : String)
  | markProcessing (id : TransactionId)
  | advanceStep (id : TransactionId) (step : TransactionStep)
  | finalize (id : TransactionId) (fin : Finalization)
  | findStuck (cutoff : Instant) (limit : Nat)
  | history (account : AccountId) (page : PageRequest)
  | sumSpending (user : UserId) (since : Instant)
deriving DecidableEq

abbrev StoreCall.Answer : StoreCall → Type
  | insert _ => Except ServiceError InsertOutcome
  | get _ => Except ServiceError (Option TransactionRecord)
  | getByKey _ => Except ServiceError (Option TransactionRecord)
  | markProcessing _ => Except ServiceError Bool
  | advanceStep .. => Except ServiceError Bool
  | finalize .. => Except ServiceError Bool
  | findStuck .. => Except ServiceError (List TransactionRecord)
  | history .. => Except ServiceError (Page TransactionRecord)
  | sumSpending .. => Except ServiceError Decimal

inductive LimitCall where
  | find (user : UserId)
  /-- Stores the limit unless the user has one; answers the one stored then. -/
  | insertIfAbsent (limit : Limit)
  | update (limit : Limit)
deriving DecidableEq

abbrev LimitCall.Answer : LimitCall → Type
  | find _ => Except ServiceError (Option Limit)
  | insertIfAbsent _ => Except ServiceError Limit
  | update _ => Except ServiceError Bool

inductive CategoryCall where
  | find (id : CategoryId)
  | listForUser (user : UserId)
  /-- None if the user has a category of this name. -/
  | insert (user : UserId) (name : String)
deriving DecidableEq

abbrev CategoryCall.Answer : CategoryCall → Type
  | find _ => Except ServiceError (Option Category)
  | listForUser _ => Except ServiceError (List Category)
  | insert .. => Except ServiceError (Option Category)

inductive RateCall where
  /-- The rate kept for the pair, if it is still fresh. -/
  | lookup (source target : Currency)
  /-- The provider's answer. -/
  | fetch (source target : Currency)
  | keep (source target : Currency) (rate : Decimal)
deriving DecidableEq

abbrev RateCall.Answer : RateCall → Type
  | lookup .. => Option Decimal
  | fetch .. => Except RateError RateResponse
  | keep .. => Unit

inductive Call where
  | ledger (call : LedgerCall)
  | store (call : StoreCall)
  | limits (call : LimitCall)
  | categories (call : CategoryCall)
  | rates (call : RateCall)
  /-- Reads the clock. -/
  | now
  /-- Waits for some milliseconds. -/
  | pause (milliseconds : Nat)
deriving DecidableEq

abbrev Call.Answer : Call → Type
  | ledger call => call.Answer
  | store call => call.Answer
  | limits call => call.Answer
  | categories call => call.Answer
  | rates call => call.Answer
  | now => Instant
  | pause _ => Unit

abbrev Program (ε : Type) := Fallible Call Call.Answer ε

namespace Program

variable {ε : Type}

def now : Program ε Instant := ExceptT.lift (Flow.query Call.now)

def pause (milliseconds : Nat) : Program ε Unit := ExceptT.lift (Flow.query (Call.pause milliseconds))

def getAccount (account : AccountId) : Program LedgerError Account :=
  ExceptT.mk (Flow.query (Call.ledger (.getAccount account)))

def mutate (direction : Direction) (account : AccountId) (amount : Decimal)
    (operation : OperationId) : Program LedgerError MutationOutcome :=
  ExceptT.mk (Flow.query (Call.ledger (.mutate direction account amount operation)))

def insert (new : NewTransaction) : Program ServiceError InsertOutcome :=
  ExceptT.mk (Flow.query (Call.store (.insert new)))

def get (id : TransactionId) : Program ServiceError (Option TransactionRecord) :=
  ExceptT.mk (Flow.query (Call.store (.get id)))

def getByKey (key : String) : Program ServiceError (Option TransactionRecord) :=
  ExceptT.mk (Flow.query (Call.store (.getByKey key)))

def markProcessing (id : TransactionId) : Program ServiceError Bool :=
  ExceptT.mk (Flow.query (Call.store (.markProcessing id)))

def advanceStep (id : TransactionId) (step : TransactionStep) : Program ServiceError Bool :=
  ExceptT.mk (Flow.query (Call.store (.advanceStep id step)))

def finalize (id : TransactionId) (fin : Finalization) : Program ServiceError Bool :=
  ExceptT.mk (Flow.query (Call.store (.finalize id fin)))

def findStuck (cutoff : Instant) (limit : Nat) : Program ServiceError (List TransactionRecord) :=
  ExceptT.mk (Flow.query (Call.store (.findStuck cutoff limit)))

def history (account : AccountId) (page : PageRequest) :
    Program ServiceError (Page TransactionRecord) :=
  ExceptT.mk (Flow.query (Call.store (.history account page)))

def sumSpending (user : UserId) (since : Instant) : Program ServiceError Decimal :=
  ExceptT.mk (Flow.query (Call.store (.sumSpending user since)))

def findLimit (user : UserId) : Program ServiceError (Option Limit) :=
  ExceptT.mk (Flow.query (Call.limits (.find user)))

def insertLimit (limit : Limit) : Program ServiceError Limit :=
  ExceptT.mk (Flow.query (Call.limits (.insertIfAbsent limit)))

def updateLimit (limit : Limit) : Program ServiceError Bool :=
  ExceptT.mk (Flow.query (Call.limits (.update limit)))

def findCategory (id : CategoryId) : Program ServiceError (Option Category) :=
  ExceptT.mk (Flow.query (Call.categories (.find id)))

def listCategories (user : UserId) : Program ServiceError (List Category) :=
  ExceptT.mk (Flow.query (Call.categories (.listForUser user)))

def insertCategory (user : UserId) (name : String) : Program ServiceError (Option Category) :=
  ExceptT.mk (Flow.query (Call.categories (.insert user name)))

def lookupRate (source target : Currency) : Program ε (Option Decimal) :=
  ExceptT.lift (Flow.query (Call.rates (.lookup source target)))

def fetchRate (source target : Currency) : Program RateError RateResponse :=
  ExceptT.mk (Flow.query (Call.rates (.fetch source target)))

def keepRate (source target : Currency) (rate : Decimal) : Program ε Unit :=
  ExceptT.lift (Flow.query (Call.rates (.keep source target rate)))

end Program
end Settlement
