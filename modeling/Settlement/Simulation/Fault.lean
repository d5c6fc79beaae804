import Settlement.Service.Call

/-!
Scripted faults. Each method of the service's surroundings has a queue of faults, and each call takes
one of them; an empty queue lets the call through.
-/

namespace Settlement
namespace Simulation

inductive Canned where
  /-- Nothing was found or created. -/
  | absent
  | duplicateKey
  | flag (b : Bool)
deriving DecidableEq

inductive Fault where
  /-- The call is made as usual. -/
  | pass
  /-- The ledger fails without doing anything. -/
  | ledger (error : LedgerError)
  /-- The mutation happens, and its success is reported as this error. -/
  | ledgerAfter (error : LedgerError)
  /-- Somebody else ends a record just before the mutation. -/
  | finalizeFirst (id : TransactionId) (fin : Finalization)
  /-- A store fails without doing anything. -/
  | store (error : ServiceError)
  | answer (canned : Canned)
deriving DecidableEq

def method : Call → String
  | .ledger (.getAccount _) => "ledger.get_account"
  | .ledger (.mutate .debit ..) => "ledger.debit"
  | .ledger (.mutate .credit ..) => "ledger.credit"
  | .store (.insert _) => "store.insert"
  | .store (.get _) => "store.get"
  | .store (.getByKey _) => "store.get_by_key"
  | .store (.markProcessing _) => "store.mark_processing"
  | .store (.advanceStep ..) => "store.advance_step"
  | .store (.finalize ..) => "store.finalize"
  | .store (.findStuck ..) => "store.find_stuck"
  | .store (.history ..) => "store.history"
  | .store (.sumSpending ..) => "store.sum_completed_spending"
  | .limits (.find _) => "limits.find"
  | .limits (.insertIfAbsent _) => "limits.insert_if_absent"
  | .limits (.update _) => "limits.update"
  | .categories (.find _) => "categories.find"
  | .categories (.listForUser _) => "categories.list_for_user"
  | .categories (.insert ..) => "categories.insert"
  | .rates _ => "rates"
  | .now => "now"
  | .pause _ => "pause"

def methodOn : LedgerCall → String
  | call@(.getAccount account) | call@(.mutate _ account ..) =>
    method (.ledger call) ++ "#" ++ Digits.intText account

abbrev Script := List (String × List Fault)

namespace Script

def queue (s : Script) (name : String) : List Fault := (s.lookup name).getD []

def setQueue (s : Script) (name : String) (faults : List Fault) : Script :=
  (name, faults) :: s.filter (·.1 != name)

def append (s : Script) (name : String) (faults : List Fault) : Script :=
  s.setQueue name (s.queue name ++ faults)

def next (s : Script) (name : String) : Fault × Script :=
  match s.queue name with
  | [] => (.pass, s)
  | fault :: rest => (fault, s.setQueue name rest)

/-- The fault for a call on the ledger: the account's own, or else that of the method. -/
def nextLedger (s : Script) (call : LedgerCall) : Fault × Script :=
  match s.next (methodOn call) with
  | (.pass, s) => s.next (method (.ledger call))
  | found => found

end Script

def Fault.storeAnswer : Fault → (call : StoreCall) → Option call.Answer
  | .store e, .insert _ | .store e, .get _ | .store e, .getByKey _ | .store e, .markProcessing _
  | .store e, .advanceStep .. | .store e, .finalize .. | .store e, .findStuck ..
  | .store e, .history .. | .store e, .sumSpending .. => some (.error e)
  | .answer .duplicateKey, .insert _ => some (.ok .duplicateKey)
  | .answer .absent, .get _ | .answer .absent, .getByKey _ => some (.ok none)
  | .answer (.flag b), .markProcessing _ | .answer (.flag b), .advanceStep ..
  | .answer (.flag b), .finalize .. => some (.ok b)
  | _, _ => none

def Fault.limitAnswer : Fault → (call : LimitCall) → Option call.Answer
  | .store e, .find _ | .store e, .insertIfAbsent _ | .store e, .update _ => some (.error e)
  | .answer .absent, .find _ => some (.ok none)
  | .answer (.flag b), .update _ => some (.ok b)
  | _, _ => none

def Fault.categoryAnswer : Fault → (call : CategoryCall) → Option call.Answer
  | .store e, .find _ | .store e, .listForUser _ | .store e, .insert .. => some (.error e)
  | .answer .absent, .find _ | .answer .absent, .insert .. => some (.ok none)
  | _, _ => none

end Simulation
end Settlement
