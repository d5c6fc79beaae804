import Settlement.Log.Target
import Settlement.Service.Call

/-!
A ledger in memory: the accounts, the rows of all applied mutations in the order in which they were
applied, and the accounts that somebody holds locked. Each call is one step under the account's lock.
-/

namespace Settlement

structure Book where
  /-- In the order of their ids, from 1. -/
  accounts : List Account := []
  applied : List AppliedRow := []
  held : List AccountId := []
deriving DecidableEq

namespace Book

def account? (b : Book) (id : AccountId) : Option Account := b.accounts.find? (·.id == id)

def row? (b : Book) (operation : OperationId) (account : AccountId) : Option AppliedRow :=
  b.applied.find? fun r => r.operation == operation && r.account == account

def appliedCount (b : Book) (account : AccountId) : Nat :=
  (b.applied.filter (·.account == account)).length

def openAccount (b : Book) (owner : UserId) (currency : Currency) (balance : Decimal) :
    AccountId × Book :=
  let id : AccountId := b.accounts.length + 1
  (id, { b with accounts := b.accounts ++ [⟨id, owner, currency, balance, .active⟩] })

def put (b : Book) (account : Account) : Book :=
  { b with accounts := b.accounts.map fun a => if a.id = account.id then account else a }

def lock (b : Book) (id : AccountId) : Except LedgerError Account :=
  match b.account? id with
  | none => .error (.accountNotFound id)
  | some account => if id ∈ b.held then .error (.lockConflict id) else .ok account

def closeAccount (b : Book) (id : AccountId) : Except LedgerError Unit × Book :=
  match b.lock id with
  | .error e => (.error e, b)
  | .ok account => (.ok (), b.put { account with status := .closed })

def accept (direction : Direction) (account : Account) (amount : Decimal) : Except LedgerError Unit :=
  if account.status ≠ .active then .error (.accountInactive account.id)
  else if direction = .debit ∧ account.balance < amount then
    .error (.insufficientFunds account.id account.balance amount)
  else .ok ()

/-- Applies a mutation unless its operation id was applied to the account before. Status and funds
are looked at only for a new one. -/
def mutate (b : Book) (direction : Direction) (id : AccountId) (amount : Decimal)
    (operation : OperationId) : Flow.Outcome (Except LedgerError MutationOutcome) × Book :=
  if amount ≤ Decimal.zero then (.value (.error .invalidAmount), b)
  else
    match b.lock id with
    | .error e => (.value (.error e), b)
    | .ok account =>
      if (b.row? operation id).isSome then (.value (.ok .replayed), b)
      else
        match accept direction account amount with
        | .error e => (.value (.error e), b)
        | .ok () =>
          match account.balance.add (direction.delta amount) with
          | none => (.panic "Addition overflowed", b)
          | some balance =>
            let b := b.put { account with balance }
            (.value (.ok .applied),
              { b with applied := b.applied ++ [⟨operation, id, direction.delta amount⟩] })

def answer : (call : LedgerCall) → Book → Flow.Outcome call.Answer × Book
  | .getAccount id, b => (.value (b.lock id), b)
  | .mutate direction id amount operation, b => b.mutate direction id amount operation

/-- The account whose lock the call asks for, if it comes that far. -/
def wants (b : Book) : LedgerCall → Option AccountId
  | .getAccount id => (b.account? id).map (·.id)
  | .mutate _ id amount _ => if amount ≤ Decimal.zero then none else (b.account? id).map (·.id)

def events (b : Book) (direction : Direction) (id : AccountId) (amount : Decimal)
    (operation : OperationId) : Except LedgerError MutationOutcome → List Log.Event
  | .error _ => []
  | .ok .replayed =>
    [⟨.debug, Log.Target.memoryLedger, "Ledger mutation already applied",
      [("account_id", .int id), ("operation_id", .shown operation.text),
        ("direction", .shown direction.name)]⟩]
  | .ok .applied =>
    [⟨.debug, Log.Target.memoryLedger, "Ledger mutation applied",
      [("account_id", .int id), ("operation_id", .shown operation.text),
        ("direction", .shown direction.name), ("amount", .shown amount.text),
        ("balance", .shown (((b.account? id).map (·.balance.text)).getD ""))]⟩]

abbrev Mutation := Direction × AccountId × Decimal × OperationId

def eventsOf (b : Book) : List Mutation → List Log.Event
  | [] => []
  | (direction, id, amount, operation) :: rest =>
    match b.mutate direction id amount operation with
    | (.value answer, b) => b.events direction id amount operation answer ++ b.eventsOf rest
    | (.panic _, b) => b.eventsOf rest

end Book
end Settlement
