import Settlement.Sql.Categories
import Settlement.Sql.Ledger
import Settlement.Sql.Limits
import Settlement.Sql.Transactions

/-!
The service over a database: each of its calls becomes a session.
-/

namespace Settlement
namespace Sql

def answer (lockTimeoutMs : Nat) : (call : Call) → Flow Request Request.Answer call.Answer
  | .ledger call => Ledger.answer lockTimeoutMs call
  | .store call => Transactions.answer call
  | .limits call => Limits.answer call
  | .categories call => Categories.answer call
  | .rates call => Flow.query (Request.rates call)
  | .now => Flow.query Request.now
  | .pause milliseconds => Flow.query (Request.pause milliseconds)

def session (lockTimeoutMs : Nat) (p : Program ε α) : Session ε α :=
  ExceptT.mk (p.run.through (answer lockTimeoutMs))

end Sql
end Settlement
