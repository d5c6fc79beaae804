import Settlement.Sql.Session

/-!
Limits in a database, one row per user.
-/

namespace Settlement
namespace Sql
namespace Limits

open Session Fallible

def ofRow (row : Row) : Session ServiceError Limit := do
  let user ← column row "user_id" .int64
  let daily ← column row "daily_limit" .decimal
  let single ← column row "single_limit" .decimal
  return ⟨user, daily, single⟩

def find (user : UserId) : Session ServiceError (Option Limit) := do
  match ← forService (fetchOptional (.selectLimit user)) with
  | none => return none
  | some row => some <$> ofRow row

def insertIfAbsent (limit : Limit) : Session ServiceError Limit := do
  let _ ← forService (execute (.insertLimit limit))
  match ← find limit.user with
  | some stored => return stored
  | none => throw (.internal ("Limits of user " ++ Digits.intText limit.user ++ " vanished"))

def update (limit : Limit) : Session ServiceError Bool := do
  return decide (0 < (← forService (execute (.updateLimit limit))))

def answer : (call : LimitCall) → Flow Request Request.Answer call.Answer
  | .find user => (find user).run
  | .insertIfAbsent limit => (insertIfAbsent limit).run
  | .update limit => (update limit).run

end Limits
end Sql
end Settlement
