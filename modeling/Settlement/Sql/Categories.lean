import Settlement.Sql.Session

/-!
Categories in a database. The uniqueness of a user's names is the database's to keep.
-/

namespace Settlement
namespace Sql
namespace Categories

open Session Fallible

def ofRow (row : Row) : Session ServiceError Category := do
  let id ← column row "category_id" .int64
  let owner ← column row "user_id" (.optional .int64)
  let name ← column row "name" .text
  return ⟨id, owner, name⟩

def find (id : CategoryId) : Session ServiceError (Option Category) := do
  match ← forService (fetchOptional (.selectCategory id)) with
  | none => return none
  | some row => some <$> ofRow row

def listForUser (user : UserId) : Session ServiceError (List Category) := do
  (← forService (fetchAll (.listCategories user))).mapM ofRow

def insert (user : UserId) (name : String) : Session ServiceError (Option Category) := do
  match ← attempt (fetchOne (.insertCategory user name)) with
  | .ok row => some <$> ofRow row
  | .error e => if e.isUniqueViolation then return none else throw (.database e.message)

def answer : (call : CategoryCall) → Flow Request Request.Answer call.Answer
  | .find id => (find id).run
  | .listForUser user => (listForUser user).run
  | .insert user name => (insert user name).run

end Categories
end Sql
end Settlement
