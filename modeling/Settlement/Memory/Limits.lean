import Settlement.Service.Call

/-!
Limits in memory, one row per user.
-/

namespace Settlement

structure LimitTable where
  rows : List Limit := []
deriving DecidableEq

namespace LimitTable

def row? (t : LimitTable) (user : UserId) : Option Limit := t.rows.find? (·.user == user)

def insertIfAbsent (t : LimitTable) (limit : Limit) : Limit × LimitTable :=
  match t.row? limit.user with
  | some stored => (stored, t)
  | none => (limit, ⟨t.rows ++ [limit]⟩)

def update (t : LimitTable) (limit : Limit) : Bool × LimitTable :=
  if (t.row? limit.user).isSome then
    (true, ⟨t.rows.map fun r => if r.user = limit.user then limit else r⟩)
  else (false, t)

def answer : (call : LimitCall) → LimitTable → Flow.Outcome call.Answer × LimitTable
  | .find user, t => (.value (.ok (t.row? user)), t)
  | .insertIfAbsent limit, t =>
    let (stored, t) := t.insertIfAbsent limit
    (.value (.ok stored), t)
  | .update limit, t =>
    let (done, t) := t.update limit
    (.value (.ok done), t)

end LimitTable
end Settlement
