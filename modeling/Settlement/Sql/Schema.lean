import Settlement.Sql.Session

/-!
Setting up a database: its tables and indexes, and the global categories.
-/

namespace Settlement
namespace Sql
namespace Schema

open Session Fallible

def remarked (remark : String) (p : Session SqlError α) : Session String α :=
  p.mapError fun e => remark ++ ": " ++ e.message

def define (remark : String) : List Definition → Session String Unit
  | [] => return ()
  | definition :: rest => do
    let _ ← remarked remark (execute (.define definition))
    define remark rest

def seed : List String → Session String Nat
  | [] => return 0
  | name :: rest => do
    let added ← remarked ("Failed to seed category " ++ name) (execute (.seedCategory name))
    return added + (← seed rest)

def initLedger : Session String Unit := do
  log .info Log.Target.schema "Initializing ledger schema..." []
  define "Failed to create ledger table" Definition.ledger

def initService : Session String Unit := do
  log .info Log.Target.schema "Initializing transaction schema..." []
  define "Failed to create transaction table" Definition.service
  let seeded ← seed Category.defaultNames
  if 0 < seeded then
    log .info Log.Target.schema "Seeded global categories" [("count", .int seeded)]

def ping : Session SqlError Unit := do
  let _ ← execute .ping

end Schema
end Sql
end Settlement
