import Settlement.Log.Target
import Settlement.Sql.Statement

/-!
Programs over a database. They open connections, send statements, alone or inside a transaction, and
ask for what lies outside of it: rates, the time and pauses. A transaction ends by a commit, by a
rollback, or by being abandoned, which rolls it back as well.
-/

namespace Settlement
namespace Sql

structure Result where
  rows : List Row
  affected : Nat
deriving DecidableEq

inductive Request where
  | connect (url : String)
  | statement (s : Statement)
  | beginTransaction
  | commit
  | rollback
  /-- Drops an open transaction after an error. -/
  | abandon
  | rates (call : RateCall)
  | now
  | pause (milliseconds : Nat)
deriving DecidableEq

abbrev Request.Answer : Request → Type
  | statement _ => Except SqlError Result
  | connect _ | beginTransaction | commit | rollback => Except SqlError Unit
  | abandon => Unit
  | rates call => call.Answer
  | now => Instant
  | pause _ => Unit

abbrev Session (ε : Type) := Fallible Request Request.Answer ε

namespace Session

open Fallible

variable {ε α : Type}

def connect (url : String) : Session SqlError Unit := do
  if let some fault := Address.fault? url then
    throw (.configuration fault)
  ExceptT.mk (Flow.query (Request.connect url))
  log .info Log.Target.database "PostgreSQL connection pool established" []

def send (s : Statement) : Session SqlError Result := ExceptT.mk (Flow.query (Request.statement s))

def beginTransaction : Session SqlError Unit := ExceptT.mk (Flow.query Request.beginTransaction)

def commit : Session SqlError Unit := ExceptT.mk (Flow.query Request.commit)

def rollback : Session SqlError Unit := ExceptT.mk (Flow.query Request.rollback)

def abandon : Session ε Unit := ExceptT.lift (Flow.query Request.abandon)

def execute (s : Statement) : Session SqlError Nat := Result.affected <$> send s

def fetchAll (s : Statement) : Session SqlError (List Row) := Result.rows <$> send s

def fetchOptional (s : Statement) : Session SqlError (Option Row) := do
  return (← fetchAll s).head?

def fetchOne (s : Statement) : Session SqlError Row := do
  match ← fetchOptional s with
  | some row => return row
  | none => throw .rowNotFound

/-- A value that was read, unless its reading breaks the program off. -/
def settle (read : Except SqlError α) : Session ε (Except SqlError α) :=
  match read with
  | .error e => if e.breaksOff then breakOff e.message else return .error e
  | .ok a => return .ok a

def scalar (row : Row) (r : Reader α) : Session SqlError α := do
  match ← settle (row.first r) with
  | .ok a => return a
  | .error e => throw e

def column (row : Row) (name : String) (r : Reader α) : Session ε α :=
  match row.byName name r with
  | .ok a => return a
  | .error e => breakOff e.message

def instantColumn (row : Row) (name : String) : Session ε Instant := do
  let t ← column row name .instant
  if t < Instant.first ∨ Instant.last < t then breakOff "`NaiveDateTime + TimeDelta` overflowed"
  else return t

/-- A column that is logged if it cannot be read. -/
def loggedColumn (row : Row) (name : String) (r : Reader α) : Session ε (Option α) := do
  match ← settle (row.byName name r) with
  | .ok a => return some a
  | .error e =>
    log .error Log.Target.database ("Failed to read column '" ++ name ++ "': " ++ e.message) []
    return none

def forService (p : Session SqlError α) : Session ServiceError α :=
  p.mapError fun e => .database e.message

end Session
end Sql
end Settlement
