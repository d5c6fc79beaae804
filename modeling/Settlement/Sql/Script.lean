import Settlement.Sql.Session

/-!
A database with scripted replies. Every statement takes the next reply; what was sent is kept, with all
of a transaction in one place.
-/

namespace Settlement
namespace Sql

inductive Reply where
  | result (r : Result)
  | error (e : SqlError)
deriving DecidableEq

inductive Item where
  | statement (s : Statement)
  /-- The word that opens or closes it. -/
  | word (w : String)
deriving DecidableEq

inductive Sent where
  | alone (s : Statement)
  | together (items : List Item)
deriving DecidableEq

structure Script where
  replies : List Reply := []
  /-- The word in the addresses that lead to this database; at others nobody answers. -/
  place : String := "SOCKET"
  /-- The answer to every attempt to connect, if it is an error. -/
  connectError : Option SqlError := none
  /-- Errors for the next opening and closing words. -/
  beginError : Option SqlError := none
  commitError : Option SqlError := none
  rollbackError : Option SqlError := none
  sent : List Sent := []
  /-- The transaction that is open. -/
  current : Option (List Item) := none

namespace Script

def now : Instant := 5123456789012345

/-- A script that has run out answers that no row was changed. -/
def next (s : Script) : Reply × Script :=
  match s.replies with
  | [] => (.result ⟨[], 0⟩, s)
  | reply :: rest => (reply, { s with replies := rest })

def record (s : Script) (statement : Statement) : Script :=
  match s.current with
  | none => { s with sent := s.sent ++ [.alone statement] }
  | some items => { s with current := some (items ++ [.statement statement]) }

def addWord (s : Script) (word : String) : Script :=
  { s with current := some (s.current.getD [] ++ [.word word]) }

def close (s : Script) : Script :=
  match s.current with
  | none => s
  | some items => { s with sent := s.sent ++ [.together items], current := none }

/-- A closing word; a refused one leaves the transaction open. -/
def closeWith (s : Script) (word : String) (refusal : Option SqlError) :
    Except SqlError Unit × Script :=
  match refusal with
  | some e => (.error e, s.addWord word)
  | none => (.ok (), (s.addWord word).close)

def abandon (s : Script) : Script :=
  match s.current with
  | none => s
  | some _ => { (s.addWord "ROLLBACK").close with rollbackError := none }

/-- An error that is worth another try is met until the time for it is over. -/
def connect (s : Script) (url : String) : Except SqlError Unit :=
  if (url.splitOn s.place).length < 2 then .error .poolTimedOut
  else
    match s.connectError with
    | none => .ok ()
    | some e => .error (if e.isTransient then .poolTimedOut else e)

def answer : (request : Request) → Script → Flow.Outcome request.Answer × Script
  | .connect url, s => (.value (s.connect url), s)
  | .statement statement, s =>
    let (reply, s) := (s.record statement).next
    match reply with
    | .result r => (.value (.ok r), s)
    | .error e => (.value (.error e), s)
  | .beginTransaction, s =>
    match s.beginError with
    | some e => (.value (.error e), { (s.addWord "BEGIN").close with beginError := none })
    | none => (.value (.ok ()), s.addWord "BEGIN")
  | .commit, s =>
    let (answer, s') := s.closeWith "COMMIT" s.commitError
    (.value answer, { s' with commitError := none })
  | .rollback, s =>
    let (answer, s') := s.closeWith "ROLLBACK" s.rollbackError
    (.value answer, { s' with rollbackError := none })
  | .abandon, s => (.value (), s.abandon)
  | .rates (.lookup ..), s => (.value none, s)
  | .rates (.fetch source _), s => (.value (.ok ⟨source.code, []⟩), s)
  | .rates (.keep ..), s => (.value (), s)
  | .now, s => (.value now, s)
  | .pause _, s => (.value (), s)

/-- Runs a flow. One that breaks off abandons its transaction. -/
def run (flow : Flow Request Request.Answer α) (s : Script) :
    Flow.Outcome α × List Log.Event × Script :=
  let (outcome, events, s) := flow.run answer s
  (outcome, events, s.abandon)

def week : Int := 7 * 24 * 3600 * 1000000

end Script

/-- A parameter in the record of what was sent. Instants near the present are not told apart. -/
def Arg.json : Arg → Json
  | .null => .null
  | .int n => .ofInt n
  | .decimal d => .str (if d.isZero then "0" else d.text)
  | .text s => .str s
  | .instant t => if (t - Script.now).natAbs ≤ Script.week.natAbs then .str "recent" else .ofInt t

def Statement.json (s : Statement) : Json := .array (.str s.text :: s.args.map Arg.json)

def Item.json : Item → Json
  | .statement s => s.json
  | .word w => .str w

def Sent.json : Sent → Json
  | .alone s => s.json
  | .together items => .array (items.map Item.json)

end Sql
end Settlement
