import Settlement.Json.Value

/-!
Log events and the two forms of a log line: plain text, and a JSON record.
-/

namespace Settlement
namespace Log

inductive Level where
  | trace | debug | info | warn | error
deriving DecidableEq, Repr

namespace Level

def all : List Level := [trace, debug, info, warn, error]

def rank : Level → Nat
  | trace => 0
  | debug => 1
  | info => 2
  | warn => 3
  | error => 4

def name : Level → String
  | trace => "TRACE"
  | debug => "DEBUG"
  | info => "INFO"
  | warn => "WARN"
  | error => "ERROR"

def column (level : Level) : String :=
  String.ofList (List.replicate (5 - level.name.length) ' ') ++ level.name

end Level

inductive FieldValue where
  | int (n : Int)
  | flag (b : Bool)
  /-- A text, quoted in a line. -/
  | text (s : String)
  /-- A value by its own text, unquoted in a line. -/
  | shown (s : String)
deriving DecidableEq

structure Event where
  level : Level
  target : String
  message : String
  fields : List (String × FieldValue)
deriving DecidableEq

def escaped (c : Char) : List Char :=
  if c = '"' then ['\\', '"']
  else if c = '\\' then ['\\', '\\']
  else if c = '\n' then ['\\', 'n']
  else if c = '\r' then ['\\', 'r']
  else if c = '\t' then ['\\', 't']
  else [c]

def FieldValue.line : FieldValue → String
  | int n => Digits.intText n
  | flag b => if b then "true" else "false"
  | text s => String.ofList ('"' :: s.toList.flatMap escaped ++ ['"'])
  | shown s => s

def FieldValue.json : FieldValue → Json
  | int n => Json.ofInt n
  | flag b => .bool b
  | text s | shown s => Json.str s

def Event.line (e : Event) : String :=
  e.level.column ++ " " ++ e.message ++
    String.join (e.fields.map fun (name, v) => " " ++ name ++ "=" ++ v.line)

def Event.json (e : Event) : Json :=
  Json.record [
    ("level", Json.str e.level.name),
    ("fields", Json.record (("message", Json.str e.message) :: e.fields.map fun (name, v) => (name, v.json))),
    ("target", Json.str e.target)]

end Log
end Settlement
