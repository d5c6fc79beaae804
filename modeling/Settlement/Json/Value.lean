import Settlement.Decimal.Binary

/-!
JSON values. A number is kept by kind: integers of 64 bits exactly, all others as binary numbers. The
members of an object keep their order and their repetitions.
-/

namespace Settlement

inductive Json.Number where
  | natural (n : Nat)
  | negative (magnitude : Nat)
  | binary (minus : Bool) (magnitude : Binary64)
  /-- Larger than any binary number. -/
  | outOfRange
deriving DecidableEq

/-- A text may hold half of a surrogate pair, which no character stands for; it is then `none`. -/
inductive Json where
  | null
  | bool (b : Bool)
  | number (n : Json.Number)
  | text (s : Option String)
  | array (items : List Json)
  | object (members : List (Option String × Json))

namespace Json

instance : Inhabited Json := ⟨.null⟩

def str (s : String) : Json := .text (some s)

def ofNat (n : Nat) : Json := .number (.natural n)

def ofInt (n : Int) : Json :=
  if n < 0 then .number (.negative n.natAbs) else .number (.natural n.natAbs)

def ofOption (encode : α → Json) : Option α → Json
  | none => .null
  | some a => encode a

def record (members : List (String × Json)) : Json :=
  .object (members.map fun (name, v) => (some name, v))

def ofDecimal (d : Decimal) : Json := str d.text

def Number.toInt? : Number → Option Int
  | .natural n => some n
  | .negative n => some (-n)
  | .binary .. | .outOfRange => none

def hexDigit (n : Nat) : Char :=
  if n < 10 then Char.ofNat (48 + n) else Char.ofNat (87 + n)

def escaped (c : Char) : List Char :=
  if c = '"' then ['\\', '"']
  else if c = '\\' then ['\\', '\\']
  else if c = '\n' then ['\\', 'n']
  else if c = '\r' then ['\\', 'r']
  else if c = '\t' then ['\\', 't']
  else if c = Char.ofNat 8 then ['\\', 'b']
  else if c = Char.ofNat 12 then ['\\', 'f']
  else if c.toNat < 32 then
    ['\\', 'u', '0', '0', hexDigit (c.toNat / 16), hexDigit (c.toNat % 16)]
  else [c]

def quoted (s : String) : String :=
  String.ofList ('"' :: s.toList.flatMap escaped ++ ['"'])

def Number.render : Number → String
  | .natural n => Digits.natText n
  | .negative n => "-" ++ Digits.natText n
  | .binary minus x => (if minus then "-" else "") ++ String.ofList x.chars
  | .outOfRange => "null"

mutual
def render : Json → String
  | .null => "null"
  | .bool b => if b then "true" else "false"
  | .number n => n.render
  | .text s => quoted (s.getD "")
  | .array items => "[" ++ ",".intercalate (renderItems items) ++ "]"
  | .object members => "\x7b" ++ ",".intercalate (renderMembers members) ++ "\x7d"

def renderItems : List Json → List String
  | [] => []
  | v :: rest => render v :: renderItems rest

def renderMembers : List (Option String × Json) → List String
  | [] => []
  | (name, v) :: rest => (quoted (name.getD "") ++ ":" ++ render v) :: renderMembers rest
end

end Json
end Settlement
