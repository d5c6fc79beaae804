import Settlement.Decimal.Text
import Settlement.Sql.Address

/-!
Values in a database: what a statement's parameters carry, what its result has in its columns, and
how a value of the program is read from a column. A column is read at its own type only.
-/

namespace Settlement
namespace Sql

inductive Arg where
  | null
  | int (n : Int)
  | decimal (d : Decimal)
  | text (s : String)
  /-- Microseconds since the start of the year 2000, UTC. -/
  | instant (t : Int)
deriving DecidableEq

def Arg.ofOption (encode : α → Arg) : Option α → Arg
  | none => .null
  | some a => encode a

inductive ColumnType where
  | int8 | int4 | int2 | numeric | text | varchar | timestamptz
deriving DecidableEq, Repr

namespace ColumnType

def all : List ColumnType := [int8, int4, int2, numeric, text, varchar, timestamptz]

def name : ColumnType → String
  | int8 => "INT8"
  | int4 => "INT4"
  | int2 => "INT2"
  | numeric => "NUMERIC"
  | text => "TEXT"
  | varchar => "VARCHAR"
  | timestamptz => "TIMESTAMPTZ"

def ofName? (s : String) : Option ColumnType := all.find? (·.name == s.toUpper)

end ColumnType

/-- The number `coefficient / 10 ^ scale`, of any width. -/
structure Numeric where
  coefficient : Int
  scale : Nat
deriving DecidableEq

inductive Cell where
  | null
  | int (n : Int)
  | numeric (n : Numeric)
  | text (s : String)
  | instant (t : Int)
deriving DecidableEq

structure Column where
  name : String
  type : ColumnType
deriving DecidableEq

def Column.read? (s : String) : Option Column :=
  let tail := s.toList.reverse.takeWhile (· ≠ ':')
  match s.toList.reverse.drop tail.length with
  | ':' :: name => (ColumnType.ofName? (String.ofList tail.reverse)).map (⟨String.ofList name.reverse, ·⟩)
  | _ => none

abbrev Row := List (Column × Cell)

inductive ReadError where
  | mismatch (typeName : String) (wanted found : ColumnType)
  | unexpectedNull
  | unrepresentable
  /-- The program breaks off. -/
  | overflow
deriving DecidableEq

def ReadError.message : ReadError → String
  | mismatch typeName wanted found =>
    "mismatched types; Rust type `" ++ typeName ++ "` (as SQL type `" ++ wanted.name ++
      "`) is not compatible with SQL type `" ++ found.name ++ "`"
  | unexpectedNull => "unexpected null; try decoding as an `Option`"
  | unrepresentable => "value not representable as rust_decimal::Decimal"
  | overflow => "Multiplication overflowed"

namespace Numeric

def read? (s : String) : Option Numeric := do
  let (sign, cs) := match s.toList with
    | '-' :: rest => ((-1 : Int), rest)
    | cs => (1, cs)
  let front := cs.takeWhile (· ≠ '.')
  let fraction := (cs.drop front.length).drop 1
  let digits ← (front ++ fraction).mapM Digits.value?
  if digits.isEmpty then none
  else some ⟨sign * (digits.foldl (fun n d => n * 10 + d) 0 : Nat), fraction.length⟩

/-- The groups of four digits from the point on, the least first, with the power of ten thousand that
each stands for. -/
def groups : (fuel magnitude : Nat) → (weight : Int) → List (Nat × Int)
  | 0, _, _ => []
  | fuel + 1, magnitude, weight =>
    if magnitude = 0 then []
    else (magnitude % 10000, weight) :: groups fuel (magnitude / 10000) (weight + 1)

def power (weight : Int) : Option Decimal :=
  if 0 ≤ weight then Decimal.of? (tenTo (4 * weight.toNat)) 0 else Decimal.of? 1 (4 * weight.natAbs)

def addGroup (sum : Decimal) (digits : Nat) (weight : Int) : Except ReadError Decimal := do
  match power weight, Decimal.of? digits 0 with
  | some power, some digits =>
    match digits.mul power with
    | none => .error .overflow
    | some part =>
      match sum.add part with
      | none => .error .unrepresentable
      | some sum => .ok sum
  | _, _ => .error .unrepresentable

def widen (d : Decimal) : (extra : Nat) → Decimal
  | 0 => d
  | extra + 1 =>
    match Decimal.of? (d.coefficient * 10) (d.scale + 1) with
    | some wider => widen wider extra
    | none => d

def atScale (d : Decimal) (scale : Nat) : Decimal :=
  if scale ≤ d.scale then d.round scale else widen d (scale - d.scale)

/-- The number group by group, the greatest first, at its own scale. A zero has no places. -/
def toDecimal (n : Numeric) : Except ReadError Decimal := do
  if n.coefficient = 0 then return .zero
  let places := (n.scale + 3) / 4
  let magnitude := n.coefficient.natAbs * tenTo (4 * places - n.scale)
  let found := (groups (magnitude.log2 + 1) magnitude (-(places : Int))).filter (·.1 ≠ 0)
  let sum ← found.reverse.foldlM (fun sum (digits, weight) => addGroup sum digits weight) Decimal.zero
  return atScale (if n.coefficient < 0 then -sum else sum) n.scale

end Numeric

structure Reader (α : Type) where
  /-- The name of the type in messages. -/
  typeName : String
  /-- The column type that messages ask for. -/
  wanted : ColumnType
  accepts : ColumnType → Bool := (· == wanted)
  ofNull : Except ReadError α := .error .unexpectedNull
  ofCell : Cell → Except ReadError α

namespace Reader

def int64 : Reader Int where
  typeName := "i64"
  wanted := .int8
  ofCell
    | .int n => .ok n
    | _ => .error .unrepresentable

def int32 : Reader Int := { int64 with typeName := "i32", wanted := .int4, accepts := (· == .int4) }

def int16 : Reader Int := { int64 with typeName := "i16", wanted := .int2, accepts := (· == .int2) }

def decimal : Reader Decimal where
  typeName := "rust_decimal::decimal::Decimal"
  wanted := .numeric
  ofCell
    | .numeric n => n.toDecimal
    | _ => .error .unrepresentable

def text : Reader String where
  typeName := "alloc::string::String"
  wanted := .text
  accepts := fun type => type == .text || type == .varchar
  ofCell
    | .text s => .ok s
    | _ => .error .unrepresentable

def instant : Reader Int where
  typeName := "chrono::datetime::DateTime<chrono::offset::utc::Utc>"
  wanted := .timestamptz
  ofCell
    | .instant t => .ok t
    | _ => .error .unrepresentable

def optional (r : Reader α) : Reader (Option α) where
  typeName := "core::option::Option<" ++ r.typeName ++ ">"
  wanted := r.wanted
  accepts := r.accepts
  ofNull := .ok none
  ofCell cell := (r.ofCell cell).map some

def read (r : Reader α) (type : ColumnType) (cell : Cell) : Except ReadError α :=
  if cell = .null then r.ofNull
  else if r.accepts type then r.ofCell cell
  else .error (.mismatch r.typeName r.wanted type)

end Reader

inductive SqlError where
  | configuration (fault : AddressFault)
  /-- No connection in time. -/
  | poolTimedOut
  /-- Reported by the database, under a code of five characters. -/
  | database (code : Option String) (text : String)
  | rowNotFound
  | columnNotFound (name : String)
  | columnOutOfBounds (length index : Nat)
  | columnDecode (column : String) (cause : ReadError)
deriving DecidableEq

namespace SqlError

def message : SqlError → String
  | configuration fault => "error with configuration: " ++ fault.message
  | poolTimedOut => "pool timed out while waiting for an open connection"
  | database _ text => "error returned from database: " ++ text
  | rowNotFound => "no rows returned by a query that expected to return at least one row"
  | columnNotFound name => "no column found for name: " ++ name
  | columnOutOfBounds length index =>
    "column index out of bounds: the len is " ++ Digits.natText length ++ ", but the index is " ++
      Digits.natText index
  | columnDecode column cause =>
    "error occurred while decoding column " ++ column ++ ": " ++ cause.message

def causes : SqlError → List String
  | configuration fault => fault.remarks
  | database _ text => [text]
  | columnDecode _ cause => [cause.message]
  | poolTimedOut | rowNotFound | columnNotFound _ | columnOutOfBounds .. => []

def state? : SqlError → Option String
  | database code _ => code
  | _ => none

def breaksOff : SqlError → Bool
  | columnDecode _ .overflow => true
  | _ => false

def isUniqueViolation (e : SqlError) : Bool := e.state? == some "23505"

/-- Worth another try while connecting: too many connections, or not ready yet. -/
def isTransient (e : SqlError) : Bool := e.state? == some "53300" || e.state? == some "57P03"

/-- Somebody else holds the row: it was locked for too long, or the transactions clashed. -/
def isContention (e : SqlError) : Bool :=
  e.state? == some "55P03" || e.state? == some "40P01" || e.state? == some "40001"

end SqlError

namespace Row

def byName (row : Row) (name : String) (r : Reader α) : Except SqlError α :=
  match row.reverse.find? (·.1.name == name) with
  | none => .error (.columnNotFound name)
  | some (column, cell) => (r.read column.type cell).mapError (.columnDecode ("\"" ++ name ++ "\""))

def first (row : Row) (r : Reader α) : Except SqlError α :=
  match row with
  | [] => .error (.columnOutOfBounds 0 0)
  | (column, cell) :: _ => (r.read column.type cell).mapError (.columnDecode "0")

end Row
end Sql
end Settlement
