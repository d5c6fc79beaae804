import Settlement.Json.Reader

/-!
From JSON values to the values of a program. A record is an object with its known members once each,
in any order and with unknown ones between, or an array of its members in order.
-/

namespace Settlement
namespace Json

def members? (names : List String) : Json → Option (List (Option Json))
  | .array items =>
    if items.length ≤ names.length then
      some (items.map some ++ List.replicate (names.length - items.length) none)
    else none
  | .object found =>
    if found.any (·.1.isNone) then none
    else
      names.mapM fun name =>
        match found.filter (·.1 == some name) with
        | [] => some none
        | [(_, v)] => some (some v)
        | _ => none
  | _ => none

def isNull : Json → Bool
  | .null => true
  | _ => false

/-- The member of a name, the last one if it is repeated. -/
def member? (v : Json) (name : String) : Option Json :=
  match v with
  | .object found => (found.reverse.find? (·.1 == some name)).map (·.2)
  | _ => none

def items? : Json → Option (List Json)
  | .array items => some items
  | _ => none

def toString? : Json → Option String
  | .text s => s
  | _ => none

def toBool? : Json → Option Bool
  | .bool b => some b
  | _ => none

def toInt? : Json → Option Int
  | .number n => n.toInt?
  | _ => none

def toIntBetween? (low high : Int) (v : Json) : Option Int := do
  let n ← v.toInt?
  if low ≤ n ∧ n ≤ high then some n else none

def toInt64? (v : Json) : Option Int := v.toIntBetween? minInt64 maxInt64

def toNat64? (v : Json) : Option Nat := (v.toIntBetween? 0 maxNat64).map Int.toNat

def toNat32? (v : Json) : Option Nat := (v.toIntBetween? 0 maxNat32).map Int.toNat

/-- A number in quotes, or any number; one that is no integer of 64 bits by its shortest digits. -/
def toDecimal? : Json → Option Decimal
  | .text (some s) => Decimal.read? s
  | .number (.natural n) => Decimal.of? n 0
  | .number (.negative n) => Decimal.of? (-(n : Int)) 0
  | .number (.binary minus x) => Decimal.readPlain (if minus then '-' :: x.chars else x.chars)
  | _ => none

def optional? (read : Json → Option α) : Option Json → Option (Option α)
  | none | some .null => some none
  | some v => (read v).map some

/-- An object as a map; of a repeated name the last value counts. -/
def toMap? (read : Json → Option α) : Json → Option (List (String × α))
  | .object found =>
    found.foldlM (fun acc (name, v) => do
      let name ← name
      let v ← read v
      some (acc.filter (·.1 != name) ++ [(name, v)])) []
  | _ => none

end Json
end Settlement
