import Settlement.Json.Value

/-!
Reading JSON text. A number that is no integer of 64 bits becomes a binary number: its digits as far
as 64 bits reach, scaled by the power of ten, each of the two steps rounded.
-/

namespace Settlement
namespace Json

def isSpace (c : Char) : Bool := c = ' ' ∨ c = '\n' ∨ c = '\t' ∨ c = '\r'

def skipSpace (cs : List Char) : List Char := cs.dropWhile isSpace

def spanDigits (cs : List Char) : List Nat × List Char :=
  ((cs.takeWhile (Digits.value? · |>.isSome)).filterMap Digits.value?,
    cs.dropWhile (Digits.value? · |>.isSome))

def someDigits (cs : List Char) : Option (List Nat × List Char) :=
  match spanDigits cs with
  | ([], _) => none
  | found => some found

/-- Takes digits onto the significand while it has 64 bits; the digits left over remain. -/
def significand : (acc : Nat) → List Nat → Nat × List Nat
  | acc, [] => (acc, [])
  | acc, d :: rest =>
    if acc * 10 + d ≤ maxNat64 then significand (acc * 10 + d) rest else (acc, d :: rest)

def binary (minus : Bool) (significand : Nat) (exponent : Int) : Number :=
  match (Binary64.nearest significand 1).bind (·.scaled exponent) with
  | some x => .binary minus x
  | none => .outOfRange

def natOfDigits (ds : List Nat) : Nat := ds.foldl (fun acc d => acc * 10 + d) 0

def readExponent : List Char → Option (Int × List Char)
  | '+' :: rest => (someDigits rest).map fun (ds, rest) => ((natOfDigits ds : Int), rest)
  | '-' :: rest => (someDigits rest).map fun (ds, rest) => (-(natOfDigits ds : Int), rest)
  | rest => (someDigits rest).map fun (ds, rest) => ((natOfDigits ds : Int), rest)

def readScale (minus : Bool) (m : Nat) (exponent : Int) : List Char → Option (Number × List Char)
  | 'e' :: rest | 'E' :: rest => do
    let (e, rest) ← readExponent rest
    some (binary minus m (exponent + e), rest)
  | rest => some (binary minus m exponent, rest)

def integer (minus : Bool) (m : Nat) : Number :=
  if !minus then .natural m
  else if 0 < m ∧ minInt64 ≤ -(m : Int) then .negative m
  else binary true m 0

/-- A number behind its sign. A leading zero stands alone. -/
def readMagnitude (minus : Bool) (cs : List Char) : Option (Number × List Char) := do
  let (ds, rest) ← someDigits cs
  if ds.head? = some 0 ∧ 1 < ds.length then none
  let (m, surplus) := significand 0 ds
  match rest with
  | '.' :: rest =>
    let (fraction, rest) ← someDigits rest
    let (m', left) := significand m fraction
    readScale minus m' ((surplus.length : Int) - (fraction.length - left.length : Nat)) rest
  | 'e' :: _ | 'E' :: _ => readScale minus m surplus.length rest
  | _ =>
    if surplus = [] then some (integer minus m, rest)
    else some (binary minus m surplus.length, rest)

def readNumber : List Char → Option (Number × List Char)
  | '-' :: rest => readMagnitude true rest
  | rest => readMagnitude false rest

def hexValue? (c : Char) : Option Nat :=
  if '0' ≤ c ∧ c ≤ '9' then some (c.toNat - 48)
  else if 'a' ≤ c ∧ c ≤ 'f' then some (c.toNat - 87)
  else if 'A' ≤ c ∧ c ≤ 'F' then some (c.toNat - 55)
  else none

def readUnit : List Char → Option (Nat × List Char)
  | a :: b :: c :: d :: rest => do
    let a ← hexValue? a
    let b ← hexValue? b
    let c ← hexValue? c
    let d ← hexValue? d
    some (((a * 16 + b) * 16 + c) * 16 + d, rest)
  | _ => none

def simpleEscape? (c : Char) : Option Char :=
  if c = '"' ∨ c = '\\' ∨ c = '/' then some c
  else if c = 'n' then some '\n'
  else if c = 't' then some '\t'
  else if c = 'r' then some '\r'
  else if c = 'b' then some (Char.ofNat 8)
  else if c = 'f' then some (Char.ofNat 12)
  else none

/-- The characters behind a code unit: itself, the pair it opens, or none for half a pair. -/
def pairUp (unit : Nat) (rest : List Char) : Option Char × List Char :=
  if 0xD800 ≤ unit ∧ unit < 0xDC00 then
    match rest with
    | '\\' :: 'u' :: rest' =>
      match readUnit rest' with
      | some (low, rest'') =>
        if 0xDC00 ≤ low ∧ low < 0xE000 then
          (some (Char.ofNat (0x10000 + (unit - 0xD800) * 0x400 + (low - 0xDC00))), rest'')
        else (none, rest)
      | none => (none, rest)
    | _ => (none, rest)
  else if 0xDC00 ≤ unit ∧ unit < 0xE000 then (none, rest)
  else (some (Char.ofNat unit), rest)

/-- The text up to its closing quote. `acc` holds the characters before, last first; it is `none`
once half a pair was met. -/
def readText : (fuel : Nat) → (acc : Option (List Char)) → List Char →
    Option (Option String × List Char)
  | 0, _, _ => none
  | _, _, [] => none
  | _, acc, '"' :: rest => some (acc.map fun cs => String.ofList cs.reverse, rest)
  | fuel + 1, acc, '\\' :: 'u' :: rest => do
    let (unit, rest) ← readUnit rest
    let (c, rest) := pairUp unit rest
    readText fuel (do (← c) :: (← acc)) rest
  | fuel + 1, acc, '\\' :: e :: rest => do
    let c ← simpleEscape? e
    readText fuel (acc.map (c :: ·)) rest
  | fuel + 1, acc, c :: rest =>
    if c.toNat < 32 ∨ c = '\\' then none else readText fuel (acc.map (c :: ·)) rest

mutual
def readValue : (fuel : Nat) → List Char → Option (Json × List Char)
  | 0, _ => none
  | fuel + 1, cs =>
    match skipSpace cs with
    | 'n' :: 'u' :: 'l' :: 'l' :: rest => some (.null, rest)
    | 't' :: 'r' :: 'u' :: 'e' :: rest => some (.bool true, rest)
    | 'f' :: 'a' :: 'l' :: 's' :: 'e' :: rest => some (.bool false, rest)
    | '"' :: rest => (readText (rest.length + 1) (some []) rest).map fun (s, rest) => (.text s, rest)
    | '[' :: rest =>
      match skipSpace rest with
      | ']' :: rest => some (.array [], rest)
      | rest => readItems fuel [] rest
    | '{' :: rest =>
      match skipSpace rest with
      | '}' :: rest => some (.object [], rest)
      | rest => readMembers fuel [] rest
    | rest => (readNumber rest).map fun (n, rest) => (.number n, rest)

def readItems : (fuel : Nat) → (acc : List Json) → List Char → Option (Json × List Char)
  | 0, _, _ => none
  | fuel + 1, acc, cs => do
    let (v, rest) ← readValue fuel cs
    match skipSpace rest with
    | ',' :: rest => readItems fuel (v :: acc) rest
    | ']' :: rest => some (.array (v :: acc).reverse, rest)
    | _ => none

def readMembers : (fuel : Nat) → (acc : List (Option String × Json)) → List Char →
    Option (Json × List Char)
  | 0, _, _ => none
  | fuel + 1, acc, cs =>
    match skipSpace cs with
    | '"' :: rest => do
      let (name, rest) ← readText (rest.length + 1) (some []) rest
      match skipSpace rest with
      | ':' :: rest => do
        let (v, rest) ← readValue fuel rest
        match skipSpace rest with
        | ',' :: rest => readMembers fuel ((name, v) :: acc) rest
        | '}' :: rest => some (.object ((name, v) :: acc).reverse, rest)
        | _ => none
      | _ => none
    | _ => none
end

def ofText? (s : String) : Option Json := do
  let cs := s.toList
  let (v, rest) ← readValue (2 * cs.length + 2) cs
  if skipSpace rest = [] then some v else none

end Json
end Settlement
