import Settlement.Decimal.Arithmetic
import Settlement.Text.Digits

/-!
Decimals as text. A number is written with all its places. It is read from digits with at most one
point, or from such a base and an exponent of ten.
-/

namespace Settlement
namespace Decimal

def pointed (digits : List Char) : (scale : Nat) → List Char
  | 0 => digits
  | scale@(_ + 1) =>
    let padded := List.replicate (scale + 1 - digits.length) '0' ++ digits
    padded.take (padded.length - scale) ++ '.' :: padded.drop (padded.length - scale)

def chars (d : Decimal) : List Char :=
  let magnitude := pointed (Digits.chars d.coefficient.natAbs) d.scale
  if d.coefficient < 0 then '-' :: magnitude else magnitude

def text (d : Decimal) : String := String.ofList d.chars

instance : ToString Decimal := ⟨text⟩

/-- The first character past the room there is decides the rounding, a half upwards, and nothing
behind it is looked at. A separator or a second point there counts as zero. -/
def closing (mantissa scale : Nat) (c : Char) : Option (Nat × Nat) :=
  match Digits.value? c with
  | some d =>
    if d < 5 then some (mantissa, scale)
    else if mantissa + 1 < capacity then some (mantissa + 1, scale)
    else if scale = 0 then none
    else some ((mantissa + 5) / 10, scale - 1)
  | none => if c = '_' ∨ c = '.' then some (mantissa, scale) else none

/-- The unsigned part of a number: digits, at most one point, separators after the first digit. -/
def readDigits : List Char → (mantissa scale : Nat) → (point seen : Bool) → Option (Nat × Nat)
  | [], mantissa, scale, _, seen => if seen then some (mantissa, scale) else none
  | c :: rest, mantissa, scale, point, seen =>
    if point && scale == maxScale then closing mantissa scale c
    else
      match Digits.value? c with
      | some d =>
        if mantissa * 10 + d < capacity then
          readDigits rest (mantissa * 10 + d) (if point then scale + 1 else scale) point true
        else if point then closing mantissa scale c
        else none
      | none =>
        if c = '.' ∧ point = false then readDigits rest mantissa scale true seen
        else if c = '_' ∧ seen then readDigits rest mantissa scale point seen
        else none

def readPlain : List Char → Option Decimal
  | '-' :: rest => do
    let (mantissa, scale) ← readDigits rest 0 0 false false
    of? (-(mantissa : Int)) scale
  | '+' :: rest => do
    let (mantissa, scale) ← readDigits rest 0 0 false false
    of? mantissa scale
  | rest => do
    let (mantissa, scale) ← readDigits rest 0 0 false false
    of? mantissa scale

/-- The base with its point moved to the left. Places past the last one are rounded away first. -/
def scaledDown (base : Decimal) (exponent : Nat) : Option Decimal :=
  if maxScale < exponent then none
  else if base.scale + exponent ≤ maxScale then of? base.coefficient (base.scale + exponent)
  else of? (base.round (maxScale - exponent)).coefficient maxScale

/-- The base with its point moved to the right. Past the last place the number is multiplied out,
without trailing zeros in its fraction. -/
def scaledUp (base : Decimal) (exponent : Nat) : Option Decimal :=
  if exponent ≤ base.scale then of? base.coefficient (base.scale - exponent)
  else if maxScale < exponent then none
  else do
    let power ← of? (tenTo exponent) 0
    let product ← mul base power
    some product.normalize

def readScientific (cs : List Char) : Option Decimal :=
  let isMark := fun c => c = 'e' ∨ c = 'E'
  match cs.dropWhile (fun c => ¬ isMark c) with
  | [] => none
  | _ :: exponent => do
    let base ← readPlain (cs.takeWhile (fun c => ¬ isMark c))
    match exponent with
    | '-' :: digits => scaledDown base (← (Digits.readNat maxNat32 digits).toOption)
    | digits => scaledUp base (← (Digits.readNat maxNat32 digits).toOption)

def read? (s : String) : Option Decimal :=
  readPlain s.toList <|> readScientific s.toList

end Decimal
end Settlement
