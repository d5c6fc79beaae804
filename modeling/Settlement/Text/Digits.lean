import Settlement.Width

/-!
Whole numbers as decimal digits, most significant first, and the reading of digit strings into
bounded integers. A reader reports the first fault from the left.
-/

namespace Settlement
namespace Digits

def ofNat (n : Nat) : Char := Char.ofNat (48 + n)

def value? (c : Char) : Option Nat :=
  if '0' ≤ c ∧ c ≤ '9' then some (c.toNat - 48) else none

def prepend (n : Nat) (rest : List Char) : List Char :=
  if n < 10 then ofNat n :: rest
  else prepend (n / 10) (ofNat (n % 10) :: rest)
termination_by n

def chars (n : Nat) : List Char := prepend n []

def signedChars (n : Int) : List Char :=
  if n < 0 then '-' :: chars n.natAbs else chars n.natAbs

def natText (n : Nat) : String := String.ofList (chars n)

def intText (n : Int) : String := String.ofList (signedChars n)

/-- Why a text is no integer. The first fault from the left counts. -/
inductive Fault where
  | empty
  | invalidDigit
  | tooLarge
  | tooSmall
deriving DecidableEq

def Fault.message : Fault → String
  | .empty => "cannot parse integer from empty string"
  | .invalidDigit => "invalid digit found in string"
  | .tooLarge => "number too large to fit in target type"
  | .tooSmall => "number too small to fit in target type"

/-- Reads digits from left to right onto `acc`; `excess` is reported once the value passes `bound`. -/
def readMagnitude (bound : Nat) (excess : Fault) : (acc : Nat) → List Char → Except Fault Nat
  | acc, [] => .ok acc
  | acc, c :: rest =>
    match value? c with
    | none => .error .invalidDigit
    | some d =>
      if acc * 10 + d ≤ bound then readMagnitude bound excess (acc * 10 + d) rest
      else .error excess

def readInt64 : List Char → Except Fault Int
  | [] => .error .empty
  | ['+'] | ['-'] => .error .invalidDigit
  | '+' :: rest => (readMagnitude maxInt64.toNat .tooLarge 0 rest).map Int.ofNat
  | '-' :: rest => (readMagnitude minInt64.natAbs .tooSmall 0 rest).map fun n => -Int.ofNat n
  | text => (readMagnitude maxInt64.toNat .tooLarge 0 text).map Int.ofNat

def readNat (bound : Nat) : List Char → Except Fault Nat
  | [] => .error .empty
  | ['+'] => .error .invalidDigit
  | '+' :: rest => readMagnitude bound .tooLarge 0 rest
  | text => readMagnitude bound .tooLarge 0 text

end Digits
end Settlement
