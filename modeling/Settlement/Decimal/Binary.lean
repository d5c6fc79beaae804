import Settlement.Decimal.Text

/-!
Binary floating point numbers of 53 significant bits as exact fractions, and their shortest decimal
digits: the fewest that round back to the number, and of those the nearest.
-/

namespace Settlement

/-- The non-negative number `mantissa * 2 ^ exponent`: less than 53 bits only at the least exponent. -/
structure Binary64 where
  mantissa : Nat
  exponent : Int
deriving DecidableEq

namespace Binary64

def minExponent : Int := -1074

def maxExponent : Int := 971

def shifted (n d : Nat) (e : Int) : Nat × Nat :=
  if 0 ≤ e then (n * twoTo e.toNat, d) else (n, d * twoTo (-e).toNat)

/-- The number nearest to `n / d`, a tie to the even mantissa; none beyond the largest number. -/
def nearest (n d : Nat) : Option Binary64 :=
  if n = 0 then some ⟨0, minExponent⟩
  else
    let guess : Int := n.log2 - d.log2 - 52
    let (a, b) := shifted n d (-guess)
    let e := max minExponent (if a / b < twoTo 52 then guess - 1 else guess)
    let (a, b) := shifted n d (-e)
    let m := Decimal.divEven a b
    let (m, e) := if m = twoTo 53 then (twoTo 52, e + 1) else (m, e)
    if maxExponent < e then none else some ⟨m, e⟩

def fraction (x : Binary64) : Nat × Nat := shifted x.mantissa 1 x.exponent

def mul (x y : Binary64) : Option Binary64 :=
  nearest (x.fraction.1 * y.fraction.1) (x.fraction.2 * y.fraction.2)

def div (x y : Binary64) : Option Binary64 :=
  nearest (x.fraction.1 * y.fraction.2) (x.fraction.2 * y.fraction.1)

/-- A significand scaled by a power of ten of at most 308 at a time, each step rounded. -/
def scaled (x : Binary64) (exponent : Int) : Option Binary64 :=
  if exponent.natAbs ≤ 308 then do
    let power ← nearest (tenTo exponent.natAbs) 1
    if 0 ≤ exponent then mul x power else div x power
  else if x.mantissa = 0 then some x
  else if 0 ≤ exponent then none
  else do
    let power ← nearest (tenTo 308) 1
    let smaller ← div x power
    scaled smaller (exponent + 308)
termination_by exponent.natAbs

/-- Does `n / d` round to this number? The ends of its interval do if the mantissa is even. -/
def covers (x : Binary64) (n d : Nat) : Bool :=
  let narrow := x.mantissa = twoTo 52 ∧ minExponent < x.exponent
  let (low, unit) := shifted (if narrow then 4 * x.mantissa - 1 else 4 * x.mantissa - 2) 4 x.exponent
  let (high, unit') := shifted (4 * x.mantissa + 2) 4 x.exponent
  if x.mantissa % 2 = 0 then low * d ≤ n * unit && n * unit' ≤ high * d
  else low * d < n * unit && n * unit' < high * d

def decimalExponent (n d : Nat) : (fuel : Nat) → (p : Int) → Int
  | 0, p => p
  | fuel + 1, p =>
    let below := if 0 ≤ p then n < d * tenTo p.toNat else n * tenTo (-p).toNat < d
    if below then p else decimalExponent n d fuel (p + 1)

/-- Of the two neighbours on the grid of `10 ^ k`, the nearest one that rounds to the number. -/
def onGrid (x : Binary64) (k : Int) : Option Nat :=
  let (n, d) := x.fraction
  let (a, b) := if 0 ≤ k then (n, d * tenTo k.toNat) else (n * tenTo (-k).toNat, d)
  let hit := fun digits : Nat =>
    if 0 ≤ k then x.covers (digits * tenTo k.toNat) 1 else x.covers digits (tenTo (-k).toNat)
  let low := a / b
  match hit low, hit (low + 1) with
  | true, true => some (if 2 * (a % b) ≤ b then low else low + 1)
  | true, false => some low
  | false, true => some (low + 1)
  | false, false => none

/-- The digits and the exponent of the coarsest grid with a hit, starting at `10 ^ k`. -/
def search (x : Binary64) : (fuel : Nat) → (k : Int) → Nat × Int
  | 0, k => (0, k)
  | fuel + 1, k =>
    match onGrid x k with
    | some digits => (digits, k)
    | none => search x fuel (k - 1)

def shortest (x : Binary64) : Nat × Int :=
  if x.mantissa = 0 then (0, 0)
  else
    let (n, d) := x.fraction
    let estimate : Int := ((n.log2 : Int) - d.log2 - 1) * 30103 / 100000
    let p := decimalExponent n d 4 (estimate - 1)
    search x 19 p

def chars (x : Binary64) : List Char :=
  let (digits, k) := x.shortest
  if 0 ≤ k then
    if digits = 0 then ['0'] else Digits.chars digits ++ List.replicate k.toNat '0'
  else Decimal.pointed (Digits.chars digits) (-k).toNat

end Binary64
end Settlement
