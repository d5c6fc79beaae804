import Settlement.Decimal.Basic

/-!
Sums, products and rounding of decimals. A result that is too wide gives up places, rounding the
last one it keeps; one that does not fit without any places is no number.
-/

namespace Settlement
namespace Decimal

/-- The quotient rounded to the nearest integer, a tie to the even one. -/
def divEven (n d : Nat) : Nat :=
  if 2 * (n % d) < d then n / d
  else if d < 2 * (n % d) then n / d + 1
  else n / d + n / d % 2

/-- The quotient rounded to the nearest integer, a tie upwards. -/
def divUp (n d : Nat) : Nat :=
  if 2 * (n % d) < d then n / d else n / d + 1

def signed (n : Int) (magnitude : Nat) : Int :=
  if n < 0 then -magnitude else magnitude

/-- The number `c / 10 ^ (scale + dropped)` with the most places, at most `scale`, that fit. -/
def fit (c : Int) : (scale dropped : Nat) → Option Decimal
  | 0, dropped => of? (signed c (divEven c.natAbs (tenTo dropped))) 0
  | scale + 1, dropped =>
    match of? (signed c (divEven c.natAbs (tenTo dropped))) (scale + 1) with
    | some d => some d
    | none => fit c scale (dropped + 1)

/-- A zero leaves the other operand as it is, the left zero first. Otherwise the sum has the larger
of the two scales, or as many places as fit. -/
def add (a b : Decimal) : Option Decimal :=
  if a.isZero then some b
  else if b.isZero then some a
  else
    let scale := max a.scale b.scale
    fit (a.coefficient * tenTo (scale - a.scale) + b.coefficient * tenTo (scale - b.scale)) scale 0

/-- The product has the sum of the scales, or as many places as fit. A zero has no places, and
neither has the product of two coefficients of 32 bits that lies beyond place 47. -/
def mul (a b : Decimal) : Option Decimal :=
  let scale := a.scale + b.scale
  if a.isZero || b.isZero then some zero
  else if a.coefficient.natAbs ≤ maxNat32 ∧ b.coefficient.natAbs ≤ maxNat32 ∧ 47 < scale then some zero
  else fit (a.coefficient * b.coefficient) (min scale maxScale) (scale - maxScale)

theorem divUp_le_self {n d : Nat} (h : 10 ≤ d) : divUp n d ≤ n := by
  unfold divUp
  have hd : n / d ≤ n / 10 := Nat.div_le_div_left h (by omega)
  split
  · omega
  · rename_i hr
    have : n % d ≤ n := Nat.mod_le n d
    omega

/-- At most `places` places, a half away from zero. A number with no more places stays as it is. -/
def round (d : Decimal) (places : Nat) : Decimal :=
  if h : d.scale ≤ places then d
  else
    ⟨signed d.coefficient (divUp d.coefficient.natAbs (tenTo (d.scale - places))), places, by
      have hb := d.bounded
      have hp : 10 ≤ tenTo (d.scale - places) := ten_le_tenTo (by omega)
      have := divUp_le_self (n := d.coefficient.natAbs) hp
      unfold signed
      split <;> omega⟩

def stripped (c : Int) : (scale : Nat) → Int × Nat
  | 0 => (c, 0)
  | scale + 1 => if c % 10 = 0 then stripped (c / 10) scale else (c, scale + 1)

theorem stripped_bounded (c : Int) (scale : Nat) :
    (stripped c scale).1.natAbs ≤ c.natAbs ∧ (stripped c scale).2 ≤ scale := by
  induction scale generalizing c with
  | zero => simp [stripped]
  | succ scale ih =>
    unfold stripped
    split
    · have := ih (c / 10)
      omega
    · simp

def normalize (d : Decimal) : Decimal :=
  ⟨(stripped d.coefficient d.scale).1, (stripped d.coefficient d.scale).2, by
    have h := stripped_bounded d.coefficient d.scale
    have hb := d.bounded
    omega⟩

def sum (ds : List Decimal) : Option Decimal :=
  ds.foldlM add zero

end Decimal
end Settlement
