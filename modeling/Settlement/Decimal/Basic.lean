import Settlement.Width

/-!
Exact decimal numbers: a signed coefficient over a power of ten. `1.0` and `1.00` are two numbers of
one value; order looks at the value, equality at the number. A number is never wider than 96 bits or
28 places.
-/

namespace Settlement

def Decimal.capacity : Nat := 79228162514264337593543950336

def Decimal.maxScale : Nat := 28

/-- The value is `coefficient / 10 ^ scale`. Zero has no sign. -/
structure Decimal where
  coefficient : Int
  scale : Nat
  bounded : coefficient.natAbs < Decimal.capacity ∧ scale ≤ Decimal.maxScale
deriving DecidableEq

namespace Decimal

def of? (coefficient : Int) (scale : Nat) : Option Decimal :=
  if bounded : coefficient.natAbs < capacity ∧ scale ≤ maxScale then some ⟨coefficient, scale, bounded⟩
  else none

theorem of?_eq_some {c : Int} {s : Nat} {d : Decimal} :
    of? c s = some d ↔ d.coefficient = c ∧ d.scale = s := by
  unfold of?
  split
  case isTrue =>
    obtain ⟨_, _, _⟩ := d
    simp [eq_comm]
  case isFalse h =>
    simp only [reduceCtorEq, false_iff]
    rintro ⟨rfl, rfl⟩
    exact h d.bounded

def zero : Decimal := ⟨0, 0, by decide⟩

def one : Decimal := ⟨1, 0, by decide⟩

def ofInt64 (n : Int) (h : n.natAbs ≤ maxNat64 := by decide) : Decimal :=
  ⟨n, 0, Nat.lt_of_le_of_lt h (by decide), Nat.zero_le _⟩

instance : Inhabited Decimal := ⟨zero⟩

def isZero (d : Decimal) : Bool := d.coefficient == 0

instance : LE Decimal where
  le a b := a.coefficient * tenTo b.scale ≤ b.coefficient * tenTo a.scale

instance : LT Decimal where
  lt a b := a.coefficient * tenTo b.scale < b.coefficient * tenTo a.scale

instance (a b : Decimal) : Decidable (a ≤ b) :=
  inferInstanceAs (Decidable (a.coefficient * tenTo b.scale ≤ b.coefficient * tenTo a.scale))

instance (a b : Decimal) : Decidable (a < b) :=
  inferInstanceAs (Decidable (a.coefficient * tenTo b.scale < b.coefficient * tenTo a.scale))

theorem le_def {a b : Decimal} :
    a ≤ b ↔ a.coefficient * tenTo b.scale ≤ b.coefficient * tenTo a.scale := .rfl

theorem lt_def {a b : Decimal} :
    a < b ↔ a.coefficient * tenTo b.scale < b.coefficient * tenTo a.scale := .rfl

theorem not_le {a b : Decimal} : ¬ a ≤ b ↔ b < a := by
  rw [le_def, lt_def]; omega

theorem not_lt {a b : Decimal} : ¬ a < b ↔ b ≤ a := by
  rw [le_def, lt_def]; omega

instance : Neg Decimal where
  neg d := ⟨-d.coefficient, d.scale, by rw [Int.natAbs_neg]; exact d.bounded⟩

@[simp] theorem neg_coefficient (d : Decimal) : (-d).coefficient = -d.coefficient := rfl

@[simp] theorem neg_scale (d : Decimal) : (-d).scale = d.scale := rfl

end Decimal
end Settlement
