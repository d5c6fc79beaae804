/-!
The bounds of integers of 32 and of 64 bits, and the powers of two and of ten.
-/

namespace Settlement

def maxNat32 : Nat := 4294967295

def maxNat64 : Nat := 18446744073709551615

def minInt64 : Int := -9223372036854775808

def maxInt64 : Int := 9223372036854775807

def twoTo (n : Nat) : Nat := Nat.pow 2 n

def tenTo (n : Nat) : Nat := Nat.pow 10 n

theorem tenTo_zero : tenTo 0 = 1 := rfl

theorem tenTo_succ (n : Nat) : tenTo (n + 1) = tenTo n * 10 := rfl

theorem tenTo_pos (n : Nat) : 0 < tenTo n := by
  induction n with
  | zero => decide
  | succ n ih => rw [tenTo_succ]; omega

theorem ten_le_tenTo {n : Nat} (h : 0 < n) : 10 ≤ tenTo n := by
  cases n with
  | zero => omega
  | succ n => have := tenTo_pos n; rw [tenTo_succ]; omega

end Settlement
