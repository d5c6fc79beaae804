import Settlement.Proofs.Bookkeeping
import Settlement.Proofs.Rounding

/-!
What an applied mutation moves, compared with the amount of its row. The two are the same exactly
where some decimal has the value of the new balance; otherwise the balance is rounded.
-/

namespace Settlement

namespace Decimal

/-- A sum is exact if there is room for it at the common scale of the two. -/
theorem fits_of_room {a b : Decimal}
    (h : |a.value + b.value| * tenTo (max a.scale b.scale) < capacity) : Fits (a.value + b.value) := by
  rw [value_add] at h ⊢
  set c : ℤ := a.coefficient * (tenTo (max a.scale b.scale - a.scale) : ℕ) +
    b.coefficient * (tenTo (max a.scale b.scale - b.scale) : ℕ)
  rw [abs_div, Nat.abs_cast, div_mul_cancel₀ _ (tenTo_cast_ne_zero _)] at h
  have hc : c.natAbs < capacity := by
    rw [← Int.cast_abs, ← Nat.cast_natAbs] at h
    exact_mod_cast h
  obtain ⟨d, hd⟩ := of?_isSome hc (max_scale_le a b)
  obtain ⟨hcoeff, hscale⟩ := of?_eq_some.mp hd
  exact ⟨d, by rw [value, hcoeff, hscale]⟩

def most : Decimal := ⟨79228162514264337593543950335, 0, by decide⟩

end Decimal

namespace Book

section

variable {b : Book} {direction : Direction} {id : AccountId} {amount : Decimal}
  {operation : OperationId} {account : Account} {balance : Decimal}

/-- The account with its new balance is what is found afterwards. -/
theorem Admits.account?_after (h : b.Admits direction id amount operation account balance) :
    (b.mutate direction id amount operation).2.account? id = some { account with balance } := by
  have hput : (b.mutate direction id amount operation).2.account? id =
      (b.put { account with balance }).account? id := by
    rw [h.mutate]
    rfl
  rw [hput, account?_put, account?_of_lock h.free, Option.map_some, if_pos rfl]

/-- A debit does not raise a balance and a credit does not lower it, rounded or not. -/
theorem Admits.towards (h : b.Admits direction id amount operation account balance)
    (hs : Decimal.zero ≤ account.balance) :
    (direction = .debit → balance ≤ account.balance) ∧
      (direction = .credit → account.balance ≤ balance) := by
  obtain ⟨kept, n, hround⟩ := Decimal.add_rounds h.added
  have hsigned := direction.signs_delta amount
  have hcovered := sum_nonneg h.positive h.covered hs
  have hp := Decimal.not_le.mp h.positive
  rw [Decimal.lt_iff_value, Decimal.value_zero] at hp
  rw [Decimal.le_iff_value, Decimal.value_zero] at hs
  constructor
  · rintro rfl
    have hd := (hsigned.debit rfl).2
    exact Decimal.le_iff_value.mpr (hround.mono (Decimal.rounds_self _) hcovered (by linarith))
  · rintro rfl
    have hd := congrArg Decimal.value (hsigned.credit rfl)
    exact Decimal.le_iff_value.mpr ((Decimal.rounds_self _).mono hround hs (by linarith))

/-- An applied mutation moves the balance by the amount of its row exactly where some decimal has the
value of the sum, as it does if there is room for it at the common scale. Otherwise the sum is rounded
to as many places as fit, and half a unit of the last of them is lost at most. -/
theorem applied_exact_iff
    (h : (b.mutate direction id amount operation).1 = .value (.ok .applied)) :
    ∃ (before after : Account) (row : AppliedRow) (kept : ℕ) (n : ℤ),
      b.account? id = some before ∧
      (b.mutate direction id amount operation).2.account? id = some after ∧
      (b.mutate direction id amount operation).2.applied = b.applied ++ [row] ∧
      row = ⟨operation, id, direction.delta amount⟩ ∧ direction.Signs amount row.amount ∧
      Decimal.Rounds (before.balance.value + row.amount.value) after.balance kept n ∧
      (after.balance.value - before.balance.value = row.amount.value ↔
        Decimal.Fits (before.balance.value + row.amount.value)) ∧
      (|before.balance.value + row.amount.value| *
          tenTo (max before.balance.scale row.amount.scale) < Decimal.capacity →
        after.balance.value - before.balance.value = row.amount.value) ∧
      |after.balance.value - before.balance.value - row.amount.value| ≤ 1 / (2 * tenTo kept) ∧
      (Decimal.zero ≤ before.balance →
        (direction = .debit → after.balance ≤ before.balance) ∧
          (direction = .credit → before.balance ≤ after.balance)) := by
  obtain ⟨before, balance, hadmits⟩ := (b.mutate_applied direction id amount operation).1.mp h
  obtain ⟨kept, n, hround⟩ := Decimal.add_rounds hadmits.added
  have hexact : Decimal.Fits (before.balance.value + (direction.delta amount).value) →
      balance.value - before.balance.value = (direction.delta amount).value := by
    intro hf
    rw [hround.exact hf, add_sub_cancel_left]
  refine ⟨before, { before with balance }, ⟨operation, id, direction.delta amount⟩, kept, n,
    account?_of_lock hadmits.free, hadmits.account?_after, by rw [hadmits.mutate], rfl,
    direction.signs_delta amount, hround,
    ⟨fun hmoved => ⟨balance, ?_⟩, hexact⟩, fun hroom => hexact (Decimal.fits_of_room hroom), ?_,
    hadmits.towards⟩
  · rw [← hmoved, add_sub_cancel]
  · rw [sub_sub]
    exact hround.error

end

def fourTenths : Decimal := ⟨4, 1, by decide⟩

def fullBook : Book := (openAccount {} 1 .usd .most).2

/-- The debit is answered as applied, and its row is stored, but the balance is what it was. -/
theorem unmoved_of_fullBook : ∃ (before after : Account) (row : AppliedRow),
    (fullBook.mutate .debit 1 fourTenths (.forward 1)).1 = .value (.ok .applied) ∧
    fullBook.account? 1 = some before ∧
    (fullBook.mutate .debit 1 fourTenths (.forward 1)).2.account? 1 = some after ∧
    (fullBook.mutate .debit 1 fourTenths (.forward 1)).2.applied = [row] ∧
    after.balance = before.balance ∧
    after.balance.value - before.balance.value ≠ row.amount.value := by
  refine ⟨⟨1, 1, .usd, .most, .active⟩, ⟨1, 1, .usd, .most, .active⟩, ⟨.forward 1, 1, -fourTenths⟩,
    by decide +kernel, by decide +kernel, by decide +kernel, by decide +kernel, rfl, ?_⟩
  rw [sub_self, Decimal.value_neg]
  norm_num [fourTenths, Decimal.value, tenTo]

theorem applied_exact_iff_fullBook :
    (fullBook.mutate .debit 1 fourTenths (.forward 1)).1 = .value (.ok .applied) ∧
    ∃ (before after : Account) (row : AppliedRow) (kept : ℕ),
      fullBook.account? 1 = some before ∧
      (fullBook.mutate .debit 1 fourTenths (.forward 1)).2.account? 1 = some after ∧
      row = ⟨.forward 1, 1, -fourTenths⟩ ∧
      (after.balance.value - before.balance.value = row.amount.value ↔
        Decimal.Fits (before.balance.value + row.amount.value)) ∧
      |after.balance.value - before.balance.value - row.amount.value| ≤ 1 / (2 * tenTo kept) := by
  have h : (fullBook.mutate .debit 1 fourTenths (.forward 1)).1 = .value (.ok .applied) := by
    decide +kernel
  obtain ⟨before, after, row, kept, -, hbefore, hafter, -, hrow, -, -, hiff, -, herror, -⟩ :=
    applied_exact_iff h
  exact ⟨h, before, after, row, kept, hbefore, hafter, hrow, hiff, herror⟩

end Book
end Settlement
