import Mathlib.Data.Rat.Cast.Order
import Mathlib.Tactic.FieldSimp
import Mathlib.Tactic.Ring
import Settlement.Ledger.Account
import Settlement.Service.Rates

/-!
The values that decimals stand for. A sum is exact as soon as some decimal has its value, what is
rounded keeps its sign, and an amount in cents keeps its value when it is converted at the rate one.
What a debit adds to a balance is below zero.
-/

namespace Settlement

theorem tenTo_add (m n : Nat) : tenTo (m + n) = tenTo m * tenTo n := Nat.pow_add 10 m n

theorem tenTo_cast_ne_zero (n : Nat) : (tenTo n : ℚ) ≠ 0 :=
  Nat.cast_ne_zero.mpr (tenTo_pos n).ne'

namespace Decimal

def value (d : Decimal) : ℚ := d.coefficient / tenTo d.scale

theorem value_neg (d : Decimal) : (-d).value = -d.value := by
  simp [value, neg_div]

theorem value_of_isZero {d : Decimal} (h : d.isZero = true) : d.value = 0 := by
  simp [value, show d.coefficient = 0 from beq_iff_eq.mp h]

/-- Numbers of one value have the same coefficient at a common scale. -/
theorem value_eq_iff {d : Decimal} {c : Int} {scale : Nat} :
    d.value = c / tenTo scale ↔ d.coefficient * tenTo scale = c * tenTo d.scale := by
  unfold value
  rw [div_eq_div_iff (tenTo_cast_ne_zero _) (tenTo_cast_ne_zero _)]
  exact_mod_cast Iff.rfl

theorem le_iff_value {a b : Decimal} : a ≤ b ↔ a.value ≤ b.value := by
  have ha : (0 : ℚ) < tenTo a.scale := Nat.cast_pos.mpr (tenTo_pos _)
  have hb : (0 : ℚ) < tenTo b.scale := Nat.cast_pos.mpr (tenTo_pos _)
  rw [le_def, value, value, div_le_div_iff₀ ha hb]
  exact_mod_cast Iff.rfl

theorem lt_iff_value {a b : Decimal} : a < b ↔ a.value < b.value := by
  rw [← not_le, le_iff_value, lt_iff_not_ge]

theorem le_of_lt {a b : Decimal} (h : a < b) : a ≤ b :=
  le_iff_value.mpr (lt_iff_value.mp h).le

@[simp] theorem value_zero : zero.value = 0 := by
  simp [value, zero]

theorem divEven_mul (n : Nat) {d : Nat} (h : 0 < d) : divEven (n * d) d = n := by
  simp [divEven, h]

theorem divUp_mul (n : Nat) {d : Nat} (h : 0 < d) : divUp (n * d) d = n := by
  simp [divUp, h]

/-- A magnitude that is divided exactly keeps its sign. -/
theorem signed_natAbs (q : Int) {d : Nat} (h : 0 < d) : signed (q * d) q.natAbs = q := by
  have hd : (0 : Int) < d := by exact_mod_cast h
  have hneg : q * d < 0 ↔ q < 0 := by
    constructor
    · exact fun hn => neg_of_mul_neg_left hn hd.le
    · exact fun hq => Int.mul_neg_of_neg_of_pos hq hd
  unfold signed
  simp only [hneg]
  split <;> omega

theorem signed_divEven (q : Int) {d : Nat} (h : 0 < d) :
    signed (q * d) (divEven (q * d).natAbs d) = q := by
  rw [Int.natAbs_mul, Int.natAbs_natCast, divEven_mul _ h, signed_natAbs q h]

theorem signed_divUp (q : Int) {d : Nat} (h : 0 < d) :
    signed (q * d) (divUp (q * d).natAbs d) = q := by
  rw [Int.natAbs_mul, Int.natAbs_natCast, divUp_mul _ h, signed_natAbs q h]

theorem of?_isSome {c : Int} {scale : Nat} (hc : c.natAbs < capacity) (hs : scale ≤ maxScale) :
    ∃ d, of? c scale = some d := ⟨⟨c, scale, hc, hs⟩, by simp [of?, hc, hs]⟩

theorem fit_self (d : Decimal) (dropped : Nat) :
    fit (d.coefficient * tenTo dropped) d.scale dropped = some d := by
  have he := signed_divEven d.coefficient (tenTo_pos dropped)
  have hd : of? d.coefficient d.scale = some d := of?_eq_some.mpr ⟨rfl, rfl⟩
  cases hs : d.scale with
  | zero => rw [fit, he, ← hs, hd]
  | succ scale => rw [fit, he, ← hs, hd]

/-- A number that some decimal with at most the given places stands for is fitted as it is. -/
theorem fit_exact (d : Decimal) (k dropped : Nat) :
    ∃ e, fit (d.coefficient * tenTo (dropped + k)) (d.scale + k) dropped = some e ∧
      e.value = d.value := by
  induction k generalizing dropped with
  | zero => exact ⟨d, fit_self d dropped, rfl⟩
  | succ k ih =>
    have hmul : d.coefficient * (tenTo (dropped + (k + 1)) : Nat) =
        d.coefficient * (tenTo (k + 1) : Nat) * (tenTo dropped : Nat) := by
      rw [tenTo_add]
      push_cast
      ring
    rw [← Nat.add_assoc d.scale k 1, fit]
    split
    next e he =>
      refine ⟨e, rfl, ?_⟩
      rw [hmul, signed_divEven _ (tenTo_pos dropped)] at he
      obtain ⟨hcoeff, hscale⟩ := of?_eq_some.mp he
      have hv : e.value = (d.coefficient : Int) / tenTo d.scale := by
        rw [value_eq_iff, hcoeff, hscale, Nat.add_assoc, tenTo_add d.scale]
        push_cast
        ring
      exact hv
    next =>
      have := ih (dropped + 1)
      rwa [show dropped + 1 + k = dropped + (k + 1) by omega] at this

/-- What is fitted keeps its sign. -/
theorem fit_nonneg {c : Int} {scale dropped : Nat} {d : Decimal} (hc : 0 ≤ c)
    (h : fit c scale dropped = some d) : 0 ≤ d.coefficient := by
  have hof : ∀ {n : Nat} {scale : Nat}, of? (signed c n) scale = some d → 0 ≤ d.coefficient := by
    intro n scale h
    rw [(of?_eq_some.mp h).1, signed, if_neg (by omega)]
    exact Int.natCast_nonneg n
  induction scale generalizing dropped with
  | zero => exact hof h
  | succ scale ih =>
    rw [fit] at h
    split at h
    next e he =>
      cases h
      exact hof he
    next => exact ih h

theorem zero_le_iff {d : Decimal} : zero ≤ d ↔ 0 ≤ d.coefficient := by
  simp [le_def, zero, tenTo_zero]

theorem mul_nonneg {a b c : Decimal} (ha : zero ≤ a) (hb : zero ≤ b) (h : a.mul b = some c) :
    zero ≤ c := by
  rw [zero_le_iff] at ha hb ⊢
  unfold mul at h
  dsimp only at h
  split at h
  · cases h
    exact le_rfl
  split at h
  · cases h
    exact le_rfl
  · exact fit_nonneg (Int.mul_nonneg ha hb) h

theorem round_nonneg {d : Decimal} {places : Nat} (h : zero ≤ d) : zero ≤ d.round places := by
  rw [zero_le_iff] at h ⊢
  unfold round
  split
  · exact h
  · change 0 ≤ signed _ _
    rw [signed, if_neg (by omega)]
    exact Int.natCast_nonneg _

/-- The sum of two coefficients at the common scale of their numbers. -/
theorem value_add (a b : Decimal) :
    a.value + b.value =
      (a.coefficient * (tenTo (max a.scale b.scale - a.scale) : Nat) +
        b.coefficient * (tenTo (max a.scale b.scale - b.scale) : Nat) : Int) /
      tenTo (max a.scale b.scale) := by
  have hscaled : ∀ {x : Decimal}, x.scale ≤ max a.scale b.scale →
      x.value = (x.coefficient * (tenTo (max a.scale b.scale - x.scale) : Nat) : Int) /
        tenTo (max a.scale b.scale) := by
    intro x hx
    rw [value_eq_iff, mul_assoc, ← Nat.cast_mul, ← tenTo_add, Nat.sub_add_cancel hx]
  rw [hscaled (le_max_left a.scale b.scale), hscaled (le_max_right a.scale b.scale), ← add_div]
  push_cast
  rfl

/-- A sum that is rounded to fit is not negative where the exact sum is not. -/
theorem add_nonneg {a b c : Decimal} (h : a.add b = some c) (hn : 0 ≤ a.value + b.value) :
    0 ≤ c.value := by
  unfold add at h
  split at h
  next ha =>
    cases h
    rwa [value_of_isZero ha, zero_add] at hn
  split at h
  next hb =>
    cases h
    rwa [value_of_isZero hb, add_zero] at hn
  next =>
    have hpos : (0 : ℚ) < tenTo (max a.scale b.scale) := Nat.cast_pos.mpr (tenTo_pos _)
    rw [value_add, le_div_iff₀ hpos, zero_mul] at hn
    exact div_nonneg (Int.cast_nonneg (fit_nonneg (by exact_mod_cast hn) h)) (Nat.cast_nonneg _)

/-- Where some decimal has the value of the sum, the sum has that value. -/
theorem add_exact {a b d : Decimal} (h : d.value = a.value + b.value) :
    ∃ c, a.add b = some c ∧ c.value = a.value + b.value := by
  unfold add
  split
  next ha => exact ⟨b, rfl, by rw [value_of_isZero ha, zero_add]⟩
  split
  next hb => exact ⟨a, rfl, by rw [value_of_isZero hb, add_zero]⟩
  next =>
    set scale := max a.scale b.scale with hscale
    set c := a.coefficient * (tenTo (scale - a.scale) : Nat) +
      b.coefficient * (tenTo (scale - b.scale) : Nat) with hc
    have hsum : a.value + b.value = c / tenTo scale := value_add a b
    rw [hsum] at h ⊢
    have heq := value_eq_iff.mp h
    by_cases hd : d.scale ≤ scale
    · -- The decimal has no more places than the sum: the sum gives up the difference.
      have hcd : c = d.coefficient * (tenTo (0 + (scale - d.scale)) : Nat) := by
        have hpos : (tenTo d.scale : Int) ≠ 0 := by exact_mod_cast (tenTo_pos d.scale).ne'
        refine mul_right_cancel₀ hpos ?_
        rw [Nat.zero_add, mul_assoc, ← Nat.cast_mul, ← tenTo_add, Nat.sub_add_cancel hd, heq]
      obtain ⟨e, he, hv⟩ := fit_exact d (scale - d.scale) 0
      rw [Nat.add_sub_cancel' hd, ← hcd] at he
      exact ⟨e, he, hv.trans h⟩
    · -- The decimal has more places, so the sum fits with all of its own.
      have hcd : d.coefficient = c * (tenTo (d.scale - scale) : Nat) := by
        have hpos : (tenTo scale : Int) ≠ 0 := by exact_mod_cast (tenTo_pos scale).ne'
        refine mul_right_cancel₀ hpos ?_
        rw [mul_assoc, ← Nat.cast_mul, ← tenTo_add, Nat.sub_add_cancel (by omega), heq]
      have hle : c.natAbs ≤ d.coefficient.natAbs := by
        rw [hcd, Int.natAbs_mul, Int.natAbs_natCast]
        exact Nat.le_mul_of_pos_right _ (tenTo_pos _)
      obtain ⟨hbc, hbs⟩ := d.bounded
      obtain ⟨e, he⟩ := of?_isSome (Nat.lt_of_le_of_lt hle hbc)
        (Nat.le_trans (Nat.le_of_not_le hd) hbs)
      obtain ⟨hec, hes⟩ := of?_eq_some.mp he
      have hfit := fit_self e 0
      rw [hec, hes, tenTo_zero, Nat.cast_one, mul_one] at hfit
      exact ⟨e, hfit, by rw [value, hec, hes]⟩

/-- A number times one is the number. -/
theorem mul_one_eq {a : Decimal} (h : a.isZero = false) : a.mul one = some a := by
  have hs : a.scale ≤ 28 := a.bounded.2
  have hfit := fit_self a 0
  rw [tenTo_zero, Nat.cast_one] at hfit
  unfold mul
  rw [h, if_neg (by decide), if_neg (by simp [one]; omega)]
  simp only [one, Nat.add_zero, maxScale, Nat.min_eq_left hs, Nat.sub_eq_zero_of_le hs]
  exact hfit

/-- The zeros that are dropped are places of the number. -/
theorem stripped_mul (c : Int) (scale : Nat) :
    c = (stripped c scale).1 * tenTo (scale - (stripped c scale).2) := by
  induction scale generalizing c with
  | zero => simp [stripped, tenTo_zero]
  | succ scale ih =>
    unfold stripped
    split
    next hc =>
      have hle := (stripped_bounded (c / 10) scale).2
      have hsub : scale + 1 - (stripped (c / 10) scale).2 =
          scale - (stripped (c / 10) scale).2 + 1 := by omega
      rw [hsub, tenTo_succ, Nat.cast_mul, ← mul_assoc, ← ih]
      exact (Int.ediv_mul_cancel (Int.dvd_of_emod_eq_zero hc)).symm
    next => simp [tenTo_zero]

/-- A number whose places beyond the given ones are zeros keeps its value when it is rounded. -/
theorem round_exact {d : Decimal} {places : Nat} (h : d.normalize.scale ≤ places) :
    (d.round places).value = d.value := by
  unfold round
  split
  · rfl
  next hp =>
    have hn : (stripped d.coefficient d.scale).2 ≤ places := h
    obtain ⟨q, hc⟩ : ∃ q : Int, d.coefficient = q * (tenTo (d.scale - places) : Nat) := by
      refine ⟨(stripped d.coefficient d.scale).1 *
        (tenTo (places - (stripped d.coefficient d.scale).2) : Nat), ?_⟩
      rw [mul_assoc, ← Nat.cast_mul, ← tenTo_add,
        show places - (stripped d.coefficient d.scale).2 + (d.scale - places) =
          d.scale - (stripped d.coefficient d.scale).2 by omega]
      exact stripped_mul d.coefficient d.scale
    have hr : signed d.coefficient (divUp d.coefficient.natAbs (tenTo (d.scale - places))) = q := by
      rw [hc]
      exact signed_divUp q (tenTo_pos _)
    refine (value_eq_iff (d := ⟨_, places, _⟩)).mpr ?_
    show signed d.coefficient (divUp d.coefficient.natAbs (tenTo (d.scale - places))) *
      tenTo d.scale = d.coefficient * tenTo places
    rw [hr, hc, mul_assoc, ← Nat.cast_mul, ← tenTo_add, Nat.sub_add_cancel (Nat.le_of_not_le hp)]

theorem round_scale (d : Decimal) (places : Nat) : (d.round places).scale ≤ places := by
  unfold round
  split
  next h => exact h
  next => exact le_rfl

def Cents (d : Decimal) : Prop := ∃ n : Int, d.value = n / 100

theorem cents_of_scale {d : Decimal} (h : d.scale ≤ 2) : d.Cents := by
  refine ⟨d.coefficient * tenTo (2 - d.scale), ?_⟩
  have hcents : d.value = (d.coefficient * tenTo (2 - d.scale) : Int) / tenTo 2 := by
    rw [value_eq_iff, mul_assoc, ← Nat.cast_mul, ← tenTo_add, Nat.sub_add_cancel h]
  rw [hcents]
  norm_num [tenTo]

/-- Cents that fit into the coefficient are those of a number. -/
theorem exists_cents {n : Int} (h0 : 0 ≤ n) (hn : n < capacity) :
    ∃ d : Decimal, d.value = n / 100 := by
  obtain ⟨d, hd⟩ : ∃ d, of? n 2 = some d := of?_isSome (by omega) (by decide)
  obtain ⟨hc, hs⟩ := of?_eq_some.mp hd
  refine ⟨d, ?_⟩
  rw [value, hc, hs]
  norm_num [tenTo]

end Decimal

namespace Money

theorem validate_cents {amount accepted : Decimal} (h : validate amount = .ok accepted) :
    accepted.Cents := by
  unfold validate at h
  split at h
  · contradiction
  · split at h
    · contradiction
    next hplaces =>
      cases h
      obtain ⟨n, hn⟩ := Decimal.cents_of_scale (amount.round_scale places)
      exact ⟨n, (Decimal.round_exact (Nat.le_of_not_lt hplaces)).symm.trans hn⟩

theorem convert_cents {amount rate target : Decimal} (h : convert amount rate = some target) :
    target.Cents := by
  obtain ⟨product, -, rfl⟩ := Option.map_eq_some_iff.mp h
  exact Decimal.cents_of_scale (product.round_scale places)

theorem validate_nonneg {amount accepted : Decimal} (h : validate amount = .ok accepted) :
    Decimal.zero ≤ accepted := by
  unfold validate at h
  split at h
  · contradiction
  next hpos =>
    split at h
    · contradiction
    · cases h
      exact Decimal.le_of_lt (Decimal.not_le.mp hpos)

theorem convert_nonneg {amount rate target : Decimal} (ha : Decimal.zero ≤ amount)
    (hr : Decimal.zero ≤ rate) (h : convert amount rate = some target) : Decimal.zero ≤ target := by
  obtain ⟨product, hp, rfl⟩ := Option.map_eq_some_iff.mp h
  exact Decimal.round_nonneg (Decimal.mul_nonneg ha hr hp)

/-- An accepted amount keeps its value at the rate one. -/
theorem convert_one {amount accepted target : Decimal} (hv : validate amount = .ok accepted)
    (hc : convert accepted .one = some target) : target.value = accepted.value := by
  unfold validate at hv
  split at hv
  · cases hv
  next hpos =>
    split at hv
    · cases hv
    next hplaces =>
      cases hv
      have hz : amount.isZero = false := by
        by_contra hz
        have hz : amount.coefficient = 0 := by simpa [Decimal.isZero] using hz
        exact hpos (by simp [Decimal.le_def, Decimal.zero, hz])
      rw [convert, Decimal.mul_one_eq hz] at hc
      cases hc
      exact Decimal.round_exact (Nat.le_of_not_lt hplaces)

end Money

/-- The amount is signed as its direction asks: a debit takes it from the balance. -/
structure Direction.Signs (direction : Direction) (amount signed : Decimal) : Prop where
  debit : direction = .debit → signed = -amount ∧ signed.value = -amount.value
  credit : direction = .credit → signed = amount

namespace Direction

variable {direction : Direction} {amount signed : Decimal}

theorem signs_delta (direction : Direction) (amount : Decimal) :
    direction.Signs amount (direction.delta amount) := by
  cases direction with
  | debit => exact ⟨fun _ => ⟨rfl, Decimal.value_neg amount⟩, nofun⟩
  | credit => exact ⟨nofun, fun _ => rfl⟩

theorem Signs.eq_delta (h : direction.Signs amount signed) : signed = direction.delta amount := by
  cases direction with
  | debit => exact (h.debit rfl).1
  | credit => exact h.credit rfl

end Direction
end Settlement
