import Mathlib.Data.Rat.Floor
import Settlement.Proofs.Numerics

/-!
How the value of a sum or a product becomes that of a decimal: rounded half to even, with as many
places as there is room for. Main statements: sums and products are such roundings, they fail exactly
where their value has no room even without places, and rounding keeps the order of values.
-/

namespace Settlement

/-- The integer is nearest to the value, and of two such it is the even one. -/
structure Nearest (x : ℚ) (n : ℤ) : Prop where
  near : |x - n| ≤ 1 / 2
  even : |x - n| = 1 / 2 → Even n

namespace Nearest

variable {x y : ℚ} {n m : ℤ}

theorem of_int (n : ℤ) : Nearest n n := by
  constructor <;> simp

theorem neg (h : Nearest x n) : Nearest (-x) (-n) := by
  have hd : |-x - ((-n : ℤ) : ℚ)| = |x - n| := by
    rw [← abs_neg]
    push_cast
    ring_nf
  exact ⟨hd ▸ h.near, fun he => (h.even (hd ▸ he)).neg⟩

/-- A greater value is not rounded to a smaller integer. -/
theorem mono (hx : Nearest x n) (hy : Nearest y m) (h : x ≤ y) : n ≤ m := by
  by_contra hlt
  have hstep : (m : ℚ) + 1 ≤ n := by exact_mod_cast Int.not_le.mp hlt
  obtain ⟨hxl, hxu⟩ := abs_le.mp hx.near
  obtain ⟨hyl, hyu⟩ := abs_le.mp hy.near
  -- Only a tie on both sides is left, between two neighbours of which one is odd.
  have hxn : x - n = -(1 / 2) := by linarith
  have hym : y - m = 1 / 2 := by linarith
  have hnm : n = m + 1 := by
    have : (n : ℚ) = m + 1 := by linarith
    exact_mod_cast this
  have hn : Even n := hx.even (by rw [hxn]; norm_num)
  have hm : Even m := hy.even (by rw [hym]; norm_num)
  rw [hnm] at hn
  exact (Int.even_add_one.mp hn) hm

theorem unique (hx : Nearest x n) (hy : Nearest x m) : n = m :=
  le_antisymm (hx.mono hy le_rfl) (hy.mono hx le_rfl)

/-- Nearest to a quotient, in terms of what the division leaves. -/
theorem div_iff {d : ℕ} (hd : 0 < d) : Nearest ((n : ℚ) / d) m ↔
    2 * (n - d * m).natAbs ≤ d ∧ (2 * (n - d * m).natAbs = d → Even m) := by
  have hpos : (0 : ℚ) < d := Nat.cast_pos.mpr hd
  have habs : |(n : ℚ) / d - m| = ((n - d * m).natAbs : ℕ) / d := by
    rw [div_sub' hpos.ne', abs_div, abs_of_pos hpos, Nat.cast_natAbs]
    push_cast
    rfl
  have hle : |(n : ℚ) / d - m| ≤ 1 / 2 ↔ 2 * (n - d * m).natAbs ≤ d := by
    rw [habs, div_le_div_iff₀ hpos two_pos, one_mul, mul_comm]
    exact_mod_cast Iff.rfl
  have heq : |(n : ℚ) / d - m| = 1 / 2 ↔ 2 * (n - d * m).natAbs = d := by
    rw [habs, div_eq_div_iff hpos.ne' two_ne_zero, one_mul, mul_comm]
    exact_mod_cast Iff.rfl
  exact ⟨fun h => ⟨hle.mp h.near, fun he => h.even (heq.mpr he)⟩,
    fun h => ⟨hle.mpr h.1, fun he => h.2 (heq.mp he)⟩⟩

end Nearest

namespace Decimal

def TooWide (x : ℚ) : Prop := (capacity : ℚ) - 1 / 2 ≤ |x|

/-- What is nearest to a value is a coefficient exactly where the value is not too wide. -/
theorem narrow_iff {x : ℚ} {n : ℤ} (h : Nearest x n) : n.natAbs < capacity ↔ ¬TooWide x := by
  have hcast : ((n.natAbs : ℕ) : ℚ) = |(n : ℚ)| := by rw [Nat.cast_natAbs, Int.cast_abs]
  have hsub : |(|x| - |(n : ℚ)|)| ≤ |x - n| := abs_abs_sub_abs_le x n
  obtain ⟨hl, hu⟩ := abs_le.mp (hsub.trans h.near)
  rw [TooWide, Rat.not_le]
  constructor
  · intro hn
    have hle : |(n : ℚ)| ≤ (capacity : ℚ) - 1 := by
      rw [← hcast, le_sub_iff_add_le]
      exact_mod_cast hn
    refine lt_of_le_of_ne (by linarith) fun he => ?_
    -- The greatest coefficient is odd, so no tie is rounded to it.
    have hge : |x| - |(n : ℚ)| ≤ |x - n| := (le_abs_self _).trans hsub
    have hmax : |(n : ℚ)| = (capacity : ℚ) - 1 := by linarith [h.near]
    have htie : Even n := h.even (by linarith [h.near])
    have hnat : n.natAbs + 1 = capacity := by
      have : ((n.natAbs : ℕ) : ℚ) + 1 = capacity := by rw [hcast, hmax]; ring
      exact_mod_cast this
    rw [← Int.natAbs_even, Nat.even_iff] at htie
    unfold capacity at hnat
    omega
  · intro hx
    have : ((n.natAbs : ℕ) : ℚ) < capacity := by
      rw [hcast]
      linarith
    exact_mod_cast this

theorem tooWide_mono {x y : ℚ} (h : TooWide x) (hxy : |x| ≤ |y|) : TooWide y := le_trans h hxy

theorem value_narrow (d : Decimal) : ¬TooWide (d.value * tenTo d.scale) := by
  rw [value, div_mul_cancel₀ _ (tenTo_cast_ne_zero _)]
  exact (narrow_iff (.of_int _)).mp d.bounded.1

theorem one_le_tenTo (n : ℕ) : (1 : ℚ) ≤ tenTo n := by exact_mod_cast tenTo_pos n

theorem places_pos (p : ℕ) : (0 : ℚ) < tenTo p := Nat.cast_pos.mpr (tenTo_pos p)

/-- A point with few places, in terms of more of them. -/
theorem grid_mul {c : ℤ} {s p : ℕ} (hs : s ≤ p) :
    (c : ℚ) / tenTo s * tenTo p = (c * tenTo (p - s) : ℤ) := by
  rw [← Nat.add_sub_cancel' hs, tenTo_add, Nat.cast_mul, ← mul_assoc,
    div_mul_cancel₀ _ (tenTo_cast_ne_zero s), Nat.add_sub_cancel_left]
  push_cast
  rfl

/-- Fewer places need no more room. -/
theorem tooWide_scaled {x : ℚ} {p q : ℕ} (h : TooWide (x * tenTo p)) (hpq : p ≤ q) :
    TooWide (x * tenTo q) := by
  refine tooWide_mono h ?_
  rw [abs_mul, abs_mul, ← Nat.add_sub_cancel' hpq, tenTo_add, Nat.cast_mul]
  refine mul_le_mul_of_nonneg_left ?_ (abs_nonneg x)
  rw [abs_mul]
  refine le_mul_of_one_le_right (abs_nonneg _) ?_
  exact (one_le_tenTo _).trans (le_abs_self _)

theorem tooWide_places {x : ℚ} (h : TooWide x) (q : ℕ) : TooWide (x * tenTo q) :=
  tooWide_scaled (by simpa [tenTo_zero] using h) (Nat.zero_le q)

theorem divEven_nearest (n : ℕ) {d : ℕ} (hd : 0 < d) : Nearest ((n : ℚ) / d) (divEven n d) := by
  have hsplit := Nat.div_add_mod n d
  have hlt := Nat.mod_lt n hd
  have hrest : ∀ k : ℕ, ((n : ℤ) - d * ((n / d + k : ℕ) : ℤ)) = (n % d : ℕ) - d * (k : ℤ) := by
    intro k
    have : (n : ℤ) = d * (n / d : ℕ) + (n % d : ℕ) := by exact_mod_cast hsplit.symm
    rw [this]
    push_cast
    ring
  rw [← Int.cast_natCast n, Nearest.div_iff hd]
  unfold divEven
  split
  next h =>
    have hk := hrest 0
    rw [Nat.add_zero] at hk
    rw [hk]
    constructor <;> intros <;> omega
  next h =>
    split
    next h' =>
      rw [hrest 1]
      constructor <;> intros <;> omega
    next h' =>
      rw [hrest (n / d % 2)]
      rcases Nat.mod_two_eq_zero_or_one (n / d) with hq | hq
      · rw [hq]
        refine ⟨by omega, fun _ => ?_⟩
        rw [Nat.add_zero, Int.even_iff]
        omega
      · rw [hq]
        refine ⟨by omega, fun _ => ?_⟩
        rw [Int.even_iff]
        omega

theorem signed_nearest (c : ℤ) {d : ℕ} (hd : 0 < d) :
    Nearest ((c : ℚ) / d) (signed c (divEven c.natAbs d)) := by
  have h := divEven_nearest c.natAbs hd
  unfold signed
  split
  next hc =>
    have hn : ((c.natAbs : ℕ) : ℚ) = -c := by
      rw [Nat.cast_natAbs, abs_of_neg hc, Int.cast_neg]
    rw [hn, neg_div] at h
    simpa using h.neg
  next hc =>
    have hn : ((c.natAbs : ℕ) : ℚ) = c := by
      rw [Nat.cast_natAbs, abs_of_nonneg (Int.not_lt.mp hc)]
    rwa [hn] at h

theorem of?_eq_none {c : ℤ} {scale : ℕ} (hs : scale ≤ maxScale) :
    of? c scale = none ↔ ¬c.natAbs < capacity := by
  simp [of?, hs]

theorem scaled_back (c : ℤ) (scale dropped : ℕ) :
    (c : ℚ) / tenTo (scale + dropped) * tenTo scale = c / tenTo dropped := by
  have hs := tenTo_cast_ne_zero scale
  have hd := tenTo_cast_ne_zero dropped
  rw [tenTo_add, Nat.cast_mul]
  field_simp

theorem fit_eq_none {c : ℤ} {scale dropped : ℕ} (hs : scale ≤ maxScale) :
    fit c scale dropped = none ↔ TooWide ((c : ℚ) / tenTo (scale + dropped)) := by
  induction scale generalizing dropped with
  | zero =>
    rw [fit, of?_eq_none hs, narrow_iff (signed_nearest c (tenTo_pos dropped)), Nat.zero_add, not_not]
  | succ scale ih =>
    have hn := signed_nearest c (tenTo_pos dropped)
    rw [fit]
    split
    next d hd =>
      refine iff_of_false (by simp) fun hw => ?_
      have hw' := tooWide_places hw (scale + 1)
      rw [scaled_back] at hw'
      have hb := d.bounded.1
      rw [(of?_eq_some.mp hd).1] at hb
      exact (narrow_iff hn).mp hb hw'
    next =>
      rw [ih (Nat.le_of_succ_le hs), Nat.add_right_comm, Nat.add_assoc]

/-- What is fitted has the places asked for, or another place would have been too many. -/
theorem fit_nearest {c : ℤ} {scale dropped : ℕ} {d : Decimal} (hs : scale ≤ maxScale)
    (h : fit c scale dropped = some d) :
    Nearest ((c : ℚ) / tenTo (scale + dropped) * tenTo d.scale) d.coefficient ∧
      (d.scale = scale ∨ TooWide ((c : ℚ) / tenTo (scale + dropped) * tenTo (d.scale + 1))) := by
  induction scale generalizing dropped with
  | zero =>
    obtain ⟨hc, hscale⟩ := of?_eq_some.mp h
    rw [hscale, scaled_back, hc]
    exact ⟨signed_nearest c (tenTo_pos dropped), .inl rfl⟩
  | succ scale ih =>
    have hn := signed_nearest c (tenTo_pos dropped)
    rw [fit] at h
    split at h
    next e he =>
      cases h
      obtain ⟨hc, hscale⟩ := of?_eq_some.mp he
      rw [hscale, scaled_back, hc]
      exact ⟨hn, .inl rfl⟩
    next he =>
      obtain ⟨hnear, hmost⟩ := ih (Nat.le_of_succ_le hs) h
      rw [← Nat.add_assoc, Nat.add_right_comm] at hnear hmost
      refine ⟨hnear, .inr ?_⟩
      rcases hmost with hmost | hmost
      · rw [hmost, scaled_back]
        rw [of?_eq_none hs, narrow_iff hn, not_not] at he
        exact he
      · exact hmost

/-- The number has the value rounded to some places: to as many as there is room for, unless fewer are
enough. -/
structure Rounds (x : ℚ) (d : Decimal) (places : ℕ) (n : ℤ) : Prop where
  value : d.value = n / tenTo places
  within : places ≤ maxScale
  narrow : n.natAbs < capacity
  nearest : Nearest (x * tenTo places) n
  most : x * tenTo places = n ∨ places = maxScale ∨ TooWide (x * tenTo (places + 1))

theorem rounds_self (d : Decimal) : Rounds d.value d d.scale d.coefficient where
  value := rfl
  within := d.bounded.2
  narrow := d.bounded.1
  nearest := by
    rw [Decimal.value, div_mul_cancel₀ _ (tenTo_cast_ne_zero _)]
    exact .of_int _
  most := .inl (by rw [Decimal.value, div_mul_cancel₀ _ (tenTo_cast_ne_zero _)])

theorem rounds_of_fit {c : ℤ} {scale dropped : ℕ} {d : Decimal} (hs : scale ≤ maxScale)
    (hd : dropped = 0 ∨ scale = maxScale) (h : fit c scale dropped = some d) :
    Rounds ((c : ℚ) / tenTo (scale + dropped)) d d.scale d.coefficient := by
  obtain ⟨hnear, hmost⟩ := fit_nearest hs h
  refine ⟨rfl, d.bounded.2, d.bounded.1, hnear, ?_⟩
  rcases hmost with hscale | hwide
  · rcases hd with rfl | hfull
    · refine .inl ?_
      rw [hscale, scaled_back, tenTo_zero, Nat.cast_one, div_one] at hnear ⊢
      rw [(Nearest.of_int c).unique hnear]
    · exact .inr (.inl (hscale.trans hfull))
  · exact .inr (.inr hwide)

section

variable {a b d e : Decimal} {x y : ℚ} {n m : ℤ} {p q : ℕ}

theorem max_scale_le (a b : Decimal) : max a.scale b.scale ≤ maxScale := max_le a.bounded.2 b.bounded.2

theorem add_rounds (h : a.add b = some d) : ∃ places n, Rounds (a.value + b.value) d places n := by
  unfold add at h
  split at h
  next ha =>
    cases h
    rw [value_of_isZero ha, zero_add]
    exact ⟨_, _, rounds_self b⟩
  split at h
  next hb =>
    cases h
    rw [value_of_isZero hb, add_zero]
    exact ⟨_, _, rounds_self a⟩
  next =>
    rw [value_add]
    exact ⟨_, _, rounds_of_fit (max_scale_le a b) (.inl rfl) h⟩

theorem value_fits (d : Decimal) : ¬TooWide d.value :=
  fun hw => value_narrow d (tooWide_places hw d.scale)

/-- A sum fails exactly where its value is too wide. -/
theorem add_eq_none : a.add b = none ↔ TooWide (a.value + b.value) := by
  unfold add
  split
  next ha =>
    rw [value_of_isZero ha, zero_add]
    exact iff_of_false (by simp) (value_fits b)
  split
  next hb =>
    rw [value_of_isZero hb, add_zero]
    exact iff_of_false (by simp) (value_fits a)
  next =>
    rw [value_add]
    exact fit_eq_none (max_scale_le a b)

theorem value_mul (a b : Decimal) : a.value * b.value =
    ((a.coefficient * b.coefficient : ℤ) : ℚ) /
      tenTo (min (a.scale + b.scale) maxScale + (a.scale + b.scale - maxScale)) := by
  rw [show min (a.scale + b.scale) maxScale + (a.scale + b.scale - maxScale) = a.scale + b.scale by omega,
    value, value, div_mul_div_comm, tenTo_add]
  push_cast
  rfl

theorem value_mul_of_isZero (h : (a.isZero || b.isZero) = true) : a.value * b.value = zero.value := by
  rcases Bool.or_eq_true_iff.mp h with h | h
  · rw [value_of_isZero h, zero_mul, value_zero]
  · rw [value_of_isZero h, mul_zero, value_zero]

/-- Beyond place 47 the product of two coefficients of 32 bits is less than half of any place. -/
theorem tiny_product (ha : a.coefficient.natAbs ≤ maxNat32) (hb : b.coefficient.natAbs ≤ maxNat32)
    (hs : 47 < a.scale + b.scale) : |a.value * b.value * tenTo maxScale| < 1 / 2 := by
  have hc : |(a.coefficient : ℚ) * b.coefficient| ≤ maxNat32 * maxNat32 := by
    rw [abs_mul]
    refine mul_le_mul ?_ ?_ (abs_nonneg _) (Nat.cast_nonneg _)
    · rw [← Int.cast_abs, ← Nat.cast_natAbs]
      exact_mod_cast ha
    · rw [← Int.cast_abs, ← Nat.cast_natAbs]
      exact_mod_cast hb
  have hp : (tenTo 48 : ℚ) ≤ tenTo (a.scale + b.scale) := by
    rw [← Nat.add_sub_cancel' (show 48 ≤ a.scale + b.scale from hs), tenTo_add, Nat.cast_mul]
    exact le_mul_of_one_le_right (Nat.cast_nonneg _) (one_le_tenTo _)
  have hpos := places_pos (a.scale + b.scale)
  rw [value, value, div_mul_div_comm, ← Nat.cast_mul, ← tenTo_add, div_mul_eq_mul_div, abs_div,
    abs_mul, Nat.abs_cast, Nat.abs_cast, div_lt_iff₀ hpos]
  calc |(a.coefficient : ℚ) * b.coefficient| * tenTo maxScale
      ≤ maxNat32 * maxNat32 * tenTo maxScale := mul_le_mul_of_nonneg_right hc (Nat.cast_nonneg _)
    _ < 1 / 2 * tenTo 48 := by norm_num [maxNat32, tenTo, maxScale]
    _ ≤ 1 / 2 * tenTo (a.scale + b.scale) := by linarith

theorem mul_rounds (h : a.mul b = some d) : ∃ places n, Rounds (a.value * b.value) d places n := by
  unfold mul at h
  dsimp only at h
  split at h
  next hz =>
    cases h
    rw [value_mul_of_isZero hz]
    exact ⟨_, _, rounds_self zero⟩
  split at h
  next hz =>
    cases h
    obtain ⟨ha, hb, hs⟩ := hz
    have hlt := tiny_product ha hb hs
    have hdist : |a.value * b.value * tenTo maxScale - (0 : ℤ)| < 1 / 2 := by
      rwa [Int.cast_zero, sub_zero]
    exact ⟨maxScale, 0, by simp, le_rfl, by decide, ⟨hdist.le, fun he => absurd he hdist.ne⟩,
      .inr (.inl rfl)⟩
  next =>
    rw [value_mul]
    refine ⟨_, _, rounds_of_fit (min_le_right _ _) ?_ h⟩
    omega

/-- A product fails exactly where its value is too wide. -/
theorem mul_eq_none : a.mul b = none ↔ TooWide (a.value * b.value) := by
  unfold mul
  dsimp only
  split
  next hz =>
    rw [value_mul_of_isZero hz]
    exact iff_of_false (by simp) (value_fits zero)
  split
  next hz =>
    obtain ⟨ha, hb, hs⟩ := hz
    refine iff_of_false (by simp) fun hw => ?_
    have hlt := tiny_product ha hb hs
    have hwide : (capacity : ℚ) - 1 / 2 ≤ |a.value * b.value * tenTo maxScale| :=
      tooWide_places hw maxScale
    have hcap : (1 : ℚ) ≤ capacity := by norm_num [capacity]
    linarith
  next =>
    rw [value_mul]
    exact fit_eq_none (min_le_right _ _)

end

namespace Rounds

variable {x y : ℚ} {d e : Decimal} {p q s : ℕ} {n m c : ℤ}

theorem value_mul_places (h : Rounds x d p n) : d.value * tenTo p = n := by
  rw [h.value, div_mul_cancel₀ _ (tenTo_cast_ne_zero p)]

/-- A value above a point that the kept places can express is not rounded below it. -/
theorem grid_le (h : Rounds x d p n) (hs : s ≤ p) (hx : (c : ℚ) / tenTo s ≤ x) :
    (c : ℚ) / tenTo s ≤ d.value := by
  have hscaled := mul_le_mul_of_nonneg_right hx (places_pos p).le
  rw [grid_mul hs] at hscaled
  have hn : c * (tenTo (p - s) : ℤ) ≤ n := (Nearest.of_int _).mono h.nearest hscaled
  refine le_of_mul_le_mul_right ?_ (places_pos p)
  rw [grid_mul hs, h.value_mul_places]
  exact_mod_cast hn

theorem le_grid (h : Rounds x d p n) (hs : s ≤ p) (hx : x ≤ (c : ℚ) / tenTo s) :
    d.value ≤ (c : ℚ) / tenTo s := by
  have hscaled := mul_le_mul_of_nonneg_right hx (places_pos p).le
  rw [grid_mul hs] at hscaled
  have hn : n ≤ c * (tenTo (p - s) : ℤ) := h.nearest.mono (.of_int _) hscaled
  refine le_of_mul_le_mul_right ?_ (places_pos p)
  rw [grid_mul hs, h.value_mul_places]
  exact_mod_cast hn

/-- Places are given up only where there is no room for them. -/
theorem exact_or_places (h : Rounds x d p n) (hs : s ≤ maxScale) (hroom : ¬TooWide (x * tenTo s)) :
    d.value = x ∨ s ≤ p := by
  rcases h.most with hexact | hfull | hwide
  · left
    rw [h.value, ← hexact, mul_div_cancel_right₀ _ (tenTo_cast_ne_zero p)]
  · right
    rw [hfull]
    exact hs
  · right
    by_contra hlt
    exact hroom (tooWide_scaled hwide (Nat.not_le.mp hlt))

/-- The value of a decimal is kept. -/
theorem exact (h : Rounds x d p n) (hf : Fits x) : d.value = x := by
  obtain ⟨e, rfl⟩ := hf
  rcases h.exact_or_places e.bounded.2 (value_narrow e) with hd | hs
  · exact hd
  · exact le_antisymm (h.le_grid hs le_rfl) (h.grid_le hs le_rfl)

/-- Half a unit of the last place is lost at most. -/
theorem error (h : Rounds x d p n) : |d.value - x| ≤ 1 / (2 * tenTo p) := by
  have hpos := places_pos p
  have hnear := h.nearest.near
  rw [← h.value_mul_places, ← sub_mul, abs_mul, Nat.abs_cast, abs_sub_comm] at hnear
  rw [one_div, mul_inv, ← div_eq_mul_inv, le_div_iff₀ hpos]
  linarith

/-- The smaller of two values may have more places, since there is less to keep in front of the
point. The greater one has then a coefficient of full length. -/
theorem mono_of_more_places (hx : Rounds x d p n) (hy : Rounds y e q m) (hpos : 0 ≤ y) (hqp : q < p)
    (hwide : TooWide (y * tenTo (q + 1))) : d.value ≤ e.value := by
  have hge : (capacity : ℚ) - 1 / 2 ≤ y * tenTo q * 10 := by
    have := hwide
    rw [TooWide, abs_mul, abs_of_nonneg hpos, Nat.abs_cast, tenTo_succ] at this
    push_cast at this
    linarith
  have hm : (capacity : ℚ) - 1 / 2 ≤ m * 10 + 5 := by
    have := (abs_le.mp hy.nearest.near).2
    linarith
  have hfull : (capacity : ℤ) ≤ m * 10 := by
    have : ((capacity : ℤ) : ℚ) * 2 - 1 ≤ ((m * 10 * 2 + 10 : ℤ) : ℚ) := by
      push_cast
      linarith
    have hint : (capacity : ℤ) * 2 - 1 ≤ m * 10 * 2 + 10 := by exact_mod_cast this
    unfold capacity at hint ⊢
    omega
  have hn : n ≤ m * 10 := by
    have := hx.narrow
    omega
  have hstep : (10 : ℤ) ≤ tenTo (p - q) := by exact_mod_cast ten_le_tenTo (Nat.sub_pos_of_lt hqp)
  have hm0 : 0 ≤ m := by
    unfold capacity at hfull
    omega
  refine le_of_mul_le_mul_right ?_ (places_pos p)
  rw [hx.value_mul_places, hy.value, grid_mul hqp.le]
  exact_mod_cast hn.trans (Int.mul_le_mul_of_nonneg_left hstep hm0)

/-- Of two values the greater one is not rounded to the smaller number. -/
theorem mono (hx : Rounds x d p n) (hy : Rounds y e q m) (hpos : 0 ≤ x) (hxy : x ≤ y) :
    d.value ≤ e.value := by
  rcases Nat.lt_trichotomy p q with hpq | rfl | hqp
  · rcases hx.most with hexact | hfull | hwide
    · have hd : d.value = x := by
        rw [hx.value, ← hexact, mul_div_cancel_right₀ _ (tenTo_cast_ne_zero p)]
      rw [hx.value] at hd ⊢
      exact hy.grid_le hpq.le (hd.trans_le hxy)
    · have := hy.within
      omega
    · -- The greater value would not have room for its places.
      refine absurd (tooWide_mono (tooWide_scaled hwide hpq) ?_) ((narrow_iff hy.nearest).mp hy.narrow)
      rw [abs_mul, abs_mul, abs_of_nonneg hpos, abs_of_nonneg (hpos.trans hxy)]
      exact mul_le_mul_of_nonneg_right hxy (abs_nonneg _)
  · have hnm := hx.nearest.mono hy.nearest (mul_le_mul_of_nonneg_right hxy (places_pos p).le)
    rw [hx.value, hy.value]
    exact div_le_div_of_nonneg_right (by exact_mod_cast hnm) (places_pos p).le
  · rcases hy.most with hexact | hfull | hwide
    · have he : e.value = y := by
        rw [hy.value, ← hexact, mul_div_cancel_right₀ _ (tenTo_cast_ne_zero q)]
      rw [hy.value] at he ⊢
      exact hx.le_grid hqp.le (hxy.trans_eq he.symm)
    · have := hx.within
      omega
    · exact hx.mono_of_more_places hy (hpos.trans hxy) hqp hwide

end Rounds
end Decimal
end Settlement
