import Settlement.Proofs.Rounding

/-!
Conversion rounds twice: the product to the places a decimal has room for, and that to cents. Main
statement: where the two differ from one rounding to cents, and by how much.
-/

namespace Settlement
namespace Money

/-- The value in cents, rounded once, a half upwards. -/
def cents (x : ℚ) : ℤ := ⌊x * 100 + 1 / 2⌋

/-- The value in the middle between two neighbouring numbers of cents. -/
def midpoint (k : ℤ) : ℚ := (2 * k + 1) / 200

section

variable {x y : ℚ} {k : ℤ}

theorem cents_le_iff : cents x ≤ k ↔ x < midpoint k := by
  rw [← Int.lt_add_one_iff, cents, Int.floor_lt, midpoint, lt_div_iff₀ (by norm_num)]
  push_cast
  constructor <;> intro h <;> linarith

/-- Two values have the same cents unless a midpoint separates them. -/
theorem cents_eq_iff : cents x = cents y ↔ ∀ k, x < midpoint k ↔ y < midpoint k := by
  constructor
  · intro h k
    rw [← cents_le_iff, ← cents_le_iff, h]
  · intro h
    apply le_antisymm
    · rw [cents_le_iff, h, ← cents_le_iff]
    · rw [cents_le_iff, ← h, ← cents_le_iff]

theorem cents_mono (h : x ≤ y) : cents x ≤ cents y :=
  cents_le_iff.mpr (h.trans_lt (cents_le_iff.mp le_rfl))

theorem cents_near (x : ℚ) : |(cents x : ℚ) / 100 - x| ≤ 1 / 200 := by
  have hle := Int.floor_le (x * 100 + 1 / 2)
  have hlt := Int.lt_floor_add_one (x * 100 + 1 / 2)
  rw [abs_le, cents]
  constructor <;> linarith

theorem midpoint_lt (k : ℤ) : midpoint (k - 1) < midpoint k := by
  unfold midpoint
  push_cast
  linarith

theorem cents_midpoint (k : ℤ) : cents (midpoint k) = k + 1 := by
  have hk : midpoint k * 100 + 1 / 2 = ((k + 1 : ℤ) : ℚ) := by
    unfold midpoint
    push_cast
    ring
  rw [cents, hk, Int.floor_intCast]

/-- A midpoint has three places. -/
theorem midpoint_eq (k : ℤ) : midpoint k = (5 * (2 * k + 1) : ℤ) / tenTo 3 := by
  rw [midpoint, show tenTo 3 = 1000 from rfl]
  push_cast
  ring

end

theorem divUp_eq_floor (n : ℕ) {d : ℕ} (hd : 0 < d) :
    (Decimal.divUp n d : ℤ) = ⌊(n : ℚ) / d + 1 / 2⌋ := by
  have hpos : (0 : ℚ) < d := Nat.cast_pos.mpr hd
  have hsplit : (n : ℚ) / d = (n / d : ℕ) + ((n % d : ℕ) : ℚ) / d := by
    rw [eq_comm, ← mul_right_inj' hpos.ne', mul_add, mul_div_cancel₀ _ hpos.ne',
      mul_div_cancel₀ _ hpos.ne']
    exact_mod_cast Nat.div_add_mod n d
  have hlt : ((n % d : ℕ) : ℚ) / d < 1 := by
    rw [div_lt_one hpos]
    exact_mod_cast Nat.mod_lt n hd
  have hnonneg : 0 ≤ ((n % d : ℕ) : ℚ) / d := div_nonneg (Nat.cast_nonneg _) hpos.le
  have hhalf : ((n % d : ℕ) : ℚ) / d < 1 / 2 ↔ 2 * (n % d) < d := by
    rw [div_lt_div_iff₀ hpos two_pos, one_mul, mul_comm]
    exact_mod_cast Iff.rfl
  rw [eq_comm, Int.floor_eq_iff, hsplit, Int.cast_natCast]
  unfold Decimal.divUp
  split
  next h =>
    have := hhalf.mpr h
    constructor <;> linarith
  next h =>
    have := Rat.not_lt.mp (mt hhalf.mp h)
    rw [Nat.cast_add, Nat.cast_one]
    constructor <;> linarith

/-- A decimal that is not negative is rounded to the cents of its value. -/
theorem round_cents {d : Decimal} (h : Decimal.zero ≤ d) :
    (round d).value = cents d.value / 100 := by
  by_cases hs : d.scale ≤ places
  · obtain ⟨n, hn⟩ := Decimal.cents_of_scale hs
    have hc : cents d.value = n := by
      rw [cents, hn, div_mul_cancel₀ _ (by norm_num), Int.floor_eq_iff]
      constructor <;> linarith
    rw [hc, ← hn, round, Decimal.round, dif_pos hs]
  · have hcut : d.value * 100 = (d.coefficient.natAbs : ℚ) / tenTo (d.scale - places) := by
      have hc : ((d.coefficient.natAbs : ℕ) : ℚ) = d.coefficient := by
        rw [Nat.cast_natAbs, abs_of_nonneg (Decimal.zero_le_iff.mp h)]
      have hscaled := Decimal.scaled_back d.coefficient places (d.scale - places)
      rw [Nat.add_sub_cancel' (Nat.le_of_not_le hs)] at hscaled
      rw [hc, ← hscaled, Decimal.value, places, show tenTo 2 = 100 from rfl, Nat.cast_ofNat]
    have hround : (round d).value =
        (Decimal.signed d.coefficient
          (Decimal.divUp d.coefficient.natAbs (tenTo (d.scale - places))) : ℤ) / tenTo places := by
      rw [round, Decimal.round, dif_neg hs, Decimal.value]
    have hsign := Decimal.zero_le_iff.mp h
    rw [hround, Decimal.signed, if_neg (by omega), divUp_eq_floor _ (tenTo_pos _), cents, hcut]
    rfl

section

variable {x : ℚ} {d : Decimal} {kept : ℕ} {n k : ℤ}

/-- A value with room for three places is not rounded beyond a midpoint. -/
theorem rounds_le_midpoint (h : Decimal.Rounds x d kept n) (hroom : ¬Decimal.TooWide (x * tenTo 3))
    (hx : x ≤ midpoint k) : d.value ≤ midpoint k := by
  rcases h.exact_or_places (by decide) hroom with he | hs
  · rwa [he]
  · rw [midpoint_eq] at hx ⊢
    exact h.le_grid hs hx

theorem midpoint_le_rounds (h : Decimal.Rounds x d kept n) (hroom : ¬Decimal.TooWide (x * tenTo 3))
    (hx : midpoint k ≤ x) : midpoint k ≤ d.value := by
  rcases h.exact_or_places (by decide) hroom with he | hs
  · rwa [he]
  · rw [midpoint_eq] at hx ⊢
    exact h.grid_le hs hx

/-- One cent too much, where the value is rounded up to the midpoint above it. -/
theorem cents_of_tie (h : Decimal.Rounds x d kept n) (hroom : ¬Decimal.TooWide (x * tenTo 3))
    (hx : x < midpoint k) (hd : d.value = midpoint k) : cents d.value = cents x + 1 := by
  have hle : cents x ≤ k := cents_le_iff.mpr hx
  have hge : k - 1 < cents x := by
    by_contra hlt
    have hbelow := cents_le_iff.mp (Int.not_lt.mp hlt)
    have hcross := rounds_le_midpoint h hroom hbelow.le
    rw [hd] at hcross
    exact absurd (midpoint_lt k) (Rat.not_lt.mpr hcross)
  rw [hd, cents_midpoint]
  omega

theorem cents_of_no_tie (h : Decimal.Rounds x d kept n) (hroom : ¬Decimal.TooWide (x * tenTo 3))
    (hno : ¬∃ k, x < midpoint k ∧ d.value = midpoint k) : cents d.value = cents x := by
  refine cents_eq_iff.mpr fun k => ⟨fun hd => ?_, fun hx => ?_⟩
  · by_contra hx
    exact absurd hd (Rat.not_lt.mpr (midpoint_le_rounds h hroom (Rat.not_lt.mp hx)))
  · refine lt_of_le_of_ne (rounds_le_midpoint h hroom hx.le) fun he => ?_
    exact hno ⟨k, hx, he⟩

end

section

variable {amount accepted rate product : Decimal}

theorem convert_of_mul (h : accepted.mul rate = some product) :
    convert accepted rate = some (round product) := by
  rw [convert, h, Option.map_some]

/-- A greater amount is never worth less at one rate. -/
theorem convert_mono {larger target target' : Decimal} (ha : Decimal.zero ≤ accepted)
    (hr : Decimal.zero ≤ rate) (hle : accepted ≤ larger) (h : convert accepted rate = some target)
    (h' : convert larger rate = some target') : target ≤ target' := by
  obtain ⟨product, hp, rfl⟩ := Option.map_eq_some_iff.mp h
  obtain ⟨product', hp', rfl⟩ := Option.map_eq_some_iff.mp h'
  obtain ⟨kept, n, hround⟩ := Decimal.mul_rounds hp
  obtain ⟨kept', n', hround'⟩ := Decimal.mul_rounds hp'
  have hnonneg := Decimal.mul_nonneg ha hr hp
  have ha' := Decimal.le_iff_value.mp ha
  have hr' := Decimal.le_iff_value.mp hr
  rw [Decimal.value_zero] at ha' hr'
  have hmono : product.value ≤ product'.value :=
    hround.mono hround' (mul_nonneg ha' hr')
      (mul_le_mul_of_nonneg_right (Decimal.le_iff_value.mp hle) hr')
  have hnonneg' : Decimal.zero ≤ product' :=
    Decimal.le_iff_value.mpr ((Decimal.le_iff_value.mp hnonneg).trans hmono)
  rw [Decimal.le_iff_value, round_cents hnonneg, round_cents hnonneg']
  exact div_le_div_of_nonneg_right (by exact_mod_cast cents_mono hmono) (by norm_num)

/-- A conversion whose exact product has room gives the cents of the product that a decimal keeps:
those of the exact product itself unless a midpoint separates the two. With room for three places the
midpoint is the kept product, and the answer is one cent too much. -/
theorem convert_once_iff (hv : validate amount = .ok accepted) (hr : Decimal.zero < rate)
    (hroom : ¬Decimal.TooWide (accepted.value * rate.value)) :
    ∃ (product target : Decimal) (kept : ℕ) (n : ℤ),
      Decimal.Rounds (accepted.value * rate.value) product kept n ∧
      convert accepted rate = some target ∧ target.value = cents product.value / 100 ∧
      (target.value = cents (accepted.value * rate.value) / 100 ↔
        ∀ k, accepted.value * rate.value < midpoint k ↔ product.value < midpoint k) ∧
      (¬Decimal.TooWide (accepted.value * rate.value * tenTo 3) →
        (∃ k, accepted.value * rate.value < midpoint k ∧ product.value = midpoint k) ∧
            target.value = (cents (accepted.value * rate.value) + 1) / 100 ∨
          (¬∃ k, accepted.value * rate.value < midpoint k ∧ product.value = midpoint k) ∧
            target.value = cents (accepted.value * rate.value) / 100) ∧
      (Decimal.Fits (accepted.value * rate.value) →
        target.value = cents (accepted.value * rate.value) / 100) ∧
      |target.value - accepted.value * rate.value| ≤ 1 / 200 + 1 / (2 * tenTo kept) ∧
      ∀ larger target', accepted ≤ larger → convert larger rate = some target' →
        target ≤ target' := by
  obtain ⟨product, hp⟩ := Option.ne_none_iff_exists'.mp (mt Decimal.mul_eq_none.mp hroom)
  obtain ⟨kept, n, hround⟩ := Decimal.mul_rounds hp
  have ha := validate_nonneg hv
  have hr' := Decimal.le_of_lt hr
  have hcents := round_cents (Decimal.mul_nonneg ha hr' hp)
  have hsame : ∀ {m : ℤ}, (round product).value = m / 100 ↔ cents product.value = m := by
    intro m
    rw [hcents, div_left_inj' (by norm_num), Int.cast_inj]
  refine ⟨product, round product, kept, n, hround, convert_of_mul hp, hcents,
    hsame.trans (eq_comm.trans cents_eq_iff), fun hfine => ?_, fun hf => ?_, ?_,
    fun larger target' hle => convert_mono ha hr' hle (convert_of_mul hp)⟩
  · by_cases htie : ∃ k, accepted.value * rate.value < midpoint k ∧ product.value = midpoint k
    · refine .inl ⟨htie, ?_⟩
      obtain ⟨k, hlt, hk⟩ := htie
      rw [hcents, cents_of_tie hround hfine hlt hk, Int.cast_add, Int.cast_one]
    · exact .inr ⟨htie, hsame.mpr (cents_of_no_tie hround hfine htie)⟩
  · rw [hsame, hround.exact hf]
  · have hnear := cents_near product.value
    rw [← hcents] at hnear
    calc |(round product).value - accepted.value * rate.value|
        ≤ |(round product).value - product.value| + |product.value - accepted.value * rate.value| :=
          abs_sub_le _ _ _
      _ ≤ 1 / 200 + 1 / (2 * tenTo kept) := add_le_add hnear hround.error

end

def threeCents : Decimal := ⟨3, 2, by decide⟩

def sixth : Decimal := ⟨1666666666666666666666666666, 28, by decide⟩

theorem sixth_room : ¬Decimal.TooWide (threeCents.value * sixth.value) :=
  mt Decimal.mul_eq_none.mpr (by decide +kernel)

/-- A little less than half a cent is answered as one. -/
theorem cent_of_threeCents : validate threeCents = .ok threeCents ∧ Decimal.zero < sixth ∧
    ¬Decimal.TooWide (threeCents.value * sixth.value) ∧
    ∃ target, convert threeCents sixth = some target ∧ target.value = 1 / 100 ∧
      target.value ≠ cents (threeCents.value * sixth.value) / 100 := by
  obtain ⟨target, htarget, hvalue⟩ : ∃ target, convert threeCents sixth = some target ∧
      target.coefficient * 100 = 1 * tenTo target.scale := by
    refine ⟨⟨1, 2, by decide⟩, by decide +kernel, by decide⟩
  have hcent : target.value = 1 / 100 := by
    have htwo : target.value = (1 : ℤ) / tenTo 2 := Decimal.value_eq_iff.mpr hvalue
    rw [htwo]
    norm_num [tenTo]
  have hnothing : cents (threeCents.value * sixth.value) ≤ 0 := by
    rw [cents_le_iff]
    norm_num [threeCents, sixth, Decimal.value, midpoint, tenTo]
  refine ⟨by decide +kernel, by decide, sixth_room, target, htarget, hcent, ?_⟩
  rw [hcent, Ne, div_left_inj' (by norm_num)]
  intro h
  have hone : (1 : ℤ) = cents (threeCents.value * sixth.value) := by exact_mod_cast h
  omega

theorem convert_once_iff_threeCents : validate threeCents = .ok threeCents ∧
    Decimal.zero < sixth ∧ ¬Decimal.TooWide (threeCents.value * sixth.value) ∧
    ∃ product target : Decimal, convert threeCents sixth = some target ∧
      target.value = cents product.value / 100 ∧
      (target.value = cents (threeCents.value * sixth.value) / 100 ↔
        ∀ k, threeCents.value * sixth.value < midpoint k ↔ product.value < midpoint k) := by
  have hv : validate threeCents = .ok threeCents := by decide +kernel
  have hr : Decimal.zero < sixth := by decide
  obtain ⟨product, target, -, -, -, htarget, hcents, hiff, -⟩ := convert_once_iff hv hr sixth_room
  exact ⟨hv, hr, sixth_room, product, target, htarget, hcents, hiff⟩

end Money
end Settlement
