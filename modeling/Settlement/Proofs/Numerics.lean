import Mathlib.Data.List.Induction
import Settlement.Proofs.Values
import Settlement.Sql.Value

/-!
Numbers as a database keeps them, of any width. A number that is no wider than a decimal is read as a
decimal of its value, however many zeros it was written with.
-/

namespace Settlement

/-- Some decimal has the value. -/
def Decimal.Fits (v : ℚ) : Prop := ∃ d : Decimal, d.value = v

/-- If every sum on the way is no wider than a decimal, the sum is exact. -/
theorem Decimal.sum_exact {ds : List Decimal}
    (h : ∀ front, front <+: ds → Fits (front.map value).sum) :
    ∃ d, Decimal.sum ds = some d ∧ d.value = (ds.map value).sum := by
  induction ds using List.reverseRecOn with
  | nil => exact ⟨zero, rfl, value_zero⟩
  | append_singleton ds d ih =>
    obtain ⟨front, hf, hv⟩ := ih fun front hp => h front (hp.trans (List.prefix_append _ _))
    have hfits := h _ List.prefix_rfl
    rw [List.map_append, List.sum_append, List.map_singleton, List.sum_singleton, ← hv] at hfits ⊢
    obtain ⟨exact, hexact⟩ := hfits
    obtain ⟨sum, hs, hsv⟩ := add_exact hexact
    refine ⟨sum, ?_, hsv⟩
    rw [Decimal.sum, List.foldlM_append]
    exact Option.bind_eq_some_iff.mpr ⟨front, hf, by simpa using hs⟩

/-- A product that is no wider than a decimal is exact. -/
theorem Decimal.mul_exact {a b e : Decimal} (ha : a.isZero = false) (hb : b.isZero = false)
    (hc : e.coefficient = a.coefficient * b.coefficient) (hs : e.scale = a.scale + b.scale) :
    a.mul b = some e := by
  have hbound : a.scale + b.scale ≤ 28 := hs ▸ e.bounded.2
  have hfit := fit_self e 0
  rw [tenTo_zero, Nat.cast_one, mul_one, hc, hs] at hfit
  unfold mul
  rw [ha, hb, if_neg (by decide), if_neg (by omega)]
  simpa only [maxScale, Nat.min_eq_left hbound, Nat.sub_eq_zero_of_le hbound] using hfit

/-- Rounding to places that the value does not go beyond keeps it. -/
theorem Decimal.round_of_value {d : Decimal} {c : Int} {places : Nat}
    (h : d.value = c / tenTo places) : (d.round places).value = d.value := by
  unfold round
  split
  · rfl
  next hp =>
    have hc : d.coefficient = c * (tenTo (d.scale - places) : Nat) := by
      have hpos : (tenTo places : Int) ≠ 0 := by exact_mod_cast (tenTo_pos places).ne'
      refine mul_right_cancel₀ hpos ?_
      rw [value_eq_iff.mp h, mul_assoc, ← Nat.cast_mul, ← tenTo_add,
        Nat.sub_add_cancel (Nat.le_of_not_le hp)]
    rw [h, value]
    show ((signed d.coefficient (divUp d.coefficient.natAbs (tenTo (d.scale - places))) : Int) : ℚ) /
      tenTo places = c / tenTo places
    rw [hc, signed_divUp c (tenTo_pos _)]

namespace Sql
namespace Numeric

def value (n : Numeric) : ℚ := n.coefficient / tenTo n.scale

def shifted (m : Nat) (weight : Int) : ℚ :=
  if 0 ≤ weight then m * tenTo (4 * weight.toNat) else m / tenTo (4 * weight.natAbs)

theorem shifted_of_neg (m k : Nat) : shifted m (-(k : Int)) = m / tenTo (4 * k) := by
  unfold shifted
  split
  next h =>
    obtain rfl : k = 0 := by omega
    simp [tenTo_zero]
  next => rw [Int.natAbs_neg, Int.natAbs_natCast]

theorem shifted_of_nonneg (m k : Nat) : shifted m k = m * tenTo (4 * k) := by
  rw [shifted, if_pos (Int.natCast_nonneg k), Int.toNat_natCast]

theorem tenTo_four (k : Nat) : (tenTo (4 * (k + 1)) : ℚ) = 10000 * tenTo (4 * k) := by
  rw [Nat.mul_succ, tenTo_add, Nat.cast_mul, mul_comm]
  norm_num [tenTo]

/-- One group of digits, and the rest at the next place. -/
theorem shifted_split (m : Nat) (weight : Int) :
    shifted m weight = shifted (m / 10000) (weight + 1) + shifted (m % 10000) weight := by
  have hm : (m : ℚ) = 10000 * (m / 10000 : Nat) + (m % 10000 : Nat) := by
    exact_mod_cast (Nat.div_add_mod m 10000).symm
  obtain ⟨k, rfl | rfl⟩ : ∃ k : Nat, weight = k ∨ weight = -((k + 1 : Nat) : Int) := by
    cases weight with
    | ofNat k => exact ⟨k, .inl rfl⟩
    | negSucc k => exact ⟨k, .inr rfl⟩
  · rw [show (k : Int) + 1 = ((k + 1 : Nat) : Int) by push_cast; rfl]
    simp only [shifted_of_nonneg, tenTo_four]
    rw [hm]
    ring
  · rw [show -((k + 1 : Nat) : Int) + 1 = -(k : Int) by push_cast; ring]
    simp only [shifted_of_neg, tenTo_four]
    have hz := tenTo_cast_ne_zero (4 * k)
    rw [hm]
    field_simp

/-- The decimals that stand for digits behind the point. -/
theorem fits_iff_neg {m k : Nat} :
    Decimal.Fits (shifted m (-(k : Int))) ↔ ∃ c s : Nat, c < Decimal.capacity ∧
      s ≤ Decimal.maxScale ∧ m * tenTo s = c * tenTo (4 * k) := by
  rw [shifted_of_neg, ← Int.cast_natCast]
  constructor
  · rintro ⟨d, hd⟩
    have hc := Decimal.value_eq_iff.mp hd
    have hpos : (0 : Int) < tenTo (4 * k) := by exact_mod_cast tenTo_pos _
    have hnonneg : 0 ≤ d.coefficient :=
      nonneg_of_mul_nonneg_left (hc ▸ Int.mul_nonneg (by omega) (by omega)) hpos
    obtain ⟨c, hn⟩ := Int.eq_ofNat_of_zero_le hnonneg
    refine ⟨c, d.scale, ?_, d.bounded.2, ?_⟩
    · simpa [hn] using d.bounded.1
    · rw [hn] at hc
      exact_mod_cast hc.symm
  · rintro ⟨c, s, hc, hs, he⟩
    obtain ⟨d, hd⟩ := Decimal.of?_isSome (Int.natAbs_natCast c ▸ hc) hs
    obtain ⟨hdc, hds⟩ := Decimal.of?_eq_some.mp hd
    refine ⟨d, Decimal.value_eq_iff.mpr ?_⟩
    rw [hdc, hds]
    exact_mod_cast he.symm

/-- The decimals that stand for digits in front of the point. -/
theorem fits_iff_nonneg {m k : Nat} :
    Decimal.Fits (shifted m k) ↔ m * tenTo (4 * k) < Decimal.capacity := by
  have hv : shifted m k = ((m * tenTo (4 * k) : Nat) : Int) / tenTo 0 := by
    rw [shifted_of_nonneg, tenTo_zero]
    push_cast
    ring
  rw [hv]
  constructor
  · rintro ⟨d, hd⟩
    have hc := Decimal.value_eq_iff.mp hd
    rw [tenTo_zero, Nat.cast_one, mul_one] at hc
    refine Nat.lt_of_le_of_lt ?_ d.bounded.1
    rw [hc, ← Nat.cast_mul, Int.natAbs_natCast]
    exact Nat.le_mul_of_pos_right _ (tenTo_pos _)
  · intro h
    obtain ⟨d, hd⟩ := Decimal.of?_isSome (c := ((m * tenTo (4 * k) : Nat) : Int))
      (by rwa [Int.natAbs_natCast]) (Nat.zero_le _)
    obtain ⟨hdc, hds⟩ := Decimal.of?_eq_some.mp hd
    exact ⟨d, by rw [Decimal.value, hdc, hds]⟩

theorem weight_cases (weight : Int) :
    (∃ k : Nat, weight = k) ∨ ∃ k : Nat, weight = -((k + 1 : Nat) : Int) := by
  cases weight with
  | ofNat k => exact .inl ⟨k, rfl⟩
  | negSucc k => exact .inr ⟨k, rfl⟩

theorem tenTo_four_nat (k : Nat) : tenTo (4 * (k + 1)) = tenTo (4 * k) * 10000 := by
  rw [Nat.mul_succ, tenTo_add]
  rfl

/-- The leading digits of a number that fits do so too. -/
theorem fits_leading {m : Nat} {weight : Int} (h : Decimal.Fits (shifted m weight)) :
    Decimal.Fits (shifted (m / 10000) (weight + 1)) := by
  rcases weight_cases weight with ⟨k, rfl⟩ | ⟨k, rfl⟩
  · rw [show (k : Int) + 1 = ((k + 1 : Nat) : Int) by push_cast; rfl]
    rw [fits_iff_nonneg] at h ⊢
    rw [tenTo_four_nat]
    calc m / 10000 * (tenTo (4 * k) * 10000) = m / 10000 * 10000 * tenTo (4 * k) := by ring
      _ ≤ m * tenTo (4 * k) := Nat.mul_le_mul_right _ (Nat.div_mul_le_self m 10000)
      _ < _ := h
  · rw [show -((k + 1 : Nat) : Int) + 1 = -(k : Int) by push_cast; ring]
    rw [fits_iff_neg] at h ⊢
    obtain ⟨c, s, hc, hs, he⟩ := h
    rw [tenTo_four_nat] at he
    have hpos := tenTo_pos (4 * k)
    by_cases hk : 4 * k ≤ s
    · -- The decimal has all the places that are left.
      refine ⟨m / 10000 * tenTo (s - 4 * k), s, ?_, hs, ?_⟩
      · have hm := Nat.div_mul_le_self m 10000
        have hsplit : tenTo s = tenTo (s - 4 * k) * tenTo (4 * k) := by
          rw [← tenTo_add, Nat.sub_add_cancel hk]
        refine Nat.lt_of_le_of_lt (Nat.le_of_mul_le_mul_right ?_ hpos) hc
        refine Nat.le_of_mul_le_mul_right ?_ (show 0 < 10000 by decide)
        calc m / 10000 * tenTo (s - 4 * k) * tenTo (4 * k) * 10000
            = m / 10000 * 10000 * tenTo s := by rw [hsplit]; ring
          _ ≤ m * tenTo s := Nat.mul_le_mul_right _ hm
          _ = c * tenTo (4 * k) * 10000 := by rw [he]; ring
      · rw [Nat.mul_assoc, ← tenTo_add, Nat.sub_add_cancel hk]
    · -- The last group of digits is zero.
      obtain ⟨j, hj⟩ : ∃ j, 4 * k = s + j := ⟨4 * k - s, by omega⟩
      have hm : m = c * tenTo j * 10000 := by
        refine Nat.eq_of_mul_eq_mul_right (tenTo_pos s) ?_
        rw [he, hj, tenTo_add]
        ring
      refine ⟨c, s, hc, hs, ?_⟩
      rw [hm, Nat.mul_div_cancel _ (by decide), hj, tenTo_add]
      ring

/-- The places of a last group that is not zero are among those of a decimal. -/
theorem places_le {m k : Nat} (h : Decimal.Fits (shifted m (-((k + 1 : Nat) : Int))))
    (hd : m % 10000 ≠ 0) : 4 * (k + 1) ≤ Decimal.maxScale := by
  obtain ⟨c, s, -, hs, he⟩ := fits_iff_neg.mp h
  by_contra hgt
  obtain ⟨j, hj⟩ : ∃ j, 4 * (k + 1) = s + (4 + j) := by
    have hm : Decimal.maxScale = 4 * 7 := rfl
    exact ⟨4 * (k + 1) - s - 4, by omega⟩
  refine hd (Nat.mod_eq_zero_of_dvd ⟨c * tenTo j, ?_⟩)
  refine Nat.eq_of_mul_eq_mul_right (tenTo_pos s) ?_
  rw [he, hj, tenTo_add, tenTo_add, show tenTo 4 = 10000 from rfl]
  ring

def GroupExact (m : Nat) (weight : Int) : Prop :=
  ∃ p r part : Decimal, power weight = some p ∧ Decimal.of? (m % 10000 : Nat) 0 = some r ∧
    r.mul p = some part ∧ part.value = shifted (m % 10000) weight

section

variable {m k : Nat} {r : Decimal}

theorem group_exact_nonneg (h : Decimal.Fits (shifted m k)) (hd : m % 10000 ≠ 0)
    (hr : Decimal.of? (m % 10000 : Nat) 0 = some r) (hrz : r.isZero = false) : GroupExact m k := by
  rw [fits_iff_nonneg] at h
  have hle : m % 10000 * tenTo (4 * k) < Decimal.capacity :=
    Nat.lt_of_le_of_lt (Nat.mul_le_mul_right _ (Nat.mod_le m 10000)) h
  have hone : tenTo (4 * k) < Decimal.capacity :=
    Nat.lt_of_le_of_lt (Nat.le_mul_of_pos_left _ (Nat.pos_of_ne_zero hd)) hle
  obtain ⟨p, hp⟩ : ∃ p, Decimal.of? (tenTo (4 * k) : Nat) 0 = some p :=
    Decimal.of?_isSome (by rwa [Int.natAbs_natCast]) (Nat.zero_le _)
  obtain ⟨part, hpart⟩ : ∃ part, Decimal.of? (m % 10000 * tenTo (4 * k) : Nat) 0 = some part :=
    Decimal.of?_isSome (by rwa [Int.natAbs_natCast]) (Nat.zero_le _)
  obtain ⟨hrc, hrs⟩ := Decimal.of?_eq_some.mp hr
  obtain ⟨hpc, hps⟩ := Decimal.of?_eq_some.mp hp
  obtain ⟨hec, hes⟩ := Decimal.of?_eq_some.mp hpart
  have hpz : p.isZero = false := by
    rw [Decimal.isZero, hpc]
    exact beq_false_of_ne (by exact_mod_cast (tenTo_pos _).ne')
  refine ⟨p, r, part, ?_, hr, Decimal.mul_exact hrz hpz ?_ ?_, ?_⟩
  · rw [power, if_pos (Int.natCast_nonneg k), Int.toNat_natCast, hp]
  · rw [hec, hrc, hpc, Nat.cast_mul]
  · rw [hes, hrs, hps]
  · rw [Decimal.value, hec, hes, tenTo_zero, shifted_of_nonneg, Int.cast_natCast, Nat.cast_mul,
      Nat.cast_one, div_one]

theorem group_exact_neg (h : Decimal.Fits (shifted m (-((k + 1 : Nat) : Int)))) (hd : m % 10000 ≠ 0)
    (hr : Decimal.of? (m % 10000 : Nat) 0 = some r) (hrz : r.isZero = false) :
    GroupExact m (-((k + 1 : Nat) : Int)) := by
  have hk := places_le h hd
  have hlt : m % 10000 < 10000 := Nat.mod_lt _ (by decide)
  have hcap : 10000 < Decimal.capacity := by decide
  obtain ⟨p, hp⟩ : ∃ p, Decimal.of? 1 (4 * (k + 1)) = some p :=
    Decimal.of?_isSome (by decide) hk
  obtain ⟨part, hpart⟩ : ∃ part, Decimal.of? (m % 10000 : Nat) (4 * (k + 1)) = some part :=
    Decimal.of?_isSome (by rw [Int.natAbs_natCast]; omega) hk
  obtain ⟨hrc, hrs⟩ := Decimal.of?_eq_some.mp hr
  obtain ⟨hpc, hps⟩ := Decimal.of?_eq_some.mp hp
  obtain ⟨hec, hes⟩ := Decimal.of?_eq_some.mp hpart
  have hpz : p.isZero = false := by rw [Decimal.isZero, hpc]; rfl
  refine ⟨p, r, part, ?_, hr, Decimal.mul_exact hrz hpz ?_ ?_, ?_⟩
  · rw [power, if_neg (by omega), Int.natAbs_neg, Int.natAbs_natCast, hp]
  · rw [hec, hrc, hpc, mul_one]
  · rw [hes, hrs, hps, Nat.zero_add]
  · rw [Decimal.value, hec, hes, shifted_of_neg, Int.cast_natCast]

end

theorem group_exact {m : Nat} {weight : Int} (h : Decimal.Fits (shifted m weight))
    (hd : m % 10000 ≠ 0) : GroupExact m weight := by
  have hlt : m % 10000 < 10000 := Nat.mod_lt _ (by decide)
  have hcap : 10000 < Decimal.capacity := by decide
  obtain ⟨r, hr⟩ : ∃ r, Decimal.of? (m % 10000 : Nat) 0 = some r :=
    Decimal.of?_isSome (by rw [Int.natAbs_natCast]; omega) (Nat.zero_le _)
  have hrz : r.isZero = false := by
    rw [Decimal.isZero, (Decimal.of?_eq_some.mp hr).1]
    exact beq_false_of_ne (by exact_mod_cast hd)
  rcases weight_cases weight with ⟨k, rfl⟩ | ⟨k, rfl⟩
  · exact group_exact_nonneg h hd hr hrz
  · exact group_exact_neg h hd hr hrz

/-- One group of digits is added exactly. -/
theorem addGroup_exact {m : Nat} {weight : Int} {sum : Decimal}
    (h : Decimal.Fits (shifted m weight)) (hd : m % 10000 ≠ 0)
    (hs : sum.value = shifted (m / 10000) (weight + 1)) :
    ∃ e, addGroup sum (m % 10000) weight = .ok e ∧ e.value = shifted m weight := by
  obtain ⟨p, r, part, hp, hr, hmul, hpart⟩ := group_exact h hd
  obtain ⟨d, hv⟩ := h
  rw [shifted_split, ← hs, ← hpart] at hv ⊢
  obtain ⟨e, he, hev⟩ := Decimal.add_exact hv
  exact ⟨e, by simp only [addGroup, hp, hr, hmul, he], hev⟩

/-- All groups of digits of a number that fits are added exactly. -/
theorem groups_exact {fuel m : Nat} {weight : Int} (hf : m < tenTo (4 * fuel))
    (h : Decimal.Fits (shifted m weight)) :
    ∃ e, ((groups fuel m weight).filter (·.1 ≠ 0)).reverse.foldlM
        (fun sum (digits, weight) => addGroup sum digits weight) Decimal.zero = .ok e ∧
      e.value = shifted m weight := by
  induction fuel generalizing m weight with
  | zero =>
    obtain rfl : m = 0 := by simpa [tenTo_zero] using hf
    exact ⟨.zero, rfl, by simp [shifted]⟩
  | succ fuel ih =>
    unfold groups
    split
    next hz =>
      subst hz
      exact ⟨.zero, rfl, by simp [shifted]⟩
    next =>
      have hlt : m / 10000 < tenTo (4 * fuel) := by
        rw [tenTo_four_nat] at hf
        exact Nat.div_lt_of_lt_mul (by rwa [Nat.mul_comm])
      obtain ⟨sum, hsum, hv⟩ := ih hlt (fits_leading h)
      by_cases hd : m % 10000 = 0
      · rw [List.filter_cons_of_neg (by simpa using hd), hsum]
        refine ⟨sum, rfl, ?_⟩
        rw [hv, shifted_split m weight, hd]
        simp [shifted]
      · rw [List.filter_cons_of_pos (by simpa using hd), List.reverse_cons, List.foldlM_append, hsum]
        obtain ⟨e, he, hev⟩ := addGroup_exact h hd hv
        refine ⟨e, ?_, hev⟩
        show (addGroup sum (m % 10000) weight >>= fun sum => pure sum) = _
        rw [he]
        rfl

theorem widen_value (d : Decimal) (extra : Nat) : (widen d extra).value = d.value := by
  induction extra generalizing d with
  | zero => rfl
  | succ extra ih =>
    unfold widen
    split
    next wider hw =>
      obtain ⟨hc, hs⟩ := Decimal.of?_eq_some.mp hw
      rw [ih, Decimal.value, Decimal.value, hc, hs, tenTo_succ]
      push_cast
      have hz := tenTo_cast_ne_zero d.scale
      field_simp
    next => rfl

/-- A number of the scale keeps its value there. -/
theorem atScale_value {d : Decimal} {c : Int} {scale : Nat} (h : d.value = c / tenTo scale) :
    (atScale d scale).value = d.value := by
  unfold atScale
  split
  · exact Decimal.round_of_value h
  · exact widen_value d _

theorem lt_tenTo_log2 (m : Nat) : m < tenTo (4 * (m.log2 + 1)) := by
  refine Nat.lt_of_lt_of_le Nat.lt_log2_self ?_
  refine Nat.le_trans (Nat.pow_le_pow_left (show 2 ≤ 10 by decide) _) ?_
  exact Nat.pow_le_pow_right (by decide) (by omega)

/-- A number with the value of some decimal is read as a decimal of its value. -/
theorem toDecimal_exact {n : Numeric} (h : Decimal.Fits n.value) :
    ∃ d, n.toDecimal = .ok d ∧ d.value = n.value := by
  unfold toDecimal
  split
  next hz => exact ⟨.zero, rfl, by simp [value, hz]⟩
  next hz =>
    dsimp only
    set places := (n.scale + 3) / 4 with hplaces
    set m := n.coefficient.natAbs * tenTo (4 * places - n.scale) with hm
    have hshift : shifted m (-(places : Int)) = n.coefficient.natAbs / tenTo n.scale := by
      have hsplit : tenTo (4 * places) = tenTo (4 * places - n.scale) * tenTo n.scale := by
        rw [← tenTo_add, Nat.sub_add_cancel (by omega)]
      have hpos := tenTo_cast_ne_zero (4 * places - n.scale)
      rw [shifted_of_neg, hm, hsplit, Nat.cast_mul, Nat.cast_mul, mul_comm, mul_div_mul_left _ _ hpos]
    have hsign : n.value = if n.coefficient < 0 then -shifted m (-(places : Int))
        else shifted m (-(places : Int)) := by
      rw [hshift, value]
      split
      next hneg => rw [Nat.cast_natAbs, abs_of_neg hneg, Int.cast_neg, neg_div, neg_neg]
      next hnonneg => rw [Nat.cast_natAbs, abs_of_nonneg (Int.not_lt.mp hnonneg)]
    have hfits : Decimal.Fits (shifted m (-(places : Int))) := by
      obtain ⟨d, hd⟩ := h
      rw [hsign] at hd
      split at hd
      · exact ⟨-d, by rw [Decimal.value_neg, hd, neg_neg]⟩
      · exact ⟨d, hd⟩
    obtain ⟨sum, hsum, hv⟩ := groups_exact (lt_tenTo_log2 m) hfits
    have hsigned : (if n.coefficient < 0 then -sum else sum).value = n.value := by
      rw [hsign]
      split
      · rw [Decimal.value_neg, hv]
      · exact hv
    refine ⟨atScale (if n.coefficient < 0 then -sum else sum) n.scale, ?_, ?_⟩
    · rw [hsum]
      rfl
    · rw [atScale_value hsigned, hsigned]

end Numeric
end Sql
end Settlement
