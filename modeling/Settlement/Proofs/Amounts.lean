import Mathlib.Order.Bounds.Basic
import Settlement.Proofs.Values

/-!
Amounts of callers. Main statement: whether an amount is accepted depends on its value only. A positive
number of whole cents is accepted as it is and keeps its value at the rate one; of any other positive
number it is told how many places its value needs.
-/

namespace Settlement
namespace Decimal

/-- The value can be written with so many places. -/
def HasPlaces (x : ℚ) (places : ℕ) : Prop := ∃ c : ℤ, x = c / tenTo places

/-- No zero is left at the end of a fraction. -/
theorem stripped_last (c : Int) (scale : Nat) :
    (stripped c scale).2 = 0 ∨ (stripped c scale).1 % 10 ≠ 0 := by
  induction scale generalizing c with
  | zero => simp [stripped]
  | succ scale ih =>
    unfold stripped
    split
    · exact ih (c / 10)
    next hc => exact .inr hc

theorem normalize_value (d : Decimal) : d.normalize.value = d.value := by
  have hle : d.normalize.scale ≤ d.scale := (stripped_bounded d.coefficient d.scale).2
  have hc : d.coefficient = d.normalize.coefficient * tenTo (d.scale - d.normalize.scale) :=
    stripped_mul d.coefficient d.scale
  refine value_eq_iff.mpr ?_
  calc d.normalize.coefficient * (tenTo d.scale : ℤ)
      = d.normalize.coefficient * tenTo (d.scale - d.normalize.scale) * tenTo d.normalize.scale := by
        rw [mul_assoc, ← Nat.cast_mul, ← tenTo_add, Nat.sub_add_cancel hle]
    _ = d.coefficient * tenTo d.normalize.scale := by rw [← hc]

theorem hasPlaces_normalize (d : Decimal) : HasPlaces d.value d.normalize.scale :=
  ⟨d.normalize.coefficient, d.normalize_value.symm⟩

theorem HasPlaces.mono {x : ℚ} {p q : ℕ} (h : HasPlaces x p) (hpq : p ≤ q) : HasPlaces x q := by
  obtain ⟨c, rfl⟩ := h
  refine ⟨c * tenTo (q - p), ?_⟩
  rw [div_eq_div_iff (tenTo_cast_ne_zero p) (tenTo_cast_ne_zero q)]
  have hq : tenTo q = tenTo (q - p) * tenTo p := by rw [← tenTo_add, Nat.sub_add_cancel hpq]
  rw [hq]
  push_cast
  ring

/-- A normalized number has as many places as its value needs. -/
theorem normalize_scale_le {d : Decimal} {places : ℕ} (h : HasPlaces d.value places) :
    d.normalize.scale ≤ places := by
  obtain ⟨c, hc⟩ := h
  by_contra hlt
  rw [Nat.not_le] at hlt
  -- With fewer places, the last digit of the normalized coefficient would be a zero.
  have hscaled : d.normalize.coefficient * (tenTo places : ℤ) = c * tenTo d.normalize.scale :=
    value_eq_iff.mp (d.normalize_value.trans hc)
  obtain ⟨more, hmore⟩ : ∃ more, d.normalize.scale = places + (more + 1) :=
    ⟨d.normalize.scale - places - 1, by omega⟩
  have hpos : (tenTo places : ℤ) ≠ 0 := by exact_mod_cast (tenTo_pos places).ne'
  have hten : d.normalize.coefficient = c * tenTo more * 10 := by
    apply mul_right_cancel₀ hpos
    rw [hscaled, hmore, tenTo_add, tenTo_succ]
    push_cast
    ring
  rcases stripped_last d.coefficient d.scale with hzero | hlast
  · change d.normalize.scale = 0 at hzero
    omega
  · apply hlast
    change d.normalize.coefficient % 10 = 0
    rw [hten]
    omega

theorem normalize_scale_isLeast (d : Decimal) :
    IsLeast {places | HasPlaces d.value places} d.normalize.scale :=
  ⟨d.hasPlaces_normalize, fun _ h => normalize_scale_le h⟩

theorem normalize_scale_congr {d e : Decimal} (h : e.value = d.value) :
    e.normalize.scale = d.normalize.scale :=
  (h ▸ e.normalize_scale_isLeast).unique d.normalize_scale_isLeast

end Decimal

namespace Money

variable {amount accepted other : Decimal}

theorem cents_iff_places : amount.Cents ↔ amount.normalize.scale ≤ places := by
  have hcents : amount.Cents ↔ Decimal.HasPlaces amount.value places := by
    norm_num [Decimal.Cents, Decimal.HasPlaces, places, tenTo]
  rw [hcents]
  exact ⟨Decimal.normalize_scale_le, amount.hasPlaces_normalize.mono⟩

theorem validate_eq_ok : validate amount = .ok accepted ↔
    accepted = amount ∧ 0 < amount.value ∧ amount.Cents := by
  rw [cents_iff_places]
  unfold validate
  split
  next hle =>
    rw [Decimal.le_iff_value, Decimal.value_zero] at hle
    simp [Rat.not_lt.mpr hle]
  next hpos =>
    rw [Decimal.le_iff_value, Decimal.value_zero, Rat.not_le] at hpos
    split
    next hplaces => simp [Nat.not_le.mpr hplaces]
    next hplaces => simp [hpos, Nat.not_lt.mp hplaces, eq_comm]

theorem validate_eq_notPositive : validate amount = .error .notPositive ↔ amount.value ≤ 0 := by
  rw [← Decimal.value_zero, ← Decimal.le_iff_value]
  unfold validate
  split
  next hle => simp [hle]
  next hpos => split <;> simp [hpos]

theorem validate_tooPrecise (hpos : 0 < amount.value) (hc : ¬amount.Cents) :
    validate amount = .error (.tooPrecise amount.normalize.scale places) := by
  rw [← Decimal.value_zero, ← Decimal.lt_iff_value, ← Decimal.not_le] at hpos
  rw [cents_iff_places, Nat.not_le] at hc
  simp [validate, hpos, hc]

/-- Numbers of one value are accepted with that value, or refused for the same reason. -/
theorem validate_congr (h : other.value = amount.value) :
    (validate other).map Decimal.value = (validate amount).map Decimal.value := by
  unfold validate
  simp only [Decimal.le_iff_value, h, Decimal.normalize_scale_congr h]
  split
  · rfl
  · split
    · rfl
    · exact congrArg Except.ok h

/-- An accepted amount can be converted at the rate one. -/
theorem exists_convert_one (h : validate amount = .ok accepted) :
    ∃ target, convert accepted .one = some target ∧ target.value = accepted.value := by
  obtain ⟨rfl, hpos, -⟩ := validate_eq_ok.mp h
  have hz : accepted.isZero = false := by
    by_contra hz
    rw [Decimal.value_of_isZero (by simpa using hz)] at hpos
    exact absurd hpos (lt_irrefl 0)
  obtain ⟨target, htarget⟩ : ∃ target, convert accepted .one = some target :=
    ⟨_, by rw [convert, Decimal.mul_one_eq hz]; rfl⟩
  exact ⟨target, htarget, convert_one h htarget⟩

/-- An amount is accepted exactly if it is positive and a whole number of cents, and is then answered
unchanged. A positive one with parts of a cent is refused with the least number of places that its value
can be written with. Another number of the same value fares the same, and an accepted amount keeps its
value at the rate one. -/
theorem validate_by_value (h : other.value = amount.value) :
    (∀ accepted, validate amount = .ok accepted ↔
      accepted = amount ∧ 0 < amount.value ∧ ∃ n : ℤ, amount.value = n / 100) ∧
    (validate amount = .error .notPositive ↔ amount.value ≤ 0) ∧
    (0 < amount.value → (¬∃ n : ℤ, amount.value = n / 100) → ∃ provided,
      validate amount = .error (.tooPrecise provided 2) ∧
      IsLeast {places | ∃ c : ℤ, amount.value = c / tenTo places} provided) ∧
    (validate other).map Decimal.value = (validate amount).map Decimal.value ∧
    ∀ accepted, validate amount = .ok accepted →
      ∃ target, convert accepted .one = some target ∧ target.value = accepted.value := by
  refine ⟨fun _ => validate_eq_ok, validate_eq_notPositive, ?_, validate_congr h, ?_⟩
  · intro hpos hc
    exact ⟨_, validate_tooPrecise hpos hc, amount.normalize_scale_isLeast⟩
  · intro accepted hv
    exact exists_convert_one hv

def oneAndHalf : Decimal := ⟨15, 1, by decide⟩

def longOneAndHalf : Decimal := ⟨15000000000000000000000000000, 28, by decide⟩

theorem validate_by_value_longOneAndHalf : oneAndHalf.value = longOneAndHalf.value ∧
    validate longOneAndHalf = .ok longOneAndHalf ∧
    (validate oneAndHalf).map Decimal.value = .ok longOneAndHalf.value ∧
    ∃ target, convert longOneAndHalf .one = some target ∧ target.value = longOneAndHalf.value := by
  have hsame : oneAndHalf.value = longOneAndHalf.value := by
    norm_num [oneAndHalf, longOneAndHalf, Decimal.value, tenTo]
  have hv : validate longOneAndHalf = .ok longOneAndHalf := by decide +kernel
  obtain ⟨-, -, -, hverdict, hconvert⟩ := validate_by_value hsame
  refine ⟨hsame, hv, ?_, hconvert _ hv⟩
  rw [hverdict, hv]
  rfl

end Money
end Settlement
