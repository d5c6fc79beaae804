import Settlement.Ledger.Operation

/-!
Different operation ids have different texts: the digits of a number determine it, and neither a sign
nor the suffix is a digit.
-/

namespace Settlement
namespace Digits

theorem toNat_ofNat {n : Nat} (h : n < 10) : (ofNat n).toNat = 48 + n := by
  have hall : ∀ n < 10, (ofNat n).toNat = 48 + n := by decide
  exact hall n h

/-- The digits in front of a text count on from zero to the number. -/
theorem foldl_prepend (n : Nat) (rest : List Char) :
    (prepend n rest).foldl (fun n c => n * 10 + (c.toNat - 48)) 0 =
      rest.foldl (fun n c => n * 10 + (c.toNat - 48)) n := by
  induction n, rest using prepend.induct with
  | case1 n rest h =>
    rw [prepend, if_pos h, List.foldl_cons, toNat_ofNat h]
    congr 1
    omega
  | case2 n rest h ih =>
    rw [prepend, if_neg h, ih, List.foldl_cons, toNat_ofNat (Nat.mod_lt n (by decide))]
    congr 1
    omega

theorem chars_injective {m n : Nat} (h : chars m = chars n) : m = n := by
  have hm := foldl_prepend m []
  have hn := foldl_prepend n []
  rw [show prepend m [] = prepend n [] from h, hn] at hm
  exact hm.symm

theorem prepend_digits {n : Nat} {rest : List Char} (hr : ∀ c ∈ rest, 48 ≤ c.toNat ∧ c.toNat < 58) :
    ∀ c ∈ prepend n rest, 48 ≤ c.toNat ∧ c.toNat < 58 := by
  induction n, rest using prepend.induct with
  | case1 n rest h =>
    rw [prepend, if_pos h]
    intro c hc
    rcases List.mem_cons.mp hc with rfl | hc
    · rw [toNat_ofNat h]
      omega
    · exact hr c hc
  | case2 n rest h ih =>
    rw [prepend, if_neg h]
    refine ih fun c hc => ?_
    rcases List.mem_cons.mp hc with rfl | hc
    · rw [toNat_ofNat (Nat.mod_lt n (by decide))]
      omega
    · exact hr c hc

theorem chars_digits (n : Nat) : ∀ c ∈ chars n, 48 ≤ c.toNat ∧ c.toNat < 58 :=
  prepend_digits (by simp)

/-- A minus sign is no digit. -/
theorem chars_ne_minus {n : Nat} {cs : List Char} : chars n ≠ '-' :: cs := by
  intro h
  have hd := chars_digits n '-' (by rw [h]; exact List.mem_cons_self)
  revert hd
  decide

theorem signedChars_injective {m n : Int} (h : signedChars m = signedChars n) : m = n := by
  unfold signedChars at h
  by_cases hm : m < 0
  · by_cases hn : n < 0
    · rw [if_pos hm, if_pos hn] at h
      have := chars_injective (List.cons.inj h).2
      omega
    · rw [if_pos hm, if_neg hn] at h
      exact absurd h.symm chars_ne_minus
  · by_cases hn : n < 0
    · rw [if_neg hm, if_pos hn] at h
      exact absurd h chars_ne_minus
    · rw [if_neg hm, if_neg hn] at h
      have := chars_injective h
      omega

/-- A colon is neither a digit nor a sign. -/
theorem colon_notMem (n : Int) : ':' ∉ signedChars n := by
  intro h
  have hd : ':' ∉ chars n.natAbs := by
    intro hc
    have hd := chars_digits _ _ hc
    revert hd
    decide
  unfold signedChars at h
  split at h
  · rcases List.mem_cons.mp h with hc | hc
    · exact absurd hc (by decide)
    · exact hd hc
  · exact hd h

end Digits

namespace OperationId

theorem colon_mem_suffix : ':' ∈ suffix := by decide

theorem chars_injective {x y : OperationId} (h : x.chars = y.chars) : x = y := by
  obtain ⟨m, p⟩ := x
  obtain ⟨n, q⟩ := y
  have hcolon : ∀ {m n : Int}, Digits.signedChars m ≠ Digits.signedChars n ++ suffix := by
    intro m n he
    refine Digits.colon_notMem m ?_
    rw [he]
    exact List.mem_append_right _ colon_mem_suffix
  cases p <;> cases q
  case forward.forward =>
    have hmn : m = n := Digits.signedChars_injective h
    rw [hmn]
  case compensation.compensation =>
    have hmn : m = n := Digits.signedChars_injective (List.append_cancel_right h)
    rw [hmn]
  case forward.compensation => exact absurd h hcolon
  case compensation.forward => exact absurd h.symm hcolon

theorem text_inj {x y : OperationId} : x.text = y.text ↔ x = y :=
  ⟨fun h => chars_injective (String.ofList_injective h), fun h => by rw [h]⟩

end OperationId
end Settlement
