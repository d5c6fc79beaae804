import Settlement.Proofs.OperationTexts

/-!
Which texts are operation ids. Main statement: the text of an id is read as that id, and what is read are
the whole numbers of 64 bits, each with a sign, with leading zeros or without, and each with one suffix
or none.
-/

namespace Settlement
namespace Digits

def IsDigit (c : Char) : Prop := '0' ≤ c ∧ c ≤ '9'

def number (front : Nat) (digits : List Char) : Nat :=
  digits.foldl (fun n c => n * 10 + (c.toNat - 48)) front

/-- The texts of a whole number: at least one digit, and a sign in front of them or none. -/
inductive Numeral : List Char → Int → Prop
  | bare {ds : List Char} (some : ds ≠ []) (digits : ∀ c ∈ ds, IsDigit c) : Numeral ds (number 0 ds)
  | plus {ds : List Char} (some : ds ≠ []) (digits : ∀ c ∈ ds, IsDigit c) :
      Numeral ('+' :: ds) (number 0 ds)
  | minus {ds : List Char} (some : ds ≠ []) (digits : ∀ c ∈ ds, IsDigit c) :
      Numeral ('-' :: ds) (-number 0 ds)

def IsInt64 (n : Int) : Prop := minInt64 ≤ n ∧ n ≤ maxInt64

section

variable {c : Char} {cs ds : List Char} {n : Int} {acc bound d m : Nat} {excess : Fault}

theorem isDigit_iff : IsDigit c ↔ 48 ≤ c.toNat ∧ c.toNat < 58 := by
  unfold IsDigit
  rw [Char.le_def, Char.le_def, UInt32.le_iff_toNat_le, UInt32.le_iff_toNat_le]
  change 48 ≤ c.toNat ∧ c.toNat ≤ 57 ↔ _
  omega

theorem value?_eq_some : value? c = some d ↔ IsDigit c ∧ d = c.toNat - 48 := by
  unfold value? IsDigit
  split
  next h => simp [h, eq_comm]
  next h => simp [h]

theorem value?_eq_none : value? c = none ↔ ¬IsDigit c := by
  unfold value? IsDigit
  split
  next h => simp [h]
  next h => simp [h]

theorem le_number (front : Nat) (ds : List Char) : front ≤ number front ds := by
  induction ds generalizing front with
  | nil => exact Nat.le_refl front
  | cons c ds ih =>
    have h := ih (front * 10 + (c.toNat - 48))
    change front ≤ number (front * 10 + (c.toNat - 48)) ds
    omega

/-- Digits are read up to the bound. -/
theorem readMagnitude_eq_ok (h : acc ≤ bound) : readMagnitude bound excess acc cs = .ok m ↔
    (∀ c ∈ cs, IsDigit c) ∧ m = number acc cs ∧ m ≤ bound := by
  induction cs generalizing acc with
  | nil =>
    simp only [readMagnitude, number, List.foldl_nil, Except.ok.injEq]
    constructor
    · rintro rfl
      exact ⟨by simp, rfl, h⟩
    · rintro ⟨-, rfl, -⟩
      rfl
  | cons c cs ih =>
    rw [readMagnitude]
    cases hv : value? c with
    | none => simp [value?_eq_none.mp hv]
    | some d =>
      obtain ⟨hc, rfl⟩ := value?_eq_some.mp hv
      have hnumber : number acc (c :: cs) = number (acc * 10 + (c.toNat - 48)) cs := rfl
      simp only
      split
      next hle => simp [ih hle, hc, hnumber]
      next hlt =>
        -- The digits that follow make no number smaller.
        have hgrows := le_number (acc * 10 + (c.toNat - 48)) cs
        simp only [reduceCtorEq, false_iff, hnumber]
        rintro ⟨-, rfl, hm⟩
        omega

/-- Where the bound leaves room for 64 bits, a sign is put to what the digits stand for. -/
theorem map_readMagnitude {sign : Nat → Int} (hs : ∀ m, IsInt64 (sign m) ↔ m ≤ bound) :
    (readMagnitude bound excess 0 ds).map sign = .ok n ↔
      (∀ c ∈ ds, IsDigit c) ∧ n = sign (number 0 ds) ∧ IsInt64 n := by
  have hread : ∀ m, readMagnitude bound excess 0 ds = .ok m ↔ _ :=
    fun m => readMagnitude_eq_ok (Nat.zero_le bound)
  constructor
  · intro h
    cases hm : readMagnitude bound excess 0 ds with
    | error e => simp [hm, Except.map] at h
    | ok m =>
      obtain ⟨hdigits, rfl, hle⟩ := (hread m).mp hm
      rw [hm] at h
      obtain rfl := Except.ok.inj h
      exact ⟨hdigits, rfl, (hs _).mpr hle⟩
  · rintro ⟨hdigits, rfl, hbounds⟩
    rw [(hread _).mpr ⟨hdigits, rfl, (hs _).mp hbounds⟩]
    rfl

theorem isInt64_ofNat (m : Nat) : IsInt64 (Int.ofNat m) ↔ m ≤ maxInt64.toNat := by
  simp only [IsInt64, minInt64, maxInt64, Int.ofNat_eq_natCast]
  omega

theorem isInt64_neg_ofNat (m : Nat) : IsInt64 (-Int.ofNat m) ↔ m ≤ minInt64.natAbs := by
  simp only [IsInt64, minInt64, maxInt64, Int.ofNat_eq_natCast]
  omega

/-- No sign is a digit. -/
theorem not_isDigit (h : c = '+' ∨ c = '-') : ¬IsDigit c := by
  rw [isDigit_iff]
  rcases h with rfl | rfl <;> decide

theorem Numeral.plus_iff : Numeral ('+' :: ds) n ↔
    ds ≠ [] ∧ (∀ c ∈ ds, IsDigit c) ∧ n = number 0 ds := by
  constructor
  · intro h
    cases h with
    | bare _ digits => exact absurd (digits _ List.mem_cons_self) (not_isDigit (.inl rfl))
    | plus some digits => exact ⟨some, digits, rfl⟩
  · rintro ⟨some, digits, rfl⟩
    exact .plus some digits

theorem Numeral.minus_iff : Numeral ('-' :: ds) n ↔
    ds ≠ [] ∧ (∀ c ∈ ds, IsDigit c) ∧ n = -number 0 ds := by
  constructor
  · intro h
    cases h with
    | bare _ digits => exact absurd (digits _ List.mem_cons_self) (not_isDigit (.inr rfl))
    | minus some digits => exact ⟨some, digits, rfl⟩
  · rintro ⟨some, digits, rfl⟩
    exact .minus some digits

theorem Numeral.bare_iff (hplus : ∀ ds, cs ≠ '+' :: ds) (hminus : ∀ ds, cs ≠ '-' :: ds) :
    Numeral cs n ↔ cs ≠ [] ∧ (∀ c ∈ cs, IsDigit c) ∧ n = number 0 cs := by
  constructor
  · intro h
    cases h with
    | bare some digits => exact ⟨some, digits, rfl⟩
    | plus => exact absurd rfl (hplus _)
    | minus => exact absurd rfl (hminus _)
  · rintro ⟨some, digits, rfl⟩
    exact .bare some digits

/-- A text is read if it is a whole number of 64 bits. -/
theorem readInt64_eq_ok : readInt64 cs = .ok n ↔ Numeral cs n ∧ IsInt64 n := by
  unfold readInt64
  split
  next => simp [Numeral.bare_iff]
  next => simp [Numeral.plus_iff]
  next => simp [Numeral.minus_iff]
  next rest hsome =>
    rw [map_readMagnitude isInt64_ofNat, Numeral.plus_iff, and_iff_right hsome, and_assoc]
    rfl
  next rest hsome =>
    rw [map_readMagnitude isInt64_neg_ofNat, Numeral.minus_iff, and_iff_right hsome, and_assoc]
    rfl
  next hsome _ _ hplus hminus =>
    rw [map_readMagnitude isInt64_ofNat, Numeral.bare_iff hplus hminus, and_iff_right hsome,
      and_assoc]
    rfl

theorem prepend_ne_nil (n : Nat) (rest : List Char) : prepend n rest ≠ [] := by
  induction n, rest using prepend.induct with
  | case1 n rest h =>
    rw [prepend, if_pos h]
    simp
  | case2 n rest h ih =>
    rw [prepend, if_neg h]
    exact ih

theorem number_chars (n : Nat) : number 0 (chars n) = n := foldl_prepend n []

/-- What is written for an integer is a text of it. -/
theorem numeral_signedChars (n : Int) : Numeral (signedChars n) n := by
  have hdigits : ∀ c ∈ chars n.natAbs, IsDigit c := fun c hc => isDigit_iff.mpr (chars_digits _ c hc)
  unfold signedChars
  split
  next hneg =>
    rw [Numeral.minus_iff, number_chars]
    exact ⟨prepend_ne_nil _ _, hdigits, by omega⟩
  next hpos =>
    have h := Numeral.bare (prepend_ne_nil n.natAbs []) hdigits
    change Numeral (chars n.natAbs) (number 0 (chars n.natAbs)) at h
    rwa [number_chars, Int.natAbs_of_nonneg (Int.not_lt.mp hpos)] at h

/-- A colon is no part of a whole number. -/
theorem Numeral.colon_notMem (h : Numeral cs n) : ':' ∉ cs := by
  have hcolon : ¬IsDigit ':' := by
    rw [isDigit_iff]
    decide
  intro hmem
  cases h with
  | bare _ digits => exact hcolon (digits _ hmem)
  | plus _ digits | minus _ digits =>
    rcases List.mem_cons.mp hmem with heq | hmem
    · exact absurd heq (by decide)
    · exact hcolon (digits _ hmem)

end
end Digits

namespace OperationId

open Digits (Numeral IsInt64)

/-- The texts of an operation id: those of a whole number of 64 bits, with the suffix for a refund. -/
inductive Written : List Char → OperationId → Prop
  | forward {cs : List Char} {n : Int} (numeral : Numeral cs n) (bounds : IsInt64 n) :
      Written cs (OperationId.forward n)
  | compensation {cs : List Char} {n : Int} (numeral : Numeral cs n) (bounds : IsInt64 n) :
      Written (cs ++ suffix) (OperationId.compensation n)

theorem stripSuffix_append (cs : List Char) : stripSuffix (cs ++ suffix) = some cs := by
  simp [stripSuffix]

theorem stripSuffix_eq_some {cs front : List Char} :
    stripSuffix cs = some front ↔ cs = front ++ suffix := by
  constructor
  · intro h
    unfold stripSuffix at h
    split at h
    next hs =>
      obtain ⟨front', rfl⟩ := hs
      simpa using h
    next => contradiction
  · rintro rfl
    exact stripSuffix_append front

theorem stripSuffix_of_numeral {cs : List Char} {n : Int} (h : Numeral cs n) :
    stripSuffix cs = none := by
  rw [Option.eq_none_iff_forall_ne_some]
  intro front hf
  apply h.colon_notMem
  rw [stripSuffix_eq_some.mp hf]
  exact List.mem_append_right _ colon_mem_suffix

/-- The texts of an operation id are all that is read as it. -/
theorem read_eq_ok {cs : List Char} {x : OperationId} : read cs = .ok x ↔ Written cs x := by
  have hmap : ∀ {f : Int → OperationId} {cs : List Char}, (Digits.readInt64 cs).map f = .ok x ↔
      ∃ n, (Numeral cs n ∧ IsInt64 n) ∧ f n = x := by
    intro f cs
    simp only [← Digits.readInt64_eq_ok]
    cases Digits.readInt64 cs <;> simp [Except.map]
  constructor
  · intro h
    unfold read at h
    split at h
    next front hs =>
      obtain ⟨n, ⟨hn, hb⟩, rfl⟩ := hmap.mp h
      rw [stripSuffix_eq_some.mp hs]
      exact .compensation hn hb
    next =>
      obtain ⟨n, ⟨hn, hb⟩, rfl⟩ := hmap.mp h
      exact .forward hn hb
  · intro h
    unfold read
    cases h with
    | forward hn hb =>
      rw [stripSuffix_of_numeral hn]
      exact hmap.mpr ⟨_, ⟨hn, hb⟩, rfl⟩
    | compensation hn hb =>
      rw [stripSuffix_append]
      exact hmap.mpr ⟨_, ⟨hn, hb⟩, rfl⟩

theorem written_text {x : OperationId} (hx : IsInt64 x.transaction) : Written x.text.toList x := by
  have hn := Digits.numeral_signedChars x.transaction
  obtain ⟨n, phase⟩ := x
  rw [text, String.toList_ofList]
  cases phase with
  | forward => exact .forward hn hx
  | compensation => exact .compensation hn hx

/-- The text of an id of 64 bits is read as that id, and no other id has it. A text is read exactly if it
is an optional sign with at least one digit, of a value of 64 bits, and one suffix or none: as that value
and the phase that the suffix tells. -/
theorem text_faithful {x : OperationId} (hx : IsInt64 x.transaction) :
    read x.text.toList = .ok x ∧ (∀ y : OperationId, y.text = x.text → y = x) ∧
    ∀ (s : String) (y : OperationId), read s.toList = .ok y ↔ Written s.toList y := by
  refine ⟨read_eq_ok.mpr (written_text hx), ?_, ?_⟩
  · intro y hy
    exact text_inj.mp hy
  · intro s y
    exact read_eq_ok

/-- The refund of the transaction with the least number of 64 bits. -/
theorem text_faithful_leastRefund : IsInt64 minInt64 ∧
    (compensation minInt64).text = "-9223372036854775808:compensation" ∧
    read (compensation minInt64).text.toList = .ok (compensation minInt64) ∧
    ∀ y : OperationId, y.text = (compensation minInt64).text → y = compensation minInt64 := by
  have hx : IsInt64 minInt64 := by
    unfold IsInt64
    decide
  obtain ⟨hread, honly, -⟩ := text_faithful (x := compensation minInt64) hx
  exact ⟨hx, by decide +kernel, hread, honly⟩

end OperationId
end Settlement
