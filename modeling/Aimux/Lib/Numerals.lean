import Aimux.Lib.JsonText

/-! # Decimal numerals

The numerals without a leading zero are the texts of the natural numbers, and of two numerals of one length
the greater is greater at the first place where they differ.
-/

namespace Aimux.Lib

open Rfc8259

def value (digits : List Char) : Nat := Nat.ofDigitChars 10 digits 0

theorem value_cons (c : Char) (cs : List Char) :
    value (c :: cs) = (c.toNat - 48) * 10 ^ cs.length + value cs := by
  rw [value, Nat.ofDigitChars_cons, Nat.ofDigitChars_eq_ofDigitChars_zero, Nat.mul_zero, Nat.zero_add, Nat.mul_comm]
  rfl

theorem value_append (a b : List Char) : value (a ++ b) = value a * 10 ^ b.length + value b := by
  rw [value, Nat.ofDigitChars_append, Nat.ofDigitChars_eq_ofDigitChars_zero, Nat.mul_comm]
  rfl

variable {c : Char}

theorem digit_bounds (h : c.isDigit = true) : 48 ≤ c.toNat ∧ c.toNat ≤ 57 := by
  simp only [Char.isDigit, Bool.and_eq_true, decide_eq_true_eq, UInt32.le_iff_toNat_le] at h
  exact h

theorem digitChar_of_digit (h : c.isDigit = true) : Nat.digitChar (c.toNat - 48) = c := by
  have hBounds := digit_bounds h
  refine Char.toNat_inj.mp ?_
  rw [Nat.toNat_digitChar_of_lt_ten (by omega)]
  omega

theorem digit_ne_zero (h : c.isDigit = true) (hZero : c ≠ '0') : 49 ≤ c.toNat := by
  have hBounds := digit_bounds h
  have hCode : c.toNat ≠ 48 := fun hEq => hZero (Char.toNat_inj.mp hEq)
  omega

/-! ## Bounds -/

variable {digits : List Char}

theorem value_lt (h : Digits digits) : value digits < 10 ^ digits.length := by
  induction digits with
  | nil => exact Nat.one_pos
  | cons c cs ih =>
    have hRest := ih fun d hD => h d (List.mem_cons_of_mem _ hD)
    have hBounds := digit_bounds (h c List.mem_cons_self)
    have hFirst : (c.toNat - 48) * 10 ^ cs.length ≤ 9 * 10 ^ cs.length := Nat.mul_le_mul_right _ (by omega)
    rw [value_cons, List.length_cons, Nat.pow_succ]
    omega

theorem le_value_of_integer {cs : List Char} (hFirst : c.isDigit = true) (hZero : c ≠ '0') :
    10 ^ cs.length ≤ value (c :: cs) := by
  have hCode := digit_ne_zero hFirst hZero
  have hLe : 1 * 10 ^ cs.length ≤ (c.toNat - 48) * 10 ^ cs.length := Nat.mul_le_mul_right _ (by omega)
  rw [value_cons]
  omega

/-- Two numerals that agree up to a place and differ there. -/
inductive Below : List Char → List Char → Prop
  | mk (same : List Char) {c d : Char} {cs ds : List Char} (hDigit : c.toNat < d.toNat) :
    Below (same ++ c :: cs) (same ++ d :: ds)

variable {a b : List Char}

theorem Below.lt (h : Below a b) (hA : Digits a) (hB : Digits b) (hLength : a.length = b.length) :
    value a < value b := by
  obtain ⟨same, hDigit⟩ := h
  rename_i c d cs ds
  have hRest : cs.length = ds.length := by simpa using hLength
  have hC := digit_bounds (hA c (by simp))
  have hTail := value_lt (fun e hE => hA e (by simp [hE]) : Digits cs)
  have hStep : (c.toNat - 48 + 1) * 10 ^ cs.length ≤ (d.toNat - 48) * 10 ^ cs.length :=
    Nat.mul_le_mul_right _ (by omega)
  rw [value_append, value_append, value_cons, value_cons, List.length_cons, List.length_cons, ← hRest]
  rw [Nat.succ_mul] at hStep
  omega

theorem below_of_lt (hA : Digits a) (hB : Digits b) (hLength : a.length = b.length) (hLt : value a < value b) :
    Below a b := by
  induction a generalizing b with
  | nil =>
    rw [List.length_eq_zero_iff.mp hLength.symm] at hLt
    exact absurd hLt (lt_irrefl _)
  | cons c cs ih =>
    cases b with
    | nil => cases hLength
    | cons d ds =>
      have hRest : cs.length = ds.length := by simpa using hLength
      have hTailA : Digits cs := fun e hE => hA e (List.mem_cons_of_mem _ hE)
      have hTailB : Digits ds := fun e hE => hB e (List.mem_cons_of_mem _ hE)
      rcases Nat.lt_trichotomy c.toNat d.toNat with hLess | hSame | hMore
      · exact .mk [] hLess
      · obtain rfl := Char.toNat_inj.mp hSame
        rw [value_cons, value_cons, hRest] at hLt
        obtain ⟨same, hDigit⟩ := ih hTailA hTailB hRest (by omega)
        exact .mk (c :: same) hDigit
      · exact absurd hLt (Nat.lt_asymm (Below.lt (.mk [] hMore) hB hA hLength.symm))

theorem value_inj (hA : Digits a) (hB : Digits b) (hLength : a.length = b.length) (hSame : value a = value b) :
    a = b := by
  induction a generalizing b with
  | nil => exact (List.length_eq_zero_iff.mp hLength.symm).symm
  | cons c cs ih =>
    cases b with
    | nil => cases hLength
    | cons d ds =>
      rcases Nat.lt_trichotomy c.toNat d.toNat with hLess | hCode | hMore
      · exact absurd hSame (Nat.ne_of_lt (Below.lt (.mk [] hLess) hA hB hLength))
      · obtain rfl := Char.toNat_inj.mp hCode
        have hRest : cs.length = ds.length := by simpa using hLength
        rw [value_cons, value_cons, hRest] at hSame
        rw [ih (fun e hE => hA e (List.mem_cons_of_mem _ hE)) (fun e hE => hB e (List.mem_cons_of_mem _ hE)) hRest
          (by omega)]
      · exact absurd hSame.symm (Nat.ne_of_lt (Below.lt (.mk [] hMore) hB hA hLength.symm))

/-! ## Texts of numbers -/

theorem value_toDigits (n : Nat) : value (Nat.toDigits 10 n) = n := Nat.ofDigitChars_ten_toDigits

theorem digits_toDigits (n : Nat) : Digits (Nat.toDigits 10 n) :=
  fun _ hC => Nat.isDigit_of_mem_toDigits (by decide) (by decide) hC

theorem toDigits_append {n : Nat} (hPositive : 0 < n) (h : Digits digits) :
    Nat.toDigits 10 n ++ digits = Nat.toDigits 10 (n * 10 ^ digits.length + value digits) := by
  induction digits generalizing n with
  | nil =>
    rw [List.append_nil, List.length_nil, Nat.pow_zero, Nat.mul_one]
    rfl
  | cons c cs ih =>
    have hBounds := digit_bounds (h c List.mem_cons_self)
    have hDigit : c.toNat - 48 < 10 := by omega
    have hNext := Nat.toDigits_append_toDigits (by decide : 1 < 10) hPositive hDigit
    rw [Nat.toDigits_of_lt_base hDigit, digitChar_of_digit (h c List.mem_cons_self)] at hNext
    have hValue : (10 * n + (c.toNat - 48)) * 10 ^ cs.length + value cs =
        n * 10 ^ (c :: cs).length + value (c :: cs) := by
      rw [value_cons, List.length_cons]
      ring
    rw [← hValue, ← ih (by omega) fun d hD => h d (List.mem_cons_of_mem _ hD), ← hNext, List.append_assoc]
    rfl

/-- A numeral without leading zeros is the text of its value. -/
theorem toDigits_value (h : Integer digits) : Nat.toDigits 10 (value digits) = digits := by
  cases h with
  | zero => rfl
  | digits hFirst hZero hDigits =>
    rename_i c cs
    have hCode := digit_ne_zero hFirst hZero
    have hBounds := digit_bounds hFirst
    have hHead := toDigits_append (by omega : 0 < c.toNat - 48) hDigits
    rw [Nat.toDigits_of_lt_base (by omega), digitChar_of_digit hFirst] at hHead
    rw [value_cons, ← hHead]
    rfl

theorem isDigit_digitChar {n : Nat} (h : n < 10) : (Nat.digitChar n).isDigit = true :=
  digits_toDigits n _ (by rw [Nat.toDigits_of_lt_base h]; exact List.mem_singleton_self _)

theorem digitChar_ne_zero {n : Nat} (h : n < 10) (hPositive : 0 < n) : Nat.digitChar n ≠ '0' := by
  intro hZero
  have hCode := Nat.toNat_digitChar_of_lt_ten h
  rw [hZero] at hCode
  have hFortyEight : '0'.toNat = 48 := rfl
  omega

theorem integer_toDigits (n : Nat) : Integer (Nat.toDigits 10 n) := by
  induction n using Nat.strongRecOn with
  | ind n ih =>
    by_cases hShort : n < 10
    · rw [Nat.toDigits_of_lt_base hShort]
      cases n with
      | zero => exact .zero
      | succ n =>
        exact .digits (isDigit_digitChar hShort) (digitChar_ne_zero hShort n.succ_pos) fun _ hD => nomatch hD
    · rw [Nat.toDigits_of_base_le (by decide) (Nat.le_of_not_lt hShort)]
      have hLast : (Nat.digitChar (n % 10)).isDigit = true := isDigit_digitChar (Nat.mod_lt n (by decide))
      have hValue := value_toDigits (n / 10)
      have hFront := ih (n / 10) (Nat.div_lt_self (by omega) (by decide))
      generalize Nat.toDigits 10 (n / 10) = front at hValue hFront ⊢
      cases hFront with
      | zero =>
        have hZero : value ['0'] = 0 := rfl
        omega
      | digits hFirst hZero hDigits =>
        refine .digits hFirst hZero fun d hD => ?_
        rcases List.mem_append.mp hD with hIn | hIn
        · exact hDigits d hIn
        · rw [List.mem_singleton.mp hIn]
          exact hLast

theorem digits_of_integer (h : Integer digits) : Digits digits := by
  rw [← toDigits_value h]
  exact digits_toDigits _

theorem first_of_integer {cs : List Char} (h : Integer (c :: cs)) (hLong : cs ≠ []) :
    c.isDigit = true ∧ c ≠ '0' ∧ Digits cs := by
  cases h with
  | zero => exact absurd rfl hLong
  | digits hFirst hZero hDigits => exact ⟨hFirst, hZero, hDigits⟩

/-- Among the numerals without leading zeros, those of a number are its text. -/
theorem integer_iff : Integer digits ↔ digits = Nat.toDigits 10 (value digits) := by
  constructor
  · exact fun h => (toDigits_value h).symm
  · intro h
    rw [h]
    exact integer_toDigits _

end Aimux.Lib
