import Mathlib

/-! # Base64

Bytes as digits of six bits each, and digits as letters with padding after them.
-/

namespace Aimux.Lib.Base64

/-! ## Digits and bytes -/

def firstByte (a b : Fin 64) : UInt8 := .ofNat (a.val * 4 + b.val / 16)

def secondByte (b c : Fin 64) : UInt8 := .ofNat (b.val % 16 * 16 + c.val / 4)

def thirdByte (c d : Fin 64) : UInt8 := .ofNat (c.val % 4 * 64 + d.val)

/-- The bytes of digits; bits that fill no byte are dropped. -/
def pack : List (Fin 64) → List UInt8
  | a :: b :: c :: d :: rest => firstByte a b :: secondByte b c :: thirdByte c d :: pack rest
  | [a, b, c] => [firstByte a b, secondByte b c]
  | [a, b] => [firstByte a b]
  | [_] | [] => []

instance instNeZeroSixtyFour : NeZero 64 := ⟨by decide⟩

def digitOfNat (n : Nat) : Fin 64 := Fin.ofNat 64 n

/-- The digits of bytes; the last one is filled with zeros. -/
def unpack : List UInt8 → List (Fin 64)
  | x :: y :: z :: rest =>
    digitOfNat (x.toNat / 4) :: digitOfNat (x.toNat % 4 * 16 + y.toNat / 16) ::
      digitOfNat (y.toNat % 16 * 4 + z.toNat / 64) :: digitOfNat (z.toNat % 64) :: unpack rest
  | [x, y] =>
    [digitOfNat (x.toNat / 4), digitOfNat (x.toNat % 4 * 16 + y.toNat / 16), digitOfNat (y.toNat % 16 * 4)]
  | [x] => [digitOfNat (x.toNat / 4), digitOfNat (x.toNat % 4 * 16)]
  | [] => []

/-- The digits without the bits that fill no byte. -/
def clear : List (Fin 64) → List (Fin 64)
  | a :: b :: c :: d :: rest => a :: b :: c :: d :: clear rest
  | [a, b, c] => [a, b, digitOfNat (c.val / 4 * 4)]
  | [a, b] => [a, digitOfNat (b.val / 16 * 16)]
  | [a] => [a]
  | [] => []

theorem toNat_firstByte (a b : Fin 64) : (firstByte a b).toNat = a.val * 4 + b.val / 16 := by
  rw [firstByte, UInt8.toNat_ofNat', Nat.mod_eq_of_lt (by omega)]

theorem toNat_secondByte (b c : Fin 64) : (secondByte b c).toNat = b.val % 16 * 16 + c.val / 4 := by
  rw [secondByte, UInt8.toNat_ofNat', Nat.mod_eq_of_lt (by omega)]

theorem toNat_thirdByte (c d : Fin 64) : (thirdByte c d).toNat = c.val % 4 * 64 + d.val := by
  rw [thirdByte, UInt8.toNat_ofNat', Nat.mod_eq_of_lt (by omega)]

theorem val_digitOfNat (n : Nat) : (digitOfNat n).val = n % 64 := Fin.val_ofNat ..

/-! One byte, from the digits that it is in. -/

theorem firstByte_digits (x : UInt8) (n : Nat) (h : n < 16) :
    firstByte (digitOfNat (x.toNat / 4)) (digitOfNat (x.toNat % 4 * 16 + n)) = x := by
  have hx := x.toNat_lt
  rw [← UInt8.toNat_inj, toNat_firstByte, val_digitOfNat, val_digitOfNat]
  omega

theorem secondByte_digits (x y : UInt8) (n : Nat) (h : n < 4) :
    secondByte (digitOfNat (x.toNat % 4 * 16 + y.toNat / 16)) (digitOfNat (y.toNat % 16 * 4 + n)) = y := by
  have hy := y.toNat_lt
  rw [← UInt8.toNat_inj, toNat_secondByte, val_digitOfNat, val_digitOfNat]
  omega

theorem thirdByte_digits (y z : UInt8) :
    thirdByte (digitOfNat (y.toNat % 16 * 4 + z.toNat / 64)) (digitOfNat (z.toNat % 64)) = z := by
  have hz := z.toNat_lt
  rw [← UInt8.toNat_inj, toNat_thirdByte, val_digitOfNat, val_digitOfNat]
  omega

theorem pack_unpack (bytes : List UInt8) : pack (unpack bytes) = bytes := by
  induction bytes using unpack.induct with
  | case1 x y z rest ih =>
    have hy := y.toNat_lt
    have hz := z.toNat_lt
    rw [unpack, pack, ih, firstByte_digits x _ (by omega), secondByte_digits x y _ (by omega), thirdByte_digits]
  | case2 x y =>
    have hy := y.toNat_lt
    rw [unpack, pack, firstByte_digits x _ (by omega)]
    exact congrArg ([x, ·]) (secondByte_digits x y 0 (by decide))
  | case3 x =>
    rw [unpack, pack]
    exact congrArg ([·]) (firstByte_digits x 0 (by decide))
  | case4 => rfl

theorem unpack_pack (digits : List (Fin 64)) (h : digits.length % 4 ≠ 1) : unpack (pack digits) = clear digits := by
  have hFirst (a b : Fin 64) : digitOfNat ((firstByte a b).toNat / 4) = a :=
    Fin.ext (by rw [val_digitOfNat, toNat_firstByte]; omega)
  have hSecond (a b c : Fin 64) : digitOfNat ((firstByte a b).toNat % 4 * 16 + (secondByte b c).toNat / 16) = b :=
    Fin.ext (by rw [val_digitOfNat, toNat_firstByte, toNat_secondByte]; omega)
  have hThird (b c d : Fin 64) : digitOfNat ((secondByte b c).toNat % 16 * 4 + (thirdByte c d).toNat / 64) = c :=
    Fin.ext (by rw [val_digitOfNat, toNat_secondByte, toNat_thirdByte]; omega)
  have hFourth (c d : Fin 64) : digitOfNat ((thirdByte c d).toNat % 64) = d :=
    Fin.ext (by rw [val_digitOfNat, toNat_thirdByte]; omega)
  induction digits using pack.induct with
  | case1 a b c d rest ih =>
    have hRest : rest.length % 4 ≠ 1 := by
      simp only [List.length_cons] at h
      omega
    rw [pack, unpack, clear, ih hRest, hFirst, hSecond, hThird, hFourth]
  | case2 a b c =>
    have hLast : (secondByte b c).toNat % 16 * 4 = c.val / 4 * 4 := by
      rw [toNat_secondByte]
      omega
    rw [pack, unpack, clear, hFirst, hSecond, hLast]
  | case3 a b =>
    have hLast : (firstByte a b).toNat % 4 * 16 = b.val / 16 * 16 := by
      rw [toNat_firstByte]
      omega
    rw [pack, unpack, clear, hFirst, hLast]
  | case4 a => exact absurd rfl h
  | case5 => rfl

/-- Two spellings are of the same bytes when they differ in bits only that fill no byte. -/
theorem pack_eq_iff {xs ys : List (Fin 64)} (hXs : xs.length % 4 ≠ 1) (hYs : ys.length % 4 ≠ 1) :
    pack xs = pack ys ↔ clear xs = clear ys := by
  rw [← unpack_pack xs hXs, ← unpack_pack ys hYs]
  exact ⟨congrArg unpack, fun h => by rw [← pack_unpack (pack xs), h, pack_unpack]⟩

/-- The digits that are missing to a multiple of four. -/
def canonicalPadding (digits : Nat) : Nat := (4 - digits % 4) % 4

theorem length_unpack (bytes : List UInt8) : (unpack bytes).length % 4 ≠ 1 := by
  induction bytes using unpack.induct with
  | case1 x y z rest ih =>
    simp only [unpack, List.length_cons]
    omega
  | _ => simp [unpack]

/-! ## Letters -/

/-- The standard alphabet. -/
def LETTERS : List Char :=
  "ABCDEFGHIJKLMNOPQRSTUVWXYZabcdefghijklmnopqrstuvwxyz0123456789+/".toList

def letter (digit : Fin 64) : Char := LETTERS.get (digit.cast (by decide))

def digitOfLetter (c : Char) : Option (Fin 64) := (List.finRange 64).find? (letter · = c)

theorem letter_injective : Function.Injective letter := by
  have hNodup : LETTERS.Nodup := by decide
  intro a b h
  exact Fin.ext (Fin.ext_iff.mp (hNodup.injective_get h))

theorem digitOfLetter_eq_some_iff {c : Char} {digit : Fin 64} : digitOfLetter c = some digit ↔ letter digit = c := by
  constructor
  · intro h
    simpa using List.find?_some h
  · rintro rfl
    cases hFind : digitOfLetter (letter digit) with
    | none =>
      have hNone := List.find?_eq_none.mp hFind digit (List.mem_finRange digit)
      simp at hNone
    | some other =>
      have hOther : letter other = letter digit := by simpa using List.find?_some hFind
      rw [letter_injective hOther]

/-- The standard encoding, padded to a multiple of four letters. -/
def encode (bytes : List UInt8) : List Char :=
  (unpack bytes).map letter ++ List.replicate (canonicalPadding (unpack bytes).length) '='

/-! ## Spellings -/

section

variable {α : Type*} [DecidableEq α] (digit : α → Option (Fin 64)) (pad : α)

/-- The digits of a text and the number of padding letters after them, if it is nothing else. -/
def spelling : List α → Option (List (Fin 64) × Nat)
  | [] => some ([], 0)
  | c :: rest =>
    match spelling rest, digit c with
    | some (digits, padding), some first => some (first :: digits, padding)
    | some ([], padding), none => if c = pad then some ([], padding + 1) else none
    | _, _ => none

variable {digit pad}

theorem spelling_replicate (hPad : digit pad = none) (n : Nat) : spelling digit pad (List.replicate n pad) = some ([], n) := by
  induction n with
  | zero => rfl
  | succ n ih =>
    rw [List.replicate_succ, spelling, ih, hPad]
    exact if_pos rfl

theorem spelling_other {c : α} (hDigit : digit c = none) (hOther : c ≠ pad) (rest : List α) :
    spelling digit pad (c :: rest) = none := by
  rw [spelling, hDigit]
  split
  · rename_i hSome
    cases hSome
  · exact if_neg hOther
  · rfl

theorem spelling_append {letters : List α} {digits : List (Fin 64)} (hPad : digit pad = none) (n : Nat)
    (hDigits : letters.map digit = digits.map some) :
    spelling digit pad (letters ++ List.replicate n pad) = some (digits, n) := by
  induction letters generalizing digits with
  | nil =>
    rw [List.map_eq_nil_iff.mp hDigits.symm]
    exact spelling_replicate hPad n
  | cons c letters ih =>
    cases digits with
    | nil => cases hDigits
    | cons first digits =>
      obtain ⟨hFirst, hRest⟩ := List.cons.inj hDigits
      rw [List.cons_append, spelling, ih hRest, hFirst]

theorem spelling_eq_some_iff (hPad : digit pad = none) {text : List α} {digits : List (Fin 64)} {n : Nat} :
    spelling digit pad text = some (digits, n) ↔
      ∃ letters, text = letters ++ List.replicate n pad ∧ letters.map digit = digits.map some := by
  constructor
  · intro h
    induction text generalizing digits n with
    | nil =>
      cases h
      exact ⟨[], rfl, rfl⟩
    | cons c rest ih =>
      rw [spelling] at h
      split at h
      · rename_i later padding first hRest hFirst
        cases h
        obtain ⟨letters, hText, hDigits⟩ := ih hRest
        exact ⟨c :: letters, by rw [hText, List.cons_append], by rw [List.map_cons, hFirst, hDigits, List.map_cons]⟩
      · rename_i padding hRest _
        split at h
        · rename_i hSame
          cases h
          obtain ⟨letters, hText, hDigits⟩ := ih hRest
          rw [List.map_eq_nil_iff.mp hDigits, List.nil_append] at hText
          exact ⟨[], by rw [hSame, hText, List.nil_append, List.replicate_succ], rfl⟩
        · cases h
      · cases h
  · rintro ⟨letters, rfl, hDigits⟩
    exact spelling_append hPad n hDigits

/-- Letters may be changed for others of the same digit. -/
theorem spelling_map {β : Type*} [DecidableEq β] {digit' : β → Option (Fin 64)} {pad' : β} (f : β → α)
    (hDigit : ∀ c, digit (f c) = digit' c) (hPad : ∀ c, f c = pad ↔ c = pad') (text : List β) :
    spelling digit pad (text.map f) = spelling digit' pad' text := by
  induction text with
  | nil => rfl
  | cons c rest ih => simp only [List.map_cons, spelling, ih, hDigit, hPad]

end

end Aimux.Lib.Base64
