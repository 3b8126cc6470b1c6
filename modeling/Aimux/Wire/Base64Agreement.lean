import Aimux.Wire.Base64Text

/-! # The decoders of base64 texts compared

Each decoder as a condition on the digits and the padding of a text, and the texts on which they differ.
-/

namespace Aimux.Wire

open Aimux.Lib
open Aimux.Lib.Base64 (spelling spelling_append spelling_eq_some_iff spelling_map pack unpack canonicalPadding digitOfLetter
  firstByte secondByte thirdByte)

/-! ## Digits read one by one -/

def unitDigit (c : Nat) : Option (Fin 64) := (digitOfUnit c).map (Fin.ofNat 64)

theorem digitOfUnit_lt {c digit : Nat} (h : digitOfUnit c = some digit) : digit < 64 := by
  unfold digitOfUnit at h
  split_ifs at h <;> cases h <;> omega

theorem unitDigit_eq_some_iff {c : Nat} {digit : Fin 64} : unitDigit c = some digit ↔ digitOfUnit c = some digit.val := by
  constructor
  · intro h
    obtain ⟨n, hDigit, hFin⟩ := Option.map_eq_some_iff.mp h
    rw [hDigit, ← hFin, Fin.val_ofNat, Nat.mod_eq_of_lt (digitOfUnit_lt hDigit)]
  · intro h
    rw [unitDigit, h, Option.map_some]
    exact congrArg some (Fin.ext (Nat.mod_eq_of_lt digit.isLt))

theorem Bits.push_value (read : Bits) (digit : Fin 64) (hValue : read.value < 64) :
    read.value <<< 6 % 2 ^ 32 ||| digit.val = read.value * 64 + digit.val := by
  have hShift : read.value <<< 6 % 2 ^ 32 = 2 ^ 6 * read.value := by
    rw [Nat.shiftLeft_eq, Nat.mod_eq_of_lt (by omega), Nat.mul_comm]
  rw [hShift, ← Nat.two_pow_add_eq_or_of_lt digit.isLt, Nat.mul_comm]

variable {read : Bits}

theorem Bits.push_short (digit : Fin 64) (hBits : read.bits = 0) (hValue : read.value = 0) :
    read.push digit = ⟨read.bytes, digit.val, 6⟩ := by
  rw [Bits.push, Bits.push_value read digit (by omega), hBits, hValue, Nat.zero_mul, Nat.zero_add, Nat.zero_add]
  exact if_neg (by decide)

theorem Bits.push_full (digit : Fin 64) {left : Nat} (hBits : read.bits = left + 2) (hValue : read.value < 64) :
    read.push digit = ⟨read.bytes ++ [UInt8.ofNat ((read.value * 64 + digit.val) / 2 ^ left)],
      (read.value * 64 + digit.val) % 2 ^ left, left⟩ := by
  have hLeft : read.bits + 6 - 8 = left := by omega
  rw [Bits.push, Bits.push_value read digit hValue, if_pos (by omega), hLeft, Nat.shiftRight_eq_div_pow, Nat.one_shiftLeft, Nat.and_two_pow_sub_one_eq_mod]

/-! Two, three and four digits; after four nothing is left over. -/

variable (bytes : List UInt8)

theorem Bits.push_two (a b : Fin 64) :
    ((Bits.mk bytes 0 0).push a).push b = ⟨bytes ++ [firstByte a b], b.val % 16, 4⟩ := by
  have hByte : (a.val * 64 + b.val) / 2 ^ 4 = a.val * 4 + b.val / 16 := by omega
  have hValue : (a.val * 64 + b.val) % 2 ^ 4 = b.val % 16 := by omega
  rw [Bits.push_short a rfl rfl, Bits.push_full b rfl a.isLt, hByte, hValue]
  rfl

theorem Bits.push_three (a b c : Fin 64) :
    (((Bits.mk bytes 0 0).push a).push b).push c = ⟨bytes ++ [firstByte a b, secondByte b c], c.val % 4, 2⟩ := by
  have hByte : (b.val % 16 * 64 + c.val) / 2 ^ 2 = b.val % 16 * 16 + c.val / 4 := by omega
  have hValue : (b.val % 16 * 64 + c.val) % 2 ^ 2 = c.val % 4 := by omega
  have hSmall : b.val % 16 < 64 := by omega
  rw [Bits.push_two, Bits.push_full c rfl hSmall, hByte, hValue, List.append_assoc]
  rfl

theorem Bits.push_four (a b c d : Fin 64) :
    ((((Bits.mk bytes 0 0).push a).push b).push c).push d =
      ⟨bytes ++ [firstByte a b, secondByte b c, thirdByte c d], 0, 0⟩ := by
  have hSmall : c.val % 4 < 64 := by omega
  rw [Bits.push_three, Bits.push_full d rfl hSmall, Nat.pow_zero, Nat.div_one, Nat.mod_one, List.append_assoc]
  rfl

variable {chars : List Nat}

theorem Bits.read_cons {c : Nat} {digit : Fin 64} (h : unitDigit c = some digit) :
    read.read (c :: chars) = (read.push digit).read chars := by
  rw [Bits.read, unitDigit_eq_some_iff.mp h]

theorem Bits.read_digits (chars : List Nat) (digits : List (Fin 64)) (h : chars.map unitDigit = digits.map some) :
    (Bits.mk bytes 0 0).read chars = some (bytes ++ pack digits) := by
  induction digits using Aimux.Lib.Base64.pack.induct generalizing bytes chars with
  | case1 a b c d rest ih =>
    obtain ⟨w, _, rfl, hA, h⟩ := List.map_eq_cons_iff.mp h
    obtain ⟨x, _, rfl, hB, h⟩ := List.map_eq_cons_iff.mp h
    obtain ⟨y, _, rfl, hC, h⟩ := List.map_eq_cons_iff.mp h
    obtain ⟨z, chars, rfl, hD, h⟩ := List.map_eq_cons_iff.mp h
    rw [Bits.read_cons hA, Bits.read_cons hB, Bits.read_cons hC, Bits.read_cons hD, Bits.push_four, ih _ _ h, pack,
      List.append_assoc]
    rfl
  | case2 a b c =>
    obtain ⟨w, _, rfl, hA, h⟩ := List.map_eq_cons_iff.mp h
    obtain ⟨x, _, rfl, hB, h⟩ := List.map_eq_cons_iff.mp h
    obtain ⟨y, _, rfl, hC, h⟩ := List.map_eq_cons_iff.mp h
    rw [List.map_eq_nil_iff.mp h, Bits.read_cons hA, Bits.read_cons hB, Bits.read_cons hC, Bits.push_three, Bits.read]
    rfl
  | case3 a b =>
    obtain ⟨w, _, rfl, hA, h⟩ := List.map_eq_cons_iff.mp h
    obtain ⟨x, _, rfl, hB, h⟩ := List.map_eq_cons_iff.mp h
    rw [List.map_eq_nil_iff.mp h, Bits.read_cons hA, Bits.read_cons hB, Bits.push_two, Bits.read]
    rfl
  | case4 a =>
    obtain ⟨w, _, rfl, hA, h⟩ := List.map_eq_cons_iff.mp h
    rw [List.map_eq_nil_iff.mp h, Bits.read_cons hA, Bits.push_short a rfl rfl, Bits.read]
    exact congrArg some (List.append_nil bytes).symm
  | case5 =>
    rw [List.map_eq_nil_iff.mp h, Bits.read]
    exact congrArg some (List.append_nil bytes).symm

theorem Bits.read_some {bytes : List UInt8} (h : read.read chars = some bytes) :
    ∃ digits : List (Fin 64), chars.map unitDigit = digits.map some := by
  induction chars generalizing read with
  | nil => exact ⟨[], rfl⟩
  | cons c rest ih =>
    rw [Bits.read] at h
    cases hDigit : digitOfUnit c with
    | none =>
      rw [hDigit] at h
      cases h
    | some digit =>
      rw [hDigit] at h
      obtain ⟨digits, hDigits⟩ := ih h
      refine ⟨Fin.ofNat 64 digit :: digits, ?_⟩
      rw [List.map_cons, hDigits, List.map_cons, unitDigit, hDigit, Option.map_some]

theorem Bits.read_padding (hMem : 0x3d ∈ chars) : read.read chars = none := by
  cases hRead : read.read chars with
  | none => rfl
  | some bytes =>
    obtain ⟨digits, hDigits⟩ := Bits.read_some hRead
    have hDigit := List.mem_map_of_mem (f := unitDigit) hMem
    rw [hDigits] at hDigit
    obtain ⟨digit, _, hNone⟩ := List.mem_map.mp hDigit
    cases hNone

/-! ## The forgiving decoder -/

theorem popPadding_concat (chars : List Nat) : popPadding (chars ++ [0x3d]) = chars := by
  rw [popPadding, List.getLast?_concat, if_pos rfl, List.dropLast_concat]

theorem popPadding_digits {digits : List (Fin 64)} (h : chars.map unitDigit = digits.map some) :
    popPadding chars = chars := by
  rw [popPadding, if_neg]
  intro hLast
  have hMem := List.mem_map_of_mem (f := unitDigit) (List.mem_of_getLast? hLast)
  rw [h] at hMem
  obtain ⟨digit, _, hDigit⟩ := List.mem_map.mp hMem
  cases hDigit

theorem popPadding_spec (chars : List Nat) : ∃ n, chars = popPadding chars ++ List.replicate n 0x3d := by
  unfold popPadding
  split
  · rename_i hLast
    obtain ⟨front, rfl⟩ := List.getLast?_eq_some_iff.mp hLast
    exact ⟨1, by rw [List.dropLast_concat]; rfl⟩
  · exact ⟨0, (List.append_nil chars).symm⟩

/-- Padding is canonical or absent. -/
def forgives (digits padding : Nat) : Prop := digits % 4 ≠ 1 ∧ (padding = 0 ∨ padding = canonicalPadding digits)

instance (digits padding : Nat) : Decidable (forgives digits padding) := inferInstanceAs (Decidable (_ ∧ _))

theorem forgivingDecode_of_spelling {digits : List (Fin 64)} {padding : Nat}
    (h : spelling unitDigit 0x3d (chars.filter (!isSpaceUnit ·)) = some (digits, padding)) :
    forgivingDecode chars = if forgives digits.length padding then some (pack digits) else none := by
  obtain ⟨letters, hChars, hLetters⟩ := (spelling_eq_some_iff (by decide)).mp h
  have hLength : letters.length = digits.length := by
    rw [← List.length_map, hLetters, List.length_map]
  have hDone : Bits.read ⟨[], 0, 0⟩ letters = some (pack digits) := Bits.read_digits [] letters digits hLetters
  have hLeft {n : Nat} : Bits.read ⟨[], 0, 0⟩ (letters ++ List.replicate (n + 1) 0x3d) = none :=
    Bits.read_padding (List.mem_append_right _ (List.mem_cons_self ..))
  have hPop (n : Nat) : popPadding (letters ++ List.replicate (n + 1) 0x3d) = letters ++ List.replicate n 0x3d := by
    rw [List.replicate_succ', ← List.append_assoc, popPadding_concat]
  have hPopLetters := popPadding_digits hLetters
  unfold forgivingDecode
  rw [hChars]
  dsimp only
  rw [List.length_append, List.length_replicate, hLength]
  match padding with
  | 0 =>
    rw [List.replicate_zero, List.append_nil, hPopLetters, hPopLetters, ite_self, hDone, hLength]
    by_cases hOne : digits.length % 4 = 1
    · have hForgives : ¬ forgives digits.length 0 := fun hForgives => hForgives.1 hOne
      rw [if_pos hOne, if_neg hForgives]
    · have hForgives : forgives digits.length 0 := ⟨hOne, .inl rfl⟩
      rw [if_neg hOne, if_pos hForgives]
  | 1 =>
    by_cases hQuads : (digits.length + 1) % 4 = 0
    · rw [if_pos hQuads, hPop 0, List.replicate_zero, List.append_nil, hPopLetters, hDone, hLength, if_neg (by omega),
        if_pos (by unfold forgives canonicalPadding; omega)]
    · rw [if_neg hQuads, hLeft, ite_self, if_neg (by unfold forgives canonicalPadding; omega)]
  | 2 =>
    by_cases hQuads : (digits.length + 2) % 4 = 0
    · rw [if_pos hQuads, hPop 1, hPop 0, List.replicate_zero, List.append_nil, hDone, hLength, if_neg (by omega),
        if_pos (by unfold forgives canonicalPadding; omega)]
    · rw [if_neg hQuads, hLeft, ite_self, if_neg (by unfold forgives canonicalPadding; omega)]
  | n + 3 =>
    have hNone : Bits.read ⟨[], 0, 0⟩ (if (digits.length + (n + 3)) % 4 = 0 then
        popPadding (popPadding (letters ++ List.replicate (n + 3) 0x3d)) else letters ++ List.replicate (n + 3) 0x3d) =
          none := by
      split
      · rw [hPop (n + 2), hPop (n + 1), hLeft]
      · exact hLeft
    rw [hNone, ite_self, if_neg (by unfold forgives canonicalPadding; omega)]

theorem forgivingDecode_of_none (h : spelling unitDigit 0x3d (chars.filter (!isSpaceUnit ·)) = none) :
    forgivingDecode chars = none := by
  unfold forgivingDecode
  dsimp only
  generalize hUnits : chars.filter (!isSpaceUnit ·) = units at h ⊢
  obtain ⟨n, hStripped⟩ : ∃ n, units =
      (if units.length % 4 = 0 then popPadding (popPadding units) else units) ++ List.replicate n 0x3d := by
    split
    · obtain ⟨m, hOnce⟩ := popPadding_spec units
      obtain ⟨n, hTwice⟩ := popPadding_spec (popPadding units)
      refine ⟨n + m, ?_⟩
      rw [List.replicate_add, ← List.append_assoc, ← hTwice, ← hOnce]
    · exact ⟨0, (List.append_nil units).symm⟩
  generalize (if units.length % 4 = 0 then popPadding (popPadding units) else units) = stripped at hStripped ⊢
  split
  · rfl
  · cases hRead : Bits.read ⟨[], 0, 0⟩ stripped with
    | none => rfl
    | some bytes =>
      obtain ⟨digits, hDigits⟩ := Bits.read_some hRead
      rw [hStripped, spelling_append (by decide) n hDigits] at h
      cases h

/-! ## Texts -/

/-- The digit of a letter of either alphabet. -/
def digitOf (c : Char) : Option (Fin 64) := digitOfLetter (standardLetter c)

/-- The digits of a text and the number of padding letters, white space apart. -/
def spelled (text : String) : Option (List (Fin 64) × Nat) := spelling digitOf '=' (text.toList.filter (!isSpace ·))

theorem unitDigit_of_le {n : Nat} (h : 128 ≤ n) : unitDigit n = none := by
  rw [unitDigit, digitOfUnit, if_neg (by omega), if_neg (by omega), if_neg (by omega), if_neg (by omega), if_neg (by omega)]
  rfl

theorem letter_toNat : ∀ digit : Fin 64, (Base64.letter digit).toNat =
    if digit.val < 26 then digit.val + 65 else if digit.val < 52 then digit.val + 71
    else if digit.val < 62 then digit.val - 4 else if digit.val = 62 then 43 else 47 := by
  decide +kernel

theorem unitDigit_toNat (c : Char) : unitDigit c.toNat = digitOf c := by
  refine Option.ext fun digit => ?_
  have hDigit := digit.isLt
  have hStandard : (standardLetter c).toNat = if c.toNat = 45 then 43 else if c.toNat = 95 then 47 else c.toNat := by
    simp only [standardLetter, apply_ite Char.toNat, ← Char.toNat_inj, Char.reduceToNat]
  rw [unitDigit_eq_some_iff, digitOf, Base64.digitOfLetter_eq_some_iff, ← Char.toNat_inj, letter_toNat, hStandard]
  unfold digitOfUnit
  split_ifs <;> simp <;> omega

theorem digitOf_of_le {c : Char} (h : 128 ≤ c.toNat) : digitOf c = none := by
  rw [← unitDigit_toNat, unitDigit_of_le h]

theorem isSpaceUnit_toNat (c : Char) : isSpaceUnit c.toNat = isSpace c := by
  unfold isSpaceUnit isSpace
  rw [decide_eq_decide]
  simp only [List.mem_cons, List.not_mem_nil, or_false, ← Char.toNat_inj, Char.reduceToNat]
  omega

/-- Of a character that is two units, neither is white space, a digit or padding. -/
theorem encodeUtf16_pair {c : Char} (h : ¬ c.toNat < 0x10000) :
    ∃ high low, encodeUtf16 c = [high, low] ∧ 128 ≤ high ∧ 128 ≤ low :=
  ⟨_, _, if_neg h, by omega, by omega⟩

theorem isSpaceUnit_of_le {n : Nat} (h : 128 ≤ n) : isSpaceUnit n = false := by
  unfold isSpaceUnit
  rw [decide_eq_false_iff_not]
  simp only [List.mem_cons, List.not_mem_nil, or_false]
  omega

/-- White space is the same in units as in characters. -/
theorem filter_encodeUtf16 (text : List Char) :
    (text.flatMap encodeUtf16).filter (!isSpaceUnit ·) = (text.filter (!isSpace ·)).flatMap encodeUtf16 := by
  induction text with
  | nil => rfl
  | cons c rest ih =>
    have hUnits : (encodeUtf16 c).filter (!isSpaceUnit ·) = if isSpace c then [] else encodeUtf16 c := by
      by_cases hSmall : c.toNat < 0x10000
      · rw [encodeUtf16, if_pos hSmall, List.filter_singleton, isSpaceUnit_toNat]
        cases isSpace c <;> rfl
      · obtain ⟨high, low, hPair, hHigh, hLow⟩ := encodeUtf16_pair hSmall
        rw [hPair, ← isSpaceUnit_toNat, isSpaceUnit_of_le (by omega)]
        simp only [List.filter_cons, isSpaceUnit_of_le hHigh, isSpaceUnit_of_le hLow]
        rfl
    rw [List.flatMap_cons, List.filter_append, ih, hUnits, List.filter_cons]
    cases isSpace c with
    | true => rfl
    | false => rfl

theorem spelling_encodeUtf16 (text : List Char) :
    spelling unitDigit 0x3d (text.flatMap encodeUtf16) = spelling digitOf '=' text := by
  induction text with
  | nil => rfl
  | cons c rest ih =>
    rw [List.flatMap_cons]
    by_cases hSmall : c.toNat < 0x10000
    · have hPad : c.toNat = 0x3d ↔ c = '=' := Char.toNat_inj (d := '=')
      rw [encodeUtf16, if_pos hSmall, List.singleton_append, spelling, spelling, ih, unitDigit_toNat]
      simp only [hPad]
    · obtain ⟨high, low, hPair, hHigh, hLow⟩ := encodeUtf16_pair hSmall
      have hOther : c ≠ '=' := by
        rintro rfl
        exact hSmall (by decide)
      rw [hPair, List.cons_append, Base64.spelling_other (unitDigit_of_le hHigh) (by omega),
        Base64.spelling_other (digitOf_of_le (by omega)) hOther]

/-- The first decoder takes canonical padding, or none. -/
theorem convertBase64ToUint8Array_eq (text : String) : convertBase64ToUint8Array text =
    (spelled text).bind fun (digits, padding) => if forgives digits.length padding then some (pack digits) else none := by
  have hSpelled : spelling unitDigit 0x3d ((text.toList.flatMap encodeUtf16).filter (!isSpaceUnit ·)) = spelled text := by
    rw [filter_encodeUtf16, spelling_encodeUtf16, spelled]
  rw [convertBase64ToUint8Array]
  cases hText : spelled text with
  | none => exact forgivingDecode_of_none (hSpelled.trans hText)
  | some found => exact forgivingDecode_of_spelling (hSpelled.trans hText)

theorem standardLetter_padding (c : Char) : standardLetter c = '=' ↔ c = '=' := by
  unfold standardLetter
  split_ifs with hMinus hLow
  · rw [hMinus]
    decide
  · rw [hLow]
    decide
  · rfl

/-- The second decoder takes less padding, too. -/
theorem decodeBase64_eq {crate : Base64Crate} (hCrate : crate.Documented) (text : String) : decodeBase64 crate text =
    (spelled text).bind fun (digits, padding) =>
      if digits.length % 4 ≠ 1 ∧ padding ≤ canonicalPadding digits.length then some (pack digits) else none := by
  have hSpelled : spelling digitOfLetter '=' (String.ofList ((text.toList.filter (!isSpace ·)).map standardLetter)).toList =
      spelled text := by
    rw [String.toList_ofList]
    exact spelling_map standardLetter (fun _ => rfl) standardLetter_padding _
  rw [decodeBase64]
  cases hText : spelled text with
  | none =>
    refine hCrate.rejects _ fun digits padding hFound => ?_
    rw [hSpelled, hText] at hFound
    cases hFound
  | some found =>
    obtain ⟨digits, padding⟩ := found
    rw [Option.bind_some]
    by_cases hTaken : digits.length % 4 ≠ 1 ∧ padding ≤ canonicalPadding digits.length
    · rw [hCrate.accepts _ digits padding (hSpelled.trans hText) hTaken.1 hTaken.2]
      exact (if_pos hTaken).symm
    · refine Eq.trans (hCrate.rejects _ fun digits' padding' hFound => ?_) (if_neg hTaken).symm
      rw [hSpelled, hText] at hFound
      cases hFound
      omega

/-! ## Agreement -/

/-- A letter of either alphabet. -/
def isLetter (c : Char) : Bool := c.isAlphanum || c ∈ ['+', '/', '-', '_']

/-- Two letters past the last four, and one padding letter where there should be two; white space apart. -/
def halfPadded (text : String) : Bool :=
  let chars := text.toList.filter (!isSpace ·)
  chars.getLast? = some '=' && chars.dropLast.length % 4 = 2 && chars.dropLast.all isLetter

theorem isSome_digitOf (c : Char) : (digitOf c).isSome = isLetter c := by
  have hSigns : c ∈ ['+', '/', '-', '_'] ↔ c.toNat = 0x2b ∨ c.toNat = 0x2f ∨ c.toNat = 0x2d ∨ c.toNat = 0x5f := by
    simp only [List.mem_cons, List.not_mem_nil, or_false, ← Char.toNat_inj, Char.reduceToNat]
  rw [← unitDigit_toNat, unitDigit, Option.isSome_map, Bool.eq_iff_iff, isLetter, Bool.or_eq_true, decide_eq_true_eq,
    hSigns]
  unfold digitOfUnit
  split_ifs <;>
    simp [Char.isAlphanum, Char.isAlpha, Char.isUpper, Char.isLower, Char.isDigit, UInt32.le_iff_toNat_le] <;> omega

theorem digitOf_padding : digitOf '=' = none := by
  rw [← unitDigit_toNat]
  rfl

theorem exists_digits {letters : List Char} (h : ∀ c ∈ letters, (digitOf c).isSome = true) :
    ∃ digits : List (Fin 64), letters.map digitOf = digits.map some := by
  induction letters with
  | nil => exact ⟨[], rfl⟩
  | cons c rest ih =>
    obtain ⟨hFirst, hRest⟩ := List.forall_mem_cons.mp h
    obtain ⟨digit, hDigit⟩ := Option.isSome_iff_exists.mp hFirst
    obtain ⟨digits, hDigits⟩ := ih hRest
    exact ⟨digit :: digits, by rw [List.map_cons, hDigit, hDigits, List.map_cons]⟩

theorem halfPadded_iff (text : String) :
    halfPadded text = true ↔ ∃ digits, spelled text = some (digits, 1) ∧ digits.length % 4 = 2 := by
  unfold halfPadded spelled
  generalize text.toList.filter (!isSpace ·) = chars
  simp only [Bool.and_eq_true, decide_eq_true_eq, List.all_eq_true, and_assoc]
  constructor
  · rintro ⟨hLast, hLength, hLetters⟩
    obtain ⟨front, rfl⟩ := List.getLast?_eq_some_iff.mp hLast
    rw [List.dropLast_concat] at hLength hLetters
    obtain ⟨digits, hDigits⟩ := exists_digits fun c hMem => (isSome_digitOf c).trans (hLetters c hMem)
    refine ⟨digits, spelling_append digitOf_padding 1 hDigits, ?_⟩
    rw [← hLength, ← List.length_map (f := digitOf), hDigits, List.length_map]
  · rintro ⟨digits, hSpelled, hLength⟩
    obtain ⟨letters, rfl, hLetters⟩ := (spelling_eq_some_iff digitOf_padding).mp hSpelled
    rw [List.replicate_one, List.getLast?_concat, List.dropLast_concat]
    refine ⟨rfl, ?_, fun c hMem => ?_⟩
    · rw [← hLength, ← List.length_map (f := digitOf), hLetters, List.length_map]
    · have hDigit := List.mem_map_of_mem (f := digitOf) hMem
      rw [hLetters] at hDigit
      obtain ⟨digit, _, hSome⟩ := List.mem_map.mp hDigit
      rw [← isSome_digitOf, ← hSome]
      rfl

theorem spelled_encode :
    spelled (String.ofList (Base64.encode bytes)) = some (unpack bytes, canonicalPadding (unpack bytes).length) := by
  have hSame : ∀ digit : Fin 64, standardLetter (Base64.letter digit) = Base64.letter digit := by decide +kernel
  have hSpace : ∀ digit : Fin 64, isSpace (Base64.letter digit) = false := by decide +kernel
  have hText : (Base64.encode bytes).filter (!isSpace ·) = Base64.encode bytes := by
    refine List.filter_eq_self.mpr fun c hMem => ?_
    rcases List.mem_append.mp hMem with hLetter | hPadding
    · obtain ⟨digit, _, rfl⟩ := List.mem_map.mp hLetter
      rw [hSpace]
      rfl
    · rw [(List.mem_replicate.mp hPadding).2]
      rfl
  rw [spelled, String.toList_ofList, hText]
  refine spelling_append digitOf_padding _ ?_
  rw [List.map_map]
  exact List.map_congr_left fun digit _ => Base64.digitOfLetter_eq_some_iff.mpr (hSame digit).symm

theorem ite_some_eq_iff {α : Type} {p q : Prop} [Decidable p] [Decidable q] {value : α} :
    (if p then some value else none) = (if q then some value else none) ↔ (p ↔ q) := by
  by_cases hP : p <;> by_cases hQ : q <;> simp [hP, hQ]

/-- The decoders differ where half of the padding is missing, and nowhere else. -/
theorem decoders_agree_iff {crate : Base64Crate} (hCrate : crate.Documented) :
    (∀ text, convertBase64ToUint8Array text = decodeBase64 crate text ↔ halfPadded text = false) ∧
    ∀ bytes, convertBase64ToUint8Array (encodeBase64 crate bytes) = some bytes ∧
      decodeBase64 crate (encodeBase64 crate bytes) = some bytes := by
  constructor
  · intro text
    rw [convertBase64ToUint8Array_eq, decodeBase64_eq hCrate, ← Bool.not_eq_true, halfPadded_iff]
    cases hText : spelled text with
    | none => exact ⟨fun _ ⟨_, hSome, _⟩ => (nomatch hSome), fun _ => rfl⟩
    | some found =>
      obtain ⟨digits, padding⟩ := found
      have hHalf : (∃ other, some (digits, padding) = some (other, 1) ∧ other.length % 4 = 2) ↔
          padding = 1 ∧ digits.length % 4 = 2 := by
        constructor
        · rintro ⟨other, hSame, hLength⟩
          cases hSame
          exact ⟨rfl, hLength⟩
        · rintro ⟨rfl, hLength⟩
          exact ⟨digits, rfl, hLength⟩
      have hTaken : (forgives digits.length padding ↔
          digits.length % 4 ≠ 1 ∧ padding ≤ canonicalPadding digits.length) ↔ ¬(padding = 1 ∧ digits.length % 4 = 2) := by
        unfold forgives canonicalPadding
        omega
      rw [hHalf, ← hTaken]
      exact ite_some_eq_iff
  · intro bytes
    have hLength := Base64.length_unpack bytes
    rw [convertBase64ToUint8Array_eq, decodeBase64_eq hCrate, encodeBase64, hCrate.encode, spelled_encode, Option.bind_some,
      Option.bind_some]
    have hForgives : forgives (unpack bytes).length (canonicalPadding (unpack bytes).length) := ⟨hLength, .inr rfl⟩
    refine ⟨(if_pos hForgives).trans ?_, (if_pos ⟨hLength, le_rfl⟩).trans ?_⟩
    · rw [Base64.pack_unpack]
    · rw [Base64.pack_unpack]

/-! A decoder as the documentation has it. -/

def indifferentDecode (text : String) : Option (List UInt8) :=
  (spelling digitOfLetter '=' text.toList).bind fun (digits, padding) =>
    if digits.length % 4 ≠ 1 ∧ padding ≤ canonicalPadding digits.length then some (pack digits) else none

def documentedCrate : Base64Crate := ⟨fun bytes => String.ofList (Base64.encode bytes), indifferentDecode⟩

theorem documentedCrate_documented : documentedCrate.Documented where
  encode _ := rfl
  accepts text digits padding hText hDigits hPadding := by
    change indifferentDecode text = _
    rw [indifferentDecode, hText]
    exact if_pos ⟨hDigits, hPadding⟩
  rejects text hText := by
    change indifferentDecode text = _
    rw [indifferentDecode]
    cases hSpelled : spelling digitOfLetter '=' text.toList with
    | none => rfl
    | some found =>
      refine if_neg fun hTaken => ?_
      have hRejected := hText found.1 found.2 hSpelled
      omega

theorem decoders_agree_iff_greeting : convertBase64ToUint8Array "aGk=" = decodeBase64 documentedCrate "aGk=" :=
  ((decoders_agree_iff documentedCrate_documented).1 "aGk=").mpr (by decide +kernel)

theorem half_padded_differs :
    convertBase64ToUint8Array "AA=" = none ∧ decodeBase64 documentedCrate "AA=" = some [0] := by decide +kernel

end Aimux.Wire
