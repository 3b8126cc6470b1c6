import Aimux.Wire.Base64Agreement
import Aimux.Wire.MediaType

/-! # Media types of base64 texts

The prefix of a text is counted in code units, white space and padding included: it may end inside a quantum, between
two padding letters, or before the bytes that it should cover.
-/

namespace Aimux.Wire

open Aimux.Core
open Aimux.Lib.Base64 (spelling spelling_append spelling_eq_some_iff pack canonicalPadding)

/-! ## Packing a prefix -/

theorem pack_take (digits : List (Fin 64)) {n : Nat} (hInside : n ≤ digits.length) :
    pack (digits.take n) = (pack digits).take (n * 3 / 4) := by
  induction digits using Aimux.Lib.Base64.pack.induct generalizing n with
  | case1 a b c d rest ih =>
    obtain _ | _ | _ | _ | n := n
    all_goals try rfl
    have hBytes : (n + 4) * 3 / 4 = n * 3 / 4 + 3 := by omega
    simp only [List.length_cons] at hInside
    rw [hBytes]
    simp only [List.take_succ_cons, pack, ih (show n ≤ rest.length by omega)]
  | case2 a b c =>
    obtain _ | _ | _ | _ | n := n
    all_goals try rfl
    simp only [List.length_cons, List.length_nil] at hInside
    omega
  | case3 a b =>
    obtain _ | _ | _ | n := n
    all_goals try rfl
    simp only [List.length_cons, List.length_nil] at hInside
    omega
  | case4 a =>
    obtain _ | _ | n := n
    all_goals try rfl
    simp only [List.length_cons, List.length_nil] at hInside
    omega
  | case5 => simp [pack]

/-! ## Cuts -/

def isDigitUnit (unit : Nat) : Bool := !isSpaceUnit unit && unit != 0x3d

/-- The digits among the first code units. -/
def digitsWithin (limit : Nat) (units : List Nat) : Nat := ((units.take limit).filter isDigitUnit).length

def paddingWithin (limit : Nat) (units : List Nat) : Nat := ((units.take limit).filter (· == 0x3d)).length

/-- The first code units are a text of their own: no digit is left over, and the padding is all behind the cut or
all before it. -/
def CutStands (limit : Nat) (units : List Nat) : Prop :=
  digitsWithin limit units % 4 ≠ 1 ∧
    (paddingWithin limit units = 0 ∨ paddingWithin limit units = paddingWithin units.length units)

instance (limit : Nat) (units : List Nat) : Decidable (CutStands limit units) := inferInstanceAs (Decidable (_ ∧ _))

/-- The bytes that the first code units are of. -/
def covered (limit : Nat) (units : List Nat) : Nat := digitsWithin limit units * 3 / 4

theorem unitDigit_padding : unitDigit 0x3d = none := by decide

theorem not_padding_of_digits {letters : List Nat} {digits : List (Fin 64)}
    (hDigits : letters.map unitDigit = digits.map some) : ∀ c ∈ letters, c ≠ 0x3d := by
  rintro c hMem rfl
  have hDigit := List.mem_map_of_mem (f := unitDigit) hMem
  rw [hDigits, unitDigit_padding] at hDigit
  simp at hDigit

/-- The letters of a spelling are counted as its digits, and its padding as padding. -/
theorem counts_of_letters {chars letters : List Nat} {digits : List (Fin 64)} {padding : Nat}
    (hChars : chars.filter (!isSpaceUnit ·) = letters ++ List.replicate padding 0x3d)
    (hDigits : letters.map unitDigit = digits.map some) :
    (chars.filter isDigitUnit).length = digits.length ∧ (chars.filter (· == 0x3d)).length = padding := by
  have hLetters := not_padding_of_digits hDigits
  have hLength : letters.length = digits.length := by simpa using congrArg List.length hDigits
  have hDigitUnits : chars.filter isDigitUnit = (chars.filter (!isSpaceUnit ·)).filter (· != 0x3d) := by
    rw [List.filter_filter]
    exact List.filter_congr fun c _ => Bool.and_comm _ _
  have hPadding : chars.filter (· == 0x3d) = (chars.filter (!isSpaceUnit ·)).filter (· == 0x3d) := by
    rw [List.filter_filter]
    apply List.filter_congr
    intro c _
    by_cases hIs : c = 0x3d
    · rw [hIs]
      rfl
    · rw [beq_eq_false_iff_ne.mpr hIs, Bool.false_and]
  constructor
  · have hKept : letters.filter (· != 0x3d) = letters :=
      List.filter_eq_self.mpr fun c hMem => by simpa using hLetters c hMem
    rw [hDigitUnits, hChars, List.filter_append, hKept, List.length_append, hLength]
    simp
  · have hDropped : letters.filter (· == 0x3d) = [] :=
      List.filter_eq_nil_iff.mpr fun c hMem => by simpa using hLetters c hMem
    rw [hPadding, hChars, List.filter_append, hDropped]
    simp

section

variable {units : List Nat} {bytes : List UInt8}

/-- What an accepted text is. -/
theorem letters_of_decoded (h : forgivingDecode units = some bytes) : ∃ letters digits padding,
    units.filter (!isSpaceUnit ·) = letters ++ List.replicate padding 0x3d ∧ letters.map unitDigit = digits.map some ∧
      forgives digits.length padding ∧ pack digits = bytes := by
  cases hSpelled : spelling unitDigit 0x3d (units.filter (!isSpaceUnit ·)) with
  | none =>
    rw [forgivingDecode_of_none hSpelled] at h
    cases h
  | some found =>
    obtain ⟨digits, padding⟩ := found
    obtain ⟨letters, hChars, hDigits⟩ := (spelling_eq_some_iff unitDigit_padding).mp hSpelled
    rw [forgivingDecode_of_spelling hSpelled] at h
    split_ifs at h with hForgives
    exact ⟨letters, digits, padding, hChars, hDigits, hForgives, Option.some.inj h⟩

/-- The first code units of a spelling are a spelling. -/
theorem letters_take {letters : List Nat} {padding : Nat} (limit : Nat)
    (hChars : units.filter (!isSpaceUnit ·) = letters ++ List.replicate padding 0x3d) :
    ∃ n, (units.take limit).filter (!isSpaceUnit ·) =
      letters.take n ++ List.replicate (min (n - letters.length) padding) 0x3d := by
  have hPrefix := (List.take_prefix limit units).filter (!isSpaceUnit ·)
  rw [hChars] at hPrefix
  refine ⟨((units.take limit).filter (!isSpaceUnit ·)).length, ?_⟩
  rw [← List.take_replicate, ← List.take_append]
  exact List.prefix_iff_eq_take.mp hPrefix

/-- A cut of an accepted text is accepted just when it stands, and is then of the bytes that it covers. -/
theorem forgivingDecode_take (h : forgivingDecode units = some bytes) (limit : Nat) :
    forgivingDecode (units.take limit) =
      if CutStands limit units then some (bytes.take (covered limit units)) else none := by
  obtain ⟨letters, digits, padding, hChars, hDigits, hForgives, rfl⟩ := letters_of_decoded h
  have hLength : letters.length = digits.length := by simpa using congrArg List.length hDigits
  obtain ⟨n, hCut⟩ := letters_take limit hChars
  have hCutDigits : (letters.take n).map unitDigit = (digits.take n).map some := by
    rw [List.map_take, hDigits, List.map_take]
  have hCounts := counts_of_letters hCut hCutDigits
  have hWhole : paddingWithin units.length units = padding := by
    rw [paddingWithin, List.take_length]
    exact (counts_of_letters hChars hDigits).2
  have hStands : CutStands limit units ↔ forgives (digits.take n).length (min (n - letters.length) padding) := by
    rw [CutStands, hWhole, digitsWithin, paddingWithin, hCounts.1, hCounts.2, forgives]
    refine and_congr_right fun _ => ?_
    by_cases hNone : min (n - letters.length) padding = 0
    · simp only [hNone, true_or]
    · have hAll : digits.take n = digits := List.take_of_length_le (by omega)
      have hPadded : padding = canonicalPadding digits.length := hForgives.2.resolve_left (by omega)
      rw [hAll, ← hPadded]
  have hCovered : pack (digits.take n) = (pack digits).take (covered limit units) := by
    rw [covered, digitsWithin, hCounts.1, List.length_take, ← pack_take digits (Nat.min_le_right _ _),
      ← List.take_eq_take_min]
  rw [forgivingDecode_of_spelling (by rw [hCut]; exact spelling_append unitDigit_padding _ hCutDigits), hCovered]
  exact if_congr hStands.symm rfl rfl

theorem digitsWithin_le (limit : Nat) (units : List Nat) : digitsWithin limit units ≤ limit :=
  le_trans (List.length_filter_le _ _) (List.length_take_le _ _)

theorem digitsWithin_mono {limit more : Nat} (h : limit ≤ more) (units : List Nat) :
    digitsWithin limit units ≤ digitsWithin more units :=
  ((List.take_prefix_take_left h).filter isDigitUnit).length_le

theorem decodePrefix_text {data : String} (h : convertBase64ToUint8Array data = some bytes) (maxBytes : Nat) :
    decodePrefix (.base64 data) maxBytes = if CutStands (unitsFor maxBytes) (Wire.units data) then
      .ok ((bytes.take (covered (unitsFor maxBytes) (Wire.units data))).take maxBytes)
    else .error (.invalidArgument "invalid base64 data" none) := by
  have hUnits : forgivingDecode (Wire.units data) = some bytes := h
  rw [decodePrefix, forgivingDecode_take hUnits]
  split_ifs <;> rfl

end

/-! ## Agreement -/

/-- What the cuts of a text have to leave for its bytes to be told as they are. -/
def CutsSuffice (topLevelType : Option String) (units : List Nat) (bytes : List UInt8) : Prop :=
  let sniffed := unitsFor DEFAULT_SNIFF_BYTES
  let tagged := unitsFor (MAX_ID3_TAG_BYTES + MAX_SIGNATURE_BYTES)
  CutStands sniffed units ∧
    if hasId3Tag bytes then
      if covered sniffed units ≤ 10 then signatureOf topLevelType (afterTag bytes) = none
      else CutStands tagged units ∧ ∀ signature, signatureOf topLevelType (afterTag bytes) = some signature →
        id3End bytes + signature.bytes.length ≤ covered tagged units
    else ∀ signature, signatureOf topLevelType bytes = some signature → signature.bytes.length ≤ covered sniffed units

theorem detectMediaType_text {topLevelType : Option String} {data : String} {bytes : List UInt8}
    (hKnown : isKnownTopLevel topLevelType = true) (h : convertBase64ToUint8Array data = some bytes)
    (hStands : CutStands (unitsFor DEFAULT_SNIFF_BYTES) (units data)) :
    detectMediaType (.base64 data) topLevelType =
      if hasId3Tag bytes ∧ 10 < covered (unitsFor DEFAULT_SNIFF_BYTES) (units data) then
        if CutStands (unitsFor (MAX_ID3_TAG_BYTES + MAX_SIGNATURE_BYTES)) (units data) then
          .ok ((signatureOf topLevelType ((afterTag bytes).take (covered (unitsFor
            (MAX_ID3_TAG_BYTES + MAX_SIGNATURE_BYTES)) (units data) - id3End bytes))).map (·.mediaType))
        else .error (.invalidArgument "invalid base64 data" none)
      else .ok ((signatureOf topLevelType
        (bytes.take (covered (unitsFor DEFAULT_SNIFF_BYTES) (units data)))).map (·.mediaType)) := by
  have hSniffed : (bytes.take (covered (unitsFor DEFAULT_SNIFF_BYTES) (units data))).take DEFAULT_SNIFF_BYTES =
      bytes.take (covered (unitsFor DEFAULT_SNIFF_BYTES) (units data)) := by
    have hLimit := digitsWithin_le (unitsFor DEFAULT_SNIFF_BYTES) (units data)
    have hUnits : unitsFor DEFAULT_SNIFF_BYTES = 24 := rfl
    have hBytes : DEFAULT_SNIFF_BYTES = 18 := rfl
    rw [List.take_take, Nat.min_eq_right]
    rw [covered]
    omega
  rw [detectMediaType, if_pos hKnown, decodePrefix_text h, if_pos hStands, hSniffed]
  simp only [bind, Except.bind, pure, Except.pure, hasId3Tag_take]
  by_cases hTagged : hasId3Tag bytes = true ∧ 10 < covered (unitsFor DEFAULT_SNIFF_BYTES) (units data)
  · rw [if_pos hTagged, if_pos hTagged, decodePrefix_text h]
    by_cases hSecond : CutStands (unitsFor (MAX_ID3_TAG_BYTES + MAX_SIGNATURE_BYTES)) (units data)
    · have hMore := digitsWithin_mono
        (show unitsFor DEFAULT_SNIFF_BYTES ≤ unitsFor (MAX_ID3_TAG_BYTES + MAX_SIGNATURE_BYTES) by decide) (units data)
      have hHeader : 10 ≤ covered (unitsFor (MAX_ID3_TAG_BYTES + MAX_SIGNATURE_BYTES)) (units data) :=
        le_trans hTagged.2.le (Nat.div_le_div_right (Nat.mul_le_mul_right 3 hMore))
      rw [if_pos hSecond, if_pos hSecond]
      dsimp only
      rw [id3End_take _ (by decide), id3End_take _ hHeader, drop_min_length, List.take_take, Nat.min_comm,
        ← List.take_take, List.drop_take, afterTag]
    · rw [if_neg hSecond, if_neg hSecond]
  · rw [if_neg hTagged, if_neg hTagged]

/-- A text is told as its bytes are just when its cuts leave enough of it. -/
theorem detectMediaType_agrees_iff (topLevelType : Option String) (data : String) (bytes : List UInt8)
    (h : convertBase64ToUint8Array data = some bytes) :
    detectMediaType (.base64 data) topLevelType = detectMediaType (.bytes bytes) topLevelType ↔
      (isKnownTopLevel topLevelType = true → CutsSuffice topLevelType (units data) bytes) := by
  by_cases hKnown : isKnownTopLevel topLevelType = true
  · rw [detectMediaType_bytes, if_pos hKnown, CutsSuffice]
    simp only [hKnown, true_imp_iff]
    by_cases hStands : CutStands (unitsFor DEFAULT_SNIFF_BYTES) (units data)
    · simp only [hStands, true_and]
      rw [detectMediaType_text hKnown h hStands]
      by_cases hTag : hasId3Tag bytes = true
      · by_cases hShort : covered (unitsFor DEFAULT_SNIFF_BYTES) (units data) ≤ 10
        · simp only [hTag, true_and, hShort, if_true, Nat.not_lt.mpr hShort, if_false, signatureOf_tagged _ hTag]
          simp [eq_comm]
        · simp only [hTag, true_and, hShort, if_true, Nat.lt_of_not_le hShort, if_false]
          by_cases hSecond : CutStands (unitsFor (MAX_ID3_TAG_BYTES + MAX_SIGNATURE_BYTES)) (units data)
          · simp only [hSecond, if_true, true_and, Except.ok.injEq, mediaType_take_iff]
            refine forall₂_congr fun signature hFound => ?_
            have hSome := (signatureOf_length hFound).1
            omega
          · simp [hSecond]
      · rw [if_neg fun hBoth => hTag hBoth.1, if_neg hTag, if_neg hTag, Except.ok.injEq]
        exact mediaType_take_iff _ _ _
    · have hSniffed : detectMediaType (.base64 data) topLevelType =
          .error (.invalidArgument "invalid base64 data" none) := by
        rw [detectMediaType, if_pos hKnown, decodePrefix_text h, if_neg hStands]
        rfl
      simp [hSniffed, hStands]
  · rw [detectMediaType, detectMediaType, if_neg hKnown, if_neg hKnown]
    simp [hKnown]

theorem detectMediaType_agrees_line :
    detectMediaType (.base64 "iVBORw0K\nGgo=") (some "image") =
      detectMediaType (.bytes [0x89, 0x50, 0x4e, 0x47, 0x0d, 0x0a, 0x1a, 0x0a]) (some "image") :=
  (detectMediaType_agrees_iff (some "image") "iVBORw0K\nGgo=" [0x89, 0x50, 0x4e, 0x47, 0x0d, 0x0a, 0x1a, 0x0a]
    (by decide +kernel)).mpr (by unfold CutsSuffice; decide +kernel)

/-- Three blanks leave one letter too many before the cut, and twenty leave three bytes. -/
theorem detectMediaType_blanks :
    let bytes : List UInt8 :=
      [0x89, 0x50, 0x4e, 0x47, 0x0d, 0x0a, 0x1a, 0x0a, 0, 0, 0, 0x0d, 0x49, 0x48, 0x44, 0x52, 0, 0]
    convertBase64ToUint8Array "   iVBORw0KGgoAAAANSUhEUgAA" = some bytes ∧
      convertBase64ToUint8Array "                    iVBORw0KGgoAAAANSUhEUgAA" = some bytes ∧
      detectMediaType (.bytes bytes) (some "image") = .ok (some "image/png") ∧
      detectMediaType (.base64 "   iVBORw0KGgoAAAANSUhEUgAA") (some "image") =
        .error (.invalidArgument "invalid base64 data" none) ∧
      detectMediaType (.base64 "                    iVBORw0KGgoAAAANSUhEUgAA") (some "image") = .ok none := by
  refine ⟨by decide +kernel, by decide +kernel, rfl, rfl, rfl⟩

end Aimux.Wire
