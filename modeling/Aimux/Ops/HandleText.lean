import Aimux.Lib.Regex
import Aimux.Lib.Numerals

/-! # Texts of handles

A handle crosses the boundary as a decimal text, so that a JavaScript host does not round it. The schema
describes such a text by a pattern that is generated from the greatest number.
-/

namespace Aimux.Ops

open Aimux.Lib Aimux.Lib.Rfc8259

structure HandleId where
  id : UInt64
deriving DecidableEq

namespace HandleId

/-- What `Serialize` writes. -/
def text (handle : HandleId) : String := toString handle.id.toNat

/-- `u64::from_str`, of digits. -/
def parseU64 (digits : List Char) : Except String UInt64 :=
  if h : value digits < 2 ^ 64 then .ok (UInt64.ofNatLT (value digits) h)
  else .error "number too large to fit in target type"

/-- The one handle-id rule: a decimal string that fits u64. -/
def fromStr (text : String) : Except String HandleId :=
  if text.isEmpty || !text.toList.all Char.isDigit then .error "expected a decimal handle string"
  else (parseU64 text.toList).map HandleId.mk

/-! ## The pattern -/

/-- The least digit at a place. -/
def minimum (i : Nat) : Char := if i = 0 then '1' else '0'

/-- The digit before. -/
def before (digit : Char) : Char := Char.ofNat (digit.toNat - 1)

/-- Decimal strings in the u64 range, without leading zeroes. -/
def decimalU64Pattern : String :=
  let maximum := toString (2 ^ 64 - 1)
  let alternatives := ["0", "[1-9][0-9]\x7b0,18\x7d"] ++
    (maximum.toList.zipIdx.filterMap fun (digit, i) =>
      if minimum i < digit then
        some (String.ofList (maximum.toList.take i) ++ "[" ++ String.singleton (minimum i) ++ "-" ++
          String.singleton (before digit) ++ "][0-9]\x7b" ++ toString (maximum.length - i - 1) ++ "\x7d")
      else none) ++ [maximum]
  "^(" ++ String.intercalate "|" alternatives ++ ")$"

/-! ## What the pattern says -/

open Regex

def digit : Regex := .oneOf false [('0', '9')]

/-- The numerals that agree with the maximum before a place and are below it there. -/
def belowAt (maximum : List Char) (place : Char × Nat) : Option (List Regex) :=
  if minimum place.2 < place.1 then
    some ((maximum.take place.2).map literal ++ [Regex.oneOf false [(minimum place.2, before place.1)],
      .repeated digit (maximum.length - place.2 - 1) (some (maximum.length - place.2 - 1))])
  else none

def alternatives (maximum : List Char) : List (List Regex) :=
  [[literal '0'], [.oneOf false [('1', '9')], .repeated digit 0 (some 18)]] ++
    (maximum.zipIdx.filterMap (belowAt maximum) ++ [maximum.map literal])

theorem toString_toList (n : Nat) : (toString n).toList = Nat.toDigits 10 n := by
  rw [Nat.toString_eq_ofList_toDigits, String.toList_ofList]

/-- The numerals below the maximum at a place, as the pattern writes them. -/
def writtenBelow (maximum : List Char) (place : Char × Nat) : Option (List Char) :=
  if minimum place.2 < place.1 then
    some (maximum.take place.2 ++ ['[', minimum place.2, '-', before place.1, ']', '[', '0', '-', '9', ']', '\x7b'] ++
      Nat.toDigits 10 (maximum.length - place.2 - 1) ++ ['\x7d'])
  else none

theorem toList_pattern : decimalU64Pattern.toList =
    ['^', '('] ++ ['|'].intercalate ([['0'], "[1-9][0-9]\x7b0,18\x7d".toList] ++
      (Nat.toDigits 10 (2 ^ 64 - 1)).zipIdx.filterMap (writtenBelow (Nat.toDigits 10 (2 ^ 64 - 1))) ++
        [Nat.toDigits 10 (2 ^ 64 - 1)]) ++ [')', '$'] := by
  have hMaximum : (toString (2 ^ 64 - 1)).toList = Nat.toDigits 10 (2 ^ 64 - 1) := toString_toList _
  have hLength : (toString (2 ^ 64 - 1)).length = (Nat.toDigits 10 (2 ^ 64 - 1)).length := by
    rw [← String.length_toList, hMaximum]
  have hBelow (place : Char × Nat) : (if minimum place.2 < place.1 then
        some (String.ofList ((Nat.toDigits 10 (2 ^ 64 - 1)).take place.2) ++ "[" ++ String.singleton (minimum place.2) ++
          "-" ++ String.singleton (before place.1) ++ "][0-9]\x7b" ++
          toString ((Nat.toDigits 10 (2 ^ 64 - 1)).length - place.2 - 1) ++ "\x7d")
      else none).map String.toList = writtenBelow (Nat.toDigits 10 (2 ^ 64 - 1)) place := by
    rw [writtenBelow]
    split
    · simp only [Option.map_some, String.toList_append, String.toList_ofList, String.toList_singleton, toString_toList,
        List.append_assoc]
      rfl
    · rfl
  rw [decimalU64Pattern]
  dsimp only
  rw [hMaximum, hLength, String.toList_append, String.toList_append, String.toList_intercalate, List.map_append,
    List.map_append, List.map_filterMap, List.map_singleton, hMaximum]
  rw [List.filterMap_congr fun place _ => hBelow place]
  rfl

theorem parse_pattern : parse decimalU64Pattern =
    some (seqOf [.start, altOf ((alternatives (Nat.toDigits 10 (2 ^ 64 - 1))).map seqOf), .stop]) := by
  rw [parse, ← String.length_toList, toList_pattern]
  decide +kernel

theorem le_iff_code {c d : Char} : c ≤ d ↔ c.toNat ≤ d.toNat := Iff.rfl

theorem inRanges_single {first last c : Char} :
    inRanges [(first, last)] c = true ↔ first.toNat ≤ c.toNat ∧ c.toNat ≤ last.toNat := by
  simp only [inRanges, List.any_cons, List.any_nil, Bool.or_false, Bool.and_eq_true, decide_eq_true_eq, le_iff_code]

theorem inRanges_digit {c : Char} : inRanges [('0', '9')] c = true ↔ c.isDigit = true := by
  rw [inRanges_single]
  constructor
  · rintro ⟨hLow, hHigh⟩
    simp only [Char.isDigit, Bool.and_eq_true, decide_eq_true_eq]
    exact ⟨hLow, hHigh⟩
  · exact digit_bounds

theorem inRanges_nonzero {c : Char} : inRanges [('1', '9')] c = true ↔ c.isDigit = true ∧ c ≠ '0' := by
  rw [inRanges_single]
  constructor
  · rintro ⟨hLow, hHigh⟩
    refine ⟨inRanges_digit.mp (inRanges_single.mpr ⟨le_trans (by decide) hLow, hHigh⟩), ?_⟩
    rintro rfl
    exact absurd hLow (by decide)
  · rintro ⟨hDigit, hZero⟩
    exact ⟨digit_ne_zero hDigit hZero, (digit_bounds hDigit).2⟩

theorem before_code {c : Char} (h : c.isDigit = true) : (before c).toNat = c.toNat - 1 := by
  have hBounds := digit_bounds h
  rw [before, Char.toNat_ofNat, if_pos (.inl (by omega))]

/-- So many digits. -/
theorem matches_digits {least : Nat} {most : Option Nat} {front text : List Char} :
    Matches (seqOf [.repeated digit least most]) front text [] ↔
      Digits text ∧ least ≤ text.length ∧ ∀ n ∈ most, text.length ≤ n := by
  simp only [seqOf, List.foldr_cons, List.foldr_nil, matches_seq, matches_empty]
  constructor
  · rintro ⟨a, b, rfl, hRepeated, rfl⟩
    obtain ⟨hLeast, hMost, hAll⟩ := matches_repeated_oneOf.mp hRepeated
    rw [List.append_nil]
    exact ⟨fun c hC => inRanges_digit.mp (hAll c hC), hLeast, hMost⟩
  · rintro ⟨hDigits, hLeast, hMost⟩
    exact ⟨text, [], (List.append_nil text).symm,
      matches_repeated_oneOf.mpr ⟨hLeast, hMost, fun c hC => inRanges_digit.mpr (hDigits c hC)⟩, rfl⟩

theorem matches_first {ranges : List (Char × Char)} {parts : List Regex} {front text : List Char} :
    Matches (seqOf (.oneOf false ranges :: parts)) front text [] ↔
      ∃ c rest, text = c :: rest ∧ inRanges ranges c = true ∧ Matches (seqOf parts) (front ++ [c]) rest [] := by
  rw [seqOf, List.foldr_cons, matches_seq]
  constructor
  · rintro ⟨a, b, rfl, hFirst, hRest⟩
    obtain ⟨c, rfl, hIn⟩ := matches_oneOf.mp hFirst
    exact ⟨c, b, rfl, hIn, hRest⟩
  · rintro ⟨c, rest, rfl, hIn, hRest⟩
    exact ⟨[c], rest, rfl, .oneOf hIn, hRest⟩

/-! ## The alternatives are the numerals up to the maximum -/

section

variable {maximum text : List Char}

theorem matches_zero : Matches (seqOf [literal '0']) [] text [] ↔ text = ['0'] := by
  rw [literal, matches_first]
  constructor
  · rintro ⟨c, rest, rfl, hIn, hRest⟩
    obtain ⟨hLow, hHigh⟩ := inRanges_single.mp hIn
    obtain rfl : c = '0' := Char.toNat_inj.mp (le_antisymm hHigh hLow)
    rw [matches_empty.mp hRest]
  · rintro rfl
    exact ⟨'0', [], rfl, by decide, .empty⟩

theorem matches_short :
    Matches (seqOf [.oneOf false [('1', '9')], .repeated digit 0 (some 18)]) [] text [] ↔
      Integer text ∧ text ≠ ['0'] ∧ text.length ≤ 19 := by
  rw [matches_first]
  constructor
  · rintro ⟨c, rest, rfl, hIn, hRest⟩
    obtain ⟨hFirst, hZero⟩ := inRanges_nonzero.mp hIn
    obtain ⟨hDigits, -, hMost⟩ := matches_digits.mp hRest
    refine ⟨.digits hFirst hZero hDigits, ?_, Nat.succ_le_succ (hMost 18 rfl)⟩
    rintro ⟨⟩
    exact hZero rfl
  · rintro ⟨hInteger, hNotZero, hLength⟩
    cases hInteger with
    | zero => exact absurd rfl hNotZero
    | digits hFirst hZero hDigits =>
      refine ⟨_, _, rfl, inRanges_nonzero.mpr ⟨hFirst, hZero⟩,
        matches_digits.mpr ⟨hDigits, Nat.zero_le _, ?_⟩⟩
      rintro n ⟨⟩
      exact Nat.le_of_succ_le_succ hLength

theorem matches_below {i : Nat} {d : Char} (hPlace : maximum[i]? = some d) (hDigit : d.isDigit = true) :
    Matches (seqOf ((maximum.take i).map literal ++ [Regex.oneOf false [(minimum i, before d)],
      .repeated digit (maximum.length - i - 1) (some (maximum.length - i - 1))])) [] text [] ↔
    ∃ c rest, text = maximum.take i ++ c :: rest ∧ (minimum i).toNat ≤ c.toNat ∧ c.toNat < d.toNat ∧
      Digits rest ∧ text.length = maximum.length := by
  have hLess : i < maximum.length := (List.getElem?_eq_some_iff.mp hPlace).1
  have hBounds := digit_bounds hDigit
  rw [matches_word]
  constructor
  · rintro ⟨rest, rfl, hRest⟩
    obtain ⟨c, rest, rfl, hIn, hDigits⟩ := matches_first.mp hRest
    obtain ⟨hLow, hHigh⟩ := inRanges_single.mp hIn
    obtain ⟨hDigits, hLeast, hMost⟩ := matches_digits.mp hDigits
    have hLe := hMost _ rfl
    rw [before_code hDigit] at hHigh
    refine ⟨c, rest, rfl, hLow, by omega, hDigits, ?_⟩
    rw [List.length_append, List.length_take, List.length_cons]
    omega
  · rintro ⟨c, rest, rfl, hLow, hHigh, hDigits, hLength⟩
    rw [List.length_append, List.length_take, List.length_cons] at hLength
    refine ⟨c :: rest, rfl, matches_first.mpr ⟨c, rest, rfl, inRanges_single.mpr ⟨hLow, ?_⟩,
      matches_digits.mpr ⟨hDigits, by omega, ?_⟩⟩⟩
    · rw [before_code hDigit]
      omega
    · rintro n ⟨⟩
      omega

theorem matches_itself : Matches (seqOf (maximum.map literal)) [] text [] ↔ text = maximum := by
  have hWord := @matches_word maximum [] [] text []
  rw [List.append_nil] at hWord
  rw [hWord]
  constructor
  · rintro ⟨rest, rfl, hRest⟩
    rw [matches_empty.mp hRest, List.append_nil]
  · rintro rfl
    exact ⟨[], (List.append_nil text).symm, .empty⟩

/-- The first digit of a numeral of more than one digit is none of the zeros. -/
theorem minimum_le (hText : Integer text) (hLong : 1 < text.length) {same cs : List Char} {c : Char}
    (hEq : text = same ++ c :: cs) : (minimum same.length).toNat ≤ c.toNat := by
  cases same with
  | nil =>
    subst hEq
    cases hText with
    | zero => exact absurd hLong (lt_irrefl 1)
    | digits hFirst hZero _ => exact digit_ne_zero hFirst hZero
  | cons first same =>
    have hDigit : c.isDigit = true := digits_of_integer hText c (by simp [hEq])
    exact (digit_bounds hDigit).1

theorem integer_of_minimum (hMaximum : Integer maximum) (hLong : 1 < maximum.length) {same cs ds : List Char}
    {c d : Char} (hEq : maximum = same ++ d :: ds) (hLow : (minimum same.length).toNat ≤ c.toNat)
    (hHigh : c.toNat < d.toNat) (hDigits : Digits cs) : Integer (same ++ c :: cs) := by
  have hAll := digits_of_integer hMaximum
  have hTop : d.toNat ≤ 57 := (digit_bounds (hAll d (by simp [hEq]))).2
  cases same with
  | nil =>
    obtain ⟨hDigit, hZero⟩ := inRanges_nonzero.mp (inRanges_single.mpr ⟨hLow, hHigh.le.trans hTop⟩)
    exact .digits hDigit hZero hDigits
  | cons first same =>
    subst hEq
    have hDigit : c.isDigit = true := inRanges_digit.mp (inRanges_single.mpr ⟨hLow, hHigh.le.trans hTop⟩)
    obtain ⟨hFirst, hZero, hRest⟩ := first_of_integer hMaximum (by simp)
    refine .digits hFirst hZero fun e hE => ?_
    rcases List.mem_append.mp hE with hSame | hTail
    · exact hRest e (List.mem_append_left _ hSame)
    · rcases List.mem_cons.mp hTail with rfl | hIn
      · exact hDigit
      · exact hDigits e hIn

/-- A numeral below the maximum is caught at the first place where it differs. -/
theorem below_caught (hMaximum : Integer maximum) (hLong : 1 < maximum.length) (hText : Integer text)
    (hLength : text.length = maximum.length) (hBelow : Below text maximum) :
    ∃ parts ∈ maximum.zipIdx.filterMap (belowAt maximum), Matches (seqOf parts) [] text [] := by
  obtain ⟨same, hLess⟩ := hBelow
  rename_i c d cs ds
  have hPlace : (same ++ d :: ds)[same.length]? = some d := by simp
  have hDigit : d.isDigit = true := digits_of_integer hMaximum d (by simp)
  have hLow := minimum_le hText (by omega) rfl
  have hMinimum : minimum same.length < d := lt_of_le_of_lt (le_iff_code.mpr hLow) hLess
  refine ⟨_, List.mem_filterMap.mpr ⟨(d, same.length), List.mem_zipIdx_iff_getElem?.mpr hPlace, if_pos hMinimum⟩,
    (matches_below hPlace hDigit).mpr ⟨c, cs, ?_, hLow, hLess, ?_, hLength⟩⟩
  · rw [List.take_left]
  · exact fun e hE => digits_of_integer hText e (by simp [hE])

/-- What is caught at a place is a numeral of the length of the maximum, and below it. -/
theorem caught_below (hMaximum : Integer maximum) (hLong : 1 < maximum.length) {parts : List Regex}
    (hParts : parts ∈ maximum.zipIdx.filterMap (belowAt maximum)) (hMatches : Matches (seqOf parts) [] text []) :
    Integer text ∧ text.length = maximum.length ∧ Below text maximum := by
  obtain ⟨⟨d, i⟩, hPlace, hSome⟩ := List.mem_filterMap.mp hParts
  rw [List.mem_zipIdx_iff_getElem?] at hPlace
  have hDigit : d.isDigit = true := digits_of_integer hMaximum d (List.mem_of_getElem? hPlace)
  rw [belowAt] at hSome
  dsimp only at hPlace hDigit hSome
  split at hSome
  · cases hSome
    obtain ⟨c, rest, rfl, hLow, hHigh, hDigits, hLength⟩ := (matches_below hPlace hDigit).mp hMatches
    obtain ⟨hInside, hGet⟩ := List.getElem?_eq_some_iff.mp hPlace
    have hSplit : maximum = maximum.take i ++ d :: maximum.drop (i + 1) := by
      rw [← hGet, List.getElem_cons_drop, List.take_append_drop]
    have hPlaceLength : (maximum.take i).length = i := List.length_take_of_le hInside.le
    have hBelow : Below (maximum.take i ++ c :: rest) (maximum.take i ++ d :: maximum.drop (i + 1)) :=
      .mk (maximum.take i) hHigh
    rw [← hSplit] at hBelow
    refine ⟨integer_of_minimum hMaximum hLong hSplit ?_ hHigh hDigits, hLength, hBelow⟩
    rwa [hPlaceLength]
  · cases hSome

theorem alternatives_iff (hMaximum : Integer maximum) (hLength : maximum.length = 20) :
    (∃ parts ∈ alternatives maximum, Matches (seqOf parts) [] text []) ↔
      Integer text ∧ value text ≤ value maximum := by
  have hLong : 1 < maximum.length := by omega
  have hDigits := digits_of_integer hMaximum
  have hGreat : 10 ^ 19 ≤ value maximum := by
    cases hMaximum with
    | zero => cases hLength
    | digits hFirst hZero _ =>
      rw [← Nat.succ.inj hLength]
      exact le_value_of_integer hFirst hZero
  simp only [alternatives, List.mem_append, List.mem_cons, List.not_mem_nil, or_false]
  constructor
  · rintro ⟨parts, (rfl | rfl) | hBelow | rfl, hMatches⟩
    · obtain rfl := matches_zero.mp hMatches
      exact ⟨.zero, Nat.zero_le _⟩
    · obtain ⟨hInteger, -, hShort⟩ := matches_short.mp hMatches
      have hLess := value_lt (digits_of_integer hInteger)
      have hPower : 10 ^ text.length ≤ 10 ^ 19 := Nat.pow_le_pow_right (by decide) hShort
      exact ⟨hInteger, (hLess.trans_le (hPower.trans hGreat)).le⟩
    · obtain ⟨hInteger, hSame, hLess⟩ := caught_below hMaximum hLong hBelow hMatches
      exact ⟨hInteger, (hLess.lt (digits_of_integer hInteger) hDigits hSame).le⟩
    · rw [matches_itself.mp hMatches]
      exact ⟨hMaximum, le_rfl⟩
  · rintro ⟨hInteger, hLe⟩
    have hText := digits_of_integer hInteger
    by_cases hZero : text = ['0']
    · exact ⟨_, .inl (.inl rfl), matches_zero.mpr hZero⟩
    rcases Nat.lt_trichotomy text.length 20 with hShort | hSame | hLonger
    · exact ⟨_, .inl (.inr rfl), matches_short.mpr ⟨hInteger, hZero, Nat.le_of_lt_succ hShort⟩⟩
    · rw [← hLength] at hSame
      rcases Nat.lt_or_eq_of_le hLe with hLess | hEqual
      · obtain ⟨parts, hParts, hMatches⟩ :=
          below_caught hMaximum hLong hInteger hSame (below_of_lt hText hDigits hSame hLess)
        exact ⟨parts, .inr (.inl hParts), hMatches⟩
      · exact ⟨_, .inr (.inr rfl), matches_itself.mpr (value_inj hText hDigits hSame hEqual)⟩
    · cases hInteger with
      | zero => exact absurd rfl hZero
      | @digits c cs hFirst hNotZero _ =>
        have hMore : 10 ^ cs.length ≤ value (c :: cs) := le_value_of_integer hFirst hNotZero
        have hLess := value_lt hDigits
        have hPower := Nat.pow_le_pow_right (by decide : 0 < 10) (Nat.le_of_lt_succ hLonger)
        rw [hLength] at hLess
        omega

end

/-! ## Reading and writing -/

theorem accepts_iff (text : String) :
    Accepts decimalU64Pattern text ↔ Integer text.toList ∧ value text.toList ≤ 2 ^ 64 - 1 := by
  have hLength : (Nat.toDigits 10 (2 ^ 64 - 1)).length = 20 := by decide +kernel
  have hIff := @alternatives_iff _ text.toList (integer_toDigits (2 ^ 64 - 1)) hLength
  rw [value_toDigits] at hIff
  rw [← hIff]
  have hSome : (alternatives (Nat.toDigits 10 (2 ^ 64 - 1))).map seqOf ≠ [] := by simp [alternatives]
  have hMatches := @matches_altOf _ hSome [] text.toList []
  simp only [List.mem_map, exists_exists_and_eq_and] at hMatches
  rw [← hMatches, ← matches_anchored, Accepts, parse_pattern]
  constructor
  · rintro ⟨regex, front, matched, after, hParsed, hText, hMatch⟩
    cases hParsed
    exact ⟨front, matched, after, hText, hMatch⟩
  · rintro ⟨front, matched, after, hText, hMatch⟩
    exact ⟨_, front, matched, after, rfl, hText, hMatch⟩

theorem fromStr_eq_ok {text : String} {handle : HandleId} :
    fromStr text = .ok handle ↔
      text.toList ≠ [] ∧ Digits text.toList ∧ value text.toList = handle.id.toNat := by
  obtain ⟨id⟩ := handle
  rw [fromStr]
  split
  · rename_i hRefused
    constructor
    · rintro ⟨⟩
    · rintro ⟨hSome, hDigits, -⟩
      have hAll : text.toList.all Char.isDigit = true := List.all_eq_true.mpr hDigits
      rw [hAll, Bool.not_true, Bool.or_false, String.isEmpty_iff] at hRefused
      exact absurd (by rw [hRefused]; rfl) hSome
  · rename_i hRead
    simp only [Bool.or_eq_true, Bool.not_eq_true', not_or, Bool.not_eq_false, String.isEmpty_iff,
      List.all_eq_true] at hRead
    obtain ⟨hSome, hDigits⟩ := hRead
    have hNotNil : text.toList ≠ [] := fun h => hSome (String.toList_inj.mp h)
    rw [parseU64]
    split
    · rename_i hFits
      rw [Except.map, Except.ok.injEq, HandleId.mk.injEq, ← UInt64.toNat_inj, UInt64.toNat_ofNatLT]
      exact ⟨fun hValue => ⟨hNotNil, hDigits, hValue⟩, fun h => h.2.2⟩
    · rename_i hLarge
      constructor
      · rintro ⟨⟩
      · rintro ⟨-, -, hValue⟩
        exact absurd (hValue ▸ id.toNat_lt) hLarge

/-- Digits are the text of their value after some zeros. -/
theorem digits_eq_zeros {digits : List Char} (hSome : digits ≠ []) (hDigits : Digits digits) :
    ∃ zeros, digits = List.replicate zeros '0' ++ Nat.toDigits 10 (value digits) := by
  induction digits with
  | nil => exact absurd rfl hSome
  | cons c cs ih =>
    have hRest : Digits cs := fun d hD => hDigits d (List.mem_cons_of_mem _ hD)
    by_cases hZero : c = '0'
    · subst hZero
      cases cs with
      | nil => exact ⟨0, rfl⟩
      | cons d ds =>
        obtain ⟨zeros, hEq⟩ := ih (List.cons_ne_nil _ _) hRest
        refine ⟨zeros + 1, ?_⟩
        have hValue : value ('0' :: d :: ds) = value (d :: ds) := by simp [value_cons]
        rw [hValue, List.replicate_succ, List.cons_append, ← hEq]
    · exact ⟨0, (toDigits_value (.digits (hDigits c List.mem_cons_self) hZero hRest)).symm⟩

/-- Every text a handle writes is read as that handle. What is read is a numeral, with any number of leading
zeros, of a number that fits, and the pattern is that of the numerals without leading zeros. -/
theorem handle_text :
    (∀ handle : HandleId, fromStr handle.text = .ok handle) ∧
    (∀ (text : String) (handle : HandleId), fromStr text = .ok handle →
      handle.id.toNat ≤ 2 ^ 64 - 1 ∧
        ∃ zeros, text.toList = List.replicate zeros '0' ++ Nat.toDigits 10 handle.id.toNat) ∧
    ∀ text : String, Accepts decimalU64Pattern text ↔ ∃ n, n ≤ 2 ^ 64 - 1 ∧ text = toString n := by
  refine ⟨fun handle => ?_, fun text handle hRead => ?_, fun text => ?_⟩
  · rw [fromStr_eq_ok, text, toString_toList]
    exact ⟨Nat.toDigits_ne_nil, digits_toDigits _, value_toDigits _⟩
  · obtain ⟨hSome, hDigits, hValue⟩ := fromStr_eq_ok.mp hRead
    refine ⟨Nat.le_of_lt_succ handle.id.toNat_lt, ?_⟩
    rw [← hValue]
    exact digits_eq_zeros hSome hDigits
  · rw [accepts_iff, integer_iff]
    constructor
    · rintro ⟨hInteger, hLe⟩
      exact ⟨_, hLe, String.toList_inj.mp (hInteger.trans (toString_toList _).symm)⟩
    · rintro ⟨n, hLe, rfl⟩
      rw [toString_toList, value_toDigits]
      exact ⟨rfl, hLe⟩

theorem zero_read : ¬ ∀ (text : String) (handle : HandleId), fromStr text = .ok handle → handle.id ≠ 0 :=
  fun h => h "0" ⟨0⟩ (by decide +kernel) rfl

end HandleId

end Aimux.Ops
