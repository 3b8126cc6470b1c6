import Aimux.Core.JsonReader

/-! # What is written is read back

Strings, null and objects; the names of an object's fields differ.
-/

namespace Aimux.Core

open Aimux.Lib.Rfc8259 (isSpace Spaces takeWhile_append_stop)

/-! ## What a string's text stands for -/

def hexDigitValue (c : Char) : Option Nat :=
  if c.isDigit then some (c.toNat - 48)
  else if 'a' ≤ c ∧ c ≤ 'f' then some (c.toNat - 87)
  else if 'A' ≤ c ∧ c ≤ 'F' then some (c.toNat - 55)
  else none

/-- The code unit of four hexadecimal digits. -/
def codeUnit (a b c d : Char) : Option Nat := do
  let a ← hexDigitValue a
  let b ← hexDigitValue b
  let c ← hexDigitValue c
  let d ← hexDigitValue d
  return ((a * 16 + b) * 16 + c) * 16 + d

def shortEscape : Char → Option Char
  | '"' => some '"'
  | '\\' => some '\\'
  | '/' => some '/'
  | 'b' => some (Char.ofNat 0x08)
  | 'f' => some (Char.ofNat 0x0C)
  | 'n' => some '\n'
  | 'r' => some '\r'
  | 't' => some '\t'
  | _ => none

/-- Two surrogates stand for one character; one alone stands for none. -/
def unescape : List Char → Option (List Char)
  | [] => some []
  | c :: rest =>
    if c = '\\' then
      match rest with
      | 'u' :: a :: b :: c :: d :: rest =>
        (codeUnit a b c d).bind fun unit =>
          if 0xD800 ≤ unit ∧ unit < 0xDC00 then
            match rest with
            | '\\' :: 'u' :: a :: b :: c :: d :: rest =>
              (codeUnit a b c d).bind fun low =>
                if 0xDC00 ≤ low ∧ low < 0xE000 then
                  (unescape rest).map (Char.ofNat (0x10000 + (unit - 0xD800) * 0x400 + (low - 0xDC00)) :: ·)
                else none
            | _ => none
          else if 0xDC00 ≤ unit ∧ unit < 0xE000 then none
          else (unescape rest).map (Char.ofNat unit :: ·)
      | escaped :: rest => (shortEscape escaped).bind fun c => (unescape rest).map (c :: ·)
      | [] => none
    else if c.toNat < 0x20 then none
    else (unescape rest).map (c :: ·)

variable {c : Char}

theorem unescape_plain (hBackslash : c ≠ '\\') (hControl : ¬c.toNat < 0x20) (rest : List Char) :
    unescape (c :: rest) = (unescape rest).map (c :: ·) := by
  rw [unescape.eq_def]
  simp only [if_neg hBackslash, if_neg hControl]

theorem unescape_unit {a b d : Char} {unit : Nat} (hUnit : codeUnit a b c d = some unit) (hSmall : unit < 0xD800)
    (rest : List Char) :
    unescape ('\\' :: 'u' :: a :: b :: c :: d :: rest) = (unescape rest).map (Char.ofNat unit :: ·) := by
  rw [unescape.eq_def]
  simp only [if_true, hUnit, Option.bind_some]
  rw [if_neg (by omega), if_neg (by omega)]

theorem escapeChar_plain (hControl : ¬c.toNat < 0x20) (hQuote : c ≠ '"') (hBackslash : c ≠ '\\') :
    escapeChar c = [c] := by
  have hChar : c = Char.ofNat c.toNat := (Char.ofNat_toNat c).symm
  have hNotQuote : c.toNat ≠ 0x22 := fun h => hQuote (by rw [hChar, h])
  have hNotBackslash : c.toNat ≠ 0x5C := fun h => hBackslash (by rw [hChar, h])
  rw [escapeChar]
  split <;> first | omega | exact if_neg hControl

theorem unescape_escapeChar (c : Char) (rest : List Char) :
    unescape (escapeChar c ++ rest) = (unescape rest).map (c :: ·) := by
  have hChar : c = Char.ofNat c.toNat := (Char.ofNat_toNat c).symm
  by_cases hControl : c.toNat < 0x20
  · generalize c.toNat = code at hChar hControl
    subst hChar
    interval_cases code <;> first | rfl | exact unescape_unit (by decide) (by decide) rest
  · by_cases hQuote : c = '"'
    · subst hQuote
      rfl
    by_cases hBackslash : c = '\\'
    · subst hBackslash
      rfl
    rw [escapeChar_plain hControl hQuote hBackslash, List.singleton_append, unescape_plain hBackslash hControl]

theorem unescape_escape (text : List Char) : unescape (escape text) = some text := by
  induction text with
  | nil => rfl
  | cons c text ih =>
    have hCons : escape (c :: text) = escapeChar c ++ escape text := List.flatMap_cons
    rw [hCons, unescape_escapeChar, ih, Option.map_some]

/-- The reading of strings, with a reading of numerals. -/
def jsonLeaves (number : List Char → Option JsonNumber) : Leaves where
  number := number
  text body := (unescape body).map String.ofList

theorem splitString_escapeChar (c : Char) (rest : List Char) :
    splitString (escapeChar c ++ rest) = (splitString rest).map fun found => (escapeChar c ++ found.1, found.2) := by
  have hChar : c = Char.ofNat c.toNat := (Char.ofNat_toNat c).symm
  by_cases hControl : c.toNat < 0x20
  · generalize c.toNat = code at hChar hControl
    subst hChar
    interval_cases code <;>
      simp [escapeChar, splitString_escape, splitString_plain, Nat.digitChar, Option.map_map, Function.comp_def]
  · by_cases hQuote : c = '"'
    · subst hQuote
      exact splitString_escape '"' rest
    by_cases hBackslash : c = '\\'
    · subst hBackslash
      exact splitString_escape '\\' rest
    rw [escapeChar_plain hControl hQuote hBackslash]
    exact splitString_plain hQuote hBackslash rest

theorem splitString_written (text rest : List Char) :
    splitString (escape text ++ '"' :: rest) = some (escape text, rest) := by
  induction text with
  | nil => exact splitString_quote rest
  | cons c text ih =>
    have hCons : escape (c :: text) = escapeChar c ++ escape text := List.flatMap_cons
    rw [hCons, List.append_assoc, splitString_escapeChar, ih, Option.map_some]

/-! ## Values -/

/-- The text is read as the value, whatever comes after it that a word cannot go on with. -/
structure ReadsBack (leaves : Leaves) (text : List Char) (value : Json) : Prop where
  first : ∃ c cs, text = c :: cs ∧ isSpace c = false
  read : ∃ least, ∀ fuel, least ≤ fuel → ∀ more : List Char, (∀ c ∈ more.head?, isScalarChar c = false) →
    readValue leaves fuel (text ++ more) = some (value, more)

section

variable {leaves : Leaves}

theorem skipSpaces_of_first (hFirst : isSpace c = false) (cs : List Char) :
    skipSpaces (c :: cs) = c :: cs := by
  rw [skipSpaces, List.dropWhile_cons_of_neg (by rw [hFirst]; exact Bool.false_ne_true)]

theorem ReadsBack.skipSpaces {text : List Char} {value : Json} (h : ReadsBack leaves text value) (more : List Char) :
    skipSpaces (text ++ more) = text ++ more := by
  obtain ⟨c, cs, rfl, hFirst⟩ := h.first
  exact skipSpaces_of_first hFirst (cs ++ more)

theorem ReadsBack.reads {text : List Char} {value : Json} (h : ReadsBack leaves text value) :
    Reads leaves text value := by
  obtain ⟨least, hRead⟩ := h.read
  have hNone := hRead least le_rfl [] fun _ hNone => nomatch hNone
  have hSkip := h.skipSpaces []
  rw [List.append_nil] at hNone hSkip
  exact ⟨least, [], by rw [hSkip, hNone], fun _ hNone => nomatch hNone⟩

theorem expect_first {mark : Char} (hMark : isSpace mark = false) (cs : List Char) : expect mark (mark :: cs) = some cs := by
  rw [expect, skipSpaces_of_first hMark]
  exact if_pos rfl

theorem expect_other {mark : Char} (hFirst : isSpace c = false) (hMark : c ≠ mark) (cs : List Char) :
    expect mark (c :: cs) = none := by
  rw [expect, skipSpaces_of_first hFirst]
  exact if_neg hMark

theorem readsBack_null : ReadsBack leaves "null".toList .null where
  first := ⟨'n', _, rfl, rfl⟩
  read := by
    refine ⟨1, fun fuel hFuel more hMore => ?_⟩
    obtain ⟨fuel, rfl⟩ : ∃ less, fuel = less + 1 := ⟨fuel - 1, by omega⟩
    have hStop : more.takeWhile isScalarChar = [] ∧ more.dropWhile isScalarChar = more := by
      cases more with
      | nil => exact ⟨rfl, rfl⟩
      | cons c more => simp [hMore c rfl]
    have hWord : ∀ c ∈ "null".toList, isScalarChar c = true := by
      simp [isScalarChar, Char.isAlphanum, Char.isAlpha, Char.isUpper, Char.isLower]
    have hTake : ("null".toList ++ more).takeWhile isScalarChar = "null".toList := by
      rw [List.takeWhile_append_of_pos hWord, hStop.1, List.append_nil]
    have hDrop : ("null".toList ++ more).dropWhile isScalarChar = more := by
      rw [List.dropWhile_append_of_pos hWord, hStop.2]
    have hRead : readValue leaves (fuel + 1) ("null".toList ++ more) =
        (scalar leaves (("null".toList ++ more).takeWhile isScalarChar)).map fun value =>
          (value, ("null".toList ++ more).dropWhile isScalarChar) := rfl
    rw [hRead, hTake, hDrop]
    rfl

variable {number : List Char → Option JsonNumber}

theorem readString_written (text : String) (rest : List Char) :
    readString (jsonLeaves number) (escape text.toList ++ '"' :: rest) = some (text, rest) := by
  rw [readString, splitString_written, Option.bind_some]
  have hText : (jsonLeaves number).text (escape text.toList) = some text := by
    show (unescape (escape text.toList)).map String.ofList = some text
    rw [unescape_escape, Option.map_some, String.ofList_toList]
  rw [hText, Option.map_some]

theorem readsBack_string (text : String) : ReadsBack (jsonLeaves number) (stringText text) (.string text) where
  first := ⟨'"', _, rfl, rfl⟩
  read := by
    refine ⟨1, fun fuel hFuel more _ => ?_⟩
    obtain ⟨fuel, rfl⟩ : ∃ less, fuel = less + 1 := ⟨fuel - 1, by omega⟩
    have hText : stringText text ++ more = '"' :: (escape text.toList ++ '"' :: more) := by simp [stringText]
    rw [hText, readValue, if_pos rfl, readString_written, Option.map_some]

variable {numberText : JsonNumber → List Char}

variable {fields : List (String × Json)}

theorem readMembers_written (hSome : fields ≠ [])
    (hFields : ∀ field ∈ fields, ReadsBack (jsonLeaves number) (writeJson numberText field.2) field.2) :
    ∃ least, ∀ fuel, least ≤ fuel → ∀ more,
      readMembers (jsonLeaves number) fuel (writeFields numberText true fields ++ '\x7d' :: more) = some (fields, more) := by
  induction fields with
  | nil => exact absurd rfl hSome
  | cons field fields ih =>
    obtain ⟨key, value⟩ := field
    obtain ⟨hField, hRest⟩ := List.forall_mem_cons.mp hFields
    obtain ⟨leastValue, hValue⟩ := hField.read
    have hText (more : List Char) : writeFields numberText true ((key, value) :: fields) ++ '\x7d' :: more =
        '"' :: (escape key.toList ++ '"' :: ':' :: (writeJson numberText value ++
          (writeFields numberText false fields ++ '\x7d' :: more))) := by
      simp [writeFields, stringText]
    -- What one member leaves of the text, which no word goes on with.
    have hMember (fuel : Nat) (hFuel : leastValue ≤ fuel) (more : List Char)
        (hMore : ∀ c ∈ (writeFields numberText false fields ++ '\x7d' :: more).head?, isScalarChar c = false) :
        readMembers (jsonLeaves number) (fuel + 1) (writeFields numberText true ((key, value) :: fields) ++ '\x7d' :: more) =
          (expect '\x7d' (writeFields numberText false fields ++ '\x7d' :: more)).elim
            ((expect ',' (writeFields numberText false fields ++ '\x7d' :: more)).bind fun rest =>
              (readMembers (jsonLeaves number) fuel rest).map fun found => ((key, value) :: found.1, found.2))
            (fun rest => some ([(key, value)], rest)) := by
      rewrite [hText, readMembers, expect_first rfl, Option.bind_some, readString_written, Option.bind_some,
        expect_first rfl, Option.bind_some, hField.skipSpaces, hValue fuel hFuel _ hMore, Option.bind_some]
      dsimp only
      cases expect '\x7d' (writeFields numberText false fields ++ '\x7d' :: more) <;> rfl
    cases fields with
    | nil =>
      refine ⟨leastValue + 1, fun fuel hFuel more => ?_⟩
      obtain ⟨fuel, rfl⟩ : ∃ less, fuel = less + 1 := ⟨fuel - 1, by omega⟩
      rw [hMember fuel (by omega) more (by rintro c ⟨⟩; rfl), writeFields, List.nil_append, expect_first rfl,
        Option.elim_some]
    | cons next fields =>
      obtain ⟨leastRest, hRead⟩ := ih (List.cons_ne_nil next fields) hRest
      have hComma (more : List Char) : writeFields numberText false (next :: fields) ++ '\x7d' :: more =
          ',' :: (writeFields numberText true (next :: fields) ++ '\x7d' :: more) := by
        simp [writeFields]
      refine ⟨max leastValue leastRest + 1, fun fuel hFuel more => ?_⟩
      obtain ⟨fuel, rfl⟩ : ∃ less, fuel = less + 1 := ⟨fuel - 1, by omega⟩
      rw [hMember fuel (by omega) more (by rw [hComma]; rintro c ⟨⟩; rfl), hComma, expect_other rfl (by decide),
        Option.elim_none, expect_first rfl, Option.bind_some, hRead fuel (by omega) more, Option.map_some]

theorem foldl_insert_of_nodup {held : List (String × Json)} (hKeys : ((held ++ fields).map (·.1)).Nodup) :
    fields.foldl (fun held field =>
      if held.any (·.1 = field.1) then held.map fun other => if other.1 = field.1 then field else other
      else held ++ [field]) held = held ++ fields := by
  induction fields generalizing held with
  | nil => rw [List.foldl_nil, List.append_nil]
  | cons field fields ih =>
    have hNew : held.any (·.1 = field.1) = false := by
      rw [List.any_eq_false]
      intro other hOther hSame
      rw [List.map_append, List.nodup_append] at hKeys
      exact hKeys.2.2 _ (List.mem_map_of_mem hOther) _ (List.mem_cons_self ..) (of_decide_eq_true hSame)
    rw [List.foldl_cons, if_neg (by rw [hNew]; exact Bool.false_ne_true), ih (by simpa using hKeys), List.append_assoc,
      List.singleton_append]

theorem objectOf_of_nodup (hKeys : (fields.map (·.1)).Nodup) :
    objectOf fields = .object fields := congrArg Json.object (foldl_insert_of_nodup hKeys)

theorem readsBack_object (hKeys : (fields.map (·.1)).Nodup)
    (hFields : ∀ field ∈ fields, ReadsBack (jsonLeaves number) (writeJson numberText field.2) field.2) :
    ReadsBack (jsonLeaves number) (writeJson numberText (.object fields)) (.object fields) where
  first := ⟨'\x7b', _, rfl, rfl⟩
  read := by
    have hText (more : List Char) : writeJson numberText (.object fields) ++ more =
        '\x7b' :: (writeFields numberText true fields ++ '\x7d' :: more) := by
      simp [writeJson]
    cases hSome : fields with
    | nil =>
      refine ⟨1, fun fuel hFuel more _ => ?_⟩
      obtain ⟨fuel, rfl⟩ : ∃ less, fuel = less + 1 := ⟨fuel - 1, by omega⟩
      rfl
    | cons field rest =>
      obtain ⟨least, hRead⟩ := readMembers_written (by rw [hSome]; exact List.cons_ne_nil field rest) hFields
      refine ⟨least + 1, fun fuel hFuel more _ => ?_⟩
      obtain ⟨fuel, rfl⟩ : ∃ less, fuel = less + 1 := ⟨fuel - 1, by omega⟩
      have hNone : expect '\x7d' (writeFields numberText true fields ++ '\x7d' :: more) = none := by
        rw [hSome]
        simp only [writeFields, stringText, if_true, List.nil_append, List.cons_append]
        exact expect_other rfl (by decide) _
      rw [← hSome, hText, readValue, if_neg (by decide), if_neg (by decide), if_pos rfl, hNone]
      dsimp only
      rw [hRead fuel (by omega) more, Option.map_some, objectOf_of_nodup hKeys]

end

end Aimux.Core
