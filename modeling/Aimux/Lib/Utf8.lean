import Mathlib

/-! # Lossy reading of UTF-8

A text is read off bytes character by character. Where no character begins, the bytes that could have
begun one are replaced together by U+FFFD.
-/

namespace Aimux.Lib

def utf8 (text : String) : List UInt8 := text.toList.flatMap String.utf8EncodeChar

/-- The second bytes after which a sequence of three or four bytes may go on. -/
def mayContinue (first second : UInt8) : Bool :=
  if first = 0xE0 then 0xA0 ≤ second && second ≤ 0xBF
  else if first = 0xED then 0x80 ≤ second && second ≤ 0x9F
  else if first = 0xF0 then 0x90 ≤ second && second ≤ 0xBF
  else if first = 0xF4 then 0x80 ≤ second && second ≤ 0x8F
  else 0xE1 ≤ first && first ≤ 0xF3 && 0x80 ≤ second && second ≤ 0xBF

/-- How many bytes one replacement stands for, where no character begins. -/
def brokenLength : List UInt8 → Nat
  | first :: second :: rest =>
    if mayContinue first second then
      match rest with
      | third :: _ => if 0xF0 ≤ first && 0x80 ≤ third && third ≤ 0xBF then 3 else 2
      | [] => 2
    else 1
  | _ => 1

/-- The first character of a text, and how many bytes it takes. -/
def firstChar (bytes : List UInt8) : Char × Nat :=
  match bytes.toByteArray.utf8DecodeChar? 0 with
  | some c => (c, c.utf8Size)
  | none => ('\uFFFD', brokenLength bytes)

/-- At most so many characters. -/
def readChars : Nat → List UInt8 → List Char
  | 0, _ => []
  | _ + 1, [] => []
  | n + 1, byte :: bytes =>
    (firstChar (byte :: bytes)).1 :: readChars n ((byte :: bytes).drop (firstChar (byte :: bytes)).2)

/-- `String::from_utf8_lossy` -/
def fromUtf8Lossy (bytes : List UInt8) : String := String.ofList (readChars bytes.length bytes)

theorem firstChar_utf8EncodeChar (c : Char) (rest : List UInt8) :
    firstChar (String.utf8EncodeChar c ++ rest) = (c, c.utf8Size) := by
  rw [firstChar, List.toByteArray_append, ByteArray.utf8DecodeChar?_utf8EncodeChar_append]

theorem readChars_utf8 (chars : List Char) (n : Nat) (hn : (chars.flatMap String.utf8EncodeChar).length ≤ n) :
    readChars n (chars.flatMap String.utf8EncodeChar) = chars := by
  induction chars generalizing n with
  | nil => cases n <;> rfl
  | cons c chars ih =>
    rw [List.flatMap_cons] at hn ⊢
    have hLength : (String.utf8EncodeChar c).length = c.utf8Size := String.length_utf8EncodeChar c
    have hPositive := c.utf8Size_pos
    obtain ⟨byte, bytes, hBytes⟩ : ∃ byte bytes, String.utf8EncodeChar c = byte :: bytes :=
      List.exists_cons_of_length_pos (by omega)
    match n with
    | 0 =>
      rw [List.length_append] at hn
      omega
    | n + 1 =>
      have hFirst := firstChar_utf8EncodeChar c (chars.flatMap String.utf8EncodeChar)
      rw [hBytes, List.cons_append] at hFirst
      rw [hBytes, List.cons_append, readChars, hFirst]
      simp only [← List.cons_append, ← hBytes]
      rw [List.drop_append_of_le_length (by omega), List.drop_of_length_le (by omega), List.nil_append, ih]
      rw [List.length_append] at hn
      omega

theorem fromUtf8Lossy_utf8 (text : String) : fromUtf8Lossy (utf8 text) = text := by
  rw [fromUtf8Lossy, utf8, readChars_utf8 _ _ (le_refl _), String.ofList_toList]

theorem utf8_append (a b : String) : utf8 (a ++ b) = utf8 a ++ utf8 b := by
  rw [utf8, String.toList_append, List.flatMap_append]
  rfl

theorem utf8_injective : Function.Injective utf8 := by
  intro a b hSame
  rw [← fromUtf8Lossy_utf8 a, hSame, fromUtf8Lossy_utf8]

end Aimux.Lib
