import Aimux.Lib.Utf8

/-! # Lossy reading of cut bytes

Where bytes are cut, what was read of them agrees with what is read of all of them up to replacements at
the end: a cut falls between two characters, or inside one of which nothing else is left.
-/

namespace Aimux.Lib

def Replaced (chars : List Char) : Prop := ∀ c ∈ chars, c = '\uFFFD'

variable {bytes : List UInt8} {c : Char}

theorem exists_of_decode (h : bytes.toByteArray.utf8DecodeChar? 0 = some c) :
    ∃ rest, bytes = String.utf8EncodeChar c ++ rest := by
  obtain ⟨rest, hBytes⟩ := ByteArray.exists_of_utf8DecodeChar?_eq_some h
  refine ⟨rest.data.toList, ?_⟩
  have hData := congrArg (fun b : ByteArray => b.data.toList) hBytes
  simpa using hData

variable {front : List UInt8}

theorem decode_append (h : front.toByteArray.utf8DecodeChar? 0 = some c) (back : List UInt8) :
    (front ++ back).toByteArray.utf8DecodeChar? 0 = some c := by
  obtain ⟨rest, rfl⟩ := exists_of_decode h
  rw [List.append_assoc, List.toByteArray_append, ByteArray.utf8DecodeChar?_utf8EncodeChar_append]

theorem brokenLength_le (hSome : bytes ≠ []) : brokenLength bytes ≤ bytes.length := by
  fun_cases brokenLength bytes
  all_goals simp_all
  grind

theorem brokenLength_pos (bytes : List UInt8) : 0 < brokenLength bytes := by
  fun_cases brokenLength bytes <;> grind

/-- More bytes change how far a replacement goes only where it went to the end. -/
theorem brokenLength_append (hSome : front ≠ []) (back : List UInt8) :
    brokenLength front = front.length ∨ brokenLength (front ++ back) = brokenLength front := by
  match front with
  | [] => exact absurd rfl hSome
  | [first] => exact .inl rfl
  | [first, second] =>
    cases hGoesOn : mayContinue first second with
    | true => exact .inl (by simp [brokenLength, hGoesOn])
    | false => exact .inr (by simp [brokenLength, hGoesOn])
  | first :: second :: third :: rest => exact .inr (by simp [brokenLength])

theorem isUTF8FirstByte_of_decode {byte : UInt8} {rest : List UInt8}
    (h : (byte :: rest).toByteArray.utf8DecodeChar? 0 = some c) : byte.IsUTF8FirstByte := by
  obtain ⟨more, hBytes⟩ := exists_of_decode h
  have hPositive : 0 < (String.utf8EncodeChar c).length := by
    rw [String.length_utf8EncodeChar]
    exact c.utf8Size_pos
  have hByte : byte = (String.utf8EncodeChar c)[0] := by
    have hHead := congrArg (·[0]?) hBytes
    simpa [List.getElem?_append_left hPositive, List.getElem?_eq_getElem hPositive] using hHead
  rw [hByte, UInt8.isUTF8FirstByte_getElem_utf8EncodeChar]

/-- Bytes none of which begins a character. -/
theorem replaced_readChars (hBytes : ∀ byte ∈ bytes, ¬ byte.IsUTF8FirstByte) (n : Nat) :
    Replaced (readChars n bytes) := by
  induction n generalizing bytes with
  | zero => simp [Replaced, readChars]
  | succ n ih =>
    cases bytes with
    | nil => simp [Replaced, readChars]
    | cons byte rest =>
      have hFirst : firstChar (byte :: rest) = ('\uFFFD', brokenLength (byte :: rest)) := by
        rw [firstChar]
        split
        · rename_i c hDecode
          exact absurd (isUTF8FirstByte_of_decode hDecode) (hBytes byte (by simp))
        · rfl
      rw [readChars, hFirst]
      intro c hMem
      rcases List.mem_cons.mp hMem with rfl | hMem
      · rfl
      · exact ih (fun other hOther => hBytes other (List.mem_of_mem_drop hOther)) c hMem

/-- A part of a character that is not the whole of it. -/
theorem replaced_of_decode_append {back : List UInt8} (hSome : front ≠ [])
    (hNone : front.toByteArray.utf8DecodeChar? 0 = none)
    (hDecode : (front ++ back).toByteArray.utf8DecodeChar? 0 = some c) (n : Nat) :
    Replaced (readChars n front) := by
  obtain ⟨rest, hBytes⟩ := exists_of_decode hDecode
  have hShort : front.length < (String.utf8EncodeChar c).length := by
    by_contra hLong
    obtain ⟨tail, rfl⟩ : String.utf8EncodeChar c <+: front :=
      List.prefix_of_prefix_length_le ⟨rest, hBytes.symm⟩ (List.prefix_append front back) (by omega)
    rw [List.toByteArray_append, ByteArray.utf8DecodeChar?_utf8EncodeChar_append] at hNone
    cases hNone
  obtain ⟨byte, tail, rfl⟩ := List.exists_cons_of_ne_nil hSome
  have hTail : ∀ other ∈ tail, ¬ other.IsUTF8FirstByte := by
    intro other hMem hFirst
    obtain ⟨index, hIndex, rfl⟩ := List.getElem_of_mem hMem
    have hInside : index + 1 < (String.utf8EncodeChar c).length := by
      simp only [List.length_cons] at hShort
      omega
    have hAt := congrArg (·[index + 1]?) hBytes
    simp only [List.cons_append, List.getElem?_cons_succ, List.getElem?_append_left hIndex,
      List.getElem?_append_left hInside, List.getElem?_eq_getElem hIndex,
      List.getElem?_eq_getElem hInside, Option.some.injEq] at hAt
    rw [hAt, UInt8.isUTF8FirstByte_getElem_utf8EncodeChar] at hFirst
    cases hFirst
  match n with
  | 0 => simp [Replaced, readChars]
  | n + 1 =>
    rw [readChars, firstChar, hNone]
    have hDrop : ∀ other ∈ (byte :: tail).drop (brokenLength (byte :: tail)), ¬ other.IsUTF8FirstByte := by
      intro other hMem
      obtain ⟨left, hLeft⟩ := Nat.exists_eq_succ_of_ne_zero (brokenLength_pos (byte :: tail)).ne'
      rw [hLeft, Nat.succ_eq_add_one, List.drop_succ_cons] at hMem
      exact hTail other (List.mem_of_mem_drop hMem)
    intro other hMem
    rcases List.mem_cons.mp hMem with rfl | hMem
    · rfl
    · exact replaced_readChars hDrop n other hMem

theorem firstChar_size_pos (bytes : List UInt8) : 0 < (firstChar bytes).2 := by
  rw [firstChar]
  split
  · exact Char.utf8Size_pos _
  · exact brokenLength_pos bytes

/-- The first characters of cut bytes and of all of them are the same, or the cut ones are replaced. -/
theorem firstChar_append (hSome : front ≠ []) (back : List UInt8) :
    (firstChar (front ++ back) = firstChar front ∧ (firstChar front).2 ≤ front.length) ∨
      ∀ n, Replaced (readChars n front) := by
  cases hFront : front.toByteArray.utf8DecodeChar? 0 with
  | some c =>
    obtain ⟨rest, hRest⟩ := exists_of_decode hFront
    refine .inl ⟨?_, ?_⟩
    · rw [firstChar, decode_append hFront, firstChar, hFront]
    · rw [firstChar, hFront, hRest, List.length_append, String.length_utf8EncodeChar]
      exact Nat.le_add_right _ _
  | none =>
    cases hBoth : (front ++ back).toByteArray.utf8DecodeChar? 0 with
    | some c => exact .inr fun n => replaced_of_decode_append hSome hFront hBoth n
    | none =>
      rcases brokenLength_append hSome back with hAll | hSame
      · refine .inr fun n => ?_
        obtain ⟨byte, rest, rfl⟩ := List.exists_cons_of_ne_nil hSome
        cases n with
        | zero => simp [Replaced, readChars]
        | succ n =>
          rw [readChars, firstChar, hFront, hAll, List.drop_length]
          cases n <;> simp [Replaced, readChars]
      · refine .inl ⟨?_, ?_⟩
        · rw [firstChar, hBoth, firstChar, hFront, hSame]
        · rw [firstChar, hFront]
          exact brokenLength_le hSome

theorem readChars_append (n m : Nat) (front back : List UInt8) (hFront : front.length ≤ n)
    (hBoth : (front ++ back).length ≤ m) :
    ∃ common tail, readChars n front = common ++ tail ∧ Replaced tail ∧
      common <+: readChars m (front ++ back) := by
  induction n generalizing m front with
  | zero => exact ⟨[], [], rfl, by simp [Replaced], List.nil_prefix⟩
  | succ n ih =>
    match front with
    | [] => exact ⟨[], [], rfl, by simp [Replaced], List.nil_prefix⟩
    | byte :: rest =>
      rcases firstChar_append (List.cons_ne_nil byte rest) back with ⟨hSame, hInside⟩ | hReplaced
      · obtain ⟨m, rfl⟩ : ∃ k, m = k + 1 := Nat.exists_eq_add_one.mpr (by simp at hBoth; omega)
        have hPositive := firstChar_size_pos (byte :: rest)
        obtain ⟨common, tail, hRead, hTail, hCommon⟩ := ih m ((byte :: rest).drop (firstChar (byte :: rest)).2)
          (by simp only [List.length_drop, List.length_cons] at hFront ⊢; omega)
          (by simp only [List.length_append, List.length_drop, List.length_cons] at hBoth ⊢; omega)
        refine ⟨(firstChar (byte :: rest)).1 :: common, tail, ?_, hTail, ?_⟩
        · rw [readChars, hRead]
          rfl
        · rw [List.cons_append, readChars, ← List.cons_append, hSame,
            List.drop_append_of_le_length hInside]
          exact List.cons_prefix_cons.mpr ⟨rfl, hCommon⟩
      · exact ⟨[], _, rfl, hReplaced (n + 1), List.nil_prefix⟩

/-- Without the replacements at its end, the reading of cut bytes begins the reading of all of them. -/
theorem fromUtf8Lossy_cut (front back : List UInt8) :
    (fromUtf8Lossy front).toList.rdropWhile (· = '\uFFFD') <+: (fromUtf8Lossy (front ++ back)).toList := by
  obtain ⟨common, tail, hRead, hTail, hCommon⟩ :=
    readChars_append front.length (front ++ back).length front back (le_refl _) (le_refl _)
  rw [fromUtf8Lossy, fromUtf8Lossy, String.toList_ofList, String.toList_ofList, hRead]
  refine List.IsPrefix.trans ?_ hCommon
  rw [List.rdropWhile, List.reverse_append, List.dropWhile_append_of_pos (by simpa [Replaced] using hTail),
    ← List.rdropWhile]
  exact List.rdropWhile_prefix _ _

end Aimux.Lib
