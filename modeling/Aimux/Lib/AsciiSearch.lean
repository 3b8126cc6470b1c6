import Mathlib

/-! # Looking for ASCII texts in encoded ones

An ASCII text is found in the bytes of a text exactly where it is found in its characters. The encoding
only has to keep ASCII characters and to keep the other ones out of their range, read from either end.
-/

namespace Aimux.Lib

structure AsciiCoding (code : Char → List UInt8) : Prop where
  ascii : ∀ c : Char, c.toNat < 128 → code c = [UInt8.ofNat c.toNat]
  high : ∀ c : Char, 128 ≤ c.toNat → code c ≠ [] ∧ ∀ byte ∈ code c, 128 ≤ byte.toNat

def IsAscii (text : List Char) : Prop := ∀ c ∈ text, c.toNat < 128

theorem utf8_coding : AsciiCoding String.utf8EncodeChar where
  ascii c hAscii := by
    have hLe : c.val.toNat ≤ 0x7f := Nat.le_of_lt_succ hAscii
    fun_cases String.utf8EncodeChar c
    · rfl
    · exact absurd hLe ‹_›
    · exact absurd hLe ‹_›
    · exact absurd hLe ‹_›
  high c hHigh := by
    have hNot : ¬c.val.toNat ≤ 0x7f := Nat.not_le.mpr hHigh
    refine ⟨String.utf8EncodeChar_ne_nil, fun byte hByte => ?_⟩
    revert hByte
    fun_cases String.utf8EncodeChar c
    · exact absurd ‹_› hNot
    all_goals
      simp only [List.mem_cons, List.not_mem_nil, or_false]
      rintro hByte
      rcases hByte with rfl | rfl | hByte
      all_goals try rcases hByte with rfl | rfl
      all_goals simp only [UInt8.toNat_ofNat']; omega

section

variable {code : Char → List UInt8} {needle text : List Char}

theorem AsciiCoding.reversed (hCode : AsciiCoding code) : AsciiCoding fun c => (code c).reverse where
  ascii c hAscii := by rw [hCode.ascii c hAscii, List.reverse_singleton]
  high c hHigh := by
    obtain ⟨hSome, hBytes⟩ := hCode.high c hHigh
    exact ⟨by simpa using hSome, fun byte hByte => hBytes byte (List.mem_reverse.mp hByte)⟩

theorem ofNat_inj_of_ascii {x y : Char} (hx : x.toNat < 128) (hy : y.toNat < 128)
    (hSame : UInt8.ofNat x.toNat = UInt8.ofNat y.toNat) : x = y := by
  have hNat := congrArg UInt8.toNat hSame
  simp only [UInt8.toNat_ofNat'] at hNat
  rw [Nat.mod_eq_of_lt (by omega), Nat.mod_eq_of_lt (by omega)] at hNat
  exact Char.toNat_inj.mp hNat

/-- The first byte tells an ASCII character from any other. -/
theorem AsciiCoding.cons_prefix_iff (hCode : AsciiCoding code) {x y : Char} (hx : x.toNat < 128)
    (front back : List UInt8) : code x ++ front <+: code y ++ back ↔ x = y ∧ front <+: back := by
  rw [hCode.ascii x hx]
  by_cases hy : y.toNat < 128
  · rw [hCode.ascii y hy, List.singleton_append, List.singleton_append, List.cons_prefix_cons]
    exact and_congr_left fun _ => ⟨ofNat_inj_of_ascii hx hy, fun hSame => by rw [hSame]⟩
  · obtain ⟨hSome, hBytes⟩ := hCode.high y (Nat.le_of_not_lt hy)
    obtain ⟨first, rest, hFirst⟩ := List.exists_cons_of_ne_nil hSome
    have hLarge := hBytes first (by rw [hFirst]; exact List.mem_cons_self ..)
    rw [hFirst, List.singleton_append, List.cons_append, List.cons_prefix_cons]
    constructor
    · rintro ⟨hSame, -⟩
      rw [← hSame, UInt8.toNat_ofNat', Nat.mod_eq_of_lt (by omega)] at hLarge
      omega
    · rintro ⟨rfl, -⟩
      exact absurd hx hy

theorem AsciiCoding.prefix_iff (hCode : AsciiCoding code) (text : List Char) (hAscii : IsAscii needle) :
    needle.flatMap code <+: text.flatMap code ↔ needle <+: text := by
  induction needle generalizing text with
  | nil => simp
  | cons x needle ih =>
    have hx : x.toNat < 128 := hAscii x (List.mem_cons_self ..)
    have hRest : IsAscii needle := fun c hc => hAscii c (List.mem_cons_of_mem _ hc)
    cases text with
    | nil => simp [hCode.ascii x hx]
    | cons y text =>
      rw [List.flatMap_cons, List.flatMap_cons, hCode.cons_prefix_iff hx, ih text hRest, List.cons_prefix_cons]

theorem AsciiCoding.suffix_iff (hCode : AsciiCoding code) (hAscii : IsAscii needle) :
    needle.flatMap code <:+ text.flatMap code ↔ needle <:+ text := by
  have hReversed : IsAscii needle.reverse := fun c hc => hAscii c (List.mem_reverse.mp hc)
  have hPrefix := hCode.reversed.prefix_iff text.reverse hReversed
  rw [← List.reverse_prefix, ← @List.reverse_prefix _ needle, ← hPrefix, List.reverse_flatMap,
    List.reverse_flatMap]
  rfl

/-- No ASCII text begins inside the bytes of another character. -/
theorem infix_skip {bytes skipped rest : List UInt8} (hBytes : ∀ byte ∈ bytes.head?, byte.toNat < 128)
    (hSome : bytes ≠ []) (hSkipped : ∀ byte ∈ skipped, 128 ≤ byte.toNat) :
    bytes <:+: skipped ++ rest ↔ bytes <:+: rest := by
  induction skipped with
  | nil => rfl
  | cons byte skipped ih =>
    rw [List.cons_append, List.infix_cons_iff, ih fun other hOther => hSkipped other (List.mem_cons_of_mem _ hOther)]
    refine or_iff_right fun hPrefix => ?_
    obtain ⟨first, tail, rfl⟩ := List.exists_cons_of_ne_nil hSome
    obtain ⟨rfl, -⟩ := List.cons_prefix_cons.mp hPrefix
    have hLow := hBytes first (by simp)
    have hHigh := hSkipped first (List.mem_cons_self ..)
    omega

theorem AsciiCoding.infix_iff (hCode : AsciiCoding code) (hAscii : IsAscii needle) (hSome : needle ≠ []) :
    needle.flatMap code <:+: text.flatMap code ↔ needle <:+: text := by
  obtain ⟨x, needle, rfl⟩ := List.exists_cons_of_ne_nil hSome
  have hx : x.toNat < 128 := hAscii x (List.mem_cons_self ..)
  have hHead : ∀ byte ∈ ((x :: needle).flatMap code).head?, byte.toNat < 128 := by
    intro byte hByte
    rw [List.flatMap_cons, hCode.ascii x hx] at hByte
    obtain rfl := Option.some.inj hByte
    rw [UInt8.toNat_ofNat', Nat.mod_eq_of_lt (by omega)]
    exact hx
  have hBytesSome : (x :: needle).flatMap code ≠ [] := by simp [hCode.ascii x hx]
  induction text with
  | nil => simp [hCode.ascii x hx]
  | cons y text ih =>
    have hHere := hCode.prefix_iff (y :: text) hAscii
    have hText : (y :: text).flatMap code = code y ++ text.flatMap code := List.flatMap_cons
    rw [hText] at hHere ⊢
    rw [List.infix_cons_iff]
    by_cases hy : y.toNat < 128
    · rw [hCode.ascii y hy, List.singleton_append] at hHere ⊢
      rw [List.infix_cons_iff]
      exact or_congr hHere ih
    · refine ((infix_skip hHead hBytesSome (hCode.high y (Nat.le_of_not_lt hy)).2).trans ih).trans ?_
      refine (or_iff_right fun hPrefix => ?_).symm
      exact hy ((List.cons_prefix_cons.mp hPrefix).1 ▸ hx)

theorem AsciiCoding.eq_iff (hCode : AsciiCoding code) (hAscii : IsAscii needle) :
    text.flatMap code = needle.flatMap code ↔ text = needle := by
  constructor
  · intro hSame
    have hPrefix : needle.flatMap code <+: text.flatMap code := by
      rw [hSame]
    obtain ⟨rest, rfl⟩ := (hCode.prefix_iff _ hAscii).mp hPrefix
    rw [List.flatMap_append, List.append_right_eq_self] at hSame
    cases rest with
    | nil => rw [List.append_nil]
    | cons y rest =>
      rw [List.flatMap_cons, List.append_eq_nil_iff] at hSame
      by_cases hy : y.toNat < 128
      · rw [hCode.ascii y hy] at hSame
        cases hSame.1
      · exact absurd hSame.1 (hCode.high y (Nat.le_of_not_lt hy)).1
  · rintro rfl
    rfl

end

end Aimux.Lib
