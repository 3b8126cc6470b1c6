import Aimux.Lib.Mixing
import Aimux.Trace.Fingerprint

/-! # What follows the last complete word

The length of the text and the bytes behind its last complete word are folded into one word, over one another. Texts
with the same complete words have the same hash exactly where these words are the same, whatever the key is.
-/

namespace Aimux.Trace

open Aimux.Lib

theorem mix_injective : Function.Injective mix := by
  have hFirst : (0xbf58476d1ce4e5b9#64) * 0x96de1b173f119089#64 = 1#64 := by decide
  have hSecond : (0x94d049bb133111eb#64) * 0x319642b2d24d8ec3#64 = 1#64 := by decide
  exact (xorShift_injective (by decide : 0 < 31)).comp ((mul_injective hSecond).comp
    ((xorShift_injective (by decide : 0 < 27)).comp ((mul_injective hFirst).comp
      (xorShift_injective (by decide : 0 < 30)))))

/-! ## The last word -/

def wordsLength (data : List UInt8) : Nat := data.length / 8 * 8

/-- The bytes behind the last complete word. -/
def tail (data : List UInt8) : List UInt8 := data.drop (wordsLength data)

/-- A byte behind the last complete word, zero where the text has none. -/
def tailByte (data : List UInt8) (i : Nat) : UInt8 := (tail data).getD i 0

/-- What the last step of `hash64` folds in. -/
def lastWord (data : List UInt8) : BitVec 64 := xorBytes (BitVec.ofNat 64 data.length) (tail data)

def SameWords (data other : List UInt8) : Prop := data.take (wordsLength data) = other.take (wordsLength other)

section

variable {data other : List UInt8}

theorem SameWords.count (h : SameWords data other) : data.length / 8 = other.length / 8 := by
  have hLength := congrArg List.length h
  rw [List.length_take, List.length_take, wordsLength, wordsLength] at hLength
  omega

theorem SameWords.word (h : SameWords data other) {i : Nat} (hWord : i < data.length / 8) :
    block 8 i data = block 8 i other := by
  have hInside (data : List UInt8) (hWord : i < data.length / 8) :
      block 8 i (data.take (wordsLength data)) = block 8 i data := by
    rw [block, block, wordsLength, List.drop_take, List.take_take]
    congr 1
    omega
  have hSame := congrArg (block 8 i) h
  rwa [hInside data hWord, hInside other (h.count ▸ hWord)] at hSame

/-- The hash of a text with these words depends on the last word alone, and tells it. -/
theorem hash64_eq_iff (key : BitVec 64) (h : SameWords data other) :
    hash64 key data = hash64 key other ↔ lastWord data = lastWord other := by
  have hFactor : (0xd6e8feb86659fd93#64) * 0xcfee444d8b59a89b#64 = 1#64 := by decide
  have hWords : (List.range (data.length / 8)).map (fun i => block 8 i data) =
      (List.range (other.length / 8)).map fun i => block 8 i other := by
    rw [← h.count]
    exact List.map_congr_left fun i hMem => h.word (List.mem_range.mp hMem)
  constructor
  · intro hSame
    have hLast := mix_injective hSame
    rw [hWords] at hLast
    exact mul_injective hFactor ((BitVec.xor_right_inj _).mp ((BitVec.xor_left_inj _).mp hLast))
  · intro hSame
    have hFold : xorBytes (BitVec.ofNat 64 data.length) (data.drop (data.length / 8 * 8)) =
      xorBytes (BitVec.ofNat 64 other.length) (other.drop (other.length / 8 * 8)) := hSame
    rw [hash64, hash64, hWords, hFold]

end

/-! ## Its bits -/

theorem foldByte_getLsbD (word : BitVec 64) (byte : UInt8) (place : Nat) {j : Nat} (hBit : j < 64) :
    (word ^^^ (byte.toBitVec.setWidth 64) <<< (8 * place)).getLsbD j =
      (word.getLsbD j ^^ (decide (j / 8 = place) && byte.toBitVec.getLsbD (j % 8))) := by
  rw [BitVec.getLsbD_xor, BitVec.getLsbD_shiftLeft, BitVec.getLsbD_setWidth]
  congr 1
  by_cases hPlace : j / 8 = place
  · have hIn : ¬ j < 8 * place := by omega
    have hOffset : j - 8 * place = j % 8 := by omega
    simp [hBit, hPlace, hIn, hOffset]
    omega
  · by_cases hBelow : j < 8 * place
    · simp [hPlace, hBelow]
    · have hBeyond : byte.toBitVec.getLsbD (j - 8 * place) = false := BitVec.getLsbD_of_ge _ _ (by omega)
      simp [hPlace, hBeyond]

theorem foldBytes_getLsbD (bytes : List UInt8) (start : Nat) (word : BitVec 64) {j : Nat} (hBit : j < 64) :
    ((bytes.zipIdx start).foldl (fun w (b, i) => w ^^^ ((b.toBitVec.setWidth 64) <<< (8 * i))) word).getLsbD j =
      (word.getLsbD j ^^ (decide (start ≤ j / 8) && (bytes.getD (j / 8 - start) 0).toBitVec.getLsbD (j % 8))) := by
  induction bytes generalizing start word with
  | nil => simp
  | cons byte bytes ih =>
    rw [List.zipIdx_cons, List.foldl_cons, ih, foldByte_getLsbD word byte start hBit, Bool.xor_assoc]
    congr 1
    obtain hBefore | hHere | hBehind := Nat.lt_trichotomy (j / 8) start
    · simp [Nat.ne_of_lt hBefore, Nat.not_le.mpr hBefore, show ¬ start + 1 ≤ j / 8 by omega]
    · simp [hHere]
    · obtain ⟨k, hFar⟩ : ∃ k, j / 8 = start + 1 + k := ⟨j / 8 - (start + 1), by omega⟩
      have hNext : start + 1 + k - start = k + 1 := by omega
      simp [hFar, hNext, show start + 1 + k ≠ start by omega, show start ≤ start + 1 + k by omega]

theorem lastWord_getLsbD (data : List UInt8) {j : Nat} (hBit : j < 64) :
    (lastWord data).getLsbD j = (data.length.testBit j ^^ (tailByte data (j / 8)).toBitVec.getLsbD (j % 8)) := by
  rw [lastWord, xorBytes, foldBytes_getLsbD _ _ _ hBit, BitVec.getLsbD_ofNat]
  simp [hBit, tailByte]

theorem tail_length (data : List UInt8) : (tail data).length = data.length % 8 := by
  rw [tail, List.length_drop, wordsLength]
  omega

theorem tailByte_of_le {data : List UInt8} {i : Nat} (hBeyond : 8 ≤ i) : tailByte data i = 0 := by
  have hLength := tail_length data
  exact List.getD_eq_default _ _ (by omega)

theorem uint8_eq_of_bits {byte other : UInt8} (h : ∀ k < 8, byte.toBitVec.getLsbD k = other.toBitVec.getLsbD k) :
    byte = other :=
  UInt8.toBitVec_inj.mp (BitVec.eq_of_getLsbD_eq h)

variable {data other : List UInt8}

/-- The lengths of two texts with the same complete words differ in the lowest three bits alone. -/
theorem SameWords.testBit_length (h : SameWords data other) (j : Nat) :
    (data.length.testBit j ^^ other.length.testBit j) = (data.length % 8 ^^^ other.length % 8).testBit j := by
  have hLow (n : Nat) : (n % 8).testBit j = (decide (j < 3) && n.testBit j) := Nat.testBit_mod_two_pow n 3 j
  rw [Nat.testBit_xor, hLow, hLow]
  by_cases hPlace : j < 3
  · simp [hPlace]
  · have hHigh (n : Nat) : n.testBit j = (n / 8).testBit (j - 3) := by
      rw [show n / 8 = n / 2 ^ 3 from rfl, Nat.testBit_div_two_pow]
      congr 1
      omega
    simp [hPlace, hHigh, h.count]

theorem SameWords.bit_eq_iff (h : SameWords data other) {j : Nat} (hBit : j < 64) :
    (lastWord data).getLsbD j = (lastWord other).getLsbD j ↔
      (tailByte data (j / 8) ^^^ tailByte other (j / 8)).toBitVec.getLsbD (j % 8) =
        (data.length % 8 ^^^ other.length % 8).testBit j := by
  have hSwap : ∀ a b c d : Bool, (a ^^ c) = (b ^^ d) ↔ (c ^^ d) = (a ^^ b) := by decide
  rw [lastWord_getLsbD data hBit, lastWord_getLsbD other hBit, ← h.testBit_length, UInt8.toBitVec_xor,
    BitVec.getLsbD_xor]
  exact hSwap _ _ _ _

theorem lengths_small (data other : List UInt8) : data.length % 8 ^^^ other.length % 8 < 2 ^ 3 :=
  Nat.xor_lt_two_pow (Nat.mod_lt _ (by decide)) (Nat.mod_lt _ (by decide))

/-- The lengths are folded over the first of the bytes behind the words, and over no other. -/
theorem SameWords.lastWord_eq_iff (h : SameWords data other) :
    lastWord data = lastWord other ↔ (∀ i, 0 < i → tailByte data i = tailByte other i) ∧
      tailByte data 0 ^^^ tailByte other 0 = UInt8.ofNat (data.length % 8 ^^^ other.length % 8) := by
  have hFirst {j : Nat} (hByte : j < 8) : (UInt8.ofNat (data.length % 8 ^^^ other.length % 8)).toBitVec.getLsbD j =
      (data.length % 8 ^^^ other.length % 8).testBit j := by
    rw [UInt8.toBitVec_ofNat', BitVec.getLsbD_ofNat, decide_eq_true hByte, Bool.true_and]
  have hNext {j : Nat} (hByte : 8 ≤ j) : (data.length % 8 ^^^ other.length % 8).testBit j = false :=
    Nat.testBit_lt_two_pow (lt_of_lt_of_le (lengths_small data other) (Nat.pow_le_pow_right (by decide) (by omega)))
  constructor
  · intro hSame
    have hBits {j : Nat} (hBit : j < 64) := (h.bit_eq_iff hBit).mp (congrArg (BitVec.getLsbD · j) hSame)
    constructor
    · intro i hBehind
      by_cases hTail : i < 8
      · apply UInt8.xor_eq_zero_iff.mp
        apply uint8_eq_of_bits
        intro k hk
        have hBit := hBits (show 8 * i + k < 64 by omega)
        rw [hNext (by omega), show (8 * i + k) / 8 = i by omega, show (8 * i + k) % 8 = k by omega] at hBit
        simpa using hBit
      · rw [tailByte_of_le (by omega), tailByte_of_le (by omega)]
    · apply uint8_eq_of_bits
      intro k hk
      have hBit := hBits (show k < 64 by omega)
      rwa [show k / 8 = 0 by omega, show k % 8 = k by omega, ← hFirst hk] at hBit
  · rintro ⟨hBehind, hHead⟩
    apply BitVec.eq_of_getLsbD_eq
    intro j hBit
    apply (h.bit_eq_iff hBit).mpr
    by_cases hByte : j < 8
    · rw [show j / 8 = 0 by omega, show j % 8 = j by omega, hHead, hFirst hByte]
    · rw [hBehind (j / 8) (by omega), hNext (by omega)]
      simp

theorem SameWords.eq_of_tails (h : SameWords data other)
    (hLength : data.length = other.length) (hTail : ∀ i, tailByte data i = tailByte other i) : data = other := by
  have hTails : tail data = tail other := by
    apply List.ext_getElem
    · rw [tail_length, tail_length, hLength]
    · intro i hData hOther
      have hByte := hTail i
      rwa [tailByte, tailByte, List.getD_eq_getElem _ _ hData, List.getD_eq_getElem _ _ hOther] at hByte
  calc data = data.take (wordsLength data) ++ tail data := (List.take_append_drop _ _).symm
    _ = other.take (wordsLength other) ++ tail other := by rw [h, hTails]
    _ = other := List.take_append_drop _ _

/-! ## Texts that are told apart -/

/-- The bytes behind the words differ in more than the lengths, folded over the first of them, make up for. -/
def TailsApart (data other : List UInt8) : Prop :=
  data.length = other.length ∨ (∃ i, 0 < i ∧ tailByte data i ≠ tailByte other i) ∨
    tailByte data 0 ^^^ tailByte other 0 ≠ UInt8.ofNat (data.length % 8 ^^^ other.length % 8)

theorem SameWords.lastWord_ne_iff (h : SameWords data other) (hApart : data ≠ other) :
    lastWord data ≠ lastWord other ↔ TailsApart data other := by
  rw [ne_eq, h.lastWord_eq_iff, TailsApart]
  constructor
  · intro hTold
    by_contra hNone
    push Not at hNone
    exact hTold ⟨hNone.2.1, hNone.2.2⟩
  · rintro (hLength | ⟨i, hBehind, hByte⟩ | hHead) ⟨hRest, hFirst⟩
    · apply hApart
      apply h.eq_of_tails hLength
      intro i
      cases i with
      | zero =>
        rw [hLength, Nat.xor_self] at hFirst
        exact UInt8.xor_eq_zero_iff.mp hFirst
      | succ i => exact hRest (i + 1) (Nat.succ_pos i)
    · exact hByte (hRest i hBehind)
    · exact hHead hFirst

theorem hash64_separates_iff (key : BitVec 64) (data other : List UInt8) (hWords : SameWords data other)
    (hApart : data ≠ other) :
    (hash64 key data ≠ hash64 key other ↔ TailsApart data other) ∧
      (lastWord data ≠ lastWord other ↔ TailsApart data other) := by
  have hLast := hWords.lastWord_ne_iff hApart
  exact ⟨(not_congr (hash64_eq_iff key hWords)).trans hLast, hLast⟩

/-- Two texts of five and of six bytes, which differ in the last byte of the longer one. -/
theorem hash64_separates_six_bytes :
    hash64 7 [1, 2, 3, 4, 5] ≠ hash64 7 [1, 2, 3, 4, 5, 6] ∧
      lastWord [1, 2, 3, 4, 5] ≠ lastWord [1, 2, 3, 4, 5, 6] := by
  have hApart : TailsApart [1, 2, 3, 4, 5] [1, 2, 3, 4, 5, 6] := Or.inr (Or.inl ⟨5, by decide, by decide⟩)
  have hSeparates := hash64_separates_iff 7 [1, 2, 3, 4, 5] [1, 2, 3, 4, 5, 6] rfl (by decide)
  exact ⟨hSeparates.1.mpr hApart, hSeparates.2.mpr hApart⟩

/-- No byte and the byte one, under any key: the length of the second makes its byte zero. -/
theorem hash64_joins_one_byte : (∀ key, hash64 key [] = hash64 key [1]) ∧
    ¬ ∀ key data other, SameWords data other → data ≠ other → data.length < 2 ^ 56 → other.length < 2 ^ 56 →
      hash64 key data ≠ hash64 key other := by
  have hWords : SameWords [] [1] := rfl
  have hJoined (key : BitVec 64) : hash64 key [] = hash64 key [1] := (hash64_eq_iff key hWords).mpr (by decide)
  refine ⟨hJoined, fun hAll => ?_⟩
  exact hAll 0 [] [1] hWords (by decide) (by decide) (by decide) (hJoined 0)

end Aimux.Trace
