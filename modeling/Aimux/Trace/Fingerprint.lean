import Aimux.Lib.Blocks
import Aimux.Trace.SessionIndex

/-! # Block-chain fingerprints

A body is cut into blocks and each block is hashed under a key derived from the salt and the hash of the
block before it. Equal leading blocks give equal leading hashes; the other direction needs that two
different blocks in the same place, hashed under the same key, have different hashes.
-/

namespace Aimux.Trace

open Aimux.Lib

/-! ## Keyed hashes -/

def mix (x : BitVec 64) : BitVec 64 :=
  let x := x ^^^ (x >>> 30)
  let x := x * 0xbf58476d1ce4e5b9#64
  let x := x ^^^ (x >>> 27)
  let x := x * 0x94d049bb133111eb#64
  x ^^^ (x >>> 31)

/-- The bytes of a word, the lowest first, folded into it by exclusive or. -/
def xorBytes (word : BitVec 64) (bytes : List UInt8) : BitVec 64 :=
  bytes.zipIdx.foldl (fun w (b, i) => w ^^^ ((b.toBitVec.setWidth 64) <<< (8 * i))) word

def hashWord (key h : BitVec 64) (word : List UInt8) : BitVec 64 :=
  mix ((h ^^^ xorBytes 0 word * 0x9e3779b97f4a7c15#64).rotateLeft 27 + key)

def hash64 (key : BitVec 64) (data : List UInt8) : BitVec 64 :=
  let words := data.length / 8
  let h := ((List.range words).map fun i => block 8 i data).foldl (hashWord key)
    (key ^^^ 0x9e3779b97f4a7c15#64)
  let w := xorBytes (BitVec.ofNat 64 data.length) (data.drop (words * 8))
  mix ((h ^^^ w * 0xd6e8feb86659fd93#64) ^^^ key.rotateLeft 17)

def hash128 (key : BitVec 64) (data : List UInt8) : BitVec 128 :=
  let k1 := mix (key ^^^ 0x243f6a8885a308d3#64)
  let k2 := mix (k1 ^^^ 0x13198a2e03707344#64)
  ((hash64 k1 data).setWidth 128 <<< 64) ||| (hash64 k2 data).setWidth 128

/-- `hexDigitsOf width n` are the lowest `width` digits of `n`. -/
def hexDigitsOf : Nat → Nat → List Char
  | 0, _ => []
  | width + 1, n => hexDigitsOf width (n / 16) ++ [Nat.digitChar (n % 16)]

/-- 32 lowercase digits, padded with zeros. -/
def hex128 (h : BitVec 128) : String := String.ofList (hexDigitsOf 32 h.toNat)

/-! ## Chains -/

/-- `chunks` panics on a block size of zero. -/
structure BlockChainFingerprint where
  blockSize : Nat
  scopeSalt : BitVec 64
  hSize : 0 < blockSize

def DEFAULT_BLOCK_SIZE : Nat := 4096

theorem defaultBlockSize_pos : 0 < DEFAULT_BLOCK_SIZE := by decide

namespace BlockChainFingerprint

/-- The key and the chunk of each hash of the chain, from the hash before. -/
def hashInputs (self : BlockChainFingerprint) :
    BitVec 128 → List (List UInt8) → List (BitVec 64 × List UInt8)
  | _, [] => []
  | prev, chunk :: rest =>
    let key := mix (self.scopeSalt ^^^ low64 prev)
    (key, chunk) :: hashInputs self (hash128 key chunk) rest

def hashesFrom (self : BlockChainFingerprint) (prev : BitVec 128) (chunks : List (List UInt8)) :
    List (BitVec 128) :=
  (self.hashInputs prev chunks).map fun (key, chunk) => hash128 key chunk

def hashes (self : BlockChainFingerprint) (data : List UInt8) : List (BitVec 128) :=
  self.hashesFrom 0 (blocks self.blockSize data)

def compute (self : BlockChainFingerprint) (data : List UInt8) : Chain where
  bodyHash := hash128 (mix (self.scopeSalt ^^^ 0x517cc1b727220a95#64)) data
  lenBytes := data.length
  blockSize := self.blockSize
  blockHashes := self.hashes data

end BlockChainFingerprint

def Fingerprint.ofChain (chain : Chain) : Fingerprint where
  lenBytes := chain.lenBytes
  blockSize := chain.blockSize
  blockHashes := chain.blockHashes.map hex128

/-! ## Hex strings -/

theorem hexDigit_digitChar (d : Nat) (h : d < 16) : hexDigit (Nat.digitChar d) = some d := by
  interval_cases d <;> decide

theorem hexDigitsOf_length (width n : Nat) : (hexDigitsOf width n).length = width := by
  induction width generalizing n with
  | zero => rfl
  | succ width ih => simp [hexDigitsOf, ih]

theorem hexDigits_hexDigitsOf (width n : Nat) (hWidth : width ≤ 32) (h : n < 16 ^ width) :
    hexDigits (hexDigitsOf width n) = some n := by
  induction width generalizing n with
  | zero =>
    have hZero : n = 0 := by simpa using h
    subst hZero
    rfl
  | succ width ih =>
    have hHigh : n / 16 < 16 ^ width := by
      rw [Nat.div_lt_iff_lt_mul (by decide), ← Nat.pow_succ]
      exact h
    have hRange : n < 2 ^ 128 := by
      refine Nat.lt_of_lt_of_le h ?_
      calc 16 ^ (width + 1) ≤ 16 ^ 32 := Nat.pow_le_pow_right (by decide) hWidth
        _ = 2 ^ 128 := by norm_num
    have hDigits := ih (n / 16) (by omega) hHigh
    unfold hexDigits at hDigits ⊢
    rw [hexDigitsOf, List.foldlM_append, hDigits]
    have hValue : n / 16 * 16 + n % 16 = n := Nat.div_add_mod' n 16
    simp [hexDigit_digitChar (n % 16) (Nat.mod_lt n (by decide)), hValue]
    omega

theorem fromStrRadix16_hex128 (h : BitVec 128) : fromStrRadix16 (hex128 h) = some h.toNat := by
  have hDigits := hexDigits_hexDigitsOf 32 h.toNat le_rfl (by simpa using h.isLt)
  have hLength := hexDigitsOf_length 32 h.toNat
  unfold fromStrRadix16 hex128
  rw [String.toList_ofList]
  split
  · rename_i hNil
    rw [hNil] at hLength
    cases hLength
  · rename_i digits hPlus
    rw [hPlus] at hDigits
    simp [hexDigits, hexDigit] at hDigits
  · exact hDigits

theorem hex128_inj {g h : BitVec 128} (hSame : hex128 g = hex128 h) : g = h := by
  have hValue := fromStrRadix16_hex128 g
  rw [hSame, fromStrRadix16_hex128, Option.some.injEq] at hValue
  exact (BitVec.eq_of_toNat_eq hValue).symm

namespace BlockChainFingerprint

/-! ## Shared hashes -/

section

variable (self : BlockChainFingerprint)

theorem hashInputs_getElem? (prev : BitVec 128) (chunks : List (List UInt8)) (i : Nat) :
    ((self.hashInputs prev chunks)[i]?).map (·.2) = chunks[i]? := by
  induction chunks generalizing prev i with
  | nil => simp [hashInputs]
  | cons chunk rest ih =>
    cases i with
    | zero => rfl
    | succ i => simpa [hashInputs] using ih (hash128 (mix (self.scopeSalt ^^^ low64 prev)) chunk) i

theorem hashInputs_length (prev : BitVec 128) (chunks : List (List UInt8)) :
    (self.hashInputs prev chunks).length = chunks.length := by
  induction chunks generalizing prev with
  | nil => rfl
  | cons chunk rest ih => simp [hashInputs, ih]

@[simp] theorem hashes_length (data : List UInt8) :
    (self.hashes data).length = blockCount self.blockSize data.length := by
  simp [hashes, hashesFrom, hashInputs_length]

/-- Two different chunks in one place are hashed under one key to one hash. -/
def CollidesFrom (prev : BitVec 128) (as bs : List (List UInt8)) : Prop :=
  ∃ (i : Nat) (key : BitVec 64) (a b : List UInt8), (self.hashInputs prev as)[i]? = some (key, a) ∧
    (self.hashInputs prev bs)[i]? = some (key, b) ∧ a ≠ b ∧ hash128 key a = hash128 key b

def Collides (a b : List UInt8) : Prop :=
  self.CollidesFrom 0 (blocks self.blockSize a) (blocks self.blockSize b)

theorem common_le_hashesFrom (prev : BitVec 128) (as bs : List (List UInt8)) :
    commonPrefixLength as bs ≤ commonPrefixLength (self.hashesFrom prev as) (self.hashesFrom prev bs) := by
  induction as generalizing prev bs with
  | nil => simp [commonPrefixLength]
  | cons a as ih =>
    cases bs with
    | nil => simp [commonPrefixLength]
    | cons b bs =>
      by_cases h : a = b
      · subst h
        simpa [commonPrefixLength, hashesFrom, hashInputs] using
          ih (hash128 (mix (self.scopeSalt ^^^ low64 prev)) a) bs
      · simp [commonPrefixLength, h]

theorem common_hashesFrom (prev : BitVec 128) (as bs : List (List UInt8)) (hFree : ¬ self.CollidesFrom prev as bs) :
    commonPrefixLength (self.hashesFrom prev as) (self.hashesFrom prev bs) = commonPrefixLength as bs := by
  induction as generalizing prev bs with
  | nil => simp [commonPrefixLength, hashesFrom, hashInputs]
  | cons a as ih =>
    cases bs with
    | nil => simp [commonPrefixLength, hashesFrom, hashInputs]
    | cons b bs =>
      by_cases h : a = b
      · subst h
        have hRest : ¬ self.CollidesFrom (hash128 (mix (self.scopeSalt ^^^ low64 prev)) a) as bs := by
          rintro ⟨i, key, x, y, hx, hy, hNe, hHash⟩
          exact hFree ⟨i + 1, key, x, y, by simpa [hashInputs] using hx, by simpa [hashInputs] using hy,
            hNe, hHash⟩
        simpa [commonPrefixLength, hashesFrom, hashInputs] using ih _ bs hRest
      · have hHash : hash128 (mix (self.scopeSalt ^^^ low64 prev)) a ≠
            hash128 (mix (self.scopeSalt ^^^ low64 prev)) b := by
          intro hSame
          exact hFree ⟨0, _, a, b, rfl, rfl, h, hSame⟩
        simp [commonPrefixLength, hashesFrom, hashInputs, h, hHash]

theorem not_collides_self (a : List UInt8) : ¬ self.Collides a a := by
  rintro ⟨i, key, x, y, hx, hy, hNe, _⟩
  rw [hx, Option.some.injEq, Prod.mk.injEq] at hy
  exact hNe hy.2

/-- Without a collision two bodies share the hashes of the blocks they share. -/
theorem common_hashes {a b : List UInt8} (hFree : ¬ self.Collides a b) :
    commonPrefixLength (self.hashes a) (self.hashes b) =
      if a = b then blockCount self.blockSize a.length else commonPrefixLength a b / self.blockSize := by
  have hBlocks := self.common_hashesFrom 0 _ _ hFree
  split
  · rename_i h
    subst h
    rw [commonPrefixLength_self, hashes_length]
  · rename_i h
    rwa [commonBlocks_of_ne self.hSize h] at hBlocks

/-- A body and one that extends it: the hash of the last block decides. -/
theorem hashes_prefix_iff {a b : List UInt8} (hPrefix : a <+: b) :
    self.hashes a <+: self.hashes b ↔ self.blockSize ∣ a.length ∨ a = b ∨ self.Collides a b := by
  have hCommon : commonPrefixLength a b = a.length :=
    le_antisymm (commonPrefixLength_le a b).1 ((length_le_commonPrefixLength_iff a b).mpr hPrefix)
  rw [← length_le_commonPrefixLength_iff, hashes_length]
  constructor
  · intro hShared
    by_contra hNot
    push Not at hNot
    obtain ⟨hPartial, hNe, hFree⟩ := hNot
    rw [self.common_hashes hFree, if_neg hNe, hCommon, blockCount_of_not_dvd self.hSize hPartial] at hShared
    omega
  · intro hCases
    by_cases hNe : a = b
    · subst hNe
      rw [commonPrefixLength_self, hashes_length]
    have hBlocks := self.common_le_hashesFrom 0 (blocks self.blockSize a) (blocks self.blockSize b)
    rw [commonBlocks_of_ne self.hSize hNe, hCommon] at hBlocks
    by_cases hPartial : self.blockSize ∣ a.length
    · rwa [blockCount_of_dvd self.hSize hPartial]
    obtain ⟨i, key, x, y, hx, hy, hDiffer, hHash⟩ : self.Collides a b := by tauto
    have hAtA := self.hashInputs_getElem? 0 (blocks self.blockSize a) i
    have hAtB := self.hashInputs_getElem? 0 (blocks self.blockSize b) i
    rw [hx, Option.map_some] at hAtA
    rw [hy, Option.map_some] at hAtB
    have hNotShared : ¬ i < commonPrefixLength (blocks self.blockSize a) (blocks self.blockSize b) := by
      intro hi
      have hSame := getElem?_of_lt_common hi
      rw [← hAtA, ← hAtB, Option.some.injEq] at hSame
      exact hDiffer hSame
    have hRange := (List.getElem?_eq_some_iff.mp hAtA.symm).1
    rw [commonBlocks_of_ne self.hSize hNe, hCommon] at hNotShared
    rw [blocks_length, blockCount_of_not_dvd self.hSize hPartial] at hRange
    obtain rfl : i = a.length / self.blockSize := by omega
    rw [blockCount_of_not_dvd self.hSize hPartial]
    refine succ_le_commonPrefixLength (a := hash128 key x) hBlocks ?_ ?_
    · rw [hashes, hashesFrom, List.getElem?_map, hx]
      rfl
    · rw [hashes, hashesFrom, List.getElem?_map, hy, hHash]
      rfl

end

end BlockChainFingerprint

end Aimux.Trace
