import Mathlib.Data.List.Basic
import Mathlib.Tactic.Ring

/-! # Common prefixes and fixed-size blocks

A list is cut into blocks of one size, of which the last may be shorter. The blocks that two lists share
tell how far the lists agree: two different lists share one block for each full block of their common
prefix, and a list shares all its blocks with itself.
-/

namespace Aimux.Lib

variable {α β : Type*}

/-! ## Common prefixes -/

def commonPrefixLength [DecidableEq α] : List α → List α → Nat
  | a :: as, b :: bs => if a = b then commonPrefixLength as bs + 1 else 0
  | _, _ => 0

theorem le_commonPrefixLength_iff [DecidableEq α] (n : Nat) (as bs : List α) :
    n ≤ commonPrefixLength as bs ↔ n ≤ as.length ∧ n ≤ bs.length ∧ as.take n = bs.take n := by
  induction n generalizing as bs with
  | zero => simp
  | succ n ih =>
    cases as with
    | nil => simp [commonPrefixLength]
    | cons a as =>
      cases bs with
      | nil => simp [commonPrefixLength]
      | cons b bs =>
        by_cases h : a = b
        · simp [commonPrefixLength, h, ih]
        · simp [commonPrefixLength, h]

theorem commonPrefixLength_le [DecidableEq α] (as bs : List α) :
    commonPrefixLength as bs ≤ as.length ∧ commonPrefixLength as bs ≤ bs.length := by
  obtain ⟨hLeft, hRight, _⟩ := (le_commonPrefixLength_iff _ as bs).mp le_rfl
  exact ⟨hLeft, hRight⟩

theorem commonPrefixLength_self [DecidableEq α] (as : List α) : commonPrefixLength as as = as.length := by
  refine le_antisymm (commonPrefixLength_le as as).1 ?_
  exact (le_commonPrefixLength_iff _ as as).mpr ⟨le_rfl, le_rfl, rfl⟩

theorem length_le_commonPrefixLength_iff [DecidableEq α] (as bs : List α) :
    as.length ≤ commonPrefixLength as bs ↔ as <+: bs := by
  rw [le_commonPrefixLength_iff, List.take_length]
  constructor
  · rintro ⟨_, _, hTake⟩
    rw [hTake]
    exact List.take_prefix _ bs
  · intro hPrefix
    exact ⟨le_rfl, hPrefix.length_le, List.prefix_iff_eq_take.mp hPrefix⟩

variable {as bs : List α}

theorem le_commonPrefixLength_getElem [DecidableEq α] {n : Nat} (hLeft : n ≤ as.length) (hRight : n ≤ bs.length) :
    n ≤ commonPrefixLength as bs ↔ ∀ i < n, as[i]? = bs[i]? := by
  rw [le_commonPrefixLength_iff]
  constructor
  · rintro ⟨_, _, hTake⟩ i hi
    rw [← List.getElem?_take_of_lt hi, hTake, List.getElem?_take_of_lt hi]
  · intro hAt
    refine ⟨hLeft, hRight, List.ext_getElem? fun i => ?_⟩
    by_cases hi : i < n
    · rw [List.getElem?_take_of_lt hi, List.getElem?_take_of_lt hi, hAt i hi]
    · rw [List.getElem?_take_eq_none (Nat.not_lt.mp hi), List.getElem?_take_eq_none (Nat.not_lt.mp hi)]

theorem getElem?_of_lt_common [DecidableEq α] {i : Nat} (hi : i < commonPrefixLength as bs) :
    as[i]? = bs[i]? := by
  obtain ⟨hLeft, hRight⟩ := commonPrefixLength_le as bs
  exact (le_commonPrefixLength_getElem hLeft hRight).mp le_rfl i hi

theorem succ_le_commonPrefixLength [DecidableEq α] {n : Nat} {a : α} (h : n ≤ commonPrefixLength as bs)
    (hLeft : as[n]? = some a) (hRight : bs[n]? = some a) :
    n + 1 ≤ commonPrefixLength as bs := by
  have hLeftRange := (List.getElem?_eq_some_iff.mp hLeft).1
  have hRightRange := (List.getElem?_eq_some_iff.mp hRight).1
  refine (le_commonPrefixLength_getElem hLeftRange hRightRange).mpr ?_
  intro i hi
  rcases Nat.lt_succ_iff_lt_or_eq.mp hi with hBefore | rfl
  · exact getElem?_of_lt_common (Nat.lt_of_lt_of_le hBefore h)
  · rw [hLeft, hRight]

/-! ## Blocks -/

/-- Block `i` of a list, empty from the end of the list on. -/
def block (size i : Nat) (as : List α) : List α := (as.drop (i * size)).take size

def blockCount (size length : Nat) : Nat := (length + size - 1) / size

def blocks (size : Nat) (as : List α) : List (List α) :=
  (List.range (blockCount size as.length)).map fun i => block size i as

@[simp] theorem blocks_length (size : Nat) (as : List α) :
    (blocks size as).length = blockCount size as.length := by
  simp [blocks]

variable {size : Nat}

theorem lt_blockCount_iff (hSize : 0 < size) (i length : Nat) :
    i < blockCount size length ↔ i * size < length := by
  rw [blockCount, Nat.lt_div_iff_mul_lt hSize]
  omega

theorem blocks_getElem? (as : List α) {i : Nat} (hi : i < blockCount size as.length) :
    (blocks size as)[i]? = some (block size i as) := by
  simp [blocks, hi]

theorem take_append_block (size i : Nat) (as : List α) :
    as.take (i * size) ++ block size i as = as.take ((i + 1) * size) := by
  rw [block, add_mul, one_mul, List.take_add]

theorem blockCount_of_dvd {length : Nat} (hSize : 0 < size) (h : size ∣ length) :
    blockCount size length = length / size := by
  obtain ⟨k, rfl⟩ := h
  rw [blockCount, Nat.mul_div_cancel_left k hSize, Nat.add_sub_assoc hSize, Nat.mul_add_div hSize,
    Nat.div_eq_of_lt (Nat.sub_lt hSize Nat.one_pos), Nat.add_zero]

theorem blockCount_of_not_dvd {length : Nat} (hSize : 0 < size) (h : ¬ size ∣ length) :
    blockCount size length = length / size + 1 := by
  have hRest : 0 < length % size := Nat.pos_of_ne_zero fun hZero => h (Nat.dvd_of_mod_eq_zero hZero)
  have hSplit := Nat.div_add_mod length size
  have hLess := Nat.mod_lt length hSize
  rw [blockCount, Nat.div_eq_iff hSize]
  have hMul : (length / size + 1) * size = size * (length / size) + size := by ring
  omega

/-! ## The blocks two lists share -/

theorem forall_block_eq_iff (size n : Nat) (as bs : List α) :
    (∀ i < n, block size i as = block size i bs) ↔ as.take (n * size) = bs.take (n * size) := by
  induction n with
  | zero => simp
  | succ n ih =>
    constructor
    · intro hAll
      have hBefore := ih.mp fun i hi => hAll i (Nat.lt_succ_of_lt hi)
      rw [← take_append_block, ← take_append_block, hBefore, hAll n (Nat.lt_succ_self n)]
    · intro hTake i hi
      have hBlock : ∀ cs : List α, block size i cs = block size i (cs.take ((n + 1) * size)) := by
        intro cs
        have hEnd : i * size + size ≤ (n + 1) * size := by
          rw [← Nat.succ_mul]
          exact Nat.mul_le_mul_right size hi
        rw [block, block, List.drop_take, List.take_take, min_eq_left (by omega)]
      rw [hBlock as, hBlock bs, hTake]

theorem le_commonBlocks_iff [DecidableEq α] (size n : Nat) (as bs : List α) :
    n ≤ commonPrefixLength (blocks size as) (blocks size bs) ↔
      n ≤ blockCount size as.length ∧ n ≤ blockCount size bs.length ∧
        as.take (n * size) = bs.take (n * size) := by
  rw [← forall_block_eq_iff]
  constructor
  · intro hShared
    have hBound := (le_commonPrefixLength_iff n _ _).mp hShared
    rw [blocks_length, blocks_length] at hBound
    obtain ⟨hLeft, hRight, _⟩ := hBound
    refine ⟨hLeft, hRight, fun i hi => ?_⟩
    have hAt := (le_commonPrefixLength_getElem (by rwa [blocks_length]) (by rwa [blocks_length])).mp hShared i hi
    rw [blocks_getElem? as (by omega), blocks_getElem? bs (by omega)] at hAt
    exact Option.some.inj hAt
  · rintro ⟨hLeft, hRight, hAll⟩
    refine (le_commonPrefixLength_getElem (by rwa [blocks_length]) (by rwa [blocks_length])).mpr ?_
    intro i hi
    rw [blocks_getElem? as (by omega), blocks_getElem? bs (by omega), hAll i hi]

/-- Two different lists share a block for each full block of their common prefix: a short last block
of one of them is never a block of the other. -/
theorem commonBlocks_of_ne [DecidableEq α] (hSize : 0 < size) (hNe : as ≠ bs) :
    commonPrefixLength (blocks size as) (blocks size bs) = commonPrefixLength as bs / size := by
  refine eq_of_forall_le_iff fun n => ?_
  rw [le_commonBlocks_iff, Nat.le_div_iff_mul_le hSize, le_commonPrefixLength_iff]
  constructor
  · rintro ⟨_, _, hTake⟩
    have hLengths := congrArg List.length hTake
    rw [List.length_take, List.length_take] at hLengths
    by_cases hFull : n * size ≤ as.length
    · exact ⟨hFull, by omega, hTake⟩
    · rw [List.take_of_length_le (by omega), List.take_of_length_le (by omega)] at hTake
      exact absurd hTake hNe
  · rintro ⟨hLeft, hRight, hTake⟩
    have hCount : ∀ cs : List α, n * size ≤ cs.length → n ≤ blockCount size cs.length := by
      intro cs hLength
      rw [blockCount, Nat.le_div_iff_mul_le hSize]
      omega
    exact ⟨hCount as hLeft, hCount bs hRight, hTake⟩

end Aimux.Lib
