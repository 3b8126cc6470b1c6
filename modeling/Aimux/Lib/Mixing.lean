import Mathlib

/-! # Mixing steps

The steps by which a hash function mixes a word lose nothing: exclusive or with a shift of the word itself, and the
product with a constant that has an inverse.
-/

namespace Aimux.Lib

section

variable {w : Nat}

theorem eq_zero_of_shift {word : BitVec w} {shift : Nat} (hShift : 0 < shift) (h : word = word >>> shift) :
    word = 0#w := by
  have hNat : word.toNat = word.toNat / 2 ^ shift := by
    rw [← Nat.shiftRight_eq_div_pow, ← BitVec.toNat_ushiftRight, ← h]
  apply BitVec.eq_of_toNat_eq
  rw [BitVec.toNat_zero]
  by_contra hSome
  have hLess := Nat.div_lt_self (Nat.pos_of_ne_zero hSome) (Nat.one_lt_two_pow (Nat.ne_of_gt hShift))
  omega

theorem xorShift_injective {shift : Nat} (hShift : 0 < shift) :
    Function.Injective fun word : BitVec w => word ^^^ (word >>> shift) := by
  intro word other h
  have hApart : (word ^^^ other) ^^^ (word ^^^ other) >>> shift = 0#w := by
    calc (word ^^^ other) ^^^ (word ^^^ other) >>> shift
        = (word ^^^ word >>> shift) ^^^ (other ^^^ other >>> shift) := by
          rw [BitVec.ushiftRight_xor_distrib]
          ac_rfl
      _ = 0#w := BitVec.xor_eq_zero_iff.mpr h
  exact BitVec.xor_eq_zero_iff.mp (eq_zero_of_shift hShift (BitVec.xor_eq_zero_iff.mp hApart))

theorem mul_injective {factor inverse : BitVec w} (hInverse : factor * inverse = 1#w) :
    Function.Injective fun word : BitVec w => word * factor := by
  intro word other h
  have hSame : word * factor * inverse = other * factor * inverse := congrArg (· * inverse) h
  rwa [BitVec.mul_assoc, BitVec.mul_assoc, hInverse, BitVec.mul_one, BitVec.mul_one] at hSame

end

end Aimux.Lib
