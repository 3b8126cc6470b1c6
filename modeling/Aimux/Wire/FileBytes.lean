import Aimux.Prompt.Equality
import Aimux.Wire.Base64Agreement

/-! # Equality of file bytes

When `PartialEq` of `FileBytes` is equality of the bytes, whatever the form.
-/

namespace Aimux.Wire

open Aimux.Lib.Base64 (pack clear canonicalPadding pack_eq_iff)
open Aimux.Core (FileBytes)
open Aimux.Prompt (bytesEq)

/-! ## Spellings of bytes -/

/-- The digits of a text that is decoded. -/
def takenDigits (text : String) : Option (List (Fin 64)) :=
  match spelled text with
  | some (digits, padding) =>
    if digits.length % 4 ≠ 1 ∧ padding ≤ canonicalPadding digits.length then some digits else none
  | none => none

theorem takenDigits_length {text : String} {digits : List (Fin 64)} (h : takenDigits text = some digits) :
    digits.length % 4 ≠ 1 := by
  unfold takenDigits at h
  split at h
  · split at h
    · rename_i hTaken
      cases h
      exact hTaken.1
    · cases h
  · cases h

variable {crate : Base64Crate}

theorem decodeBase64_taken (hCrate : crate.Documented) (text : String) :
    decodeBase64 crate text = (takenDigits text).map pack := by
  rw [decodeBase64_eq hCrate, takenDigits]
  cases spelled text with
  | none => rfl
  | some found =>
    rw [Option.bind_some]
    dsimp only
    split <;> rfl

/-- Two texts that differ in white space, letters of the other alphabet, padding or spare bits only. -/
def respelled : FileBytes → FileBytes → Bool
  | .base64 text, .base64 other =>
    text ≠ other && (takenDigits text).isSome && (takenDigits text).map clear = (takenDigits other).map clear
  | _, _ => false

theorem respelled_iff (hCrate : crate.Documented) (text other : String) :
    respelled (.base64 text) (.base64 other) = true ↔
      text ≠ other ∧ ∃ bytes, decodeBase64 crate text = some bytes ∧ decodeBase64 crate other = some bytes := by
  rw [respelled, Bool.and_eq_true, Bool.and_eq_true, decide_eq_true_eq, decide_eq_true_eq, and_assoc,
    decodeBase64_taken hCrate, decodeBase64_taken hCrate]
  refine and_congr_right fun _ => ?_
  cases hText : takenDigits text with
  | none =>
    constructor
    · rintro ⟨hSome, _⟩
      cases hSome
    · rintro ⟨bytes, hBytes, _⟩
      cases hBytes
  | some digits =>
    cases hOther : takenDigits other with
    | none =>
      constructor
      · rintro ⟨_, hSame⟩
        cases hSame
      · rintro ⟨bytes, _, hBytes⟩
        cases hBytes
    | some others =>
      have hSame := pack_eq_iff (takenDigits_length hText) (takenDigits_length hOther)
      constructor
      · rintro ⟨_, hClear⟩
        exact ⟨pack digits, rfl, congrArg some (hSame.mpr (Option.some.inj hClear)).symm⟩
      · rintro ⟨bytes, hBytes, hOthers⟩
        exact ⟨rfl, congrArg some (hSame.mp ((Option.some.inj hBytes).trans (Option.some.inj hOthers).symm))⟩

/-! ## Equality -/

section

variable (crate : Base64Crate)

/-- The bytes that a value holds. -/
def heldBytes : FileBytes → Option (List UInt8)
  | .binary bytes => some bytes
  | .base64 text => decodeBase64 crate text

/-- Among the values, equality is that of the bytes they hold. -/
structure EqualAsBytes (values : List FileBytes) : Prop where
  equal_iff : ∀ x ∈ values, ∀ y ∈ values, ∀ xBytes yBytes, heldBytes crate x = some xBytes → heldBytes crate y = some yBytes →
    (bytesEq (decodeBase64 crate) x y = true ↔ xBytes = yBytes)
  symm : ∀ x ∈ values, ∀ y ∈ values, bytesEq (decodeBase64 crate) x y = true → bytesEq (decodeBase64 crate) y x = true
  trans : ∀ x ∈ values, ∀ y ∈ values, ∀ z ∈ values, bytesEq (decodeBase64 crate) x y = true →
    bytesEq (decodeBase64 crate) y z = true → bytesEq (decodeBase64 crate) x z = true

end

theorem bytesEq_symm {x y : FileBytes} (h : bytesEq (decodeBase64 crate) x y = true) :
    bytesEq (decodeBase64 crate) y x = true := by
  cases x with
  | binary bytes =>
    cases y with
    | binary others => exact beq_iff_eq.mpr (beq_iff_eq.mp h).symm
    | base64 other => exact h
  | base64 text =>
    cases y with
    | binary others => exact h
    | base64 other => exact beq_iff_eq.mpr (beq_iff_eq.mp h).symm

/-- Equal values are the same one, or they hold the same bytes. -/
theorem bytesEq_cases {x y : FileBytes} (h : bytesEq (decodeBase64 crate) x y = true) :
    x = y ∨ ∃ bytes, heldBytes crate x = some bytes ∧ heldBytes crate y = some bytes := by
  cases x with
  | binary bytes =>
    cases y with
    | binary others => exact .inl (congrArg FileBytes.binary (beq_iff_eq.mp h))
    | base64 other => exact .inr ⟨bytes, rfl, beq_iff_eq.mp h⟩
  | base64 text =>
    cases y with
    | binary others => exact .inr ⟨others, beq_iff_eq.mp h, rfl⟩
    | base64 other => exact .inl (congrArg FileBytes.base64 (beq_iff_eq.mp h))

section

variable {crate : Base64Crate} (hCrate : crate.Documented) {x y z : FileBytes}

include hCrate

theorem bytesEq_iff (h : respelled x y = false) {xBytes yBytes : List UInt8} (hX : heldBytes crate x = some xBytes)
    (hY : heldBytes crate y = some yBytes) : bytesEq (decodeBase64 crate) x y = true ↔ xBytes = yBytes := by
  cases x with
  | binary bytes =>
    cases hX
    cases y with
    | binary others =>
      cases hY
      exact beq_iff_eq
    | base64 other =>
      rw [bytesEq, beq_iff_eq, show decodeBase64 crate other = _ from hY, Option.some.injEq, eq_comm]
  | base64 text =>
    cases y with
    | binary others =>
      cases hY
      rw [bytesEq, beq_iff_eq, show decodeBase64 crate text = _ from hX, Option.some.injEq]
    | base64 other =>
      rw [bytesEq, beq_iff_eq]
      constructor
      · rintro rfl
        exact Option.some.inj (hX.symm.trans hY)
      · rintro rfl
        by_contra hOther
        exact absurd ((respelled_iff hCrate text other).mpr ⟨hOther, xBytes, hX, hY⟩) (by rw [h]; exact Bool.false_ne_true)

theorem bytesEq_trans (hSpelled : respelled x z = false) (hXY : bytesEq (decodeBase64 crate) x y = true)
    (hYZ : bytesEq (decodeBase64 crate) y z = true) : bytesEq (decodeBase64 crate) x z = true := by
  rcases bytesEq_cases hXY with rfl | ⟨bytes, hX, hY⟩
  · exact hYZ
  · rcases bytesEq_cases hYZ with rfl | ⟨others, hY', hZ⟩
    · exact hXY
    · exact (bytesEq_iff hCrate hSpelled hX hZ).mpr (Option.some.inj (hY.symm.trans hY'))

end

/-- Equality is that of the bytes just where no two texts spell the same bytes in two ways. -/
theorem equalAsBytes_iff {crate : Base64Crate} (hCrate : crate.Documented) (a b c : FileBytes) :
    EqualAsBytes crate [a, b, c] ↔ ∀ x ∈ [a, b, c], ∀ y ∈ [a, b, c], respelled x y = false := by
  constructor
  · intro h x hX y hY
    cases hSpelled : respelled x y with
    | false => rfl
    | true =>
      cases x with
      | binary bytes => cases hSpelled
      | base64 text =>
        cases y with
        | binary bytes => cases hSpelled
        | base64 other =>
          obtain ⟨hOther, bytes, hText, hBytes⟩ := (respelled_iff hCrate text other).mp hSpelled
          have hEq := (h.equal_iff _ hX _ hY bytes bytes hText hBytes).mpr rfl
          exact absurd (beq_iff_eq.mp hEq) hOther
  · intro h
    exact ⟨fun x hX y hY _ _ => bytesEq_iff hCrate (h x hX y hY), fun _ _ _ _ => bytesEq_symm,
      fun x hX _ _ z hZ => bytesEq_trans hCrate (h x hX z hZ)⟩

theorem equalAsBytes_iff_zero :
    EqualAsBytes documentedCrate [.binary [0], .base64 "AA==", .base64 "AQ=="] := by
  refine (equalAsBytes_iff documentedCrate_documented _ _ _).mpr ?_
  decide +kernel

theorem padding_not_equal :
    bytesEq (decodeBase64 documentedCrate) (.base64 "AA") (.binary [0]) = true ∧
    bytesEq (decodeBase64 documentedCrate) (.binary [0]) (.base64 "AA==") = true ∧
    bytesEq (decodeBase64 documentedCrate) (.base64 "AA") (.base64 "AA==") = false := by decide +kernel

end Aimux.Wire
