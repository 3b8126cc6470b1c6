import Aimux.Core.Json
import Aimux.Lib.Utf8
import Aimux.Trace.Fingerprint

/-! # Denoising

`denoise` strips the members of a request body that change from call to call: transport fields at the top
and request ids at any depth. What is left is hashed, so bodies that differ only in such members have one
chain.
-/

namespace Aimux.Trace

open Aimux.Core Aimux.Lib

def NOISE_KEYS : List String := ["request_id", "requestId", "timestamp", "nonce"]

/-- What is stripped from an object at a depth. -/
def isNoise (depth : Nat) (key : String) : Bool :=
  if depth = 0 then NOISE_KEYS.contains key else key = "request_id" || key = "requestId"

mutual

def denoiseAt (depth : Nat) : Json → Json
  | .object fields => .object (denoiseFields depth fields)
  | .array items => .array (denoiseItems depth items)
  | value => value

def denoiseFields (depth : Nat) : List (String × Json) → List (String × Json)
  | [] => []
  | (key, value) :: rest =>
    if isNoise depth key then denoiseFields depth rest
    else (key, denoiseAt (depth + 1) value) :: denoiseFields depth rest

def denoiseItems (depth : Nat) : List Json → List Json
  | [] => []
  | item :: rest => denoiseAt (depth + 1) item :: denoiseItems depth rest

end

def denoise (value : Json) : Json := denoiseAt 0 value

/-- The chain of a body; `toVec` is the serializer. -/
def bodyChain (self : BlockChainFingerprint) (toVec : Json → List UInt8) (body : Json) : Chain :=
  self.compute (toVec (denoise body))

/-! ## What is left -/

variable (depth : Nat)

theorem denoiseFields_eq_map (fields : List (String × Json)) :
    denoiseFields depth fields = (fields.filter fun field => !isNoise depth field.1).map
      fun field => (field.1, denoiseAt (depth + 1) field.2) := by
  induction fields with
  | nil => rfl
  | cons field rest ih =>
    obtain ⟨key, value⟩ := field
    rw [denoiseFields, ih, List.filter_cons]
    cases isNoise depth key <;> rfl

theorem denoiseItems_eq_map (items : List Json) : denoiseItems depth items = items.map (denoiseAt (depth + 1)) := by
  induction items with
  | nil => rfl
  | cons item rest ih => rw [denoiseItems, ih, List.map_cons]

mutual

theorem denoiseAt_idempotent (depth : Nat) (value : Json) :
    denoiseAt depth (denoiseAt depth value) = denoiseAt depth value := by
  match value with
  | .object fields => rw [denoiseAt, denoiseAt, denoiseFields_idempotent]
  | .array items => rw [denoiseAt, denoiseAt, denoiseItems_idempotent]
  | .null | .bool _ | .number _ | .string _ => rfl

theorem denoiseFields_idempotent (depth : Nat) (fields : List (String × Json)) :
    denoiseFields depth (denoiseFields depth fields) = denoiseFields depth fields := by
  match fields with
  | [] => rfl
  | (key, value) :: rest =>
    rw [denoiseFields]
    split
    · exact denoiseFields_idempotent depth rest
    · rename_i hKept
      rw [denoiseFields, if_neg hKept, denoiseAt_idempotent, denoiseFields_idempotent]

theorem denoiseItems_idempotent (depth : Nat) (items : List Json) :
    denoiseItems depth (denoiseItems depth items) = denoiseItems depth items := by
  match items with
  | [] => rfl
  | item :: rest =>
    rw [denoiseItems, denoiseItems, denoiseAt_idempotent, denoiseItems_idempotent]

end

/-! ### Positions -/

inductive PathStep where
  | member (key : String)
  | item (index : Nat)

/-- The member or item at one step. -/
def stepInto : Json → PathStep → Option Json
  | .object fields, .member key => fields.lookup key
  | .array items, .item index => items[index]?
  | _, _ => none

def valueAt : Json → List PathStep → Option Json
  | value, [] => some value
  | value, step :: path => (stepInto value step).bind (valueAt · path)

/-- The step is a noise key of an object at this depth. -/
def PathStep.isNoise (depth : Nat) : PathStep → Bool
  | .member key => Trace.isNoise depth key
  | .item _ => false

/-- Some step of the path, begun at this depth, is a noise key. -/
def passesNoise : Nat → List PathStep → Bool
  | _, [] => false
  | depth, step :: path => step.isNoise depth || passesNoise (depth + 1) path

/-- The keys of an object, in order, that are not noise. -/
def keptKeys (depth : Nat) : Json → List String
  | .object fields => (fields.map (·.1)).filter fun key => !isNoise depth key
  | _ => []

theorem lookup_denoiseFields (fields : List (String × Json)) (key : String) :
    (denoiseFields depth fields).lookup key =
      if isNoise depth key then none else (fields.lookup key).map (denoiseAt (depth + 1)) := by
  induction fields with
  | nil => simp [denoiseFields]
  | cons field rest ih =>
    obtain ⟨name, value⟩ := field
    rw [denoiseFields]
    split
    · rename_i hNoise
      rw [ih]
      split
      · rfl
      · rename_i hKept
        have hOther : key ≠ name := by
          rintro rfl
          exact hKept hNoise
        rw [List.lookup_cons, beq_false_of_ne hOther]
    · rename_i hKept
      rw [List.lookup_cons, List.lookup_cons]
      by_cases hSame : key = name
      · subst hSame
        rw [beq_self_eq_true, if_neg hKept]
        rfl
      · rw [beq_false_of_ne hSame]
        exact ih

theorem stepInto_denoiseAt (value : Json) (step : PathStep) :
    stepInto (denoiseAt depth value) step =
      if step.isNoise depth then none else (stepInto value step).map (denoiseAt (depth + 1)) := by
  cases value with
  | object fields =>
    cases step with
    | member key => exact lookup_denoiseFields depth fields key
    | item index => rfl
  | array items =>
    cases step with
    | member key => exact (ite_self none).symm
    | item index =>
      rw [denoiseAt, denoiseItems_eq_map, stepInto, List.getElem?_map]
      rfl
  | _ => exact (ite_self none).symm

/-- A path that passes a noise key leads nowhere; every other path leads where it led before. -/
theorem valueAt_denoiseAt (value : Json) (path : List PathStep) :
    valueAt (denoiseAt depth value) path =
      if passesNoise depth path then none
      else (valueAt value path).map (denoiseAt (depth + path.length)) := by
  induction path generalizing depth value with
  | nil => rfl
  | cons step path ih =>
    rw [valueAt, stepInto_denoiseAt, passesNoise]
    cases hNoise : step.isNoise depth with
    | true => rfl
    | false =>
      rw [valueAt, if_neg Bool.false_ne_true, Bool.false_or]
      cases stepInto value step with
      | none => exact (ite_self none).symm
      | some child =>
        rw [Option.map_some, Option.bind_some, ih, List.length_cons, Option.bind_some,
          Nat.add_assoc depth 1, Nat.add_comm 1]

theorem keys_denoiseAt (fields : List (String × Json)) :
    (denoiseFields depth fields).map (·.1) = keptKeys depth (.object fields) := by
  rw [denoiseFields_eq_map, keptKeys, List.map_map, List.filter_map]
  rfl

/-! ## Two bodies -/

mutual

/-- The two values differ only in noise members. -/
inductive SameButNoise : Nat → Json → Json → Prop
  | refl (depth : Nat) (value : Json) : SameButNoise depth value value
  | array {depth : Nat} {xs ys : List Json} (hItems : SameItems depth xs ys) :
    SameButNoise depth (.array xs) (.array ys)
  | object {depth : Nat} {xs ys : List (String × Json)} (hFields : SameFields depth xs ys) :
    SameButNoise depth (.object xs) (.object ys)

inductive SameItems : Nat → List Json → List Json → Prop
  | nil (depth : Nat) : SameItems depth [] []
  | cons {depth : Nat} {x y : Json} {xs ys : List Json} (hHead : SameButNoise (depth + 1) x y)
    (hTail : SameItems depth xs ys) : SameItems depth (x :: xs) (y :: ys)

/-- A noise member may stand on one side only. -/
inductive SameFields : Nat → List (String × Json) → List (String × Json) → Prop
  | nil (depth : Nat) : SameFields depth [] []
  | left {depth : Nat} {key : String} {x : Json} {xs ys : List (String × Json)}
    (hNoise : isNoise depth key = true) (hTail : SameFields depth xs ys) :
    SameFields depth ((key, x) :: xs) ys
  | right {depth : Nat} {key : String} {y : Json} {xs ys : List (String × Json)}
    (hNoise : isNoise depth key = true) (hTail : SameFields depth xs ys) :
    SameFields depth xs ((key, y) :: ys)
  | cons {depth : Nat} {key : String} {x y : Json} {xs ys : List (String × Json)}
    (hHead : SameButNoise (depth + 1) x y) (hTail : SameFields depth xs ys) :
    SameFields depth ((key, x) :: xs) ((key, y) :: ys)

end

mutual

theorem SameButNoise.denoise_eq {depth : Nat} {x y : Json} (hSame : SameButNoise depth x y) :
    denoiseAt depth x = denoiseAt depth y := by
  match hSame with
  | .refl _ _ => rfl
  | .array hItems => rw [denoiseAt, denoiseAt, hItems.denoise_eq]
  | .object hFields => rw [denoiseAt, denoiseAt, hFields.denoise_eq]

theorem SameItems.denoise_eq {depth : Nat} {xs ys : List Json} (hSame : SameItems depth xs ys) :
    denoiseItems depth xs = denoiseItems depth ys := by
  match hSame with
  | .nil _ => rfl
  | .cons hHead hTail => rw [denoiseItems, denoiseItems, hHead.denoise_eq, hTail.denoise_eq]

theorem SameFields.denoise_eq {depth : Nat} {xs ys : List (String × Json)}
    (hSame : SameFields depth xs ys) : denoiseFields depth xs = denoiseFields depth ys := by
  match hSame with
  | .nil _ => rfl
  | .left hNoise hTail => rw [denoiseFields, if_pos hNoise, hTail.denoise_eq]
  | .right hNoise hTail => rw [denoiseFields, if_pos hNoise, hTail.denoise_eq]
  | .cons hHead hTail => rw [denoiseFields, denoiseFields, hHead.denoise_eq, hTail.denoise_eq]

end

namespace BlockChainFingerprint

/-- Without a collision of two blocks in one place the chain tells two texts apart. -/
theorem compute_ne (self : BlockChainFingerprint) {a b : List UInt8} (hNe : a ≠ b)
    (hFree : ¬ self.Collides a b) : self.compute a ≠ self.compute b := by
  intro hSame
  have hHashes : self.hashes a = self.hashes b := congrArg Chain.blockHashes hSame
  have hLength : a.length = b.length := congrArg Chain.lenBytes hSame
  have hCommon := self.common_hashes hFree
  rw [if_neg hNe, hHashes, commonPrefixLength_self, hashes_length, ← hLength] at hCommon
  have hShort : commonPrefixLength a b < a.length := by
    refine Nat.lt_of_le_of_ne (commonPrefixLength_le a b).1 fun hWhole => hNe ?_
    exact ((length_le_commonPrefixLength_iff a b).mp hWhole.ge).eq_of_length hLength
  have hBlock : commonPrefixLength a b / self.blockSize < blockCount self.blockSize a.length := by
    rw [lt_blockCount_iff self.hSize]
    exact Nat.lt_of_le_of_lt (Nat.div_mul_le_self _ _) hShort
  omega

end BlockChainFingerprint

/-- Denoising is idempotent; it takes away exactly what stands under a noise key of its depth and leaves
the other members where they were, in their order; bodies that differ only in noise have one chain, and
without a collision of their blocks bodies whose denoised bytes differ have different chains. -/
theorem denoise_chains (self : BlockChainFingerprint) (toVec : Json → List UInt8) :
    (∀ body, denoise (denoise body) = denoise body) ∧
    (∀ body path, valueAt (denoise body) path =
      if passesNoise 0 path then none else (valueAt body path).map (denoiseAt path.length)) ∧
    (∀ depth fields, (denoiseFields depth fields).map (·.1) = keptKeys depth (.object fields)) ∧
    (∀ body other, SameButNoise 0 body other → bodyChain self toVec body = bodyChain self toVec other) ∧
    ∀ body other, toVec (denoise body) ≠ toVec (denoise other) →
      ¬ self.Collides (toVec (denoise body)) (toVec (denoise other)) →
      bodyChain self toVec body ≠ bodyChain self toVec other := by
  refine ⟨denoiseAt_idempotent 0, fun body path => ?_, keys_denoiseAt, fun body other hSame => ?_,
    fun body other hNe hFree => self.compute_ne hNe hFree⟩
  · rw [denoise, valueAt_denoiseAt, Nat.zero_add]
  · rw [bodyChain, denoise, hSame.denoise_eq]
    rfl

end Aimux.Trace
