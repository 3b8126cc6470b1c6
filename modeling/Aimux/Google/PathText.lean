import Aimux.Google.JsonAccumulator
import Aimux.Lib.Numerals

/-! # Paths as they are written

A path is written `$.recipe.ingredients[0].name`. It is read back unless a key has a dot or a bracket in it,
or is empty where a part begins with an index or nothing else is left.
-/

namespace Aimux.Google

open Aimux.Lib

def segmentText : Segment → List Char
  | .key name => '.' :: name.toList
  | .index i => '[' :: (Nat.toDigits 10 i ++ [']'])
  | .root => []

def renderPath (path : List Segment) : String := String.ofList ('$' :: path.flatMap segmentText)

def Plain (name : String) : Prop := '.' ∉ name.toList ∧ '[' ∉ name.toList

/-- The paths that are read back, and below the caps. -/
structure Addressable (path : List Segment) : Prop where
  depth : path.length ≤ MAX_PARTIAL_ARG_DEPTH
  index : ∀ i, .index i ∈ path → i ≤ MAX_PARTIAL_ARG_INDEX
  key : ∀ name, .key name ∈ path → Plain name
  /-- No empty key stands before an index, and none alone. -/
  named : ∀ i, ¬ [.key "", .index i] <:+: path
  someKey : path ≠ [.key ""]

instance (name : String) : Decidable (Plain name) := inferInstanceAs (Decidable (_ ∧ _))

/-- The segments that may stand anywhere. -/
def Segment.Fits : Segment → Prop
  | .key name => name ≠ "" ∧ Plain name
  | .index i => i ≤ MAX_PARTIAL_ARG_INDEX
  | .root => False

instance : (segment : Segment) → Decidable segment.Fits
  | .key name => inferInstanceAs (Decidable (name ≠ "" ∧ Plain name))
  | .index i => inferInstanceAs (Decidable (i ≤ MAX_PARTIAL_ARG_INDEX))
  | .root => inferInstanceAs (Decidable False)

theorem addressable_of_fits {path : List Segment} (hDepth : path.length ≤ MAX_PARTIAL_ARG_DEPTH)
    (hFits : ∀ segment ∈ path, segment.Fits) : Addressable path where
  depth := hDepth
  index i hMem := hFits (.index i) hMem
  key name hMem := (hFits (.key name) hMem).2
  named i hInfix := (hFits (.key "") (hInfix.subset (by simp))).1 rfl
  someKey := by
    rintro rfl
    exact (hFits (.key "") List.mem_cons_self).1 rfl

theorem parseUsize_toDigits {i : Nat} (hIndex : i < 2 ^ 64) : parseUsize (Nat.toDigits 10 i) = some i := by
  have hDigits := digits_toDigits i
  have hSign : (Nat.toDigits 10 i).head? ≠ some '+' := by
    intro hHead
    have hDigit := hDigits '+' (List.mem_of_head? hHead)
    revert hDigit
    decide
  rw [parseUsize, if_neg hSign]
  refine (if_pos ⟨Nat.toDigits_ne_nil, ?_, ?_⟩).trans (congrArg some Nat.ofDigitChars_ten_toDigits)
  · exact List.all_eq_true.mpr hDigits
  · rwa [Nat.ofDigitChars_ten_toDigits]

theorem bracket_notMem_toDigits (i : Nat) : ']' ∉ Nat.toDigits 10 i := by
  intro hMem
  have hDigit := digits_toDigits i ']' hMem
  revert hDigit
  decide

theorem dot_notMem_indexText (i : Nat) : '.' ∉ segmentText (.index i) := by
  intro hMem
  simp only [segmentText, List.mem_cons, List.mem_append, List.not_mem_nil, or_false] at hMem
  rcases hMem with hMem | hMem | hMem
  · revert hMem; decide
  · have hDigit := digits_toDigits i '.' hMem
    revert hDigit; decide
  · revert hMem; decide

theorem parseBrackets_indices (indices : List Nat) (hIndices : ∀ i ∈ indices, i < 2 ^ 64) {fuel : Nat}
    (hFuel : indices.length ≤ fuel) :
    parseBrackets fuel (indices.flatMap fun i => segmentText (.index i)) = indices.map .index := by
  induction indices generalizing fuel with
  | nil => cases fuel <;> rfl
  | cons i indices ih =>
    obtain ⟨fuel, rfl⟩ := Nat.exists_eq_add_one.mpr (Nat.lt_of_lt_of_le (Nat.succ_pos _) hFuel)
    have hDigits : ∀ c ∈ Nat.toDigits 10 i, decide (c ≠ ']') = true := by
      rintro c hMem
      exact decide_eq_true fun hBracket => bracket_notMem_toDigits i (hBracket ▸ hMem)
    have hRest := ih (fun j hMem => hIndices j (List.mem_cons_of_mem _ hMem)) (Nat.le_of_succ_le_succ hFuel)
    rw [List.flatMap_cons, segmentText, List.cons_append, List.append_assoc, parseBrackets,
      if_pos (by simp), List.takeWhile_append_of_pos hDigits, List.dropWhile_append_of_pos hDigits]
    simp [parseUsize_toDigits (hIndices i List.mem_cons_self), hRest]

variable {name : String}

/-- A name and the indices after it. -/
theorem parsePart_indices (hPlain : Plain name) {indices : List Nat} (hNamed : indices ≠ [] → name ≠ "")
    (hIndices : ∀ i ∈ indices, i < 2 ^ 64) :
    parsePart (name.toList ++ indices.flatMap fun i => segmentText (.index i)) =
      .key name :: indices.map .index := by
  cases indices with
  | nil => simp [parsePart, hPlain.2]
  | cons i indices =>
    have hName : ∀ c ∈ name.toList, decide (c ≠ '[') = true := by
      rintro c hMem
      exact decide_eq_true fun hBracket => hPlain.2 (hBracket ▸ hMem)
    have hSome : name.toList ≠ [] := by simpa using hNamed (by simp)
    have hLength : (i :: indices).length ≤
        (name.toList ++ (i :: indices).flatMap fun i => segmentText (.index i)).length := by
      rw [List.length_append, List.length_flatMap]
      refine Nat.le_add_left_of_le ?_
      rw [← List.length_map fun i => (segmentText (.index i)).length]
      refine List.length_le_sum_of_one_le _ ?_
      rintro n hMem
      obtain ⟨j, _, rfl⟩ := List.mem_map.mp hMem
      simp [segmentText]
    have hBracket : '[' ∈ name.toList ++ (i :: indices).flatMap fun i => segmentText (.index i) := by
      simp [segmentText]
    have hTake : (name.toList ++ (i :: indices).flatMap fun i => segmentText (.index i)).takeWhile (· ≠ '[') =
        name.toList := by
      rw [List.takeWhile_append_of_pos hName]
      simp [segmentText]
    have hDrop : (name.toList ++ (i :: indices).flatMap fun i => segmentText (.index i)).dropWhile (· ≠ '[') =
        (i :: indices).flatMap fun i => segmentText (.index i) := by
      rw [List.dropWhile_append_of_pos hName]
      simp [segmentText]
    simp only [parsePart]
    rw [if_pos hBracket, hTake, hDrop, if_neg hSome, parseBrackets_indices _ hIndices hLength,
      String.ofList_toList]
    rfl

theorem dot_notMem_part (hPlain : Plain name) (indices : List Nat) :
    '.' ∉ name.toList ++ indices.flatMap fun i => segmentText (.index i) := by
  intro hMem
  rcases List.mem_append.mp hMem with hMem | hMem
  · exact hPlain.1 hMem
  · obtain ⟨i, _, hMem⟩ := List.mem_flatMap.mp hMem
    exact dot_notMem_indexText i hMem

/-- By induction on the path after the name and the indices that follow it. -/
theorem parsePath_part (path : List Segment) (hRoot : .root ∉ path) (hPlain : Plain name) (indices : List Nat)
    (hNamed : indices ≠ [] → name ≠ "") (hFirst : name = "" → ∀ i, path.head? ≠ some (.index i))
    (hIndices : ∀ i ∈ indices, i < 2 ^ 64) (hPath : ∀ i, .index i ∈ path → i < 2 ^ 64)
    (hPlains : ∀ other, .key other ∈ path → Plain other) (hLater : ∀ i, ¬ [.key "", .index i] <:+: path) :
    parsePath (name.toList ++ (indices.flatMap fun i => segmentText (.index i)) ++ path.flatMap segmentText) =
      .key name :: (indices.map .index ++ path) := by
  induction path generalizing name indices with
  | nil =>
    rw [List.flatMap_nil, List.append_nil, List.append_nil, parsePath,
      List.splitOn_eq_singleton (dot_notMem_part hPlain indices), List.flatMap_singleton,
      parsePart_indices hPlain hNamed hIndices]
  | cons segment path ih =>
    have hRoot' : .root ∉ path := fun hMem => hRoot (List.mem_cons_of_mem _ hMem)
    have hPath' : ∀ i, .index i ∈ path → i < 2 ^ 64 := fun i hMem => hPath i (List.mem_cons_of_mem _ hMem)
    have hPlains' : ∀ other, .key other ∈ path → Plain other :=
      fun other hMem => hPlains other (List.mem_cons_of_mem _ hMem)
    have hLater' : ∀ i, ¬ [.key "", .index i] <:+: path :=
      fun i hInfix => hLater i (hInfix.trans (List.suffix_cons _ _).isInfix)
    cases segment with
    | root => exact absurd List.mem_cons_self hRoot
    | index i =>
      have hSome : name ≠ "" := fun hEmpty => hFirst hEmpty i rfl
      have hMore := ih hRoot' hPlain (indices ++ [i]) (fun _ => hSome) (fun hEmpty => absurd hEmpty hSome)
        (by
          rintro j hMem
          rcases List.mem_append.mp hMem with hMem | hMem
          · exact hIndices j hMem
          · rw [List.mem_singleton.mp hMem]
            exact hPath i List.mem_cons_self)
        hPath' hPlains' hLater'
      simpa [List.flatMap_append] using hMore
    | key other =>
      have hMore := ih hRoot' (hPlains other List.mem_cons_self) [] (fun hNil => absurd rfl hNil)
        (by
          rintro rfl i hHead
          obtain ⟨rest, rfl⟩ := List.head?_eq_some_iff.mp hHead
          exact hLater i ⟨[], rest, rfl⟩)
        (fun _ hMem => absurd hMem List.not_mem_nil) hPath' hPlains' hLater'
      rw [List.flatMap_cons, segmentText, List.cons_append, parsePath, List.splitOn_append_cons_self,
        List.splitOn_eq_singleton (dot_notMem_part hPlain indices), List.flatMap_append,
        List.flatMap_singleton, parsePart_indices hPlain hNamed hIndices, ← parsePath]
      simpa using congrArg (Segment.key name :: indices.map Segment.index ++ ·) hMore

theorem rawPath_renderPath (name : String) (path : List Segment) :
    rawPath (renderPath (.key name :: path)) = name.toList ++ path.flatMap segmentText := by
  rw [rawPath, renderPath, String.toList_ofList]
  simp [segmentText]

/-- An addressable path from a key on is read back. -/
theorem Addressable.parsePath {path : List Segment} (h : Addressable (.key name :: path)) (hRoot : .root ∉ path) :
    rawPath (renderPath (.key name :: path)) ≠ [] ∧
      Google.parsePath (rawPath (renderPath (.key name :: path))) = .key name :: path := by
  have hFit : MAX_PARTIAL_ARG_INDEX < 2 ^ 64 := by decide
  rw [rawPath_renderPath]
  constructor
  · intro hEmpty
    obtain ⟨hName, hPath⟩ := List.append_eq_nil_iff.mp hEmpty
    obtain rfl : name = "" := by simpa using hName
    cases path with
    | nil => exact h.someKey rfl
    | cons segment path =>
      cases segment with
      | root => exact hRoot List.mem_cons_self
      | _ => simp [segmentText] at hPath
  · have hPart := parsePath_part path hRoot (h.key name List.mem_cons_self) [] (fun hNil => absurd rfl hNil)
      (by
        rintro rfl i hHead
        obtain ⟨rest, rfl⟩ := List.head?_eq_some_iff.mp hHead
        exact h.named i ⟨[], rest, rfl⟩)
      (fun _ hMem => absurd hMem List.not_mem_nil)
      (fun i hMem => Nat.lt_of_le_of_lt (h.index i (List.mem_cons_of_mem _ hMem)) hFit)
      (fun other hMem => h.key other (List.mem_cons_of_mem _ hMem))
      (fun i hInfix => h.named i (hInfix.trans (List.suffix_cons _ _).isInfix))
    simpa using hPart

end Aimux.Google
