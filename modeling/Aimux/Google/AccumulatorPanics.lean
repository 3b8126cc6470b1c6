import Aimux.Google.JsonAccumulator

/-! # Panics of the accumulator

No batch makes the accumulator panic, whatever was given to it before. `finalize` cuts the JSON text of the
value where as many bytes as were written end: it panics exactly where that is inside a character.
-/

namespace Aimux.Google

open Aimux.Core
open Aimux.Http (byteLength isCharBoundary takeBytes)

/-! ## Cuts -/

/-- So many bytes of the text end inside a character. -/
def SplitsChar (text : List Char) (stop : Nat) : Prop :=
  ∃ before c after, text = before ++ c :: after ∧ byteLength before < stop ∧
    stop < byteLength before + c.utf8Size

@[simp] theorem byteLength_nil : byteLength [] = 0 := rfl

@[simp] theorem byteLength_cons (c : Char) (text : List Char) :
    byteLength (c :: text) = c.utf8Size + byteLength text := by
  simp [byteLength]

variable (a b : List Char)

@[simp] theorem byteLength_append : byteLength (a ++ b) = byteLength a + byteLength b := by
  simp [byteLength]

theorem splitsChar_cons {c : Char} {text : List Char} {stop : Nat} :
    SplitsChar (c :: text) stop ↔
      (0 < stop ∧ stop < c.utf8Size) ∨ (c.utf8Size ≤ stop ∧ SplitsChar text (stop - c.utf8Size)) := by
  constructor
  · rintro ⟨before, d, after, hText, hAfter, hBefore⟩
    cases before with
    | nil =>
      obtain ⟨rfl, rfl⟩ := List.cons.inj hText
      exact .inl ⟨by simpa using hAfter, by simpa using hBefore⟩
    | cons e before =>
      obtain ⟨rfl, rfl⟩ := List.cons.inj hText
      rw [byteLength_cons] at hAfter hBefore
      exact .inr ⟨by omega, before, d, after, rfl, by omega, by omega⟩
  · rintro (⟨hPositive, hInside⟩ | ⟨hPast, before, d, after, rfl, hAfter, hBefore⟩)
    · exact ⟨[], c, text, rfl, by simpa using hPositive, by simpa using hInside⟩
    · exact ⟨c :: before, d, after, rfl, by rw [byteLength_cons]; omega, by rw [byteLength_cons]; omega⟩

theorem isCharBoundary_iff (text : List Char) (stop : Nat) :
    isCharBoundary text stop = true ↔ stop ≤ byteLength text ∧ ¬ SplitsChar text stop := by
  induction text generalizing stop with
  | nil => cases stop <;> simp [isCharBoundary, SplitsChar]
  | cons c text ih =>
    have hSize := c.utf8Size_pos
    cases stop with
    | zero =>
      refine iff_of_true (by simp [isCharBoundary]) ⟨Nat.zero_le _, ?_⟩
      rintro ⟨_, _, _, _, hAfter, _⟩
      exact Nat.not_lt_zero _ hAfter
    | succ stop =>
      rw [isCharBoundary.eq_def]
      simp only [Bool.and_eq_true, decide_eq_true_iff]
      rw [ih, splitsChar_cons, byteLength_cons]
      constructor
      · rintro ⟨hPast, hLength, hSplits⟩
        refine ⟨by omega, ?_⟩
        rintro (⟨_, hInside⟩ | ⟨_, hLater⟩)
        · omega
        · exact hSplits hLater
      · rintro ⟨hLength, hSplits⟩
        have hPast : c.utf8Size ≤ stop + 1 := by
          by_contra hInside
          exact hSplits (.inl ⟨Nat.succ_pos _, by omega⟩)
        exact ⟨hPast, by omega, fun hLater => hSplits (.inr ⟨hPast, hLater⟩)⟩

@[simp] theorem isCharBoundary_append : isCharBoundary (a ++ b) (byteLength a) = true := by
  induction a with
  | nil => simp [isCharBoundary]
  | cons c a ih =>
    rw [isCharBoundary_iff] at ih ⊢
    refine ⟨by simp, ?_⟩
    rw [List.cons_append, splitsChar_cons, byteLength_cons, Nat.add_sub_cancel_left]
    rintro (⟨_, hInside⟩ | ⟨_, hLater⟩)
    · omega
    · exact ih.2 hLater

@[simp] theorem takeBytes_byteLength : takeBytes (a ++ b) (byteLength a) = a := by
  induction a with
  | nil =>
    cases b with
    | nil => rfl
    | cons c b => simp [takeBytes, Nat.not_le.mpr c.utf8Size_pos]
  | cons c a ih => simp [takeBytes, ih]

theorem sliceTo_append : sliceTo (a ++ b) (byteLength a) = some a := by simp [sliceTo]

theorem sliceFrom_append : sliceFrom (a ++ b) (byteLength a) = some b := by simp [sliceFrom]

theorem isSome_sliceFrom (text : List Char) (start : Nat) :
    (sliceFrom text start).isSome = true ↔ start ≤ byteLength text ∧ ¬ SplitsChar text start := by
  rw [← isCharBoundary_iff, sliceFrom]
  split <;> simp_all

/-- The text of a string ends in a quote. -/
theorem withoutQuote_stringText (text : String) :
    withoutQuote (stringText text) = some ('"' :: escape text.toList) := by
  have hText : stringText text = ('"' :: escape text.toList) ++ ['"'] := rfl
  have hLength : checkedSub (byteLength (stringText text)) 1 = some (byteLength ('"' :: escape text.toList)) := by
    rw [hText, byteLength_append, show byteLength ['"'] = 1 from rfl, checkedSub]
    simp
  rw [withoutQuote, hLength, Option.bind_some, hText, sliceTo_append]

variable {valueJson : List Char} {arg : PartialArg} {shown : Shown} {value : Json}

theorem resolve_continues (hResolve : arg.resolve shown = some (value, valueJson)) (hContinues : arg.continues = true) :
    ∃ text, arg.stringValue = some text ∧ value = .string text ∧ valueJson = stringText text := by
  rw [PartialArg.continues, Bool.and_eq_true] at hContinues
  obtain ⟨text, hText⟩ := Option.isSome_iff_exists.mp hContinues.1
  rw [PartialArg.resolve, hText] at hResolve
  cases hResolve
  exact ⟨text, hText, rfl, rfl⟩

/-! ## The stack -/

theorem ensureRoot_ne_nil (stack : List StackEntry) : (ensureRoot stack).1 ≠ [] := by
  rw [ensureRoot]
  split
  · exact List.cons_ne_nil _ _
  · assumption

theorem findCommonStackDepth_cons (entry : StackEntry) (below : List StackEntry) (container : List Segment) :
    ∃ depth, findCommonStackDepth (entry :: below) container = some (depth + 1) := by
  simp [findCommonStackDepth, checkedSub]

variable {stack : List StackEntry}

/-- A depth that is not 0 leaves the root. -/
theorem closeDownTo_succ (depth : Nat) (hStack : stack ≠ []) :
    ∃ closed, closeDownTo (depth + 1) stack = some closed ∧ closed.1 ≠ [] := by
  induction stack with
  | nil => exact absurd rfl hStack
  | cons entry below ih =>
    rw [closeDownTo]
    split
    · rename_i hDeeper
      obtain ⟨closed, hClosed, hSome⟩ := ih (by rintro rfl; simp at hDeeper)
      exact ⟨(closed.1, _ :: closed.2), by rw [hClosed, Option.map_some], hSome⟩
    · exact ⟨_, rfl, List.cons_ne_nil _ _⟩

theorem openContainers_ne_nil (leaf : Segment) (container : List Segment) (hStack : stack ≠ []) :
    ∃ opened, openContainers leaf container stack = some opened ∧ opened.1 ≠ [] := by
  induction container generalizing stack with
  | nil => exact ⟨_, rfl, hStack⟩
  | cons segment rest ih =>
    obtain ⟨parent, below, rfl⟩ := List.exists_cons_of_ne_nil hStack
    obtain ⟨opened, hOpened, hSome⟩ := ih (List.cons_ne_nil
      { segment, isArray := (rest.headD leaf).isIndex, childCount := 0 } (parent.addChild :: below))
    exact ⟨(opened.1, _ ++ _ :: opened.2), by rw [openContainers, hOpened, Option.map_some], hSome⟩

theorem openDownTo_ne_nil (container : List Segment) (leaf : Segment) (hStack : stack ≠ []) :
    ∃ opened, openDownTo container leaf stack = some opened ∧ opened.1 ≠ [] := by
  obtain ⟨entry, below, rfl⟩ := List.exists_cons_of_ne_nil hStack
  obtain ⟨opened, hOpened, hSome⟩ := openContainers_ne_nil leaf (container.drop below.length) hStack
  exact ⟨opened, by simp [openDownTo, checkedSub, hOpened], hSome⟩

theorem emitLeaf_isSome (hResolve : arg.resolve shown = some (value, valueJson)) (leaf : Segment) (hStack : stack ≠ []) :
    ∃ emitted, emitLeaf leaf arg valueJson stack = some emitted := by
  obtain ⟨entry, below, rfl⟩ := List.exists_cons_of_ne_nil hStack
  rw [emitLeaf]
  by_cases hContinues : arg.continues = true
  · obtain ⟨text, _, _, rfl⟩ := resolve_continues hResolve hContinues
    exact ⟨_, by rw [if_pos hContinues, withoutQuote_stringText]; rfl⟩
  · exact ⟨_, by rw [if_neg hContinues]; rfl⟩

theorem emitNavigationTo_isSome (hResolve : arg.resolve shown = some (value, valueJson)) (self : GoogleJsonAccumulator)
    {target : List Segment} (hTarget : target ≠ []) :
    ∃ emitted, emitNavigationTo self target arg valueJson = some emitted := by
  obtain ⟨container, leaf, rfl⟩ := List.eq_nil_or_concat target |>.resolve_left hTarget
  obtain ⟨entry, below, hRoot⟩ := List.exists_cons_of_ne_nil (ensureRoot_ne_nil self.pathStack)
  obtain ⟨depth, hDepth⟩ := findCommonStackDepth_cons entry below container
  obtain ⟨closed, hClosed, hClosedSome⟩ := closeDownTo_succ depth (List.cons_ne_nil entry below)
  obtain ⟨opened, hOpened, hOpenedSome⟩ := openDownTo_ne_nil container leaf hClosedSome
  obtain ⟨emitted, hEmitted⟩ := emitLeaf_isSome hResolve leaf hOpenedSome
  exact ⟨_, by simp [emitNavigationTo, hRoot, checkedSub, hDepth, hClosed, hOpened, hEmitted]; rfl⟩

/-! ## Runs -/

theorem processArg_isSome (shown : Shown) (self : GoogleJsonAccumulator) (arg : PartialArg) :
    ∃ result, processArg shown self arg = some result := by
  rw [← Option.isSome_iff_exists]
  simp only [processArg]
  by_cases hPath : rawPath arg.jsonPath = [] ∨ parsePath (rawPath arg.jsonPath) = []
  · rw [if_pos hPath]
    rfl
  · rw [if_neg hPath]
    split
    · rfl
    · cases hResolve : arg.resolve shown with
      | none => rfl
      | some resolved =>
        obtain ⟨value, valueJson⟩ := resolved
        simp only
        cases setNestedValue shown self.accumulated (parsePath (rawPath arg.jsonPath)) value with
        | error error => rfl
        | ok accumulated =>
          obtain ⟨emitted, hEmitted⟩ := emitNavigationTo_isSome hResolve { self with accumulated }
            (not_or.mp hPath).2
          simp only [hEmitted, Option.map_some, Option.isSome_some]

theorem processArgs_isSome (shown : Shown) (args : List PartialArg) (self : GoogleJsonAccumulator) :
    ∃ result, processArgs shown args self = some result := by
  induction args generalizing self with
  | nil => exact ⟨_, rfl⟩
  | cons arg rest ih =>
    obtain ⟨result, hArg⟩ := processArg_isSome shown self arg
    rw [processArgs, hArg]
    cases result with
    | error error => exact ⟨_, rfl⟩
    | ok done =>
      obtain ⟨last, hRest⟩ := ih done.1
      exact ⟨_, by simp [hRest]; rfl⟩

theorem processPartialArgs_isSome (shown : Shown) (self : GoogleJsonAccumulator) (args : List PartialArg) :
    ∃ result, processPartialArgs shown self args = some result := by
  obtain ⟨⟨last, result⟩, hArgs⟩ := processArgs_isSome shown args self
  rw [processPartialArgs, hArgs]
  cases result <;> exact ⟨_, rfl⟩

/-- Batch after batch, with what each gives; an error ends its batch only. -/
def feed (shown : Shown) : List (List PartialArg) → GoogleJsonAccumulator →
    Option (GoogleJsonAccumulator × List (Except AiMuxError ProcessResult))
  | [], self => some (self, [])
  | batch :: rest, self => do
    let (next, result) ← processPartialArgs shown self batch
    let (last, results) ← feed shown rest next
    return (last, result :: results)

theorem feed_isSome (shown : Shown) (batches : List (List PartialArg)) (self : GoogleJsonAccumulator) :
    ∃ fed, feed shown batches self = some fed := by
  induction batches generalizing self with
  | nil => exact ⟨(self, []), rfl⟩
  | cons batch rest ih =>
    obtain ⟨⟨next, result⟩, hBatch⟩ := processPartialArgs_isSome shown self batch
    obtain ⟨⟨last, results⟩, hRest⟩ := ih next
    exact ⟨(last, result :: results), by simp [feed, hBatch, hRest]⟩

theorem isSome_finalize (shown : Shown) (self : GoogleJsonAccumulator) : (finalize shown self).isSome = true ↔
      ¬ SplitsChar (writeJson shown.number self.accumulated) (byteLength self.jsonText) := by
  have hSlice := isSome_sliceFrom (writeJson shown.number self.accumulated) (byteLength self.jsonText)
  simp only [finalize]
  split
  · rename_i hWithin
    rw [and_iff_right hWithin] at hSlice
    rw [← hSlice]
    cases sliceFrom (writeJson shown.number self.accumulated) (byteLength self.jsonText) <;> simp
  · rename_i hLonger
    refine iff_of_true rfl ?_
    rintro ⟨before, c, after, hText, _, hInside⟩
    rw [hText, byteLength_append, byteLength_cons] at hLonger
    omega

/-- A new accumulator takes every sequence of batches, and its end is found unless the text that was
written ends inside a character of the final one. -/
theorem accumulator_panics_iff (shown : Shown) (batches : List (List PartialArg)) :
    ∃ last results, feed shown batches {} = some (last, results) ∧
      ((finalize shown last).isSome = true ↔
        ¬ SplitsChar (writeJson shown.number last.accumulated) (byteLength last.jsonText)) := by
  obtain ⟨⟨last, results⟩, hFeed⟩ := feed_isSome shown batches {}
  exact ⟨last, results, hFeed, isSome_finalize shown last⟩

def skippedItem : PartialArg where
  jsonPath := "$.a[1]"
  stringValue := some "ééa"

/-- What was written does not have the null before the item. -/
theorem skipped_item_panics :
    ((feed ⟨fun _ => [], id⟩ [[skippedItem]] {}).bind fun fed => finalize ⟨fun _ => [], id⟩ fed.1).isNone = true := by
  decide +kernel

end Aimux.Google
