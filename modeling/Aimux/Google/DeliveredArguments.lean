import Aimux.Google.AccumulatorText

/-! # Delivered arguments

Batches of one sequence of arguments write the same text, however the sequence is cut. For the leaves of an
object in document order it is the text of the object, up to what `finalize` adds.
-/

namespace Aimux.Google

open Aimux.Core
open Aimux.Http (byteLength)

variable {shown : Shown}

/-! ## Batches of one sequence -/

def GoogleJsonAccumulator.withText (self : GoogleJsonAccumulator) (jsonText : List Char) : GoogleJsonAccumulator :=
  { self with jsonText }

theorem emitNavigationTo_withText (self : GoogleJsonAccumulator) (jsonText : List Char) (target : List Segment)
    (arg : PartialArg) (valueJson : List Char) :
    emitNavigationTo (self.withText jsonText) target arg valueJson =
      (emitNavigationTo self target arg valueJson).map fun done => (done.1.withText jsonText, done.2) := by
  simp [emitNavigationTo, GoogleJsonAccumulator.withText, Option.map_bind]
  rfl

/-- The text of the earlier batches is neither read nor changed. -/
theorem processArg_withText (self : GoogleJsonAccumulator) (jsonText : List Char) (arg : PartialArg) :
    processArg shown (self.withText jsonText) arg =
      (processArg shown self arg).map (·.map fun done => (done.1.withText jsonText, done.2)) := by
  have hEmit := fun accumulated =>
    emitNavigationTo_withText { self with accumulated } jsonText (parsePath (rawPath arg.jsonPath)) arg
  simp only [GoogleJsonAccumulator.withText] at hEmit
  simp only [processArg, GoogleJsonAccumulator.withText]
  split
  · rfl
  · split
    · rename_i text existing _ _
      generalize setNestedValue shown self.accumulated _ _ = result
      cases result <;> rfl
    · cases arg.resolve shown with
      | none => rfl
      | some resolved =>
        obtain ⟨value, valueJson⟩ := resolved
        simp only
        generalize setNestedValue shown self.accumulated _ _ = result
        cases result with
        | error error => rfl
        | ok accumulated =>
          simp only [hEmit accumulated valueJson]
          cases emitNavigationTo { self with accumulated } _ arg valueJson <;> rfl

variable (shown) in
theorem processArgs_withText (args : List PartialArg) (self : GoogleJsonAccumulator) (jsonText : List Char) :
    processArgs shown args (self.withText jsonText) =
      (processArgs shown args self).map fun done => (done.1.withText jsonText, done.2) := by
  induction args generalizing self with
  | nil => rfl
  | cons arg args ih =>
    rw [processArgs, processArgs, processArg_withText]
    cases processArg shown self arg with
    | none => rfl
    | some result =>
      cases result with
      | error error => rfl
      | ok done =>
        simp only [Option.map_some, Except.map, Option.bind_eq_bind, Option.bind_some, ih]
        cases processArgs shown args done.1 <;> rfl

variable {self : GoogleJsonAccumulator} {args : List PartialArg}

theorem processArgs_append_ok {more : List PartialArg} {last : GoogleJsonAccumulator} {delta : List Char}
    (h : processArgs shown (args ++ more) self = some (last, .ok delta)) :
    ∃ next first rest, processArgs shown args self = some (next, .ok first) ∧
      processArgs shown more next = some (last, .ok rest) ∧ delta = first ++ rest := by
  induction args generalizing self delta with
  | nil => exact ⟨self, [], delta, rfl, h, rfl⟩
  | cons arg args ih =>
    rw [List.cons_append, processArgs, Option.bind_eq_bind, Option.bind_eq_some_iff] at h
    obtain ⟨result, hArg, hResult⟩ := h
    cases result with
    | error error => cases hResult
    | ok done =>
      obtain ⟨⟨middle, tail⟩, hTail, hDelta⟩ := Option.bind_eq_some_iff.mp hResult
      cases tail with
      | error error => cases hDelta
      | ok tail =>
        cases hDelta
        obtain ⟨next, first, rest, hFirst, hRest, rfl⟩ := ih hTail
        refine ⟨next, done.2 ++ first, rest, ?_, hRest, by rw [List.append_assoc]⟩
        rw [processArgs, hArg]
        simp [hFirst, Except.map]

theorem jsonText_of_processArgs {next : GoogleJsonAccumulator} {result : Except AiMuxError (List Char)}
    (h : processArgs shown args self = some (next, result)) :
    next.jsonText = self.jsonText := by
  have hText := processArgs_withText shown args self self.jsonText
  rw [show self.withText self.jsonText = self from rfl, h, Option.map_some, Option.some.injEq,
    Prod.mk.injEq] at hText
  have hNext := congrArg GoogleJsonAccumulator.jsonText hText.1
  exact hNext

theorem feed_of_processArgs (batches : List (List PartialArg)) {last : GoogleJsonAccumulator} {delta : List Char}
    (h : processArgs shown batches.flatten self = some (last, .ok delta)) :
    ∃ results : List ProcessResult,
      feed shown batches self = some (last.withText (self.jsonText ++ delta), results.map Except.ok) ∧
      (results.map (·.textDelta)).flatten = delta := by
  induction batches generalizing self last delta with
  | nil =>
    cases h
    exact ⟨[], by simp [feed, GoogleJsonAccumulator.withText], rfl⟩
  | cons batch batches ih =>
    rw [List.flatten_cons] at h
    obtain ⟨next, first, rest, hBatch, hRest, rfl⟩ := processArgs_append_ok h
    have hRest' : processArgs shown batches.flatten (next.withText (self.jsonText ++ first)) =
        some (last.withText (self.jsonText ++ first), .ok rest) := by
      rw [processArgs_withText, hRest, Option.map_some]
    obtain ⟨results, hFeed, hDeltas⟩ := ih hRest'
    refine ⟨⟨next.accumulated, first⟩ :: results, ?_, by rw [← hDeltas]; rfl⟩
    have hProcess : processPartialArgs shown self batch =
        some (next.withText (self.jsonText ++ first), .ok ⟨next.accumulated, first⟩) := by
      simp [processPartialArgs, hBatch, jsonText_of_processArgs hBatch, GoogleJsonAccumulator.withText]
    simp only [feed, hProcess, Option.bind_eq_bind, Option.bind_some, hFeed]
    simp [GoogleJsonAccumulator.withText]

/-! ## The whole object -/

theorem Written.finalize {value : Json} (h : Written shown self self.jsonText value) :
    ∃ closing, Google.finalize shown self = some ⟨writeJson shown.number value, closing⟩ ∧
      self.jsonText ++ closing = writeJson shown.number value := by
  obtain ⟨stack, opened, hOpen, _, hOpened⟩ := h.opened
  have hText : writeJson shown.number value =
      self.jsonText ++ (self.quote ++ (ensureRoot self.pathStack).2 ++ closers stack) := by
    rw [hOpen.writeJson, ← hOpened]
    simp only [List.append_assoc]
  refine ⟨_, ?_, hText.symm⟩
  have hWithin : byteLength self.jsonText ≤ byteLength (writeJson shown.number value) := by
    rw [hText, byteLength_append]
    exact Nat.le_add_right _ _
  simp only [Google.finalize, h.accumulated, if_pos hWithin]
  rw [hText, sliceFrom_append]
  rfl

/-- The deltas of the batches and the closing delta are the text of the fields' object, which is what was
accumulated. -/
def Assembles (shown : Shown) (fields : List (String × Json)) (batches : List (List PartialArg)) : Prop :=
  ∃ (last : GoogleJsonAccumulator) (results : List ProcessResult) (closing : List Char),
    feed shown batches {} = some (last, results.map Except.ok) ∧
    finalize shown last = some ⟨writeJson shown.number (.object fields), closing⟩ ∧
    (results.map (·.textDelta)).flatten ++ closing = writeJson shown.number (.object fields) ∧
    last.accumulated = .object fields

/-- Whatever object is delivered, if its paths are read back and below the caps. -/
theorem assembles_delivered (shown : Shown) {fields : List (String × Json)} {leaves : List Leaf}
    (hDelivers : DeliversFields [] fields leaves) (hPaths : ∀ leaf ∈ leaves, Addressable leaf.path)
    {batches : List (List PartialArg)} (hBatches : batches.flatten = leaves.map Leaf.arg) :
    Assembles shown fields batches := by
  obtain ⟨next, delta, hArgs, hText, hWritten⟩ := hDelivers.puts hPaths (written_new shown)
    [] id (fun name hNew => .key rfl hNew) (fun front name hNew => .key rfl hNew)
    (fun name _ hMem => by cases hMem) fun _ => rfl
  rw [← hBatches] at hArgs
  obtain ⟨results, hFeed, hDeltas⟩ := feed_of_processArgs batches hArgs
  have hLast : Written shown (next.withText delta) (next.withText delta).jsonText (.object fields) :=
    ⟨hWritten.accumulated, hWritten.object, hWritten.opened⟩
  obtain ⟨closing, hFinal, hClosing⟩ := hLast.finalize
  refine ⟨next.withText delta, results, closing, hFeed, hFinal, ?_, hWritten.accumulated⟩
  rw [hDeltas]
  exact hClosing

/-- How the numbers are shown does not matter where there are none. -/
def plainShown : Shown where
  number := fun _ => []
  debug := id

def cityPath : List Segment := [.key "city"]
def tagPath (index : Nat) (below : List Segment) : List Segment := [Segment.key "tags", .index index] ++ below

/-- A string in two chunks, then an array of an object and a null. -/
def cityLeaves : List Leaf :=
  [chunkLeaf cityPath ("São", some true), chunkLeaf cityPath (" Paulo", none),
    { path := tagPath 0 [.key "on"], boolValue := some true }, { path := tagPath 1 [], nullValue := some () }]

def cityFields : List (String × Json) :=
  [("city", .string "São Paulo"), ("tags", .array [.object [("on", .bool true)], .null])]

theorem delivers_city : DeliversFields [] cityFields cityLeaves := by
  have hString := @Delivers.string ([] ++ [Segment.key "city"]) ("São", some true) [(" Paulo", none)] fun _ => rfl
  have hJoin : "São" ++ String.join [" Paulo"] = "São Paulo" := by decide +kernel
  rw [List.map_singleton, hJoin] at hString
  have hTags : DeliversItems ([] ++ [Segment.key "tags"]) 0 [.object [("on", .bool true)], .null] _ :=
    .cons (.object (by simp) (.cons (by simp) .bool .nil)) (.cons .null .nil)
  exact .cons (by simp) hString (.cons (by simp) (.array (by simp) hTags) .nil)

theorem assembles_delivered_city :
    Assembles plainShown cityFields [[cityLeaves[0].arg], [cityLeaves[1].arg, cityLeaves[2].arg], [], [cityLeaves[3].arg]] := by
  have hFits : ∀ leaf ∈ cityLeaves, leaf.path.length ≤ MAX_PARTIAL_ARG_DEPTH ∧ ∀ segment ∈ leaf.path, segment.Fits := by
    decide +kernel
  exact assembles_delivered plainShown delivers_city
    (fun leaf hMem => addressable_of_fits (hFits leaf hMem).1 (hFits leaf hMem).2) rfl

/-! ### Objects that are not assembled -/

def nested : Nat → Json
  | 0 => .null
  | depth + 1 => .object [("a", nested depth)]

theorem delivers_nested (path : List Segment) (depth : Nat) :
    Delivers path (nested depth) [{ path := path ++ List.replicate depth (.key "a"), nullValue := some () }] := by
  induction depth generalizing path with
  | zero =>
    rw [List.replicate_zero, List.append_nil]
    exact .null
  | succ depth ih =>
    have hChild := ih (path ++ [Segment.key "a"])
    rw [List.append_assoc, List.singleton_append, ← List.replicate_succ] at hChild
    exact .object (by simp) (.cons (by simp) hChild .nil)

theorem delivers_nulls (path : List Segment) (index count : Nat) :
    ∃ leaves, DeliversItems path index (List.replicate count .null) leaves ∧
      ∀ i < count, { path := path ++ [.index (index + i)], nullValue := some () } ∈ leaves := by
  induction count generalizing index with
  | zero => exact ⟨[], .nil, fun _ hLess => absurd hLess (Nat.not_lt_zero _)⟩
  | succ count ih =>
    obtain ⟨leaves, hItems, hMem⟩ := ih (index + 1)
    refine ⟨_, .cons .null hItems, fun i hLess => ?_⟩
    cases i with
    | zero => exact List.mem_cons_self
    | succ i =>
      have hLater := hMem i (Nat.lt_of_succ_lt_succ hLess)
      rw [Nat.add_assoc, Nat.add_comm 1] at hLater
      exact List.mem_cons_of_mem _ hLater

variable {arg : PartialArg}

/-- An argument over a cap is an error in every state. -/
theorem processArg_over_cap {path : List Segment} (hRaw : rawPath arg.jsonPath ≠ [])
    (hPath : parsePath (rawPath arg.jsonPath) = path) (hSome : path ≠ []) (hText : arg.stringValue = none)
    (hResolve : (arg.resolve shown).isSome = true) (index : Nat) (hOver : path.findSome? oversized = some index)
    (self : GoogleJsonAccumulator) : ∃ error, processArg shown self arg = some (.error error) := by
  obtain ⟨⟨value, valueJson⟩, hResolved⟩ := Option.isSome_iff_exists.mp hResolve
  have hSet : ∃ error, setNestedValue shown self.accumulated path value = .error error := by
    rw [setNestedValue]
    split
    · exact ⟨_, rfl⟩
    · exact ⟨_, by rw [hOver]⟩
  obtain ⟨error, hSet⟩ := hSet
  refine ⟨error, ?_⟩
  simp only [processArg, hPath, hText, hResolved]
  rw [if_neg (not_or.mpr ⟨hRaw, hSome⟩), hSet]

/-- An argument that is an error in every state ends its batch. -/
theorem not_ok_of_error (hMem : arg ∈ args) (hError : ∀ self, ∃ error, processArg shown self arg = some (.error error))
    (self : GoogleJsonAccumulator) :
    ∀ last delta, processArgs shown args self ≠ some (last, .ok delta) := by
  induction args generalizing self with
  | nil => cases hMem
  | cons first args ih =>
    intro last delta h
    rw [← List.singleton_append] at h
    obtain ⟨next, text, rest, hFirst, hRest, _⟩ := processArgs_append_ok h
    rcases List.mem_cons.mp hMem with rfl | hMem
    · obtain ⟨error, hArg⟩ := hError self
      simp [processArgs, hArg] at hFirst
    · exact ih hMem next last rest hRest

theorem not_assembles_of_error {fields : List (String × Json)} (hMem : arg ∈ args)
    (hError : ∀ self, ∃ error, processArg shown self arg = some (.error error)) :
    ¬ Assembles shown fields [args] := by
  rintro ⟨last, results, closing, hFeed, _⟩
  obtain ⟨⟨next, result⟩, hArgs⟩ := processArgs_isSome shown args {}
  cases result with
  | ok delta => exact not_ok_of_error hMem hError {} next delta hArgs
  | error error =>
    have hResults : .error error :: [] = results.map Except.ok := by
      simpa [feed, processPartialArgs, hArgs] using congrArg (Option.map Prod.snd) hFeed
    cases results <;> simp at hResults

theorem not_assembles_of_missing {name : String} {value : Json} {batches : List (List PartialArg)}
    (hMissing : ((feed shown batches {}).bind fun fed => getNestedValue fed.1.accumulated [.key name]).isNone = true) :
    ¬ Assembles shown [(name, value)] batches := by
  rintro ⟨last, results, closing, hFeed, _, _, hValue⟩
  simp [hFeed, hValue, getNestedValue] at hMissing

/-- Objects that are nested or long beyond the caps, and keys that a path does not keep. -/
theorem unaddressable_not_assembled :
    (∃ leaves, DeliversFields [] [("a", nested 64)] leaves ∧
      ¬ Assembles plainShown [("a", nested 64)] [leaves.map Leaf.arg]) ∧
    (∃ leaves, DeliversFields [] [("a", .array (List.replicate 100002 .null))] leaves ∧
      ¬ Assembles plainShown [("a", .array (List.replicate 100002 .null))] [leaves.map Leaf.arg]) ∧
    ∀ field ∈ [("a.b", Json.null), ("a[", .null), ("", .null), ("", .array [.null])],
      ∃ leaves, DeliversFields [] [field] leaves ∧ ¬ Assembles plainShown [field] [leaves.map Leaf.arg] := by
  refine ⟨?_, ?_, ?_⟩
  · refine ⟨_, .cons (by simp) (delivers_nested [.key "a"] 64) .nil, not_assembles_of_missing ?_⟩
    decide +kernel
  · obtain ⟨leaves, hItems, hMem⟩ := delivers_nulls [.key "a"] 0 100002
    have hLast := List.mem_map_of_mem (f := Leaf.arg) (hMem 100001 (by decide))
    have hSome : List.replicate 100002 Json.null ≠ [] := by
      rw [Ne, List.replicate_eq_nil_iff]
      decide
    refine ⟨_, .cons (by simp) (.array hSome hItems) .nil, ?_⟩
    rw [List.append_nil]
    have hPath : parsePath (rawPath (renderPath ([Segment.key "a"] ++ [Segment.index (0 + 100001)]))) =
        [.key "a", .index 100001] := by
      decide +kernel
    exact not_assembles_of_error hLast
      (processArg_over_cap (by decide +kernel) hPath (List.cons_ne_nil _ _) rfl rfl 100001 (by decide))
  · simp only [List.mem_cons, List.not_mem_nil, or_false, forall_eq_or_imp, forall_eq]
    refine ⟨?_, ?_, ?_, ?_⟩
    · refine ⟨_, .cons (by simp) .null .nil, not_assembles_of_missing ?_⟩
      decide +kernel
    · refine ⟨_, .cons (by simp) .null .nil, not_assembles_of_missing ?_⟩
      decide +kernel
    · refine ⟨_, .cons (by simp) .null .nil, not_assembles_of_missing ?_⟩
      decide +kernel
    · refine ⟨_, .cons (by simp) (.array (by simp) (.cons .null .nil)) .nil, not_assembles_of_missing ?_⟩
      decide +kernel

end Aimux.Google
