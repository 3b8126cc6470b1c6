import Aimux.Core.JsonAccess
import Aimux.Core.Types

/-! # Anthropic usage

`convert_usage.rs`: the token usage of a response as a core usage. The sums are of `u64` counts, of a build that wraps.
-/

namespace Aimux.Anthropic

open Aimux.Core

/-! ## The typed view -/

structure AnthropicUsageIteration where
  itype : String
  inputTokens : Nat
  outputTokens : Nat

@[ext] structure AnthropicUsageInput where
  inputTokens : Nat := 0
  outputTokens : Nat := 0
  /-- With the thinking tokens. -/
  outputTokensDetails : Option (Option Nat) := none
  cacheCreationInputTokens : Option Nat := none
  cacheReadInputTokens : Option Nat := none
  iterations : Option (List AnthropicUsageIteration) := none

/-- A field of a derived structure: by its name, or by its place in an array. -/
def structField (value : Json) (place : Nat) (key : String) : Option Json :=
  match value with
  | .object fields => fields.lookup key
  | .array items => items[place]?
  | _ => none

def isStruct (value : Json) (size : Nat) : Bool :=
  match value with
  | .object _ => true
  | .array items => items.length ≤ size
  | _ => false

/-- `#[serde(default)]` of a `u64` -/
def readU64 : Option Json → Option Nat
  | none => some 0
  | some value => asU64 value

/-- `#[serde(default)]` of an `Option` -/
def readOption {α : Type} (read : Json → Option α) : Option Json → Option (Option α)
  | none | some .null => some none
  | some value => (read value).map some

def readIteration (value : Json) : Option AnthropicUsageIteration :=
  if !isStruct value 3 then none
  else do
    let itype ← (structField value 0 "type").bind asStr
    let inputTokens ← readU64 (structField value 1 "input_tokens")
    let outputTokens ← readU64 (structField value 2 "output_tokens")
    return ⟨itype, inputTokens, outputTokens⟩

def readDetails (value : Json) : Option (Option Nat) :=
  if !isStruct value 1 then none else readOption asU64 (structField value 0 "thinking_tokens")

def readUsage (usage : Json) : Option AnthropicUsageInput :=
  if !isStruct usage 6 then none
  else do
    let inputTokens ← readU64 (structField usage 0 "input_tokens")
    let outputTokens ← readU64 (structField usage 1 "output_tokens")
    let details ← readOption readDetails (structField usage 2 "output_tokens_details")
    let cacheCreation ← readOption asU64 (structField usage 3 "cache_creation_input_tokens")
    let cacheRead ← readOption asU64 (structField usage 4 "cache_read_input_tokens")
    let iterations ← readOption (fun value => (asArray value).bind (·.mapM readIteration))
      (structField usage 5 "iterations")
    return ⟨inputTokens, outputTokens, details, cacheCreation, cacheRead, iterations⟩

/-! ## The conversion -/

def servedByFallback (iterations : List AnthropicUsageIteration) : Bool :=
  iterations.any (·.itype = "fallback_message")

def executed (iterations : List AnthropicUsageIteration) : List AnthropicUsageIteration :=
  iterations.filter fun iteration => iteration.itype = "compaction" || iteration.itype = "message"

/-- The sum over the executor's iterations, else the count of the turn. -/
def executorTokens (field : AnthropicUsageIteration → Nat) (own : Nat) :
    Option (List AnthropicUsageIteration) → Nat
  | some iterations =>
    if !iterations.isEmpty && !servedByFallback iterations then
      if !(executed iterations).isEmpty then ((executed iterations).map field).sum else own
    else own
  | none => own

/-- The sums as numbers, before they wrap. -/
structure Figures where
  noCache : Nat
  cacheRead : Nat
  cacheWrite : Nat
  output : Nat
  reasoning : Option Nat

def Figures.total (figures : Figures) : Nat := figures.noCache + figures.cacheWrite + figures.cacheRead

def AnthropicUsageInput.figures (usage : AnthropicUsageInput) : Figures where
  noCache := executorTokens (·.inputTokens) usage.inputTokens usage.iterations
  cacheRead := usage.cacheReadInputTokens.getD 0
  cacheWrite := usage.cacheCreationInputTokens.getD 0
  output := executorTokens (·.outputTokens) usage.outputTokens usage.iterations
  reasoning := usage.outputTokensDetails.bind id

def wrap64 (count : Nat) : Nat := count % 2 ^ 64

/-- `as u32` -/
def truncate32 (count : Nat) : Nat := count % 2 ^ 32

structure AnthropicUsageResult where
  total : Nat
  noCache : Nat
  cacheRead : Nat
  cacheWrite : Nat
  outputTotal : Nat
  text : Option Nat
  reasoning : Option Nat
  raw : Json

def convertAnthropicUsage (usage : Json) (rawUsage : Option Json) : AnthropicUsageResult :=
  let u := (readUsage usage).getD {}
  let inputTokens := wrap64 u.figures.noCache
  let outputTokens := wrap64 u.figures.output
  { total := wrap64 (wrap64 (inputTokens + u.figures.cacheWrite) + u.figures.cacheRead)
    noCache := inputTokens
    cacheRead := u.figures.cacheRead
    cacheWrite := u.figures.cacheWrite
    outputTotal := outputTokens
    text := u.figures.reasoning.map (outputTokens - ·)
    reasoning := u.figures.reasoning
    raw := rawUsage.getD usage }

def usageFromAnthropic (usage : Json) : Usage :=
  let r := convertAnthropicUsage usage none
  { inputTokens := {
      total := some (truncate32 r.total)
      noCache := some (truncate32 r.noCache)
      cacheRead := some (truncate32 r.cacheRead)
      cacheWrite := some (truncate32 r.cacheWrite) }
    outputTokens := {
      total := some (truncate32 r.outputTotal)
      text := r.text.map truncate32
      reasoning := r.reasoning.map truncate32 }
    raw := asObject r.raw }

/-! ## Usage objects -/

/-- Absent, null or a number of 64 bits. -/
def IsCount (value : Option Json) : Prop := value = none ∨ value = some .null ∨ ∃ count, value.bind asU64 = some count

/-- A map has each of its keys once. -/
def IsMap (value : Json) : Prop := ∃ fields, value = .object fields ∧ (fields.map (·.1)).Nodup

structure IsIteration (item : Json) : Prop where
  isMap : IsMap item
  itype : ∃ itype, item.getStr "type" = some itype
  inputTokens : IsCount (item.get "input_tokens")
  outputTokens : IsCount (item.get "output_tokens")

structure IsUsage (usage : Json) : Prop where
  isMap : IsMap usage
  inputTokens : IsCount (usage.get "input_tokens")
  outputTokens : IsCount (usage.get "output_tokens")
  cacheCreation : IsCount (usage.get "cache_creation_input_tokens")
  cacheRead : IsCount (usage.get "cache_read_input_tokens")
  details : ∀ details, usage.get "output_tokens_details" = some details →
    details = .null ∨ IsMap details ∧ IsCount (details.get "thinking_tokens")
  iterations : ∀ iterations, usage.get "iterations" = some iterations →
    iterations = .null ∨ ∃ items, iterations = .array items ∧ ∀ item ∈ items, IsIteration item

def isNullAt (value : Json) (key : String) : Bool := (value.get key).any (·.isNull)

/-- Null where no `Option` is read. -/
def hasNullCount (usage : Json) : Bool :=
  isNullAt usage "input_tokens" || isNullAt usage "output_tokens" ||
    ((usage.get "iterations").bind asArray).any (·.any fun item =>
      isNullAt item "input_tokens" || isNullAt item "output_tokens")

/-! ## What a usage says -/

/-- A count, where null is like nothing. -/
def tokenCount (value : Option Json) : Nat := (value.bind asU64).getD 0

def iterationOf (item : Json) : AnthropicUsageIteration :=
  ⟨item.strOrEmpty "type", tokenCount (item.get "input_tokens"), tokenCount (item.get "output_tokens")⟩

def inputOf (usage : Json) : AnthropicUsageInput where
  inputTokens := tokenCount (usage.get "input_tokens")
  outputTokens := tokenCount (usage.get "output_tokens")
  outputTokensDetails := (usage.filled "output_tokens_details").map fun details =>
    (details.get "thinking_tokens").bind asU64
  cacheCreationInputTokens := (usage.get "cache_creation_input_tokens").bind asU64
  cacheReadInputTokens := (usage.get "cache_read_input_tokens").bind asU64
  iterations := ((usage.get "iterations").bind asArray).map (·.map iterationOf)

variable {value : Option Json}

theorem readU64_eq (h : IsCount value) :
    readU64 value = if value.any (·.isNull) then none else some (tokenCount value) := by
  rcases h with rfl | rfl | ⟨count, hCount⟩
  · rfl
  · rfl
  · cases value with
    | none => cases hCount
    | some value =>
      have hNull : value.isNull = false := by
        cases value with
        | null => cases hCount
        | _ => rfl
      rw [Option.any_some, hNull, if_neg Bool.false_ne_true, tokenCount, hCount]
      exact hCount

theorem readOption_asU64 (h : IsCount value) : readOption asU64 value = some (value.bind asU64) := by
  rcases h with rfl | rfl | ⟨count, hCount⟩
  · rfl
  · rfl
  · cases value with
    | none => cases hCount
    | some value =>
      have hRead : asU64 value = some count := hCount
      have hSome : readOption asU64 (some value) = (asU64 value).map some := by
        cases value with
        | null => cases hCount
        | _ => rfl
      rw [hSome, Option.bind_some, hRead]
      rfl

theorem structField_eq {value : Json} (h : IsMap value) (place : Nat) (key : String) :
    structField value place key = value.get key := by
  obtain ⟨fields, rfl, -⟩ := h
  rfl

theorem isStruct_of_isMap {value : Json} (h : IsMap value) (size : Nat) : isStruct value size = true := by
  obtain ⟨fields, rfl, -⟩ := h
  rfl

variable {item : Json}

theorem readIteration_eq (h : IsIteration item) : readIteration item =
    if isNullAt item "input_tokens" || isNullAt item "output_tokens" then none else some (iterationOf item) := by
  obtain ⟨itype, hType⟩ := h.itype
  rw [readIteration, isStruct_of_isMap h.isMap, structField_eq h.isMap, structField_eq h.isMap, structField_eq h.isMap,
    readU64_eq h.inputTokens, readU64_eq h.outputTokens, iterationOf, Json.strOrEmpty_of_getStr hType]
  rw [Json.getStr] at hType
  rw [hType, isNullAt, isNullAt]
  cases (item.get "input_tokens").any (·.isNull) <;> cases (item.get "output_tokens").any (·.isNull) <;> rfl

theorem mapM_readIteration {items : List Json} (h : ∀ item ∈ items, IsIteration item) : items.mapM readIteration =
    if items.any fun item => isNullAt item "input_tokens" || isNullAt item "output_tokens" then none
    else some (items.map iterationOf) := by
  induction items with
  | nil => rfl
  | cons item items ih =>
    obtain ⟨hItem, hItems⟩ := List.forall_mem_cons.mp h
    rw [List.mapM_cons, readIteration_eq hItem, ih hItems, List.any_cons]
    cases isNullAt item "input_tokens" || isNullAt item "output_tokens" with
    | true => rfl
    | false =>
      cases items.any fun item => isNullAt item "input_tokens" || isNullAt item "output_tokens" with
      | true => rfl
      | false => rfl

variable {usage : Json}

theorem readDetails_eq (h : IsUsage usage) : readOption readDetails (usage.get "output_tokens_details") =
    some (inputOf usage).outputTokensDetails := by
  have hDetails := h.details
  rw [inputOf, Json.filled]
  generalize usage.get "output_tokens_details" = found at hDetails
  cases found with
  | none => rfl
  | some details =>
    rcases hDetails details rfl with rfl | ⟨hMap, hCount⟩
    · rfl
    · have hRead : readDetails details = some ((details.get "thinking_tokens").bind asU64) := by
        rw [readDetails, isStruct_of_isMap hMap, structField_eq hMap]
        exact readOption_asU64 hCount
      obtain ⟨fields, rfl, -⟩ := hMap
      rw [readOption, hRead]
      · rfl
      · exact fun hNull => nomatch hNull

theorem readIterations_eq (h : IsUsage usage) :
    readOption (fun value => (asArray value).bind (·.mapM readIteration)) (usage.get "iterations") =
      if ((usage.get "iterations").bind asArray).any (·.any fun item =>
        isNullAt item "input_tokens" || isNullAt item "output_tokens") then none
      else some (inputOf usage).iterations := by
  have hIterations := h.iterations
  rw [inputOf]
  generalize usage.get "iterations" = found at hIterations
  cases found with
  | none => rfl
  | some iterations =>
    rcases hIterations iterations rfl with rfl | ⟨items, rfl, hItems⟩
    · rfl
    · have hRead : readOption (fun value => (asArray value).bind (·.mapM readIteration)) (some (.array items)) =
          (items.mapM readIteration).map some := rfl
      rw [hRead, mapM_readIteration hItems, Option.bind_some, asArray, Option.any_some]
      split <;> rfl

/-- A usage is read, unless one of its counts is null. -/
theorem readUsage_eq (h : IsUsage usage) :
    readUsage usage = if hasNullCount usage then none else some (inputOf usage) := by
  rw [readUsage, isStruct_of_isMap h.isMap]
  simp only [structField_eq h.isMap]
  rw [readU64_eq h.inputTokens, readU64_eq h.outputTokens, readDetails_eq h, readOption_asU64 h.cacheCreation,
    readOption_asU64 h.cacheRead, readIterations_eq h, hasNullCount, isNullAt, isNullAt]
  cases (usage.get "input_tokens").any (·.isNull) with
  | true => rfl
  | false =>
    cases (usage.get "output_tokens").any (·.isNull) with
    | true => rfl
    | false =>
      cases ((usage.get "iterations").bind asArray).any (·.any fun item =>
        isNullAt item "input_tokens" || isNullAt item "output_tokens") <;> rfl

/-! ## Without the nulls -/

def dropNulls : Json → Json
  | .object fields => .object (fields.filter fun field => !field.2.isNull)
  | other => other

/-- A value of a usage without its nulls. -/
def dropInner : Json → Json
  | .array items => .array (items.map dropNulls)
  | value => dropNulls value

def mapValues (f : Json → Json) : Json → Json
  | .object fields => .object (fields.map fun field => (field.1, f field.2))
  | other => other

/-- The usage with every field that is null left out. -/
def withoutNulls (usage : Json) : Json := mapValues dropInner (dropNulls usage)

theorem get_dropNulls {value : Json} (h : IsMap value) (key : String) : (dropNulls value).get key = value.filled key := by
  obtain ⟨fields, rfl, hKeys⟩ := h
  change (fields.filter fun field => !field.2.isNull).lookup key = (fields.lookup key).filter fun member => !member.isNull
  induction fields with
  | nil => rfl
  | cons field fields ih =>
    obtain ⟨hKey, hRest⟩ := List.nodup_cons.mp hKeys
    have hDropped := ih hRest
    rw [lookup_cons_eq field fields]
    cases hNull : field.2.isNull with
    | true =>
      rw [List.filter_cons_of_neg (by rw [hNull]; exact Bool.false_ne_true), hDropped]
      split
      · rename_i hSame
        have hNone : fields.lookup key = none := by
          rw [List.lookup_eq_none_iff]
          intro other hOther
          rw [hSame]
          exact bne_iff_ne.mpr fun hEq => hKey (List.mem_map.mpr ⟨other, hOther, hEq.symm⟩)
        rw [hNone, Option.filter_some, hNull]
        rfl
      · rfl
    | false =>
      rw [List.filter_cons_of_pos (by rw [hNull]; rfl), lookup_cons_eq, hDropped]
      split
      · rw [Option.filter_some, hNull]
        rfl
      · rfl

theorem get_mapValues (f : Json → Json) (value : Json) (key : String) :
    (mapValues f value).get key = (value.get key).map f := by
  cases value with
  | object fields =>
    change (fields.map fun field => (field.1, f field.2)).lookup key = (fields.lookup key).map f
    induction fields with
    | nil => rfl
    | cons field fields ih =>
      rw [List.map_cons, lookup_cons_eq, lookup_cons_eq, ih]
      split <;> rfl
  | _ => rfl

theorem isMap_dropNulls {value : Json} (h : IsMap value) : IsMap (dropNulls value) := by
  obtain ⟨fields, rfl, hKeys⟩ := h
  exact ⟨_, rfl, hKeys.sublist (List.filter_sublist.map _)⟩

theorem isMap_withoutNulls (h : IsMap usage) : IsMap (withoutNulls usage) := by
  obtain ⟨fields, hFields, hKeys⟩ := isMap_dropNulls h
  refine ⟨fields.map fun field => (field.1, dropInner field.2), ?_, ?_⟩
  · rw [withoutNulls, hFields]
    rfl
  · rw [List.map_map]
    exact hKeys

theorem get_withoutNulls (h : IsMap usage) (key : String) :
    (withoutNulls usage).get key = (usage.filled key).map dropInner := by
  rw [withoutNulls, get_mapValues, get_dropNulls h]

/-- A count that is not null, and stays what it is. -/
theorem count_filled (h : IsCount value) : (value.filter fun member => !member.isNull).bind asU64 = value.bind asU64 ∧
      IsCount (value.filter fun member => !member.isNull) ∧
      (value.filter fun member => !member.isNull).map dropInner = value.filter fun member => !member.isNull := by
  rcases h with rfl | rfl | ⟨count, hCount⟩
  · exact ⟨rfl, .inl rfl, rfl⟩
  · exact ⟨rfl, .inl rfl, rfl⟩
  · cases value with
    | none => cases hCount
    | some value =>
      cases value with
      | number number => exact ⟨rfl, .inr (.inr ⟨count, hCount⟩), rfl⟩
      | _ => cases hCount

theorem any_isNull_filled (value : Option Json) : (value.filter fun member => !member.isNull).any (·.isNull) = false := by
  cases value with
  | none => rfl
  | some value =>
    rw [Option.filter_some]
    cases hNull : value.isNull with
    | true => rfl
    | false =>
      rw [Bool.not_false, if_pos rfl]
      exact hNull

theorem count_dropNulls {key : String} (hMap : IsMap item) (h : IsCount (item.get key)) :
    IsCount ((dropNulls item).get key) ∧ isNullAt (dropNulls item) key = false ∧
      ((dropNulls item).get key).bind asU64 = (item.get key).bind asU64 := by
  rw [isNullAt, get_dropNulls hMap]
  exact ⟨(count_filled h).2.1, any_isNull_filled _, (count_filled h).1⟩

theorem count_withoutNulls {key : String} (hMap : IsMap usage) (h : IsCount (usage.get key)) :
    IsCount ((withoutNulls usage).get key) ∧ isNullAt (withoutNulls usage) key = false ∧
      ((withoutNulls usage).get key).bind asU64 = (usage.get key).bind asU64 := by
  have hSame : (usage.filled key).map dropInner = usage.filled key := (count_filled h).2.2
  rw [isNullAt, get_withoutNulls hMap, hSame]
  exact ⟨(count_filled h).2.1, any_isNull_filled _, (count_filled h).1⟩

/-- An iteration without its nulls. -/
theorem iteration_dropNulls (h : IsIteration item) : IsIteration (dropNulls item) ∧
    (isNullAt (dropNulls item) "input_tokens" || isNullAt (dropNulls item) "output_tokens") = false ∧
      iterationOf (dropNulls item) = iterationOf item := by
  obtain ⟨hInput, hInputNull, hInputSame⟩ := count_dropNulls h.isMap h.inputTokens
  obtain ⟨hOutput, hOutputNull, hOutputSame⟩ := count_dropNulls h.isMap h.outputTokens
  have hType : (dropNulls item).getStr "type" = item.getStr "type" := by
    obtain ⟨itype, hType⟩ := h.itype
    rw [Json.getStr, get_dropNulls h.isMap, Json.filled]
    obtain ⟨value, hValue, hText⟩ := Option.bind_eq_some_iff.mp hType
    rw [Json.getStr, hValue, Option.filter_some, if_pos]
    cases value with
    | null => cases hText
    | _ => rfl
  refine ⟨⟨isMap_dropNulls h.isMap, hType ▸ h.itype, hInput, hOutput⟩, ?_, ?_⟩
  · rw [hInputNull, hOutputNull]
    rfl
  · rw [iterationOf, iterationOf, Json.strOrEmpty, hType, tokenCount, tokenCount, hInputSame, hOutputSame]
    rfl

theorem details_withoutNulls (h : IsUsage usage) :
    (∀ details, (withoutNulls usage).get "output_tokens_details" = some details →
      details = .null ∨ IsMap details ∧ IsCount (details.get "thinking_tokens")) ∧
    (inputOf (withoutNulls usage)).outputTokensDetails = (inputOf usage).outputTokensDetails := by
  have hDetails := h.details
  rw [inputOf, inputOf, Json.filled, Json.filled, get_withoutNulls h.isMap, Json.filled]
  generalize usage.get "output_tokens_details" = found at hDetails
  cases found with
  | none => exact ⟨fun _ hNone => (nomatch hNone), rfl⟩
  | some details =>
    rcases hDetails details rfl with rfl | ⟨hMap, hCount⟩
    · exact ⟨fun _ hNone => (nomatch hNone), rfl⟩
    · obtain ⟨hKept, -, hSame⟩ := count_dropNulls hMap hCount
      have hDropped := isMap_dropNulls hMap
      obtain ⟨fields, rfl, -⟩ := hMap
      refine ⟨?_, congrArg some hSame⟩
      rintro _ ⟨⟩
      exact .inr ⟨hDropped, hKept⟩

theorem iterations_withoutNulls (h : IsUsage usage) :
    (∀ iterations, (withoutNulls usage).get "iterations" = some iterations →
      iterations = .null ∨ ∃ items, iterations = .array items ∧ ∀ item ∈ items, IsIteration item) ∧
    (((withoutNulls usage).get "iterations").bind asArray).any (·.any fun item =>
      isNullAt item "input_tokens" || isNullAt item "output_tokens") = false ∧
    (inputOf (withoutNulls usage)).iterations = (inputOf usage).iterations := by
  have hIterations := h.iterations
  rw [inputOf, inputOf, get_withoutNulls h.isMap, Json.filled]
  generalize usage.get "iterations" = found at hIterations
  cases found with
  | none => exact ⟨fun _ hNone => (nomatch hNone), rfl, rfl⟩
  | some iterations =>
    rcases hIterations iterations rfl with rfl | ⟨items, rfl, hItems⟩
    · exact ⟨fun _ hNone => (nomatch hNone), rfl, rfl⟩
    · refine ⟨?_, ?_, ?_⟩
      · rintro _ ⟨⟩
        refine .inr ⟨_, rfl, fun item hItem => ?_⟩
        obtain ⟨whole, hWhole, rfl⟩ := List.mem_map.mp hItem
        exact (iteration_dropNulls (hItems whole hWhole)).1
      · change (items.map dropNulls).any _ = false
        rw [List.any_eq_false]
        intro item hItem
        obtain ⟨whole, hWhole, rfl⟩ := List.mem_map.mp hItem
        rw [(iteration_dropNulls (hItems whole hWhole)).2.1]
        exact Bool.false_ne_true
      · change some ((items.map dropNulls).map iterationOf) = some (items.map iterationOf)
        rw [List.map_map]
        exact congrArg some (List.map_congr_left fun item hItem => (iteration_dropNulls (hItems item hItem)).2.2)

/-- Without its nulls a usage is read, and says the same. -/
theorem readUsage_withoutNulls (h : IsUsage usage) :
    readUsage (withoutNulls usage) = some (inputOf usage) := by
  obtain ⟨hInput, hInputNull, hInputSame⟩ := count_withoutNulls h.isMap h.inputTokens
  obtain ⟨hOutput, hOutputNull, hOutputSame⟩ := count_withoutNulls h.isMap h.outputTokens
  obtain ⟨hCreation, -, hCreationSame⟩ := count_withoutNulls h.isMap h.cacheCreation
  obtain ⟨hRead, -, hReadSame⟩ := count_withoutNulls h.isMap h.cacheRead
  obtain ⟨hDetails, hDetailsSame⟩ := details_withoutNulls h
  obtain ⟨hIterations, hIterationsNull, hIterationsSame⟩ := iterations_withoutNulls h
  have hUsage : IsUsage (withoutNulls usage) :=
    ⟨isMap_withoutNulls h.isMap, hInput, hOutput, hCreation, hRead, hDetails, hIterations⟩
  have hNull : hasNullCount (withoutNulls usage) = false := by
    rw [hasNullCount, hInputNull, hOutputNull, hIterationsNull]
    rfl
  have hSame : inputOf (withoutNulls usage) = inputOf usage :=
    AnthropicUsageInput.ext (congrArg (·.getD 0) hInputSame) (congrArg (·.getD 0) hOutputSame) hDetailsSame hCreationSame
      hReadSame hIterationsSame
  rw [readUsage_eq hUsage, hNull, hSame]
  rfl

/-! ## Right counts -/

/-- The sums of what was read stay below `2 ^ 64`. -/
def NoOverflow (usage : AnthropicUsageInput) : Prop := usage.figures.total < 2 ^ 64 ∧ usage.figures.output < 2 ^ 64

/-- The sums fit 32 bits. -/
def Figures.Fit (figures : Figures) : Prop := figures.total < 2 ^ 32 ∧ figures.output < 2 ^ 32

/-- The counts are the figures. -/
def IsExact (usage : Usage) (figures : Figures) : Prop :=
  usage.inputTokens = {
    total := some figures.total
    noCache := some figures.noCache
    cacheRead := some figures.cacheRead
    cacheWrite := some figures.cacheWrite } ∧
  usage.outputTokens = {
    total := some figures.output
    text := figures.reasoning.map (figures.output - ·)
    reasoning := figures.reasoning }

structure CountsRight (usage : Json) : Prop where
  noOverflow : NoOverflow ((readUsage usage).getD {})
  nulls : (usageFromAnthropic usage).inputTokens = (usageFromAnthropic (withoutNulls usage)).inputTokens ∧
    (usageFromAnthropic usage).outputTokens = (usageFromAnthropic (withoutNulls usage)).outputTokens
  exact : (inputOf usage).figures.Fit → IsExact (usageFromAnthropic usage) (inputOf usage).figures

/-- Nothing that a usage says is reported as another number than 0. -/
def Figures.Vanish (figures : Figures) : Prop :=
  truncate32 figures.noCache = 0 ∧ truncate32 figures.cacheRead = 0 ∧ truncate32 figures.cacheWrite = 0 ∧
    truncate32 figures.output = 0 ∧ figures.reasoning = none

/-- The counts of what was read. -/
def inputCounts (figures : Figures) : InputTokenUsage where
  total := some (truncate32 figures.total)
  noCache := some (truncate32 figures.noCache)
  cacheRead := some (truncate32 figures.cacheRead)
  cacheWrite := some (truncate32 figures.cacheWrite)

def outputCounts (figures : Figures) : OutputTokenUsage where
  total := some (truncate32 figures.output)
  text := figures.reasoning.map fun reasoning => truncate32 (wrap64 figures.output - reasoning)
  reasoning := figures.reasoning.map truncate32

theorem truncate32_wrap64 (count : Nat) : truncate32 (wrap64 count) = truncate32 count :=
  Nat.mod_mod_of_dvd count ⟨2 ^ 32, rfl⟩

theorem usageFromAnthropic_eq (usage : Json) :
    (usageFromAnthropic usage).inputTokens = inputCounts ((readUsage usage).getD {}).figures ∧
      (usageFromAnthropic usage).outputTokens = outputCounts ((readUsage usage).getD {}).figures := by
  rw [usageFromAnthropic, convertAnthropicUsage]
  generalize ((readUsage usage).getD {}).figures = figures
  have hTotal : truncate32 (wrap64 (wrap64 (wrap64 figures.noCache + figures.cacheWrite) + figures.cacheRead)) =
      truncate32 figures.total := by
    rw [truncate32_wrap64, Figures.total, wrap64, wrap64, truncate32, truncate32]
    omega
  refine ⟨?_, ?_⟩
  · rw [inputCounts, ← hTotal, ← truncate32_wrap64 figures.noCache]
  · rw [outputCounts, ← truncate32_wrap64 figures.output, Option.map_map]
    rfl

theorem truncate32_eq {count : Nat} (h : count < 2 ^ 32) : truncate32 count = count := Nat.mod_eq_of_lt h

variable {figures : Figures}

/-- Figures that fit are reported as they are, the thinking tokens if they fit as well. -/
theorem isExact_iff {usage : Usage} (hInput : usage.inputTokens = inputCounts figures)
    (hOutput : usage.outputTokens = outputCounts figures) (hFit : figures.Fit) :
    IsExact usage figures ↔ ∀ reasoning, figures.reasoning = some reasoning → reasoning < 2 ^ 32 := by
  obtain ⟨hTotal, hOutputFit⟩ := hFit
  have hSum := hTotal
  rw [Figures.total] at hSum
  have hInputSame : inputCounts figures = {
      total := some figures.total
      noCache := some figures.noCache
      cacheRead := some figures.cacheRead
      cacheWrite := some figures.cacheWrite } := by
    rw [inputCounts, truncate32_eq hTotal, truncate32_eq (by omega), truncate32_eq (by omega), truncate32_eq (by omega)]
  have hText (reasoning : Nat) : truncate32 (wrap64 figures.output - reasoning) = figures.output - reasoning := by
    rw [wrap64, Nat.mod_eq_of_lt (by omega), truncate32_eq (by omega)]
  rw [IsExact, hInput, hOutput, hInputSame, and_iff_right rfl, outputCounts, truncate32_eq hOutputFit]
  simp only [hText, OutputTokenUsage.mk.injEq, true_and]
  cases figures.reasoning with
  | none => exact ⟨fun _ _ hNone => (nomatch hNone), fun _ => rfl⟩
  | some reasoning =>
    rw [Option.map_some, Option.some.injEq]
    constructor
    · rintro hSame _ ⟨⟩
      rw [← hSame, truncate32]
      exact Nat.mod_lt _ (by decide)
    · exact fun h => truncate32_eq (h reasoning rfl)

theorem inputOf_vanish (hInputs : inputCounts (AnthropicUsageInput.figures {}) = inputCounts figures)
    (hOutputs : outputCounts (AnthropicUsageInput.figures {}) = outputCounts figures) : figures.Vanish := by
  rw [inputCounts, inputCounts, InputTokenUsage.mk.injEq] at hInputs
  rw [outputCounts, outputCounts, OutputTokenUsage.mk.injEq] at hOutputs
  obtain ⟨-, hNoCache, hCacheRead, hCacheWrite⟩ := hInputs
  obtain ⟨hOutput, -, hReasoning⟩ := hOutputs
  exact ⟨(Option.some.inj hNoCache).symm, (Option.some.inj hCacheRead).symm, (Option.some.inj hCacheWrite).symm,
    (Option.some.inj hOutput).symm, Option.map_eq_none_iff.mp hReasoning.symm⟩

theorem vanish_counts (h : figures.Vanish) :
    inputCounts (AnthropicUsageInput.figures {}) = inputCounts figures ∧
      outputCounts (AnthropicUsageInput.figures {}) = outputCounts figures := by
  obtain ⟨hNoCache, hCacheRead, hCacheWrite, hOutput, hReasoning⟩ := h
  have hTotal : truncate32 figures.total = 0 := by
    rw [truncate32] at hNoCache hCacheRead hCacheWrite ⊢
    rw [Figures.total]
    omega
  constructor
  · rw [inputCounts, inputCounts, hNoCache, hCacheRead, hCacheWrite, hTotal]
    rfl
  · rw [outputCounts, outputCounts, hOutput, hReasoning]
    rfl

/-- The counts of a usage are right just when no count that must be a number is null and the sums stay below `2 ^ 64`
(and the thinking tokens fit, where the sums do); or when one is null, and all else would be reported as 0. -/
theorem countsRight_iff {usage : Json} (h : IsUsage usage) : CountsRight usage ↔
    (hasNullCount usage = false ∧ NoOverflow (inputOf usage) ∧ ((inputOf usage).figures.Fit →
      ∀ reasoning, (inputOf usage).figures.reasoning = some reasoning → reasoning < 2 ^ 32)) ∨
    (hasNullCount usage = true ∧ (inputOf usage).figures.Vanish) := by
  obtain ⟨hInput, hOutput⟩ := usageFromAnthropic_eq usage
  obtain ⟨hOtherInput, hOtherOutput⟩ := usageFromAnthropic_eq (withoutNulls usage)
  rw [readUsage_withoutNulls h, Option.getD_some] at hOtherInput hOtherOutput
  have hRead := readUsage_eq h
  cases hNull : hasNullCount usage with
  | false =>
    rw [hNull, if_neg Bool.false_ne_true] at hRead
    rw [hRead, Option.getD_some] at hInput hOutput
    constructor
    · intro hRight
      have hNoOverflow := hRight.noOverflow
      rw [hRead] at hNoOverflow
      exact .inl ⟨rfl, hNoOverflow, fun hFit => (isExact_iff hInput hOutput hFit).mp (hRight.exact hFit)⟩
    · rintro (⟨-, hNoOverflow, hReasoning⟩ | ⟨hTrue, -⟩)
      · exact {
          noOverflow := by rwa [hRead]
          nulls := ⟨hInput.trans hOtherInput.symm, hOutput.trans hOtherOutput.symm⟩
          exact := fun hFit => (isExact_iff hInput hOutput hFit).mpr (hReasoning hFit) }
      · cases hTrue
  | true =>
    rw [hNull, if_pos rfl] at hRead
    rw [hRead, Option.getD_none] at hInput hOutput
    have hZero : NoOverflow {} := ⟨Nat.two_pow_pos 64, Nat.two_pow_pos 64⟩
    constructor
    · intro hRight
      refine .inr ⟨rfl, ?_⟩
      obtain ⟨hInputs, hOutputs⟩ := hRight.nulls
      rw [hInput, hOtherInput] at hInputs
      rw [hOutput, hOtherOutput] at hOutputs
      exact inputOf_vanish hInputs hOutputs
    · rintro (⟨hFalse, -⟩ | ⟨-, hVanish⟩)
      · cases hFalse
      · have hInputs := hInput.trans (vanish_counts hVanish).1
        have hOutputs := hOutput.trans (vanish_counts hVanish).2
        exact {
          noOverflow := by rwa [hRead]
          nulls := ⟨hInputs.trans hOtherInput.symm, hOutputs.trans hOtherOutput.symm⟩
          exact := fun hFit => (isExact_iff hInputs hOutputs hFit).mpr fun _ hSome => nomatch hVanish.2.2.2.2 ▸ hSome }

/-- The cache's count is null. -/
def cachelessUsage : Json := .object [("input_tokens", .number (.int 10)), ("output_tokens", .number (.int 20)),
  ("cache_read_input_tokens", .null)]

theorem isUsage_cacheless : IsUsage cachelessUsage where
  isMap := ⟨_, rfl, by decide⟩
  inputTokens := .inr (.inr ⟨10, rfl⟩)
  outputTokens := .inr (.inr ⟨20, rfl⟩)
  cacheCreation := .inl rfl
  cacheRead := .inr (.inl rfl)
  details _ hNone := nomatch hNone
  iterations _ hNone := nomatch hNone

theorem countsRight_cacheless : CountsRight cachelessUsage :=
  (countsRight_iff isUsage_cacheless).mpr (.inl ⟨rfl, ⟨by decide, by decide⟩, fun _ _ hNone => nomatch hNone⟩)

/-- The input's count is null, and the output's is lost. -/
def inputlessUsage : Json := .object [("input_tokens", .null), ("output_tokens", .number (.int 20))]

theorem inputless_not_right : ¬∀ usage, IsUsage usage → CountsRight usage := by
  intro h
  have hUsage : IsUsage inputlessUsage := {
    isMap := ⟨_, rfl, by decide⟩
    inputTokens := .inr (.inl rfl)
    outputTokens := .inr (.inr ⟨20, rfl⟩)
    cacheCreation := .inl rfl
    cacheRead := .inl rfl
    details := fun _ hNone => nomatch hNone
    iterations := fun _ hNone => nomatch hNone }
  have hOutputs := (h inputlessUsage hUsage).nulls.2
  exact absurd (congrArg OutputTokenUsage.total hOutputs) (by decide)

end Aimux.Anthropic
