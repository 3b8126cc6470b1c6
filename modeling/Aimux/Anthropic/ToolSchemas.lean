import Aimux.Anthropic.PrepareTools

/-! # Schemas of an Anthropic request

What the clean-up leaves of the definitions of function tools.
-/

namespace Aimux.Anthropic

open Aimux.Core hiding FunctionTool
open Aimux.Replay (FunctionTool)

/-! ## Values without nulls -/

mutual

/-- No object, at any depth, has a field that is null. -/
def nullFree : Json → Bool
  | .object fields => nullFreeFields fields
  | .array items => nullFreeItems items
  | _ => true

def nullFreeFields : List (String × Json) → Bool
  | [] => true
  | (_, value) :: rest => !value.isNull && nullFree value && nullFreeFields rest

def nullFreeItems : List Json → Bool
  | [] => true
  | item :: rest => nullFree item && nullFreeItems rest

end

variable (fields : List (String × Json))

theorem stripFields_length : (stripFields fields).length ≤ fields.length := by
  induction fields with
  | nil => exact le_rfl
  | cons field rest ih =>
    rw [stripFields]
    split
    · exact ih.trans (Nat.le_succ _)
    · exact Nat.succ_le_succ ih

mutual

/-- The clean-up changes every value that has a null in it, and no other. -/
theorem stripNullFields_iff (value : Json) : stripNullFields value = value ↔ nullFree value = true := by
  match value with
  | .object fields =>
    rw [stripNullFields, Json.object.injEq, stripFields_iff fields, nullFree]
  | .array items => rw [stripNullFields, Json.array.injEq, stripItems_iff items, nullFree]
  | .null | .bool _ | .number _ | .string _ => exact ⟨fun _ => rfl, fun _ => rfl⟩

theorem stripFields_iff (fields : List (String × Json)) : stripFields fields = fields ↔ nullFreeFields fields = true := by
  match fields with
  | [] => exact ⟨fun _ => rfl, fun _ => rfl⟩
  | (key, value) :: rest =>
    rw [stripFields, nullFreeFields]
    cases hNull : value.isNull with
    | true =>
      rw [if_pos rfl, Bool.not_true, Bool.false_and, Bool.false_and]
      constructor
      · intro h
        have hLength := stripFields_length rest
        rw [h, List.length_cons] at hLength
        omega
      · intro hFalse
        cases hFalse
    | false =>
      rw [if_neg Bool.false_ne_true, List.cons.injEq, Prod.mk.injEq, and_iff_right rfl, stripNullFields_iff value,
        stripFields_iff rest, Bool.not_false, Bool.true_and, Bool.and_eq_true]

theorem stripItems_iff (items : List Json) : stripItems items = items ↔ nullFreeItems items = true := by
  match items with
  | [] => exact ⟨fun _ => rfl, fun _ => rfl⟩
  | item :: rest =>
    rw [stripItems, nullFreeItems, List.cons.injEq, stripNullFields_iff item, stripItems_iff rest, Bool.and_eq_true]

end

/-- The fields of the object itself that are null go in any case. -/
theorem stripFields_eq_filter :
    stripFields fields = fields.filter (fun field => !field.2.isNull) ↔ ∀ field ∈ fields, nullFree field.2 = true := by
  induction fields with
  | nil => exact ⟨fun _ _ hNone => (nomatch hNone), fun _ => rfl⟩
  | cons field rest ih =>
    obtain ⟨key, value⟩ := field
    rw [stripFields, List.forall_mem_cons]
    cases hNull : value.isNull with
    | true =>
      have hFree : nullFree value = true := by
        cases value with
        | null => rfl
        | _ => cases hNull
      rw [if_pos rfl, List.filter_cons_of_neg (by rw [hNull]; exact Bool.false_ne_true), ih, and_iff_right hFree]
    | false =>
      rw [if_neg Bool.false_ne_true, List.filter_cons_of_pos (by rw [hNull]; rfl), List.cons.injEq, Prod.mk.injEq,
        and_iff_right rfl, stripNullFields_iff, ih]

theorem isNull_stripNullFields (value : Json) : (stripNullFields value).isNull = value.isNull := by
  cases value <;> rfl

/-- A field is not left as null. -/
theorem lookup_stripFields (key : String) : (stripFields fields).lookup key ≠ some .null := by
  induction fields with
  | nil => exact fun hNone => nomatch hNone
  | cons field rest ih =>
    rw [stripFields]
    split
    · exact ih
    · rename_i hNull
      rw [lookup_cons_eq]
      split
      · intro hSame
        exact hNull ((isNull_stripNullFields field.2).symm.trans (congrArg Json.isNull (Option.some.inj hSame)))
      · exact ih

/-! ## Definitions of function tools -/

/-- The tools with the cache control that each of them gets. -/
def withCacheControl : CacheControlValidator → List FunctionTool → List (FunctionTool × Option Json)
  | _, [] => []
  | validator, tool :: rest =>
    let cc := validator.getCacheControl tool.providerOptions "tool definition" true
    (tool, cc.1) :: withCacheControl cc.2 rest

def definitionOf (settings : ToolSettings) (given : FunctionTool × Option Json) : Json :=
  applyCc (.object (functionDef settings given.1)) given.2

/-- The schema is sent as it was given, and of the definition only members that are null are left out. -/
def Intact (settings : ToolSettings) (given : FunctionTool × Option Json) (sent : Json) : Prop :=
  sent.get "input_schema" = some given.1.inputSchema ∧ sent = dropNulls (definitionOf settings given)

/-- Nothing that the caller gave has a null in it. -/
structure Clean (settings : ToolSettings) (given : FunctionTool × Option Json) : Prop where
  schema : given.1.inputSchema.isNull = false ∧ nullFree given.1.inputSchema = true
  callers : ∀ callers, toolOption settings given.1 "allowedCallers" = some callers → nullFree callers = true
  examples : ∀ examples, given.1.inputExamples = some examples → nullFreeItems (examples.map .object) = true
  cacheControl : ∀ cc, given.2 = some cc → nullFree cc = true

theorem optionalMember_any {key other : String} (value : Option Json) (h : key ≠ other) :
    (optionalMember key value).any (·.1 = other) = false := by
  cases value with
  | none => rfl
  | some held =>
    rw [optionalMember, Option.toList_some, List.map_singleton, List.any_cons, decide_eq_false h]
    rfl

theorem forall_optionalMember {key : String} {value : Option Json} :
    (∀ field ∈ optionalMember key value, nullFree field.2 = true) ↔
      ∀ held, value = some held → nullFree held = true := by
  cases value with
  | none => exact ⟨fun _ _ hNone => (nomatch hNone), fun _ _ hNone => nomatch hNone⟩
  | some held =>
    rw [optionalMember, Option.toList_some, List.map_singleton, List.forall_mem_singleton]
    exact ⟨fun h _ hSame => Option.some.inj hSame ▸ h, fun h => h held rfl⟩

theorem definitionOf_eq (settings : ToolSettings) (given : FunctionTool × Option Json) :
    definitionOf settings given = .object (functionDef settings given.1 ++ optionalMember "cache_control" given.2) := by
  obtain ⟨tool, cc⟩ := given
  rw [definitionOf]
  cases cc with
  | none => exact congrArg Json.object (List.append_nil _).symm
  | some cc =>
    have hKeys : (functionDef settings tool).any (·.1 = "cache_control") = false := by
      simp only [functionDef, List.any_append]
      rw [optionalMember_any _ (by decide), optionalMember_any _ (by decide), optionalMember_any _ (by decide),
        optionalMember_any _ (by decide), optionalMember_any _ (by decide), optionalMember_any _ (by decide)]
      rfl
    rw [applyCc, Json.set, insertField, if_neg (by rw [hKeys]; exact Bool.false_ne_true)]
    rfl

theorem definition_nullFree (settings : ToolSettings) (given : FunctionTool × Option Json) :
    (∀ field ∈ functionDef settings given.1 ++ optionalMember "cache_control" given.2, nullFree field.2 = true) ↔
      nullFree given.1.inputSchema = true ∧
      (∀ callers, toolOption settings given.1 "allowedCallers" = some callers → nullFree callers = true) ∧
      (∀ examples, given.1.inputExamples = some examples → nullFreeItems (examples.map .object) = true) ∧
      ∀ cc, given.2 = some cc → nullFree cc = true := by
  have hBool (flag : Option Bool) : ∀ held, flag.map Json.bool = some held → nullFree held = true := by
    intro held hHeld
    obtain ⟨value, -, rfl⟩ := Option.map_eq_some_iff.mp hHeld
    rfl
  have hString (text : Option String) : ∀ held, text.map Json.string = some held → nullFree held = true := by
    intro held hHeld
    obtain ⟨value, -, rfl⟩ := Option.map_eq_some_iff.mp hHeld
    rfl
  have hEager (condition : Bool) : ∀ held, (if condition then some (Json.bool true) else none) = some held →
      nullFree held = true := by
    intro held hHeld
    split at hHeld
    · exact Option.some.inj hHeld ▸ rfl
    · cases hHeld
  have hStrict (condition : Bool) (flag : Option Bool) : ∀ held,
      (if condition then flag.map Json.bool else none) = some held → nullFree held = true := by
    intro held hHeld
    split at hHeld
    · exact hBool flag held hHeld
    · cases hHeld
  have hExamples : (∀ held, (given.1.inputExamples.map fun examples => Json.array (examples.map .object)) = some held →
      nullFree held = true) ↔
        ∀ examples, given.1.inputExamples = some examples → nullFreeItems (examples.map .object) = true := by
    constructor
    · intro h examples hSome
      exact h _ (by rw [hSome]; rfl)
    · intro h held hHeld
      obtain ⟨examples, hSome, rfl⟩ := Option.map_eq_some_iff.mp hHeld
      exact h examples hSome
  rw [functionDef]
  simp only [List.forall_mem_append, List.forall_mem_cons, forall_optionalMember]
  rw [hExamples]
  constructor
  · rintro ⟨⟨⟨⟨⟨⟨⟨⟨-, hSchema, -⟩, -⟩, -⟩, -⟩, -⟩, hCallers⟩, hInputs⟩, hCache⟩
    exact ⟨hSchema, hCallers, hInputs, hCache⟩
  · rintro ⟨hSchema, hCallers, hInputs, hCache⟩
    exact ⟨⟨⟨⟨⟨⟨⟨⟨rfl, hSchema, List.forall_mem_nil _⟩, hString _⟩, hEager _⟩, hStrict _ _⟩, hBool _⟩, hCallers⟩, hInputs⟩, hCache⟩

/-- A definition is sent intact just when nothing in it is null. -/
theorem intact_iff (settings : ToolSettings) (given : FunctionTool × Option Json) :
    Intact settings given (stripNullFields (definitionOf settings given)) ↔ Clean settings given := by
  rw [Intact, definitionOf_eq, stripNullFields, dropNulls, Json.object.injEq, stripFields_eq_filter, definition_nullFree]
  have hSchema (rest : List (String × Json)) :
      (Json.object (stripFields (("name", .string given.1.name) :: ("input_schema", given.1.inputSchema) :: rest))).get
        "input_schema" = some given.1.inputSchema ↔
          given.1.inputSchema.isNull = false ∧ nullFree given.1.inputSchema = true := by
    have hGet : (Json.object (stripFields (("name", .string given.1.name) ::
        ("input_schema", given.1.inputSchema) :: rest))).get "input_schema" =
          (stripFields (("input_schema", given.1.inputSchema) :: rest)).lookup "input_schema" := rfl
    rw [hGet, stripFields]
    cases hNull : given.1.inputSchema.isNull with
    | true =>
      have hIsNull : given.1.inputSchema = .null := by
        cases hSchema : given.1.inputSchema with
        | null => rfl
        | _ =>
          rw [hSchema] at hNull
          cases hNull
      rw [if_pos rfl, hIsNull]
      exact ⟨fun h => absurd h (lookup_stripFields rest _), fun h => Bool.noConfusion h.1⟩
    | false =>
      rw [if_neg Bool.false_ne_true, List.lookup_cons_self, Option.some.injEq, stripNullFields_iff, and_iff_right rfl]
  have hFields : ∃ others, functionDef settings given.1 ++ optionalMember "cache_control" given.2 =
      ("name", .string given.1.name) :: ("input_schema", given.1.inputSchema) :: others := ⟨_, rfl⟩
  obtain ⟨others, hFields⟩ := hFields
  rw [hFields, hSchema]
  constructor
  · rintro ⟨hBoth, -, hCallers, hExamples, hCache⟩
    exact ⟨hBoth, hCallers, hExamples, hCache⟩
  · rintro ⟨hBoth, hCallers, hExamples, hCache⟩
    exact ⟨hBoth, hBoth.2, hCallers, hExamples, hCache⟩

/-! ## The request -/

theorem prepareEach_functions (prepareProviderTool : PrepareProviderTool) (settings : ToolSettings) (notes : ToolNotes)
    (tools : List FunctionTool) : ∃ later, prepareEach prepareProviderTool settings notes (tools.map .function) =
      .ok ((withCacheControl notes.validator tools).map (definitionOf settings), later) := by
  induction tools generalizing notes with
  | nil => exact ⟨notes, rfl⟩
  | cons tool rest ih =>
    rw [List.map_cons, prepareEach, prepareTool]
    dsimp only [bind, Except.bind]
    obtain ⟨later, hLater⟩ := ih {
      betas := functionBetas settings tool notes.betas
      warnings := notes.warnings ++ strictWarnings settings tool
      validator := (notes.validator.getCacheControl tool.providerOptions "tool definition" true).2 }
    rw [hLater]
    exact ⟨later, rfl⟩

namespace ToolCallOptions

variable (options : ToolCallOptions)

/-- The call with function tools only. -/
def withFunctions (tools : Option (List FunctionTool)) : ToolCallOptions :=
  { options with tools := tools.map (·.map .function) }

/-- The tools with the one that a schema for the answer adds. -/
def givenTools (tools : Option (List FunctionTool)) : List FunctionTool :=
  tools.getD [] ++ options.jsonSchema.toList.map jsonTool

theorem anthropicTools_withFunctions (tools : Option (List FunctionTool)) :
    (options.withFunctions tools).anthropicTools = (options.givenTools tools).map .function := by
  rw [anthropicTools, givenTools, List.map_append, List.map_map]
  cases tools <;> rfl

/-- The tools that are sent. -/
def keepGiven (given : List (FunctionTool × Option Json)) : List (FunctionTool × Option Json) :=
  match options.rejectsForcedToolUse, options.requestedChoice with
  | true, some (.tool toolName) => given.filter (·.1.name = toolName)
  | _, _ => given

end ToolCallOptions

theorem keepChosen_definitions (options : ToolCallOptions) (settings : ToolSettings)
    (given : List (FunctionTool × Option Json)) :
    keepChosen options (given.map (definitionOf settings)) = (options.keepGiven given).map (definitionOf settings) := by
  have hName (pair : FunctionTool × Option Json) : (definitionOf settings pair).getStr "name" = some pair.1.name := by
    rw [definitionOf_eq]
    rfl
  rw [keepChosen, ToolCallOptions.keepGiven]
  generalize options.rejectsForcedToolUse = rejects
  generalize options.requestedChoice = choice
  cases rejects with
  | false => rfl
  | true =>
    cases choice with
    | none => rfl
    | some choice =>
      cases choice with
      | tool toolName =>
        refine (List.filter_map ..).trans (congrArg _ (List.filter_congr fun pair _ => ?_))
        simp only [Function.comp_apply, hName, Option.some.injEq]
      | _ => rfl

theorem rejected_none (options : ToolCallOptions) :
    (if options.rejected.isSome then some .auto else options.requestedChoice) = some LanguageModelV4ToolChoice.none ↔
      options.requestedChoice = some .none := by
  have hNever : options.requestedChoice = some .none → options.rejected = none := by
    intro hNone
    rw [ToolCallOptions.rejected, hNone]
    split <;> rfl
  constructor
  · intro h
    split at h
    · cases h
    · exact h
  · intro h
    rw [hNever h, h]
    rfl

theorem applyAnthropicTools_functions (prepareProviderTool : PrepareProviderTool) (options : ToolCallOptions)
    (tools : Option (List FunctionTool)) (validator : CacheControlValidator) :
    ∃ applied, applyAnthropicTools prepareProviderTool (options.withFunctions tools) validator = .ok applied ∧
      applied.tools = if options.givenTools tools = [] ∨ options.requestedChoice = some .none then none
        else some ((options.keepGiven (withCacheControl validator (options.givenTools tools))).map fun given =>
          stripNullFields (definitionOf options.settings given)) := by
  rw [applyAnthropicTools]
  dsimp only [bind, Except.bind, pure, Except.pure]
  generalize hDisable : ((options.withFunctions tools).jsonSchema.isSome ||
    (((options.withFunctions tools).option "disableParallelToolUse").bind asBool).getD false) = disableParallel
  have hGiven : (if (options.withFunctions tools).tools.isSome || (options.withFunctions tools).jsonSchema.isSome then
      some (options.withFunctions tools).anthropicTools else none).filter (!·.isEmpty) =
        if options.givenTools tools = [] then none else some ((options.givenTools tools).map .function) := by
    rw [ToolCallOptions.anthropicTools_withFunctions]
    by_cases hSome : (options.withFunctions tools).tools.isSome || (options.withFunctions tools).jsonSchema.isSome
    · rw [if_pos hSome, Option.filter_some, List.isEmpty_map]
      cases options.givenTools tools <;> rfl
    · have hNone : options.givenTools tools = [] := by
        rw [Bool.or_eq_true, not_or] at hSome
        obtain ⟨hTools, hSchema⟩ := hSome
        rw [ToolCallOptions.givenTools]
        cases tools with
        | some tools => exact absurd rfl hTools
        | none =>
          have hNoSchema : options.jsonSchema = none := Option.not_isSome_iff_eq_none.mp hSchema
          rw [hNoSchema]
          rfl
      rw [if_neg hSome, if_pos hNone]
      rfl
  have hRejected := rejected_none (options.withFunctions tools)
  rw [prepareToolsWithValidator, hGiven]
  by_cases hEmpty : options.givenTools tools = []
  · rw [if_pos hEmpty]
    refine ⟨_, rfl, ?_⟩
    rw [if_pos (Or.inl hEmpty)]
    rfl
  · rw [if_neg hEmpty]
    dsimp only
    obtain ⟨later, hEach⟩ := prepareEach_functions prepareProviderTool (options.withFunctions tools).settings
      { validator := validator } (options.givenTools tools)
    rw [hEach]
    dsimp only [bind, Except.bind, pure, Except.pure]
    by_cases hChoice : options.requestedChoice = some .none
    · rw [if_pos (hRejected.mpr hChoice)]
      refine ⟨_, rfl, ?_⟩
      rw [if_pos (Or.inr hChoice)]
      rfl
    · rw [if_neg (fun h => hChoice (hRejected.mp h))]
      refine ⟨_, rfl, ?_⟩
      rw [if_neg (not_or.mpr ⟨hEmpty, hChoice⟩)]
      refine congrArg some ?_
      have hKept := keepChosen_definitions options options.settings (withCacheControl validator (options.givenTools tools))
      exact (congrArg (List.map stripNullFields) hKept).trans (List.map_map ..)

/-- The definitions in a request are intact just when no tool that is sent has a null in its schema (which is none itself),
its callers, its examples or its cache control. -/
theorem schemas_intact_iff (prepareProviderTool : PrepareProviderTool) (options : ToolCallOptions)
    (tools : Option (List FunctionTool)) (validator : CacheControlValidator) :
    ∃ applied, applyAnthropicTools prepareProviderTool (options.withFunctions tools) validator = .ok applied ∧
      ((∀ sent, applied.tools = some sent → List.Forall₂ (Intact options.settings)
        (options.keepGiven (withCacheControl validator (options.givenTools tools))) sent) ↔
      (options.requestedChoice ≠ some .none →
        ∀ given ∈ options.keepGiven (withCacheControl validator (options.givenTools tools)), Clean options.settings given)) := by
  obtain ⟨applied, hApplied, hTools⟩ := applyAnthropicTools_functions prepareProviderTool options tools validator
  refine ⟨applied, hApplied, ?_⟩
  have hNoneGiven : options.givenTools tools = [] →
      options.keepGiven (withCacheControl validator (options.givenTools tools)) = [] := by
    intro hEmpty
    rw [hEmpty, withCacheControl, ToolCallOptions.keepGiven]
    split <;> rfl
  generalize options.keepGiven (withCacheControl validator (options.givenTools tools)) = kept at hTools hNoneGiven ⊢
  have hAll : List.Forall₂ (Intact options.settings) kept
      (kept.map fun given => stripNullFields (definitionOf options.settings given)) ↔
        ∀ given ∈ kept, Clean options.settings given := by
    rw [List.forall₂_map_right_iff, List.forall₂_same]
    exact forall₂_congr fun given _ => intact_iff options.settings given
  rw [hTools]
  by_cases hChoice : options.requestedChoice = some .none
  · rw [if_pos (.inr hChoice)]
    exact ⟨fun _ hNot => absurd hChoice hNot, fun _ _ hNone => nomatch hNone⟩
  · by_cases hEmpty : options.givenTools tools = []
    · rw [if_pos (.inl hEmpty), hNoneGiven hEmpty]
      exact ⟨fun _ _ _ hNone => (nomatch hNone), fun _ _ hNone => nomatch hNone⟩
    · rw [if_neg (not_or.mpr ⟨hEmpty, hChoice⟩)]
      constructor
      · exact fun h _ => hAll.mp (h _ rfl)
      · intro h sent hSent
        rw [← Option.some.inj hSent]
        exact hAll.mpr (h hChoice)

/-- A schema whose only value is null. -/
def nullSchema : Json := .object [("type", .string "object"),
  ("properties", .object [("mode", .object [("const", .null)])])]

def nullOptions : ToolCallOptions where
  tools := none
  toolChoice := none
  providerOptions := none
  stream := false
  jsonSchema := none
  optionsName := CANONICAL
  supportsNativeStructuredOutput := true
  supportsStrictTools := true
  rejectsForcedToolUse := false
  supportsStructuredOutput := true

theorem null_schema_not_intact : ∃ applied sent,
    applyAnthropicTools (fun _ _ betas => .ok (none, betas))
      (nullOptions.withFunctions (some [{ name := "set", inputSchema := nullSchema }])) { optionsName := CANONICAL } =
        .ok applied ∧
      applied.tools = some [sent] ∧ sent.get "input_schema" ≠ some nullSchema := by
  refine ⟨_, _, rfl, rfl, ?_⟩
  intro hSame
  have hProperties := congrArg (fun schema => schema.bind fun schema =>
    (schema.get "properties").bind fun properties => (properties.get "mode").bind (·.get "const")) hSame
  cases hProperties

end Aimux.Anthropic
