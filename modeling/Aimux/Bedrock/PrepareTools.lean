import Aimux.Bedrock.ConvertToChatMessages
import Aimux.Core.SchemaPlaces
import Aimux.Lib.Everywhere
import Aimux.Replay.CallOptions

/-! # Function tools of a Converse request

`prepare_tools.rs`: the tools that are sent, and which of them are sent as strict.
-/

namespace Aimux.Bedrock

open Aimux.Core hiding FunctionTool
open Aimux.Lib (Everywhere everywhere_iff everywhere_or)
open Aimux.Prompt (optionalField lookup_optionalField)
open Aimux.Replay (FunctionTool)

/-! ## Strict schemas -/

/-- `type` is `object`, or a list with `object` in it. -/
def isObjectTyped (schema : Json) : Bool :=
  asStr (schema.member "type") = some "object" ||
    (asArray (schema.member "type")).any (·.any (asStr · = some "object"))

/-- An object-typed schema sets `additionalProperties` to false. -/
def closesObject (schema : Json) : Bool :=
  !isObjectTyped schema || asBool (schema.member "additionalProperties") = some false

def MAP_KEYS : List String := ["properties", "patternProperties", "definitions", "$defs", "dependencies"]

def SCHEMA_KEYS : List String :=
  ["propertyNames", "contains", "not", "if", "then", "else", "items", "anyOf", "allOf", "oneOf"]

def isStrictSchemaCompatible : Json → Bool
  | .object fields =>
    closesObject (.object fields) &&
    (MAP_KEYS.all fun key => match _hMap : fields.lookup key with
      | some (.object members) => members.attach.all fun member => isStrictSchemaCompatible member.1.2
      | _ => true) &&
    SCHEMA_KEYS.all fun key => match _hValue : fields.lookup key with
      | some (.array items) => items.attach.all fun item => isStrictSchemaCompatible item.1
      | some value => isStrictSchemaCompatible value
      | none => true
  | _ => true
termination_by schema => sizeOf schema
decreasing_by
  · have hMember := List.sizeOf_lt_of_mem member.2
    have hMembers := sizeOf_lookup _hMap
    have hPair : sizeOf member.1.2 < sizeOf member.1 := by
      obtain ⟨⟨name, value⟩, hMem⟩ := member
      simp only [Prod.mk.sizeOf_spec]
      omega
    simp only [Json.object.sizeOf_spec] at hMembers ⊢
    omega
  · have hItem := List.sizeOf_lt_of_mem item.2
    have hItems := sizeOf_lookup _hValue
    simp only [Json.array.sizeOf_spec, Json.object.sizeOf_spec] at hItems ⊢
    omega
  · exact sizeOf_lookup _hValue

/-! ## Where schemas stand -/

/-- What is looked at. -/
def visited : Keywords := ⟨MAP_KEYS, SCHEMA_KEYS, SCHEMA_KEYS⟩

/-- The keywords of draft 07, less `additionalItems` and `additionalProperties`. -/
def draft07Visited : Keywords where
  maps := ["properties", "patternProperties", "definitions", "dependencies"]
  lists := ["items", "allOf", "anyOf", "oneOf"]
  schemas := ["items", "contains", "propertyNames", "not", "if", "then", "else"]

def draft07Passed : Keywords := ⟨[], [], ["additionalItems", "additionalProperties"]⟩

/-- The places of schemas in draft 07. -/
def Draft07 (schema sub : Json) : Prop := draft07Visited.Holds schema sub ∨ draft07Passed.Holds schema sub

/-- Every object-typed schema, at any depth, sets `additionalProperties` to false. -/
def ClosedThroughout (schema : Json) : Prop := Everywhere Draft07 (closesObject · = true) schema

/-! ## The check -/

theorem all_attach {α : Type} (items : List α) (p : α → Bool) : (items.attach.all fun item => p item.1) = items.all p := by
  rw [List.all_subtype fun item _ => (rfl : p item = p item), List.unattach_attach]

theorem isStrictSchemaCompatible_object (fields : List (String × Json)) :
    isStrictSchemaCompatible (.object fields) = (closesObject (.object fields) &&
      (MAP_KEYS.all fun key => match fields.lookup key with
        | some (.object members) => members.all fun member => isStrictSchemaCompatible member.2
        | _ => true) &&
      SCHEMA_KEYS.all fun key => match fields.lookup key with
        | some (.array items) => items.all isStrictSchemaCompatible
        | some value => isStrictSchemaCompatible value
        | none => true) := by
  rw [isStrictSchemaCompatible]
  congr 1
  · congr 2
    funext key
    cases hMap : fields.lookup key with
    | none => rfl
    | some value =>
      cases value with
      | object members => exact all_attach members fun member => isStrictSchemaCompatible member.2
      | _ => rfl
  · congr 1
    funext key
    cases hValue : fields.lookup key with
    | none => rfl
    | some value =>
      cases value with
      | array items => exact all_attach items isStrictSchemaCompatible
      | _ => rfl

/-- One level of the check. -/
theorem isStrictSchemaCompatible_iff (schema : Json) : isStrictSchemaCompatible schema = true ↔
    closesObject schema = true ∧ ∀ sub, visited.Holds schema sub → isStrictSchemaCompatible sub = true := by
  cases schema with
  | object fields =>
    rw [isStrictSchemaCompatible_object, Bool.and_eq_true, Bool.and_eq_true, and_assoc, List.all_eq_true, List.all_eq_true]
    refine and_congr_right fun _ => ?_
    constructor
    · rintro ⟨hMaps, hSchemas⟩ sub hSub
      cases hSub with
      | inMap hKey hMap hMember =>
        have hAll := hMaps _ hKey
        rw [show fields.lookup _ = _ from hMap] at hAll
        exact List.all_eq_true.mp hAll _ hMember
      | inList hKey hList hItem =>
        have hAll := hSchemas _ hKey
        rw [show fields.lookup _ = _ from hList] at hAll
        exact List.all_eq_true.mp hAll _ hItem
      | alone hKey hValue hSchema =>
        have hOne := hSchemas _ hKey
        rw [show fields.lookup _ = _ from hValue] at hOne
        cases sub with
        | array items => cases hSchema
        | _ => exact hOne
    · intro h
      refine ⟨fun key hKey => ?_, fun key hKey => ?_⟩
      · cases hMap : fields.lookup key with
        | none => rfl
        | some value =>
          cases value with
          | object members =>
            exact List.all_eq_true.mpr fun member hMember => h member.2 (.inMap hKey hMap hMember)
          | _ => rfl
      · cases hValue : fields.lookup key with
        | none => rfl
        | some value =>
          cases value with
          | array items => exact List.all_eq_true.mpr fun item hItem => h item (.inList hKey hValue hItem)
          | _ => exact h _ (.alone hKey hValue rfl)
  | _ =>
    rw [isStrictSchemaCompatible]
    refine ⟨fun _ => ⟨rfl, fun sub hSub => ?_⟩, fun _ => rfl⟩
    · obtain ⟨fields, hFields⟩ := hSub.isObject
      cases hFields
    · exact fun fields hFields => nomatch hFields

/-- The check, at any depth. -/
theorem isStrictSchemaCompatible_everywhere (schema : Json) :
    isStrictSchemaCompatible schema = true ↔ Everywhere visited.Holds (closesObject · = true) schema := by
  rw [isStrictSchemaCompatible_iff, everywhere_iff]
  refine and_congr_right fun _ => forall_congr' fun sub => forall_congr' fun hSub => ?_
  have hSmaller := hSub.sizeOf_lt
  exact isStrictSchemaCompatible_everywhere sub
termination_by sizeOf schema

/-- What is looked at are places of draft 07, and more. -/
theorem visited_of_draft07 {schema sub : Json} (h : draft07Visited.Holds schema sub) : visited.Holds schema sub :=
  h.mono (by decide) (by decide) (by decide)

/-- A schema that passes the check is closed throughout just when what is passed over in it is. -/
theorem closedThroughout_iff {schema : Json} (h : isStrictSchemaCompatible schema = true) : ClosedThroughout schema ↔
    Everywhere draft07Visited.Holds (fun sub => ∀ extra, draft07Passed.Holds sub extra → ClosedThroughout extra)
      schema := by
  have hVisited : Everywhere draft07Visited.Holds (closesObject · = true) schema :=
    ((isStrictSchemaCompatible_everywhere schema).mp h).mono fun _ _ => visited_of_draft07
  exact everywhere_or.trans (and_iff_right hVisited)

/-! ## The tools that are sent -/

def MODELS_WITHOUT_STRICT_TOOL_SUPPORT : List String :=
  ["claude-opus-4-7", "claude-opus-4-8", "claude-opus-5", "claude-fable-5", "claude-sonnet-5"]

def supportsStrictTools (modelId : String) : Bool :=
  !MODELS_WITHOUT_STRICT_TOOL_SUPPORT.any fun model => decide (model.toList <:+: modelId.toList)

/-- The specification of a tool. -/
def specOf (supportsStrict : Bool) (tool : FunctionTool) : Json :=
  .object (("name", .string tool.name) ::
    (optionalField "description" (tool.description.filter fun text => !(trim text.toList).isEmpty) .string ++
      (optionalField "strict" (tool.strict.filter fun strict =>
        supportsStrict && (!strict || isStrictSchemaCompatible tool.inputSchema)) .bool ++
          [("inputSchema", Json.object [("json", tool.inputSchema)])])))

/-- A choice of a tool leaves that tool. -/
def filtered (tools : List FunctionTool) : Option LanguageModelV4ToolChoice → List FunctionTool
  | some (.tool toolName) => tools.filter (·.name = toolName)
  | _ => tools

def prepareTools (tools : Option (List FunctionTool)) (toolChoice : Option LanguageModelV4ToolChoice)
    (modelId : String) : Json :=
  match tools.filter (!·.isEmpty) with
  | none => .object []
  | some tools =>
    if toolChoice = some .none then .object []
    else
      let toolSpecs := (filtered tools toolChoice).map fun tool =>
        Json.object [("toolSpec", specOf (supportsStrictTools modelId) tool)]
      if toolSpecs.isEmpty then .object []
      else
        let chosen (choice : List (String × Json)) : Json :=
          .object [("tools", .array toolSpecs), ("toolChoice", .object choice)]
        match toolChoice with
        | some .auto => chosen [("auto", .object [])]
        | some .required => chosen [("any", .object [])]
        | some (.tool toolName) => chosen [("tool", .object [("name", .string toolName)])]
        -- No choice; that of no tool does not come here.
        | some .none | none => .object [("tools", .array toolSpecs)]

/-- The specifications in a request's tool configuration. -/
def sentSpecs (toolConfig : Json) : List Json := ((asArray (toolConfig.member "tools")).getD []).map (·.member "toolSpec")

theorem sentSpecs_prepareTools (tools : Option (List FunctionTool)) (toolChoice : Option LanguageModelV4ToolChoice)
    (modelId : String) : sentSpecs (prepareTools tools toolChoice modelId) =
      if toolChoice = some .none then []
      else (filtered (tools.getD []) toolChoice).map (specOf (supportsStrictTools modelId)) := by
  have hEmpty : sentSpecs (.object []) = [] := rfl
  have hSpecs (fields : List (String × Json)) (specs : List Json) :
      sentSpecs (.object (("tools", .array (specs.map fun spec => .object [("toolSpec", spec)])) :: fields)) = specs := by
    have hTools : sentSpecs (.object (("tools", .array (specs.map fun spec => .object [("toolSpec", spec)])) :: fields)) =
        (specs.map fun spec => Json.object [("toolSpec", spec)]).map (·.member "toolSpec") := rfl
    rw [hTools, List.map_map]
    exact List.map_id specs
  have hNil (choice : Option LanguageModelV4ToolChoice) : filtered [] choice = [] := by
    unfold filtered
    split <;> rfl
  unfold prepareTools
  cases hTools : tools.filter (!·.isEmpty) with
  | none =>
    have hGetD : tools.getD [] = [] := by
      cases tools with
      | none => rfl
      | some held =>
        cases held with
        | nil => rfl
        | cons first rest => cases hTools
    rw [hGetD, hNil, List.map_nil, ite_self, hEmpty]
  | some held =>
    have hGetD : tools.getD [] = held := by
      rw [(Option.filter_eq_some_iff.mp hTools).1]
      rfl
    dsimp only
    rw [hGetD]
    split
    · exact hEmpty
    · rename_i hNotNone
      have hMap : ((filtered held toolChoice).map fun tool =>
          Json.object [("toolSpec", specOf (supportsStrictTools modelId) tool)]) =
            ((filtered held toolChoice).map (specOf (supportsStrictTools modelId))).map fun spec =>
              Json.object [("toolSpec", spec)] := by
        rw [List.map_map]
        rfl
      rw [hMap]
      generalize (filtered held toolChoice).map (specOf (supportsStrictTools modelId)) = specs
      split
      · rename_i hNoSpecs
        rw [hEmpty, List.map_eq_nil_iff.mp (List.isEmpty_iff.mp hNoSpecs)]
      · split <;> exact hSpecs _ specs

theorem specOf_strict (supportsStrict : Bool) (tool : FunctionTool) :
    (specOf supportsStrict tool).getBool "strict" = some true ↔
      tool.strict = some true ∧ supportsStrict = true ∧ isStrictSchemaCompatible tool.inputSchema = true := by
  have hField : (specOf supportsStrict tool).getBool "strict" = tool.strict.filter fun strict =>
      supportsStrict && (!strict || isStrictSchemaCompatible tool.inputSchema) := by
    rw [Json.getBool, specOf, Json.get, asObject, Option.bind_some, lookup_cons_eq,
      if_neg (show "strict" ≠ "name" by decide),
      List.lookup_append, lookup_optionalField, if_neg (by decide), Option.none_or, List.lookup_append,
      lookup_optionalField, if_pos rfl]
    cases tool.strict.filter _ with
    | none => rfl
    | some strict => rfl
  rw [hField, Option.filter_eq_some_iff, Bool.and_eq_true, Bool.or_eq_true, Bool.not_eq_true']
  simp

theorem specOf_schema (supportsStrict : Bool) (tool : FunctionTool) :
    ((specOf supportsStrict tool).member "inputSchema").member "json" = tool.inputSchema := by
  have hField : (specOf supportsStrict tool).member "inputSchema" = .object [("json", tool.inputSchema)] := by
    rw [Json.member, specOf, Json.get, asObject, Option.bind_some, lookup_cons_eq,
      if_neg (show "inputSchema" ≠ "name" by decide),
      List.lookup_append, lookup_optionalField, if_neg (by decide), Option.none_or, List.lookup_append,
      lookup_optionalField, if_neg (by decide), Option.none_or]
    rfl
  rw [hField]
  rfl

/-- Only schemas that are closed throughout are sent as strict. -/
def StrictIsClosed (toolConfig : Json) : Prop :=
  ∀ spec ∈ sentSpecs toolConfig, spec.getBool "strict" = some true →
    ClosedThroughout ((spec.member "inputSchema").member "json")

/-- That is so just when no tool that could be strict, and whose schema is closed where it is looked at, has a schema
that is not closed throughout as the `additionalItems` or `additionalProperties` of such a place. -/
theorem strictIsClosed_iff (tools : Option (List FunctionTool)) (toolChoice : Option LanguageModelV4ToolChoice)
    (modelId : String) : StrictIsClosed (prepareTools tools toolChoice modelId) ↔
      (toolChoice ≠ some .none → supportsStrictTools modelId = true →
        ∀ tool ∈ filtered (tools.getD []) toolChoice, tool.strict = some true →
          Everywhere visited.Holds (closesObject · = true) tool.inputSchema →
            Everywhere draft07Visited.Holds (fun sub => ∀ extra, draft07Passed.Holds sub extra → ClosedThroughout extra)
              tool.inputSchema) := by
  rw [StrictIsClosed, sentSpecs_prepareTools]
  constructor
  · intro h hChoice hSupports tool hTool hStrict hClosed
    have hCompatible := (isStrictSchemaCompatible_everywhere tool.inputSchema).mpr hClosed
    rw [if_neg hChoice] at h
    have hSent := h _ (List.mem_map_of_mem hTool) ((specOf_strict ..).mpr ⟨hStrict, hSupports, hCompatible⟩)
    rw [specOf_schema] at hSent
    exact (closedThroughout_iff hCompatible).mp hSent
  · intro h spec hSpec hStrict
    split at hSpec
    · cases hSpec
    · rename_i hChoice
      obtain ⟨tool, hTool, rfl⟩ := List.mem_map.mp hSpec
      obtain ⟨hAsked, hSupports, hCompatible⟩ := (specOf_strict ..).mp hStrict
      rw [specOf_schema, closedThroughout_iff hCompatible]
      exact h hChoice hSupports tool hTool hAsked ((isStrictSchemaCompatible_everywhere _).mp hCompatible)

/-- A tuple with objects after it, whose members are not known. -/
def openTail : Json := .object [("type", .string "array"), ("items", .array [.object [("type", .string "string")]]),
  ("additionalItems", .object [("type", .string "object")])]

theorem openTail_strict : ¬StrictIsClosed (prepareTools
    (some [{ name := "append", inputSchema := openTail, strict := some true }]) none "anthropic.claude-sonnet-4-5") := by
  have hSupports : supportsStrictTools "anthropic.claude-sonnet-4-5" = true := by decide +kernel
  have hCompatible : isStrictSchemaCompatible openTail = true := by decide +kernel
  intro h
  rw [StrictIsClosed, sentSpecs_prepareTools, if_neg (by decide)] at h
  have hSent := h _ (List.mem_singleton_self _) ((specOf_strict ..).mpr ⟨rfl, hSupports, hCompatible⟩)
  rw [specOf_schema] at hSent
  have hTail : Draft07 openTail (.object [("type", .string "object")]) :=
    .inr (.alone (List.mem_cons_self ..) rfl rfl)
  exact absurd (hSent.below hTail).here (by decide)

end Aimux.Bedrock
