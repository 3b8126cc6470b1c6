import Aimux.Anthropic.ConvertToPrompt
import Aimux.Anthropic.ConvertUsage
import Aimux.Replay.CallOptions

/-! # Tools of an Anthropic request

`prepare_tools.rs` and `apply_anthropic_tools`: the definitions of the tools, and the clean-up that runs over them.
What a provider's own tool is defined as is a parameter.
-/

namespace Aimux.Anthropic

open Aimux.Core hiding FunctionTool
open Aimux.Prompt (ProviderOptions)
open Aimux.Replay (FunctionTool)

/-! ## Definitions -/

inductive AnthropicTool where
  | function (tool : FunctionTool)
  | provider (id name : String) (args : List (String × Json))

/-- The definition of a provider's tool, where its id is known, and the betas. -/
abbrev PrepareProviderTool := String → List (String × Json) → List String → Except AiMuxError (Option Json × List String)

structure PreparedTools where
  tools : Option (List Json) := none
  toolChoice : Option Json := none
  toolWarnings : List Warning := []
  betas : List String := []

def BETA_STRUCTURED_OUTPUTS : String := "structured-outputs-2025-11-13"
def BETA_ADVANCED_TOOL_USE : String := "advanced-tool-use-2025-11-20"

/-- `IndexSet::insert` -/
def insertBeta (betas : List String) (beta : String) : List String := if beta ∈ betas then betas else betas ++ [beta]

/-- What a call's tools are prepared with. -/
structure ToolSettings where
  supportsStructuredOutput : Bool
  supportsStrictTools : Bool
  defaultEagerInputStreaming : Bool
  optionsName : String

def toolOption (settings : ToolSettings) (tool : FunctionTool) (key : String) : Option Json :=
  (anthropicOptions tool.providerOptions settings.optionsName).bind (·.lookup key)

def optionalMember (key : String) (value : Option Json) : List (String × Json) := value.toList.map fun held => (key, held)

/-- The definition of a function tool. -/
def functionDef (settings : ToolSettings) (tool : FunctionTool) : List (String × Json) :=
  [("name", .string tool.name), ("input_schema", tool.inputSchema)] ++
  optionalMember "description" (tool.description.map .string) ++
  optionalMember "eager_input_streaming"
    (if ((toolOption settings tool "eagerInputStreaming").bind asBool).getD settings.defaultEagerInputStreaming then
      some (.bool true) else none) ++
  optionalMember "strict" (if settings.supportsStrictTools then tool.strict.map .bool else none) ++
  optionalMember "defer_loading" (((toolOption settings tool "deferLoading").bind asBool).map .bool) ++
  optionalMember "allowed_callers" (toolOption settings tool "allowedCallers") ++
  optionalMember "input_examples" (tool.inputExamples.map fun examples => .array (examples.map .object))

def strictWarnings (settings : ToolSettings) (tool : FunctionTool) : List Warning :=
  match tool.strict with
  | some strict =>
    if settings.supportsStrictTools then []
    else [.unsupported "strict" (some ("Tool '" ++ tool.name ++ "' has strict: " ++ toString strict ++
      ", but strict mode is not supported by this provider. The strict property will be ignored."))]
  | none => []

def functionBetas (settings : ToolSettings) (tool : FunctionTool) (betas : List String) : List String :=
  let structured := if settings.supportsStructuredOutput then insertBeta betas BETA_STRUCTURED_OUTPUTS else betas
  if tool.inputExamples.isSome || (toolOption settings tool "allowedCallers").isSome then
    insertBeta structured BETA_ADVANCED_TOOL_USE
  else structured

/-- What is noted while the tools are prepared. -/
structure ToolNotes where
  betas : List String := []
  warnings : List Warning := []
  validator : CacheControlValidator

def prepareTool (prepareProviderTool : PrepareProviderTool) (settings : ToolSettings) (notes : ToolNotes) :
    AnthropicTool → Except AiMuxError (List Json × ToolNotes)
  | .function tool =>
    let cc := notes.validator.getCacheControl tool.providerOptions "tool definition" true
    .ok ([applyCc (.object (functionDef settings tool)) cc.1], {
      betas := functionBetas settings tool notes.betas
      warnings := notes.warnings ++ strictWarnings settings tool
      validator := cc.2 })
  | .provider id _ args => do
    let prepared ← prepareProviderTool id args notes.betas
    match prepared.1 with
    | some definition => return ([definition], { notes with betas := prepared.2 })
    | none => return ([], { notes with
        betas := prepared.2
        warnings := notes.warnings ++ [.unsupported ("provider-defined tool " ++ id) none] })

def prepareEach (prepareProviderTool : PrepareProviderTool) (settings : ToolSettings) :
    ToolNotes → List AnthropicTool → Except AiMuxError (List Json × ToolNotes)
  | notes, [] => .ok ([], notes)
  | notes, tool :: rest => do
    let first ← prepareTool prepareProviderTool settings notes tool
    let later ← prepareEach prepareProviderTool settings first.2 rest
    return (first.1 ++ later.1, later.2)

def buildToolChoice (disableParallel : Bool) : Option LanguageModelV4ToolChoice → Option Json
  | none =>
    if disableParallel then some (.object [("type", .string "auto"), ("disable_parallel_tool_use", .bool true)]) else none
  | some choice =>
    let withDisable (fields : List (String × Json)) : Json :=
      .object (fields ++ if disableParallel then [("disable_parallel_tool_use", .bool true)] else [])
    match choice with
    | .auto => some (withDisable [("type", .string "auto")])
    | .required => some (withDisable [("type", .string "any")])
    | .none => none
    | .tool toolName => some (withDisable [("type", .string "tool"), ("name", .string toolName)])

def prepareToolsWithValidator (prepareProviderTool : PrepareProviderTool) (settings : ToolSettings)
    (tools : Option (List AnthropicTool)) (toolChoice : Option LanguageModelV4ToolChoice) (disableParallel : Bool)
    (validator : CacheControlValidator) : Except AiMuxError (PreparedTools × CacheControlValidator) :=
  match tools.filter (!·.isEmpty) with
  | none => .ok ({}, validator)
  | some tools => do
    let prepared ← prepareEach prepareProviderTool settings { validator := validator } tools
    let notes := prepared.2
    if toolChoice = some .none then
      return ({ toolWarnings := notes.warnings, betas := notes.betas }, notes.validator)
    else
      return ({
        tools := some prepared.1
        toolChoice := buildToolChoice disableParallel toolChoice
        toolWarnings := notes.warnings
        betas := notes.betas }, notes.validator)

/-! ## The clean-up -/

mutual

/-- `strip_null_fields`: of every object, at any depth, the fields that are null. -/
def stripNullFields : Json → Json
  | .object fields => .object (stripFields fields)
  | .array items => .array (stripItems items)
  | value => value

def stripFields : List (String × Json) → List (String × Json)
  | [] => []
  | (key, value) :: rest =>
    if value.isNull then stripFields rest else (key, stripNullFields value) :: stripFields rest

def stripItems : List Json → List Json
  | [] => []
  | item :: rest => stripNullFields item :: stripItems rest

end

/-! ## The tools of a request -/

/-- What a call gives for its tools, and what the model can do. -/
structure ToolCallOptions where
  tools : Option (List AnthropicTool)
  toolChoice : Option LanguageModelV4ToolChoice
  providerOptions : Option ProviderOptions
  stream : Bool
  jsonSchema : Option Json
  optionsName : String
  supportsNativeStructuredOutput : Bool
  supportsStrictTools : Bool
  rejectsForcedToolUse : Bool
  supportsStructuredOutput : Bool

def ToolCallOptions.option (options : ToolCallOptions) (key : String) : Option Json :=
  (anthropicOptions options.providerOptions options.optionsName).bind (·.lookup key)

def ToolCallOptions.settings (options : ToolCallOptions) : ToolSettings where
  supportsStructuredOutput :=
    options.jsonSchema.isNone && options.supportsStructuredOutput && options.supportsNativeStructuredOutput
  supportsStrictTools := options.supportsStructuredOutput && options.supportsStrictTools
  defaultEagerInputStreaming := options.stream && ((options.option "toolStreaming").bind asBool).getD true
  optionsName := options.optionsName

/-- The tool whose input is the answer. -/
def jsonTool (schema : Json) : FunctionTool where
  name := "json"
  description := some "Respond with a JSON object."
  inputSchema := schema

def ToolCallOptions.anthropicTools (options : ToolCallOptions) : List AnthropicTool :=
  options.tools.getD [] ++ options.jsonSchema.toList.map fun schema => AnthropicTool.function (jsonTool schema)

def ToolCallOptions.requestedChoice (options : ToolCallOptions) : Option LanguageModelV4ToolChoice :=
  if options.jsonSchema.isSome then some .required else options.toolChoice

def forcedWarning : LanguageModelV4ToolChoice → Option String
  | .required => some ("toolChoice 'required' is not supported by this model because it rejects forced tool use. " ++
      "Using 'auto' instead. Instruct the model to use a tool in the prompt and verify that a tool call was made.")
  | .tool toolName => some ("toolChoice 'tool' is not supported by this model because it rejects forced tool use. Only the '" ++
      toolName ++ "' tool is sent with 'auto' tool choice. Instruct the model to use the tool in the prompt and verify " ++
      "that a tool call was made.")
  | _ => none

/-- The warning of a choice that the model rejects. -/
def ToolCallOptions.rejected (options : ToolCallOptions) : Option String :=
  if options.rejectsForcedToolUse && !options.anthropicTools.isEmpty then options.requestedChoice.bind forcedWarning
  else none

/-- The tool of a choice that the model rejects is the only one left. -/
def keepChosen (options : ToolCallOptions) (definitions : List Json) : List Json :=
  match options.rejectsForcedToolUse, options.requestedChoice with
  | true, some (.tool toolName) => definitions.filter (·.getStr "name" = some toolName)
  | _, _ => definitions

structure AppliedTools where
  tools : Option (List Json)
  toolChoice : Option Json
  betas : List String
  warnings : List Warning
  validator : CacheControlValidator

def applyAnthropicTools (prepareProviderTool : PrepareProviderTool) (options : ToolCallOptions)
    (validator : CacheControlValidator) : Except AiMuxError AppliedTools := do
  let disableParallel := options.jsonSchema.isSome || ((options.option "disableParallelToolUse").bind asBool).getD false
  let toolChoice := if options.rejected.isSome then some .auto else options.requestedChoice
  let given := if options.tools.isSome || options.jsonSchema.isSome then some options.anthropicTools else none
  let prepared ← prepareToolsWithValidator prepareProviderTool options.settings given toolChoice disableParallel validator
  return {
    tools := prepared.1.tools.map fun definitions => (keepChosen options definitions).map stripNullFields
    toolChoice := prepared.1.toolChoice.map fun choice =>
      match options.jsonSchema, (options.option "disableParallelToolUse").bind asBool with
      | none, some disable => choice.set "disable_parallel_tool_use" (.bool disable)
      | _, _ => choice
    betas := prepared.1.betas
    warnings := options.rejected.toList.map (fun details => .unsupported "toolChoice" (some details)) ++
      prepared.1.toolWarnings
    validator := prepared.2 }

/-- `body["tools"]` and `body["tool_choice"]` -/
def AppliedTools.body (applied : AppliedTools) (body : Json) : Json :=
  let withTools := match applied.tools with
    | some tools => body.set "tools" (.array tools)
    | none => body
  match applied.toolChoice with
  | some toolChoice => withTools.set "tool_choice" toolChoice
  | none => withTools

end Aimux.Anthropic
