import Aimux.Core.StreamPart

/-! # Parsing provider tool calls

`parse_tool_call.rs` and the parts `generate.rs` builds from parsed calls. The JSON reader and the
schema validator are libraries of the source; they are fields of `Libraries`.
-/

namespace Aimux.Core

structure Libraries where
  /-- `serde_json::from_str`, with integral floats stored as integers. -/
  parseInputText : String → Except SourceError Json
  /-- `jsonschema::validator_for`: a validator, or the error of the schema. -/
  validatorFor : Json → Except SourceError (Json → Except SourceError Unit)
  /-- `Value` display: compact JSON. -/
  jsonText : Json → String
  /-- `AiMuxError` display. -/
  errorText : AiMuxError → String
  encodeBase64 : List UInt8 → String
  /-- `x.as_f64() == y.as_f64()`. -/
  sameNumber : JsonNumber → JsonNumber → Bool

def SourceError.message : SourceError → String
  | .mk message _ => message

mutual

def containsForbiddenPrototype : Json → Bool
  | .object fields =>
    fields.any (fun field => field.1 == "__proto__") ||
    fields.any (fun field => field.1 == "constructor" && match field.2 with
      | .object inner => inner.any fun field => field.1 == "prototype"
      | _ => false) ||
    fieldsForbidden fields
  | .array items => itemsForbidden items
  | _ => false

def itemsForbidden : List Json → Bool
  | [] => false
  | item :: rest => containsForbiddenPrototype item || itemsForbidden rest

def fieldsForbidden : List (String × Json) → Bool
  | [] => false
  | (_, value) :: rest => containsForbiddenPrototype value || fieldsForbidden rest

end

def jsonParseError (text message : String) (source : Option SourceError) : AiMuxError :=
  .jsonParse ("JSON parsing failed: Text: " ++ text ++ ".\nError message: " ++ message)
    (source.map .source)

def typeValidationError (libraries : Libraries) (value : Json) (message : String)
    (source : Option SourceError) : AiMuxError :=
  .typeValidation ("Type validation failed: Value: " ++ libraries.jsonText value ++
    ".\nError message: " ++ message) value (source.map .source)

namespace RawToolCall

def parseJsonInput (libraries : Libraries) (toolCall : RawToolCall) : Except AiMuxError Json :=
  if toolCall.input.toList.all isWhitespace then .ok (.object [])
  else match libraries.parseInputText toolCall.input with
    | .error error => .error (.invalidToolInput toolCall.toolName toolCall.input
        (.aiMux (jsonParseError toolCall.input error.message (some error))))
    | .ok value =>
      if containsForbiddenPrototype value then
        .error (.invalidToolInput toolCall.toolName toolCall.input
          (.aiMux (jsonParseError toolCall.input "Object contains forbidden prototype property" none)))
      else .ok value

/-- Executed by the provider with a tool the caller did not declare. -/
def providerDynamic (toolCall : RawToolCall) : Bool :=
  toolCall.providerExecuted == some true && toolCall.dynamic == some true

def validateInput (libraries : Libraries) (toolCall : RawToolCall) (tool : FunctionTool) (input : Json) :
    Except AiMuxError (Json × Option Bool) :=
  match libraries.validatorFor tool.inputSchema with
  | .error error => .error (.invalidToolInput toolCall.toolName toolCall.input
      (.source (.mk ("input schema is invalid: " ++ error.message) (some error))))
  | .ok validate =>
    match validate input with
    | .error error => .error (.invalidToolInput toolCall.toolName toolCall.input
        (.aiMux (typeValidationError libraries input error.message (some error))))
    | .ok () => .ok (input, none)

def parseAndValidate (libraries : Libraries) (toolCall : RawToolCall) (tools : List Tool) :
    Except AiMuxError (Json × Option Bool) :=
  match tools.find? fun tool => tool.name == toolCall.toolName with
  | none =>
    if toolCall.providerDynamic then
      match toolCall.parseJsonInput libraries with
      | .error error => .error error
      | .ok input => .ok (input, some true)
    else .error (.noSuchTool toolCall.toolName (some (tools.map Tool.name)) (some toolCall.input))
  | some tool =>
    match toolCall.parseJsonInput libraries with
    | .error error => .error error
    | .ok input =>
      match tool with
      | .provider _ => .ok (input, none)
      | .function function => toolCall.validateInput libraries function input

def parsed (toolCall : RawToolCall) (input : Json) (dynamic : Option Bool) : ToolCall where
  toolCallId := toolCall.toolCallId
  toolName := toolCall.toolName
  input := input
  providerExecuted := toolCall.providerExecuted
  dynamic := dynamic
  providerMetadata := toolCall.providerMetadata

def backFilledInput (libraries : Libraries) (text : String) : Json :=
  match libraries.parseInputText text with
  | .ok value => if containsForbiddenPrototype value then .string text else value
  | .error _ => .string text

def invalid (libraries : Libraries) (toolCall : RawToolCall) (error : AiMuxError) : ToolCall :=
  { toolCall.parsed (backFilledInput libraries toolCall.input) (some true) with
    invalid := some true
    error := some error }

end RawToolCall

inductive RepairOutcome where
  | repaired (toolCall : RawToolCall)
  | unchanged
  | failed (error : AiMuxError)

def applyRepairOutcome (libraries : Libraries) (toolCall : RawToolCall) (originalError : AiMuxError)
    (tools : List Tool) : RepairOutcome → ToolCall
  | .repaired repaired =>
    match repaired.parseAndValidate libraries tools with
    | .ok (input, dynamic) => repaired.parsed input dynamic
    | .error repairedError => toolCall.invalid libraries repairedError
  | .unchanged => toolCall.invalid libraries originalError
  | .failed repairError => toolCall.invalid libraries (.toolCallRepair originalError repairError)

abbrev RepairHook := RawToolCall → AiMuxError → RepairOutcome

def parseToolCall (libraries : Libraries) (tools : Option (List Tool)) (repairToolCall : Option RepairHook)
    (toolCall : RawToolCall) : ToolCall :=
  match tools with
  | none =>
    if toolCall.providerDynamic then
      match toolCall.parseJsonInput libraries with
      | .ok input => toolCall.parsed input (some true)
      | .error error => toolCall.invalid libraries error
    else toolCall.invalid libraries (.noSuchTool toolCall.toolName none (some toolCall.input))
  | some tools =>
    match toolCall.parseAndValidate libraries tools with
    | .ok (input, dynamic) => toolCall.parsed input dynamic
    | .error originalError =>
      match repairToolCall with
      | none => toolCall.invalid libraries originalError
      | some repair =>
        applyRepairOutcome libraries toolCall originalError tools (repair toolCall originalError)

def invalidToolCallError (libraries : Libraries) (call : ToolCall) : Option TypedToolError :=
  if call.invalid = some true ∧ call.providerExecuted ≠ some true then
    some {
      toolCallId := call.toolCallId
      toolName := call.toolName
      input := some call.input
      error := .string ((call.error.map libraries.errorText).getD "unknown error")
      providerExecuted := none
      providerMetadata := none
      dynamic := some true }
  else none

def providerToolResultPart (result : ToolResult) (input : Option Json) : TextStreamPart :=
  if result.isError = some true then
    .toolError {
      toolCallId := result.toolCallId
      toolName := result.toolName
      input := input
      error := result.result
      providerExecuted := some true
      providerMetadata := result.providerMetadata
      dynamic := result.dynamic }
  else
    .toolResult {
      toolCallId := result.toolCallId
      toolName := result.toolName
      input := input
      output := result.result
      providerExecuted := some true
      providerMetadata := result.providerMetadata
      dynamic := result.dynamic
      preliminary := result.preliminary }

/-- A `required` choice needs some call, a `tool` choice a call to that tool. -/
def toolChoiceViolationError (toolChoice : Option LanguageModelV4ToolChoice) (toolNames : List String)
    (finishReason : FinishReasonUnified) (provider modelId : String) (content : List GenerateContent) :
    Option AiMuxError :=
  let violation (choice : LanguageModelV4ToolChoice) : AiMuxError :=
    .toolChoiceViolation choice finishReason provider modelId content
  match toolChoice with
  | none | some .auto | some .none => none
  | some .required => if toolNames.isEmpty then some (violation .required) else none
  | some (.tool toolName) =>
    if toolNames.any (· == toolName) then none else some (violation (.tool toolName))

end Aimux.Core
