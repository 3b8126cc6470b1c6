import Aimux.Core.JsonAccess
import Aimux.Prompt.Wire
import Aimux.Replay.RecordedMatch

/-! # Recorded call options

The `CallOptions` of `options.rs` in their JSON form, and the input that a recording keeps of a call.
-/

namespace Aimux.Replay

open Aimux.Core Aimux.Prompt Aimux.Recorder

structure FunctionTool where
  name : String
  description : Option String := none
  inputSchema : Json
  strict : Option Bool := none
  providerOptions : Option ProviderOptions := none
  inputExamples : Option (List (List (String × Json))) := none

structure ProviderTool where
  id : NamespacedKind
  name : String
  args : List (String × Json)
  supportsDeferredResults : Option Bool := none

inductive Tool where
  | function (tool : FunctionTool)
  | provider (tool : ProviderTool)

inductive ResponseFormat where
  | text
  | json (schema : Option Json) (name description : Option String)

inductive ReasoningEffort where
  | providerDefault | none | minimal | low | medium | high | xhigh

/-! ## JSON forms -/

def natValue (n : Nat) : Json := .number (.int n)

/-- A double that is not finite is written as null. -/
def floatValue (bits : BitVec 64) : Json :=
  if bits.extractLsb' 52 11 = BitVec.allOnes 11 then .null else .number (.float bits)

def stringsValue (texts : List String) : Json := .array (texts.map .string)

def headersValue (headers : List (String × String)) : Json :=
  .object (headers.map fun header => (header.1, .string header.2))

def toolValue : Tool → Json
  | .function tool => tagged "function" (("name", .string tool.name) ::
      optionalField "description" tool.description .string ++ ("inputSchema", tool.inputSchema) ::
      optionalField "strict" tool.strict .bool ++ optionsField tool.providerOptions ++
      optionalField "inputExamples" tool.inputExamples fun examples =>
        .array (examples.map fun input => .object [("input", .object input)]))
  | .provider tool => tagged "provider" ([("id", .string tool.id.value), ("name", .string tool.name),
      ("args", .object tool.args)] ++ optionalField "supportsDeferredResults" tool.supportsDeferredResults .bool)

def toolsValue (tools : List Tool) : Json := .array (tools.map toolValue)

def toolChoiceValue : LanguageModelV4ToolChoice → Json
  | .auto => tagged "auto" []
  | .none => tagged "none" []
  | .required => tagged "required" []
  | .tool toolName => tagged "tool" [("toolName", .string toolName)]

def responseFormatValue : ResponseFormat → Json
  | .text => tagged "text" []
  | .json schema name description => tagged "json" (optionalField "schema" schema id ++
      optionalField "name" name .string ++ optionalField "description" description .string)

def reasoningValue : ReasoningEffort → Json
  | .providerDefault => .string "provider-default"
  | .none => .string "none"
  | .minimal => .string "minimal"
  | .low => .string "low"
  | .medium => .string "medium"
  | .high => .string "high"
  | .xhigh => .string "xhigh"

/-- An absent value is null. -/
def valueOf {α : Type} (value : Option α) (toValue : α → Json) : Json := (value.map toValue).getD .null

/-- Each map of a call has its keys once. -/
def mapsKeyed (responseFormat : Option ResponseFormat) (tools : Option (List Tool))
    (headers : Option (List (String × String))) (providerOptions : Option ProviderOptions) : Bool :=
  keyed (valueOf responseFormat responseFormatValue) && keyed (valueOf tools toolsValue) &&
    keyed (valueOf headers headersValue) && keyed (valueOf providerOptions ProviderOptions.toValue)

/-- Doubles are given by their bits. -/
structure CallOptions where
  prompt : LanguageModelPrompt
  maxOutputTokens : Option Nat := none
  temperature : Option (BitVec 64) := none
  stopSequences : Option (List String) := none
  topP : Option (BitVec 64) := none
  topK : Option (BitVec 64) := none
  presencePenalty : Option (BitVec 64) := none
  frequencyPenalty : Option (BitVec 64) := none
  responseFormat : Option ResponseFormat := none
  seed : Option Nat := none
  tools : Option (List Tool) := none
  toolChoice : Option LanguageModelV4ToolChoice := none
  headers : Option (List (String × String)) := none
  providerOptions : Option ProviderOptions := none
  reasoning : Option ReasoningEffort := none
  includeRawChunks : Option Bool := none
  strictStream : Option Bool := none
  keyed : mapsKeyed responseFormat tools headers providerOptions = true := by decide

/-- `TimeoutConfiguration` -/
structure TimeoutConfiguration where
  totalMs : Option Nat := none
  stepMs : Option Nat := none
  firstChunkMs : Option Nat := none
  chunkMs : Option Nat := none

def TimeoutConfiguration.toValue (timeout : TimeoutConfiguration) : Json :=
  .object (optionalField "totalMs" timeout.totalMs natValue ++ optionalField "stepMs" timeout.stepMs natValue ++
    optionalField "firstChunkMs" timeout.firstChunkMs natValue ++ optionalField "chunkMs" timeout.chunkMs natValue)

structure OperationSettings where
  maxRetries : Option Nat := none
  timeout : Option TimeoutConfiguration := none
  sessionId : Option String := none

def OperationSettings.toFields (settings : OperationSettings) : List (String × Json) :=
  optionalField "maxRetries" settings.maxRetries natValue ++
    optionalField "timeout" settings.timeout TimeoutConfiguration.toValue ++
    optionalField "sessionId" settings.sessionId .string

/-- `Map::extend` -/
def extendFields (fields more : List (String × Json)) : List (String × Json) :=
  more.foldl (fun fields field => insertField fields field.1 field.2) fields

section

variable (encodeBase64 : List UInt8 → String)

def CallOptions.toFields (options : CallOptions) : List (String × Json) :=
  ("prompt", promptValue encodeBase64 options.prompt) ::
    optionalField "maxOutputTokens" options.maxOutputTokens natValue ++
    optionalField "temperature" options.temperature floatValue ++
    optionalField "stopSequences" options.stopSequences stringsValue ++
    optionalField "topP" options.topP floatValue ++ optionalField "topK" options.topK floatValue ++
    optionalField "presencePenalty" options.presencePenalty floatValue ++
    optionalField "frequencyPenalty" options.frequencyPenalty floatValue ++
    optionalField "responseFormat" options.responseFormat responseFormatValue ++
    optionalField "seed" options.seed natValue ++ optionalField "tools" options.tools toolsValue ++
    optionalField "toolChoice" options.toolChoice toolChoiceValue ++
    optionalField "headers" options.headers headersValue ++ optionsField options.providerOptions ++
    optionalField "reasoning" options.reasoning reasoningValue ++
    optionalField "includeRawChunks" options.includeRawChunks .bool ++
    optionalField "strictStream" options.strictStream .bool

/-- `InputRecord::from_call_options`, in an operation with these settings. -/
def fromCallOptions (settings : OperationSettings) (options : CallOptions) : InputRecord LanguageModelMessage where
  operation := .languageModel
  prompt := options.prompt
  options := redactJson (.object (extendFields (options.toFields encodeBase64) settings.toFields))

end

/-! ## A field of the recorded options -/

/-- `options.get(key).cloned().unwrap_or_default()` -/
def field (options : Json) (key : String) : Json :=
  match options with
  | .object fields => (fields.lookup key).getD .null
  | _ => .null

theorem lookup_extendFields {key : String} {more : List (String × Json)} (hOther : key ∉ more.map (·.1))
    (fields : List (String × Json)) : (extendFields fields more).lookup key = fields.lookup key := by
  induction more generalizing fields with
  | nil => rfl
  | cons first more ih =>
    rw [List.map_cons, List.mem_cons, not_or] at hOther
    exact (ih hOther.2 _).trans ((lookup_insertField fields first.1 first.2 key).trans (if_neg hOther.1))

theorem lookup_redactFields {key : String} (hOpen : isSensitiveKey key = false) (fields : List (String × Json)) :
    (redactFields fields).lookup key = (fields.lookup key).map redactJson := by
  induction fields with
  | nil => rfl
  | cons first fields ih =>
    obtain ⟨name, value⟩ := first
    rw [redactFields, List.lookup_cons, List.lookup_cons]
    cases hSame : key == name with
    | true =>
      rw [← beq_iff_eq.mp hSame, hOpen]
      rfl
    | false => exact ih

end Aimux.Replay
