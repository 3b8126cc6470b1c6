import Aimux.Wire.ContentJson

/-! # The JSON form of an error

`AiMuxErrorWire` of `error.rs`: an object tagged by `name`. A cause has no tag of its own, so the reader takes
it for an error of this library where it can be read as one, and for a foreign error otherwise.
-/

namespace Aimux.Wire

open Aimux.Core Aimux.Prompt

/-! ## Writing -/

def writeOrigin : ApiCallErrorOrigin → String
  | .transport => "transport"
  | .httpResponse => "httpResponse"
  | .streamEvent => "streamEvent"
  | .localOrigin => "local"
  | .unknown => "unknown"

/-- `skip_serializing_if = "ApiCallErrorOrigin::is_unknown"` -/
def originField : ApiCallErrorOrigin → List (String × Json)
  | .unknown => []
  | origin => [("origin", .string (writeOrigin origin))]

def writeReason : RetryErrorReason → String
  | .maxRetriesExceeded => "maxRetriesExceeded"
  | .errorNotRetryable => "errorNotRetryable"

def writeFinish : FinishReasonUnified → String
  | .stop => "stop"
  | .length => "length"
  | .contentFilter => "content-filter"
  | .toolCalls => "tool-calls"
  | .error => "error"
  | .other => "other"

def writeToolChoice : LanguageModelV4ToolChoice → Json
  | .auto => tagged "auto" []
  | .none => tagged "none" []
  | .required => tagged "required" []
  | .tool toolName => tagged "tool" [("toolName", .string toolName)]

def writeStrings (items : List String) : Json := .array (items.map .string)

def writeHeaders (headers : Headers) : Json := .object (headers.map fun header => (header.1, .string header.2))

def named (name : String) (fields : List (String × Json)) : Json := .object (("name", .string name) :: fields)

mutual

def writeSource : SourceError → Json
  | .mk message cause => .object (("message", .string message) :: sourceCauseField cause)

def sourceCauseField : Option SourceError → List (String × Json)
  | none => []
  | some cause => [("cause", writeSource cause)]

end

section

variable (encodeBase64 : List UInt8 → String)

mutual

def writeError : AiMuxError → Json
  | .apiCall url requestBodyValues statusCode providerCode message responseBody responseHeaders data isRetryable
      cause origin =>
    named "AI_APICallError" ([("url", .string url), ("requestBodyValues", requestBodyValues)] ++
      optionalField "statusCode" statusCode (fun status => .number (.int status)) ++
      optionalField "providerCode" providerCode .string ++ [("message", .string message)] ++
      optionalField "responseBody" responseBody .string ++
      optionalField "responseHeaders" responseHeaders writeHeaders ++ optionalField "data" data id ++
      [("isRetryable", .bool isRetryable)] ++ causeField cause ++ originField origin)
  | .retry reason errors =>
    named "AI_RetryError" [("reason", .string (writeReason reason)), ("errors", .array (writeErrors errors))]
  | .jsonParse message cause => named "AI_JSONParseError" (("message", .string message) :: causeField cause)
  | .noOutputGenerated message cause =>
    named "AI_NoOutputGeneratedError" (("message", .string message) :: causeField cause)
  | .invalidResponseData message cause =>
    named "AI_InvalidResponseDataError" (("message", .string message) :: causeField cause)
  | .typeValidation message value cause =>
    named "AI_TypeValidationError" ([("message", .string message), ("value", value)] ++ causeField cause)
  | .toolCallNotFoundForApproval toolCallId approvalId =>
    named "AI_ToolCallNotFoundForApprovalError"
      [("toolCallId", .string toolCallId), ("approvalId", .string approvalId)]
  | .noSuchTool toolName availableTools toolInput =>
    named "AI_NoSuchToolError" ([("toolName", .string toolName)] ++
      optionalField "availableTools" availableTools writeStrings ++ optionalField "toolInput" toolInput .string)
  | .invalidToolInput toolName toolInput cause =>
    named "AI_InvalidToolInputError"
      [("toolName", .string toolName), ("toolInput", .string toolInput), ("cause", writeCause cause)]
  | .toolCallRepair originalError cause =>
    named "AI_ToolCallRepairError" [("originalError", writeError originalError), ("cause", writeError cause)]
  | .invalidArgument message cause =>
    named "AI_InvalidArgumentError" (("message", .string message) :: causeField cause)
  | .invalidPrompt message cause => named "AI_InvalidPromptError" (("message", .string message) :: causeField cause)
  | .loadApiKey envVar description =>
    named "AI_LoadAPIKeyError" [("envVar", .string envVar), ("description", .string description)]
  | .loadSetting envVar name =>
    named "AI_LoadSettingError" [("envVar", .string envVar), ("settingName", .string name)]
  | .tokenExpired message => named "AI_TokenExpiredError" [("message", .string message)]
  | .unsupportedFunctionality message => named "AI_UnsupportedFunctionalityError" [("message", .string message)]
  | .noSuchModel modelId modelType =>
    named "AI_NoSuchModelError" [("modelId", .string modelId), ("modelType", .string modelType)]
  | .noSuchProvider providerId modelId modelType availableProviders =>
    named "AI_NoSuchProviderError" [("providerId", .string providerId), ("modelId", .string modelId),
      ("modelType", .string modelType), ("availableProviders", writeStrings availableProviders)]
  | .missingToolResults toolCallIds =>
    named "AI_MissingToolResultsError" [("toolCallIds", writeStrings toolCallIds)]
  | .toolChoiceViolation toolChoice finishReason provider modelId content =>
    named "AI_ToolChoiceViolationError" [("toolChoice", writeToolChoice toolChoice),
      ("finishReason", .string (writeFinish finishReason)), ("provider", .string provider),
      ("modelId", .string modelId), ("content", .array (content.map (writeContent encodeBase64)))]
  | .timeout message => named "TimeoutError" [("message", .string message)]
  | .aborted message => named "AbortError" [("message", .string message)]
  | .other message cause => named "AI_Error" (("message", .string message) :: causeField cause)

def writeErrors : List AiMuxError → List Json
  | [] => []
  | error :: rest => writeError error :: writeErrors rest

/-- The cause itself, without a tag. -/
def writeCause : ErrorCause → Json
  | .aiMux error => writeError error
  | .source error => writeSource error

def causeField : Option ErrorCause → List (String × Json)
  | none => []
  | some cause => [("cause", writeCause cause)]

end

end

/-! ## Reading -/

def readOrigin (value : Json) : Option ApiCallErrorOrigin :=
  match asStr value with
  | some "transport" => some .transport
  | some "httpResponse" => some .httpResponse
  | some "streamEvent" => some .streamEvent
  | some "local" => some .localOrigin
  | some "unknown" => some .unknown
  | _ => none

def readReason (value : Json) : Option RetryErrorReason :=
  match asStr value with
  | some "maxRetriesExceeded" => some .maxRetriesExceeded
  | some "errorNotRetryable" => some .errorNotRetryable
  | _ => none

def readFinish (value : Json) : Option FinishReasonUnified :=
  match asStr value with
  | some "stop" => some .stop
  | some "length" => some .length
  | some "content-filter" => some .contentFilter
  | some "tool-calls" => some .toolCalls
  | some "error" => some .error
  | some "other" => some .other
  | _ => none

def readToolChoice : Json → Option LanguageModelV4ToolChoice
  | .object fields => do
    match ← required asStr fields "type" with
    | "auto" => return .auto
    | "none" => return .none
    | "required" => return .required
    | "tool" => return .tool (← required asStr fields "toolName")
    | _ => none
  | _ => none

/-- A `u16` -/
def readStatus : Json → Option Nat
  | .number (.int n) => if 0 ≤ n ∧ n < 2 ^ 16 then some n.toNat else none
  | _ => none

def readHeaders (value : Json) : Option Headers := readEntries asStr value

mutual

def readSource : Json → Option SourceError
  | .object fields => do
    return .mk (← required asStr fields "message") (← readSourceCause fields)
  | _ => none

/-- Of the field `cause`. -/
def readSourceCause : List (String × Json) → Option (Option SourceError)
  | [] => some none
  | (key, value) :: rest =>
    if key = "cause" then match value with
      | .null => some none
      | value => (readSource value).map some
    else readSourceCause rest

end

/-- With `#[serde(default)]` for what an older writer left out; an explicit null of `data` is kept. -/
def readApiCall (fields : List (String × Json)) (cause : Option ErrorCause) : Option AiMuxError := do
  return .apiCall (← required asStr fields "url") (← fields.lookup "requestBodyValues")
    (← optional readStatus fields "statusCode") (← optional asStr fields "providerCode")
    (← required asStr fields "message") (← optional asStr fields "responseBody")
    (← optional readHeaders fields "responseHeaders") (fields.lookup "data")
    (← match fields.lookup "isRetryable" with
      | none => some false
      | some value => asBool value)
    cause
    (← match fields.lookup "origin" with
      | none => some .unknown
      | some value => readOrigin value)

def readNoSuchTool (fields : List (String × Json)) : Option AiMuxError := do
  return .noSuchTool (← required asStr fields "toolName") (← optional (readList asStr) fields "availableTools")
    (← optional asStr fields "toolInput")

def readNoSuchModel (fields : List (String × Json)) : Option AiMuxError := do
  return .noSuchModel (← required asStr fields "modelId")
    (← match fields.lookup "modelType" with
      | none => some ""
      | some value => asStr value)

def readNoSuchProvider (fields : List (String × Json)) : Option AiMuxError := do
  return .noSuchProvider (← required asStr fields "providerId") (← required asStr fields "modelId")
    (← required asStr fields "modelType") (← required (readList asStr) fields "availableProviders")

def readToolChoiceViolation (fields : List (String × Json)) : Option AiMuxError := do
  return .toolChoiceViolation (← required readToolChoice fields "toolChoice") (← required readFinish fields "finishReason")
    (← required asStr fields "provider") (← required asStr fields "modelId")
    (← required (readList readContent) fields "content")

mutual

def readError : Json → Option AiMuxError
  | .object fields => do
    match ← required asStr fields "name" with
    | "AI_APICallError" => readApiCall fields (← readCause fields)
    | "AI_RetryError" => return .retry (← required readReason fields "reason") (← readErrors fields)
    | "AI_JSONParseError" => return .jsonParse (← required asStr fields "message") (← readCause fields)
    | "AI_NoOutputGeneratedError" => return .noOutputGenerated (← required asStr fields "message") (← readCause fields)
    | "AI_InvalidResponseDataError" =>
      return .invalidResponseData (← required asStr fields "message") (← readCause fields)
    | "AI_TypeValidationError" =>
      return .typeValidation (← required asStr fields "message") (← fields.lookup "value") (← readCause fields)
    | "AI_ToolCallNotFoundForApprovalError" =>
      return .toolCallNotFoundForApproval (← required asStr fields "toolCallId")
        (← required asStr fields "approvalId")
    | "AI_NoSuchToolError" => readNoSuchTool fields
    | "AI_InvalidToolInputError" =>
      return .invalidToolInput (← required asStr fields "toolName") (← required asStr fields "toolInput")
        (← ← readCause fields)
    | "AI_ToolCallRepairError" =>
      return .toolCallRepair (← readErrorField "originalError" fields) (← readErrorField "cause" fields)
    | "AI_InvalidArgumentError" => return .invalidArgument (← required asStr fields "message") (← readCause fields)
    | "AI_InvalidPromptError" => return .invalidPrompt (← required asStr fields "message") (← readCause fields)
    | "AI_LoadAPIKeyError" =>
      return .loadApiKey (← required asStr fields "envVar") (← required asStr fields "description")
    | "AI_LoadSettingError" =>
      return .loadSetting (← required asStr fields "envVar") (← required asStr fields "settingName")
    | "AI_TokenExpiredError" => return .tokenExpired (← required asStr fields "message")
    | "AI_UnsupportedFunctionalityError" => return .unsupportedFunctionality (← required asStr fields "message")
    | "AI_NoSuchModelError" => readNoSuchModel fields
    | "AI_NoSuchProviderError" => readNoSuchProvider fields
    | "AI_MissingToolResultsError" => return .missingToolResults (← required (readList asStr) fields "toolCallIds")
    | "AI_ToolChoiceViolationError" => readToolChoiceViolation fields
    | "TimeoutError" => return .timeout (← required asStr fields "message")
    | "AbortError" => return .aborted (← required asStr fields "message")
    | "AI_Error" => return .other (← required asStr fields "message") (← readCause fields)
    | _ => none
  | _ => none

/-- Of the field `cause`: an error of this library first. -/
def readCause : List (String × Json) → Option (Option ErrorCause)
  | [] => some none
  | (key, value) :: rest =>
    if key = "cause" then match value with
      | .null => some none
      | value => match readError value with
        | some error => some (some (.aiMux error))
        | none => (readSource value).map fun error => some (.source error)
    else readCause rest

def readErrorField (name : String) : List (String × Json) → Option AiMuxError
  | [] => none
  | (key, value) :: rest => if key = name then readError value else readErrorField name rest

/-- Of the field `errors`. -/
def readErrors : List (String × Json) → Option (List AiMuxError)
  | [] => none
  | (key, value) :: rest =>
    if key = "errors" then match value with
      | .array items => readErrorItems items
      | _ => none
    else readErrors rest

def readErrorItems : List Json → Option (List AiMuxError)
  | [] => some []
  | value :: rest => do return (← readError value) :: (← readErrorItems rest)

end

end Aimux.Wire
