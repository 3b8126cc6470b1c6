import Aimux.Prompt.Content

/-! # The JSON form of a prompt

`serde_json::to_value` of the provider's messages: what is absent is left out, and bytes are written as base64.
-/

namespace Aimux.Prompt

open Aimux.Core

/-- `skip_serializing_if = "Option::is_none"` -/
def optionalField {α : Type} (key : String) (value : Option α) (toValue : α → Json) : List (String × Json) :=
  value.toList.map fun held => (key, toValue held)

theorem lookup_optionalField {α : Type} (key name : String) (value : Option α) (toValue : α → Json) :
    (optionalField name value toValue).lookup key = if key = name then value.map toValue else none := by
  cases value with
  | none => simp [optionalField]
  | some value =>
    by_cases hSame : key = name <;> simp [optionalField, List.lookup_cons, hSame, beq_false_of_ne]

def ProviderOptions.toValue (options : ProviderOptions) : Json :=
  .object (options.namespaces.map fun namespaced => (namespaced.1, .object namespaced.2))

def optionsField (options : Option ProviderOptions) : List (String × Json) :=
  optionalField "providerOptions" options ProviderOptions.toValue

def tagged (tag : String) (fields : List (String × Json)) : Json := .object (("type", .string tag) :: fields)

section

variable (encodeBase64 : List UInt8 → String)

def bytesValue : FileBytes → Json
  | .binary bytes => .string (encodeBase64 bytes)
  | .base64 text => .string text

def urlFields (url : String) (originalUrl : Option String) : List (String × Json) :=
  ("url", .string url) :: optionalField "originalUrl" originalUrl .string

def fileDataValue : FileData → Json
  | .data data => tagged "data" [("data", bytesValue encodeBase64 data)]
  | .url url originalUrl => tagged "url" (urlFields url originalUrl)
  | .reference reference => tagged "reference" [("reference", .object (reference.map fun entry => (entry.1, .string entry.2)))]
  | .text text => tagged "text" [("text", .string text)]

def generatedFileDataValue : GeneratedFileData → Json
  | .data data => tagged "data" [("data", bytesValue encodeBase64 data)]
  | .url url originalUrl => tagged "url" (urlFields url originalUrl)

def TextPart.toFields (part : TextPart) : List (String × Json) :=
  ("text", .string part.text) :: optionsField part.providerOptions

def FilePart.toFields (part : FilePart) : List (String × Json) :=
  [("data", fileDataValue encodeBase64 part.data), ("mediaType", .string part.mediaType)] ++
    optionalField "filename" part.filename .string ++ optionsField part.providerOptions

def ReasoningPart.toFields (part : ReasoningPart) : List (String × Json) :=
  ("text", .string part.text) :: optionsField part.providerOptions

def ReasoningFilePart.toFields (part : ReasoningFilePart) : List (String × Json) :=
  [("data", generatedFileDataValue encodeBase64 part.data), ("mediaType", .string part.mediaType)] ++
    optionsField part.providerOptions

def CustomPart.toFields (part : CustomPart) : List (String × Json) :=
  ("kind", .string part.kind.value) :: optionsField part.providerOptions

def ToolCallPart.toFields (part : ToolCallPart) : List (String × Json) :=
  [("toolCallId", .string part.toolCallId), ("toolName", .string part.toolName), ("input", part.input)] ++
    optionalField "providerExecuted" part.providerExecuted .bool ++ optionsField part.providerOptions

def toolResultContentValue : ToolResultContent → Json
  | .text part => tagged "text" part.toFields
  | .file part => tagged "file" (part.toFields encodeBase64)
  | .custom providerOptions => tagged "custom" (optionsField providerOptions)

def toolResultOutputValue : ToolResultOutput → Json
  | .text value providerOptions => tagged "text" (("value", .string value) :: optionsField providerOptions)
  | .json value providerOptions => tagged "json" (("value", value) :: optionsField providerOptions)
  | .executionDenied reason providerOptions =>
    tagged "execution-denied" (optionalField "reason" reason .string ++ optionsField providerOptions)
  | .errorText value providerOptions => tagged "error-text" (("value", .string value) :: optionsField providerOptions)
  | .errorJson value providerOptions => tagged "error-json" (("value", value) :: optionsField providerOptions)
  | .content value isError =>
    tagged "content" (("value", .array (value.map (toolResultContentValue encodeBase64))) ::
      optionalField "isError" isError .bool)

def ToolResultPart.toFields (part : ToolResultPart) : List (String × Json) :=
  [("toolCallId", .string part.toolCallId), ("toolName", .string part.toolName),
    ("output", toolResultOutputValue encodeBase64 part.output)] ++ optionsField part.providerOptions

def ToolApprovalResponsePart.toFields (part : ToolApprovalResponsePart) : List (String × Json) :=
  [("approvalId", Json.string part.approvalId), ("approved", .bool part.approved)] ++
    optionalField "reason" part.reason .string ++ optionsField part.providerOptions

def userPartValue : UserPart → Json
  | .text part => tagged "text" part.toFields
  | .file part => tagged "file" (part.toFields encodeBase64)

def assistantPartValue : AssistantPart → Json
  | .text part => tagged "text" part.toFields
  | .file part => tagged "file" (part.toFields encodeBase64)
  | .reasoning part => tagged "reasoning" part.toFields
  | .reasoningFile part => tagged "reasoning-file" (part.toFields encodeBase64)
  | .custom part => tagged "custom" part.toFields
  | .toolCall part => tagged "tool-call" part.toFields
  | .toolResult part => tagged "tool-result" (part.toFields encodeBase64)

def toolPartValue : ToolPart → Json
  | .toolResult part => tagged "tool-result" (part.toFields encodeBase64)
  | .toolApprovalResponse part => tagged "tool-approval-response" part.toFields

def messageValue (role : String) (content : Json) (providerOptions : Option ProviderOptions) : Json :=
  .object ([("role", .string role), ("content", content)] ++ optionsField providerOptions)

def userContentValue (content : List UserPart) : Json := .array (content.map (userPartValue encodeBase64))

def assistantContentValue (content : List AssistantPart) : Json :=
  .array (content.map (assistantPartValue encodeBase64))

def toolContentValue (content : List ToolPart) : Json := .array (content.map (toolPartValue encodeBase64))

def languageModelMessageValue : LanguageModelMessage → Json
  | .system content providerOptions => messageValue "system" (.string content) providerOptions
  | .user content providerOptions => messageValue "user" (userContentValue encodeBase64 content) providerOptions
  | .assistant content providerOptions =>
    messageValue "assistant" (assistantContentValue encodeBase64 content) providerOptions
  | .tool content providerOptions => messageValue "tool" (toolContentValue encodeBase64 content) providerOptions

def promptValue (prompt : LanguageModelPrompt) : Json :=
  .array (prompt.map (languageModelMessageValue encodeBase64))

end

end Aimux.Prompt
