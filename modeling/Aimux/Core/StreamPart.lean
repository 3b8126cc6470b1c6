import Aimux.Core.Error

/-! # Stream parts

`StreamPart` is what a provider's `do_stream` emits, with the provider's payloads.
`TextStreamPart` is what the call layer emits: parsed tool calls and resolved files, framed by
`start`, `startStep`, `finishStep` and `finish`.
-/

namespace Aimux.Core

inductive StreamPart where
  | textStart (id : String) (providerMetadata : Option ProviderMetadata)
  | textDelta (id delta : String) (providerMetadata : Option ProviderMetadata)
  | textEnd (id : String) (providerMetadata : Option ProviderMetadata)
  | streamStart (warnings : List Warning)
  | finish (finishReason : FinishReason) (usage : Usage) (providerMetadata : Option ProviderMetadata)
  | error (error : AiMuxError)
  | toolInputStart (id toolName : String) (providerExecuted dynamic : Option Bool)
      (title : Option String) (providerMetadata : Option ProviderMetadata)
  | toolInputDelta (id delta : String) (providerMetadata : Option ProviderMetadata)
  | toolInputEnd (id : String) (providerMetadata : Option ProviderMetadata)
  | toolCall (call : RawToolCall)
  | toolResult (result : ToolResult)
  | file (file : LanguageModelFile)
  | reasoningFile (file : LanguageModelFile)
  | custom (kind : NamespacedKind) (providerMetadata : Option ProviderMetadata)
  | toolApprovalRequest (request : RawToolApprovalRequest)
  | reasoningStart (id : String) (providerMetadata : Option ProviderMetadata)
  | reasoningDelta (id delta : String) (providerMetadata : Option ProviderMetadata)
  | reasoningEnd (id : String) (providerMetadata : Option ProviderMetadata)
  | responseMetadata (metadata : ResponseMetadata)
  | source (source : Source)
  | raw (rawValue : Json)

/-- A parsed tool call. `invalid` and `error` are set when lookup, parsing or validation failed. -/
structure ToolCall where
  toolCallId : String
  toolName : String
  input : Json
  providerExecuted : Option Bool := none
  dynamic : Option Bool := none
  providerMetadata : Option ProviderMetadata := none
  invalid : Option Bool := none
  error : Option AiMuxError := none

structure TypedToolResult where
  toolCallId : String
  toolName : String
  input : Option Json
  output : Json
  providerExecuted : Option Bool
  providerMetadata : Option ProviderMetadata
  dynamic : Option Bool
  preliminary : Option Bool

structure TypedToolError where
  toolCallId : String
  toolName : String
  input : Option Json
  error : Json
  providerExecuted : Option Bool
  providerMetadata : Option ProviderMetadata
  dynamic : Option Bool

structure ToolApprovalRequestOutput where
  approvalId : String
  toolCall : ToolCall
  reason : Option String := none
  isAutomatic : Option Bool := none
  signature : Option String := none
  inputSchemaInput : Option Json := none

structure ToolApprovalResponseOutput where
  approvalId : String
  toolCall : ToolCall
  approved : Bool
  reason : Option String := none
  providerExecuted : Option Bool := none

structure StepResponseMetadata where
  id : String
  timestamp : Int
  modelId : String
  headers : Option Headers

inductive TextStreamPart where
  | textStart (id : String) (providerMetadata : Option ProviderMetadata)
  | textEnd (id : String) (providerMetadata : Option ProviderMetadata)
  | textDelta (id : String) (providerMetadata : Option ProviderMetadata) (text : String)
  | reasoningStart (id : String) (providerMetadata : Option ProviderMetadata)
  | reasoningEnd (id : String) (providerMetadata : Option ProviderMetadata)
  | reasoningDelta (providerMetadata : Option ProviderMetadata) (id text : String)
  | custom (kind : NamespacedKind) (providerMetadata : Option ProviderMetadata)
  | toolInputStart (id toolName : String) (providerMetadata : Option ProviderMetadata)
      (providerExecuted dynamic : Option Bool) (title : Option String)
  | toolInputEnd (id : String) (providerMetadata : Option ProviderMetadata)
  | toolInputDelta (id delta : String) (providerMetadata : Option ProviderMetadata)
  | source (source : Source)
  | file (output : GeneratedFileOutput)
  | reasoningFile (output : GeneratedFileOutput)
  | toolCall (call : ToolCall)
  | toolResult (result : TypedToolResult)
  | toolError (error : TypedToolError)
  | toolOutputDenied (toolCallId toolName : String) (providerExecuted dynamic : Option Bool)
  | toolApprovalRequest (request : ToolApprovalRequestOutput)
  | toolApprovalResponse (response : ToolApprovalResponseOutput)
  | startStep (request : RequestInfo) (warnings : List Warning)
  | finishStep (response : StepResponseMetadata) (usage : LanguageModelUsage)
      (finishReason : FinishReasonUnified) (rawFinishReason : Option String)
      (providerMetadata : Option ProviderMetadata)
  | start
  | finish (finishReason : FinishReasonUnified) (rawFinishReason : Option String)
      (totalUsage : LanguageModelUsage)
  | abort (reason : Option String)
  | error (error : AiMuxError)
  | raw (rawValue : Json)

end Aimux.Core
