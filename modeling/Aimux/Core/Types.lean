import Aimux.Core.Json

/-! # Data of a model call

The provider-facing records of `types.rs`, `tool.rs`, `shared.rs` and `result.rs`.
-/

namespace Aimux.Core

/-- A `provider.name` identifier; a value without a dot cannot be built. -/
structure NamespacedKind where
  value : String
  dotted : '.' ∈ value.toList
deriving DecidableEq

inductive FinishReasonUnified where
  | stop | length | contentFilter | toolCalls | error | other
deriving DecidableEq, Repr

structure FinishReason where
  unified : FinishReasonUnified
  raw : Option String
deriving DecidableEq, Repr

structure InputTokenUsage where
  total : Option Nat := none
  noCache : Option Nat := none
  cacheRead : Option Nat := none
  cacheWrite : Option Nat := none

structure OutputTokenUsage where
  total : Option Nat := none
  text : Option Nat := none
  reasoning : Option Nat := none

structure Usage where
  inputTokens : InputTokenUsage := {}
  outputTokens : OutputTokenUsage := {}
  raw : Option (List (String × Json)) := none

structure LanguageModelUsage where
  inputTokens : Option Nat := none
  noCacheTokens : Option Nat := none
  cacheReadTokens : Option Nat := none
  cacheWriteTokens : Option Nat := none
  outputTokens : Option Nat := none
  textTokens : Option Nat := none
  reasoningTokens : Option Nat := none
  totalTokens : Option Nat := none
  raw : Option (List (String × Json)) := none

/-- `addTokenCounts`: absent only when both counts are; the sum saturates at `u32::MAX`. -/
def addTokenCounts : Option Nat → Option Nat → Option Nat
  | none, none => none
  | a, b => some (min (a.getD 0 + b.getD 0) (2 ^ 32 - 1))

def asLanguageModelUsage (usage : Usage) : LanguageModelUsage where
  inputTokens := usage.inputTokens.total
  noCacheTokens := usage.inputTokens.noCache
  cacheReadTokens := usage.inputTokens.cacheRead
  cacheWriteTokens := usage.inputTokens.cacheWrite
  outputTokens := usage.outputTokens.total
  textTokens := usage.outputTokens.text
  reasoningTokens := usage.outputTokens.reasoning
  totalTokens := addTokenCounts usage.inputTokens.total usage.outputTokens.total
  raw := usage.raw

def addLanguageModelUsage (usage1 usage2 : LanguageModelUsage) : LanguageModelUsage where
  inputTokens := addTokenCounts usage1.inputTokens usage2.inputTokens
  noCacheTokens := addTokenCounts usage1.noCacheTokens usage2.noCacheTokens
  cacheReadTokens := addTokenCounts usage1.cacheReadTokens usage2.cacheReadTokens
  cacheWriteTokens := addTokenCounts usage1.cacheWriteTokens usage2.cacheWriteTokens
  outputTokens := addTokenCounts usage1.outputTokens usage2.outputTokens
  textTokens := addTokenCounts usage1.textTokens usage2.textTokens
  reasoningTokens := addTokenCounts usage1.reasoningTokens usage2.reasoningTokens
  totalTokens := addTokenCounts usage1.totalTokens usage2.totalTokens
  raw := none

inductive Warning where
  | unsupported (feature : String) (details : Option String)
  | compatibility (feature : String) (details : Option String)
  | deprecated (setting message : String)
  | other (message : String)

structure ResponseMetadata where
  id : Option String := none
  timestamp : Option Int := none
  modelId : Option String := none

structure RequestInfo where
  body : Option Json := none

abbrev Headers := List (String × String)

/-- A tool call as the provider sent it: `input` is the raw argument text. -/
structure RawToolCall where
  toolCallId : String
  toolName : String
  input : String
  providerExecuted : Option Bool := none
  dynamic : Option Bool := none
  providerMetadata : Option ProviderMetadata := none

structure ToolResult where
  toolCallId : String
  toolName : String
  result : Json
  isError : Option Bool := none
  preliminary : Option Bool := none
  dynamic : Option Bool := none
  providerMetadata : Option ProviderMetadata := none

structure RawToolApprovalRequest where
  approvalId : String
  toolCallId : String
  providerMetadata : Option ProviderMetadata := none

structure FunctionTool where
  name : String
  inputSchema : Json

structure ProviderTool where
  id : NamespacedKind
  name : String
  supportsDeferredResults : Option Bool := none

inductive Tool where
  | function (tool : FunctionTool)
  | provider (tool : ProviderTool)

def Tool.name : Tool → String
  | .function tool => tool.name
  | .provider tool => tool.name

inductive LanguageModelV4ToolChoice where
  | auto | none | required
  | tool (toolName : String)
deriving DecidableEq

inductive FileBytes where
  | binary (bytes : List UInt8)
  | base64 (text : String)

inductive GeneratedFileData where
  | data (bytes : FileBytes)
  | url (url : String) (originalUrl : Option String)

structure LanguageModelFile where
  data : GeneratedFileData
  mediaType : String
  providerMetadata : Option ProviderMetadata := none

structure GeneratedFile where
  data : FileBytes
  mediaType : String
  providerMetadata : Option ProviderMetadata := none

structure GeneratedFileOutput where
  file : GeneratedFile
  providerMetadata : Option ProviderMetadata := none

inductive Source where
  | url (id url : String) (title : Option String) (providerMetadata : Option ProviderMetadata)
  | document (id mediaType title : String) (filename : Option String)
      (providerMetadata : Option ProviderMetadata)

structure ReasoningOutput where
  text : String
  providerMetadata : Option ProviderMetadata := none

inductive GenerateContent where
  | text (text : String) (providerMetadata : Option ProviderMetadata)
  | toolCall (call : RawToolCall)
  | source (source : Source)
  | reasoning (reasoning : ReasoningOutput)
  | file (file : LanguageModelFile)
  | reasoningFile (file : LanguageModelFile)
  | custom (kind : NamespacedKind) (providerMetadata : Option ProviderMetadata)
  | toolApprovalRequest (request : RawToolApprovalRequest)
  | toolResult (result : ToolResult)

end Aimux.Core
