import Aimux.Core.Error

/-! # The messages of a prompt

What a caller gives as a prompt (`message.rs`, `content.rs`) and what a provider is given for it
(`language_model_message.rs`).
-/

namespace Aimux.Prompt

open Aimux.Core

/-- `SharedProviderOptions`: the options of each provider, in insertion order. -/
structure ProviderOptions where
  namespaces : List (String × List (String × Json))

abbrev ProviderReference := List (String × String)

inductive FileData where
  | data (data : FileBytes)
  | url (url : String) (originalUrl : Option String)
  | reference (reference : ProviderReference)
  | text (text : String)

/-! ## The messages of the caller -/

namespace User

inductive FilePartData where
  | tagged (data : FileData)
  | string (text : String)
  | reference (reference : ProviderReference)

inductive ReasoningFilePartData where
  | tagged (data : GeneratedFileData)
  | string (text : String)

inductive ToolResultFileId where
  | id (id : String)
  | byProvider (reference : ProviderReference)

inductive ToolResultContentPart where
  | text (text : String) (providerOptions : Option ProviderOptions)
  | file (data : FileData) (mediaType : String) (filename : Option String)
      (providerOptions : Option ProviderOptions)
  | fileData (data mediaType : String) (filename : Option String) (providerOptions : Option ProviderOptions)
  | fileUrl (url : String) (mediaType : Option String) (providerOptions : Option ProviderOptions)
  | fileId (fileId : ToolResultFileId) (providerOptions : Option ProviderOptions)
  | fileReference (providerReference : ProviderReference) (providerOptions : Option ProviderOptions)
  | imageData (data mediaType : String) (providerOptions : Option ProviderOptions)
  | imageUrl (url : String) (providerOptions : Option ProviderOptions)
  | imageFileId (fileId : ToolResultFileId) (providerOptions : Option ProviderOptions)
  | imageFileReference (providerReference : ProviderReference) (providerOptions : Option ProviderOptions)
  | custom (providerOptions : Option ProviderOptions)

inductive ToolResultOutput where
  | text (value : String) (providerOptions : Option ProviderOptions)
  | json (value : Json) (providerOptions : Option ProviderOptions)
  | executionDenied (reason : Option String) (providerOptions : Option ProviderOptions)
  | errorText (value : String) (providerOptions : Option ProviderOptions)
  | errorJson (value : Json) (providerOptions : Option ProviderOptions)
  | content (value : List ToolResultContentPart)

structure ToolResultPart where
  toolCallId : String
  toolName : Option String
  output : ToolResultOutput
  providerOptions : Option ProviderOptions := none

inductive UserContentPart where
  | text (text : String) (providerOptions : Option ProviderOptions)
  | image (image : List UInt8) (mediaType : String) (providerOptions : Option ProviderOptions)
  | file (data : FilePartData) (mediaType : String) (filename : Option String)
      (providerOptions : Option ProviderOptions)

inductive AssistantContentPart where
  | text (text : String) (providerOptions : Option ProviderOptions)
  | custom (kind : NamespacedKind) (providerOptions : Option ProviderOptions)
  | file (data : FilePartData) (mediaType : String) (filename : Option String)
      (providerOptions : Option ProviderOptions)
  | reasoning (text : String) (providerOptions : Option ProviderOptions)
  | reasoningFile (data : ReasoningFilePartData) (mediaType : String) (providerOptions : Option ProviderOptions)
  | toolCall (toolCallId toolName : String) (input : Json) (providerExecuted : Option Bool)
      (providerOptions : Option ProviderOptions)
  | toolResult (result : ToolResultPart)
  | toolApprovalRequest (approvalId toolCallId : String)

inductive ToolContentPart where
  | toolResult (result : ToolResultPart)
  | toolApprovalResponse (approvalId : String) (approved : Bool) (reason : Option String)
      (providerExecuted : Option Bool)

inductive UserContent where
  | text (text : String)
  | parts (parts : List UserContentPart)

inductive AssistantContent where
  | text (text : String)
  | parts (parts : List AssistantContentPart)

inductive ModelMessage where
  | system (content : String) (providerOptions : Option ProviderOptions)
  | user (content : UserContent) (providerOptions : Option ProviderOptions)
  | assistant (content : AssistantContent) (providerOptions : Option ProviderOptions)
  | tool (content : List ToolContentPart) (providerOptions : Option ProviderOptions)

end User

/-! ## The messages of the provider -/

structure TextPart where
  text : String
  providerOptions : Option ProviderOptions := none

structure FilePart where
  data : FileData
  mediaType : String
  filename : Option String := none
  providerOptions : Option ProviderOptions := none

structure ReasoningPart where
  text : String
  providerOptions : Option ProviderOptions := none

structure ToolCallPart where
  toolCallId : String
  toolName : String
  input : Json
  providerExecuted : Option Bool := none
  providerOptions : Option ProviderOptions := none

inductive ToolResultContent where
  | text (part : TextPart)
  | file (part : FilePart)
  | custom (providerOptions : Option ProviderOptions)

inductive ToolResultOutput where
  | text (value : String) (providerOptions : Option ProviderOptions)
  | json (value : Json) (providerOptions : Option ProviderOptions)
  | executionDenied (reason : Option String) (providerOptions : Option ProviderOptions)
  | errorText (value : String) (providerOptions : Option ProviderOptions)
  | errorJson (value : Json) (providerOptions : Option ProviderOptions)
  | content (value : List ToolResultContent) (isError : Option Bool)

structure ToolResultPart where
  toolCallId : String
  toolName : String
  output : ToolResultOutput
  providerOptions : Option ProviderOptions := none

structure ReasoningFilePart where
  data : GeneratedFileData
  mediaType : String
  providerOptions : Option ProviderOptions := none

structure CustomPart where
  kind : NamespacedKind
  providerOptions : Option ProviderOptions := none

structure ToolApprovalResponsePart where
  approvalId : String
  approved : Bool
  reason : Option String := none
  providerOptions : Option ProviderOptions := none

inductive UserPart where
  | text (part : TextPart)
  | file (part : FilePart)

inductive AssistantPart where
  | text (part : TextPart)
  | file (part : FilePart)
  | reasoning (part : ReasoningPart)
  | reasoningFile (part : ReasoningFilePart)
  | custom (part : CustomPart)
  | toolCall (part : ToolCallPart)
  | toolResult (part : ToolResultPart)

inductive ToolPart where
  | toolResult (part : ToolResultPart)
  | toolApprovalResponse (part : ToolApprovalResponsePart)

inductive LanguageModelMessage where
  | system (content : String) (providerOptions : Option ProviderOptions)
  | user (content : List UserPart) (providerOptions : Option ProviderOptions)
  | assistant (content : List AssistantPart) (providerOptions : Option ProviderOptions)
  | tool (content : List ToolPart) (providerOptions : Option ProviderOptions)

abbrev LanguageModelPrompt := List LanguageModelMessage

end Aimux.Prompt
