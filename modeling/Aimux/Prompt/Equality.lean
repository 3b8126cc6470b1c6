import Aimux.Core.ToolCallRepair
import Aimux.Prompt.Wire

/-! # Equality of message contents

`PartialEq` of the provider's parts: bytes are equal in either form, and maps whatever their order.
-/

namespace Aimux.Prompt

open Aimux.Core

section

variable (decodeBase64 : String → Option (List UInt8))

def bytesEq : FileBytes → FileBytes → Bool
  | .binary a, .binary b => a == b
  | .base64 a, .base64 b => a == b
  | .binary bytes, .base64 text | .base64 text, .binary bytes => decodeBase64 text == some bytes

def optionEq {α : Type} (eq : α → α → Bool) : Option α → Option α → Bool
  | none, none => true
  | some a, some b => eq a b
  | _, _ => false

def listEq {α : Type} (eq : α → α → Bool) : List α → List α → Bool
  | [], [] => true
  | a :: as, b :: bs => eq a b && listEq eq as bs
  | _, _ => false

def optionsEq : Option ProviderOptions → Option ProviderOptions → Bool :=
  optionEq fun a b => valueEq a.toValue b.toValue

def referenceEq (a b : ProviderReference) : Bool :=
  valueEq (.object (a.map fun entry => (entry.1, .string entry.2)))
    (.object (b.map fun entry => (entry.1, .string entry.2)))

def fileDataEq : FileData → FileData → Bool
  | .data a, .data b => bytesEq decodeBase64 a b
  | .url a originalA, .url b originalB => a == b && originalA == originalB
  | .reference a, .reference b => referenceEq a b
  | .text a, .text b => a == b
  | _, _ => false

def generatedFileDataEq : GeneratedFileData → GeneratedFileData → Bool
  | .data a, .data b => bytesEq decodeBase64 a b
  | .url a originalA, .url b originalB => a == b && originalA == originalB
  | _, _ => false

def textPartEq (a b : TextPart) : Bool := a.text == b.text && optionsEq a.providerOptions b.providerOptions

def filePartEq (a b : FilePart) : Bool :=
  fileDataEq decodeBase64 a.data b.data && a.mediaType == b.mediaType && a.filename == b.filename &&
    optionsEq a.providerOptions b.providerOptions

def toolResultContentEq : ToolResultContent → ToolResultContent → Bool
  | .text a, .text b => textPartEq a b
  | .file a, .file b => filePartEq decodeBase64 a b
  | .custom a, .custom b => optionsEq a b
  | _, _ => false

def toolResultOutputEq : ToolResultOutput → ToolResultOutput → Bool
  | .text a optionsA, .text b optionsB => a == b && optionsEq optionsA optionsB
  | .json a optionsA, .json b optionsB => valueEq a b && optionsEq optionsA optionsB
  | .executionDenied a optionsA, .executionDenied b optionsB => a == b && optionsEq optionsA optionsB
  | .errorText a optionsA, .errorText b optionsB => a == b && optionsEq optionsA optionsB
  | .errorJson a optionsA, .errorJson b optionsB => valueEq a b && optionsEq optionsA optionsB
  | .content a isErrorA, .content b isErrorB =>
    listEq (toolResultContentEq decodeBase64) a b && isErrorA == isErrorB
  | _, _ => false

def toolResultPartEq (a b : ToolResultPart) : Bool :=
  a.toolCallId == b.toolCallId && a.toolName == b.toolName && toolResultOutputEq decodeBase64 a.output b.output &&
    optionsEq a.providerOptions b.providerOptions

def userPartEq : UserPart → UserPart → Bool
  | .text a, .text b => textPartEq a b
  | .file a, .file b => filePartEq decodeBase64 a b
  | _, _ => false

def assistantPartEq : AssistantPart → AssistantPart → Bool
  | .text a, .text b => textPartEq a b
  | .file a, .file b => filePartEq decodeBase64 a b
  | .reasoning a, .reasoning b => a.text == b.text && optionsEq a.providerOptions b.providerOptions
  | .reasoningFile a, .reasoningFile b =>
    generatedFileDataEq decodeBase64 a.data b.data && a.mediaType == b.mediaType &&
      optionsEq a.providerOptions b.providerOptions
  | .custom a, .custom b => a.kind == b.kind && optionsEq a.providerOptions b.providerOptions
  | .toolCall a, .toolCall b =>
    a.toolCallId == b.toolCallId && a.toolName == b.toolName && valueEq a.input b.input &&
      a.providerExecuted == b.providerExecuted && optionsEq a.providerOptions b.providerOptions
  | .toolResult a, .toolResult b => toolResultPartEq decodeBase64 a b
  | _, _ => false

def toolPartEq : ToolPart → ToolPart → Bool
  | .toolResult a, .toolResult b => toolResultPartEq decodeBase64 a b
  | .toolApprovalResponse a, .toolApprovalResponse b =>
    a.approvalId == b.approvalId && a.approved == b.approved && a.reason == b.reason &&
      optionsEq a.providerOptions b.providerOptions
  | _, _ => false

/-- Role and content; the options of the messages do not count. -/
def sameMessageContent : LanguageModelMessage → LanguageModelMessage → Bool
  | .system a _, .system b _ => a == b
  | .user a _, .user b _ => listEq (userPartEq decodeBase64) a b
  | .assistant a _, .assistant b _ => listEq (assistantPartEq decodeBase64) a b
  | .tool a _, .tool b _ => listEq (toolPartEq decodeBase64) a b
  | _, _ => false

end

end Aimux.Prompt
