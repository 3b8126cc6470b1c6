import Aimux.Bedrock.ChatStream
import Aimux.Prompt.Conversion

/-! # Prompts as Converse messages

`convert_to_chat_messages.rs`: consecutive user and tool messages become one message, and assistant messages are
split around the tool results inside them.
-/

namespace Aimux.Bedrock

open Aimux.Core
open Aimux.Prompt (AssistantPart FileData FilePart LanguageModelMessage LanguageModelPrompt ProviderOptions TextPart
  ToolPart ToolResultContent UserPart isFullMediaType)

/-- What other libraries do. -/
structure PromptCrates where
  encodeBase64 : List UInt8 → String
  /-- The media type that the data shows itself to be of, within the top level. -/
  detectMediaType : FileBytes → String → Except AiMuxError (Option String)
  numberText : JsonNumber → List Char

/-! ## Options -/

/-- The Bedrock options of a container. -/
def readOptions (providerOptions : Option ProviderOptions) : Option (List (String × Json)) :=
  providerOptions.bind fun options =>
    (options.namespaces.lookup "amazonBedrock").or (options.namespaces.lookup "bedrock")

def option (providerOptions : Option ProviderOptions) (key : String) : Option Json :=
  (readOptions providerOptions).bind (·.lookup key)

def cachePoint (providerOptions : Option ProviderOptions) : Option Json :=
  (option providerOptions "cachePoint").map fun point => .object [("cachePoint", point)]

def isGuarded (providerOptions : Option ProviderOptions) : Bool :=
  (option providerOptions "guardContent").bind asBool = some true

def citationsEnabled (providerOptions : Option ProviderOptions) : Bool :=
  (((option providerOptions "citations").bind (·.get "enabled")).bind asBool).getD false

/-! ## Media types -/

def topLevel (mediaType : String) : String := String.ofList (mediaType.toList.takeWhile (· ≠ '/'))

def startsWith (text front : String) : Bool := decide (front.toList <+: text.toList)

def imageFormats : List (String × String) :=
  [("image/jpeg", "jpeg"), ("image/png", "png"), ("image/gif", "gif"), ("image/webp", "webp")]

def documentFormats : List (String × String) := [
  ("application/pdf", "pdf"), ("text/csv", "csv"), ("application/msword", "doc"),
  ("application/vnd.openxmlformats-officedocument.wordprocessingml.document", "docx"),
  ("application/vnd.ms-excel", "xls"),
  ("application/vnd.openxmlformats-officedocument.spreadsheetml.sheet", "xlsx"),
  ("text/html", "html"), ("text/plain", "txt"), ("text/markdown", "md")]

def videoFormats : List (String × String) := [
  ("video/x-matroska", "mkv"), ("video/quicktime", "mov"), ("video/mp4", "mp4"), ("video/webm", "webm"),
  ("video/x-flv", "flv"), ("video/mpeg", "mpeg"), ("video/mpg", "mpg"), ("video/wmv", "wmv"),
  ("video/x-ms-wmv", "wmv"), ("video/3gpp", "three_gp")]

def mimeToImageFormat (mediaType : String) : String := (imageFormats.lookup mediaType).getD "png"
def mimeToDocumentFormat (mediaType : String) : String := (documentFormats.lookup mediaType).getD "txt"
def mimeToVideoFormat (mediaType : String) : Option String := videoFormats.lookup mediaType

def validateMediaType (mediaType : String) : Except AiMuxError Unit :=
  let (formats, kind) := match topLevel mediaType with
    | "image" => (imageFormats, "image")
    | "video" => (videoFormats, "video")
    | _ => (documentFormats, "file")
  if (formats.lookup mediaType).isSome then .ok ()
  else .error (.unsupportedFunctionality (kind ++ " mime type: " ++ mediaType))

def isImageOrVideo (mediaType : String) : Bool := startsWith mediaType "image/" || startsWith mediaType "video/"

def resolveFullMediaType (crates : PromptCrates) (file : FilePart) : Except AiMuxError String :=
  let unresolved (reason : String) : Except AiMuxError String := .error (.unsupportedFunctionality
    ("file of media type \"" ++ file.mediaType ++ "\" must specify subtype since " ++ reason))
  if isFullMediaType file.mediaType then .ok file.mediaType
  else match file.data with
    | .data data => do
      match ← crates.detectMediaType data (topLevel file.mediaType) with
      | some detected => .ok detected
      | none => unresolved "it could not be auto-detected"
    | _ => unresolved "it is not passed as inline bytes"

/-! ## Prompts that are accepted -/

def invalidArgument (message : String) : AiMuxError := .invalidArgument message none

def isQualifier (value : Json) : Bool :=
  (asStr value).any fun text => text ∈ ["grounding_source", "query", "guard_content"]

def areQualifiers (value : Json) : Bool := (asArray value).any fun values => values.all isQualifier

def areCitations (value : Json) : Bool :=
  value.isObject && (value.get "enabled").all fun enabled => (asBool enabled).isSome

/-- A member of the options that is there has the form. -/
def checkOption (providerOptions : Option ProviderOptions) (key : String) (valid : Json → Bool) :
    Except AiMuxError Unit :=
  if (option providerOptions key).all valid then .ok () else .error (invalidArgument ("Invalid Bedrock " ++ key))

def validatePartOptions (providerOptions : Option ProviderOptions) (reasoning : Bool) : Except AiMuxError Unit := do
  checkOption providerOptions "guardContent" fun value => (asBool value).isSome
  checkOption providerOptions "guardContentQualifiers" areQualifiers
  checkOption providerOptions "citations" areCitations
  if reasoning then
    checkOption providerOptions "signature" fun value => value.isString || value.isNull
    checkOption providerOptions "redactedContent" fun value => value.isString || value.isNull
    checkOption providerOptions "redactedData" fun value => value.isString || value.isNull

def validateFile (crates : PromptCrates) (file : FilePart) : Except AiMuxError Unit :=
  match file.data with
  | .reference _ => .error (.unsupportedFunctionality "file parts with provider references")
  | .url url _ => do
    validatePartOptions file.providerOptions false
    if !startsWith url "s3:" then .error (.unsupportedFunctionality "File URL data")
    else
      let mediaType ← resolveFullMediaType crates file
      if !isImageOrVideo mediaType then .error (.unsupportedFunctionality "File URL data")
      else validateMediaType mediaType
  | .text _ => do
    validatePartOptions file.providerOptions false
    let mediaType := if isFullMediaType file.mediaType then file.mediaType else "text/plain"
    if isImageOrVideo mediaType then
      .error (.unsupportedFunctionality ("file media type or data: " ++ mediaType))
    else validateMediaType mediaType
  | .data _ => do
    validatePartOptions file.providerOptions false
    validateMediaType (← resolveFullMediaType crates file)

def dataKind : FileData → String
  | .data _ => "data"
  | .url .. => "url"
  | .reference _ => "reference"
  | .text _ => "text"

def isS3Url : FileData → Bool
  | .url url _ => startsWith url "s3:"
  | _ => false

def validateResultContent (crates : PromptCrates) : ToolResultContent → Except AiMuxError Unit
  | .text _ => .ok ()
  | .file file => do
    let unsupported : AiMuxError :=
      .unsupportedFunctionality ("tool result file data of type \"" ++ dataKind file.data ++ "\"")
    if dataKind file.data ≠ "data" && !isS3Url file.data then .error unsupported
    else
      let mediaType ← resolveFullMediaType crates file
      if isS3Url file.data && !isImageOrVideo mediaType then .error unsupported
      else validateMediaType mediaType
  | .custom _ => .error (.unsupportedFunctionality "unsupported tool content part")

def validateToolResult (crates : PromptCrates) : Prompt.ToolResultOutput → Except AiMuxError Unit
  | .content value _ => value.forM (validateResultContent crates)
  | _ => .ok ()

def validateUserPart (crates : PromptCrates) : UserPart → Except AiMuxError Unit
  | .text part => validatePartOptions part.providerOptions false
  | .file file => validateFile crates file

def validateAssistantPart (crates : PromptCrates) : AssistantPart → Except AiMuxError Unit
  | .text part => validatePartOptions part.providerOptions false
  | .file file => validateFile crates file
  | .reasoning part => validatePartOptions part.providerOptions true
  | .toolResult part => validateToolResult crates part.output
  | .toolCall _ | .reasoningFile _ | .custom _ => .ok ()

def validateToolPart (crates : PromptCrates) : ToolPart → Except AiMuxError Unit
  | .toolResult part => validateToolResult crates part.output
  | .toolApprovalResponse _ => .ok ()

/-- Message by message; no system message comes behind another one. -/
def validateMessages (crates : PromptCrates) : Bool → LanguageModelPrompt → Except AiMuxError Unit
  | _, [] => .ok ()
  | sawNonSystem, .system .. :: prompt =>
    if sawNonSystem then .error (.unsupportedFunctionality
      "Multiple system messages that are separated by user/assistant messages")
    else validateMessages crates sawNonSystem prompt
  | _, .user content _ :: prompt => do
    content.forM (validateUserPart crates)
    validateMessages crates true prompt
  | _, .assistant content _ :: prompt => do
    content.forM (validateAssistantPart crates)
    validateMessages crates true prompt
  | _, .tool content _ :: prompt => do
    content.forM (validateToolPart crates)
    validateMessages crates true prompt

def validatePrompt (crates : PromptCrates) (prompt : LanguageModelPrompt) : Except AiMuxError Unit :=
  validateMessages crates false prompt

/-! ## Blocks -/

def textBlock (text : String) : Json := .object [("text", .string text)]

def userText (part : TextPart) : Json :=
  if isGuarded part.providerOptions then
    let qualifiers := (option part.providerOptions "guardContentQualifiers").map fun value => ("qualifiers", value)
    .object [("guardContent", .object [("text", .object (("text", .string part.text) :: qualifiers.toList))])]
  else textBlock part.text

/-- `str::trim` -/
def trim (text : List Char) : List Char := (text.dropWhile isWhitespace).rdropWhile isWhitespace

def trimmed (text : String) : String := String.ofList (trim text.toList)

def words (text : List Char) : List (List Char) := (text.splitOnP isWhitespace).filter (· ≠ [])

def sanitizeDocumentName (name : String) : String :=
  let stem := name.toList.takeWhile (· ≠ '.')
  let kept := ((words stem).intersperse [' ']).flatten.filter fun c => isAsciiAlphanumeric c || c ∈ " ()[]-".toList
  String.ofList (trim ((trim kept).take 200))

def fileSource (data : String) : Json := .object [("bytes", .string data)]

/-- The block of a file with this data, and the documents counted so far. -/
def fileBlock (data mediaType : String) (filename : Option String) (providerOptions : Option ProviderOptions)
    (documents : Nat) : Json × Nat :=
  if topLevel mediaType = "image" then
    let image := .object [("image", .object [("format", .string (mimeToImageFormat mediaType)),
      ("source", fileSource data)])]
    (if isGuarded providerOptions then .object [("guardContent", image)] else image, documents)
  else if topLevel mediaType = "video" then
    (.object [("video", .object [("format", ((mimeToVideoFormat mediaType).map Json.string).getD .null),
      ("source", fileSource data)])], documents)
  else
    let named := (filename.map sanitizeDocumentName).filter (· ≠ "")
    let counted := if named.isSome then documents else (documents + 1) % 2 ^ 32
    (.object [("document", .object ([("format", .string (mimeToDocumentFormat mediaType)),
      ("name", .string (named.getD ("document-" ++ toString counted))), ("source", fileSource data)] ++
        if citationsEnabled providerOptions then [("citations", Json.object [("enabled", .bool true)])]
        else []))], counted)

/-- The member of an object, which a null becomes. -/
def setMember (value : Json) (key : String) (member : Json → Json) : Json :=
  let fields := match value with
    | .object fields => fields
    | _ => []
  .object (insertField fields key (member ((fields.lookup key).getD .null)))

/-- The source of the image or the video in a block. -/
def withS3Source (block : Json) (mediaType url : String) : Json :=
  let key := if startsWith mediaType "video/" then "video" else "image"
  let place (inner : Json) : Json := setMember inner key fun file =>
    setMember file "source" fun _ => .object [("s3Location", .object [("uri", .string url)])]
  if (block.get "guardContent").isSome then setMember block "guardContent" place else place block

def filePart (crates : PromptCrates) (file : FilePart) (documents : Nat) : Option Json × Nat :=
  let resolved := (resolveFullMediaType crates file).toOption.getD file.mediaType
  let block (data mediaType : String) := fileBlock data mediaType file.filename file.providerOptions documents
  match file.data with
  | .data (.binary bytes) =>
    let made := block (crates.encodeBase64 bytes) resolved
    (some made.1, made.2)
  | .data (.base64 data) =>
    let made := block data resolved
    (some made.1, made.2)
  | .text text =>
    let made := block (crates.encodeBase64 text.toUTF8.data.toList)
      (if isFullMediaType file.mediaType then resolved else "text/plain")
    (some made.1, made.2)
  | .url url _ =>
    let made := block "" resolved
    (some (withS3Source made.1 resolved url), made.2)
  | .reference _ => (none, documents)

def videoBlock (mediaType : String) (source : Json) : Json :=
  .object [("video", .object [("format", .string ((mimeToVideoFormat mediaType).getD "")), ("source", source)])]

def resultContentBlock (crates : PromptCrates) (documents : Nat) : ToolResultContent → Option Json × Nat
  | .text part => (some (textBlock part.text), documents)
  | .file part =>
    let part := { part with mediaType := (resolveFullMediaType crates part).toOption.getD part.mediaType }
    match part.data with
    | .url url _ =>
      let source := Json.object [("s3Location", .object [("uri", .string url)])]
      (some (if startsWith part.mediaType "image/" then
          .object [("image", .object [("format", .string (mimeToImageFormat part.mediaType)), ("source", source)])]
        else videoBlock part.mediaType source), documents)
    | data =>
      if startsWith part.mediaType "video/" then
        match data with
        | .data (.binary bytes) => (some (videoBlock part.mediaType (fileSource (crates.encodeBase64 bytes))), documents)
        | .data (.base64 data) => (some (videoBlock part.mediaType (fileSource data)), documents)
        | _ => (none, documents)
      else filePart crates part documents
  | .custom _ => (none, documents)

/-- Item after item, with the documents counted so far. -/
def collect {α : Type} (convert : Nat → α → List Json × Nat) : Nat → List α → List Json × Nat
  | documents, [] => ([], documents)
  | documents, item :: items =>
    let converted := convert documents item
    let rest := collect convert converted.2 items
    (converted.1 ++ rest.1, rest.2)

def resolveToolResultOutput (crates : PromptCrates) (documents : Nat) : Prompt.ToolResultOutput → List Json × Nat
  | .json value _ | .errorJson value _ => ([textBlock (String.ofList (writeJson crates.numberText value))], documents)
  | .text value _ | .errorText value _ => ([textBlock value], documents)
  | .executionDenied reason _ => ([textBlock (reason.getD "Tool call execution denied.")], documents)
  | .content value _ => collect (fun documents part =>
      let block := resultContentBlock crates documents part
      (block.1.toList, block.2)) documents value

/-- Whether a tool result reports a failure. -/
def toolResultIsError : Prompt.ToolResultOutput → Bool
  | .errorText .. | .errorJson .. | .executionDenied .. => true
  | .content _ isError => isError = some true
  | .text .. | .json .. => false

def toolResultBlock (crates : PromptCrates) (isMistral : Bool) (documents : Nat) (part : Prompt.ToolResultPart) : Json × Nat :=
  let content := resolveToolResultOutput crates documents part.output
  (.object [("toolResult", .object [("toolUseId", .string (normalizeToolCallId part.toolCallId isMistral)),
    ("content", .array content.1), ("status", .string (if toolResultIsError part.output then "error" else "success"))])],
    content.2)

def sanitizeToolName (name : String) : String :=
  let kept := name.toList.filter fun c => isAsciiAlphanumeric c || c = '_' || c = '-'
  if kept = [] then "_" else String.ofList kept

def toolUseBlock (isMistral : Bool) (part : Prompt.ToolCallPart) : Json :=
  .object [("toolUse", .object [("toolUseId", .string (normalizeToolCallId part.toolCallId isMistral)),
    ("name", .string (sanitizeToolName part.toolName)),
    ("input", if part.input.isObject then part.input else .object [("rawInvalidInput", part.input)])])]

def reasoningBlock (part : Prompt.ReasoningPart) : Option Json :=
  let block (content : Json) : Json := .object [("reasoningContent", content)]
  match (option part.providerOptions "signature").bind asStr, option part.providerOptions "redactedContent",
      option part.providerOptions "redactedData" with
  | some signature, _, _ =>
    some (block (.object [("reasoningText", .object [("text", .string part.text), ("signature", .string signature)])]))
  | none, some redacted, _ => some (block (.object [("redactedContent", redacted)]))
  | none, none, some data => some (block (.object [("redactedReasoning", .object [("data", data)])]))
  | none, none, none => none

/-! ## Messages -/

inductive Role where
  | user | assistant
deriving DecidableEq

structure ChatMessage where
  role : Role
  content : List Json

def Role.text : Role → String
  | .user => "user"
  | .assistant => "assistant"

def ChatMessage.toJson (message : ChatMessage) : Json :=
  .object [("role", .string message.role.text), ("content", .array message.content)]

def hasKey (key : String) (block : Json) : Bool := (block.get key).isSome

/-- A user message with tool results goes on with the content. -/
def appendUserMessage (messages : List ChatMessage) (content : List Json) : List ChatMessage :=
  match messages.getLast? with
  | some last =>
    if last.role = .user ∧ last.content.any (hasKey "toolResult") then
      messages.dropLast ++ [{ last with content := last.content ++ content }]
    else messages ++ [{ role := .user, content }]
  | none => [{ role := .user, content }]

/-- Content that is not only cache points. -/
def isVisible (content : List Json) : Bool := content.any fun block => !hasKey "cachePoint" block

def flushAssistant (messages : List ChatMessage) (content : List Json) : List ChatMessage :=
  if isVisible content then messages ++ [{ role := .assistant, content }] else messages

/-! ## User and tool messages -/

def userPartBlocks (crates : PromptCrates) (documents : Nat) : UserPart → List Json × Nat
  | .text part => ([userText part] ++ (cachePoint part.providerOptions).toList, documents)
  | .file file =>
    match file.data with
    | .reference _ => ([], documents)
    | _ =>
      let block := filePart crates file documents
      (block.1.toList ++ (cachePoint file.providerOptions).toList, block.2)

def toolPartBlocks (crates : PromptCrates) (isMistral : Bool) (documents : Nat) : ToolPart → List Json × Nat
  | .toolResult part =>
    let block := toolResultBlock crates isMistral documents part
    ([block.1] ++ (cachePoint part.providerOptions).toList, block.2)
  | .toolApprovalResponse _ => ([], documents)

def userMessageBlocks (crates : PromptCrates) (isMistral : Bool) (documents : Nat) :
    LanguageModelMessage → List Json × Nat
  | .user content options =>
    let blocks := collect (userPartBlocks crates) documents content
    (blocks.1 ++ (cachePoint options).toList, blocks.2)
  | .tool content options =>
    let blocks := collect (toolPartBlocks crates isMistral) documents content
    (blocks.1 ++ (cachePoint options).toList, blocks.2)
  | _ => ([], documents)

/-! ## Assistant messages -/

/-- What an assistant message goes through: its parts, with whether the text is trimmed and whether the message has
reasoning; and its own options, with whether its last part is a tool result. -/
inductive AssistantStep where
  | part (trims hasReasoning : Bool) (part : AssistantPart)
  | options (afterResult : Bool) (options : Option ProviderOptions)

def isReasoning : AssistantPart → Bool
  | .reasoning _ => true
  | _ => false

def isToolResult : AssistantPart → Bool
  | .toolResult _ => true
  | _ => false

/-- Only the last part of the last message is trimmed. -/
def partSteps (lastMessage hasReasoning : Bool) : List AssistantPart → List AssistantStep
  | [] => []
  | part :: parts => .part (lastMessage && parts.isEmpty) hasReasoning part :: partSteps lastMessage hasReasoning parts

def messageSteps (lastBlock : Bool) : List LanguageModelMessage → List AssistantStep
  | [] => []
  | .assistant content options :: messages =>
    partSteps (lastBlock && messages.isEmpty) (content.any isReasoning) content ++
      .options (content.getLast?.any isToolResult) options :: messageSteps lastBlock messages
  | _ :: messages => messageSteps lastBlock messages

structure AssistantState where
  messages : List ChatMessage
  content : List Json := []
  results : List Json := []
  documents : Nat

/-- The block that a part other than a tool result makes. -/
def assistantBlock (isMistral trims hasReasoning : Bool) : AssistantPart → Option Json
  | .text part =>
    if trimmed part.text ≠ "" ∨ hasReasoning then some (textBlock (if trims then trimmed part.text else part.text)) else none
  | .reasoning part => reasoningBlock part
  | .toolCall part => some (toolUseBlock isMistral part)
  | _ => none

def assistantCachePoint : AssistantPart → Option Json
  | .text part => cachePoint part.providerOptions
  | .file part =>
    match part.data with
    | .reference _ => none
    | _ => cachePoint part.providerOptions
  | .reasoning part => cachePoint part.providerOptions
  | .toolCall part => cachePoint part.providerOptions
  | .toolResult part => cachePoint part.providerOptions
  | .reasoningFile _ | .custom _ => none

/-- The results so far become a message. -/
def AssistantState.sendResults (state : AssistantState) : AssistantState :=
  if state.results = [] then state
  else { state with messages := appendUserMessage state.messages state.results, results := [] }

def AssistantState.step (crates : PromptCrates) (isMistral : Bool) (state : AssistantState) :
    AssistantStep → AssistantState
  | .part trims hasReasoning part =>
    match part with
    | .toolResult result =>
      let block := toolResultBlock crates isMistral state.documents result
      { messages := flushAssistant state.messages state.content
        content := []
        results := state.results ++ [block.1] ++ (assistantCachePoint part).toList
        documents := block.2 }
    | _ =>
      let sent := state.sendResults
      { sent with content := sent.content ++ (assistantBlock isMistral trims hasReasoning part).toList ++
          (assistantCachePoint part).toList }
  | .options afterResult options =>
    if afterResult then { state with results := state.results ++ (cachePoint options).toList }
    else { state with content := state.content ++ (cachePoint options).toList }

/-! ## The prompt -/

inductive Blk where
  | system | user | assistant
deriving DecidableEq

def blockOf : LanguageModelMessage → Blk
  | .system .. => .system
  | .user .. | .tool .. => .user
  | .assistant .. => .assistant

/-- Consecutive messages of one block. -/
def groupIntoBlocks : LanguageModelPrompt → List (Blk × List LanguageModelMessage)
  | [] => []
  | message :: prompt =>
    match groupIntoBlocks prompt with
    | (blk, messages) :: groups =>
      if blockOf message = blk then (blk, message :: messages) :: groups
      else (blockOf message, [message]) :: (blk, messages) :: groups
    | [] => [(blockOf message, [message])]

structure Conversion where
  system : List Json := []
  messages : List ChatMessage := []
  documents : Nat := 0

def systemBlocks : LanguageModelMessage → List Json
  | .system content options => [textBlock content] ++ (cachePoint options).toList
  | _ => []

def convertBlock (crates : PromptCrates) (isMistral lastBlock : Bool) (conversion : Conversion)
    (block : Blk × List LanguageModelMessage) : Conversion :=
  match block.1 with
  | .system => { conversion with system := conversion.system ++ block.2.flatMap systemBlocks }
  | .user =>
    let content := collect (userMessageBlocks crates isMistral) conversion.documents block.2
    { conversion with
      messages := appendUserMessage conversion.messages content.1
      documents := content.2 }
  | .assistant =>
    let state := (messageSteps lastBlock block.2).foldl (AssistantState.step crates isMistral)
      { messages := conversion.messages, documents := conversion.documents }
    let sent := state.sendResults
    { conversion with
      messages := flushAssistant sent.messages sent.content
      documents := sent.documents }

def convertBlocks (crates : PromptCrates) (isMistral : Bool) : Conversion → List (Blk × List LanguageModelMessage) →
    Conversion
  | conversion, [] => conversion
  | conversion, block :: blocks =>
    convertBlocks crates isMistral (convertBlock crates isMistral blocks.isEmpty conversion block) blocks

/-- The system blocks and the messages. -/
def convertPrompt (crates : PromptCrates) (prompt : LanguageModelPrompt) (isMistral : Bool) :
    Except AiMuxError (List Json × List ChatMessage) := do
  validatePrompt crates prompt
  let conversion := convertBlocks crates isMistral {} (groupIntoBlocks prompt)
  return (conversion.system, conversion.messages)

end Aimux.Bedrock
