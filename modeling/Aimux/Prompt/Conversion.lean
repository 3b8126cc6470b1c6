import Aimux.Core.Redaction
import Aimux.Prompt.Content

/-! # The conversion of a prompt

`convert_to_language_model_prompt` of `language_model_message.rs`. The `url` crate is a parameter; a file
that was downloaded for a URL stands in `DownloadedAssets`.
-/

namespace Aimux.Prompt

open Aimux.Core

/-! ## Options of two sides -/

/-- The keys that a merge does not take over. -/
def isPrototypeKey (key : String) : Bool := key = "__proto__" || key = "constructor" || key = "prototype"

mutual

/-- What is stored for a key that holds `held`. -/
def mergeValue (held : Option Json) : Json → Json
  | .object overrides => match held with
    | some (.object base) => .object (mergeFields base overrides)
    | _ => .object overrides
  | value => value

def mergeFields (base : List (String × Json)) : List (String × Json) → List (String × Json)
  | [] => base
  | (key, value) :: overrides =>
    if isPrototypeKey key then mergeFields base overrides
    else mergeFields (insertField base key (mergeValue (base.lookup key) value)) overrides

end

/-- One provider of the overriding side. -/
def mergeNamespace (base : List (String × List (String × Json))) (namespaced : String × List (String × Json)) :
    List (String × List (String × Json)) :=
  if isPrototypeKey namespaced.1 then base
  else if base.any (·.1 = namespaced.1) then
    base.map fun held => if held.1 = namespaced.1 then (held.1, mergeFields held.2 namespaced.2) else held
  else base ++ [namespaced]

def mergeObjects : Option ProviderOptions → Option ProviderOptions → Option ProviderOptions
  | none, none => none
  | some base, none => some base
  | none, some overrides => some overrides
  | some base, some overrides => some ⟨overrides.namespaces.foldl mergeNamespace base.namespaces⟩

/-! ## Parts -/

structure UrlCrate (Url : Type) where
  /-- `Url::parse` -/
  parse : String → Except SourceError Url
  asStr : Url → String
  scheme : Url → String
  path : Url → String

structure DownloadedFile where
  data : List UInt8
  mediaType : Option String

/-- By URL. -/
abbrev DownloadedAssets := String → Option DownloadedFile

/-- With the warnings that were raised. -/
def convertAll {α β : Type} (convert : α → Except AiMuxError (β × List Warning)) : List α → Except AiMuxError (List β × List Warning)
  | [] => .ok ([], [])
  | item :: rest => do
    let (converted, warnings) ← convert item
    let (others, more) ← convertAll convert rest
    .ok (converted :: others, warnings ++ more)

/-- The state that the conversions of all messages share, but for the warnings. -/
structure Context where
  toolNames : String → Option String
  provider : Option String
  assets : DownloadedAssets

def invalidPrompt (message : String) : AiMuxError := .invalidPrompt message none

section

variable {Url : Type} (crate : UrlCrate Url)

def splitDataUrl (url : String) : Except AiMuxError (FileData × Option String) :=
  let pieces := url.toList.splitOn ','
  let schemeAndType := ((pieces.headD []).splitOn ';').headD []
  match (schemeAndType.splitOn ':')[1]?, pieces[1]? with
  | some mediaType, some content => .ok (.data (.base64 (String.ofList content)), some (String.ofList mediaType))
  | _, _ => .error (invalidPrompt ("Invalid data URL format in content " ++ url))

def convertUrlToFilePartData (url : String) (originalUrl : Option String) :
    Except AiMuxError (FileData × Option String) :=
  match crate.parse url with
  | .error _ => .ok (.url url originalUrl, none)
  | .ok parsed =>
    if crate.scheme parsed = "data" then splitDataUrl (crate.asStr parsed)
    else .ok (.url url originalUrl, none)

/-- The given text of a URL that parsing has changed. -/
def keepSpelling (given : String) : FileData → FileData
  | .url url originalUrl => .url url (if url = given then originalUrl else some given)
  | data => data

def convertFilePartData : User.FilePartData → Except AiMuxError (FileData × Option String)
  | .tagged (.data (.base64 text)) =>
    if "data:".toList <+: text.toList then
      .error (invalidPrompt
        "Data URLs are not valid inline data. Pass them as \x7b type: \"url\", url \x7d instead.")
    else .ok (.data (.base64 text), none)
  | .tagged (.url url originalUrl) => convertUrlToFilePartData crate url originalUrl
  | .tagged data => .ok (data, none)
  | .string text => match crate.parse text with
    | .ok parsed =>
      (convertUrlToFilePartData crate (crate.asStr parsed) none).map fun found => (keepSpelling text found.1, found.2)
    | .error _ => .ok (.data (.base64 text), none)
  | .reference reference => .ok (.reference reference, none)

/-- `type/subtype`, with a subtype that is not empty and not `*`. -/
def isFullMediaType (mediaType : String) : Bool :=
  match mediaType.toList.dropWhile (· ≠ '/') with
  | [] => false
  | _ :: subtype => subtype ≠ [] && subtype ≠ ['*']

def downloadedFilePart (file : DownloadedFile) (mediaType : String) (filename : Option String)
    (providerOptions : Option ProviderOptions) : FilePart where
  data := .data (.binary file.data)
  mediaType := match file.mediaType with
    | some downloaded => if isFullMediaType mediaType then mediaType else downloaded
    | none => mediaType
  filename := filename
  providerOptions := providerOptions

/-- A file part, with what was downloaded for its URL. -/
def filePart (assets : DownloadedAssets) (data : FileData) (mediaType : String) (filename : Option String)
    (providerOptions : Option ProviderOptions) : FilePart :=
  let asIs := { data, mediaType, filename, providerOptions }
  match data with
  | .url url _ => match assets url with
    | some file => downloadedFilePart file mediaType filename providerOptions
    | none => asIs
  | _ => asIs

def imageDeprecated : Warning :=
  .deprecated "\"image\" content part"
    "The \"image\" content part type is deprecated. Use a \"file\" part with mediaType: 'image' (or a more specific image/* subtype) instead."

def userPart (assets : DownloadedAssets) : User.UserContentPart → Except AiMuxError (UserPart × List Warning)
  | .text text providerOptions => .ok (.text { text, providerOptions }, [])
  | .image image mediaType providerOptions =>
    .ok (.file { data := .data (.binary image), mediaType, providerOptions }, [imageDeprecated])
  | .file data mediaType filename providerOptions => do
    let (data, dataUrlMediaType) ← convertFilePartData crate data
    .ok (.file (filePart assets data (dataUrlMediaType.getD mediaType) filename providerOptions), [])

/-! ### The output of a tool -/

def deprecated (kind message : String) : List Warning :=
  [.deprecated ("\"tool-result\" content of type \"" ++ kind ++ "\"") message]

def deprecatedReference (kind : String) : List Warning :=
  deprecated kind ("The \"" ++ kind ++ "\" type for tool result content is deprecated. Use the \"file\" type " ++
    "with mediaType and \x7b type: 'reference', reference \x7d instead.")

def deprecatedData (kind : String) : List Warning :=
  deprecated kind ("The \"" ++ kind ++ "\" type for tool result content is deprecated. Use the \"file\" type " ++
    "with mediaType and \x7b type: 'data', data \x7d instead.")

def normalizedUrl (given : String) : Except AiMuxError FileData :=
  match crate.parse given with
  | .error error =>
    .error (.invalidPrompt ("Invalid URL: " ++ given ++ ": " ++ (match error with | .mk message _ => message))
      (some (.source error)))
  | .ok parsed =>
    let normalized := crate.asStr parsed
    .ok (.url normalized (if normalized = given then none else some given))

def OCTET_STREAM : String := "application/octet-stream"

/-- The path of a parsed URL is ASCII. -/
def mediaTypeFromUrl (given : String) : String :=
  match crate.parse given with
  | .error _ => OCTET_STREAM
  | .ok parsed =>
    match asciiLower (String.ofList (((crate.path parsed).toList.splitOn '.').getLastD [])) with
    | "jpg" | "jpeg" => "image/jpeg"
    | "png" => "image/png"
    | "gif" => "image/gif"
    | "webp" => "image/webp"
    | "svg" => "image/svg+xml"
    | "avif" => "image/avif"
    | "heic" => "image/heic"
    | "bmp" => "image/bmp"
    | "tiff" | "tif" => "image/tiff"
    | "pdf" => "application/pdf"
    | "mp4" => "video/mp4"
    | "webm" => "video/webm"
    | "mp3" => "audio/mpeg"
    | "wav" => "audio/wav"
    | "ogg" => "audio/ogg"
    | _ => OCTET_STREAM

/-- A string id belongs to the provider that is called. -/
def fileIdReference (provider : Option String) : User.ToolResultFileId → Except AiMuxError ProviderReference
  | .byProvider reference => .ok reference
  | .id id => match provider with
    | some provider => .ok [(provider, id)]
    | none => .error (invalidPrompt
        "Cannot convert string fileId to provider reference without a provider ID. Use a Record<string, string> fileId or switch to the file-reference type.")

def fileUrlDeprecation : String :=
  "The \"file-url\" type for tool result content is deprecated. Use the \"file\" type with mediaType and \x7b type: 'url', url \x7d instead."

/-- The media type of a `file-url` item, and its warning. -/
def fileUrlMediaType (given : String) : Option String → String × String
  | some mediaType => (mediaType, fileUrlDeprecation)
  | none =>
    let inferred := mediaTypeFromUrl crate given
    let inference :=
      if inferred = OCTET_STREAM then
        "Unable to infer media type from URL. Defaulting to 'application/octet-stream'."
      else "Inferred media type '" ++ inferred ++ "' from URL."
    (inferred, "The \"file-url\" tool result content part with URL \"" ++ given ++
      "\" is missing a \"mediaType\". " ++ inference ++ " " ++ fileUrlDeprecation)

def toolResultContent (provider : Option String) (assets : DownloadedAssets) :
    User.ToolResultContentPart → Except AiMuxError (ToolResultContent × List Warning)
  | .text text providerOptions => .ok (.text { text, providerOptions }, [])
  | .file data mediaType filename providerOptions =>
    .ok (.file (filePart assets data mediaType filename providerOptions), [])
  | .fileData data mediaType filename providerOptions =>
    .ok (.file { data := .data (.base64 data), mediaType, filename, providerOptions }, deprecatedData "file-data")
  | .fileUrl given mediaType providerOptions => do
    let data ← normalizedUrl crate given
    let (mediaType, message) := fileUrlMediaType crate given mediaType
    .ok (.file { data, mediaType, providerOptions }, deprecated "file-url" message)
  | .fileId fileId providerOptions => do
    let reference ← fileIdReference provider fileId
    .ok (.file { data := .reference reference, mediaType := "application", providerOptions },
      deprecatedReference "file-id")
  | .fileReference reference providerOptions =>
    .ok (.file { data := .reference reference, mediaType := "application", providerOptions },
      deprecatedReference "file-reference")
  | .imageData data mediaType providerOptions =>
    .ok (.file { data := .data (.base64 data), mediaType, providerOptions }, deprecatedData "image-data")
  | .imageUrl given providerOptions => do
    let data ← normalizedUrl crate given
    .ok (.file { data, mediaType := "image", providerOptions },
      deprecated "image-url" ("The \"image-url\" type for tool result content is deprecated. Use the \"file\" " ++
        "type with mediaType 'image' (or a specific image/* subtype) and \x7b type: 'url', url \x7d instead."))
  | .imageFileId fileId providerOptions => do
    let reference ← fileIdReference provider fileId
    .ok (.file { data := .reference reference, mediaType := "image", providerOptions },
      deprecatedReference "image-file-id")
  | .imageFileReference reference providerOptions =>
    .ok (.file { data := .reference reference, mediaType := "image", providerOptions },
      deprecatedReference "image-file-reference")
  | .custom providerOptions => .ok (.custom providerOptions, [])

def toolResultOutput (provider : Option String) (assets : DownloadedAssets) :
    User.ToolResultOutput → Except AiMuxError (ToolResultOutput × List Warning)
  | .text value providerOptions => .ok (.text value providerOptions, [])
  | .json value providerOptions => .ok (.json value providerOptions, [])
  | .executionDenied reason providerOptions => .ok (.executionDenied reason providerOptions, [])
  | .errorText value providerOptions => .ok (.errorText value providerOptions, [])
  | .errorJson value providerOptions => .ok (.errorJson value providerOptions, [])
  | .content value => do
    let (value, warnings) ← convertAll (toolResultContent crate provider assets) value
    .ok (.content value none, warnings)

def toolResultPart (context : Context) (part : User.ToolResultPart) : Except AiMuxError (ToolResultPart × List Warning) :=
  match part.toolName <|> context.toolNames part.toolCallId with
  | none => .error (invalidPrompt
      ("tool result " ++ part.toolCallId ++ " has no tool name or preceding tool call"))
  | some toolName => do
    let (output, warnings) ← toolResultOutput crate context.provider context.assets part.output
    .ok ({ toolCallId := part.toolCallId, toolName, output, providerOptions := part.providerOptions }, warnings)

/-! ### The parts of an assistant -/

/-- Empty text parts without options and approval requests are not sent. -/
def isSent : User.AssistantContentPart → Bool
  | .text text none => text ≠ ""
  | .toolApprovalRequest .. => false
  | _ => true

def reasoningFileData : User.ReasoningFilePartData → User.FilePartData
  | .tagged (.data data) => .tagged (.data data)
  | .tagged (.url url originalUrl) => .tagged (.url url originalUrl)
  | .string text => .string text

def generatedFileData : FileData → Except AiMuxError GeneratedFileData
  | .data data => .ok (.data data)
  | .url url originalUrl => .ok (.url url originalUrl)
  | .reference _ | .text _ => .error (invalidPrompt "Unsupported reasoning-file data type")

def assistantPart (context : Context) : User.AssistantContentPart → Except AiMuxError (AssistantPart × List Warning)
  | .text text providerOptions => .ok (.text { text, providerOptions }, [])
  | .custom kind providerOptions => .ok (.custom { kind, providerOptions }, [])
  | .file data mediaType filename providerOptions => do
    let (data, dataUrlMediaType) ← convertFilePartData crate data
    .ok (.file { data, mediaType := dataUrlMediaType.getD mediaType, filename, providerOptions }, [])
  | .reasoning text providerOptions => .ok (.reasoning { text, providerOptions }, [])
  | .reasoningFile data mediaType providerOptions => do
    let (data, dataUrlMediaType) ← convertFilePartData crate (reasoningFileData data)
    let data ← generatedFileData data
    .ok (.reasoningFile { data, mediaType := dataUrlMediaType.getD mediaType, providerOptions }, [])
  | .toolCall toolCallId toolName input providerExecuted providerOptions =>
    .ok (.toolCall { toolCallId, toolName, input, providerExecuted, providerOptions }, [])
  | .toolResult result => do
    let (part, warnings) ← toolResultPart crate context result
    .ok (.toolResult part, warnings)
  -- not sent, so never reached
  | .toolApprovalRequest .. => .error (.other
      "internal error: entered unreachable code: tool approval requests are filtered out before conversion" none)

/-! ## Messages -/

def isEmptyText : UserPart → Bool
  | .text part => part.text = ""
  | .file _ => false

/-- Of the approvals, only those of tools that the provider executes. -/
def toolPart (context : Context) : User.ToolContentPart → Option (Except AiMuxError (ToolPart × List Warning))
  | .toolResult result => some do
    let (part, warnings) ← toolResultPart crate context result
    .ok (.toolResult part, warnings)
  | .toolApprovalResponse approvalId approved reason providerExecuted =>
    if providerExecuted = some true then some (.ok (.toolApprovalResponse { approvalId, approved, reason }, []))
    else none

def convertMessage (context : Context) : User.ModelMessage → Except AiMuxError (LanguageModelMessage × List Warning)
  | .system content providerOptions => .ok (.system content providerOptions, [])
  | .user (.text text) providerOptions => .ok (.user [.text { text }] providerOptions, [])
  | .user (.parts parts) providerOptions => do
    let (content, warnings) ← convertAll (userPart crate context.assets) parts
    .ok (.user (content.filter fun part => !isEmptyText part) providerOptions, warnings)
  | .assistant (.text text) providerOptions => .ok (.assistant [.text { text }] providerOptions, [])
  | .assistant (.parts parts) providerOptions => do
    let (content, warnings) ← convertAll (assistantPart crate context) (parts.filter isSent)
    .ok (.assistant content providerOptions, warnings)
  | .tool content providerOptions => do
    let (content, warnings) ← convertAll id (content.filterMap (toolPart crate context))
    .ok (.tool content providerOptions, warnings)

end

/-- `tool_names.insert`, for the calls of a message. -/
def noteToolNames (toolNames : String → Option String) : User.ModelMessage → String → Option String
  | .assistant (.parts parts) _ => parts.foldl (fun toolNames part => match part with
      | .toolCall toolCallId toolName _ _ _ => Function.update toolNames toolCallId (some toolName)
      | _ => toolNames) toolNames
  | _ => toolNames

def ToolPart.mergeOptions (options : Option ProviderOptions) : ToolPart → ToolPart
  | .toolResult part =>
    .toolResult { part with providerOptions := mergeObjects options part.providerOptions }
  | .toolApprovalResponse part =>
    .toolApprovalResponse { part with providerOptions := mergeObjects options part.providerOptions }

/-- The options of a message, left to its last part. -/
def settleOptions (content : List ToolPart) : Option ProviderOptions → List ToolPart
  | some options => content.modifyLast (ToolPart.mergeOptions (some options))
  | none => content

def pushCombiningToolMessages (messages : List LanguageModelMessage) (message : LanguageModelMessage) :
    List LanguageModelMessage :=
  match messages.getLast?, message with
  | some (.tool lastContent lastOptions), .tool content providerOptions =>
    messages.dropLast ++ [.tool (settleOptions lastContent lastOptions ++ content) providerOptions]
  | _, _ => messages ++ [message]

/-! ## Tool calls without results -/

/-- The tool call of an approval, as the last request for it names it. -/
def approvalRequests (messages : List User.ModelMessage) : String → Option String :=
  messages.foldl (fun toolCallIds message => match message with
    | .assistant (.parts parts) _ => parts.foldl (fun toolCallIds part => match part with
        | .toolApprovalRequest approvalId toolCallId => Function.update toolCallIds approvalId (some toolCallId)
        | _ => toolCallIds) toolCallIds
    | _ => toolCallIds) fun _ => none

/-- The tool calls that have an approval response, approved or not. -/
def approvedToolCallIds (messages : List User.ModelMessage) : List String :=
  messages.flatMap fun
    | .tool content _ => content.filterMap fun
      | .toolApprovalResponse approvalId _ _ _ => approvalRequests messages approvalId
      | .toolResult _ => none
    | _ => []

def noteCall (waiting : List String) : AssistantPart → List String
  | .toolCall call =>
    if call.providerExecuted = some true ∨ call.toolCallId ∈ waiting then waiting else waiting ++ [call.toolCallId]
  | _ => waiting

def noteResult (waiting : List String) : ToolPart → List String
  | .toolResult result => waiting.erase result.toolCallId
  | .toolApprovalResponse _ => waiting

def checkWaiting (approved waiting : List String) : Except AiMuxError (List String) :=
  let waiting := waiting.filter (· ∉ approved)
  if waiting = [] then .ok [] else .error (.missingToolResults waiting)

def checkMessage (approved waiting : List String) : LanguageModelMessage → Except AiMuxError (List String)
  | .assistant content _ => .ok (content.foldl noteCall waiting)
  | .tool content _ => .ok (content.foldl noteResult waiting)
  | .user .. | .system .. => checkWaiting approved waiting

def checkToolResults (messages : List LanguageModelMessage) (approved : List String) : Except AiMuxError Unit := do
  let waiting ← messages.foldlM (checkMessage approved) []
  let _ ← checkWaiting approved waiting

/-! ## Prompts -/

def isEmptyTool : LanguageModelMessage → Bool
  | .tool content _ => content.isEmpty
  | _ => false

section

variable {Url : Type} (crate : UrlCrate Url) (provider : Option String) (assets : DownloadedAssets)

def convertMessages : List User.ModelMessage → (String → Option String) → List LanguageModelMessage →
    Except AiMuxError (List LanguageModelMessage × List Warning)
  | [], _, result => .ok (result, [])
  | message :: rest, toolNames, result => do
    let toolNames := noteToolNames toolNames message
    let (converted, warnings) ← convertMessage crate { toolNames, provider, assets } message
    let (result, more) ← convertMessages rest toolNames (pushCombiningToolMessages result converted)
    .ok (result, warnings ++ more)

/-- The instructions become the leading message. -/
def leading : Option String → List LanguageModelMessage
  | some instructions => [.system instructions none]
  | none => []

def convertWithWarnings (messages : List User.ModelMessage) (instructions : Option String) :
    Except AiMuxError (LanguageModelPrompt × List Warning) := do
  let (result, warnings) ← convertMessages crate provider assets messages (fun _ => none) (leading instructions)
  checkToolResults result (approvedToolCallIds messages)
  .ok (result.filter fun message => !isEmptyTool message, warnings)

def convertWithDownloadedAssets (messages : List User.ModelMessage) (instructions : Option String) :
    Except AiMuxError LanguageModelPrompt :=
  (convertWithWarnings crate provider assets messages instructions).map (·.1)

end

def convertToLanguageModelPrompt {Url : Type} (crate : UrlCrate Url) (messages : List User.ModelMessage)
    (instructions provider : Option String) : Except AiMuxError LanguageModelPrompt :=
  convertWithDownloadedAssets crate provider (fun _ => none) messages instructions

end Aimux.Prompt
