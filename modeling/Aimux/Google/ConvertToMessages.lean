import Aimux.Google.LanguageModel
import Aimux.Prompt.Conversion

/-! # The assistant's messages of a request

`convert_to_messages.rs`: the parts of an assistant message as parts of a `model` content, and what a caller
sends back of a content that was received.
-/

namespace Aimux.Google

open Aimux.Core
open Aimux.Prompt (AssistantPart FileData FilePart ProviderOptions isFullMediaType)

/-- What other libraries do. -/
structure Crates where
  /-- `serde_json::from_str` -/
  readJson : String → Option Json
  encodeBase64 : List UInt8 → String
  /-- The media type that the data shows itself to be of, within the top level. -/
  detectMediaType : FileBytes → String → Option String

/-- `IndexMut` on an object: a new key comes last. -/
def setField (value : Json) (key : String) (field : Json) : Json :=
  match value with
  | .object fields =>
    if fields.any (·.1 = key) then .object (fields.map fun entry => if entry.1 = key then (key, field) else entry)
    else .object (fields ++ [(key, field)])
  | value => value

def Namespace.readKeys : Namespace → List String
  | .google => ["google", "googleVertex", "vertex"]
  | .vertex => ["googleVertex", "vertex", "google"]

/-- The first options object that is present. -/
def Namespace.readPart (self : Namespace) (options : Option ProviderOptions) : Option (List (String × Json)) :=
  options.bind fun options => self.readKeys.findSome? (options.namespaces.lookup ·)

def optionStr (options : Option (List (String × Json))) (key : String) : Option String :=
  (options.bind (·.lookup key)).bind asStr

variable (crates : Crates)

def Crates.convertToBase64 : FileBytes → String
  | .base64 data => data
  | .binary bytes => crates.encodeBase64 bytes

/-- `resolve_full_media_type`, or the media type as it is. -/
def Crates.fullMediaType (file : FilePart) : String :=
  if isFullMediaType file.mediaType then file.mediaType
  else match file.data with
    | .data data =>
      (crates.detectMediaType data (String.ofList (file.mediaType.toList.takeWhile (· ≠ '/')))).getD file.mediaType
    | _ => file.mediaType

def inlineData (mediaType data : String) : Json :=
  .object [("inlineData", .object [("mimeType", .string mediaType), ("data", .string data)])]

def fileData (mediaType : String) (uri : Json) : Json :=
  .object [("fileData", .object [("mimeType", .string mediaType), ("fileUri", uri)])]

def convertFilePart (file : FilePart) : Json :=
  match file.data with
  | .data data => inlineData (crates.fullMediaType file) (crates.convertToBase64 data)
  | .text text =>
    inlineData (if isFullMediaType file.mediaType then file.mediaType else "text/plain")
      (crates.encodeBase64 text.toUTF8.data.toList)
  | .url url originalUrl =>
    fileData (crates.fullMediaType file)
      (.string (if "gs:".toList <+: url.toList then originalUrl.getD url else url))
  | .reference reference =>
    fileData (crates.fullMediaType file) (((reference.lookup "google").map Json.string).getD .null)

def signed (value : Json) (signature : Option Json) : Json :=
  match signature with
  | some signature => setField value "thoughtSignature" signature
  | none => value

def serverCall (serverId serverType : String) (args : Json) : Json :=
  if serverType = "code_execution" then .object [("executableCode", args)]
  else .object [("toolCall", .object [("toolType", .string serverType), ("args", args), ("id", .string serverId)])]

def serverResponse (serverId serverType : String) (result : Json) : Json :=
  if serverType = "code_execution" then .object [("codeExecutionResult", result)]
  else .object [("toolResponse", .object [("toolType", .string serverType), ("response", result),
    ("id", .string serverId)])]

/-- The public API is given the id of a call. -/
def functionCallPart (nameSpace : Namespace) (toolCallId toolName : String) (input : Json) : Json :=
  .object [("functionCall", .object (
    (if nameSpace = .google ∧ toolCallId ≠ "" then [("id", Json.string toolCallId)] else []) ++
      [("name", .string toolName), ("args", input)]))]

/-- The input of a provider's call, which may be text. -/
def readInput (input : Json) : Option Json :=
  match input with
  | .string raw => crates.readJson raw
  | input => some input

def jsonOutput : Prompt.ToolResultOutput → Option Json
  | .json value _ => some value
  | _ => none

def convertAssistantPart (nameSpace : Namespace) : AssistantPart → Option Json
  | .text part =>
    let signature := optionStr (nameSpace.readPart part.providerOptions) "thoughtSignature"
    -- an empty part that carries a signature is replayed
    if part.text ≠ "" ∨ signature.isSome then
      some (signed (.object [("text", .string part.text)]) (signature.map Json.string))
    else none
  | .reasoning part =>
    if part.text ≠ "" then
      some (signed (.object [("text", .string part.text), ("thought", .bool true)])
        ((optionStr (nameSpace.readPart part.providerOptions) "thoughtSignature").map Json.string))
    else none
  | .toolCall part =>
    if part.providerExecuted = some true ∧ part.toolName = "code_execution" then
      some (.object [("executableCode", (readInput crates part.input).getD .null)])
    else
      let options := nameSpace.readPart part.providerOptions
      let value := match optionStr options "serverToolCallId", optionStr options "serverToolType" with
        | some serverId, some serverType => serverCall serverId serverType ((readInput crates part.input).getD part.input)
        | _, _ => functionCallPart nameSpace part.toolCallId part.toolName part.input
      some (signed value ((optionStr options "thoughtSignature").map Json.string))
  | .toolResult part =>
    let result := (jsonOutput part.output).getD (.object [])
    if part.toolName = "code_execution" ∧ (jsonOutput part.output).isSome then
      some (.object [("codeExecutionResult", result)])
    else
      let options := nameSpace.readPart part.providerOptions
      match optionStr options "serverToolCallId", optionStr options "serverToolType" with
      | some serverId, some serverType => some (signed (serverResponse serverId serverType result)
          ((optionStr options "thoughtSignature").map Json.string))
      | _, _ => none
  | .reasoningFile part =>
    match part.data with
    | .data data =>
      some (signed (setField (inlineData part.mediaType (crates.convertToBase64 data)) "thought" (.bool true))
        ((nameSpace.readPart part.providerOptions).bind (·.lookup "thoughtSignature")))
    | .url _ _ => none
  | .custom _ => none
  | .file part =>
    let value := convertFilePart crates part
    match nameSpace.readPart part.providerOptions with
    | some options =>
      let value := match options.lookup "thought" with
        | some (.bool true) => setField value "thought" (.bool true)
        | _ => value
      some (signed value (options.lookup "thoughtSignature"))
    | none => some value

/-- `convert_assistant_parts` -/
def convertAssistantParts (nameSpace : Namespace) (content : List AssistantPart) :
    List Json :=
  content.filterMap (convertAssistantPart crates nameSpace)

/-! ## What is sent back -/

/-- Metadata and options are one type in the source. -/
def asOptions (metadata : ProviderMetadata) : ProviderOptions where
  namespaces := metadata.filterMap fun entry => (asObject entry.2).map (entry.1, ·)

def asFileData : GeneratedFileData → FileData
  | .data data => .data data
  | .url url originalUrl => .url url originalUrl

/-- `ToolResultOutput::from_result` -/
def outputOf : Json → Prompt.ToolResultOutput
  | .string value => .text value none
  | value => .json value none

/-- The received content as a part of an assistant message, its metadata as options. The response messages that are
built from a content have no empty texts. -/
def sendBack (keepsEmpty : Bool) : GenerateContent → Option AssistantPart
  | .text text metadata =>
    if text = "" ∧ keepsEmpty = false then none
    else some (.text { text, providerOptions := metadata.map asOptions })
  | .reasoning reasoning =>
    some (.reasoning { text := reasoning.text, providerOptions := reasoning.providerMetadata.map asOptions })
  | .file file => some (.file {
      data := asFileData file.data
      mediaType := file.mediaType
      providerOptions := file.providerMetadata.map asOptions })
  | .reasoningFile file => some (.reasoningFile {
      data := file.data
      mediaType := file.mediaType
      providerOptions := file.providerMetadata.map asOptions })
  | .toolCall call => some (.toolCall {
      toolCallId := call.toolCallId
      toolName := call.toolName
      input := (crates.readJson call.input).getD (.string call.input)
      providerExecuted := call.providerExecuted
      providerOptions := call.providerMetadata.map asOptions })
  | .toolResult result => some (.toolResult {
      toolCallId := result.toolCallId
      toolName := result.toolName
      output := outputOf result.result
      providerOptions := result.providerMetadata.map asOptions })
  | .source _ | .custom .. | .toolApprovalRequest _ => none

/-- The `model` parts of the next request. -/
def nextRequest (nameSpace : Namespace) (keepsEmpty : Bool) (content : List GenerateContent) : List Json :=
  convertAssistantParts crates nameSpace (content.filterMap (sendBack crates keepsEmpty))

def Occurs (signature : String) (request : List Json) : Prop :=
  ∃ part ∈ request, getStr part "thoughtSignature" = some signature

instance (signature : String) (request : List Json) : Decidable (Occurs signature request) :=
  inferInstanceAs (Decidable (∃ part ∈ request, _))

/-- What is made of the item has the signature. -/
def Carries (nameSpace : Namespace) (keepsEmpty : Bool) (signature : String) (piece : GenerateContent) : Prop :=
  ∃ sent part, sendBack crates keepsEmpty piece = some sent ∧
    convertAssistantPart crates nameSpace sent = some part ∧ getStr part "thoughtSignature" = some signature

variable {crates} {nameSpace : Namespace} {keepsEmpty : Bool} {signature : String}

theorem Carries.occurs {piece : GenerateContent} (h : Carries crates nameSpace keepsEmpty signature piece)
    {content : List GenerateContent} (hPiece : piece ∈ content) :
    Occurs signature (nextRequest crates nameSpace keepsEmpty content) := by
  obtain ⟨sent, part, hSent, hPart, hSignature⟩ := h
  exact ⟨part, List.mem_filterMap.mpr ⟨sent, List.mem_filterMap.mpr ⟨piece, hPiece, hSent⟩, hPart⟩, hSignature⟩

/-! ### The items that carry a signature -/

/-- As it is received. -/
def signatureMetadata (nameSpace : Namespace) (signature : String) : ProviderMetadata :=
  nameSpace.metadata (.object [("thoughtSignature", .string signature)])

theorem readPart_metadata (nameSpace : Namespace) (fields : List (String × Json)) :
    nameSpace.readPart (some (asOptions (nameSpace.metadata (.object fields)))) = some fields := by
  cases nameSpace <;> rfl

theorem optionStr_metadata (nameSpace : Namespace) (signature : String) :
    optionStr (nameSpace.readPart (some (asOptions (signatureMetadata nameSpace signature)))) "thoughtSignature" =
      some signature := by
  rw [signatureMetadata, readPart_metadata]
  rfl

theorem setField_new {fields : List (String × Json)} {key : String} (hNew : ∀ entry ∈ fields, entry.1 ≠ key)
    (field : Json) : setField (.object fields) key field = .object (fields ++ [(key, field)]) := by
  rw [setField, if_neg]
  intro hAny
  obtain ⟨entry, hEntry, hKey⟩ := List.any_eq_true.mp hAny
  exact hNew entry hEntry (by simpa using hKey)

theorem getStr_signed (fields : List (String × Json)) (signature : String)
    (hNew : ∀ entry ∈ fields, entry.1 ≠ "thoughtSignature") :
    getStr (signed (.object fields) (some (.string signature))) "thoughtSignature" = some signature := by
  rw [signed, setField_new hNew]
  have hNone : fields.lookup "thoughtSignature" = none := by
    rw [List.lookup_eq_none_iff]
    exact fun entry hEntry => by simpa using Ne.symm (hNew entry hEntry)
  simp [getStr, get, asObject, List.lookup_append, hNone, asStr]

theorem carries_text {text : String} (h : text ≠ "" ∨ keepsEmpty = true) :
    Carries crates nameSpace keepsEmpty signature (.text text (some (signatureMetadata nameSpace signature))) := by
  refine ⟨.text { text, providerOptions := _ }, _, if_neg ?_, ?_, getStr_signed [("text", .string text)] signature ?_⟩
  · rintro ⟨hEmpty, hDrops⟩
    rcases h with hText | hKeeps
    · exact hText hEmpty
    · rw [hKeeps] at hDrops
      cases hDrops
  · have hSignature := optionStr_metadata nameSpace signature
    refine (if_pos (.inr ?_)).trans ?_
    · exact congrArg (fun found => some (signed (.object [("text", .string text)]) (found.map Json.string))) hSignature
    · exact congrArg Option.isSome hSignature
  · simp

theorem carries_reasoning {text : String} (hText : text ≠ "") :
    Carries crates nameSpace keepsEmpty signature
      (.reasoning { text, providerMetadata := some (signatureMetadata nameSpace signature) }) := by
  refine ⟨_, _, rfl, ?_, getStr_signed [("text", .string text), ("thought", .bool true)] signature ?_⟩
  · refine (if_pos hText).trans ?_
    exact congrArg (fun found => some (signed (.object [("text", .string text), ("thought", .bool true)])
      (found.map Json.string))) (optionStr_metadata nameSpace signature)
  · simp

theorem carries_call {call : RawToolCall} (hName : call.providerExecuted = some true → call.toolName ≠ "code_execution")
    (hMetadata : call.providerMetadata = some (signatureMetadata nameSpace signature)) :
    Carries crates nameSpace keepsEmpty signature (.toolCall call) := by
  refine ⟨_, signed (functionCallPart nameSpace call.toolCallId call.toolName
    ((crates.readJson call.input).getD (.string call.input))) (some (.string signature)), rfl, ?_, ?_⟩
  · have hOther : ¬ (call.providerExecuted = some true ∧ call.toolName = "code_execution") := fun h => hName h.1 h.2
    refine (if_neg hOther).trans ?_
    simp only [hMetadata, Option.map_some, signatureMetadata, readPart_metadata]
    rfl
  · exact getStr_signed _ signature (by simp)

theorem serverOptions (nameSpace : Namespace) (settings : Settings) (id toolType : String) (hSigned : signature ≠ "")
    (hNameSpace : settings.nameSpace = nameSpace) :
    nameSpace.readPart (some (asOptions (serverToolMetadata settings id toolType (some signature)))) =
      some [("serverToolCallId", .string id), ("serverToolType", .string toolType),
        ("thoughtSignature", .string signature)] := by
  rw [serverToolMetadata, hNameSpace, readPart_metadata]
  simp [hSigned]

theorem carries_serverCall {call : RawToolCall} {settings : Settings} {id toolType : String}
    (hNameSpace : settings.nameSpace = nameSpace) (hName : call.toolName ≠ "code_execution") (hSigned : signature ≠ "")
    (hMetadata : call.providerMetadata = some (serverToolMetadata settings id toolType (some signature))) :
    Carries crates nameSpace keepsEmpty signature (.toolCall call) := by
  refine ⟨_, signed (serverCall id toolType ((readInput crates ((crates.readJson call.input).getD
    (.string call.input))).getD ((crates.readJson call.input).getD (.string call.input)))) (some (.string signature)),
    rfl, ?_, ?_⟩
  · have hOther : ¬ (call.providerExecuted = some true ∧ call.toolName = "code_execution") := fun h => hName h.2
    refine (if_neg hOther).trans ?_
    simp only [hMetadata, Option.map_some, serverOptions nameSpace settings id toolType hSigned hNameSpace]
    rfl
  · rw [serverCall]
    split
    · exact getStr_signed _ signature (by simp)
    · exact getStr_signed _ signature (by simp)

theorem carries_serverResponse {result : ToolResult} {settings : Settings} {id toolType : String}
    (hNameSpace : settings.nameSpace = nameSpace) (hName : result.toolName ≠ "code_execution")
    (hSigned : signature ≠ "")
    (hMetadata : result.providerMetadata = some (serverToolMetadata settings id toolType (some signature))) :
    Carries crates nameSpace keepsEmpty signature (.toolResult result) := by
  refine ⟨_, signed (serverResponse id toolType ((jsonOutput (outputOf result.result)).getD (.object [])))
    (some (.string signature)), rfl, ?_, ?_⟩
  · have hOther : ¬ (result.toolName = "code_execution" ∧ (jsonOutput (outputOf result.result)).isSome = true) :=
      fun h => hName h.1
    refine (if_neg hOther).trans ?_
    simp only [hMetadata, Option.map_some, serverOptions nameSpace settings id toolType hSigned hNameSpace]
    rfl
  · rw [serverResponse]
    split
    · exact getStr_signed _ signature (by simp)
    · exact getStr_signed _ signature (by simp)

theorem carries_file {file : LanguageModelFile} {data : FileBytes} (hData : file.data = .data data)
    (hMetadata : file.providerMetadata = some (signatureMetadata nameSpace signature)) :
    Carries crates nameSpace keepsEmpty signature (.file file) := by
  have hOptions : nameSpace.readPart (file.providerMetadata.map asOptions) =
      some [("thoughtSignature", .string signature)] := by
    rw [hMetadata]
    exact readPart_metadata nameSpace _
  refine ⟨_, signed (inlineData (crates.fullMediaType {
      data := .data data
      mediaType := file.mediaType
      providerOptions := file.providerMetadata.map asOptions }) (crates.convertToBase64 data))
    (some (.string signature)), rfl, ?_, getStr_signed _ signature (by simp)⟩
  simp only [convertAssistantPart, convertFilePart, hData, asFileData, hOptions]
  rfl

theorem carries_reasoningFile {file : LanguageModelFile} {data : FileBytes} (hData : file.data = .data data)
    (hMetadata : file.providerMetadata = some (signatureMetadata nameSpace signature)) :
    Carries crates nameSpace keepsEmpty signature (.reasoningFile file) := by
  refine ⟨_, signed (.object [("inlineData", .object [("mimeType", .string file.mediaType),
      ("data", .string (crates.convertToBase64 data))]), ("thought", .bool true)]) (some (.string signature)),
    rfl, ?_, getStr_signed _ signature (by simp)⟩
  simp only [convertAssistantPart, hData, hMetadata, Option.map_some, signatureMetadata, readPart_metadata]
  rfl

end Aimux.Google
