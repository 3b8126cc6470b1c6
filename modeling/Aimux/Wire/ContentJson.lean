import Aimux.Prompt.Equality

/-! # The JSON form of generated content

`GenerateContent` of `result.rs` as serde writes and reads it. A field that is absent or null is read as
absent where it is optional; fields that no reader asks for are passed over. The array form of a record,
which nothing writes, is left out.
-/

namespace Aimux.Wire

open Aimux.Core Aimux.Prompt

/-! ## Fields -/

def required {α : Type} (read : Json → Option α) (fields : List (String × Json)) (key : String) : Option α :=
  (fields.lookup key).bind read

def readOptional {α : Type} (read : Json → Option α) : Option Json → Option (Option α)
  | none => some none
  | some .null => some none
  | some value => (read value).map some

/-- `#[serde(default)]` of an `Option` -/
def optional {α : Type} (read : Json → Option α) (fields : List (String × Json)) (key : String) :
    Option (Option α) :=
  readOptional read (fields.lookup key)

def readList {α : Type} (read : Json → Option α) (value : Json) : Option (List α) :=
  (asArray value).bind fun items => items.mapM read

/-- The entries of a map whose values are read one by one. -/
def readEntries {α : Type} (read : Json → Option α) (value : Json) : Option (List (String × α)) :=
  (asObject value).bind fun fields => fields.mapM fun field => (read field.2).map fun held => (field.1, held)

/-- A map of objects. -/
def readMetadata (value : Json) : Option ProviderMetadata :=
  readEntries (fun held => (asObject held).map .object) value

def metadataField (metadata : Option ProviderMetadata) : List (String × Json) :=
  optionalField "providerMetadata" metadata .object

/-! ## Writing -/

section

variable (encodeBase64 : List UInt8 → String)

def fileFields (file : LanguageModelFile) : List (String × Json) :=
  [("data", generatedFileDataValue encodeBase64 file.data), ("mediaType", .string file.mediaType)] ++
    metadataField file.providerMetadata

def sourceFields : Source → List (String × Json)
  | .url id url title providerMetadata =>
    [("sourceType", .string "url"), ("id", .string id), ("url", .string url)] ++
      optionalField "title" title .string ++ metadataField providerMetadata
  | .document id mediaType title filename providerMetadata =>
    [("sourceType", .string "document"), ("id", .string id), ("mediaType", .string mediaType),
      ("title", .string title)] ++ optionalField "filename" filename .string ++ metadataField providerMetadata

def toolCallFields (call : RawToolCall) : List (String × Json) :=
  [("toolCallId", Json.string call.toolCallId), ("toolName", .string call.toolName), ("input", .string call.input)] ++
    optionalField "providerExecuted" call.providerExecuted .bool ++ optionalField "dynamic" call.dynamic .bool ++
    metadataField call.providerMetadata

def approvalRequestFields (request : RawToolApprovalRequest) : List (String × Json) :=
  [("approvalId", Json.string request.approvalId), ("toolCallId", .string request.toolCallId)] ++
    metadataField request.providerMetadata

def toolResultFields (result : ToolResult) : List (String × Json) :=
  [("toolCallId", .string result.toolCallId), ("toolName", .string result.toolName), ("result", result.result)] ++
    optionalField "isError" result.isError .bool ++ optionalField "preliminary" result.preliminary .bool ++
    optionalField "dynamic" result.dynamic .bool ++ metadataField result.providerMetadata

def writeContent : GenerateContent → Json
  | .text text providerMetadata => tagged "text" (("text", .string text) :: metadataField providerMetadata)
  | .toolCall call => tagged "tool-call" (toolCallFields call)
  | .source source => tagged "source" (sourceFields source)
  | .reasoning reasoning =>
    tagged "reasoning" (("text", .string reasoning.text) :: metadataField reasoning.providerMetadata)
  | .file file => tagged "file" (fileFields encodeBase64 file)
  | .reasoningFile file => tagged "reasoning-file" (fileFields encodeBase64 file)
  | .custom kind providerMetadata => tagged "custom" (("kind", .string kind.value) :: metadataField providerMetadata)
  | .toolApprovalRequest request => tagged "tool-approval-request" (approvalRequestFields request)
  | .toolResult result => tagged "tool-result" (toolResultFields result)

end

/-! ## Reading -/

/-- Bytes are read as the base64 text of them. -/
def readBytes (value : Json) : Option FileBytes := (asStr value).map .base64

def readFileData : Json → Option GeneratedFileData
  | .object fields => do
    match ← required asStr fields "type" with
    | "data" => return .data (← required readBytes fields "data")
    | "url" => return .url (← required asStr fields "url") (← optional asStr fields "originalUrl")
    | _ => none
  | _ => none

def readFile (fields : List (String × Json)) : Option LanguageModelFile := do
  return {
    data := ← required readFileData fields "data"
    mediaType := ← required asStr fields "mediaType"
    providerMetadata := ← optional readMetadata fields "providerMetadata" }

def readSourceContent (fields : List (String × Json)) : Option Source := do
  match ← required asStr fields "sourceType" with
  | "url" =>
    return .url (← required asStr fields "id") (← required asStr fields "url") (← optional asStr fields "title")
      (← optional readMetadata fields "providerMetadata")
  | "document" =>
    return .document (← required asStr fields "id") (← required asStr fields "mediaType")
      (← required asStr fields "title") (← optional asStr fields "filename")
      (← optional readMetadata fields "providerMetadata")
  | _ => none

def readToolCall (fields : List (String × Json)) : Option RawToolCall := do
  return {
    toolCallId := ← required asStr fields "toolCallId"
    toolName := ← required asStr fields "toolName"
    input := ← required asStr fields "input"
    providerExecuted := ← optional asBool fields "providerExecuted"
    dynamic := ← optional asBool fields "dynamic"
    providerMetadata := ← optional readMetadata fields "providerMetadata" }

def readKind (value : Json) : Option NamespacedKind :=
  (asStr value).bind fun text => if h : '.' ∈ text.toList then some ⟨text, h⟩ else none

def readApprovalRequest (fields : List (String × Json)) : Option RawToolApprovalRequest := do
  return {
    approvalId := ← required asStr fields "approvalId"
    toolCallId := ← required asStr fields "toolCallId"
    providerMetadata := ← optional readMetadata fields "providerMetadata" }

def nonNullJson : Json → Option Json
  | .null => none
  | value => some value

def readToolResult (fields : List (String × Json)) : Option ToolResult := do
  return {
    toolCallId := ← required asStr fields "toolCallId"
    toolName := ← required asStr fields "toolName"
    result := ← required nonNullJson fields "result"
    isError := ← optional asBool fields "isError"
    preliminary := ← optional asBool fields "preliminary"
    dynamic := ← optional asBool fields "dynamic"
    providerMetadata := ← optional readMetadata fields "providerMetadata" }

def readContent : Json → Option GenerateContent
  | .object fields => do
    match ← required asStr fields "type" with
    | "text" => return .text (← required asStr fields "text") (← optional readMetadata fields "providerMetadata")
    | "tool-call" => return .toolCall (← readToolCall fields)
    | "source" => return .source (← readSourceContent fields)
    | "reasoning" =>
      return .reasoning {
        text := ← required asStr fields "text"
        providerMetadata := ← optional readMetadata fields "providerMetadata" }
    | "file" => return .file (← readFile fields)
    | "reasoning-file" => return .reasoningFile (← readFile fields)
    | "custom" =>
      return .custom (← required readKind fields "kind") (← optional readMetadata fields "providerMetadata")
    | "tool-approval-request" => return .toolApprovalRequest (← readApprovalRequest fields)
    | "tool-result" => return .toolResult (← readToolResult fields)
    | _ => none
  | _ => none

/-! ## What is read back -/

/-- Bytes in the form that is read: as base64. -/
def toBase64 (encodeBase64 : List UInt8 → String) : FileBytes → FileBytes
  | .binary bytes => .base64 (encodeBase64 bytes)
  | .base64 text => .base64 text

section

variable (change : FileBytes → FileBytes)

def mapFileData : GeneratedFileData → GeneratedFileData
  | .data bytes => .data (change bytes)
  | .url url originalUrl => .url url originalUrl

def mapFile (file : LanguageModelFile) : LanguageModelFile := { file with data := mapFileData change file.data }

/-- Content with its binary data changed. -/
def mapContent : GenerateContent → GenerateContent
  | .file file => .file (mapFile change file)
  | .reasoningFile file => .reasoningFile (mapFile change file)
  | content => content

end

def metadataOf : GenerateContent → Option ProviderMetadata
  | .text _ providerMetadata => providerMetadata
  | .toolCall call => call.providerMetadata
  | .source (.url _ _ _ providerMetadata) => providerMetadata
  | .source (.document _ _ _ _ providerMetadata) => providerMetadata
  | .reasoning reasoning => reasoning.providerMetadata
  | .file file => file.providerMetadata
  | .reasoningFile file => file.providerMetadata
  | .custom _ providerMetadata => providerMetadata
  | .toolApprovalRequest request => request.providerMetadata
  | .toolResult result => result.providerMetadata

/-- The type of provider metadata: each namespace is an object. -/
def TypedMetadata (metadata : Option ProviderMetadata) : Prop :=
  ∀ held, metadata = some held → ∀ entry ∈ held, ∃ fields, entry.2 = .object fields

def hasNullResult : GenerateContent → Bool
  | .toolResult { result := .null, .. } => true
  | _ => false

@[simp] theorem readOptional_string (value : Option String) : readOptional asStr (value.map .string) = some value := by
  cases value <;> rfl

@[simp] theorem readOptional_bool (value : Option Bool) : readOptional asBool (value.map .bool) = some value := by
  cases value <;> rfl

theorem mapM_map_eq_some {α β γ : Type} (write : α → β) (read : β → Option γ) (back : α → γ) (items : List α)
    (h : ∀ item ∈ items, read (write item) = some (back item)) :
    (items.map write).mapM read = some (items.map back) := by
  induction items with
  | nil => rfl
  | cons item items ih =>
    rw [List.map_cons, List.mapM_cons, h item List.mem_cons_self, ih fun other hMem => h other (List.mem_cons_of_mem _ hMem)]
    rfl

theorem mapM_eq_none {β γ : Type} {read : β → Option γ} {items : List β} {item : β} (hMem : item ∈ items)
    (h : read item = none) : items.mapM read = none := by
  induction items with
  | nil => cases hMem
  | cons first items ih =>
    rw [List.mapM_cons]
    rcases List.mem_cons.mp hMem with rfl | hMem
    · rw [h]
      rfl
    · rw [ih hMem]
      cases read first <;> rfl

@[simp] theorem readList_strings (items : List String) : readList asStr (.array (items.map .string)) = some items := by
  have hItems := mapM_map_eq_some Json.string asStr id items fun _ _ => rfl
  simpa [readList, asArray] using hItems

theorem readOptional_metadata {metadata : Option ProviderMetadata} (hTyped : TypedMetadata metadata) :
    readOptional readMetadata (metadata.map .object) = some metadata := by
  cases metadata with
  | none => rfl
  | some held =>
    have hRead := mapM_map_eq_some id
      (fun field => ((asObject field.2).map Json.object).map fun value => (field.1, value)) id held
      fun entry hMem => by
        obtain ⟨name, value⟩ := entry
        obtain ⟨fields, rfl⟩ := hTyped held rfl _ hMem
        rfl
    rw [List.map_id] at hRead
    exact congrArg (Option.map some) hRead

theorem readFileData_write (encodeBase64 : List UInt8 → String) (data : GeneratedFileData) :
    readFileData (generatedFileDataValue encodeBase64 data) = some (mapFileData (toBase64 encodeBase64) data) := by
  cases data with
  | data bytes =>
    cases bytes <;> simp [generatedFileDataValue, tagged, readFileData, required, List.lookup_cons, asStr, readBytes,
      bytesValue, mapFileData, toBase64]
  | url url originalUrl =>
    simp [generatedFileDataValue, tagged, urlFields, readFileData, required, optional, List.lookup_cons, asStr,
      lookup_optionalField, mapFileData]

section

variable (encodeBase64 : List UInt8 → String) (tag : Json)

theorem readFile_fields {file : LanguageModelFile} (hTyped : TypedMetadata file.providerMetadata) :
    readFile (("type", tag) :: fileFields encodeBase64 file) = some (mapFile (toBase64 encodeBase64) file) := by
  have hMetadata := readOptional_metadata hTyped
  simp_all [fileFields, readFile, required, optional, List.lookup_cons, metadataField, lookup_optionalField, asStr,
    readFileData_write, mapFile]

theorem readSourceContent_fields {source : Source} (hTyped : TypedMetadata (metadataOf (.source source))) :
    readSourceContent (("type", tag) :: sourceFields source) = some source := by
  have hMetadata := readOptional_metadata hTyped
  cases source with
  | url id url title providerMetadata =>
    simp_all [sourceFields, readSourceContent, required, optional, List.lookup_cons, List.lookup_append, metadataField,
      lookup_optionalField, asStr, metadataOf]
  | document id mediaType title filename providerMetadata =>
    simp_all [sourceFields, readSourceContent, required, optional, List.lookup_cons, List.lookup_append, metadataField,
      lookup_optionalField, asStr, metadataOf]

theorem readToolCall_fields {call : RawToolCall} (hTyped : TypedMetadata call.providerMetadata) :
    readToolCall (("type", tag) :: toolCallFields call) = some call := by
  have hMetadata := readOptional_metadata hTyped
  simp_all [toolCallFields, readToolCall, required, optional, List.lookup_cons, List.lookup_append, metadataField,
    lookup_optionalField, asStr]

theorem readApprovalRequest_fields {request : RawToolApprovalRequest} (hTyped : TypedMetadata request.providerMetadata) :
    readApprovalRequest (("type", tag) :: approvalRequestFields request) = some request := by
  have hMetadata := readOptional_metadata hTyped
  simp_all [approvalRequestFields, readApprovalRequest, required, optional, List.lookup_cons, metadataField,
    lookup_optionalField, asStr]

theorem readKind_value (kind : NamespacedKind) : readKind (.string kind.value) = some kind := by
  simp [readKind, asStr, kind.dotted]

theorem readToolResult_fields {result : ToolResult} (hTyped : TypedMetadata result.providerMetadata) :
    readToolResult (("type", tag) :: toolResultFields result) =
      (nonNullJson result.result).map fun _ => result := by
  have hMetadata := readOptional_metadata hTyped
  obtain ⟨toolCallId, toolName, held, isError, preliminary, dynamic, providerMetadata⟩ := result
  cases held <;> simp_all [toolResultFields, readToolResult, required, optional, List.lookup_cons, List.lookup_append,
    metadataField, lookup_optionalField, asStr, nonNullJson]

/-- Content is read back, unless a result in it is null. -/
theorem readContent_write {content : GenerateContent} (hTyped : TypedMetadata (metadataOf content)) :
    readContent (writeContent encodeBase64 content) =
      if hasNullResult content then none else some (mapContent (toBase64 encodeBase64) content) := by
  have hMetadata := readOptional_metadata hTyped
  have hTag (name : String) (fields : List (String × Json)) :
      required asStr (("type", .string name) :: fields) "type" = some name := rfl
  cases content with
  | text text providerMetadata =>
    simp_all [writeContent, tagged, readContent, required, optional, List.lookup_cons, metadataField,
      lookup_optionalField, asStr, metadataOf, hasNullResult, mapContent]
  | reasoning reasoning =>
    simp_all [writeContent, tagged, readContent, required, optional, List.lookup_cons, metadataField,
      lookup_optionalField, asStr, metadataOf, hasNullResult, mapContent]
  | custom kind providerMetadata =>
    simp_all [writeContent, tagged, readContent, required, optional, List.lookup_cons, metadataField,
      lookup_optionalField, asStr, metadataOf, hasNullResult, mapContent, readKind_value]
  | toolCall call => simp [writeContent, tagged, readContent, hTag, readToolCall_fields _ hTyped, hasNullResult, mapContent]
  | source source =>
    simp [writeContent, tagged, readContent, hTag, readSourceContent_fields _ hTyped, hasNullResult, mapContent]
  | file file => simp [writeContent, tagged, readContent, hTag, readFile_fields _ _ hTyped, hasNullResult, mapContent]
  | reasoningFile file =>
    simp [writeContent, tagged, readContent, hTag, readFile_fields _ _ hTyped, hasNullResult, mapContent]
  | toolApprovalRequest request =>
    simp [writeContent, tagged, readContent, hTag, readApprovalRequest_fields _ hTyped, hasNullResult, mapContent]
  | toolResult result =>
    obtain ⟨toolCallId, toolName, held, isError, preliminary, dynamic, providerMetadata⟩ := result
    cases held <;>
      simp [writeContent, tagged, readContent, hTag, readToolResult_fields _ hTyped, hasNullResult, mapContent, nonNullJson]

end

end Aimux.Wire
