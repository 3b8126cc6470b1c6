import Aimux.Core.ToolCallParsing

/-! # Response messages

`response_messages.rs`: the step content, kept in provider order with streamed segments updated by
id, and the messages replayed to the model on the next turn.
-/

namespace Aimux.Core

inductive ContentPart where
  | text (text : String) (providerMetadata : Option ProviderMetadata)
  | custom (kind : NamespacedKind) (providerMetadata : Option ProviderMetadata)
  | reasoning (reasoning : ReasoningOutput)
  | reasoningFile (output : GeneratedFileOutput)
  | source (source : Source)
  | file (file : GeneratedFile) (providerMetadata : Option ProviderMetadata)
  | toolCall (call : ToolCall)
  | toolResult (result : TypedToolResult)
  | toolError (error : TypedToolError)
  | toolApprovalRequest (request : ToolApprovalRequestOutput)
  | toolApprovalResponse (response : ToolApprovalResponseOutput)

inductive ToolResultOutput where
  | text (value : String)
  | json (value : Json)
  | executionDenied (reason : Option String)
  | errorText (value : String)
  | errorJson (value : Json)

structure ToolResultPart where
  toolCallId : String
  toolName : Option String
  output : ToolResultOutput
  providerOptions : Option ProviderMetadata

inductive AssistantContentPart where
  | text (text : String) (providerOptions : Option ProviderMetadata)
  | custom (kind : NamespacedKind) (providerOptions : Option ProviderMetadata)
  | file (data mediaType : String) (filename : Option String) (providerOptions : Option ProviderMetadata)
  | reasoning (text : String) (providerOptions : Option ProviderMetadata)
  | reasoningFile (data mediaType : String) (providerOptions : Option ProviderMetadata)
  | toolCall (toolCallId toolName : String) (input : Json) (providerExecuted : Option Bool)
      (providerOptions : Option ProviderMetadata)
  | toolResult (result : ToolResultPart)
  | toolApprovalRequest (approvalId toolCallId : String) (reason : Option String)
      (isAutomatic : Option Bool) (signature : Option String) (inputSchemaInput : Option Json)

inductive ToolContentPart where
  | toolResult (result : ToolResultPart)
  | toolApprovalResponse (approvalId : String) (approved : Bool) (reason : Option String)
      (providerExecuted : Option Bool)

inductive ModelMessage where
  | assistantParts (parts : List AssistantContentPart)
  | tool (content : List ToolContentPart)

def ToolResultOutput.fromResult (libraries : Libraries) : Json → Bool → ToolResultOutput
  | .null, true => .errorText "unknown error"
  | .string value, true => .errorText value
  | value, true => .errorText (libraries.jsonText value)
  | .string value, false => .text value
  | value, false => .json value

def GeneratedFile.base64 (libraries : Libraries) (file : GeneratedFile) : String :=
  match file.data with
  | .base64 text => text
  | .binary bytes => libraries.encodeBase64 bytes

/-- Malformed primitive input of an invalid call is not replayed. -/
def responseToolCallInput (input : Json) (invalid : Option Bool) : Json :=
  match invalid, input with
  | some true, .object fields => .object fields
  | some true, .array items => .array items
  | some true, .null => .null
  | some true, _ => .object []
  | _, input => input

mutual

def isDeepEqualData (libraries : Libraries) : Json → Json → Bool
  | .number x, .number y => libraries.sameNumber x y
  | .array xs, .array ys => deepEqualItems libraries xs ys
  | .object xs, .object ys => xs.length == ys.length && deepEqualFields libraries xs ys
  | .null, .null => true
  | .bool x, .bool y => x == y
  | .string x, .string y => x == y
  | _, _ => false

def deepEqualItems (libraries : Libraries) : List Json → List Json → Bool
  | [], [] => true
  | x :: xs, y :: ys => isDeepEqualData libraries x y && deepEqualItems libraries xs ys
  | _, _ => false

def deepEqualFields (libraries : Libraries) : List (String × Json) → List (String × Json) → Bool
  | [], _ => true
  | (key, x) :: xs, ys =>
    (match ys.lookup key with
      | some y => isDeepEqualData libraries x y
      | none => false) && deepEqualFields libraries xs ys

end

structure ResponseMessageBuilder where
  content : List ContentPart := []
  textIndexes : String → Option Nat := fun _ => none
  reasoningIndexes : String → Option Nat := fun _ => none

structure ResponseMessages where
  messages : List ModelMessage
  content : List ContentPart

namespace ResponseMessageBuilder

def push (builder : ResponseMessageBuilder) (part : ContentPart) : ResponseMessageBuilder :=
  { builder with content := builder.content ++ [part] }

def textStart (builder : ResponseMessageBuilder) (id : String) (metadata : Option ProviderMetadata) :
    ResponseMessageBuilder :=
  { builder with textIndexes := Function.update builder.textIndexes id (some builder.content.length)
    }.push (.text "" metadata)

def appendText (delta : String) (metadata : Option ProviderMetadata) : ContentPart → ContentPart
  | .text text providerMetadata => .text (text ++ delta) (metadata <|> providerMetadata)
  | part => part

def textDelta (builder : ResponseMessageBuilder) (id delta : String) (metadata : Option ProviderMetadata) :
    ResponseMessageBuilder :=
  match builder.textIndexes id with
  | none => builder
  | some index => { builder with content := builder.content.modify index (appendText delta metadata) }

def textEnd (builder : ResponseMessageBuilder) (id : String) (metadata : Option ProviderMetadata) :
    ResponseMessageBuilder :=
  let builder := builder.textDelta id "" metadata
  { builder with textIndexes := Function.update builder.textIndexes id none }

def reasoningStart (builder : ResponseMessageBuilder) (id : String) (metadata : Option ProviderMetadata) :
    ResponseMessageBuilder :=
  { builder with
    reasoningIndexes := Function.update builder.reasoningIndexes id (some builder.content.length)
    }.push (.reasoning { text := "", providerMetadata := metadata })

def appendReasoning (delta : String) (metadata : Option ProviderMetadata) : ContentPart → ContentPart
  | .reasoning reasoning => .reasoning {
      text := reasoning.text ++ delta, providerMetadata := metadata <|> reasoning.providerMetadata }
  | part => part

def reasoningDelta (builder : ResponseMessageBuilder) (id delta : String)
    (metadata : Option ProviderMetadata) : ResponseMessageBuilder :=
  match builder.reasoningIndexes id with
  | none => builder
  | some index =>
    { builder with content := builder.content.modify index (appendReasoning delta metadata) }

def reasoningEnd (builder : ResponseMessageBuilder) (id : String) (metadata : Option ProviderMetadata) :
    ResponseMessageBuilder :=
  let builder := builder.reasoningDelta id "" metadata
  { builder with reasoningIndexes := Function.update builder.reasoningIndexes id none }

def file (builder : ResponseMessageBuilder) (output : GeneratedFileOutput) (reasoning : Bool) :
    ResponseMessageBuilder :=
  builder.push (if reasoning then .reasoningFile output else .file output.file output.providerMetadata)

def findCall (content : List ContentPart) (toolCallId : String) : Option ToolCall :=
  content.findSome? fun
    | .toolCall call => if call.toolCallId = toolCallId then some call else none
    | _ => none

def toolResult (builder : ResponseMessageBuilder) (result : ToolResult) : ResponseMessageBuilder :=
  if result.preliminary = some true then builder
  else
    let call := findCall builder.content result.toolCallId
    let input := call.map (·.input)
    let dynamic := match call with
      | some call => call.dynamic
      | none => result.dynamic
    builder.push (if result.isError = some true then
      .toolError {
        toolCallId := result.toolCallId
        toolName := result.toolName
        input := input
        error := result.result
        providerExecuted := some true
        providerMetadata := result.providerMetadata
        dynamic := dynamic }
    else
      .toolResult {
        toolCallId := result.toolCallId
        toolName := result.toolName
        input := input
        output := result.result
        providerExecuted := some true
        providerMetadata := result.providerMetadata
        dynamic := dynamic
        preliminary := none })

def typedToolResult (builder : ResponseMessageBuilder) (result : TypedToolResult) :
    ResponseMessageBuilder :=
  if result.preliminary = some true then builder else builder.push (.toolResult result)

def assistantPart (libraries : Libraries) : ContentPart → Option AssistantContentPart
  | .text text metadata => if text = "" then none else some (.text text metadata)
  | .reasoning output => some (.reasoning output.text output.providerMetadata)
  | .custom kind metadata => some (.custom kind metadata)
  | .file file metadata => some (.file (file.base64 libraries) file.mediaType none metadata)
  | .reasoningFile output =>
    some (.reasoningFile (output.file.base64 libraries) output.file.mediaType output.providerMetadata)
  | .toolApprovalRequest approval =>
    some (.toolApprovalRequest approval.approvalId approval.toolCall.toolCallId approval.reason
      approval.isAutomatic approval.signature (approval.inputSchemaInput.filter fun raw =>
        !isDeepEqualData libraries raw approval.toolCall.input))
  | .toolCall call =>
    some (.toolCall call.toolCallId call.toolName (responseToolCallInput call.input call.invalid)
      call.providerExecuted call.providerMetadata)
  | .toolResult result =>
    if result.providerExecuted = some true then
      some (.toolResult {
        toolCallId := result.toolCallId
        toolName := some result.toolName
        output := .fromResult libraries result.output false
        providerOptions := result.providerMetadata })
    else none
  | .toolError error =>
    if error.providerExecuted = some true then
      some (.toolResult {
        toolCallId := error.toolCallId
        toolName := some error.toolName
        output := .errorJson error.error
        providerOptions := error.providerMetadata })
    else none
  | .source _ | .toolApprovalResponse _ => none

def toolParts (libraries : Libraries) : ContentPart → List ToolContentPart
  | .toolApprovalResponse response =>
    .toolApprovalResponse response.approvalId response.approved response.reason response.providerExecuted ::
      if response.approved then [] else [.toolResult {
        toolCallId := response.toolCall.toolCallId
        toolName := some response.toolCall.toolName
        output := .executionDenied response.reason
        providerOptions := none }]
  | .toolResult result =>
    if result.providerExecuted = some true then []
    else [.toolResult {
      toolCallId := result.toolCallId
      toolName := some result.toolName
      output := .fromResult libraries result.output false
      providerOptions := result.providerMetadata }]
  | .toolError error =>
    if error.providerExecuted = some true then []
    else [.toolResult {
      toolCallId := error.toolCallId
      toolName := some error.toolName
      output := .fromResult libraries error.error true
      providerOptions := error.providerMetadata }]
  | _ => []

def toolCallOrder (content : List ContentPart) : List String :=
  content.foldl (fun order part => match part with
    | .toolCall call => if call.toolCallId ∈ order then order else order ++ [call.toolCallId]
    | _ => order) []

/-- Tool results in call order, those of unknown calls last, ties by position. -/
def resultBefore (order : List String) (a b : Nat × ToolResultPart) : Bool :=
  let rank (result : ToolResultPart) : Nat := order.idxOf result.toolCallId
  rank a.2 < rank b.2 || (rank a.2 == rank b.2 && a.1 ≤ b.1)

def resultOf : ToolContentPart → Option ToolResultPart
  | .toolResult result => some result
  | .toolApprovalResponse .. => none

def replaceResults : List ToolContentPart → List ToolResultPart → List ToolContentPart
  | .toolResult _ :: rest, result :: sorted => .toolResult result :: replaceResults rest sorted
  | .toolResult result :: rest, [] => .toolResult result :: replaceResults rest []
  | part :: rest, sorted => part :: replaceResults rest sorted
  | [], _ => []

def toolMessageContent (libraries : Libraries) (content : List ContentPart) (order : List String) :
    List ToolContentPart :=
  let parts := content.flatMap (toolParts libraries)
  let results := (parts.filterMap resultOf).zipIdx.map fun (result, index) => (index, result)
  replaceResults parts ((results.mergeSort (resultBefore order)).map (·.2))

def finish (libraries : Libraries) (builder : ResponseMessageBuilder) : ResponseMessages :=
  let parts := builder.content.filterMap (assistantPart libraries)
  let toolContent := toolMessageContent libraries builder.content (toolCallOrder builder.content)
  { messages :=
      (if parts.isEmpty then [] else [.assistantParts parts]) ++
      (if toolContent.isEmpty then [] else [.tool toolContent])
    content := builder.content }

end ResponseMessageBuilder

end Aimux.Core
