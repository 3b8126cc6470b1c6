import Aimux.Lib.Transducer
import Aimux.Responses.OutputItems

/-! # The event stream of the Responses API

`OpenAIResponsesStream` of `responses_language_model.rs`. A hash table is read by its keys; where its entries are
iterated, they come in an order that the settings leave open.
-/

namespace Aimux.Responses

open Aimux.Core Aimux.Provider
open Aimux.Lib (Transducer)

/-! ## Error frames

`stream_error.rs`: the status of an error frame is its code where that is one, and otherwise inferred from its words.
-/

def toAsciiLowercase (text : String) : String := String.ofList (text.toList.map Char.toLower)

/-- `str::contains` -/
def contains (text term : String) : Bool := decide (term.toList <:+: text.toList)

/-- A code that is an HTTP status of an error. -/
def explicitStatus (code : Json) : Option Nat :=
  let written := (asStr code).bind fun text =>
    if text.utf8ByteSize = 3 ∧ text.toList.all Char.isDigit then text.toNat? else none
  (((asU64 code).filter (· < 2 ^ 16)).or written).filter fun status => 400 ≤ status ∧ status ≤ 599

def inferredStatus (discriminator : String) : Nat :=
  if contains discriminator "insufficient_quota" || contains discriminator "rate_limit" then 429
  else if contains discriminator "authentication" then 401
  else if contains discriminator "permission" then 403
  else if contains discriminator "not_found" then 404
  else if contains discriminator "invalid" || contains discriminator "bad_request" ||
      contains discriminator "context_length" then 400
  else if contains discriminator "overload" then 503
  else if contains discriminator "timeout" then 504
  else 500

def openaiStreamError (context : StreamContext) (error : Json) : AiMuxError :=
  let responseFailed := error.getStr "type" = some "response.failed"
  let payload :=
    if responseFailed then ((error.get "response").bind (·.get "error")).getD error
    else (error.get "error").getD error
  let providerCode := (payload.get "code").bind fun code =>
    match code with
    | .string text => some text
    | .number number => some (context.toString (.number number))
    | _ => none
  let errorType := if responseFailed then "response.failed" else payload.strOrEmpty "type"
  let discriminator := toAsciiLowercase (providerCode.getD "" ++ " " ++ errorType)
  let quota := providerCode = some "insufficient_quota" || errorType = "insufficient_quota"
  createProviderStreamError context {
    message := (payload.getStr "message").getD "OpenAI stream failed before any output was generated"
    providerCode := providerCode
    statusCode := some (((payload.get "code").bind explicitStatus).getD (inferredStatus discriminator))
    isRetryable := if quota then some false else none
    data := error } error

/-! ## The state -/

inductive SummaryStatus where
  | active | canConclude | concluded
deriving DecidableEq

abbrev SummaryParts := List (Nat × SummaryStatus)

/-- `HashMap::insert` -/
def setStatus (parts : SummaryParts) (index : Nat) (status : SummaryStatus) : SummaryParts :=
  if parts.any (·.1 = index) then parts.map fun part => if part.1 = index then (index, status) else part
  else parts ++ [(index, status)]

structure ReasoningState where
  encryptedContent : Option String
  summaryParts : SummaryParts

structure ResponsesUsage where
  inputTokens : Nat := 0
  outputTokens : Nat := 0
  cachedTokens : Option Nat := none
  cacheWriteTokens : Option Nat := none
  reasoningTokens : Option Nat := none

structure OpenAIResponsesStream where
  /-- The tool call id of each output index. -/
  ongoingToolCalls : Nat → Option String := fun _ => none
  activeReasoning : String → Option ReasoningState := fun _ => none
  hasFunctionCall : Bool := false
  finalUsage : Option ResponsesUsage := none
  finalRawUsage : Option Json := none
  finalServiceTier : Option String := none
  finalReasoningContext : Option Json := none
  finalFinishReason : Option FinishReason := none
  responseId : Option String := none
  streamErrored : Bool := false
  textStates : String → Option Json := fun _ => none
  /-- Refusal parts that streamed a delta. -/
  refusalDeltas : List (String × Nat) := []
  /-- The open text block of each message item: its content index and id. -/
  textBlocks : String → Option (Nat × String) := fun _ => none
  outputIds : Nat → Option String := fun _ => none
  textAnnotations : String → Option (List Json) := fun _ => none
  logprobs : List Json := []
  providerItems : Nat → Option Json := fun _ => none
  emittedCalls : List String := []
  endedInputs : List String := []
  diffReceived : List String := []
  hostedToolSearchIds : List Json := []
  approvalToolCallIds : String → Option String := fun _ => none
  /-- How many sources were made. -/
  sources : Nat := 0
  /-- How many ids were generated. -/
  generated : Nat := 0

/-- What a stream is given, and what other libraries do. -/
structure ResponsesSettings where
  ctx : StreamContext
  providerKey : String
  storeFlag : Bool
  toolNames : ResponsesToolNames := {}
  promptApprovalToolCallIds : List (String × String) := []
  /-- The order in which an item's summary parts are iterated. -/
  iterate : String → SummaryParts → SummaryParts
  iterates : ∀ id parts, (iterate id parts).Perm parts
  /-- The ids of the sources, in their order. -/
  sourceId : Nat → String
  /-- The ids that are generated, in their order. -/
  generateId : Nat → String
  /-- `serde_json::from_value` of a usage -/
  parseUsage : Json → Option ResponsesUsage
  /-- The time that is so many seconds after the Unix epoch. -/
  fromUnixSeconds : Nat → Option Int

def FINISH_OTHER : FinishReason := { unified := .other, raw := none }
def FINISH_ERROR : FinishReason := { unified := .error, raw := none }

def mapResponsesFinishReason (finishReason : Option String) (hasFunctionCall : Bool) : FinishReason where
  unified := match finishReason with
    | none => if hasFunctionCall then .toolCalls else .stop
    | some "max_output_tokens" => .length
    | some "content_filter" => .contentFilter
    | some _ => if hasFunctionCall then .toolCalls else .other
  raw := finishReason

/-- A difference of `u32` counts; a build that wraps. -/
def difference (a b : Nat) : Nat := (a + 2 ^ 32 - b) % 2 ^ 32

def convertResponsesUsage (usage : Option ResponsesUsage) (raw : Option Json) : Usage :=
  let raw := raw.bind asObject
  match usage with
  | none => { raw := raw }
  | some usage =>
    let cached := usage.cachedTokens.getD 0
    let reasoning := usage.reasoningTokens.getD 0
    { inputTokens := {
        total := some usage.inputTokens
        noCache := some (difference (difference usage.inputTokens cached) (usage.cacheWriteTokens.getD 0))
        cacheRead := some cached
        cacheWrite := usage.cacheWriteTokens }
      outputTokens := {
        total := some usage.outputTokens
        text := some (difference usage.outputTokens reasoning)
        reasoning := some reasoning }
      raw := raw }

/-! ## Chunks that are checked -/

def CHAT_COMPLETIONS_MISMATCH : String :=
  "Received a Chat Completions stream while using the OpenAI Responses API. " ++
  "The default OpenAI provider model uses the Responses API. If your custom baseURL targets a " ++
  "Chat Completions-compatible endpoint, use openai.chat('model-id') or createOpenAI(...).chat('model-id') instead. " ++
  "You can also use @ai-sdk/openai-compatible for OpenAI-compatible providers."

def isChatCompletionChunk (chunk : Json) : Bool :=
  (chunk.get "choices").any Json.isArray && !(chunk.get "type").any Json.isString

def MODELED_OUTPUT_ITEM_TYPES : List String := [
  "apply_patch_call", "code_interpreter_call", "compaction", "computer_call", "custom_tool_call", "file_search_call",
  "function_call", "image_generation_call", "local_shell_call", "mcp_approval_request", "mcp_call", "mcp_list_tools",
  "message", "program", "program_output", "reasoning", "shell_call", "shell_call_output", "tool_search_call",
  "tool_search_output", "web_search_call"]

/-- The strings and the numbers that an event of a kind must have, where the rest of it is right. -/
def schemaFields (chunk : Json) (kind : String) : Except String (List String × List String) :=
  if kind = "response.output_item.added" ∨ kind = "response.output_item.done" then
    match (chunk.get "item").bind (·.getStr "type") with
    | none => .error "expected an \x60item\x60 object with a string \x60type\x60"
    | some itemType => .ok ([], if itemType ∈ MODELED_OUTPUT_ITEM_TYPES then ["output_index"] else [])
  else if kind = "response.output_text.delta" then .ok (["item_id", "delta"], [])
  else if kind ∈ ["response.function_call_arguments.delta", "response.custom_tool_call_input.delta",
      "response.code_interpreter_call_code.delta", "response.apply_patch_call_operation_diff.delta"] then
    .ok (["item_id", "delta"], ["output_index"])
  else if kind = "response.function_call_arguments.done" then .ok (["item_id", "arguments"], ["output_index"])
  else if kind = "response.code_interpreter_call_code.done" then .ok (["item_id", "code"], ["output_index"])
  else if kind = "response.apply_patch_call_operation_diff.done" then .ok (["item_id", "diff"], ["output_index"])
  else if kind = "response.image_generation_call.partial_image" then
    .ok (["item_id", "partial_image_b64"], ["output_index"])
  else if kind = "response.reasoning_summary_part.added" ∨ kind = "response.reasoning_summary_part.done" then
    .ok (["item_id"], ["summary_index"])
  else if kind = "response.reasoning_summary_text.delta" then .ok (["item_id", "delta"], ["summary_index"])
  else if kind ∈ ["response.created", "response.in_progress", "response.completed", "response.incomplete",
      "response.failed"] then
    if (chunk.get "response").any Json.isObject then .ok ([], []) else .error "expected a \x60response\x60 object"
  else .ok ([], [])

/-- Why a chunk fails the schema of the chunks. -/
def chunkSchemaError (chunk : Json) : Option String :=
  match chunk.getStr "type" with
  | none => some "expected a string \x60type\x60"
  | some kind =>
    match schemaFields chunk kind with
    | .error detail => some detail
    | .ok (strings, numbers) =>
      ((strings.find? fun field => !(chunk.get field).any Json.isString).map fun field =>
        "expected a string \x60" ++ field ++ "\x60").or
      ((numbers.find? fun field => !(chunk.get field).any Json.isNumber).map fun field =>
        "expected a number \x60" ++ field ++ "\x60")

/-! ## Handlers -/

namespace OpenAIResponsesStream

/-- A handler's new state, and the parts it emits. -/
abbrev Handled := OpenAIResponsesStream × List StreamPart

/-- The id that the output item at the event's index started with, else the event's own. -/
def resolveOutputItemId (state : OpenAIResponsesStream) (event : Json) : String :=
  ((event.getU64 "output_index").bind state.outputIds).getD (event.strOrEmpty "item_id")

def textBlockId (state : OpenAIResponsesStream) (itemId : String) : String :=
  ((state.textBlocks itemId).map (·.2)).getD itemId

def outputIndex (event : Json) : Nat := (event.getU64 "output_index").getD 0

def summaryIndex (event : Json) : Nat := (event.getU64 "summary_index").getD 0

def contentIndex (event : Json) : Nat := (event.getU64 "content_index").getD 0

def summaryId (itemId : String) (index : Nat) : String := itemId ++ ":" ++ toString index

variable (settings : ResponsesSettings)

def created (state : OpenAIResponsesStream) (event : Json) : Handled :=
  match event.get "response" with
  | none => (state, [])
  | some response =>
    ({ state with responseId := response.getStr "id" }, [.responseMetadata {
      id := response.getStr "id"
      timestamp := (response.getU64 "created_at").bind settings.fromUnixSeconds
      modelId := response.getStr "model" }])

/-! ### Items that start -/

def messageAdded (state : OpenAIResponsesStream) (index : Nat) (item : Json) : Handled :=
  let id := item.strOrEmpty "id"
  ({ state with
      outputIds := Function.update state.outputIds index (some id)
      textStates := Function.update state.textStates id (some item)
      textBlocks := Function.update state.textBlocks id (some (0, id)) },
    [.textStart id (some (providerNamespace settings.providerKey (textMetadata item none)))])

/-- A function call or a custom tool call. -/
def toolCallAdded (state : OpenAIResponsesStream) (index : Nat) (item : Json) : Handled :=
  let callId := item.strOrEmpty "call_id"
  ({ state with ongoingToolCalls := Function.update state.ongoingToolCalls index (some callId) },
    [.toolInputStart callId (item.strOrEmpty "name") none none none
      (some (providerNamespace settings.providerKey (toolMetadata item)))])

def reasoningAdded (state : OpenAIResponsesStream) (index : Nat) (item : Json) : Handled :=
  let id := item.strOrEmpty "id"
  let encrypted := item.getStr "encrypted_content"
  ({ state with
      outputIds := Function.update state.outputIds index (some id)
      activeReasoning := Function.update state.activeReasoning id (some {
        encryptedContent := encrypted
        summaryParts := [(0, .active)] }) },
    [.reasoningStart (summaryId id 0)
      (some (providerNamespace settings.providerKey (reasoningStreamMetadata id encrypted)))])

def startedCalls (parts : List StreamPart) : List String :=
  parts.filterMap fun part => match part with
    | .toolCall call => some call.toolCallId
    | _ => none

def endedParts (parts : List StreamPart) : List String :=
  parts.filterMap fun part => match part with
    | .toolInputEnd id _ => some id
    | _ => none

def providerItemAdded (state : OpenAIResponsesStream) (index : Nat) (item : Json) : Handled :=
  let parts := providerToolStart settings.ctx settings.toolNames item
  ({ state with
      providerItems := Function.update state.providerItems index (some item)
      emittedCalls := state.emittedCalls ++ startedCalls parts
      endedInputs := state.endedInputs ++ endedParts parts }, parts)

def outputItemAdded (state : OpenAIResponsesStream) (event : Json) : Handled :=
  match event.get "item" with
  | none => (state, [])
  | some item =>
    match item.strOrEmpty "type" with
    | "message" => state.messageAdded settings (outputIndex event) item
    | "function_call" | "custom_tool_call" => state.toolCallAdded settings (outputIndex event) item
    | "reasoning" => state.reasoningAdded settings (outputIndex event) item
    | _ => state.providerItemAdded settings (outputIndex event) item

/-! ### Inputs of provider tools -/

def partialImage (state : OpenAIResponsesStream) (event : Json) : Handled :=
  (state, [.toolResult {
    toolCallId := event.strOrEmpty "item_id"
    toolName := settings.toolNames.toCustomToolName "image_generation"
    result := .object [("result", event.member "partial_image_b64")]
    preliminary := some true }])

/-- A delta of a code or of a diff. -/
def inputDelta (state : OpenAIResponsesStream) (event : Json) : Handled :=
  match state.providerItems (outputIndex event) with
  | none => (state, [])
  | some item =>
    let id := callOrItemId item
    ({ state with diffReceived := state.diffReceived ++ [id] },
      [.toolInputDelta id (escapedDelta (event.strOrEmpty "delta")) none])

/-- What a provider tool's item is read with. -/
def content (state : OpenAIResponsesStream) (item : Json) (mcpToolCallId : Option String) : List GenerateContent :=
  providerToolContent settings.ctx settings.toolNames item settings.providerKey
    (hostedShell settings.ctx.requestBody) mcpToolCallId (settings.generateId state.generated)

/-- How many ids are generated for the content. -/
def generatedBy (item : Json) : Nat := if item.getStr "type" = some "mcp_approval_request" then 1 else 0

/-- The calls among the content. -/
def calls (content : List GenerateContent) : List RawToolCall :=
  content.filterMap fun part => match part with
    | .toolCall call => some call
    | _ => none

def codeDone (state : OpenAIResponsesStream) (event : Json) : Handled :=
  match state.providerItems (outputIndex event) with
  | none => (state, [])
  | some item =>
    let id := callOrItemId item
    if id ∈ state.endedInputs then (state, [])
    else
      let ended := { state with endedInputs := state.endedInputs ++ [id] }
      let made := calls (ended.content settings (item.set "code" (event.member "code")) none)
      ({ ended with
          emittedCalls := ended.emittedCalls ++ made.map fun _ => id
          generated := ended.generated + generatedBy item },
        [.toolInputDelta id "\"\x7d" none, .toolInputEnd id none] ++ made.map StreamPart.toolCall)

def diffDone (state : OpenAIResponsesStream) (event : Json) : Handled :=
  match state.providerItems (outputIndex event) with
  | none => (state, [])
  | some item =>
    let id := callOrItemId item
    if id ∈ state.endedInputs then (state, [])
    else
      let whole : List StreamPart :=
        if id ∈ state.diffReceived then [] else [.toolInputDelta id (escapedDelta (event.strOrEmpty "diff")) none]
      ({ state with endedInputs := state.endedInputs ++ [id] },
        whole ++ [.toolInputDelta id "\"\x7d\x7d" none, .toolInputEnd id none])

/-! ### Texts -/

def outputTextDelta (state : OpenAIResponsesStream) (event : Json) : Handled :=
  let probabilities := (if asksForLogprobs settings.ctx.requestBody then event.get "logprobs" else none).map logprobsFields
  ({ state with logprobs := state.logprobs ++ probabilities.toList },
    [.textDelta (state.textBlockId (state.resolveOutputItemId event)) (event.strOrEmpty "delta") none])

/-- Each part of a message after the first opens its own text block. -/
def contentPartAdded (state : OpenAIResponsesStream) (event : Json) : Handled :=
  let itemId := state.resolveOutputItemId event
  match state.textBlocks itemId with
  | none => (state, [])
  | some (index, block) =>
    if (event.member "part").getStr "type" = some "output_text" ∧ index < contentIndex event then
      let next := summaryId itemId (contentIndex event)
      let metadata := ((state.textStates itemId).map fun item => textMetadata item none).getD [("itemId", .string itemId)]
      ({ state with textBlocks := Function.update state.textBlocks itemId (some (contentIndex event, next)) },
        [.textEnd block none, .textStart next (some (providerNamespace settings.providerKey
          (metadata ++ [("contentIndex", jsonNat (contentIndex event))])))])
    else (state, [])

/-- A refusal's text, where it is not empty. -/
def filledText (event : Json) (key : String) : Option String := (event.getStr key).filter (· ≠ "")

def refusalDelta (state : OpenAIResponsesStream) (event : Json) : Handled :=
  let id := state.resolveOutputItemId event
  match filledText event "delta" with
  | none => (state, [])
  | some text =>
    ({ state with refusalDeltas := state.refusalDeltas ++ [(id, contentIndex event)] },
      [.textDelta (state.textBlockId id) text none])

/-- The whole refusal, of a part that streamed no delta. -/
def refusalDone (state : OpenAIResponsesStream) (event : Json) : Handled :=
  let id := state.resolveOutputItemId event
  if (id, contentIndex event) ∈ state.refusalDeltas then (state, [])
  else match filledText event "refusal" with
    | none => (state, [])
    | some text => (state, [.textDelta (state.textBlockId id) text none])

def toolInputDelta (state : OpenAIResponsesStream) (event : Json) : Handled :=
  match state.ongoingToolCalls (outputIndex event) with
  | none => (state, [])
  | some id => (state, [.toolInputDelta id (event.strOrEmpty "delta") none])

/-! ### Reasoning -/

/-- The end of a summary part before its item ends. -/
def earlyReasoningEnd (itemId : String) (index : Nat) : StreamPart :=
  .reasoningEnd (summaryId itemId index) (some (providerNamespace settings.providerKey [("itemId", .string itemId)]))

/-- The indices of the parts with such a status, in the order of the table. -/
def partsWith (itemId : String) (parts : SummaryParts) (status : SummaryStatus → Bool) : List Nat :=
  ((settings.iterate itemId parts).filter fun part => status part.2).map (·.1)

def summaryPartAdded (state : OpenAIResponsesStream) (event : Json) : Handled :=
  let itemId := state.resolveOutputItemId event
  let index := summaryIndex event
  match state.activeReasoning itemId with
  | none => (state, [])
  | some reasoning =>
    if index = 0 then (state, [])
    else
      let toConclude := partsWith settings itemId reasoning.summaryParts (· = .canConclude)
      let concluded := toConclude.foldl (fun parts index => setStatus parts index .concluded) reasoning.summaryParts
      ({ state with activeReasoning := Function.update state.activeReasoning itemId (some { reasoning with
          summaryParts := setStatus concluded index .active }) },
        toConclude.map (earlyReasoningEnd settings itemId) ++
          [.reasoningStart (summaryId itemId index) (some (providerNamespace settings.providerKey
            (reasoningStreamMetadata itemId reasoning.encryptedContent)))])

def summaryTextDelta (state : OpenAIResponsesStream) (event : Json) : Handled :=
  let itemId := state.resolveOutputItemId event
  (state, [.reasoningDelta (summaryId itemId (summaryIndex event)) (event.strOrEmpty "delta")
    (some (providerNamespace settings.providerKey [("itemId", .string itemId)]))])

def summaryPartDone (state : OpenAIResponsesStream) (event : Json) : Handled :=
  let itemId := state.resolveOutputItemId event
  let index := summaryIndex event
  match state.activeReasoning itemId with
  | none => (state, [])
  | some reasoning =>
    let settled (status : SummaryStatus) : OpenAIResponsesStream :=
      { state with activeReasoning := Function.update state.activeReasoning itemId (some { reasoning with
          summaryParts := setStatus reasoning.summaryParts index status }) }
    if settings.storeFlag then (settled .concluded, [earlyReasoningEnd settings itemId index])
    else (settled .canConclude, [])

/-! ### Items that are done -/

def messageDone (state : OpenAIResponsesStream) (index : Nat) (item : Json) : Handled :=
  let id := (state.outputIds index).getD (item.strOrEmpty "id")
  let named := item.set "id" (.string id)
  let phase := if (named.get "phase").isNone then (state.textStates id).bind (·.get "phase") else none
  let metadataItem := (phase.map fun phase => named.set "phase" phase).getD named
  ({ state with
      outputIds := Function.update state.outputIds index none
      textAnnotations := Function.update state.textAnnotations id none
      textBlocks := Function.update state.textBlocks id none },
    [.textEnd (state.textBlockId id) (some (providerNamespace settings.providerKey
      (textMetadata metadataItem (state.textAnnotations id))))])

def doneCall (item : Json) (input : String) : StreamPart :=
  .toolCall {
    toolCallId := item.strOrEmpty "call_id"
    toolName := item.strOrEmpty "name"
    input := input
    providerMetadata := some (providerNamespace settings.providerKey (toolMetadata item)) }

def withoutCall (state : OpenAIResponsesStream) (index : Nat) : OpenAIResponsesStream :=
  { state with hasFunctionCall := true, ongoingToolCalls := Function.update state.ongoingToolCalls index none }

def functionCallDone (state : OpenAIResponsesStream) (index : Nat) (item : Json) : Handled :=
  let ended := (item.filled "namespace").map fun value => providerNamespace settings.providerKey [("namespace", value)]
  (state.withoutCall index,
    [.toolInputEnd (item.strOrEmpty "call_id") ended, doneCall settings item ((item.getStr "arguments").getD "\x7b\x7d")])

def customToolCallDone (state : OpenAIResponsesStream) (index : Nat) (item : Json) : Handled :=
  (state.withoutCall index, [.toolInputEnd (item.strOrEmpty "call_id") none,
    doneCall settings item (String.ofList (stringText ((item.getStr "input").getD "\x7b\x7d")))])

/-- What an item's end ends all parts of that are still open with. -/
def reasoningDone (state : OpenAIResponsesStream) (index : Nat) (item : Json) : Handled :=
  let id := (state.outputIds index).getD (item.strOrEmpty "id")
  let without := { state with
    outputIds := Function.update state.outputIds index none
    activeReasoning := Function.update state.activeReasoning id none }
  match state.activeReasoning id with
  | none => (without, [])
  | some reasoning =>
    let metadata := providerNamespace settings.providerKey (reasoningStreamMetadata id (item.getStr "encrypted_content"))
    (without, (partsWith settings id reasoning.summaryParts (· ≠ .concluded)).map fun part =>
      .reasoningEnd (summaryId id part) (some metadata))

/-- The fields of a local shell action with their new names. -/
def renameShellFields (item : Json) : Json :=
  match item.member "action" with
  | .object action =>
    let rename (fields : List (String × Json)) (names : String × String) : List (String × Json) :=
      -- The order that is left does not matter: a local shell action is picked field by field.
      match fields.lookup names.1 with
      | some value => insertField (fields.filter (·.1 ≠ names.1)) names.2 value
      | none => fields
    item.set "action" (.object
      ([("timeout_ms", "timeoutMs"), ("working_directory", "workingDirectory")].foldl rename action))
  | _ => item

/-- The input of an apply patch call that did not end yet. -/
def patchDone (state : OpenAIResponsesStream) (item : Json) : Handled :=
  let id := item.strOrEmpty "call_id"
  if id ∈ state.endedInputs then (state, [])
  else
    let ended := { state with endedInputs := state.endedInputs ++ [id] }
    if (item.member "operation").getStr "type" = some "delete_file" then (ended, [])
    else
      let whole : List StreamPart :=
        if id ∈ state.diffReceived then []
        else [.toolInputDelta id (escapedDelta ((item.member "operation").strOrEmpty "diff")) none]
      (ended, whole ++ [StreamPart.toolInputDelta id "\"\x7d\x7d" none, .toolInputEnd id none])

/-- A call of an item that is done: emitted unless it was, with what is left of its input. -/
def callDone (state : OpenAIResponsesStream) (itemType : String) (item : Json) (call : RawToolCall) : Handled :=
  if itemType = "code_interpreter_call" ∨ (itemType = "apply_patch_call" ∧ item.getStr "status" ≠ some "completed") then
    (state, [])
  else if call.toolCallId ∈ state.emittedCalls ∧ itemType ≠ "mcp_call" then (state, [])
  else
    let started : List StreamPart :=
      if itemType = "tool_search_call" ∧ item.getStr "execution" ≠ some "server" then
        [.toolInputStart call.toolCallId call.toolName call.providerExecuted none none none]
      else []
    let ended : List StreamPart :=
      if itemType ∈ ["computer_call", "apply_patch_call", "tool_search_call"] ∧ call.toolCallId ∉ state.endedInputs then
        (if itemType = "computer_call" ∧ call.input ≠ "" then
          [StreamPart.toolInputDelta call.toolCallId call.input none] else []) ++
          [StreamPart.toolInputEnd call.toolCallId none]
      else []
    ({ state with
        emittedCalls := state.emittedCalls ++ [call.toolCallId]
        hasFunctionCall := state.hasFunctionCall ||
          (call.providerExecuted ≠ some true && itemType ∈ ["computer_call", "apply_patch_call"]) },
      started ++ ended ++ [StreamPart.toolCall call])

def contentDone (itemType : String) (item : Json) (state : OpenAIResponsesStream) : GenerateContent → Handled
  | .toolCall call => state.callDone itemType item call
  | .toolResult result => (state, [.toolResult result])
  | .toolApprovalRequest approval =>
    ({ state with approvalToolCallIds :=
        Function.update state.approvalToolCallIds approval.approvalId (some approval.toolCallId) },
      [.toolApprovalRequest approval])
  | .custom kind metadata => (state, [.custom kind metadata])
  | _ => (state, [])

def providerItemDone (state : OpenAIResponsesStream) (index : Nat) (item : Json) : Handled :=
  let itemType := item.strOrEmpty "type"
  let item := if itemType = "local_shell_call" then renameShellFields item else item
  let patched := if itemType = "apply_patch_call" then state.patchDone item else (state, [])
  let item :=
    if itemType = "tool_search_call" ∧ item.getStr "execution" = some "server" then item.set "call_id" .null else item
  let paired := pairToolSearchId item state.hostedToolSearchIds
  let read := { patched.1 with hostedToolSearchIds := paired.2 }
  let mcpToolCallId := (paired.1.getStr "approval_request_id").bind fun id =>
    (read.approvalToolCallIds id).or (settings.promptApprovalToolCallIds.lookup id)
  let content := read.content settings paired.1 mcpToolCallId
  let counted := { read with generated := read.generated + generatedBy item }
  let emitted := Transducer.run (contentDone itemType paired.1) counted content
  ({ emitted.1 with providerItems := Function.update emitted.1.providerItems index none }, patched.2 ++ emitted.2)

def outputItemDone (state : OpenAIResponsesStream) (event : Json) : Handled :=
  match event.get "item" with
  | none => (state, [])
  | some item =>
    match item.strOrEmpty "type" with
    | "message" => state.messageDone settings (outputIndex event) item
    | "function_call" => state.functionCallDone settings (outputIndex event) item
    | "custom_tool_call" => state.customToolCallDone settings (outputIndex event) item
    | "reasoning" => state.reasoningDone settings (outputIndex event) item
    | _ => state.providerItemDone settings (outputIndex event) item

/-! ### Annotations, and the end of the response -/

def annotationAdded (state : OpenAIResponsesStream) (event : Json) : Handled :=
  let note := event.member "annotation"
  match annotationSource settings.providerKey (settings.sourceId state.sources) note with
  | .ok source =>
    let id := event.strOrEmpty "item_id"
    ({ state with
        sources := state.sources + 1
        textAnnotations := Function.update state.textAnnotations id
          (some ((state.textAnnotations id).getD [] ++ [note])) }, [.source source])
  | .error error => ({ state with streamErrored := true }, [.error error])

/-- Why a response is incomplete. -/
def incompleteReason (response : Json) : Option String := (response.get "incomplete_details").bind (·.getStr "reason")

def reasoningContext (state : OpenAIResponsesStream) (response : Json) : Option Json :=
  (((response.get "reasoning").bind (·.get "context")).filter fun context => !context.isNull).or
    state.finalReasoningContext

def completed (state : OpenAIResponsesStream) (event : Json) : Handled :=
  match event.get "response" with
  | none => (state, [])
  | some response =>
    ({ state with
        finalFinishReason := if state.streamErrored then state.finalFinishReason
          else some (mapResponsesFinishReason (incompleteReason response) state.hasFunctionCall)
        finalUsage := (response.get "usage").bind settings.parseUsage
        finalRawUsage := response.get "usage"
        finalServiceTier := (response.getStr "service_tier").or state.finalServiceTier
        finalReasoningContext := state.reasoningContext response }, [])

def failed (state : OpenAIResponsesStream) (event : Json) : Handled :=
  match event.get "response" with
  | none => (state, [])
  | some response =>
    let reason := match incompleteReason response with
      | some reason => mapResponsesFinishReason (some reason) state.hasFunctionCall
      | none => { unified := .error, raw := some "error" }
    let reports := !state.streamErrored && (response.filled "error").isSome
    ({ state with
        finalFinishReason := some reason
        finalUsage := (response.get "usage").bind settings.parseUsage
        finalRawUsage := response.get "usage"
        finalReasoningContext := state.reasoningContext response
        streamErrored := state.streamErrored || reports },
      if reports then [.error (openaiStreamError settings.ctx event)] else [])

def errorChunk (state : OpenAIResponsesStream) (event : Json) : Handled :=
  ({ state with streamErrored := true, finalFinishReason := some { unified := .error, raw := some "error" } },
    [.error (openaiStreamError settings.ctx event)])

/-- An error that stands for a chunk. -/
def report (state : OpenAIResponsesStream) (error : AiMuxError) : Handled :=
  ({ state with streamErrored := true, finalFinishReason := some FINISH_ERROR }, [.error error])

/-- The handler of an event of a kind. -/
def handle (state : OpenAIResponsesStream) (event : Json) (kind : String) : Handled :=
  match kind with
  | "response.created" => state.created settings event
  | "response.output_item.added" => state.outputItemAdded settings event
  | "response.image_generation_call.partial_image" => state.partialImage settings event
  | "response.code_interpreter_call_code.delta" | "response.apply_patch_call_operation_diff.delta" =>
    state.inputDelta event
  | "response.code_interpreter_call_code.done" => state.codeDone settings event
  | "response.apply_patch_call_operation_diff.done" => state.diffDone event
  | "response.output_text.delta" => state.outputTextDelta settings event
  | "response.content_part.added" => state.contentPartAdded settings event
  | "response.refusal.delta" => state.refusalDelta event
  | "response.refusal.done" => state.refusalDone event
  | "response.function_call_arguments.delta" | "response.custom_tool_call_input.delta" => state.toolInputDelta event
  | "response.reasoning_summary_part.added" => state.summaryPartAdded settings event
  | "response.reasoning_summary_text.delta" => state.summaryTextDelta settings event
  | "response.reasoning_summary_part.done" => state.summaryPartDone settings event
  | "response.output_item.done" => state.outputItemDone settings event
  | "response.output_text.annotation.added" => state.annotationAdded settings event
  | "response.completed" | "response.incomplete" => state.completed settings event
  | "response.failed" => state.failed settings event
  | "error" => state.errorChunk settings event
  | _ => (state, [])

/-- A chunk that was read; `Value::to_string` stands in the error of one that fails the schema. -/
def transformChunk (state : OpenAIResponsesStream) (chunk : Json) : Handled :=
  if isChatCompletionChunk chunk then
    state.report (createProviderStreamError settings.ctx { message := CHAT_COMPLETIONS_MISMATCH, data := chunk } chunk)
  else match chunkSchemaError chunk with
    | some detail => state.report (.typeValidation ("Type validation failed: Value: " ++ settings.ctx.toString chunk ++
        ".\nError message: " ++ detail) chunk none)
    | none => state.handle settings chunk (chunk.strOrEmpty "type")

def transform (state : OpenAIResponsesStream) : Except AiMuxError Json → Handled
  | .ok chunk =>
    let handled := state.transformChunk settings chunk
    (handled.1, (if settings.ctx.includeRawChunks then [.raw chunk] else []) ++ handled.2)
  | .error error => state.report error

/-! ## The end of the stream -/

def finishMetadata (state : OpenAIResponsesStream) : List (String × Json) :=
  [("responseId", (state.responseId.map Json.string).getD .null)] ++
    state.finalServiceTier.toList.map (fun tier => ("serviceTier", Json.string tier)) ++
    state.finalReasoningContext.toList.map (("reasoningContext", ·)) ++
    if state.logprobs = [] then [] else [("logprobs", Json.array state.logprobs)]

def finish (state : OpenAIResponsesStream) : StreamPart :=
  .finish (state.finalFinishReason.getD FINISH_OTHER) (convertResponsesUsage state.finalUsage state.finalRawUsage)
    (some (providerNamespace settings.providerKey state.finishMetadata))

def flush (state : OpenAIResponsesStream) : List (Item StreamPart) × Bool :=
  match settings.ctx.failWithoutTerminal (state.finalFinishReason.isSome || state.streamErrored)
      "a response.completed, response.incomplete or response.failed event" with
  | some error => ([.error error], true)
  | none => ([.ok (state.finish settings)], false)

end OpenAIResponsesStream

open OpenAIResponsesStream

/-- The transformer of the stream. -/
def responsesTransformer (settings : ResponsesSettings) : Transformer (Except AiMuxError Json) StreamPart where
  State := OpenAIResponsesStream
  initial := {}
  start state controller := (state, controller.send settings.ctx.start false)
  transform state event controller :=
    let handled := state.transform settings event
    (handled.1, controller.send (handled.2.map .ok) false)
  flush state controller := controller.send (state.flush settings).1 (state.flush settings).2

/-- The first event is an error, before any output. -/
def isEarlyError (event : Json) : Bool :=
  event.getStr "type" = some "error" ||
    (event.getStr "type" = some "response.failed" && ((event.member "response").filled "error").isSome)

/-- The stream that answers a request, or the error of its first event. -/
def buildResponsesEventStream (settings : ResponsesSettings) (events : List (Except AiMuxError Json)) :
    Except AiMuxError (List (Item StreamPart)) :=
  match events with
  | .ok event :: _ =>
    if isEarlyError event then .error (openaiStreamError settings.ctx event)
    else .ok ((responsesTransformer settings).pipeThrough events)
  | _ => .ok ((responsesTransformer settings).pipeThrough events)

/-- Settings that iterate a table in the order its keys arrived. -/
def plainSettings (strict storeFlag : Bool) : ResponsesSettings where
  ctx := {
    strict := strict
    numberText := fun number => match number with
      | .int n => (toString n).toList
      | .float _ => []
    doubleText := fun _ => "" }
  providerKey := "openai"
  storeFlag := storeFlag
  iterate _ parts := parts
  iterates _ _ := .rfl
  sourceId index := "source-" ++ toString index
  generateId index := "id-" ++ toString index
  parseUsage _ := none
  fromUnixSeconds _ := none

end Aimux.Responses
