import Aimux.Bedrock.ConvertUsage
import Aimux.Bedrock.EventStream
import Aimux.Provider.StreamContext

/-! # The Bedrock chat stream

`chat_language_model.rs`: what `AmazonBedrockChatStream` makes of the messages of an event stream, with the ids
that Mistral models are given. Block indexes are counted as a build does that wraps.
-/

namespace Aimux.Bedrock

open Aimux.Lib Aimux.Core
open Aimux.Provider (Controller Transformer Item StreamContext strictError createProviderStreamError)

/-! ## Tool call ids -/

/-- `str::encode_utf16` of a character. -/
def utf16Units (c : Char) : List Nat :=
  if c.toNat < 0x10000 then [c.toNat]
  else [0xD800 + (c.toNat - 0x10000) / 0x400, 0xDC00 + (c.toNat - 0x10000) % 0x400]

def idAlphabet : List Char := "0123456789ABCDEFGHIJKLMNOPQRSTUVWXYZabcdefghijklmnopqrstuvwxyz".toList

def idHash (id : String) : Nat :=
  (id.toList.flatMap utf16Units).foldl (fun hash unit => ((hash ^^^ unit) * 1099511628211) % 2 ^ 64)
    14695981039346656037

/-- The last digits, the last of them at the end. -/
def idDigits : Nat → Nat → List Char
  | 0, _ => []
  | count + 1, value => idDigits count (value / 62) ++ [idAlphabet.getD (value % 62) '0']

def isAsciiAlphanumeric (c : Char) : Bool :=
  ('0' ≤ c && c ≤ '9') || ('A' ≤ c && c ≤ 'Z') || ('a' ≤ c && c ≤ 'z')

def normalizeToolCallId (id : String) (isMistral : Bool) : String :=
  if !isMistral || (id.length = 9 && id.toList.all isAsciiAlphanumeric) then id
  else String.ofList (idDigits 9 (idHash id % 62 ^ 9))

/-! ## The state -/

/-- What is let through of a text: the first JSON object. -/
structure JsonObjectTextExtractor where
  started : Bool := false
  completed : Bool := false
  depth : Nat := 0
  inString : Bool := false
  escaped : Bool := false

namespace JsonObjectTextExtractor

/-- A character of a text that is not completed, and whether it is let through. -/
def step (extractor : JsonObjectTextExtractor) (character : Char) : JsonObjectTextExtractor × Bool :=
  if !extractor.started then
    if character ≠ '\x7b' then (extractor, false) else ({ extractor with started := true, depth := 1 }, true)
  else if extractor.escaped then ({ extractor with escaped := false }, true)
  else if character = '\\' ∧ extractor.inString then ({ extractor with escaped := true }, true)
  else if character = '"' then ({ extractor with inString := !extractor.inString }, true)
  else if extractor.inString then (extractor, true)
  else if character = '\x7b' then ({ extractor with depth := extractor.depth + 1 }, true)
  else if character = '\x7d' then
    ({ extractor with depth := extractor.depth - 1, completed := extractor.depth - 1 = 0 }, true)
  else (extractor, true)

def processChars (extractor : JsonObjectTextExtractor) : List Char → JsonObjectTextExtractor × List Char
  | [] => (extractor, [])
  | character :: rest =>
    if extractor.completed then (extractor, [])
    else
      let stepped := extractor.step character
      let processed := processChars stepped.1 rest
      (processed.1, if stepped.2 then character :: processed.2 else processed.2)

def process (extractor : JsonObjectTextExtractor) (text : String) : JsonObjectTextExtractor × String :=
  let processed := extractor.processChars text.toList
  (processed.1, String.ofList processed.2)

end JsonObjectTextExtractor

structure ToolBlock where
  id : String
  name : String
  input : String := ""

structure AmazonBedrockChatStream where
  extractor : Option JsonObjectTextExtractor := none
  isJsonResponseFromTool : Bool := false
  textBlocks : List Nat := []
  reasoningBlocks : Nat → Option (Option String) := fun _ => none
  blockCounter : Nat := 0
  toolBlocks : Nat → Option ToolBlock := fun _ => none
  openBlocks : List Nat := []
  hasToolCalls : Bool := false
  finalUsage : Usage := {}
  finalFinishReason : Option FinishReason := none
  finishMeta : List (String × Json) := []
  stopSequence : Option String := none
  /-- How many ids were generated. -/
  generated : Nat := 0

/-- What a stream is given, and what other libraries do. -/
structure ChatSettings where
  ctx : StreamContext
  requestId : Option String := none
  responseTimestamp : Option Int := none
  modelId : String
  usesJsonTool : Bool := false
  extractor : Option JsonObjectTextExtractor := none
  /-- The ids that are generated, in their order. -/
  generateId : Nat → String
  /-- `serde_json::from_str` -/
  fromStr : String → Except AiMuxError Json
  /-- `u32::deserialize`, with the text of its error. -/
  count : Json → Except String Nat
  /-- The cache details, with the text of their error. -/
  cacheDetails : Json → Except String (List BedrockCacheDetail)
  /-- The text of the error where a value is no map. -/
  noMap : Json → String

namespace ChatSettings

variable (settings : ChatSettings)

/-- `model_id.contains("mistral.")` -/
def isMistral : Bool := decide ("mistral.".toList <:+: settings.modelId.toList)

/-- Whether it is the tool that a JSON response is asked for with. -/
def isJsonTool (name : String) : Bool := settings.usesJsonTool && name = "json"

/-- The id of a tool block, and how many ids are generated with it. -/
def toolBlockId (generated : Nat) (toolUse : Json) : String × Nat :=
  let sent := (toolUse.getStr "toolUseId").getD ""
  if sent = "" then (normalizeToolCallId (settings.generateId generated) settings.isMistral, generated + 1)
  else (normalizeToolCallId sent settings.isMistral, generated)

end ChatSettings

def FINISH_OTHER : FinishReason := { unified := .other, raw := none }
def FINISH_ERROR : FinishReason := { unified := .error, raw := none }

def mapFinishReason (reason : String) : FinishReason where
  unified :=
    if reason ∈ ["stop_sequence", "end_turn", "stop"] then .stop
    else if reason ∈ ["max_tokens", "length"] then .length
    else if reason ∈ ["content_filtered", "content-filter", "guardrail_intervened"] then .contentFilter
    else if reason ∈ ["tool_use", "tool-calls"] then .toolCalls
    else .other
  raw := some reason

/-- `options::metadata` -/
def metadata (payload : Json) : ProviderMetadata := [("amazonBedrock", payload), ("bedrock", payload)]

/-- Exactly one of the members that are known, and of its kind. -/
def isKnownDelta (delta : Json) : Bool :=
  if delta.isObject then
    let text := (delta.get "text").map Json.isString
    let citation := (delta.get "citation").map Json.isObject
    let toolUse := (delta.get "toolUse").map fun toolUse => (toolUse.get "input").any Json.isString
    let reasoning := (delta.get "reasoningContent").map fun reasoning =>
      ["text", "signature", "data", "redactedContent"].any fun key => (reasoning.get key).any Json.isString
    let members := [text, citation, toolUse, reasoning]
    members.reduceOption.length = 1 && !members.contains (some false)
  else false

/-! ## Usage -/

def KNOWN_USAGE : List String :=
  ["inputTokens", "outputTokens", "totalTokens", "cacheReadInputTokens", "cacheWriteInputTokens", "cacheDetails"]

/-- A member of the usage that is there and not null. -/
def usageField {α : Type} (fields : List (String × Json)) (key : String) (read : Json → Except String α) :
    Except String (Option α) :=
  match fields.lookup key with
  | none | some .null => .ok none
  | some value => match read value with
    | .ok read => .ok (some read)
    | .error error => .error (key ++ ": " ++ error)

/-- `serde_json::from_value` of a usage. -/
def readUsage (settings : ChatSettings) (usage : Json) : Except String BedrockUsage :=
  match asObject usage with
  | none => .error (settings.noMap usage)
  | some fields => do
    let inputTokens ← usageField fields "inputTokens" settings.count
    let outputTokens ← usageField fields "outputTokens" settings.count
    let totalTokens ← usageField fields "totalTokens" settings.count
    let cacheReadInputTokens ← usageField fields "cacheReadInputTokens" settings.count
    let cacheWriteInputTokens ← usageField fields "cacheWriteInputTokens" settings.count
    let cacheDetails ← usageField fields "cacheDetails" settings.cacheDetails
    return {
      inputTokens, outputTokens, totalTokens, cacheReadInputTokens, cacheWriteInputTokens, cacheDetails
      extra := fields.filter fun field => field.1 ∉ KNOWN_USAGE
      raw := some fields }

def cacheUsageMetadata (usage : BedrockUsage) : Option Json :=
  let payload := (usage.cacheWriteInputTokens.map fun count => ("cacheWriteInputTokens", countValue count)).toList ++
    (usage.cacheDetails.map fun details =>
      ("cacheDetails", Json.array (details.map BedrockCacheDetail.toValue))).toList
  if payload = [] then none else some (.object payload)

/-! ## Blocks -/

namespace AmazonBedrockChatStream

variable (settings : ChatSettings)

/-- A text block is started. -/
def startText (state : AmazonBedrockChatStream) (index : Nat) : AmazonBedrockChatStream × List (Item StreamPart) :=
  ({ state with textBlocks := state.textBlocks.insert index }, [.ok (.textStart (toString index) none)])

/-- The index of the block that a payload starts. -/
def startIndex (state : AmazonBedrockChatStream) (payload : Json) : Nat :=
  (payload.getU64 "contentBlockIndex").getD state.blockCounter

/-- The index of the block that any other payload is about. -/
def blockIndex (payload : Json) : Nat := (payload.getU64 "contentBlockIndex").getD 0

/-- What starts a tool block. -/
def startedToolUse (payload : Json) : Option Json := (payload.get "start").bind (·.get "toolUse")

def contentBlockStart (state : AmazonBedrockChatStream) (payload : Json) :
    AmazonBedrockChatStream × List (Item StreamPart) :=
  let index := state.startIndex payload
  let opened := { state with openBlocks := state.openBlocks.insert index }
  match startedToolUse payload with
  | some toolUse =>
    let name := (toolUse.getStr "name").getD ""
    let id := settings.toolBlockId state.generated toolUse
    ({ opened with
        toolBlocks := Function.update state.toolBlocks index (some { id := id.1, name })
        generated := id.2 },
      if settings.isJsonTool name then [] else [.ok (.toolInputStart id.1 name none none none none)])
  | none =>
    if (payload.get "start").isSome then
      { opened with blockCounter := (index + 1) % 2 ^ 64 }.startText index
    else opened.startText index

/-- The tool block is closed without a call, and the error of the delta is reported. -/
def unsupportedDelta (state : AmazonBedrockChatStream) (index : Nat) (delta : Json) :
    AmazonBedrockChatStream × List (Item StreamPart) :=
  let closed := (state.toolBlocks index).filter fun block => !settings.isJsonTool block.name
  ({ state with
      toolBlocks := Function.update state.toolBlocks index none
      finalFinishReason := some FINISH_ERROR },
    (closed.map fun block => Except.ok (StreamPart.toolInputEnd block.id none)).toList ++
      [Except.error (invalidData ("unsupported Amazon Bedrock content block delta: " ++ settings.ctx.toString delta))])

def textDelta (state : AmazonBedrockChatStream) (index : Nat) (delta : Json) :
    AmazonBedrockChatStream × List (Item StreamPart) :=
  match (delta.getStr "text").filter (· ≠ "") with
  | none => (state, [])
  | some text =>
    let started := if index ∈ state.textBlocks then (state, []) else state.startText index
    let processed := match state.extractor with
      | some extractor => (some (extractor.process text).1, (extractor.process text).2)
      | none => (none, text)
    ({ started.1 with extractor := processed.1 },
      started.2 ++ if processed.2 = "" then [] else [.ok (.textDelta (toString index) processed.2 none)])

def toolDelta (state : AmazonBedrockChatStream) (index : Nat) (delta : Json) :
    AmazonBedrockChatStream × List (Item StreamPart) :=
  match (delta.get "toolUse").bind (·.getStr "input"), state.toolBlocks index with
  | some input, some block =>
    if input = "" then (state, [])
    else
      ({ state with toolBlocks :=
          Function.update state.toolBlocks index (some { block with input := block.input ++ input }) },
        if settings.isJsonTool block.name then [] else [.ok (.toolInputDelta block.id input none)])
  | _, _ => (state, [])

/-- A member that is a text and not empty. -/
def filledStr (value : Json) (key : String) : Option String := (value.getStr key).filter (· ≠ "")

def reasoningDelta (state : AmazonBedrockChatStream) (index : Nat) (delta : Json) :
    AmazonBedrockChatStream × List (Item StreamPart) :=
  match delta.get "reasoningContent" with
  | none => (state, [])
  | some content =>
    if ["text", "signature", "data", "redactedContent"].all fun key => (filledStr content key).isNone then (state, [])
    else
      let id := toString index
      let block := state.reasoningBlocks index
      let started := if block.isSome then [] else [Except.ok (StreamPart.reasoningStart id none)]
      let opened := { state with reasoningBlocks := Function.update state.reasoningBlocks index (some (block.getD none)) }
      let signed (key value : String) : Item StreamPart :=
        .ok (.reasoningDelta id "" (some (metadata (.object [(key, .string value)]))))
      match content.getStr "text", filledStr content "signature", filledStr content "data",
          content.getStr "redactedContent" with
      | some text, _, _, _ => (opened, started ++ [.ok (.reasoningDelta id text none)])
      | none, some signature, _, _ => (opened, started ++ [signed "signature" signature])
      | none, none, some data, _ => (opened, started ++ [signed "redactedData" data])
      | none, none, none, some data =>
        ({ state with reasoningBlocks :=
            Function.update state.reasoningBlocks index (some (some ((block.getD none).getD "" ++ data))) }, started)
      | none, none, none, none => (opened, started)

/-- The state, what is emitted, and whether the stream ends with it. -/
def contentBlockDelta (state : AmazonBedrockChatStream) (payload : Json) :
    AmazonBedrockChatStream × List (Item StreamPart) × Bool :=
  let index := blockIndex payload
  match (payload.get "delta").filter (!·.isNull) with
  | none => (state, [], false)
  | some delta =>
    let opened := { state with openBlocks := state.openBlocks.insert index }
    if !isKnownDelta delta then
      let closed := opened.unsupportedDelta settings index delta
      (closed.1, closed.2, false)
    else if settings.ctx.strict && (delta.get "toolUse").isSome && (state.toolBlocks index).isNone then
      (opened, [.error (strictError ("toolUse delta for content block " ++ toString index ++
        " without a toolUse start"))], true)
    else
      let text := opened.textDelta index delta
      let tool := text.1.toolDelta settings index delta
      let reasoning := tool.1.reasoningDelta index delta
      (reasoning.1, text.2 ++ tool.2 ++ reasoning.2, false)

/-- The encrypted reasoning, once at the end of its block. -/
def reasoningRedactedMeta (redacted : Option String) : Option ProviderMetadata :=
  redacted.map fun data => metadata (.object [("redactedContent", .string data)])

def contentBlockStop (state : AmazonBedrockChatStream) (payload : Json) :
    AmazonBedrockChatStream × List (Item StreamPart) × Bool :=
  let index := blockIndex payload
  let id := toString index
  let stopped := { state with openBlocks := state.openBlocks.erase index }
  if index ∉ state.openBlocks ∧ settings.ctx.strict then
    (stopped, [.error (strictError ("contentBlockStop for content block " ++ id ++ " that was not opened"))], true)
  else
    match state.toolBlocks index, state.reasoningBlocks index with
    | some block, _ =>
      let removed := { stopped with toolBlocks := Function.update state.toolBlocks index none }
      if settings.isJsonTool block.name then
        ({ removed with isJsonResponseFromTool := true },
          [.ok (.textStart id none), .ok (.textDelta id block.input none), .ok (.textEnd id none)], false)
      else
        ({ removed with hasToolCalls := true },
          [.ok (.toolInputEnd block.id none), .ok (.toolCall {
            toolCallId := normalizeToolCallId block.id settings.isMistral
            toolName := block.name
            input := if block.input = "" then "\x7b\x7d" else block.input })], false)
    | none, some redacted =>
      ({ stopped with reasoningBlocks := Function.update state.reasoningBlocks index none },
        [.ok (.reasoningEnd id (reasoningRedactedMeta redacted))], false)
    | none, none =>
      if index ∈ state.textBlocks then
        ({ stopped with textBlocks := state.textBlocks.erase index }, [.ok (.textEnd id none)], false)
      else (stopped, [], false)

/-! ## The end of the message -/

/-- In strict mode every block is stopped first, and a tool call needs its stop reason. -/
def stopProblem (state : AmazonBedrockChatStream) (stopReason : Option String) : Option String :=
  if settings.ctx.strict then
    match state.openBlocks.min? with
    | some index => some ("messageStop while content block " ++ toString index ++ " is open")
    | none =>
      if state.hasToolCalls ∧ stopReason ≠ some "tool_use" then
        some ("messageStop with stopReason \x60" ++ stopReason.getD "" ++ "\x60 after a tool call, not \x60tool_use\x60")
      else none
  else none

/-- Whether an error was reported. -/
def failed (state : AmazonBedrockChatStream) : Bool := state.finalFinishReason.any (·.unified = .error)

def messageStop (state : AmazonBedrockChatStream) (payload : Json) :
    AmazonBedrockChatStream × List (Item StreamPart) × Bool :=
  let stopReason := payload.getStr "stopReason"
  match state.stopProblem settings stopReason with
  | some problem => (state, [.error (strictError problem)], true)
  | none =>
    let reason := stopReason.map fun reason =>
      let mapped := mapFinishReason reason
      if state.isJsonResponseFromTool ∧ mapped.unified = .toolCalls then { mapped with unified := .stop } else mapped
    let sequence := ((payload.get "additionalModelResponseFields").bind (·.get "delta")).bind (·.getStr "stop_sequence")
    ({ state with
        finalFinishReason := if state.failed then state.finalFinishReason else reason.or state.finalFinishReason
        stopSequence := sequence.or state.stopSequence }, [], false)

def finish (state : AmazonBedrockChatStream) : AmazonBedrockChatStream × List (Item StreamPart) :=
  let fromTool := if state.isJsonResponseFromTool then
      insertField (insertField state.finishMeta "isJsonResponseFromTool" (.bool true)) "stopSequence" .null
    else state.finishMeta
  let payload := match state.stopSequence with
    | some sequence => insertField fromTool "stopSequence" (.string sequence)
    | none => fromTool
  ({ state with stopSequence := none, finishMeta := [], finalFinishReason := none, finalUsage := {} },
    [.ok (.finish (state.finalFinishReason.getD FINISH_OTHER) state.finalUsage
      (if payload = [] then none else some (metadata (.object payload))))])

/-- The usage of a metadata event. -/
def takeUsage (state : AmazonBedrockChatStream) (usage : Json) : Except AiMuxError AmazonBedrockChatStream :=
  match readUsage settings usage with
  | .error error => .error (.invalidResponseData (error ++ "; usage: " ++ settings.ctx.toString usage)
      (some (.source (.mk error none))))
  | .ok usage => .ok { state with
      finalUsage := convertUsage (some usage)
      finishMeta := match cacheUsageMetadata usage with
        | some cacheUsage => insertField state.finishMeta "usage" cacheUsage
        | none => state.finishMeta }

/-- The members of a metadata event that are passed on. -/
def passOn (payload : Json) (finishMeta : List (String × Json)) : List (String × Json) :=
  ["trace", "performanceConfig", "serviceTier"].foldl (fun fields key =>
    match payload.get key with
    | some value => insertField fields key value
    | none => fields) finishMeta

/-- The last event of a stream: the turn finishes here after a stop reason, and not where the body ends. -/
def metadataEvent (state : AmazonBedrockChatStream) (payload : Json) :
    AmazonBedrockChatStream × List (Item StreamPart) × Bool :=
  match (payload.get "usage").mapM (state.takeUsage settings) with
  | .error error => ({ state with finalFinishReason := some FINISH_ERROR }, [.ok (.error error)], false)
  | .ok taken =>
    let taken := taken.getD state
    let passed := { taken with finishMeta := passOn payload taken.finishMeta }
    if passed.finalFinishReason.isSome && !passed.failed then
      let finished := passed.finish
      (finished.1, finished.2, true)
    else (passed, [], false)

/-! ## Messages -/

/-- The status of an exception and whether it may be tried again. -/
def exceptionStatus (eventType : String) : Option Nat × Bool :=
  if eventType ∈ ["internalServerException", "InternalServerException"] then (some 500, true)
  else if eventType ∈ ["modelStreamErrorException", "ModelStreamErrorException"] then (some 424, true)
  else if eventType ∈ ["serviceUnavailableException", "ServiceUnavailableException"] then (some 503, true)
  else if eventType ∈ ["throttlingException", "ThrottlingException"] then (some 429, true)
  else if eventType ∈ ["validationException", "ValidationException"] then (some 400, false)
  else (none, false)

def exceptionError (eventType : String) (payload : Json) : AiMuxError :=
  let status := exceptionStatus eventType
  let data := .object [(eventType, payload)]
  createProviderStreamError settings.ctx {
    message := (payload.getStr "message").getD ("Amazon Bedrock stream failed with " ++ eventType)
    providerCode := some eventType
    statusCode := status.1
    isRetryable := some status.2
    data } data

def isException (message : EventStreamMessage) : Bool :=
  message.messageType ≠ "event" || "Exception".toList.isSuffixOf message.eventType.toList

/-- An event of the message. -/
def transformEvent (state : AmazonBedrockChatStream) (eventType : String) (payload : Json) :
    AmazonBedrockChatStream × List (Item StreamPart) × Bool :=
  if eventType = "contentBlockStart" then
    let started := state.contentBlockStart settings payload
    (started.1, started.2, false)
  else if eventType = "contentBlockDelta" then state.contentBlockDelta settings payload
  else if eventType = "contentBlockStop" then state.contentBlockStop settings payload
  else if eventType = "messageStop" then state.messageStop settings payload
  else if eventType = "metadata" then state.metadataEvent settings payload
  else (state, [], false)

def transformMessage (state : AmazonBedrockChatStream) (message : Except AiMuxError EventStreamMessage) :
    AmazonBedrockChatStream × List (Item StreamPart) × Bool :=
  match message with
  | .error error => (state, [.error error], true)
  | .ok message =>
    match settings.fromStr message.data with
    | .error error => ({ state with finalFinishReason := some FINISH_ERROR }, [.ok (.error error)], false)
    | .ok payload =>
      let raw := settings.ctx.raw (.object [(message.eventType, payload)])
      if isException message then
        ({ state with finalFinishReason := some FINISH_ERROR },
          raw ++ [.ok (.error (exceptionError settings message.eventType payload))], false)
      else
        let transformed := state.transformEvent settings message.eventType payload
        (transformed.1, raw ++ transformed.2.1, transformed.2.2)

def start (state : AmazonBedrockChatStream) (controller : Controller StreamPart) :
    AmazonBedrockChatStream × Controller StreamPart :=
  (state, controller.send (settings.ctx.start ++ [Except.ok (StreamPart.responseMetadata {
    id := settings.requestId
    timestamp := settings.responseTimestamp
    modelId := some settings.modelId })]) false)

def transform (state : AmazonBedrockChatStream) (message : Except AiMuxError EventStreamMessage)
    (controller : Controller StreamPart) : AmazonBedrockChatStream × Controller StreamPart :=
  let transformed := state.transformMessage settings message
  (transformed.1, controller.send transformed.2.1 transformed.2.2)

def flush (state : AmazonBedrockChatStream) (controller : Controller StreamPart) : Controller StreamPart :=
  match settings.ctx.failWithoutTerminal state.finalFinishReason.isSome "a messageStop event" with
  | some error => controller.error error
  | none => controller.send state.finish.2 false

def transformer : Transformer (Except AiMuxError EventStreamMessage) StreamPart where
  State := AmazonBedrockChatStream
  initial := { extractor := settings.extractor }
  start := start settings
  transform := transform settings
  flush := flush settings

end AmazonBedrockChatStream

end Aimux.Bedrock
