import Aimux.Core.TextResult

/-! # Chat completion chunks

The streaming converter of `openai_output.rs`: the parts of `stream_text` become chunks in the format of
the Chat Completions API. A table gives every tool call its index and keeps the argument text sent for it.
-/

namespace Aimux.OpenAi

open Aimux.Core

structure ChatCompletionChunkFunction where
  name : Option String := none
  arguments : Option String := none

structure ChatCompletionChunkToolCall where
  index : Nat
  id : Option String := none
  toolType : Option String := none
  function : ChatCompletionChunkFunction

structure ChatCompletionDelta where
  role : Option String := none
  content : Option String := none
  reasoningContent : Option String := none
  toolCalls : Option (List ChatCompletionChunkToolCall) := none

structure ChatCompletionChunkChoice where
  index : Nat := 0
  delta : ChatCompletionDelta
  finishReason : Option String := none
  logprobs : Option Json := none

structure ChatCompletionUsage where
  promptTokens : Nat
  completionTokens : Nat
  totalTokens : Nat
  cachedTokens : Nat
  cacheWriteTokens : Option Nat
  reasoningTokens : Option Nat

structure ChatCompletionChunk where
  id : String
  object : String := "chat.completion.chunk"
  created : Nat
  model : String
  choices : List ChatCompletionChunkChoice := []
  usage : Option ChatCompletionUsage := none

structure OpenAiStreamOptions where
  includeUsage : Bool := true
  includeReasoning : Bool := true

structure ToolCallAccum where
  index : Nat
  arguments : String

structure StreamState where
  id : String
  model : String
  created : Nat
  started : Bool := false
  toolCalls : List (String × ToolCallAccum) := []
  nextToolIndex : Nat := 0
  toolCallOpened : List String := []
  finalUsage : Option LanguageModelUsage := none
  finalFinishReason : Option (FinishReasonUnified × Option String) := none
  finishEmitted : Bool := false
  /-- Whether there is a cell that the provider's response id and model are reported to. -/
  identity : Bool
  startPending : Bool := false

/-! ## Texts -/

def finishReasonToOpenai (unified : FinishReasonUnified) (raw : Option String) : String :=
  match unified with
  | .stop => "stop"
  | .length => "length"
  | .contentFilter => "content_filter"
  | .toolCalls => "tool_calls"
  | .error => "stop"
  | .other => raw.getD "stop"

def usageToOpenai (usage : LanguageModelUsage) : ChatCompletionUsage where
  promptTokens := usage.inputTokens.getD 0
  completionTokens := usage.outputTokens.getD 0
  totalTokens := (usage.inputTokens.getD 0 + usage.outputTokens.getD 0) % 2 ^ 32
  cachedTokens := usage.cacheReadTokens.getD 0
  cacheWriteTokens := usage.cacheWriteTokens
  reasoningTokens := usage.reasoningTokens

/-- `Number == Number`: an integer is no float, and the two zeros are equal. -/
def sameNumber : JsonNumber → JsonNumber → Bool
  | .int x, .int y => x = y
  | .float x, .float y => x = y || (x <<< 1 = 0 && y <<< 1 = 0)
  | _, _ => false

/-- `Value == Value` -/
def sameValue (libraries : Libraries) (x y : Json) : Bool :=
  isDeepEqualData { libraries with sameNumber := sameNumber } x y

def errorToolInput : AiMuxError → Option String
  | .invalidToolInput _ toolInput _ => some toolInput
  | .noSuchTool _ _ toolInput => toolInput
  | .toolCallRepair originalError _ => errorToolInput originalError
  | _ => none

def originalToolCallText (libraries : Libraries) (input : Json) (error : AiMuxError) : Option String :=
  (errorToolInput error).filter fun text =>
    sameValue libraries (RawToolCall.backFilledInput libraries text) input

def parsedToolCallArguments (libraries : Libraries) (call : ToolCall) : String :=
  match call.invalid, call.error.bind (originalToolCallText libraries call.input) with
  | some true, some raw => if raw.toList.all isWhitespace then "\x7b\x7d" else raw
  | _, _ => libraries.jsonText call.input

/-- `full.strip_prefix(sent).unwrap_or_default()` -/
def missingArguments (full sent : String) : String :=
  if sent.toList.isPrefixOf full.toList then String.ofList (full.toList.drop sent.toList.length) else ""

/-! ## The converter -/

namespace StreamState

def baseChunk (self : StreamState) (choice : ChatCompletionChunkChoice) : ChatCompletionChunk where
  id := self.id
  created := self.created
  model := self.model
  choices := [choice]

def deltaChunk (self : StreamState) (delta : ChatCompletionDelta) : ChatCompletionChunk :=
  self.baseChunk { delta }

def toolChunk (self : StreamState) (call : ChatCompletionChunkToolCall) : ChatCompletionChunk :=
  self.deltaChunk { toolCalls := some [call] }

def accum (self : StreamState) (id : String) : Option ToolCallAccum := self.toolCalls.lookup id

/-- `tool_calls.insert` -/
def setAccum (self : StreamState) (id : String) (acc : ToolCallAccum) : StreamState :=
  { self with toolCalls := (id, acc) :: self.toolCalls.filter (·.1 ≠ id) }

/-- A new entry takes the next index. -/
def allocate (self : StreamState) (id arguments : String) : StreamState :=
  { self.setAccum id { index := self.nextToolIndex, arguments } with
    nextToolIndex := (self.nextToolIndex + 1) % 2 ^ 32 }

def markOpened (self : StreamState) (id : String) : StreamState :=
  { self with toolCallOpened := id :: self.toolCallOpened }

/-- The role frame, unless it was sent. -/
def ensureStarted (self : StreamState) (reported : Option ResponseMetadata) :
    StreamState × List ChatCompletionChunk :=
  if self.started then (self, [])
  else
    let reported := if self.identity then reported else none
    let self := { self with
      started := true
      id := (reported.bind (·.id)).getD self.id
      model := (reported.bind (·.modelId)).getD self.model }
    (self, [self.deltaChunk { role := some "assistant", content := some "" }])

def pendingStart (self : StreamState) (reported : Option ResponseMetadata) :
    StreamState × List ChatCompletionChunk :=
  if self.startPending then self.ensureStarted reported else (self, [])

/-- The role frame, and a chunk of the state after it. -/
def say (self : StreamState) (reported : Option ResponseMetadata) (delta : ChatCompletionDelta) :
    StreamState × List ChatCompletionChunk :=
  let opening := self.ensureStarted reported
  (opening.1, opening.2 ++ [opening.1.deltaChunk delta])

def errorChunk (self : StreamState) (libraries : Libraries) (error : AiMuxError) :
    StreamState × List ChatCompletionChunk :=
  if self.finishEmitted then (self, [])
  else
    let self := { self with started := true }
    (self, [self.deltaChunk { content := some ("[error] " ++ libraries.errorText error) }])

def finalChunk (self : StreamState) (includeUsage : Bool) : StreamState × List ChatCompletionChunk :=
  if self.finishEmitted then (self, [])
  else
    let self := { self with finishEmitted := true, started := true }
    let finishReason := match self.finalFinishReason with
      | some (unified, raw) => finishReasonToOpenai unified raw
      | none => "stop"
    (self, [{ self.baseChunk { delta := {}, finishReason := some finishReason } with
      usage := if includeUsage then self.finalUsage.map usageToOpenai else none }])

def toolInputStart (self : StreamState) (reported : Option ResponseMetadata) (id toolName : String) :
    StreamState × List ChatCompletionChunk :=
  let opening := self.ensureStarted reported
  let entered := match opening.1.accum id with
    | some acc => (opening.1, acc.index)
    | none => (opening.1.allocate id "", opening.1.nextToolIndex)
  let opened := entered.1.markOpened id
  (opened, opening.2 ++ [opened.toolChunk {
    index := entered.2
    id := some id
    toolType := some "function"
    function := { name := some toolName, arguments := some "" } }])

def toolInputDelta (self : StreamState) (reported : Option ResponseMetadata) (id delta : String) :
    StreamState × List ChatCompletionChunk :=
  let opening := self.ensureStarted reported
  let entered := match opening.1.accum id with
    | some acc => (opening.1.setAccum id { acc with arguments := acc.arguments ++ delta }, acc.index)
    -- a delta without a start does not open the call
    | none => (opening.1.allocate id delta, opening.1.nextToolIndex)
  (entered.1, opening.2 ++ [entered.1.toolChunk { index := entered.2, function := { arguments := some delta } }])

def toolCall (self : StreamState) (libraries : Libraries) (reported : Option ResponseMetadata) (call : ToolCall) :
    StreamState × List ChatCompletionChunk :=
  let full := parsedToolCallArguments libraries call
  if call.toolCallId ∈ self.toolCallOpened then
    match self.accum call.toolCallId with
    | none => (self, [])
    | some acc =>
      let missing := missingArguments full acc.arguments
      if missing = "" then (self, [])
      else
        let sent := self.setAccum call.toolCallId { acc with arguments := acc.arguments ++ missing }
        (sent, [sent.toolChunk { index := acc.index, function := { arguments := some missing } }])
  else
    let opening := self.ensureStarted reported
    let opened := (opening.1.allocate call.toolCallId full).markOpened call.toolCallId
    (opened, opening.2 ++ [opened.toolChunk {
      index := opening.1.nextToolIndex
      id := some call.toolCallId
      toolType := some "function"
      function := { name := some call.toolName, arguments := some full } }])

def processPart (self : StreamState) (libraries : Libraries) (options : OpenAiStreamOptions)
    (reported : Option ResponseMetadata) : TextStreamPart → StreamState × List ChatCompletionChunk
  | .start =>
    if self.identity then ({ self with startPending := true }, []) else self.ensureStarted reported
  | .finishStep response _ _ _ _ =>
    if !self.started && !self.identity then ({ self with id := response.id, model := response.modelId }, [])
    else (self, [])
  | .textStart _ _ => self.ensureStarted reported
  | .textDelta _ _ delta => self.say reported { content := some delta }
  | .reasoningDelta _ _ delta =>
    if options.includeReasoning then self.say reported { reasoningContent := some delta } else (self, [])
  | .toolInputStart id toolName _ _ _ _ => self.toolInputStart reported id toolName
  | .toolInputDelta id delta _ => self.toolInputDelta reported id delta
  | .toolCall call => self.toolCall libraries reported call
  | .toolResult result =>
    self.say reported { content := some ("[tool result: " ++ result.toolName ++ "] " ++
      libraries.jsonText result.output) }
  | .toolError error =>
    if error.providerExecuted = some true then
      self.say reported { content := some ("[tool error: " ++ error.toolName ++ "] " ++
        libraries.jsonText error.error) }
    else (self, [])
  | .file output =>
    self.say reported { content := some ("data:" ++ output.file.mediaType ++ ";base64," ++
      output.file.base64 libraries) }
  | .source (.url _ url _ _) =>
    if url = "" then self.ensureStarted reported else self.say reported { content := some url }
  | .finish finishReason rawFinishReason totalUsage =>
    let self := { self with
      finalUsage := some totalUsage
      finalFinishReason := some (finishReason, rawFinishReason) }
    let opening := self.pendingStart reported
    let closing := opening.1.finalChunk options.includeUsage
    (closing.1, opening.2 ++ closing.2)
  | .error error =>
    let opening := self.pendingStart reported
    let failing := opening.1.errorChunk libraries error
    (failing.1, opening.2 ++ failing.2)
  | _ => (self, [])

/-- How the stream ends without a `Finish`: after an error that it does not survive, or by itself. -/
def close (self : StreamState) (libraries : Libraries) (options : OpenAiStreamOptions)
    (reported : Option ResponseMetadata) (error : Option AiMuxError) : List ChatCompletionChunk :=
  let opening := self.pendingStart reported
  let failing := match error with
    | some error => opening.1.errorChunk libraries error
    | none => (opening.1, [])
  opening.2 ++ failing.2 ++ (failing.1.finalChunk options.includeUsage).2

end StreamState

def isFinish : TextStreamPart → Bool
  | .finish _ _ _ => true
  | _ => false

/-- The items of the chunk stream. `reported` is what the cell holds when that many items were taken. -/
def convert (libraries : Libraries) (options : OpenAiStreamOptions) (reported : Nat → Option ResponseMetadata) :
    Nat → StreamState → List StreamItem → List (Except AiMuxError ChatCompletionChunk)
  | n, state, [] => (state.close libraries options (reported n) none).map .ok
  | n, state, .error error :: items =>
    if error.isRecoverableStreamError then
      .error error :: convert libraries options reported (n + 1) state items
    else (state.close libraries options (reported n) (some error)).map .ok
  | n, state, .ok part :: items =>
    let processed := state.processPart libraries options (reported n) part
    processed.2.map .ok ++
      if isFinish part then [] else convert libraries options reported (n + 1) processed.1 items

/-- `StreamState::new`, with the generated id and the time. -/
def StreamState.new (id : String) (created : Nat) (model : String) (identity : Bool) : StreamState where
  id := id
  model := model
  created := created
  identity := identity

end Aimux.OpenAi
