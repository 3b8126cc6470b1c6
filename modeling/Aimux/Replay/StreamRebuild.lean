import Aimux.Http.ExchangeRun
import Aimux.Replay.CallOptions

/-! # A stream rebuilt from a recording

`rebuild_stream_result` of `replay.rs`: the events of the recorded body are read one after the other, and
what is open at the end is closed. `serde_json` is a parameter.
-/

namespace Aimux.Replay

open Aimux.Core Aimux.Recorder Aimux.Lib

structure SerdeJson where
  /-- `serde_json::from_str` -/
  fromStr : String → Option Json
  /-- The last character of a JSON text ends a value or is white space. -/
  closed : ∀ text, fromStr text ≠ none → text.toList.getLast? ≠ some ')'

/-! ## The usage -/

def u32FromJson (value : Json) (name : String) : Except AiMuxError (Option Nat) :=
  match asU64 value with
  | none => .ok none
  | some n =>
    if n < 2 ^ 32 then .ok (some n)
    else .error (.jsonParse s!"mock replay: usage '{name}' overflows u32: {n}"
      (some (.source (.mk "out of range integral type conversion attempted" none))))

def parseUsage (event : Json) : Except AiMuxError Usage := do
  let usage := field event "usage"
  if isNull usage then return {}
  let promptDetails := field usage "prompt_tokens_details"
  let completionDetails := field usage "completion_tokens_details"
  let prompt ← u32FromJson (field usage "prompt_tokens") "prompt_tokens"
  let cached ← u32FromJson (field promptDetails "cached_tokens") "prompt_tokens_details.cached_tokens"
  let completion ← u32FromJson (field usage "completion_tokens") "completion_tokens"
  let reasoning ← u32FromJson (field completionDetails "reasoning_tokens")
    "completion_tokens_details.reasoning_tokens"
  return {
    inputTokens := { total := prompt, cacheRead := cached }
    outputTokens := { total := completion, reasoning := reasoning }
    raw := asObject usage }

/-- An explicit null leaves the usage that was read. -/
def readUsage (finalUsage : Usage) (event : Json) : Except AiMuxError Usage :=
  if isNull (field event "usage") then .ok finalUsage else parseUsage event

/-! ## The events -/

/-- `str::trim` -/
def trim (text : List Char) : List Char := (text.dropWhile isWhitespace).rdropWhile isWhitespace

/-- `split("\n\n")` -/
def splitBlocks : List Char → List (List Char)
  | [] => [[]]
  | '\n' :: '\n' :: rest => [] :: splitBlocks rest
  | c :: rest =>
    match splitBlocks rest with
    | [] => [[c]]
    | block :: blocks => (c :: block) :: blocks

def blockData (block : List Char) : List Char :=
  let line := trim block
  trim (if "data:".toList <+: line then line.drop 5 else line)

/-- A block that is empty, the end mark or no JSON is passed over. -/
def blockEvent (serde : SerdeJson) (block : List Char) : Option Json :=
  let data := blockData block
  if data = [] ∨ data = "[DONE]".toList then none else serde.fromStr (String.ofList data)

def events (serde : SerdeJson) (body : String) : List Json :=
  (splitBlocks body.toList).filterMap (blockEvent serde)

def parseFinish (raw : String) : FinishReason where
  unified := match raw with
    | "stop" => .stop
    | "length" => .length
    | "content_filter" => .contentFilter
    | "tool_calls" => .toolCalls
    | "error" => .error
    | _ => .other
  raw := some raw

/-- `reasoning_content` is preferred. -/
def reasoningDelta (delta : Json) : Option String :=
  (asStr (field delta "reasoning_content")).or (asStr (field delta "reasoning"))

def toolIndex (delta : Json) : Nat := (asU64 (field delta "index")).getD 0

def toolArguments (delta : Json) : Option String := asStr (field (field delta "function") "arguments")

/-! ## The state -/

structure Progress where
  textStarted : Bool := false
  reasoningStarted : Bool := false
  responseMetaEmitted : Bool := false
  finalFinish : Option FinishReason := none
  /-- By index, in the order of their first deltas. -/
  toolCalls : List (Nat × RawToolCall) := []
  sawOpenai : Bool := false

namespace Progress

def textId : String := "0"

def reasoningId : String := "reasoning-0"

def endReasoning (self : Progress) : Progress × List StreamPart :=
  if self.reasoningStarted then ({ self with reasoningStarted := false }, [.reasoningEnd reasoningId none])
  else (self, [])

def endText (self : Progress) : Progress × List StreamPart :=
  if self.textStarted then ({ self with textStarted := false }, [.textEnd textId none]) else (self, [])

def readReasoning (self : Progress) (delta : Json) : Progress × List StreamPart :=
  match reasoningDelta delta with
  | none => (self, [])
  | some reasoning =>
    if reasoning = "" then (self, [])
    else ({ self with reasoningStarted := true },
      (if self.reasoningStarted then [] else [.reasoningStart reasoningId none]) ++
        [.reasoningDelta reasoningId reasoning none])

/-- Reasoning ends before a text. -/
def readText (self : Progress) (delta : Json) : Progress × List StreamPart :=
  match asStr (field delta "content") with
  | none => (self, [])
  | some content =>
    if content = "" then (self, [])
    else ({ self.endReasoning.1 with textStarted := true },
      self.endReasoning.2 ++ (if self.textStarted then [] else [.textStart textId none]) ++
        [.textDelta textId content none])

/-- A new call with empty arguments has no delta; a later delta is emitted even when it is empty. -/
def readToolDelta : Transducer Progress Json StreamPart := fun self delta =>
  match self.toolCalls.lookup (toolIndex delta) with
  | none =>
    let call : RawToolCall := {
      toolCallId := (asStr (field delta "id")).getD ""
      toolName := (asStr (field (field delta "function") "name")).getD ""
      input := (toolArguments delta).getD "" }
    ({ self with toolCalls := self.toolCalls ++ [(toolIndex delta, call)] },
      .toolInputStart call.toolCallId call.toolName none none none none ::
        if call.input = "" then [] else [.toolInputDelta call.toolCallId call.input none])
  | some call =>
    match toolArguments delta with
    | none => (self, [])
    | some arguments =>
      ({ self with toolCalls := self.toolCalls.map fun entry =>
          if entry.1 = toolIndex delta then (entry.1, { entry.2 with input := entry.2.input ++ arguments })
          else entry },
        [.toolInputDelta call.toolCallId arguments none])

/-- Reasoning ends before the calls. -/
def readToolCalls (self : Progress) (delta : Json) : Progress × List StreamPart :=
  match asArray (field delta "tool_calls") with
  | none => (self, [])
  | some deltas =>
    let read := Transducer.run readToolDelta self.endReasoning.1 deltas
    (read.1, self.endReasoning.2 ++ read.2)

def readFinish (self : Progress) (choice : Json) : Progress × List StreamPart :=
  match asStr (field choice "finish_reason") with
  | none => (self, [])
  | some raw =>
    ({ self.endReasoning.1.endText.1 with finalFinish := some (parseFinish raw) },
      self.endReasoning.2 ++ self.endReasoning.1.endText.2)

def readChoice : Transducer Progress Json StreamPart := fun self choice =>
  let delta := field choice "delta"
  let reasoning := self.readReasoning delta
  let text := reasoning.1.readText delta
  let calls := text.1.readToolCalls delta
  let finish := calls.1.readFinish choice
  (finish.1, reasoning.2 ++ (text.2 ++ (calls.2 ++ finish.2)))

/-- The identity of the response, from the first event that has one. -/
def readIdentity (self : Progress) (event : Json) : Progress × List StreamPart :=
  let id := asStr (field event "id")
  let model := asStr (field event "model")
  if !self.responseMetaEmitted && (id.isSome || model.isSome) then
    ({ self with responseMetaEmitted := true }, [.responseMetadata { id, modelId := model }])
  else (self, [])

def readChoices (self : Progress) (event : Json) : Progress × List StreamPart :=
  match asArray (field event "choices") with
  | none => (self, [])
  | some choices => Transducer.run readChoice { self with sawOpenai := true } choices

def readEvent : Transducer Progress Json StreamPart := fun self event =>
  let identity := self.readIdentity event
  let choices := identity.1.readChoices event
  (choices.1, identity.2 ++ choices.2)

/-- What is open at the end is closed. -/
def closing (self : Progress) : List StreamPart :=
  self.endReasoning.2 ++ (self.endText.2 ++
    self.toolCalls.flatMap fun entry => [StreamPart.toolInputEnd entry.2.toolCallId none, .toolCall entry.2])

def finishReason (self : Progress) : FinishReason := self.finalFinish.getD { unified := .stop, raw := none }

end Progress

/-! ## The stream -/

/-- The usage is read in the same loop; an error there leaves nothing of what was read. -/
def rebuildEvents (read : List Json) : Except AiMuxError (List StreamPart) := do
  let usage ← read.foldlM readUsage {}
  let rebuilt := Transducer.run Progress.readEvent {} read
  if rebuilt.1.sawOpenai then
    return .streamStart [] :: rebuilt.2 ++ (rebuilt.1.closing ++ [StreamPart.finish rebuilt.1.finishReason usage none])
  else .error (.unsupportedFunctionality
    "mock replay: response is not an OpenAI chat.completions SSE stream")

def rebuildStream (serde : SerdeJson) (body : String) : Except AiMuxError (List StreamPart) :=
  rebuildEvents (events serde body)

def isSuccessful (exchange : HttpExchange) : Option ResponseRecord :=
  if !exchange.finalized || exchange.error.isSome then none
  else exchange.response.filter fun response => 200 ≤ response.status && response.status < 300

/-- The response of the last successful exchange. -/
def lastResponse (exchanges : List HttpExchange) : Except AiMuxError ResponseRecord :=
  match exchanges.reverse.findSome? isSuccessful with
  | some response => .ok response
  | none => .error (.invalidArgument
    "mock replay: recording has no successful (2xx, finalized, error-free) response" none)

def rebuildStreamResult {Message : Type} (serde : SerdeJson) (recording : Recording Message) :
    Except AiMuxError (List StreamPart) := do
  let response ← lastResponse recording.exchanges
  match response.body with
  | some body => rebuildStream serde body
  | none => .error (.invalidArgument "mock replay: response has no body" none)

end Aimux.Replay
