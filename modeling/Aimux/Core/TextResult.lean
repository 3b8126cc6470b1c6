import Aimux.Core.ResponseMessages

/-! # Results of text generation

The step and call results of `generate.rs`, and `StreamTextResult::consume`, which rebuilds a result
from the emitted stream. Step timing is floating point and no part of the result reads it back.
-/

namespace Aimux.Core

structure StepModel where
  provider : String
  modelId : String

structure StepResponse where
  id : String
  timestamp : Int
  modelId : String
  headers : Option Headers
  body : Option Json
  messages : List ModelMessage

structure StepResult where
  callId : String
  stepNumber : Nat
  model : StepModel
  content : List ContentPart
  finishReason : FinishReasonUnified
  rawFinishReason : Option String
  usage : LanguageModelUsage
  warnings : List Warning
  request : RequestInfo
  response : StepResponse
  providerMetadata : Option ProviderMetadata

def StepResult.text (step : StepResult) : String :=
  String.join (step.content.filterMap fun
    | .text text _ => some text
    | _ => none)

inductive OutputState where
  | parsed (value : Json)
  | notParsed
  | failed (error : AiMuxError)

structure GenerateTextResult where
  steps : List StepResult
  totalUsage : LanguageModelUsage
  output : OutputState

/-- `parse_complete_output` of the configured output; the default output is the text itself. -/
abbrev OutputParser := String → Except AiMuxError Json

def textOutput : OutputParser := fun text => .ok (.string text)

def generateOutput (step : StepResult) (output : OutputParser) : Except AiMuxError OutputState :=
  if step.finishReason = .stop ∨ (step.finishReason ≠ .toolCalls ∧ step.text ≠ "") then
    match output step.text with
    | .ok value => .ok (.parsed value)
    | .error error => .error error
  else .ok .notParsed

def streamOutput (step : StepResult) (output : OutputParser) : OutputState :=
  match output step.text with
  | .ok value => .parsed value
  | .error error => .failed error

abbrev StreamItem := Except AiMuxError TextStreamPart

structure StreamTextResult where
  libraries : Libraries
  callId : String
  model : StepModel
  output : OutputParser := textOutput

namespace StreamTextResult

structure Consumed where
  steps : List StepResult := []
  rm : ResponseMessageBuilder := {}
  request : RequestInfo := {}
  warnings : List Warning := []
  totalUsage : Option LanguageModelUsage := none
  aborted : Option AiMuxError := none
  firstError : Option AiMuxError := none

def recordPart (rm : ResponseMessageBuilder) : TextStreamPart → ResponseMessageBuilder
  | .textStart id metadata => rm.textStart id metadata
  | .textDelta id metadata text => rm.textDelta id text metadata
  | .textEnd id metadata => rm.textEnd id metadata
  | .reasoningStart id metadata => rm.reasoningStart id metadata
  | .reasoningDelta metadata id text => rm.reasoningDelta id text metadata
  | .reasoningEnd id metadata => rm.reasoningEnd id metadata
  | .toolCall call => rm.push (.toolCall call)
  | .toolResult result => rm.typedToolResult result
  | .toolError error => rm.push (.toolError error)
  | .toolApprovalResponse response => rm.push (.toolApprovalResponse response)
  | .source source => rm.push (.source source)
  | .file output => rm.file output false
  | .reasoningFile output => rm.file output true
  | .custom kind metadata => rm.push (.custom kind metadata)
  | .toolApprovalRequest approval => rm.push (.toolApprovalRequest approval)
  | _ => rm

def finishStep (result : StreamTextResult) (state : Consumed) (response : StepResponseMetadata)
    (usage : LanguageModelUsage) (finishReason : FinishReasonUnified) (rawFinishReason : Option String)
    (providerMetadata : Option ProviderMetadata) : Consumed :=
  let assembled := state.rm.finish result.libraries
  { state with
    rm := {}
    warnings := []
    request := {}
    steps := state.steps ++ [{
      callId := result.callId
      stepNumber := min state.steps.length (2 ^ 32 - 1)
      model := result.model
      content := assembled.content
      finishReason := finishReason
      rawFinishReason := rawFinishReason
      usage := usage
      warnings := state.warnings
      request := state.request
      response := {
        id := response.id
        timestamp := response.timestamp
        modelId := response.modelId
        headers := response.headers
        body := none
        messages := assembled.messages }
      providerMetadata := providerMetadata }] }

/-- Handle one part; the flag says that the loop breaks. -/
def consumePart (result : StreamTextResult) (state : Consumed) (part : TextStreamPart) : Consumed × Bool :=
  match part with
  | .startStep request warnings => ({ state with rm := {}, request, warnings }, false)
  | .finishStep response usage finishReason rawFinishReason metadata =>
    (result.finishStep state response usage finishReason rawFinishReason metadata, false)
  | .finish _ _ totalUsage => ({ state with totalUsage := some totalUsage }, true)
  | .abort reason => ({ state with aborted := some (.aborted (reason.getD "request aborted")) }, true)
  | .error error => ({ state with firstError := state.firstError <|> some error }, false)
  | part => ({ state with rm := recordPart state.rm part }, false)

def consumeItems (result : StreamTextResult) : Consumed → List StreamItem → Except AiMuxError Consumed
  | state, [] => .ok state
  | state, .error error :: rest =>
    if error.isRecoverableStreamError then
      result.consumeItems { state with firstError := state.firstError <|> some error } rest
    else .error error
  | state, .ok part :: rest =>
    match result.consumePart state part with
    | (next, true) => .ok next
    | (next, false) => result.consumeItems next rest

def consume (result : StreamTextResult) (stream : List StreamItem) : Except AiMuxError GenerateTextResult :=
  match result.consumeItems {} stream with
  | .error error => .error error
  | .ok state =>
    match state.firstError, state.steps.getLast? with
    | some error, _ => .error error
    | none, none => .error (state.aborted.getD
        (.noOutputGenerated "No output generated. Check the stream for errors." none))
    | none, some step => .ok {
        steps := state.steps
        totalUsage := state.totalUsage.getD {}
        output := streamOutput step result.output }

end StreamTextResult

end Aimux.Core
