import Aimux.Core.StreamText

/-! # Generating text

`generate_text` of `generate.rs` from the provider's result on: parse the tool calls, check the tool
choice, convert the content in one pass and parse the output.
-/

namespace Aimux.Core

structure GenerateResponse where
  id : Option String := none
  timestamp : Option Int := none
  modelId : Option String := none
  headers : Option Headers := none
  body : Option Json := none

structure GenerateResult where
  content : List GenerateContent
  finishReason : FinishReason
  usage : Usage := {}
  warnings : List Warning := []
  providerMetadata : Option ProviderMetadata := none
  request : Option RequestInfo := none
  response : Option GenerateResponse := none

def rawToolCall : GenerateContent → Option RawToolCall
  | .toolCall call => some call
  | _ => none

def deferredAllowed (tools : Option (List Tool)) (toolName : String) : Bool :=
  (tools.getD []).any fun
    | .provider tool => tool.name == toolName && tool.supportsDeferredResults == some true
    | .function _ => false

def convertFile (answers : Answers) (rm : ResponseMessageBuilder) (file : LanguageModelFile)
    (reasoning : Bool) : Except AiMuxError ResponseMessageBuilder :=
  match resolveFile answers file with
  | .ok output => .ok (rm.file output reasoning)
  | .error error => .error error

def convertPart (settings : CallSettings) (answers : Answers) (toolCalls : List ToolCall)
    (rm : ResponseMessageBuilder) : GenerateContent → Except AiMuxError ResponseMessageBuilder
  | .text text metadata => .ok (rm.push (.text text metadata))
  | .toolCall call =>
    match toolCalls.find? fun parsed => parsed.toolCallId == call.toolCallId with
    | some parsed => .ok (rm.push (.toolCall parsed))
    -- the source panics here
    | none => .error (.other "every tool call was parsed above" none)
  | .reasoning reasoning => .ok (rm.push (.reasoning reasoning))
  | .source source => .ok (rm.push (.source source))
  | .file file => convertFile answers rm file false
  | .reasoningFile file => convertFile answers rm file true
  | .custom kind metadata => .ok (rm.push (.custom kind metadata))
  | .toolApprovalRequest approval =>
    match toolCalls.find? fun call => call.toolCallId == approval.toolCallId with
    | some call => .ok (rm.push (.toolApprovalRequest {
        approvalId := approval.approvalId, toolCall := call }))
    | none => .error (.toolCallNotFoundForApproval approval.toolCallId approval.approvalId)
  | .toolResult result =>
    if toolCalls.any (fun call => call.toolCallId == result.toolCallId) ||
        deferredAllowed settings.tools result.toolName then
      .ok (rm.toolResult result)
    else .error (.other ("Tool call " ++ result.toolCallId ++ " not found.") none)

def convertParts (settings : CallSettings) (answers : Answers) (toolCalls : List ToolCall) :
    ResponseMessageBuilder → List GenerateContent → Except AiMuxError ResponseMessageBuilder
  | rm, [] => .ok rm
  | rm, content :: rest =>
    match convertPart settings answers toolCalls rm content with
    | .ok next => convertParts settings answers toolCalls next rest
    | .error error => .error error

def convertGeneratedContent (settings : CallSettings) (answers : Answers) (toolCalls : List ToolCall)
    (content : List GenerateContent) : Except AiMuxError ResponseMessages :=
  match convertParts settings answers toolCalls {} content with
  | .error error => .error error
  | .ok rm =>
    let errors := (toolCalls.filter fun call => call.dynamic = some true).filterMap
      (invalidToolCallError settings.libraries)
    .ok ((errors.foldl (fun rm error => rm.push (.toolError error)) rm).finish settings.libraries)

def buildGeneratedStep (settings : CallSettings) (callId : String) (now : Int) (result : GenerateResult)
    (content : ResponseMessages) : StepResult :=
  let response := result.response.getD {}
  { callId := callId
    stepNumber := 0
    model := { provider := settings.provider, modelId := settings.modelId }
    content := content.content
    finishReason := result.finishReason.unified
    rawFinishReason := result.finishReason.raw
    usage := asLanguageModelUsage result.usage
    warnings := result.warnings
    request := result.request.getD {}
    response := {
      id := (response.id <|> settings.response.id).getD ""
      timestamp := (response.timestamp <|> settings.response.timestamp).getD now
      modelId := (response.modelId <|> some settings.modelId).getD ""
      headers := response.headers
      body := response.body
      messages := content.messages }
    providerMetadata := result.providerMetadata }

def generateStep (settings : CallSettings) (callId : String) (answers : Answers) (result : GenerateResult) :
    Except AiMuxError StepResult :=
  let toolCalls := (result.content.filterMap rawToolCall).map
    (parseToolCall settings.libraries settings.tools answers.repairToolCall)
  match toolChoiceViolationError settings.toolChoice (toolCalls.map (·.toolName))
      result.finishReason.unified settings.provider settings.modelId result.content with
  | some error => .error error
  | none =>
    match convertGeneratedContent settings answers toolCalls result.content with
    | .error error => .error error
    | .ok content => .ok (buildGeneratedStep settings callId answers.now result content)

def generateText (settings : CallSettings) (callId : String) (output : OutputParser) (answers : Answers)
    (result : GenerateResult) : Except AiMuxError GenerateTextResult :=
  match generateStep settings callId answers result with
  | .error error => .error error
  | .ok step =>
    match generateOutput step output with
    | .error error => .error error
    | .ok output => .ok {
        steps := [step]
        totalUsage := addLanguageModelUsage {} step.usage
        output := output }

/-- `response.messages`: those of the final step. -/
def GenerateTextResult.responseMessages (result : GenerateTextResult) : List ModelMessage :=
  ((result.steps.getLast?).map (·.response.messages)).getD []

end Aimux.Core
