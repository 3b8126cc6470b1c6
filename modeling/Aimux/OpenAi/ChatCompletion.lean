import Aimux.OpenAi.ToolCalls

/-! # Chat completions

The converter of `openai_output.rs` for a finished call: the content of every step becomes one message.
What has no form of its own in the Chat Completions API is appended to the message text, on a line of its
own.
-/

namespace Aimux.OpenAi

open Aimux.Core

structure ChatCompletionFunction where
  name : String
  arguments : String

structure ChatCompletionToolCall where
  id : String
  toolType : String := "function"
  function : ChatCompletionFunction

structure ChatCompletionMessage where
  role : String := "assistant"
  content : Option String
  reasoningContent : Option String
  toolCalls : Option (List ChatCompletionToolCall)
  annotations : Option (List Json)

structure ChatCompletionChoice where
  index : Nat := 0
  message : ChatCompletionMessage
  finishReason : Option String
  logprobs : Option Json

structure ChatCompletion where
  id : String
  object : String := "chat.completion"
  created : Nat
  model : String
  choices : List ChatCompletionChoice
  usage : ChatCompletionUsage
  systemFingerprint : Option String := none

/-- A content item as the converter maps it. -/
inductive CompletionContent where
  | text (text : String)
  | reasoning (text : String)
  | toolCall (id name arguments : String)
  | source (source : Source)
  | file (text : String)
  | toolResult (toolName : String) (output : Json) (isError : Bool)
  | none

def completionContent (libraries : Libraries) : ContentPart → CompletionContent
  | .text text _ => .text text
  | .reasoning reasoning => .reasoning reasoning.text
  | .toolCall call => .toolCall call.toolCallId call.toolName (parsedToolCallArguments libraries call)
  | .source source => .source source
  | .file file _ => .file ("data:" ++ file.mediaType ++ ";base64," ++ file.base64 libraries)
  | .toolResult result => .toolResult result.toolName result.output false
  | .toolError error =>
    if error.providerExecuted = some true then .toolResult error.toolName error.error true else .none
  | .custom _ _ | .reasoningFile _ | .toolApprovalRequest _ | .toolApprovalResponse _ => .none

/-- What the loop over the content has gathered. -/
structure Gathered where
  contentText : String := ""
  reasoningText : String := ""
  toolCalls : List ChatCompletionToolCall := []
  annotations : List Json := []

/-- On a line of its own, if there is text before it. -/
def appendLine (contentText line : String) : String :=
  (if contentText = "" then contentText else contentText ++ "\n") ++ line

def urlCitation (url : String) (title : Option String) : Json :=
  .object [("type", .string "url_citation"),
    ("url_citation", .object (("url", .string url) :: (title.map fun title => ("title", .string title)).toList))]

def Gathered.add (libraries : Libraries) (gathered : Gathered) : CompletionContent → Gathered
  | .text text => { gathered with contentText := gathered.contentText ++ text }
  | .reasoning text => { gathered with reasoningText := gathered.reasoningText ++ text }
  | .toolCall id name arguments =>
    { gathered with toolCalls := gathered.toolCalls ++ [{ id, function := { name, arguments } }] }
  | .source (.url _ url title _) =>
    { gathered with
      annotations := gathered.annotations ++ [urlCitation url title]
      contentText := appendLine gathered.contentText url }
  | .file text => { gathered with contentText := appendLine gathered.contentText text }
  | .source (.document ..) | .none => gathered
  | .toolResult toolName output isError =>
    let heading := if isError then "[tool error: " ++ toolName ++ "] " else "[tool result: " ++ toolName ++ "] "
    { gathered with contentText := appendLine gathered.contentText (heading ++ libraries.jsonText output) }

def presentItems {α : Type} (items : List α) : Option (List α) := if items.isEmpty then none else some items

def Gathered.message (gathered : Gathered) : ChatCompletionMessage where
  content := if gathered.contentText = "" ∧ gathered.toolCalls ≠ [] then none else some gathered.contentText
  reasoningContent := if gathered.reasoningText = "" then none else some gathered.reasoningText
  toolCalls := presentItems gathered.toolCalls
  annotations := presentItems gathered.annotations

/-! ## Log probabilities -/

def orInsert (key : String) (value : Json) (fields : List (String × Json)) : List (String × Json) :=
  if (fields.lookup key).isSome then fields else fields ++ [(key, value)]

def withBytes : Json → Json
  | .object fields => .object (orInsert "bytes" .null fields)
  | value => value

def withTopLogprobs : String × Json → String × Json
  | ("top_logprobs", .array items) => ("top_logprobs", .array (items.map withBytes))
  | field => field

def logprobToken : Json → Json
  | .object fields =>
    .object ((orInsert "top_logprobs" (.array []) (orInsert "bytes" .null fields)).map withTopLogprobs)
  | value => value

def arrayItems? : Json → Option (List Json)
  | .array items => some items
  | _ => none

def chatLogprobs : Json → Option Json
  | .object fields => some (.object fields)
  | .array items =>
    let tokens := if items.all fun item => (arrayItems? item).isSome then (items.filterMap arrayItems?).flatten
      else items
    some (.object [("content", .array (tokens.map logprobToken)), ("refusal", .null)])
  | _ => none

def namespaceLogprobs : String × Json → Option Json
  | (_, .object fields) => (fields.lookup "logprobs").filter fun
    | .null => false
    | _ => true
  | _ => none

def logprobsOf (providerMetadata : Option ProviderMetadata) : Option Json :=
  ((providerMetadata.getD []).findSome? namespaceLogprobs).bind chatLogprobs

/-! ## The conversion -/

def buildChatCompletion (libraries : Libraries) (randomId : String) (now : Nat) (content : List CompletionContent)
    (finishReason : String) (providerMetadata : Option ProviderMetadata) (id : Option String) (model : String)
    (usage : ChatCompletionUsage) : ChatCompletion where
  id := id.getD ("chatcmpl-" ++ randomId)
  created := now
  model := model
  choices := [{
    message := (content.foldl (Gathered.add libraries) {}).message
    finishReason := some finishReason
    logprobs := logprobsOf providerMetadata }]
  usage := usage

def resultContent (result : GenerateTextResult) : List ContentPart := result.steps.flatMap (·.content)

/-- `none` for a result without steps. -/
def textResultToChatCompletion (libraries : Libraries) (randomId : String) (now : Nat) (result : GenerateTextResult)
    (model : String) : Option ChatCompletion :=
  result.steps.getLast?.map fun finalStep =>
    buildChatCompletion libraries randomId now ((resultContent result).map (completionContent libraries))
      (finishReasonToOpenai finalStep.finishReason finalStep.rawFinishReason) finalStep.providerMetadata
      (if finalStep.response.id = "" then none else some finalStep.response.id)
      (if finalStep.response.modelId = "" then model else finalStep.response.modelId)
      (usageToOpenai result.totalUsage)

end Aimux.OpenAi
