import Aimux.Core.StreamRendering
import Aimux.Provider.ChatToolCalls
import Aimux.Google.JsonAccumulator

/-! # The Gemini language model

`language_model.rs`: what a stream makes of the parts of its chunks, and what is taken out of a candidate that
came whole. Sources and the grounding metadata they come from are left out.
-/

namespace Aimux.Google

open Aimux.Core
open Aimux.Provider (Controller Transformer)

/-- `Value::get` -/
def get (value : Json) (key : String) : Option Json := (asObject value).bind (·.lookup key)

def getStr (value : Json) (key : String) : Option String := (get value key).bind asStr

def getBool (value : Json) (key : String) : Option Bool := (get value key).bind asBool

inductive Namespace where
  | google | vertex
deriving DecidableEq

def Namespace.writeKeys : Namespace → List String
  | .google => ["google"]
  | .vertex => ["googleVertex", "vertex"]

/-- Under every write key. -/
def Namespace.metadata (self : Namespace) (payload : Json) : ProviderMetadata := self.writeKeys.map (·, payload)

/-- What a stream is given, and what other libraries do. -/
structure Settings where
  nameSpace : Namespace
  codeExecutionToolName : String
  /-- The ids that are generated, in their order. -/
  generateId : Nat → String
  shown : Shown
  /-- `Number::as_f64` -/
  asF64 : JsonNumber → BitVec 64
  warnings : List Warning := []
  includeRawChunks : Bool := false
  strict : Bool := false

/-- `Value::to_string` -/
def Settings.toString (settings : Settings) (value : Json) : String :=
  String.ofList (writeJson settings.shown.number value)

/-! ## What both make of a part -/

/-- The ids so far: how many were generated, and those that results are associated with. -/
structure CallIds where
  generated : Nat := 0
  lastCodeExecutionToolCallId : Option String := none
  lastServerToolCallId : Option String := none

def CallIds.generate (ids : CallIds) (settings : Settings) : String × CallIds :=
  (settings.generateId ids.generated, { ids with generated := ids.generated + 1 })

/-- The id that was sent, unless it is empty. -/
def CallIds.sentOr (ids : CallIds) (settings : Settings) (sent : Option String) : String × CallIds :=
  match sent.filter (· ≠ "") with
  | some id => (id, ids)
  | none => ids.generate settings

def thoughtSignatureMetadata (settings : Settings) (part : Json) : Option ProviderMetadata :=
  ((getStr part "thoughtSignature").filter (· ≠ "")).map fun signature =>
    settings.nameSpace.metadata (.object [("thoughtSignature", .string signature)])

def isThought (part : Json) : Bool := (getBool part "thought").getD false

def serverToolMetadata (settings : Settings) (toolCallId serverToolType : String) (thoughtSignature : Option String) :
    ProviderMetadata :=
  settings.nameSpace.metadata (.object ([("serverToolCallId", Json.string toolCallId),
    ("serverToolType", .string serverToolType)] ++
      ((thoughtSignature.filter (· ≠ "")).map fun signature => ("thoughtSignature", Json.string signature)).toList))

def hasCode (ec : Json) : Bool := (getStr ec "code").any (· ≠ "")

/-- Provider-executed code execution. -/
def executableCode (settings : Settings) (ids : CallIds) (ec : Json) : Option RawToolCall × CallIds :=
  if hasCode ec then
    let generated := ids.generate settings
    (some {
      toolCallId := generated.1
      toolName := settings.codeExecutionToolName
      input := settings.toString ec
      providerExecuted := some true },
    { generated.2 with lastCodeExecutionToolCallId := some generated.1 })
  else (none, ids)

/-- Of the most recent code, if there is any. -/
def codeExecutionResult (settings : Settings) (ids : CallIds) (cer : Json) : Option ToolResult :=
  ids.lastCodeExecutionToolCallId.map fun callId => {
    toolCallId := callId
    toolName := settings.codeExecutionToolName
    result := .object [("outcome", (get cer "outcome").getD .null),
      ("output", .string ((getStr cer "output").getD ""))] }

def serverToolCall (settings : Settings) (ids : CallIds) (part tc : Json) : RawToolCall × CallIds :=
  let toolType := (getStr tc "toolType").getD ""
  let id := ids.sentOr settings (getStr tc "id")
  ({
    toolCallId := id.1
    toolName := "server:" ++ toolType
    input := settings.toString ((get tc "args").getD (.object []))
    providerExecuted := some true
    dynamic := some true
    providerMetadata := some (serverToolMetadata settings id.1 toolType (getStr part "thoughtSignature")) },
  { id.2 with lastServerToolCallId := some id.1 })

/-- A response belongs to the last call, which it takes. -/
def serverToolResponse (settings : Settings) (ids : CallIds) (part tr : Json) : ToolResult × CallIds :=
  let toolType := (getStr tr "toolType").getD ""
  let id := { ids with lastServerToolCallId := none }.sentOr settings (ids.lastServerToolCallId <|> getStr tr "id")
  ({
    toolCallId := id.1
    toolName := "server:" ++ toolType
    result := (get tr "response").getD (.object [])
    providerMetadata := some (serverToolMetadata settings id.1 toolType (getStr part "thoughtSignature")) }, id.2)

def inlineFile (settings : Settings) (part inline : Json) : Option LanguageModelFile :=
  match getStr inline "data", getStr inline "mimeType" with
  | some data, some mime => some {
      data := .data (.base64 data)
      mediaType := mime
      providerMetadata := thoughtSignatureMetadata settings part }
  | _, _ => none

/-! ## The stream -/

structure GoogleLanguageModelStream where
  textId : Option String := none
  reasoningId : Option String := none
  blockCounter : Nat := 0
  finalUsage : Usage := {}
  finalFinishReason : Option FinishReason := none
  hasToolCalls : Bool := false
  /-- The innermost is the first. -/
  activeToolCalls : List (RawToolCall × GoogleJsonAccumulator) := []
  responseMetadataEmitted : Bool := false
  streamErrored : Bool := false
  promptBlocked : Bool := false
  lastUrlContextMetadata : Option Json := none
  lastPromptFeedback : Option Json := none
  lastSafetyRatings : Option Json := none
  lastFinishMessage : Option Json := none
  lastUsageMetadataValue : Option Json := none
  ids : CallIds := {}

namespace GoogleLanguageModelStream

def blockId (self : GoogleLanguageModelStream) : BlockKind → Option String
  | .text => self.textId
  | .reasoning => self.reasoningId

def setBlockId (self : GoogleLanguageModelStream) (id : Option String) : BlockKind → GoogleLanguageModelStream
  | .text => { self with textId := id }
  | .reasoning => { self with reasoningId := id }

/-- Close the open block of the kind, if any. -/
def endBlock (self : GoogleLanguageModelStream) (kind : BlockKind) : GoogleLanguageModelStream × List StreamPart :=
  match self.blockId kind with
  | some id => (self.setBlockId none kind, [kind.endPart id none])
  | none => (self, [])

def endText (self : GoogleLanguageModelStream) : GoogleLanguageModelStream × List StreamPart := self.endBlock .text

def endReasoning (self : GoogleLanguageModelStream) : GoogleLanguageModelStream × List StreamPart :=
  self.endBlock .reasoning

/-- Start a block of the kind if not already active, and send the text in it. -/
def sendText (self : GoogleLanguageModelStream) (kind : BlockKind) (text : String)
    (metadata : Option ProviderMetadata) : GoogleLanguageModelStream × List StreamPart :=
  match self.blockId kind with
  | some id => (self, [kind.deltaPart id text metadata])
  | none =>
    let id := toString self.blockCounter
    ({ self with blockCounter := self.blockCounter + 1 }.setBlockId (some id) kind,
      [kind.startPart id metadata, kind.deltaPart id text metadata])

def textPart (self : GoogleLanguageModelStream) (text : String) (thought : Bool)
    (metadata : Option ProviderMetadata) : GoogleLanguageModelStream × List StreamPart :=
  if thought then
    let ended := self.endText
    let sent := ended.1.sendText .reasoning text metadata
    (sent.1, ended.2 ++ sent.2)
  else
    let ended := self.endReasoning
    let sent := ended.1.sendText .text text metadata
    -- a signed part closes its block
    let signed := if metadata.isSome then sent.1.endText else (sent.1, [])
    (signed.1, ended.2 ++ sent.2 ++ signed.2)

/-- Close the innermost streamed function call with its final arguments. -/
def finishStreamingToolCall (settings : Settings) (self : GoogleLanguageModelStream) :
    Option (GoogleLanguageModelStream × List StreamPart) :=
  match self.activeToolCalls with
  | [] => some (self, [])
  | (call, accumulator) :: outer => do
    let result ← finalize settings.shown accumulator
    let closing := if result.closingDelta = [] then [] else
      [.toolInputDelta call.toolCallId (String.ofList result.closingDelta) call.providerMetadata]
    return ({ self with activeToolCalls := outer, hasToolCalls := true },
      closing ++ [.toolInputEnd call.toolCallId call.providerMetadata,
        .toolCall { call with input := String.ofList result.finalJson }])

end GoogleLanguageModelStream

/-- One Vertex AI `partialArgs` entry. -/
def partialArg (settings : Settings) (arg : Json) : PartialArg where
  jsonPath := (getStr arg "jsonPath").getD ""
  stringValue := getStr arg "stringValue"
  numberValue := (get arg "numberValue").bind fun value =>
    match value with
    | .number number => some (settings.asF64 number)
    | _ => none
  boolValue := getBool arg "boolValue"
  nullValue := (get arg "nullValue").map fun _ => ()
  willContinue := getBool arg "willContinue"

/-- A member of a call that is not null. -/
def callField (call : Json) (name : String) : Option Json :=
  match get call name with
  | some .null => none
  | value => value

namespace GoogleLanguageModelStream

/-- The arguments of the innermost streamed call go on; a conflict ends the stream. -/
def streamArguments (settings : Settings) (self : GoogleLanguageModelStream) (entries : Option (List Json))
    (willContinue : Option Bool) (metadata : Option ProviderMetadata) :
    Option (GoogleLanguageModelStream × List StreamPart × Bool) :=
  match entries, self.activeToolCalls with
  | some entries, (active, accumulator) :: outer => do
    let args := entries.map (partialArg settings)
    let (next, result) ← processPartialArgs settings.shown accumulator args
    let continued := { self with activeToolCalls := (active, next) :: outer }
    match result with
    | .error error => return (continued, [.error error], false)
    | .ok result =>
      let delta := if result.textDelta = [] then [] else
        [.toolInputDelta active.toolCallId (String.ofList result.textDelta) metadata]
      if willContinue ≠ some true ∧ args.all (·.willContinue ≠ some true) then
        let finished ← finishStreamingToolCall settings continued
        return (finished.1, delta ++ finished.2, true)
      else return (continued, delta, true)
  | _, _ => some (self, [], true)

/-- The state, what is emitted, and whether the stream goes on. -/
def functionCall (settings : Settings) (self : GoogleLanguageModelStream) (call part : Json) :
    Option (GoogleLanguageModelStream × List StreamPart × Bool) :=
  let name := (callField call "name").bind asStr
  let args := callField call "args"
  let partialArgs := callField call "partialArgs"
  let willContinue := (callField call "willContinue").bind asBool
  let metadata := thoughtSignatureMetadata settings part
  let id := self.ids.sentOr settings ((callField call "id").bind asStr)
  if partialArgs.isSome ∨ (name.isSome ∧ willContinue = some true) then
    let entries := partialArgs.bind asArray
    match name with
    | none => streamArguments settings self entries willContinue metadata
    | some name =>
      let started : RawToolCall := { toolCallId := id.1, toolName := name, input := "", providerMetadata := metadata }
      let self := { self with ids := id.2, activeToolCalls := (started, {}) :: self.activeToolCalls }
      (streamArguments settings self entries willContinue metadata).map fun done =>
        (done.1, .toolInputStart id.1 name none none none metadata :: done.2.1, done.2.2)
  else if name = none ∧ args = none ∧ willContinue = none then
    (finishStreamingToolCall settings self).map fun done => (done.1, done.2, true)
  else
    match name with
    | none => some (self, [], true)
    | some name =>
      let input := match args with
        | some (.string args) => args
        | some args => settings.toString args
        | none => "\x7b\x7d"
      let delta := if args.isSome then [.toolInputDelta id.1 input metadata] else []
      some ({ self with ids := id.2, hasToolCalls := true },
        [.toolInputStart id.1 name none none none metadata] ++ delta ++ [.toolInputEnd id.1 metadata,
          .toolCall { toolCallId := id.1, toolName := name, input, providerMetadata := metadata }], true)

/-- One part of a chunk. -/
def transformPart (settings : Settings) (self : GoogleLanguageModelStream) (part : Json) :
    Option (GoogleLanguageModelStream × List StreamPart × Bool) :=
  let metadata := thoughtSignatureMetadata settings part
  match getStr part "text" with
  | some text =>
    -- an empty part is kept when it carries a signature
    if text ≠ "" ∨ metadata.isSome then
      let sent := self.textPart text (isThought part) metadata
      some (sent.1, sent.2, true)
    else some (self, [], true)
  | none =>
    match get part "executableCode" with
    | some ec =>
      let call := executableCode settings self.ids ec
      some ({ self with ids := call.2 }, (call.1.map StreamPart.toolCall).toList, true)
    | none =>
      match get part "codeExecutionResult" with
      | some cer => some (self, ((codeExecutionResult settings self.ids cer).map StreamPart.toolResult).toList, true)
      | none =>
        match get part "toolCall" with
        | some tc =>
          let call := serverToolCall settings self.ids part tc
          some ({ self with ids := call.2 }, [.toolCall call.1], true)
        | none =>
          match get part "toolResponse" with
          | some tr =>
            let result := serverToolResponse settings self.ids part tr
            some ({ self with ids := result.2 }, [.toolResult result.1], true)
          | none =>
            match get part "inlineData" with
            | some inline =>
              let ended := self.endText
              let closed := ended.1.endReasoning
              let file := (inlineFile settings part inline).map
                (if isThought part then StreamPart.reasoningFile else StreamPart.file)
              some (closed.1, ended.2 ++ closed.2 ++ file.toList, true)
            | none =>
              match get part "functionCall" with
              | some call =>
                let ended := self.endText
                let closed := ended.1.endReasoning
                (functionCall settings closed.1 call part).map fun done =>
                  (done.1, ended.2 ++ closed.2 ++ done.2.1, done.2.2)
              | none => some (self, [], true)

/-- The parts of a chunk, up to one that ends the stream. -/
def transformParts (settings : Settings) : List Json → GoogleLanguageModelStream →
    Option (GoogleLanguageModelStream × List StreamPart × Bool)
  | [], self => some (self, [], true)
  | part :: rest, self => do
    let (next, emitted, goesOn) ← transformPart settings self part
    if goesOn then
      let (last, more, goesOn) ← transformParts settings rest next
      return (last, emitted ++ more, goesOn)
    else return (next, emitted, false)

end GoogleLanguageModelStream

/-! ## Chunks -/

def parseFinishReason (reason : String) (hasToolCalls : Bool) : FinishReason where
  unified :=
    if reason = "STOP" then if hasToolCalls then .toolCalls else .stop
    else if reason = "MAX_TOKENS" then .length
    else if reason ∈ ["IMAGE_SAFETY", "RECITATION", "SAFETY", "BLOCKLIST", "PROHIBITED_CONTENT", "SPII"] then
      .contentFilter
    else if reason = "MALFORMED_FUNCTION_CALL" then .error
    else .other
  raw := some reason

def confirmedPromptBlockReason (feedback : Option Json) : Option String :=
  (feedback.bind fun feedback => getStr feedback "blockReason").filter fun reason =>
    reason ≠ "" ∧ reason ≠ "BLOCK_REASON_UNSPECIFIED" ∧ reason ≠ "BLOCKED_REASON_UNSPECIFIED"

structure Candidate where
  parts : Option (List Json) := none
  finishReason : Option String := none
  finishMessage : Option String := none
  safetyRatings : Option (List Json) := none
  urlContextMetadata : Option Json := none

structure StreamChunk where
  /-- The event that the chunk was read from. -/
  raw : Json := .null
  responseId : Option String := none
  candidates : Option (List Candidate) := none
  /-- The usage it is converted to, and the block itself. -/
  usageMetadata : Option (Usage × Json) := none
  promptFeedback : Option Json := none

namespace GoogleLanguageModelStream

/-- What a chunk says beside its candidates. -/
def readMetadata (self : GoogleLanguageModelStream) (chunk : StreamChunk) :
    GoogleLanguageModelStream × List StreamPart :=
  let first := chunk.responseId.isSome ∧ self.responseMetadataEmitted = false
  let emitted := if first then [.responseMetadata { id := chunk.responseId }] else []
  let self := { self with
    responseMetadataEmitted := self.responseMetadataEmitted || chunk.responseId.isSome
    finalUsage := (chunk.usageMetadata.map (·.1)).getD self.finalUsage
    lastUsageMetadataValue := (chunk.usageMetadata.map (·.2)) <|> self.lastUsageMetadataValue }
  match chunk.promptFeedback with
  | none => (self, emitted)
  | some feedback =>
    if self.promptBlocked then (self, emitted)
    else
      let self := { self with lastPromptFeedback := some feedback }
      match confirmedPromptBlockReason (some feedback) with
      | none => (self, emitted)
      | some reason => ({ self with
          promptBlocked := true
          finalFinishReason := some { unified := .contentFilter, raw := some reason } }, emitted)

/-- What a candidate says beside its parts. -/
def readCandidate (self : GoogleLanguageModelStream) (candidate : Candidate) : GoogleLanguageModelStream :=
  { self with
    lastUrlContextMetadata := candidate.urlContextMetadata <|> self.lastUrlContextMetadata
    lastSafetyRatings := (candidate.safetyRatings.map Json.array) <|> self.lastSafetyRatings
    lastFinishMessage := (candidate.finishMessage.map Json.string) <|> self.lastFinishMessage }

def transformChunk (settings : Settings) (self : GoogleLanguageModelStream) (chunk : StreamChunk) :
    Option (GoogleLanguageModelStream × List StreamPart × Bool) :=
  let read := self.readMetadata chunk
  match (chunk.candidates.getD []).head? with
  | none => some (read.1, read.2, true)
  | some candidate =>
    let self := read.1.readCandidate candidate
    if self.promptBlocked then some (self, read.2, true)
    else do
      let (next, emitted, goesOn) ← transformParts settings (candidate.parts.getD []) self
      if goesOn then
        return ({ next with finalFinishReason :=
          (candidate.finishReason.map (parseFinishReason · next.hasToolCalls)) <|> next.finalFinishReason },
          read.2 ++ emitted, true)
      else return (next, read.2 ++ emitted, false)

/-- Close the open segments and emit `Finish`. -/
def finish (settings : Settings) (self : GoogleLanguageModelStream) : GoogleLanguageModelStream × List StreamPart :=
  let ended := self.endText
  let closed := ended.1.endReasoning
  let finishReason := if self.streamErrored then { unified := .error, raw := none }
    else self.finalFinishReason.getD { unified := .other, raw := none }
  let metadata := settings.nameSpace.metadata (.object [
    ("promptFeedback", self.lastPromptFeedback.getD .null),
    ("groundingMetadata", .null),
    ("urlContextMetadata", self.lastUrlContextMetadata.getD .null),
    ("safetyRatings", self.lastSafetyRatings.getD .null),
    ("usageMetadata", self.lastUsageMetadataValue.getD .null),
    ("finishMessage", self.lastFinishMessage.getD .null),
    ("serviceTier", (self.lastUsageMetadataValue.bind (get · "serviceTier")).getD .null)])
  (if self.streamErrored then closed.1 else { closed.1 with finalFinishReason := none, finalUsage := {} },
    ended.2 ++ closed.2 ++
      [StreamPart.finish finishReason (if self.streamErrored then {} else self.finalUsage) (some metadata)])

end GoogleLanguageModelStream

inductive StreamEvent where
  | chunk (chunk : StreamChunk)
  /-- An error envelope, as it is reported. -/
  | error (raw : Json) (error : AiMuxError)
  /-- An event that could not be read, or did not come. -/
  | failed (raw : Option Json) (error : AiMuxError)

namespace GoogleLanguageModelStream

def send (controller : Controller StreamPart) (emitted : List StreamPart) : Controller StreamPart :=
  emitted.foldl Controller.enqueue controller

def raw (settings : Settings) (value : Json) : List StreamPart :=
  if settings.includeRawChunks then [.raw value] else []

def start (settings : Settings) (self : Option GoogleLanguageModelStream) (controller : Controller StreamPart) :
    Option GoogleLanguageModelStream × Controller StreamPart :=
  (self, send controller [.streamStart settings.warnings])

/-- What is left after a panic is not used again. -/
def transform (settings : Settings) (self : Option GoogleLanguageModelStream) (event : StreamEvent)
    (controller : Controller StreamPart) : Option GoogleLanguageModelStream × Controller StreamPart :=
  match self, event with
  | none, _ => (none, controller.terminate)
  | some self, .chunk chunk =>
    match transformChunk settings self chunk with
    | none => (none, controller.terminate)
    | some (next, emitted, goesOn) =>
      let sent := send controller (raw settings chunk.raw ++ emitted)
      let sent := if goesOn then sent else sent.terminate
      -- the turn is complete once it has both a finish reason and usage
      if next.lastUsageMetadataValue.isSome ∧ next.finalFinishReason.isSome then
        let finished := finish settings next
        (some finished.1, (send sent finished.2).terminate)
      else (some next, sent)
  | some self, .error value error =>
    let finished := finish settings { self with streamErrored := true }
    (some finished.1, (send controller (raw settings value ++ .error error :: finished.2)).terminate)
  | some self, .failed value error =>
    let sent := send controller (value.toList.flatMap (raw settings) ++ [.error error])
    (some self, if error.isRecoverableStreamError then sent else sent.terminate)

def flush (settings : Settings) (self : Option GoogleLanguageModelStream) (controller : Controller StreamPart) :
    Controller StreamPart :=
  match self with
  | none => controller
  | some self =>
    if settings.strict ∧ ¬ (self.finalFinishReason.isSome ∨ self.streamErrored) then
      controller.error (Provider.strictError "the stream ended without a candidate finishReason")
    else send controller (finish settings self).2

def transformer (settings : Settings) : Transformer StreamEvent StreamPart where
  State := Option GoogleLanguageModelStream
  initial := some {}
  start := start settings
  transform := transform settings
  flush := flush settings

end GoogleLanguageModelStream

/-- What the stream of the events emits. -/
def streamParts (settings : Settings) (events : List StreamEvent) : List StreamPart :=
  Provider.parts ((GoogleLanguageModelStream.transformer settings).pipeThrough events)

/-! ## A candidate that came whole -/

/-- On any `GenerateContent`. -/
def setProviderMetadata (metadata : ProviderMetadata) : GenerateContent → GenerateContent
  | .text text _ => .text text (some metadata)
  | .toolCall call => .toolCall { call with providerMetadata := some metadata }
  | .source (.url id url title _) => .source (.url id url title (some metadata))
  | .source (.document id mediaType title filename _) => .source (.document id mediaType title filename (some metadata))
  | .reasoning reasoning => .reasoning { reasoning with providerMetadata := some metadata }
  | .file file => .file { file with providerMetadata := some metadata }
  | .reasoningFile file => .reasoningFile { file with providerMetadata := some metadata }
  | .custom kind _ => .custom kind (some metadata)
  | .toolApprovalRequest request => .toolApprovalRequest { request with providerMetadata := some metadata }
  | .toolResult result => .toolResult { result with providerMetadata := some metadata }

structure Extraction where
  content : List GenerateContent := []
  hasToolCalls : Bool := false
  ids : CallIds := {}

namespace Extraction

def push (self : Extraction) (content : List GenerateContent) (ids : CallIds) : Extraction :=
  { self with content := self.content ++ content, ids }

def attach (self : Extraction) (metadata : Option ProviderMetadata) : Extraction :=
  match metadata with
  | some metadata => { self with
      content := self.content.modify (self.content.length - 1) (setProviderMetadata metadata) }
  | none => self

def extractText (settings : Settings) (self : Extraction) (part : Json) (text : String) : Extraction :=
  let metadata := thoughtSignatureMetadata settings part
  if text = "" then self.attach metadata
  else if isThought part then self.push [.reasoning { text, providerMetadata := metadata }] self.ids
  else self.push [.text text metadata] self.ids

def extractCall (settings : Settings) (self : Extraction) (part fc : Json) (name : String) : Extraction :=
  let id := self.ids.sentOr settings (getStr fc "id")
  let input := match get fc "args" with
    | none => Json.object []
    | some .null => .object []
    | some args => args
  { self.push [.toolCall {
      toolCallId := id.1
      toolName := name
      input := settings.toString input
      providerMetadata := thoughtSignatureMetadata settings part }] id.2 with hasToolCalls := true }

def extractPart (settings : Settings) (self : Extraction) (part : Json) : Extraction :=
  match get part "executableCode" with
  | some ec =>
    let call := executableCode settings self.ids ec
    self.push (call.1.map GenerateContent.toolCall).toList call.2
  | none =>
    match get part "codeExecutionResult" with
    | some cer =>
      self.push ((codeExecutionResult settings self.ids cer).map GenerateContent.toolResult).toList self.ids
    | none =>
      match getStr part "text" with
      | some text => self.extractText settings part text
      | none =>
        match get part "functionCall", (get part "functionCall").bind (getStr · "name") with
        | some fc, some name => self.extractCall settings part fc name
        | _, _ =>
          match get part "inlineData" with
          | some inline =>
            self.push ((inlineFile settings part inline).map
              (if isThought part then GenerateContent.reasoningFile else GenerateContent.file)).toList self.ids
          | none =>
            match get part "toolCall" with
            | some tc =>
              let call := serverToolCall settings self.ids part tc
              self.push [.toolCall call.1] call.2
            | none =>
              match get part "toolResponse" with
              | some tr =>
                let result := serverToolResponse settings self.ids part tr
                self.push [.toolResult result.1] result.2
              | none => self

end Extraction

/-- The content, and whether the client is to execute a call. -/
def extractContentFromCandidate (settings : Settings) (candidate : Candidate) : List GenerateContent × Bool :=
  let extracted := (candidate.parts.getD []).foldl (Extraction.extractPart settings) {}
  (extracted.content, extracted.hasToolCalls)

end Aimux.Google
