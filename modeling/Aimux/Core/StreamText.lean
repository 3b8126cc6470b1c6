import Aimux.Core.TextResult
import Aimux.Lib.Transducer

/-! # Streaming text

`stream_text` of `generate.rs` as two parties over a bounded channel: the pump drives the provider
stream and observes abort and deadlines, the reader turns provider parts into the framed text stream.
Time is abstract: a deadline that is armed may fire whenever the pump waits.
-/

namespace Aimux.Core

structure TimeoutDeadline where
  label : String
  durationMs : Nat

namespace TimeoutDeadline

def error (deadline : TimeoutDeadline) : AiMuxError :=
  .timeout (deadline.label ++ " timeout of " ++ toString deadline.durationMs ++ "ms exceeded")

/-- `from_now`; the clock may not be able to represent the deadline. -/
def fromNow (label : String) (durationMs : Nat) (inRange : Bool) : Except AiMuxError TimeoutDeadline :=
  if inRange then .ok { label, durationMs }
  else .error (.invalidArgument
    (label ++ " timeout of " ++ toString durationMs ++ "ms exceeds the supported range") none)

end TimeoutDeadline

abbrev ProviderItem := Except AiMuxError StreamPart

def isTerminalItem : ProviderItem → Bool
  | .ok (.finish ..) => true
  | .ok _ => false
  | .error error => !error.isRecoverableStreamError

def isOutputChunk : StreamPart → Bool
  | .textDelta _ delta _ | .reasoningDelta _ delta _ | .toolInputDelta _ delta _ => delta ≠ ""
  | .toolCall _ | .file _ | .reasoningFile _ => true
  | _ => false

/-! ## The provider content of a streamed call -/

structure StreamedContent where
  content : List GenerateContent := []
  text : String → Option Nat := fun _ => none
  reasoning : String → Option Nat := fun _ => none

namespace StreamedContent

def appendText (delta : Option String) (metadata : Option ProviderMetadata) :
    GenerateContent → GenerateContent
  | .text text providerMetadata => .text (text ++ delta.getD "") (metadata <|> providerMetadata)
  | content => content

def upsertText (streamed : StreamedContent) (id : String) (delta : Option String)
    (metadata : Option ProviderMetadata) : StreamedContent :=
  match streamed.text id with
  | some index => { streamed with content := streamed.content.modify index (appendText delta metadata) }
  | none => { streamed with
      content := streamed.content ++ [.text (delta.getD "") metadata]
      text := Function.update streamed.text id (some streamed.content.length) }

def appendReasoning (delta : Option String) (metadata : Option ProviderMetadata) :
    GenerateContent → GenerateContent
  | .reasoning reasoning => .reasoning {
      text := reasoning.text ++ delta.getD "", providerMetadata := metadata <|> reasoning.providerMetadata }
  | content => content

def upsertReasoning (streamed : StreamedContent) (id : String) (delta : Option String)
    (metadata : Option ProviderMetadata) : StreamedContent :=
  match streamed.reasoning id with
  | some index =>
    { streamed with content := streamed.content.modify index (appendReasoning delta metadata) }
  | none => { streamed with
      content := streamed.content ++ [.reasoning { text := delta.getD "", providerMetadata := metadata }]
      reasoning := Function.update streamed.reasoning id (some streamed.content.length) }

def push (streamed : StreamedContent) (content : GenerateContent) : StreamedContent :=
  { streamed with content := streamed.content ++ [content] }

def observe (streamed : StreamedContent) : StreamPart → StreamedContent
  | .textStart id metadata => streamed.upsertText id none metadata
  | .textDelta id delta metadata => streamed.upsertText id (some delta) metadata
  | .textEnd id metadata =>
    let streamed := streamed.upsertText id none metadata
    { streamed with text := Function.update streamed.text id none }
  | .reasoningStart id metadata => streamed.upsertReasoning id none metadata
  | .reasoningDelta id delta metadata => streamed.upsertReasoning id (some delta) metadata
  | .reasoningEnd id metadata =>
    let streamed := streamed.upsertReasoning id none metadata
    { streamed with reasoning := Function.update streamed.reasoning id none }
  | .file file => streamed.push (.file file)
  | .reasoningFile file => streamed.push (.reasoningFile file)
  | .toolCall call => streamed.push (.toolCall call)
  | .toolApprovalRequest request => streamed.push (.toolApprovalRequest request)
  | .toolResult result => streamed.push (.toolResult result)
  | .custom kind metadata => streamed.push (.custom kind metadata)
  | .source source => streamed.push (.source source)
  | _ => streamed

end StreamedContent

/-! ## The reader -/

structure CallSettings where
  libraries : Libraries
  tools : Option (List Tool) := none
  toolChoice : Option LanguageModelV4ToolChoice := none
  provider : String
  modelId : String
  request : RequestInfo := {}
  headers : Option Headers := none
  response : ResponseMetadata := {}

/-- What the world answers while the reader handles one item: the caller's repair hook, downloads, and
an abort or deadline that interrupts a file resolution. -/
structure Answers where
  repairToolCall : Option RepairHook := none
  download : String → Except AiMuxError (List UInt8)
  interrupted : Option AiMuxError := none
  now : Int := 0

def resolveFile (answers : Answers) (file : LanguageModelFile) : Except AiMuxError GeneratedFileOutput :=
  let output (data : FileBytes) : GeneratedFileOutput :=
    { file := { data, mediaType := file.mediaType }, providerMetadata := file.providerMetadata }
  match answers.interrupted, file.data with
  | some error, _ => .error error
  | none, .data bytes => .ok (output bytes)
  | none, .url url _ =>
    match answers.download url with
    | .ok bytes => .ok (output (.binary bytes))
    | .error error => .error error

structure StreamStep where
  started : Bool := false
  warnings : List Warning := []
  /-- A finish or error chunk arrived. -/
  terminal : Bool := false
  sawOutput : Bool := false
  finishReason : FinishReasonUnified := .other
  rawFinishReason : Option String := none
  usage : LanguageModelUsage := {}
  providerMetadata : Option ProviderMetadata := none
  response : ResponseMetadata := {}

namespace StreamStep

def recordChunk (step : StreamStep) (part : StreamPart) : StreamStep :=
  if isOutputChunk part then { step with sawOutput := true } else step

def responseMetadata (step : StreamStep) (metadata : ResponseMetadata) : StreamStep :=
  { step with response := {
      id := metadata.id <|> step.response.id
      timestamp := metadata.timestamp <|> step.response.timestamp
      modelId := metadata.modelId <|> step.response.modelId } }

def finish (step : StreamStep) (finishReason : FinishReason) (usage : Usage)
    (providerMetadata : Option ProviderMetadata) : StreamStep :=
  { step with
    terminal := true
    finishReason := finishReason.unified
    rawFinishReason := finishReason.raw
    usage := asLanguageModelUsage usage
    providerMetadata := providerMetadata }

def intoParts (step : StreamStep) (headers : Option Headers) (now : Int) : List TextStreamPart :=
  [.finishStep {
      id := step.response.id.getD ""
      timestamp := step.response.timestamp.getD now
      modelId := step.response.modelId.getD ""
      headers := headers } step.usage step.finishReason step.rawFinishReason step.providerMetadata,
    .finish step.finishReason step.rawFinishReason (addLanguageModelUsage {} step.usage)]

end StreamStep

structure StreamReader where
  step : StreamStep := {}
  toolCalls : List (String × ToolCall) := []
  activeText : Finset String := ∅
  activeReasoning : Finset String := ∅
  /-- Kept only when a tool choice is enforced. -/
  content : Option StreamedContent := none

namespace StreamReader

/-- Every part but `stream-start` first opens the step. -/
def openStep (settings : CallSettings) (reader : StreamReader) (part : StreamPart) :
    StreamReader × List TextStreamPart :=
  match part with
  | .streamStart _ => (reader, [])
  | part =>
    ({ reader with
        step := { reader.step with started := true }.recordChunk part
        content := reader.content.map (·.observe part) },
      if reader.step.started then [] else [.startStep settings.request reader.step.warnings])

def onToolCall (settings : CallSettings) (answers : Answers) (reader : StreamReader) (raw : RawToolCall) :
    StreamReader × List TextStreamPart :=
  let parsed := parseToolCall settings.libraries settings.tools answers.repairToolCall raw
  ({ reader with
      toolCalls := (parsed.toolCallId, parsed) :: reader.toolCalls.filter (·.1 ≠ parsed.toolCallId) },
    .toolCall parsed :: ((invalidToolCallError settings.libraries parsed).map .toolError).toList)

def onApproval (reader : StreamReader) (approval : RawToolApprovalRequest) : TextStreamPart :=
  match reader.toolCalls.lookup approval.toolCallId with
  | some call => .toolApprovalRequest { approvalId := approval.approvalId, toolCall := call }
  | none => .error (.toolCallNotFoundForApproval approval.toolCallId approval.approvalId)

def onFile (answers : Answers) (file : LanguageModelFile) (part : GeneratedFileOutput → TextStreamPart) :
    TextStreamPart :=
  match resolveFile answers file with
  | .ok output => part output
  | .error error => .error error

def onFinish (settings : CallSettings) (reader : StreamReader) (finishReason : FinishReason)
    (usage : Usage) (metadata : Option ProviderMetadata) : StreamReader × List TextStreamPart :=
  let violation := toolChoiceViolationError settings.toolChoice (reader.toolCalls.map (·.2.toolName))
    finishReason.unified settings.provider settings.modelId ((reader.content.map (·.content)).getD [])
  match violation with
  | some error => ({ reader with
      step := reader.step.finish { finishReason with unified := .error } usage metadata
      content := reader.content.map fun streamed => { streamed with content := [] } }, [.error error])
  | none => ({ reader with step := reader.step.finish finishReason usage metadata }, [])

def notFound (kind id : String) : TextStreamPart :=
  .error (.other (kind ++ " part " ++ id ++ " not found") none)

/-- A part that is passed on; a delta or end of a part that is not active is followed by an error. -/
def forward (reader : StreamReader) (part : StreamPart) : StreamReader × List TextStreamPart :=
  let missing (kind id : String) (active : Finset String) : List TextStreamPart :=
    if id ∈ active then [] else [notFound kind id]
  match part with
  | .textStart id metadata =>
    ({ reader with activeText := insert id reader.activeText }, [.textStart id metadata])
  | .textDelta id delta metadata =>
    (reader, .textDelta id metadata delta :: missing "text" id reader.activeText)
  | .textEnd id metadata =>
    ({ reader with activeText := reader.activeText.erase id },
      .textEnd id metadata :: missing "text" id reader.activeText)
  | .reasoningStart id metadata =>
    ({ reader with activeReasoning := insert id reader.activeReasoning }, [.reasoningStart id metadata])
  | .reasoningDelta id delta metadata =>
    (reader, .reasoningDelta metadata id delta :: missing "reasoning" id reader.activeReasoning)
  | .reasoningEnd id metadata =>
    ({ reader with activeReasoning := reader.activeReasoning.erase id },
      .reasoningEnd id metadata :: missing "reasoning" id reader.activeReasoning)
  | .toolInputStart id toolName providerExecuted dynamic title metadata =>
    (reader, [.toolInputStart id toolName metadata providerExecuted dynamic title])
  | .toolInputDelta id delta metadata => (reader, [.toolInputDelta id delta metadata])
  | .toolInputEnd id metadata => (reader, [.toolInputEnd id metadata])
  | .custom kind metadata => (reader, [.custom kind metadata])
  | .source source => (reader, [.source source])
  | .raw rawValue => (reader, [.raw rawValue])
  | _ => (reader, [])

def transform (settings : CallSettings) (answers : Answers) (reader : StreamReader) (part : StreamPart) :
    StreamReader × List TextStreamPart :=
  match part with
  | .toolCall raw => reader.onToolCall settings answers raw
  | .file file => (reader, [onFile answers file .file])
  | .toolApprovalRequest approval => (reader, [reader.onApproval approval])
  | .reasoningFile file => (reader, [onFile answers file .reasoningFile])
  | .streamStart warnings => ({ reader with step := { reader.step with warnings } }, [])
  | .responseMetadata metadata => ({ reader with step := reader.step.responseMetadata metadata }, [])
  | .finish finishReason usage metadata => reader.onFinish settings finishReason usage metadata
  | .error error =>
    ({ reader with step := { reader.step with terminal := true, finishReason := .error } }, [.error error])
  | .toolResult result =>
    (reader, [providerToolResultPart result ((reader.toolCalls.lookup result.toolCallId).map (·.input))])
  | .textDelta id delta metadata =>
    -- an empty delta without metadata is not forwarded, whatever its block
    if delta = "" ∧ metadata.isNone then (reader, []) else reader.forward (.textDelta id delta metadata)
  | part => reader.forward part

def onPart (settings : CallSettings) (answers : Answers) (reader : StreamReader) (part : StreamPart) :
    StreamReader × List TextStreamPart :=
  let opened := reader.openStep settings part
  let transformed := opened.1.transform settings answers part
  (transformed.1, opened.2 ++ transformed.2)

/-- The stream ended: a step without output and without finish is an error. -/
def close (settings : CallSettings) (answers : Answers) (reader : StreamReader) : List TextStreamPart :=
  if reader.step.terminal || reader.step.sawOutput then reader.step.intoParts settings.headers answers.now
  else [.error (.noOutputGenerated
    "No output generated. The model stream ended without a finish chunk." none)]

end StreamReader

/-! ## Pump and reader together -/

inductive Pump where
  | polling
  /-- The channel was full; the item waits for room. -/
  | blocked (item : ProviderItem)
  | stopped

inductive ReaderPhase where
  | fresh | reading | ended
deriving DecidableEq

def STREAM_PUMP_CHANNEL_CAPACITY : Nat := 256

structure StreamText where
  settings : CallSettings
  provider : List ProviderItem
  operationDeadline : Option TimeoutDeadline := none
  chunkMs : Option Nat := none
  chunkDeadline : Option TimeoutDeadline := none
  pump : Pump := .polling
  channel : List ProviderItem := []
  overflowError : Option AiMuxError := none
  aborted : Bool := false
  reader : StreamReader
  phase : ReaderPhase := .fresh

namespace StreamText

def start (settings : CallSettings) (provider : List ProviderItem)
    (operationDeadline firstChunkDeadline : Option TimeoutDeadline) (chunkMs : Option Nat) : StreamText where
  settings := settings
  provider := provider
  operationDeadline := operationDeadline
  chunkMs := chunkMs
  chunkDeadline := firstChunkDeadline
  reader := {
    step := { response := settings.response }
    content := match settings.toolChoice with
      | some .required | some (.tool _) => some {}
      | _ => none }

inductive Action where
  | abort
  | pumpAborted
  | operationTimeout
  | chunkTimeout
  /-- The provider stream answers; the flag says whether a chunk deadline can be represented now. -/
  | providerNext (inRange : Bool)
  /-- The blocked send completes. -/
  | pumpSend (inRange : Bool)
  | next (answers : Answers)

def sendTerminalErr (self : StreamText) (error : AiMuxError) : StreamText :=
  if self.channel.length < STREAM_PUMP_CHANNEL_CAPACITY then
    { self with channel := self.channel ++ [.error error], pump := .stopped }
  else { self with overflowError := some error, pump := .stopped }

/-- The item is in the channel: stop after a terminal one, rearm the deadline after output. -/
def afterSend (self : StreamText) (item : ProviderItem) (inRange : Bool) : StreamText :=
  if isTerminalItem item then { self with pump := .stopped }
  else match item with
    | .error _ => { self with pump := .polling }
    | .ok part =>
      if isOutputChunk part then
        match self.chunkMs with
        | none => { self with pump := .polling, chunkDeadline := none }
        | some durationMs =>
          match TimeoutDeadline.fromNow "Chunk" durationMs inRange with
          | .ok deadline => { self with pump := .polling, chunkDeadline := some deadline }
          | .error error => self.sendTerminalErr error
      else { self with pump := .polling }

def enqueue (self : StreamText) (item : ProviderItem) (inRange : Bool) : StreamText :=
  { self with channel := self.channel ++ [item] }.afterSend item inRange

def providerNext (self : StreamText) (inRange : Bool) : StreamText :=
  match self.pump, self.aborted, self.provider with
  | .polling, false, [] => { self with pump := .stopped }
  | .polling, false, item :: rest =>
    if self.channel.length < STREAM_PUMP_CHANNEL_CAPACITY then
      { self with provider := rest }.enqueue item inRange
    else { self with provider := rest, pump := .blocked item }
  | _, _, _ => self

def pumpSend (self : StreamText) (inRange : Bool) : StreamText :=
  match self.pump, self.aborted with
  | .blocked item, false =>
    if self.channel.length < STREAM_PUMP_CHANNEL_CAPACITY then self.enqueue item inRange else self
  | _, _ => self

def pumpAborted (self : StreamText) : StreamText :=
  if self.aborted then { self with pump := .stopped } else self

/-- Total or step timeout, observed while polling and while blocked. -/
def operationTimeout (self : StreamText) : StreamText :=
  match self.pump, self.aborted, self.operationDeadline with
  | .polling, false, some deadline => self.sendTerminalErr deadline.error
  | .blocked _, false, some deadline => self.sendTerminalErr deadline.error
  | _, _, _ => self

def chunkTimeout (self : StreamText) : StreamText :=
  match self.pump, self.aborted, self.chunkDeadline with
  | .polling, false, some deadline => self.sendTerminalErr deadline.error
  | _, _, _ => self

/-- The reader returns; dropping it stops the pump. -/
def finished (self : StreamText) (emitted : List StreamItem) : StreamText × List StreamItem :=
  ({ self with phase := .ended, pump := .stopped, channel := [] }, emitted)

def handle (self : StreamText) (answers : Answers) : ProviderItem → StreamText × List StreamItem
  | .error error =>
    if error.isRecoverableStreamError then (self, [.error error]) else self.finished [.error error]
  | .ok part =>
    let handled := self.reader.onPart self.settings answers part
    ({ self with reader := handled.1 }, handled.2.map .ok)

def readNext (self : StreamText) (answers : Answers) : StreamText × List StreamItem :=
  match self.channel, self.pump, self.overflowError with
  | item :: rest, _, _ => { self with channel := rest }.handle answers item
  | [], .stopped, some error => { self with overflowError := none }.handle answers (.error error)
  | [], .stopped, none => self.finished ((self.reader.close self.settings answers).map .ok)
  | [], _, _ => (self, [])

def next (self : StreamText) (answers : Answers) : StreamText × List StreamItem :=
  match self.phase with
  | .fresh => ({ self with phase := .reading }, [.ok .start])
  | .ended => (self, [])
  | .reading =>
    if self.aborted then
      self.finished [.ok (.abort (some (self.settings.libraries.errorText (.aborted "request aborted"))))]
    else self.readNext answers

def step : Lib.Transducer StreamText Action StreamItem
  | self, .abort => ({ self with aborted := true }, [])
  | self, .pumpAborted => (self.pumpAborted, [])
  | self, .operationTimeout => (self.operationTimeout, [])
  | self, .chunkTimeout => (self.chunkTimeout, [])
  | self, .providerNext inRange => (self.providerNext inRange, [])
  | self, .pumpSend inRange => (self.pumpSend inRange, [])
  | self, .next answers => self.next answers

end StreamText

end Aimux.Core
