import Aimux.Bedrock.ConvertToChatMessages
import Aimux.Lib.Merging

/-! # Prompts as Anthropic messages

`convert_to_prompt.rs`: consecutive messages of one role become one message, and system messages stand in the system
prompt or between the others. What a part becomes is a parameter.
-/

namespace Aimux.Anthropic

open Aimux.Bedrock (invalidArgument trimmed)
open Aimux.Core
open Aimux.Lib (Piece)
open Aimux.Prompt (AssistantPart FilePart LanguageModelMessage LanguageModelPrompt ProviderOptions TextPart ToolPart
  UserPart)

/-! ## Options -/

def CANONICAL : String := "anthropic"

/-- The Anthropic options, where those of a custom name win. -/
def anthropicOptions (providerOptions : Option ProviderOptions) (name : String) : Option (List (String × Json)) :=
  let canonical := providerOptions.bind (·.namespaces.lookup CANONICAL)
  let custom := if name ≠ CANONICAL then providerOptions.bind (·.namespaces.lookup name) else none
  match canonical, custom with
  | none, none => none
  | some only, none | none, some only => some only
  | some canonical, some custom => some (custom.foldl (fun merged field => insertField merged field.1 field.2) canonical)

def MAX_CACHE_BREAKPOINTS : Nat := 4

def extractCacheControl (providerOptions : Option ProviderOptions) (optionsName : String) : Option Json :=
  (anthropicOptions providerOptions optionsName).bind fun anthropic =>
    ((anthropic.lookup "cacheControl").filter (!·.isNull)).or (anthropic.lookup "cache_control")

structure CacheControlValidator where
  breakpointCount : Nat := 0
  warnings : List Warning := []
  optionsName : String

def isFalsy : Json → Bool
  | .null | .bool false | .number (.int 0) | .string "" => true
  | _ => false

def CacheControlValidator.getCacheControl (validator : CacheControlValidator)
    (providerOptions : Option ProviderOptions) (contextType : String) (canCache : Bool) :
    Option Json × CacheControlValidator :=
  match extractCacheControl providerOptions validator.optionsName with
  | none => (none, validator)
  | some cc =>
    if isFalsy cc then (none, validator)
    else if !canCache then
      (none, { validator with
        warnings := validator.warnings ++ [.unsupported "cache_control on non-cacheable context"
          (some ("cache_control cannot be set on " ++ contextType ++ ". It will be ignored."))] })
    else
      let count := validator.breakpointCount + 1
      if MAX_CACHE_BREAKPOINTS < count then
        (none, { validator with
          breakpointCount := count
          warnings := validator.warnings ++ [.unsupported "cacheControl breakpoint limit"
            (some ("Maximum " ++ toString MAX_CACHE_BREAKPOINTS ++ " cache breakpoints exceeded (found " ++
              toString count ++ "). This breakpoint will be ignored."))] })
      else (some cc, { validator with breakpointCount := count })

def resolveCacheControl (validator : CacheControlValidator) (partOptions messageOptions : Option ProviderOptions)
    (isLastPart : Bool) (partContext messageContext : String) : Option Json × CacheControlValidator :=
  let own := validator.getCacheControl partOptions partContext true
  match own.1 with
  | some cc => (some cc, own.2)
  | none => if isLastPart then own.2.getCacheControl messageOptions messageContext true else (none, own.2)

def applyCc (block : Json) : Option Json → Json
  | some cc => block.set "cache_control" cc
  | none => block

/-! ## Parts -/

/-- What the conversion notes along the way. -/
structure Notes where
  betas : List String := []
  warnings : List Warning := []
  validator : CacheControlValidator

/-- `IndexSet::insert` -/
def Notes.addBeta (notes : Notes) (beta : String) : Notes :=
  if beta ∈ notes.betas then notes else { notes with betas := notes.betas ++ [beta] }

def Notes.warn (notes : Notes) (message : String) : Notes :=
  { notes with warnings := notes.warnings ++ [.other message] }

/-- What the parts become: given with each part are whether it is the last of its message, and the message's options. -/
structure PartConverters where
  convertFilePart : FilePart → Bool → Option ProviderOptions → Notes → Except AiMuxError (Json × Notes)
  convertToolResult : Prompt.ToolResultPart → Bool → Option ProviderOptions → Notes → Except AiMuxError (Json × Notes)
  convertAssistantPart : AssistantPart → Bool → Option ProviderOptions → Notes → Except AiMuxError (Option Json × Notes)
  /-- With the ids of the calls that were executed over MCP. -/
  convertAssistantToolResult : List String → Prompt.ToolResultPart → Bool → Option ProviderOptions → Notes → List Json × Notes

structure PromptSettings where
  parts : PartConverters
  /-- The caller's tool names with the provider's. -/
  toolNames : List (String × String)
  optionsName : String

def toProviderToolName (settings : PromptSettings) (name : String) : String :=
  (settings.toolNames.lookup name).getD name

/-- The ids of the tool calls that were executed over MCP. -/
def collectMcpToolUseIds (prompt : LanguageModelPrompt) (optionsName : String) : List String :=
  prompt.flatMap fun message => match message with
    | .assistant content _ => content.filterMap fun part => match part with
      | .toolCall call =>
        if call.providerOptions.isSome ∧ ((anthropicOptions call.providerOptions optionsName).bind
            (·.lookup "type")).bind asStr = some "mcp-tool-use" then some call.toolCallId
        else none
      | _ => none
    | _ => []

/-- The parts of a message, the last of them told. -/
def convertParts {α : Type} (convert : α → Bool → Notes → Except AiMuxError (List Json × Notes)) :
    List α → Notes → Except AiMuxError (List Json × Notes)
  | [], notes => .ok ([], notes)
  | part :: rest, notes => do
    let converted ← convert part rest.isEmpty notes
    let later ← convertParts convert rest converted.2
    return (converted.1 ++ later.1, later.2)

def convertUserPart (settings : PromptSettings) (messageOptions : Option ProviderOptions) (part : UserPart)
    (isLast : Bool) (notes : Notes) : Except AiMuxError (List Json × Notes) :=
  match part with
  | .text text =>
    let cc := resolveCacheControl notes.validator text.providerOptions messageOptions isLast "user message part"
      "user message"
    .ok ([applyCc (.object [("type", .string "text"), ("text", .string text.text)]) cc.1],
      { notes with validator := cc.2 })
  | .file file => do
    let converted ← settings.parts.convertFilePart file isLast messageOptions notes
    return ([converted.1], converted.2)

def convertToolPart (settings : PromptSettings) (messageOptions : Option ProviderOptions) (part : ToolPart)
    (isLast : Bool) (notes : Notes) : Except AiMuxError (List Json × Notes) :=
  match part with
  | .toolResult result => do
    let converted ← settings.parts.convertToolResult result isLast messageOptions notes
    return ([converted.1], converted.2)
  | .toolApprovalResponse _ => .ok ([], notes)

def convertAssistantMessagePart (settings : PromptSettings) (mcpToolUseIds : List String)
    (messageOptions : Option ProviderOptions) (part : AssistantPart) (isLast : Bool) (notes : Notes) :
    Except AiMuxError (List Json × Notes) :=
  match part with
  | .toolResult result => .ok (settings.parts.convertAssistantToolResult mcpToolUseIds result isLast messageOptions notes)
  | part => do
    let converted ← settings.parts.convertAssistantPart part isLast messageOptions notes
    return (converted.1.toList, converted.2)

/-! ## Messages -/

/-- The role that a message has for Anthropic. -/
inductive Eff where
  | user | assistant
deriving DecidableEq

structure SystemMessage where
  content : List Json
  clearAt : Option Json := none
  effort : Option Json := none

inductive Message where
  | turn (role : Eff) (content : List Json)
  | system (message : SystemMessage)

def Eff.text : Eff → String
  | .user => "user"
  | .assistant => "assistant"

def Message.toJson : Message → Json
  | .turn role content => .object [("role", .string role.text), ("content", .array content)]
  | .system message => .object ([("role", .string "system"), ("content", .array message.content)] ++
      message.clearAt.toList.map (fun clearAt => ("clear_at", clearAt)) ++
      message.effort.toList.map fun effort => ("output_config", .object [("effort", effort)]))

def isToolUse (part : Json) : Bool := part.getStr "type" = some "tool_use"

/-- A part that stays where it is, between segments. -/
def isBoundary (part : Json) : Bool :=
  part.getStr "type" ∈ [some "thinking", some "redacted_thinking", some "fallback"]

/-- The tool uses of a segment go to its end. -/
def flushSegment (segment : List Json) : List Json :=
  (segment.partition isToolUse).2 ++ (segment.partition isToolUse).1

def orderParts (segment : List Json) : List Json → List Json
  | [] => flushSegment segment
  | part :: rest =>
    if isBoundary part then flushSegment segment ++ part :: orderParts [] rest else orderParts (segment ++ [part]) rest

/-- The content of a message of the role. -/
def contentOf : Eff → List Json → List Json
  | .user, blocks => blocks
  | .assistant, blocks => orderParts [] blocks

/-- The messages so far, and the one that is gathered. -/
structure Grouping where
  messages : List Message := []
  last : Option Eff := none
  acc : List Json := []

def Grouping.flush (grouping : Grouping) : Grouping :=
  match grouping.last with
  | none => grouping
  | some role =>
    if grouping.acc.isEmpty then { grouping with last := none }
    else { messages := grouping.messages ++ [.turn role (contentOf role grouping.acc)] }

structure ConversionState where
  grouping : Grouping := {}
  notes : Notes
  system : List Json := []
  seenNonSystem : Bool := false
  hasSystem : Bool := false
  /-- The place of the last message with a user message in it. -/
  lastUserMessageIndex : Option Nat := none

/-! ## System messages -/

structure ConvertedSystem where
  blocks : List Json
  clearAt : Option Json
  effort : Option Json
  changes : Nat

def invalidOptions : AiMuxError := invalidArgument "invalid anthropic provider options"

def convertChange (settings : PromptSettings) (change : Json) : Except AiMuxError Json :=
  match change.getStr "type", change.getStr "toolName" with
  | some kind, some name =>
    if kind ∈ ["tool_addition", "tool_removal"] then
      .ok (.object [("type", .string kind), ("tool", .object [("type", .string "tool_reference"),
        ("name", .string (toProviderToolName settings name))])])
    else .error invalidOptions
  | _, _ => .error invalidOptions

def convertSystem (settings : PromptSettings) (content : String) (providerOptions : Option ProviderOptions)
    (validator : CacheControlValidator) : Except AiMuxError (ConvertedSystem × CacheControlValidator) := do
  let options := (anthropicOptions providerOptions settings.optionsName).getD []
  let clearAt := options.lookup "clearAt"
  if clearAt.any fun value => asStr value ≠ some "next_user_message" then throw invalidOptions
  let effort := options.lookup "effort"
  if effort.any fun value => asStr value ∉ [some "low", some "medium", some "high", some "xhigh", some "max"] then
    throw invalidOptions
  let changes ← match options.lookup "toolChanges" with
    | some value => match asArray value with
      | some changes => pure changes
      | none => throw invalidOptions
    | none => pure []
  let text : List Json × CacheControlValidator :=
    if content ≠ "" ∨ (changes.isEmpty ∧ clearAt.isNone ∧ effort.isNone) then
      let cc := validator.getCacheControl providerOptions "system message" true
      ([applyCc (.object [("type", .string "text"), ("text", .string content)]) cc.1], cc.2)
    else ([], validator)
  let changed ← changes.mapM (convertChange settings)
  return ({ blocks := text.1 ++ changed, clearAt := clearAt, effort := effort, changes := changes.length }, text.2)

/-- A run of system messages. -/
def convertSystemRun (settings : PromptSettings) : LanguageModelPrompt → CacheControlValidator →
    Except AiMuxError (List ConvertedSystem × CacheControlValidator)
  | .system content providerOptions :: rest, validator => do
    let first ← convertSystem settings content providerOptions validator
    let later ← convertSystemRun settings rest first.2
    return (first.1 :: later.1, later.2)
  | _, validator => .ok ([], validator)

def isEffortOnly (converted : ConvertedSystem) : Bool :=
  converted.blocks.isEmpty && converted.clearAt.isNone && converted.effort.isSome

/-- An initial system message: what is sent of it between the messages, and what is noted. -/
def initialSystem (notes : Notes) (converted : ConvertedSystem) : List SystemMessage × Notes :=
  if isEffortOnly converted then
    ([{ content := [], effort := converted.effort }], notes.addBeta "mid-conversation-output-config-2026-07-01")
  else if converted.clearAt.isSome || converted.effort.isSome then
    ([], notes.warn ("clearAt and effort on this initial system message are not supported by Anthropic. " ++
      "Use a separate effort-only system message with empty content to set effort. These options have been ignored."))
  else ([], notes)

/-- A system message in mid-conversation. -/
def laterSystem (notes : Notes) (converted : ConvertedSystem) : List SystemMessage × Notes :=
  let changed := if 0 < converted.changes then notes.addBeta "mid-conversation-tool-changes-2026-07-01" else notes
  let cleared := if converted.clearAt.isSome then changed.addBeta "mid-conversation-system-clear-at-2026-08-21" else changed
  let noted := if converted.effort.isSome then cleared.addBeta "mid-conversation-output-config-2026-07-01" else cleared
  ([{ content := converted.blocks, clearAt := converted.clearAt, effort := converted.effort }], noted)

def gather (convert : Notes → ConvertedSystem → List SystemMessage × Notes) :
    Notes → List ConvertedSystem → List SystemMessage × Notes
  | notes, [] => ([], notes)
  | notes, converted :: rest =>
    let first := convert notes converted
    let later := gather convert first.2 rest
    (first.1 ++ later.1, later.2)

/-- The system messages that go between the others; the first ones, and those without controls where there was none
before, are lifted into the system prompt. -/
def convertSystems (settings : PromptSettings) (prompt : LanguageModelPrompt) (state : ConversionState) :
    Except AiMuxError (List SystemMessage × ConversionState) := do
  let run ← convertSystemRun settings prompt state.notes.validator
  let converted := run.1
  let notes := { state.notes with validator := run.2 }
  let changeCount : Nat := (converted.map (·.changes)).sum
  let hasControls := converted.any fun message => message.clearAt.isSome || message.effort.isSome
  if !state.seenNonSystem || (!state.hasSystem && changeCount = 0 && !hasControls) then
    let warned := if 0 < changeCount then notes.warn ("tool changes on the initial system message are not supported by " ++
      "Anthropic. Configure the initial tool set via the tools option instead. The tool changes have been ignored.")
      else notes
    let gathered := gather initialSystem warned converted
    return (gathered.1, { state with
      notes := gathered.2
      system := state.system ++ (converted.flatMap (·.blocks)).filter (·.getStr "type" = some "text")
      hasSystem := true })
  else
    let gathered := gather laterSystem (notes.addBeta "mid-conversation-system-2026-04-07") converted
    return (gathered.1, { state with notes := gathered.2 })

/-! ## The prompt -/

def isSystem : LanguageModelMessage → Bool
  | .system _ _ => true
  | _ => false

def effOf : LanguageModelMessage → Eff
  | .assistant _ _ => .assistant
  | _ => .user

/-- The blocks of a message that is none of the system's. -/
def convertMessage (settings : PromptSettings) (mcpToolUseIds : List String) (message : LanguageModelMessage)
    (notes : Notes) : Except AiMuxError (List Json × Notes) :=
  match message with
  | .system _ _ => .ok ([], notes)
  | .user content providerOptions => convertParts (convertUserPart settings providerOptions) content notes
  | .tool content providerOptions => convertParts (convertToolPart settings providerOptions) content notes
  | .assistant content providerOptions =>
    convertParts (convertAssistantMessagePart settings mcpToolUseIds providerOptions) content notes

def hasUserContent : LanguageModelMessage → Bool
  | .user content _ => !content.isEmpty
  | _ => false

/-- The loop over the prompt; the first argument tells whether a system message came just before. -/
def convertMessages (settings : PromptSettings) (mcpToolUseIds : List String) :
    Bool → LanguageModelPrompt → ConversionState → Except AiMuxError ConversionState
  | _, [], state => .ok state
  | afterSystem, message :: rest, state =>
    if isSystem message then
      if afterSystem then convertMessages settings mcpToolUseIds true rest state
      else do
        let flushed := state.grouping.flush
        let converted ← convertSystems settings (message :: rest) state
        let grouping := { flushed with messages := flushed.messages ++ converted.1.map .system }
        convertMessages settings mcpToolUseIds true rest { converted.2 with grouping := grouping }
    else do
      let role := effOf message
      let grouping := if state.grouping.last ≠ some role then state.grouping.flush else state.grouping
      let lastUser := if hasUserContent message then some grouping.messages.length else state.lastUserMessageIndex
      let converted ← convertMessage settings mcpToolUseIds message state.notes
      convertMessages settings mcpToolUseIds false rest { state with
        grouping := { grouping with acc := grouping.acc ++ converted.1, last := some role }
        notes := converted.2
        seenNonSystem := true
        lastUserMessageIndex := lastUser }

/-! ## What is changed afterwards -/

/-- A text block without the blanks around its text. -/
def trimText (block : Json) : Json :=
  if block.getStr "type" = some "text" then
    match block.getStr "text" with
    | some text => block.set "text" (.string (trimmed text))
    | none => block
  else block

def mapLast {α : Type} (f : α → α) : List α → List α
  | [] => []
  | [item] => [f item]
  | item :: rest => item :: mapLast f rest

/-- Of a last message of the assistant, the last block. -/
def trimMessage : Message → Message
  | .turn .assistant content => .turn .assistant (mapLast trimText content)
  | message => message

/-- `Map::remove`: the last field takes the place. -/
def removeField (fields : List (String × Json)) (key : String) : List (String × Json) :=
  match fields.findIdx? (·.1 = key), fields.getLast? with
  | some index, some last => if index + 1 = fields.length then fields.dropLast else fields.dropLast.set index last
  | _, _ => fields

def removeMember (value : Json) (key : String) : Json :=
  match value with
  | .object fields => .object (removeField fields key)
  | other => other

/-- The blocks of the assistant's messages. -/
def assistantBlocks (messages : List Message) : List Json :=
  messages.flatMap fun message => match message with
    | .turn .assistant content => content
    | _ => []

def codeExecutionIds (messages : List Message) : List String :=
  ((assistantBlocks messages).filter fun block =>
    block.getStr "type" = some "server_tool_use" && block.getStr "name" = some "code_execution").filterMap (·.getStr "id")

/-- The source of a block's caller, where it is none of the code executions. -/
def orphanedSource (ids : List String) (block : Json) : Option String :=
  (block.get "caller").bind fun caller =>
    if caller.getStr "type" = some "direct" ∨ caller.strOrEmpty "tool_id" ∈ ids then none
    else some (caller.strOrEmpty "tool_id")

/-- The tool calls that were warned of, and the warnings. -/
structure Orphans where
  warned : List String := []
  warnings : List Warning := []

def normalizeBlock (ids : List String) (orphans : Orphans) (block : Json) : Orphans × Json :=
  match orphanedSource ids block with
  | none => (orphans, block)
  | some source =>
    let toolCallId := (((block.get "id").or (block.get "tool_use_id")).bind asStr).getD ""
    (if toolCallId ∈ orphans.warned then orphans
      else {
        warned := orphans.warned ++ [toolCallId]
        warnings := orphans.warnings ++ [.other ("Omitted caller metadata for tool " ++ toolCallId ++
          " because source code execution tool " ++ source ++ " is missing from the conversation history.")] },
      removeMember block "caller")

/-- Each item in turn, with what the ones before leave. -/
def mapWith {σ α : Type} (f : σ → α → σ × α) : σ → List α → σ × List α
  | state, [] => (state, [])
  | state, item :: rest =>
    let mapped := f state item
    let later := mapWith f mapped.1 rest
    (later.1, mapped.2 :: later.2)

def normalizeMessage (ids : List String) (orphans : Orphans) : Message → Orphans × Message
  | .turn .assistant content =>
    let normalized := mapWith (normalizeBlock ids) orphans content
    (normalized.1, .turn .assistant normalized.2)
  | message => (orphans, message)

/-- The callers before the last user message whose code execution is not there are left out. -/
def normalizeOrphanedCallers (messages : List Message) (lastUserMessageIndex : Option Nat) (warnings : List Warning) :
    List Message × List Warning :=
  match lastUserMessageIndex with
  | none => (messages, warnings)
  | some index =>
    let normalized := mapWith (normalizeMessage (codeExecutionIds messages)) {} (messages.take index)
    (normalized.2 ++ messages.drop index, warnings ++ normalized.1.warnings)

structure AnthropicPromptConversion where
  system : Option (List Json)
  messages : List Message
  betas : List String
  warnings : List Warning

def convertPrompt (settings : PromptSettings) (prompt : LanguageModelPrompt) (validator : CacheControlValidator) :
    Except AiMuxError AnthropicPromptConversion := do
  let mcpToolUseIds := collectMcpToolUseIds prompt settings.optionsName
  let state ← convertMessages settings mcpToolUseIds false prompt { notes := { validator := validator } }
  let messages := mapLast trimMessage state.grouping.flush.messages
  let normalized := normalizeOrphanedCallers messages state.lastUserMessageIndex state.notes.warnings
  return {
    system := if state.hasSystem then some state.system else none
    messages := normalized.1
    betas := state.notes.betas
    warnings := normalized.2 ++ state.notes.validator.warnings }

end Aimux.Anthropic
