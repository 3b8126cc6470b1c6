import Aimux.Core.StreamRendering
import Aimux.OpenAi.ChatCompletion
import Aimux.OpenAi.ChatStream

/-! # The text of a message and of its stream

What a content item adds to the text of a message is the same in both converters, but for the line that a
finished message begins for a source, a file or a tool result.
-/

namespace Aimux.OpenAi

open Aimux.Core

/-! ## The text of a finished message -/

section Message

variable (libraries : Libraries)

def heading (toolName : String) (isError : Bool) : String :=
  if isError then "[tool error: " ++ toolName ++ "] " else "[tool result: " ++ toolName ++ "] "

/-- What an item adds to the text, without a line break before it. -/
def rendered : CompletionContent → String
  | .text text | .file text => text
  | .source (.url _ url _ _) => url
  | .toolResult toolName output isError => heading toolName isError ++ libraries.jsonText output
  | .reasoning _ | .toolCall .. | .source (.document ..) | .none => ""

/-- An item on a line of its own. -/
def ownLine : CompletionContent → Bool
  | .source (.url ..) | .file _ | .toolResult .. => true
  | _ => false

def addText (text : String) (item : CompletionContent) : String :=
  if ownLine item then appendLine text (rendered libraries item) else text ++ rendered libraries item

theorem contentText_add (gathered : Gathered) (item : CompletionContent) :
    (gathered.add libraries item).contentText = addText libraries gathered.contentText item := by
  match item with
  | .text _ | .file _ | .toolResult .. | .source (.url ..) => rfl
  | .reasoning _ | .toolCall .. | .none | .source (.document ..) => exact String.append_empty.symm

variable (items : List CompletionContent)

theorem contentText_foldl (gathered : Gathered) :
    (items.foldl (Gathered.add libraries) gathered).contentText =
      items.foldl (addText libraries) gathered.contentText := by
  induction items generalizing gathered with
  | nil => rfl
  | cons item items ih => rw [List.foldl_cons, List.foldl_cons, ih, contentText_add]

theorem message_content (gathered : Gathered) : gathered.message.content.getD "" = gathered.contentText := by
  simp only [Gathered.message]
  split
  · rename_i hEmpty
    exact hEmpty.1.symm
  · rfl

def renderedAll (items : List CompletionContent) : String := String.join (items.map (rendered libraries))

theorem length_appendLine (text line : String) :
    (appendLine text line).length = text.length + line.length + if text = "" then 0 else 1 := by
  unfold appendLine
  split
  · rw [String.length_append]
    rfl
  · rw [String.length_append, String.length_append]
    have hLine : ("\n" : String).length = 1 := rfl
    omega

theorem le_length_addText (text : String) (item : CompletionContent) :
    text.length + (rendered libraries item).length ≤ (addText libraries text item).length := by
  unfold addText
  split
  · rw [length_appendLine]
    omega
  · rw [String.length_append]

theorem le_length_foldl (text : String) :
    text.length + (renderedAll libraries items).length ≤ (items.foldl (addText libraries) text).length := by
  induction items generalizing text with
  | nil => simp [renderedAll]
  | cons item items ih =>
    have hItem := le_length_addText libraries text item
    have hRest := ih (addText libraries text item)
    simp only [renderedAll, List.map_cons, String.join_cons, String.length_append, List.foldl_cons] at hRest ⊢
    omega

/-- No item begins a line of its own after text. -/
def Unbroken (text : String) (items : List CompletionContent) : Prop :=
  ∀ before item after, items = before ++ item :: after → ownLine item = true →
    text = "" ∧ ∀ earlier ∈ before, rendered libraries earlier = ""

theorem unbroken_cons (text : String) (item : CompletionContent) (items : List CompletionContent) :
    Unbroken libraries text (item :: items) ↔
      (ownLine item = true → text = "") ∧ Unbroken libraries (text ++ rendered libraries item) items := by
  constructor
  · intro h
    refine ⟨fun hOwn => (h [] item items rfl hOwn).1, fun before next after hSplit hOwn => ?_⟩
    obtain ⟨hText, hEarlier⟩ := h (item :: before) next after (by rw [hSplit]; rfl) hOwn
    refine ⟨?_, fun earlier hMem => hEarlier earlier (List.mem_cons_of_mem item hMem)⟩
    rw [hText, hEarlier item List.mem_cons_self]
    rfl
  · rintro ⟨hFirst, hRest⟩ before next after hSplit hOwn
    match before with
    | [] =>
      obtain ⟨rfl, rfl⟩ := List.cons.inj hSplit
      exact ⟨hFirst hOwn, by simp⟩
    | _ :: before =>
      obtain ⟨rfl, rfl⟩ := List.cons.inj hSplit
      obtain ⟨hEmpty, hEarlier⟩ := hRest before next after rfl hOwn
      obtain ⟨hText, hItem⟩ := String.append_eq_empty_iff.mp hEmpty
      exact ⟨hText, List.forall_mem_cons.mpr ⟨hItem, hEarlier⟩⟩

theorem foldl_addText_iff (text : String) :
    items.foldl (addText libraries) text = text ++ renderedAll libraries items ↔ Unbroken libraries text items := by
  induction items generalizing text with
  | nil => simp [renderedAll, Unbroken]
  | cons item items ih =>
    rw [unbroken_cons, List.foldl_cons, renderedAll, List.map_cons, String.join_cons, ← String.append_assoc]
    by_cases hBroken : ownLine item = true ∧ text ≠ ""
    · obtain ⟨hOwn, hText⟩ := hBroken
      refine iff_of_false (fun hEqual => ?_) fun h => hText (h.1 hOwn)
      have hLength := le_length_foldl libraries items (addText libraries text item)
      rw [hEqual, addText, if_pos hOwn, length_appendLine, if_neg hText, renderedAll] at hLength
      simp only [String.length_append] at hLength
      omega
    · have hFirst : ownLine item = true → text = "" := fun hOwn => by_contra fun hText => hBroken ⟨hOwn, hText⟩
      have hAdd : addText libraries text item = text ++ rendered libraries item := by
        unfold addText appendLine
        split
        · rename_i hOwn
          rw [if_pos (hFirst hOwn)]
        · rfl
      rw [hAdd]
      exact (ih _).trans ⟨fun h => ⟨hFirst, h⟩, fun h => h.2⟩

end Message

/-! ## The text of a stream -/

def choiceText (choice : ChatCompletionChunkChoice) : String := choice.delta.content.getD ""

def chunkText (chunk : ChatCompletionChunk) : String := String.join (chunk.choices.map choiceText)

/-- The `content` deltas of a stream, concatenated. -/
def deltaText (chunks : List ChatCompletionChunk) : String := String.join (chunks.map chunkText)

@[simp] theorem deltaText_nil : deltaText [] = "" := rfl

@[simp] theorem deltaText_append (chunks later : List ChatCompletionChunk) :
    deltaText (chunks ++ later) = deltaText chunks ++ deltaText later := by
  simp [deltaText]

@[simp] theorem deltaText_delta (state : StreamState) (delta : ChatCompletionDelta) :
    deltaText [state.deltaChunk delta] = delta.content.getD "" := by
  simp [deltaText, chunkText, choiceText, StreamState.deltaChunk, StreamState.baseChunk]

@[simp] theorem deltaText_tool (state : StreamState) (call : ChatCompletionChunkToolCall) :
    deltaText [state.toolChunk call] = "" := deltaText_delta ..

variable {part : TextStreamPart}

section Stream

variable (self : StreamState) (libraries : Libraries) (options : OpenAiStreamOptions)
  (reported : Option ResponseMetadata)

@[simp] theorem ensureStarted_text : deltaText (self.ensureStarted reported).2 = "" := by
  unfold StreamState.ensureStarted
  split
  · rfl
  · exact deltaText_delta ..

@[simp] theorem pendingStart_text : deltaText (self.pendingStart reported).2 = "" := by
  unfold StreamState.pendingStart
  split
  · exact ensureStarted_text self reported
  · rfl

@[simp] theorem say_text (delta : ChatCompletionDelta) :
    deltaText (self.say reported delta).2 = delta.content.getD "" := by
  simp [StreamState.say]

theorem finalChunk_text (includeUsage : Bool) : deltaText (self.finalChunk includeUsage).2 = "" := by
  unfold StreamState.finalChunk
  split
  · rfl
  · simp [deltaText, chunkText, choiceText, StreamState.baseChunk]

theorem toolInputStart_text (id toolName : String) : deltaText (self.toolInputStart reported id toolName).2 = "" := by
  simp [StreamState.toolInputStart]

theorem toolInputDelta_text (id delta : String) : deltaText (self.toolInputDelta reported id delta).2 = "" := by
  simp [StreamState.toolInputDelta]

theorem toolCall_text (call : ToolCall) : deltaText (self.toolCall libraries reported call).2 = "" := by
  unfold StreamState.toolCall
  split
  · split
    · rfl
    · simp only
      split
      · rfl
      · exact deltaText_tool ..
  · simp

/-- What a part adds to the text, unless it ends the stream or is an error. -/
def partText : TextStreamPart → String
  | .textDelta _ _ delta => delta
  | .toolResult result => heading result.toolName false ++ libraries.jsonText result.output
  | .toolError error =>
    if error.providerExecuted = some true then heading error.toolName true ++ libraries.jsonText error.error else ""
  | .file output => "data:" ++ output.file.mediaType ++ ";base64," ++ output.file.base64 libraries
  | .source (.url _ url _ _) => url
  | _ => ""

def isPlain : TextStreamPart → Bool
  | .finish .. | .error _ => false
  | _ => true

theorem processPart_text (hPlain : isPlain part = true) :
    deltaText (self.processPart libraries options reported part).2 = partText libraries part := by
  cases part with
  | start =>
    simp only [StreamState.processPart]
    split
    · rfl
    · exact ensureStarted_text self reported
  | finishStep response usage finishReason rawFinishReason metadata =>
    simp only [StreamState.processPart]
    split <;> rfl
  | textStart id metadata => exact ensureStarted_text self reported
  | textDelta id metadata delta => exact say_text ..
  | reasoningDelta metadata id delta =>
    simp only [StreamState.processPart]
    split
    · exact say_text ..
    · rfl
  | toolInputStart id toolName _ _ _ _ => exact toolInputStart_text self reported id toolName
  | toolInputDelta id delta _ => exact toolInputDelta_text self reported id delta
  | toolCall call => exact toolCall_text self libraries reported call
  | toolResult result => exact say_text ..
  | toolError error =>
    simp only [StreamState.processPart, partText]
    split
    · exact say_text ..
    · rfl
  | file output => exact say_text ..
  | source source =>
    cases source with
    | url id url title metadata =>
      simp only [StreamState.processPart, partText]
      split
      · rename_i hEmpty
        rw [ensureStarted_text, hEmpty]
      · exact say_text ..
    | document => rfl
  | finish => cases hPlain
  | error => cases hPlain
  | _ => rfl

theorem finish_text (finishReason : FinishReasonUnified) (rawFinishReason : Option String)
    (totalUsage : LanguageModelUsage) :
    deltaText (self.processPart libraries options reported (.finish finishReason rawFinishReason totalUsage)).2 =
      "" := by
  simp [StreamState.processPart, finalChunk_text]

end Stream

/-- The text of a stream of plain parts up to its finish. -/
theorem convert_text (libraries : Libraries) (options : OpenAiStreamOptions)
    (reports : Nat → Option ResponseMetadata) (parts : List TextStreamPart)
    (hPlain : ∀ part ∈ parts, isPlain part = true) (finishReason : FinishReasonUnified)
    (rawFinishReason : Option String) (totalUsage : LanguageModelUsage) (more : List StreamItem) (n : Nat)
    (state : StreamState) :
    deltaText (values (convert libraries options reports n state
      (parts.map .ok ++ .ok (.finish finishReason rawFinishReason totalUsage) :: more))) =
      String.join (parts.map (partText libraries)) := by
  induction parts generalizing n state with
  | nil =>
    simp only [List.map_nil, List.nil_append, convert, isFinish, if_true, List.append_nil, values_map_ok]
    exact finish_text ..
  | cons part parts ih =>
    have hHead := hPlain part List.mem_cons_self
    have hFinish : isFinish part = false := by
      cases part with
      | finish => cases hHead
      | _ => rfl
    simp only [List.map_cons, List.cons_append, convert, hFinish, Bool.false_eq_true, if_false, String.join_cons]
    rw [values_append, values_map_ok, deltaText_append, processPart_text state libraries options _ hHead,
      ih (fun other hOther => hPlain other (List.mem_cons_of_mem part hOther))]

/-! ## Streams of a content list -/

def outPart : ContentPart → Option TextStreamPart
  | .text .. | .reasoning _ => none
  | .custom kind metadata => some (.custom kind metadata)
  | .reasoningFile output => some (.reasoningFile output)
  | .source source => some (.source source)
  | .file file metadata => some (.file { file, providerMetadata := metadata })
  | .toolCall call => some (.toolCall call)
  | .toolResult result => some (.toolResult result)
  | .toolError error => some (.toolError error)
  | .toolApprovalRequest request => some (.toolApprovalRequest request)
  | .toolApprovalResponse response => some (.toolApprovalResponse response)

/-- The parts around the content: the steps, and the input of a tool call on its way. -/
def isAround : TextStreamPart → Bool
  | .start | .startStep .. | .finishStep .. | .toolInputStart .. | .toolInputDelta .. | .toolInputEnd .. | .raw _ => true
  | _ => false

/-- The content piece by piece, texts and reasonings in any fragments. -/
inductive Streamed : List ContentPart → List TextStreamPart → Prop
  | nil : Streamed [] []
  | block {content parts} (kind : BlockKind) (id : String) (fragments : List (String × Option ProviderMetadata))
      (first last final : Option ProviderMetadata) (rest : Streamed content parts) :
      Streamed (kind.part (String.join (fragments.map (·.1))) final :: content)
        (kind.startOut id first ::
          (fragments.map (fun fragment => kind.deltaOut id fragment.1 fragment.2) ++ kind.endOut id last :: parts))
  | whole {content parts} (piece : ContentPart) (part : TextStreamPart) (sent : outPart piece = some part)
      (rest : Streamed content parts) : Streamed (piece :: content) (part :: parts)
  | around {content parts} (part : TextStreamPart) (silent : isAround part = true)
      (rest : Streamed content parts) : Streamed content (part :: parts)

section Streamed

variable {libraries : Libraries} {content : List ContentPart} {parts : List TextStreamPart}

theorem outPart_plain {piece : ContentPart} (hSent : outPart piece = some part) :
    isPlain part = true := by
  cases piece <;> cases hSent <;> rfl

theorem outPart_text {piece : ContentPart} (hSent : outPart piece = some part) :
    partText libraries part = rendered libraries (completionContent libraries piece) := by
  cases piece with
  | source source =>
    cases hSent
    cases source <;> rfl
  | toolError error =>
    cases hSent
    simp only [partText, completionContent]
    split <;> rfl
  | _ =>
    cases hSent
    try rfl

theorem isAround_plain (hSilent : isAround part = true) : isPlain part = true := by
  cases part <;> first | rfl | cases hSilent

theorem isAround_text (hSilent : isAround part = true) : partText libraries part = "" := by
  cases part <;> first | rfl | cases hSilent

theorem block_text (kind : BlockKind) (id : String) (fragments : List (String × Option ProviderMetadata))
    (final : Option ProviderMetadata) :
    String.join ((fragments.map fun fragment => kind.deltaOut id fragment.1 fragment.2).map (partText libraries)) =
      rendered libraries
        (completionContent libraries (kind.part (String.join (fragments.map (·.1))) final)) := by
  cases kind with
  | text =>
    rw [List.map_map]
    rfl
  | reasoning =>
    induction fragments with
    | nil => rfl
    | cons fragment fragments ih =>
      rw [List.map_cons, List.map_cons, String.join_cons, ih]
      rfl

theorem Streamed.plain (h : Streamed content parts) : ∀ part ∈ parts, isPlain part = true := by
  induction h with
  | nil => simp
  | block kind id fragments first last final rest ih =>
    intro part hPart
    rcases List.mem_cons.mp hPart with rfl | hPart
    · cases kind <;> rfl
    · rcases List.mem_append.mp hPart with hDelta | hPart
      · obtain ⟨fragment, _, rfl⟩ := List.mem_map.mp hDelta
        cases kind <;> rfl
      · rcases List.mem_cons.mp hPart with rfl | hPart
        · cases kind <;> rfl
        · exact ih part hPart
  | whole piece part sent rest ih =>
    exact List.forall_mem_cons.mpr ⟨outPart_plain sent, ih⟩
  | around part silent rest ih => exact List.forall_mem_cons.mpr ⟨isAround_plain silent, ih⟩

theorem Streamed.text (h : Streamed content parts) :
    String.join (parts.map (partText libraries)) =
      renderedAll libraries (content.map (completionContent libraries)) := by
  induction h with
  | nil => rfl
  | block kind id fragments first last final rest ih =>
    have hStart : partText libraries (kind.startOut id first) = "" := by cases kind <;> rfl
    have hEnd : partText libraries (kind.endOut id last) = "" := by cases kind <;> rfl
    rw [List.map_cons, List.map_append, List.map_cons, String.join_cons, String.join_append, String.join_cons, hStart,
      hEnd, String.empty_append, String.empty_append, ih, block_text kind id fragments final]
    simp [renderedAll]
  | whole piece part sent rest ih =>
    rw [List.map_cons, String.join_cons, ih, outPart_text sent]
    simp [renderedAll]
  | around part silent rest ih =>
    rw [List.map_cons, String.join_cons, ih, isAround_text silent, String.empty_append]

end Streamed

/-- The stream says the same text as the finished message exactly when no line is begun after text. -/
theorem deltas_eq_message_iff (libraries : Libraries) (options : OpenAiStreamOptions)
    (reports : Nat → Option ResponseMetadata) (state : StreamState) (randomId : String) (now : Nat) (model : String)
    (result : GenerateTextResult) (parts : List TextStreamPart) (hStreamed : Streamed (resultContent result) parts)
    (finishReason : FinishReasonUnified) (rawFinishReason : Option String) (totalUsage : LanguageModelUsage)
    (more : List StreamItem) (completion : ChatCompletion)
    (hCompletion : textResultToChatCompletion libraries randomId now result model = some completion)
    (choice : ChatCompletionChoice) (hChoice : choice ∈ completion.choices) :
    deltaText (values (convert libraries options reports 0 state
        (parts.map .ok ++ .ok (.finish finishReason rawFinishReason totalUsage) :: more))) =
      choice.message.content.getD "" ↔
    ∀ before item after, (resultContent result).map (completionContent libraries) = before ++ item :: after →
      ownLine item = true → ∀ earlier ∈ before, rendered libraries earlier = "" := by
  obtain ⟨finalStep, _, rfl⟩ := Option.map_eq_some_iff.mp hCompletion
  obtain rfl := List.mem_singleton.mp hChoice
  rw [convert_text libraries options reports parts hStreamed.plain, hStreamed.text, message_content,
    contentText_foldl, eq_comm]
  have hIff := foldl_addText_iff libraries ((resultContent result).map (completionContent libraries)) ""
  rw [String.empty_append] at hIff
  refine hIff.trans ?_
  simp only [Unbroken, true_and]

/-! ## A text and a source -/

def citedText : ContentPart := .text "See" none

def citedSource : ContentPart := .source (.url "source-1" "https://e.example" none none)

def citedTextParts : List TextStreamPart := [.textStart "0" none, .textDelta "0" none "See", .textEnd "0" none]

def citedSourceParts : List TextStreamPart := [.source (.url "source-1" "https://e.example" none none)]

theorem streamed_citedText {content : List ContentPart} {parts : List TextStreamPart} (h : Streamed content parts) :
    Streamed (citedText :: content) (citedTextParts ++ parts) :=
  .block .text "0" [("See", none)] none none none h

theorem streamed_citedSource {content : List ContentPart} {parts : List TextStreamPart} (h : Streamed content parts) :
    Streamed (citedSource :: content) (citedSourceParts ++ parts) :=
  .whole citedSource _ rfl h

def citedResult (content : List ContentPart) : GenerateTextResult where
  steps := [{
    callId := "call-1"
    stepNumber := 0
    model := { provider := "openai.responses", modelId := "gpt" }
    content := content
    finishReason := .stop
    rawFinishReason := none
    usage := {}
    warnings := []
    request := {}
    response := { id := "", timestamp := 0, modelId := "", headers := none, body := none, messages := [] }
    providerMetadata := none }]
  totalUsage := {}
  output := .notParsed

def citedStream (parts : List TextStreamPart) : List ChatCompletionChunk :=
  values (convert chatLibraries {} (fun _ => none) 0 (StreamState.new "chatcmpl-1" 0 "gpt" false)
    (parts.map .ok ++ [Except.ok (TextStreamPart.finish .stop none {})]))

def citedMessage (content : List ContentPart) : Option ChatCompletion :=
  textResultToChatCompletion chatLibraries "1" 0 (citedResult content) "gpt"

theorem deltas_eq_message_iff_leading_source :
    ∃ completion choice, citedMessage [citedSource, citedText] = some completion ∧ choice ∈ completion.choices ∧
      deltaText (citedStream (citedSourceParts ++ (citedTextParts ++ []))) = choice.message.content.getD "" := by
  obtain ⟨completion, choice, hCompletion, hChoice⟩ : ∃ completion choice,
      citedMessage [citedSource, citedText] = some completion ∧ choice ∈ completion.choices :=
    ⟨_, _, rfl, List.mem_singleton_self _⟩
  refine ⟨completion, choice, hCompletion, hChoice, ?_⟩
  refine (deltas_eq_message_iff chatLibraries {} (fun _ => none) (StreamState.new "chatcmpl-1" 0 "gpt" false) "1" 0
    "gpt" (citedResult [citedSource, citedText]) _ (streamed_citedSource (streamed_citedText .nil)) .stop none {} []
    completion hCompletion choice hChoice).mpr ?_
  rintro (_ | ⟨first, before⟩) item after hSplit hOwn
  · simp
  · obtain ⟨_, hRest⟩ := List.cons.inj hSplit
    match before with
    | [] =>
      obtain ⟨rfl, _⟩ := List.cons.inj hRest
      cases hOwn
    | _ :: before =>
      obtain ⟨_, hRest⟩ := List.cons.inj hRest
      simp at hRest

/-- The finished message begins a line for the source, the stream does not. -/
theorem source_after_text :
    Streamed [citedText, citedSource] (citedTextParts ++ (citedSourceParts ++ [])) ∧
    (citedMessage [citedText, citedSource]).map (·.choices.map (·.message.content)) =
      some [some "See\nhttps://e.example"] ∧
    deltaText (citedStream (citedTextParts ++ (citedSourceParts ++ []))) = "Seehttps://e.example" :=
  ⟨streamed_citedText (streamed_citedSource .nil), by decide +kernel, by decide +kernel⟩

end Aimux.OpenAi
