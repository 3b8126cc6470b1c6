import Aimux.Responses.EventStream

/-! # What an event can do

The handlers of tool items leave everything else of the state as it is, and emit parts of tools only. What the other
handlers do is listed once.
-/

namespace Aimux.Responses

open Aimux.Core Aimux.Provider
open Aimux.Lib (Transducer)

/-! ## The stream as a run -/

/-- The events of a stream, one after the other. -/
def run (settings : ResponsesSettings) (state : OpenAIResponsesStream) (events : List (Except AiMuxError Json)) :
    OpenAIResponsesStream × List StreamPart :=
  Transducer.run (fun state event => state.transform settings event) state events

/-- The state and the queue after the events. -/
def through (settings : ResponsesSettings) (run : OpenAIResponsesStream × Controller StreamPart)
    (events : List (Except AiMuxError Json)) : OpenAIResponsesStream × Controller StreamPart :=
  (responsesTransformer settings).transformAll run events

variable (settings : ResponsesSettings)

theorem through_open (events : List (Except AiMuxError Json)) (state : OpenAIResponsesStream)
    (queue : List (Item StreamPart)) :
    through settings (state, { queue := queue }) events =
      ((run settings state events).1, { queue := queue ++ (run settings state events).2.map .ok }) := by
  induction events generalizing state queue with
  | nil =>
    rw [run, Transducer.run_nil, List.map_nil, List.append_nil]
    rfl
  | cons event events ih =>
    have hStep : through settings (state, { queue := queue }) (event :: events) =
        through settings ((state.transform settings event).1,
          { queue := queue ++ (state.transform settings event).2.map .ok }) events := rfl
    rw [hStep, ih, run, run, Transducer.run_cons, List.map_append, List.append_assoc]

/-- The stream is its start, what the events emit, and its end. -/
theorem pipeThrough_eq (events : List (Except AiMuxError Json)) :
    (responsesTransformer settings).pipeThrough events =
      settings.ctx.start ++ (run settings {} events).2.map .ok ++ ((run settings {} events).1.flush settings).1 := by
  have hEnd : (responsesTransformer settings).pipeThrough events =
      if (through settings ({}, { queue := settings.ctx.start }) events).2.closed then
        (through settings ({}, { queue := settings.ctx.start }) events).2.queue
      else ((responsesTransformer settings).flush (through settings ({}, { queue := settings.ctx.start }) events).1
        (through settings ({}, { queue := settings.ctx.start }) events).2).queue := rfl
  rw [hEnd, through_open]
  rfl

/-- The chunk, where raw chunks were asked for. -/
def rawParts (settings : ResponsesSettings) (chunk : Json) : List StreamPart :=
  if settings.ctx.includeRawChunks then [.raw chunk] else []

theorem mem_rawParts {settings : ResponsesSettings} {chunk : Json} {part : StreamPart} (h : part ∈ rawParts settings chunk) :
    ∃ chunk, part = .raw chunk := by
  rw [rawParts] at h
  split at h
  · exact ⟨chunk, List.mem_singleton.mp h⟩
  · cases h

/-- An event of a kind is handled as that. -/
theorem transform_eq (state : OpenAIResponsesStream) {chunk : Json} {kind : String}
    (hKind : chunk.getStr "type" = some kind) (hValid : chunkSchemaError chunk = none) :
    state.transform settings (.ok chunk) =
      ((state.handle settings chunk kind).1, rawParts settings chunk ++ (state.handle settings chunk kind).2) := by
  have hTyped : isChatCompletionChunk chunk = false := by
    rw [isChatCompletionChunk, Json.get_of_getStr hKind]
    exact Bool.and_false _
  rw [OpenAIResponsesStream.transform, OpenAIResponsesStream.transformChunk,
    if_neg (by rw [hTyped]; exact Bool.false_ne_true), hValid, Json.strOrEmpty_of_getStr hKind]
  rfl

/-! ## Tool steps -/

namespace OpenAIResponsesStream

/-- The state without what the handlers of tools keep. -/
def talk (state : OpenAIResponsesStream) : OpenAIResponsesStream :=
  { state with
    ongoingToolCalls := fun _ => none
    hasFunctionCall := false
    providerItems := fun _ => none
    emittedCalls := []
    endedInputs := []
    diffReceived := []
    hostedToolSearchIds := []
    approvalToolCallIds := fun _ => none
    generated := 0 }

/-- What only the handlers of tools keep. -/
def tools (state : OpenAIResponsesStream) : OpenAIResponsesStream where
  ongoingToolCalls := state.ongoingToolCalls
  hasFunctionCall := state.hasFunctionCall
  providerItems := state.providerItems
  emittedCalls := state.emittedCalls
  endedInputs := state.endedInputs
  diffReceived := state.diffReceived
  hostedToolSearchIds := state.hostedToolSearchIds
  approvalToolCallIds := state.approvalToolCallIds
  generated := state.generated

end OpenAIResponsesStream

def isToolPart : StreamPart → Bool
  | .toolInputStart .. | .toolInputDelta .. | .toolInputEnd .. | .toolCall _ | .toolResult _ | .toolApprovalRequest _
  | .custom .. => true
  | _ => false

/-- What the handlers of tool items do to the rest: nothing. -/
structure ToolStep (state : OpenAIResponsesStream) (handled : OpenAIResponsesStream × List StreamPart) : Prop where
  talk : handled.1.talk = state.talk
  parts : ∀ part ∈ handled.2, isToolPart part = true

theorem ToolStep.none (state : OpenAIResponsesStream) : ToolStep state (state, []) where
  talk := rfl
  parts _ hNone := nomatch hNone

theorem ToolStep.trans {state middle : OpenAIResponsesStream} {first second : OpenAIResponsesStream × List StreamPart}
    (hFirst : ToolStep state first) (hMiddle : middle.talk = first.1.talk) (hSecond : ToolStep middle second) :
    ToolStep state (second.1, first.2 ++ second.2) where
  talk := hSecond.talk.trans (hMiddle.trans hFirst.talk)
  parts part hPart := (List.mem_append.mp hPart).elim (hFirst.parts part) (hSecond.parts part)

variable {handled : OpenAIResponsesStream × List StreamPart} {state : OpenAIResponsesStream}

theorem ToolStep.setItems (h : ToolStep state handled) (items : Nat → Option Json) :
    ToolStep state ({ handled.1 with providerItems := items }, handled.2) where
  talk := h.talk
  parts := h.parts

variable {next : OpenAIResponsesStream}

/-- Only fields of tools are set. -/
theorem ToolStep.of {parts : List StreamPart} (hTalk : next.talk = state.talk)
    (hParts : parts.all isToolPart = true) : ToolStep state (next, parts) where
  talk := hTalk
  parts := List.all_eq_true.mp hParts

theorem ToolStep.errored (h : ToolStep state handled) :
    handled.1.streamErrored = state.streamErrored := by
  have hSame := congrArg OpenAIResponsesStream.streamErrored h.talk
  exact hSame

theorem ToolStep.reason (h : ToolStep state handled) :
    handled.1.finalFinishReason = state.finalFinishReason := by
  have hSame := congrArg OpenAIResponsesStream.finalFinishReason h.talk
  exact hSame

namespace OpenAIResponsesStream

variable (settings : ResponsesSettings) (state : OpenAIResponsesStream) (event item : Json) (index : Nat)

theorem toolStep_toolCallAdded : ToolStep state (state.toolCallAdded settings index item) := .of rfl rfl

theorem toolParts_providerToolStart (names : ResponsesToolNames) :
    (providerToolStart settings.ctx names item).all isToolPart = true := by
  rw [providerToolStart]
  split
  · rfl
  · simp only [List.all_eq_true]
    intro part hPart
    split at hPart
    · rw [List.mem_singleton.mp hPart]
      rfl
    · rcases List.mem_cons.mp hPart with rfl | hLater
      · rfl
      · split at hLater
        · simp only [List.mem_cons, List.not_mem_nil, or_false] at hLater
          rcases hLater with rfl | rfl <;> rfl
        · split at hLater
          · rw [List.mem_singleton.mp hLater]
            rfl
          · split at hLater
            · split at hLater
              · simp only [List.mem_cons, List.not_mem_nil, or_false] at hLater
                rcases hLater with rfl | rfl <;> rfl
              · rw [List.mem_singleton.mp hLater]
                rfl
            · cases hLater

theorem toolStep_providerItemAdded : ToolStep state (state.providerItemAdded settings index item) :=
  .of rfl (toolParts_providerToolStart settings item settings.toolNames)

theorem toolStep_partialImage : ToolStep state (state.partialImage settings event) := .of rfl rfl

theorem toolStep_inputDelta : ToolStep state (state.inputDelta event) := by
  rw [inputDelta]
  split
  · exact .none state
  · exact .of rfl rfl

theorem toolStep_codeDone : ToolStep state (state.codeDone settings event) := by
  rw [codeDone]
  split
  · exact .none state
  · dsimp only
    split
    · exact .none state
    · refine .of rfl ?_
      simp [isToolPart]

theorem toolStep_diffDone : ToolStep state (state.diffDone event) := by
  rw [diffDone]
  split
  · exact .none state
  · dsimp only
    split
    · exact .none state
    · refine .of rfl ?_
      split <;> rfl

theorem toolStep_toolInputDelta : ToolStep state (state.toolInputDelta event) := by
  rw [toolInputDelta]
  split
  · exact .none state
  · exact .of rfl rfl

theorem toolStep_functionCallDone : ToolStep state (state.functionCallDone settings index item) := .of rfl rfl

theorem toolStep_customToolCallDone : ToolStep state (state.customToolCallDone settings index item) := .of rfl rfl

theorem toolStep_patchDone : ToolStep state (state.patchDone item) := by
  rw [patchDone]
  split
  · exact .none state
  · dsimp only
    split
    · exact .of rfl rfl
    · refine .of rfl ?_
      split <;> rfl

theorem toolStep_callDone (itemType : String) (call : RawToolCall) :
    ToolStep state (state.callDone itemType item call) := by
  rw [callDone]
  split
  · exact .none state
  · split
    · exact .none state
    · refine .of rfl ?_
      simp only [List.all_append, Bool.and_eq_true]
      refine ⟨⟨?_, ?_⟩, rfl⟩
      · split <;> rfl
      · split
        · rw [List.all_append, Bool.and_eq_true]
          exact ⟨by split <;> rfl, rfl⟩
        · rfl

theorem toolStep_contentDone (itemType : String) (content : GenerateContent) :
    ToolStep state (contentDone itemType item state content) := by
  cases content with
  | toolCall call => exact toolStep_callDone state item itemType call
  | toolResult result => exact .of rfl rfl
  | toolApprovalRequest approval => exact .of rfl rfl
  | custom kind metadata => exact .of rfl rfl
  | _ => exact .none state

theorem toolStep_run_contentDone (itemType : String) (content : List GenerateContent) :
    ToolStep state (Transducer.run (contentDone itemType item) state content) := by
  induction content generalizing state with
  | nil => exact .none state
  | cons first content ih => exact (toolStep_contentDone state item itemType first).trans rfl (ih _)

theorem toolStep_providerItemDone : ToolStep state (state.providerItemDone settings index item) := by
  unfold providerItemDone
  extract_lets itemType shown patched named paired source read mcpToolCallId content counted emitted
  have hPatched : ToolStep state patched := by
    by_cases hPatch : itemType = "apply_patch_call"
    · rw [show patched = state.patchDone shown from if_pos hPatch]
      exact toolStep_patchDone state shown
    · rw [show patched = (state, []) from if_neg hPatch]
      exact .none state
  have hEmitted : ToolStep counted emitted := toolStep_run_contentDone counted paired.1 itemType content
  have hTalk : counted.talk = patched.1.talk := rfl
  exact (hPatched.trans hTalk hEmitted).setItems (Function.update emitted.1.providerItems index none)

/-! ## What the other handlers do -/

/-- The handlers that are not of tools, with the kinds of events that they are for. -/
inductive Talks : String → OpenAIResponsesStream × List StreamPart → Prop
  | created : Talks "response.created" (state.created settings event)
  | messageAdded {item : Json} (hItem : event.get "item" = some item) (hType : item.strOrEmpty "type" = "message") :
    Talks "response.output_item.added" (state.messageAdded settings (outputIndex event) item)
  | reasoningAdded {item : Json} (hItem : event.get "item" = some item) (hType : item.strOrEmpty "type" = "reasoning") :
    Talks "response.output_item.added" (state.reasoningAdded settings (outputIndex event) item)
  | outputTextDelta : Talks "response.output_text.delta" (state.outputTextDelta settings event)
  | contentPartAdded : Talks "response.content_part.added" (state.contentPartAdded settings event)
  | refusalDelta : Talks "response.refusal.delta" (state.refusalDelta event)
  | refusalDone : Talks "response.refusal.done" (state.refusalDone event)
  | summaryPartAdded : Talks "response.reasoning_summary_part.added" (state.summaryPartAdded settings event)
  | summaryTextDelta : Talks "response.reasoning_summary_text.delta" (state.summaryTextDelta settings event)
  | summaryPartDone : Talks "response.reasoning_summary_part.done" (state.summaryPartDone settings event)
  | messageDone {item : Json} (hItem : event.get "item" = some item) (hType : item.strOrEmpty "type" = "message") :
    Talks "response.output_item.done" (state.messageDone settings (outputIndex event) item)
  | reasoningDone {item : Json} (hItem : event.get "item" = some item) (hType : item.strOrEmpty "type" = "reasoning") :
    Talks "response.output_item.done" (state.reasoningDone settings (outputIndex event) item)
  | annotationAdded : Talks "response.output_text.annotation.added" (state.annotationAdded settings event)
  | completed {kind : String} (hKind : kind = "response.completed" ∨ kind = "response.incomplete") :
    Talks kind (state.completed settings event)
  | failed : Talks "response.failed" (state.failed settings event)
  | errorChunk : Talks "error" (state.errorChunk settings event)

/-- The handlers that decide how the stream ends. -/
inductive Decides : String → OpenAIResponsesStream × List StreamPart → Prop
  | annotationAdded : Decides "response.output_text.annotation.added" (state.annotationAdded settings event)
  | completed {kind : String} : Decides kind (state.completed settings event)
  | failed : Decides "response.failed" (state.failed settings event)
  | errorChunk : Decides "error" (state.errorChunk settings event)

end OpenAIResponsesStream

/-- Neither of a tool, nor an error, nor the finish. -/
def isCalmPart (part : StreamPart) : Bool :=
  match part with
  | .error _ | .finish .. => false
  | part => !isToolPart part

/-- What the other handlers do to the tools and to the end: nothing. -/
structure CalmStep (state : OpenAIResponsesStream) (handled : OpenAIResponsesStream × List StreamPart) : Prop where
  tools : handled.1.tools = state.tools
  errored : handled.1.streamErrored = state.streamErrored
  reason : handled.1.finalFinishReason = state.finalFinishReason
  parts : ∀ part ∈ handled.2, isCalmPart part = true

theorem CalmStep.none (hTools : next.tools = state.tools)
    (hErrored : next.streamErrored = state.streamErrored) (hReason : next.finalFinishReason = state.finalFinishReason) :
    CalmStep state (next, []) where
  tools := hTools
  errored := hErrored
  reason := hReason
  parts _ hNone := nomatch hNone

theorem CalmStep.one {part : StreamPart} (hTools : next.tools = state.tools)
    (hErrored : next.streamErrored = state.streamErrored) (hReason : next.finalFinishReason = state.finalFinishReason)
    (hPart : isCalmPart part = true) : CalmStep state (next, [part]) where
  tools := hTools
  errored := hErrored
  reason := hReason
  parts := List.forall_mem_singleton.mpr hPart

namespace OpenAIResponsesStream

variable (settings : ResponsesSettings) (state : OpenAIResponsesStream) (event : Json)

theorem calm_created : CalmStep state (state.created settings event) := by
  rw [created]
  split
  · exact .none rfl rfl rfl
  · exact .one rfl rfl rfl rfl

theorem calm_contentPartAdded : CalmStep state (state.contentPartAdded settings event) := by
  rw [contentPartAdded]
  dsimp only
  split
  · exact .none rfl rfl rfl
  · split
    · exact {
        tools := rfl
        errored := rfl
        reason := rfl
        parts := List.forall_mem_cons.mpr ⟨rfl, List.forall_mem_singleton.mpr rfl⟩ }
    · exact .none rfl rfl rfl

theorem calm_refusalDelta : CalmStep state (state.refusalDelta event) := by
  rw [refusalDelta]
  split
  · exact .none rfl rfl rfl
  · exact .one rfl rfl rfl rfl

theorem calm_refusalDone : CalmStep state (state.refusalDone event) := by
  rw [refusalDone]
  split
  · exact .none rfl rfl rfl
  · split
    · exact .none rfl rfl rfl
    · exact .one rfl rfl rfl rfl

theorem calm_summaryPartAdded : CalmStep state (state.summaryPartAdded settings event) := by
  rw [summaryPartAdded]
  dsimp only
  split
  · exact .none rfl rfl rfl
  · split
    · exact .none rfl rfl rfl
    · refine { tools := rfl, errored := rfl, reason := rfl, parts := fun part hPart => ?_ }
      rcases List.mem_append.mp hPart with hEnd | hStart
      · obtain ⟨index, -, rfl⟩ := List.mem_map.mp hEnd
        rfl
      · rw [List.mem_singleton.mp hStart]
        rfl

theorem calm_summaryPartDone : CalmStep state (state.summaryPartDone settings event) := by
  rw [summaryPartDone]
  dsimp only
  split
  · exact .none rfl rfl rfl
  · split
    · exact .one rfl rfl rfl rfl
    · exact .none rfl rfl rfl

theorem calm_reasoningDone (index : Nat) (item : Json) : CalmStep state (state.reasoningDone settings index item) := by
  rw [reasoningDone]
  dsimp only
  split
  · exact .none rfl rfl rfl
  · refine { tools := rfl, errored := rfl, reason := rfl, parts := fun part hPart => ?_ }
    obtain ⟨index, -, rfl⟩ := List.mem_map.mp hPart
    rfl

theorem Talks.cases {settings : ResponsesSettings} {event : Json} {kind : String}
    (h : Talks settings state event kind handled) :
    CalmStep state handled ∨ Decides settings state event kind handled := by
  cases h with
  | created => exact .inl (calm_created settings state event)
  | messageAdded => exact .inl (.one rfl rfl rfl rfl)
  | reasoningAdded => exact .inl (.one rfl rfl rfl rfl)
  | outputTextDelta => exact .inl (.one rfl rfl rfl rfl)
  | contentPartAdded => exact .inl (calm_contentPartAdded settings state event)
  | refusalDelta => exact .inl (calm_refusalDelta state event)
  | refusalDone => exact .inl (calm_refusalDone state event)
  | summaryPartAdded => exact .inl (calm_summaryPartAdded settings state event)
  | summaryTextDelta => exact .inl (.one rfl rfl rfl rfl)
  | summaryPartDone => exact .inl (calm_summaryPartDone settings state event)
  | messageDone => exact .inl (.one rfl rfl rfl rfl)
  | reasoningDone => exact .inl (calm_reasoningDone settings state _ _)
  | annotationAdded => exact .inr .annotationAdded
  | completed => exact .inr .completed
  | failed => exact .inr .failed
  | errorChunk => exact .inr .errorChunk

theorem outputItemAdded_cases : ToolStep state (state.outputItemAdded settings event) ∨
    Talks settings state event "response.output_item.added" (state.outputItemAdded settings event) := by
  rw [outputItemAdded]
  cases hItem : event.get "item" with
  | none => exact .inl (.none state)
  | some item =>
    dsimp only
    split
    · rename_i hType
      exact .inr (.messageAdded hItem hType)
    · exact .inl (toolStep_toolCallAdded settings state item _)
    · exact .inl (toolStep_toolCallAdded settings state item _)
    · rename_i hType
      exact .inr (.reasoningAdded hItem hType)
    · exact .inl (toolStep_providerItemAdded settings state item _)

theorem outputItemDone_cases : ToolStep state (state.outputItemDone settings event) ∨
    Talks settings state event "response.output_item.done" (state.outputItemDone settings event) := by
  rw [outputItemDone]
  cases hItem : event.get "item" with
  | none => exact .inl (.none state)
  | some item =>
    dsimp only
    split
    · rename_i hType
      exact .inr (.messageDone hItem hType)
    · exact .inl (toolStep_functionCallDone settings state item _)
    · exact .inl (toolStep_customToolCallDone settings state item _)
    · rename_i hType
      exact .inr (.reasoningDone hItem hType)
    · exact .inl (toolStep_providerItemDone settings state item _)

theorem handle_cases (kind : String) : ToolStep state (state.handle settings event kind) ∨
    Talks settings state event kind (state.handle settings event kind) := by
  unfold handle
  split
  · exact .inr .created
  · exact outputItemAdded_cases settings state event
  · exact .inl (toolStep_partialImage settings state event)
  · exact .inl (toolStep_inputDelta state event)
  · exact .inl (toolStep_inputDelta state event)
  · exact .inl (toolStep_codeDone settings state event)
  · exact .inl (toolStep_diffDone state event)
  · exact .inr .outputTextDelta
  · exact .inr .contentPartAdded
  · exact .inr .refusalDelta
  · exact .inr .refusalDone
  · exact .inl (toolStep_toolInputDelta state event)
  · exact .inl (toolStep_toolInputDelta state event)
  · exact .inr .summaryPartAdded
  · exact .inr .summaryTextDelta
  · exact .inr .summaryPartDone
  · exact outputItemDone_cases settings state event
  · exact .inr .annotationAdded
  · exact .inr (.completed (.inl rfl))
  · exact .inr (.completed (.inr rfl))
  · exact .inr .failed
  · exact .inr .errorChunk
  · exact .inl (.none state)

end OpenAIResponsesStream

end Aimux.Responses
