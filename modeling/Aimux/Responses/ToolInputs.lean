import Aimux.Core.JsonRoundTrip
import Aimux.Core.ToolCallRepair
import Aimux.Responses.Steps

/-! # Streamed inputs of provider tools

What the input deltas of a code interpreter call or of a patch spell is, as a value, the input of its call. Events that
are of no tool may stand between.
-/

namespace Aimux.Responses

open Aimux.Core Aimux.Provider OpenAIResponsesStream
open Aimux.Lib (Transducer)

/-! ## Events of tools -/

def TOOL_KINDS : List String := [
  "response.image_generation_call.partial_image", "response.code_interpreter_call_code.delta",
  "response.apply_patch_call_operation_diff.delta", "response.code_interpreter_call_code.done",
  "response.apply_patch_call_operation_diff.done", "response.function_call_arguments.delta",
  "response.custom_tool_call_input.delta"]

def ITEM_KINDS : List String := ["response.output_item.added", "response.output_item.done"]

/-- An event of a tool, or of an output item that is neither a message nor a reasoning. -/
def isToolEvent : Except AiMuxError Json → Bool
  | .error _ => false
  | .ok chunk =>
    chunk.strOrEmpty "type" ∈ TOOL_KINDS ||
      (chunk.strOrEmpty "type" ∈ ITEM_KINDS && (chunk.member "item").strOrEmpty "type" ∉ ["message", "reasoning"])

/-- Nothing of tools is kept or emitted. -/
structure Aside (state : OpenAIResponsesStream) (handled : OpenAIResponsesStream × List StreamPart) : Prop where
  tools : handled.1.tools = state.tools
  parts : ∀ part ∈ handled.2, isToolPart part = false

theorem not_tool_of_calm {part : StreamPart} (h : isCalmPart part = true) : isToolPart part = false := by
  cases part <;> first | rfl | cases h

section

variable {settings : ResponsesSettings} {state : OpenAIResponsesStream} {chunk : Json}

theorem Aside.none (state : OpenAIResponsesStream) : Aside state (state, []) where
  tools := rfl
  parts _ hNone := nomatch hNone

theorem Aside.report (error : AiMuxError) : Aside state (state.report error) where
  tools := rfl
  parts := List.forall_mem_singleton.mpr rfl

variable {handled : OpenAIResponsesStream × List StreamPart}

theorem aside_decides {kind : String} (h : Decides settings state chunk kind handled) : Aside state handled := by
  cases h with
  | annotationAdded =>
    rw [annotationAdded]
    dsimp only
    split <;> exact ⟨rfl, List.forall_mem_singleton.mpr rfl⟩
  | completed =>
    rw [completed]
    split <;> exact ⟨rfl, fun _ hNone => nomatch hNone⟩
  | failed =>
    rw [failed]
    split
    · exact .none state
    · refine ⟨rfl, fun part hPart => ?_⟩
      dsimp only at hPart
      split at hPart
      · rw [List.mem_singleton.mp hPart]
        rfl
      · cases hPart
  | errorChunk => exact ⟨rfl, List.forall_mem_singleton.mpr rfl⟩

theorem aside_talks {kind : String} (h : Talks settings state chunk kind handled) : Aside state handled := by
  rcases h.cases with hCalm | hDecides
  · exact ⟨hCalm.tools, fun part hPart => not_tool_of_calm (hCalm.parts part hPart)⟩
  · exact aside_decides hDecides

theorem aside_outputItemAdded {item : Json} (hItem : chunk.get "item" = some item)
    (hType : item.strOrEmpty "type" ∈ ["message", "reasoning"]) : Aside state (state.outputItemAdded settings chunk) := by
  rw [outputItemAdded, hItem]
  simp only [List.mem_cons, List.not_mem_nil, or_false] at hType
  rcases hType with hMessage | hReasoning
  · dsimp only
    rw [hMessage]
    exact aside_talks (.messageAdded hItem hMessage)
  · dsimp only
    rw [hReasoning]
    exact aside_talks (.reasoningAdded hItem hReasoning)

theorem aside_outputItemDone {item : Json} (hItem : chunk.get "item" = some item)
    (hType : item.strOrEmpty "type" ∈ ["message", "reasoning"]) : Aside state (state.outputItemDone settings chunk) := by
  rw [outputItemDone, hItem]
  simp only [List.mem_cons, List.not_mem_nil, or_false] at hType
  rcases hType with hMessage | hReasoning
  · dsimp only
    rw [hMessage]
    exact aside_talks (.messageDone hItem hMessage)
  · dsimp only
    rw [hReasoning]
    exact aside_talks (.reasoningDone hItem hReasoning)

theorem aside_handle {kind : String} (hKind : kind ∉ TOOL_KINDS)
    (hItem : kind ∈ ITEM_KINDS → (chunk.member "item").strOrEmpty "type" ∈ ["message", "reasoning"]) :
    Aside state (state.handle settings chunk kind) := by
  have hGet (h : (chunk.member "item").strOrEmpty "type" ∈ ["message", "reasoning"]) :
      ∃ item, chunk.get "item" = some item ∧ item.strOrEmpty "type" ∈ ["message", "reasoning"] := by
    cases hSome : chunk.get "item" with
    | none =>
      rw [Json.member, hSome] at h
      exact absurd h (by decide)
    | some item =>
      rw [Json.member, hSome] at h
      exact ⟨item, rfl, h⟩
  unfold handle
  split
  · exact aside_talks .created
  · obtain ⟨item, hSome, hType⟩ := hGet (hItem (by decide))
    exact aside_outputItemAdded hSome hType
  · exact absurd (by decide) hKind
  · exact absurd (by decide) hKind
  · exact absurd (by decide) hKind
  · exact absurd (by decide) hKind
  · exact absurd (by decide) hKind
  · exact aside_talks .outputTextDelta
  · exact aside_talks .contentPartAdded
  · exact aside_talks (@Talks.refusalDelta settings state chunk)
  · exact aside_talks (@Talks.refusalDone settings state chunk)
  · exact absurd (by decide) hKind
  · exact absurd (by decide) hKind
  · exact aside_talks .summaryPartAdded
  · exact aside_talks .summaryTextDelta
  · exact aside_talks .summaryPartDone
  · obtain ⟨item, hSome, hType⟩ := hGet (hItem (by decide))
    exact aside_outputItemDone hSome hType
  · exact aside_talks .annotationAdded
  · exact aside_talks (.completed (.inl rfl))
  · exact aside_talks (.completed (.inr rfl))
  · exact aside_talks .failed
  · exact aside_talks .errorChunk
  · exact .none state

theorem aside_transform {event : Except AiMuxError Json} (h : isToolEvent event = false) :
    Aside state (state.transform settings event) := by
  cases event with
  | error error => exact .report error
  | ok chunk =>
    have hHandled : Aside state (state.transformChunk settings chunk) := by
      rw [isToolEvent, Bool.or_eq_false_iff, decide_eq_false_iff_not] at h
      rw [transformChunk]
      split
      · exact .report _
      · split
        · exact .report _
        · refine aside_handle h.1 fun hItem => ?_
          rw [Bool.and_eq_false_imp] at h
          exact not_not.mp (of_decide_eq_false (h.2 (decide_eq_true hItem)))
    refine ⟨hHandled.tools, fun part hPart => ?_⟩
    rcases List.mem_append.mp hPart with hRaw | hPart
    · split at hRaw
      · rw [List.mem_singleton.mp hRaw]
        rfl
      · cases hRaw
    · exact hHandled.parts part hPart

end

/-! ## What is said of a tool -/

/-- The texts of an input's deltas, one after the other. -/
def inputText (id : String) (parts : List StreamPart) : List Char :=
  parts.flatMap fun part => match part with
    | .toolInputDelta other delta _ => if other = id then delta.toList else []
    | _ => []

def toolCalls (parts : List StreamPart) : List RawToolCall :=
  parts.filterMap fun part => match part with
    | .toolCall call => some call
    | _ => none

structure Says (id : String) (parts : List StreamPart) (text : List Char) (calls : List RawToolCall) : Prop where
  text : inputText id parts = text
  calls : toolCalls parts = calls

section

variable {id : String} {first second : List StreamPart} {text more : List Char} {calls others : List RawToolCall}

theorem Says.append (hFirst : Says id first text calls) (hSecond : Says id second more others) :
    Says id (first ++ second) (text ++ more) (calls ++ others) where
  text := by rw [inputText, List.flatMap_append, ← inputText, ← inputText, hFirst.text, hSecond.text]
  calls := by rw [toolCalls, List.filterMap_append, ← toolCalls, ← toolCalls, hFirst.calls, hSecond.calls]

theorem Says.nothing {parts : List StreamPart} (h : ∀ part ∈ parts, isToolPart part = false) : Says id parts [] [] where
  text := List.flatMap_eq_nil_iff.mpr fun part hPart => by
    cases part with
    | toolInputDelta => exact nomatch h _ hPart
    | _ => rfl
  calls := List.filterMap_eq_nil_iff.mpr fun part hPart => by
    cases part with
    | toolCall => exact nomatch h _ hPart
    | _ => rfl

theorem Says.after {before parts : List StreamPart} (hBefore : ∀ part ∈ before, isToolPart part = false)
    (h : Says id parts text calls) : Says id (before ++ parts) text calls := (Says.nothing hBefore).append h

end

/-- From every state with the property, streams whose events of tools are these say this. -/
def Speaks (settings : ResponsesSettings) (id : String) (property : OpenAIResponsesStream → Prop) (own : List Json)
    (text : List Char) (calls : List RawToolCall) : Prop :=
  ∀ state, property state → ∀ events : List (Except AiMuxError Json), events.filter isToolEvent = own.map .ok →
    Says id (run settings state events).2 text calls

/-- A property of what only the handlers of tools keep. -/
def OfTools (property : OpenAIResponsesStream → Prop) : Prop :=
  ∀ state other : OpenAIResponsesStream, other.tools = state.tools → property state → property other

section

variable {settings : ResponsesSettings} {id : String} {before after : OpenAIResponsesStream → Prop} {event : Json}
  {own : List Json} {text more : List Char} {calls others : List RawToolCall}

theorem run_aside {events : List (Except AiMuxError Json)} (state : OpenAIResponsesStream)
    (h : ∀ event ∈ events, isToolEvent event = false) : ∀ part ∈ (run settings state events).2, isToolPart part = false := by
  induction events generalizing state with
  | nil => exact fun _ hNone => nomatch hNone
  | cons event events ih =>
    obtain ⟨hEvent, hLater⟩ := List.forall_mem_cons.mp h
    rw [run, Transducer.run_cons]
    intro part hPart
    rcases List.mem_append.mp hPart with hNow | hPart
    · exact (aside_transform hEvent).parts part hNow
    · exact ih _ hLater part hPart

theorem speaks_nil : Speaks settings id before [] [] [] := by
  intro state _ events hEvents
  rw [List.map_nil, List.filter_eq_nil_iff] at hEvents
  exact .nothing (run_aside state fun event hEvent => Bool.not_eq_true _ ▸ hEvents event hEvent)

theorem Speaks.cons (hBefore : OfTools before)
    (hStep : ∀ state, before state → after (state.transform settings (.ok event)).1 ∧
      Says id (state.transform settings (.ok event)).2 text calls)
    (hRest : Speaks settings id after own more others) :
    Speaks settings id before (event :: own) (text ++ more) (calls ++ others) := by
  intro state hState events hEvents
  induction events generalizing state with
  | nil => cases hEvents
  | cons head events ih =>
    rw [run, Transducer.run_cons]
    cases hHead : isToolEvent head with
    | true =>
      rw [List.filter_cons_of_pos hHead, List.map_cons, List.cons.injEq] at hEvents
      obtain ⟨rfl, hEvents⟩ := hEvents
      obtain ⟨hAfter, hSays⟩ := hStep state hState
      exact hSays.append (hRest _ hAfter events hEvents)
    | false =>
      rw [List.filter_cons_of_neg (by rw [hHead]; exact Bool.false_ne_true)] at hEvents
      have hAside : Aside state (state.transform settings head) := aside_transform hHead
      exact (ih _ (hBefore _ _ hAside.tools hState) hEvents).after hAside.parts

/-- The last event of a tool. -/
theorem Speaks.last (hBefore : OfTools before)
    (hStep : ∀ state, before state → Says id (state.transform settings (.ok event)).2 text calls) :
    Speaks settings id before [event] text calls := by
  have hNothing : Speaks settings id (fun _ => True) [] [] [] := speaks_nil
  have hCons := Speaks.cons hBefore (fun state hState => ⟨trivial, hStep state hState⟩) hNothing
  rw [List.append_nil, List.append_nil] at hCons
  exact hCons

end

end Aimux.Responses
