import Aimux.Responses.Blocks
import Aimux.Responses.FinishReasons

/-! # The table of annotations

No handler reads the annotations that were filed but the one of a message that is done, and only the handler of an
annotation and that one write them.
-/

namespace Aimux.Responses

open Aimux.Core Aimux.Provider OpenAIResponsesStream
open Aimux.Lib (Transducer)

abbrev AnnotationTable := String → Option (List Json)

namespace OpenAIResponsesStream

/-- The state with another table. -/
def annotated (state : OpenAIResponsesStream) (table : AnnotationTable) : OpenAIResponsesStream :=
  { state with textAnnotations := table }

/-- A handler does the same whatever was filed. -/
def Unread (handler : OpenAIResponsesStream → OpenAIResponsesStream × List StreamPart) : Prop :=
  ∀ state table, handler (state.annotated table) = ((handler state).1.annotated table, (handler state).2)

variable (settings : ResponsesSettings) (event item : Json) (index : Nat)

theorem unread_created : Unread fun state => state.created settings event := by
  intro state table
  dsimp only [created, annotated]
  cases event.get "response" <;> rfl

theorem unread_inputDelta : Unread fun state => state.inputDelta event := by
  intro state table
  dsimp only [inputDelta, annotated]
  cases state.providerItems (outputIndex event) <;> rfl

theorem unread_codeDone : Unread fun state => state.codeDone settings event := by
  intro state table
  dsimp only [codeDone, annotated]
  cases state.providerItems (outputIndex event) with
  | none => rfl
  | some item =>
    dsimp only
    split <;> rfl

theorem unread_diffDone : Unread fun state => state.diffDone event := by
  intro state table
  dsimp only [diffDone, annotated]
  cases state.providerItems (outputIndex event) with
  | none => rfl
  | some item =>
    dsimp only
    split <;> rfl

theorem unread_contentPartAdded : Unread fun state => state.contentPartAdded settings event := by
  intro state table
  dsimp only [contentPartAdded, annotated, resolveOutputItemId]
  split
  · rfl
  · split <;> rfl

theorem unread_refusalDelta : Unread fun state => state.refusalDelta event := by
  intro state table
  dsimp only [refusalDelta, annotated]
  cases filledText event "delta" <;> rfl

theorem unread_refusalDone : Unread fun state => state.refusalDone event := by
  intro state table
  dsimp only
  by_cases hStreamed : (state.resolveOutputItemId event, contentIndex event) ∈ state.refusalDeltas
  · rw [refusalDone, refusalDone, if_pos hStreamed]
    exact if_pos hStreamed
  · rw [refusalDone, refusalDone, if_neg hStreamed]
    refine (if_neg hStreamed).trans ?_
    cases filledText event "refusal" <;> rfl

theorem unread_toolInputDelta : Unread fun state => state.toolInputDelta event := by
  intro state table
  dsimp only [toolInputDelta, annotated]
  cases state.ongoingToolCalls (outputIndex event) <;> rfl

theorem unread_summaryPartAdded : Unread fun state => state.summaryPartAdded settings event := by
  intro state table
  dsimp only [summaryPartAdded, annotated, resolveOutputItemId]
  split
  · rfl
  · split <;> rfl

theorem unread_summaryPartDone : Unread fun state => state.summaryPartDone settings event := by
  intro state table
  dsimp only [summaryPartDone, annotated, resolveOutputItemId]
  split
  · rfl
  · split <;> rfl

theorem unread_reasoningDone : Unread fun state => state.reasoningDone settings index item := by
  intro state table
  dsimp only [reasoningDone, annotated]
  split <;> rfl

theorem unread_patchDone : Unread fun state => state.patchDone item := by
  intro state table
  dsimp only [patchDone, annotated]
  split
  · rfl
  · split <;> rfl

theorem unread_callDone (itemType : String) (call : RawToolCall) :
    Unread fun state => state.callDone itemType item call := by
  intro state table
  dsimp only [callDone, annotated]
  split
  · rfl
  · split <;> rfl

theorem unread_contentDone (itemType : String) (content : GenerateContent) :
    Unread fun state => contentDone itemType item state content := by
  intro state table
  cases content with
  | toolCall call => exact unread_callDone item itemType call state table
  | _ => rfl

theorem unread_run_contentDone (itemType : String) (content : List GenerateContent) :
    Unread fun state => Transducer.run (contentDone itemType item) state content := by
  intro state table
  induction content generalizing state with
  | nil => rfl
  | cons first content ih =>
    have hFirst := unread_contentDone item itemType first state table
    dsimp only at hFirst ih ⊢
    rw [Transducer.run_cons, Transducer.run_cons, hFirst, ih]

theorem unread_providerItemDone : Unread fun state => state.providerItemDone settings index item := by
  intro state table
  dsimp only
  unfold providerItemDone
  extract_lets itemType shown patched named paired source read mcpToolCallId content counted emitted last patched'
    paired' source' read' mcpToolCallId' content' counted' emitted' last'
  have hPatched : patched = (patched'.1.annotated table, patched'.2) := by
    by_cases hPatch : itemType = "apply_patch_call"
    · rw [show patched = (state.annotated table).patchDone shown from if_pos hPatch,
        show patched' = state.patchDone shown from if_pos hPatch]
      exact unread_patchDone shown state table
    · rw [show patched = (state.annotated table, []) from if_neg hPatch,
        show patched' = (state, []) from if_neg hPatch]
  have hRead : read = read'.annotated table := by
    show ({ patched.1 with hostedToolSearchIds := paired.2 } : OpenAIResponsesStream) = _
    rw [hPatched]
    rfl
  have hContent : content = content' := by
    show read.content settings paired.1 ((paired.1.getStr "approval_request_id").bind fun id =>
      (read.approvalToolCallIds id).or (settings.promptApprovalToolCallIds.lookup id)) = _
    rw [hRead]
    rfl
  have hCounted : counted = counted'.annotated table := by
    show ({ read with generated := read.generated + generatedBy named } : OpenAIResponsesStream) = _
    rw [hRead]
    rfl
  have hEmitted : emitted = (emitted'.1.annotated table, emitted'.2) := by
    show Transducer.run (contentDone itemType paired.1) counted content = _
    rw [hCounted, hContent]
    exact unread_run_contentDone paired.1 itemType content' counted' table
  show (({ emitted.1 with providerItems := _ } : OpenAIResponsesStream), patched.2 ++ emitted.2) = _
  rw [hEmitted, hPatched]
  rfl

theorem unread_completed : Unread fun state => state.completed settings event := by
  intro state table
  dsimp only [completed, annotated]
  cases event.get "response" <;> rfl

theorem unread_failed : Unread fun state => state.failed settings event := by
  intro state table
  dsimp only [failed, annotated]
  cases event.get "response" <;> rfl

theorem unread_outputItemAdded : Unread fun state => state.outputItemAdded settings event := by
  intro state table
  dsimp only
  rw [outputItemAdded, outputItemAdded]
  cases event.get "item" with
  | none => rfl
  | some item =>
    dsimp only
    split <;> rfl

theorem unread_outputItemDone (hMessage : (event.member "item").strOrEmpty "type" ≠ "message") :
    Unread fun state => state.outputItemDone settings event := by
  intro state table
  dsimp only
  rw [outputItemDone, outputItemDone]
  cases hItem : event.get "item" with
  | none => rfl
  | some item =>
    rw [Json.member, hItem, Option.getD_some] at hMessage
    dsimp only
    split
    · exact absurd ‹_› hMessage
    · rfl
    · rfl
    · exact unread_reasoningDone settings item (outputIndex event) state table
    · exact unread_providerItemDone settings item (outputIndex event) state table

/-- Every handler but two. -/
theorem unread_handle {kind : String} (hNoted : kind ≠ "response.output_text.annotation.added")
    (hDone : kind = "response.output_item.done" → (event.member "item").strOrEmpty "type" ≠ "message") :
    Unread fun state => state.handle settings event kind := by
  intro state table
  dsimp only
  unfold handle
  split
  · exact unread_created settings event state table
  · exact unread_outputItemAdded settings event state table
  · rfl
  · exact unread_inputDelta event state table
  · exact unread_inputDelta event state table
  · exact unread_codeDone settings event state table
  · exact unread_diffDone event state table
  · rfl
  · exact unread_contentPartAdded settings event state table
  · exact unread_refusalDelta event state table
  · exact unread_refusalDone event state table
  · exact unread_toolInputDelta event state table
  · exact unread_toolInputDelta event state table
  · exact unread_summaryPartAdded settings event state table
  · rfl
  · exact unread_summaryPartDone settings event state table
  · exact unread_outputItemDone settings event (hDone rfl) state table
  · exact absurd rfl hNoted
  · exact unread_completed settings event state table
  · exact unread_completed settings event state table
  · exact unread_failed settings event state table
  · rfl
  · rfl

end OpenAIResponsesStream

/-! ## What is filed -/

/-- Whether an annotation is a source does not depend on the id that is generated for it. -/
theorem annotationSource_isOk (providerKey id other : String) (note : Json) :
    (annotationSource providerKey id note).isOk = (annotationSource providerKey other note).isOk := by
  unfold annotationSource
  simp only [bind, Except.bind]
  repeat' split
  all_goals rfl

def ANNOTATION_ADDED : String := "response.output_text.annotation.added"

/-- An annotation that is a source, with the id that its event names. -/
def noted (settings : ResponsesSettings) : Except AiMuxError Json → Option (String × Json)
  | .error _ => none
  | .ok chunk =>
    if chunk.getStr "type" = some ANNOTATION_ADDED ∧
        (annotationSource settings.providerKey "" (chunk.member "annotation")).isOk then
      some (chunk.strOrEmpty "item_id", chunk.member "annotation")
    else none

/-- The annotations that the events file under an id. -/
def filed (settings : ResponsesSettings) (id : String) (events : List (Except AiMuxError Json)) : List Json :=
  events.filterMap fun event => ((noted settings event).filter (·.1 = id)).map (·.2)

def AnnotationTable.file (table : AnnotationTable) : Option (String × Json) → AnnotationTable
  | none => table
  | some (id, note) => Function.update table id (some ((table id).getD [] ++ [note]))

theorem AnnotationTable.file_getD (table : AnnotationTable) (noted : Option (String × Json)) (id : String) :
    (table.file noted id).getD [] = (table id).getD [] ++ ((noted.filter (·.1 = id)).map (·.2)).toList := by
  cases noted with
  | none => exact (List.append_nil _).symm
  | some entry =>
    obtain ⟨other, note⟩ := entry
    by_cases hId : id = other
    · subst hId
      simp [file, Option.filter]
    · simp [file, Option.filter, hId, Ne.symm hId]

theorem filed_concat (settings : ResponsesSettings) (id : String) (events : List (Except AiMuxError Json))
    (event : Except AiMuxError Json) :
    filed settings id (events ++ [event]) =
      filed settings id events ++ (((noted settings event).filter (·.1 = id)).map (·.2)).toList := by
  rw [filed, filed, List.filterMap_append, List.filterMap_cons, List.filterMap_nil]
  cases ((noted settings event).filter (·.1 = id)).map (·.2) <;> rfl

section

variable {settings : ResponsesSettings} {chunk : Json}

theorem schema_of_annotation (h : chunk.getStr "type" = some ANNOTATION_ADDED) : chunkSchemaError chunk = none := by
  rw [chunkSchemaError, h]
  rfl

theorem annotationAdded_annotated (h : chunk.getStr "type" = some ANNOTATION_ADDED) (state : OpenAIResponsesStream)
    (table : AnnotationTable) :
    (state.annotated table).annotationAdded settings chunk =
      ((state.annotationAdded settings chunk).1.annotated (table.file (noted settings (.ok chunk))),
        (state.annotationAdded settings chunk).2) := by
  have hSource := annotationSource_isOk settings.providerKey (settings.sourceId state.sources) "" (chunk.member "annotation")
  rw [annotationAdded, annotationAdded, noted]
  dsimp only
  rw [show (state.annotated table).sources = state.sources from rfl]
  cases hOk : annotationSource settings.providerKey (settings.sourceId state.sources) (chunk.member "annotation") with
  | ok source =>
    rw [hOk] at hSource
    rw [if_pos ⟨h, hSource.symm⟩]
    rfl
  | error error =>
    rw [hOk] at hSource
    rw [if_neg fun hNoted => Bool.noConfusion (hSource.trans hNoted.2)]
    rfl

/-- The message that the event ends is done. -/
def isMessageDone : Except AiMuxError Json → Bool
  | .error _ => false
  | .ok chunk =>
    chunk.strOrEmpty "type" = "response.output_item.done" && (chunk.member "item").strOrEmpty "type" = "message"

theorem noted_of_kind (h : chunk.strOrEmpty "type" ≠ ANNOTATION_ADDED) : noted settings (.ok chunk) = none :=
  if_neg fun hNoted => h (Json.strOrEmpty_of_getStr hNoted.1)

variable (settings) in
/-- What an event does with another table. -/
theorem transform_annotated {event : Except AiMuxError Json} (hDone : isMessageDone event = false)
    (state : OpenAIResponsesStream) (table : AnnotationTable) :
    (state.annotated table).transform settings event =
      ((state.transform settings event).1.annotated (table.file (noted settings event)),
        (state.transform settings event).2) := by
  cases event with
  | error error => rfl
  | ok chunk =>
    have hChunk : (state.annotated table).transformChunk settings chunk =
        ((state.transformChunk settings chunk).1.annotated (table.file (noted settings (.ok chunk))),
          (state.transformChunk settings chunk).2) := by
      by_cases hKind : chunk.getStr "type" = some ANNOTATION_ADDED
      · have hTyped : isChatCompletionChunk chunk = false := by
          rw [isChatCompletionChunk, Json.get_of_getStr hKind]
          exact Bool.and_false _
        rw [transformChunk, transformChunk, if_neg (by rw [hTyped]; exact Bool.false_ne_true),
          if_neg (by rw [hTyped]; exact Bool.false_ne_true), schema_of_annotation hKind, Json.strOrEmpty_of_getStr hKind]
        exact annotationAdded_annotated hKind state table
      · have hNoted : noted settings (.ok chunk) = none := if_neg fun h => hKind h.1
        rw [hNoted, transformChunk, transformChunk]
        split
        · rfl
        · split
          · rfl
          · rename_i hSchema
            refine unread_handle settings chunk ?_ (fun hSame hMessage => ?_) state table
            · exact fun hSame => hKind ((kind_of_schema hSchema).trans (congrArg some hSame))
            · rw [isMessageDone, hSame, hMessage] at hDone
              cases hDone
    rw [OpenAIResponsesStream.transform, OpenAIResponsesStream.transform, hChunk]

end

end Aimux.Responses
