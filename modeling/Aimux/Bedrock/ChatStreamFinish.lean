import Aimux.Bedrock.ChatStreamTools

/-! # The finish of the Bedrock chat stream

A handler finishes the stream only where no error was reported, and an error is kept for the finish reason.
-/

namespace Aimux.Bedrock

open Aimux.Lib Aimux.Core
open Aimux.Provider (Item Controller)

def isFinish : Item StreamPart → Bool
  | .ok (.finish ..) => true
  | _ => false

/-- An error part, or an error in place of a part. -/
def isFailure : Item StreamPart → Bool
  | .error _ | .ok (.error _) => true
  | _ => false

/-- Neither a finish nor an error. -/
def Plain (items : List (Item StreamPart)) : Prop := ∀ item ∈ items, isFinish item = false ∧ isFailure item = false

theorem plain_nil : Plain [] := fun _ hItem => by cases hItem

theorem plain_append {front back : List (Item StreamPart)} : Plain (front ++ back) ↔ Plain front ∧ Plain back :=
  List.forall_mem_append

theorem Plain.of_all {items : List (Item StreamPart)} (h : items.all fun item => !isFinish item && !isFailure item) :
    Plain items := by
  intro item hItem
  have hBoth := List.all_eq_true.mp h item hItem
  rw [Bool.and_eq_true, Bool.not_eq_true', Bool.not_eq_true'] at hBoth
  exact hBoth

theorem plain_raw (settings : ChatSettings) (chunk : Json) : Plain (settings.ctx.raw chunk) := by
  rw [Provider.StreamContext.raw]
  split <;> exact .of_all rfl

namespace AmazonBedrockChatStream

variable {settings : ChatSettings} {state after : AmazonBedrockChatStream} {items : List (Item StreamPart)} {ends : Bool}

/-- How what a handler emits fits the finish reason. -/
inductive Reports (state after : AmazonBedrockChatStream) (items : List (Item StreamPart)) (ends : Bool) : Prop
  | goesOn (hFinish : ∀ item ∈ items, isFinish item = false)
    (hFailed : ends = false → (state.failed ∨ ∃ item ∈ items, isFailure item) → after.failed)
  | finishes (front : List (Item StreamPart)) (reason : FinishReason) (usage : Usage)
    (metadata : Option ProviderMetadata)
    (hItems : items = front ++ [Except.ok (StreamPart.finish reason usage metadata)])
    (hFront : Plain front) (hEnds : ends = true) (hFailed : state.failed = false)

theorem Reports.plain (hItems : Plain items) (hFailed : state.failed → after.failed) :
    Reports state after items ends := by
  refine .goesOn (fun item hItem => (hItems item hItem).1) fun _ hReported => ?_
  rcases hReported with hState | ⟨item, hItem, hFailure⟩
  · exact hFailed hState
  · rw [(hItems item hItem).2] at hFailure
    cases hFailure

/-- The stream ends with an error. -/
theorem Reports.fails (error : AiMuxError) : Reports state after [.error error] true :=
  .goesOn (fun item hItem => by rw [List.mem_singleton.mp hItem]; rfl) fun hGoesOn => by cases hGoesOn

/-- An error is reported and kept. -/
theorem Reports.failed (hItems : ∀ item ∈ items, isFinish item = false) (hFailed : after.failed) :
    Reports state after items ends := .goesOn hItems fun _ _ => hFailed

theorem Reports.behind {front : List (Item StreamPart)} (h : Reports state after items ends) (hFront : Plain front) :
    Reports state after (front ++ items) ends := by
  cases h with
  | goesOn hFinish hFailed =>
    refine .goesOn (fun item hItem => ?_) fun hGoesOn hReported => hFailed hGoesOn ?_
    · rcases List.mem_append.mp hItem with hItem | hItem
      · exact (hFront item hItem).1
      · exact hFinish item hItem
    · rcases hReported with hState | ⟨item, hItem, hFailure⟩
      · exact .inl hState
      · rcases List.mem_append.mp hItem with hItem | hItem
        · rw [(hFront item hItem).2] at hFailure
          cases hFailure
        · exact .inr ⟨item, hItem, hFailure⟩
  | finishes more reason usage metadata hItems hMore hEnds hFailed =>
    exact .finishes (front ++ more) reason usage metadata (by rw [hItems, List.append_assoc])
      (plain_append.mpr ⟨hFront, hMore⟩) hEnds hFailed

/-! ## Handlers -/

variable (payload : Json)

variable (settings state) in
theorem contentBlockStart_plain :
    Plain (state.contentBlockStart settings payload).2 ∧
      (state.contentBlockStart settings payload).1.finalFinishReason = state.finalFinishReason := by
  rw [contentBlockStart]
  cases startedToolUse payload with
  | some toolUse =>
    refine ⟨?_, rfl⟩
    simp only
    split <;> exact .of_all rfl
  | none =>
    simp only
    split <;> exact ⟨.of_all rfl, rfl⟩

variable (state) in
theorem textDelta_plain (index : Nat) (delta : Json) :
    Plain (state.textDelta index delta).2 ∧
      (state.textDelta index delta).1.finalFinishReason = state.finalFinishReason := by
  rw [textDelta]
  cases (delta.getStr "text").filter (· ≠ "") with
  | none => exact ⟨plain_nil, rfl⟩
  | some text =>
    simp only [plain_append]
    have hText : ∀ processed : String, Plain (if processed = "" then [] else
        [Except.ok (StreamPart.textDelta (toString index) processed none)]) := by
      intro processed
      split <;> exact .of_all rfl
    by_cases hThere : index ∈ state.textBlocks
    · simp only [if_pos hThere]
      exact ⟨⟨plain_nil, hText _⟩, trivial⟩
    · simp only [if_neg hThere]
      exact ⟨⟨.of_all rfl, hText _⟩, rfl⟩

variable (settings state) in
theorem toolDelta_plain (index : Nat) (delta : Json) :
    Plain (state.toolDelta settings index delta).2 ∧
      (state.toolDelta settings index delta).1.finalFinishReason = state.finalFinishReason := by
  rw [toolDelta]
  split
  · split
    · exact ⟨plain_nil, rfl⟩
    · refine ⟨?_, rfl⟩
      simp only
      split <;> exact .of_all rfl
  · exact ⟨plain_nil, rfl⟩

variable (state) in
theorem reasoningDelta_plain (index : Nat) (delta : Json) :
    Plain (state.reasoningDelta index delta).2 ∧
      (state.reasoningDelta index delta).1.finalFinishReason = state.finalFinishReason := by
  rw [reasoningDelta]
  cases delta.get "reasoningContent" with
  | none => exact ⟨plain_nil, rfl⟩
  | some content =>
    simp only
    split
    · exact ⟨plain_nil, rfl⟩
    · have hStarted : Plain (if (state.reasoningBlocks index).isSome = true then []
          else [Except.ok (StreamPart.reasoningStart (toString index) none)]) := by
        split <;> exact .of_all rfl
      split
      all_goals first
        | exact ⟨hStarted, rfl⟩
        | exact ⟨plain_append.mpr ⟨hStarted, .of_all rfl⟩, rfl⟩

theorem contentBlockDelta_reports :
    Reports state (state.contentBlockDelta settings payload).1 (state.contentBlockDelta settings payload).2.1
      (state.contentBlockDelta settings payload).2.2 := by
  rw [contentBlockDelta]
  cases (payload.get "delta").filter (!·.isNull) with
  | none => exact .plain plain_nil id
  | some delta =>
    simp only
    split
    · refine .failed (fun item hItem => ?_) rfl
      rcases List.mem_append.mp hItem with hItem | hItem
      · obtain ⟨block, _, rfl⟩ := Option.map_eq_some_iff.mp (Option.mem_toList.mp hItem)
        rfl
      · rw [List.mem_singleton.mp hItem]
        rfl
    · split
      · exact .fails _
      · have hText := textDelta_plain { state with openBlocks := state.openBlocks.insert (blockIndex payload) }
          (blockIndex payload) delta
        have hTool := toolDelta_plain settings (textDelta
          { state with openBlocks := state.openBlocks.insert (blockIndex payload) } (blockIndex payload) delta).1
            (blockIndex payload) delta
        have hReasoning := reasoningDelta_plain (toolDelta settings (textDelta
          { state with openBlocks := state.openBlocks.insert (blockIndex payload) } (blockIndex payload) delta).1
            (blockIndex payload) delta).1 (blockIndex payload) delta
        refine .plain (plain_append.mpr ⟨plain_append.mpr ⟨hText.1, hTool.1⟩, hReasoning.1⟩) fun hFailed => ?_
        rw [AmazonBedrockChatStream.failed, hReasoning.2, hTool.2, hText.2]
        exact hFailed

theorem contentBlockStop_reports :
    Reports state (state.contentBlockStop settings payload).1 (state.contentBlockStop settings payload).2.1
      (state.contentBlockStop settings payload).2.2 := by
  rw [contentBlockStop]
  simp only
  split
  · exact .fails _
  · split
    · split <;> exact .plain (.of_all rfl) id
    · exact .plain (.of_all rfl) id
    · split <;> exact .plain (.of_all rfl) id

theorem messageStop_reports :
    Reports state (state.messageStop settings payload).1 (state.messageStop settings payload).2.1
      (state.messageStop settings payload).2.2 := by
  rw [messageStop]
  cases state.stopProblem settings (payload.getStr "stopReason") with
  | some problem => exact .fails _
  | none =>
    refine .plain plain_nil fun hFailed => ?_
    simp only [hFailed, if_true]
    exact hFailed

theorem metadataEvent_reports :
    Reports state (state.metadataEvent settings payload).1 (state.metadataEvent settings payload).2.1
      (state.metadataEvent settings payload).2.2 := by
  rw [metadataEvent]
  split
  · exact .failed (fun item hItem => by rw [List.mem_singleton.mp hItem]; rfl) rfl
  · rename_i taken hTaken
    obtain ⟨_, _, hReason⟩ := takenUsage_blocks hTaken
    simp only
    split
    · rename_i hFinish
      rw [Bool.and_eq_true, Bool.not_eq_true', AmazonBedrockChatStream.failed] at hFinish
      refine .finishes [] _ _ _ rfl plain_nil rfl ?_
      rw [AmazonBedrockChatStream.failed, ← hReason]
      exact hFinish.2
    · refine .plain plain_nil fun hFailed => ?_
      rw [AmazonBedrockChatStream.failed] at hFailed ⊢
      simp only
      rw [hReason]
      exact hFailed

theorem transformEvent_reports (eventType : String) (payload : Json) :
    Reports state (state.transformEvent settings eventType payload).1
      (state.transformEvent settings eventType payload).2.1 (state.transformEvent settings eventType payload).2.2 := by
  rw [transformEvent]
  split
  · have hStart := contentBlockStart_plain settings state payload
    refine .plain hStart.1 fun hFailed => ?_
    rw [AmazonBedrockChatStream.failed, hStart.2]
    exact hFailed
  · split
    · exact contentBlockDelta_reports payload
    · split
      · exact contentBlockStop_reports payload
      · split
        · exact messageStop_reports payload
        · split
          · exact metadataEvent_reports payload
          · exact .plain plain_nil id

variable (settings state) in
theorem transformMessage_reports (message : Except AiMuxError EventStreamMessage) :
    Reports state (state.transformMessage settings message).1 (state.transformMessage settings message).2.1
      (state.transformMessage settings message).2.2 := by
  cases message with
  | error error => exact .fails error
  | ok message =>
    rw [transformMessage]
    cases settings.fromStr message.data with
    | error error => exact .failed (fun item hItem => by rw [List.mem_singleton.mp hItem]; rfl) rfl
    | ok payload =>
      simp only
      split
      · exact (Reports.failed (fun item hItem => by rw [List.mem_singleton.mp hItem]; rfl) rfl).behind
          (plain_raw settings _)
      · exact (transformEvent_reports message.eventType payload).behind (plain_raw settings _)

end AmazonBedrockChatStream

end Aimux.Bedrock
