import Aimux.Core.StreamTextFraming

/-! # Content of a streamed step

Consuming the emitted stream accumulates the step content. A delta or end of a block that is not open
never reaches it: the stream without such orphans is consumed to the same state.
-/

namespace Aimux.Core

inductive BlockKind where
  | text | reasoning
deriving DecidableEq

inductive BlockMark where
  | start (kind : BlockKind) (id : String)
  | delta (kind : BlockKind) (id : String)
  | stop (kind : BlockKind) (id : String)

def blockMark : StreamItem → Option BlockMark
  | .ok (.textStart id _) => some (.start .text id)
  | .ok (.textDelta id _ _) => some (.delta .text id)
  | .ok (.textEnd id _) => some (.stop .text id)
  | .ok (.reasoningStart id _) => some (.start .reasoning id)
  | .ok (.reasoningDelta _ id _) => some (.delta .reasoning id)
  | .ok (.reasoningEnd id _) => some (.stop .reasoning id)
  | _ => none

/-- The block was started and has not ended since. -/
def isOpen (kind : BlockKind) (id : String) (history : List StreamItem) : Bool :=
  history.foldl (fun opened item => match blockMark item with
    | some (.start k i) => opened || (k = kind && i = id)
    | some (.stop k i) => opened && !(k = kind && i = id)
    | _ => opened) false

def isOrphan (before : List StreamItem) (item : StreamItem) : Bool :=
  match blockMark item with
  | some (.delta kind id) | some (.stop kind id) => !isOpen kind id before
  | _ => false

def dropOrphans (before : List StreamItem) : List StreamItem → List StreamItem
  | [] => []
  | item :: rest =>
    if isOrphan before item then dropOrphans (before ++ [item]) rest
    else item :: dropOrphans (before ++ [item]) rest

structure KnowsOpen (rm : ResponseMessageBuilder) (before : List StreamItem) : Prop where
  text : ∀ id, rm.textIndexes id ≠ none → isOpen .text id before = true
  reasoning : ∀ id, rm.reasoningIndexes id ≠ none → isOpen .reasoning id before = true

theorem isOpen_concat (kind : BlockKind) (id : String) (before : List StreamItem) (item : StreamItem) :
    isOpen kind id (before ++ [item]) = match blockMark item with
      | some (.start k i) => isOpen kind id before || (k = kind && i = id)
      | some (.stop k i) => isOpen kind id before && !(k = kind && i = id)
      | _ => isOpen kind id before := by
  unfold isOpen
  rw [List.foldl_append]
  rfl

theorem KnowsOpen.unmarked {rm : ResponseMessageBuilder} {before : List StreamItem} (h : KnowsOpen rm before)
    {item : StreamItem} (hMark : blockMark item = none) : KnowsOpen rm (before ++ [item]) where
  text id hId := by rw [isOpen_concat, hMark]; exact h.text id hId
  reasoning id hId := by rw [isOpen_concat, hMark]; exact h.reasoning id hId

theorem KnowsOpen.empty (before : List StreamItem) : KnowsOpen {} before where
  text _ hId := absurd rfl hId
  reasoning _ hId := absurd rfl hId

namespace StreamTextResult

section Indexes

variable (rm : ResponseMessageBuilder)

@[simp] theorem textIndexes_textDelta (id delta : String) (metadata : Option ProviderMetadata) :
    (rm.textDelta id delta metadata).textIndexes = rm.textIndexes := by
  unfold ResponseMessageBuilder.textDelta
  split <;> rfl

@[simp] theorem reasoningIndexes_textDelta (id delta : String) (metadata : Option ProviderMetadata) :
    (rm.textDelta id delta metadata).reasoningIndexes = rm.reasoningIndexes := by
  unfold ResponseMessageBuilder.textDelta
  split <;> rfl

@[simp] theorem textIndexes_reasoningDelta (id delta : String) (metadata : Option ProviderMetadata) :
    (rm.reasoningDelta id delta metadata).textIndexes = rm.textIndexes := by
  unfold ResponseMessageBuilder.reasoningDelta
  split <;> rfl

@[simp] theorem reasoningIndexes_reasoningDelta (id delta : String) (metadata : Option ProviderMetadata) :
    (rm.reasoningDelta id delta metadata).reasoningIndexes = rm.reasoningIndexes := by
  unfold ResponseMessageBuilder.reasoningDelta
  split <;> rfl

@[simp] theorem textIndexes_typedToolResult (result : TypedToolResult) :
    (rm.typedToolResult result).textIndexes = rm.textIndexes := by
  unfold ResponseMessageBuilder.typedToolResult
  split <;> rfl

@[simp] theorem reasoningIndexes_typedToolResult (result : TypedToolResult) :
    (rm.typedToolResult result).reasoningIndexes = rm.reasoningIndexes := by
  unfold ResponseMessageBuilder.typedToolResult
  split <;> rfl

end Indexes

variable {rm : ResponseMessageBuilder} {before : List StreamItem}

theorem recordPart_knows (h : KnowsOpen rm before) (part : TextStreamPart) :
    KnowsOpen (recordPart rm part) (before ++ [Except.ok part]) := by
  cases part with
  | textStart id metadata =>
    refine ⟨?_, ?_⟩
    · intro other hOther
      rw [isOpen_concat]
      by_cases hSame : id = other
      · simp [blockMark, hSame]
      · have hOld : rm.textIndexes other ≠ none := by
          simpa [recordPart, ResponseMessageBuilder.textStart, ResponseMessageBuilder.push,
            Function.update_of_ne (Ne.symm hSame)] using hOther
        simp [blockMark, h.text other hOld]
    · intro other hOther
      rw [isOpen_concat]
      simp [blockMark, h.reasoning other hOther]
  | reasoningStart id metadata =>
    refine ⟨?_, ?_⟩
    · intro other hOther
      rw [isOpen_concat]
      simp [blockMark, h.text other hOther]
    · intro other hOther
      rw [isOpen_concat]
      by_cases hSame : id = other
      · simp [blockMark, hSame]
      · have hOld : rm.reasoningIndexes other ≠ none := by
          simpa [recordPart, ResponseMessageBuilder.reasoningStart, ResponseMessageBuilder.push,
            Function.update_of_ne (Ne.symm hSame)] using hOther
        simp [blockMark, h.reasoning other hOld]
  | textDelta id metadata text =>
    refine ⟨?_, ?_⟩
    · intro other hOther
      rw [isOpen_concat]
      exact h.text other (by simpa [recordPart] using hOther)
    · intro other hOther
      rw [isOpen_concat]
      exact h.reasoning other (by simpa [recordPart] using hOther)
  | reasoningDelta metadata id text =>
    refine ⟨?_, ?_⟩
    · intro other hOther
      rw [isOpen_concat]
      exact h.text other (by simpa [recordPart] using hOther)
    · intro other hOther
      rw [isOpen_concat]
      exact h.reasoning other (by simpa [recordPart] using hOther)
  | textEnd id metadata =>
    refine ⟨?_, ?_⟩
    · intro other hOther
      rw [isOpen_concat]
      simp only [recordPart, ResponseMessageBuilder.textEnd, textIndexes_textDelta] at hOther
      by_cases hSame : other = id
      · simp [hSame] at hOther
      · rw [Function.update_of_ne hSame] at hOther
        simp [blockMark, h.text other hOther, Ne.symm hSame]
    · intro other hOther
      rw [isOpen_concat]
      simp only [recordPart, ResponseMessageBuilder.textEnd, reasoningIndexes_textDelta] at hOther
      simp [blockMark, h.reasoning other hOther]
  | reasoningEnd id metadata =>
    refine ⟨?_, ?_⟩
    · intro other hOther
      rw [isOpen_concat]
      simp only [recordPart, ResponseMessageBuilder.reasoningEnd, textIndexes_reasoningDelta] at hOther
      simp [blockMark, h.text other hOther]
    · intro other hOther
      rw [isOpen_concat]
      simp only [recordPart, ResponseMessageBuilder.reasoningEnd, reasoningIndexes_reasoningDelta] at hOther
      by_cases hSame : other = id
      · simp [hSame] at hOther
      · rw [Function.update_of_ne hSame] at hOther
        simp [blockMark, h.reasoning other hOther, Ne.symm hSame]
  | toolResult result =>
    exact KnowsOpen.unmarked ⟨by simpa [recordPart] using h.text, by simpa [recordPart] using h.reasoning⟩ rfl
  | _ =>
    refine KnowsOpen.unmarked ?_ rfl
    exact ⟨h.text, h.reasoning⟩

variable {part : TextStreamPart} (result : StreamTextResult)

theorem consumePart_content (state : Consumed) (hRole : part.role = .content) :
    result.consumePart state part = ({ state with rm := recordPart state.rm part }, false) := by
  cases part <;> first | rfl | cases hRole

theorem consumePart_knows {state : Consumed} (h : KnowsOpen state.rm before) (part : TextStreamPart) :
    KnowsOpen (result.consumePart state part).1.rm (before ++ [Except.ok part]) := by
  by_cases hRole : part.role = .content
  · rw [consumePart_content result state hRole]
    exact recordPart_knows h part
  · cases part with
    | startStep request warnings => exact .empty _
    | finishStep response usage finishReason rawFinishReason metadata => exact .empty _
    | start => exact recordPart_knows h .start
    | finish finishReason rawFinishReason totalUsage => exact h.unmarked rfl
    | abort reason => exact h.unmarked rfl
    | error error => exact h.unmarked rfl
    | _ => exact absurd rfl hRole

theorem recordPart_orphan (h : KnowsOpen rm before) (hOrphan : isOrphan before (.ok part) = true) :
    recordPart rm part = rm := by
  have hText (id : String) (hClosed : isOpen .text id before = false) : rm.textIndexes id = none := by
    by_contra hKnown
    rw [h.text id hKnown] at hClosed
    cases hClosed
  have hReasoning (id : String) (hClosed : isOpen .reasoning id before = false) :
      rm.reasoningIndexes id = none := by
    by_contra hKnown
    rw [h.reasoning id hKnown] at hClosed
    cases hClosed
  cases part with
  | textDelta id metadata text =>
    have hNone := hText id (by simpa [isOrphan, blockMark] using hOrphan)
    simp [recordPart, ResponseMessageBuilder.textDelta, hNone]
  | reasoningDelta metadata id text =>
    have hNone := hReasoning id (by simpa [isOrphan, blockMark] using hOrphan)
    simp [recordPart, ResponseMessageBuilder.reasoningDelta, hNone]
  | textEnd id metadata =>
    have hNone := hText id (by simpa [isOrphan, blockMark] using hOrphan)
    have hSame : Function.update rm.textIndexes id none = rm.textIndexes := by
      rw [← hNone]
      exact Function.update_eq_self id rm.textIndexes
    simp [recordPart, ResponseMessageBuilder.textEnd, ResponseMessageBuilder.textDelta, hNone, hSame]
  | reasoningEnd id metadata =>
    have hNone := hReasoning id (by simpa [isOrphan, blockMark] using hOrphan)
    have hSame : Function.update rm.reasoningIndexes id none = rm.reasoningIndexes := by
      rw [← hNone]
      exact Function.update_eq_self id rm.reasoningIndexes
    simp [recordPart, ResponseMessageBuilder.reasoningEnd, ResponseMessageBuilder.reasoningDelta, hNone, hSame]
  | _ => cases hOrphan

theorem consumePart_orphan {state : Consumed} (h : KnowsOpen state.rm before)
    (hOrphan : isOrphan before (.ok part) = true) : result.consumePart state part = (state, false) := by
  have hRole : part.role = .content := by
    cases part <;> first | rfl | cases hOrphan
  rw [consumePart_content result state hRole, recordPart_orphan h hOrphan]

theorem consumeItems_dropOrphans (items : List StreamItem) :
    ∀ (before : List StreamItem) (state : Consumed), KnowsOpen state.rm before →
      result.consumeItems state (dropOrphans before items) = result.consumeItems state items := by
  induction items with
  | nil => exact fun _ _ _ => rfl
  | cons item rest ih =>
    intro before state h
    cases item with
    | error error =>
      have hKeep : dropOrphans before (.error error :: rest) =
          .error error :: dropOrphans (before ++ [Except.error error]) rest := rfl
      rw [hKeep, consumeItems, consumeItems]
      split
      · exact ih _ _ (h.unmarked rfl)
      · rfl
    | ok part =>
      have hNext := consumePart_knows result h part
      unfold dropOrphans
      split
      · rename_i hOrphan
        have hSame := consumePart_orphan result h hOrphan
        rw [hSame] at hNext
        rw [consumeItems, hSame]
        exact ih _ _ hNext
      · rw [consumeItems, consumeItems]
        split
        · rfl
        · rename_i next hPart
          rw [hPart] at hNext
          exact ih _ _ hNext

end StreamTextResult

namespace StreamText

/-- For every sequence of provider items and every schedule of pump, abort, deadlines and polls: the
emitted stream is framed, and consuming it accumulates what consuming it without its orphans
accumulates. -/
theorem run_framed (settings : CallSettings) (provider : List ProviderItem)
    (operationDeadline firstChunkDeadline : Option TimeoutDeadline) (chunkMs : Option Nat)
    (schedule : List Action) (result : StreamTextResult) :
    let history := (Lib.Transducer.run step
      (start settings provider operationDeadline firstChunkDeadline chunkMs) schedule).2
    Framed history ∧
    result.consumeItems {} (dropOrphans [] history) = result.consumeItems {} history := by
  intro history
  have hStreaming := Lib.Transducer.run_invariant Streaming (fun _ _ action h => step_streaming h action)
    (Streaming.start settings provider operationDeadline firstChunkDeadline chunkMs) schedule
  obtain ⟨frame, hRun, hFrame⟩ := hStreaming.accepted
  have hDone : frame ≠ .finishing := by
    unfold AtFrame at hFrame
    split at hFrame
    · simp [hFrame.1]
    · unfold readerFrame at hFrame
      split at hFrame <;> simp [hFrame]
    · exact hFrame
  exact ⟨framed_of_run hRun hDone, result.consumeItems_dropOrphans history [] {} (.empty [])⟩

end StreamText

end Aimux.Core
