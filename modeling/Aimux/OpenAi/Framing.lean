import Aimux.OpenAi.Chunks
import Aimux.Core.StreamTextContent

/-! # The frame of a chunk stream

The role comes in the first chunk and only there, the finish reason in the last one and only there.
-/

namespace Aimux.OpenAi

open Aimux.Core

/-- The role a chunk carries. -/
def roleOf (chunk : ChatCompletionChunk) : Option String := chunk.choices.findSome? (·.delta.role)

def finishOf (chunk : ChatCompletionChunk) : Option String := chunk.choices.findSome? (·.finishReason)

/-- The role frame comes before anything else that is sent. -/
def Spoken (before after : Bool) (chunks : List ChatCompletionChunk) : Prop :=
  match before, after with
  | true, true => ∀ chunk ∈ chunks, roleOf chunk = none
  | false, false => chunks = []
  | false, true => ∃ first rest, chunks = first :: rest ∧ roleOf first = some "assistant" ∧
      ∀ chunk ∈ rest, roleOf chunk = none
  | true, false => False

theorem Spoken.nil (before : Bool) : Spoken before before [] := by
  cases before with
  | false => rfl
  | true => exact fun _ hMem => absurd hMem List.not_mem_nil

theorem Spoken.append {before between after : Bool} {chunks later : List ChatCompletionChunk}
    (h : Spoken before between chunks) (hLater : Spoken between after later) :
    Spoken before after (chunks ++ later) := by
  cases before <;> cases between <;> cases after
  · rw [show chunks = [] from h]
    exact hLater
  · rw [show chunks = [] from h]
    exact hLater
  · exact hLater.elim
  · obtain ⟨first, rest, rfl, hFirst, hRest⟩ := h
    refine ⟨first, rest ++ later, rfl, hFirst, fun chunk hMem => ?_⟩
    rcases List.mem_append.mp hMem with hMem | hMem
    · exact hRest chunk hMem
    · exact hLater chunk hMem
  · exact h.elim
  · exact h.elim
  · exact hLater.elim
  · intro chunk hMem
    rcases List.mem_append.mp hMem with hMem | hMem
    · exact h chunk hMem
    · exact hLater chunk hMem

/-- What a part does that does not end the stream. -/
structure Framing (state : StreamState) (result : StreamState × List ChatCompletionChunk) : Prop where
  finishEmitted : result.1.finishEmitted = state.finishEmitted
  startPending : state.startPending = true → result.1.startPending = true
  /-- A call is opened after the role frame. -/
  opened : result.1.toolCallOpened = state.toolCallOpened ∨ result.1.started = true
  unfinished : ∀ chunk ∈ result.2, finishOf chunk = none
  spoken : Spoken state.started result.1.started result.2

/-- A state after `Start` and before the end. -/
structure Begun (state : StreamState) : Prop where
  unfinished : state.finishEmitted = false
  begun : state.started = true ∨ state.startPending = true
  opened : state.toolCallOpened ≠ [] → state.started = true

theorem Spoken.started {before after : Bool} {chunks : List ChatCompletionChunk}
    (h : Spoken before after chunks) (hBefore : before = true) : after = true := by
  subst hBefore
  cases after with
  | true => rfl
  | false => exact h.elim

variable {result : StreamState × List ChatCompletionChunk}

theorem Framing.begun {state : StreamState} (h : Framing state result) (hBegun : Begun state) : Begun result.1 where
  unfinished := h.finishEmitted.trans hBegun.unfinished
  begun := hBegun.begun.imp h.spoken.started h.startPending
  opened := by
    intro hOpened
    rcases h.opened with hSame | hStarted
    · exact h.spoken.started (hBegun.opened (hSame ▸ hOpened))
    · exact hStarted

variable {part : TextStreamPart}

namespace StreamState

variable {self : StreamState} {reported : Option ResponseMetadata}

theorem roleOf_deltaChunk (self : StreamState) (delta : ChatCompletionDelta) :
    roleOf (self.deltaChunk delta) = delta.role := by
  simp [roleOf, deltaChunk, baseChunk]

theorem finishOf_deltaChunk (self : StreamState) (delta : ChatCompletionDelta) :
    finishOf (self.deltaChunk delta) = none := rfl

theorem framing_nothing : Framing self (self, []) where
  finishEmitted := rfl
  startPending := fun h => h
  opened := .inl rfl
  unfinished := fun _ hMem => absurd hMem List.not_mem_nil
  spoken := Spoken.nil _

theorem ensureStarted_started : (self.ensureStarted reported).1.started = true := by
  unfold ensureStarted
  split
  · assumption
  · rfl

theorem ensureStarted_framing : Framing self (self.ensureStarted reported) := by
  unfold ensureStarted
  by_cases hStarted : self.started = true
  · rw [if_pos hStarted]
    exact framing_nothing
  · rw [if_neg hStarted]
    refine ⟨rfl, fun h => h, .inl rfl, ?_, ?_⟩
    · intro chunk hMem
      rw [List.mem_singleton.mp hMem]
      exact finishOf_deltaChunk _ _
    · rw [Bool.eq_false_iff.mpr hStarted]
      exact ⟨_, [], rfl, roleOf_deltaChunk _ _, fun _ hMem => absurd hMem List.not_mem_nil⟩

theorem pendingStart_framing : Framing self (self.pendingStart reported) := by
  unfold pendingStart
  split
  · exact ensureStarted_framing
  · exact framing_nothing

theorem pendingStart_started (hBegun : Begun self) : (self.pendingStart reported).1.started = true := by
  unfold pendingStart
  split
  · exact ensureStarted_started
  · exact hBegun.begun.resolve_right ‹_›

/-- The frame of a state, which an entry of the table does not touch. -/
structure SameFrame (state sent : StreamState) : Prop where
  started : sent.started = state.started
  finishEmitted : sent.finishEmitted = state.finishEmitted
  startPending : sent.startPending = state.startPending

theorem sameFrame_setAccum (id : String) (acc : ToolCallAccum) : SameFrame self (self.setAccum id acc) :=
  ⟨rfl, rfl, rfl⟩

theorem sameFrame_allocate (id arguments : String) : SameFrame self (self.allocate id arguments) :=
  ⟨rfl, rfl, rfl⟩

variable {sent : StreamState}

theorem SameFrame.markOpened (h : SameFrame self sent) (id : String) :
    SameFrame self (sent.markOpened id) :=
  ⟨h.started, h.finishEmitted, h.startPending⟩

variable {opening : StreamState × List ChatCompletionChunk}

/-- A chunk without a role, after the role frame. -/
theorem framing_chunk (hOpening : Framing self opening) (hStarted : opening.1.started = true)
    (hSent : SameFrame opening.1 sent) {delta : ChatCompletionDelta} (hRole : delta.role = none) :
    Framing self (sent, opening.2 ++ [sent.deltaChunk delta]) where
  finishEmitted := hSent.finishEmitted.trans hOpening.finishEmitted
  startPending := fun h => hSent.startPending.trans (hOpening.startPending h)
  opened := .inr (hSent.started.trans hStarted)
  unfinished := by
    intro chunk hMem
    rcases List.mem_append.mp hMem with hMem | hMem
    · exact hOpening.unfinished chunk hMem
    · rw [List.mem_singleton.mp hMem]
      exact finishOf_deltaChunk _ _
  spoken := by
    have hSpoken := hOpening.spoken
    rw [hStarted] at hSpoken
    rw [hSent.started, hStarted]
    refine hSpoken.append fun chunk hMem => ?_
    rw [List.mem_singleton.mp hMem, roleOf_deltaChunk]
    exact hRole

theorem framing_toolChunk (hOpening : Framing self opening) (hStarted : opening.1.started = true)
    (hSent : SameFrame opening.1 sent) (call : ChatCompletionChunkToolCall) :
    Framing self (sent, opening.2 ++ [sent.toolChunk call]) :=
  framing_chunk hOpening hStarted hSent rfl

theorem say_framing {delta : ChatCompletionDelta} (hRole : delta.role = none) :
    Framing self (self.say reported delta) :=
  framing_chunk ensureStarted_framing ensureStarted_started ⟨rfl, rfl, rfl⟩ hRole

theorem toolInputStart_framing (id toolName : String) :
    Framing self (self.toolInputStart reported id toolName) := by
  unfold toolInputStart
  dsimp only
  split
  · exact framing_toolChunk ensureStarted_framing ensureStarted_started
      (SameFrame.markOpened ⟨rfl, rfl, rfl⟩ id) _
  · exact framing_toolChunk ensureStarted_framing ensureStarted_started
      ((sameFrame_allocate id "").markOpened id) _

theorem toolInputDelta_framing (id delta : String) :
    Framing self (self.toolInputDelta reported id delta) := by
  unfold toolInputDelta
  dsimp only
  split
  · exact framing_toolChunk ensureStarted_framing ensureStarted_started (sameFrame_setAccum id _) _
  · exact framing_toolChunk ensureStarted_framing ensureStarted_started (sameFrame_allocate id delta) _

variable {libraries : Libraries} {options : OpenAiStreamOptions}

theorem toolCall_framing (hBegun : Begun self) (call : ToolCall) :
    Framing self (self.toolCall libraries reported call) := by
  unfold toolCall
  by_cases hOpened : call.toolCallId ∈ self.toolCallOpened
  · have hStarted : self.started = true := hBegun.opened (List.ne_nil_of_mem hOpened)
    simp only [if_pos hOpened]
    cases self.accum call.toolCallId with
    | none => exact framing_nothing
    | some acc =>
      dsimp only
      split
      · exact framing_nothing
      · exact framing_toolChunk framing_nothing hStarted (sameFrame_setAccum _ _) _
  · simp only [if_neg hOpened]
    exact framing_toolChunk ensureStarted_framing ensureStarted_started
      ((sameFrame_allocate _ _).markOpened _) _

theorem errorChunk_framing (hBegun : Begun self) (error : AiMuxError) :
    Framing self ((((self.pendingStart reported).1.errorChunk libraries error)).1,
      (self.pendingStart reported).2 ++ ((self.pendingStart reported).1.errorChunk libraries error).2) := by
  have hOpening : Framing self (self.pendingStart reported) := pendingStart_framing
  have hStarted : (self.pendingStart reported).1.started = true := pendingStart_started hBegun
  have hUnfinished : (self.pendingStart reported).1.finishEmitted = false := (hOpening.begun hBegun).unfinished
  unfold errorChunk
  rw [if_neg (by simp [hUnfinished])]
  refine framing_chunk hOpening hStarted ⟨?_, ?_, ?_⟩ ?_
  · exact hStarted.symm
  · rfl
  · rfl
  · rfl

theorem start_framing (self : StreamState) :
    Framing self (self.processPart libraries options reported .start) := by
  simp only [processPart]
  split
  · exact ⟨rfl, fun _ => rfl, .inl rfl, fun _ hMem => absurd hMem List.not_mem_nil, Spoken.nil _⟩
  · exact ensureStarted_framing

/-- A part that makes no call and no error text leaves a frame whether or not the stream has begun. -/
theorem otherPart_framing (hPart : isFinish part = false) (hCall : ∀ call, part ≠ .toolCall call)
    (hError : ∀ error, part ≠ .error error) :
    Framing self (self.processPart libraries options reported part) := by
  cases part with
  | finish => cases hPart
  | toolCall call => exact absurd rfl (hCall call)
  | error error => exact absurd rfl (hError error)
  | start => exact start_framing self
  | finishStep =>
    simp only [processPart]
    split
    · exact ⟨rfl, fun h => h, .inl rfl, fun _ hMem => absurd hMem List.not_mem_nil, Spoken.nil _⟩
    · exact framing_nothing
  | textStart => exact ensureStarted_framing
  | textDelta => exact say_framing rfl
  | reasoningDelta =>
    simp only [processPart]
    split
    · exact say_framing rfl
    · exact framing_nothing
  | toolInputStart => exact toolInputStart_framing _ _
  | toolInputDelta => exact toolInputDelta_framing _ _
  | toolResult => exact say_framing rfl
  | toolError =>
    simp only [processPart]
    split
    · exact say_framing rfl
    · exact framing_nothing
  | file => exact say_framing rfl
  | source source =>
    cases source with
    | url =>
      simp only [processPart]
      split
      · exact ensureStarted_framing
      · exact say_framing rfl
    | document => exact framing_nothing
  | _ => exact framing_nothing

/-- One part that does not end the stream. -/
theorem processPart_framing (hBegun : Begun self) (hPart : isFinish part = false) :
    Framing self (self.processPart libraries options reported part) := by
  cases part with
  | toolCall call => exact toolCall_framing hBegun call
  | error error => exact errorChunk_framing hBegun error
  | _ => exact otherPart_framing hPart (fun _ hCall => by cases hCall) fun _ hError => by cases hError

theorem toolCall_unfinished (call : ToolCall) :
    ∀ chunk ∈ (self.toolCall libraries reported call).2, finishOf chunk = none := by
  unfold toolCall
  dsimp only
  split
  · cases self.accum call.toolCallId with
    | none => exact fun _ hMem => absurd hMem List.not_mem_nil
    | some acc =>
      dsimp only
      split
      · exact fun _ hMem => absurd hMem List.not_mem_nil
      · intro chunk hMem
        rw [List.mem_singleton.mp hMem]
        exact finishOf_deltaChunk _ _
  · exact (framing_toolChunk ensureStarted_framing ensureStarted_started
      ((sameFrame_allocate _ _).markOpened _) _).unfinished

theorem errorChunk_unfinished (error : AiMuxError) :
    ∀ chunk ∈ (self.errorChunk libraries error).2, finishOf chunk = none := by
  unfold errorChunk
  split
  · exact fun _ hMem => absurd hMem List.not_mem_nil
  · intro chunk hMem
    rw [List.mem_singleton.mp hMem]
    exact finishOf_deltaChunk _ _

/-- Only the `Finish` part gives a finish reason, whatever the state. -/
theorem processPart_unfinished (hPart : isFinish part = false) :
    ∀ chunk ∈ (self.processPart libraries options reported part).2, finishOf chunk = none := by
  cases part with
  | toolCall call => exact toolCall_unfinished call
  | error error =>
    intro chunk hMem
    rcases List.mem_append.mp hMem with hMem | hMem
    · exact pendingStart_framing.unfinished chunk hMem
    · exact errorChunk_unfinished error chunk hMem
  | _ =>
    exact (otherPart_framing hPart (fun _ hCall => by cases hCall) fun _ hError => by cases hError).unfinished

end StreamState

/-! ## Whole streams -/

/-- The items that are no errors. -/
def values {α : Type} (items : List (Except AiMuxError α)) : List α := items.filterMap Except.toOption

@[simp] theorem values_map_ok {α : Type} (chunks : List α) : values (chunks.map .ok) = chunks := by
  induction chunks with
  | nil => rfl
  | cons chunk chunks ih => exact congrArg (chunk :: ·) ih

theorem values_append {α : Type} (items later : List (Except AiMuxError α)) :
    values (items ++ later) = values items ++ values later :=
  List.filterMap_append

/-- The chunks up to the end of the stream. -/
structure Ended (started : Bool) (chunks : List ChatCompletionChunk) : Prop where
  finish : ∃ earlier last reason, chunks = earlier ++ [last] ∧ finishOf last = some reason ∧
    ∀ chunk ∈ earlier, finishOf chunk = none
  spoken : Spoken started true chunks

theorem Ended.after {state : StreamState} {later : List ChatCompletionChunk} (h : Framing state result)
    (hLater : Ended result.1.started later) : Ended state.started (result.2 ++ later) where
  finish := by
    obtain ⟨earlier, last, reason, rfl, hLast, hEarlier⟩ := hLater.finish
    refine ⟨result.2 ++ earlier, last, reason, (List.append_assoc _ _ _).symm, hLast, fun chunk hMem => ?_⟩
    rcases List.mem_append.mp hMem with hMem | hMem
    · exact h.unfinished chunk hMem
    · exact hEarlier chunk hMem
  spoken := h.spoken.append hLater.spoken

section Ending

variable {self : StreamState} {libraries : Libraries} {options : OpenAiStreamOptions}
  {reported : Option ResponseMetadata}

theorem finalChunk_ended (hBegun : Begun self) (hStarted : self.started = true) (includeUsage : Bool) :
    Ended self.started (self.finalChunk includeUsage).2 := by
  rw [StreamState.finalChunk, if_neg (by simp [hBegun.unfinished]), hStarted]
  refine ⟨⟨[], _, _, rfl, rfl, fun _ hMem => absurd hMem List.not_mem_nil⟩, fun chunk hMem => ?_⟩
  rw [List.mem_singleton.mp hMem]
  rfl

theorem pendingStart_ended (hBegun : Begun self) (includeUsage : Bool) :
    Ended self.started
      ((self.pendingStart reported).2 ++ ((self.pendingStart reported).1.finalChunk includeUsage).2) := by
  have hFraming : Framing self (self.pendingStart reported) := StreamState.pendingStart_framing
  exact .after hFraming
    (finalChunk_ended (hFraming.begun hBegun) (StreamState.pendingStart_started hBegun) includeUsage)

theorem processPart_ended (hBegun : Begun self) (hPart : isFinish part = true) :
    Ended self.started (self.processPart libraries options reported part).2 := by
  cases part with
  | finish finishReason rawFinishReason totalUsage =>
    have hRecorded : Begun { self with
        finalUsage := some totalUsage
        finalFinishReason := some (finishReason, rawFinishReason) } :=
      ⟨hBegun.unfinished, hBegun.begun, hBegun.opened⟩
    exact pendingStart_ended hRecorded options.includeUsage
  | _ => cases hPart

theorem close_ended (hBegun : Begun self) (error : Option AiMuxError) :
    Ended self.started (self.close libraries options reported error) := by
  cases error with
  | none =>
    simp only [StreamState.close, List.append_nil]
    exact pendingStart_ended hBegun options.includeUsage
  | some error =>
    have hStarted : ((self.pendingStart reported).1.errorChunk libraries error).1.started = true := by
      unfold StreamState.errorChunk
      split
      · exact StreamState.pendingStart_started hBegun
      · rfl
    have hFraming := @StreamState.errorChunk_framing self reported libraries hBegun error
    exact .after hFraming (finalChunk_ended (hFraming.begun hBegun) hStarted options.includeUsage)

/-- From any state after `Start`, whatever the items are. -/
theorem convert_ended (reports : Nat → Option ResponseMetadata) (items : List StreamItem) (n : Nat)
    (hBegun : Begun self) : Ended self.started (values (convert libraries options reports n self items)) := by
  induction items generalizing n self with
  | nil =>
    rw [convert, values_map_ok]
    exact close_ended hBegun none
  | cons item items ih =>
    cases item with
    | error error =>
      rw [convert]
      split
      · exact ih (n + 1) hBegun
      · rw [values_map_ok]
        exact close_ended hBegun (some error)
    | ok part =>
      simp only [convert]
      rw [values_append, values_map_ok]
      cases hPart : isFinish part with
      | true =>
        have hEnded : Ended self.started (self.processPart libraries options (reports n) part).2 :=
          processPart_ended hBegun hPart
        simpa [values] using hEnded
      | false =>
        have hFraming : Framing self (self.processPart libraries options (reports n) part) :=
          StreamState.processPart_framing hBegun hPart
        exact .after hFraming (ih (n + 1) (hFraming.begun hBegun))

theorem start_begun (id : String) (created : Nat) (model : String) (identity : Bool) :
    Begun ((StreamState.new id created model identity).processPart libraries options reported .start).1 := by
  cases identity <;> exact ⟨rfl, by simp [StreamState.processPart, StreamState.ensureStarted, StreamState.new],
    by simp [StreamState.processPart, StreamState.ensureStarted, StreamState.new]⟩

theorem convert_start_ended (reports : Nat → Option ResponseMetadata) (id : String) (created : Nat)
    (model : String) (identity : Bool) (items : List StreamItem) :
    Ended false (values (convert libraries options reports 0 (StreamState.new id created model identity)
      (.ok .start :: items))) := by
  rw [convert, values_append, values_map_ok]
  exact .after (StreamState.start_framing _) (convert_ended reports items 1 (start_begun id created model identity))

end Ending

end Aimux.OpenAi
