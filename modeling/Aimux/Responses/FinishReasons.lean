import Aimux.Responses.Steps

/-! # Errors and the finish reason

A stream has one finish part, its last part. When an error was reported before it, the reason is an error, unless a
`response.failed` event named another one.
-/

namespace Aimux.Responses

open Aimux.Core Aimux.Provider OpenAIResponsesStream
open Aimux.Lib (Transducer)

def isError : StreamPart → Bool
  | .error _ => true
  | _ => false

def isFinish : StreamPart → Bool
  | .finish .. => true
  | _ => false

/-- Neither an error nor the finish. -/
def isPlain (part : StreamPart) : Bool := !isError part && !isFinish part

/-- An annotation event whose annotation is no source. -/
def InvalidAnnotation (settings : ResponsesSettings) (event : Except AiMuxError Json) : Prop :=
  ∃ chunk id error, event = .ok chunk ∧ chunk.getStr "type" = some "response.output_text.annotation.added" ∧
    annotationSource settings.providerKey id (chunk.member "annotation") = .error error

/-- A `response.failed` event that names why the response is incomplete, and the reason it gives. -/
def FailedWith (event : Except AiMuxError Json) (reason : FinishReason) : Prop :=
  ∃ chunk response text, event = .ok chunk ∧ chunk.getStr "type" = some "response.failed" ∧
    chunk.get "response" = some response ∧ incompleteReason response = some text ∧ reason.raw = some text

/-- What an event does to the error and the finish reason. -/
structure Lawful (settings : ResponsesSettings) (event : Except AiMuxError Json) (state : OpenAIResponsesStream)
    (handled : OpenAIResponsesStream × List StreamPart) : Prop where
  noFinish : ∀ part ∈ handled.2, isFinish part = false
  errored : state.streamErrored = true ∨ (∃ part ∈ handled.2, isError part = true) → handled.1.streamErrored = true
  settled : ¬ InvalidAnnotation settings event → handled.1.streamErrored = true →
    (state.streamErrored = true ∧ handled.1.finalFinishReason = state.finalFinishReason) ∨
      ∃ reason, handled.1.finalFinishReason = some reason ∧ (reason.unified = .error ∨ FailedWith event reason)

variable {handled : OpenAIResponsesStream × List StreamPart}

section

variable {settings : ResponsesSettings} {event : Except AiMuxError Json} {state next : OpenAIResponsesStream}
  {parts : List StreamPart}

variable {part : StreamPart}

theorem isPlain_of_tool (h : isToolPart part = true) : isPlain part = true := by
  cases part <;> first | rfl | cases h

theorem isPlain_of_calm (h : isCalmPart part = true) : isPlain part = true := by
  cases part <;> first | rfl | cases h

theorem not_error_of_plain (h : isPlain part = true) : isError part = false := by
  cases part <;> first | rfl | cases h

theorem not_finish_of_plain (h : isPlain part = true) : isFinish part = false := by
  cases part <;> first | rfl | cases h

/-- The error and the reason stay as they are. -/
theorem Lawful.calm (hErrored : next.streamErrored = state.streamErrored)
    (hReason : next.finalFinishReason = state.finalFinishReason) (hParts : ∀ part ∈ parts, isPlain part = true) :
    Lawful settings event state (next, parts) where
  noFinish part hPart := not_finish_of_plain (hParts part hPart)
  errored h := by
    rcases h with hBefore | ⟨part, hPart, hError⟩
    · exact hErrored.trans hBefore
    · rw [not_error_of_plain (hParts part hPart)] at hError
      cases hError
  settled _ h := .inl ⟨hErrored.symm.trans h, hReason⟩

theorem Lawful.tool (h : ToolStep state handled) :
    Lawful settings event state handled :=
  .calm h.errored h.reason fun part hPart => isPlain_of_tool (h.parts part hPart)

/-- An error is reported, and the reason is an error. -/
theorem Lawful.reported {reason : FinishReason} (hErrored : next.streamErrored = true)
    (hReason : next.finalFinishReason = some reason) (hUnified : reason.unified = .error)
    (hParts : ∀ part ∈ parts, isFinish part = false) : Lawful settings event state (next, parts) where
  noFinish := hParts
  errored _ := hErrored
  settled _ _ := .inr ⟨reason, hReason, .inl hUnified⟩

theorem Lawful.raw (h : Lawful settings event state handled) (chunk : Json) :
    Lawful settings event state (handled.1, .raw chunk :: handled.2) where
  noFinish := List.forall_mem_cons.mpr ⟨rfl, h.noFinish⟩
  errored hError := h.errored (hError.imp_right fun ⟨part, hPart, hIs⟩ => by
    rcases List.mem_cons.mp hPart with rfl | hLater
    · cases hIs
    · exact ⟨part, hLater, hIs⟩)
  settled := h.settled

end

section

variable (settings : ResponsesSettings) (state : OpenAIResponsesStream) {chunk : Json}

theorem lawful_annotationAdded (hKind : chunk.getStr "type" = some "response.output_text.annotation.added") :
    Lawful settings (.ok chunk) state (state.annotationAdded settings chunk) := by
  rw [annotationAdded]
  dsimp only
  split
  · exact .calm rfl rfl (List.forall_mem_singleton.mpr rfl)
  · rename_i error hError
    exact {
      noFinish := List.forall_mem_singleton.mpr rfl
      errored := fun _ => rfl
      settled := fun hValid => absurd ⟨chunk, _, error, rfl, hKind, hError⟩ hValid }

variable (event : Except AiMuxError Json)

theorem lawful_completed (chunk : Json) : Lawful settings event state (state.completed settings chunk) := by
  rw [completed]
  split
  · exact .calm rfl rfl (List.forall_mem_nil _)
  · exact {
      noFinish := List.forall_mem_nil _
      errored := fun h => h.elim id fun hMember => absurd hMember.choose_spec.1 List.not_mem_nil
      settled := fun _ hErrored => .inl ⟨hErrored, if_pos hErrored⟩ }

theorem lawful_failed (hKind : chunk.getStr "type" = some "response.failed") :
    Lawful settings (.ok chunk) state (state.failed settings chunk) := by
  rw [failed]
  cases hResponse : chunk.get "response" with
  | none => exact .calm rfl rfl (List.forall_mem_nil _)
  | some response =>
    have hWhy : ∃ reason, (incompleteReason response).elim (some { unified := .error, raw := some "error" })
        (fun reason => some (mapResponsesFinishReason (some reason) state.hasFunctionCall)) = some reason ∧
          (reason.unified = .error ∨ FailedWith (.ok chunk) reason) := by
      cases hReason : incompleteReason response with
      | none => exact ⟨_, rfl, .inl rfl⟩
      | some text => exact ⟨_, rfl, .inr ⟨chunk, response, text, rfl, hKind, hResponse, hReason, rfl⟩⟩
    dsimp only
    cases hReports : !state.streamErrored && (response.filled "error").isSome with
    | false =>
      exact {
        noFinish := List.forall_mem_nil _
        errored := fun h => h.elim (fun hBefore => by rw [hBefore]; rfl) fun hMember =>
          absurd hMember.choose_spec.1 List.not_mem_nil
        settled := fun _ _ => .inr (by cases hReason : incompleteReason response <;> rw [hReason] at hWhy <;> exact hWhy) }
    | true =>
      exact {
        noFinish := List.forall_mem_singleton.mpr rfl
        errored := fun _ => Bool.or_true _
        settled := fun _ _ => .inr (by cases hReason : incompleteReason response <;> rw [hReason] at hWhy <;> exact hWhy) }

/-- What all the other handlers do to the error and the reason: nothing. -/
theorem lawful_talks {kind : String} (hKind : chunk.getStr "type" = some kind)
    (h : Talks settings state chunk kind handled) : Lawful settings (.ok chunk) state handled := by
  rcases h.cases with hCalm | hDecides
  · exact .calm hCalm.errored hCalm.reason fun part hPart => isPlain_of_calm (hCalm.parts part hPart)
  · cases hDecides with
    | annotationAdded => exact lawful_annotationAdded settings state hKind
    | completed => exact lawful_completed settings state (.ok chunk) chunk
    | failed => exact lawful_failed settings state hKind
    | errorChunk => exact .reported rfl rfl rfl (List.forall_mem_singleton.mpr rfl)

theorem lawful_report (error : AiMuxError) : Lawful settings event state (state.report error) :=
  .reported rfl rfl rfl (List.forall_mem_singleton.mpr rfl)

theorem kind_of_schema (h : chunkSchemaError chunk = none) : chunk.getStr "type" = some (chunk.strOrEmpty "type") := by
  cases hType : chunk.getStr "type" with
  | none =>
    rw [chunkSchemaError, hType] at h
    cases h
  | some kind => rw [Json.strOrEmpty, hType, Option.getD_some]

theorem lawful_transformChunk (chunk : Json) : Lawful settings (.ok chunk) state (state.transformChunk settings chunk) := by
  rw [transformChunk]
  split
  · exact lawful_report settings state _ _
  · split
    · exact lawful_report settings state _ _
    · rename_i hSchema
      rcases handle_cases settings state chunk (chunk.strOrEmpty "type") with hTool | hTalks
      · exact .tool hTool
      · exact lawful_talks settings state (kind_of_schema hSchema) hTalks

theorem lawful_transform : Lawful settings event state (state.transform settings event) := by
  cases event with
  | error error => exact lawful_report settings state _ error
  | ok chunk =>
    rw [transform]
    split
    · exact (lawful_transformChunk settings state chunk).raw chunk
    · exact lawful_transformChunk settings state chunk

end

/-! ## Whole streams -/

/-- What is so of a state after the parts so far, of events that are all of these. -/
structure Noted (settings : ResponsesSettings) (events : List (Except AiMuxError Json)) (state : OpenAIResponsesStream)
    (parts : List StreamPart) : Prop where
  noFinish : ∀ part ∈ parts, isFinish part = false
  errored : (∃ part ∈ parts, isError part = true) → state.streamErrored = true
  settled : (∀ event ∈ events, ¬ InvalidAnnotation settings event) → state.streamErrored = true →
    ∃ reason, state.finalFinishReason = some reason ∧
      (reason.unified = .error ∨ ∃ event ∈ events, FailedWith event reason)

section

variable {settings : ResponsesSettings} {events : List (Except AiMuxError Json)}

theorem Noted.step {state : OpenAIResponsesStream} {parts : List StreamPart} {event : Except AiMuxError Json}
    (hEvent : event ∈ events) (h : Noted settings events state parts) :
    Noted settings events (state.transform settings event).1 (parts ++ (state.transform settings event).2) := by
  have hLaw := lawful_transform settings state event
  refine { noFinish := fun part hPart => ?_, errored := ?_, settled := fun hValid hErrored => ?_ }
  · exact (List.mem_append.mp hPart).elim (h.noFinish part) (hLaw.noFinish part)
  · rintro ⟨part, hPart, hError⟩
    rcases List.mem_append.mp hPart with hBefore | hNow
    · exact hLaw.errored (.inl (h.errored ⟨part, hBefore, hError⟩))
    · exact hLaw.errored (.inr ⟨part, hNow, hError⟩)
  · rcases hLaw.settled (hValid event hEvent) hErrored with ⟨hBefore, hSame⟩ | ⟨reason, hReason, hWhy⟩
    · rw [hSame]
      exact h.settled hValid hBefore
    · exact ⟨reason, hReason, hWhy.imp_right fun hFailed => ⟨event, hEvent, hFailed⟩⟩

theorem noted_run (settings : ResponsesSettings) (events : List (Except AiMuxError Json)) :
    Noted settings events (run settings {} events).1 (run settings {} events).2 := by
  refine Transducer.run_invariant_of (· ∈ events) (Noted settings events) ?_ ?_ events fun _ hEvent => hEvent
  · exact fun _ _ _ hEvent h => h.step hEvent
  · exact {
      noFinish := List.forall_mem_nil _
      errored := fun hMember => absurd hMember.choose_spec.1 List.not_mem_nil
      settled := fun _ hFalse => nomatch hFalse }

end

def inProgress : Json := .object [("type", .string "response.in_progress"), ("response", .object [])]

def overloaded : Json := .object [("type", .string "error"), ("message", .string "overloaded")]

def completedResponse : Json := .object [("type", .string "response.completed"), ("response", .object [])]

def errorInside : List (Except AiMuxError Json) := [.ok inProgress, .ok overloaded, .ok completedResponse]

/-- A response that fails late, and is incomplete. -/
def failedLate : Json := .object [("type", .string "response.failed"), ("response",
  .object [("incomplete_details", .object [("reason", .string "max_output_tokens")])])]

end Aimux.Responses
