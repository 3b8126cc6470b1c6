import Aimux.OpenAi.ToolCalls

/-! # The chunk stream of a streamed text

The parts that `stream_text` emits on any schedule, converted to the end.
-/

namespace Aimux.OpenAi

open Aimux.Core

/-! ## The parts and what answers them -/

/-- The parts that are converted, with the chunks of each. -/
def answered (libraries : Libraries) (options : OpenAiStreamOptions) (reported : Nat → Option ResponseMetadata) :
    Nat → StreamState → List StreamItem → Log
  | _, _, [] => []
  | n, state, .error error :: items =>
    if error.isRecoverableStreamError then answered libraries options reported (n + 1) state items else []
  | n, state, .ok part :: items =>
    let processed := state.processPart libraries options (reported n) part
    (part, processed.2) ::
      if isFinish part then [] else answered libraries options reported (n + 1) processed.1 items

section Answered

variable {libraries : Libraries} {options : OpenAiStreamOptions} {reports : Nat → Option ResponseMetadata}

theorem close_silent (libraries : Libraries) (state : StreamState) (reported : Option ResponseMetadata) (error : Option AiMuxError) :
    (state.close libraries options reported error).flatMap fragments = [] := by
  have hOpening : Silent state (state.pendingStart reported) := StreamState.pendingStart_silent
  unfold StreamState.close
  cases error with
  | none =>
    dsimp only
    rw [List.append_nil, List.flatMap_append, hOpening.fragments,
      (StreamState.finalChunk_silent options.includeUsage).fragments, List.append_nil]
  | some error =>
    dsimp only
    rw [List.flatMap_append, List.flatMap_append, hOpening.fragments,
      (StreamState.errorChunk_silent libraries error).fragments,
      (StreamState.finalChunk_silent options.includeUsage).fragments, List.append_nil, List.append_nil]

/-- The end of the stream adds no fragment. -/
theorem values_convert (n : Nat) (state : StreamState) (items : List StreamItem) :
    ∃ closing, closing.flatMap fragments = [] ∧
      values (convert libraries options reports n state items) =
        (answered libraries options reports n state items).chunks ++ closing := by
  induction items generalizing n state with
  | nil => exact ⟨_, close_silent libraries state (reports n) none, values_map_ok _⟩
  | cons item items ih =>
    cases item with
    | error error =>
      rw [convert, answered]
      by_cases hRecoverable : error.isRecoverableStreamError = true
      · rw [if_pos hRecoverable, if_pos hRecoverable]
        exact ih (n + 1) state
      · rw [if_neg hRecoverable, if_neg hRecoverable]
        exact ⟨_, close_silent libraries state (reports n) (some error), values_map_ok _⟩
    | ok part =>
      simp only [convert, answered]
      rw [values_append, values_map_ok]
      cases isFinish part with
      | true => exact ⟨[], rfl, by simp [values, Log.chunks]⟩
      | false =>
        obtain ⟨closing, hSilent, hRest⟩ :=
          ih (n + 1) (state.processPart libraries options (reports n) part).1
        refine ⟨closing, hSilent, ?_⟩
        simp only [Bool.false_eq_true, if_false]
        rw [hRest]
        simp [Log.chunks]

/-- Nothing follows the item that ends the stream. -/
theorem answered_parts (n : Nat) (state : StreamState) {items : List StreamItem}
    (hFinal : ∀ before item after, items = before ++ item :: after → (itemRole item).isFinal = true → after = []) :
    (answered libraries options reports n state items).parts = values items := by
  induction items generalizing n state with
  | nil => rfl
  | cons item items ih =>
    have hRest (before : List StreamItem) (later : StreamItem) (after : List StreamItem)
        (hItems : items = before ++ later :: after) : (itemRole later).isFinal = true → after = [] :=
      hFinal (item :: before) later after (by rw [hItems]; rfl)
    cases item with
    | error error =>
      rw [answered]
      by_cases hRecoverable : error.isRecoverableStreamError = true
      · rw [if_pos hRecoverable]
        exact ih (n + 1) state hRest
      · have hLast : items = [] := hFinal [] _ items rfl (by simp [itemRole, hRecoverable, ItemRole.isFinal])
        rw [if_neg hRecoverable, hLast]
        rfl
    | ok part =>
      simp only [answered]
      cases hPart : isFinish part with
      | true =>
        have hLast : items = [] := hFinal [] _ items rfl (by
          cases part <;> first | rfl | cases hPart)
        rw [hLast]
        rfl
      | false => exact congrArg (part :: ·) (ih (n + 1) _ hRest)

/-- Every call that is known when it comes was opened. -/
def Announced (parts : List TextStreamPart) : Prop :=
  ∀ before call after, parts = before ++ TextStreamPart.toolCall call :: after → call.toolCallId ∈ toolIds before →
    call.toolCallId ∈ before.filterMap openedId

theorem answered_tracks (n : Nat) {state : StreamState} (items : List StreamItem) {log : Log}
    (h : Tracks libraries state log) {parts : List TextStreamPart}
    (hParts : parts = log.parts ++ (answered libraries options reports n state items).parts)
    (hAnnounced : Announced parts) (hBound : (toolIds parts).length ≤ 2 ^ 32) :
    ∃ last, Tracks libraries last (log ++ answered libraries options reports n state items) := by
  induction items generalizing n state log with
  | nil => exact ⟨state, by rw [answered, List.append_nil]; exact h⟩
  | cons item items ih =>
    cases item with
    | error error =>
      rw [answered] at hParts ⊢
      by_cases hRecoverable : error.isRecoverableStreamError = true
      · rw [if_pos hRecoverable] at hParts ⊢
        exact ih (n + 1) h hParts
      · rw [if_neg hRecoverable, List.append_nil]
        exact ⟨state, h⟩
    | ok part =>
      simp only [answered] at hParts ⊢
      let processed := state.processPart libraries options (reports n) part
      have hSplit : parts = (log.parts ++ [part]) ++ Log.parts (if isFinish part = true then [] else
          answered libraries options reports (n + 1) processed.1 items) := by
        rw [hParts, List.append_assoc]
        rfl
      have hLength : (toolIds (log.parts ++ [part])).length ≤ 2 ^ 32 := by
        refine le_trans ?_ hBound
        rw [hSplit]
        exact (toolIds_isPrefix_append _ _).length_le
      have hNext : Tracks libraries processed.1 (log ++ [(part, processed.2)]) := by
        refine h.processPart options part hLength fun call hCall => ?_
        subst hCall
        exact hAnnounced _ call _ hParts
      rw [List.append_cons]
      cases hFinish : isFinish part with
      | true => exact ⟨processed.1, by simpa using hNext⟩
      | false =>
        rw [hFinish] at hSplit
        refine ih (n + 1) hNext ?_
        rw [Log.parts_concat]
        exact hSplit

theorem tracks_new (id : String) (created : Nat) (model : String) (identity : Bool) :
    Tracks libraries (StreamState.new id created model identity) [] where
  told := ⟨by simp [Log.parts, toolIds], by simp, by simp [Log.parts, toolIds]⟩
  unused := fun _ _ => rfl
  next := rfl
  accum := fun _ => by simp [Log.parts, toolIds, StreamState.accum, StreamState.new]
  opened := fun _ => by simp [Log.parts, StreamState.new]

end Answered

/-! ## The text sent for one call -/

def deltaOf (id : String) : TextStreamPart → Option String
  | .toolInputDelta other delta _ => if other = id then some delta else none
  | _ => none

/-- The deltas of a call, as they came. -/
def deltasOf (id : String) (parts : List TextStreamPart) : String := String.join (parts.filterMap (deltaOf id))

/-- A JSON text of a value: the compact one, or a text that is read as the value. -/
def JsonTextOf (libraries : Libraries) (value : Json) (text : String) : Prop :=
  text = libraries.jsonText value ∨ libraries.parseInputText text = .ok value

section Text

variable {libraries : Libraries} {id : String} {parts later : List TextStreamPart}

theorem sentText_later (hLater : ∀ part ∈ later, toolId part ≠ some id) :
    sentText libraries id (parts ++ later) = sentText libraries id parts := by
  induction later using List.reverseRecOn with
  | nil => rw [List.append_nil]
  | append_singleton later part ih =>
    rw [← List.append_assoc, sentText_concat, tell_other libraries _ (hLater part (by simp))]
    exact ih fun other hOther => hLater other (List.mem_append_left _ hOther)

/-- Before the call itself comes. -/
theorem sentText_deltas (hDeltas : ∀ call, .toolCall call ∈ parts → call.toolCallId ≠ id) :
    sentText libraries id parts = deltasOf id parts := by
  induction parts using List.reverseRecOn with
  | nil => rfl
  | append_singleton parts part ih =>
    have hBefore := ih fun call hCall => hDeltas call (List.mem_append_left _ hCall)
    rw [sentText_concat, hBefore, deltasOf, deltasOf, List.filterMap_append, String.join_append]
    cases part with
    | toolInputDelta other delta metadata =>
      by_cases hSame : other = id
      · simp [tell, deltaOf, hSame]
      · simp [tell, deltaOf, hSame]
    | toolCall call => simp [tell, List.filterMap_cons, deltaOf, hDeltas call (by simp)]
    | _ => simp [tell, List.filterMap_cons, deltaOf]

theorem parsedToolCallArguments_valid {call : ToolCall} (hValid : call.invalid ≠ some true) :
    parsedToolCallArguments libraries call = libraries.jsonText call.input := by
  unfold parsedToolCallArguments
  split
  · rename_i hInvalid _
    exact absurd hInvalid hValid
  · rfl

theorem jsonTextOf_completed {value : Json} {sent : String}
    (hSent : sent.toList <+: (libraries.jsonText value).toList ∨ JsonTextOf libraries value sent) :
    JsonTextOf libraries value (completed sent (libraries.jsonText value)) := by
  unfold completed
  split
  · exact .inl rfl
  · exact hSent.resolve_left ‹_›

end Text

/-! ## Runs of `stream_text` -/

/-- What a reader finds in the chunks of a stream of these parts about the tool calls. -/
structure Reconstructs (libraries : Libraries) (parts : List TextStreamPart) (log : Log)
    (chunks : List ChatCompletionChunk) : Prop where
  index : ∀ id ∈ toolIds parts,
    log.indicesOf id ≠ [] ∧ ∀ n ∈ log.indicesOf id, n = (toolIds parts).idxOf id
  silent : ∀ entry ∈ log, toolId entry.1 = none → entry.2.flatMap fragments = []
  sent : ∀ id ∈ toolIds parts, argumentsAt ((toolIds parts).idxOf id) chunks = sentText libraries id parts
  /-- A valid call after its deltas and before nothing else of the call. -/
  call : ∀ before call after, parts = before ++ .toolCall call :: after → call.invalid ≠ some true →
    (∀ earlier, .toolCall earlier ∈ before → earlier.toolCallId ≠ call.toolCallId) →
    (∀ part ∈ after, toolId part ≠ some call.toolCallId) →
    let sent := deltasOf call.toolCallId before
    let compact := libraries.jsonText call.input
    let text := argumentsAt ((toolIds parts).idxOf call.toolCallId) chunks
    text = completed sent compact ∧
      (sent.toList <+: compact.toList ∨ JsonTextOf libraries call.input sent →
        JsonTextOf libraries call.input text)

theorem reconstructs_of_sent {libraries : Libraries} {parts : List TextStreamPart} {log : Log}
    {chunks : List ChatCompletionChunk} (hTold : Told libraries log) (hParts : log.parts = parts)
    (hChunks : ∀ n, argumentsAt n chunks = argumentsAt n log.chunks) :
    Reconstructs libraries parts log chunks := by
  subst hParts
  have hSent (id : String) (hId : id ∈ toolIds log.parts) :
      argumentsAt ((toolIds log.parts).idxOf id) chunks = sentText libraries id log.parts := by
    rw [hChunks]
    exact hTold.arguments id hId
  refine ⟨hTold.index, hTold.silent, hSent, ?_⟩
  intro before call after hSplit hValid hBefore hAfter sent compact text
  have hId : call.toolCallId ∈ toolIds log.parts := by
    rw [mem_toolIds, hSplit]
    exact List.mem_filterMap.mpr ⟨.toolCall call, by simp, rfl⟩
  have hText : text = completed sent compact := by
    calc
      text = sentText libraries call.toolCallId log.parts := hSent call.toolCallId hId
      _ = sentText libraries call.toolCallId (before ++ [.toolCall call]) := by
        rw [hSplit, List.append_cons]
        exact sentText_later hAfter
      _ = completed (sentText libraries call.toolCallId before) (parsedToolCallArguments libraries call) := by
        rw [sentText_concat]
        exact if_pos rfl
      _ = completed sent compact := by
        rw [sentText_deltas hBefore, parsedToolCallArguments_valid hValid]
  refine ⟨hText, fun hJson => ?_⟩
  rw [hText]
  exact jsonTextOf_completed hJson

section Runs

open StreamText

/-- Whatever the reader said first is there when it has ended. -/
theorem step_ne_nil {stream : StreamText} {history : List StreamItem}
    (h : stream.phase ≠ .fresh → history ≠ []) (action : Action) :
    (step stream action).1.phase ≠ .fresh → history ++ (step stream action).2 ≠ [] := by
  have hPump {stream' : StreamText} (hSection : PumpSection stream stream') :
      stream'.phase ≠ .fresh → history ++ [] ≠ [] := by
    rw [hSection.phase, List.append_nil]
    exact h
  cases action with
  | abort => exact hPump ⟨rfl, rfl⟩
  | pumpAborted => exact hPump (pumpAborted_section stream)
  | operationTimeout => exact hPump (operationTimeout_section stream)
  | chunkTimeout => exact hPump (chunkTimeout_section stream)
  | providerNext inRange => exact hPump (providerNext_section stream inRange)
  | pumpSend inRange => exact hPump (pumpSend_section stream inRange)
  | next answers =>
    intro _
    by_cases hFresh : stream.phase = .fresh
    · rw [step, StreamText.next, hFresh]
      simp
    · exact List.append_ne_nil_of_left_ne_nil (h hFresh) _

/-- The items of a run that has ended: `Start` first, and nothing after the item that ends the stream. -/
theorem run_items (settings : CallSettings) (provider : List ProviderItem)
    (operationDeadline firstChunkDeadline : Option TimeoutDeadline) (chunkMs : Option Nat)
    (schedule : List Action) {run : StreamText × List StreamItem}
    (hRun : run = Lib.Transducer.run step
      (start settings provider operationDeadline firstChunkDeadline chunkMs) schedule)
    (hEnded : run.1.phase = .ended) : Framed run.2 ∧ ∃ items, run.2 = .ok .start :: items := by
  subst hRun
  have hStreaming := Lib.Transducer.run_invariant Streaming (fun _ _ action h => step_streaming h action)
    (Streaming.start settings provider operationDeadline firstChunkDeadline chunkMs) schedule
  have hNil := Lib.Transducer.run_invariant (fun stream history => stream.phase ≠ .fresh → history ≠ [])
    (fun _ _ action h => step_ne_nil h action)
    (s := start settings provider operationDeadline firstChunkDeadline chunkMs) (fun hPhase => (hPhase rfl).elim)
    schedule
  obtain ⟨frame, hAccepted, hFrame⟩ := hStreaming.accepted
  have hDone : frame ≠ .finishing := by
    rw [AtFrame, hEnded] at hFrame
    exact hFrame
  have hFramed := framed_of_run hAccepted hDone
  refine ⟨hFramed, ?_⟩
  cases hItems : (Lib.Transducer.run step
      (start settings provider operationDeadline firstChunkDeadline chunkMs) schedule).2 with
  | nil => exact absurd hItems (hNil (by rw [hEnded]; rintro ⟨⟩))
  | cons item items =>
    have hRole := hFramed.startFirst item items hItems
    refine ⟨items, ?_⟩
    congr 1
    cases item with
    | error error =>
      rw [itemRole] at hRole
      split at hRole <;> cases hRole
    | ok part => cases part <;> first | rfl | cases hRole

/-- For every run of `stream_text` that has ended: the role is in the first chunk and only there, the finish
reason in the last chunk and only there, and when every call that is known was opened the calls can be
reconstructed. -/
theorem streamText_chunks (settings : CallSettings) (provider : List ProviderItem)
    (operationDeadline firstChunkDeadline : Option TimeoutDeadline) (chunkMs : Option Nat)
    (schedule : List Action) (options : OpenAiStreamOptions) (reports : Nat → Option ResponseMetadata)
    (id : String) (created : Nat) (model : String) (identity : Bool)
    (hEnded : (Lib.Transducer.run step
      (start settings provider operationDeadline firstChunkDeadline chunkMs) schedule).1.phase = .ended) :
    let history := (Lib.Transducer.run step
      (start settings provider operationDeadline firstChunkDeadline chunkMs) schedule).2
    let state := StreamState.new id created model identity
    let chunks := values (convert settings.libraries options reports 0 state history)
    let parts := values history
    (∃ first rest, chunks = first :: rest ∧ roleOf first = some "assistant" ∧
      ∀ chunk ∈ rest, roleOf chunk = none) ∧
    (∃ earlier last reason, chunks = earlier ++ [last] ∧ finishOf last = some reason ∧
      ∀ chunk ∈ earlier, finishOf chunk = none) ∧
    (Announced parts → (toolIds parts).length ≤ 2 ^ 32 →
      Reconstructs settings.libraries parts (answered settings.libraries options reports 0 state history) chunks) := by
  intro history state chunks parts
  obtain ⟨hFramed, items, hItems⟩ :=
    run_items settings provider operationDeadline firstChunkDeadline chunkMs schedule rfl hEnded
  have hStream : Ended false chunks := by
    have hConvert : Ended false (values (convert settings.libraries options reports 0 state (.ok .start :: items))) :=
      convert_start_ended reports id created model identity items
    rw [← hItems] at hConvert
    exact hConvert
  refine ⟨hStream.spoken, hStream.finish, fun hAnnounced hBound => ?_⟩
  have hParts : (answered settings.libraries options reports 0 state history).parts = parts :=
    answered_parts 0 state hFramed.finalLast
  obtain ⟨last, hTracks⟩ := answered_tracks 0 history (tracks_new id created model identity)
    (hParts.symm.trans (List.nil_append _).symm) hAnnounced hBound
  obtain ⟨closing, hSilent, hChunks⟩ := values_convert 0 state history
  refine reconstructs_of_sent hTracks.told hParts fun n => ?_
  rw [show chunks = _ from hChunks, argumentsAt_append, argumentsAt_silent hSilent, String.append_empty]

def chatLibraries : Libraries where
  parseInputText text := if text = "\x7b\x7d" then .ok (.object [])
    else .error (.mk "EOF while parsing a value at line 1 column 1" none)
  validatorFor _ := .ok fun _ => .ok ()
  jsonText value := match value with
    | .object [] => "\x7b\x7d"
    | _ => "null"
  errorText _ := "unknown error"
  encodeBase64 _ := ""
  sameNumber _ _ := false

def chatSettings : CallSettings where
  libraries := chatLibraries
  provider := "openai.responses"
  modelId := "gpt"

def chatAnswers : Answers where
  download url := .error (.other ("no response from " ++ url) none)

/-- The provider runs a tool with this input, which it streams as the delta. -/
def chatProvider (delta input : String) : List ProviderItem :=
  [.ok (.toolInputStart "a" "search" (some true) (some true) none none), .ok (.toolInputDelta "a" delta none),
    .ok (.toolCall {
      toolCallId := "a", toolName := "search", input, providerExecuted := some true, dynamic := some true }),
    .ok (.finish ⟨.stop, none⟩ {} none)]

def chatSchedule : List Action :=
  List.replicate 4 (Action.providerNext true) ++ List.replicate 6 (Action.next chatAnswers)

def chatRun (delta input : String) : StreamText × List StreamItem :=
  Lib.Transducer.run step (start chatSettings (chatProvider delta input) none none none) chatSchedule

def chatCall : ToolCall where
  toolCallId := "a"
  toolName := "search"
  input := .object []
  providerExecuted := some true
  dynamic := some true

def chatChunks (delta input : String) : List ChatCompletionChunk :=
  values (convert chatLibraries {} (fun _ => none) 0 (StreamState.new "chatcmpl-0" 0 "gpt" true)
    (chatRun delta input).2)

/-- The parts before the call. -/
def chatBefore (delta : String) : List TextStreamPart :=
  [.start, .startStep {} [], .toolInputStart "a" "search" none (some true) (some true) none,
    .toolInputDelta "a" delta none]

theorem chat_announced {delta : String} {response : StepResponseMetadata} :
    Announced (chatBefore delta ++ TextStreamPart.toolCall chatCall ::
      [TextStreamPart.finishStep response {} .stop none none, .finish .stop none {}]) := by
  intro before call after hSplit _
  rcases before with _ | ⟨_, _ | ⟨_, _ | ⟨_, _ | ⟨_, _ | ⟨_, _ | ⟨_, _ | ⟨_, before⟩⟩⟩⟩⟩⟩⟩ <;>
    simp only [chatBefore, List.cons_append, List.nil_append, List.cons.injEq, reduceCtorEq, List.nil_eq,
      List.append_eq_nil_iff, List.cons_ne_nil, false_and, and_false, TextStreamPart.toolCall.injEq] at hSplit
  obtain ⟨rfl, rfl, rfl, rfl, rfl, rfl⟩ := hSplit
  simp [openedId, chatCall]

theorem streamText_chunks_completed :
    (chatRun "\x7b" "\x7b\x7d").1.phase = .ended ∧
    argumentsAt 0 (chatChunks "\x7b" "\x7b\x7d") = "\x7b\x7d" ∧
    JsonTextOf chatLibraries chatCall.input (argumentsAt 0 (chatChunks "\x7b" "\x7b\x7d")) := by
  have hEnded : (chatRun "\x7b" "\x7b\x7d").1.phase = .ended := by decide +kernel
  obtain ⟨response, hParts⟩ : ∃ response, values (chatRun "\x7b" "\x7b\x7d").2 =
      chatBefore "\x7b" ++ TextStreamPart.toolCall chatCall ::
        [TextStreamPart.finishStep response {} .stop none none, .finish .stop none {}] := ⟨_, rfl⟩
  have hIds : toolIds (values (chatRun "\x7b" "\x7b\x7d").2) = ["a"] := rfl
  have hAnnounced : Announced (values (chatRun "\x7b" "\x7b\x7d").2) := by
    rw [hParts]
    exact chat_announced
  have hBound : (toolIds (values (chatRun "\x7b" "\x7b\x7d").2)).length ≤ 2 ^ 32 := by
    rw [hIds]
    decide
  obtain ⟨_, _, hCalls⟩ := streamText_chunks chatSettings (chatProvider "\x7b" "\x7b\x7d") none none none
    chatSchedule {} (fun _ => none) "chatcmpl-0" 0 "gpt" true hEnded
  obtain ⟨hText, hJson⟩ := (hCalls hAnnounced hBound).call _ chatCall _ hParts nofun (by simp [chatBefore])
    (by simp [toolId])
  exact ⟨hEnded, hText, hJson (.inl (by decide))⟩

/-- Blank deltas are sent as they come, and a call with blank input is a valid call with an empty object. -/
theorem blank_arguments_sent :
    (chatRun " " " ").1.phase = .ended ∧
    (∃ before after, values (chatRun " " " ").2 = before ++ .toolCall chatCall :: after) ∧
    toolIds (values (chatRun " " " ").2) = [chatCall.toolCallId] ∧
    chatCall.invalid ≠ some true ∧
    argumentsAt 0 (chatChunks " " " ") = " " ∧
    ¬ JsonTextOf chatLibraries chatCall.input (argumentsAt 0 (chatChunks " " " ")) := by
  have hText : argumentsAt 0 (chatChunks " " " ") = " " := by decide +kernel
  obtain ⟨after, hParts⟩ : ∃ after,
      values (chatRun " " " ").2 = chatBefore " " ++ TextStreamPart.toolCall chatCall :: after :=
    ⟨[_, _], rfl⟩
  refine ⟨by decide +kernel, ⟨_, _, hParts⟩, rfl, nofun, hText, ?_⟩
  rw [hText]
  rintro (hCompact | hRead)
  · exact absurd hCompact (by decide)
  · cases hRead

end Runs

end Aimux.OpenAi
