import Aimux.Ops.TextStream
import Aimux.OpenAi.ChatStream

/-! # The two text streams end the same way

Polled over the same items and the same cancellation, `text.stream` and `text.streamOpenAI` deliver the same end, and the
chunks before it are the conversion of the parts before it.
-/

namespace Aimux.Ops

open Aimux.Core Aimux.OpenAi
open Aimux.Lib (Answer Delivers)

/-- After the `Finish` part there is no item, and no cancellation. -/
def FinishLast (ticks : List Tick) : Prop :=
  ∀ before part after, ticks = before ++ Tick.item (.ok part) :: after → isFinish part = true →
    ∀ tick ∈ after, tick = Tick.pending

variable {ticks : List Tick}

theorem FinishLast.tail {tick : Tick} (h : FinishLast (tick :: ticks)) : FinishLast ticks :=
  fun before part after hTicks => h (tick :: before) part after (congrArg (tick :: ·) hTicks)

variable {part : TextStreamPart}

theorem FinishLast.rest (h : FinishLast (.item (.ok part) :: ticks)) (hFinish : isFinish part = true) :
    ∀ tick ∈ ticks, tick = .pending :=
  h [] part ticks rfl hFinish

def itemsOf (ticks : List Tick) : List StreamItem :=
  ticks.filterMap fun
    | .item item => some item
    | _ => none

/-- In every run of `stream_text` nothing follows the `Finish` part. -/
theorem finishLast_of_run (settings : CallSettings) (provider : List ProviderItem)
    (operationDeadline firstChunkDeadline : Option TimeoutDeadline) (chunkMs : Option Nat)
    (schedule : List StreamText.Action) (hItems : itemsOf ticks = (Lib.Transducer.run StreamText.step
      (StreamText.start settings provider operationDeadline firstChunkDeadline chunkMs) schedule).2)
    (hCancelled : ∀ before part after, ticks = before ++ Tick.item (.ok part) :: after → isFinish part = true →
      Tick.cancelled ∉ after) : FinishLast ticks := by
  intro before part after hTicks hFinish
  have hStreaming := Lib.Transducer.run_invariant StreamText.Streaming
    (fun _ _ action h => StreamText.step_streaming h action)
    (StreamText.Streaming.start settings provider operationDeadline firstChunkDeadline chunkMs) schedule
  obtain ⟨frame, hAccepted, _⟩ := hStreaming.accepted
  have hSplit : itemsOf ticks = itemsOf before ++ .ok part :: itemsOf after := by
    rw [hTicks, itemsOf, List.filterMap_append]
    rfl
  have hFinal : (itemRole (.ok part)).isFinal = true := by
    cases part <;> first | rfl | cases hFinish
  have hAfter : itemsOf after = [] := finalLast_of_run hAccepted (hItems.symm.trans hSplit) hFinal
  intro tick hTick
  cases tick with
  | pending => rfl
  | cancelled => exact absurd hTick (hCancelled before part after hTicks hFinish)
  | item item => cases List.filterMap_eq_nil_iff.mp hAfter _ hTick

/-! ## The text stream -/

/-- The parts that the polls deliver, and the error at their end. -/
def nativeRun : List Tick → List TextStreamPart × Option AiMuxError
  | [] => ([], none)
  | .cancelled :: _ => ([], some requestAborted)
  | .pending :: rest => nativeRun rest
  | .item (.error error) :: rest =>
    if error.isRecoverableStreamError then (.error error :: (nativeRun rest).1, (nativeRun rest).2)
    else ([], some error)
  | .item (.ok (.abort _)) :: _ => ([], some requestAborted)
  | .item (.ok part) :: rest => (part :: (nativeRun rest).1, (nativeRun rest).2)

theorem nativeRun_waiting (h : ∀ tick ∈ ticks, tick = .pending) : nativeRun ticks = ([], none) := by
  induction ticks with
  | nil => rfl
  | cons tick ticks ih =>
    obtain rfl := h tick List.mem_cons_self
    exact ih fun tick hTick => h tick (List.mem_cons_of_mem _ hTick)

/-- What stands before an error, or before the end. -/
def delivered {α : Type} (items : List α) (ending : Option AiMuxError) : List (Except AiMuxError α) :=
  items.map .ok ++ ending.toList.map .error

/-- What the first poll does: it waits, it ends the stream, or it takes a part. -/
inductive Meets (tick : Tick) (rest : List Tick) : Prop
  | waits (hPoll : NativeEvents.pollNext ⟨tick :: rest, false⟩ = (.pending, ⟨rest, false⟩))
      (hRun : nativeRun (tick :: rest) = nativeRun rest)
  | fails (error : AiMuxError) (hPoll : NativeEvents.pollNext ⟨tick :: rest, false⟩ = (.item (.error error), ⟨rest, true⟩))
      (hRun : nativeRun (tick :: rest) = ([], some error))
  | gives (part : TextStreamPart) (hPoll : NativeEvents.pollNext ⟨tick :: rest, false⟩ = (.item (.ok part), ⟨rest, false⟩))
      (hRun : nativeRun (tick :: rest) = (part :: (nativeRun rest).1, (nativeRun rest).2))
      (hFinish : isFinish part = true → tick = .item (.ok part))

theorem meets (tick : Tick) (rest : List Tick) : Meets tick rest := by
  cases tick with
  | cancelled => exact .fails _ rfl rfl
  | pending => exact .waits rfl rfl
  | item item =>
    cases item with
    | error error =>
      cases hRecoverable : error.isRecoverableStreamError with
      | true =>
        refine .gives (.error error) ?_ ?_ (fun h => nomatch h)
        · simp [NativeEvents.pollNext, hRecoverable]
        · simp [nativeRun, hRecoverable]
      | false =>
        refine .fails error ?_ ?_
        · simp [NativeEvents.pollNext, hRecoverable]
        · simp [nativeRun, hRecoverable]
    | ok part =>
      cases part with
      | abort => exact .fails _ rfl rfl
      | _ => exact .gives _ rfl rfl fun _ => rfl

theorem native_silent (inner : List Tick) : NativeEvents.pollNext ⟨inner, true⟩ = (.ended, ⟨inner, true⟩) := rfl

theorem native_delivers (ticks : List Tick) :
    Delivers NativeEvents.pollNext ⟨ticks, false⟩ (delivered (nativeRun ticks).1 (nativeRun ticks).2) := by
  induction ticks with
  | nil => exact .ended rfl rfl
  | cons tick rest ih =>
    cases meets tick rest with
    | waits hPoll hRun =>
      rw [hRun]
      exact .pending hPoll ih
    | fails error hPoll hRun =>
      rw [hRun]
      exact .item hPoll (.ended (native_silent rest) (native_silent rest))
    | gives part hPoll hRun =>
      rw [hRun]
      exact .item hPoll ih

/-! ## The chunk stream -/

section

variable (libraries : Libraries) (options : OpenAiStreamOptions) (reported : Nat → Option ResponseMetadata)

/-- The chunks of the parts, and the closing chunks of a stream that did not fail. -/
def conversion (n : Nat) (state : StreamState) (parts : List TextStreamPart) :
    Option AiMuxError → List ChatCompletionChunk
  | none => values (convert libraries options reported n state (parts.map .ok))
  | some _ => (answered libraries options reported n state (parts.map .ok)).chunks

variable {libraries options reported}

theorem conversion_cons (n : Nat) (state : StreamState) (hPart : isFinish part = false) (parts : List TextStreamPart)
    (ending : Option AiMuxError) :
    conversion libraries options reported n state (part :: parts) ending =
      (state.processPart libraries options (reported n) part).2 ++
        conversion libraries options reported (n + 1)
          (state.processPart libraries options (reported n) part).1 parts ending := by
  cases ending with
  | none =>
    rw [conversion, List.map_cons, convert, hPart, values_append, values_map_ok]
    rfl
  | some error =>
    rw [conversion, List.map_cons, answered, hPart]
    rfl

theorem conversion_finish (n : Nat) (state : StreamState) (hPart : isFinish part = true) :
    conversion libraries options reported n state [part] none =
      (state.processPart libraries options (reported n) part).2 := by
  rw [conversion, List.map_cons, convert, hPart, if_pos rfl, List.append_nil, values_map_ok]

theorem conversion_end (n : Nat) (state : StreamState) :
    conversion libraries options reported n state [] none = state.close libraries options (reported n) none := by
  rw [conversion, List.map_nil, convert, values_map_ok]

/-- The stream of a text that is being read. -/
def chunkStream (inner : List Tick) (ended : Bool) (state : StreamState) (items : Nat)
    (yielding : List ChatCompletionChunk) (reading : Bool) : ChunkStream :=
  ⟨⟨⟨inner, ended⟩, true, none⟩, state, items, yielding.map .ok, reading⟩

variable (inner : List Tick) (ended : Bool) (state : StreamState) (n : Nat)

/-- What was made is delivered first. -/
theorem delivers_yielding (reading : Bool) (chunks : List ChatCompletionChunk) {items}
    (h : Delivers (OpenAiEvents.pollNext libraries options reported)
      ⟨chunkStream inner ended state n [] reading, false⟩ items) :
    Delivers (OpenAiEvents.pollNext libraries options reported)
      ⟨chunkStream inner ended state n chunks reading, false⟩ (chunks.map .ok ++ items) := by
  induction chunks with
  | nil => exact h
  | cons chunk chunks ih =>
    refine .item (t := ⟨chunkStream inner ended state n chunks reading, false⟩) ?_ ih
    rw [OpenAiEvents.pollNext, chunkStream, ChunkStream.pollNext]
    rfl

theorem delivers_closed : Delivers (OpenAiEvents.pollNext libraries options reported)
    ⟨chunkStream inner ended state n [] false, false⟩ [] := by
  refine .ended (t := ⟨chunkStream inner ended state n [] false, true⟩) ?_ rfl
  rw [OpenAiEvents.pollNext, chunkStream, ChunkStream.pollNext]
  rfl

theorem guard_poll {tick : Tick} {rest : List Tick} {answer : Answer StreamItem} {native : NativeEvents}
    (hPoll : NativeEvents.pollNext ⟨tick :: rest, false⟩ = (answer, native)) (hAnswer : ∀ error, answer ≠ .item (.error error)) :
    TerminalGuard.pollNext ⟨⟨tick :: rest, false⟩, true, none⟩ = (answer, ⟨native, true, none⟩) := by
  rw [TerminalGuard.pollNext, hPoll]
  split
  · rename_i hSame
    cases hSame
    exact absurd rfl (hAnswer _)
  · rename_i hSame
    cases hSame
    rfl

theorem guard_fails {tick : Tick} {rest : List Tick} {error : AiMuxError}
    (hPoll : NativeEvents.pollNext ⟨tick :: rest, false⟩ = (.item (.error error), ⟨rest, true⟩)) :
    TerminalGuard.pollNext ⟨⟨tick :: rest, false⟩, true, none⟩ = (.ended, ⟨⟨rest, true⟩, false, some error⟩) := by
  rw [TerminalGuard.pollNext, hPoll]
  rfl

theorem pollNext_closed {self : ChunkStream} (hReading : self.reading = false) :
    self.pollNext libraries options reported =
      match self.yielding with
      | chunk :: rest => (.item chunk, { self with yielding := rest })
      | [] => (.ended, self) := by
  rw [ChunkStream.pollNext, hReading]
  rfl

theorem pollNext_closed_input {self : ChunkStream} (hReading : self.reading = false) :
    (self.pollNext libraries options reported).2.input = self.input := by
  rw [pollNext_closed hReading]
  cases self.yielding <;> rfl

section Reading

variable {input : TerminalGuard} {self : ChunkStream} (hYielding : self.yielding = []) (hReading : self.reading = true)

include hYielding hReading

theorem pollNext_pending (hInput : self.input.pollNext = (.pending, input)) :
    self.pollNext libraries options reported = (.pending, { self with input }) := by
  rw [ChunkStream.pollNext, hYielding]
  dsimp only
  rw [if_pos hReading]
  split <;> rename_i hSame <;> rw [hInput] at hSame <;> cases hSame
  rfl

theorem pollNext_item {item : StreamItem} (hInput : self.input.pollNext = (.item item, input)) :
    self.pollNext libraries options reported =
      (({ self with input } : ChunkStream).take libraries options reported (some item)).pollNext
        libraries options reported := by
  rw [ChunkStream.pollNext, hYielding]
  dsimp only
  rw [if_pos hReading]
  split <;> rename_i hSame <;> rw [hInput] at hSame <;> cases hSame
  rfl

theorem pollNext_input_ended (hInput : self.input.pollNext = (.ended, input)) :
    self.pollNext libraries options reported =
      (({ self with input } : ChunkStream).take libraries options reported none).pollNext
        libraries options reported := by
  rw [ChunkStream.pollNext, hYielding]
  dsimp only
  rw [if_pos hReading]
  split <;> rename_i hSame <;> rw [hInput] at hSame <;> cases hSame
  rw [← hYielding]
  exact (pollNext_closed rfl).symm

end Reading

/-- The end of the input, where no error was taken out. -/
theorem poll_ends : OpenAiEvents.pollNext libraries options reported ⟨chunkStream [] false state n [] true, false⟩ =
    OpenAiEvents.pollNext libraries options reported
      ⟨chunkStream [] true state n (state.close libraries options (reported n) none) false, false⟩ := by
  rw [OpenAiEvents.pollNext, OpenAiEvents.pollNext, pollNext_input_ended rfl rfl rfl]
  rfl

variable {tick : Tick} {rest : List Tick}

theorem poll_waits (hPoll : NativeEvents.pollNext ⟨tick :: rest, false⟩ = (.pending, ⟨rest, false⟩)) :
    OpenAiEvents.pollNext libraries options reported ⟨chunkStream (tick :: rest) false state n [] true, false⟩ =
      (.pending, ⟨chunkStream rest false state n [] true, false⟩) := by
  rw [OpenAiEvents.pollNext, pollNext_pending rfl rfl (guard_poll hPoll fun _ => nofun)]
  rfl

variable (libraries options reported) in
/-- The error is found before the chunks that the end of the input makes. -/
theorem poll_fails {error : AiMuxError}
    (hPoll : NativeEvents.pollNext ⟨tick :: rest, false⟩ = (.item (.error error), ⟨rest, true⟩)) :
    ∃ chunks, OpenAiEvents.pollNext libraries options reported
      ⟨chunkStream (tick :: rest) false state n [] true, false⟩ = (.item (.error error), ⟨chunks, true⟩) := by
  rw [OpenAiEvents.pollNext, pollNext_input_ended rfl rfl (guard_fails hPoll)]
  dsimp only
  rw [pollNext_closed_input rfl]
  exact ⟨_, rfl⟩

theorem poll_gives (hPoll : NativeEvents.pollNext ⟨tick :: rest, false⟩ = (.item (.ok part), ⟨rest, false⟩)) :
    OpenAiEvents.pollNext libraries options reported ⟨chunkStream (tick :: rest) false state n [] true, false⟩ =
      OpenAiEvents.pollNext libraries options reported
        ⟨chunkStream rest false (state.processPart libraries options (reported n) part).1 (n + 1)
          (state.processPart libraries options (reported n) part).2 (!isFinish part), false⟩ := by
  rw [OpenAiEvents.pollNext, OpenAiEvents.pollNext, pollNext_item rfl rfl (guard_poll hPoll fun _ => nofun)]
  rfl

theorem openAi_delivers (hLast : FinishLast ticks) :
    Delivers (OpenAiEvents.pollNext libraries options reported) ⟨chunkStream ticks false state n [] true, false⟩
      (delivered (conversion libraries options reported n state (nativeRun ticks).1 (nativeRun ticks).2)
        (nativeRun ticks).2) := by
  induction ticks generalizing n state with
  | nil =>
    refine .of_poll_eq (poll_ends state n) ?_
    rw [nativeRun, delivered, conversion_end]
    exact delivers_yielding [] true state n false _ (delivers_closed [] true state n)
  | cons tick rest ih =>
    cases meets tick rest with
    | waits hPoll hRun =>
      rw [hRun]
      exact .pending (poll_waits state n hPoll) (ih state n hLast.tail)
    | fails error hPoll hRun =>
      obtain ⟨chunks, hFails⟩ := poll_fails libraries options reported state n hPoll
      rw [hRun]
      exact .item hFails (.ended rfl rfl)
    | gives part hPoll hRun hTick =>
      refine .of_poll_eq (poll_gives state n hPoll) ?_
      rw [hRun]
      cases hFinish : isFinish part with
      | false =>
        rw [conversion_cons n state hFinish, delivered, List.map_append, List.append_assoc]
        exact delivers_yielding rest false _ (n + 1) true _ (ih _ _ hLast.tail)
      | true =>
        obtain rfl := hTick hFinish
        rw [nativeRun_waiting (hLast.rest hFinish), conversion_finish n state hFinish]
        exact delivers_yielding rest false _ (n + 1) false _ (delivers_closed rest false _ (n + 1))

theorem answered_unfinished {parts : List TextStreamPart} (hParts : ∀ part ∈ parts, isFinish part = false) :
    ∀ chunk ∈ (answered libraries options reported n state (parts.map .ok)).chunks, finishOf chunk = none := by
  induction parts generalizing n state with
  | nil => exact fun _ hMem => absurd hMem List.not_mem_nil
  | cons part parts ih =>
    have hPart := hParts part List.mem_cons_self
    rw [List.map_cons, answered, hPart]
    intro chunk hMem
    rcases List.mem_append.mp hMem with hMem | hMem
    · exact StreamState.processPart_unfinished hPart chunk hMem
    · exact ih _ _ (fun part hPart => hParts part (List.mem_cons_of_mem _ hPart)) chunk hMem

end

/-- A stream that fails has given no `Finish` part. -/
theorem nativeRun_unfinished (hLast : FinishLast ticks) {error : AiMuxError} (hFails : (nativeRun ticks).2 = some error) :
    ∀ part ∈ (nativeRun ticks).1, isFinish part = false := by
  induction ticks with
  | nil => exact fun _ hMem => absurd hMem List.not_mem_nil
  | cons tick rest ih =>
    cases meets tick rest with
    | waits _ hRun =>
      rw [hRun] at hFails ⊢
      exact ih hLast.tail hFails
    | fails _ _ hRun =>
      rw [hRun]
      exact fun _ hMem => absurd hMem List.not_mem_nil
    | gives part _ hRun hTick =>
      rw [hRun] at hFails ⊢
      intro given hMem
      rcases List.mem_cons.mp hMem with rfl | hMem
      · cases hFinish : isFinish given with
        | false => rfl
        | true =>
          obtain rfl := hTick hFinish
          rw [nativeRun_waiting (hLast.rest hFinish)] at hFails
          cases hFails
      · exact ih hLast.tail hFails given hMem

/-! ## The operations -/

section

variable {Events Event : Type} {poll : Events → Answer (Except AiMuxError Event) × Events}

theorem setup_delivers {events : Events} {items : List (Except AiMuxError Event)} (h : Delivers poll events items)
    (waits : Nat) : Delivers (EventStream.pollNext poll) (.setup waits (.ok events)) items := by
  induction waits with
  | zero => exact .of_poll_eq (t := .running events) rfl (h.map EventStream.running fun _ => rfl)
  | succ waits ih => exact .pending rfl ih

theorem setup_fails (error : AiMuxError) (waits : Nat) :
    Delivers (EventStream.pollNext poll) (.setup waits (.error error)) [.error error] := by
  induction waits with
  | zero => exact .item rfl (.ended rfl rfl)
  | succ waits ih => exact .pending rfl ih

end

/-- Both operations end in the same way: with the same error, delivered once, or without one. The chunks are the conversion
of the parts, and when there is an error none of them finishes. -/
theorem startStream_agrees (libraries : Libraries) (options : OpenAiStreamOptions)
    (reported : Nat → Option ResponseMetadata) (state : StreamState) (waits openAiWaits : Nat)
    (setup : Except AiMuxError (List Tick)) (hLast : ∀ ticks, setup = .ok ticks → FinishLast ticks) :
    ∃ parts ending,
      Delivers (EventStream.pollNext NativeEvents.pollNext) (startStream waits setup) (delivered parts ending) ∧
      Delivers (EventStream.pollNext (OpenAiEvents.pollNext libraries options reported))
        (startStreamOpenAi state openAiWaits setup)
        (delivered (conversion libraries options reported 0 state parts ending) ending) ∧
      (ending ≠ none → ∀ chunk ∈ conversion libraries options reported 0 state parts ending, finishOf chunk = none) := by
  cases setup with
  | error error =>
    exact ⟨[], some error, setup_fails error waits, setup_fails error openAiWaits,
      fun _ _ hMem => absurd hMem List.not_mem_nil⟩
  | ok ticks =>
    have hTicks := hLast ticks rfl
    refine ⟨_, _, setup_delivers (native_delivers ticks) waits,
      setup_delivers (openAi_delivers state 0 hTicks) openAiWaits, fun hFails => ?_⟩
    obtain ⟨error, hError⟩ := Option.ne_none_iff_exists'.mp hFails
    rw [hError]
    exact answered_unfinished state 0 (nativeRun_unfinished hTicks hError)

theorem startStream_agrees_cancelled :
    FinishLast [.item (.ok .start), .pending, .item (.ok (.textDelta "1" none "hello")), .cancelled] ∧
    ∃ parts ending,
      Delivers (EventStream.pollNext NativeEvents.pollNext)
        (startStream 1 (.ok [.item (.ok .start), .pending, .item (.ok (.textDelta "1" none "hello")), .cancelled]))
        (delivered parts ending) ∧
      Delivers (EventStream.pollNext (OpenAiEvents.pollNext chatLibraries {} fun _ => none))
        (startStreamOpenAi (.new "id" 0 "model" true) 1
          (.ok [.item (.ok .start), .pending, .item (.ok (.textDelta "1" none "hello")), .cancelled]))
        (delivered (conversion chatLibraries {} (fun _ => none) 0 (.new "id" 0 "model" true) parts ending) ending) ∧
      (ending ≠ none → ∀ chunk ∈ conversion chatLibraries {} (fun _ => none) 0 (.new "id" 0 "model" true) parts ending,
        finishOf chunk = none) := by
  have hLast : FinishLast [.item (.ok .start), .pending, .item (.ok (.textDelta "1" none "hello")), .cancelled] := by
    intro before part after hTicks hFinish
    have hMem : Tick.item (.ok part) ∈ before ++ .item (.ok part) :: after := by simp
    rw [← hTicks] at hMem
    simp at hMem
    rcases hMem with rfl | rfl <;> cases hFinish
  refine ⟨hLast, startStream_agrees chatLibraries {} (fun _ => none) (.new "id" 0 "model" true) 1 1 _ ?_⟩
  rintro ticks ⟨⟩
  exact hLast

end Aimux.Ops
