import Aimux.Core.StreamText
import Aimux.Lib.Acceptor

/-! # Framing of the text stream

The emitted stream of `stream_text` is read by a small acceptor. Every schedule of pump and reader
keeps it accepting, whatever the provider sends and whenever abort or a deadline comes in between.
-/

namespace Aimux.Core

/-! ## The frame of a stream -/

inductive ItemRole where
  | start | startStep | content | finishStep | finish | abort
  | errorPart
  | recoverable
  /-- An error item the stream does not survive. -/
  | fatal
deriving DecidableEq

def TextStreamPart.role : TextStreamPart → ItemRole
  | .start => .start
  | .startStep .. => .startStep
  | .finishStep .. => .finishStep
  | .finish .. => .finish
  | .abort _ => .abort
  | .error _ => .errorPart
  | _ => .content

def itemRole : StreamItem → ItemRole
  | .ok part => part.role
  | .error error => if error.isRecoverableStreamError then .recoverable else .fatal

def ItemRole.isFinal : ItemRole → Bool
  | .finish | .abort | .fatal => true
  | _ => false

def startSteps (history : List StreamItem) : Nat := history.countP fun item => itemRole item = .startStep

structure Framed (history : List StreamItem) : Prop where
  startFirst : ∀ item rest, history = item :: rest → itemRole item = .start
  startOnce : ∀ before item after, history = before ++ item :: after → itemRole item = .start → before = []
  startStepOnce : startSteps history ≤ 1
  afterStartStep : ∀ before item after, history = before ++ item :: after →
    itemRole item = .content ∨ itemRole item = .finishStep → startSteps before = 1
  finishStepThenFinish : ∀ before item after, history = before ++ item :: after →
    itemRole item = .finishStep → ∃ finish, after = [finish] ∧ itemRole finish = .finish
  finalLast : ∀ before item after, history = before ++ item :: after →
    (itemRole item).isFinal = true → after = []

inductive Frame where
  | fresh
  | idle
  | inStep
  /-- The step finished; only `finish` may follow. -/
  | finishing
  | closed
deriving DecidableEq

def Frame.move : Frame → ItemRole → Option Frame
  | .fresh, .start => some .idle
  | .idle, .startStep => some .inStep
  | .inStep, .content => some .inStep
  | .inStep, .finishStep => some .finishing
  | .finishing, .finish => some .closed
  | .idle, .abort | .inStep, .abort | .idle, .fatal | .inStep, .fatal => some .closed
  | .idle, .errorPart | .idle, .recoverable => some .idle
  | .inStep, .errorPart | .inStep, .recoverable => some .inStep
  | _, _ => none

def Frame.next : Lib.Acceptor Frame StreamItem := fun frame item => frame.move (itemRole item)

open Lib.Acceptor

def Frame.Read : Frame → List StreamItem → Prop
  | .fresh, history => history = []
  | .idle, history => history ≠ [] ∧ startSteps history = 0
  | .inStep, history | .finishing, history => history ≠ [] ∧ startSteps history = 1
  | .closed, history => history ≠ [] ∧ startSteps history ≤ 1

theorem startSteps_concat (history : List StreamItem) (item : StreamItem) :
    startSteps (history ++ [item]) =
      startSteps history + if itemRole item = .startStep then 1 else 0 := by
  simp [startSteps, List.countP_append, List.countP_cons]

variable {frame : Frame} {item : StreamItem} {history : List StreamItem}

theorem Frame.next_read {moved : Frame} (h : frame.Read history) (hMove : Frame.next frame item = some moved) :
    moved.Read (history ++ [item]) := by
  have hNil : history ++ [item] ≠ [] := by simp
  have hCount := startSteps_concat history item
  unfold Frame.next at hMove
  have hFresh : frame = .fresh → startSteps history = 0 := by
    rintro rfl
    rw [show history = [] from h]
    rfl
  cases hRole : itemRole item <;> rw [hRole] at hMove hCount <;> cases frame <;>
    simp only [Frame.move, Option.some.injEq, reduceCtorEq] at hMove <;> subst hMove <;>
    simp only [Frame.Read] at h ⊢ <;> refine ⟨hNil, ?_⟩ <;> simp at hCount hFresh <;> omega

theorem run_read (h : run Frame.next .fresh history = some frame) : frame.Read history := by
  have hStart : Frame.Read .fresh [] := rfl
  exact run_invariant Frame.Read (fun _ _ _ _ => Frame.next_read) hStart h

theorem Frame.closed_of_final {moved : Frame} (hMove : Frame.next frame item = some moved)
    (hFinal : (itemRole item).isFinal = true) :
    moved = .closed := by
  unfold Frame.next at hMove
  cases hRole : itemRole item <;> rw [hRole] at hMove hFinal <;> cases frame <;>
    simp_all [Frame.move, ItemRole.isFinal]

theorem Frame.closed_stuck (item : StreamItem) : Frame.next .closed item = none := by
  unfold Frame.next
  cases itemRole item <;> rfl

theorem finalLast_of_run {history before after : List StreamItem} (h : run Frame.next .fresh history = some frame)
    (hHistory : history = before ++ item :: after) (hFinal : (itemRole item).isFinal = true) : after = [] := by
  subst hHistory
  obtain ⟨reached, moved, _, hMove, hAfter⟩ := run_split h
  obtain rfl := Frame.closed_of_final hMove hFinal
  exact run_stuck Frame.closed_stuck hAfter

/-- An accepted history that does not stop between `FinishStep` and `Finish` is framed. -/
theorem framed_of_run (h : run Frame.next .fresh history = some frame) (hDone : frame ≠ .finishing) :
    Framed history := by
  constructor
  case startFirst =>
    rintro item rest rfl
    obtain ⟨moved, hMove, _⟩ := run_cons_eq_some h
    unfold Frame.next at hMove
    cases hRole : itemRole item <;> rw [hRole] at hMove <;> first | rfl | cases hMove
  case startOnce =>
    rintro before item after rfl hStart
    obtain ⟨reached, moved, hReached, hMove, _⟩ := run_split h
    unfold Frame.next at hMove
    rw [hStart] at hMove
    cases reached with
    | fresh => exact run_read hReached
    | _ => cases hMove
  case startStepOnce =>
    have hRead := run_read h
    cases frame with
    | fresh => rw [show history = [] from hRead]; exact Nat.zero_le _
    | closed => exact hRead.2
    | idle => rw [hRead.2]; exact Nat.zero_le _
    | inStep | finishing => exact Nat.le_of_eq hRead.2
  case afterStartStep =>
    rintro before item after rfl hItem
    obtain ⟨reached, moved, hReached, hMove, _⟩ := run_split h
    have hRead := run_read hReached
    unfold Frame.next at hMove
    cases reached with
    | inStep => exact hRead.2
    | _ => rcases hItem with hItem | hItem <;> rw [hItem] at hMove <;> cases hMove
  case finishStepThenFinish =>
    rintro before item after rfl hItem
    obtain ⟨reached, moved, _, hMove, hAfter⟩ := run_split h
    have hMoved : moved = .finishing := by
      unfold Frame.next at hMove
      rw [hItem] at hMove
      cases reached <;> simp_all [Frame.move]
    subst hMoved
    cases after with
    | nil => exact absurd (Option.some.inj hAfter).symm hDone
    | cons finish rest =>
      obtain ⟨last, hLast, hRest⟩ := run_cons_eq_some hAfter
      have hFinish : itemRole finish = .finish ∧ last = .closed := by
        unfold Frame.next at hLast
        cases hRole : itemRole finish <;> rw [hRole] at hLast <;> simp_all [Frame.move]
      obtain ⟨hFinish, rfl⟩ := hFinish
      exact ⟨finish, by rw [run_stuck Frame.closed_stuck hRest], hFinish⟩
  case finalLast => exact fun before item after => finalLast_of_run h

/-! ## One poll of the stream -/

/-- What handling a part inside a step may do to the step and to the stream. -/
structure Transformed (reader : StreamReader) (result : StreamReader × List TextStreamPart) : Prop where
  emitted : ∀ emitted ∈ result.2, emitted.role = .content ∨ emitted.role = .errorPart
  started : result.1.step.started = reader.step.started

variable (settings : CallSettings) (answers : Answers) {reader : StreamReader}

theorem onToolCall_transformed (raw : RawToolCall) :
    Transformed reader (reader.onToolCall settings answers raw) where
  emitted := by
    intro emitted hEmitted
    simp only [StreamReader.onToolCall, List.mem_cons, Option.mem_toList, Option.map_eq_some_iff] at hEmitted
    rcases hEmitted with rfl | ⟨error, _, rfl⟩
    · exact .inl rfl
    · exact .inl rfl
  started := rfl

theorem role_onFile (file : LanguageModelFile) {part : GeneratedFileOutput → TextStreamPart}
    (hPart : ∀ output, (part output).role = .content) :
    (StreamReader.onFile answers file part).role = .content ∨
      (StreamReader.onFile answers file part).role = .errorPart := by
  unfold StreamReader.onFile
  split
  · exact .inl (hPart _)
  · exact .inr rfl

theorem role_onApproval (approval : RawToolApprovalRequest) :
    (reader.onApproval approval).role = .content ∨ (reader.onApproval approval).role = .errorPart := by
  unfold StreamReader.onApproval
  split
  · exact .inl rfl
  · exact .inr rfl

theorem role_providerToolResultPart (result : ToolResult) (input : Option Json) :
    (providerToolResultPart result input).role = .content := by
  unfold providerToolResultPart
  split <;> rfl

theorem transformed_single {emitted : TextStreamPart} (hEmitted : emitted.role = .content ∨ emitted.role = .errorPart) :
    Transformed reader (reader, [emitted]) where
  emitted := by
    intro other hOther
    rw [List.mem_singleton.mp hOther]
    exact hEmitted
  started := rfl

theorem onFinish_transformed (finishReason : FinishReason) (usage : Usage) (metadata : Option ProviderMetadata) :
    Transformed reader (reader.onFinish settings finishReason usage metadata) := by
  unfold StreamReader.onFinish
  simp only
  split
  · exact ⟨by simp [TextStreamPart.role], rfl⟩
  · exact ⟨by simp, rfl⟩

theorem forward_transformed (part : StreamPart) : Transformed reader (reader.forward part) := by
  refine ⟨?_, ?_⟩
  · cases part with
    | textDelta id delta metadata | reasoningDelta id delta metadata | textEnd id metadata
    | reasoningEnd id metadata =>
      simp only [StreamReader.forward]
      split <;> simp [TextStreamPart.role, StreamReader.notFound]
    | _ => simp [StreamReader.forward, TextStreamPart.role]
  · cases part <;> rfl

theorem transform_transformed (part : StreamPart) :
    Transformed reader (reader.transform settings answers part) := by
  cases part with
  | toolCall raw => exact onToolCall_transformed settings answers raw
  | file file => exact transformed_single (role_onFile answers file fun _ => rfl)
  | reasoningFile file => exact transformed_single (role_onFile answers file fun _ => rfl)
  | toolApprovalRequest approval => exact transformed_single (role_onApproval approval)
  | streamStart warnings => exact ⟨by simp [StreamReader.transform], rfl⟩
  | responseMetadata metadata => exact ⟨by simp [StreamReader.transform], rfl⟩
  | finish finishReason usage metadata => exact onFinish_transformed settings finishReason usage metadata
  | error error => exact ⟨by simp [StreamReader.transform, TextStreamPart.role], rfl⟩
  | toolResult result => exact transformed_single (.inl (role_providerToolResultPart result _))
  | textDelta id delta metadata =>
    simp only [StreamReader.transform]
    split
    · exact ⟨by simp, rfl⟩
    · exact forward_transformed _
  | _ =>
    simp only [StreamReader.transform]
    exact forward_transformed _

def readerFrame (reader : StreamReader) : Frame := if reader.step.started then .inStep else .idle

/-- A finish, an error or output comes after the step was opened. -/
def StepOpened (reader : StreamReader) : Prop :=
  reader.step.terminal = true ∨ reader.step.sawOutput = true → reader.step.started = true

theorem run_inStep {parts : List TextStreamPart} (h : ∀ part ∈ parts, part.role = .content ∨ part.role = .errorPart) :
    run Frame.next .inStep (parts.map .ok) = some .inStep := by
  refine run_loop ?_
  intro item hItem
  obtain ⟨part, hPart, rfl⟩ := List.mem_map.mp hItem
  rcases h part hPart with hRole | hRole
  · simp [Frame.next, itemRole, hRole, Frame.move]
  · simp [Frame.next, itemRole, hRole, Frame.move]

variable {part : StreamPart}

theorem openStep_started (hPart : ∀ warnings, part ≠ .streamStart warnings) :
    (reader.openStep settings part).1.step.started = true := by
  have hRecorded (step : StreamStep) (h : step.started = true) : (step.recordChunk part).started = true := by
    unfold StreamStep.recordChunk
    split <;> exact h
  cases part with
  | streamStart warnings => exact absurd rfl (hPart warnings)
  | _ => exact hRecorded _ rfl

theorem onPart_started (reader : StreamReader) (hPart : ∀ warnings, part ≠ .streamStart warnings) :
    (reader.onPart settings answers part).1.step.started = true :=
  (transform_transformed settings answers part).started.trans (openStep_started settings hPart)

theorem run_openStep (hPart : ∀ warnings, part ≠ .streamStart warnings) :
    run Frame.next (readerFrame reader) ((reader.openStep settings part).2.map .ok) = some .inStep := by
  have hEmitted : (reader.openStep settings part).2 =
      if reader.step.started then [] else [.startStep settings.request reader.step.warnings] := by
    cases part with
    | streamStart warnings => exact absurd rfl (hPart warnings)
    | _ => rfl
  rw [hEmitted, readerFrame]
  split <;> rfl

theorem onPart_framed (hOpened : StepOpened reader) (part : StreamPart) :
    run Frame.next (readerFrame reader) ((reader.onPart settings answers part).2.map .ok) =
        some (readerFrame (reader.onPart settings answers part).1) ∧
      StepOpened (reader.onPart settings answers part).1 := by
  have hTransformed : Transformed (reader.openStep settings part).1
      ((reader.openStep settings part).1.transform settings answers part) :=
    transform_transformed settings answers part
  by_cases hStart : ∃ warnings, part = .streamStart warnings
  · obtain ⟨warnings, rfl⟩ := hStart
    exact ⟨rfl, hOpened⟩
  · have hPart : ∀ warnings, part ≠ .streamStart warnings := fun warnings hEq => hStart ⟨warnings, hEq⟩
    have hStarted := onPart_started settings answers reader hPart
    refine ⟨?_, fun _ => hStarted⟩
    have hFrame : readerFrame (reader.onPart settings answers part).1 = .inStep := if_pos hStarted
    rw [hFrame, StreamReader.onPart, List.map_append]
    exact run_append_of_some (run_openStep settings hPart) (run_inStep hTransformed.emitted)

theorem close_framed (hOpened : StepOpened reader) :
    ∃ frame, run Frame.next (readerFrame reader) ((reader.close settings answers).map .ok) = some frame ∧
      frame ≠ .finishing := by
  unfold StreamReader.close
  split
  · rename_i hOutput
    refine ⟨.closed, ?_, by simp⟩
    rw [readerFrame, if_pos (hOpened (by simpa using hOutput))]
    rfl
  · refine ⟨readerFrame reader, ?_, ?_⟩
    · unfold readerFrame
      split <;> rfl
    · unfold readerFrame
      split <;> simp

/-! ## Whole schedules -/

namespace StreamText

def AtFrame (stream : StreamText) (frame : Frame) : Prop :=
  match stream.phase with
  | .fresh => frame = .fresh ∧ stream.reader.step.started = false
  | .reading => frame = readerFrame stream.reader
  | .ended => frame ≠ .finishing

structure Streaming (stream : StreamText) (history : List StreamItem) : Prop where
  opened : StepOpened stream.reader
  accepted : ∃ frame, run Frame.next .fresh history = some frame ∧ stream.AtFrame frame

variable {stream : StreamText} {history : List StreamItem}

structure PumpSection (stream stream' : StreamText) : Prop where
  reader : stream'.reader = stream.reader
  phase : stream'.phase = stream.phase

theorem Streaming.pump {stream' : StreamText} (h : Streaming stream history) (hPump : PumpSection stream stream') :
    Streaming stream' (history ++ []) := by
  rw [List.append_nil]
  refine ⟨hPump.reader ▸ h.opened, ?_⟩
  obtain ⟨frame, hRun, hFrame⟩ := h.accepted
  refine ⟨frame, hRun, ?_⟩
  unfold AtFrame at hFrame ⊢
  rw [hPump.phase, hPump.reader]
  exact hFrame

theorem sendTerminalErr_section (stream : StreamText) (error : AiMuxError) :
    PumpSection stream (stream.sendTerminalErr error) := by
  unfold sendTerminalErr
  split <;> exact ⟨rfl, rfl⟩

theorem afterSend_section (stream : StreamText) (item : ProviderItem) (inRange : Bool) :
    PumpSection stream (stream.afterSend item inRange) := by
  unfold afterSend
  repeat' split
  all_goals first
    | exact ⟨rfl, rfl⟩
    | exact sendTerminalErr_section stream _

theorem enqueue_section (stream : StreamText) (item : ProviderItem) (inRange : Bool) :
    PumpSection stream (stream.enqueue item inRange) :=
  ⟨(afterSend_section _ item inRange).reader, (afterSend_section _ item inRange).phase⟩

theorem providerNext_section (stream : StreamText) (inRange : Bool) :
    PumpSection stream (stream.providerNext inRange) := by
  unfold providerNext
  split
  · exact ⟨rfl, rfl⟩
  · rename_i item rest _ _ _
    split
    · have hSection := enqueue_section { stream with provider := rest } item inRange
      exact ⟨hSection.reader, hSection.phase⟩
    · exact ⟨rfl, rfl⟩
  · exact ⟨rfl, rfl⟩

theorem pumpSend_section (stream : StreamText) (inRange : Bool) :
    PumpSection stream (stream.pumpSend inRange) := by
  unfold pumpSend
  split
  · split
    · exact enqueue_section stream _ inRange
    · exact ⟨rfl, rfl⟩
  · exact ⟨rfl, rfl⟩

theorem pumpAborted_section (stream : StreamText) : PumpSection stream stream.pumpAborted := by
  unfold pumpAborted
  split <;> exact ⟨rfl, rfl⟩

theorem operationTimeout_section (stream : StreamText) : PumpSection stream stream.operationTimeout := by
  unfold operationTimeout
  split
  · exact sendTerminalErr_section stream _
  · exact sendTerminalErr_section stream _
  · exact ⟨rfl, rfl⟩

theorem chunkTimeout_section (stream : StreamText) : PumpSection stream stream.chunkTimeout := by
  unfold chunkTimeout
  split
  · exact sendTerminalErr_section stream _
  · exact ⟨rfl, rfl⟩

theorem Streaming.finished (hOpened : StepOpened stream.reader) {last : Frame} {emitted : List StreamItem}
    (hRun : run Frame.next .fresh history = some frame) (hEmitted : run Frame.next frame emitted = some last)
    (hLast : last ≠ .finishing) : Streaming (stream.finished emitted).1 (history ++ (stream.finished emitted).2) :=
  ⟨hOpened, last, run_append_of_some hRun hEmitted, hLast⟩

theorem readerFrame_fatal {error : AiMuxError} (hFatal : error.isRecoverableStreamError = false)
    (reader : StreamReader) : run Frame.next (readerFrame reader) [.error error] = some .closed := by
  unfold readerFrame
  split <;> simp [run, Frame.next, itemRole, hFatal, Frame.move]

theorem readerFrame_recoverable {error : AiMuxError} (hRecoverable : error.isRecoverableStreamError = true)
    (reader : StreamReader) : run Frame.next (readerFrame reader) [.error error] = some (readerFrame reader) := by
  unfold readerFrame
  split <;> simp [run, Frame.next, itemRole, hRecoverable, Frame.move]

theorem readerFrame_abort (reason : Option String) (reader : StreamReader) :
    run Frame.next (readerFrame reader) [.ok (.abort reason)] = some .closed := by
  unfold readerFrame
  split <;> rfl

theorem handle_streaming (stream : StreamText) (hOpened : StepOpened stream.reader) (hReading : stream.phase = .reading)
    (hRun : run Frame.next .fresh history = some (readerFrame stream.reader)) (answers : Answers)
    (item : ProviderItem) : Streaming (stream.handle answers item).1 (history ++ (stream.handle answers item).2) := by
  cases item with
  | error error =>
    simp only [handle]
    split
    · rename_i hRecoverable
      refine ⟨hOpened, _, run_append_of_some hRun (readerFrame_recoverable hRecoverable stream.reader), ?_⟩
      simp [AtFrame, hReading]
    · rename_i hFatal
      exact .finished hOpened hRun (readerFrame_fatal (by simpa using hFatal) stream.reader) (by simp)
  | ok part =>
    obtain ⟨hEmitted, hNext⟩ := onPart_framed stream.settings answers hOpened part
    refine ⟨hNext, _, run_append_of_some hRun hEmitted, ?_⟩
    simp [AtFrame, handle, hReading]

theorem next_streaming (h : Streaming stream history) (answers : Answers) :
    Streaming (stream.next answers).1 (history ++ (stream.next answers).2) := by
  obtain ⟨frame, hRun, hFrame⟩ := h.accepted
  unfold AtFrame at hFrame
  unfold next
  split
  · rename_i hFresh
    rw [hFresh] at hFrame
    obtain ⟨rfl, hUnstarted⟩ := hFrame
    refine ⟨h.opened, .idle, run_append_of_some hRun rfl, ?_⟩
    simp [AtFrame, readerFrame, hUnstarted]
  · rename_i hEnded
    rw [List.append_nil]
    exact h
  · rename_i hReading
    rw [hReading] at hFrame
    subst hFrame
    split
    · exact .finished h.opened hRun (readerFrame_abort _ stream.reader) (by simp)
    · unfold readNext
      split
      · apply handle_streaming
        · exact h.opened
        · exact hReading
        · exact hRun
      · apply handle_streaming
        · exact h.opened
        · exact hReading
        · exact hRun
      · obtain ⟨last, hClose, hLast⟩ := close_framed stream.settings answers h.opened
        exact .finished h.opened hRun hClose hLast
      · rw [List.append_nil]
        exact h

theorem step_streaming (h : Streaming stream history) (action : Action) :
    Streaming (step stream action).1 (history ++ (step stream action).2) := by
  cases action with
  | abort => exact h.pump ⟨rfl, rfl⟩
  | pumpAborted => exact h.pump (pumpAborted_section stream)
  | operationTimeout => exact h.pump (operationTimeout_section stream)
  | chunkTimeout => exact h.pump (chunkTimeout_section stream)
  | providerNext inRange => exact h.pump (providerNext_section stream inRange)
  | pumpSend inRange => exact h.pump (pumpSend_section stream inRange)
  | next answers => exact next_streaming h answers

theorem Streaming.start (settings : CallSettings) (provider : List ProviderItem)
    (operationDeadline firstChunkDeadline : Option TimeoutDeadline) (chunkMs : Option Nat) :
    Streaming (start settings provider operationDeadline firstChunkDeadline chunkMs) [] where
  opened := by simp [StepOpened, StreamText.start]
  accepted := ⟨.fresh, rfl, rfl, rfl⟩

end StreamText

end Aimux.Core
