import Aimux.Bedrock.ChatStreamFinish

/-! # Runs of the Bedrock chat stream

Over any messages: a finish is the last part and tells of the errors before it; the events of a tool call are its
start, its deltas and its end; a block that received a delta that is not supported has no call.
-/

namespace Aimux.Bedrock

open Aimux.Lib Aimux.Core
open Aimux.Provider (Item Controller Transformer parts)
open Aimux.Provider.ChatToolCalls (CallEvent callEvents)
open AmazonBedrockChatStream (Reports startedToolUse blockIndex isException eventPayload_ok)

variable {settings : ChatSettings}

abbrev Message := Except AiMuxError EventStreamMessage

abbrev Run := AmazonBedrockChatStream × Controller StreamPart

namespace Run

def initial (settings : ChatSettings) : Run :=
  AmazonBedrockChatStream.start settings (AmazonBedrockChatStream.transformer settings).initial {}

/-- The messages, until the stream is closed. -/
def after (settings : ChatSettings) (run : Run) (messages : List Message) : Run :=
  (AmazonBedrockChatStream.transformer settings).transformAll run messages

end Run

/-- What the stream of the messages emits. -/
def chatItems (settings : ChatSettings) (messages : List Message) : List (Item StreamPart) :=
  (AmazonBedrockChatStream.transformer settings).pipeThrough messages

theorem Run.after_append (run : Run) (front back : List Message) :
    run.after settings (front ++ back) = (run.after settings front).after settings back :=
  Provider.Transformer.transformAll_append (AmazonBedrockChatStream.transformer settings) run front back

theorem Run.after_closed {run : Run} (hClosed : run.2.closed = true) (messages : List Message) :
    run.after settings messages = run :=
  Provider.Transformer.transformAll_closed (AmazonBedrockChatStream.transformer settings) run.1 hClosed messages

/-- A message that is transformed. -/
theorem Run.after_open {run : Run} (hOpen : run.2.closed = false) (message : Message) :
    run.after settings [message] =
      ((run.1.transformMessage settings message).1,
        { queue := run.2.queue ++ (run.1.transformMessage settings message).2.1
          closed := (run.1.transformMessage settings message).2.2 }) := by
  obtain ⟨state, controller⟩ := run
  have hStep : Run.after settings (state, controller) [message] =
      if controller.closed then (state, controller) else state.transform settings message controller := rfl
  rw [hStep, if_neg (by rw [hOpen]; exact Bool.false_ne_true), AmazonBedrockChatStream.transform]
  simp only [Controller.send_open hOpen]

/-! ## The finish -/

/-- A finish is the last item, and tells of the errors before it. -/
def FinishLast (items : List (Item StreamPart)) : Prop :=
  ∀ front back reason usage metadata, items = front ++ Except.ok (StreamPart.finish reason usage metadata) :: back →
    back = [] ∧ ((∃ item ∈ front, isFailure item) → reason.unified = FinishReasonUnified.error)

theorem FinishLast.of_none {items : List (Item StreamPart)} (h : ∀ item ∈ items, isFinish item = false) :
    FinishLast items := by
  rintro front back reason usage metadata rfl
  have hFinish := h (.ok (.finish reason usage metadata)) (by simp)
  cases hFinish

theorem FinishLast.concat {front : List (Item StreamPart)} (h : ∀ item ∈ front, isFinish item = false)
    {reason : FinishReason} (hReason : (∃ item ∈ front, isFailure item) → reason.unified = .error) (usage : Usage)
    (metadata : Option ProviderMetadata) :
    FinishLast (front ++ [Except.ok (StreamPart.finish reason usage metadata)]) := by
  intro other back otherReason otherUsage otherMetadata hItems
  rcases List.eq_nil_or_concat' back with rfl | ⟨back, last, rfl⟩
  · obtain ⟨rfl, hLast⟩ := List.append_inj' hItems rfl
    cases hLast
    exact ⟨rfl, hReason⟩
  · rw [← List.cons_append, ← List.append_assoc] at hItems
    obtain ⟨rfl, _⟩ := List.append_inj' hItems rfl
    have hFinish := h (.ok (.finish otherReason otherUsage otherMetadata)) (by simp)
    cases hFinish

/-- While the stream is open nothing has finished, and an error is kept. -/
structure Reported (run : Run) : Prop where
  unfinished : run.2.closed = false → ∀ item ∈ run.2.queue, isFinish item = false
  kept : run.2.closed = false → (∃ item ∈ run.2.queue, isFailure item) → run.1.failed
  finished : run.2.closed = true → FinishLast run.2.queue

variable (settings) in
theorem Reported.initial : Reported (.initial settings) where
  unfinished _ item hItem := by
    rcases List.mem_cons.mp hItem with rfl | hItem
    · rfl
    · rw [List.mem_singleton.mp hItem]
      rfl
  kept _ := by
    rintro ⟨item, hItem, hFailure⟩
    rcases List.mem_cons.mp hItem with rfl | hItem
    · cases hFailure
    · rw [List.mem_singleton.mp hItem] at hFailure
      cases hFailure
  finished hClosed := by cases hClosed

theorem Reported.step {run : Run} (h : Reported run) (message : Message) : Reported (run.after settings [message]) := by
  cases hOpen : run.2.closed with
  | true => rwa [Run.after_closed hOpen]
  | false =>
    rw [Run.after_open hOpen]
    have hNone := h.unfinished hOpen
    have hKept := h.kept hOpen
    cases AmazonBedrockChatStream.transformMessage_reports settings run.1 message with
    | goesOn hFinish hFailed =>
      have hAll : ∀ item ∈ run.2.queue ++ (run.1.transformMessage settings message).2.1, isFinish item = false :=
        List.forall_mem_append.mpr ⟨hNone, hFinish⟩
      refine ⟨fun _ => hAll, fun hGoesOn hFailure => hFailed hGoesOn ?_, fun _ => .of_none hAll⟩
      obtain ⟨item, hItem, hFailure⟩ := hFailure
      rcases List.mem_append.mp hItem with hItem | hItem
      · exact .inl (hKept ⟨item, hItem, hFailure⟩)
      · exact .inr ⟨item, hItem, hFailure⟩
    | finishes front reason usage metadata hItems hFront hEnds hFailed =>
      rw [hItems, hEnds, ← List.append_assoc]
      refine ⟨fun hGoesOn => (by cases hGoesOn), fun hGoesOn => (by cases hGoesOn), fun _ => ?_⟩
      refine .concat (List.forall_mem_append.mpr ⟨hNone, fun item hItem => (hFront item hItem).1⟩) ?_ usage metadata
      rintro ⟨item, hItem, hFailure⟩
      rcases List.mem_append.mp hItem with hItem | hItem
      · rw [hKept ⟨item, hItem, hFailure⟩] at hFailed
        cases hFailed
      · rw [(hFront item hItem).2] at hFailure
        cases hFailure

variable (settings) in
theorem Reported.after {run : Run} (h : Reported run) (messages : List Message) : Reported (run.after settings messages) := by
  induction messages generalizing run with
  | nil => exact h
  | cons message messages ih =>
    rw [← List.singleton_append, Run.after_append]
    exact ih (h.step message)

variable (settings) in
/-- The items, with what is emitted where the messages end. -/
theorem chatItems_eq (messages : List Message) :
    let run := (Run.initial settings).after settings messages
    chatItems settings messages = run.2.queue ∧ run.2.closed = true ∨
      run.2.closed = false ∧ ((∃ error, chatItems settings messages = run.2.queue ++ [Except.error error]) ∨
        chatItems settings messages = run.2.queue ++ run.1.finish.2) := by
  intro run
  have hItems : chatItems settings messages = if run.2.closed then run.2.queue else (run.1.flush settings run.2).queue := rfl
  rw [hItems]
  cases hClosed : run.2.closed with
  | true => exact .inl ⟨if_pos rfl, rfl⟩
  | false =>
    refine .inr ⟨rfl, ?_⟩
    rw [if_neg Bool.false_ne_true, AmazonBedrockChatStream.flush]
    split
    · rename_i error _
      refine .inl ⟨error, ?_⟩
      rw [Controller.error, if_neg (by rw [hClosed]; exact Bool.false_ne_true)]
    · refine .inr ?_
      rw [Controller.send_open hClosed]

theorem finishLast_chatItems (messages : List Message) : FinishLast (chatItems settings messages) := by
  have hRun := (Reported.initial settings).after settings messages
  rcases chatItems_eq settings messages with ⟨hItems, hClosed⟩ | ⟨hOpen, ⟨error, hItems⟩ | hItems⟩
  · rw [hItems]
    exact hRun.finished hClosed
  · rw [hItems]
    refine .of_none (List.forall_mem_append.mpr ⟨hRun.unfinished hOpen, fun item hItem => ?_⟩)
    rw [List.mem_singleton.mp hItem]
    rfl
  · rw [hItems]
    refine .concat (hRun.unfinished hOpen) (fun hFailure => ?_) _ _
    have hFailed := hRun.kept hOpen hFailure
    rw [AmazonBedrockChatStream.failed, Option.any_eq_true] at hFailed
    obtain ⟨reason, hReason, hError⟩ := hFailed
    rw [hReason]
    exact of_decide_eq_true hError

/-! ## Tool calls -/

/-- The ids that tool blocks are opened with, in their order. -/
def toolIds (settings : ChatSettings) : Nat → List Message → List String
  | _, [] => []
  | generated, message :: messages =>
    ((startedTool settings generated message).map (·.1)).toList ++
      toolIds settings (((startedTool settings generated message).map (·.2)).getD generated) messages

/-- How many ids are generated then. -/
def generatedAfter (settings : ChatSettings) : Nat → List Message → Nat
  | generated, [] => generated
  | generated, message :: messages =>
    generatedAfter settings (((startedTool settings generated message).map (·.2)).getD generated) messages

theorem toolIds_append (generated : Nat) (front back : List Message) :
    toolIds settings generated (front ++ back) =
      toolIds settings generated front ++ toolIds settings (generatedAfter settings generated front) back := by
  induction front generalizing generated with
  | nil => rfl
  | cons message front ih => rw [List.cons_append, toolIds, toolIds, generatedAfter, ih, List.append_assoc]

/-- The tool blocks and the events of a run, where these ids were used and so many were generated. -/
structure Followed (settings : ChatSettings) (run : Run) (generated : Nat) (started : List String) : Prop where
  tracked : Tracked settings.shown settings.settled run.1.toolBlocks (itemEvents run.2.queue) started
  generated : run.2.closed = false → run.1.generated = generated

variable (settings) in
theorem Followed.initial : Followed settings (.initial settings) 0 [] where
  tracked := by
    have hQuiet : itemEvents (Run.initial settings).2.queue = fun _ => [] := rfl
    rw [hQuiet]
    exact .initial
  generated _ := rfl

variable {payload : Json}

section Steps

variable {run : Run} {generated : Nat} {started : List String}

/-- What a message does while the stream is open. -/
theorem Followed.moves (h : Followed settings run generated started) (hOpen : run.2.closed = false) (message : Message) :
    ∃ taken, Advance settings.shown settings.settled run.1.toolBlocks (run.after settings [message]).1.toolBlocks
        (itemEvents (run.1.transformMessage settings message).2.1)
        ((startedTool settings generated message).map (·.1)) taken ∧
      (itemEvents (run.after settings [message]).2.queue = fun id =>
        itemEvents run.2.queue id ++ itemEvents (run.1.transformMessage settings message).2.1 id) ∧
      (run.after settings [message]).1.generated = ((startedTool settings generated message).map (·.2)).getD generated ∧
      ∀ index, taken = some index → Stops settings index message := by
  obtain ⟨taken, hMoves, hTaken⟩ := AmazonBedrockChatStream.transformMessage_moves settings run.1
    (fun index block hBlock => (h.tracked.known index block hBlock).2) message
  rw [h.generated hOpen] at hMoves
  rw [Run.after_open hOpen]
  exact ⟨taken, hMoves.blocks, funext fun id => itemEvents_append .., hMoves.generated.trans (by rw [h.generated hOpen]),
    hTaken⟩

theorem Followed.step (h : Followed settings run generated started) (message : Message)
    (hFresh : ∀ id, (startedTool settings generated message).map (·.1) = some id → id ∉ started) :
    Followed settings (run.after settings [message]) (((startedTool settings generated message).map (·.2)).getD generated)
      (started ++ ((startedTool settings generated message).map (·.1)).toList) := by
  cases hOpen : run.2.closed with
  | true =>
    rw [Run.after_closed hOpen]
    exact ⟨h.tracked.mono fun id hId => List.mem_append_left _ hId, fun hClosed => by rw [hOpen] at hClosed; cases hClosed⟩
  | false =>
    obtain ⟨taken, hAdvance, hEvents, hGenerated, _⟩ := h.moves hOpen message
    refine ⟨?_, fun _ => hGenerated⟩
    rw [hEvents]
    exact hAdvance.tracked h.tracked hFresh

theorem Followed.after (h : Followed settings run generated started) (messages : List Message)
    (hDistinct : (started ++ toolIds settings generated messages).Nodup) :
    Followed settings (run.after settings messages) (generatedAfter settings generated messages)
      (started ++ toolIds settings generated messages) := by
  induction messages generalizing run generated started with
  | nil =>
    rw [toolIds, List.append_nil]
    exact h
  | cons message messages ih =>
    rw [toolIds, ← List.append_assoc] at hDistinct ⊢
    rw [← List.singleton_append, Run.after_append, List.singleton_append, generatedAfter]
    refine ih (h.step message fun id hId hOld => ?_) hDistinct
    rw [hId] at hDistinct
    have hApart := (List.nodup_append.mp (List.nodup_append.mp hDistinct).1).2.2
    exact hApart id hOld id (by simp) rfl

variable {id : String}

/-- What every message keeps that does not open a block with the id. -/
theorem Followed.keeps (h : Followed settings run generated started) (kept : Run → Prop) {messages : List Message}
    (hDistinct : (started ++ toolIds settings generated messages).Nodup) (hId : id ∈ started)
    (hStep : ∀ message ∈ messages, ∀ (run : Run) (generated : Nat) (started : List String),
      Followed settings run generated started → (startedTool settings generated message).map (·.1) ≠ some id →
      kept run → kept (run.after settings [message])) (hKept : kept run) : kept (run.after settings messages) := by
  induction messages generalizing run generated started with
  | nil => exact hKept
  | cons message messages ih =>
    rw [toolIds, ← List.append_assoc] at hDistinct
    rw [← List.singleton_append, Run.after_append]
    have hFresh : ∀ other, (startedTool settings generated message).map (·.1) = some other → other ∉ started := by
      intro other hOther hOld
      rw [hOther] at hDistinct
      exact (List.nodup_append.mp (List.nodup_append.mp hDistinct).1).2.2 other hOld other (by simp) rfl
    refine ih (h.step message hFresh) hDistinct (List.mem_append_left _ hId)
      (fun other hOther => hStep other (List.mem_cons_of_mem _ hOther)) ?_
    exact hStep message (List.mem_cons_self ..) run generated started h (fun hSame => hFresh id hSame hId) hKept

def Run.gone (run : Run) (id : String) : Prop := Gone run.1.toolBlocks (itemEvents run.2.queue) id

def Run.fate (run : Run) (index : Nat) (id : String) : Prop :=
  Fate run.1.toolBlocks (itemEvents run.2.queue) index id

variable {message : Message}

theorem Followed.gone_step (h : Followed settings run generated started)
    (hFresh : (startedTool settings generated message).map (·.1) ≠ some id) (hGone : run.gone id) :
    (run.after settings [message]).gone id := by
  cases hOpen : run.2.closed with
  | true => rwa [Run.after_closed hOpen]
  | false =>
    obtain ⟨taken, hAdvance, hEvents, _, _⟩ := h.moves hOpen message
    rw [Run.gone, hEvents]
    exact hAdvance.gone hGone hFresh

variable {index : Nat}

theorem Followed.fate_step (h : Followed settings run generated started)
    (hFresh : (startedTool settings generated message).map (·.1) ≠ some id) (hStops : ¬ Stops settings index message)
    (hFate : run.fate index id) : (run.after settings [message]).fate index id := by
  cases hOpen : run.2.closed with
  | true => rwa [Run.after_closed hOpen]
  | false =>
    obtain ⟨taken, hAdvance, hEvents, _, hTaken⟩ := h.moves hOpen message
    rw [Run.fate, hEvents]
    exact hAdvance.fate h.tracked hFate hFresh fun hSame => hStops (hTaken index hSame)

theorem event_of_payload {eventType : String} (hPayload : eventPayload settings eventType message = some payload) :
    ∃ event, message = .ok event ∧ event.eventType = eventType ∧ isException event = false ∧
      settings.fromStr event.data = .ok payload := by
  cases message with
  | error error => cases hPayload
  | ok event =>
    rw [eventPayload] at hPayload
    split at hPayload
    · rename_i hEvent
      refine ⟨event, rfl, hEvent.1, Bool.eq_false_iff.mpr hEvent.2, ?_⟩
      cases hRead : settings.fromStr event.data with
      | error error =>
        rw [hRead] at hPayload
        cases hPayload
      | ok value =>
        rw [hRead] at hPayload
        cases hPayload
        rfl
    · cases hPayload

theorem Run.toolBlocks_event (hOpen : run.2.closed = false) {eventType : String}
    (hPayload : eventPayload settings eventType message = some payload) :
    (run.after settings [message]).1 = (run.1.transformEvent settings eventType payload).1 := by
  obtain ⟨event, rfl, rfl, hEvent, hRead⟩ := event_of_payload hPayload
  rw [Run.after_open hOpen, AmazonBedrockChatStream.transformMessage, hRead]
  simp only [hEvent, Bool.false_eq_true, if_false]

/-- The block that a delta takes away. -/
theorem toolBlocks_unsupported (hOpen : run.2.closed = false) (hUnsupported : Unsupported settings index message) :
    (run.after settings [message]).1.toolBlocks index = none := by
  obtain ⟨payload, delta, hPayload, rfl, hDelta, hKnown⟩ := hUnsupported
  rw [Run.toolBlocks_event hOpen hPayload, AmazonBedrockChatStream.transformEvent, if_neg (by decide), if_pos rfl,
    AmazonBedrockChatStream.contentBlockDelta, hDelta]
  simp only [hKnown, Bool.not_false, if_true]
  exact Function.update_self ..

/-- The block that a start opens. -/
theorem toolBlocks_started (hOpen : run.2.closed = false) {toolUse : Json}
    (hPayload : eventPayload settings "contentBlockStart" message = some payload)
    (hTool : startedToolUse payload = some toolUse) :
    ∃ block, (run.after settings [message]).1.toolBlocks (run.1.startIndex payload) = some block ∧
      block.id = (settings.toolBlockId run.1.generated toolUse).1 := by
  rw [Run.toolBlocks_event hOpen hPayload, AmazonBedrockChatStream.transformEvent, if_pos rfl,
    AmazonBedrockChatStream.contentBlockStart, hTool]
  exact ⟨_, Function.update_self .., rfl⟩

theorem not_stops_of_unsupported {other : Nat} (hUnsupported : Unsupported settings index message) :
    ¬ Stops settings other message := by
  rintro ⟨stopped, hStopped, _⟩
  obtain ⟨payload, delta, hPayload, _⟩ := hUnsupported
  obtain ⟨event, rfl, hType, _⟩ := event_of_payload hPayload
  obtain ⟨other, hSame, hOther, _⟩ := event_of_payload hStopped
  cases hSame
  rw [hType] at hOther
  exact absurd hOther (by decide)

/-- A block that receives a delta that is not supported has no call then, and none later. -/
theorem Followed.uncalled_unsupported (h : Followed settings run generated started) {delta : Message}
    {between rest : List Message} (hDistinct : (started ++ toolIds settings generated (between ++ delta :: rest)).Nodup)
    (hId : id ∈ started) (hFate : run.fate index id) (hBetween : ∀ message ∈ between, ¬ Stops settings index message)
    (hUnsupported : Unsupported settings index delta) (call : RawToolCall) :
    .call call ∉ itemEvents (run.after settings (between ++ delta :: rest)).2.queue id := by
  rw [toolIds_append, ← List.append_assoc] at hDistinct
  have hFront := (List.nodup_append.mp hDistinct).1
  have hMiddle := h.after _ hFront
  have hFateMiddle := h.keeps (fun run => run.fate index id) hFront hId
    (fun message hMessage _ _ _ hRun hNew => hRun.fate_step hNew (hBetween message hMessage)) hFate
  have hMember : id ∈ started ++ toolIds settings generated between := List.mem_append_left _ hId
  rw [Run.after_append]
  cases hOpen : (run.after settings between).2.closed with
  | true =>
    rw [Run.after_closed hOpen]
    exact hFateMiddle.uncalled hMiddle.tracked call
  | false =>
    rw [toolIds, ← List.append_assoc] at hDistinct
    rw [← List.singleton_append, Run.after_append]
    have hFresh : ∀ other, (startedTool settings (generatedAfter settings generated between) delta).map (·.1) = some other →
        other ∉ started ++ toolIds settings generated between := by
      intro other hOther hOld
      rw [hOther] at hDistinct
      exact (List.nodup_append.mp (List.nodup_append.mp hDistinct).1).2.2 other hOld other (by simp) rfl
    have hDelta := hMiddle.fate_step (fun hSame => hFresh id hSame hMember) (not_stops_of_unsupported hUnsupported)
      hFateMiddle
    have hGone := hDelta.gone_of_none (toolBlocks_unsupported hOpen hUnsupported)
    have hLast := (hMiddle.step delta hFresh).keeps (fun run => run.gone id) hDistinct
      (List.mem_append_left _ hMember) (fun _ _ _ _ _ hRun hNew => hRun.gone_step hNew) hGone
    exact hLast.2 call

end Steps

/-! ## The emitted parts -/

theorem chatItems_events (messages : List Message) (id : String) :
    callEvents id (parts (chatItems settings messages)) =
      itemEvents ((Run.initial settings).after settings messages).2.queue id := by
  rcases chatItems_eq settings messages with ⟨hItems, _⟩ | ⟨_, ⟨error, hItems⟩ | hItems⟩
  · rw [hItems]
    rfl
  · rw [hItems, ← itemEvents, itemEvents_append]
    exact List.append_nil _
  · rw [hItems, ← itemEvents, itemEvents_append]
    exact List.append_nil _

/-- In a whole stream. -/
theorem uncalled_of_unsupported {before between rest : List Message} {start delta : Message}
    (hDistinct : (toolIds settings 0 (before ++ start :: between ++ delta :: rest)).Nodup) {toolUse : Json}
    (hPayload : eventPayload settings "contentBlockStart" start = some payload)
    (hTool : startedToolUse payload = some toolUse) (hBetween : ∀ message ∈ between,
      ¬ Stops settings (((Run.initial settings).after settings before).1.startIndex payload) message)
    (hUnsupported : Unsupported settings (((Run.initial settings).after settings before).1.startIndex payload) delta)
    (call : RawToolCall) :
    .call call ∉ itemEvents ((Run.initial settings).after settings (before ++ start :: between ++ delta :: rest)).2.queue
      (settings.toolBlockId (generatedAfter settings 0 before) toolUse).1 := by
  rw [List.append_assoc, toolIds_append, List.cons_append, toolIds, ← List.append_assoc] at hDistinct
  have hFront := (List.nodup_append.mp hDistinct).1
  have hBefore := Followed.initial settings |>.after before (List.nodup_append.mp hFront).1
  rw [List.nil_append] at hBefore
  have hStart : (startedTool settings (generatedAfter settings 0 before) start).map (·.1) =
      some (settings.toolBlockId (generatedAfter settings 0 before) toolUse).1 := by
    rw [startedTool, hPayload, Option.bind_some, hTool, Option.map_some, Option.map_some]
  have hFresh : ∀ id, (startedTool settings (generatedAfter settings 0 before) start).map (·.1) = some id →
      id ∉ toolIds settings 0 before := by
    intro id hId hOld
    rw [hId] at hFront
    exact (List.nodup_append.mp hFront).2.2 id hOld id (by simp) rfl
  rw [List.append_assoc, Run.after_append, List.cons_append, ← List.singleton_append, Run.after_append]
  cases hOpen : ((Run.initial settings).after settings before).2.closed with
  | true =>
    rw [Run.after_closed hOpen, Run.after_closed hOpen, hBefore.tracked.silent _ (hFresh _ hStart)]
    exact List.not_mem_nil
  | false =>
    obtain ⟨block, hBlock, hBlockId⟩ := toolBlocks_started hOpen hPayload hTool
    rw [hBefore.generated hOpen] at hBlockId
    refine (hBefore.step start hFresh).uncalled_unsupported hDistinct ?_ (.alive block hBlock hBlockId) hBetween
      hUnsupported call
    rw [hStart]
    simp

theorem call_event_of_mem {emitted : List StreamPart} {call : RawToolCall} (hCall : .toolCall call ∈ emitted) :
    .call call ∈ callEvents call.toolCallId emitted :=
  List.mem_filterMap.mpr ⟨.toolCall call, hCall, if_pos rfl⟩

/-- For every list of messages whose tool blocks have ids of their own: a finish is the last item, and tells of the
errors before it; the events with the id of a call are one start, the deltas and one end, with the call behind them;
and a block that received a delta that is not supported before it was stopped has no call. -/
theorem chat_stream_parts (settings : ChatSettings) (messages : List Message)
    (hDistinct : (toolIds settings 0 messages).Nodup) :
    FinishLast (chatItems settings messages) ∧
      (∀ call, .toolCall call ∈ parts (chatItems settings messages) → ∃ deltas : List String,
        callEvents call.toolCallId (parts (chatItems settings messages)) =
          .start call.toolName :: deltas.map .delta ++ [.inputEnd, .call call] ∧
        call.input = if deltas = [] then "\x7b\x7d" else String.join deltas) ∧
      ∀ before start between delta rest, messages = before ++ start :: between ++ delta :: rest →
        ∀ payload toolUse, eventPayload settings "contentBlockStart" start = some payload →
          startedToolUse payload = some toolUse →
          let index := ((Run.initial settings).after settings before).1.startIndex payload
          (∀ message ∈ between, ¬ Stops settings index message) → Unsupported settings index delta →
            ∀ call, .toolCall call ∈ parts (chatItems settings messages) →
              call.toolCallId ≠ (settings.toolBlockId (generatedAfter settings 0 before) toolUse).1 := by
  have hAll := Followed.initial settings |>.after messages (by rwa [List.nil_append])
  refine ⟨finishLast_chatItems messages, fun call hCall => ?_, ?_⟩
  · have hEvent := call_event_of_mem hCall
    rw [chatItems_events] at hEvent ⊢
    exact (hAll.tracked.called hEvent).2.1
  · rintro before start between delta rest rfl payload toolUse hPayload hTool index hBetween hUnsupported call hCall hId
    have hEvent := call_event_of_mem hCall
    rw [chatItems_events, hId] at hEvent
    exact uncalled_of_unsupported hDistinct hPayload hTool hBetween hUnsupported call hEvent

/-- Texts, and what they are read as. -/
def weatherPayloads : List (String × Json) := [
  ("\x7b\"contentBlockIndex\":0,\"start\":\x7b\"toolUse\":\x7b\"toolUseId\":\"tool-1\",\"name\":\"weather\"\x7d\x7d\x7d",
    .object [("contentBlockIndex", .number (.int 0)), ("start", .object [("toolUse",
      .object [("toolUseId", .string "tool-1"), ("name", .string "weather")])])]),
  ("\x7b\"contentBlockIndex\":0,\"delta\":\x7b\"toolUse\":\x7b\"input\":\"[1]\"\x7d\x7d\x7d",
    .object [("contentBlockIndex", .number (.int 0)), ("delta", .object [("toolUse",
      .object [("input", .string "[1]")])])]),
  ("\x7b\"contentBlockIndex\":0,\"delta\":\x7b\"image\":null\x7d\x7d",
    .object [("contentBlockIndex", .number (.int 0)), ("delta", .object [("image", .null)])]),
  ("\x7b\"contentBlockIndex\":0\x7d", .object [("contentBlockIndex", .number (.int 0))])]

def mistralSettings : ChatSettings where
  ctx := {
    numberText := fun number => match number with
      | .int n => (toString n).toList
      | .float _ => []
    doubleText := fun _ => "" }
  modelId := "mistral.mistral-large"
  generateId := fun _ => ""
  fromStr := fun text => match weatherPayloads.lookup text with
    | some payload => .ok payload
    | none => .error (.jsonParse "expected value at line 1 column 1" none)
  count := fun _ => .error ""
  cacheDetails := fun _ => .error ""
  noMap := fun _ => ""

/-- An event with the text at the position. -/
def weatherEvent (eventType : String) (position : Nat) : Message :=
  .ok { messageType := "event", eventType, data := (weatherPayloads.map (·.1)).getD position "" }

theorem chat_stream_parts_weather :
    let start := weatherEvent "contentBlockStart" 0
    let stop := weatherEvent "contentBlockStop" 3
    let called := [start, weatherEvent "contentBlockDelta" 1, stop]
    let refused := [start, weatherEvent "contentBlockDelta" 2, stop]
    (∃ call deltas, .toolCall call ∈ parts (chatItems mistralSettings called) ∧
      callEvents call.toolCallId (parts (chatItems mistralSettings called)) =
        .start call.toolName :: deltas.map .delta ++ [.inputEnd, .call call] ∧
      call.input = if deltas = [] then "\x7b\x7d" else String.join deltas) ∧
      ∀ call, .toolCall call ∈ parts (chatItems mistralSettings refused) →
        call.toolCallId ≠ normalizeToolCallId "tool-1" true := by
  intro start stop called refused
  have hCalled := chat_stream_parts mistralSettings called (by decide +kernel)
  have hRefused := chat_stream_parts mistralSettings refused (by decide +kernel)
  refine ⟨?_, ?_⟩
  · let call : RawToolCall := {
      toolCallId := normalizeToolCallId "tool-1" true
      toolName := "weather"
      input := "[1]" }
    have hParts : parts (chatItems mistralSettings called) = [
        .streamStart [], .responseMetadata { modelId := some "mistral.mistral-large" },
        .toolInputStart call.toolCallId "weather" none none none none, .toolInputDelta call.toolCallId "[1]" none,
        .toolInputEnd call.toolCallId none, .toolCall call, .finish FINISH_OTHER {} none] := rfl
    have hCall : .toolCall call ∈ parts (chatItems mistralSettings called) := by
      rw [hParts]
      simp
    obtain ⟨deltas, hEvents, hInput⟩ := hCalled.2.1 call hCall
    exact ⟨call, deltas, hCall, hEvents, hInput⟩
  · refine hRefused.2.2 [] start [] (weatherEvent "contentBlockDelta" 2) [stop] rfl _ _ rfl rfl ?_ ?_
    · intro message hMessage
      cases hMessage
    · exact ⟨_, _, rfl, rfl, rfl, by decide +kernel⟩

end Aimux.Bedrock
