import Aimux.Bedrock.ToolBlocks

/-! # What a message does to the tool blocks

One lemma for each handler, and from them what a message does: to the tool blocks at most one step, with the id
that the message opens a block with.
-/

namespace Aimux.Bedrock

open Aimux.Lib Aimux.Core
open Aimux.Provider (Item Transformer Controller parts)
open Aimux.Provider.ChatToolCalls (CallEvent callEvents callEvents_append)

/-! ## Ids -/

theorem idAlphabet_all : idAlphabet.all isAsciiAlphanumeric = true := by decide +kernel

theorem idAlphabet_alphanumeric (n : Nat) : isAsciiAlphanumeric (idAlphabet.getD n '0') = true := by
  rw [List.getD_eq_getElem?_getD]
  cases hDigit : idAlphabet[n]? with
  | none => rfl
  | some c => exact List.all_eq_true.mp idAlphabet_all c (List.mem_of_getElem? hDigit)

theorem idDigits_length (count value : Nat) : (idDigits count value).length = count := by
  induction count generalizing value with
  | zero => rfl
  | succ count ih => rw [idDigits, List.length_append, ih, List.length_singleton]

theorem idDigits_alphanumeric (count value : Nat) : (idDigits count value).all isAsciiAlphanumeric = true := by
  induction count generalizing value with
  | zero => rfl
  | succ count ih => rw [idDigits, List.all_append, ih, List.all_cons, idAlphabet_alphanumeric, List.all_nil]; rfl

/-- An id that was rewritten is not rewritten again. -/
theorem normalizeToolCallId_idem (id : String) (isMistral : Bool) :
    normalizeToolCallId (normalizeToolCallId id isMistral) isMistral = normalizeToolCallId id isMistral := by
  rw [normalizeToolCallId.eq_def id]
  split
  · rename_i hKept
    rw [normalizeToolCallId, if_pos hKept]
  · refine if_pos ?_
    rw [String.length_ofList, String.toList_ofList, idDigits_length, idDigits_alphanumeric]
    simp

/-! ## Events -/

def itemEvents (items : List (Item StreamPart)) (id : String) : List CallEvent := callEvents id (parts items)

theorem itemEvents_append (front back : List (Item StreamPart)) (id : String) :
    itemEvents (front ++ back) id = itemEvents front id ++ itemEvents back id := by
  rw [itemEvents, Provider.parts_append, callEvents_append]
  rfl

/-- Nothing about a tool call. -/
def Quiet (items : List (Item StreamPart)) : Prop := ∀ id, itemEvents items id = []

theorem Quiet.append {front back : List (Item StreamPart)} (hFront : Quiet front) (hBack : Quiet back) :
    Quiet (front ++ back) := fun id => by rw [itemEvents_append, hFront id, hBack id, List.append_nil]

theorem itemEvents_inputStart (id name other : String) :
    itemEvents [.ok (.toolInputStart id name none none none none)] other = if id = other then [.start name] else [] := by
  by_cases h : id = other <;> simp [itemEvents, parts, Except.toOption, callEvents, Provider.ChatToolCalls.callEvent, h]

theorem itemEvents_inputDelta (id delta other : String) :
    itemEvents [.ok (.toolInputDelta id delta none)] other = if id = other then [.delta delta] else [] := by
  by_cases h : id = other <;> simp [itemEvents, parts, Except.toOption, callEvents, Provider.ChatToolCalls.callEvent, h]

theorem itemEvents_inputEnd (id other : String) :
    itemEvents [.ok (.toolInputEnd id none)] other = if id = other then [.inputEnd] else [] := by
  by_cases h : id = other <;> simp [itemEvents, parts, Except.toOption, callEvents, Provider.ChatToolCalls.callEvent, h]

theorem itemEvents_toolCall (call : RawToolCall) (other : String) :
    itemEvents [.ok (.toolCall call)] other = if call.toolCallId = other then [.call call] else [] := by
  by_cases h : call.toolCallId = other <;>
    simp [itemEvents, parts, Except.toOption, callEvents, Provider.ChatToolCalls.callEvent, h]

theorem quiet_nil : Quiet [] := fun _ => rfl

theorem quiet_raw (settings : ChatSettings) (chunk : Json) : Quiet (settings.ctx.raw chunk) := by
  intro id
  rw [Provider.StreamContext.raw]
  split <;> rfl

/-! ## Handlers -/

namespace ChatSettings

variable (settings : ChatSettings)

def shown (name : String) : Bool := !settings.isJsonTool name

def settled (id : String) : Bool := normalizeToolCallId id settings.isMistral = id

theorem settled_toolBlockId (generated : Nat) (toolUse : Json) : settings.settled (settings.toolBlockId generated toolUse).1 := by
  rw [settled, decide_eq_true_eq, toolBlockId]
  split <;> exact normalizeToolCallId_idem _ _

variable {settings} in
/-- Items of a tool, unless it is the one that a JSON response is asked for with. -/
theorem itemEvents_shown {name id : String} {events : List CallEvent} {items : List (Item StreamPart)}
    (hItems : ∀ other, itemEvents items other = if id = other then events else []) :
    itemEvents (if settings.isJsonTool name then [] else items) = eventsOf id (settings.shown name) events := by
  funext other
  rw [eventsOf, shown]
  cases settings.isJsonTool name with
  | true => rfl
  | false =>
    rw [if_neg Bool.false_ne_true, hItems]
    simp only [Bool.not_false, true_and, eq_comm]

end ChatSettings

namespace AmazonBedrockChatStream

variable {settings : ChatSettings} {state after : AmazonBedrockChatStream} {items : List (Item StreamPart)}

/-- What a handler does to the tool blocks. -/
structure Moves (settings : ChatSettings) (state after : AmazonBedrockChatStream) (items : List (Item StreamPart))
    (started : Option (String × Nat)) (taken : Option Nat) : Prop where
  blocks : Advance settings.shown settings.settled state.toolBlocks after.toolBlocks (itemEvents items)
    (started.map (·.1)) taken
  generated : after.generated = (started.map (·.2)).getD state.generated

theorem Moves.quiet (hBlocks : after.toolBlocks = state.toolBlocks) (hGenerated : after.generated = state.generated)
    (hItems : Quiet items) : Moves settings state after items none none where
  blocks := by
    rw [hBlocks, show itemEvents items = fun _ => [] from funext hItems]
    exact .still
  generated := hGenerated

variable {started : Option (String × Nat)} {taken : Option Nat}

theorem Moves.behind {front : List (Item StreamPart)} (h : Moves settings state after items started taken)
    (hFront : Quiet front) :
    Moves settings state after (front ++ items) started taken where
  blocks := by
    rw [show itemEvents (front ++ items) = itemEvents items from funext fun id => by
      rw [itemEvents_append, hFront id, List.nil_append]]
    exact h.blocks
  generated := h.generated

theorem Moves.before {back : List (Item StreamPart)} (h : Moves settings state after items started taken)
    (hBack : Quiet back) :
    Moves settings state after (items ++ back) started taken where
  blocks := by
    rw [show itemEvents (items ++ back) = itemEvents items from funext fun id => by
      rw [itemEvents_append, hBack id, List.append_nil]]
    exact h.blocks
  generated := h.generated

/-- The other fields do not matter. -/
theorem Moves.transfer {other last : AmazonBedrockChatStream} (h : Moves settings other last items started taken)
    (hBlocks : other.toolBlocks = state.toolBlocks) (hGenerated : other.generated = state.generated)
    (hAfter : after.toolBlocks = last.toolBlocks) (hAfterGenerated : after.generated = last.generated) :
    Moves settings state after items started taken where
  blocks := by
    rw [← hBlocks, hAfter]
    exact h.blocks
  generated := by rw [hAfterGenerated, h.generated, hGenerated]

theorem contentBlockStart_moves (payload : Json) :
    Moves settings state (state.contentBlockStart settings payload).1 (state.contentBlockStart settings payload).2
      ((startedToolUse payload).map (settings.toolBlockId state.generated)) none := by
  rw [contentBlockStart]
  cases hStarted : startedToolUse payload with
  | some toolUse =>
    simp only [Option.map_some]
    refine ⟨?_, rfl⟩
    rw [ChatSettings.itemEvents_shown fun other => itemEvents_inputStart ..]
    exact .opened _ _ _ (settings.settled_toolBlockId ..)
  | none =>
    simp only [Option.map_none]
    split
    · exact .quiet rfl rfl fun _ => rfl
    · exact .quiet rfl rfl fun _ => rfl

variable (state) in
theorem textDelta_quiet (index : Nat) (delta : Json) : (state.textDelta index delta).1.toolBlocks = state.toolBlocks ∧
      (state.textDelta index delta).1.generated = state.generated ∧ Quiet (state.textDelta index delta).2 := by
  rw [textDelta]
  cases (delta.getStr "text").filter (· ≠ "") with
  | none => exact ⟨rfl, rfl, quiet_nil⟩
  | some text =>
    simp only
    have hStarted : ∀ started : AmazonBedrockChatStream × List (Item StreamPart),
        (started = (state, []) ∨ started = state.startText index) → started.1.toolBlocks = state.toolBlocks ∧
          started.1.generated = state.generated ∧ Quiet started.2 := by
      rintro started (rfl | rfl)
      · exact ⟨rfl, rfl, quiet_nil⟩
      · exact ⟨rfl, rfl, fun _ => rfl⟩
    obtain ⟨hBlocks, hGenerated, hQuiet⟩ := hStarted (if index ∈ state.textBlocks then (state, []) else state.startText index)
      (by split <;> simp)
    have hText : ∀ processed : String, Quiet (if processed = "" then [] else
        [Except.ok (StreamPart.textDelta (toString index) processed none)]) := by
      intro processed
      split
      · exact quiet_nil
      · exact fun _ => rfl
    exact ⟨hBlocks, hGenerated, hQuiet.append (hText _)⟩

variable (state) in
theorem reasoningDelta_quiet (index : Nat) (delta : Json) :
    (state.reasoningDelta index delta).1.toolBlocks = state.toolBlocks ∧
      (state.reasoningDelta index delta).1.generated = state.generated ∧
      Quiet (state.reasoningDelta index delta).2 := by
  rw [reasoningDelta]
  cases delta.get "reasoningContent" with
  | none => exact ⟨rfl, rfl, quiet_nil⟩
  | some content =>
    simp only
    split
    · exact ⟨rfl, rfl, quiet_nil⟩
    · have hStarted : Quiet (if (state.reasoningBlocks index).isSome = true then []
          else [Except.ok (StreamPart.reasoningStart (toString index) none)]) := by
        split <;> exact fun _ => rfl
      split
      all_goals first
        | exact ⟨rfl, rfl, hStarted⟩
        | exact ⟨rfl, rfl, hStarted.append fun _ => rfl⟩

theorem toolDelta_moves (index : Nat) (delta : Json) :
    Moves settings state (state.toolDelta settings index delta).1 (state.toolDelta settings index delta).2 none none := by
  rw [toolDelta]
  split
  · rename_i input block _ hBlock
    split
    · exact .quiet rfl rfl quiet_nil
    · rename_i hFilled
      refine ⟨?_, rfl⟩
      rw [ChatSettings.itemEvents_shown fun other => itemEvents_inputDelta ..]
      exact .grown index block input hBlock hFilled
  · exact .quiet rfl rfl quiet_nil

theorem unsupportedDelta_moves (index : Nat) (delta : Json) :
    Moves settings state (state.unsupportedDelta settings index delta).1
      (state.unsupportedDelta settings index delta).2 none none := by
  rw [unsupportedDelta]
  refine Moves.before ⟨?_, rfl⟩ fun _ => rfl
  cases hBlock : state.toolBlocks index with
  | none =>
    rw [show Function.update state.toolBlocks index none = state.toolBlocks by
      rw [← hBlock, Function.update_eq_self]]
    exact .still
  | some block =>
    have hItems : (Option.map (fun block : ToolBlock => (Except.ok (.toolInputEnd block.id none) : Item StreamPart))
        (Option.filter (fun block : ToolBlock => !settings.isJsonTool block.name) (some block))).toList =
        if settings.isJsonTool block.name then [] else [.ok (.toolInputEnd block.id none)] := by
      rw [Option.filter_some]
      cases settings.isJsonTool block.name <;> rfl
    rw [hItems, ChatSettings.itemEvents_shown fun other => itemEvents_inputEnd ..]
    exact .dropped index block hBlock

theorem contentBlockDelta_moves (payload : Json) :
    Moves settings state (state.contentBlockDelta settings payload).1 (state.contentBlockDelta settings payload).2.1
      none none := by
  rw [contentBlockDelta]
  cases (payload.get "delta").filter (!·.isNull) with
  | none => exact .quiet rfl rfl quiet_nil
  | some delta =>
    simp only
    split
    · exact (unsupportedDelta_moves (blockIndex payload) delta).transfer rfl rfl rfl rfl
    · split
      · exact .quiet rfl rfl fun _ => rfl
      · obtain ⟨hTextBlocks, hTextGenerated, hText⟩ := textDelta_quiet
          { state with openBlocks := state.openBlocks.insert (blockIndex payload) } (blockIndex payload) delta
        obtain ⟨hBlocks, hGenerated, hReasoning⟩ := reasoningDelta_quiet (toolDelta settings (textDelta
          { state with openBlocks := state.openBlocks.insert (blockIndex payload) } (blockIndex payload) delta).1
            (blockIndex payload) delta).1 (blockIndex payload) delta
        exact (((toolDelta_moves (blockIndex payload) delta).behind hText).before hReasoning).transfer hTextBlocks
          hTextGenerated hBlocks hGenerated

theorem contentBlockStop_moves (hSettled : ∀ index block, state.toolBlocks index = some block → settings.settled block.id)
    (payload : Json) :
    ∃ taken, Moves settings state (state.contentBlockStop settings payload).1
      (state.contentBlockStop settings payload).2.1 none taken ∧ ∀ index, taken = some index → blockIndex payload = index := by
  rw [contentBlockStop]
  simp only
  split
  · exact ⟨none, .quiet rfl rfl fun _ => rfl, fun index hTaken => by cases hTaken⟩
  · cases hBlock : state.toolBlocks (blockIndex payload) with
    | some block =>
      simp only
      cases hJson : settings.isJsonTool block.name with
      | true =>
        refine ⟨none, ⟨?_, rfl⟩, fun index hTaken => by cases hTaken⟩
        exact .answered (blockIndex payload) block hBlock (by rw [ChatSettings.shown, hJson]; rfl)
      | false =>
        refine ⟨some (blockIndex payload), ⟨?_, rfl⟩, fun index hTaken => Option.some.inj hTaken⟩
        have hId : normalizeToolCallId block.id settings.isMistral = block.id :=
          of_decide_eq_true (hSettled _ block hBlock)
        have hEvents : itemEvents [.ok (.toolInputEnd block.id none), .ok (.toolCall block.call)] =
            eventsOf block.id true [.inputEnd, .call block.call] := by
          funext other
          have hCallId : block.call.toolCallId = block.id := rfl
          rw [← List.singleton_append, itemEvents_append, itemEvents_inputEnd, itemEvents_toolCall, hCallId, eventsOf]
          by_cases hSame : block.id = other
          · subst hSame
            rw [if_pos rfl, if_pos rfl, if_pos ⟨rfl, rfl⟩, List.singleton_append]
          · rw [if_neg hSame, if_neg hSame, if_neg fun hBoth => hSame hBoth.2.symm, List.append_nil]
        simp only [Bool.false_eq_true, if_false, hId]
        rw [ToolBlock.call] at hEvents
        rw [hEvents]
        exact .called (blockIndex payload) block hBlock (by rw [ChatSettings.shown, hJson]; rfl)
    | none =>
      cases hRedacted : state.reasoningBlocks (blockIndex payload) with
      | some redacted => exact ⟨none, .quiet rfl rfl fun _ => rfl, fun index hTaken => by cases hTaken⟩
      | none =>
        simp only
        split
        · exact ⟨none, .quiet rfl rfl fun _ => rfl, fun index hTaken => by cases hTaken⟩
        · exact ⟨none, .quiet rfl rfl quiet_nil, fun index hTaken => by cases hTaken⟩

theorem messageStop_moves (payload : Json) :
    Moves settings state (state.messageStop settings payload).1 (state.messageStop settings payload).2.1 none none := by
  rw [messageStop]
  cases state.stopProblem settings (payload.getStr "stopReason") with
  | some problem => exact .quiet rfl rfl fun _ => rfl
  | none => exact .quiet rfl rfl quiet_nil

theorem takeUsage_blocks {usage : Json} {taken : AmazonBedrockChatStream} (hTaken : state.takeUsage settings usage = .ok taken) :
    taken.toolBlocks = state.toolBlocks ∧ taken.generated = state.generated ∧
      taken.finalFinishReason = state.finalFinishReason := by
  rw [takeUsage] at hTaken
  split at hTaken
  · cases hTaken
  · cases hTaken
    exact ⟨rfl, rfl, rfl⟩

theorem takenUsage_blocks {usage : Option Json} {taken : Option AmazonBedrockChatStream}
    (hTaken : usage.mapM (state.takeUsage settings) = .ok taken) :
    (taken.getD state).toolBlocks = state.toolBlocks ∧ (taken.getD state).generated = state.generated ∧
      (taken.getD state).finalFinishReason = state.finalFinishReason := by
  cases usage with
  | none =>
    cases hTaken
    exact ⟨rfl, rfl, rfl⟩
  | some usage =>
    cases hUsage : state.takeUsage settings usage with
    | error error =>
      rw [Option.mapM_some, hUsage] at hTaken
      cases hTaken
    | ok next =>
      rw [Option.mapM_some, hUsage] at hTaken
      cases hTaken
      exact takeUsage_blocks hUsage

theorem metadataEvent_moves (payload : Json) :
    Moves settings state (state.metadataEvent settings payload).1 (state.metadataEvent settings payload).2.1
      none none := by
  rw [metadataEvent]
  split
  · exact .quiet rfl rfl fun _ => rfl
  · rename_i taken hTaken
    obtain ⟨hBlocks, hGenerated, _⟩ := takenUsage_blocks hTaken
    simp only
    split
    · exact .quiet hBlocks hGenerated fun _ => rfl
    · exact .quiet hBlocks hGenerated quiet_nil

end AmazonBedrockChatStream

/-! ## Messages -/

/-- The payload of an event of the type. -/
def eventPayload (settings : ChatSettings) (eventType : String) :
    Except AiMuxError EventStreamMessage → Option Json
  | .error _ => none
  | .ok message =>
    if message.eventType = eventType ∧ ¬ AmazonBedrockChatStream.isException message then
      (settings.fromStr message.data).toOption
    else none

/-- The id of the tool block that a message opens, and how many ids are generated with it. -/
def startedTool (settings : ChatSettings) (generated : Nat) (message : Except AiMuxError EventStreamMessage) :
    Option (String × Nat) :=
  ((eventPayload settings "contentBlockStart" message).bind AmazonBedrockChatStream.startedToolUse).map
    (settings.toolBlockId generated)

/-- The block at the index is stopped. -/
def Stops (settings : ChatSettings) (index : Nat) (message : Except AiMuxError EventStreamMessage) : Prop :=
  ∃ payload, eventPayload settings "contentBlockStop" message = some payload ∧
    AmazonBedrockChatStream.blockIndex payload = index

/-- The block at the index receives a delta that is not supported. -/
def Unsupported (settings : ChatSettings) (index : Nat) (message : Except AiMuxError EventStreamMessage) : Prop :=
  ∃ payload delta, eventPayload settings "contentBlockDelta" message = some payload ∧
    AmazonBedrockChatStream.blockIndex payload = index ∧ (payload.get "delta").filter (!·.isNull) = some delta ∧
    isKnownDelta delta = false

namespace AmazonBedrockChatStream

variable {settings : ChatSettings} {state : AmazonBedrockChatStream}

theorem eventPayload_ok {message : EventStreamMessage} {payload : Json} (hPayload : settings.fromStr message.data = .ok payload)
    (hEvent : isException message = false) (eventType : String) :
    eventPayload settings eventType (.ok message) = if message.eventType = eventType then some payload else none := by
  rw [eventPayload, hPayload, hEvent]
  simp [Except.toOption]

theorem startedTool_of_none {message : Except AiMuxError EventStreamMessage} {generated : Nat}
    (hNone : eventPayload settings "contentBlockStart" message = none) : startedTool settings generated message = none := by
  rw [startedTool, hNone]
  rfl

variable (settings state) in
/-- Where a message is no start and stops nothing, its handler may not start or stop anything. -/
theorem transformEvent_moves (hSettled : ∀ index block, state.toolBlocks index = some block → settings.settled block.id)
    (eventType : String) (payload : Json) :
    ∃ taken, Moves settings state (state.transformEvent settings eventType payload).1
      (state.transformEvent settings eventType payload).2.1
      (if eventType = "contentBlockStart" then (startedToolUse payload).map (settings.toolBlockId state.generated)
        else none) taken ∧
      ∀ index, taken = some index → eventType = "contentBlockStop" ∧ blockIndex payload = index := by
  rw [transformEvent]
  split
  · exact ⟨none, contentBlockStart_moves payload, fun index hTaken => by cases hTaken⟩
  · split
    · exact ⟨none, contentBlockDelta_moves payload, fun index hTaken => by cases hTaken⟩
    · split
      · rename_i hStop
        obtain ⟨taken, hMoves, hTaken⟩ := contentBlockStop_moves hSettled payload
        exact ⟨taken, hMoves, fun index hIndex => ⟨hStop, hTaken index hIndex⟩⟩
      · split
        · exact ⟨none, messageStop_moves payload, fun index hTaken => by cases hTaken⟩
        · split
          · exact ⟨none, metadataEvent_moves payload, fun index hTaken => by cases hTaken⟩
          · exact ⟨none, .quiet rfl rfl quiet_nil, fun index hTaken => by cases hTaken⟩

variable (settings state) in
theorem transformMessage_moves (hSettled : ∀ index block, state.toolBlocks index = some block → settings.settled block.id)
    (message : Except AiMuxError EventStreamMessage) :
    ∃ taken, Moves settings state (state.transformMessage settings message).1
      (state.transformMessage settings message).2.1 (startedTool settings state.generated message) taken ∧
      ∀ index, taken = some index → Stops settings index message := by
  cases message with
  | error error =>
    rw [startedTool_of_none rfl]
    exact ⟨none, .quiet rfl rfl fun _ => rfl, fun index hTaken => by cases hTaken⟩
  | ok message =>
    rw [transformMessage]
    cases hPayload : settings.fromStr message.data with
    | error error =>
      rw [startedTool_of_none (by rw [eventPayload, hPayload]; simp [Except.toOption])]
      exact ⟨none, .quiet rfl rfl fun _ => rfl, fun index hTaken => by cases hTaken⟩
    | ok payload =>
      simp only
      cases hEvent : isException message with
      | true =>
        rw [startedTool_of_none (by rw [eventPayload, hEvent]; simp)]
        exact ⟨none, .quiet rfl rfl ((quiet_raw settings _).append fun _ => rfl), fun index hTaken => by cases hTaken⟩
      | false =>
        obtain ⟨taken, hMoves, hTaken⟩ := transformEvent_moves settings state hSettled message.eventType payload
        have hStarted : startedTool settings state.generated (.ok message) = if message.eventType = "contentBlockStart" then
            (startedToolUse payload).map (settings.toolBlockId state.generated) else none := by
          rw [startedTool, eventPayload_ok hPayload hEvent]
          split <;> rfl
        rw [hStarted]
        refine ⟨taken, hMoves.behind (quiet_raw settings _), fun index hIndex => ?_⟩
        obtain ⟨hStop, hBlock⟩ := hTaken index hIndex
        exact ⟨payload, by rw [eventPayload_ok hPayload hEvent, if_pos hStop], hBlock⟩

end AmazonBedrockChatStream

end Aimux.Bedrock
