import Aimux.Lib.Spans
import Aimux.Responses.ItemSequences

/-! # Blocks of a stream

Every text and reasoning block that a stream emits is started once, extended only while it is open, and ended once. What
is still open of a reasoning when its item ends is ended in the order in which a table is iterated.
-/

namespace Aimux.Responses

open Aimux.Core Aimux.Provider OpenAIResponsesStream
open Aimux.Lib (Transducer)
open Aimux.Lib.Span (Mark Phase Moves Whole)

def blockMark : StreamPart → Option (Block × Mark)
  | .textStart id _ => some (.text id, .start)
  | .textDelta id _ _ => some (.text id, .delta)
  | .textEnd id _ => some (.text id, .stop)
  | .reasoningStart id _ => some (.reasoning id, .start)
  | .reasoningDelta id _ _ => some (.reasoning id, .delta)
  | .reasoningEnd id _ => some (.reasoning id, .stop)
  | _ => none

variable {part : StreamPart}

theorem blockMark_of_tool (h : isToolPart part = true) : blockMark part = none := by
  cases part <;> first | rfl | cases h

variable {chunk : Json}

theorem blockMark_of_raw {settings : ResponsesSettings} (h : part ∈ rawParts settings chunk) :
    blockMark part = none := by
  obtain ⟨chunk, rfl⟩ := mem_rawParts h
  rfl

/-! ## Events of no message and no reasoning -/

/-- The tables of blocks stay, and no block is spoken of. -/
structure Off (state : OpenAIResponsesStream) (handled : OpenAIResponsesStream × List StreamPart) : Prop where
  places : handled.1.outputIds = state.outputIds
  texts : handled.1.textBlocks = state.textBlocks
  reasonings : handled.1.activeReasoning = state.activeReasoning
  parts : ∀ part ∈ handled.2, blockMark part = none

variable {handled : OpenAIResponsesStream × List StreamPart} {kind : String}

section

variable {settings : ResponsesSettings} {state : OpenAIResponsesStream} {chunk : Json}

theorem Off.still (state : OpenAIResponsesStream) : Off state (state, []) where
  places := rfl
  texts := rfl
  reasonings := rfl
  parts := List.forall_mem_nil _

theorem Off.one {next : OpenAIResponsesStream} (hPlaces : next.outputIds = state.outputIds)
    (hTexts : next.textBlocks = state.textBlocks) (hReasonings : next.activeReasoning = state.activeReasoning)
    (hPart : blockMark part = none) : Off state (next, [part]) where
  places := hPlaces
  texts := hTexts
  reasonings := hReasonings
  parts := List.forall_mem_singleton.mpr hPart

theorem Off.tool (h : ToolStep state handled) : Off state handled where
  places := by
    have hSame := congrArg OpenAIResponsesStream.outputIds h.talk
    exact hSame
  texts := by
    have hSame := congrArg OpenAIResponsesStream.textBlocks h.talk
    exact hSame
  reasonings := by
    have hSame := congrArg OpenAIResponsesStream.activeReasoning h.talk
    exact hSame
  parts part hPart := blockMark_of_tool (h.parts part hPart)

theorem off_talks (hPart : kind ∉ PART_KINDS)
    (hItem : kind ∈ ITEM_KINDS → (chunk.member "item").strOrEmpty "type" ∉ ["message", "reasoning"])
    (h : Talks settings state chunk kind handled) : Off state handled := by
  have hMember {item : Json} (hSome : chunk.get "item" = some item) : chunk.member "item" = item := by
    rw [Json.member, hSome, Option.getD_some]
  cases h with
  | created =>
    rw [created]
    split
    · exact .still state
    · exact .one rfl rfl rfl rfl
  | messageAdded hSome hType | reasoningAdded hSome hType | messageDone hSome hType | reasoningDone hSome hType =>
    exact absurd (by rw [hMember hSome, hType]; decide) (hItem (by decide))
  | annotationAdded =>
    rw [annotationAdded]
    dsimp only
    split <;> exact .one rfl rfl rfl rfl
  | completed =>
    rw [completed]
    split
    · exact .still state
    · exact ⟨rfl, rfl, rfl, List.forall_mem_nil _⟩
  | failed =>
    rw [failed]
    split
    · exact .still state
    · refine ⟨rfl, rfl, rfl, fun part hPart => ?_⟩
      dsimp only at hPart
      split at hPart
      · rw [List.mem_singleton.mp hPart]
        rfl
      · cases hPart
  | errorChunk => exact .one rfl rfl rfl rfl
  | _ => exact absurd (by decide) hPart

theorem off_transform {event : Except AiMuxError Json} (h : isItemEvent event = false) :
    Off state (state.transform settings event) := by
  cases event with
  | error error => exact .one rfl rfl rfl rfl
  | ok chunk =>
    have hHandled : Off state (state.transformChunk settings chunk) := by
      rw [isItemEvent, Bool.or_eq_false_iff, decide_eq_false_iff_not, Bool.and_eq_false_imp] at h
      rw [transformChunk]
      split
      · exact .one rfl rfl rfl rfl
      · split
        · exact .one rfl rfl rfl rfl
        · rcases handle_cases settings state chunk (chunk.strOrEmpty "type") with hTool | hTalks
          · exact .tool hTool
          · exact off_talks h.1 (fun hItem => of_decide_eq_false (h.2 (decide_eq_true hItem))) hTalks
    refine ⟨hHandled.places, hHandled.texts, hHandled.reasonings, fun part hPart => ?_⟩
    exact (List.mem_append.mp hPart).elim blockMark_of_raw (hHandled.parts part)

end

/-! ## Summary parts -/

variable {index : Nat}

namespace Summary

variable (store : Bool) (parts : Summary)

def indices : List Nat := parts.earlier.map (·.1) ++ [parts.current]

/-- What a reasoning's table holds of its parts: a part that is done is concluded, where the response is not stored only
when the next one is added. -/
def statuses : SummaryParts :=
  parts.earlier.map (fun part => (part.1, if part.2 then SummaryStatus.concluded else SummaryStatus.active)) ++
    [(parts.current, if parts.isDone then (if store then SummaryStatus.concluded else .canConclude) else .active)]

/-- The parts that are still open when the item ends. -/
def leftOpen : List Nat :=
  (parts.earlier.filter fun part => !part.2).map (·.1) ++ if store && parts.isDone then [] else [parts.current]

def phase (n : Nat) : Phase :=
  if n ∈ parts.leftOpen store then .isOpen else if n ∈ parts.indices then .ended else .fresh

/-- The parts have increasing indices. -/
def Ascends : Prop := parts.indices.Pairwise (· < ·)

/-- After a part was added. -/
def next (index : Nat) : Summary := ⟨parts.earlier ++ [(parts.current, parts.isDone)], index, false⟩

variable {store parts}

theorem leftOpen_sublist : (parts.leftOpen store).Sublist parts.indices := by
  refine List.Sublist.append (List.Sublist.map _ List.filter_sublist) ?_
  split
  · exact List.nil_sublist _
  · exact List.Sublist.refl _

theorem leftOpen_eq : ((parts.statuses store).filter (·.2 ≠ .concluded)).map (·.1) = parts.leftOpen store := by
  rw [statuses, leftOpen, List.filter_append, List.map_append]
  congr 1
  · rw [List.filter_map, List.map_map]
    congr 1
    refine List.filter_congr fun part _ => ?_
    cases hDone : part.2 <;> simp [hDone]
  · cases parts.isDone <;> cases store <;> rfl

theorem filter_canConclude : (parts.statuses store).filter (·.2 = .canConclude) =
    if parts.isDone && !store then [(parts.current, .canConclude)] else [] := by
  rw [statuses, List.filter_append]
  have hEarlier : (parts.earlier.map fun part => (part.1, if part.2 then SummaryStatus.concluded else .active)).filter
      (·.2 = .canConclude) = [] := by
    rw [List.filter_eq_nil_iff]
    intro part hPart
    obtain ⟨part, -, rfl⟩ := List.mem_map.mp hPart
    cases part.2 <;> simp
  rw [hEarlier, List.nil_append]
  cases parts.isDone <;> cases store <;> rfl

theorem Ascends.lt_current (h : parts.Ascends) {part : Nat × Bool} (hPart : part ∈ parts.earlier) :
    part.1 < parts.current := by
  rw [Ascends, indices, List.pairwise_append] at h
  exact h.2.2 _ (List.mem_map_of_mem hPart) _ (List.mem_singleton_self _)

theorem Ascends.next (h : parts.Ascends) (hNext : parts.current < index) : (parts.next index).Ascends := by
  have hIndices : (parts.next index).indices = parts.indices ++ [index] := by
    rw [indices, Summary.next, List.map_append]
    rfl
  rw [Ascends, hIndices, List.pairwise_append]
  refine ⟨h, List.pairwise_singleton _ _, fun n hN m hM => ?_⟩
  rw [List.mem_singleton.mp hM]
  rcases List.mem_append.mp hN with hEarlier | hCurrent
  · obtain ⟨part, hPart, rfl⟩ := List.mem_map.mp hEarlier
    exact (h.lt_current hPart).trans hNext
  · rw [List.mem_singleton.mp hCurrent]
    exact hNext

end Summary

/-! ### The table of a reasoning -/

theorem setStatus_last {parts : SummaryParts} (hNew : index ∉ parts.map (·.1)) (status other : SummaryStatus) :
    setStatus (parts ++ [(index, status)]) index other = parts ++ [(index, other)] := by
  have hAny : (parts ++ [(index, status)]).any (·.1 = index) = true := by simp
  rw [setStatus, if_pos hAny, List.map_append, List.map_singleton, if_pos rfl]
  congr 1
  refine (List.map_congr_left fun part hPart => ?_).trans (List.map_id parts)
  exact if_neg fun hSame : part.1 = index => hNew (hSame ▸ List.mem_map_of_mem hPart)

theorem setStatus_new {parts : SummaryParts} (hNew : index ∉ parts.map (·.1)) (status : SummaryStatus) :
    setStatus parts index status = parts ++ [(index, status)] := by
  rw [setStatus, if_neg]
  intro hAny
  obtain ⟨part, hPart, hSame⟩ := List.any_eq_true.mp hAny
  exact hNew (of_decide_eq_true hSame ▸ List.mem_map_of_mem hPart)

variable (settings : ResponsesSettings)

/-- The parts that are concluded when another is added: the current one, where its end was put off. -/
theorem toConclude_eq (id : String) (parts : Summary) :
    partsWith settings id (parts.statuses settings.storeFlag) (· = .canConclude) =
      if parts.isDone && !settings.storeFlag then [parts.current] else [] := by
  have hPerm := (settings.iterates id (parts.statuses settings.storeFlag)).filter fun part => decide (part.2 = .canConclude)
  rw [Summary.filter_canConclude] at hPerm
  rw [partsWith]
  split at hPerm
  · rename_i hDone
    rw [List.perm_singleton.mp hPerm, if_pos hDone]
    rfl
  · rename_i hDone
    rw [List.perm_nil.mp hPerm, if_neg hDone]
    rfl

theorem leftOpen_perm (id : String) (parts : Summary) :
    (partsWith settings id (parts.statuses settings.storeFlag) (· ≠ .concluded)).Perm
      (parts.leftOpen settings.storeFlag) := by
  rw [← Summary.leftOpen_eq]
  exact ((settings.iterates id _).filter _).map _

variable {parts : Summary}

/-- The table after a part was added. -/
theorem statuses_next (hAscends : parts.Ascends) (hNext : parts.current < index) :
    setStatus ((if parts.isDone && !settings.storeFlag then [parts.current] else []).foldl
      (fun parts index => setStatus parts index .concluded) (parts.statuses settings.storeFlag)) index .active =
        (parts.next index).statuses settings.storeFlag := by
  have hOld : parts.current ∉ (parts.earlier.map fun part =>
      (part.1, if part.2 then SummaryStatus.concluded else .active)).map (·.1) := by
    rw [List.map_map]
    intro hMem
    obtain ⟨part, hPart, hSame⟩ := List.mem_map.mp hMem
    exact Nat.lt_irrefl _ (hSame ▸ hAscends.lt_current hPart)
  have hConcluded : (if parts.isDone && !settings.storeFlag then [parts.current] else []).foldl
      (fun parts index => setStatus parts index .concluded) (parts.statuses settings.storeFlag) =
        (parts.earlier ++ [(parts.current, parts.isDone)]).map fun part =>
          (part.1, if part.2 then SummaryStatus.concluded else .active) := by
    rw [Summary.statuses, List.map_append, List.map_singleton]
    cases hDone : parts.isDone <;> cases hStore : settings.storeFlag
    · rfl
    · rfl
    · exact setStatus_last hOld _ _
    · rfl
  rw [hConcluded, setStatus_new]
  · rfl
  · rw [List.map_map]
    intro hMem
    obtain ⟨part, hPart, hSame⟩ := List.mem_map.mp hMem
    have hSame : part.1 = index := hSame
    rcases List.mem_append.mp hPart with hEarlier | hCurrent
    · have hLess := hAscends.lt_current hEarlier
      omega
    · rw [List.mem_singleton.mp hCurrent] at hSame
      have hSame : parts.current = index := hSame
      omega

/-! ## Items in a run -/

section

variable {events : List (Except AiMuxError Json)} (items : ItemSequences events)

structure TracksMessage (state : OpenAIResponsesStream) (phase : Block → Phase) (index current : Nat) : Prop where
  ends : items.ends index = .messageEnded
  place : state.outputIds index = some (items.id index)
  table : state.textBlocks (items.id index) = some (current, blockName (items.id index) current)
  spoken : phase (items.block index current) = .isOpen
  others : ∀ n ≠ current, phase (items.block index n) ≠ .isOpen
  later : ∀ n, current < n → phase (items.block index n) = .fresh

structure TracksReasoning (store : Bool) (state : OpenAIResponsesStream) (phase : Block → Phase) (index : Nat)
    (parts : Summary) : Prop where
  ends : ∃ last, items.ends index = .reasoningEnded last
  place : state.outputIds index = some (items.id index)
  table : ∃ encrypted, state.activeReasoning (items.id index) = some ⟨encrypted, parts.statuses store⟩
  ascends : parts.Ascends
  phases : ∀ n, phase (items.block index n) = parts.phase store n

/-- The tables and the blocks of an item that is so far. -/
def Tracks (store : Bool) (state : OpenAIResponsesStream) (phase : Block → Phase) (index : Nat) : Lane → Prop
  | .absent => ∀ n, phase (items.block index n) = .fresh
  | .message current => TracksMessage items state phase index current
  | .reasoning parts => TracksReasoning items store state phase index parts
  | .messageEnded | .reasoningEnded _ => ∀ n, phase (items.block index n) ≠ .isOpen

/-- The tables of other items stay. -/
structure Frame (index : Nat) (state next : OpenAIResponsesStream) : Prop where
  places : ∀ j ≠ index, next.outputIds j = state.outputIds j
  texts : ∀ j ≠ index, items.ends j = .messageEnded →
    next.textBlocks (items.id j) = state.textBlocks (items.id j)
  reasonings : ∀ j ≠ index, ∀ last, items.ends j = .reasoningEnded last →
    next.activeReasoning (items.id j) = state.activeReasoning (items.id j)

/-- An event brings its item on. -/
structure Advances (store : Bool) (state : OpenAIResponsesStream) (phase : Block → Phase) (index : Nat) (lane : Lane)
    (handled : OpenAIResponsesStream × List StreamPart) (after : Block → Phase) : Prop where
  moves : Moves blockMark phase handled.2 after
  tracks : Tracks items store handled.1 after index lane
  others : ∀ block, (∀ n, block ≠ items.block index n) → after block = phase block
  frame : Frame items index state handled.1

variable {items} {store : Bool} {state next : OpenAIResponsesStream} {phase after : Block → Phase} {index : Nat}
  {lane : Lane}

theorem Frame.of_same (hPlaces : next.outputIds = state.outputIds) (hTexts : next.textBlocks = state.textBlocks)
    (hReasonings : next.activeReasoning = state.activeReasoning) : Frame items index state next where
  places j _ := by rw [hPlaces]
  texts j _ _ := by rw [hTexts]
  reasonings j _ _ _ := by rw [hReasonings]

/-- An item goes its way when the tables and the blocks of another change. -/
theorem Tracks.other {j : Nat} (hUsed : items.Used j) (hIndex : items.Used index) (hNe : j ≠ index)
    (hOthers : ∀ block, (∀ n, block ≠ items.block index n) → after block = phase block)
    (hFrame : Frame items index state next) (h : Tracks items store state phase j lane) :
    Tracks items store next after j lane := by
  have hPhase (n : Nat) : after (items.block j n) = phase (items.block j n) :=
    hOthers _ fun m => items.block_ne hUsed hIndex hNe n m
  cases lane with
  | absent => exact fun n => (hPhase n).trans (h n)
  | message current =>
    obtain ⟨hEnds, hPlace, hTable, hSpoken, hRest, hLater⟩ := h
    exact {
      ends := hEnds
      place := (hFrame.places j hNe).trans hPlace
      table := (hFrame.texts j hNe hEnds).trans hTable
      spoken := (hPhase current).trans hSpoken
      others := fun n hN => hPhase n ▸ hRest n hN
      later := fun n hN => (hPhase n).trans (hLater n hN) }
  | reasoning parts =>
    obtain ⟨⟨last, hEnds⟩, hPlace, ⟨encrypted, hTable⟩, hAscends, hPhases⟩ := h
    exact {
      ends := ⟨last, hEnds⟩
      place := (hFrame.places j hNe).trans hPlace
      table := ⟨encrypted, (hFrame.reasonings j hNe last hEnds).trans hTable⟩
      ascends := hAscends
      phases := fun n => (hPhase n).trans (hPhases n) }
  | messageEnded => exact fun n => hPhase n ▸ h n
  | reasoningEnded parts => exact fun n => hPhase n ▸ h n

theorem Tracks.off (hOff : Off state handled) (h : Tracks items store state phase index lane) :
    Tracks items store handled.1 phase index lane := by
  cases lane with
  | message current => exact { h with place := hOff.places ▸ h.place, table := hOff.texts ▸ h.table }
  | reasoning parts => exact { h with place := hOff.places ▸ h.place, table := hOff.reasonings ▸ h.table }
  | _ => exact h

/-! ### Messages -/

theorem Placed.resolve (hEvent : Placed kind index chunk) {id : String}
    (hPlace : state.outputIds index = some id) : state.resolveOutputItemId chunk = id := by
  rw [resolveOutputItemId, hEvent.place, Option.bind_some, hPlace, Option.getD_some]

theorem Placed.outputIndex (hEvent : Placed kind index chunk) :
    outputIndex chunk = index := by
  rw [OpenAIResponsesStream.outputIndex, hEvent.place, Option.getD_some]

variable {current : Nat}

/-- A delta of the part that a message is at. -/
theorem TracksMessage.speak (h : TracksMessage items state phase index current)
    (hPlaces : next.outputIds = state.outputIds) (hTexts : next.textBlocks = state.textBlocks)
    (hReasonings : next.activeReasoning = state.activeReasoning) (delta : String) (metadata : Option ProviderMetadata) :
    Advances items store state phase index (.message current)
      (next, [.textDelta (state.textBlockId (items.id index)) delta metadata]) phase := by
  have hBlock : Block.text (state.textBlockId (items.id index)) = items.block index current := by
    rw [items.block_message h.ends, textBlockId, h.table]
    rfl
  have hMoves : Moves blockMark phase [.textDelta (state.textBlockId (items.id index)) delta metadata]
      (Function.update phase (items.block index current) .isOpen) :=
    .one (by rw [blockMark, hBlock]) (by rw [h.spoken]; rfl)
  rw [← h.spoken, Function.update_eq_self] at hMoves
  exact {
    moves := hMoves
    tracks := { h with place := hPlaces ▸ h.place, table := hTexts ▸ h.table }
    others := fun _ _ => rfl
    frame := .of_same hPlaces hTexts hReasonings }

/-- Nothing is said. -/
theorem Advances.silent (h : Tracks items store state phase index lane) :
    Advances items store state phase index lane (state, []) phase where
  moves := .quiet (List.forall_mem_nil _)
  tracks := h
  others _ _ := rfl
  frame := .of_same rfl rfl rfl

variable {item : Json}

theorem advances_messageAdded (hEnds : items.ends index = .messageEnded)
    (hId : item.getStr "id" = some (items.id index)) (h : ∀ n, phase (items.block index n) = .fresh) :
    Advances items store state phase index (.message 0) (state.messageAdded settings index item)
      (Function.update phase (items.block index 0) .isOpen) := by
  have hUsed : items.Used index := by rw [ItemSequences.Used, hEnds]; exact Lane.noConfusion
  have hBlock : items.block index 0 = .text (items.id index) := items.block_message hEnds 0
  have hPhase {n : Nat} (hN : n ≠ 0) : Function.update phase (items.block index 0) .isOpen (items.block index n) = .fresh := by
    rw [Function.update_of_ne fun hSame => hN (items.block_inj hUsed hSame)]
    exact h n
  rw [messageAdded, Json.strOrEmpty_of_getStr hId]
  exact {
    moves := .one (by rw [hBlock]; rfl) (by rw [h 0]; rfl)
    tracks := {
      ends := hEnds
      place := Function.update_self ..
      table := Function.update_self ..
      spoken := Function.update_self ..
      others := fun n hN => by rw [hPhase hN]; exact Phase.noConfusion
      later := fun n hN => hPhase (Nat.ne_of_gt hN) }
    others := fun block hBlock => Function.update_of_ne (hBlock 0) ..
    frame := {
      places := fun j hJ => Function.update_of_ne hJ ..
      texts := fun j hJ hOther => Function.update_of_ne (items.messages j index hOther hEnds hJ).1 ..
      reasonings := fun _ _ _ _ => rfl } }

section

variable (hEvent : Placed kind index chunk) (h : TracksMessage items state phase index current)

include hEvent h

theorem advances_contentPartAdded :
    ∃ after, Advances items store state phase index (.message (nextContent current chunk))
      (state.contentPartAdded settings chunk) after := by
  have hUsed : items.Used index := by rw [ItemSequences.Used, h.ends]; exact Lane.noConfusion
  rw [contentPartAdded, hEvent.resolve h.place, h.table]
  dsimp only
  by_cases hNext : (chunk.member "part").getStr "type" = some "output_text" ∧ current < contentIndex chunk
  · rw [if_pos hNext, nextContent, if_pos hNext]
    have hOld : Block.text (blockName (items.id index) current) = items.block index current :=
      (items.block_message h.ends current).symm
    have hNew : Block.text (summaryId (items.id index) (contentIndex chunk)) = items.block index (contentIndex chunk) := by
      rw [items.block_message h.ends, blockName, if_neg (by omega)]
    have hNe : items.block index (contentIndex chunk) ≠ items.block index current :=
      fun hSame => absurd (items.block_inj hUsed hSame) (by omega)
    refine ⟨Function.update (Function.update phase (items.block index current) .ended)
      (items.block index (contentIndex chunk)) .isOpen, ?_, ?_, ?_, ?_⟩
    · have hStop : Moves blockMark phase [.textEnd (blockName (items.id index) current) none]
          (Function.update phase (items.block index current) .ended) :=
        .one (by rw [blockMark, hOld]) (by rw [h.spoken]; rfl)
      refine hStop.append (.one (by rw [blockMark, hNew]) ?_)
      rw [Function.update_of_ne hNe, h.later _ hNext.2]
      rfl
    · have hOther {n : Nat} (hN : n ≠ contentIndex chunk) : items.block index n ≠ items.block index (contentIndex chunk) :=
        fun hSame => hN (items.block_inj hUsed hSame)
      exact {
        ends := h.ends
        place := h.place
        table := by
          have hName : blockName (items.id index) (contentIndex chunk) = summaryId (items.id index) (contentIndex chunk) :=
            if_neg (by omega)
          rw [hName]
          exact Function.update_self ..
        spoken := Function.update_self ..
        others := fun n hN => by
          rw [Function.update_of_ne (hOther hN)]
          by_cases hIs : n = current
          · rw [hIs, Function.update_self]
            exact Phase.noConfusion
          · rw [Function.update_of_ne fun hSame => hIs (items.block_inj hUsed hSame)]
            exact h.others n hIs
        later := fun n hN => by
          rw [Function.update_of_ne (hOther (Nat.ne_of_gt hN)),
            Function.update_of_ne fun hSame => absurd (items.block_inj hUsed hSame) (by omega)]
          exact h.later n (hNext.2.trans hN) }
    · intro block hBlock
      rw [Function.update_of_ne (hBlock _), Function.update_of_ne (hBlock _)]
    · exact {
        places := fun _ _ => rfl
        texts := fun j hJ hOther => Function.update_of_ne (items.messages j index hOther h.ends hJ).1 ..
        reasonings := fun _ _ _ _ => rfl }
  · rw [if_neg hNext, nextContent, if_neg hNext]
    exact ⟨phase, .silent h⟩

theorem advances_refusalDelta :
    Advances items store state phase index (.message current) (state.refusalDelta chunk) phase := by
  rw [refusalDelta, hEvent.resolve h.place]
  split
  · exact .silent h
  · refine h.speak ?_ ?_ ?_ _ _ <;> rfl

theorem advances_refusalDone :
    Advances items store state phase index (.message current) (state.refusalDone chunk) phase := by
  rw [refusalDone, hEvent.resolve h.place]
  split
  · exact .silent h
  · split
    · exact .silent h
    · exact h.speak rfl rfl rfl _ _

end

theorem advances_messageDone (h : TracksMessage items state phase index current) :
    Advances items store state phase index .messageEnded (state.messageDone settings index item)
      (Function.update phase (items.block index current) .ended) := by
  have hUsed : items.Used index := by rw [ItemSequences.Used, h.ends]; exact Lane.noConfusion
  have hBlock : Block.text (state.textBlockId (items.id index)) = items.block index current := by
    rw [items.block_message h.ends, textBlockId, h.table]
    rfl
  rw [messageDone, h.place, Option.getD_some]
  exact {
    moves := .one (by rw [blockMark, hBlock]) (by rw [h.spoken]; rfl)
    tracks := fun n => by
      by_cases hIs : n = current
      · rw [hIs, Function.update_self]
        exact Phase.noConfusion
      · rw [Function.update_of_ne fun hSame => hIs (items.block_inj hUsed hSame)]
        exact h.others n hIs
    others := fun block hOther => Function.update_of_ne (hOther current) ..
    frame := {
      places := fun j hJ => Function.update_of_ne hJ ..
      texts := fun j hJ hOther => Function.update_of_ne (items.messages j index hOther h.ends hJ).1 ..
      reasonings := fun _ _ _ _ => rfl } }

/-! ### Reasonings -/

theorem Summary.phase_eq_isOpen {n : Nat} :
    parts.phase store n = .isOpen ↔ n ∈ parts.leftOpen store := by
  rw [Summary.phase]
  split
  · rename_i hOpen
    exact ⟨fun _ => hOpen, fun _ => rfl⟩
  · rename_i hOpen
    refine ⟨fun h => ?_, fun h => absurd h hOpen⟩
    split at h <;> cases h

theorem TracksReasoning.block (h : TracksReasoning items store state phase index parts) (n : Nat) :
    Block.reasoning (summaryId (items.id index) n) = items.block index n := by
  obtain ⟨last, hEnds⟩ := h.ends
  exact (items.block_reasoning hEnds n).symm

theorem TracksReasoning.used (h : TracksReasoning items store state phase index parts) :
    items.Used index := by
  obtain ⟨last, hEnds⟩ := h.ends
  rw [ItemSequences.Used, hEnds]
  exact Lane.noConfusion

theorem advances_reasoningAdded {last : Summary}
    (hEnds : items.ends index = .reasoningEnded last) (hId : item.getStr "id" = some (items.id index))
    (h : ∀ n, phase (items.block index n) = .fresh) :
    Advances items store state phase index (.reasoning ⟨[], 0, false⟩) (state.reasoningAdded settings index item)
      (Function.update phase (items.block index 0) .isOpen) := by
  have hUsed : items.Used index := by rw [ItemSequences.Used, hEnds]; exact Lane.noConfusion
  have hBlock : items.block index 0 = .reasoning (summaryId (items.id index) 0) := items.block_reasoning hEnds 0
  rw [reasoningAdded, Json.strOrEmpty_of_getStr hId]
  exact {
    moves := .one (by rw [hBlock]; rfl) (by rw [h 0]; rfl)
    tracks := {
      ends := ⟨last, hEnds⟩
      place := Function.update_self ..
      table := ⟨_, Function.update_self ..⟩
      ascends := List.pairwise_singleton _ _
      phases := fun n => by
        by_cases hN : n = 0
        · subst hN
          rw [Function.update_self]
          cases store <;> rfl
        · rw [Function.update_of_ne fun hSame => hN (items.block_inj hUsed hSame), h n]
          cases store <;> simp [Summary.phase, Summary.leftOpen, Summary.indices, hN] }
    others := fun block hOther => Function.update_of_ne (hOther 0) ..
    frame := {
      places := fun j hJ => Function.update_of_ne hJ ..
      texts := fun _ _ _ => rfl
      reasonings := fun j hJ other hOther =>
        Function.update_of_ne (items.reasonings j index other last hOther hEnds hJ) .. } }

theorem Summary.mem_leftOpen {n : Nat} :
    n ∈ parts.leftOpen store ↔ (n, false) ∈ parts.earlier ∨ (n = parts.current ∧ (store && parts.isDone) = false) := by
  rw [Summary.leftOpen, List.mem_append]
  refine or_congr ?_ ?_
  · simp
  · cases store && parts.isDone <;> simp

theorem Summary.mem_indices {n : Nat} :
    n ∈ parts.indices ↔ (∃ isDone, (n, isDone) ∈ parts.earlier) ∨ n = parts.current := by
  simp [Summary.indices]

/-- Only the part that is added starts, and only the one before it ends. -/
theorem Summary.phase_next (hAscends : parts.Ascends) (n : Nat) :
    (parts.next index).phase store n =
      if n = index then .isOpen
      else if n = parts.current ∧ (parts.isDone && !store) = true then .ended
      else parts.phase store n := by
  have hOpen : n ∈ (parts.next index).leftOpen store ↔
      (n, false) ∈ parts.earlier ∨ (n = parts.current ∧ parts.isDone = false) ∨ n = index := by
    rw [Summary.mem_leftOpen, Summary.next]
    simp [or_assoc]
  have hIndices : n ∈ (parts.next index).indices ↔ n ∈ parts.indices ∨ n = index := by
    rw [Summary.mem_indices, Summary.mem_indices, Summary.next]
    simp [exists_or]
  rw [Summary.phase, Summary.phase, if_congr hOpen rfl rfl, if_congr hIndices rfl rfl,
    if_congr Summary.mem_leftOpen rfl rfl]
  by_cases hIndex : n = index
  · rw [if_pos (.inr (.inr hIndex)), if_pos hIndex]
  · by_cases hCurrent : n = parts.current
    · have hNew : (parts.current, false) ∉ parts.earlier := fun hMem => Nat.lt_irrefl _ (hAscends.lt_current hMem)
      have hIs : parts.current ∈ parts.indices := Summary.mem_indices.mpr (.inr rfl)
      subst hCurrent
      cases parts.isDone <;> cases store <;> simp [hIndex, hNew, hIs]
    · simp [hIndex, hCurrent]

/-- The parts whose end was put off, and the part that is added. -/
theorem advances_summaryPartAdded (hEvent : Placed kind index chunk) (hNext : parts.current < summaryIndex chunk)
    (h : TracksReasoning items settings.storeFlag state phase index parts) :
    ∃ after, Advances items settings.storeFlag state phase index (.reasoning (parts.next (summaryIndex chunk)))
      (state.summaryPartAdded settings chunk) after := by
  obtain ⟨encrypted, hTable⟩ := h.table
  have hHandled : state.summaryPartAdded settings chunk =
      ({ state with activeReasoning := Function.update state.activeReasoning (items.id index) (some {
          encryptedContent := encrypted
          summaryParts := (parts.next (summaryIndex chunk)).statuses settings.storeFlag }) },
        (if parts.isDone && !settings.storeFlag then [parts.current] else []).map
            (earlyReasoningEnd settings (items.id index)) ++
          [StreamPart.reasoningStart (summaryId (items.id index) (summaryIndex chunk))
            (some (providerNamespace settings.providerKey
              (reasoningStreamMetadata (items.id index) encrypted)))]) := by
    rw [summaryPartAdded, hEvent.resolve h.place, hTable]
    dsimp only
    rw [if_neg (Nat.ne_of_gt (Nat.zero_lt_of_lt hNext)), toConclude_eq, statuses_next settings h.ascends hNext]
  have hStopped : ∀ n ∈ (if parts.isDone && !settings.storeFlag then [parts.current] else []),
      phase (items.block index n) = .isOpen := by
    intro n hN
    rw [h.phases, Summary.phase_eq_isOpen, Summary.mem_leftOpen]
    split at hN
    · rename_i hDone
      rw [List.mem_singleton.mp hN]
      exact .inr ⟨rfl, by rw [Bool.and_eq_true, Bool.not_eq_true'] at hDone; rw [hDone.2]; rfl⟩
    · cases hN
  have hNames : ((if parts.isDone && !settings.storeFlag then [parts.current] else []).map (items.block index)).Nodup := by
    split
    · exact List.nodup_singleton _
    · exact List.nodup_nil
  have hStop : Moves blockMark phase ((if parts.isDone && !settings.storeFlag then [parts.current] else []).map
      (earlyReasoningEnd settings (items.id index))) _ :=
    .stopAll (fun n => by rw [← h.block n]; rfl) hNames hStopped
  have hNew : items.block index (summaryIndex chunk) ∉
      (if parts.isDone && !settings.storeFlag then [parts.current] else []).map (items.block index) := by
    intro hMem
    obtain ⟨n, hN, hSame⟩ := List.mem_map.mp hMem
    split at hN
    · rw [List.mem_singleton.mp hN] at hSame
      exact Nat.ne_of_lt hNext (items.block_inj h.used hSame)
    · cases hN
  have hFresh : parts.phase settings.storeFlag (summaryIndex chunk) = .fresh := by
    have hLate : summaryIndex chunk ∉ parts.indices := by
      rw [Summary.mem_indices]
      rintro (⟨isDone, hMem⟩ | hSame)
      · exact absurd (h.ascends.lt_current hMem) (by dsimp only; omega)
      · omega
    rw [Summary.phase, if_neg (fun hOpen => hLate (Summary.leftOpen_sublist.subset hOpen)), if_neg hLate]
  rw [hHandled]
  refine ⟨_, hStop.append (.one (by rw [blockMark, h.block]) (by rw [if_neg hNew, h.phases, hFresh]; rfl)), ?_, ?_, ?_⟩
  · exact {
      ends := h.ends
      place := h.place
      table := ⟨encrypted, Function.update_self ..⟩
      ascends := h.ascends.next hNext
      phases := fun n => by
        rw [Summary.phase_next h.ascends]
        by_cases hIndex : n = summaryIndex chunk
        · rw [if_pos hIndex, hIndex, Function.update_self]
        · rw [if_neg hIndex, Function.update_of_ne fun hSame => hIndex (items.block_inj h.used hSame), ← h.phases]
          refine if_congr ?_ rfl rfl
          split
          · rename_i hDone
            rw [List.map_singleton, List.mem_singleton]
            exact ⟨fun hSame => ⟨items.block_inj h.used hSame, hDone⟩, fun hSame => hSame.1 ▸ rfl⟩
          · rename_i hDone
            exact ⟨fun hNone => absurd hNone List.not_mem_nil, fun hSame => absurd hSame.2 hDone⟩ }
  · intro block hOther
    rw [Function.update_of_ne (hOther _), if_neg]
    intro hMem
    obtain ⟨n, -, hSame⟩ := List.mem_map.mp hMem
    exact hOther n hSame.symm
  · obtain ⟨last, hEnds⟩ := h.ends
    exact {
      places := fun _ _ => rfl
      texts := fun _ _ _ => rfl
      reasonings := fun j hJ other hOther =>
        Function.update_of_ne (items.reasonings j index other last hOther hEnds hJ) .. }

/-- The first part was started with its item. -/
theorem advances_firstPartAdded
    (hFirst : summaryIndex chunk = 0) (h : TracksReasoning items store state phase index parts) :
    Advances items store state phase index (.reasoning parts) (state.summaryPartAdded settings chunk) phase := by
  rw [summaryPartAdded]
  dsimp only
  split
  · exact .silent h
  · rw [if_pos hFirst]
    exact .silent h

variable {earlier : List (Nat × Bool)}

theorem Summary.phase_current : (Summary.mk earlier current false).phase store current = .isOpen := by
  rw [Summary.phase_eq_isOpen, Summary.mem_leftOpen]
  exact .inr ⟨rfl, Bool.and_false store⟩

theorem advances_summaryTextDelta (hEvent : Placed kind index chunk) (hIndex : summaryIndex chunk = current)
    (h : TracksReasoning items store state phase index ⟨earlier, current, false⟩) :
    Advances items store state phase index (.reasoning ⟨earlier, current, false⟩)
      (state.summaryTextDelta settings chunk) phase := by
  have hOpen : phase (items.block index current) = .isOpen := (h.phases current).trans Summary.phase_current
  rw [summaryTextDelta, hEvent.resolve h.place, hIndex]
  have hMoves : Moves blockMark phase [.reasoningDelta (summaryId (items.id index) current) (chunk.strOrEmpty "delta")
      (some (providerNamespace settings.providerKey [("itemId", .string (items.id index))]))]
      (Function.update phase (items.block index current) .isOpen) :=
    .one (by rw [blockMark, h.block]) (by rw [hOpen]; rfl)
  rw [← hOpen, Function.update_eq_self] at hMoves
  exact {
    moves := hMoves
    tracks := h
    others := fun _ _ => rfl
    frame := .of_same rfl rfl rfl }

theorem Summary.phase_done (hAscends : (Summary.mk earlier current false).Ascends) (n : Nat) :
    (Summary.mk earlier current true).phase store n =
      if n = current ∧ store = true then .ended else (Summary.mk earlier current false).phase store n := by
  have hNew : (current, false) ∉ earlier := fun hMem => Nat.lt_irrefl _ (hAscends.lt_current hMem)
  rw [Summary.phase, Summary.phase, if_congr Summary.mem_leftOpen rfl rfl, if_congr Summary.mem_leftOpen rfl rfl,
    if_congr Summary.mem_indices rfl rfl, if_congr Summary.mem_indices rfl rfl]
  by_cases hCurrent : n = current
  · subst hCurrent
    cases store <;> simp [hNew]
  · simp [hCurrent]

theorem advances_summaryPartDone (hEvent : Placed kind index chunk) (hIndex : summaryIndex chunk = current)
    (h : TracksReasoning items settings.storeFlag state phase index ⟨earlier, current, false⟩) :
    ∃ after, Advances items settings.storeFlag state phase index (.reasoning ⟨earlier, current, true⟩)
      (state.summaryPartDone settings chunk) after := by
  obtain ⟨encrypted, hTable⟩ := h.table
  have hOpen : phase (items.block index current) = .isOpen := (h.phases current).trans Summary.phase_current
  have hOld : current ∉ (earlier.map fun part =>
      (part.1, if part.2 then SummaryStatus.concluded else .active)).map (·.1) := by
    rw [List.map_map]
    intro hMem
    obtain ⟨part, hPart, hSame⟩ := List.mem_map.mp hMem
    exact Nat.lt_irrefl _ (hSame ▸ h.ascends.lt_current hPart)
  have hStatus (status : SummaryStatus) : setStatus ((Summary.mk earlier current false).statuses settings.storeFlag)
      current status = (earlier.map fun part => (part.1, if part.2 then SummaryStatus.concluded else .active)) ++
        [(current, status)] := setStatus_last hOld _ status
  have hFrame (table : Option ReasoningState) : Frame items index state { state with
      activeReasoning := Function.update state.activeReasoning (items.id index) table } := by
    obtain ⟨last, hEnds⟩ := h.ends
    exact {
      places := fun _ _ => rfl
      texts := fun _ _ _ => rfl
      reasonings := fun j hJ other hOther =>
        Function.update_of_ne (items.reasonings j index other last hOther hEnds hJ) .. }
  rw [summaryPartDone, hEvent.resolve h.place, hIndex, hTable]
  dsimp only
  cases hStore : settings.storeFlag with
  | true =>
    rw [if_pos rfl]
    refine ⟨Function.update phase (items.block index current) .ended, ?_, ?_, ?_, hFrame _⟩
    · exact .one (by rw [← h.block]; rfl) (by rw [hOpen]; rfl)
    · exact {
        ends := h.ends
        place := h.place
        table := ⟨encrypted, by rw [hStore] at hStatus; rw [hStatus]; exact Function.update_self ..⟩
        ascends := h.ascends
        phases := fun n => by
          rw [Summary.phase_done h.ascends]
          by_cases hN : n = current
          · rw [if_pos ⟨hN, rfl⟩, hN, Function.update_self]
          · rw [if_neg fun hSame => hN hSame.1, Function.update_of_ne fun hSame => hN (items.block_inj h.used hSame),
              h.phases, hStore] }
    · exact fun block hOther => Function.update_of_ne (hOther current) ..
  | false =>
    rw [if_neg Bool.false_ne_true]
    refine ⟨phase, .quiet (List.forall_mem_nil _), ?_, fun _ _ => rfl, hFrame _⟩
    exact {
      ends := h.ends
      place := h.place
      table := ⟨encrypted, by rw [hStore] at hStatus; rw [hStatus]; exact Function.update_self ..⟩
      ascends := h.ascends
      phases := fun n => by rw [Summary.phase_done h.ascends, if_neg fun hBoth => Bool.noConfusion hBoth.2, h.phases, hStore] }

/-- The parts that are still open are ended, in the order of the table. -/
theorem advances_reasoningDone (h : TracksReasoning items settings.storeFlag state phase index parts) :
    ∃ after, Advances items settings.storeFlag state phase index (.reasoningEnded parts)
      (state.reasoningDone settings index item) after := by
  obtain ⟨encrypted, hTable⟩ := h.table
  have hPerm := leftOpen_perm settings (items.id index) parts
  have hStopped : ∀ n ∈ partsWith settings (items.id index) (parts.statuses settings.storeFlag) (· ≠ .concluded),
      phase (items.block index n) = .isOpen := by
    intro n hN
    rw [h.phases, Summary.phase_eq_isOpen]
    exact hPerm.mem_iff.mp hN
  have hNames : ((partsWith settings (items.id index) (parts.statuses settings.storeFlag) (· ≠ .concluded)).map
      (items.block index)).Nodup := by
    refine (hPerm.nodup_iff.mpr (Summary.leftOpen_sublist.nodup ?_)).map fun m n hSame => items.block_inj h.used hSame
    exact h.ascends.imp Nat.ne_of_lt
  rw [reasoningDone, h.place, Option.getD_some, hTable]
  dsimp only
  refine ⟨_, .stopAll (fun n => by rw [← h.block]; rfl) hNames hStopped, fun n => ?_, fun block hOther => ?_, ?_⟩
  · split
    · exact Phase.noConfusion
    · rename_i hNone
      rw [h.phases]
      intro hOpen
      exact hNone (List.mem_map_of_mem (hPerm.mem_iff.mpr (Summary.phase_eq_isOpen.mp hOpen)))
  · rw [if_neg]
    intro hMem
    obtain ⟨n, -, hSame⟩ := List.mem_map.mp hMem
    exact hOther n hSame.symm
  · obtain ⟨last, hEnds⟩ := h.ends
    exact {
      places := fun j hJ => Function.update_of_ne hJ ..
      texts := fun _ _ _ => rfl
      reasonings := fun j hJ other hOther =>
        Function.update_of_ne (items.reasonings j index other last hOther hEnds hJ) .. }

/-! ### Events -/

theorem Advances.raw {settings : ResponsesSettings} (h : Advances items store state phase index lane handled after) :
    Advances items store state phase index lane (handled.1, rawParts settings chunk ++ handled.2) after where
  moves := (Moves.quiet fun _ hPart => blockMark_of_raw hPart).append h.moves
  tracks := h.tracks
  others := h.others
  frame := h.frame

/-- An event that is placed advances its item when its handler does. -/
theorem Placed.advances {settings : ResponsesSettings} (hEvent : Placed kind index chunk)
    (h : ∃ after, Advances items store state phase index lane (state.handle settings chunk kind) after) :
    ∃ after, Advances items store state phase index lane (state.transform settings (.ok chunk)) after := by
  obtain ⟨after, hAdvances⟩ := h
  rw [transform_eq settings state hEvent.kind hEvent.valid]
  exact ⟨after, hAdvances.raw⟩

theorem handle_messageAdded (hEvent : PlacedItem "response.output_item.added" "message" index item chunk) :
    state.handle settings chunk "response.output_item.added" = state.messageAdded settings index item := by
  show state.outputItemAdded settings chunk = _
  rw [outputItemAdded, hEvent.found]
  dsimp only
  rw [Json.strOrEmpty_of_getStr hEvent.typed, hEvent.outputIndex]
  rfl

theorem handle_reasoningAdded (hEvent : PlacedItem "response.output_item.added" "reasoning" index item chunk) :
    state.handle settings chunk "response.output_item.added" = state.reasoningAdded settings index item := by
  show state.outputItemAdded settings chunk = _
  rw [outputItemAdded, hEvent.found]
  dsimp only
  rw [Json.strOrEmpty_of_getStr hEvent.typed, hEvent.outputIndex]
  rfl

theorem handle_messageDone (hEvent : PlacedItem "response.output_item.done" "message" index item chunk) :
    state.handle settings chunk "response.output_item.done" = state.messageDone settings index item := by
  show state.outputItemDone settings chunk = _
  rw [outputItemDone, hEvent.found]
  dsimp only
  rw [Json.strOrEmpty_of_getStr hEvent.typed, hEvent.outputIndex]
  rfl

theorem handle_reasoningDone (hEvent : PlacedItem "response.output_item.done" "reasoning" index item chunk) :
    state.handle settings chunk "response.output_item.done" = state.reasoningDone settings index item := by
  show state.outputItemDone settings chunk = _
  rw [outputItemDone, hEvent.found]
  dsimp only
  rw [Json.strOrEmpty_of_getStr hEvent.typed, hEvent.outputIndex]
  rfl

/-- Every event of an item brings it on. -/
theorem advances_step {next : Lane} {rest : List (Except AiMuxError Json)}
    (hStep : lane.Step (items.id index) index chunk next)
    (hRest : next.Trace (items.id index) index rest (items.ends index))
    (h : Tracks items settings.storeFlag state phase index lane) :
    ∃ after, Advances items settings.storeFlag state phase index next (state.transform settings (.ok chunk)) after := by
  cases hStep with
  | messageAdded hEvent hId =>
    refine hEvent.advances ?_
    rw [handle_messageAdded settings hEvent]
    exact ⟨_, advances_messageAdded settings (hRest.ends_message (items.closed index)) hId h⟩
  | contentPartAdded hEvent => exact hEvent.advances (advances_contentPartAdded settings hEvent h)
  | textDelta hEvent =>
    refine hEvent.advances ⟨phase, ?_⟩
    show Advances _ _ _ _ _ _ (state.outputTextDelta settings _) _
    rw [outputTextDelta, hEvent.resolve h.place]
    refine TracksMessage.speak h ?_ ?_ ?_ _ _ <;> rfl
  | refusalDelta hEvent => exact hEvent.advances ⟨_, advances_refusalDelta hEvent h⟩
  | refusalDone hEvent => exact hEvent.advances ⟨_, advances_refusalDone hEvent h⟩
  | messageDone hEvent =>
    refine hEvent.advances ?_
    rw [handle_messageDone settings hEvent]
    exact ⟨_, advances_messageDone settings h⟩
  | reasoningAdded hEvent hId =>
    obtain ⟨last, hEnds⟩ := hRest.ends_reasoning (items.closed index)
    refine hEvent.advances ?_
    rw [handle_reasoningAdded settings hEvent]
    exact ⟨_, advances_reasoningAdded settings hEnds hId h⟩
  | firstPartAdded hEvent hFirst => exact hEvent.advances ⟨_, advances_firstPartAdded settings hFirst h⟩
  | nextPartAdded hEvent hNext => exact hEvent.advances (advances_summaryPartAdded settings hEvent hNext h)
  | summaryDelta hEvent hIndex => exact hEvent.advances ⟨_, advances_summaryTextDelta settings hEvent hIndex h⟩
  | summaryPartDone hEvent hIndex => exact hEvent.advances (advances_summaryPartDone settings hEvent hIndex h)
  | reasoningDone hEvent =>
    refine hEvent.advances ?_
    rw [handle_reasoningDone settings hEvent]
    exact advances_reasoningDone settings h

end

end Aimux.Responses
