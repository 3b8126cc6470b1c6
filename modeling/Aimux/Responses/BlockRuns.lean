import Aimux.Responses.Blocks

/-! # Blocks of whole streams

What one event does to the blocks, from the first event to the last.
-/

namespace Aimux.Responses

open Aimux.Core Aimux.Provider OpenAIResponsesStream
open Aimux.Lib (Transducer)
open Aimux.Lib.Span (Mark Phase Moves Whole whole_of_moves)

section

variable {events : List (Except AiMuxError Json)} (items : ItemSequences events)

/-- What is so of the items before the events that are left. -/
structure Tracked (store : Bool) (rest : List (Except AiMuxError Json)) (state : OpenAIResponsesStream)
    (lane : Nat → Lane) (phase : Block → Phase) : Prop where
  lanes : ∀ index, (lane index).Trace (items.id index) index (rest.filter (isItemEventAt index)) (items.ends index)
  tracks : ∀ index, items.Used index → Tracks items store state phase index (lane index)
  idle : ∀ block, (∀ index, items.Used index → ∀ n, block ≠ items.block index n) → phase block = .fresh

theorem tracked_start (store : Bool) : Tracked items store events {} (fun _ => .absent) fun _ => .fresh where
  lanes := items.lanes
  tracks _ _ _ := rfl
  idle _ _ := rfl

end

variable {index : Nat} {id : String} {last : Lane} {rest : List (Except AiMuxError Json)} {lane : Lane}

theorem Lane.Trace.ne_absent (h : lane.Trace id index rest last) (hLane : lane ≠ .absent) : last ≠ .absent := by
  induction h with
  | nil => exact hLane
  | cons hStep _ ih => exact ih (by cases hStep <;> exact Lane.noConfusion)

theorem Lane.Trace.used {event : Except AiMuxError Json}
    (h : lane.Trace id index (event :: rest) last) : last ≠ .absent := by
  cases h with
  | cons hStep hRest => exact hRest.ne_absent (by cases hStep <;> exact Lane.noConfusion)

section

variable {settings : ResponsesSettings} {events rest : List (Except AiMuxError Json)} {items : ItemSequences events}
  {state : OpenAIResponsesStream} {lane : Nat → Lane} {phase : Block → Phase}

theorem Tracked.step {event : Except AiMuxError Json} (hEvent : event ∈ events)
    (h : Tracked items settings.storeFlag (event :: rest) state lane phase) :
    ∃ lane' phase', Tracked items settings.storeFlag rest (state.transform settings event).1 lane' phase' ∧
      Moves blockMark phase (state.transform settings event).2 phase' := by
  have hFilter {j : Nat} (hNot : isItemEventAt j event = false) :
      (event :: rest).filter (isItemEventAt j) = rest.filter (isItemEventAt j) :=
    List.filter_cons_of_neg (by rw [hNot]; exact Bool.false_ne_true)
  cases hItem : isItemEvent event with
  | false =>
    have hOff : Off state (state.transform settings event) := off_transform hItem
    refine ⟨lane, phase, ⟨fun j => ?_, fun j hUsed => (h.tracks j hUsed).off hOff, h.idle⟩, .quiet hOff.parts⟩
    rw [← hFilter (by rw [isItemEventAt, hItem, Bool.false_and])]
    exact h.lanes j
  | true =>
    obtain ⟨index, hPlace⟩ := items.placed event hEvent hItem
    have hAt : isItemEventAt index event = true := by
      rw [isItemEventAt, hItem, Bool.true_and]
      exact decide_eq_true hPlace
    have hLane := h.lanes index
    rw [List.filter_cons_of_pos hAt] at hLane
    have hIndex : items.Used index := hLane.used
    generalize hFirst : lane index = first at hLane
    cases hLane with
    | @cons _ next _ chunk _ hStep hRest =>
      obtain ⟨after, hAdvances⟩ := advances_step settings hStep hRest (hFirst ▸ h.tracks index hIndex)
      refine ⟨Function.update lane index next, after, ⟨fun j => ?_, fun j hUsed => ?_, fun block hBlock => ?_⟩,
        hAdvances.moves⟩
      · by_cases hJ : j = index
        · subst hJ
          rw [Function.update_self]
          exact hRest
        · rw [Function.update_of_ne hJ, ← hFilter]
          · exact h.lanes j
          · rw [isItemEventAt, hItem, Bool.true_and, decide_eq_false_iff_not, hPlace]
            exact fun hSame => hJ (Option.some.inj hSame).symm
      · by_cases hJ : j = index
        · subst hJ
          rw [Function.update_self]
          exact hAdvances.tracks
        · rw [Function.update_of_ne hJ]
          exact (h.tracks j hUsed).other hUsed hIndex hJ hAdvances.others hAdvances.frame
      · rw [hAdvances.others block (hBlock index hIndex)]
        exact h.idle block hBlock

variable {before : List (Except AiMuxError Json)}

theorem Tracked.run (hMem : ∀ event ∈ before, event ∈ events)
    (h : Tracked items settings.storeFlag (before ++ rest) state lane phase) :
    ∃ lane' phase', Tracked items settings.storeFlag rest (run settings state before).1 lane' phase' ∧
      Moves blockMark phase (Responses.run settings state before).2 phase' := by
  induction before generalizing state lane phase with
  | nil => exact ⟨lane, phase, h, .quiet fun _ hNone => nomatch hNone⟩
  | cons event before ih =>
    obtain ⟨hEvent, hBefore⟩ := List.forall_mem_cons.mp hMem
    obtain ⟨lane', phase', hStep, hMoves⟩ := h.step hEvent
    obtain ⟨last, end', hLast, hRest⟩ := ih hBefore hStep
    exact ⟨last, end', hLast, hMoves.append hRest⟩

/-- What is so before an event of a stream. -/
theorem tracked_before (settings : ResponsesSettings) (items : ItemSequences events)
    (hEvents : events = before ++ rest) :
    ∃ lane phase, Tracked items settings.storeFlag rest (run settings {} before).1 lane phase ∧
      Moves blockMark (fun _ => .fresh) (run settings {} before).2 phase := by
  have hStart : Tracked items settings.storeFlag (before ++ rest) {} (fun _ => .absent) fun _ => .fresh :=
    hEvents ▸ tracked_start items settings.storeFlag
  exact hStart.run fun event hEvent => hEvents ▸ List.mem_append_left rest hEvent

/-- At the end no block is open. -/
theorem Tracked.closed (h : Tracked items settings.storeFlag [] state lane phase) (block : Block) :
    phase block ≠ .isOpen := by
  by_cases hOwned : ∃ index, items.Used index ∧ ∃ n, block = items.block index n
  · obtain ⟨index, hUsed, n, rfl⟩ := hOwned
    have hTracks := h.tracks index hUsed
    have hLane : lane index = items.ends index := by
      have hTrace := h.lanes index
      rw [List.filter_nil] at hTrace
      generalize lane index = first at hTrace
      generalize items.ends index = last at hTrace
      cases hTrace
      rfl
    rw [hLane] at hTracks
    rcases items.used_cases hUsed with hMessage | ⟨parts, hReasoning⟩
    · rw [hMessage] at hTracks
      exact hTracks n
    · rw [hReasoning] at hTracks
      exact hTracks n
  · rw [h.idle block fun index hUsed n hSame => hOwned ⟨index, hUsed, n, hSame⟩]
    exact Phase.noConfusion

end

/-! ## The end of a reasoning -/

variable {parts : Summary}

theorem Lane.Trace.ended (h : (Lane.reasoningEnded parts).Trace id index rest last) :
    last = .reasoningEnded parts := by
  cases h with
  | nil => rfl
  | cons hStep => cases hStep

variable (settings : ResponsesSettings)

/-- What a reasoning that is done emits. -/
theorem closing_parts {events before after : List (Except AiMuxError Json)} (items : ItemSequences events)
    {item chunk : Json} (hEvents : events = before ++ .ok chunk :: after)
    (hDone : PlacedItem "response.output_item.done" "reasoning" index item chunk) :
    ∃ parts metadata, items.ends index = .reasoningEnded parts ∧ parts.Ascends ∧
      ((run settings {} before).1.transform settings (.ok chunk)).2 = rawParts settings chunk ++
        (partsWith settings (items.id index) (parts.statuses settings.storeFlag) (· ≠ .concluded)).map
          fun n => StreamPart.reasoningEnd (summaryId (items.id index) n) metadata := by
  obtain ⟨lane, phase, hTracked, -⟩ := tracked_before settings items hEvents
  have hAt : isItemEventAt index (.ok chunk) = true := by
    have hMember : chunk.member "item" = item := by rw [Json.member, hDone.found, Option.getD_some]
    rw [isItemEventAt, isItemEvent, Json.strOrEmpty_of_getStr hDone.kind, hMember, Json.strOrEmpty_of_getStr hDone.typed,
      placeOf, hDone.place]
    simp [ITEM_KINDS]
  have hLane := hTracked.lanes index
  rw [List.filter_cons_of_pos hAt] at hLane
  have hTracks := hTracked.tracks index hLane.used
  have hOther {kind : String} (hKind : chunk.getStr "type" = some kind) : kind = "response.output_item.done" :=
    Option.some.inj (hKind.symm.trans hDone.kind)
  generalize hFirst : lane index = first at hLane hTracks
  generalize hLast : items.ends index = last at hLane
  cases hLane with
  | cons hStep hRest =>
    cases hStep with
    | @reasoningDone parts _ _ hEvent =>
      obtain ⟨encrypted, hTable⟩ := hTracks.table
      refine ⟨parts, some (providerNamespace settings.providerKey (reasoningStreamMetadata (items.id index)
        (item.getStr "encrypted_content"))), hRest.ended, hTracks.ascends, ?_⟩
      rw [transform_eq settings _ hDone.kind hDone.valid, handle_reasoningDone settings hDone, reasoningDone,
        hTracks.place, Option.getD_some, hTable]
    | messageDone hEvent =>
      have hSame := Option.some.inj (hEvent.found.symm.trans hDone.found)
      have hTyped := hEvent.typed
      rw [hSame, hDone.typed] at hTyped
      exact absurd hTyped (by decide)
    | messageAdded hEvent | contentPartAdded hEvent | textDelta hEvent | refusalDelta hEvent
    | refusalDone hEvent | reasoningAdded hEvent | firstPartAdded hEvent | nextPartAdded hEvent
    | summaryDelta hEvent | summaryPartDone hEvent => exact absurd (hOther hEvent.kind) (by decide)

/-- A reasoning that ended did so with an event. -/
theorem Lane.Trace.done_last
    (h : lane.Trace id index rest (.reasoningEnded parts)) (hLane : ∀ parts, lane ≠ .reasoningEnded parts) :
    ∃ front item chunk, rest = front ++ [Except.ok chunk] ∧
      PlacedItem "response.output_item.done" "reasoning" index item chunk := by
  generalize hEnd : Lane.reasoningEnded parts = last at h
  induction h with
  | nil => exact absurd hEnd.symm (hLane parts)
  | @cons _ next last chunk rest hStep hRest ih =>
    by_cases hNext : ∃ others, next = .reasoningEnded others
    · obtain ⟨others, rfl⟩ := hNext
      cases hStep with
      | reasoningDone hEvent =>
        cases hRest with
        | nil => exact ⟨[], _, chunk, rfl, hEvent⟩
        | cons hStep => cases hStep
    · obtain ⟨front, item, done, hFront, hDone⟩ := ih (fun others hSame => hNext ⟨others, hSame⟩) hEnd
      exact ⟨.ok chunk :: front, item, done, by rw [hFront]; rfl, hDone⟩

variable {events : List (Except AiMuxError Json)}

/-- Where in the stream it did. -/
theorem ItemSequences.done_event (items : ItemSequences events) (h : items.ends index = .reasoningEnded parts) :
    ∃ before item chunk after, events = before ++ Except.ok chunk :: after ∧
      PlacedItem "response.output_item.done" "reasoning" index item chunk := by
  obtain ⟨front, item, chunk, hFilter, hDone⟩ := (h ▸ items.lanes index).done_last fun _ => Lane.noConfusion
  obtain ⟨before, rest, rfl, -, hRest⟩ := List.filter_eq_append_iff.mp hFilter
  obtain ⟨skipped, after, rfl, -⟩ := List.filter_eq_cons_iff.mp hRest
  exact ⟨before ++ skipped, item, chunk, after, (List.append_assoc ..).symm, hDone⟩

/-! ## The stream -/

/-- The parts of the stream. -/
def emitted (settings : ResponsesSettings) (events : List (Except AiMuxError Json)) : List StreamPart :=
  ((responsesTransformer settings).pipeThrough events).filterMap fun item => match item with
    | .ok part => some part
    | .error _ => none

theorem emitted_eq (events : List (Except AiMuxError Json)) :
    ∃ last,
      emitted settings events = [StreamPart.streamStart settings.ctx.warnings] ++ (run settings {} events).2 ++ last ∧
      ∀ part ∈ last, blockMark part = none := by
  have hOk (parts : List StreamPart) : (parts.map Except.ok).filterMap (fun item : Item StreamPart => match item with
      | .ok part => some part
      | .error _ => none) = parts := by
    rw [List.filterMap_map]
    exact List.filterMap_some
  rw [emitted, pipeThrough_eq, List.filterMap_append, List.filterMap_append, hOk]
  rw [OpenAIResponsesStream.flush]
  split
  · exact ⟨[], rfl, fun _ hNone => nomatch hNone⟩
  · exact ⟨_, rfl, List.forall_mem_singleton.mpr rfl⟩

/-- The parts of a reasoning that are still open when it is done are ended in the order of their indices. -/
def ClosesInOrder (settings : ResponsesSettings) (events : List (Except AiMuxError Json)) : Prop :=
  ∀ before chunk after index item, events = before ++ Except.ok chunk :: after →
    PlacedItem "response.output_item.done" "reasoning" index item chunk →
      ∃ (id : String) (metadata : Option ProviderMetadata) (indices : List Nat), indices.Pairwise (· < ·) ∧
        ((run settings {} before).1.transform settings (.ok chunk)).2 = rawParts settings chunk ++
          indices.map fun n => StreamPart.reasoningEnd (summaryId id n) metadata

/-- The settings, with another order in which tables are iterated. -/
def ResponsesSettings.iterating (settings : ResponsesSettings) (iterate : String → SummaryParts → SummaryParts)
    (iterates : ∀ id parts, (iterate id parts).Perm parts) : ResponsesSettings :=
  { settings with iterate := iterate, iterates := iterates }

theorem whole_emitted (items : ItemSequences events) : Whole blockMark (emitted settings events) := by
  obtain ⟨lane, phase, hTracked, hMoves⟩ := tracked_before settings items (List.append_nil events).symm
  obtain ⟨last, hEmitted, hLast⟩ := emitted_eq settings events
  rw [hEmitted]
  have hStart : Moves blockMark (fun _ => .fresh) [.streamStart settings.ctx.warnings] fun _ => .fresh :=
    .quiet (List.forall_mem_singleton.mpr rfl)
  exact whole_of_moves ((hStart.append hMoves).append (.quiet hLast)) hTracked.closed

theorem ends_inj {other : String} {metadata another : Option ProviderMetadata} {as bs : List Nat}
    (h : as.map (fun n => StreamPart.reasoningEnd (summaryId id n) metadata) =
      bs.map fun n => .reasoningEnd (summaryId other n) another) : as = bs := by
  induction as generalizing bs with
  | nil => exact (List.map_eq_nil_iff.mp h.symm).symm
  | cons a as ih =>
    cases bs with
    | nil => cases h
    | cons b bs =>
      rw [List.map_cons, List.map_cons, List.cons.injEq, StreamPart.reasoningEnd.injEq] at h
      rw [(summaryId_inj h.1.1).2, ih h.2]

theorem pairwise_of_length_le_one {indices : List Nat} (h : indices.length ≤ 1) : indices.Pairwise (· < ·) := by
  match indices, h with
  | [], _ => exact .nil
  | [n], _ => exact List.pairwise_singleton _ n

/-- Whatever the order of the tables, the blocks are whole, and what is left open of a reasoning is ended in the order of
its indices: just when no reasoning ends with two parts that are open. -/
theorem blocks_in_order_iff (settings : ResponsesSettings) {events : List (Except AiMuxError Json)}
    (items : ItemSequences events) :
    (∀ iterate iterates, Whole blockMark (emitted (settings.iterating iterate iterates) events) ∧
      ClosesInOrder (settings.iterating iterate iterates) events) ↔
    ∀ index parts, items.ends index = .reasoningEnded parts → (parts.leftOpen settings.storeFlag).length ≤ 1 := by
  constructor
  · intro h index parts hEnds
    obtain ⟨before, item, chunk, after, hEvents, hDone⟩ := items.done_event hEnds
    obtain ⟨-, hCloses⟩ := h (fun _ parts => parts.reverse) fun _ parts => parts.reverse_perm
    obtain ⟨id, metadata, indices, hSorted, hParts⟩ := hCloses before chunk after index item hEvents hDone
    obtain ⟨others, another, hOthers, hAscends, hClosing⟩ := closing_parts _ items hEvents hDone
    rw [hEnds, Lane.reasoningEnded.injEq] at hOthers
    subst hOthers
    have hSame := ends_inj (List.append_cancel_left (hParts.symm.trans hClosing))
    -- The table is iterated backwards.
    have hReversed : indices = (parts.leftOpen settings.storeFlag).reverse := by
      rw [hSame, partsWith, ← Summary.leftOpen_eq, ← List.map_reverse, ← List.filter_reverse]
      rfl
    rw [hReversed, List.pairwise_reverse] at hSorted
    have hOpens : (parts.leftOpen settings.storeFlag).Sublist parts.indices := Summary.leftOpen_sublist
    have hForwards := hAscends.sublist hOpens
    cases hOpen : parts.leftOpen settings.storeFlag with
    | nil => exact Nat.zero_le 1
    | cons first rest =>
      cases rest with
      | nil => exact le_rfl
      | cons second rest =>
        rw [hOpen] at hSorted hForwards
        have hUp := (List.pairwise_cons.mp hForwards).1 second (List.mem_cons_self ..)
        have hDown := (List.pairwise_cons.mp hSorted).1 second (List.mem_cons_self ..)
        omega
  · intro h iterate iterates
    refine ⟨whole_emitted _ items, ?_⟩
    intro before chunk after index item hEvents hDone
    obtain ⟨parts, metadata, hEnds, -, hClosing⟩ :=
      closing_parts (settings.iterating iterate iterates) items hEvents hDone
    refine ⟨items.id index, metadata, _, ?_, hClosing⟩
    have hLength := (leftOpen_perm (settings.iterating iterate iterates) (items.id index) parts).length_eq
    exact pairwise_of_length_le_one (hLength.trans_le (h index parts hEnds))

def reasoningEvent (kind : String) : Json := .object [("type", .string kind), ("output_index", jsonNat 0),
  ("item", .object [("type", .string "reasoning"), ("id", .string "rs")])]

/-- A reasoning whose two parts have no done events. -/
def openParts : List (Except AiMuxError Json) := [
  .ok (reasoningEvent "response.output_item.added"),
  .ok (.object [("type", .string "response.reasoning_summary_part.added"), ("item_id", .string "rs"),
    ("output_index", jsonNat 0), ("summary_index", jsonNat 1)]),
  .ok (reasoningEvent "response.output_item.done")]

def openPartsItems : ItemSequences openParts where
  id _ := "rs"
  ends index := if index = 0 then .reasoningEnded ⟨[(0, false)], 1, false⟩ else .absent
  lanes index := by
    by_cases hIndex : index = 0
    · subst hIndex
      have hAll : openParts.filter (isItemEventAt 0) = openParts := rfl
      rw [hAll, if_pos rfl]
      have hAdded : PlacedItem "response.output_item.added" "reasoning" 0 _
        (reasoningEvent "response.output_item.added") := ⟨⟨rfl, rfl, rfl⟩, rfl, rfl⟩
      have hDone : PlacedItem "response.output_item.done" "reasoning" 0 _
        (reasoningEvent "response.output_item.done") := ⟨⟨rfl, rfl, rfl⟩, rfl, rfl⟩
      refine .cons (.reasoningAdded hAdded rfl) (.cons (.nextPartAdded ⟨rfl, rfl, rfl⟩ ?_)
        (.cons (.reasoningDone hDone) (.nil _)))
      exact Nat.zero_lt_one
    · have hPlace {event : Except AiMuxError Json} (hEvent : event ∈ openParts) : placeOf event = some 0 := by
        revert event
        simp [openParts, placeOf, reasoningEvent]
        decide
      have hNone : openParts.filter (isItemEventAt index) = [] := by
        rw [List.filter_eq_nil_iff]
        intro event hEvent
        rw [isItemEventAt, hPlace hEvent, Bool.and_eq_true, decide_eq_true_iff]
        exact fun h => hIndex (Option.some.inj h.2).symm
      rw [hNone, if_neg hIndex]
      exact .nil _
  closed index := by
    by_cases hIndex : index = 0
    · rw [if_pos hIndex]
      exact .inr (.inr ⟨_, rfl⟩)
    · rw [if_neg hIndex]
      exact .inl rfl
  placed event hEvent _ := by
    refine ⟨0, ?_⟩
    revert event
    simp [openParts, placeOf, reasoningEvent]
    decide
  messages i _ hEnds := by
    split at hEnds <;> cases hEnds
  reasonings i j _ _ hFirst hSecond hNe := by
    split at hFirst
    · split at hSecond
      · omega
      · cases hSecond
    · cases hFirst

/-- A table that is iterated backwards ends the second part first. -/
theorem open_parts_backwards : ¬∀ (settings : ResponsesSettings) (events : List (Except AiMuxError Json)),
    ItemSequences events → Whole blockMark (emitted settings events) ∧ ClosesInOrder settings events := by
  intro h
  obtain ⟨-, hCloses⟩ := h ((plainSettings false true).iterating (fun _ parts => parts.reverse)
    fun _ parts => parts.reverse_perm) openParts openPartsItems
  obtain ⟨id, metadata, indices, hSorted, hParts⟩ := hCloses (openParts.take 2) _ [] 0 _ rfl
    ⟨⟨rfl, rfl, rfl⟩, rfl, rfl⟩
  have hEnds : indices = [1, 0] := ends_inj (hParts.symm.trans rfl)
  rw [hEnds] at hSorted
  exact absurd hSorted (by decide)

end Aimux.Responses
