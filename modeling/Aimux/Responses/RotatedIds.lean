import Aimux.Responses.AnnotationTable
import Aimux.Responses.BlockRuns

/-! # Item ids that rotate

The events of a message or a reasoning that follow its `added` event may name other ids, where they stay at its output
index. The run on them is compared with the run on the events as they were.
-/

namespace Aimux.Responses

open Aimux.Core Aimux.Provider OpenAIResponsesStream
open Aimux.Lib (Transducer)
open Aimux.Lib.Span (Phase)

/-! ## Events with other ids -/

/-- The kinds that are no part's own, of which only the annotations are handled. -/
def LATER_KINDS : List String := [ANNOTATION_ADDED, "response.output_text.done", "response.content_part.done",
  "response.reasoning_summary_text.done"]

/-- An event and one that names another id. -/
inductive Rotates : Except AiMuxError Json → Except AiMuxError Json → Prop
  | same (event : Except AiMuxError Json) : Rotates event event
  | part {chunk other : Json} (hKind : chunk.strOrEmpty "type" ∈ PART_KINDS ++ LATER_KINDS)
    (hRest : ∀ name ≠ "item_id", other.get name = chunk.get name)
    (hId : (other.get "item_id").any Json.isString = true) : Rotates (.ok chunk) (.ok other)
  | done {item otherItem chunk other : Json} (hKind : chunk.strOrEmpty "type" = "response.output_item.done")
    (hItem : chunk.get "item" = some item) (hType : item.strOrEmpty "type" ∈ ["message", "reasoning"])
    (hRest : ∀ name ≠ "item", other.get name = chunk.get name) (hOther : other.get "item" = some otherItem)
    (hItemRest : ∀ name ≠ "id", otherItem.get name = item.get name) : Rotates (.ok chunk) (.ok other)

/-- The parts that are not the chunks themselves. -/
def read (parts : List StreamPart) : List StreamPart :=
  parts.filter fun part => match part with
    | .raw _ => false
    | _ => true

theorem read_append (parts later : List StreamPart) : read (parts ++ later) = read parts ++ read later :=
  List.filter_append ..

theorem read_raw (settings : ResponsesSettings) (chunk : Json) (parts : List StreamPart) :
    read (rawParts settings chunk ++ parts) = read parts := by
  rw [read_append, rawParts]
  split <;> rfl

variable {item otherItem : Json}

section

variable {chunk other : Json} {key : String}

theorem Json.getStr_of_strOrEmpty {value : Json} (h : value.strOrEmpty key ≠ "") :
    value.getStr key = some (value.strOrEmpty key) := by
  cases hText : value.getStr key with
  | none =>
    rw [Json.strOrEmpty, hText] at h
    exact absurd rfl h
  | some text => rw [Json.strOrEmpty, hText, Option.getD_some]

variable {name : String}

section

variable (hRest : ∀ name ≠ key, other.get name = chunk.get name) (hName : name ≠ key)

include hRest hName

theorem getStr_rotated : other.getStr name = chunk.getStr name := by
  rw [Json.getStr, Json.getStr, hRest name hName]

theorem getU64_rotated : other.getU64 name = chunk.getU64 name := by
  rw [Json.getU64, Json.getU64, hRest name hName]

theorem member_rotated : other.member name = chunk.member name := by
  rw [Json.member, Json.member, hRest name hName]

theorem strOrEmpty_rotated : other.strOrEmpty name = chunk.strOrEmpty name := by
  rw [Json.strOrEmpty, Json.strOrEmpty, getStr_rotated hRest hName]

end

variable {kind : String}

theorem schemaFields_part (hPart : kind ∈ PART_KINDS) :
    ∃ strings numbers, (∀ chunk, schemaFields chunk kind = .ok (strings, numbers)) ∧ "item_id" ∉ numbers := by
  simp only [PART_KINDS, List.mem_cons, List.not_mem_nil, or_false] at hPart
  rcases hPart with rfl | rfl | rfl | rfl | rfl | rfl | rfl <;> exact ⟨_, _, fun _ => rfl, by decide⟩

/-- The schema of a part's event asks nothing of its id but that it is a string. -/
theorem schema_rotated (hKind : chunk.getStr "type" = some kind) (hPart : kind ∈ PART_KINDS)
    (hValid : chunkSchemaError chunk = none) (hRest : ∀ name ≠ "item_id", other.get name = chunk.get name)
    (hId : (other.get "item_id").any Json.isString = true) : chunkSchemaError other = none := by
  obtain ⟨strings, numbers, hFields, hNumbers⟩ := schemaFields_part hPart
  rw [chunkSchemaError, hKind] at hValid
  rw [chunkSchemaError, (getStr_rotated hRest (by decide)).trans hKind]
  dsimp only at hValid ⊢
  rw [hFields] at hValid ⊢
  dsimp only at hValid ⊢
  simp only [Option.or_eq_none_iff, Option.map_eq_none_iff, List.find?_eq_none] at hValid ⊢
  refine ⟨fun field hField => ?_, fun field hField => ?_⟩
  · by_cases hName : field = "item_id"
    · simp [hName, hId]
    · rw [hRest field hName]
      exact hValid.1 field hField
  · rw [hRest field fun hName => hNumbers (hName ▸ hField)]
    exact hValid.2 field hField

theorem schema_later (hKind : chunk.getStr "type" = some kind) (hLater : kind ∈ LATER_KINDS) :
    chunkSchemaError chunk = none := by
  rw [chunkSchemaError, hKind]
  simp only [LATER_KINDS, List.mem_cons, List.not_mem_nil, or_false] at hLater
  rcases hLater with rfl | rfl | rfl | rfl <;> rfl

/-! ## Parts -/

variable {settings : ResponsesSettings} {state : OpenAIResponsesStream} {index : Nat} {id kind : String}

theorem resolve_rotated (hEvent : Placed kind index chunk) (hPlace : state.outputIds index = some id)
    (hRest : ∀ name ≠ "item_id", other.get name = chunk.get name) :
    state.resolveOutputItemId other = state.resolveOutputItemId chunk := by
  rw [hEvent.resolve hPlace, resolveOutputItemId, getU64_rotated hRest (by decide), hEvent.place, Option.bind_some,
    hPlace, Option.getD_some]

/-- The handlers of a part find its item by the output index. -/
theorem handle_rotated (hEvent : Placed kind index chunk) (hPlace : state.outputIds index = some id)
    (hPart : kind ∈ PART_KINDS) (hRest : ∀ name ≠ "item_id", other.get name = chunk.get name) :
    state.handle settings other kind = state.handle settings chunk kind := by
  have hResolve := resolve_rotated hEvent hPlace hRest
  have hDelta : other.strOrEmpty "delta" = chunk.strOrEmpty "delta" := strOrEmpty_rotated hRest (by decide)
  have hContent : contentIndex other = contentIndex chunk := by
    rw [contentIndex, contentIndex, getU64_rotated hRest (by decide)]
  have hSummary : summaryIndex other = summaryIndex chunk := by
    rw [summaryIndex, summaryIndex, getU64_rotated hRest (by decide)]
  have hFilled {name : String} (hName : name ≠ "item_id") : filledText other name = filledText chunk name := by
    rw [filledText, filledText, getStr_rotated hRest hName]
  simp only [PART_KINDS, List.mem_cons, List.not_mem_nil, or_false] at hPart
  rcases hPart with rfl | rfl | rfl | rfl | rfl | rfl | rfl
  · show state.outputTextDelta settings other = state.outputTextDelta settings chunk
    rw [outputTextDelta, outputTextDelta, hResolve, hDelta, hRest "logprobs" (by decide)]
  · show state.contentPartAdded settings other = state.contentPartAdded settings chunk
    rw [contentPartAdded, contentPartAdded, hResolve, hContent, member_rotated hRest (by decide)]
  · show state.refusalDelta other = state.refusalDelta chunk
    rw [refusalDelta, refusalDelta, hResolve, hContent, hFilled (by decide)]
  · show state.refusalDone other = state.refusalDone chunk
    rw [refusalDone, refusalDone, hResolve, hContent, hFilled (by decide)]
  · show state.summaryPartAdded settings other = state.summaryPartAdded settings chunk
    rw [summaryPartAdded, summaryPartAdded, hResolve, hSummary]
  · show state.summaryTextDelta settings other = state.summaryTextDelta settings chunk
    rw [summaryTextDelta, summaryTextDelta, hResolve, hSummary, hDelta]
  · show state.summaryPartDone settings other = state.summaryPartDone settings chunk
    rw [summaryPartDone, summaryPartDone, hResolve, hSummary]

/-! ## The end of a message -/

/-- The item that the end of a message shows: it has the id that it started with, and the phase. -/
def closingItem (state : OpenAIResponsesStream) (id : String) (item : Json) : Json :=
  let named := item.set "id" (.string id)
  let phase := if (named.get "phase").isNone then (state.textStates id).bind (·.get "phase") else none
  (phase.map fun phase => named.set "phase" phase).getD named

/-- What the end of a message emits. -/
def closing (settings : ResponsesSettings) (state : OpenAIResponsesStream) (id : String) (item : Json)
    (annotations : Option (List Json)) : StreamPart :=
  .textEnd (state.textBlockId id)
    (some (providerNamespace settings.providerKey (textMetadata (closingItem state id item) annotations)))

theorem messageDone_annotated {item : Json} (hPlace : state.outputIds index = some id) (table : AnnotationTable) :
    (state.annotated table).messageDone settings index item =
      ((state.messageDone settings index item).1.annotated (Function.update table id none),
        [closing settings state id item (table id)]) := by
  have hOther : (state.annotated table).outputIds index = some id := hPlace
  rw [messageDone, messageDone, hOther, hPlace]
  rfl

theorem textMetadata_congr (hSame : ∀ name, otherItem.get name = item.get name) (annotations : Option (List Json)) :
    textMetadata otherItem annotations = textMetadata item annotations := by
  rw [textMetadata, textMetadata, Json.member, Json.member, Json.filled, Json.filled, hSame, hSame]

theorem closingItem_rotated (hObject : item.isObject = true) (hOther : otherItem.isObject = true)
    (hRest : ∀ name ≠ "id", otherItem.get name = item.get name) (name : String) :
    (closingItem state id otherItem).get name = (closingItem state id item).get name := by
  have hNamed (name : String) : (otherItem.set "id" (.string id)).get name = (item.set "id" (.string id)).get name := by
    rw [Json.get_set hOther, Json.get_set hObject]
    split
    · rfl
    · exact hRest name ‹_›
  have hSetObject {value : Json} (hValue : value.isObject = true) : (value.set "id" (.string id)).isObject = true := by
    cases value with
    | object fields => rfl
    | _ => cases hValue
  rw [closingItem, closingItem, hNamed "phase"]
  generalize (if ((item.set "id" (.string id)).get "phase").isNone then (state.textStates id).bind (·.get "phase")
    else none) = phase
  cases phase with
  | none => exact hNamed name
  | some phase =>
    rw [Option.map_some, Option.map_some, Option.getD_some, Option.getD_some, Json.get_set (hSetObject hOther),
      Json.get_set (hSetObject hObject), hNamed name]

/-- The item's own id is not shown. -/
theorem closing_rotated (hObject : item.isObject = true) (hOther : otherItem.isObject = true)
    (hRest : ∀ name ≠ "id", otherItem.get name = item.get name) (annotations : Option (List Json)) :
    closing settings state id otherItem annotations = closing settings state id item annotations := by
  rw [closing, closing, textMetadata_congr (closingItem_rotated hObject hOther hRest)]

theorem textMetadata_inj (item : Json) (annotations others : Option (List Json)) :
    textMetadata item annotations = textMetadata item others ↔
      (annotations.getD []).map annotationFields = (others.getD []).map annotationFields := by
  have hShown (annotations : Option (List Json)) :
      (annotations.filter (· ≠ [])).toList.map (fun annotations =>
        (("annotations" : String), Json.array (annotations.map annotationFields))) =
      if (annotations.getD []).map annotationFields = [] then []
      else [("annotations", .array ((annotations.getD []).map annotationFields))] := by
    cases annotations with
    | none => rfl
    | some annotations => cases annotations <;> rfl
  rw [textMetadata, textMetadata, List.append_cancel_left_eq, hShown, hShown]
  split <;> split <;> simp_all

theorem closing_inj (item : Json) (annotations others : Option (List Json)) :
    closing settings state id item annotations = closing settings state id item others ↔
      (annotations.getD []).map annotationFields = (others.getD []).map annotationFields := by
  rw [← textMetadata_inj (closingItem state id item), closing, closing, StreamPart.textEnd.injEq, Option.some.injEq,
    providerNamespace, providerNamespace]
  simp only [true_and, List.cons.injEq, Prod.mk.injEq, Json.object.injEq, and_true]

end

/-! ## Events of an item that is known -/

variable {index : Nat} {id : String} {rest : List (Except AiMuxError Json)}

theorem Lane.Trace.cons_inv {lane last : Lane} {chunk : Json} (h : lane.Trace id index (.ok chunk :: rest) last) :
    ∃ next, lane.Step id index chunk next ∧ next.Trace id index rest last := by
  cases h with
  | cons hStep hRest => exact ⟨_, hStep, hRest⟩

theorem Lane.Trace.nil_of_ended {last : Lane} (h : Lane.messageEnded.Trace id index rest last) : rest = [] := by
  cases h with
  | nil => rfl
  | cons hStep => cases hStep

section

variable {events rest : List (Except AiMuxError Json)} {items : ItemSequences events} {settings : ResponsesSettings}
  {store : Bool} {state : OpenAIResponsesStream} {lane : Nat → Lane} {phase : Block → Phase} {event : Except AiMuxError Json} {chunk : Json}

/-- An event of an item is the next one of its lane. -/
theorem Tracked.lane_step (h : Tracked items store (.ok chunk :: rest) state lane phase) (hMem : .ok chunk ∈ events)
    (hItem : isItemEvent (.ok chunk) = true) :
    ∃ index next, (lane index).Step (items.id index) index chunk next ∧
      next.Trace (items.id index) index (rest.filter (isItemEventAt index)) (items.ends index) ∧
      Tracks items store state phase index (lane index) := by
  obtain ⟨index, hPlace⟩ := items.placed _ hMem hItem
  have hAt : isItemEventAt index (.ok chunk) = true := by
    rw [isItemEventAt, hItem, Bool.true_and]
    exact decide_eq_true hPlace
  have hLane := h.lanes index
  rw [List.filter_cons_of_pos hAt] at hLane
  have hTracks := h.tracks index hLane.used
  obtain ⟨next, hStep, hRest⟩ := hLane.cons_inv
  exact ⟨index, next, hStep, hRest, hTracks⟩

theorem Lane.Step.later {first next : Lane} (h : first.Step (items.id index) index chunk next)
    (hTracks : Tracks items store state phase index first)
    (hLater : chunk.getStr "type" ≠ some "response.output_item.added") :
    ∃ kind, Placed kind index chunk ∧ state.outputIds index = some (items.id index) := by
  cases h with
  | messageAdded hEvent => exact absurd hEvent.kind hLater
  | reasoningAdded hEvent => exact absurd hEvent.kind hLater
  | contentPartAdded hEvent | textDelta hEvent | refusalDelta hEvent | refusalDone hEvent =>
    exact ⟨_, hEvent, hTracks.place⟩
  | messageDone hEvent => exact ⟨_, hEvent.toPlaced, hTracks.place⟩
  | firstPartAdded hEvent | nextPartAdded hEvent | summaryDelta hEvent | summaryPartDone hEvent =>
    exact ⟨_, hEvent, hTracks.place⟩
  | reasoningDone hEvent => exact ⟨_, hEvent.toPlaced, hTracks.place⟩

/-- The tables know the item of an event that is not its first. -/
theorem Tracked.later (h : Tracked items store (.ok chunk :: rest) state lane phase) (hMem : .ok chunk ∈ events)
    (hItem : isItemEvent (.ok chunk) = true) (hLater : chunk.getStr "type" ≠ some "response.output_item.added") :
    ∃ kind index, Placed kind index chunk ∧ state.outputIds index = some (items.id index) := by
  obtain ⟨index, next, hStep, -, hTracks⟩ := h.lane_step hMem hItem
  obtain ⟨kind, hPlaced, hPlace⟩ := hStep.later hTracks hLater
  exact ⟨kind, index, hPlaced, hPlace⟩

variable {item : Json}

theorem isItemEvent_done (hKind : chunk.strOrEmpty "type" = "response.output_item.done")
    (hItem : chunk.get "item" = some item) (hType : item.strOrEmpty "type" ∈ ["message", "reasoning"]) :
    isItemEvent (.ok chunk) = true := by
  rw [isItemEvent, hKind, Json.member, hItem, Option.getD_some, Bool.or_eq_true, Bool.and_eq_true]
  exact .inr ⟨by decide, decide_eq_true hType⟩

/-- A message that is done has no later event. -/
theorem Tracked.messageDone (h : Tracked items store (.ok chunk :: rest) state lane phase)
    (hDone : PlacedItem "response.output_item.done" "message" index item chunk) :
    items.ends index = .messageEnded ∧ state.outputIds index = some (items.id index) ∧
      rest.filter (isItemEventAt index) = [] := by
  have hItem : isItemEvent (.ok chunk) = true := isItemEvent_done (Json.strOrEmpty_of_getStr hDone.kind) hDone.found
    (by rw [Json.strOrEmpty_of_getStr hDone.typed]; decide)
  have hAt : isItemEventAt index (.ok chunk) = true := by
    rw [isItemEventAt, hItem, Bool.true_and]
    exact decide_eq_true hDone.place
  have hLane := h.lanes index
  rw [List.filter_cons_of_pos hAt] at hLane
  have hTracks := h.tracks index hLane.used
  obtain ⟨next, hStep, hRest⟩ := hLane.cons_inv
  have hOther {kind : String} (hKind : chunk.getStr "type" = some kind) : kind = "response.output_item.done" :=
    Option.some.inj (hKind.symm.trans hDone.kind)
  generalize lane index = first at hStep hTracks
  cases hStep with
  | messageDone hEvent =>
    exact ⟨hTracks.ends, hTracks.place, hRest.nil_of_ended⟩
  | reasoningDone hEvent =>
    have hSame := Option.some.inj (hEvent.found.symm.trans hDone.found)
    have hTyped := hEvent.typed
    rw [hSame, hDone.typed] at hTyped
    exact absurd hTyped (by decide)
  | messageAdded hEvent | contentPartAdded hEvent | textDelta hEvent | refusalDelta hEvent | refusalDone hEvent
  | reasoningAdded hEvent | firstPartAdded hEvent | nextPartAdded hEvent | summaryDelta hEvent
  | summaryPartDone hEvent => exact absurd (hOther hEvent.kind) (by decide)

/-- An event that does the same but for the table of annotations and what is raw. -/
structure SameStep (first second : OpenAIResponsesStream × List StreamPart) : Prop where
  state : ∀ table, second.1.annotated table = first.1.annotated table
  parts : read second.2 = read first.2

theorem SameStep.of_handle {kind : String} {other : Json} (hKind : chunk.getStr "type" = some kind)
    (hValid : chunkSchemaError chunk = none) (hOtherKind : other.getStr "type" = some kind)
    (hOtherValid : chunkSchemaError other = none)
    (hHandle : ∀ table, (state.handle settings other kind).1.annotated table = (state.handle settings chunk kind).1.annotated table)
    (hParts : (state.handle settings other kind).2 = (state.handle settings chunk kind).2) :
    SameStep (state.transform settings (.ok chunk)) (state.transform settings (.ok other)) where
  state table := by
    rw [transform_eq settings state hKind hValid, transform_eq settings state hOtherKind hOtherValid]
    exact hHandle table
  parts := by
    rw [transform_eq settings state hKind hValid, transform_eq settings state hOtherKind hOtherValid]
    rw [read_raw, read_raw, hParts]

theorem annotationAdded_rotated {other : Json} (hRest : ∀ name ≠ "item_id", other.get name = chunk.get name)
    (table : AnnotationTable) :
    (state.annotationAdded settings other).1.annotated table = (state.annotationAdded settings chunk).1.annotated table ∧
      (state.annotationAdded settings other).2 = (state.annotationAdded settings chunk).2 := by
  rw [annotationAdded, annotationAdded, member_rotated hRest (by decide)]
  dsimp only
  cases annotationSource settings.providerKey (settings.sourceId state.sources) (chunk.member "annotation") <;>
    exact ⟨rfl, rfl⟩

theorem handle_later {kind : String} {other : Json} (hLater : kind ∈ LATER_KINDS)
    (hRest : ∀ name ≠ "item_id", other.get name = chunk.get name) (table : AnnotationTable) :
    (state.handle settings other kind).1.annotated table = (state.handle settings chunk kind).1.annotated table ∧
      (state.handle settings other kind).2 = (state.handle settings chunk kind).2 := by
  simp only [LATER_KINDS, List.mem_cons, List.not_mem_nil, or_false] at hLater
  rcases hLater with rfl | rfl | rfl | rfl
  · exact annotationAdded_rotated hRest table
  · exact ⟨rfl, rfl⟩
  · exact ⟨rfl, rfl⟩
  · exact ⟨rfl, rfl⟩

theorem PlacedItem.rotated {type : String} {item otherItem other : Json}
    (hDone : PlacedItem "response.output_item.done" type index item chunk)
    (hRest : ∀ name ≠ "item", other.get name = chunk.get name) (hOther : other.get "item" = some otherItem)
    (hItemRest : ∀ name ≠ "id", otherItem.get name = item.get name) :
    PlacedItem "response.output_item.done" type index otherItem other where
  kind := (getStr_rotated hRest (by decide)).trans hDone.kind
  valid := by
    have hValid := hDone.valid
    have hTyped : otherItem.getStr "type" = some type := (getStr_rotated hItemRest (by decide)).trans hDone.typed
    rw [chunkSchemaError, hDone.kind] at hValid
    rw [chunkSchemaError, (getStr_rotated hRest (by decide)).trans hDone.kind]
    dsimp only at hValid ⊢
    rw [schemaFields, if_pos (.inr rfl), hDone.found, Option.bind_some, hDone.typed] at hValid
    rw [schemaFields, if_pos (.inr rfl), hOther, Option.bind_some, hTyped]
    dsimp only at hValid ⊢
    split
    · rw [if_pos ‹_›] at hValid
      rw [List.find?_singleton] at hValid ⊢
      rw [hRest "output_index" (by decide)]
      exact hValid
    · rfl
  place := (getU64_rotated hRest (by decide)).trans hDone.place
  found := hOther
  typed := (getStr_rotated hItemRest (by decide)).trans hDone.typed

/-- The end of a reasoning finds it by the output index. -/
theorem reasoningDone_rotated (hPlace : state.outputIds index = some id)
    (hItemRest : ∀ name ≠ "id", otherItem.get name = item.get name) :
    state.reasoningDone settings index otherItem = state.reasoningDone settings index item := by
  rw [reasoningDone, reasoningDone, hPlace, Option.getD_some, Option.getD_some, getStr_rotated hItemRest (by decide)]

theorem Tracked.placedItem (h : Tracked items store (.ok chunk :: rest) state lane phase) (hMem : .ok chunk ∈ events)
    (hKind : chunk.strOrEmpty "type" = "response.output_item.done") (hItem : chunk.get "item" = some item)
    (hType : item.strOrEmpty "type" ∈ ["message", "reasoning"]) :
    ∃ index, PlacedItem "response.output_item.done" (item.strOrEmpty "type") index item chunk ∧
      state.outputIds index = some (items.id index) := by
  have hKindStr : chunk.getStr "type" = some "response.output_item.done" := by
    rw [← hKind]
    exact Json.getStr_of_strOrEmpty (by rw [hKind]; decide)
  obtain ⟨kind, index, hPlaced, hPlace⟩ := h.later hMem (isItemEvent_done hKind hItem hType)
    (by rw [hKindStr]; exact fun hSame => absurd (Option.some.inj hSame) (by decide))
  obtain rfl := Option.some.inj (hPlaced.kind.symm.trans hKindStr)
  refine ⟨index, ⟨hPlaced, hItem, Json.getStr_of_strOrEmpty fun hNone => ?_⟩, hPlace⟩
  rw [hNone] at hType
  exact absurd hType (by decide)

variable (settings) in
/-- The events that do not end a message. -/
theorem Tracked.rotates (h : Tracked items store (event :: rest) state lane phase) (hMem : event ∈ events)
    (hDone : isMessageDone event = false) {other : Except AiMuxError Json} (hRotates : Rotates event other) :
    SameStep (state.transform settings event) (state.transform settings other) ∧ isMessageDone other = false := by
  cases hRotates with
  | same => exact ⟨⟨fun _ => rfl, rfl⟩, hDone⟩
  | @part chunk other hKind hRest hId =>
    have hType : chunk.getStr "type" = some (chunk.strOrEmpty "type") := by
      refine Json.getStr_of_strOrEmpty fun hNone => ?_
      rw [hNone] at hKind
      exact absurd hKind (by decide)
    have hOtherType := (getStr_rotated hRest (by decide)).trans hType
    have hNotDone : isMessageDone (.ok other) = false := by
      rw [isMessageDone, strOrEmpty_rotated hRest (by decide), member_rotated hRest (by decide)]
      exact hDone
    refine ⟨?_, hNotDone⟩
    rcases List.mem_append.mp hKind with hPart | hLater
    · have hItem : isItemEvent (.ok chunk) = true := by
        rw [isItemEvent, decide_eq_true hPart, Bool.true_or]
      have hNotAdded : chunk.getStr "type" ≠ some "response.output_item.added" := by
        intro hAdded
        rw [Json.strOrEmpty_of_getStr hAdded] at hPart
        exact absurd hPart (by decide)
      obtain ⟨kind, index, hPlaced, hPlace⟩ := h.later hMem hItem hNotAdded
      obtain rfl := Option.some.inj (hPlaced.kind.symm.trans hType)
      have hHandle : state.handle settings other (chunk.strOrEmpty "type") =
          state.handle settings chunk (chunk.strOrEmpty "type") := handle_rotated hPlaced hPlace hPart hRest
      exact .of_handle hType hPlaced.valid hOtherType (schema_rotated hType hPart hPlaced.valid hRest hId)
        (fun _ => by rw [hHandle]) (by rw [hHandle])
    · exact .of_handle hType (schema_later hType hLater) hOtherType (schema_later hOtherType hLater)
        (fun table => (handle_later hLater hRest table).1) (handle_later hLater hRest fun _ => none).2
  | @done item otherItem chunk other hKind hItem hType hRest hOther hItemRest =>
    obtain ⟨index, hPlaced, hPlace⟩ := h.placedItem hMem hKind hItem hType
    have hReasoning : item.strOrEmpty "type" = "reasoning" := by
      simp only [List.mem_cons, List.not_mem_nil, or_false] at hType
      refine hType.resolve_left fun hMessage => ?_
      rw [isMessageDone, hKind, Json.member, hItem, Option.getD_some, hMessage] at hDone
      exact absurd hDone (by decide)
    rw [hReasoning] at hPlaced
    have hOtherPlaced := hPlaced.rotated hRest hOther hItemRest
    have hHandle : state.handle settings other "response.output_item.done" =
        state.handle settings chunk "response.output_item.done" := by
      rw [handle_reasoningDone settings hPlaced, handle_reasoningDone settings hOtherPlaced,
        reasoningDone_rotated hPlace hItemRest]
    refine ⟨.of_handle hPlaced.kind hPlaced.valid hOtherPlaced.kind hOtherPlaced.valid (fun _ => by rw [hHandle])
      (by rw [hHandle]), ?_⟩
    rw [isMessageDone, Json.member, hOther, Option.getD_some, Json.strOrEmpty_of_getStr hOtherPlaced.typed]
    exact Bool.and_false _

variable (settings) in
/-- What the end of a message does, with any table. -/
theorem ends_annotated (hDone : PlacedItem "response.output_item.done" "message" index item chunk)
    (hPlace : state.outputIds index = some id) (table : AnnotationTable) :
    (((state.annotated table).transform settings (.ok chunk)).1 =
      (state.messageDone settings index item).1.annotated (Function.update table id none)) ∧
      read ((state.annotated table).transform settings (.ok chunk)).2 = [closing settings state id item (table id)] := by
  rw [transform_eq settings _ hDone.kind hDone.valid, handle_messageDone settings hDone, messageDone_annotated hPlace]
  exact ⟨rfl, read_raw settings chunk _⟩

variable (settings) in
/-- The events that end a message. -/
theorem Tracked.ends (h : Tracked items store (event :: rest) state lane phase) (hMem : event ∈ events)
    (hDone : isMessageDone event = true) :
    ∃ chunk index item, event = .ok chunk ∧ PlacedItem "response.output_item.done" "message" index item chunk ∧
      items.ends index = .messageEnded ∧ rest.filter (isItemEventAt index) = [] ∧
      ∀ other, Rotates event other → ∀ table,
        ((state.annotated table).transform settings other).1 =
          (state.transform settings event).1.annotated (Function.update table (items.id index) none) ∧
        read ((state.annotated table).transform settings other).2 =
          [closing settings state (items.id index) item (table (items.id index))] := by
  cases event with
  | error error => cases hDone
  | ok chunk =>
    rw [isMessageDone, Bool.and_eq_true, decide_eq_true_iff, decide_eq_true_iff] at hDone
    obtain ⟨hKind, hMessage⟩ := hDone
    cases hItem : chunk.get "item" with
    | none =>
      rw [Json.member, hItem] at hMessage
      exact absurd hMessage (by decide)
    | some item =>
      rw [Json.member, hItem, Option.getD_some] at hMessage
      obtain ⟨index, hPlaced, hPlace⟩ := h.placedItem hMem hKind hItem (by rw [hMessage]; decide)
      rw [hMessage] at hPlaced
      obtain ⟨hEnds, -, hNil⟩ := h.messageDone hPlaced
      have hState (table : AnnotationTable) : (state.messageDone settings index item).1.annotated table =
          (state.transform settings (.ok chunk)).1.annotated table := by
        rw [transform_eq settings _ hPlaced.kind hPlaced.valid, handle_messageDone settings hPlaced]
      refine ⟨chunk, index, item, rfl, hPlaced, hEnds, hNil, fun other hRotates table => ?_⟩
      cases hRotates with
      | same => exact ⟨(ends_annotated settings hPlaced hPlace table).1.trans (hState _), (ends_annotated settings hPlaced hPlace table).2⟩
      | part hPart =>
        rw [hKind] at hPart
        exact absurd hPart (by decide)
      | @done found otherItem _ other _ hFound _ hRest hOther hItemRest =>
        obtain rfl := Option.some.inj (hFound.symm.trans hItem)
        have hOtherPlaced := hPlaced.rotated hRest hOther hItemRest
        obtain ⟨hNext, hParts⟩ := ends_annotated settings hOtherPlaced hPlace table
        have hTyped := Json.get_of_getStr hPlaced.typed
        have hOtherTyped := Json.get_of_getStr hOtherPlaced.typed
        have hClosing : closing settings state (items.id index) otherItem (table (items.id index)) =
            closing settings state (items.id index) found (table (items.id index)) := closing_rotated
          (Json.isObject_of_get hTyped) (Json.isObject_of_get hOtherTyped) hItemRest _
        refine ⟨hNext.trans ?_, hParts.trans (by rw [hClosing])⟩
        rw [← hState, OpenAIResponsesStream.messageDone, OpenAIResponsesStream.messageDone, hPlace, Option.getD_some,
          Option.getD_some]

end

end Aimux.Responses
