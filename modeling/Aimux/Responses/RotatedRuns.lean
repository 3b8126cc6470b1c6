import Aimux.Responses.RotatedIds

/-! # Runs on rotated ids

The two runs differ in the annotations that the ends of the messages show, and in nothing else: an annotation is filed
under the id that its event names, and the end of a message takes those that were filed under the id that the message
started with.
-/

namespace Aimux.Responses

open Aimux.Core Aimux.Provider OpenAIResponsesStream
open Aimux.Lib (Transducer)
open Aimux.Lib.Span (Phase)

section

variable {events rest : List (Except AiMuxError Json)} (items : ItemSequences events) (settings : ResponsesSettings)

/-- The table holds what was filed for every message that is not done. -/
def Filed (rest : List (Except AiMuxError Json)) (table : AnnotationTable) (before : List (Except AiMuxError Json)) :
    Prop :=
  ∀ index, items.ends index = .messageEnded → rest.filter (isItemEventAt index) ≠ [] →
    (table (items.id index)).getD [] = filed settings (items.id index) before

/-- At the end of each message, the annotations that were filed under its id look as they did. -/
def KeepsAnnotations (before rotatedBefore rest rotatedRest : List (Except AiMuxError Json)) : Prop :=
  ∀ middle chunk after index item, rest = middle ++ Except.ok chunk :: after →
    PlacedItem "response.output_item.done" "message" index item chunk →
      (filed settings (items.id index) (rotatedBefore ++ rotatedRest.take middle.length)).map annotationFields =
        (filed settings (items.id index) (before ++ middle)).map annotationFields

variable {items settings} {before rotatedBefore rotatedRest : List (Except AiMuxError Json)} {table : AnnotationTable}
  {event other : Except AiMuxError Json}

theorem Filed.tail (h : Filed items settings (event :: rest) table before) : Filed items settings rest table before := by
  intro index hEnds hRest
  refine h index hEnds fun hNil => hRest ?_
  rw [List.filter_eq_nil_iff] at hNil ⊢
  exact fun later hLater => hNil later (List.mem_cons_of_mem _ hLater)

theorem Filed.file (h : Filed items settings (event :: rest) table before) (other : Except AiMuxError Json) :
    Filed items settings rest (table.file (noted settings other)) (before ++ [other]) := by
  intro index hEnds hRest
  rw [AnnotationTable.file_getD, filed_concat, h.tail index hEnds hRest]

theorem Filed.ended {index : Nat} (h : Filed items settings (event :: rest) table before)
    (hNoted : noted settings other = none) (hEnds : items.ends index = .messageEnded)
    (hNil : rest.filter (isItemEventAt index) = []) :
    Filed items settings rest (Function.update table (items.id index) none) (before ++ [other]) := by
  intro j hJ hRest
  have hNe : j ≠ index := by
    rintro rfl
    exact hRest hNil
  rw [Function.update_of_ne (items.messages j index hJ hEnds hNe).1, filed_concat, hNoted, h.tail j hJ hRest]
  exact (List.append_nil _).symm

theorem Rotates.noted_done (h : Rotates event other) (hDone : isMessageDone event = true) : noted settings other = none := by
  have hKind : ∃ chunk, other = .ok chunk ∧ chunk.strOrEmpty "type" = "response.output_item.done" := by
    cases h with
    | same =>
      cases event with
      | error error => cases hDone
      | ok chunk =>
        rw [isMessageDone, Bool.and_eq_true, decide_eq_true_iff] at hDone
        exact ⟨chunk, rfl, hDone.1⟩
    | @part chunk other hKind hRest =>
      rw [isMessageDone, Bool.and_eq_true, decide_eq_true_iff] at hDone
      exact ⟨other, rfl, (strOrEmpty_rotated hRest (by decide)).trans hDone.1⟩
    | @done _ _ chunk other hKind _ _ hRest =>
      exact ⟨other, rfl, (strOrEmpty_rotated hRest (by decide)).trans hKind⟩
  obtain ⟨chunk, rfl, hKind⟩ := hKind
  exact noted_of_kind (by rw [hKind]; decide)

theorem keeps_cons : KeepsAnnotations items settings before rotatedBefore (event :: rest) (other :: rotatedRest) ↔
    (∀ chunk index item, event = .ok chunk → PlacedItem "response.output_item.done" "message" index item chunk →
      (filed settings (items.id index) rotatedBefore).map annotationFields =
        (filed settings (items.id index) before).map annotationFields) ∧
    KeepsAnnotations items settings (before ++ [event]) (rotatedBefore ++ [other]) rest rotatedRest := by
  constructor
  · intro h
    refine ⟨fun chunk index item hEvent hDone => ?_, fun middle chunk after index item hRest hDone => ?_⟩
    · have hHead := h [] chunk rest index item (by rw [hEvent]; rfl) hDone
      rwa [List.append_nil, List.length_nil, List.take_zero, List.append_nil] at hHead
    · have hLater := h (event :: middle) chunk after index item (by rw [hRest]; rfl) hDone
      simpa only [List.length_cons, List.take_succ_cons, List.append_assoc, List.singleton_append] using hLater
  · rintro ⟨hHead, hLater⟩ middle chunk after index item hRest hDone
    cases middle with
    | nil =>
      rw [List.append_nil, List.length_nil, List.take_zero, List.append_nil]
      exact hHead chunk index item (List.cons.inj hRest).1 hDone
    | cons first middle =>
      have hLater := hLater middle chunk after index item (List.cons.inj hRest).2 hDone
      rw [(List.cons.inj hRest).1] at hLater
      simpa only [List.length_cons, List.take_succ_cons, List.append_assoc, List.singleton_append] using hLater

/-! ## Two runs -/

theorem PlacedItem.isMessageDone {index : Nat} {item chunk : Json}
    (h : PlacedItem "response.output_item.done" "message" index item chunk) : isMessageDone (.ok chunk) = true := by
  rw [Responses.isMessageDone, Json.strOrEmpty_of_getStr h.kind, Json.member, h.found, Option.getD_some,
    Json.strOrEmpty_of_getStr h.typed]
  rfl

theorem PlacedItem.isItemEventAt {index : Nat} {item chunk : Json}
    (h : PlacedItem "response.output_item.done" "message" index item chunk) : isItemEventAt index (.ok chunk) = true := by
  rw [Responses.isItemEventAt, isItemEvent_done (Json.strOrEmpty_of_getStr h.kind) h.found
    (by rw [Json.strOrEmpty_of_getStr h.typed]; decide), Bool.true_and]
  exact decide_eq_true h.place

/-- The run on other ids keeps the state but for the table, and emits the same parts exactly when the annotations are
kept. -/
theorem run_rotated {state : OpenAIResponsesStream} {lane : Nat → Lane} {phase : Block → Phase}
    (hRotated : List.Forall₂ Rotates rest rotatedRest) (hMem : ∀ event ∈ rest, event ∈ events)
    (hTracked : Tracked items settings.storeFlag rest state lane phase)
    (hFiled : Filed items settings rest state.textAnnotations before)
    (hTable : Filed items settings rest table rotatedBefore) :
    (∃ last, (run settings (state.annotated table) rotatedRest).1 = (run settings state rest).1.annotated last) ∧
      (read (run settings (state.annotated table) rotatedRest).2 = read (run settings state rest).2 ↔
        KeepsAnnotations items settings before rotatedBefore rest rotatedRest) := by
  induction hRotated generalizing state lane phase before rotatedBefore table with
  | nil =>
    refine ⟨⟨table, rfl⟩, fun _ middle _ _ _ _ hRest => ?_, fun _ => rfl⟩
    cases middle <;> cases hRest
  | @cons event other rest rotatedRest hRotates _ ih =>
    obtain ⟨hEvent, hRest⟩ := List.forall_mem_cons.mp hMem
    obtain ⟨lane', phase', hStep, -⟩ := hTracked.step hEvent
    rw [run, run, Transducer.run_cons, Transducer.run_cons, read_append, read_append, keeps_cons]
    cases hDone : isMessageDone event with
    | false =>
      obtain ⟨hSame, hNotDone⟩ := hTracked.rotates settings hEvent hDone hRotates
      have hOther := transform_annotated settings hNotDone state table
      have hSelf := transform_annotated settings hDone state state.textAnnotations
      have hNext : (state.transform settings event).1.textAnnotations =
          AnnotationTable.file state.textAnnotations (noted settings event) :=
        congrArg (fun handled => handled.1.textAnnotations) hSelf
      rw [hOther, hSame.state]
      dsimp only
      rw [hSame.parts, List.append_cancel_left_eq]
      obtain ⟨hLast, hReads⟩ := ih hRest hStep (hNext ▸ hFiled.file event) (hTable.file other)
      refine ⟨hLast, hReads.trans (and_iff_right fun chunk index item hChunk hPlaced => ?_).symm⟩
      rw [hChunk, hPlaced.isMessageDone] at hDone
      cases hDone
    | true =>
      obtain ⟨chunk, index, item, rfl, hPlaced, hEnds, hNil, hBoth⟩ :=
        hTracked.ends settings hEvent hDone
      obtain ⟨hNext, hParts⟩ := hBoth (.ok chunk) (.same _) state.textAnnotations
      obtain ⟨hOther, hOtherParts⟩ := hBoth other hRotates table
      have hNext : (state.transform settings (.ok chunk)).1.textAnnotations =
          Function.update state.textAnnotations (items.id index) none :=
        congrArg OpenAIResponsesStream.textAnnotations hNext
      have hParts : read (state.transform settings (.ok chunk)).2 =
        [closing settings state (items.id index) item (state.textAnnotations (items.id index))] := hParts
      have hPending : (.ok chunk :: rest).filter (isItemEventAt index) ≠ [] := by
        rw [List.filter_cons_of_pos hPlaced.isItemEventAt]
        exact List.cons_ne_nil _ _
      have hHead : closing settings state (items.id index) item (table (items.id index)) =
          closing settings state (items.id index) item (state.textAnnotations (items.id index)) ↔
          ∀ found at' item, (.ok chunk : Except AiMuxError Json) = .ok found →
            PlacedItem "response.output_item.done" "message" at' item found →
            (filed settings (items.id at') rotatedBefore).map annotationFields =
              (filed settings (items.id at') before).map annotationFields := by
        rw [closing_inj, hFiled index hEnds hPending, hTable index hEnds hPending]
        constructor
        · rintro h found at' item ⟨⟩ hFound
          obtain rfl := Option.some.inj (hFound.place.symm.trans hPlaced.place)
          exact h
        · exact fun h => h chunk index item rfl hPlaced
      rw [hOther]
      obtain ⟨hLast, hReads⟩ := ih hRest hStep
        (hNext ▸ hFiled.ended (Rotates.noted_done (.same _) hDone) hEnds hNil)
        (hTable.ended (hRotates.noted_done hDone) hEnds hNil)
      rw [hOtherParts, hParts, List.singleton_append, List.singleton_append, List.cons.injEq]
      exact ⟨hLast, and_congr hHead hReads⟩

end

/-! ## The streams -/

/-- The items of a stream that are not the chunks themselves. -/
def shown (items : List (Item StreamPart)) : List (Item StreamPart) :=
  items.filter fun item => match item with
    | .ok (.raw _) => false
    | _ => true

theorem shown_ok (parts : List StreamPart) : shown (parts.map .ok) = (read parts).map .ok := by
  induction parts with
  | nil => rfl
  | cons part parts ih =>
    rw [List.map_cons, shown, List.filter_cons, read, List.filter_cons]
    cases part <;> first | exact ih | exact congrArg (_ :: ·) ih

/-- A well-formed stream whose items are named by other ids after they were added emits the same parts exactly when at
the end of each message the annotations filed under the id it was added with look the same. -/
theorem rotated_parts_iff (settings : ResponsesSettings) {events rotated : List (Except AiMuxError Json)}
    (items : ItemSequences events) (hRotated : List.Forall₂ Rotates events rotated) :
    shown ((responsesTransformer settings).pipeThrough rotated) =
        shown ((responsesTransformer settings).pipeThrough events) ↔
      ∀ before chunk after index item, events = before ++ .ok chunk :: after →
        PlacedItem "response.output_item.done" "message" index item chunk →
          (filed settings (items.id index) (rotated.take before.length)).map annotationFields =
            (filed settings (items.id index) before).map annotationFields := by
  have hFiled : Filed items settings events (fun _ => none) [] := fun _ _ _ => rfl
  obtain ⟨⟨last, hLast⟩, hReads⟩ := run_rotated hRotated (fun _ hMem => hMem) (tracked_start items settings.storeFlag)
    hFiled hFiled
  have hLast : (run settings {} rotated).1 = (run settings {} events).1.annotated last := hLast
  have hFlush : (run settings {} rotated).1.flush settings = (run settings {} events).1.flush settings := by
    rw [hLast]
    rfl
  rw [pipeThrough_eq, pipeThrough_eq, hFlush, shown, shown, List.filter_append, List.filter_append, List.filter_append,
    List.filter_append, List.append_cancel_right_eq, List.append_cancel_left_eq]
  refine Iff.trans ?_ hReads
  show shown _ = shown _ ↔ _
  rw [shown_ok, shown_ok, List.map_inj_right fun _ _ => Except.ok.inj]
  rfl

def messageEvent (kind : String) : Json := .object [("type", .string kind), ("output_index", jsonNat 0),
  ("item", .object [("type", .string "message"), ("id", .string "m1")])]

/-- An annotation of the only message, under an id. -/
def citedUnder (id : String) : Json := .object [("type", .string ANNOTATION_ADDED), ("item_id", .string id),
  ("output_index", jsonNat 0), ("annotation", .object [("type", .string "url_citation"), ("start_index", jsonNat 0),
    ("end_index", jsonNat 5), ("url", .string "https://example.com"), ("title", .string "Example")])]

/-- A message with one text and one annotation, which names the id. -/
def cited (id : String) : List (Except AiMuxError Json) := [
  .ok (messageEvent "response.output_item.added"),
  .ok (.object [("type", .string "response.output_text.delta"), ("item_id", .string "m1"), ("output_index", jsonNat 0),
    ("delta", .string "hello")]),
  .ok (citedUnder id),
  .ok (messageEvent "response.output_item.done")]

theorem cited_lanes (index : Nat) : (Lane.absent).Trace "m1" index ((cited "m1").filter (isItemEventAt index))
    (if index = 0 then .messageEnded else .absent) := by
  by_cases hIndex : index = 0
  · subst hIndex
    have hAdded : PlacedItem "response.output_item.added" "message" 0 _
      (messageEvent "response.output_item.added") := ⟨⟨rfl, rfl, rfl⟩, rfl, rfl⟩
    have hDone : PlacedItem "response.output_item.done" "message" 0 _
      (messageEvent "response.output_item.done") := ⟨⟨rfl, rfl, rfl⟩, rfl, rfl⟩
    exact .cons (.messageAdded hAdded rfl) (.cons (.textDelta ⟨rfl, rfl, rfl⟩) (.cons (.messageDone hDone) (.nil _)))
  · have hPlace {event : Except AiMuxError Json} (hEvent : event ∈ cited "m1") : placeOf event = some 0 := by
      revert event
      simp [cited, placeOf, messageEvent, citedUnder]
      decide
    have hNone : (cited "m1").filter (isItemEventAt index) = [] := by
      rw [List.filter_eq_nil_iff]
      intro event hEvent
      rw [isItemEventAt, hPlace hEvent, Bool.and_eq_true, decide_eq_true_iff]
      exact fun h => hIndex (Option.some.inj h.2).symm
    rw [hNone, if_neg hIndex]
    exact .nil _

theorem cited_placed (event : Except AiMuxError Json) (hEvent : event ∈ cited "m1") (_ : isItemEvent event = true) :
    ∃ index, placeOf event = some index := by
  refine ⟨0, ?_⟩
  revert event
  simp [cited, placeOf, messageEvent, citedUnder]
  decide

/-- Only the first item ends, as a message. -/
theorem cited_ends {index : Nat} {lane : Lane} (h : (if index = 0 then Lane.messageEnded else .absent) = lane)
    (hAbsent : lane ≠ .absent) : index = 0 ∧ lane = .messageEnded := by
  split at h
  · exact ⟨by assumption, h.symm⟩
  · exact absurd h.symm hAbsent

theorem cited_closed (index : Nat) : (if index = 0 then Lane.messageEnded else .absent) = .absent ∨
    (if index = 0 then Lane.messageEnded else .absent) = .messageEnded ∨
      ∃ parts, (if index = 0 then Lane.messageEnded else .absent) = .reasoningEnded parts := by
  by_cases hIndex : index = 0
  · exact .inr (.inl (if_pos hIndex))
  · exact .inl (if_neg hIndex)

theorem cited_messages (i j : Nat) (hFirst : (if i = 0 then Lane.messageEnded else .absent) = .messageEnded)
    (hSecond : (if j = 0 then Lane.messageEnded else .absent) = .messageEnded) (hNe : i ≠ j) :
    "m1" ≠ "m1" ∧ ∀ n, "m1" ≠ summaryId "m1" n :=
  absurd ((cited_ends hFirst nofun).1.trans (cited_ends hSecond nofun).1.symm) hNe

theorem cited_reasonings (i j : Nat) (parts others : Summary)
    (hFirst : (if i = 0 then Lane.messageEnded else .absent) = .reasoningEnded parts)
    (_ : (if j = 0 then Lane.messageEnded else .absent) = .reasoningEnded others) (_ : i ≠ j) : "m1" ≠ "m1" := by
  cases (cited_ends hFirst nofun).2

def citedItems : ItemSequences (cited "m1") where
  id _ := "m1"
  ends index := if index = 0 then .messageEnded else .absent
  lanes := cited_lanes
  closed := cited_closed
  placed := cited_placed
  messages := cited_messages
  reasonings := cited_reasonings

theorem cited_rotates : List.Forall₂ Rotates (cited "m1") (cited "m2") := by
  refine .cons (.same _) (.cons (.same _) (.cons (.part (by decide) (fun name hName => ?_) (by decide))
    (.cons (.same _) .nil)))
  simp [citedUnder, Json.get, asObject, lookup_cons_eq, hName]

/-- What the ends of texts name. -/
def endKeys (items : List (Item StreamPart)) : List String :=
  items.flatMap fun item => match item with
    | .ok (.textEnd _ (some [(_, .object fields)])) => fields.map (·.1)
    | _ => []

/-- An annotation that names another id is not shown at the end of its message. -/
theorem annotation_lost : ¬∀ (settings : ResponsesSettings) (events rotated : List (Except AiMuxError Json)),
    ItemSequences events → List.Forall₂ Rotates events rotated →
      shown ((responsesTransformer settings).pipeThrough rotated) =
        shown ((responsesTransformer settings).pipeThrough events) := by
  intro h
  have hSame := h (plainSettings false true) (cited "m1") (cited "m2") citedItems cited_rotates
  exact absurd (congrArg endKeys hSame) (by decide +kernel)

theorem rotated_parts_iff_cited : List.Forall₂ Rotates (cited "m1") (cited "m2") ∧
    (shown ((responsesTransformer (plainSettings false true)).pipeThrough (cited "m2")) =
        shown ((responsesTransformer (plainSettings false true)).pipeThrough (cited "m1")) ↔
      ∀ before chunk after index item, cited "m1" = before ++ .ok chunk :: after →
        PlacedItem "response.output_item.done" "message" index item chunk →
          (filed (plainSettings false true) (citedItems.id index) ((cited "m2").take before.length)).map annotationFields =
            (filed (plainSettings false true) (citedItems.id index) before).map annotationFields) :=
  ⟨cited_rotates, rotated_parts_iff (plainSettings false true) citedItems cited_rotates⟩

end Aimux.Responses
