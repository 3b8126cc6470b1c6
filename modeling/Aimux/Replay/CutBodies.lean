import Aimux.Lib.Utf8Cuts
import Aimux.Replay.StreamRebuild

/-! # Bodies cut by the recorder

Of a body that was cut the stream is rebuilt from the events before the cut, and ends like a whole one.
-/

namespace Aimux.Replay

open Aimux.Core Aimux.Recorder Aimux.Lib Aimux.Http

/-! ## The blocks of a cut body -/

theorem exists_splitBlocks (text : List Char) : ∃ front last, splitBlocks text = front ++ [last] := by
  fun_induction splitBlocks text with
  | case1 => exact ⟨[], [], rfl⟩
  | case2 rest ih =>
    obtain ⟨front, last, hSplit⟩ := ih
    exact ⟨[] :: front, last, by rw [hSplit]; rfl⟩
  | case3 c rest _ hSplit => exact ⟨[], [c], rfl⟩
  | case4 c rest _ block blocks hSplit ih =>
    obtain ⟨front, last, hFront⟩ := ih
    rw [hSplit] at hFront
    cases front with
    | nil =>
      obtain ⟨rfl, rfl⟩ := List.cons.inj hFront
      exact ⟨[], c :: block, rfl⟩
    | cons first front =>
      obtain ⟨rfl, rfl⟩ := List.cons.inj hFront
      exact ⟨(c :: block) :: front, last, rfl⟩

theorem splitBlocks_ne_nil (text : List Char) : splitBlocks text ≠ [] := by
  obtain ⟨front, last, hSplit⟩ := exists_splitBlocks text
  simp [hSplit]

theorem splitBlocks_break (rest : List Char) : splitBlocks ('\n' :: '\n' :: rest) = [] :: splitBlocks rest := by
  rw [splitBlocks]

theorem splitBlocks_cons {c : Char} {rest : List Char} (h : c = '\n' → rest.head? ≠ some '\n') :
    splitBlocks (c :: rest) = (c :: (splitBlocks rest).headD []) :: (splitBlocks rest).tail := by
  rw [splitBlocks]
  · cases hSplit : splitBlocks rest with
    | nil => exact absurd hSplit (splitBlocks_ne_nil rest)
    | cons block blocks => rfl
  · rintro more rfl rfl
    exact h rfl rfl

variable {text : List Char}

/-- All blocks but the last stay when more text follows. -/
theorem splitBlocks_append {last : List Char} {front : List (List Char)} (h : splitBlocks text = front ++ [last])
    (more : List Char) :
    ∃ later, splitBlocks (text ++ more) = front ++ later := by
  fun_induction splitBlocks text generalizing front with
  | case1 =>
    cases front with
    | nil => exact ⟨_, rfl⟩
    | cons block front => simp at h
  | case2 rest ih =>
    cases front with
    | nil => exact ⟨_, rfl⟩
    | cons block front =>
      obtain ⟨rfl, hRest⟩ := List.cons.inj h
      obtain ⟨later, hLater⟩ := ih hRest
      exact ⟨later, by rw [List.cons_append, List.cons_append, splitBlocks_break, hLater]; rfl⟩
  | case3 c rest _ hSplit => exact absurd hSplit (splitBlocks_ne_nil rest)
  | case4 c rest hBreak block blocks hSplit ih =>
    cases front with
    | nil => exact ⟨_, rfl⟩
    | cons first front =>
      obtain ⟨rfl, rfl⟩ := List.cons.inj h
      obtain ⟨later, hLater⟩ := @ih (block :: front) hSplit
      refine ⟨later, ?_⟩
      -- `rest` has two blocks, so it is not empty
      obtain ⟨second, rest, rfl⟩ : ∃ second tail, rest = second :: tail :=
        List.exists_cons_of_ne_nil fun hNil => by simp [hNil, splitBlocks] at hSplit
      rw [List.cons_append, splitBlocks_cons, hLater]
      · rfl
      · rintro rfl hHead
        exact hBreak rest rfl (by simpa using hHead)

theorem splitBlocks_line {line : List Char} (hLine : '\n' ∉ line) : splitBlocks line = [line] := by
  induction line with
  | nil => rfl
  | cons c line ih =>
    rw [List.mem_cons, not_or] at hLine
    rw [splitBlocks_cons fun hBreak => absurd hBreak.symm hLine.1, ih hLine.2]
    rfl

/-- Text without a line break goes on with the last block. -/
theorem splitBlocks_append_line {last : List Char} {front : List (List Char)} (h : splitBlocks text = front ++ [last])
    {more : List Char} (hLine : '\n' ∉ more) :
    splitBlocks (text ++ more) = front ++ [last ++ more] := by
  fun_induction splitBlocks text generalizing front last with
  | case1 =>
    cases front with
    | nil =>
      obtain ⟨rfl, _⟩ := List.cons.inj h
      exact splitBlocks_line hLine
    | cons block front => simp at h
  | case2 rest ih =>
    cases front with
    | nil => exact absurd (List.cons.inj h).2 (splitBlocks_ne_nil rest)
    | cons block front =>
      obtain ⟨rfl, hRest⟩ := List.cons.inj h
      rw [List.cons_append, List.cons_append, splitBlocks_break, ih hRest]
      rfl
  | case3 c rest _ hSplit => exact absurd hSplit (splitBlocks_ne_nil rest)
  | case4 c rest hBreak block blocks hSplit ih =>
    have hCons : splitBlocks (c :: (rest ++ more)) =
        (c :: (splitBlocks (rest ++ more)).headD []) :: (splitBlocks (rest ++ more)).tail := by
      refine splitBlocks_cons ?_
      rintro rfl hHead
      cases rest with
      | nil => exact hLine (List.mem_of_mem_head? hHead)
      | cons second rest => exact hBreak rest rfl (by simpa using hHead)
    rw [List.cons_append, hCons]
    cases front with
    | nil =>
      obtain ⟨rfl, rfl⟩ := List.cons.inj h
      rw [@ih _ [] hSplit]
      rfl
    | cons first front =>
      obtain ⟨rfl, rfl⟩ := List.cons.inj h
      rw [@ih _ (block :: front) hSplit]
      rfl

/-! ## The mark of a cut body -/

theorem getLast?_dropWhile {α : Type} {p : α → Bool} {items : List α} {last : α} (h : items.getLast? = some last)
    (hStays : p last = false) : (items.dropWhile p).getLast? = some last := by
  obtain ⟨front, rfl⟩ := List.getLast?_eq_some_iff.mp h
  rw [List.dropWhile_append]
  split
  · simp [hStays]
  · simp

theorem getLast?_trim {last : Char} (h : text.getLast? = some last) (hStays : isWhitespace last = false) :
    (trim text).getLast? = some last := by
  have hDropped := getLast?_dropWhile h hStays
  obtain ⟨front, hFront⟩ := List.getLast?_eq_some_iff.mp hDropped
  rw [trim, hFront, List.rdropWhile_concat_neg _ _ _ (by simp [hStays])]
  simp

theorem getLast?_blockData {block : List Char} (h : block.getLast? = some ')') :
    (blockData block).getLast? = some ')' := by
  have hLine := getLast?_trim h (by decide)
  refine getLast?_trim ?_ (by decide)
  split
  · rename_i hData
    obtain ⟨value, hValue⟩ := hData
    rw [← hValue] at hLine ⊢
    rw [List.getLast?_append] at hLine
    cases hLast : value.getLast? with
    | none =>
      rw [hLast] at hLine
      exact absurd hLine (by decide)
    | some c =>
      rw [hLast] at hLine
      rw [List.drop_left' (by decide), hLast]
      exact hLine
  · exact hLine

/-- The block of the cut is passed over. -/
theorem blockEvent_marked (serde : SerdeJson) (block : List Char) :
    blockEvent serde (block ++ "…(truncated)".toList) = none := by
  have hLast : (block ++ "…(truncated)".toList).getLast? = some ')' := by
    rw [List.getLast?_append]
    rfl
  have hData := getLast?_blockData hLast
  rw [blockEvent]
  split
  · rfl
  · by_contra hRead
    exact serde.closed _ hRead (by rw [String.toList_ofList]; exact hData)

theorem recordedBody_of_cut {bytes : List UInt8} (hCut : RECORD_BODY_CAP < bytes.length) :
    ∃ body, recordedBody bytes = some body := by
  have hSome : bytes ≠ [] := by
    rintro rfl
    simp at hCut
  exact ⟨_, by rw [recordedBody, if_neg hSome, if_pos hCut]⟩

/-- The events of a cut body are those of the whole one before the cut. -/
theorem events_cut (serde : SerdeJson) {bytes : List UInt8} (hCut : RECORD_BODY_CAP < bytes.length) {body : String}
    (hBody : recordedBody bytes = some body) :
    events serde body <+: events serde (fromUtf8Lossy bytes) := by
  have hSome : bytes ≠ [] := by
    rintro rfl
    simp at hCut
  rw [recordedBody, if_neg hSome, if_pos hCut, Option.some.injEq] at hBody
  have hKept := fromUtf8Lossy_cut (bytes.take RECORD_BODY_CAP) (bytes.drop RECORD_BODY_CAP)
  rw [List.take_append_drop] at hKept
  obtain ⟨more, hMore⟩ := hKept
  obtain ⟨front, last, hSplit⟩ := exists_splitBlocks
    ((fromUtf8Lossy (bytes.take RECORD_BODY_CAP)).toList.rdropWhile (· = '\uFFFD'))
  obtain ⟨later, hLater⟩ := splitBlocks_append hSplit more
  rw [← hBody, events, events, ← hMore, hLater, ByteAccumulator.markTruncated, String.toList_append,
    String.toList_ofList, splitBlocks_append_line hSplit (by decide), List.filterMap_append, List.filterMap_append]
  refine List.prefix_append_right_inj _ |>.mpr ?_
  rw [List.filterMap_cons, blockEvent_marked]
  exact List.nil_prefix

/-! ## What the events tell -/

def choices (event : Json) : List Json := (asArray (field event "choices")).getD []

def hasChoices (event : Json) : Bool := (asArray (field event "choices")).isSome

def namesResponse (event : Json) : Bool := (asStr (field event "id")).isSome || (asStr (field event "model")).isSome

def toolDeltas (choice : Json) : List Json := (asArray (field (field choice "delta") "tool_calls")).getD []

def toolIndices (read : List Json) : List Nat := ((read.flatMap choices).flatMap toolDeltas).map toolIndex

def finishReasons (event : Json) : List String :=
  (choices event).filterMap fun choice => asStr (field choice "finish_reason")

def lastFinish (read : List Json) : Option String := (read.flatMap finishReasons).getLast?

def readUsages (read : List Json) : Except AiMuxError Usage := read.foldlM readUsage {}

/-- Nothing but what ends a part: no text, and calls only by name. -/
structure Silent (known : List Nat) (choice : Json) : Prop where
  reasoning : ∀ text, reasoningDelta (field choice "delta") = some text → text = ""
  content : ∀ text, asStr (field (field choice "delta") "content") = some text → text = ""
  calls : ∀ delta ∈ toolDeltas choice, toolIndex delta ∈ known ∧ toolArguments delta = none

/-- Events that a rebuilt stream does not show. -/
structure AddsNothing (stored lost : List Json) : Prop where
  identity : (∃ event ∈ lost, namesResponse event = true) → ∃ event ∈ stored, namesResponse event = true
  silent : ∀ event ∈ lost, ∀ choice ∈ choices event, Silent (toolIndices stored) choice
  finish : lastFinish (stored ++ lost) = lastFinish stored
  usage : readUsages (stored ++ lost) = readUsages stored

/-! ## The state after a run -/

namespace Progress

theorem endReasoning_fst (p : Progress) : p.endReasoning.1 = { p with reasoningStarted := false } := by
  obtain ⟨_, reasoningStarted, _, _, _, _⟩ := p
  cases reasoningStarted <;> rfl

theorem endText_fst (p : Progress) : p.endText.1 = { p with textStarted := false } := by
  obtain ⟨textStarted, _, _, _, _, _⟩ := p
  cases textStarted <;> rfl

/-- What the state knows after a step: the identity was told, there were choices, and the calls and the
finish reasons that came. -/
structure Learns (p q : Progress) (named openai : Bool) (indices : List Nat) (reasons : List String) : Prop where
  identity : q.responseMetaEmitted = (p.responseMetaEmitted || named)
  openai : q.sawOpenai = (p.sawOpenai || openai)
  calls : ∀ index, index ∈ q.toolCalls.map (·.1) ↔ index ∈ p.toolCalls.map (·.1) ∨ index ∈ indices
  finish : q.finalFinish = (reasons.getLast?.map parseFinish).or p.finalFinish

theorem Learns.nothing (p : Progress) : Learns p p false false [] [] :=
  ⟨(Bool.or_false _).symm, (Bool.or_false _).symm, fun _ => by simp, rfl⟩

variable {p q : Progress}

theorem Learns.trans {r : Progress} {named named' openai openai' : Bool} {indices indices' : List Nat}
    {reasons reasons' : List String} (h : Learns p q named openai indices reasons)
    (h' : Learns q r named' openai' indices' reasons') :
    Learns p r (named || named') (openai || openai') (indices ++ indices') (reasons ++ reasons') where
  identity := by rw [h'.identity, h.identity, Bool.or_assoc]
  openai := by rw [h'.openai, h.openai, Bool.or_assoc]
  calls index := by rw [h'.calls, h.calls, List.mem_append, or_assoc]
  finish := by
    rw [h'.finish, h.finish, List.getLast?_append, ← Option.or_assoc]
    cases reasons'.getLast? <;> rfl

variable {step : Transducer Progress Json StreamPart}

theorem Learns.run {named openai : Json → Bool} {indices : Json → List Nat} {reasons : Json → List String}
    (hStep : ∀ p x, Learns p (step p x).1 (named x) (openai x) (indices x) (reasons x)) (p : Progress)
    (items : List Json) :
    Learns p (Transducer.run step p items).1 (items.any named) (items.any openai) (items.flatMap indices)
      (items.flatMap reasons) := by
  induction items generalizing p with
  | nil => exact .nothing p
  | cons x items ih => exact (hStep p x).trans (ih _)

theorem Learns.runChoice {indices : Json → List Nat} {reasons : Json → List String}
    (hStep : ∀ p x, Learns p (step p x).1 false false (indices x) (reasons x)) (p : Progress) (items : List Json) :
    Learns p (Transducer.run step p items).1 false false (items.flatMap indices) (items.flatMap reasons) := by
  have hNone : (items.any fun _ => false) = false := List.any_eq_false.mpr fun _ _ => Bool.false_ne_true
  have hRun := Learns.run hStep p items
  rwa [hNone] at hRun

theorem Learns.blocks (p : Progress) (text reasoning : Bool) :
    Learns p { p with textStarted := text, reasoningStarted := reasoning } false false [] [] :=
  ⟨(Bool.or_false _).symm, (Bool.or_false _).symm, fun _ => by simp, rfl⟩

theorem learns_endReasoning (p : Progress) : Learns p p.endReasoning.1 false false [] [] := by
  rw [endReasoning_fst]
  exact .blocks p p.textStarted false

theorem learns_readReasoning (p : Progress) (delta : Json) :
    Learns p (p.readReasoning delta).1 false false [] [] := by
  rw [readReasoning]
  split
  · exact .nothing p
  · split
    · exact .nothing p
    · exact .blocks p p.textStarted true

theorem learns_readText (p : Progress) (delta : Json) : Learns p (p.readText delta).1 false false [] [] := by
  rw [readText, endReasoning_fst]
  split
  · exact .nothing p
  · split
    · exact .nothing p
    · exact .blocks p true false

theorem mem_keys_iff {calls : List (Nat × RawToolCall)} {index : Nat} :
    index ∈ calls.map (·.1) ↔ (calls.lookup index).isSome = true := by
  rw [List.lookup_eq_findSome?, List.findSome?_isSome_iff, List.mem_map]
  refine exists_congr fun entry => and_congr_right fun _ => ?_
  by_cases hKey : index = entry.1
  · simp [hKey]
  · simp [hKey, Ne.symm hKey]

theorem learns_readToolDelta (p : Progress) (delta : Json) :
    Learns p (readToolDelta p delta).1 false false [toolIndex delta] [] := by
  cases hHeld : p.toolCalls.lookup (toolIndex delta) with
  | none =>
    rw [readToolDelta, hHeld]
    exact ⟨(Bool.or_false _).symm, (Bool.or_false _).symm, fun index => by simp, rfl⟩
  | some call =>
    have hMem : toolIndex delta ∈ p.toolCalls.map (·.1) := mem_keys_iff.mpr (by rw [hHeld]; rfl)
    have hKeys (index : Nat) : index ∈ p.toolCalls.map (·.1) ↔
        index ∈ p.toolCalls.map (·.1) ∨ index ∈ [toolIndex delta] := by
      rw [List.mem_singleton]
      exact ⟨.inl, fun h => h.elim id (· ▸ hMem)⟩
    rw [readToolDelta, hHeld]
    dsimp only
    split
    · exact ⟨(Bool.or_false _).symm, (Bool.or_false _).symm, hKeys, rfl⟩
    · refine ⟨(Bool.or_false _).symm, (Bool.or_false _).symm, fun index => ?_, rfl⟩
      rw [← hKeys, List.map_map]
      refine Eq.to_iff (congrArg (index ∈ ·) (List.map_congr_left fun entry _ => ?_))
      dsimp only [Function.comp]
      split <;> rfl

theorem learns_readToolCalls (p : Progress) (choice : Json) :
    Learns p (p.readToolCalls (field choice "delta")).1 false false ((toolDeltas choice).map toolIndex) [] := by
  rw [readToolCalls, toolDeltas]
  cases asArray (field (field choice "delta") "tool_calls") with
  | none => exact .nothing p
  | some deltas =>
    have hRun := (learns_endReasoning p).trans (Learns.runChoice learns_readToolDelta p.endReasoning.1 deltas)
    have hNone : (deltas.flatMap fun _ => ([] : List String)) = [] := by simp
    simpa [← List.map_eq_flatMap, hNone] using hRun

theorem learns_readFinish (p : Progress) (choice : Json) :
    Learns p (p.readFinish choice).1 false false [] (asStr (field choice "finish_reason")).toList := by
  rw [readFinish]
  cases asStr (field choice "finish_reason") with
  | none => exact .nothing p
  | some raw =>
    rw [endReasoning_fst, endText_fst]
    exact ⟨(Bool.or_false _).symm, (Bool.or_false _).symm, fun _ => by simp, rfl⟩

theorem learns_readChoice (p : Progress) (choice : Json) :
    Learns p (readChoice p choice).1 false false ((toolDeltas choice).map toolIndex)
      (asStr (field choice "finish_reason")).toList := by
  have hRead := (((learns_readReasoning p (field choice "delta")).trans
    (learns_readText _ (field choice "delta"))).trans (learns_readToolCalls _ choice)).trans
    (learns_readFinish _ choice)
  rw [readChoice]
  simpa using hRead

theorem learns_readChoices (p : Progress) (event : Json) :
    Learns p (p.readChoices event).1 false (hasChoices event)
      (((choices event).flatMap toolDeltas).map toolIndex) (finishReasons event) := by
  rw [readChoices, hasChoices, finishReasons, choices]
  cases asArray (field event "choices") with
  | none => exact .nothing p
  | some found =>
    have hOpenai : Learns p { p with sawOpenai := true } false true [] [] :=
      ⟨(Bool.or_false _).symm, (Bool.or_true _).symm, fun _ => by simp, rfl⟩
    have hRun := hOpenai.trans (Learns.runChoice learns_readChoice { p with sawOpenai := true } found)
    simpa [List.map_flatMap, List.filterMap_eq_flatMap_toList] using hRun

theorem learns_readEvent (p : Progress) (event : Json) :
    Learns p (readEvent p event).1 (namesResponse event) (hasChoices event)
      (((choices event).flatMap toolDeltas).map toolIndex) (finishReasons event) := by
  have hIdentity : Learns p (p.readIdentity event).1 (namesResponse event) false [] [] := by
    rw [readIdentity, ← namesResponse]
    cases hEmitted : p.responseMetaEmitted <;> cases hNamed : namesResponse event
    all_goals exact ⟨by simp [hEmitted], by simp, fun _ => by simp, rfl⟩
  have hRead := hIdentity.trans (learns_readChoices (p.readIdentity event).1 event)
  rw [readEvent]
  simpa using hRead

theorem learns_events (p : Progress) (read : List Json) :
    Learns p (Transducer.run readEvent p read).1 (read.any namesResponse) (read.any hasChoices) (toolIndices read)
      (read.flatMap finishReasons) := by
  have hRun := Learns.run learns_readEvent p read
  rwa [show (read.flatMap fun event => ((choices event).flatMap toolDeltas).map toolIndex) = toolIndices read by
    rw [toolIndices, List.flatMap_assoc, List.map_flatMap]] at hRun

/-! ## Events that are not shown -/

/-- Whether a part is none of those that a stream may end with. -/
def shows : StreamPart → Bool
  | .textEnd .. => false
  | .reasoningEnd .. => false
  | .toolInputEnd .. => false
  | .toolCall _ => false
  | _ => true

/-- A step that ends nothing but what the end of the stream would have ended. -/
structure Closes (p : Progress) (read : Progress × List StreamPart) : Prop where
  closing : read.2 ++ read.1.closing = p.closing
  identity : read.1.responseMetaEmitted = p.responseMetaEmitted
  calls : read.1.toolCalls = p.toolCalls

/-- A step is silent and then only closes, or it shows something. -/
def Tells (silent : Prop) (p : Progress) (read : Progress × List StreamPart) : Prop :=
  (silent ∧ Closes p read) ∨ (¬ silent ∧ ∃ part ∈ read.2, shows part = true)

theorem not_shows_closing (p : Progress) {part : StreamPart} (hMem : part ∈ p.closing) : shows part = false := by
  rw [closing, endReasoning, endText] at hMem
  simp only [List.mem_append, List.mem_flatMap] at hMem
  rcases hMem with hMem | hMem | ⟨entry, _, hMem⟩
  · split at hMem <;> simp_all [shows]
  · split at hMem <;> simp_all [shows]
  · rcases List.mem_pair.mp hMem with rfl | rfl <;> rfl

variable {silent : Prop} {read : Progress × List StreamPart}

theorem Tells.of_iff {silent' : Prop} (hSame : silent ↔ silent') (h : Tells silent p read) : Tells silent' p read := by
  rwa [Tells, ← hSame]

theorem Tells.iff (h : Tells silent p read) : read.2 ++ read.1.closing = p.closing ↔ silent := by
  rcases h with ⟨hSilent, hCloses⟩ | ⟨hLoud, part, hMem, hShows⟩
  · exact ⟨fun _ => hSilent, fun _ => hCloses.closing⟩
  · refine ⟨fun hSame => ?_, fun hSilent => absurd hSilent hLoud⟩
    have hHidden := not_shows_closing p (hSame ▸ List.mem_append_left _ hMem)
    rw [hShows] at hHidden
    cases hHidden

theorem Closes.nothing (p : Progress) : Closes p (p, []) := ⟨rfl, rfl, rfl⟩

variable {first : Progress × List StreamPart}

theorem Closes.trans {out : List StreamPart} (h : Closes p first) (h' : Closes first.1 (q, out)) :
    Closes p (q, first.2 ++ out) where
  closing := by
    rw [← h.closing, ← h'.closing, List.append_assoc]
  identity := h'.identity.trans h.identity
  calls := h'.calls.trans h.calls

theorem Tells.trans {silent' : Prop} {out : List StreamPart} (h : Tells silent p first)
    (h' : Closes p first → Tells silent' first.1 (q, out)) : Tells (silent ∧ silent') p (q, first.2 ++ out) := by
  rcases h with ⟨hSilent, hCloses⟩ | ⟨hLoud, part, hMem, hShows⟩
  · rcases h' hCloses with ⟨hSilent', hCloses'⟩ | ⟨hLoud', part, hMem, hShows⟩
    · exact .inl ⟨⟨hSilent, hSilent'⟩, hCloses.trans hCloses'⟩
    · exact .inr ⟨fun hBoth => hLoud' hBoth.2, part, List.mem_append_right _ hMem, hShows⟩
  · exact .inr ⟨fun hBoth => hLoud hBoth.1, part, List.mem_append_left _ hMem, hShows⟩

theorem Tells.run {silent : Json → Prop}
    (hStep : ∀ q x, q.responseMetaEmitted = p.responseMetaEmitted → q.toolCalls = p.toolCalls →
      Tells (silent x) q (step q x)) (items : List Json) (hIdentity : q.responseMetaEmitted = p.responseMetaEmitted)
    (hCalls : q.toolCalls = p.toolCalls) :
    Tells (∀ x ∈ items, silent x) q (Transducer.run step q items) := by
  induction items generalizing q with
  | nil => exact .inl ⟨by simp, .nothing q⟩
  | cons x items ih =>
    refine .of_iff List.forall_mem_cons.symm ((hStep q x hIdentity hCalls).trans fun hCloses => ?_)
    exact ih (hCloses.identity.trans hIdentity) (hCloses.calls.trans hCalls)

theorem closes_endReasoning (p : Progress) : Closes p p.endReasoning := by
  obtain ⟨_, reasoningStarted, _, _, _, _⟩ := p
  cases reasoningStarted <;> exact ⟨by simp [closing, endReasoning, endText, apply_ite Prod.snd], rfl, rfl⟩

/-- A text is ended where the reasoning is. -/
theorem closes_endText (hEnded : p.reasoningStarted = false) : Closes p p.endText := by
  obtain ⟨textStarted, _, _, _, _, _⟩ := p
  subst hEnded
  cases textStarted <;> exact ⟨by simp [closing, endReasoning, endText], rfl, rfl⟩

/-- What is open does not depend on the finish reason and on whether there were choices. -/
theorem closing_eq (p : Progress) (finish : Option FinishReason) (openai : Bool) :
    closing { p with finalFinish := finish, sawOpenai := openai } = p.closing := by
  simp only [closing, endReasoning, endText, apply_ite Prod.snd]

theorem tells_readReasoning (p : Progress) (delta : Json) :
    Tells (∀ text, reasoningDelta delta = some text → text = "") p (p.readReasoning delta) := by
  rw [readReasoning]
  cases reasoningDelta delta with
  | none => exact .inl ⟨by simp, .nothing p⟩
  | some text =>
    by_cases hEmpty : text = ""
    · exact .inl ⟨by simpa using hEmpty, by simpa [hEmpty] using Closes.nothing p⟩
    · refine .inr ⟨by simpa using hEmpty, .reasoningDelta reasoningId text none, ?_, rfl⟩
      simp [hEmpty]

theorem tells_readText (p : Progress) (delta : Json) :
    Tells (∀ text, asStr (field delta "content") = some text → text = "") p (p.readText delta) := by
  rw [readText]
  cases asStr (field delta "content") with
  | none => exact .inl ⟨by simp, .nothing p⟩
  | some text =>
    by_cases hEmpty : text = ""
    · exact .inl ⟨by simpa using hEmpty, by simpa [hEmpty] using Closes.nothing p⟩
    · refine .inr ⟨by simpa using hEmpty, .textDelta textId text none, ?_, rfl⟩
      simp [hEmpty]

theorem tells_readToolDelta (p : Progress) (delta : Json) :
    Tells (toolIndex delta ∈ p.toolCalls.map (·.1) ∧ toolArguments delta = none) p (readToolDelta p delta) := by
  rw [readToolDelta, mem_keys_iff]
  cases p.toolCalls.lookup (toolIndex delta) with
  | none =>
    refine .inr ⟨by simp, .toolInputStart ((asStr (field delta "id")).getD "") _ none none none none,
      List.mem_cons_self, rfl⟩
  | some call =>
    cases toolArguments delta with
    | none => exact .inl ⟨⟨rfl, rfl⟩, .nothing p⟩
    | some arguments =>
      exact .inr ⟨by simp, .toolInputDelta call.toolCallId arguments none, List.mem_cons_self, rfl⟩

theorem tells_readToolCalls (p : Progress) (choice : Json) :
    Tells (∀ delta ∈ toolDeltas choice, toolIndex delta ∈ p.toolCalls.map (·.1) ∧ toolArguments delta = none) p
      (p.readToolCalls (field choice "delta")) := by
  rw [readToolCalls, toolDeltas]
  cases asArray (field (field choice "delta") "tool_calls") with
  | none => exact .inl ⟨by simp, .nothing p⟩
  | some deltas =>
    have hEnded : Tells True p p.endReasoning := .inl ⟨trivial, closes_endReasoning p⟩
    refine .of_iff (Iff.of_eq (true_and _)) (hEnded.trans fun hCloses => ?_)
    exact Tells.run (fun q delta _ hCalls => hCalls ▸ tells_readToolDelta q delta) deltas hCloses.identity hCloses.calls

theorem tells_readFinish (p : Progress) (choice : Json) : Tells True p (p.readFinish choice) := by
  rw [readFinish]
  cases asStr (field choice "finish_reason") with
  | none => exact .inl ⟨trivial, .nothing p⟩
  | some raw =>
    have hBoth : Closes p (p.endReasoning.1.endText.1, p.endReasoning.2 ++ p.endReasoning.1.endText.2) :=
      (closes_endReasoning p).trans (closes_endText (by rw [endReasoning_fst]))
    have hSame := closing_eq p.endReasoning.1.endText.1 (some (parseFinish raw)) p.endReasoning.1.endText.1.sawOpenai
    exact .inl ⟨trivial, (congrArg (_ ++ ·) hSame).trans hBoth.closing, hBoth.identity, hBoth.calls⟩

theorem silent_iff {known : List Nat} {choice : Json} :
    Silent known choice ↔ (∀ text, reasoningDelta (field choice "delta") = some text → text = "") ∧
      (∀ text, asStr (field (field choice "delta") "content") = some text → text = "") ∧
      (∀ delta ∈ toolDeltas choice, toolIndex delta ∈ known ∧ toolArguments delta = none) ∧ True :=
  ⟨fun h => ⟨h.reasoning, h.content, h.calls, trivial⟩, fun ⟨hReasoning, hContent, hCalls, _⟩ =>
    ⟨hReasoning, hContent, hCalls⟩⟩

theorem tells_readChoice (p : Progress) (choice : Json) :
    Tells (Silent (p.toolCalls.map (·.1)) choice) p (readChoice p choice) := by
  refine .of_iff silent_iff.symm ?_
  rw [readChoice]
  refine (tells_readReasoning p (field choice "delta")).trans fun hReasoning => ?_
  refine (tells_readText _ (field choice "delta")).trans fun hText => ?_
  rw [← hReasoning.calls, ← hText.calls]
  exact (tells_readToolCalls _ choice).trans fun _ => tells_readFinish _ choice

theorem tells_readIdentity (p : Progress) (event : Json) :
    Tells (namesResponse event = true → p.responseMetaEmitted = true) p (p.readIdentity event) := by
  rw [readIdentity, ← namesResponse]
  cases hEmitted : p.responseMetaEmitted <;> cases hNamed : namesResponse event
  case false.true => exact .inr ⟨by simp, _, List.mem_cons_self, rfl⟩
  all_goals exact .inl ⟨by simp, .nothing p⟩

theorem tells_readChoices (p : Progress) (event : Json) :
    Tells (∀ choice ∈ choices event, Silent (p.toolCalls.map (·.1)) choice) p (p.readChoices event) := by
  rw [readChoices, choices]
  cases asArray (field event "choices") with
  | none => exact .inl ⟨by simp, .nothing p⟩
  | some found =>
    have hRun := Tells.run (p := { p with sawOpenai := true }) (q := { p with sawOpenai := true })
      (fun q choice _ hCalls => hCalls ▸ tells_readChoice q choice) found rfl rfl
    rcases hRun with ⟨hSilent, hCloses⟩ | hLoud
    · refine .inl ⟨hSilent, ?_, hCloses.identity, hCloses.calls⟩
      rw [← closing_eq p p.finalFinish true, ← hCloses.closing]
    · exact .inr hLoud

theorem tells_events (p : Progress) (read : List Json) :
    Tells (∀ event ∈ read, (namesResponse event = true → p.responseMetaEmitted = true) ∧
      ∀ choice ∈ choices event, Silent (p.toolCalls.map (·.1)) choice) p (Transducer.run readEvent p read) := by
  refine Tells.run (fun q event hIdentity hCalls => ?_) read rfl rfl
  rw [← hIdentity, ← hCalls, readEvent]
  refine (tells_readIdentity q event).trans fun hNamed => ?_
  rw [← hNamed.calls]
  exact tells_readChoices _ event

end Progress

/-! ## Faithful replays -/

def storedEvents (serde : SerdeJson) (bytes : List UInt8) : List Json :=
  events serde ((recordedBody bytes).getD "")

/-- The events of the body after those that were recorded. -/
def lostEvents (serde : SerdeJson) (bytes : List UInt8) : List Json :=
  (events serde (fromUtf8Lossy bytes)).drop (storedEvents serde bytes).length

/-- None of the events is a chunk, or a count is no `u32`. -/
def Refused (read : List Json) : Prop := read.any hasChoices = false ∨ ∃ error, readUsages read = .error error

def isNormal : FinishReasonUnified → Bool
  | .stop => true
  | .length => true
  | .contentFilter => true
  | .toolCalls => true
  | .error => false
  | .other => false

def EndsNormally (parts : List StreamPart) : Prop :=
  ∃ reason usage metadata, parts.getLast? = some (.finish reason usage metadata) ∧ isNormal reason.unified = true

/-- The last finish reason that was told is an error or an unknown one. -/
def EndsAbnormally (read : List Json) : Prop :=
  ∃ raw, lastFinish read = some raw ∧ isNormal (parseFinish raw).unified = false

/-- A replay gives the parts of the whole body or an error, and a body that was cut does not end normally. -/
def Faithful (serde : SerdeJson) (bytes : List UInt8) (replayed : Except AiMuxError (List StreamPart)) : Prop :=
  ∀ parts, replayed = .ok parts → rebuildStream serde (fromUtf8Lossy bytes) = .ok parts ∧
    (RECORD_BODY_CAP < bytes.length → ¬ EndsNormally parts)

/-- The parts of events that are not refused. -/
def partsOf (read : List Json) (usage : Usage) : List StreamPart :=
  let rebuilt := Transducer.run Progress.readEvent {} read
  .streamStart [] :: rebuilt.2 ++ (rebuilt.1.closing ++ [StreamPart.finish rebuilt.1.finishReason usage none])

variable {read : List Json}

theorem rebuildEvents_eq {usage : Usage} (hUsage : readUsages read = .ok usage) (hChoices : read.any hasChoices = true) :
    rebuildEvents read = .ok (partsOf read usage) := by
  have hOpenai := (Progress.learns_events {} read).openai
  rw [rebuildEvents, ← readUsages, hUsage]
  simp only [bind, Except.bind]
  rw [hOpenai, hChoices]
  rfl

theorem rebuildEvents_refused (hRefused : Refused read) (parts : List StreamPart) :
    rebuildEvents read ≠ .ok parts := by
  have hOpenai := (Progress.learns_events {} read).openai
  rw [rebuildEvents, ← readUsages]
  cases hUsage : readUsages read with
  | error error => simp [bind, Except.bind]
  | ok usage =>
    rcases hRefused with hNone | ⟨error, hError⟩
    · simp only [bind, Except.bind]
      rw [hOpenai, hNone]
      simp
    · rw [hUsage] at hError
      cases hError

theorem finishReason_run (read : List Json) : (Transducer.run Progress.readEvent {} read).1.finishReason =
      ((lastFinish read).map parseFinish).getD { unified := .stop, raw := none } := by
  rw [Progress.finishReason, (Progress.learns_events {} read).finish, Option.or_none, lastFinish]

theorem finishReason_inj {other : List Json} (h : (Transducer.run Progress.readEvent {} read).1.finishReason =
    (Transducer.run Progress.readEvent {} other).1.finishReason) : lastFinish read = lastFinish other := by
  have hRaw := congrArg FinishReason.raw h
  rw [finishReason_run, finishReason_run] at hRaw
  cases hRead : lastFinish read <;> cases hOther : lastFinish other <;> simp_all [parseFinish]

theorem Silent.of_known {known known' : List Nat} (hKnown : ∀ index, index ∈ known ↔ index ∈ known') {choice : Json}
    (h : Silent known choice) : Silent known' choice where
  reasoning := h.reasoning
  content := h.content
  calls delta hMem := ⟨(hKnown _).mp (h.calls delta hMem).1, (h.calls delta hMem).2⟩

/-- What is silent after a run is told by its events. -/
theorem silent_after (stored lost : List Json) : (∀ event ∈ lost, (namesResponse event = true →
      (Transducer.run Progress.readEvent {} stored).1.responseMetaEmitted = true) ∧ ∀ choice ∈ choices event,
        Silent ((Transducer.run Progress.readEvent {} stored).1.toolCalls.map (·.1)) choice) ↔
      ((∃ event ∈ lost, namesResponse event = true) → ∃ event ∈ stored, namesResponse event = true) ∧
        ∀ event ∈ lost, ∀ choice ∈ choices event, Silent (toolIndices stored) choice := by
  have hStored := Progress.learns_events {} stored
  have hKnown (index : Nat) :
      index ∈ (Transducer.run Progress.readEvent {} stored).1.toolCalls.map (·.1) ↔ index ∈ toolIndices stored := by
    rw [hStored.calls]
    simp
  have hNamed : (Transducer.run Progress.readEvent {} stored).1.responseMetaEmitted = true ↔
      ∃ event ∈ stored, namesResponse event = true := by
    rw [hStored.identity, Bool.false_or, List.any_eq_true]
  constructor
  · intro h
    refine ⟨fun ⟨event, hMem, hNames⟩ => hNamed.mp ((h event hMem).1 hNames), fun event hMem choice hChoice => ?_⟩
    exact ((h event hMem).2 choice hChoice).of_known hKnown
  · rintro ⟨hIdentity, hSilent⟩ event hMem
    refine ⟨fun hNames => hNamed.mpr (hIdentity ⟨event, hMem, hNames⟩), fun choice hChoice => ?_⟩
    exact (hSilent event hMem choice hChoice).of_known fun index => (hKnown index).symm

variable {stored : List Json}

/-- More events leave the parts as they are exactly if they add nothing. -/
theorem partsOf_append {lost : List Json} {usage usage' : Usage} (hUsage : readUsages stored = .ok usage)
    (hUsage' : readUsages (stored ++ lost) = .ok usage') :
    partsOf (stored ++ lost) usage' = partsOf stored usage ↔ AddsNothing stored lost := by
  have hTells := (Progress.tells_events (Transducer.run Progress.readEvent {} stored).1 lost).iff
  rw [silent_after] at hTells
  rw [partsOf, partsOf, Transducer.run_append]
  dsimp only
  rw [List.cons_append, List.cons_append, List.cons.injEq, List.append_assoc, List.append_right_inj,
    ← List.append_assoc]
  constructor
  · rintro ⟨_, hSame⟩
    obtain ⟨hClosing, hFinish⟩ := List.append_inj' hSame rfl
    obtain ⟨hIdentity, hSilent⟩ := hTells.mp hClosing
    obtain ⟨hReason, hCounts, _⟩ := StreamPart.finish.inj (List.singleton_inj.mp hFinish)
    refine ⟨hIdentity, hSilent, finishReason_inj ?_, by rw [hUsage, hUsage', hCounts]⟩
    rw [Transducer.run_append, hReason]
  · intro hNothing
    have hReason := finishReason_run (stored ++ lost)
    rw [hNothing.finish, ← finishReason_run, Transducer.run_append] at hReason
    have hCounts : usage' = usage := by
      rw [hNothing.usage, hUsage] at hUsage'
      exact (Except.ok.inj hUsage').symm
    rw [hTells.mpr ⟨hNothing.identity, hNothing.silent⟩, hReason, hCounts]
    exact ⟨rfl, rfl⟩

theorem endsNormally_partsOf (read : List Json) (usage : Usage) :
    EndsNormally (partsOf read usage) ↔ ¬ EndsAbnormally read := by
  have hLast : (partsOf read usage).getLast? = some (.finish
      (((lastFinish read).map parseFinish).getD { unified := .stop, raw := none }) usage none) := by
    rw [partsOf, finishReason_run, ← List.append_assoc, List.getLast?_concat]
  rw [EndsNormally, hLast, EndsAbnormally]
  cases lastFinish read with
  | none => simp [isNormal]
  | some raw => simp

theorem any_hasChoices_append (h : stored.any hasChoices = true) (lost : List Json) :
    (stored ++ lost).any hasChoices = true := by
  rw [List.any_append, h, Bool.true_or]

/-- Of a cut body a replay is faithful if its events are refused, or if they end abnormally and nothing is
missing. -/
theorem faithful_events {lost : List Json} :
    (∀ parts, rebuildEvents stored = .ok parts → rebuildEvents (stored ++ lost) = .ok parts ∧ ¬ EndsNormally parts) ↔
      Refused stored ∨ (EndsAbnormally stored ∧ AddsNothing stored lost) := by
  by_cases hRefused : Refused stored
  · exact ⟨fun _ => .inl hRefused, fun _ parts hParts => absurd hParts (rebuildEvents_refused hRefused parts)⟩
  · obtain ⟨hChoices, hCounted⟩ := not_or.mp hRefused
    rw [Bool.not_eq_false] at hChoices
    obtain ⟨usage, hUsage⟩ : ∃ usage, readUsages stored = .ok usage := by
      cases hRead : readUsages stored with
      | error error => exact absurd ⟨error, hRead⟩ hCounted
      | ok usage => exact ⟨usage, rfl⟩
    have hStored := rebuildEvents_eq hUsage hChoices
    rw [or_iff_right hRefused]
    constructor
    · intro hFaithful
      obtain ⟨hSame, hEnds⟩ := hFaithful _ hStored
      rw [endsNormally_partsOf, not_not] at hEnds
      refine ⟨hEnds, ?_⟩
      cases hRead : readUsages (stored ++ lost) with
      | error error => exact absurd hSame (rebuildEvents_refused (.inr ⟨error, hRead⟩) _)
      | ok usage' =>
        rw [rebuildEvents_eq hRead (any_hasChoices_append hChoices lost), Except.ok.injEq] at hSame
        exact (partsOf_append hUsage hRead).mp hSame
    · rintro ⟨hEnds, hNothing⟩ parts hParts
      obtain rfl : partsOf stored usage = parts := Except.ok.inj (hStored.symm.trans hParts)
      have hRead : readUsages (stored ++ lost) = .ok usage := hNothing.usage.trans hUsage
      refine ⟨?_, fun hNormal => (endsNormally_partsOf stored usage).mp hNormal hEnds⟩
      rw [rebuildEvents_eq hRead (any_hasChoices_append hChoices lost), (partsOf_append hUsage hRead).mpr hNothing]

section

variable {Message : Type} {recording : Recording Message} {response : ResponseRecord} {bytes : List UInt8}

section

variable (serde : SerdeJson) (hResponse : lastResponse recording.exchanges = .ok response)

include serde hResponse

theorem rebuildStreamResult_eq {body : String} (hBody : response.body = some body) :
    rebuildStreamResult serde recording = rebuildStream serde body := by
  rw [rebuildStreamResult, hResponse]
  simp only [bind, Except.bind]
  rw [hBody]

theorem rebuildStreamResult_none (hBody : response.body = none) (parts : List StreamPart) :
    rebuildStreamResult serde recording ≠ .ok parts := by
  rw [rebuildStreamResult, hResponse]
  simp only [bind, Except.bind]
  rw [hBody]
  simp

theorem faithful_cut (hBody : response.body = recordedBody bytes) (hCut : RECORD_BODY_CAP < bytes.length) :
    Faithful serde bytes (rebuildStreamResult serde recording) ↔ Refused (storedEvents serde bytes) ∨
      (EndsAbnormally (storedEvents serde bytes) ∧
        AddsNothing (storedEvents serde bytes) (lostEvents serde bytes)) := by
  obtain ⟨body, hRecorded⟩ := recordedBody_of_cut hCut
  obtain ⟨lost, hLost⟩ := events_cut serde hCut hRecorded
  have hStored : storedEvents serde bytes = events serde body := by
    rw [storedEvents, hRecorded, Option.getD_some]
  have hDropped : lostEvents serde bytes = lost := by
    rw [lostEvents, hStored, ← hLost, List.drop_left]
  rw [rebuildStreamResult_eq serde hResponse (hBody.trans hRecorded), ← faithful_events, hStored, hDropped, Faithful,
    rebuildStream, rebuildStream, ← hLost]
  simp only [hCut, true_implies]

theorem faithful_whole (hBody : response.body = recordedBody bytes) (hFits : bytes.length ≤ RECORD_BODY_CAP) :
    Faithful serde bytes (rebuildStreamResult serde recording) := by
  refine fun parts hParts => ⟨?_, fun hCut => absurd hFits (Nat.not_le_of_lt hCut)⟩
  by_cases hSome : bytes = []
  · have hNone : response.body = none := by rw [hBody, recordedBody, if_pos hSome]
    exact absurd hParts (rebuildStreamResult_none serde hResponse hNone parts)
  · have hWhole : response.body = some (fromUtf8Lossy bytes) := by
      rw [hBody, recordedBody, if_neg hSome, if_neg (Nat.not_lt_of_le hFits)]
    rw [← hParts, rebuildStreamResult_eq serde hResponse hWhole]

end

/-- A replay of the recorded form of a body is faithful exactly if the body was not cut, or what is left of
it is refused, or that ends abnormally and the rest adds nothing. -/
theorem replay_faithful_iff (serde : SerdeJson) (hResponse : lastResponse recording.exchanges = .ok response)
    (hBody : response.body = recordedBody bytes) :
    Faithful serde bytes (rebuildStreamResult serde recording) ↔
      bytes.length ≤ RECORD_BODY_CAP ∨ Refused (storedEvents serde bytes) ∨
        (EndsAbnormally (storedEvents serde bytes) ∧
          AddsNothing (storedEvents serde bytes) (lostEvents serde bytes)) := by
  rcases Nat.lt_or_ge RECORD_BODY_CAP bytes.length with hCut | hFits
  · rw [faithful_cut serde hResponse hBody hCut, or_iff_right (Nat.not_le_of_lt hCut)]
  · exact ⟨fun _ => .inl hFits, fun _ => faithful_whole serde hResponse hBody hFits⟩

end

/-! ## A body that is cut in its second event -/

def answered (bytes : List UInt8) : ResponseRecord where
  status := 200
  headers := []
  body := recordedBody bytes
  streamChunks := some 1
  ttfbMs := none

/-- The recording of one exchange that was answered with these bytes. -/
def answeredRecording (bytes : List UInt8) : Recording Unit where
  schema := recordingSchema
  callId := "call"
  recordedAt := ""
  input := { operation := .languageModel, prompt := [], options := .null }
  provider := .fromModel "openai" "gpt-4o"
  exchanges := [{
    step := none
    attempt := 0
    exchangeIndex := 0
    request := { method := "POST", url := "", headers := [], body := none }
    response := some (answered bytes)
    timing := { latencyMs := 0, ttfbMs := none }
    error := none
    finalized := true }]
  outcome := {}
  complete := true
  transportClosed := true
  sessionId := none
  step := none

theorem lastResponse_answered (bytes : List UInt8) :
    lastResponse (answeredRecording bytes).exchanges = .ok (answered bytes) := rfl

theorem answered_body (bytes : List UInt8) : (answered bytes).body = recordedBody bytes := rfl

def greetingText : String := "\x7b\"choices\":[\x7b\"delta\":\x7b\"content\":\"hi\"\x7d\x7d]\x7d"

def longStart : String := "\x7b\"choices\":[\x7b\"delta\":\x7b\"content\":\""

def longEnd : String := "\"\x7d,\"finish_reason\":\"length\"\x7d]\x7d"

/-- More than the recorder keeps. -/
def longContent : List Char := List.replicate RECORD_BODY_CAP 'x'

def longText : String := longStart ++ String.ofList longContent ++ longEnd

def contentEvent (content : String) (rest : List (String × Json)) : Json :=
  .object [("choices", .array [.object (("delta", .object [("content", .string content)]) :: rest)])]

def sampleSerde : SerdeJson where
  fromStr text :=
    if text = greetingText then some (contentEvent "hi" [])
    else if text = longText then
      some (contentEvent (String.ofList longContent) [("finish_reason", .string "length")])
    else none
  closed text hRead := by
    split at hRead
    · rename_i hText
      rw [hText]
      decide
    · split at hRead
      · rename_i hText
        rw [hText, longText, String.toList_append, List.getLast?_append]
        decide
      · exact absurd rfl hRead

def longBody : List UInt8 :=
  utf8 ("data: " ++ greetingText ++ "\n\ndata: " ++ longText ++ "\n\ndata: [DONE]\n\n")

/-- A body that was kept whole. -/
theorem replay_faithful_greeting :
    Faithful sampleSerde (utf8 ("data: " ++ greetingText ++ "\n\n"))
      (rebuildStreamResult sampleSerde (answeredRecording (utf8 ("data: " ++ greetingText ++ "\n\n")))) := by
  refine (replay_faithful_iff sampleSerde (lastResponse_answered _) (answered_body _)).mpr (.inl ?_)
  have hShort : (utf8 ("data: " ++ greetingText ++ "\n\n")).length ≤ 200 := by decide
  exact hShort.trans (by norm_num [RECORD_BODY_CAP])

/-- What comes before the long content. -/
def longHead : String := "data: " ++ greetingText ++ "\n\ndata: " ++ longStart

theorem utf8_replicate (n : Nat) : utf8 (String.ofList (List.replicate n 'x')) = List.replicate n 120 := by
  rw [utf8, String.toList_ofList]
  induction n with
  | zero => rfl
  | succ n ih =>
    rw [List.replicate_succ, List.flatMap_cons, ih]
    rfl

theorem longBody_eq : longBody =
    utf8 longHead ++ (List.replicate RECORD_BODY_CAP 120 ++ utf8 (longEnd ++ "\n\ndata: [DONE]\n\n")) := by
  rw [longBody, longText, longHead, longContent]
  simp only [utf8_append, utf8_replicate, List.append_assoc]

theorem length_longHead : (utf8 longHead).length ≤ 200 := by
  decide

theorem longBody_cut : RECORD_BODY_CAP < longBody.length := by
  have hHead : 0 < (utf8 longHead).length := by decide
  rw [longBody_eq, List.length_append, List.length_append, List.length_replicate]
  omega

/-- The cut falls into the long content. -/
theorem take_longBody : ∃ n, longBody.take RECORD_BODY_CAP = utf8 (longHead ++ String.ofList (List.replicate (n + 1) 'x')) := by
  have hHead := length_longHead
  have hCap : 200 < RECORD_BODY_CAP := by norm_num [RECORD_BODY_CAP]
  refine ⟨RECORD_BODY_CAP - (utf8 longHead).length - 1, ?_⟩
  rw [longBody_eq, utf8_append longHead, utf8_replicate, List.take_append, List.take_of_length_le (by omega),
    List.take_append, List.take_replicate, List.length_replicate, Nat.sub_eq_zero_of_le (Nat.sub_le _ _),
    List.take_zero, List.append_nil, Nat.sub_add_cancel (by omega), Nat.min_eq_left (Nat.sub_le _ _)]

theorem storedEvents_longBody : storedEvents sampleSerde longBody = [contentEvent "hi" []] := by
  obtain ⟨n, hTake⟩ := take_longBody
  have hCut := longBody_cut
  have hSome : longBody ≠ [] := by
    intro hNil
    rw [hNil] at hCut
    simp at hCut
  have hKept : (longHead ++ String.ofList (List.replicate (n + 1) 'x')).toList.rdropWhile (· = '\uFFFD') =
      longHead.toList ++ List.replicate (n + 1) 'x' := by
    rw [String.toList_append, String.toList_ofList, List.replicate_succ', ← List.append_assoc,
      List.rdropWhile_concat_neg _ _ _ (by decide)]
  have hText : (longHead.toList ++ List.replicate (n + 1) 'x') ++ "…(truncated)".toList =
      ("data: " ++ greetingText ++ "\n\n").toList ++
        ((("data: " ++ longStart).toList ++ List.replicate (n + 1) 'x') ++ "…(truncated)".toList) := by
    rw [longHead]
    simp only [String.toList_append, List.append_assoc]
    rfl
  have hGreeting : splitBlocks ("data: " ++ greetingText ++ "\n\n").toList =
      [("data: " ++ greetingText).toList] ++ [[]] := by
    decide
  have hLine : '\n' ∉ (("data: " ++ longStart).toList ++ List.replicate (n + 1) 'x') ++ "…(truncated)".toList := by
    rw [List.mem_append, List.mem_append, List.mem_replicate]
    simp [longStart]
  rw [storedEvents, recordedBody, if_neg hSome, if_pos hCut, Option.getD_some, hTake, fromUtf8Lossy_utf8,
    ByteAccumulator.markTruncated, hKept, events, String.toList_append, String.toList_ofList, hText,
    splitBlocks_append_line hGreeting hLine, List.nil_append, List.filterMap_append, List.filterMap_cons,
    List.filterMap_cons, blockEvent_marked]
  have hEvent : blockEvent sampleSerde ("data: " ++ greetingText).toList = some (contentEvent "hi" []) := by
    have hData : blockData ("data: " ++ greetingText).toList = greetingText.toList := by decide
    rw [blockEvent, hData, if_neg (by decide), String.ofList_toList]
    simp only [sampleSerde, if_true]
  rw [hEvent]
  rfl

/-- The whole body ends for its length; what is replayed of it is a greeting that stops. -/
theorem cut_body_ends_normally :
    lastResponse (answeredRecording longBody).exchanges = .ok (answered longBody) ∧
      (answered longBody).body = recordedBody longBody ∧
      ¬ Faithful sampleSerde longBody (rebuildStreamResult sampleSerde (answeredRecording longBody)) := by
  refine ⟨lastResponse_answered longBody, answered_body longBody, fun hFaithful => ?_⟩
  have hStored := storedEvents_longBody
  rcases (faithful_cut sampleSerde (lastResponse_answered longBody) (answered_body longBody) longBody_cut).mp hFaithful with hRefused | ⟨⟨raw, hLast, _⟩, _⟩
  · rw [hStored] at hRefused
    rcases hRefused with hNone | ⟨error, hError⟩
    · exact absurd hNone (by decide)
    · cases hError
  · have hNone : lastFinish [contentEvent "hi" []] = none := by decide
    rw [hStored, hNone] at hLast
    cases hLast

end Aimux.Replay
