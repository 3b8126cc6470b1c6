import Aimux.Google.LanguageModel

/-! # What a stream lays out

The parts that a stream emits are put together as the call layer does it. What comes of them is said of the
candidate's parts alone: an item comes behind the others, and a text goes on in the block that is open.
-/

namespace Aimux.Google

open Aimux.Core
open Aimux.Provider (Controller)

/-! ## The layout of parts -/

/-- A call does not come piece by piece. -/
def WholeCall (part : Json) : Prop :=
  ∀ call, get part "functionCall" = some call →
    callField call "partialArgs" = none ∧ (callField call "willContinue").bind asBool ≠ some true

def isSigned (part : Json) : Bool := ((getStr part "thoughtSignature").filter (· ≠ "")).isSome

def textKind (part : Json) : BlockKind := if isThought part then .reasoning else .text

@[simp] theorem isSome_metadata (settings : Settings) (part : Json) :
    (thoughtSignatureMetadata settings part).isSome = isSigned part := Option.isSome_map

/-- The content, the open block and its place, and the ids so far. -/
structure Layout where
  content : List GenerateContent := []
  opened : Option (BlockKind × Nat) := none
  ids : CallIds := {}

/-- A text that goes on; the latest metadata stays. -/
def extend (kind : BlockKind) (text : String) (metadata : Option ProviderMetadata) :
    GenerateContent → GenerateContent :=
  match kind with
  | .text => StreamedContent.appendText text metadata
  | .reasoning => StreamedContent.appendReasoning text metadata

@[simp] theorem extend_content (kind : BlockKind) (body text : String) (before metadata : Option ProviderMetadata) :
    extend kind text metadata (kind.content body before) = kind.content (body ++ text) (metadata <|> before) := by
  cases kind <;> rfl

namespace Layout

def push (layout : Layout) (content : List GenerateContent) (ids : CallIds) : Layout :=
  { layout with content := layout.content ++ content, ids }

def close (layout : Layout) : Layout := { layout with opened := none }

def speak (layout : Layout) (kind : BlockKind) (text : String) (metadata : Option ProviderMetadata) : Layout :=
  match layout.opened with
  | some (going, i) =>
    if going = kind then { layout with content := layout.content.modify i (extend kind text metadata) }
    else { layout with
      content := layout.content ++ [kind.content text metadata]
      opened := some (kind, layout.content.length) }
  | none => { layout with
      content := layout.content ++ [kind.content text metadata]
      opened := some (kind, layout.content.length) }

/-- A signed text is the last of its block. -/
def text (layout : Layout) (kind : BlockKind) (text : String) (metadata : Option ProviderMetadata) : Layout :=
  let spoken := layout.speak kind text metadata
  if kind = .text ∧ metadata.isSome then spoken.close else spoken

def callInput (settings : Settings) (call : Json) : String :=
  match callField call "args" with
  | some (.string args) => args
  | some args => settings.toString args
  | none => "\x7b\x7d"

def call (settings : Settings) (layout : Layout) (part call : Json) : Layout :=
  match getStr call "name" with
  | some name =>
    let id := layout.ids.sentOr settings (getStr call "id")
    layout.push [.toolCall {
      toolCallId := id.1
      toolName := name
      input := callInput settings call
      providerMetadata := thoughtSignatureMetadata settings part }] id.2
  | none => layout

def part (settings : Settings) (layout : Layout) (part : Json) : Layout :=
  match getStr part "text" with
  | some text =>
    if text ≠ "" ∨ isSigned part = true then
      layout.text (textKind part) text (thoughtSignatureMetadata settings part)
    else layout
  | none =>
    match get part "executableCode" with
    | some ec =>
      let call := executableCode settings layout.ids ec
      layout.push (call.1.map GenerateContent.toolCall).toList call.2
    | none =>
      match get part "codeExecutionResult" with
      | some cer =>
        layout.push ((codeExecutionResult settings layout.ids cer).map GenerateContent.toolResult).toList layout.ids
      | none =>
        match get part "toolCall" with
        | some tc =>
          let call := serverToolCall settings layout.ids part tc
          layout.push [.toolCall call.1] call.2
        | none =>
          match get part "toolResponse" with
          | some tr =>
            let result := serverToolResponse settings layout.ids part tr
            layout.push [.toolResult result.1] result.2
          | none =>
            match get part "inlineData" with
            | some inline =>
              layout.close.push ((inlineFile settings part inline).map
                (if isThought part then GenerateContent.reasoningFile else GenerateContent.file)).toList layout.ids
            | none =>
              match get part "functionCall" with
              | some call => layout.close.call settings part call
              | none => layout

end Layout

/-! ## What is put together of the emitted parts -/

def observed (streamed : StreamedContent) (parts : List StreamPart) : StreamedContent :=
  parts.foldl StreamedContent.observe streamed

@[simp] theorem observed_nil (streamed : StreamedContent) : observed streamed [] = streamed := rfl

@[simp] theorem observed_append (streamed : StreamedContent) (a b : List StreamPart) :
    observed streamed (a ++ b) = observed (observed streamed a) b := List.foldl_append

theorem observed_of_isAside (streamed : StreamedContent) {parts : List StreamPart}
    (hAside : ∀ part ∈ parts, isAside part = true) : observed streamed parts = streamed := by
  induction parts with
  | nil => rfl
  | cons part parts ih =>
    have hHead := hAside part (List.mem_cons_self ..)
    rw [observed, List.foldl_cons, show streamed.observe part = streamed by cases part <;> first | rfl | cases hHead]
    exact ih fun other hOther => hAside other (List.mem_cons_of_mem _ hOther)

def blockIndex (streamed : StreamedContent) : BlockKind → String → Option Nat
  | .text => streamed.text
  | .reasoning => streamed.reasoning

variable {kind : BlockKind}

theorem observe_start {streamed : StreamedContent} {id : String}
    (hNone : blockIndex streamed kind id = none) (metadata : Option ProviderMetadata) :
    (streamed.observe (kind.startPart id metadata)).content = streamed.content ++ [kind.content "" metadata] ∧
      ∀ other key, blockIndex (streamed.observe (kind.startPart id metadata)) other key =
        if other = kind ∧ key = id then some streamed.content.length else blockIndex streamed other key := by
  cases kind
  all_goals
    simp only [blockIndex] at hNone
    simp only [StreamedContent.observe, BlockKind.startPart, StreamedContent.upsertText,
      StreamedContent.upsertReasoning, hNone]
    refine ⟨rfl, fun other key => ?_⟩
    cases other <;> simp [blockIndex, Function.update_apply]

section

variable {streamed : StreamedContent} {kind : BlockKind} {id : String} {i : Nat}
  (hIndex : blockIndex streamed kind id = some i)
include hIndex

theorem observe_delta (delta : String) (metadata : Option ProviderMetadata) :
    (streamed.observe (kind.deltaPart id delta metadata)).content =
        streamed.content.modify i (extend kind delta metadata) ∧
      ∀ other, blockIndex (streamed.observe (kind.deltaPart id delta metadata)) other =
        blockIndex streamed other := by
  cases kind
  all_goals
    simp only [blockIndex] at hIndex
    simp only [StreamedContent.observe, BlockKind.deltaPart, StreamedContent.upsertText,
      StreamedContent.upsertReasoning, hIndex]
    refine ⟨rfl, fun other => ?_⟩
    cases other <;> rfl

theorem observe_end :
    (streamed.observe (kind.endPart id none)).content = streamed.content.modify i (extend kind "" none) ∧
      ∀ other key, blockIndex (streamed.observe (kind.endPart id none)) other key =
        if other = kind ∧ key = id then none else blockIndex streamed other key := by
  cases kind
  all_goals
    simp only [blockIndex] at hIndex
    simp only [StreamedContent.observe, BlockKind.endPart, StreamedContent.upsertText,
      StreamedContent.upsertReasoning, hIndex]
    refine ⟨rfl, fun other key => ?_⟩
    cases other <;> simp [blockIndex, Function.update_apply]

end

theorem extend_nothing (kind : BlockKind) (content : GenerateContent) : extend kind "" none content = content := by
  cases kind <;> cases content <;>
    simp [extend, StreamedContent.appendText, StreamedContent.appendReasoning]

theorem modify_extend_nothing (kind : BlockKind) (content : List GenerateContent) (i : Nat) :
    content.modify i (extend kind "" none) = content := by
  rw [show extend kind "" none = id from funext (extend_nothing kind), List.modify_id]

theorem modify_length_concat {α : Type} (content : List α) (last : α) (change : α → α) :
    (content ++ [last]).modify content.length change = content ++ [change last] := by
  rw [List.modify_eq_set_getElem?, List.getElem?_concat_length]
  simp

/-! ## The stream lays out its parts -/

/-- What the blocks have no part in. -/
structure SameTurn (state next : GoogleLanguageModelStream) : Prop where
  activeToolCalls : next.activeToolCalls = state.activeToolCalls
  promptBlocked : next.promptBlocked = state.promptBlocked
  finalFinishReason : next.finalFinishReason = state.finalFinishReason
  lastUsageMetadataValue : next.lastUsageMetadataValue = state.lastUsageMetadataValue

variable (self : GoogleLanguageModelStream)

theorem SameTurn.refl : SameTurn self self := ⟨rfl, rfl, rfl, rfl⟩

theorem SameTurn.trans {a b c : GoogleLanguageModelStream} (h : SameTurn a b) (h' : SameTurn b c) : SameTurn a c :=
  ⟨h'.activeToolCalls.trans h.activeToolCalls, h'.promptBlocked.trans h.promptBlocked, h'.finalFinishReason.trans h.finalFinishReason,
    h'.lastUsageMetadataValue.trans h.lastUsageMetadataValue⟩

@[simp] theorem blockId_setBlockId (id : Option String) (kind other : BlockKind) :
    (self.setBlockId id kind).blockId other = if other = kind then id else self.blockId other := by
  cases kind <;> cases other <;> rfl

@[simp] theorem ids_setBlockId (id : Option String) (kind : BlockKind) : (self.setBlockId id kind).ids = self.ids := by
  cases kind <;> rfl

theorem sameTurn_setBlockId (id : Option String) (kind : BlockKind) : SameTurn self (self.setBlockId id kind) := by
  cases kind <;> exact ⟨rfl, rfl, rfl, rfl⟩

/-- The content is the layout's, and its open block is the one that the stream has open. -/
structure Lays (state : GoogleLanguageModelStream) (streamed : StreamedContent) (layout : Layout) : Prop where
  content : streamed.content = layout.content
  ids : state.ids = layout.ids
  closed : ∀ kind, (∀ i, layout.opened ≠ some (kind, i)) →
    state.blockId kind = none ∧ ∀ id, blockIndex streamed kind id = none
  opened : ∀ kind i, layout.opened = some (kind, i) →
    ∃ id, state.blockId kind = some id ∧ ∀ key, blockIndex streamed kind key = if key = id then some i else none

@[simp] theorem Layout.ids_speak (layout : Layout) (kind : BlockKind) (text : String)
    (metadata : Option ProviderMetadata) : (layout.speak kind text metadata).ids = layout.ids := by
  rw [speak]
  split
  · split <;> rfl
  · rfl

@[simp] theorem Layout.ids_text (layout : Layout) (kind : BlockKind) (text : String)
    (metadata : Option ProviderMetadata) : (layout.text kind text metadata).ids = layout.ids := by
  rw [Layout.text]
  split
  · exact ids_speak ..
  · exact ids_speak ..

def Layout.closeKind (layout : Layout) (kind : BlockKind) : Layout :=
  match layout.opened with
  | some (going, _) => if going = kind then layout.close else layout
  | none => layout

theorem Layout.closeKind_self {layout : Layout} {i : Nat} (hOpen : layout.opened = some (kind, i)) :
    layout.closeKind kind = layout.close := by
  simp [closeKind, hOpen]

theorem Layout.closeKind_other {layout : Layout} (hOpen : ∀ i, layout.opened ≠ some (kind, i)) :
    layout.closeKind kind = layout := by
  rw [closeKind]
  split
  · rename_i going i hGoing
    exact if_neg fun hSame => hOpen i (by rw [hGoing, hSame])
  · rfl

/-- A text closes the block of the other kind anyway. -/
theorem Layout.speak_closeKind (layout : Layout) {kind other : BlockKind} (hApart : other ≠ kind) (text : String)
    (metadata : Option ProviderMetadata) :
    (layout.closeKind other).speak kind text metadata = layout.speak kind text metadata := by
  by_cases hOpen : ∃ i, layout.opened = some (other, i)
  · obtain ⟨i, hOpen⟩ := hOpen
    rw [closeKind_self hOpen]
    simp [speak, close, hOpen, hApart]
  · rw [closeKind_other fun i hSome => hOpen ⟨i, hSome⟩]

namespace Lays

variable {self : GoogleLanguageModelStream} {streamed : StreamedContent} {layout : Layout}

theorem start : Lays {} {} {} where
  content := rfl
  ids := rfl
  closed := fun kind _ => by cases kind <;> exact ⟨rfl, fun _ => rfl⟩
  opened := fun _ _ hOpen => by cases hOpen

section

variable (h : Lays self streamed layout)

include h

/-- What the layout is not about. -/
theorem ofSame (state : GoogleLanguageModelStream) (hIds : state.ids = self.ids)
    (hBlocks : ∀ kind, state.blockId kind = self.blockId kind) : Lays state streamed layout := by
  refine ⟨h.content, hIds.trans h.ids, fun kind hKind => ?_, fun kind i hKind => ?_⟩
  · rw [hBlocks]
    exact h.closed kind hKind
  · rw [hBlocks]
    exact h.opened kind i hKind

theorem endBlock (kind : BlockKind) :
    Lays (self.endBlock kind).1 (observed streamed (self.endBlock kind).2) (layout.closeKind kind) ∧
      SameTurn self (self.endBlock kind).1 := by
  by_cases hOpen : ∃ i, layout.opened = some (kind, i)
  · obtain ⟨i, hOpen⟩ := hOpen
    obtain ⟨id, hId, hIndex⟩ := h.opened kind i hOpen
    obtain ⟨hContent, hBlocks⟩ := observe_end (by rw [hIndex id, if_pos rfl])
    rw [GoogleLanguageModelStream.endBlock, hId, Layout.closeKind_self hOpen, observed, List.foldl_cons,
      List.foldl_nil]
    refine ⟨⟨?_, (ids_setBlockId ..).trans h.ids, fun other _ => ?_, fun other j hSome => by cases hSome⟩,
      sameTurn_setBlockId _ _ _⟩
    · rw [hContent, modify_extend_nothing, h.content]
      rfl
    · by_cases hSame : other = kind
      · subst hSame
        refine ⟨by simp, fun key => ?_⟩
        rw [hBlocks, hIndex]
        by_cases hKey : key = id <;> simp [hKey]
      · obtain ⟨hNone, hFree⟩ := h.closed other fun j hOther => hSame (by
          rw [hOpen] at hOther
          cases hOther
          rfl)
        refine ⟨by simp [hSame, hNone], fun key => ?_⟩
        rw [hBlocks]
        simp [hSame, hFree]
  · have hClosed : ∀ i, layout.opened ≠ some (kind, i) := fun i hSome => hOpen ⟨i, hSome⟩
    rw [GoogleLanguageModelStream.endBlock, (h.closed kind hClosed).1, Layout.closeKind_other hClosed]
    exact ⟨h, .refl _⟩

theorem sendText (hOnly : ∀ other i, layout.opened = some (other, i) → other = kind) (text : String)
    (metadata : Option ProviderMetadata) :
    Lays (self.sendText kind text metadata).1 (observed streamed (self.sendText kind text metadata).2)
        (layout.speak kind text metadata) ∧ SameTurn self (self.sendText kind text metadata).1 := by
  cases hOpened : layout.opened with
  | none =>
    obtain ⟨hId, hFree⟩ := h.closed kind fun i hSome => by rw [hOpened] at hSome; cases hSome
    obtain ⟨hStart, hStarted⟩ := observe_start (hFree (toString self.blockCounter)) metadata
    have hIndex := hStarted kind (toString self.blockCounter)
    rw [if_pos ⟨rfl, rfl⟩] at hIndex
    obtain ⟨hDelta, hSame⟩ := observe_delta hIndex text metadata
    rw [GoogleLanguageModelStream.sendText, hId, observed, List.foldl_cons, List.foldl_cons, List.foldl_nil,
      Layout.speak, hOpened]
    refine ⟨⟨?_, ?_, fun other hOther => ?_, fun other i hOther => ?_⟩, by cases kind <;> exact ⟨rfl, rfl, rfl, rfl⟩⟩
    · have hTwice : (metadata <|> metadata) = metadata := by cases metadata <;> rfl
      rw [hDelta, hStart, modify_length_concat, extend_content, h.content, String.empty_append, hTwice]
    · rw [ids_setBlockId]
      exact h.ids
    · have hApart : other ≠ kind := fun hEq => hOther layout.content.length (by rw [hEq])
      obtain ⟨hOtherId, hOtherFree⟩ := h.closed other fun i hSome => by rw [hOpened] at hSome; cases hSome
      refine ⟨?_, fun key => ?_⟩
      · rw [blockId_setBlockId, if_neg hApart]
        cases other <;> exact hOtherId
      · rw [hSame, hStarted]
        simp [hApart, hOtherFree]
    · cases hOther
      refine ⟨toString self.blockCounter, by simp, fun key => ?_⟩
      rw [hSame, hStarted, h.content]
      simp [hFree]
  | some opened =>
    obtain ⟨other, i⟩ := opened
    obtain rfl : other = kind := hOnly other i hOpened
    obtain ⟨id, hId, hIndex⟩ := h.opened other i hOpened
    obtain ⟨hDelta, hSame⟩ := observe_delta (by rw [hIndex id, if_pos rfl]) text metadata
    rw [GoogleLanguageModelStream.sendText, hId, observed, List.foldl_cons, List.foldl_nil, Layout.speak, hOpened]
    simp only [if_true]
    refine ⟨⟨?_, h.ids, fun kind hKind => ?_, fun kind j hKind => ?_⟩, .refl _⟩
    · rw [hDelta, h.content]
    · obtain ⟨hOtherId, hOtherFree⟩ := h.closed kind (by rw [hOpened]; exact hKind)
      exact ⟨hOtherId, fun key => by rw [hSame, hOtherFree]⟩
    · cases hKind
      exact ⟨id, hId, fun key => by rw [hSame, hIndex]⟩

/-- The other block is closed first. -/
theorem otherText (kind other : BlockKind) (hApart : other ≠ kind) (text : String) (metadata : Option ProviderMetadata) :
    Lays ((self.endBlock other).1.sendText kind text metadata).1
        (observed streamed ((self.endBlock other).2 ++ ((self.endBlock other).1.sendText kind text metadata).2))
        (layout.speak kind text metadata) ∧
      SameTurn self ((self.endBlock other).1.sendText kind text metadata).1 := by
  obtain ⟨hEnded, hTurn⟩ := h.endBlock other
  have hOnly : ∀ kept i, (layout.closeKind other).opened = some (kept, i) → kept = kind := by
    intro kept i hKept
    by_cases hOpen : ∃ j, layout.opened = some (other, j)
    · obtain ⟨j, hOpen⟩ := hOpen
      rw [Layout.closeKind_self hOpen] at hKept
      cases hKept
    · rw [Layout.closeKind_other fun j hSome => hOpen ⟨j, hSome⟩] at hKept
      have hOther : kept ≠ other := fun hSame => hOpen ⟨i, by rw [hKept, hSame]⟩
      cases kept <;> cases kind <;> cases other <;> simp_all
  obtain ⟨hSent, hSame⟩ := hEnded.sendText hOnly text metadata
  rw [Layout.speak_closeKind layout hApart] at hSent
  rw [observed_append]
  exact ⟨hSent, hTurn.trans hSame⟩

theorem textPart (text : String) (thought : Bool) (metadata : Option ProviderMetadata) :
    Lays (self.textPart text thought metadata).1 (observed streamed (self.textPart text thought metadata).2)
        (layout.text (if thought then .reasoning else .text) text metadata) ∧
      SameTurn self (self.textPart text thought metadata).1 := by
  simp only [GoogleLanguageModelStream.textPart, GoogleLanguageModelStream.endText,
    GoogleLanguageModelStream.endReasoning, Layout.text]
  cases thought with
  | true =>
    obtain ⟨hSent, hTurn⟩ := h.otherText .reasoning .text (by decide) text metadata
    simpa using And.intro hSent hTurn
  | false =>
    obtain ⟨hSent, hTurn⟩ := h.otherText .text .reasoning (by decide) text metadata
    cases hSigned : metadata.isSome with
    | false => simpa using And.intro hSent hTurn
    | true =>
      obtain ⟨hEnded, hSame⟩ := hSent.endBlock .text
      obtain ⟨i, hOpen⟩ : ∃ i, (layout.speak .text text metadata).opened = some (.text, i) := by
        rw [Layout.speak]
        split
        · rename_i going i hGoing
          split
          · rename_i hSame
            exact ⟨i, by rw [← hSame]; exact hGoing⟩
          · exact ⟨_, rfl⟩
        · exact ⟨_, rfl⟩
      rw [Layout.closeKind_self hOpen] at hEnded
      simp only [Bool.false_eq_true, if_false, if_true, and_self]
      rw [observed_append]
      exact ⟨hEnded, hTurn.trans hSame⟩

theorem closeAll :
    Lays self.endText.1.endReasoning.1 (observed streamed (self.endText.2 ++ self.endText.1.endReasoning.2))
        layout.close ∧
      SameTurn self self.endText.1.endReasoning.1 := by
  obtain ⟨hText, hTurn⟩ := h.endBlock .text
  obtain ⟨hBoth, hSame⟩ := hText.endBlock .reasoning
  have hClosed : (layout.closeKind .text).closeKind .reasoning = layout.close := by
    rcases layout with ⟨content, _ | ⟨going, i⟩, ids⟩
    · rfl
    · cases going <;> rfl
  rw [hClosed] at hBoth
  rw [observed_append]
  exact ⟨hBoth, hTurn.trans hSame⟩

/-- Whole items behind the others. -/
theorem push (sent : Option StreamPart) (piece : Option GenerateContent)
    (hSent : sent.toList.foldl StreamedContent.observe streamed =
      { streamed with content := streamed.content ++ piece.toList })
    {state : GoogleLanguageModelStream} (hState : ∀ kind, state.blockId kind = self.blockId kind) :
    Lays state (observed streamed sent.toList) (layout.push piece.toList state.ids) := by
  rw [observed, hSent]
  refine ⟨by rw [Layout.push, h.content], rfl, fun kind hKind => ?_, fun kind i hKind => ?_⟩
  · obtain ⟨hId, hFree⟩ := h.closed kind hKind
    exact ⟨(hState kind).trans hId, fun id => by cases kind <;> exact hFree id⟩
  · obtain ⟨id, hId, hIndex⟩ := h.opened kind i hKind
    exact ⟨id, (hState kind).trans hId, fun key => by cases kind <;> exact hIndex key⟩

end

end Lays

theorem callField_str (call : Json) (key : String) : (callField call key).bind asStr = getStr call key := by
  rw [callField, getStr]
  split
  · rename_i hNull
    rw [hNull]
    rfl
  · rfl

/-- What is sent of a call that comes whole. -/
theorem functionCall_eq {call : Json} (hPartial : callField call "partialArgs" = none)
    (hWhole : (callField call "willContinue").bind asBool ≠ some true) (settings : Settings)
    {self : GoogleLanguageModelStream} (hActive : self.activeToolCalls = []) (part : Json) :
    let id := self.ids.sentOr settings (getStr call "id")
    let metadata := thoughtSignatureMetadata settings part
    ∃ aside : List StreamPart, (∀ part ∈ aside, isAside part = true) ∧
      self.functionCall settings call part = match getStr call "name" with
        | some name => some ({ self with ids := id.2, hasToolCalls := true }, aside ++ (some (.toolCall {
            toolCallId := id.1
            toolName := name
            input := Layout.callInput settings call
            providerMetadata := metadata })).toList, true)
        | none => some (self, [], true) := by
  intro id metadata
  simp only [GoogleLanguageModelStream.functionCall, callField_str, hPartial]
  cases hName : getStr call "name" with
  | none =>
    refine ⟨[], by simp, ?_⟩
    simp only [Option.isSome_none, Bool.false_eq_true, false_and, or_self, if_false,
      GoogleLanguageModelStream.finishStreamingToolCall, hActive, Option.map_some]
    split <;> rfl
  | some name =>
    refine ⟨[StreamPart.toolInputStart id.1 name none none none metadata] ++ (if (callField call "args").isSome then
      [StreamPart.toolInputDelta id.1 (Layout.callInput settings call) metadata] else []) ++
      [StreamPart.toolInputEnd id.1 metadata],
      ?_, ?_⟩
    · split <;> simp [isAside]
    · simp only [hWhole, Option.isSome_none, Bool.false_eq_true, Option.isSome_some, and_false, or_self, if_false,
        reduceCtorEq, false_and]
      cases hArgs : callField call "args" with
      | none => simp [Layout.callInput, hArgs, id, metadata]
      | some args => cases args <;> simp [Layout.callInput, hArgs, id, metadata]

variable {settings : Settings} {self : GoogleLanguageModelStream} {streamed : StreamedContent} {layout : Layout}

variable (settings) in
/-- One part lays out what the layout says, and the stream goes on. -/
theorem Lays.part (h : Lays self streamed layout) (hActive : self.activeToolCalls = []) {part : Json}
    (hWhole : WholeCall part) :
    ∃ next emitted, GoogleLanguageModelStream.transformPart settings self part = some (next, emitted, true) ∧
      SameTurn self next ∧ Lays next (observed streamed emitted) (layout.part settings part) := by
  rw [GoogleLanguageModelStream.transformPart, Layout.part]
  cases getStr part "text" with
  | some text =>
    simp only [isSome_metadata]
    by_cases hLoud : text ≠ "" ∨ isSigned part = true
    · obtain ⟨hLaid, hTurn⟩ := h.textPart text (isThought part) (thoughtSignatureMetadata settings part)
      rw [if_pos hLoud, if_pos hLoud]
      exact ⟨_, _, rfl, hTurn, hLaid⟩
    · rw [if_neg hLoud, if_neg hLoud]
      exact ⟨_, _, rfl, .refl _, h⟩
  | none =>
    cases get part "executableCode" with
    | some ec =>
      refine ⟨_, _, rfl, ⟨rfl, rfl, rfl, rfl⟩, ?_⟩
      rw [← h.ids]
      refine h.push _ _ ?_ fun kind => by cases kind <;> rfl
      cases (executableCode settings self.ids ec).1 <;> simp [StreamedContent.observe, StreamedContent.push]
    | none =>
      cases get part "codeExecutionResult" with
      | some cer =>
        refine ⟨_, _, rfl, .refl _, ?_⟩
        rw [← h.ids]
        refine h.push _ _ ?_ fun _ => rfl
        cases codeExecutionResult settings self.ids cer <;> simp [StreamedContent.observe, StreamedContent.push]
      | none =>
        cases get part "toolCall" with
        | some tc =>
          refine ⟨_, _, rfl, ⟨rfl, rfl, rfl, rfl⟩, ?_⟩
          rw [← h.ids]
          exact h.push (some _) (some _) rfl fun kind => by cases kind <;> rfl
        | none =>
          cases get part "toolResponse" with
          | some tr =>
            refine ⟨_, _, rfl, ⟨rfl, rfl, rfl, rfl⟩, ?_⟩
            rw [← h.ids]
            exact h.push (some _) (some _) rfl fun kind => by cases kind <;> rfl
          | none =>
            obtain ⟨hClosed, hTurn⟩ := h.closeAll
            cases get part "inlineData" with
            | some inline =>
              refine ⟨_, _, rfl, hTurn, ?_⟩
              rw [observed_append, show layout.ids = layout.close.ids from rfl, ← hClosed.ids]
              refine hClosed.push _ _ ?_ fun _ => rfl
              cases inlineFile settings part inline <;> cases isThought part <;>
                simp [StreamedContent.observe, StreamedContent.push]
            | none =>
              cases hFunction : get part "functionCall" with
              | some call =>
                obtain ⟨hPartial, hGoesOn⟩ := hWhole call hFunction
                obtain ⟨aside, hAside, hCall⟩ := functionCall_eq hPartial hGoesOn settings
                  (hTurn.activeToolCalls.trans hActive) part
                simp only [hCall, Layout.call]
                cases getStr call "name" with
                | none =>
                  refine ⟨_, _, rfl, hTurn, ?_⟩
                  rw [List.append_nil]
                  exact hClosed
                | some name =>
                  refine ⟨_, _, rfl, hTurn.trans ⟨rfl, rfl, rfl, rfl⟩, ?_⟩
                  rw [observed_append, observed_append, observed_of_isAside _ hAside, ← hClosed.ids]
                  exact hClosed.push (some _) (some _) rfl fun kind => by cases kind <;> rfl
              | none => exact ⟨_, _, rfl, .refl _, h⟩

variable (settings) in
theorem Lays.parts (h : Lays self streamed layout) (hActive : self.activeToolCalls = []) {parts : List Json}
    (hWhole : ∀ part ∈ parts, WholeCall part) :
    ∃ state emitted, GoogleLanguageModelStream.transformParts settings parts self = some (state, emitted, true) ∧
      SameTurn self state ∧ Lays state (observed streamed emitted) (parts.foldl (Layout.part settings) layout) := by
  induction parts generalizing self streamed layout with
  | nil => exact ⟨self, [], rfl, .refl _, h⟩
  | cons part parts ih =>
    obtain ⟨state, emitted, hStep, hTurn, hState⟩ := h.part settings hActive
      (hWhole part (List.mem_cons_self ..))
    obtain ⟨last, more, hRun, hSame, hLast⟩ := ih hState (hTurn.activeToolCalls.trans hActive)
      fun other hOther => hWhole other (List.mem_cons_of_mem _ hOther)
    refine ⟨last, emitted ++ more, ?_, hTurn.trans hSame, ?_⟩
    · simp [GoogleLanguageModelStream.transformParts, hStep, hRun]
    · rw [observed_append]
      exact hLast

/-! ## Chunks -/

def StreamChunk.candidate (chunk : StreamChunk) : Option Candidate := (chunk.candidates.getD []).head?

def StreamChunk.parts (chunk : StreamChunk) : List Json := (chunk.candidate.bind (·.parts)).getD []

/-- The parts up to the end of the turn, which is when the stream has usage and a finish reason. -/
def sentParts : (usage finished : Bool) → List StreamChunk → List Json
  | _, _, [] => []
  | usage, finished, chunk :: rest =>
    let usage := usage || chunk.usageMetadata.isSome
    let finished := finished || (chunk.candidate.bind (·.finishReason)).isSome
    chunk.parts ++ if usage && finished then [] else sentParts usage finished rest

/-- What the call layer puts together. -/
def assembled (settings : Settings) (chunks : List StreamChunk) : List GenerateContent :=
  (observed {} (streamParts settings (chunks.map .chunk))).content

/-- What is left of the stream after `out`. -/
def ending (settings : Settings) (self : GoogleLanguageModelStream) (out : List StreamPart)
    (chunks : List StreamChunk) : List StreamPart :=
  let ran := (GoogleLanguageModelStream.transformer settings).transformAll (some self, .emitted out)
    (chunks.map .chunk)
  Provider.parts (if ran.2.closed then ran.2.queue else (GoogleLanguageModelStream.flush settings ran.1 ran.2).queue)

theorem streamParts_eq (settings : Settings) (chunks : List StreamChunk) :
    streamParts settings (chunks.map .chunk) = ending settings {} [.streamStart settings.warnings] chunks := rfl

theorem ending_cons {settings : Settings} {self state : GoogleLanguageModelStream} {chunk : StreamChunk}
    {emitted : List StreamPart}
    (hChunk : GoogleLanguageModelStream.transformChunk settings self chunk = some (state, emitted, true))
    (out : List StreamPart) (chunks : List StreamChunk) :
    let sent := out ++ (GoogleLanguageModelStream.raw settings chunk.raw ++ emitted)
    ending settings self out (chunk :: chunks) =
      if state.lastUsageMetadataValue.isSome ∧ state.finalFinishReason.isSome then
        sent ++ (GoogleLanguageModelStream.finish settings state).2
      else ending settings state sent chunks := by
  have hTransform : GoogleLanguageModelStream.transform settings (some self) (.chunk chunk) (.emitted out) =
      if state.lastUsageMetadataValue.isSome ∧ state.finalFinishReason.isSome then
        (some (GoogleLanguageModelStream.finish settings state).1,
          (Controller.emitted (out ++ (GoogleLanguageModelStream.raw settings chunk.raw ++ emitted) ++
            (GoogleLanguageModelStream.finish settings state).2)).terminate)
      else (some state, .emitted (out ++ (GoogleLanguageModelStream.raw settings chunk.raw ++ emitted))) := by
    simp only [GoogleLanguageModelStream.transform, hChunk, if_true, GoogleLanguageModelStream.send,
      Controller.foldl_enqueue_emitted]
  have hRun : (GoogleLanguageModelStream.transformer settings).transformAll (some self, .emitted out)
      ((chunk :: chunks).map .chunk) = (GoogleLanguageModelStream.transformer settings).transformAll
        (GoogleLanguageModelStream.transform settings (some self) (.chunk chunk) (.emitted out))
        (chunks.map .chunk) := rfl
  by_cases hEnds : state.lastUsageMetadataValue.isSome ∧ state.finalFinishReason.isSome
  · rw [if_pos hEnds] at hTransform
    rw [hTransform] at hRun
    simp only [ending, hRun.trans ((GoogleLanguageModelStream.transformer settings).transformAll_closed _ rfl _),
      Controller.terminate, if_true, if_pos hEnds]
    exact Controller.parts_emitted _
  · rw [if_neg hEnds] at hTransform
    rw [hTransform] at hRun
    simp only [ending, hRun, if_neg hEnds]
    rfl

/-- The stream while no prompt was blocked. -/
structure GoesOn (state : GoogleLanguageModelStream) (out : List StreamPart) (layout : Layout)
    (usage finished : Bool) : Prop where
  lays : Lays state (observed {} out) layout
  active : state.activeToolCalls = []
  notBlocked : state.promptBlocked = false
  usage : usage = state.lastUsageMetadataValue.isSome
  finished : finished = state.finalFinishReason.isSome

theorem readMetadata_eq (self : GoogleLanguageModelStream) {chunk : StreamChunk}
    (hChunk : confirmedPromptBlockReason chunk.promptFeedback = none) :
    let read := self.readMetadata chunk
    (∀ part ∈ read.2, isAside part = true) ∧ read.1.ids = self.ids ∧ (∀ kind, read.1.blockId kind = self.blockId kind) ∧
      read.1.activeToolCalls = self.activeToolCalls ∧ read.1.promptBlocked = self.promptBlocked ∧
      read.1.finalFinishReason = self.finalFinishReason ∧
      read.1.lastUsageMetadataValue = (chunk.usageMetadata.map (·.2) <|> self.lastUsageMetadataValue) := by
  have hAside : ∀ part ∈ (if chunk.responseId.isSome ∧ self.responseMetadataEmitted = false
      then [StreamPart.responseMetadata { id := chunk.responseId }] else []), isAside part = true := by
    split <;> simp [isAside]
  simp only [GoogleLanguageModelStream.readMetadata]
  split
  · exact ⟨hAside, rfl, fun kind => by cases kind <;> rfl, rfl, rfl, rfl, rfl⟩
  · rename_i feedback hFeedback
    rw [hFeedback] at hChunk
    split
    · exact ⟨hAside, rfl, fun kind => by cases kind <;> rfl, rfl, rfl, rfl, rfl⟩
    · rw [hChunk]
      exact ⟨hAside, rfl, fun kind => by cases kind <;> rfl, rfl, rfl, rfl, rfl⟩

theorem isAside_raw (settings : Settings) (value : Json) :
    ∀ part ∈ GoogleLanguageModelStream.raw settings value, isAside part = true := by
  rw [GoogleLanguageModelStream.raw]
  split <;> simp [isAside]

namespace GoesOn

variable {out : List StreamPart} {usage finished : Bool}

theorem aside (h : GoesOn self out layout usage finished) {parts : List StreamPart}
    (hAside : ∀ part ∈ parts, isAside part = true) : GoesOn self (out ++ parts) layout usage finished := by
  refine ⟨?_, h.active, h.notBlocked, h.usage, h.finished⟩
  rw [observed_append, observed_of_isAside _ hAside]
  exact h.lays

variable (settings) in
theorem chunk (h : GoesOn self out layout usage finished) {chunk : StreamChunk}
    (hChunk : confirmedPromptBlockReason chunk.promptFeedback = none)
    (hWhole : ∀ part ∈ chunk.parts, WholeCall part) :
    ∃ state emitted, GoogleLanguageModelStream.transformChunk settings self chunk = some (state, emitted, true) ∧
      GoesOn state (out ++ emitted) (chunk.parts.foldl (Layout.part settings) layout)
        (usage || chunk.usageMetadata.isSome) (finished || (chunk.candidate.bind (·.finishReason)).isSome) := by
  obtain ⟨hAside, hIds, hBlocks, hActive, hBlocked, hFinish, hUsage⟩ := readMetadata_eq self hChunk
  have hUsageSeen : (usage || chunk.usageMetadata.isSome) =
      (self.readMetadata chunk).1.lastUsageMetadataValue.isSome := by
    rw [h.usage, hUsage]
    cases chunk.usageMetadata <;> simp
  have hRead := (h.aside hAside).lays.ofSame _ hIds hBlocks
  simp only [GoogleLanguageModelStream.transformChunk]
  cases hCandidate : chunk.candidate with
  | none =>
    simp only [StreamChunk.candidate] at hCandidate
    simp only [StreamChunk.parts, StreamChunk.candidate, hCandidate, Option.bind_none, Option.getD_none,
      List.foldl_nil]
    refine ⟨_, _, rfl, hRead, hActive.trans h.active, hBlocked.trans h.notBlocked, hUsageSeen, ?_⟩
    rw [hFinish, h.finished, Option.isSome_none, Bool.or_false]
  | some candidate =>
    have hParts : chunk.parts = candidate.parts.getD [] := by
      rw [StreamChunk.parts, hCandidate, Option.bind_some]
    simp only [StreamChunk.candidate] at hCandidate
    rw [hParts] at hWhole ⊢
    obtain ⟨state, emitted, hRun, hTurn, hState⟩ := (hRead.ofSame
      ((self.readMetadata chunk).1.readCandidate candidate) rfl fun kind => by cases kind <;> rfl).parts
      settings (hActive.trans h.active) hWhole
    have hOpen : ((self.readMetadata chunk).1.readCandidate candidate).promptBlocked = false :=
      hBlocked.trans h.notBlocked
    simp only [hCandidate, hOpen, hRun, Bool.false_eq_true, if_false, if_true, Option.bind_eq_bind, Option.bind_some]
    refine ⟨_, _, rfl, ?_, hTurn.activeToolCalls.trans (hActive.trans h.active), hTurn.promptBlocked.trans hOpen, ?_, ?_⟩
    · rw [← List.append_assoc, observed_append]
      exact hState.ofSame _ rfl fun kind => by cases kind <;> rfl
    · rw [hUsageSeen]
      exact congrArg Option.isSome hTurn.lastUsageMetadataValue.symm
    · have hSame : state.finalFinishReason = self.finalFinishReason := hTurn.finalFinishReason.trans hFinish
      rw [h.finished, hSame]
      cases candidate.finishReason <;> simp

/-- The end of the stream only closes the blocks. -/
theorem finish (h : GoesOn self out layout usage finished) :
    (observed {} (out ++ (GoogleLanguageModelStream.finish settings self).2)).content = layout.content := by
  obtain ⟨hClosed, _⟩ := h.lays.closeAll
  have hFinish : ∀ streamed : StreamedContent, ∀ reason usage metadata,
      observed streamed [.finish reason usage metadata] = streamed := fun _ _ _ _ => rfl
  simp only [GoogleLanguageModelStream.finish]
  rw [observed_append, observed_append, hFinish, hClosed.content, Layout.close]

theorem ending {chunks : List StreamChunk} (h : GoesOn self out layout usage finished)
    (hChunks : ∀ chunk ∈ chunks, confirmedPromptBlockReason chunk.promptFeedback = none)
    (hWhole : ∀ part ∈ sentParts usage finished chunks, WholeCall part) :
    (observed {} (ending settings self out chunks)).content =
      ((sentParts usage finished chunks).foldl (Layout.part settings) layout).content := by
  induction chunks generalizing self out layout usage finished with
  | nil =>
    simp only [Google.ending, List.map_nil, Provider.Transformer.transformAll, Controller.emitted, Bool.false_eq_true,
      if_false, GoogleLanguageModelStream.flush]
    split
    · rw [Controller.error, if_neg (by simp), Provider.parts_append, Provider.parts_error, List.append_nil]
      refine Eq.trans ?_ h.lays.content
      rw [show Provider.parts (out.map Except.ok) = out from Controller.parts_emitted out]
    · rw [GoogleLanguageModelStream.send, show ({ queue := out.map .ok } : Controller StreamPart) = .emitted out from rfl,
        Controller.foldl_enqueue_emitted, Controller.parts_emitted]
      exact h.finish
  | cons chunk chunks ih =>
    have hHere : ∀ part ∈ chunk.parts, WholeCall part :=
      fun part hPart => hWhole part (List.mem_append_left _ hPart)
    obtain ⟨state, emitted, hChunk, hState⟩ := (h.aside (isAside_raw settings chunk.raw)).chunk settings
      (hChunks chunk (List.mem_cons_self ..)) hHere
    rw [List.append_assoc] at hState
    rw [ending_cons hChunk, sentParts, List.foldl_append]
    have hEnds : (state.lastUsageMetadataValue.isSome ∧ state.finalFinishReason.isSome) ↔
        ((usage || chunk.usageMetadata.isSome) &&
          (finished || (chunk.candidate.bind (·.finishReason)).isSome)) = true := by
      rw [← hState.usage, ← hState.finished, Bool.and_eq_true]
    by_cases hOver : ((usage || chunk.usageMetadata.isSome) &&
        (finished || (chunk.candidate.bind (·.finishReason)).isSome)) = true
    · rw [if_pos (hEnds.mpr hOver), if_pos hOver, List.foldl_nil]
      exact hState.finish
    · rw [if_neg (mt hEnds.mp hOver), if_neg hOver]
      refine ih hState (fun other hOther => hChunks other (List.mem_cons_of_mem _ hOther)) fun part hPart => ?_
      refine hWhole part ?_
      rw [sentParts, if_neg hOver]
      exact List.mem_append_right _ hPart

end GoesOn

/-- What is put together of a stream is laid out by the parts it was sent, however they came in chunks. -/
theorem assembled_eq_layout {chunks : List StreamChunk} (hWhole : ∀ part ∈ sentParts false false chunks, WholeCall part)
    (hChunks : ∀ chunk ∈ chunks, confirmedPromptBlockReason chunk.promptFeedback = none) :
    assembled settings chunks = ((sentParts false false chunks).foldl (Layout.part settings) {}).content := by
  have hStart : GoesOn {} [.streamStart settings.warnings] {} false false := ⟨Lays.start, rfl, rfl, rfl, rfl⟩
  rw [assembled, streamParts_eq]
  exact hStart.ending hChunks hWhole

end Aimux.Google
