import Aimux.Anthropic.ConvertToPrompt
import Aimux.Lib.Grouping

/-! # Anthropic messages of a whole prompt

What the messages of a prompt are converted to one by one is grouped by role, and what is sent are the groups that are
not empty.
-/

namespace Aimux.Anthropic

open Aimux.Core
open Aimux.Lib (Piece grouped grouped_same grouped_other isChain_filter_iff)
open Aimux.Prompt (LanguageModelMessage LanguageModelPrompt)

/-! ## What is gathered -/

/-- The blocks of a message, or the messages that a run of system messages puts between the others. -/
abbrev PromptPiece := Piece Eff Json (List SystemMessage)

/-- What the messages of a prompt are converted to, one by one. -/
def convertPieces (settings : PromptSettings) (mcpToolUseIds : List String) :
    Bool → LanguageModelPrompt → ConversionState → Except AiMuxError (List PromptPiece)
  | _, [], _ => .ok []
  | afterSystem, message :: rest, state =>
    if isSystem message then
      if afterSystem then convertPieces settings mcpToolUseIds true rest state
      else do
        let converted ← convertSystems settings (message :: rest) state
        let later ← convertPieces settings mcpToolUseIds true rest converted.2
        return .whole converted.1 :: later
    else do
      let converted ← convertMessage settings mcpToolUseIds message state.notes
      let later ← convertPieces settings mcpToolUseIds false rest
        { state with notes := converted.2, seenNonSystem := true }
      return .block (effOf message) converted.1 :: later

def Grouping.take (grouping : Grouping) : PromptPiece → Grouping
  | .whole systems =>
    { grouping.flush with messages := grouping.flush.messages ++ systems.map .system }
  | .block role blocks =>
    let kept := if grouping.last ≠ some role then grouping.flush else grouping
    { kept with acc := kept.acc ++ blocks, last := some role }

/-- The conversions of messages do not look at what was gathered. -/
structure SameNotes (state other : ConversionState) : Prop where
  notes : state.notes = other.notes
  system : state.system = other.system
  seenNonSystem : state.seenNonSystem = other.seenNonSystem
  hasSystem : state.hasSystem = other.hasSystem

variable {state other : ConversionState}

theorem SameNotes.regroup (h : SameNotes state other) (grouping : Grouping) (index : Option Nat) :
    SameNotes { state with grouping := grouping, lastUserMessageIndex := index } other :=
  ⟨h.notes, h.system, h.seenNonSystem, h.hasSystem⟩

theorem SameNotes.convertSystems {settings : PromptSettings} {prompt : LanguageModelPrompt} {next : ConversionState}
    {messages : List SystemMessage} (h : SameNotes state other)
    (hConverted : convertSystems settings prompt state = .ok (messages, next)) :
    ∃ last, Anthropic.convertSystems settings prompt other = .ok (messages, last) ∧ SameNotes next last := by
  rw [Anthropic.convertSystems, h.notes, h.seenNonSystem, h.hasSystem] at hConverted
  rw [Anthropic.convertSystems]
  cases hRun : convertSystemRun settings prompt other.notes.validator with
  | error error =>
    rw [hRun] at hConverted
    cases hConverted
  | ok run =>
    rw [hRun] at hConverted
    dsimp only [bind, Except.bind] at hConverted ⊢
    split at hConverted
    · rename_i hInitial
      rw [if_pos hInitial]
      cases hConverted
      exact ⟨_, rfl, rfl, by rw [h.system], rfl, rfl⟩
    · rename_i hLater
      rw [if_neg hLater]
      cases hConverted
      exact ⟨_, rfl, rfl, h.system, rfl, rfl⟩

/-- The loop gathers the pieces. -/
theorem convertMessages_pieces {settings : PromptSettings} {mcpToolUseIds : List String} {prompt : LanguageModelPrompt}
    {afterSystem : Bool} {final : ConversionState} (hSame : SameNotes state other)
    (h : convertMessages settings mcpToolUseIds afterSystem prompt state = .ok final) :
    ∃ pieces, convertPieces settings mcpToolUseIds afterSystem prompt other = .ok pieces ∧
      final.grouping = pieces.foldl Grouping.take state.grouping := by
  induction prompt generalizing afterSystem state other with
  | nil =>
    cases h
    exact ⟨[], rfl, rfl⟩
  | cons message rest ih =>
    rw [convertMessages] at h
    rw [convertPieces]
    cases hSystem : isSystem message with
    | true =>
      rw [if_pos hSystem] at h
      rw [if_pos rfl]
      cases afterSystem with
      | true =>
        rw [if_pos rfl] at h ⊢
        exact ih hSame h
      | false =>
        rw [if_neg Bool.false_ne_true] at h ⊢
        cases hConverted : convertSystems settings (message :: rest) state with
        | error error =>
          rw [hConverted] at h
          cases h
        | ok converted =>
          rw [hConverted] at h
          obtain ⟨last, hOther, hNext⟩ := hSame.convertSystems hConverted
          dsimp only [bind, Except.bind] at h
          obtain ⟨pieces, hPieces, hGrouping⟩ := ih (hNext.regroup _ _) h
          refine ⟨.whole converted.1 :: pieces, ?_, hGrouping⟩
          rw [hOther]
          dsimp only [bind, Except.bind]
          rw [hPieces]
          rfl
    | false =>
      rw [if_neg (by rw [hSystem]; exact Bool.false_ne_true)] at h
      rw [if_neg Bool.false_ne_true]
      rw [hSame.notes] at h
      cases hConverted : convertMessage settings mcpToolUseIds message other.notes with
      | error error =>
        rw [hConverted] at h
        cases h
      | ok converted =>
        rw [hConverted] at h
        dsimp only [bind, Except.bind] at h
        have hNext : SameNotes { state with notes := converted.2, seenNonSystem := true }
            { other with notes := converted.2, seenNonSystem := true } := ⟨rfl, hSame.system, rfl, hSame.hasSystem⟩
        obtain ⟨pieces, hPieces, hGrouping⟩ := ih (hNext.regroup _ _) h
        refine ⟨.block (effOf message) converted.1 :: pieces, ?_, hGrouping⟩
        dsimp only [bind, Except.bind]
        rw [hPieces]
        rfl

/-! ## What is sent -/

/-- The message of a group, before anything is reordered; a group without blocks has none. -/
def drafts : PromptPiece → List Message
  | .whole systems => systems.map .system
  | .block role blocks => if blocks.isEmpty then [] else [.turn role blocks]

def ordered : Message → Message
  | .turn role blocks => .turn role (contentOf role blocks)
  | message => message

/-- The message that is gathered, as a group. -/
def Grouping.pending (grouping : Grouping) : List PromptPiece :=
  match grouping.last with
  | none => []
  | some role => [.block role grouping.acc]

theorem flush_messages (grouping : Grouping) :
    grouping.flush.messages = grouping.messages ++ (grouping.pending.flatMap drafts).map ordered := by
  rw [Grouping.flush, Grouping.pending]
  cases grouping.last with
  | none => exact (List.append_nil _).symm
  | some role =>
    dsimp only
    rw [List.flatMap_singleton, drafts]
    split
    · exact (List.append_nil _).symm
    · rfl

/-- Blocks are gathered for a role. -/
def Grouping.Valid (grouping : Grouping) : Prop := grouping.last = none → grouping.acc = []

variable {grouping : Grouping}

theorem Grouping.Valid.flush (h : grouping.Valid) :
    grouping.flush.last = none ∧ grouping.flush.acc = [] := by
  rw [Grouping.flush]
  cases hLast : grouping.last with
  | none => exact ⟨hLast, h hLast⟩
  | some role =>
    dsimp only
    split
    · rename_i hEmpty
      exact ⟨rfl, List.isEmpty_iff.mp hEmpty⟩
    · exact ⟨rfl, rfl⟩

theorem Grouping.Valid.take (h : grouping.Valid) (piece : PromptPiece) : (grouping.take piece).Valid := by
  cases piece with
  | whole systems => exact fun _ => h.flush.2
  | block role blocks => exact fun hNone => nomatch hNone

/-- One piece more is gathered. -/
theorem take_pending (h : grouping.Valid) (piece : PromptPiece) (pieces : List PromptPiece) :
    (grouping.take piece).messages ++ ((grouped ((grouping.take piece).pending ++ pieces)).flatMap drafts).map ordered =
      grouping.messages ++ ((grouped (grouping.pending ++ piece :: pieces)).flatMap drafts).map ordered := by
  obtain ⟨hFlushed, hEmptied⟩ := h.flush
  have hMessages := flush_messages grouping
  cases piece with
  | whole systems =>
    have hPending : (grouping.take (.whole systems)).pending = [] := by rw [Grouping.pending, Grouping.take, hFlushed]
    have hSplit : grouped (grouping.pending ++ .whole systems :: pieces) =
        grouping.pending ++ .whole systems :: grouped pieces := by
      rw [Grouping.pending]
      cases grouping.last <;> rfl
    rw [hPending, hSplit, List.nil_append, Grouping.take, hMessages, List.flatMap_append, List.flatMap_cons,
      List.map_append, List.map_append, drafts, List.map_map, List.append_assoc, List.append_assoc]
    rfl
  | block role blocks =>
    cases hLast : grouping.last with
    | none =>
      have hAcc := h hLast
      have hPending : grouping.pending = [] := by rw [Grouping.pending, hLast]
      have hTake : grouping.take (.block role blocks) =
          { messages := grouping.messages, last := some role, acc := blocks } := by
        rw [Grouping.take, hLast, if_pos (Option.some_ne_none role).symm, Grouping.flush, hLast]
        dsimp only
        rw [hAcc, List.nil_append]
      rw [hPending, hTake]
      rfl
    | some last =>
      have hPending : grouping.pending = [.block last grouping.acc] := by rw [Grouping.pending, hLast]
      by_cases hSame : last = role
      · subst hSame
        have hTake : grouping.take (.block last blocks) = { grouping with acc := grouping.acc ++ blocks } := by
          rw [Grouping.take, hLast, if_neg (fun hNe => hNe rfl)]
        have hNext : ({ grouping with acc := grouping.acc ++ blocks } : Grouping).pending =
            [.block last (grouping.acc ++ blocks)] := by rw [Grouping.pending, hLast]
        rw [hTake, hNext, hPending, List.singleton_append, List.singleton_append, grouped_same]
      · have hTake : grouping.take (.block role blocks) =
            { messages := grouping.flush.messages, last := some role, acc := blocks } := by
          rw [Grouping.take, hLast, if_pos (fun hRoles => hSame (Option.some.inj hRoles)), hEmptied, List.nil_append]
        rw [hTake, hPending, List.singleton_append, grouped_other hSame, List.flatMap_cons, List.map_append,
          ← List.append_assoc, hMessages, hPending, List.flatMap_singleton]
        rfl

theorem foldl_take (h : grouping.Valid) (pieces : List PromptPiece) :
    (pieces.foldl Grouping.take grouping).flush.messages =
      grouping.messages ++ ((grouped (grouping.pending ++ pieces)).flatMap drafts).map ordered := by
  induction pieces generalizing grouping with
  | nil =>
    have hPending : grouped grouping.pending = grouping.pending := by
      rw [Grouping.pending]
      cases grouping.last <;> rfl
    rw [List.foldl_nil, flush_messages, List.append_nil, hPending]
  | cons piece pieces ih => rw [List.foldl_cons, ih (h.take piece), take_pending h]

/-! ## The order of an assistant's blocks -/

/-- Between two boundaries the tool uses are last. -/
inductive Segmented : List Json → List Json → Prop
  | last {segment : List Json} (hSegment : ∀ part ∈ segment, isBoundary part = false) :
    Segmented segment (segment.filter (!isToolUse ·) ++ segment.filter isToolUse)
  | more {segment rest out : List Json} {boundary : Json} (hSegment : ∀ part ∈ segment, isBoundary part = false)
    (hBoundary : isBoundary boundary = true) (hRest : Segmented rest out) :
    Segmented (segment ++ boundary :: rest)
      (segment.filter (!isToolUse ·) ++ segment.filter isToolUse ++ boundary :: out)

theorem flushSegment_eq (segment : List Json) :
    flushSegment segment = segment.filter (!isToolUse ·) ++ segment.filter isToolUse := by
  rw [flushSegment, List.partition_eq_filter_filter]
  rfl

theorem segmented_orderParts {segment : List Json} (hSegment : ∀ part ∈ segment, isBoundary part = false)
    (blocks : List Json) : Segmented (segment ++ blocks) (orderParts segment blocks) := by
  induction blocks generalizing segment with
  | nil =>
    rw [orderParts, List.append_nil, flushSegment_eq]
    exact .last hSegment
  | cons part rest ih =>
    rw [orderParts]
    split
    · rename_i hBoundary
      rw [flushSegment_eq]
      exact .more hSegment hBoundary (ih (List.forall_mem_nil _))
    · rename_i hInside
      have hLonger := ih (List.forall_mem_append.mpr ⟨hSegment, List.forall_mem_singleton.mpr (Bool.eq_false_iff.mpr hInside)⟩)
      rwa [List.append_assoc, List.singleton_append] at hLonger

namespace Segmented

variable {blocks out : List Json}

theorem perm (h : Segmented blocks out) : out.Perm blocks := by
  have hSegment (segment : List Json) : (segment.filter (!isToolUse ·) ++ segment.filter isToolUse).Perm segment :=
    List.perm_append_comm.trans (List.filter_append_perm isToolUse segment)
  induction h with
  | last _ => exact hSegment _
  | more _ _ _ ih => exact (hSegment _).append (ih.cons _)

theorem filter (h : Segmented blocks out) {p : Json → Bool} (hSegment : ∀ segment : List Json,
    (segment.filter (!isToolUse ·) ++ segment.filter isToolUse).filter p = segment.filter p) :
    out.filter p = blocks.filter p := by
  induction h with
  | last _ => exact hSegment _
  | more _ _ _ ih => rw [List.filter_append, hSegment, List.filter_append, List.filter_cons, List.filter_cons, ih]

theorem others (h : Segmented blocks out) : out.filter (!isToolUse ·) = blocks.filter (!isToolUse ·) :=
  h.filter fun segment => by simp [List.filter_append, List.filter_filter]

theorem toolUses (h : Segmented blocks out) : out.filter isToolUse = blocks.filter isToolUse :=
  h.filter fun segment => by simp [List.filter_append, List.filter_filter]

end Segmented

/-! ## What is changed afterwards -/

/-- The text of a block may be trimmed, and its caller left out. -/
def Changed (block changed : Json) : Prop :=
  ∃ kept, (kept = block ∨ kept = trimText block) ∧ (changed = kept ∨ changed = removeMember kept "caller")

/-- The blocks of a group, and the message that is sent. -/
inductive Sends : Message → Message → Prop
  | system (message : SystemMessage) : Sends (.system message) (.system message)
  | user (blocks : List Json) : Sends (.turn .user blocks) (.turn .user blocks)
  | assistant {blocks out content : List Json} (hSegments : Segmented blocks out) (hPerm : out.Perm blocks)
    (hOthers : out.filter (!isToolUse ·) = blocks.filter (!isToolUse ·))
    (hToolUses : out.filter isToolUse = blocks.filter isToolUse) (hContent : List.Forall₂ Changed out content) :
    Sends (.turn .assistant blocks) (.turn .assistant content)

variable {α : Type}

theorem mapLast_cases (f : α → α) (items : List α) :
    List.Forall₂ (fun item mapped => mapped = item ∨ mapped = f item) items (mapLast f items) := by
  induction items with
  | nil => exact .nil
  | cons item rest ih =>
    cases rest with
    | nil => exact .cons (.inr rfl) .nil
    | cons next rest => exact .cons (.inl rfl) ih

theorem mapWith_cases {σ : Type} {f : σ → α → σ × α} {R : α → α → Prop} (hMap : ∀ state item, R item (f state item).2)
    (state : σ) (items : List α) : List.Forall₂ R items (mapWith f state items).2 := by
  induction items generalizing state with
  | nil => exact .nil
  | cons item rest ih => exact .cons (hMap state item) (ih _)

theorem forall₂_comp {R S T : α → α → Prop} {first middle last : List α} (hFirst : List.Forall₂ R first middle)
    (hLast : List.Forall₂ S middle last) (hComp : ∀ a b c, R a b → S b c → T a c) : List.Forall₂ T first last := by
  induction hFirst generalizing last with
  | nil =>
    cases hLast
    exact .nil
  | cons hHead _ ih =>
    cases hLast with
    | cons hNext hRest => exact .cons (hComp _ _ _ hHead hNext) (ih hRest)

theorem normalizeBlock_cases (ids : List String) (orphans : Orphans) (block : Json) :
    (normalizeBlock ids orphans block).2 = block ∨ (normalizeBlock ids orphans block).2 = removeMember block "caller" := by
  rw [normalizeBlock]
  split
  · exact .inl rfl
  · exact .inr rfl

/-- Blocks of which some are changed. -/
inductive Kept (R : Json → Json → Prop) : Message → Message → Prop
  | same (message : Message) : Kept R message message
  | assistant {blocks content : List Json} (hContent : List.Forall₂ R blocks content) :
    Kept R (.turn .assistant blocks) (.turn .assistant content)

theorem kept_trimMessage (message : Message) :
    Kept (fun block changed => changed = block ∨ changed = trimText block) message (trimMessage message) := by
  cases message with
  | system message => exact .same _
  | turn role content =>
    cases role with
    | user => exact .same _
    | assistant => exact .assistant (mapLast_cases trimText content)

theorem kept_normalizeMessage (ids : List String) (orphans : Orphans) (message : Message) :
    Kept (fun block changed => changed = block ∨ changed = removeMember block "caller") message
      (normalizeMessage ids orphans message).2 := by
  cases message with
  | system message => exact .same _
  | turn role content =>
    cases role with
    | user => exact .same _
    | assistant => exact .assistant (mapWith_cases (normalizeBlock_cases ids) orphans content)

theorem kept_normalizeOrphanedCallers (messages : List Message) (index : Option Nat) (warnings : List Warning) :
    List.Forall₂ (Kept fun block changed => changed = block ∨ changed = removeMember block "caller") messages
      (normalizeOrphanedCallers messages index warnings).1 := by
  have hSame (messages : List Message) : List.Forall₂
      (Kept fun block changed => changed = block ∨ changed = removeMember block "caller") messages messages :=
    List.forall₂_same.mpr fun message _ => .same message
  cases index with
  | none => exact hSame messages
  | some index =>
    have hFirst := mapWith_cases (kept_normalizeMessage (codeExecutionIds messages)) {} (messages.take index)
    have hBoth : List.Forall₂ _ (messages.take index ++ messages.drop index)
        (normalizeOrphanedCallers messages (some index) warnings).1 := List.rel_append hFirst (hSame (messages.drop index))
    rwa [List.take_append_drop] at hBoth

theorem kept_mapLast (messages : List Message) : List.Forall₂
    (Kept fun block changed => changed = block ∨ changed = trimText block) messages (mapLast trimMessage messages) := by
  refine List.Forall₂.imp (fun message changed hChanged => ?_) (mapLast_cases trimMessage messages)
  rcases hChanged with hSame | hTrimmed
  · rw [hSame]
    exact .same message
  · rw [hTrimmed]
    exact kept_trimMessage message

variable {message : Message}

/-- A message as it was ordered, trimmed and without orphaned callers. -/
theorem sends_of_kept {trimmed sent : Message}
    (hTrimmed : Kept (fun block changed => changed = block ∨ changed = trimText block) (ordered message) trimmed)
    (hSent : Kept (fun block changed => changed = block ∨ changed = removeMember block "caller") trimmed sent) :
    Sends message sent := by
  have hRefl (R : Json → Json → Prop) (h : ∀ block, R block block) (blocks : List Json) : List.Forall₂ R blocks blocks :=
    List.forall₂_same.mpr fun block _ => h block
  have hContent {R : Json → Json → Prop} (h : ∀ block, R block block) {blocks : List Json} {next : Message}
      (hKept : Kept R (.turn .assistant blocks) next) :
      ∃ content, next = .turn .assistant content ∧ List.Forall₂ R blocks content := by
    cases hKept with
    | same => exact ⟨blocks, rfl, hRefl R h blocks⟩
    | assistant hBlocks => exact ⟨_, rfl, hBlocks⟩
  cases message with
  | system message =>
    cases hTrimmed
    cases hSent
    exact .system message
  | turn role blocks =>
    cases role with
    | user =>
      cases hTrimmed
      cases hSent
      exact .user blocks
    | assistant =>
      obtain ⟨middle, rfl, hMiddle⟩ := hContent (fun _ => .inl rfl) hTrimmed
      obtain ⟨content, rfl, hLast⟩ := hContent (fun _ => .inl rfl) hSent
      have hSegments : Segmented blocks (orderParts [] blocks) := segmented_orderParts (List.forall_mem_nil _) blocks
      refine .assistant hSegments hSegments.perm hSegments.others hSegments.toolUses ?_
      exact forall₂_comp hMiddle hLast fun _ kept _ hKept hChanged => ⟨kept, hKept, hChanged⟩

/-! ## The roles of neighbours -/

def roleOf : Message → Option Eff
  | .turn role _ => some role
  | .system _ => none

/-- No two neighbours are of one role, save for the system's. -/
def Alternates (messages : List Message) : Prop :=
  messages.IsChain fun first second => ∀ role, roleOf first = some role → roleOf second ≠ some role

/-- A group that is sent. -/
def isSent (piece : PromptPiece) : Bool := !(drafts piece).isEmpty

/-- Two groups of one role have blocks, and between them are groups, of which none is sent. -/
def Parted (groups : List PromptPiece) : Prop :=
  ∃ before role blocks between more after,
    groups = before ++ Piece.block role blocks :: (between ++ Piece.block role more :: after) ∧
    blocks ≠ [] ∧ more ≠ [] ∧ ∀ group ∈ between, isSent group = false

theorem drafts_sent {role : Eff} {blocks : List Json} (h : blocks ≠ []) :
    drafts (.block role blocks) = [.turn role blocks] := by
  rw [drafts, if_neg (by rwa [List.isEmpty_iff])]

theorem drafts_role {piece : PromptPiece} {role : Eff} (hMessage : message ∈ drafts piece)
    (hRole : roleOf message = some role) : ∃ blocks, blocks ≠ [] ∧ piece = .block role blocks := by
  cases piece with
  | whole systems =>
    obtain ⟨system, -, rfl⟩ := List.mem_map.mp hMessage
    cases hRole
  | block kind blocks =>
    rw [drafts] at hMessage
    split at hMessage
    · cases hMessage
    · rename_i hBlocks
      rw [List.mem_singleton.mp hMessage, roleOf, Option.some.injEq] at hRole
      subst hRole
      exact ⟨blocks, by rwa [List.isEmpty_iff] at hBlocks, rfl⟩

theorem alternates_drafts (groups : List PromptPiece) : Alternates (groups.flatMap drafts) ↔ ¬Parted groups := by
  have hSent : groups.flatMap drafts = ((groups.filter isSent).map drafts).flatten := by
    induction groups with
    | nil => rfl
    | cons group groups ih =>
      rw [List.flatMap_cons, ih]
      cases hGroup : isSent group with
      | true => rw [List.filter_cons_of_pos hGroup, List.map_cons, List.flatten_cons]
      | false =>
        have hNone : drafts group = [] := by
          rw [isSent, Bool.not_eq_false', List.isEmpty_iff] at hGroup
          exact hGroup
        rw [List.filter_cons_of_neg (by rw [hGroup]; exact Bool.false_ne_true), hNone, List.nil_append]
  have hSome : [] ∉ (groups.filter isSent).map drafts := by
    intro hMem
    obtain ⟨group, hGroup, hNone⟩ := List.mem_map.mp hMem
    have hIsSent := (List.mem_filter.mp hGroup).2
    rw [isSent, hNone] at hIsSent
    cases hIsSent
  -- Within what one group sends there are only messages of the system.
  have hWithin : ∀ messages ∈ (groups.filter isSent).map drafts, Alternates messages := by
    intro messages hMessages
    obtain ⟨group, -, rfl⟩ := List.mem_map.mp hMessages
    cases group with
    | whole systems =>
      rw [drafts]
      exact (List.isChain_map _).mpr (List.Pairwise.isChain (List.pairwise_of_forall fun _ _ _ hRole => nomatch hRole))
    | block role blocks =>
      rw [drafts]
      split
      · exact .nil
      · exact .singleton _
  simp only [Alternates] at hWithin
  rw [hSent, Alternates, List.isChain_flatten hSome, and_iff_right hWithin, List.isChain_map, isChain_filter_iff]
  constructor
  · rintro h ⟨before, role, blocks, between, more, after, hGroups, hBlocks, hMore, hBetween⟩
    have hFirst : isSent (.block role blocks) = true := by rw [isSent, drafts_sent hBlocks]; rfl
    have hSecond : isSent (.block role more) = true := by rw [isSent, drafts_sent hMore]; rfl
    have hDiffer := h before _ between _ after hGroups hFirst hSecond hBetween
    rw [drafts_sent hBlocks, drafts_sent hMore] at hDiffer
    exact hDiffer _ rfl _ rfl role rfl rfl
  · intro h front first between second back hGroups hFirst hSecond hBetween last hLast next hNext role hRole hSame
    obtain ⟨blocks, hBlocks, rfl⟩ := drafts_role (List.mem_of_getLast? hLast) hRole
    obtain ⟨more, hMore, rfl⟩ := drafts_role (List.mem_of_head? hNext) hSame
    exact h ⟨front, role, blocks, between, more, back, hGroups, hBlocks, hMore, hBetween⟩

/-! ## The messages of a prompt -/

theorem Sends.roleOf {sent : Message} (h : Sends message sent) : Anthropic.roleOf sent = Anthropic.roleOf message := by
  cases h <;> rfl

theorem alternates_of_sends {messages sent : List Message} (h : List.Forall₂ Sends messages sent) :
    Alternates sent ↔ Alternates messages := by
  have hRoles : sent.map roleOf = messages.map roleOf := by
    induction h with
    | nil => rfl
    | cons hFirst _ ih => rw [List.map_cons, List.map_cons, hFirst.roleOf, ih]
  have hMap (messages : List Message) : Alternates messages ↔
      (messages.map roleOf).IsChain fun first second => ∀ role, first = some role → second ≠ some role := by
    rw [List.isChain_map]
    rfl
  rw [hMap, hRoles, ← hMap]

def noFiles : AiMuxError := invalidOptions

/-- What texts and tool calls without options become, with no toolsets. -/
def plainSettings : PromptSettings where
  parts := {
    convertFilePart := fun _ _ _ _ => .error noFiles
    convertToolResult := fun _ _ _ _ => .error noFiles
    convertAssistantPart := fun part _ _ notes => match part with
      | .text text => .ok (some (.object [("type", .string "text"), ("text", .string text.text)]), notes)
      | .toolCall call => .ok (some (.object [("type", .string "tool_use"), ("id", .string call.toolCallId),
          ("name", .string call.toolName), ("input", call.input)]), notes)
      | _ => .ok (none, notes)
    convertAssistantToolResult := fun _ _ _ _ notes => ([], notes) }
  toolNames := []
  optionsName := CANONICAL

def userText (text : String) : LanguageModelMessage := .user [.text { text := text }] none

/-- A call between two texts. -/
def weatherPrompt : LanguageModelPrompt := [
  userText "Weather?",
  .assistant [.text { text := "One moment." },
    .toolCall { toolCallId := "call", toolName := "weather", input := .object [] }, .text { text := "Asked. " }] none]

end Aimux.Anthropic
