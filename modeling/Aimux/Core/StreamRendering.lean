import Aimux.Core.StreamTextContent
import Aimux.Core.StreamTextRun
import Aimux.Core.GenerateText

/-! # Streams of a content list

The ways to stream a provider's content: every text and reasoning block is started in content order,
sent in deltas and ended, the blocks interleaving freely; the other content is sent whole. Here are
the relation and what the reader and the message builder do with each of its steps.
-/

namespace Aimux.Core

namespace BlockKind

def content : BlockKind → String → Option ProviderMetadata → GenerateContent
  | .text, body, metadata => .text body metadata
  | .reasoning, body, metadata => .reasoning { text := body, providerMetadata := metadata }

def startPart : BlockKind → String → Option ProviderMetadata → StreamPart
  | .text, id, metadata => .textStart id metadata
  | .reasoning, id, metadata => .reasoningStart id metadata

def deltaPart : BlockKind → String → String → Option ProviderMetadata → StreamPart
  | .text, id, delta, metadata => .textDelta id delta metadata
  | .reasoning, id, delta, metadata => .reasoningDelta id delta metadata

def endPart : BlockKind → String → Option ProviderMetadata → StreamPart
  | .text, id, metadata => .textEnd id metadata
  | .reasoning, id, metadata => .reasoningEnd id metadata

end BlockKind

/-- A block that was started: the text still to send, and the metadata sent last and to end with. -/
structure OpenBlock where
  rest : String
  metadata : Option ProviderMetadata
  final : Option ProviderMetadata

def wholePart : GenerateContent → Option StreamPart
  | .text .. | .reasoning _ => none
  | .toolCall call => some (.toolCall call)
  | .source source => some (.source source)
  | .file file => some (.file file)
  | .reasoningFile file => some (.reasoningFile file)
  | .custom kind metadata => some (.custom kind metadata)
  | .toolApprovalRequest request => some (.toolApprovalRequest request)
  | .toolResult result => some (.toolResult result)

def isAside : StreamPart → Bool
  | .streamStart _ | .responseMetadata _ | .toolInputStart .. | .toolInputDelta .. | .toolInputEnd ..
  | .raw _ => true
  | _ => false

theorem aside_ne_toolCall {part : StreamPart} (hAside : isAside part = true) (raw : RawToolCall) :
    part ≠ .toolCall raw := by
  rintro rfl
  cases hAside

abbrev OpenBlocks := BlockKind × String → Option OpenBlock

inductive Renders : OpenBlocks → List GenerateContent → List StreamPart → Prop
  | done {blocks} (settled : ∀ key block, blocks key = some block →
      block.rest = "" ∧ block.metadata = block.final) : Renders blocks [] []
  | start {blocks content items} (kind : BlockKind) (id text : String)
      (metadata final : Option ProviderMetadata) (fresh : blocks (kind, id) = none)
      (next : Renders (Function.update blocks (kind, id) (some { rest := text, metadata, final }))
        content items) :
      Renders blocks (kind.content text final :: content) (kind.startPart id metadata :: items)
  | delta {blocks content items} (kind : BlockKind) (id delta rest : String)
      (metadata : Option ProviderMetadata) (block : OpenBlock) (opened : blocks (kind, id) = some block)
      (split : block.rest = delta ++ rest)
      (next : Renders (Function.update blocks (kind, id)
        (some { block with rest, metadata := metadata <|> block.metadata })) content items) :
      Renders blocks content (kind.deltaPart id delta metadata :: items)
  | stop {blocks content items} (kind : BlockKind) (id : String) (metadata : Option ProviderMetadata)
      (block : OpenBlock) (opened : blocks (kind, id) = some block) (sent : block.rest = "")
      (settled : (metadata <|> block.metadata) = block.final)
      (next : Renders (Function.update blocks (kind, id) none) content items) :
      Renders blocks content (kind.endPart id metadata :: items)
  | whole {blocks content items} (part : StreamPart) (piece : GenerateContent)
      (sent : wholePart piece = some part) (next : Renders blocks content items) :
      Renders blocks (piece :: content) (part :: items)
  | aside {blocks content items} (part : StreamPart) (silent : isAside part = true)
      (next : Renders blocks content items) : Renders blocks content (part :: items)

/-! ## What the builder records -/

namespace BlockKind

def startOut : BlockKind → String → Option ProviderMetadata → TextStreamPart
  | .text, id, metadata => .textStart id metadata
  | .reasoning, id, metadata => .reasoningStart id metadata

def deltaOut : BlockKind → String → String → Option ProviderMetadata → TextStreamPart
  | .text, id, delta, metadata => .textDelta id metadata delta
  | .reasoning, id, delta, metadata => .reasoningDelta metadata id delta

def endOut : BlockKind → String → Option ProviderMetadata → TextStreamPart
  | .text, id, metadata => .textEnd id metadata
  | .reasoning, id, metadata => .reasoningEnd id metadata

section Parts

variable (kind : BlockKind) (id delta : String) (metadata : Option ProviderMetadata)

theorem role_startOut : (kind.startOut id metadata).role = .content := by
  cases kind <;> rfl

theorem role_deltaOut : (kind.deltaOut id delta metadata).role = .content := by
  cases kind <;> rfl

theorem role_endOut : (kind.endOut id metadata).role = .content := by
  cases kind <;> rfl

theorem startPart_ne_toolCall (raw : RawToolCall) : kind.startPart id metadata ≠ .toolCall raw := by
  cases kind <;> simp [startPart]

theorem deltaPart_ne_toolCall (raw : RawToolCall) : kind.deltaPart id delta metadata ≠ .toolCall raw := by
  cases kind <;> simp [deltaPart]

theorem endPart_ne_toolCall (raw : RawToolCall) : kind.endPart id metadata ≠ .toolCall raw := by
  cases kind <;> simp [endPart]

end Parts

def part : BlockKind → String → Option ProviderMetadata → ContentPart
  | .text, body, metadata => .text body metadata
  | .reasoning, body, metadata => .reasoning { text := body, providerMetadata := metadata }

def append : BlockKind → String → Option ProviderMetadata → ContentPart → ContentPart
  | .text => ResponseMessageBuilder.appendText
  | .reasoning => ResponseMessageBuilder.appendReasoning

theorem append_part (kind : BlockKind) (delta sent : String) (metadata sentMetadata : Option ProviderMetadata) :
    kind.append delta metadata (kind.part sent sentMetadata) =
      kind.part (sent ++ delta) (metadata <|> sentMetadata) := by
  cases kind <;> rfl

theorem modify_append_empty (kind : BlockKind) (content : List ContentPart) (index : Nat) :
    content.modify index (kind.append "" none) = content := by
  have hSame : kind.append "" none = id := by
    funext part
    cases kind <;> cases part <;>
      simp [append, ResponseMessageBuilder.appendText, ResponseMessageBuilder.appendReasoning]
  rw [hSame, List.modify_id]

end BlockKind

def ResponseMessageBuilder.slot (rm : ResponseMessageBuilder) : BlockKind × String → Option Nat
  | (.text, id) => rm.textIndexes id
  | (.reasoning, id) => rm.reasoningIndexes id

open StreamTextResult (recordPart)

section Record

variable (rm : ResponseMessageBuilder) (kind : BlockKind) (id delta : String)
  (metadata : Option ProviderMetadata)

theorem content_record_start :
    (recordPart rm (kind.startOut id metadata)).content = rm.content ++ [kind.part "" metadata] := by
  cases kind <;> rfl

theorem slot_record_start : (recordPart rm (kind.startOut id metadata)).slot =
      Function.update rm.slot (kind, id) (some rm.content.length) := by
  funext ⟨other, otherId⟩
  cases kind <;> cases other <;>
    simp [recordPart, BlockKind.startOut, ResponseMessageBuilder.slot, ResponseMessageBuilder.textStart,
      ResponseMessageBuilder.reasoningStart, ResponseMessageBuilder.push, Function.update_apply]

theorem slot_record_delta : (recordPart rm (kind.deltaOut id delta metadata)).slot = rm.slot := by
  funext ⟨other, otherId⟩
  cases kind <;> cases other <;> simp [recordPart, BlockKind.deltaOut, ResponseMessageBuilder.slot]

theorem slot_record_end : (recordPart rm (kind.endOut id metadata)).slot = Function.update rm.slot (kind, id) none := by
  funext ⟨other, otherId⟩
  cases kind <;> cases other <;>
    simp [recordPart, BlockKind.endOut, ResponseMessageBuilder.slot, ResponseMessageBuilder.textEnd,
      ResponseMessageBuilder.reasoningEnd, Function.update_apply]

variable {rm kind id} {index : Nat}

theorem content_record_delta (hSlot : rm.slot (kind, id) = some index) :
    (recordPart rm (kind.deltaOut id delta metadata)).content =
      rm.content.modify index (kind.append delta metadata) := by
  cases kind <;> simp only [ResponseMessageBuilder.slot] at hSlot <;>
    simp [recordPart, BlockKind.deltaOut, ResponseMessageBuilder.textDelta,
      ResponseMessageBuilder.reasoningDelta, hSlot, BlockKind.append]

theorem content_record_end (hSlot : rm.slot (kind, id) = some index) :
    (recordPart rm (kind.endOut id metadata)).content =
      rm.content.modify index (kind.append "" metadata) := by
  cases kind <;> simp only [ResponseMessageBuilder.slot] at hSlot <;>
    simp [recordPart, BlockKind.endOut, ResponseMessageBuilder.textEnd,
      ResponseMessageBuilder.reasoningEnd, ResponseMessageBuilder.textDelta,
      ResponseMessageBuilder.reasoningDelta, hSlot, BlockKind.append]

end Record

/-! ## The builder while blocks are open -/

/-- The content so far is `expected`, up to what the open blocks still have to send. -/
structure Builds (blocks : OpenBlocks) (expected : List ContentPart) (rm : ResponseMessageBuilder) :
    Prop where
  length : rm.content.length = expected.length
  opened : ∀ key block, blocks key = some block → ∃ index sent, rm.slot key = some index ∧
    rm.content[index]? = some (key.1.part sent block.metadata) ∧
    expected[index]? = some (key.1.part (sent ++ block.rest) block.final)
  closed : ∀ key, blocks key = none → rm.slot key = none
  separate : ∀ key other index, rm.slot key = some index → rm.slot other = some index → key = other
  settled : ∀ index, (∀ key, rm.slot key ≠ some index) → rm.content[index]? = expected[index]?

namespace Builds

variable {blocks : OpenBlocks} {expected : List ContentPart} {rm rm' : ResponseMessageBuilder}

theorem empty : Builds (fun _ => none) [] {} where
  length := rfl
  opened := by simp
  closed := by
    rintro ⟨kind, id⟩ _
    cases kind <;> rfl
  separate := by
    rintro ⟨kind, id⟩ other index hSlot _
    cases kind <;> cases hSlot
  settled := fun _ _ => rfl

theorem bound (h : Builds blocks expected rm) {key : BlockKind × String} {index : Nat}
    (hSlot : rm.slot key = some index) : index < rm.content.length := by
  cases hBlock : blocks key with
  | none =>
    rw [h.closed key hBlock] at hSlot
    cases hSlot
  | some block =>
    obtain ⟨index', sent, hSlot', hContent, _⟩ := h.opened key block hBlock
    rw [hSlot', Option.some.injEq] at hSlot
    exact hSlot ▸ (List.getElem?_eq_some_iff.mp hContent).1

variable {kind : BlockKind}

theorem start (h : Builds blocks expected rm) {id : String} (rest : String) (metadata final : Option ProviderMetadata)
    (hFresh : blocks (kind, id) = none) :
    Builds (Function.update blocks (kind, id) (some { rest, metadata, final }))
      (expected ++ [kind.part rest final]) (recordPart rm (kind.startOut id metadata)) := by
  have hContent := content_record_start rm kind id metadata
  have hSlots := slot_record_start rm kind id metadata
  constructor
  case length => simp [hContent, h.length]
  case opened =>
    intro key block hBlock
    rw [hContent, hSlots]
    by_cases hKey : key = (kind, id)
    · subst hKey
      rw [Function.update_self, Option.some.injEq] at hBlock
      subst hBlock
      refine ⟨rm.content.length, "", Function.update_self .., by simp, ?_⟩
      simp [h.length]
    · rw [Function.update_of_ne hKey] at hBlock ⊢
      obtain ⟨index, sent, hSlot, hSent, hExpected⟩ := h.opened key block hBlock
      have hBound := h.bound hSlot
      refine ⟨index, sent, hSlot, ?_, ?_⟩
      · rw [List.getElem?_append_left hBound, hSent]
      · rw [List.getElem?_append_left (h.length ▸ hBound), hExpected]
  case closed =>
    intro key hNone
    rw [hSlots]
    by_cases hKey : key = (kind, id)
    · subst hKey
      rw [Function.update_self] at hNone
      cases hNone
    · rw [Function.update_of_ne hKey] at hNone ⊢
      exact h.closed key hNone
  case separate =>
    intro key other index hSlot hOther
    rw [hSlots] at hSlot hOther
    by_cases hKey : key = (kind, id) <;> by_cases hSame : other = (kind, id)
    · rw [hKey, hSame]
    · rw [hKey, Function.update_self, Option.some.injEq] at hSlot
      rw [Function.update_of_ne hSame] at hOther
      exact absurd (h.bound hOther) (by omega)
    · rw [hSame, Function.update_self, Option.some.injEq] at hOther
      rw [Function.update_of_ne hKey] at hSlot
      exact absurd (h.bound hSlot) (by omega)
    · rw [Function.update_of_ne hKey] at hSlot
      rw [Function.update_of_ne hSame] at hOther
      exact h.separate key other index hSlot hOther
  case settled =>
    intro index hFree
    rw [hSlots] at hFree
    have hLast : rm.content.length ≠ index := by
      have hHere := hFree (kind, id)
      rw [Function.update_self] at hHere
      exact fun hEq => hHere (congrArg some hEq)
    have hOld : rm.content[index]? = expected[index]? := by
      refine h.settled index fun key hSlot => ?_
      by_cases hKey : key = (kind, id)
      · rw [hKey, h.closed _ hFresh] at hSlot
        cases hSlot
      · exact hFree key (by rw [Function.update_of_ne hKey, hSlot])
    rw [hContent]
    rcases Nat.lt_or_gt_of_ne hLast with hAfter | hBefore
    · rw [List.getElem?_eq_none (by simp; omega), List.getElem?_eq_none (by simp [← h.length]; omega)]
    · rw [List.getElem?_append_left hBefore, List.getElem?_append_left (h.length ▸ hBefore), hOld]

variable {block : OpenBlock} {metadata : Option ProviderMetadata}

theorem delta (h : Builds blocks expected rm) {id : String} (hBlock : blocks (kind, id) = some block)
    {delta rest : String} (hSplit : block.rest = delta ++ rest) {index : Nat} (hSlot : rm.slot (kind, id) = some index)
    (hContent : rm'.content = rm.content.modify index (kind.append delta metadata)) (hSlots : rm'.slot = rm.slot) :
    Builds (Function.update blocks (kind, id)
      (some { block with rest, metadata := metadata <|> block.metadata })) expected rm' := by
  constructor
  case length => simp [hContent, h.length]
  case opened =>
    intro key other hOther
    rw [hContent, hSlots]
    by_cases hKey : key = (kind, id)
    · subst hKey
      rw [Function.update_self, Option.some.injEq] at hOther
      subst hOther
      obtain ⟨index', sent, hSlot', hSent, hExpected⟩ := h.opened _ block hBlock
      obtain rfl : index = index' := Option.some.inj (hSlot.symm.trans hSlot')
      refine ⟨index, sent ++ delta, hSlot, ?_, ?_⟩
      · rw [List.getElem?_modify_eq, hSent]
        exact congrArg some (BlockKind.append_part ..)
      · rw [hExpected, hSplit, String.append_assoc]
    · rw [Function.update_of_ne hKey] at hOther
      obtain ⟨index', sent, hSlot', hSent, hExpected⟩ := h.opened key other hOther
      have hNe : index ≠ index' := fun hEq => hKey (h.separate key _ index' hSlot' (hEq ▸ hSlot))
      refine ⟨index', sent, hSlot', ?_, hExpected⟩
      rw [List.getElem?_modify_ne _ _ hNe, hSent]
  case closed =>
    intro key hNone
    rw [hSlots]
    by_cases hKey : key = (kind, id)
    · subst hKey
      rw [Function.update_self] at hNone
      cases hNone
    · rw [Function.update_of_ne hKey] at hNone
      exact h.closed key hNone
  case separate =>
    rw [hSlots]
    exact h.separate
  case settled =>
    intro index' hFree
    rw [hSlots] at hFree
    have hNe : index ≠ index' := fun hEq => hFree _ (hEq ▸ hSlot)
    rw [hContent, List.getElem?_modify_ne _ _ hNe]
    exact h.settled index' hFree

theorem close (h : Builds blocks expected rm) {key : BlockKind × String} (hBlock : blocks key = some block)
    (hSent : block.rest = "") (hFinal : block.metadata = block.final) (hContent : rm'.content = rm.content)
    (hSlots : rm'.slot = Function.update rm.slot key none) : Builds (Function.update blocks key none) expected rm' := by
  obtain ⟨index, sent, hSlot, hPart, hExpected⟩ := h.opened key block hBlock
  constructor
  case length => rw [hContent, h.length]
  case opened =>
    intro other otherBlock hOther
    by_cases hKey : other = key
    · rw [hKey, Function.update_self] at hOther
      cases hOther
    · rw [Function.update_of_ne hKey] at hOther
      rw [hContent, hSlots, Function.update_of_ne hKey]
      exact h.opened other otherBlock hOther
  case closed =>
    intro other hNone
    rw [hSlots]
    by_cases hKey : other = key
    · rw [hKey, Function.update_self]
    · rw [Function.update_of_ne hKey] at hNone ⊢
      exact h.closed other hNone
  case separate =>
    have hOld {other : BlockKind × String} {position : Nat} (hOther : rm'.slot other = some position) :
        rm.slot other = some position := by
      rw [hSlots] at hOther
      by_cases hKey : other = key
      · rw [hKey, Function.update_self] at hOther
        cases hOther
      · rwa [Function.update_of_ne hKey] at hOther
    exact fun one other position hOne hOther => h.separate one other position (hOld hOne) (hOld hOther)
  case settled =>
    intro position hFree
    rw [hContent]
    by_cases hHere : position = index
    · rw [hHere, hPart, hExpected, hSent, hFinal, String.append_empty]
    · refine h.settled position fun other hOther => ?_
      by_cases hKey : other = key
      · rw [hKey, hSlot, Option.some.injEq] at hOther
        exact hHere hOther.symm
      · exact hFree other (by rw [hSlots, Function.update_of_ne hKey, hOther])

theorem stop (h : Builds blocks expected rm) {id : String} (hBlock : blocks (kind, id) = some block)
    (hSent : block.rest = "") (hFinal : (metadata <|> block.metadata) = block.final) :
    Builds (Function.update blocks (kind, id) none) expected (recordPart rm (kind.endOut id metadata)) := by
  obtain ⟨index, sent, hSlot, _, _⟩ := h.opened _ block hBlock
  have hUpdated := h.delta hBlock (show block.rest = "" ++ "" from hSent) hSlot
    (content_record_delta "" metadata hSlot) (slot_record_delta rm kind id "" metadata)
  have hClosed := hUpdated.close (Function.update_self ..) rfl hFinal
    ((content_record_end metadata hSlot).trans (content_record_delta "" metadata hSlot).symm)
    (by rw [slot_record_end, slot_record_delta])
  rwa [Function.update_idem] at hClosed

theorem push (h : Builds blocks expected rm) (parts : List ContentPart)
    (hContent : rm'.content = rm.content ++ parts) (hSlots : rm'.slot = rm.slot) :
    Builds blocks (expected ++ parts) rm' := by
  constructor
  case length => simp [hContent, h.length]
  case opened =>
    intro key block hBlock
    obtain ⟨index, sent, hSlot, hSent, hExpected⟩ := h.opened key block hBlock
    have hBound := h.bound hSlot
    refine ⟨index, sent, hSlots ▸ hSlot, ?_, ?_⟩
    · rw [hContent, List.getElem?_append_left hBound, hSent]
    · rw [List.getElem?_append_left (h.length ▸ hBound), hExpected]
  case closed =>
    rw [hSlots]
    exact h.closed
  case separate =>
    rw [hSlots]
    exact h.separate
  case settled =>
    intro index hFree
    rw [hSlots] at hFree
    rw [hContent, List.getElem?_append, List.getElem?_append, h.length, h.settled index hFree]

theorem done (h : Builds blocks expected rm)
    (hSettled : ∀ key block, blocks key = some block → block.rest = "" ∧ block.metadata = block.final) :
    rm.content = expected := by
  refine List.ext_getElem? fun index => ?_
  by_cases hFree : ∀ key, rm.slot key ≠ some index
  · exact h.settled index hFree
  · push Not at hFree
    obtain ⟨key, hSlot⟩ := hFree
    cases hBlock : blocks key with
    | none =>
      rw [h.closed key hBlock] at hSlot
      cases hSlot
    | some block =>
      obtain ⟨hSent, hFinal⟩ := hSettled key block hBlock
      obtain ⟨index', sent, hSlot', hPart, hExpected⟩ := h.opened key block hBlock
      obtain rfl : index = index' := Option.some.inj (hSlot.symm.trans hSlot')
      rw [hPart, hExpected, hSent, hFinal, String.append_empty]

end Builds

end Aimux.Core
