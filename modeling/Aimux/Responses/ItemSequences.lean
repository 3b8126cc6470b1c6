import Aimux.Responses.ToolInputs

/-! # Item sequences

The events of a message or a reasoning, in the order in which they come. Events of other items, and those that are of
none, may stand anywhere between.
-/

namespace Aimux.Responses

open Aimux.Core Aimux.Provider OpenAIResponsesStream

/-! ## Events of one item -/

def PART_KINDS : List String := [
  "response.output_text.delta", "response.content_part.added", "response.refusal.delta", "response.refusal.done",
  "response.reasoning_summary_part.added", "response.reasoning_summary_text.delta",
  "response.reasoning_summary_part.done"]

/-- An event of a message or a reasoning, or of a part of one. -/
def isItemEvent : Except AiMuxError Json → Bool
  | .error _ => false
  | .ok chunk =>
    chunk.strOrEmpty "type" ∈ PART_KINDS ||
      (chunk.strOrEmpty "type" ∈ ITEM_KINDS && (chunk.member "item").strOrEmpty "type" ∈ ["message", "reasoning"])

/-- The output index of an event. -/
def placeOf : Except AiMuxError Json → Option Nat
  | .error _ => none
  | .ok chunk => chunk.getU64 "output_index"

def isItemEventAt (index : Nat) (event : Except AiMuxError Json) : Bool := isItemEvent event && placeOf event = some index

/-- An event that passes the schema, at an output index. -/
structure Placed (kind : String) (index : Nat) (chunk : Json) : Prop where
  kind : chunk.getStr "type" = some kind
  valid : chunkSchemaError chunk = none
  place : chunk.getU64 "output_index" = some index

structure PlacedItem (kind type : String) (index : Nat) (item chunk : Json) : Prop extends Placed kind index chunk where
  found : chunk.get "item" = some item
  typed : item.getStr "type" = some type

/-- The summary parts of a reasoning, the last of them current. -/
structure Summary where
  /-- With whether they were said to be done. -/
  earlier : List (Nat × Bool)
  current : Nat
  isDone : Bool

/-- How far an item is. -/
inductive Lane where
  | absent
  /-- With the index of the part that is spoken. -/
  | message (current : Nat)
  | reasoning (parts : Summary)
  | messageEnded
  | reasoningEnded (parts : Summary)

/-- The content index that a message is at after a part was added. -/
def nextContent (current : Nat) (chunk : Json) : Nat :=
  if (chunk.member "part").getStr "type" = some "output_text" ∧ current < contentIndex chunk then contentIndex chunk
  else current

/-- The events of an item that is well formed. The done event of a summary part may be missing. -/
inductive Lane.Step (id : String) (index : Nat) : Lane → Json → Lane → Prop
  | messageAdded {item chunk : Json} (hEvent : PlacedItem "response.output_item.added" "message" index item chunk)
    (hId : item.getStr "id" = some id) : Step id index .absent chunk (.message 0)
  | contentPartAdded {current : Nat} {chunk : Json} (hEvent : Placed "response.content_part.added" index chunk) :
    Step id index (.message current) chunk (.message (nextContent current chunk))
  | textDelta {current : Nat} {chunk : Json} (hEvent : Placed "response.output_text.delta" index chunk) :
    Step id index (.message current) chunk (.message current)
  | refusalDelta {current : Nat} {chunk : Json} (hEvent : Placed "response.refusal.delta" index chunk) :
    Step id index (.message current) chunk (.message current)
  | refusalDone {current : Nat} {chunk : Json} (hEvent : Placed "response.refusal.done" index chunk) :
    Step id index (.message current) chunk (.message current)
  | messageDone {current : Nat} {item chunk : Json}
    (hEvent : PlacedItem "response.output_item.done" "message" index item chunk) :
    Step id index (.message current) chunk .messageEnded
  | reasoningAdded {item chunk : Json} (hEvent : PlacedItem "response.output_item.added" "reasoning" index item chunk)
    (hId : item.getStr "id" = some id) : Step id index .absent chunk (.reasoning ⟨[], 0, false⟩)
  /-- The first part, which the item has started. -/
  | firstPartAdded {chunk : Json} (hEvent : Placed "response.reasoning_summary_part.added" index chunk)
    (hFirst : summaryIndex chunk = 0) :
    Step id index (.reasoning ⟨[], 0, false⟩) chunk (.reasoning ⟨[], 0, false⟩)
  | nextPartAdded {parts : Summary} {chunk : Json} (hEvent : Placed "response.reasoning_summary_part.added" index chunk)
    (hNext : parts.current < summaryIndex chunk) :
    Step id index (.reasoning parts) chunk
      (.reasoning ⟨parts.earlier ++ [(parts.current, parts.isDone)], summaryIndex chunk, false⟩)
  | summaryDelta {earlier : List (Nat × Bool)} {current : Nat} {chunk : Json}
    (hEvent : Placed "response.reasoning_summary_text.delta" index chunk) (hIndex : summaryIndex chunk = current) :
    Step id index (.reasoning ⟨earlier, current, false⟩) chunk (.reasoning ⟨earlier, current, false⟩)
  | summaryPartDone {earlier : List (Nat × Bool)} {current : Nat} {chunk : Json}
    (hEvent : Placed "response.reasoning_summary_part.done" index chunk) (hIndex : summaryIndex chunk = current) :
    Step id index (.reasoning ⟨earlier, current, false⟩) chunk (.reasoning ⟨earlier, current, true⟩)
  | reasoningDone {parts : Summary} {item chunk : Json}
    (hEvent : PlacedItem "response.output_item.done" "reasoning" index item chunk) :
    Step id index (.reasoning parts) chunk (.reasoningEnded parts)

/-- From where an item is to where its events bring it. -/
inductive Lane.Trace (id : String) (index : Nat) : Lane → List (Except AiMuxError Json) → Lane → Prop
  | nil (lane : Lane) : Trace id index lane [] lane
  | cons {lane next last : Lane} {chunk : Json} {rest : List (Except AiMuxError Json)}
    (hStep : Step id index lane chunk next) (hRest : Trace id index next rest last) :
    Trace id index lane (.ok chunk :: rest) last

/-- Any order of the events of well-formed items, each at an output index of its own, and of other events. -/
structure ItemSequences (events : List (Except AiMuxError Json)) where
  id : Nat → String
  /-- How each item ends. -/
  ends : Nat → Lane
  lanes : ∀ index, (Lane.absent).Trace (id index) index (events.filter (isItemEventAt index)) (ends index)
  closed : ∀ index, ends index = .absent ∨ ends index = .messageEnded ∨ ∃ parts, ends index = .reasoningEnded parts
  placed : ∀ event ∈ events, isItemEvent event = true → ∃ index, placeOf event = some index
  /-- Messages have ids that differ, also from the ids of the other messages' parts. -/
  messages : ∀ i j, ends i = .messageEnded → ends j = .messageEnded → i ≠ j →
    id i ≠ id j ∧ ∀ n, id i ≠ summaryId (id j) n
  reasonings : ∀ i j parts others, ends i = .reasoningEnded parts → ends j = .reasoningEnded others → i ≠ j → id i ≠ id j

/-! ## Where the items are -/

section

variable {id : String} {index : Nat} {last : Lane} {rest : List (Except AiMuxError Json)}

theorem Lane.Trace.ends_message {current : Nat} (h : (Lane.message current).Trace id index rest last)
    (hClosed : last = .absent ∨ last = .messageEnded ∨ ∃ parts, last = .reasoningEnded parts) : last = .messageEnded := by
  generalize hLane : Lane.message current = lane at h
  induction h generalizing current with
  | nil =>
    subst hLane
    rcases hClosed with h | h | ⟨parts, h⟩ <;> cases h
  | cons hStep hRest ih =>
    subst hLane
    cases hStep with
    | messageDone =>
      cases hRest with
      | nil => rfl
      | cons hStep => cases hStep
    | _ => exact ih hClosed rfl

theorem Lane.Trace.ends_reasoning {parts : Summary} (h : (Lane.reasoning parts).Trace id index rest last)
    (hClosed : last = .absent ∨ last = .messageEnded ∨ ∃ parts, last = .reasoningEnded parts) :
    ∃ parts, last = .reasoningEnded parts := by
  generalize hLane : Lane.reasoning parts = lane at h
  induction h generalizing parts with
  | nil =>
    subst hLane
    rcases hClosed with h | h | ⟨parts, h⟩ <;> cases h
  | cons hStep hRest ih =>
    subst hLane
    cases hStep with
    | reasoningDone =>
      cases hRest with
      | nil => exact ⟨_, rfl⟩
      | cons hStep => cases hStep
    | _ => exact ih hClosed rfl

end

/-! ## Names of blocks -/

inductive Block where
  | text (id : String)
  | reasoning (id : String)
deriving DecidableEq

/-- The text block of a message's part. -/
def blockName (id : String) (n : Nat) : String := if n = 0 then id else summaryId id n

theorem summaryId_toList (id : String) (n : Nat) :
    (summaryId id n).toList = id.toList ++ ':' :: (toString n).toList := by
  simp [summaryId]

theorem isDigit_toString {n : Nat} {c : Char} (h : c ∈ (toString n).toList) : c.isDigit = true := by
  rw [Nat.toString_eq_repr, Nat.toList_repr] at h
  exact Nat.isDigit_of_mem_toDigits (by decide) (by decide) h

theorem colon_not_mem (n : Nat) : ':' ∉ (toString n).toList := fun hMem => absurd (isDigit_toString hMem) (by decide)

theorem toString_inj {m n : Nat} (h : (toString m).toList = (toString n).toList) : m = n := by
  rw [Nat.toString_eq_repr, Nat.toString_eq_repr] at h
  exact Nat.repr_inj.mp (String.toList_inj.mp h)

/-- A list is cut at its last colon in one way. -/
theorem append_colon_inj {a b c d : List Char} (hC : ':' ∉ c) (hD : ':' ∉ d) (h : a ++ ':' :: c = b ++ ':' :: d) :
    a = b ∧ c = d := by
  rcases List.append_eq_append_iff.mp h with ⟨more, rfl, hMore⟩ | ⟨more, rfl, hMore⟩
  · cases more with
    | nil => exact ⟨(List.append_nil a).symm, (List.cons.inj hMore).2⟩
    | cons e more =>
      rw [List.cons_append, List.cons.injEq] at hMore
      exact absurd (hMore.2 ▸ List.mem_append_right more (List.mem_cons_self ..)) hC
  · cases more with
    | nil => exact ⟨List.append_nil b, (List.cons.inj hMore).2.symm⟩
    | cons e more =>
      rw [List.cons_append, List.cons.injEq] at hMore
      exact absurd (hMore.2 ▸ List.mem_append_right more (List.mem_cons_self ..)) hD

/-- An id and an index are told by the last colon. -/
theorem summaryId_inj {id other : String} {m n : Nat} (h : summaryId id m = summaryId other n) : id = other ∧ m = n := by
  have hLists := congrArg String.toList h
  rw [summaryId_toList, summaryId_toList] at hLists
  obtain ⟨hIds, hIndices⟩ := append_colon_inj (colon_not_mem m) (colon_not_mem n) hLists
  exact ⟨String.toList_inj.mp hIds, toString_inj hIndices⟩

theorem summaryId_ne (id : String) (n : Nat) : summaryId id n ≠ id := by
  intro h
  have hLength := congrArg List.length (congrArg String.toList h)
  rw [summaryId_toList, List.length_append, List.length_cons] at hLength
  omega

theorem blockName_inj {id : String} {m n : Nat} (h : blockName id m = blockName id n) : m = n := by
  rw [blockName, blockName] at h
  split at h
  · rename_i hM
    split at h
    · rename_i hN
      rw [hM, hN]
    · exact absurd h.symm (summaryId_ne id n)
  · split at h
    · exact absurd h (summaryId_ne id m)
    · exact (summaryId_inj h).2

namespace ItemSequences

variable {events : List (Except AiMuxError Json)} (items : ItemSequences events)

/-- The block of a part of an item. -/
def block (index n : Nat) : Block :=
  match items.ends index with
  | .messageEnded => .text (blockName (items.id index) n)
  | _ => .reasoning (summaryId (items.id index) n)

theorem block_message {index : Nat} (h : items.ends index = .messageEnded) (n : Nat) :
    items.block index n = .text (blockName (items.id index) n) := by rw [block, h]

theorem block_reasoning {index : Nat} {parts : Summary} (h : items.ends index = .reasoningEnded parts) (n : Nat) :
    items.block index n = .reasoning (summaryId (items.id index) n) := by rw [block, h]

/-- There is an item. -/
def Used (index : Nat) : Prop := items.ends index ≠ .absent

theorem used_cases {index : Nat} (h : items.Used index) :
    items.ends index = .messageEnded ∨ ∃ parts, items.ends index = .reasoningEnded parts :=
  (items.closed index).resolve_left h

theorem block_inj {index m n : Nat} (hUsed : items.Used index) (h : items.block index m = items.block index n) : m = n := by
  rcases items.used_cases hUsed with hMessage | ⟨parts, hReasoning⟩
  · rw [items.block_message hMessage, items.block_message hMessage] at h
    exact blockName_inj (Block.text.inj h)
  · rw [items.block_reasoning hReasoning, items.block_reasoning hReasoning] at h
    exact (summaryId_inj (Block.reasoning.inj h)).2

/-- Different items have different blocks. -/
theorem block_ne {i j : Nat} (hFirst : items.Used i) (hSecond : items.Used j) (hNe : i ≠ j) (m n : Nat) :
    items.block i m ≠ items.block j n := by
  intro h
  rcases items.used_cases hFirst with hMessage | ⟨parts, hReasoning⟩
  · rw [items.block_message hMessage] at h
    rcases items.used_cases hSecond with hOther | ⟨others, hOther⟩
    · rw [items.block_message hOther, Block.text.injEq, blockName, blockName] at h
      split at h
      · split at h
        · exact (items.messages i j hMessage hOther hNe).1 h
        · exact (items.messages i j hMessage hOther hNe).2 n h
      · split at h
        · exact (items.messages j i hOther hMessage hNe.symm).2 m h.symm
        · exact (items.messages i j hMessage hOther hNe).1 (summaryId_inj h).1
    · rw [items.block_reasoning hOther] at h
      cases h
  · rw [items.block_reasoning hReasoning] at h
    rcases items.used_cases hSecond with hOther | ⟨others, hOther⟩
    · rw [items.block_message hOther] at h
      cases h
    · rw [items.block_reasoning hOther] at h
      exact items.reasonings i j parts others hReasoning hOther hNe (summaryId_inj (Block.reasoning.inj h)).1

end ItemSequences

end Aimux.Responses
