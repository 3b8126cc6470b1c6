import Aimux.Bedrock.ChatStream
import Aimux.Provider.ChatToolCallsLifecycle

/-! # Tool blocks and their events

Every step of the stream opens, grows, drops or calls at most one tool block. As long as each opened block has an
id of its own, the events of an id are those of one block.
-/

namespace Aimux.Bedrock

open Aimux.Core
open Aimux.Provider.ChatToolCalls (CallEvent callEvents callEvents_nil callEvents_append)

abbrev ToolBlocks := Nat → Option ToolBlock

/-- Events of one id, unless they are hidden. -/
def eventsOf (id : String) (shown : Bool) (events : List CallEvent) (other : String) : List CallEvent :=
  if shown ∧ other = id then events else []

/-- The call that a block ends with. -/
def ToolBlock.call (block : ToolBlock) : RawToolCall where
  toolCallId := block.id
  toolName := block.name
  input := if block.input = "" then "\x7b\x7d" else block.input

/-- What one step does to the tool blocks, the events it emits, the id it opens a block with, and the index of
the block that it takes for a call. -/
inductive Advance (shown settled : String → Bool) (blocks : ToolBlocks) :
    ToolBlocks → (String → List CallEvent) → Option String → Option Nat → Prop
  | still : Advance shown settled blocks blocks (fun _ => []) none none
  | opened (index : Nat) (id name : String) (hId : settled id) :
    Advance shown settled blocks (Function.update blocks index (some { id, name }))
      (eventsOf id (shown name) [.start name]) (some id) none
  | grown (index : Nat) (block : ToolBlock) (delta : String) (hBlock : blocks index = some block) (hDelta : delta ≠ "") :
    Advance shown settled blocks (Function.update blocks index (some { block with input := block.input ++ delta }))
      (eventsOf block.id (shown block.name) [.delta delta]) none none
  | dropped (index : Nat) (block : ToolBlock) (hBlock : blocks index = some block) :
    Advance shown settled blocks (Function.update blocks index none)
      (eventsOf block.id (shown block.name) [.inputEnd]) none none
  | answered (index : Nat) (block : ToolBlock) (hBlock : blocks index = some block) (hHidden : shown block.name = false) :
    Advance shown settled blocks (Function.update blocks index none) (fun _ => []) none none
  | called (index : Nat) (block : ToolBlock) (hBlock : blocks index = some block) (hShown : shown block.name = true) :
    Advance shown settled blocks (Function.update blocks index none)
      (eventsOf block.id true [.inputEnd, .call block.call]) none (some index)

/-- What the events of a call are. -/
def Called (call : RawToolCall) (events : List CallEvent) : Prop :=
  ∃ deltas : List String,
    events = CallEvent.start call.toolName :: deltas.map CallEvent.delta ++ [CallEvent.inputEnd, .call call] ∧
    call.input = if deltas = [] then "\x7b\x7d" else String.join deltas

/-- What the events of an open block are. -/
def Growing (block : ToolBlock) (events : List CallEvent) : Prop :=
  ∃ deltas : List String, events = .start block.name :: deltas.map .delta ∧ (∀ delta ∈ deltas, delta ≠ "") ∧
    String.join deltas = block.input

/-- The events so far, where blocks with these ids were opened. -/
structure Tracked (shown settled : String → Bool) (blocks : ToolBlocks) (events : String → List CallEvent)
    (started : List String) : Prop where
  silent : ∀ id, id ∉ started → events id = []
  known : ∀ index block, blocks index = some block → block.id ∈ started ∧ settled block.id
  distinct : ∀ {i j : Nat} {block other : ToolBlock}, blocks i = some block → blocks j = some other →
    block.id = other.id → i = j
  visible : ∀ {index : Nat} {block : ToolBlock}, blocks index = some block → shown block.name →
    Growing block (events block.id)
  hidden : ∀ {index : Nat} {block : ToolBlock}, blocks index = some block → shown block.name = false →
    events block.id = []
  called : ∀ {id : String} {call : RawToolCall}, .call call ∈ events id →
    call.toolCallId = id ∧ Called call (events id) ∧ ∀ index block, blocks index = some block → block.id ≠ id

section Steps

variable {shown settled : String → Bool} {blocks after : ToolBlocks} {events new : String → List CallEvent}
  {started : List String} {fresh : Option String} {taken : Option Nat}

variable {block : ToolBlock} {index : Nat}

theorem update_some {j : Nat} {value : Option ToolBlock} (h : Function.update blocks index value j = some block) :
    j = index ∧ value = some block ∨ j ≠ index ∧ blocks j = some block := by
  rw [Function.update_apply] at h
  split at h
  · exact .inl ⟨‹_›, h⟩
  · exact .inr ⟨‹_›, h⟩

theorem Tracked.initial : Tracked shown settled (fun _ => none) (fun _ => []) [] where
  silent _ _ := rfl
  known _ _ h := by cases h
  distinct h := by cases h
  visible h := by cases h
  hidden h := by cases h
  called h := by cases h

variable {id : String}

theorem eventsOf_self {events : List CallEvent} : eventsOf id true events id = events :=
  if_pos ⟨rfl, rfl⟩

variable {other : String}

theorem eventsOf_ne {flag : Bool} {events : List CallEvent} (h : other ≠ id) :
    eventsOf id flag events other = [] := if_neg fun hBoth => h hBoth.2

theorem eventsOf_hidden {events : List CallEvent} : eventsOf id false events other = [] :=
  if_neg fun hBoth => by cases hBoth.1

/-- A block is taken away, with events of its id that end it. -/
theorem Tracked.removed (h : Tracked shown settled blocks events started) (hBlock : blocks index = some block)
    (hSilent : ∀ id, id ≠ block.id → new id = []) (hCalled : ∀ call, .call call ∈ events block.id ++ new block.id →
      call.toolCallId = block.id ∧ Called call (events block.id ++ new block.id)) :
    Tracked shown settled (Function.update blocks index none) (fun id => events id ++ new id) started where
  silent id hId := by
    have hApart : id ≠ block.id := fun hSame => hId (hSame ▸ (h.known index block hBlock).1)
    rw [h.silent id hId, hSilent id hApart, List.append_nil]
  known j other hOther := by
    rcases update_some hOther with ⟨_, hNone⟩ | ⟨_, hOther⟩
    · cases hNone
    · exact h.known j other hOther
  distinct hLeft hRight hSame := by
    rcases update_some hLeft with ⟨_, hNone⟩ | ⟨_, hLeft⟩
    · cases hNone
    · rcases update_some hRight with ⟨_, hNone⟩ | ⟨_, hRight⟩
      · cases hNone
      · exact h.distinct hLeft hRight hSame
  visible {j other} hOther hShown := by
    rcases update_some hOther with ⟨_, hNone⟩ | ⟨hApart, hOther⟩
    · cases hNone
    · have hId : other.id ≠ block.id := fun hSame => hApart (h.distinct hOther hBlock hSame)
      rw [hSilent _ hId, List.append_nil]
      exact h.visible hOther hShown
  hidden {j other} hOther hHidden := by
    rcases update_some hOther with ⟨_, hNone⟩ | ⟨hApart, hOther⟩
    · cases hNone
    · have hId : other.id ≠ block.id := fun hSame => hApart (h.distinct hOther hBlock hSame)
      rw [hSilent _ hId, List.append_nil]
      exact h.hidden hOther hHidden
  called {id call} hCall := by
    by_cases hId : id = block.id
    · subst hId
      obtain ⟨hSame, hEvents⟩ := hCalled call hCall
      refine ⟨hSame, hEvents, fun j other hOther => ?_⟩
      rcases update_some hOther with ⟨_, hNone⟩ | ⟨hApart, hOther⟩
      · cases hNone
      · exact fun hSame => hApart (h.distinct hOther hBlock hSame)
    · rw [hSilent id hId, List.append_nil] at hCall ⊢
      obtain ⟨hSame, hEvents, hGone⟩ := h.called hCall
      refine ⟨hSame, hEvents, fun j other hOther => ?_⟩
      rcases update_some hOther with ⟨_, hNone⟩ | ⟨_, hOther⟩
      · cases hNone
      · exact hGone j other hOther

/-- While its block is open, an id has no call. -/
theorem Tracked.uncalled (h : Tracked shown settled blocks events started) (hBlock : blocks index = some block)
    (call : RawToolCall) : .call call ∉ events block.id :=
  fun hCall => (h.called hCall).2.2 index block hBlock rfl

theorem called_of_growing {events : List CallEvent} (h : Growing block events) :
    Called block.call (events ++ [CallEvent.inputEnd, .call block.call]) := by
  obtain ⟨deltas, rfl, hFilled, hJoin⟩ := h
  refine ⟨deltas, rfl, ?_⟩
  rw [ToolBlock.call, ← hJoin]
  cases deltas with
  | nil => rfl
  | cons delta deltas =>
    have hJoined : String.join (delta :: deltas) ≠ "" := by
      intro hEmpty
      rw [String.join_cons, String.append_eq_empty_iff] at hEmpty
      exact hFilled delta (List.mem_cons_self ..) hEmpty.1
    rw [if_neg hJoined, if_neg (List.cons_ne_nil _ _)]

theorem Tracked.opened (h : Tracked shown settled blocks events started) (index : Nat) (name : String)
    (hId : settled id) (hFresh : id ∉ started) :
    Tracked shown settled (Function.update blocks index (some { id, name }))
      (fun other => events other ++ eventsOf id (shown name) [.start name] other) (started ++ [id]) := by
  have hOld : ∀ {j block}, blocks j = some block → block.id ≠ id := fun hBlock hSame =>
    hFresh (hSame ▸ (h.known _ _ hBlock).1)
  refine ⟨?_, ?_, ?_, ?_, ?_, ?_⟩
  · intro other hOther
    rw [List.mem_append, List.mem_singleton, not_or] at hOther
    rw [h.silent other hOther.1, eventsOf_ne hOther.2, List.append_nil]
  · intro j block hBlock
    rcases update_some hBlock with ⟨_, hNew⟩ | ⟨_, hBlock⟩
    · cases hNew
      exact ⟨by simp, hId⟩
    · exact ⟨List.mem_append_left _ (h.known j block hBlock).1, (h.known j block hBlock).2⟩
  · intro i j block other hLeft hRight hSame
    rcases update_some hLeft with ⟨rfl, hNew⟩ | ⟨_, hLeft⟩
    · rcases update_some hRight with ⟨rfl, _⟩ | ⟨_, hRight⟩
      · rfl
      · cases hNew
        exact absurd hSame.symm (hOld hRight)
    · rcases update_some hRight with ⟨_, hNew⟩ | ⟨_, hRight⟩
      · cases hNew
        exact absurd hSame (hOld hLeft)
      · exact h.distinct hLeft hRight hSame
  · intro j block hBlock hShown
    rcases update_some hBlock with ⟨_, hNew⟩ | ⟨_, hBlock⟩
    · cases hNew
      rw [h.silent id hFresh, List.nil_append, hShown, eventsOf_self]
      exact ⟨[], rfl, by simp, rfl⟩
    · rw [eventsOf_ne (hOld hBlock), List.append_nil]
      exact h.visible hBlock hShown
  · intro j block hBlock hHidden
    rcases update_some hBlock with ⟨_, hNew⟩ | ⟨_, hBlock⟩
    · cases hNew
      rw [h.silent id hFresh, List.nil_append, hHidden, eventsOf_hidden]
    · rw [eventsOf_ne (hOld hBlock), List.append_nil]
      exact h.hidden hBlock hHidden
  · intro other call hCall
    by_cases hSame : other = id
    · subst hSame
      rw [h.silent other hFresh, List.nil_append, eventsOf] at hCall
      split at hCall
      · simp at hCall
      · cases hCall
    · rw [eventsOf_ne hSame, List.append_nil] at hCall ⊢
      obtain ⟨hCallId, hEvents, hGone⟩ := h.called hCall
      refine ⟨hCallId, hEvents, fun j block hBlock => ?_⟩
      rcases update_some hBlock with ⟨_, hNew⟩ | ⟨_, hBlock⟩
      · cases hNew
        exact Ne.symm hSame
      · exact hGone j block hBlock

theorem Tracked.grown (h : Tracked shown settled blocks events started) {delta : String}
    (hBlock : blocks index = some block) (hDelta : delta ≠ "") :
    Tracked shown settled (Function.update blocks index (some { block with input := block.input ++ delta }))
      (fun other => events other ++ eventsOf block.id (shown block.name) [.delta delta] other) started := by
  have hOld : ∀ {j other}, j ≠ index → blocks j = some other → other.id ≠ block.id := fun hApart hOther hSame =>
    hApart (h.distinct hOther hBlock hSame)
  refine ⟨?_, ?_, ?_, ?_, ?_, ?_⟩
  · intro other hOther
    have hApart : other ≠ block.id := fun hSame => hOther (hSame ▸ (h.known index block hBlock).1)
    rw [h.silent other hOther, eventsOf_ne hApart, List.append_nil]
  · intro j other hOther
    rcases update_some hOther with ⟨_, hNew⟩ | ⟨_, hOther⟩
    · cases hNew
      exact h.known index block hBlock
    · exact h.known j other hOther
  · intro i j left right hLeft hRight hSame
    rcases update_some hLeft with ⟨rfl, hNew⟩ | ⟨hLeftApart, hLeft⟩
    · rcases update_some hRight with ⟨rfl, _⟩ | ⟨hApart, hRight⟩
      · rfl
      · cases hNew
        exact absurd hSame.symm (hOld hApart hRight)
    · rcases update_some hRight with ⟨_, hNew⟩ | ⟨_, hRight⟩
      · cases hNew
        exact absurd hSame (hOld hLeftApart hLeft)
      · exact h.distinct hLeft hRight hSame
  · intro j other hOther hShown
    rcases update_some hOther with ⟨_, hNew⟩ | ⟨hApart, hOther⟩
    · cases hNew
      obtain ⟨deltas, hEvents, hFilled, hJoin⟩ := h.visible hBlock hShown
      refine ⟨deltas ++ [delta], ?_, ?_, ?_⟩
      · rw [hEvents, hShown, eventsOf_self, List.map_append, List.cons_append, List.map_singleton]
      · intro one hOne
        rcases List.mem_append.mp hOne with hOne | hOne
        · exact hFilled one hOne
        · rw [List.mem_singleton.mp hOne]
          exact hDelta
      · have hText : String.join [delta] = delta := by simp [String.join]
        rw [String.join_append, hJoin, hText]
    · rw [eventsOf_ne (hOld hApart hOther), List.append_nil]
      exact h.visible hOther hShown
  · intro j other hOther hHidden
    rcases update_some hOther with ⟨_, hNew⟩ | ⟨hApart, hOther⟩
    · cases hNew
      rw [h.hidden hBlock hHidden, hHidden, List.nil_append, eventsOf_hidden]
    · rw [eventsOf_ne (hOld hApart hOther), List.append_nil]
      exact h.hidden hOther hHidden
  · intro other call hCall
    by_cases hSame : other = block.id
    · subst hSame
      rcases List.mem_append.mp hCall with hCall | hCall
      · exact absurd hCall (h.uncalled hBlock call)
      · rw [eventsOf] at hCall
        split at hCall
        · simp at hCall
        · cases hCall
    · rw [eventsOf_ne hSame, List.append_nil] at hCall ⊢
      obtain ⟨hCallId, hEvents, hGone⟩ := h.called hCall
      refine ⟨hCallId, hEvents, fun j left hLeft => ?_⟩
      rcases update_some hLeft with ⟨_, hNew⟩ | ⟨_, hLeft⟩
      · cases hNew
        exact hGone index block hBlock
      · exact hGone j left hLeft

theorem Advance.tracked (hStep : Advance shown settled blocks after new fresh taken)
    (h : Tracked shown settled blocks events started) (hFresh : ∀ id, fresh = some id → id ∉ started) :
    Tracked shown settled after (fun id => events id ++ new id) (started ++ fresh.toList) := by
  cases hStep with
  | still =>
    simp only [List.append_nil, Option.toList_none]
    exact h
  | opened index id name hId => exact h.opened index name hId (hFresh id rfl)
  | grown index block delta hBlock hDelta =>
    rw [Option.toList_none, List.append_nil]
    exact h.grown hBlock hDelta
  | dropped index block hBlock =>
    rw [Option.toList_none, List.append_nil]
    refine h.removed hBlock (fun id hApart => eventsOf_ne hApart) fun call hCall => ?_
    rcases List.mem_append.mp hCall with hCall | hCall
    · exact absurd hCall (h.uncalled hBlock call)
    · rw [eventsOf] at hCall
      split at hCall
      · simp at hCall
      · cases hCall
  | answered index block hBlock hHidden =>
    rw [Option.toList_none, List.append_nil]
    refine h.removed hBlock (fun _ _ => rfl) fun call hCall => ?_
    rw [List.append_nil] at hCall
    exact absurd hCall (h.uncalled hBlock call)
  | called index block hBlock hShown =>
    rw [Option.toList_none, List.append_nil]
    refine h.removed hBlock (fun id hApart => eventsOf_ne hApart) fun call hCall => ?_
    rw [eventsOf_self] at hCall ⊢
    rcases List.mem_append.mp hCall with hCall | hCall
    · exact absurd hCall (h.uncalled hBlock call)
    · have hSame : call = block.call := by simpa using hCall
      rw [hSame]
      exact ⟨rfl, called_of_growing (h.visible hBlock hShown)⟩

theorem Tracked.mono (h : Tracked shown settled blocks events started) {more : List String}
    (hMore : ∀ id ∈ started, id ∈ more) : Tracked shown settled blocks events more where
  silent id hId := h.silent id fun hOld => hId (hMore id hOld)
  known index block hBlock := ⟨hMore _ (h.known index block hBlock).1, (h.known index block hBlock).2⟩
  distinct := h.distinct
  visible := h.visible
  hidden := h.hidden
  called := h.called

/-! ## The fate of an id -/

/-- The id has no block, and no call. -/
def Gone (blocks : ToolBlocks) (events : String → List CallEvent) (id : String) : Prop :=
  (∀ j block, blocks j = some block → block.id ≠ id) ∧ ∀ call, .call call ∉ events id

/-- The id has its block at the index, or it has none and will not get one. -/
inductive Fate (blocks : ToolBlocks) (events : String → List CallEvent) (index : Nat) (id : String) : Prop
  | alive (block : ToolBlock) (hBlock : blocks index = some block) (hId : block.id = id)
  | gone (hGone : Gone blocks events id)

theorem Fate.uncalled (h : Fate blocks events index id) (hTracked : Tracked shown settled blocks events started)
    (call : RawToolCall) : .call call ∉ events id := by
  cases h with
  | alive block hBlock hId => exact hId ▸ hTracked.uncalled hBlock call
  | gone hGone => exact hGone.2 call

theorem Fate.gone_of_none (h : Fate blocks events index id) (hNone : blocks index = none) : Gone blocks events id := by
  cases h with
  | alive block hBlock hId =>
    rw [hNone] at hBlock
    cases hBlock
  | gone hGone => exact hGone

theorem call_notMem_eventsOf {flag : Bool} {event : CallEvent} (hEvent : ∀ call, event ≠ .call call)
    (call : RawToolCall) : .call call ∉ eventsOf id flag [event] other := by
  rw [eventsOf]
  split
  · rw [List.mem_singleton]
    exact fun hSame => hEvent call hSame.symm
  · exact List.not_mem_nil

section

variable (hStep : Advance shown settled blocks after new fresh taken)

include hStep

/-- Only the block with the id makes a call of it. -/
theorem Advance.call_block {call : RawToolCall} (hCall : .call call ∈ new id) :
    ∃ j block, blocks j = some block ∧ block.id = id ∧ taken = some j := by
  cases hStep with
  | still => cases hCall
  | opened | grown | dropped => exact absurd hCall (call_notMem_eventsOf (fun _ hSame => by cases hSame) call)
  | answered => cases hCall
  | called j block hBlock hShown =>
    refine ⟨j, block, hBlock, ?_, rfl⟩
    by_contra hApart
    rw [eventsOf_ne (Ne.symm hApart)] at hCall
    cases hCall

/-- A block that is there after a step was there before it, unless the step opened it. -/
theorem Advance.old_block (hFresh : fresh ≠ some id) {j : Nat} (hBlock : after j = some block) (hId : block.id = id) :
    ∃ old, blocks j = some old ∧ old.id = id := by
  cases hStep with
  | still => exact ⟨block, hBlock, hId⟩
  | opened i name newId =>
    rcases update_some hBlock with ⟨_, hOpened⟩ | ⟨_, hBlock⟩
    · cases hOpened
      exact absurd (congrArg some hId) hFresh
    · exact ⟨block, hBlock, hId⟩
  | grown i old delta hOldBlock =>
    rcases update_some hBlock with ⟨rfl, hGrown⟩ | ⟨_, hBlock⟩
    · cases hGrown
      exact ⟨old, hOldBlock, hId⟩
    · exact ⟨block, hBlock, hId⟩
  | dropped | answered | called =>
    rcases update_some hBlock with ⟨_, hNone⟩ | ⟨_, hBlock⟩
    · cases hNone
    · exact ⟨block, hBlock, hId⟩

theorem Advance.gone (h : Gone blocks events id) (hFresh : fresh ≠ some id) :
    Gone after (fun other => events other ++ new other) id := by
  refine ⟨fun j block hBlock hId => ?_, fun call hCall => ?_⟩
  · obtain ⟨old, hOld, hOldId⟩ := hStep.old_block hFresh hBlock hId
    exact h.1 j old hOld hOldId
  · rcases List.mem_append.mp hCall with hCall | hCall
    · exact h.2 call hCall
    · obtain ⟨j, block, hBlock, hId, _⟩ := hStep.call_block hCall
      exact h.1 j block hBlock hId

/-- Unless the block at the index is taken for a call. -/
theorem Advance.fate (h : Tracked shown settled blocks events started) (hFate : Fate blocks events index id)
    (hFresh : fresh ≠ some id) (hTaken : taken ≠ some index) :
    Fate after (fun other => events other ++ new other) index id := by
  cases hFate with
  | gone hGone => exact .gone (hStep.gone hGone hFresh)
  | alive own hOwn hOwnId =>
    by_cases hStays : ∃ block, after index = some block ∧ block.id = id
    · obtain ⟨block, hBlock, hId⟩ := hStays
      exact .alive block hBlock hId
    · refine .gone ⟨fun j block hBlock hId => ?_, fun call hCall => ?_⟩
      · obtain ⟨old, hOld, hOldId⟩ := hStep.old_block hFresh hBlock hId
        have hSame := h.distinct hOld hOwn (hOldId.trans hOwnId.symm)
        subst hSame
        exact hStays ⟨block, hBlock, hId⟩
      · rcases List.mem_append.mp hCall with hCall | hCall
        · exact h.uncalled hOwn call (hOwnId ▸ hCall)
        · obtain ⟨j, block, hBlock, hId, rfl⟩ := hStep.call_block hCall
          have hSame := h.distinct hBlock hOwn (hId.trans hOwnId.symm)
          subst hSame
          exact hTaken rfl

end

end Steps

end Aimux.Bedrock
