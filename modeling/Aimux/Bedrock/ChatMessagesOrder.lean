import Aimux.Bedrock.ToolMarks

/-! # The order of Converse messages

Two assistant messages are never next to each other, and two user messages only where the first one has no tool
results.
-/

namespace Aimux.Bedrock

open Aimux.Core
open Aimux.Prompt (AssistantPart LanguageModelMessage LanguageModelPrompt ToolPart UserPart)

/-! ## Messages next to each other -/

def ChatMessage.hasResult (message : ChatMessage) : Bool := message.content.any (hasKey "toolResult")

/-- The second message may come behind the first one. -/
def Follows (first second : ChatMessage) : Prop :=
  first.role = second.role → first.role = .user ∧ first.hasResult = false

def Alternates (first second : ChatMessage) : Prop := first.role ≠ second.role

/-- A user message behind these has a message of the assistant before it, or joins the last one. -/
def Closed (messages : List ChatMessage) : Prop :=
  ∀ last ∈ messages.getLast?, last.role = .user → last.hasResult = true

def EndsWithUser (messages : List ChatMessage) : Prop := ∀ last ∈ messages.getLast?, last.role = .user

/-- The messages of the roles that are asked for have content. -/
def Filled (asked : Role → Prop) (messages : List ChatMessage) : Prop :=
  ∀ message ∈ messages, asked message.role → message.content ≠ []

variable {messages : List ChatMessage} {related : ChatMessage → ChatMessage → Prop}

theorem isChain_concat {message : ChatMessage} :
    List.IsChain related (messages ++ [message]) ↔
      List.IsChain related messages ∧ ∀ last ∈ messages.getLast?, related last message := by
  rw [List.isChain_append]
  simp

/-- The content joins the last message, or it is a message of its own. -/
theorem appendUserMessage_cases (messages : List ChatMessage) (content : List Json) :
    (∃ front last, messages = front ++ [last] ∧ last.role = Role.user ∧ last.hasResult = true ∧
      appendUserMessage messages content = front ++ [{ last with content := last.content ++ content }]) ∨
    ((∀ last ∈ messages.getLast?, last.role = .user → last.hasResult = false) ∧
      appendUserMessage messages content = messages ++ [{ role := .user, content }]) := by
  cases hLast : messages.getLast? with
  | none =>
    refine .inr ⟨fun last hNone => (nomatch hNone), ?_⟩
    rw [appendUserMessage, hLast, List.getLast?_eq_none_iff.mp hLast]
    rfl
  | some last =>
    by_cases hJoins : last.role = .user ∧ last.hasResult = true
    · refine .inl ⟨messages.dropLast, last, (List.dropLast_append_getLast? last hLast).symm, hJoins.1, hJoins.2, ?_⟩
      rw [appendUserMessage, hLast]
      exact if_pos hJoins
    · refine .inr ⟨?_, ?_⟩
      · rintro other hOther hUser
        cases hOther
        exact Bool.eq_false_iff.mpr fun hResult => hJoins ⟨hUser, hResult⟩
      · rw [appendUserMessage, hLast]
        exact if_neg hJoins

theorem isChain_replace {front : List ChatMessage} {last other : ChatMessage}
    (h : List.IsChain related (front ++ [last])) (hRole : ∀ first, related first last → related first other) :
    List.IsChain related (front ++ [other]) := by
  rw [isChain_concat] at h ⊢
  exact ⟨h.1, fun first hFirst => hRole first (h.2 first hFirst)⟩

theorem follows_appendUserMessage (h : List.IsChain Follows messages) (content : List Json) :
    List.IsChain Follows (appendUserMessage messages content) := by
  obtain ⟨front, last, rfl, hUser, -, hAppended⟩ | ⟨hLast, hAppended⟩ := appendUserMessage_cases messages content
  · rw [hAppended]
    exact isChain_replace h fun first hFirst => hFirst
  · rw [hAppended, isChain_concat]
    exact ⟨h, fun last hMem hSame => ⟨hSame, hLast last hMem hSame⟩⟩

theorem alternates_appendUserMessage (h : List.IsChain Alternates messages) (hClosed : Closed messages)
    (content : List Json) :
    List.IsChain Alternates (appendUserMessage messages content) := by
  obtain ⟨front, last, rfl, hUser, -, hAppended⟩ | ⟨hLast, hAppended⟩ := appendUserMessage_cases messages content
  · rw [hAppended]
    exact isChain_replace h fun first hFirst => hFirst
  · rw [hAppended, isChain_concat]
    refine ⟨h, fun last hMem hSame => ?_⟩
    have hResult := hClosed last hMem hSame
    rw [hLast last hMem hSame] at hResult
    cases hResult

theorem endsWithUser_appendUserMessage (messages : List ChatMessage) (content : List Json) :
    EndsWithUser (appendUserMessage messages content) := by
  obtain ⟨front, last, rfl, hUser, -, hAppended⟩ | ⟨-, hAppended⟩ := appendUserMessage_cases messages content
  · rw [hAppended, EndsWithUser, List.getLast?_concat]
    rintro _ ⟨⟩
    exact hUser
  · rw [hAppended, EndsWithUser, List.getLast?_concat]
    rintro _ ⟨⟩
    rfl

variable {content : List Json}

theorem closed_appendUserMessage (messages : List ChatMessage) (hResult : content.any (hasKey "toolResult") = true) :
    Closed (appendUserMessage messages content) := by
  obtain ⟨front, last, rfl, -, hBefore, hAppended⟩ | ⟨-, hAppended⟩ := appendUserMessage_cases messages content
  · rw [hAppended, Closed, List.getLast?_concat]
    rintro _ ⟨⟩ -
    rw [ChatMessage.hasResult, List.any_append, hResult, Bool.or_true]
  · rw [hAppended, Closed, List.getLast?_concat]
    rintro _ ⟨⟩ -
    exact hResult

variable {asked : Role → Prop}

theorem filled_concat (h : Filled asked messages) {message : ChatMessage}
    (hMessage : asked message.role → message.content ≠ []) : Filled asked (messages ++ [message]) := by
  intro other hOther
  rcases List.mem_append.mp hOther with hOld | hNew
  · exact h other hOld
  · exact List.mem_singleton.mp hNew ▸ hMessage

theorem filled_appendUserMessage (h : Filled asked messages) (hContent : asked .user → content ≠ []) :
    Filled asked (appendUserMessage messages content) := by
  obtain ⟨front, last, rfl, hUser, -, hAppended⟩ | ⟨-, hAppended⟩ := appendUserMessage_cases messages content
  · rw [hAppended]
    refine filled_concat (fun message hMessage => h message (List.mem_append_left _ hMessage)) fun hAsked hNone => ?_
    exact hContent (hUser ▸ hAsked) (List.append_eq_nil_iff.mp hNone).2
  · rw [hAppended]
    exact filled_concat h hContent

theorem visible_ne_nil (h : isVisible content = true) : content ≠ [] := by
  rintro rfl
  cases h

theorem isChain_flushAssistant (hTurn : ∀ first second : ChatMessage, first.role ≠ second.role → related first second)
    (h : List.IsChain related messages) (hUser : isVisible content = true → EndsWithUser messages) :
    List.IsChain related (flushAssistant messages content) := by
  rw [flushAssistant]
  split
  · rename_i hVisible
    rw [isChain_concat]
    refine ⟨h, fun last hLast => hTurn _ _ ?_⟩
    rw [hUser hVisible last hLast]
    exact fun hSame => nomatch hSame
  · exact h

theorem closed_flushAssistant (h : isVisible content = true ∨ Closed messages) :
    Closed (flushAssistant messages content) := by
  rw [flushAssistant]
  split
  · rw [Closed, List.getLast?_concat]
    rintro _ ⟨⟩ hUser
    cases hUser
  · rename_i hHidden
    exact h.resolve_left hHidden

theorem filled_flushAssistant (h : Filled asked messages) (content : List Json) :
    Filled asked (flushAssistant messages content) := by
  rw [flushAssistant]
  split
  · rename_i hVisible
    exact filled_concat h fun _ => visible_ne_nil hVisible
  · exact h

theorem messageMarks_flushAssistant (messages : List ChatMessage) (hKept : ∀ block ∈ content, Kept block) :
    messageMarks (flushAssistant messages content) = messageMarks messages ++ marks content := by
  rw [flushAssistant]
  split
  · rw [messageMarks_append, messageMarks_singleton]
  · rename_i hHidden
    rw [marks_invisible hKept (Bool.eq_false_iff.mpr hHidden), List.append_nil]

/-! ## Going through assistant messages -/

section

variable (crates : PromptCrates) (isMistral : Bool)

def stepMarks : AssistantStep → List ToolMark
  | .part _ _ part => (assistantMark isMistral part).toList
  | .options .. => []

/-- A message's own options come right behind a tool result if they say so. -/
def Placed : Bool → List AssistantStep → Prop
  | _, [] => True
  | _, .part _ _ part :: steps => Placed (isToolResult part) steps
  | behindResult, .options afterResult _ :: steps => (afterResult = true → behindResult = true) ∧ Placed false steps

/-- Whether a part makes a block, in a message with or without reasoning. -/
def isHeard (hasReasoning : Bool) : AssistantPart → Bool
  | .text part => trimmed part.text ≠ "" || hasReasoning
  | .reasoning part => (reasoningBlock part).isSome
  | .toolCall _ => true
  | _ => false

/-- Some part before the first tool result makes a block. -/
def opens : List (Bool × AssistantPart) → Bool
  | [] => false
  | (hasReasoning, part) :: parts => !isToolResult part && (isHeard hasReasoning part || opens parts)

/-- The parts of a message, with whether it has reasoning. -/
def spokenParts : LanguageModelMessage → List (Bool × AssistantPart)
  | .assistant content _ => content.map fun part => (content.any isReasoning, part)
  | _ => []

def stepParts : AssistantStep → List (Bool × AssistantPart)
  | .part _ hasReasoning part => [(hasReasoning, part)]
  | .options .. => []

/-- The messages once the last results and what the assistant said last are messages. -/
def AssistantState.finish (state : AssistantState) : List ChatMessage :=
  flushAssistant state.sendResults.messages state.sendResults.content

/-- What is so while a group of assistant messages is gone through, with the marks so far. -/
structure Going (asked : Role → Prop) (expected : List ToolMark) (state : AssistantState) : Prop where
  follows : List.IsChain Follows state.messages
  afterUser : state.results = [] → EndsWithUser state.messages
  waiting : state.results ≠ [] → isVisible state.content = false
  answers : state.results ≠ [] → state.results.any (hasKey "toolResult") = true
  filled : Filled asked state.messages
  kept : ∀ block ∈ state.content, Kept block
  marks : messageMarks state.messages ++ marks state.results ++ marks state.content = expected

section

variable {asked : Role → Prop} {expected : List ToolMark} {state : AssistantState}

theorem isVisible_append (first second : List Json) :
    isVisible (first ++ second) = (isVisible first || isVisible second) := List.any_append

theorem isVisible_cachePoint (options : Option Prompt.ProviderOptions) :
    isVisible (cachePoint options).toList = false := by
  rw [cachePoint]
  cases option options "cachePoint" <;> rfl

theorem Going.sendResults (h : Going asked expected state) : Going asked expected state.sendResults := by
  rw [AssistantState.sendResults]
  split
  · exact h
  · rename_i hResults
    have hNone := marks_invisible h.kept (h.waiting hResults)
    exact {
      follows := follows_appendUserMessage h.follows state.results
      afterUser := fun _ => endsWithUser_appendUserMessage state.messages state.results
      waiting := fun hMore => absurd rfl hMore
      answers := fun hMore => absurd rfl hMore
      filled := filled_appendUserMessage h.filled fun _ => hResults
      kept := h.kept
      marks := by
        rw [messageMarks_appendUserMessage, marks_nil, List.append_nil]
        exact h.marks }

theorem sendResults_of_none (hResults : state.results = []) : state.sendResults = state := if_pos hResults

theorem sendResults_results (state : AssistantState) : state.sendResults.results = [] := by
  rw [AssistantState.sendResults]
  split
  · assumption
  · rfl

/-- A call or content goes behind what the assistant said so far. -/
theorem Going.say (h : Going asked expected state) (hResults : state.results = [])
    (hKept : ∀ block ∈ content, Kept block) :
    Going asked (expected ++ Bedrock.marks content) { state with content := state.content ++ content } where
  follows := h.follows
  afterUser := h.afterUser
  waiting hMore := absurd hResults hMore
  answers := h.answers
  filled := h.filled
  kept block hBlock := (List.mem_append.mp hBlock).elim (h.kept block) (hKept block)
  marks := by rw [marks_append, ← List.append_assoc, h.marks]

/-- A result goes behind the results that wait, and what the assistant said becomes a message. -/
theorem Going.answer (h : Going asked expected state) (block : Json) (hResult : hasKey "toolResult" block = true)
    (points : List Json) (hPoints : Bedrock.marks points = []) (documents : Nat) :
    Going asked (expected ++ Bedrock.marks [block])
      { messages := flushAssistant state.messages state.content
        content := []
        results := state.results ++ [block] ++ points
        documents := documents } := by
  have hUser (hVisible : isVisible state.content = true) : state.results = [] := by
    by_contra hMore
    rw [h.waiting hMore] at hVisible
    cases hVisible
  refine {
    follows := isChain_flushAssistant (fun _ _ hRoles hSame => absurd hSame hRoles) h.follows fun hVisible =>
      h.afterUser (hUser hVisible)
    afterUser := fun hNone => ?_
    waiting := fun _ => rfl
    answers := fun _ => ?_
    filled := filled_flushAssistant h.filled state.content
    kept := fun _ hNone => nomatch hNone
    marks := ?_ }
  · simp at hNone
  · rw [List.any_append, List.any_append, List.any_cons, hResult]
    simp
  · rw [messageMarks_flushAssistant state.messages h.kept, marks_append, marks_append, hPoints, marks_nil,
      List.append_nil, List.append_nil, ← List.append_assoc, ← h.marks]
    by_cases hMore : state.results = []
    · rw [hMore, marks_nil, List.append_nil, List.append_nil]
    · rw [marks_invisible h.kept (h.waiting hMore), List.append_nil, List.append_nil]

theorem Going.step_options (h : Going asked expected state) {afterResult : Bool}
    (hBehind : afterResult = true → state.results ≠ []) (options : Option Prompt.ProviderOptions) :
    Going asked expected (state.step crates isMistral (.options afterResult options)) := by
  cases afterResult with
  | true =>
    have hResults := hBehind rfl
    exact {
      follows := h.follows
      afterUser := fun hNone => absurd (List.append_eq_nil_iff.mp hNone).1 hResults
      waiting := fun _ => h.waiting hResults
      answers := fun _ => by
        rw [AssistantState.step, if_pos rfl, List.any_append, h.answers hResults, Bool.true_or]
      filled := h.filled
      kept := h.kept
      marks := by
        rw [AssistantState.step, if_pos rfl, marks_append, marks_cachePoint, List.append_nil]
        exact h.marks }
  | false => exact {
      follows := h.follows
      afterUser := h.afterUser
      waiting := fun hResults => by
        rw [AssistantState.step, if_neg Bool.false_ne_true, isVisible_append, h.waiting hResults, isVisible_cachePoint,
          Bool.or_false]
      answers := h.answers
      filled := h.filled
      kept := fun block hBlock => (List.mem_append.mp hBlock).elim (h.kept block) fun hPoint =>
        (unmarked_cachePoint (Option.mem_toList.mp hPoint)).kept
      marks := by
        rw [AssistantState.step, if_neg Bool.false_ne_true, marks_append, marks_cachePoint, List.append_nil]
        exact h.marks }

/-- What a part other than a tool result adds to what the assistant says. -/
def saidBlocks (isMistral trims hasReasoning : Bool) (part : AssistantPart) : List Json :=
  (assistantBlock isMistral trims hasReasoning part).toList ++ (assistantCachePoint part).toList

variable {part : AssistantPart}

theorem step_said (hOther : isToolResult part = false) (trims hasReasoning : Bool) :
    state.step crates isMistral (.part trims hasReasoning part) = { state.sendResults with
      content := state.sendResults.content ++ saidBlocks isMistral trims hasReasoning part } := by
  cases part with
  | toolResult result => cases hOther
  | _ => rw [saidBlocks, ← List.append_assoc]; rfl

theorem assistantBlock_kept {trims hasReasoning : Bool} {block : Json}
    (h : assistantBlock isMistral trims hasReasoning part = some block) :
    Kept block ∧ hasKey "cachePoint" block = false := by
  cases part with
  | text part =>
    rw [assistantBlock] at h
    split at h
    · cases h
      exact ⟨(unmarked_textBlock _).kept, rfl⟩
    · cases h
  | reasoning part =>
    refine ⟨(unmarked_reasoningBlock h).kept, ?_⟩
    rw [assistantBlock, reasoningBlock] at h
    split at h <;> cases h <;> rfl
  | toolCall part =>
    cases h
    exact ⟨fun hPoint => (by cases hPoint), rfl⟩
  | _ => cases h

theorem assistantCachePoint_unmarked {block : Json} (h : assistantCachePoint part = some block) : Unmarked block := by
  cases part with
  | file part =>
    rw [assistantCachePoint] at h
    split at h
    · cases h
    · exact unmarked_cachePoint h
  | reasoningFile _ => cases h
  | custom _ => cases h
  | _ => exact unmarked_cachePoint h

theorem saidBlocks_kept (trims hasReasoning : Bool) (part : AssistantPart) :
    ∀ block ∈ saidBlocks isMistral trims hasReasoning part, Kept block := by
  intro block hBlock
  rcases List.mem_append.mp hBlock with hMade | hPoint
  · exact (assistantBlock_kept isMistral (Option.mem_toList.mp hMade)).1
  · exact (assistantCachePoint_unmarked (Option.mem_toList.mp hPoint)).kept

theorem marks_saidBlocks (hOther : isToolResult part = false) (trims hasReasoning : Bool) :
    Bedrock.marks (saidBlocks isMistral trims hasReasoning part) = (assistantMark isMistral part).toList := by
  rw [saidBlocks, marks_append, marks_assistantCachePoint, List.append_nil]
  cases part with
  | text part =>
    rw [assistantBlock]
    split
    · exact marks_unmarked fun block hBlock => List.mem_singleton.mp hBlock ▸ unmarked_textBlock _
    · rfl
  | reasoning part => exact marks_unmarked fun block hBlock => unmarked_reasoningBlock (Option.mem_toList.mp hBlock)
  | toolCall part => exact marks_toolUseBlock isMistral part
  | toolResult part => cases hOther
  | _ => rfl

theorem Going.step_part (h : Going asked expected state) (trims hasReasoning : Bool) (part : AssistantPart) :
    Going asked (expected ++ (assistantMark isMistral part).toList)
      (state.step crates isMistral (.part trims hasReasoning part)) := by
  cases hPart : isToolResult part with
  | true =>
    cases part with
    | toolResult result =>
      have hAnswer := h.answer (toolResultBlock crates isMistral state.documents result).1 rfl
        (assistantCachePoint (.toolResult result)).toList (marks_assistantCachePoint _)
        (toolResultBlock crates isMistral state.documents result).2
      rw [marks_toolResultBlock] at hAnswer
      exact hAnswer
    | _ => cases hPart
  | false =>
    rw [step_said crates isMistral hPart, ← marks_saidBlocks isMistral hPart trims hasReasoning]
    exact h.sendResults.say (sendResults_results state) (saidBlocks_kept isMistral trims hasReasoning part)

theorem step_result_waits (hPart : isToolResult part = true) (trims hasReasoning : Bool) :
    (state.step crates isMistral (.part trims hasReasoning part)).results ≠ [] := by
  cases part with
  | toolResult result =>
    rw [AssistantState.step]
    simp
  | _ => cases hPart

variable {steps : List AssistantStep}

theorem Going.run {behindResult : Bool} (hPlaced : Placed behindResult steps)
    (hBehind : behindResult = true → state.results ≠ []) (h : Going asked expected state) :
    Going asked (expected ++ steps.flatMap (stepMarks isMistral))
      (steps.foldl (AssistantState.step crates isMistral) state) := by
  induction steps generalizing behindResult state expected with
  | nil => exact (List.append_nil expected).symm ▸ h
  | cons step steps ih =>
    rw [List.foldl_cons]
    cases step with
    | part trims hasReasoning part =>
      have hStep := ih hPlaced (fun hResult => step_result_waits crates isMistral hResult trims hasReasoning)
        (h.step_part crates isMistral trims hasReasoning part)
      rw [List.append_assoc] at hStep
      exact hStep
    | options afterResult options =>
      exact ih hPlaced.2 (fun hFalse => nomatch hFalse)
        (h.step_options crates isMistral (fun hAfter => hBehind (hPlaced.1 hAfter)) options)

/-! ## What is left of a group -/

theorem Going.finish (h : Going asked expected state) :
    List.IsChain Follows state.finish ∧ Filled asked state.finish ∧ messageMarks state.finish = expected := by
  have hSent := h.sendResults
  refine ⟨?_, filled_flushAssistant hSent.filled _, ?_⟩
  · exact isChain_flushAssistant (fun _ _ hRoles hSame => absurd hSame hRoles) hSent.follows fun _ =>
      hSent.afterUser (sendResults_results state)
  · rw [AssistantState.finish, messageMarks_flushAssistant _ hSent.kept, ← hSent.marks, sendResults_results, marks_nil,
      List.append_nil]

/-- The roles alternate, and another user message may come behind. -/
structure Alternating (state : AssistantState) : Prop where
  alternates : List.IsChain Alternates state.messages
  closed : Closed state.messages

theorem Alternating.sendResults (h : Alternating state) (hGoing : Going asked expected state) :
    Alternating state.sendResults := by
  rw [AssistantState.sendResults]
  split
  · exact h
  · rename_i hResults
    exact {
      alternates := alternates_appendUserMessage h.alternates h.closed state.results
      closed := closed_appendUserMessage state.messages (hGoing.answers hResults) }

theorem Going.endsWithUser (h : Going asked expected state) (hVisible : isVisible state.content = true) :
    EndsWithUser state.messages := by
  refine h.afterUser ?_
  by_contra hMore
  rw [h.waiting hMore] at hVisible
  cases hVisible

theorem step_result_alternating (hPart : isToolResult part = true) (hGoing : Going asked expected state)
    (hAlternates : List.IsChain Alternates state.messages)
    (hClosed : isVisible state.content = true ∨ Closed state.messages) (trims hasReasoning : Bool) :
    Alternating (state.step crates isMistral (.part trims hasReasoning part)) := by
  cases part with
  | toolResult result =>
    exact {
      alternates := isChain_flushAssistant (fun _ _ hRoles => hRoles) hAlternates hGoing.endsWithUser
      closed := closed_flushAssistant hClosed }
  | _ => cases hPart

theorem Alternating.step (h : Alternating state) (hGoing : Going asked expected state) (step : AssistantStep) :
    Alternating (state.step crates isMistral step) := by
  cases step with
  | part trims hasReasoning part =>
    cases hPart : isToolResult part with
    | true => exact step_result_alternating crates isMistral hPart hGoing h.alternates (.inr h.closed) trims hasReasoning
    | false =>
      rw [step_said crates isMistral hPart]
      exact ⟨(h.sendResults hGoing).alternates, (h.sendResults hGoing).closed⟩
  | options afterResult options => cases afterResult <;> exact ⟨h.alternates, h.closed⟩

theorem Alternating.finish (h : Alternating state) (hGoing : Going asked expected state) :
    List.IsChain Alternates state.finish ∧ Closed state.finish := by
  have hSent := h.sendResults hGoing
  exact ⟨isChain_flushAssistant (fun _ _ hRoles => hRoles) hSent.alternates hGoing.sendResults.endsWithUser,
    closed_flushAssistant (.inr hSent.closed)⟩

theorem Alternating.run {behindResult : Bool} (hPlaced : Placed behindResult steps)
    (hBehind : behindResult = true → state.results ≠ []) (hGoing : Going asked expected state) (h : Alternating state) :
    Alternating (steps.foldl (AssistantState.step crates isMistral) state) := by
  induction steps generalizing behindResult state expected with
  | nil => exact h
  | cons step steps ih =>
    have hStep := h.step crates isMistral hGoing step
    cases step with
    | part trims hasReasoning part =>
      exact ih hPlaced (fun hResult => step_result_waits crates isMistral hResult trims hasReasoning)
        (hGoing.step_part crates isMistral trims hasReasoning part) hStep
    | options afterResult options =>
      exact ih hPlaced.2 (fun hFalse => nomatch hFalse)
        (hGoing.step_options crates isMistral (fun hAfter => hBehind (hPlaced.1 hAfter)) options) hStep

theorem isVisible_saidBlocks {hasReasoning : Bool} (hHeard : isHeard hasReasoning part = true) (trims : Bool) :
    isVisible (saidBlocks isMistral trims hasReasoning part) = true := by
  have hSome : ∃ block, assistantBlock isMistral trims hasReasoning part = some block := by
    cases part with
    | text part =>
      rw [isHeard, Bool.or_eq_true, decide_eq_true_eq] at hHeard
      exact ⟨_, if_pos hHeard⟩
    | reasoning part => exact Option.isSome_iff_exists.mp hHeard
    | toolCall part => exact ⟨_, rfl⟩
    | _ => cases hHeard
  obtain ⟨block, hBlock⟩ := hSome
  rw [saidBlocks, isVisible_append, hBlock, isVisible, Option.toList_some, List.any_cons, (assistantBlock_kept isMistral hBlock).2]
  rfl

/-- A group that says something before its first result lets the roles alternate, whatever came before. -/
theorem Going.run_opens (hPlaced : Placed false steps) (hResults : state.results = [])
    (hGoing : Going asked expected state) (hAlternates : List.IsChain Alternates state.messages)
    (hOpens : isVisible state.content = true ∨ opens (steps.flatMap stepParts) = true) :
    List.IsChain Alternates (steps.foldl (AssistantState.step crates isMistral) state).finish ∧
      Closed (steps.foldl (AssistantState.step crates isMistral) state).finish := by
  induction steps generalizing state expected with
  | nil =>
    have hVisible := hOpens.resolve_right fun hFalse => nomatch hFalse
    rw [List.foldl_nil, AssistantState.finish, sendResults_of_none hResults]
    exact ⟨isChain_flushAssistant (fun _ _ hRoles => hRoles) hAlternates hGoing.endsWithUser,
      closed_flushAssistant (.inl hVisible)⟩
  | cons step steps ih =>
    rw [List.foldl_cons]
    cases step with
    | part trims hasReasoning part =>
      have hStep := hGoing.step_part crates isMistral trims hasReasoning part
      rw [List.flatMap_cons, stepParts, List.singleton_append, opens] at hOpens
      cases hPart : isToolResult part with
      | true =>
        rw [hPart, Bool.not_true, Bool.false_and] at hOpens
        have hVisible := hOpens.resolve_right Bool.false_ne_true
        have hBehind (_ : isToolResult part = true) :
            (state.step crates isMistral (.part trims hasReasoning part)).results ≠ [] :=
          step_result_waits crates isMistral hPart trims hasReasoning
        have hShut := step_result_alternating crates isMistral hPart hGoing hAlternates
          (.inl hVisible) trims hasReasoning
        have hRest : Placed (isToolResult part) steps := hPlaced
        exact (hShut.run crates isMistral hRest hBehind hStep).finish (hStep.run crates isMistral hRest hBehind)
      | false =>
        rw [hPart, Bool.not_false, Bool.true_and, Bool.or_eq_true] at hOpens
        rw [Placed, hPart] at hPlaced
        rw [step_said crates isMistral hPart, sendResults_of_none hResults] at hStep ⊢
        refine ih hPlaced hResults hStep hAlternates ?_
        rw [isVisible_append, Bool.or_eq_true]
        obtain hVisible | hHeard | hLater := hOpens
        · exact .inl (.inl hVisible)
        · exact .inl (.inr (isVisible_saidBlocks isMistral hHeard trims))
        · exact .inr hLater
    | options afterResult options =>
      have hAfter : afterResult = false := by
        cases afterResult with
        | false => rfl
        | true => exact (hPlaced.1 rfl).symm
      subst hAfter
      have hStep := hGoing.step_options crates isMistral
        (fun hFalse : false = true => nomatch hFalse) options
      refine ih hPlaced.2 hResults hStep hAlternates (hOpens.imp (fun hVisible => ?_) id)
      rw [AssistantState.step, if_neg Bool.false_ne_true, isVisible_append, hVisible, Bool.true_or]

end

end

end Aimux.Bedrock
