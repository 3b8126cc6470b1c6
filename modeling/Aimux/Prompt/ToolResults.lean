import Aimux.Lib.Obligations
import Aimux.Lib.Outcomes
import Aimux.Prompt.Conversion

/-! # The tool calls and results of a prompt

A tool call is to be answered before the next user or system message. What the messages of the caller say
about calls and results is what the converted messages say, before the adjacent tool messages are combined
and after.
-/

namespace Aimux.Prompt

open Aimux.Core Aimux.Lib

/-! ## What the messages say -/

inductive Event where
  | mark (mark : Mark String)
  | boundary

def Event.isMark : Event → Bool
  | .mark _ => true
  | .boundary => false

def givenCallMark : User.AssistantContentPart → Option (Mark String)
  | .toolCall toolCallId _ _ providerExecuted _ =>
    if providerExecuted = some true then none else some (.raised toolCallId)
  | _ => none

def givenResultMark : User.ToolContentPart → Option (Mark String)
  | .toolResult result => some (.settled result.toolCallId)
  | .toolApprovalResponse .. => none

def givenEvents : User.ModelMessage → List Event
  | .assistant (.parts parts) _ => (parts.filterMap givenCallMark).map .mark
  | .assistant (.text _) _ => []
  | .tool content _ => (content.filterMap givenResultMark).map .mark
  | .user .. | .system .. => [.boundary]

def callMark : AssistantPart → Option (Mark String)
  | .toolCall call => if call.providerExecuted = some true then none else some (.raised call.toolCallId)
  | _ => none

def resultMark : ToolPart → Option (Mark String)
  | .toolResult result => some (.settled result.toolCallId)
  | .toolApprovalResponse _ => none

def sentEvents : LanguageModelMessage → List Event
  | .assistant content _ => (content.filterMap callMark).map .mark
  | .tool content _ => (content.filterMap resultMark).map .mark
  | .user .. | .system .. => [.boundary]

/-- What a result is, apart from its options. -/
structure SentResult where
  toolCallId : String
  toolName : String
  output : ToolResultOutput

def ToolResultPart.sent (part : ToolResultPart) : SentResult where
  toolCallId := part.toolCallId
  toolName := part.toolName
  output := part.output

def AssistantPart.result : AssistantPart → Option SentResult
  | .toolResult part => some part.sent
  | _ => none

def ToolPart.result : ToolPart → Option SentResult
  | .toolResult part => some part.sent
  | .toolApprovalResponse _ => none

/-- The tool results of a message. -/
def sentResults : LanguageModelMessage → List SentResult
  | .assistant content _ => content.filterMap AssistantPart.result
  | .tool content _ => content.filterMap ToolPart.result
  | .user .. | .system .. => []

def givenAssistantResult : User.AssistantContentPart → Option User.ToolResultPart
  | .toolResult result => some result
  | _ => none

def givenToolResult : User.ToolContentPart → Option User.ToolResultPart
  | .toolResult result => some result
  | .toolApprovalResponse .. => none

def givenResults : User.ModelMessage → List User.ToolResultPart
  | .assistant (.parts parts) _ => parts.filterMap givenAssistantResult
  | .tool content _ => content.filterMap givenToolResult
  | _ => []

/-! ## Calls that are not answered in time -/

/-- The marks between the boundaries. -/
def segments : List Event → List (List (Mark String))
  | [] => [[]]
  | .boundary :: rest => [] :: segments rest
  | .mark mark :: rest => (segments rest).modifyHead (mark :: ·)

/-- The calls of a segment that stay without a result, in call order, but for those with an approval response. -/
def unanswered (approved : List String) (segment : List (Mark String)) : List String :=
  (unsettled segment).eraseDups.filter (· ∉ approved)

def firstUnanswered (approved : List String) (segments : List (List (Mark String))) : Option (List String) :=
  (segments.map (unanswered approved)).find? (· ≠ [])

/-- A call without an approval response, and no result between it and the next boundary. -/
def Unanswered (messages : List User.ModelMessage) (id : String) : Prop :=
  id ∉ approvedToolCallIds messages ∧ ∃ before after,
    messages.flatMap givenEvents = before ++ .mark (.raised id) :: after ∧
      Event.mark (.settled id) ∉ after.takeWhile Event.isMark

theorem segments_head (events : List Event) : ∃ head rest, segments events = head :: rest ∧
    ∀ mark, mark ∈ head ↔ Event.mark mark ∈ events.takeWhile Event.isMark := by
  induction events with
  | nil => exact ⟨[], [], rfl, fun mark => by simp⟩
  | cons event events ih =>
    cases event with
    | boundary => exact ⟨[], segments events, rfl, fun mark => by simp [Event.isMark]⟩
    | mark first =>
      obtain ⟨head, rest, hEq, hMem⟩ := ih
      refine ⟨first :: head, rest, by rw [segments, hEq, List.modifyHead_cons], fun mark => ?_⟩
      rw [List.takeWhile_cons_of_pos rfl, List.mem_cons, List.mem_cons, hMem, Event.mark.injEq]

theorem mem_segments_iff (events : List Event) (id : String) :
    (∃ segment ∈ segments events, id ∈ unsettled segment) ↔ ∃ before after,
      events = before ++ .mark (.raised id) :: after ∧
        Event.mark (.settled id) ∉ after.takeWhile Event.isMark := by
  induction events with
  | nil => simp [segments, unsettled]
  | cons event events ih =>
    have hLater : (∃ before after, event :: events = before ++ .mark (.raised id) :: after ∧
        Event.mark (.settled id) ∉ after.takeWhile Event.isMark) ↔
        (event = .mark (.raised id) ∧ Event.mark (.settled id) ∉ events.takeWhile Event.isMark) ∨
          ∃ segment ∈ segments events, id ∈ unsettled segment := by
      rw [ih]
      constructor
      · rintro ⟨before, after, hEq, hOpen⟩
        cases before with
        | nil =>
          cases hEq
          exact .inl ⟨rfl, hOpen⟩
        | cons first before =>
          cases hEq
          exact .inr ⟨before, after, rfl, hOpen⟩
      · rintro (⟨rfl, hOpen⟩ | ⟨before, after, rfl, hOpen⟩)
        · exact ⟨[], events, rfl, hOpen⟩
        · exact ⟨event :: before, after, rfl, hOpen⟩
    rw [hLater]
    cases event with
    | boundary => simp [segments, unsettled]
    | mark mark =>
      obtain ⟨head, rest, hEq, hMem⟩ := segments_head events
      rw [segments, hEq, List.modifyHead_cons, ← hMem, Event.mark.injEq]
      simp only [List.exists_mem_cons_iff, mem_unsettled_cons, or_assoc]

theorem exists_unanswered_iff (messages : List User.ModelMessage) : (∃ id, Unanswered messages id) ↔
      ∃ ids, firstUnanswered (approvedToolCallIds messages) (segments (messages.flatMap givenEvents)) = some ids := by
  rw [← Option.isSome_iff_exists, firstUnanswered, List.find?_isSome]
  constructor
  · rintro ⟨id, hApproved, hOpen⟩
    obtain ⟨segment, hSegment, hMem⟩ := (mem_segments_iff _ id).mpr hOpen
    refine ⟨_, List.mem_map_of_mem hSegment, ?_⟩
    have hListed : id ∈ unanswered (approvedToolCallIds messages) segment :=
      List.mem_filter.mpr ⟨List.mem_eraseDups.mpr hMem, decide_eq_true hApproved⟩
    exact decide_eq_true (List.ne_nil_of_mem hListed)
  · rintro ⟨ids, hMem, hSome⟩
    obtain ⟨segment, hSegment, rfl⟩ := List.mem_map.mp hMem
    obtain ⟨id, hId⟩ := List.exists_mem_of_ne_nil _ (of_decide_eq_true hSome)
    obtain ⟨hListed, hApproved⟩ := List.mem_filter.mp hId
    exact ⟨id, of_decide_eq_true hApproved,
      (mem_segments_iff _ id).mp ⟨segment, hSegment, List.mem_eraseDups.mp hListed⟩⟩

/-! ## The check -/

section Check

variable (approved : List String)

/-- The check, on what the messages say. -/
def stepEvent (waiting : List String) : Event → Except AiMuxError (List String)
  | .mark mark => .ok (mark.keep waiting)
  | .boundary => checkWaiting approved waiting

theorem foldlM_marks (marks : List (Mark String)) (waiting : List String) :
    (marks.map Event.mark).foldlM (stepEvent approved) waiting = .ok (marks.foldl Mark.keep waiting) := by
  induction marks generalizing waiting with
  | nil => rfl
  | cons mark marks ih => exact ih (mark.keep waiting)

theorem foldl_noteCall (content : List AssistantPart) (waiting : List String) :
    content.foldl noteCall waiting = (content.filterMap callMark).foldl Mark.keep waiting := by
  rw [List.foldl_filterMap]
  congr 1
  funext waiting part
  cases part with
  | toolCall call =>
    simp only [noteCall, callMark]
    by_cases hExecuted : call.providerExecuted = some true
    · simp [hExecuted]
    · simp [hExecuted, Mark.keep]
  | _ => rfl

theorem foldl_noteResult (content : List ToolPart) (waiting : List String) :
    content.foldl noteResult waiting = (content.filterMap resultMark).foldl Mark.keep waiting := by
  rw [List.foldl_filterMap]
  congr 1
  funext waiting part
  cases part <;> rfl

theorem checkMessage_eq (waiting : List String) (message : LanguageModelMessage) :
    checkMessage approved waiting message = (sentEvents message).foldlM (stepEvent approved) waiting := by
  cases message with
  | assistant content _ => rw [checkMessage, foldl_noteCall, sentEvents, foldlM_marks]
  | tool content _ => rw [checkMessage, foldl_noteResult, sentEvents, foldlM_marks]
  | _ =>
    simp only [checkMessage, sentEvents, List.foldlM_cons, List.foldlM_nil, stepEvent, bind_pure]

theorem foldlM_checkMessage (messages : List LanguageModelMessage) (waiting : List String) :
    messages.foldlM (checkMessage approved) waiting =
      (messages.flatMap sentEvents).foldlM (stepEvent approved) waiting := by
  induction messages generalizing waiting with
  | nil => rfl
  | cons message messages ih =>
    rw [List.foldlM_cons, List.flatMap_cons, List.foldlM_append, checkMessage_eq]
    exact bind_congr fun waiting => ih waiting

def verdict : Option (List String) → Except AiMuxError Unit
  | some ids => .error (.missingToolResults ids)
  | none => .ok ()

theorem checkWaiting_eq (segment : List (Mark String)) :
    checkWaiting approved (segment.foldl Mark.keep []) =
      if unanswered approved segment = [] then .ok []
      else .error (.missingToolResults (unanswered approved segment)) := by
  rw [keep_eq]
  rfl

theorem firstUnanswered_cons (segment : List (Mark String)) (rest : List (List (Mark String))) :
    firstUnanswered approved (segment :: rest) =
      if unanswered approved segment = [] then firstUnanswered approved rest
      else some (unanswered approved segment) := by
  rw [firstUnanswered, List.map_cons, List.find?_cons]
  by_cases hNone : unanswered approved segment = [] <;> simp [hNone, firstUnanswered]

theorem check_events (events : List Event) (front : List (Mark String)) : (do
      let waiting ← events.foldlM (stepEvent approved) (front.foldl Mark.keep [])
      let _ ← checkWaiting approved waiting) =
      verdict (firstUnanswered approved ((segments events).modifyHead (front ++ ·))) := by
  induction events generalizing front with
  | nil =>
    rw [segments, List.modifyHead_cons, List.append_nil, firstUnanswered_cons, List.foldlM_nil, pure_bind,
      checkWaiting_eq]
    split <;> rfl
  | cons event events ih =>
    rw [List.foldlM_cons, bind_assoc]
    cases event with
    | mark mark =>
      have hHead : (segments (.mark mark :: events)).modifyHead (front ++ ·) =
          (segments events).modifyHead ((front ++ [mark]) ++ ·) := by
        obtain ⟨head, rest, hEq, -⟩ := segments_head events
        simp [segments, hEq]
      have hNext := ih (front ++ [mark])
      rw [List.foldl_append] at hNext
      rw [hHead]
      exact hNext
    | boundary =>
      have hSame : (segments events).modifyHead ([] ++ ·) = segments events := by
        obtain ⟨head, rest, hEq, -⟩ := segments_head events
        simp [hEq]
      rw [segments, List.modifyHead_cons, List.append_nil, firstUnanswered_cons, stepEvent, checkWaiting_eq]
      split
      · have hNext := ih []
        rw [hSame] at hNext
        exact hNext
      · rfl

theorem checkToolResults_eq (messages : List LanguageModelMessage) :
    checkToolResults messages approved =
      verdict (firstUnanswered approved (segments (messages.flatMap sentEvents))) := by
  rw [checkToolResults, foldlM_checkMessage]
  have hChecked := check_events approved (messages.flatMap sentEvents) []
  obtain ⟨head, rest, hEq, -⟩ := segments_head (messages.flatMap sentEvents)
  rw [hEq, List.modifyHead_cons, List.nil_append, ← hEq] at hChecked
  exact hChecked

end Check

/-! ## What the conversion keeps -/

variable {warnings : List Warning} {α β : Type} {convert : α → Except AiMuxError (β × List Warning)} {R : α → β → Prop}

section Conversion

variable {Url : Type} {crate : UrlCrate Url} {context : Context}

theorem convertAll_ok {items : List α} {converted : List β} (h : convertAll convert items = .ok (converted, warnings)) :
    List.Forall₂ (fun item part => ∃ warnings, convert item = .ok (part, warnings)) items converted := by
  induction items generalizing converted warnings with
  | nil =>
    cases h
    exact .nil
  | cons item items ih =>
    obtain ⟨⟨part, raised⟩, hPart, h⟩ := bind_eq_ok.mp h
    obtain ⟨⟨parts, more⟩, hParts, h⟩ := bind_eq_ok.mp h
    cases h
    exact .cons ⟨raised, hPart⟩ (ih hParts)

/-- A result as it is sent: under the given tool name if there is one, with its output converted. -/
structure Sends (crate : UrlCrate Url) (provider : Option String) (assets : DownloadedAssets)
    (given : User.ToolResultPart) (sent : SentResult) : Prop where
  toolCallId : sent.toolCallId = given.toolCallId
  toolName : ∀ toolName, given.toolName = some toolName → sent.toolName = toolName
  output : ∃ warnings, toolResultOutput crate provider assets given.output = .ok (sent.output, warnings)

theorem toolResultPart_sends {given : User.ToolResultPart} {part : ToolResultPart}
    (h : toolResultPart crate context given = .ok (part, warnings)) :
    Sends crate context.provider context.assets given part.sent := by
  unfold toolResultPart at h
  split at h
  · cases h
  · rename_i name hName
    obtain ⟨⟨output, raised⟩, hOutput, h⟩ := bind_eq_ok.mp h
    cases h
    refine ⟨rfl, fun toolName hGiven => ?_, warnings, hOutput⟩
    rw [hGiven] at hName
    exact (Option.some.inj hName).symm

/-- What is said about calls, and the result if the part is one. -/
structure PartKept (crate : UrlCrate Url) (context : Context) (given : User.AssistantContentPart)
    (sent : AssistantPart) : Prop where
  mark : callMark sent = givenCallMark given
  result : Option.Rel (Sends crate context.provider context.assets) (givenAssistantResult given) sent.result

variable {given : User.AssistantContentPart}

theorem assistantPart_kept {sent : AssistantPart} (h : assistantPart crate context given = .ok (sent, warnings)) :
    PartKept crate context given sent := by
  cases given with
  | text | custom | reasoning | toolCall =>
    cases h
    exact ⟨rfl, .none⟩
  | file =>
    obtain ⟨⟨data, mediaType⟩, -, h⟩ := bind_eq_ok.mp h
    cases h
    exact ⟨rfl, .none⟩
  | reasoningFile =>
    obtain ⟨⟨data, mediaType⟩, -, h⟩ := bind_eq_ok.mp h
    obtain ⟨generated, -, h⟩ := bind_eq_ok.mp h
    cases h
    exact ⟨rfl, .none⟩
  | toolResult result =>
    obtain ⟨⟨part, raised⟩, hPart, h⟩ := bind_eq_ok.mp h
    cases h
    exact ⟨rfl, .some (toolResultPart_sends hPart)⟩
  | toolApprovalRequest => cases h

/-- Neither a call nor a result. -/
theorem not_sent (h : isSent given = false) : givenCallMark given = none ∧ givenAssistantResult given = none := by
  cases given with
  | text | toolApprovalRequest => exact ⟨rfl, rfl⟩
  | _ => cases h

structure ToolPartKept (crate : UrlCrate Url) (context : Context) (given : User.ToolContentPart)
    (sent : ToolPart) : Prop where
  mark : resultMark sent = givenResultMark given
  result : Option.Rel (Sends crate context.provider context.assets) (givenToolResult given) sent.result

theorem toolPart_kept {given : User.ToolContentPart} {sent : ToolPart}
    (h : toolPart crate context given = some (.ok (sent, warnings))) : ToolPartKept crate context given sent := by
  cases given with
  | toolResult result =>
    obtain ⟨⟨part, raised⟩, hPart, h⟩ := bind_eq_ok.mp (Option.some.inj h)
    cases h
    have hSends := toolResultPart_sends hPart
    exact ⟨congrArg (some ∘ Mark.settled) hSends.toolCallId, .some hSends⟩
  | toolApprovalResponse =>
    rw [toolPart] at h
    split at h
    · cases h
      exact ⟨rfl, .none⟩
    · cases h

theorem filterMap_kept {γ : Type} {f : α → Option γ} {g : β → Option γ} {xs : List α} {ys : List β}
    (h : List.Forall₂ R xs ys) (hStep : ∀ x y, R x y → g y = f x) : ys.filterMap g = xs.filterMap f := by
  have hEq := forall₂_filterMap (S := Eq) (f := f) (g := g) h fun x y hRel => by
    rw [hStep x y hRel]
    cases f x
    · exact .none
    · exact .some rfl
  rw [List.forall₂_eq_eq_eq] at hEq
  exact hEq.symm

theorem filterMap_filter_of_none {p : α → Bool} {f : α → Option β} (h : ∀ x, p x = false → f x = none)
    (xs : List α) : (xs.filter p).filterMap f = xs.filterMap f := by
  rw [List.filterMap_filter]
  congr 1
  funext x
  cases hKept : p x with
  | true => rfl
  | false => exact (h x hKept).symm

theorem assistantParts_kept {given : List User.AssistantContentPart} {sent : List AssistantPart}
    (h : convertAll (assistantPart crate context) (given.filter isSent) = .ok (sent, warnings)) :
    List.Forall₂ (PartKept crate context) (given.filter isSent) sent :=
  (convertAll_ok h).imp fun _ _ ⟨_, hPart⟩ => assistantPart_kept hPart

theorem toolParts_kept {given : List User.ToolContentPart} {sent : List ToolPart}
    (h : convertAll id (given.filterMap (toolPart crate context)) = .ok (sent, warnings)) :
    List.Forall₂ (ToolPartKept crate context)
      (given.filter fun part => (toolPart crate context part).isSome) sent := by
  refine (forall₂_of_filterMap (convertAll_ok h)).imp ?_
  rintro part sent ⟨outcome, hSome, raised, rfl⟩
  exact toolPart_kept hSome

theorem convertMessage_kept {given : User.ModelMessage} {sent : LanguageModelMessage}
    (h : convertMessage crate context given = .ok (sent, warnings)) :
    sentEvents sent = givenEvents given ∧
      List.Forall₂ (Sends crate context.provider context.assets) (givenResults given) (sentResults sent) := by
  cases given with
  | system =>
    cases h
    exact ⟨rfl, .nil⟩
  | user content =>
    cases content with
    | text =>
      cases h
      exact ⟨rfl, .nil⟩
    | parts =>
      obtain ⟨⟨content, raised⟩, -, h⟩ := bind_eq_ok.mp h
      cases h
      exact ⟨rfl, .nil⟩
  | assistant content =>
    cases content with
    | text =>
      cases h
      exact ⟨rfl, .nil⟩
    | parts parts =>
      obtain ⟨⟨content, raised⟩, hContent, h⟩ := bind_eq_ok.mp h
      cases h
      have hParts := assistantParts_kept hContent
      have hMarks : (parts.filter isSent).filterMap givenCallMark = parts.filterMap givenCallMark :=
        filterMap_filter_of_none (fun _ hSent => (not_sent hSent).1) parts
      have hResults : (parts.filter isSent).filterMap givenAssistantResult = parts.filterMap givenAssistantResult :=
        filterMap_filter_of_none (fun _ hSent => (not_sent hSent).2) parts
      constructor
      · rw [sentEvents, givenEvents, ← hMarks, filterMap_kept hParts fun _ _ hPart => hPart.mark]
      · rw [sentResults, givenResults, ← hResults]
        exact forall₂_filterMap hParts fun _ _ hPart => hPart.result
  | tool content =>
    obtain ⟨⟨parts, raised⟩, hContent, h⟩ := bind_eq_ok.mp h
    cases h
    have hParts := toolParts_kept hContent
    -- what is left out is an approval response
    have hMarks : (content.filter fun part => (toolPart crate context part).isSome).filterMap givenResultMark =
        content.filterMap givenResultMark := by
      refine filterMap_filter_of_none (fun part => ?_) content
      cases part <;> simp [toolPart, givenResultMark]
    have hResults : (content.filter fun part => (toolPart crate context part).isSome).filterMap givenToolResult =
        content.filterMap givenToolResult := by
      refine filterMap_filter_of_none (fun part => ?_) content
      cases part <;> simp [toolPart, givenToolResult]
    constructor
    · rw [sentEvents, givenEvents, ← hMarks, filterMap_kept hParts fun _ _ hPart => hPart.mark]
    · rw [sentResults, givenResults, ← hResults]
      exact forall₂_filterMap hParts fun _ _ hPart => hPart.result

end Conversion

/-! ## What the combination keeps -/

def isTool : LanguageModelMessage → Bool
  | .tool .. => true
  | _ => false

theorem result_mergeOptions (options : Option ProviderOptions) (part : ToolPart) :
    (part.mergeOptions options).result = part.result := by
  cases part <;> rfl

theorem resultMark_mergeOptions (options : Option ProviderOptions) (part : ToolPart) :
    resultMark (part.mergeOptions options) = resultMark part := by
  cases part <;> rfl

/-- Only the options of a part change, so what else is seen of the parts does not. -/
theorem flatMap_settleOptions {seen : ToolPart → List α}
    (hSeen : ∀ options part, seen (part.mergeOptions options) = seen part) (content : List ToolPart)
    (options : Option ProviderOptions) : (settleOptions content options).flatMap seen = content.flatMap seen := by
  cases options with
  | none => rfl
  | some options =>
    rw [settleOptions]
    induction content using List.reverseRecOn with
    | nil => rfl
    | append_singleton content part =>
      rw [List.modifyLast_concat, List.flatMap_append, List.flatMap_append, List.flatMap_singleton,
        List.flatMap_singleton, hSeen]

variable (messages : List LanguageModelMessage)

/-- The combined message, or both. -/
theorem push_cases (last message : LanguageModelMessage) :
    (∃ lastContent lastOptions content options, last = .tool lastContent lastOptions ∧
      message = .tool content options ∧ pushCombiningToolMessages (messages ++ [last]) message =
        messages ++ [LanguageModelMessage.tool (settleOptions lastContent lastOptions ++ content) options]) ∨
    (¬(isTool last ∧ isTool message) ∧
      pushCombiningToolMessages (messages ++ [last]) message = messages ++ [last] ++ [message]) := by
  unfold pushCombiningToolMessages
  rw [List.getLast?_concat, List.dropLast_concat]
  cases last with
  | tool lastContent lastOptions =>
    cases message with
    | tool content options => exact .inl ⟨lastContent, lastOptions, content, options, rfl, rfl, rfl⟩
    | _ => exact .inr ⟨by simp [isTool], rfl⟩
  | _ => exact .inr ⟨by simp [isTool], rfl⟩

variable {view : LanguageModelMessage → List α}

theorem push_kept (seen : ToolPart → List α)
    (hView : ∀ content options, view (.tool content options) = content.flatMap seen)
    (hSeen : ∀ options part, seen (part.mergeOptions options) = seen part) (messages : List LanguageModelMessage)
    (message : LanguageModelMessage) :
    (pushCombiningToolMessages messages message).flatMap view = messages.flatMap view ++ view message := by
  induction messages using List.reverseRecOn with
  | nil => simp [pushCombiningToolMessages]
  | append_singleton messages last =>
    obtain ⟨lastContent, lastOptions, content, options, rfl, rfl, hPush⟩ | ⟨-, hPush⟩ :=
      push_cases messages last message
    · rw [hPush, List.flatMap_append, List.flatMap_append, List.flatMap_singleton, List.flatMap_singleton,
        hView, hView, hView, List.flatMap_append, flatMap_settleOptions hSeen, List.append_assoc]
    · rw [hPush, List.flatMap_append, List.flatMap_singleton]

theorem events_push (message : LanguageModelMessage) :
    (pushCombiningToolMessages messages message).flatMap sentEvents =
      messages.flatMap sentEvents ++ sentEvents message := by
  refine push_kept (fun part => ((resultMark part).map Event.mark).toList) (fun content options => ?_)
    (fun options part => by rw [resultMark_mergeOptions]) messages message
  rw [sentEvents, List.map_filterMap, List.filterMap_eq_flatMap_toList]

theorem results_push (message : LanguageModelMessage) :
    (pushCombiningToolMessages messages message).flatMap sentResults =
      messages.flatMap sentResults ++ sentResults message :=
  push_kept _ (fun _ _ => List.filterMap_eq_flatMap_toList _ _)
    (fun options part => by rw [result_mergeOptions]) messages message

/-! ### Adjacent tool messages -/

/-- No two neighbours are both tool messages. -/
def ToolsApart (messages : List LanguageModelMessage) : Prop :=
  messages.IsChain fun message next => ¬(isTool message ∧ isTool next)

variable {messages : List LanguageModelMessage}

theorem ToolsApart.push (h : ToolsApart messages) (message : LanguageModelMessage) :
    ToolsApart (pushCombiningToolMessages messages message) := by
  induction messages using List.reverseRecOn with
  | nil => exact List.isChain_singleton _
  | append_singleton messages last =>
    obtain ⟨lastContent, lastOptions, content, options, rfl, rfl, hPush⟩ | ⟨hApart, hPush⟩ :=
      push_cases messages last message
    · -- the combined message stands where the last one stood
      rw [hPush]
      rw [ToolsApart, List.isChain_append] at h ⊢
      refine ⟨h.1, List.isChain_singleton _, fun before hBefore after hAfter => ?_⟩
      cases hAfter
      exact h.2.2 before hBefore (.tool lastContent lastOptions) rfl
    · rw [hPush]
      refine List.isChain_append.mpr ⟨h, List.isChain_singleton _, fun before hBefore after hAfter => ?_⟩
      rw [List.getLast?_concat] at hBefore
      cases hBefore
      cases hAfter
      exact hApart

/-- A tool message that is left out has no tool message beside it. -/
theorem ToolsApart.filter (h : ToolsApart messages) {keep : LanguageModelMessage → Bool}
    (hKeep : ∀ message, keep message = false → isTool message = true) : ToolsApart (messages.filter keep) := by
  induction messages with
  | nil => exact h
  | cons message messages ih =>
    have hRest := ih h.tail
    cases hKept : keep message with
    | false =>
      rw [List.filter_cons_of_neg (by simp [hKept])]
      exact hRest
    | true =>
      rw [List.filter_cons_of_pos hKept]
      refine List.isChain_cons.mpr ⟨fun next hNext => ?_, hRest⟩
      cases messages with
      | nil => cases hNext
      | cons second messages =>
        have hApart := (List.isChain_cons.mp h).1 second rfl
        cases hSecond : keep second with
        | true =>
          rw [List.filter_cons_of_pos hSecond] at hNext
          cases hNext
          exact hApart
        | false => exact fun hBoth => hApart ⟨hBoth.1, hKeep second hSecond⟩

/-! ## Errors of the conversion

None of them is about missing tool results. -/

def IsMissing : AiMuxError → Prop
  | .missingToolResults _ => True
  | _ => False

section Errors

variable {Url : Type} {crate : UrlCrate Url} {context : Context}

theorem spares_invalidPrompt (message : String) :
    Spares IsMissing (.error (invalidPrompt message) : Except AiMuxError α) :=
  Spares.error id

theorem splitDataUrl_spares (url : String) : Spares IsMissing (splitDataUrl url) := by
  simp only [splitDataUrl]
  split
  · exact Spares.ok _
  · exact spares_invalidPrompt _

theorem convertUrlToFilePartData_spares (url : String) (originalUrl : Option String) :
    Spares IsMissing (convertUrlToFilePartData crate url originalUrl) := by
  unfold convertUrlToFilePartData
  split
  · exact Spares.ok _
  · split
    · exact splitDataUrl_spares _
    · exact Spares.ok _

theorem convertFilePartData_spares (data : User.FilePartData) :
    Spares IsMissing (convertFilePartData crate data) := by
  unfold convertFilePartData
  split
  · split
    · exact spares_invalidPrompt _
    · exact Spares.ok _
  · exact convertUrlToFilePartData_spares _ _
  · exact Spares.ok _
  · split
    · exact (convertUrlToFilePartData_spares _ _).map _
    · exact Spares.ok _
  · exact Spares.ok _

theorem normalizedUrl_spares (given : String) : Spares IsMissing (normalizedUrl crate given) := by
  unfold normalizedUrl
  split
  · exact Spares.error id
  · exact Spares.ok _

theorem fileIdReference_spares (provider : Option String) (fileId : User.ToolResultFileId) :
    Spares IsMissing (fileIdReference provider fileId) := by
  unfold fileIdReference
  split
  · exact Spares.ok _
  · split
    · exact Spares.ok _
    · exact spares_invalidPrompt _

theorem generatedFileData_spares (data : FileData) : Spares IsMissing (generatedFileData data) := by
  cases data with
  | data | url => exact Spares.ok _
  | reference | text => exact spares_invalidPrompt _

theorem toolResultContent_spares (provider : Option String) (assets : DownloadedAssets)
    (item : User.ToolResultContentPart) : Spares IsMissing (toolResultContent crate provider assets item) := by
  cases item with
  | fileUrl | imageUrl => exact (normalizedUrl_spares _).bind fun _ _ => Spares.ok _
  | fileId | imageFileId => exact (fileIdReference_spares _ _).bind fun _ _ => Spares.ok _
  | _ => exact Spares.ok _

theorem convertAll_spares {items : List α} (h : ∀ item ∈ items, Spares IsMissing (convert item)) :
    Spares IsMissing (convertAll convert items) := by
  induction items with
  | nil => exact Spares.ok _
  | cons item items ih =>
    rw [List.forall_mem_cons] at h
    exact h.1.bind fun _ _ => (ih h.2).bind fun _ _ => Spares.ok _

theorem toolResultOutput_spares (provider : Option String) (assets : DownloadedAssets)
    (output : User.ToolResultOutput) : Spares IsMissing (toolResultOutput crate provider assets output) := by
  cases output with
  | content value =>
    exact (convertAll_spares fun item _ => toolResultContent_spares provider assets item).bind fun _ _ => Spares.ok _
  | _ => exact Spares.ok _

theorem toolResultPart_spares (part : User.ToolResultPart) :
    Spares IsMissing (toolResultPart crate context part) := by
  unfold toolResultPart
  split
  · exact spares_invalidPrompt _
  · exact (toolResultOutput_spares _ _ _).bind fun _ _ => Spares.ok _

theorem userPart_spares (assets : DownloadedAssets) (part : User.UserContentPart) :
    Spares IsMissing (userPart crate assets part) := by
  cases part with
  | file => exact (convertFilePartData_spares _).bind fun _ _ => Spares.ok _
  | _ => exact Spares.ok _

theorem assistantPart_spares (part : User.AssistantContentPart) :
    Spares IsMissing (assistantPart crate context part) := by
  cases part with
  | file => exact (convertFilePartData_spares _).bind fun _ _ => Spares.ok _
  | reasoningFile =>
    exact (convertFilePartData_spares _).bind fun _ _ => (generatedFileData_spares _).bind fun _ _ => Spares.ok _
  | toolResult result => exact (toolResultPart_spares result).bind fun _ _ => Spares.ok _
  | toolApprovalRequest => exact Spares.error id
  | _ => exact Spares.ok _

theorem toolPart_spares {part : User.ToolContentPart} {outcome : Except AiMuxError (ToolPart × List Warning)}
    (h : toolPart crate context part = some outcome) : Spares IsMissing outcome := by
  cases part with
  | toolResult result =>
    cases h
    exact (toolResultPart_spares result).bind fun _ _ => Spares.ok _
  | toolApprovalResponse =>
    rw [toolPart] at h
    split at h
    · cases h
      exact Spares.ok _
    · cases h

theorem convertMessage_spares (message : User.ModelMessage) :
    Spares IsMissing (convertMessage crate context message) := by
  cases message with
  | system => exact Spares.ok _
  | user content =>
    cases content with
    | text => exact Spares.ok _
    | parts => exact (convertAll_spares fun part _ => userPart_spares _ part).bind fun _ _ => Spares.ok _
  | assistant content =>
    cases content with
    | text => exact Spares.ok _
    | parts => exact (convertAll_spares fun part _ => assistantPart_spares part).bind fun _ _ => Spares.ok _
  | tool content =>
    refine Spares.bind (convertAll_spares fun outcome hMem => ?_) fun _ _ => Spares.ok _
    obtain ⟨part, -, hPart⟩ := List.mem_filterMap.mp hMem
    exact toolPart_spares hPart

end Errors

/-! ## Whole prompts -/

section Prompts

variable {Url : Type} {crate : UrlCrate Url} {provider : Option String} {assets : DownloadedAssets}

variable {messages : List User.ModelMessage} {toolNames : String → Option String} {before : List LanguageModelMessage}

variable {result : List LanguageModelMessage} {view : LanguageModelMessage → List β}

/-- What is seen of the converted messages, where it is seen of each message by itself. -/
theorem convertMessages_view (given : User.ModelMessage → List α)
    (hPush : ∀ messages message, (pushCombiningToolMessages messages message).flatMap view =
      messages.flatMap view ++ view message)
    (hMessage : ∀ toolNames message sent warnings,
      convertMessage crate { toolNames, provider, assets } message = .ok (sent, warnings) →
        List.Forall₂ R (given message) (view sent))
    (h : convertMessages crate provider assets messages toolNames before = .ok (result, warnings)) :
    ∃ views, result.flatMap view = before.flatMap view ++ views ∧
      List.Forall₂ R (messages.flatMap given) views := by
  induction messages generalizing toolNames before warnings with
  | nil =>
    cases h
    exact ⟨[], by simp, .nil⟩
  | cons message messages ih =>
    obtain ⟨⟨converted, raised⟩, hConverted, h⟩ := bind_eq_ok.mp h
    obtain ⟨⟨others, more⟩, hOthers, h⟩ := bind_eq_ok.mp h
    cases h
    obtain ⟨views, hViews, hLater⟩ := ih hOthers
    refine ⟨view converted ++ views, ?_, ?_⟩
    · rw [hViews, hPush, List.append_assoc]
    · rw [List.flatMap_cons]
      exact List.rel_append (hMessage _ _ _ _ hConverted) hLater

theorem convertMessages_apart (hApart : ToolsApart before)
    (h : convertMessages crate provider assets messages toolNames before = .ok (result, warnings)) :
    ToolsApart result := by
  induction messages generalizing toolNames before warnings with
  | nil =>
    cases h
    exact hApart
  | cons message messages ih =>
    obtain ⟨⟨converted, raised⟩, -, h⟩ := bind_eq_ok.mp h
    obtain ⟨⟨others, more⟩, hOthers, h⟩ := bind_eq_ok.mp h
    cases h
    exact ih (hApart.push converted) hOthers

theorem convertMessages_events
    (h : convertMessages crate provider assets messages toolNames before = .ok (result, warnings)) :
    result.flatMap sentEvents = before.flatMap sentEvents ++ messages.flatMap givenEvents := by
  obtain ⟨events, hEvents, hGiven⟩ := convertMessages_view (R := Eq) givenEvents events_push
    (fun _ _ _ _ hMessage => by rw [(convertMessage_kept hMessage).1, List.forall₂_eq_eq_eq]) h
  rw [List.forall₂_eq_eq_eq] at hGiven
  rw [hEvents, hGiven]

/-- Every message converts, under the tool names of the calls up to it. -/
def Converts (crate : UrlCrate Url) (provider : Option String) (assets : DownloadedAssets)
    (messages : List User.ModelMessage) : Prop :=
  ∀ before message after, messages = before ++ message :: after → ∃ converted, convertMessage crate
    { toolNames := (before ++ [message]).foldl noteToolNames fun _ => none, provider, assets } message = .ok converted

variable (crate provider assets) in
theorem convertMessages_isOk_iff (messages : List User.ModelMessage) (toolNames : String → Option String)
    (result : List LanguageModelMessage) :
    (∃ converted, convertMessages crate provider assets messages toolNames result = .ok converted) ↔
      ∀ before message after, messages = before ++ message :: after → ∃ converted, convertMessage crate
        { toolNames := (before ++ [message]).foldl noteToolNames toolNames, provider, assets } message =
          .ok converted := by
  induction messages generalizing toolNames result with
  | nil => simp [convertMessages]
  | cons first messages ih =>
    constructor
    · rintro ⟨converted, h⟩ before message after hEq
      obtain ⟨⟨sent, raised⟩, hSent, h⟩ := bind_eq_ok.mp h
      obtain ⟨others, hOthers, -⟩ := bind_eq_ok.mp h
      cases before with
      | nil =>
        cases hEq
        exact ⟨_, hSent⟩
      | cons _ before =>
        cases hEq
        exact (ih _ _).mp ⟨others, hOthers⟩ before message after rfl
    · intro h
      obtain ⟨⟨sent, raised⟩, hSent⟩ := h [] first messages rfl
      obtain ⟨⟨others, more⟩, hOthers⟩ := (ih (noteToolNames toolNames first)
        (pushCombiningToolMessages result sent)).mpr fun before message after hEq =>
          h (first :: before) message after (by rw [hEq, List.cons_append])
      exact ⟨_, bind_eq_ok.mpr ⟨_, hSent, bind_eq_ok.mpr ⟨_, hOthers, rfl⟩⟩⟩

theorem convertMessages_spares (messages : List User.ModelMessage) (toolNames : String → Option String)
    (result : List LanguageModelMessage) :
    Spares IsMissing (convertMessages crate provider assets messages toolNames result) := by
  induction messages generalizing toolNames result with
  | nil => exact Spares.ok _
  | cons message messages ih =>
    exact (convertMessage_spares message).bind fun _ _ => (ih _ _).bind fun _ _ => Spares.ok _

theorem leading_apart (instructions : Option String) : ToolsApart (leading instructions) := by
  cases instructions with
  | none => exact List.isChain_nil
  | some instructions => exact List.isChain_singleton _

/-- No call stands before the messages. -/
theorem firstUnanswered_leading (approved : List String) (instructions : Option String) (events : List Event) :
    firstUnanswered approved (segments ((leading instructions).flatMap sentEvents ++ events)) =
      firstUnanswered approved (segments events) := by
  cases instructions <;> rfl

theorem isEmptyTool_isTool {message : LanguageModelMessage} (h : (!isEmptyTool message) = false) :
    isTool message = true := by
  cases message with
  | tool => rfl
  | _ => cases h

/-- A message without parts shows nothing. -/
theorem filter_view (hEmpty : ∀ options, view (.tool [] options) = []) (messages : List LanguageModelMessage) :
    (messages.filter fun message => !isEmptyTool message).flatMap view = messages.flatMap view := by
  induction messages with
  | nil => rfl
  | cons message messages ih =>
    cases hTool : isEmptyTool message with
    | true =>
      have hView : view message = [] := by
        cases message with
        | tool content options =>
          rw [List.isEmpty_iff.mp hTool]
          exact hEmpty options
        | _ => cases hTool
      rw [List.filter_cons_of_neg (by simp [hTool]), ih, List.flatMap_cons, hView, List.nil_append]
    | false => rw [List.filter_cons_of_pos (by simp [hTool]), List.flatMap_cons, List.flatMap_cons, ih]

/-- The conversion of all messages, and the check of what it yields. -/
theorem convertWithDownloadedAssets_eq (messages : List User.ModelMessage) (instructions : Option String) :
    convertWithDownloadedAssets crate provider assets messages instructions = (do
      let (result, _) ← convertMessages crate provider assets messages (fun _ => none) (leading instructions)
      verdict (firstUnanswered (approvedToolCallIds messages) (segments (messages.flatMap givenEvents)))
      .ok (result.filter fun message => !isEmptyTool message)) := by
  rw [convertWithDownloadedAssets, convertWithWarnings]
  cases hConverted : convertMessages crate provider assets messages (fun _ => none) (leading instructions) with
  | error => rfl
  | ok converted =>
    obtain ⟨result, warnings⟩ := converted
    have hCheck := checkToolResults_eq (approvedToolCallIds messages) result
    rw [convertMessages_events hConverted, firstUnanswered_leading] at hCheck
    simp only [bind, Except.bind, hCheck]
    cases verdict _ <;> rfl

variable {instructions : Option String} {prompt : LanguageModelPrompt}

theorem converted_prompt (h : convertWithDownloadedAssets crate provider assets messages instructions = .ok prompt) :
    ∃ result warnings, convertMessages crate provider assets messages (fun _ => none) (leading instructions) =
      .ok (result, warnings) ∧ prompt = result.filter fun message => !isEmptyTool message := by
  rw [convertWithDownloadedAssets_eq] at h
  obtain ⟨⟨result, warnings⟩, hConverted, h⟩ := bind_eq_ok.mp h
  obtain ⟨_, -, h⟩ := bind_eq_ok.mp h
  cases h
  exact ⟨result, warnings, hConverted, rfl⟩

/-- What is seen of the converted messages is seen of the prompt. -/
theorem prompt_view {given : User.ModelMessage → List α}
    (hPush : ∀ messages message, (pushCombiningToolMessages messages message).flatMap view =
      messages.flatMap view ++ view message)
    (hMessage : ∀ toolNames message sent warnings,
      convertMessage crate { toolNames, provider, assets } message = .ok (sent, warnings) →
        List.Forall₂ R (given message) (view sent))
    (hEmpty : ∀ options, view (.tool [] options) = []) (hSystem : ∀ text options, view (.system text options) = [])
    (h : convertWithDownloadedAssets crate provider assets messages instructions = .ok prompt) :
    List.Forall₂ R (messages.flatMap given) (prompt.flatMap view) := by
  obtain ⟨result, warnings, hConverted, rfl⟩ := converted_prompt h
  obtain ⟨views, hViews, hGiven⟩ := convertMessages_view _ hPush hMessage hConverted
  have hLeading : (leading instructions).flatMap view = [] := by
    cases instructions with
    | none => rfl
    | some instructions => rw [leading, List.flatMap_singleton, hSystem]
  rw [filter_view hEmpty, hViews, hLeading, List.nil_append]
  exact hGiven

/-- Each given result is sent once, in order. -/
theorem prompt_results (h : convertWithDownloadedAssets crate provider assets messages instructions = .ok prompt) :
    List.Forall₂ (Sends crate provider assets) (messages.flatMap givenResults) (prompt.flatMap sentResults) :=
  prompt_view results_push (fun _ _ _ _ hMessage => (convertMessage_kept hMessage).2) (fun _ => rfl)
    (fun _ _ => rfl) h

end Prompts

/-- A prompt is refused for missing tool results when all its messages convert and a call is not answered before
the next user or system message; the error names the calls of the first stretch with such a call. -/
theorem missing_tool_results {Url : Type} (crate : UrlCrate Url) (messages : List User.ModelMessage)
    (instructions provider : Option String) :
    (∀ ids, convertToLanguageModelPrompt crate messages instructions provider = .error (.missingToolResults ids) ↔
      Converts crate provider (fun _ => none) messages ∧
        firstUnanswered (approvedToolCallIds messages) (segments (messages.flatMap givenEvents)) = some ids) ∧
    ((∃ ids, firstUnanswered (approvedToolCallIds messages) (segments (messages.flatMap givenEvents)) = some ids) ↔
      ∃ id, Unanswered messages id) ∧
    ∀ prompt, convertToLanguageModelPrompt crate messages instructions provider = .ok prompt →
      ToolsApart prompt ∧ (∀ message ∈ prompt, isEmptyTool message = false) ∧
      List.Forall₂ (Sends crate provider fun _ => none) (messages.flatMap givenResults)
        (prompt.flatMap sentResults) := by
  rw [convertToLanguageModelPrompt]
  refine ⟨fun ids => ?_, (exists_unanswered_iff messages).symm, fun prompt hPrompt => ?_⟩
  · rw [convertWithDownloadedAssets_eq]
    have hOk := convertMessages_isOk_iff crate provider (fun _ => none) messages
      (fun _ => none) (leading instructions)
    cases hConverted : convertMessages crate provider (fun _ => none) messages (fun _ => none)
      (leading instructions) with
    | error error =>
      rw [hConverted] at hOk
      constructor
      · intro hError
        cases hError
        exact absurd trivial (convertMessages_spares messages _ _ _ hConverted)
      · rintro ⟨hConverts, -⟩
        obtain ⟨_, hConverts⟩ := hOk.mpr hConverts
        cases hConverts
    | ok converted =>
      have hConverts : Converts crate provider (fun _ => none) messages := hOk.mp ⟨converted, hConverted⟩
      cases firstUnanswered (approvedToolCallIds messages) (segments (messages.flatMap givenEvents)) with
      | none => simp [verdict, bind, Except.bind]
      | some listed => simp [verdict, bind, Except.bind, hConverts]
  · obtain ⟨result, warnings, hConverted, rfl⟩ := converted_prompt hPrompt
    refine ⟨(convertMessages_apart (leading_apart instructions) hConverted).filter fun _ => isEmptyTool_isTool,
      fun message hMem => ?_, prompt_results hPrompt⟩
    simpa using (List.mem_filter.mp hMem).2

/-- No text is a URL. -/
def noUrls : UrlCrate Unit where
  parse _ := .error (.mk "relative URL without a base" none)
  asStr _ := ""
  scheme _ := ""
  path _ := ""

def callMessage (id : String) : User.ModelMessage := .assistant (.parts [.toolCall id "search" .null none none]) none

def resultMessage (id : String) : User.ModelMessage :=
  .tool [.toolResult { toolCallId := id, toolName := none, output := .text "found" none }] none

def answeredCall : List User.ModelMessage := [callMessage "a", resultMessage "a"]

theorem missing_tool_results_answered :
    convertToLanguageModelPrompt noUrls answeredCall none none =
      .ok [.assistant [.toolCall { toolCallId := "a", toolName := "search", input := .null }] none,
        .tool [.toolResult { toolCallId := "a", toolName := "search", output := .text "found" none }] none] ∧
    (¬∃ id, Unanswered answeredCall id) ∧ ToolsApart [.assistant [.toolCall
        { toolCallId := "a", toolName := "search", input := .null }] none,
      .tool [.toolResult { toolCallId := "a", toolName := "search", output := .text "found" none }] none] := by
  obtain ⟨-, hOpen, hKept⟩ := missing_tool_results noUrls answeredCall none none
  refine ⟨rfl, fun hUnanswered => ?_, (hKept _ rfl).1⟩
  obtain ⟨ids, hIds⟩ := hOpen.mpr hUnanswered
  cases hIds

/-- A user message between two calls: only the call before it is listed. -/
def twoCalls : List User.ModelMessage := [callMessage "a", .user (.text "and?") none, callMessage "b"]

theorem later_call_not_listed :
    convertToLanguageModelPrompt noUrls twoCalls none none = .error (.missingToolResults ["a"]) ∧
    Unanswered twoCalls "a" ∧ Unanswered twoCalls "b" := by
  refine ⟨rfl, ⟨List.not_mem_nil, [], [.boundary, .mark (.raised "b")], rfl, List.not_mem_nil⟩,
    List.not_mem_nil, [.mark (.raised "a"), .boundary], [], rfl, List.not_mem_nil⟩

end Aimux.Prompt
