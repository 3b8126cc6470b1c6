import Aimux.Core.StreamRendering

/-! # Contents with the same messages

The response messages are read off three views of the step content: its assistant parts, its tool
parts and the ids of its calls. The streamed content has the errors of unparsable calls behind their
calls, the generated content behind everything else; the three views do not tell them apart.
-/

namespace Aimux.Core

open ResponseMessageBuilder (assistantPart toolParts toolCallOrder toolMessageContent)
open StreamTextResult (recordPart)

def callId : ContentPart → Option String
  | .toolCall call => some call.toolCallId
  | _ => none

theorem toolCallOrder_eq (content : List ContentPart) :
    toolCallOrder content =
      (content.filterMap callId).foldl (fun order id => if id ∈ order then order else order ++ [id]) [] := by
  rw [List.foldl_filterMap]
  unfold toolCallOrder
  congr 1
  funext order part
  cases part <;> rfl

theorem finish_messages_eq (libraries : Libraries) {rm rm' : ResponseMessageBuilder}
    (hAssistant : rm.content.filterMap (assistantPart libraries) =
      rm'.content.filterMap (assistantPart libraries))
    (hTool : rm.content.flatMap (toolParts libraries) = rm'.content.flatMap (toolParts libraries))
    (hOrder : rm.content.filterMap callId = rm'.content.filterMap callId) :
    (rm.finish libraries).messages = (rm'.finish libraries).messages := by
  have hToolContent : toolMessageContent libraries rm.content (toolCallOrder rm.content) =
      toolMessageContent libraries rm'.content (toolCallOrder rm'.content) := by
    rw [toolCallOrder_eq, toolCallOrder_eq, hOrder]
    unfold toolMessageContent
    rw [hTool]
  unfold ResponseMessageBuilder.finish
  rw [hAssistant, hToolContent]

/-- The streamed content has the messages of the generated content with `errors` behind it. -/
structure Replays (libraries : Libraries) (streamed generated : List ContentPart)
    (errors : List TypedToolError) : Prop where
  assistant : streamed.filterMap (assistantPart libraries) = generated.filterMap (assistantPart libraries)
  toolStreamed : streamed.flatMap (toolParts libraries) =
    errors.flatMap fun error => toolParts libraries (.toolError error)
  toolGenerated : generated.flatMap (toolParts libraries) = []
  order : streamed.filterMap callId = generated.filterMap callId
  client : ∀ error ∈ errors, error.providerExecuted = none

namespace Replays

variable {libraries : Libraries} {streamed generated streamed' generated' : List ContentPart}
  {errors errors' : List TypedToolError}

theorem nil : Replays libraries [] [] [] := ⟨rfl, rfl, rfl, rfl, by simp⟩

theorem single {part part' : ContentPart} (hAssistant : assistantPart libraries part = assistantPart libraries part')
    (hClient : toolParts libraries part = []) (hClient' : toolParts libraries part' = [])
    (hCall : callId part = callId part') : Replays libraries [part] [part'] [] := by
  refine ⟨?_, ?_, ?_, ?_, by simp⟩
  · simp [List.filterMap_cons, hAssistant]
  · simp [hClient]
  · simp [hClient']
  · simp [List.filterMap_cons, hCall]

theorem append (h : Replays libraries streamed generated errors) (h' : Replays libraries streamed' generated' errors') :
    Replays libraries (streamed ++ streamed') (generated ++ generated') (errors ++ errors') := by
  constructor
  case assistant => rw [List.filterMap_append, List.filterMap_append, h.assistant, h'.assistant]
  case toolStreamed =>
    rw [List.flatMap_append, List.flatMap_append, h.toolStreamed, h'.toolStreamed]
  case toolGenerated => rw [List.flatMap_append, h.toolGenerated, h'.toolGenerated, List.append_nil]
  case order => rw [List.filterMap_append, List.filterMap_append, h.order, h'.order]
  case client =>
    intro error hError
    rcases List.mem_append.mp hError with hOld | hNew
    · exact h.client error hOld
    · exact h'.client error hNew

theorem content_push_errors (rm : ResponseMessageBuilder) (errors : List TypedToolError) :
    (errors.foldl (fun rm error => rm.push (.toolError error)) rm).content =
      rm.content ++ errors.map .toolError := by
  induction errors generalizing rm with
  | nil => exact (List.append_nil _).symm
  | cons error rest ih =>
    rw [List.foldl_cons, ih, List.map_cons, ← List.singleton_append, ← List.append_assoc]
    rfl

theorem messages {rm rm' : ResponseMessageBuilder} (h : Replays libraries rm.content rm'.content errors) :
    (rm.finish libraries).messages =
      ((errors.foldl (fun rm error => rm.push (.toolError error)) rm').finish libraries).messages := by
  have hSilent : (errors.map ContentPart.toolError).filterMap (assistantPart libraries) = [] := by
    rw [List.filterMap_map, List.filterMap_eq_nil_iff]
    intro error hError
    simp [assistantPart, h.client error hError]
  have hCalls : (errors.map ContentPart.toolError).filterMap callId = [] := by
    rw [List.filterMap_map, List.filterMap_eq_nil_iff]
    exact fun _ _ => rfl
  refine finish_messages_eq libraries ?_ ?_ ?_
  · rw [content_push_errors, List.filterMap_append, hSilent, List.append_nil, h.assistant]
  · rw [content_push_errors, List.flatMap_append, h.toolGenerated, List.nil_append, List.flatMap_map,
      h.toolStreamed]
  · rw [content_push_errors, List.filterMap_append, hCalls, List.append_nil, h.order]

end Replays

/-! ## Parsed calls -/

section Parsed

variable (libraries : Libraries) (tools : Option (List Tool)) (raw : RawToolCall)

theorem parseToolCall_cases : (∃ input dynamic, parseToolCall libraries tools none raw = raw.parsed input dynamic) ∨
      ∃ error, parseToolCall libraries tools none raw = raw.invalid libraries error := by
  unfold parseToolCall
  split
  · split
    · split
      · exact .inl ⟨_, _, rfl⟩
      · exact .inr ⟨_, rfl⟩
    · exact .inr ⟨_, rfl⟩
  · split
    · exact .inl ⟨_, _, rfl⟩
    · exact .inr ⟨_, rfl⟩

theorem toolCallId_parseToolCall : (parseToolCall libraries tools none raw).toolCallId = raw.toolCallId := by
  rcases parseToolCall_cases libraries tools raw with ⟨input, dynamic, h⟩ | ⟨error, h⟩
  · rw [h]
    rfl
  · rw [h]
    rfl

theorem dynamic_of_invalidToolCallError {error : TypedToolError}
    (hError : invalidToolCallError libraries (parseToolCall libraries tools none raw) = some error) :
    (parseToolCall libraries tools none raw).dynamic = some true := by
  rcases parseToolCall_cases libraries tools raw with ⟨input, dynamic, h⟩ | ⟨reason, h⟩
  · rw [h] at hError
    cases hError
  · rw [h]
    rfl

theorem client_invalidToolCallError {call : ToolCall} {error : TypedToolError}
    (hError : invalidToolCallError libraries call = some error) : error.providerExecuted = none := by
  unfold invalidToolCallError at hError
  split at hError
  · cases hError
    rfl
  · cases hError

end Parsed

/-! ## Content that is sent whole -/

def parsedCall (settings : CallSettings) (answers : Answers) (raw : RawToolCall) : ToolCall :=
  parseToolCall settings.libraries settings.tools answers.repairToolCall raw

def pieceErrors (settings : CallSettings) (answers : Answers) (piece : GenerateContent) :
    List TypedToolError :=
  ((rawToolCall piece).bind fun raw =>
    invalidToolCallError settings.libraries (parsedCall settings answers raw)).toList

/-- The calls a reader has seen, against all calls of the content and the content still to come. -/
structure Calls (settings : CallSettings) (answers : Answers) (toolCalls : List ToolCall)
    (seen : List (String × ToolCall)) (content : List GenerateContent) : Prop where
  keyed : ∀ entry ∈ seen, entry.2.toolCallId = entry.1
  seenOrComing : ∀ call ∈ toolCalls, (call.toolCallId, call) ∈ seen ∨
    ∃ raw, .toolCall raw ∈ content ∧ call = parsedCall settings answers raw
  unique : ∀ raw, .toolCall raw ∈ content → ∀ call ∈ toolCalls, call.toolCallId = raw.toolCallId →
    call = parsedCall settings answers raw
  approvals : ∀ before request after, content = before ++ GenerateContent.toolApprovalRequest request :: after →
    (∃ call, (request.toolCallId, call) ∈ seen) ∨
      ∃ raw, GenerateContent.toolCall raw ∈ before ∧ raw.toolCallId = request.toolCallId
  results : ∀ result, .toolResult result ∈ content → result.isError = some true →
    result.preliminary ≠ some true

/-- Content in which every approval request comes after its call, and no error is preliminary. -/
structure Orderly (content : List GenerateContent) : Prop where
  distinct : ((content.filterMap rawToolCall).map (·.toolCallId)).Nodup
  approvals : ∀ before request after, content = before ++ GenerateContent.toolApprovalRequest request :: after →
    ∃ raw, GenerateContent.toolCall raw ∈ before ∧ raw.toolCallId = request.toolCallId
  results : ∀ result, .toolResult result ∈ content → result.isError = some true →
    result.preliminary ≠ some true

theorem mem_rawToolCalls {content : List GenerateContent} {raw : RawToolCall} :
    raw ∈ content.filterMap rawToolCall ↔ .toolCall raw ∈ content := by
  rw [List.mem_filterMap]
  constructor
  · rintro ⟨piece, hPiece, hRaw⟩
    cases piece <;> cases hRaw
    exact hPiece
  · exact fun hRaw => ⟨_, hRaw, rfl⟩

namespace Calls

variable {settings : CallSettings} {answers : Answers} {toolCalls : List ToolCall}
  {seen : List (String × ToolCall)} {content : List GenerateContent}

theorem start (hRepair : answers.repairToolCall = none) (hContent : Orderly content) :
    Calls settings answers ((content.filterMap rawToolCall).map (parsedCall settings answers)) [] content := by
  have hId (raw : RawToolCall) : (parsedCall settings answers raw).toolCallId = raw.toolCallId := by
    rw [parsedCall, hRepair]
    exact toolCallId_parseToolCall settings.libraries settings.tools raw
  constructor
  case keyed => simp
  case seenOrComing =>
    intro call hCall
    obtain ⟨raw, hRaw, rfl⟩ := List.mem_map.mp hCall
    exact .inr ⟨raw, mem_rawToolCalls.mp hRaw, rfl⟩
  case unique =>
    intro raw hRaw call hCall hSame
    obtain ⟨other, hOther, rfl⟩ := List.mem_map.mp hCall
    rw [hId] at hSame
    rw [List.inj_on_of_nodup_map hContent.distinct hOther (mem_rawToolCalls.mpr hRaw) hSame]
  case approvals =>
    intro before request after hSplit
    exact .inr (hContent.approvals before request after hSplit)
  case results => exact hContent.results

theorem keep {piece : GenerateContent} (h : Calls settings answers toolCalls seen (piece :: content))
    (hPiece : rawToolCall piece = none) : Calls settings answers toolCalls seen content := by
  have hOther {raw : RawToolCall} {rest : List GenerateContent} (hRaw : .toolCall raw ∈ piece :: rest) :
      .toolCall raw ∈ rest := by
    rcases List.mem_cons.mp hRaw with rfl | hRest
    · cases hPiece
    · exact hRest
  constructor
  case keyed => exact h.keyed
  case seenOrComing =>
    intro call hCall
    rcases h.seenOrComing call hCall with hSeen | ⟨raw, hRaw, hParsed⟩
    · exact .inl hSeen
    · exact .inr ⟨raw, hOther hRaw, hParsed⟩
  case unique => exact fun raw hRaw => h.unique raw (List.mem_cons_of_mem _ hRaw)
  case approvals =>
    intro before request after hSplit
    rcases h.approvals (piece :: before) request after (by rw [hSplit]; rfl) with hSeen | ⟨raw, hRaw, hId⟩
    · exact .inl hSeen
    · exact .inr ⟨raw, hOther hRaw, hId⟩
  case results => exact fun result hResult => h.results result (List.mem_cons_of_mem _ hResult)

theorem push {raw : RawToolCall} (hRepair : answers.repairToolCall = none)
    (h : Calls settings answers toolCalls seen (.toolCall raw :: content)) :
    Calls settings answers toolCalls
      (((parsedCall settings answers raw).toolCallId, parsedCall settings answers raw) ::
        seen.filter (·.1 ≠ (parsedCall settings answers raw).toolCallId)) content := by
  have hId : (parsedCall settings answers raw).toolCallId = raw.toolCallId := by
    rw [parsedCall, hRepair]
    exact toolCallId_parseToolCall settings.libraries settings.tools raw
  constructor
  case keyed =>
    intro entry hEntry
    rcases List.mem_cons.mp hEntry with rfl | hOld
    · rfl
    · exact h.keyed entry (List.mem_of_mem_filter hOld)
  case seenOrComing =>
    intro call hCall
    rcases h.seenOrComing call hCall with hSeen | ⟨coming, hComing, rfl⟩
    · by_cases hSame : call.toolCallId = raw.toolCallId
      · rw [h.unique raw List.mem_cons_self call hCall hSame]
        exact .inl List.mem_cons_self
      · refine .inl (List.mem_cons_of_mem _ (List.mem_filter.mpr ⟨hSeen, ?_⟩))
        simpa [hId] using hSame
    · rcases List.mem_cons.mp hComing with hHere | hLater
      · cases hHere
        exact .inl List.mem_cons_self
      · exact .inr ⟨coming, hLater, rfl⟩
  case unique => exact fun other hOther => h.unique other (List.mem_cons_of_mem _ hOther)
  case approvals =>
    intro before request after hSplit
    by_cases hSame : request.toolCallId = raw.toolCallId
    · exact .inl ⟨parsedCall settings answers raw, by rw [hSame, ← hId]; exact List.mem_cons_self⟩
    · rcases h.approvals (.toolCall raw :: before) request after (by rw [hSplit]; rfl) with
        ⟨call, hSeen⟩ | ⟨other, hOther, hOtherId⟩
      · refine .inl ⟨call, List.mem_cons_of_mem _ (List.mem_filter.mpr ⟨hSeen, ?_⟩)⟩
        simpa [hId] using hSame
      · rcases List.mem_cons.mp hOther with hHere | hEarlier
        · cases hHere
          exact absurd hOtherId.symm hSame
        · exact .inr ⟨other, hEarlier, hOtherId⟩
  case results => exact fun result hResult => h.results result (List.mem_cons_of_mem _ hResult)

end Calls

/-- What the reader emits for a piece records `parts`, what the conversion adds is `parts'`, and both
replay alike. -/
structure Handled (settings : CallSettings) (answers : Answers) (piece : GenerateContent)
    (emitted : List TextStreamPart) (parts parts' : List ContentPart) : Prop where
  content : ∀ out ∈ emitted, out.role = .content
  recorded : ∀ rm : ResponseMessageBuilder,
    emitted.foldl recordPart rm = { rm with content := rm.content ++ parts }
  replays : Replays settings.libraries parts parts' (pieceErrors settings answers piece)

namespace Handled

variable {settings : CallSettings} {answers : Answers} {toolCalls : List ToolCall} {reader : StreamReader}
  {content : List GenerateContent} {rm rm' : ResponseMessageBuilder}

variable {piece : GenerateContent}

theorem single {out : TextStreamPart} {part part' : ContentPart}
    (hRole : out.role = .content) (hRecorded : ∀ rm : ResponseMessageBuilder, recordPart rm out = rm.push part)
    (hCall : rawToolCall piece = none) (hReplays : Replays settings.libraries [part] [part'] []) :
    Handled settings answers piece [out] [part] [part'] where
  content := by simpa using hRole
  recorded := hRecorded
  replays := by simpa [pieceErrors, hCall] using hReplays

theorem toolCall {raw : RawToolCall}
    (hCalls : Calls settings answers toolCalls reader.toolCalls (.toolCall raw :: content))
    (hConvert : convertPart settings answers toolCalls rm (.toolCall raw) = .ok rm') :
    ∃ parts parts', Handled settings answers (.toolCall raw)
      (reader.transform settings answers (.toolCall raw)).2 parts parts' ∧
      rm'.content = rm.content ++ parts' := by
  simp only [convertPart] at hConvert
  split at hConvert
  · rename_i call hFound
    have hCall : call = parsedCall settings answers raw :=
      hCalls.unique raw List.mem_cons_self call (List.mem_of_find?_eq_some hFound)
        (by simpa using List.find?_some hFound)
    subst hCall
    cases hConvert
    cases hError : invalidToolCallError settings.libraries (parsedCall settings answers raw) with
    | none =>
      have hEmitted : (reader.transform settings answers (.toolCall raw)).2 =
          [.toolCall (parsedCall settings answers raw)] := by
        rw [parsedCall] at hError ⊢
        simp [StreamReader.transform, StreamReader.onToolCall, hError]
      refine ⟨[.toolCall (parsedCall settings answers raw)], _, ?_, rfl⟩
      rw [hEmitted]
      refine ⟨by simp [TextStreamPart.role], fun _ => rfl, ?_⟩
      have hNone : pieceErrors settings answers (.toolCall raw) = [] := by
        simp [pieceErrors, rawToolCall, hError]
      rw [hNone]
      exact .single rfl rfl rfl rfl
    | some error =>
      have hEmitted : (reader.transform settings answers (.toolCall raw)).2 =
          [.toolCall (parsedCall settings answers raw), .toolError error] := by
        rw [parsedCall] at hError ⊢
        simp [StreamReader.transform, StreamReader.onToolCall, hError]
      have hClient := client_invalidToolCallError settings.libraries hError
      refine ⟨[.toolCall (parsedCall settings answers raw), .toolError error], _, ?_, rfl⟩
      rw [hEmitted]
      refine ⟨by simp [TextStreamPart.role], fun rm => ?_, ?_⟩
      · simp [recordPart, ResponseMessageBuilder.push]
      · have hSome : pieceErrors settings answers (.toolCall raw) = [error] := by
          simp [pieceErrors, rawToolCall, hError]
        rw [hSome]
        constructor
        case assistant => simp [assistantPart, hClient]
        case toolStreamed => simp [toolParts]
        case toolGenerated => rfl
        case order => rfl
        case client => simpa using hClient
  · cases hConvert

theorem file {file : LanguageModelFile} {reasoning : Bool}
    {out : GeneratedFileOutput → TextStreamPart} (hRole : ∀ output, (out output).role = .content)
    (hRecorded : ∀ output (rm : ResponseMessageBuilder), recordPart rm (out output) = rm.file output reasoning)
    (hCall : rawToolCall piece = none) (hConvert : convertFile answers rm file reasoning = .ok rm') :
    ∃ parts parts', Handled settings answers piece [StreamReader.onFile answers file out] parts parts' ∧
      rm'.content = rm.content ++ parts' := by
  unfold convertFile at hConvert
  split at hConvert
  · rename_i output hResolved
    cases hConvert
    have hEmitted : StreamReader.onFile answers file out = out output := by
      simp [StreamReader.onFile, hResolved]
    rw [hEmitted]
    refine ⟨_, _, .single (hRole output) (hRecorded output) hCall ?_, rfl⟩
    cases reasoning
    · exact .single rfl rfl rfl rfl
    · exact .single rfl rfl rfl rfl
  · cases hConvert

theorem approval {request : RawToolApprovalRequest}
    (hCalls : Calls settings answers toolCalls reader.toolCalls (.toolApprovalRequest request :: content))
    (hConvert : convertPart settings answers toolCalls rm (.toolApprovalRequest request) = .ok rm') :
    ∃ parts parts', Handled settings answers (.toolApprovalRequest request)
      (reader.transform settings answers (.toolApprovalRequest request)).2 parts parts' ∧
      rm'.content = rm.content ++ parts' := by
  obtain ⟨call, hLookup, hId⟩ : ∃ call, reader.toolCalls.lookup request.toolCallId = some call ∧
      call.toolCallId = request.toolCallId := by
    rcases hCalls.approvals [] request content rfl with ⟨call, hSeen⟩ | ⟨raw, hRaw, _⟩
    · cases hLookup : reader.toolCalls.lookup request.toolCallId with
      | none =>
        have hAbsent := List.lookup_eq_none_iff.mp hLookup _ hSeen
        simp at hAbsent
      | some found =>
        obtain ⟨before, after, hSplit, _⟩ := List.lookup_eq_some_iff.mp hLookup
        refine ⟨found, rfl, hCalls.keyed (request.toolCallId, found) ?_⟩
        simp [hSplit]
    · cases hRaw
  simp only [convertPart] at hConvert
  split at hConvert
  · rename_i call' hFound
    cases hConvert
    have hId' : call'.toolCallId = request.toolCallId := by simpa using List.find?_some hFound
    have hEmitted : (reader.transform settings answers (.toolApprovalRequest request)).2 =
        [.toolApprovalRequest { approvalId := request.approvalId, toolCall := call }] := by
      simp [StreamReader.transform, StreamReader.onApproval, hLookup]
    rw [hEmitted]
    refine ⟨_, _, .single rfl (fun _ => rfl) rfl ?_, rfl⟩
    refine .single ?_ rfl rfl rfl
    simp [assistantPart, hId, hId']
  · cases hConvert

theorem toolResult {result : ToolResult}
    (hCalls : Calls settings answers toolCalls reader.toolCalls (.toolResult result :: content))
    (hConvert : convertPart settings answers toolCalls rm (.toolResult result) = .ok rm') :
    ∃ parts parts', Handled settings answers (.toolResult result)
      (reader.transform settings answers (.toolResult result)).2 parts parts' ∧
      rm'.content = rm.content ++ parts' := by
  simp only [convertPart] at hConvert
  split at hConvert
  · cases hConvert
    simp only [StreamReader.transform, ResponseMessageBuilder.toolResult, providerToolResultPart]
    by_cases hError : result.isError = some true
    · rw [if_neg (hCalls.results result List.mem_cons_self hError), if_pos hError, if_pos hError]
      refine ⟨_, _, .single rfl (fun _ => rfl) rfl ?_, rfl⟩
      exact .single rfl rfl rfl rfl
    · rw [if_neg hError, if_neg hError]
      by_cases hPreliminary : result.preliminary = some true
      · rw [if_pos hPreliminary]
        refine ⟨[], [], ⟨by simp [TextStreamPart.role], fun rm => ?_, .nil⟩, (List.append_nil _).symm⟩
        simp [recordPart, ResponseMessageBuilder.typedToolResult, hPreliminary]
      · rw [if_neg hPreliminary]
        refine ⟨_, _, .single rfl (fun _ => if_neg hPreliminary) rfl ?_, rfl⟩
        exact .single rfl rfl rfl rfl
  · cases hConvert

theorem whole {part : StreamPart} (hWhole : wholePart piece = some part)
    (hCalls : Calls settings answers toolCalls reader.toolCalls (piece :: content))
    (hConvert : convertPart settings answers toolCalls rm piece = .ok rm') :
    ∃ parts parts', Handled settings answers piece (reader.transform settings answers part).2 parts parts' ∧
      rm'.content = rm.content ++ parts' := by
  cases piece with
  | text text metadata => cases hWhole
  | reasoning reasoning => cases hWhole
  | toolCall raw =>
    cases hWhole
    exact toolCall hCalls hConvert
  | source source =>
    cases hWhole
    cases hConvert
    exact ⟨_, _, .single rfl (fun _ => rfl) rfl (.single rfl rfl rfl rfl), rfl⟩
  | file file =>
    cases hWhole
    exact Handled.file (fun _ => rfl) (fun _ _ => rfl) rfl hConvert
  | reasoningFile file =>
    cases hWhole
    exact Handled.file (fun _ => rfl) (fun _ _ => rfl) rfl hConvert
  | custom kind metadata =>
    cases hWhole
    cases hConvert
    exact ⟨_, _, .single rfl (fun _ => rfl) rfl (.single rfl rfl rfl rfl), rfl⟩
  | toolApprovalRequest request =>
    cases hWhole
    exact approval hCalls hConvert
  | toolResult result =>
    cases hWhole
    exact toolResult hCalls hConvert

end Handled

end Aimux.Core
