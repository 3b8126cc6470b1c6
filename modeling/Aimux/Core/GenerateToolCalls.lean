import Aimux.Core.GenerateText

/-! # The tool calls of a generated result

`convert_generated_content` takes each parsed call back by the id of its raw call. A repair hook may give
a call another id, and a provider may repeat an id.
-/

namespace Aimux.Core

/-- The parsed calls of `generate_text`, in the order of the raw ones. A hook with a state of its own may
answer every call differently. -/
def parsedToolCalls (libraries : Libraries) (tools : Option (List Tool)) (hooks : Nat → Option RepairHook)
    (content : List GenerateContent) : List ToolCall :=
  (content.filterMap rawToolCall).mapIdx fun index call => parseToolCall libraries tools (hooks index) call

def generateStepFrom (settings : CallSettings) (callId : String) (answers : Answers)
    (result : GenerateResult) (toolCalls : List ToolCall) : Except AiMuxError StepResult :=
  match toolChoiceViolationError settings.toolChoice (toolCalls.map (·.toolName))
      result.finishReason.unified settings.provider settings.modelId result.content with
  | some error => .error error
  | none =>
    match convertGeneratedContent settings answers toolCalls result.content with
    | .error error => .error error
    | .ok content => .ok (buildGeneratedStep settings callId answers.now result content)

def generateTextFrom (settings : CallSettings) (callId : String) (output : OutputParser) (answers : Answers)
    (result : GenerateResult) (toolCalls : List ToolCall) : Except AiMuxError GenerateTextResult :=
  match generateStepFrom settings callId answers result toolCalls with
  | .error error => .error error
  | .ok step =>
    match generateOutput step output with
    | .error error => .error error
    | .ok output => .ok {
        steps := [step]
        totalUsage := addLanguageModelUsage {} step.usage
        output := output }

/-- A hook without a state is asked the same way for every call. -/
theorem generateText_from_parsed (settings : CallSettings) (callId : String) (output : OutputParser)
    (answers : Answers) (result : GenerateResult) :
    generateText settings callId output answers result =
      generateTextFrom settings callId output answers result
        (parsedToolCalls settings.libraries settings.tools (fun _ => answers.repairToolCall)
          result.content) := by
  have hCalls : parsedToolCalls settings.libraries settings.tools (fun _ => answers.repairToolCall)
      result.content = (result.content.filterMap rawToolCall).map
        (parseToolCall settings.libraries settings.tools answers.repairToolCall) := by
    apply List.ext_getElem <;> simp [parsedToolCalls]
  rw [hCalls]
  rfl

/-! ## Panics and errors of the conversion -/

/-- The `expect` on the parsed call of a raw one. -/
def partPanics (toolCalls : List ToolCall) : GenerateContent → Bool
  | .toolCall call => !toolCalls.any fun parsed => parsed.toolCallId == call.toolCallId
  | _ => false

def partsPanic (settings : CallSettings) (answers : Answers) (toolCalls : List ToolCall) :
    ResponseMessageBuilder → List GenerateContent → Bool
  | _, [] => false
  | rm, part :: rest =>
    partPanics toolCalls part ||
      match convertPart settings answers toolCalls rm part with
      | .ok next => partsPanic settings answers toolCalls next rest
      | .error _ => false

def generateTextPanics (settings : CallSettings) (answers : Answers) (result : GenerateResult)
    (toolCalls : List ToolCall) : Bool :=
  (toolChoiceViolationError settings.toolChoice (toolCalls.map (·.toolName))
    result.finishReason.unified settings.provider settings.modelId result.content).isNone &&
  partsPanic settings answers toolCalls {} result.content

def toolCallPart : ContentPart → Option ToolCall
  | .toolCall call => some call
  | _ => none

def GenerateTextResult.content (result : GenerateTextResult) : List ContentPart :=
  result.steps.flatMap (·.content)

/-- No panic, and the tool call parts of the result are the parsed calls in their order. -/
structure ToolCallsInOrder (settings : CallSettings) (callId : String) (output : OutputParser)
    (answers : Answers) (hooks : Nat → Option RepairHook) (result : GenerateResult) : Prop where
  hNoPanic : generateTextPanics settings answers result
    (parsedToolCalls settings.libraries settings.tools hooks result.content) = false
  hParts : ∀ generated : GenerateTextResult,
    generateTextFrom settings callId output answers result
      (parsedToolCalls settings.libraries settings.tools hooks result.content) = .ok generated →
    generated.content.filterMap toolCallPart =
      parsedToolCalls settings.libraries settings.tools hooks result.content

/-- The errors the conversion of a part reports, `ids` being those of the parsed calls. -/
def partFails (settings : CallSettings) (answers : Answers) (ids : List String) : GenerateContent → Bool
  | .file file | .reasoningFile file => !(resolveFile answers file).isOk
  | .toolApprovalRequest approval => !ids.contains approval.toolCallId
  | .toolResult result =>
    !(ids.contains result.toolCallId || deferredAllowed settings.tools result.toolName)
  | _ => false

def generatedText : GenerateContent → Option String
  | .text text _ => some text
  | _ => none

/-- The output is parsed and its parser rejects the text. -/
def outputFails (output : OutputParser) (result : GenerateResult) : Prop :=
  (result.finishReason.unified = .stop ∨ (result.finishReason.unified ≠ .toolCalls ∧
    String.join (result.content.filterMap generatedText) ≠ "")) ∧
  ∃ error, output (String.join (result.content.filterMap generatedText)) = .error error

/-- The hook replaces the call by a valid one with another id. -/
def RenamedBy (libraries : Libraries) (tools : Option (List Tool)) (hook : Option RepairHook)
    (call : RawToolCall) : Prop :=
  ∃ declared error repair repaired parsed, tools = some declared ∧ hook = some repair ∧
    call.parseAndValidate libraries declared = .error error ∧ repair call error = .repaired repaired ∧
    repaired.parseAndValidate libraries declared = .ok parsed ∧ repaired.toolCallId ≠ call.toolCallId

/-- The tool calls the conversion reaches have a parsed call with their id. Where nothing else fails, no
valid repair has another id and calls that share an id parse alike. -/
structure CallsKeepIds (settings : CallSettings) (output : OutputParser) (answers : Answers)
    (hooks : Nat → Option RepairHook) (result : GenerateResult) (ids : List String) : Prop where
  hReached : ∀ before call after, result.content = before ++ GenerateContent.toolCall call :: after →
    (∀ part ∈ before, partFails settings answers ids part = false) → call.toolCallId ∈ ids
  hRenamed : (∀ part ∈ result.content, partFails settings answers ids part = false) →
    ¬outputFails output result →
    ∀ index call, (result.content.filterMap rawToolCall)[index]? = some call →
      ¬RenamedBy settings.libraries settings.tools (hooks index) call
  hRepeated : (∀ part ∈ result.content, partFails settings answers ids part = false) →
    ¬outputFails output result →
    ∀ i j call other, (result.content.filterMap rawToolCall)[i]? = some call →
      (result.content.filterMap rawToolCall)[j]? = some other → call.toolCallId = other.toolCallId →
      parseToolCall settings.libraries settings.tools (hooks i) call =
        parseToolCall settings.libraries settings.tools (hooks j) other

/-! ## The id of a parsed call -/

theorem applyRepairOutcome_toolCallId (libraries : Libraries) (call : RawToolCall) (error : AiMuxError)
    (declared : List Tool) (outcome : RepairOutcome) :
    (applyRepairOutcome libraries call error declared outcome).toolCallId ≠ call.toolCallId ↔
      ∃ repaired parsed, outcome = .repaired repaired ∧
        repaired.parseAndValidate libraries declared = .ok parsed ∧
        repaired.toolCallId ≠ call.toolCallId := by
  cases outcome with
  | unchanged => simp [applyRepairOutcome, RawToolCall.invalid, RawToolCall.parsed]
  | failed repairError => simp [applyRepairOutcome, RawToolCall.invalid, RawToolCall.parsed]
  | repaired repaired =>
    cases hParse : repaired.parseAndValidate libraries declared with
    | error repairedError =>
      simp [applyRepairOutcome, hParse, RawToolCall.invalid, RawToolCall.parsed]
    | ok parsed =>
      obtain ⟨input, dynamic⟩ := parsed
      simp [applyRepairOutcome, hParse, RawToolCall.parsed]

theorem parseToolCall_toolCallId (libraries : Libraries) (tools : Option (List Tool))
    (hook : Option RepairHook) (call : RawToolCall) :
    (parseToolCall libraries tools hook call).toolCallId = call.toolCallId ↔
      ¬RenamedBy libraries tools hook call := by
  cases tools with
  | none =>
    have hId : (parseToolCall libraries none hook call).toolCallId = call.toolCallId := by
      simp only [parseToolCall]
      split
      · split <;> rfl
      · rfl
    simp [hId, RenamedBy]
  | some declared =>
    cases hParse : call.parseAndValidate libraries declared with
    | ok parsed =>
      obtain ⟨input, dynamic⟩ := parsed
      simp [parseToolCall, hParse, RenamedBy, RawToolCall.parsed]
    | error error =>
      cases hook with
      | none => simp [parseToolCall, hParse, RenamedBy, RawToolCall.invalid, RawToolCall.parsed]
      | some repair =>
        have hOutcome := applyRepairOutcome_toolCallId libraries call error declared (repair call error)
        simp only [parseToolCall, hParse]
        rw [← not_iff_not, not_not]
        refine hOutcome.trans ?_
        constructor
        · rintro ⟨repaired, parsed, hRepair, hValid, hId⟩
          exact ⟨declared, error, repair, repaired, parsed, rfl, rfl, hParse, hRepair, hValid, hId⟩
        · rintro ⟨_, _, _, repaired, parsed, hTools, hHook, hError, hRepair, hValid, hId⟩
          obtain rfl := Option.some.inj hTools
          obtain rfl := Option.some.inj hHook
          obtain rfl := Except.error.inj (hParse.symm.trans hError)
          exact ⟨repaired, parsed, hRepair, hValid, hId⟩

/-! ## What the conversion of a part does -/

def convertedCall (toolCalls : List ToolCall) : GenerateContent → Option ToolCall
  | .toolCall call => toolCalls.find? fun parsed => parsed.toolCallId == call.toolCallId
  | _ => none

def partText : ContentPart → Option String
  | .text text _ => some text
  | _ => none

theorem partPanics_eq_false {toolCalls : List ToolCall} {call : RawToolCall} :
    partPanics toolCalls (.toolCall call) = false ↔ call.toolCallId ∈ toolCalls.map (·.toolCallId) := by
  simp [partPanics]

/-- One part of the content: what it adds to the tool calls and to the text. -/
structure PartConverted (toolCalls : List ToolCall) (part : GenerateContent)
    (rm next : ResponseMessageBuilder) : Prop where
  hCalls : next.content.filterMap toolCallPart =
    rm.content.filterMap toolCallPart ++ (convertedCall toolCalls part).toList
  hText : next.content.filterMap partText = rm.content.filterMap partText ++ (generatedText part).toList

variable (content : List GenerateContent)

section

variable {settings : CallSettings} {answers : Answers} {toolCalls : List ToolCall}
variable {rm next : ResponseMessageBuilder}

theorem toolResult_adds_no_call (result : ToolResult) :
    PartConverted toolCalls (.toolResult result) rm (rm.toolResult result) := by
  unfold ResponseMessageBuilder.toolResult
  split
  · exact ⟨by simp [convertedCall], by simp [generatedText]⟩
  · simp only [ResponseMessageBuilder.push]
    split
    · exact ⟨by simp [convertedCall, toolCallPart], by simp [generatedText, partText]⟩
    · exact ⟨by simp [convertedCall, toolCallPart], by simp [generatedText, partText]⟩

theorem convertFile_isOk (file : LanguageModelFile) (reasoning : Bool) :
    (convertFile answers rm file reasoning).isOk = (resolveFile answers file).isOk := by
  unfold convertFile
  cases resolveFile answers file <;> rfl

theorem convertPart_isOk (settings : CallSettings) (answers : Answers) (toolCalls : List ToolCall)
    (rm : ResponseMessageBuilder) (part : GenerateContent) :
    (convertPart settings answers toolCalls rm part).isOk = true ↔
      partPanics toolCalls part = false ∧
        partFails settings answers (toolCalls.map (·.toolCallId)) part = false := by
  cases part with
  | toolCall call =>
    rw [partPanics_eq_false]
    simp only [convertPart, partFails, and_true]
    cases hFind : toolCalls.find? fun parsed => parsed.toolCallId == call.toolCallId with
    | none =>
      simp only [List.find?_eq_none, beq_iff_eq] at hFind
      simpa [Except.isOk, Except.toBool] using hFind
    | some parsed =>
      have hParsed := List.find?_some hFind
      simp only [beq_iff_eq] at hParsed
      have hMem : parsed ∈ toolCalls := List.mem_of_find?_eq_some hFind
      simp only [Except.isOk, Except.toBool, List.mem_map, true_iff]
      exact ⟨parsed, hMem, hParsed⟩
  | file file => simp [convertPart, partPanics, partFails, convertFile_isOk]
  | reasoningFile file => simp [convertPart, partPanics, partFails, convertFile_isOk]
  | toolApprovalRequest approval =>
    simp only [convertPart, partPanics, partFails]
    cases hFind : toolCalls.find? fun call => call.toolCallId == approval.toolCallId with
    | none =>
      simp only [List.find?_eq_none, beq_iff_eq] at hFind
      simpa [Except.isOk, Except.toBool] using hFind
    | some call =>
      have hCall := List.find?_some hFind
      simp only [beq_iff_eq] at hCall
      have hMem : call ∈ toolCalls := List.mem_of_find?_eq_some hFind
      simp only [Except.isOk, Except.toBool, true_and, true_iff, Bool.not_eq_false',
        List.contains_iff_mem, List.mem_map]
      exact ⟨call, hMem, hCall⟩
  | toolResult result =>
    have hIds : (toolCalls.map (·.toolCallId)).contains result.toolCallId =
        toolCalls.any fun call => call.toolCallId == result.toolCallId := by
      rw [Bool.eq_iff_iff]
      simp
    simp only [convertPart, partPanics, partFails, hIds]
    generalize (toolCalls.any (fun call => call.toolCallId == result.toolCallId) ||
      deferredAllowed settings.tools result.toolName) = found
    cases found <;> simp [Except.isOk, Except.toBool]
  | _ => simp [convertPart, partPanics, partFails, Except.isOk, Except.toBool]

theorem convertPart_converts {part : GenerateContent}
    (hPart : convertPart settings answers toolCalls rm part = .ok next) :
    PartConverted toolCalls part rm next := by
  cases part with
  | toolCall call =>
    simp only [convertPart] at hPart
    split at hPart
    · next parsed hFind =>
      obtain rfl := Except.ok.inj hPart
      exact ⟨by simp [convertedCall, hFind, ResponseMessageBuilder.push, toolCallPart],
        by simp [generatedText, ResponseMessageBuilder.push, partText]⟩
    · cases hPart
  | file file | reasoningFile file =>
    simp only [convertPart, convertFile] at hPart
    split at hPart
    · obtain rfl := Except.ok.inj hPart
      exact ⟨by simp [convertedCall, ResponseMessageBuilder.file, ResponseMessageBuilder.push, toolCallPart],
        by simp [generatedText, ResponseMessageBuilder.file, ResponseMessageBuilder.push, partText]⟩
    · cases hPart
  | toolApprovalRequest approval =>
    simp only [convertPart] at hPart
    split at hPart
    · obtain rfl := Except.ok.inj hPart
      exact ⟨by simp [convertedCall, ResponseMessageBuilder.push, toolCallPart],
        by simp [generatedText, ResponseMessageBuilder.push, partText]⟩
    · cases hPart
  | toolResult result =>
    simp only [convertPart] at hPart
    split at hPart
    · obtain rfl := Except.ok.inj hPart
      exact toolResult_adds_no_call result
    · cases hPart
  | _ =>
    obtain rfl := Except.ok.inj hPart
    exact ⟨by simp [convertedCall, ResponseMessageBuilder.push, toolCallPart],
      by simp [generatedText, ResponseMessageBuilder.push, partText]⟩

/-! ## Runs over the content -/

theorem convertParts_isOk (rm : ResponseMessageBuilder) :
    (convertParts settings answers toolCalls rm content).isOk = true ↔
      ∀ part ∈ content, partPanics toolCalls part = false ∧
        partFails settings answers (toolCalls.map (·.toolCallId)) part = false := by
  induction content generalizing rm with
  | nil => simp [convertParts, Except.isOk, Except.toBool]
  | cons part rest ih =>
    have hFirst := convertPart_isOk settings answers toolCalls rm part
    simp only [convertParts, List.forall_mem_cons, ← hFirst]
    cases hPart : convertPart settings answers toolCalls rm part with
    | ok next => simpa [Except.isOk, Except.toBool] using ih next
    | error error => simp [Except.isOk, Except.toBool]

theorem convertParts_converts {rm final : ResponseMessageBuilder}
    (hRun : convertParts settings answers toolCalls rm content = .ok final) :
    final.content.filterMap toolCallPart =
        rm.content.filterMap toolCallPart ++ content.filterMap (convertedCall toolCalls) ∧
      final.content.filterMap partText =
        rm.content.filterMap partText ++ content.filterMap generatedText := by
  induction content generalizing rm with
  | nil =>
    obtain rfl := Except.ok.inj hRun
    simp
  | cons part rest ih =>
    simp only [convertParts] at hRun
    split at hRun
    · next next hPart =>
      have hStep := convertPart_converts hPart
      obtain ⟨hCalls, hText⟩ := ih hRun
      rw [hStep.hCalls] at hCalls
      rw [hStep.hText] at hText
      refine ⟨hCalls.trans ?_, hText.trans ?_⟩
      · cases hCall : convertedCall toolCalls part <;> simp [hCall]
      · cases hPartText : generatedText part <;> simp [hPartText]
    · cases hRun

/-- The panic is at the first tool call without a parsed one, unless an earlier part ends the
conversion. -/
theorem partsPanic_eq_false (rm : ResponseMessageBuilder) :
    partsPanic settings answers toolCalls rm content = false ↔
      ∀ before call after, content = before ++ GenerateContent.toolCall call :: after →
        (∀ part ∈ before,
          partFails settings answers (toolCalls.map (·.toolCallId)) part = false) →
        call.toolCallId ∈ toolCalls.map (·.toolCallId) := by
  induction content generalizing rm with
  | nil => simp [partsPanic]
  | cons part rest ih =>
    have hFirst := convertPart_isOk settings answers toolCalls rm part
    simp only [partsPanic, Bool.or_eq_false_iff]
    constructor
    · rintro ⟨hPart, hRest⟩ before call after hSplit hBefore
      cases before with
      | nil =>
        obtain ⟨rfl, -⟩ := List.cons.inj hSplit
        exact partPanics_eq_false.mp hPart
      | cons head before =>
        obtain ⟨rfl, hTail⟩ := List.cons.inj hSplit
        have hOk := hFirst.mpr ⟨hPart, hBefore part (List.mem_cons_self ..)⟩
        cases hConvert : convertPart settings answers toolCalls rm part with
        | error error => simp [hConvert, Except.isOk, Except.toBool] at hOk
        | ok next =>
          simp only [hConvert] at hRest
          exact (ih next).mp hRest before call after hTail
            fun part hMem => hBefore part (List.mem_cons_of_mem _ hMem)
    · intro hReached
      have hPart : partPanics toolCalls part = false := by
        cases part with
        | toolCall call => exact partPanics_eq_false.mpr (hReached [] call rest rfl (by simp))
        | _ => rfl
      refine ⟨hPart, ?_⟩
      cases hConvert : convertPart settings answers toolCalls rm part with
      | error error => rfl
      | ok next =>
        have hFails := (hFirst.mp (by rw [hConvert]; rfl)).2
        refine (ih next).mpr fun before call after hSplit hBefore => ?_
        refine hReached (part :: before) call after (by rw [hSplit]; rfl) ?_
        rintro other hMem
        rcases List.mem_cons.mp hMem with rfl | hMem
        · exact hFails
        · exact hBefore other hMem

end

/-! ## The whole call -/

theorem filterMap_eq_iff {α β : Type} {f : α → Option β} {xs : List α}
    (hSome : ∀ x ∈ xs, (f x).isSome) (ys : List β) : xs.filterMap f = ys ↔ xs.map f = ys.map some := by
  induction xs generalizing ys with
  | nil => cases ys <;> simp
  | cons x xs ih =>
    obtain ⟨y, hy⟩ := Option.isSome_iff_exists.mp (hSome x (List.mem_cons_self ..))
    have hRest := ih fun x hx => hSome x (List.mem_cons_of_mem _ hx)
    cases ys with
    | nil => simp [hy]
    | cons head ys => simp [hy, hRest]

theorem convertedCall_eq (toolCalls : List ToolCall) (content : List GenerateContent) :
    content.filterMap (convertedCall toolCalls) = (content.filterMap rawToolCall).filterMap fun call =>
      toolCalls.find? fun parsed => parsed.toolCallId == call.toolCallId := by
  rw [List.filterMap_filterMap]
  congr 1
  funext part
  cases part <;> rfl

/-- The lookups give the parsed calls back exactly when parsing keeps every id and does not tell apart the
calls of one id. -/
theorem lookups_eq_iff {calls : List RawToolCall} {parse : Nat → RawToolCall → ToolCall} :
    (∀ index call, calls[index]? = some call →
      (calls.mapIdx parse).find? (fun parsed => parsed.toolCallId == call.toolCallId) =
        some (parse index call)) ↔
    (∀ index call, calls[index]? = some call → (parse index call).toolCallId = call.toolCallId) ∧
    (∀ i j call other, calls[i]? = some call → calls[j]? = some other →
      call.toolCallId = other.toolCallId → parse i call = parse j other) := by
  constructor
  · intro hLookup
    refine ⟨fun index call hCall => ?_, fun i j call other hCall hOther hSame => ?_⟩
    · simpa using List.find?_some (hLookup index call hCall)
    · have hFirst := hLookup i call hCall
      rw [hSame, hLookup j other hOther] at hFirst
      exact (Option.some.inj hFirst).symm
  · rintro ⟨hIds, hRepeated⟩ index call hCall
    have hMem : parse index call ∈ calls.mapIdx parse :=
      List.mem_of_getElem? (i := index) (by simp [hCall])
    cases hFind : (calls.mapIdx parse).find? (fun parsed => parsed.toolCallId == call.toolCallId) with
    | none =>
      have hNone := List.find?_eq_none.mp hFind (parse index call) hMem
      simp [hIds index call hCall] at hNone
    | some found =>
      have hId := List.find?_some hFind
      simp only [beq_iff_eq] at hId
      obtain ⟨i, hFound⟩ := List.mem_iff_getElem?.mp (List.mem_of_find?_eq_some hFind)
      rw [List.getElem?_mapIdx, Option.map_eq_some_iff] at hFound
      obtain ⟨other, hOther, rfl⟩ := hFound
      rw [hIds i other hOther] at hId
      rw [hRepeated i index other call hOther hCall hId]

theorem converted_eq_parsed_iff (parse : Nat → RawToolCall → ToolCall)
    (hFound : ∀ part ∈ content, partPanics ((content.filterMap rawToolCall).mapIdx parse) part = false) :
    content.filterMap (convertedCall ((content.filterMap rawToolCall).mapIdx parse)) =
        (content.filterMap rawToolCall).mapIdx parse ↔
      (∀ index call, (content.filterMap rawToolCall)[index]? = some call →
        (parse index call).toolCallId = call.toolCallId) ∧
      (∀ i j call other, (content.filterMap rawToolCall)[i]? = some call →
        (content.filterMap rawToolCall)[j]? = some other → call.toolCallId = other.toolCallId →
        parse i call = parse j other) := by
  rw [← lookups_eq_iff, convertedCall_eq, filterMap_eq_iff]
  · constructor
    · intro hMap index call hCall
      have hAt := congrArg (fun found => found[index]?) hMap
      simpa [hCall] using hAt
    · intro hLookup
      apply List.ext_getElem?
      intro index
      cases hCall : (content.filterMap rawToolCall)[index]? with
      | none => simp [hCall]
      | some call => simp [hCall, hLookup index call hCall]
  · intro call hCall
    obtain ⟨part, hPart, hRaw⟩ := List.mem_filterMap.mp hCall
    cases part with
    | toolCall other =>
      obtain rfl := Option.some.inj hRaw
      have hMem := partPanics_eq_false.mp (hFound _ hPart)
      obtain ⟨parsed, hParsed, hId⟩ := List.mem_map.mp hMem
      rw [List.find?_isSome]
      exact ⟨parsed, hParsed, by simp [hId]⟩
    | _ => cases hRaw

theorem toolErrors_add_no_part (errors : List TypedToolError) (rm : ResponseMessageBuilder) :
    ((errors.foldl (fun rm error => rm.push (.toolError error)) rm).content.filterMap toolCallPart =
        rm.content.filterMap toolCallPart) ∧
      ((errors.foldl (fun rm error => rm.push (.toolError error)) rm).content.filterMap partText =
        rm.content.filterMap partText) := by
  induction errors generalizing rm with
  | nil => exact ⟨rfl, rfl⟩
  | cons error errors ih =>
    obtain ⟨hCalls, hText⟩ := ih (rm.push (.toolError error))
    exact ⟨hCalls.trans (by simp [ResponseMessageBuilder.push, toolCallPart]),
      hText.trans (by simp [ResponseMessageBuilder.push, partText])⟩

section

variable {settings : CallSettings} {answers : Answers} {toolCalls : List ToolCall}
variable {callId : String} {output : OutputParser} {result : GenerateResult}

theorem convertGeneratedContent_isOk :
    (convertGeneratedContent settings answers toolCalls content).isOk = true ↔
      ∀ part ∈ content, partPanics toolCalls part = false ∧
        partFails settings answers (toolCalls.map (·.toolCallId)) part = false := by
  rw [← convertParts_isOk content {}]
  unfold convertGeneratedContent
  cases convertParts settings answers toolCalls {} content <;> simp [Except.isOk, Except.toBool]

theorem convertGeneratedContent_converts {content : List GenerateContent} {messages : ResponseMessages}
    (hRun : convertGeneratedContent settings answers toolCalls content = .ok messages) :
    messages.content.filterMap toolCallPart = content.filterMap (convertedCall toolCalls) ∧
      messages.content.filterMap partText = content.filterMap generatedText := by
  unfold convertGeneratedContent at hRun
  split at hRun
  · cases hRun
  · next rm hParts =>
    obtain rfl := Except.ok.inj hRun
    obtain ⟨hCalls, hText⟩ := convertParts_converts content hParts
    obtain ⟨hErrorCalls, hErrorText⟩ := toolErrors_add_no_part
      ((toolCalls.filter fun call => call.dynamic = some true).filterMap
        (invalidToolCallError settings.libraries)) rm
    exact ⟨hErrorCalls.trans (by simpa using hCalls), hErrorText.trans (by simpa using hText)⟩

theorem generateOutput_isOk (settings : CallSettings) (answers : Answers) (callId : String)
    (output : OutputParser) {messages : ResponseMessages}
    (hText : messages.content.filterMap partText = result.content.filterMap generatedText) :
    (generateOutput (buildGeneratedStep settings callId answers.now result messages) output).isOk = true ↔
      ¬outputFails output result := by
  have hStep : (buildGeneratedStep settings callId answers.now result messages).text =
      String.join (result.content.filterMap generatedText) := by
    rw [← hText]
    unfold StepResult.text
    congr 2
  have hReason : (buildGeneratedStep settings callId answers.now result messages).finishReason =
      result.finishReason.unified := rfl
  unfold generateOutput outputFails
  rw [hStep, hReason]
  split
  · next hWanted =>
    cases output (String.join (result.content.filterMap generatedText)) <;>
      simp [hWanted, Except.isOk, Except.toBool]
  · next hUnwanted => simp [hUnwanted, Except.isOk, Except.toBool]

/-- A result exists when the tool choice is met, every part converts and the output is accepted. -/
theorem generateTextFrom_ok_iff (callId : String) :
    (∃ generated, generateTextFrom settings callId output answers result toolCalls = .ok generated) ↔
      toolChoiceViolationError settings.toolChoice (toolCalls.map (·.toolName))
          result.finishReason.unified settings.provider settings.modelId result.content = none ∧
        (∀ part ∈ result.content, partPanics toolCalls part = false ∧
          partFails settings answers (toolCalls.map (·.toolCallId)) part = false) ∧
        ¬outputFails output result := by
  rw [← convertGeneratedContent_isOk]
  unfold generateTextFrom generateStepFrom
  cases hChoice : toolChoiceViolationError settings.toolChoice (toolCalls.map (·.toolName))
      result.finishReason.unified settings.provider settings.modelId result.content with
  | some error => simp
  | none =>
    cases hContent : convertGeneratedContent settings answers toolCalls result.content with
    | error error => simp [Except.isOk, Except.toBool]
    | ok messages =>
      have hOutput := generateOutput_isOk settings answers callId output
        (convertGeneratedContent_converts hContent).2
      simp only [← hOutput]
      cases generateOutput (buildGeneratedStep settings callId answers.now result messages) output <;>
        simp [Except.isOk, Except.toBool]

theorem generateTextFrom_content {generated : GenerateTextResult}
    (hRun : generateTextFrom settings callId output answers result toolCalls = .ok generated) :
    generated.content.filterMap toolCallPart = result.content.filterMap (convertedCall toolCalls) := by
  unfold generateTextFrom generateStepFrom at hRun
  split at hRun
  · cases hRun
  · next step hStep =>
    split at hStep
    · cases hStep
    · split at hStep
      · cases hStep
      · next messages hContent =>
        obtain rfl := Except.ok.inj hStep
        split at hRun
        · cases hRun
        · obtain rfl := Except.ok.inj hRun
          simpa [GenerateTextResult.content, buildGeneratedStep] using
            (convertGeneratedContent_converts hContent).1

end

/-- `generate_text` finds every parsed call back, in order, exactly when ids are kept as far as the
conversion gets. -/
theorem tool_calls_in_order_iff (settings : CallSettings) (callId : String) (output : OutputParser)
    (answers : Answers) (hooks : Nat → Option RepairHook) (result : GenerateResult) :
    ToolCallsInOrder settings callId output answers hooks result ↔
      (toolChoiceViolationError settings.toolChoice
          ((parsedToolCalls settings.libraries settings.tools hooks result.content).map (·.toolName))
          result.finishReason.unified settings.provider settings.modelId result.content = none →
        CallsKeepIds settings output answers hooks result
          ((parsedToolCalls settings.libraries settings.tools hooks result.content).map
            (·.toolCallId))) := by
  have hPaired := fun hFound => converted_eq_parsed_iff result.content
    (fun index call => parseToolCall settings.libraries settings.tools (hooks index) call) hFound
  simp only [parseToolCall_toolCallId] at hPaired
  set calls := parsedToolCalls settings.libraries settings.tools hooks result.content with hCalls
  rw [show (result.content.filterMap rawToolCall).mapIdx (fun index call =>
    parseToolCall settings.libraries settings.tools (hooks index) call) = calls from rfl] at hPaired
  constructor
  · rintro ⟨hNoPanic, hParts⟩ hChoice
    have hReached : ∀ before call after, result.content = before ++ GenerateContent.toolCall call :: after →
        (∀ part ∈ before, partFails settings answers (calls.map (·.toolCallId)) part = false) →
        call.toolCallId ∈ calls.map (·.toolCallId) := by
      refine (partsPanic_eq_false result.content {}).mp ?_
      simpa [generateTextPanics, ← hCalls, hChoice] using hNoPanic
    have hSame (hFails : ∀ part ∈ result.content,
        partFails settings answers (calls.map (·.toolCallId)) part = false)
        (hOutput : ¬outputFails output result) :
        (∀ part ∈ result.content, partPanics calls part = false) ∧
          result.content.filterMap (convertedCall calls) = calls := by
      have hFound : ∀ part ∈ result.content, partPanics calls part = false := by
        intro part hPart
        cases part with
        | toolCall call =>
          obtain ⟨before, after, hSplit⟩ := List.append_of_mem hPart
          refine partPanics_eq_false.mpr (hReached before call after hSplit fun other hOther => ?_)
          exact hFails other (by rw [hSplit]; exact List.mem_append_left _ hOther)
        | _ => rfl
      obtain ⟨generated, hRun⟩ := (generateTextFrom_ok_iff callId).mpr
        ⟨hChoice, fun part hPart => ⟨hFound part hPart, hFails part hPart⟩, hOutput⟩
      exact ⟨hFound, (generateTextFrom_content hRun).symm.trans (hParts generated hRun)⟩
    refine ⟨hReached, fun hFails hOutput => ?_, fun hFails hOutput => ?_⟩
    · obtain ⟨hFound, hEq⟩ := hSame hFails hOutput
      exact ((hPaired hFound).mp hEq).1
    · obtain ⟨hFound, hEq⟩ := hSame hFails hOutput
      exact ((hPaired hFound).mp hEq).2
  · intro hKeep
    refine ⟨?_, fun generated hRun => ?_⟩
    · unfold generateTextPanics
      cases hChoice : toolChoiceViolationError settings.toolChoice (calls.map (·.toolName))
          result.finishReason.unified settings.provider settings.modelId result.content with
      | some error => rfl
      | none => exact (partsPanic_eq_false result.content {}).mpr (hKeep hChoice).hReached
    · obtain ⟨hChoice, hAccepted, hOutput⟩ := (generateTextFrom_ok_iff callId).mp ⟨generated, hRun⟩
      have hFails := fun part hPart => (hAccepted part hPart).2
      rw [generateTextFrom_content hRun]
      exact (hPaired fun part hPart => (hAccepted part hPart).1).mpr
        ⟨(hKeep hChoice).hRenamed hFails hOutput, (hKeep hChoice).hRepeated hFails hOutput⟩

/-! ## A repair under a new id -/

def renamingLibraries : Libraries where
  parseInputText _ := .error (.mk "EOF while parsing a value at line 1 column 0" none)
  validatorFor _ := .ok fun _ => .ok ()
  jsonText _ := "null"
  errorText _ := "unknown error"
  encodeBase64 _ := ""
  sameNumber _ _ := false

def renamingSettings : CallSettings where
  libraries := renamingLibraries
  tools := some [.function { name := "search", inputSchema := .object [] }]
  provider := "openai.responses"
  modelId := "gpt"

def renamingAnswers : Answers where
  download url := .error (.other ("no response from " ++ url) none)

/-- The model misspells the tool and the hook answers with a call of its own making. -/
def misspelledResult : GenerateResult where
  content := [.toolCall { toolCallId := "call_1", toolName := "serch", input := "" }]
  finishReason := { unified := .toolCalls, raw := none }

def renamingHook : RepairHook := fun _ _ =>
  .repaired { toolCallId := "call_2", toolName := "search", input := "" }

/-- Two calls under one id, as some providers send them. -/
def repeatedResult : GenerateResult where
  content := [.toolCall { toolCallId := "call_1", toolName := "search", input := "" },
    .toolCall { toolCallId := "call_1", toolName := "lookup", input := "" }]
  finishReason := { unified := .toolCalls, raw := none }

theorem renamed_call_panics :
    ¬ToolCallsInOrder renamingSettings "call" textOutput renamingAnswers (fun _ => some renamingHook)
        misspelledResult ∧
      ¬ToolCallsInOrder renamingSettings "call" textOutput renamingAnswers (fun _ => none)
        repeatedResult := by
  constructor
  · intro hOrder
    have hPanics : generateTextPanics renamingSettings renamingAnswers misspelledResult
        (parsedToolCalls renamingLibraries renamingSettings.tools (fun _ => some renamingHook)
          misspelledResult.content) = true := by decide +kernel
    exact absurd (hPanics.symm.trans hOrder.hNoPanic) (by decide)
  · intro hOrder
    have hFirst : (generateTextFrom renamingSettings "call" textOutput renamingAnswers repeatedResult
        (parsedToolCalls renamingLibraries renamingSettings.tools (fun _ => none)
          repeatedResult.content)).toOption.map
        (fun generated => (generated.content.filterMap toolCallPart).map (·.toolName)) =
          some ["search", "search"] := by decide +kernel
    have hParsed : (parsedToolCalls renamingLibraries renamingSettings.tools (fun _ => none)
        repeatedResult.content).map (·.toolName) = ["search", "lookup"] := by decide +kernel
    cases hRun : generateTextFrom renamingSettings "call" textOutput renamingAnswers repeatedResult
        (parsedToolCalls renamingLibraries renamingSettings.tools (fun _ => none)
          repeatedResult.content) with
    | error error =>
      rw [hRun] at hFirst
      cases hFirst
    | ok generated =>
      rw [hRun] at hFirst
      have hNames : (generated.content.filterMap toolCallPart).map (·.toolName) = ["search", "search"] :=
        Option.some.inj hFirst
      rw [hOrder.hParts generated hRun] at hNames
      exact absurd (hNames.symm.trans hParsed) (by decide)

end Aimux.Core
