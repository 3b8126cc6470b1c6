import Aimux.Core.MessageReplay

/-! # Streaming and generating agree

A provider content streamed in any way, read under any schedule and consumed, has the response
messages that generating the same content has.
-/

namespace Aimux.Core

open StreamTextResult (recordPart Consumed)

/-! ## Blocks in the reader -/

variable {piece : GenerateContent}

namespace StreamReader

abbrev emitted (settings : CallSettings) (answers : Answers) (reader : StreamReader) (part : StreamPart) :
    List TextStreamPart :=
  ((reader.openStep settings part).1.transform settings answers part).2

def isActive (reader : StreamReader) : BlockKind × String → Prop
  | (.text, id) => id ∈ reader.activeText
  | (.reasoning, id) => id ∈ reader.activeReasoning

section Transform

variable (settings : CallSettings) (answers : Answers) (reader : StreamReader) (kind : BlockKind)
  (id delta : String) (metadata : Option ProviderMetadata)

@[simp] theorem isActive_openStep (part : StreamPart) :
    (reader.openStep settings part).1.isActive = reader.isActive := by
  cases part <;> rfl

@[simp] theorem toolCalls_openStep (part : StreamPart) :
    (reader.openStep settings part).1.toolCalls = reader.toolCalls := by
  cases part <;> rfl

theorem emits_start :
    (reader.transform settings answers (kind.startPart id metadata)).2 = [kind.startOut id metadata] := by
  cases kind <;> rfl

theorem isActive_start (key : BlockKind × String) (hKey : key = (kind, id) ∨ reader.isActive key) :
    (reader.transform settings answers (kind.startPart id metadata)).1.isActive key := by
  obtain ⟨other, otherId⟩ := key
  cases kind <;> cases other <;> simp_all [transform, BlockKind.startPart, forward, isActive]

variable {reader kind id} in
theorem transform_delta (hActive : reader.isActive (kind, id)) :
    reader.transform settings answers (kind.deltaPart id delta metadata) =
      (reader, if kind = .text ∧ delta = "" ∧ metadata = none then [] else [kind.deltaOut id delta metadata]) := by
  cases kind with
  | text =>
    simp only [isActive] at hActive
    simp only [BlockKind.deltaPart, transform, forward, hActive, Option.isNone_iff_eq_none, true_and, if_true]
    split <;> rfl
  | reasoning =>
    simp only [isActive] at hActive
    simp [BlockKind.deltaPart, transform, forward, hActive, BlockKind.deltaOut]

variable {reader kind id} in
theorem emits_end (hActive : reader.isActive (kind, id)) :
    (reader.transform settings answers (kind.endPart id metadata)).2 = [kind.endOut id metadata] := by
  cases kind <;> simp only [isActive] at hActive <;>
    simp [BlockKind.endPart, transform, forward, hActive, BlockKind.endOut]

theorem isActive_end (key : BlockKind × String) (hKey : key ≠ (kind, id)) (hActive : reader.isActive key) :
    (reader.transform settings answers (kind.endPart id metadata)).1.isActive key := by
  obtain ⟨other, otherId⟩ := key
  cases kind <;> cases other <;> simp_all [transform, BlockKind.endPart, forward, isActive]

variable {part : StreamPart}

theorem isActive_whole (hWhole : wholePart piece = some part) :
    (reader.transform settings answers part).1.isActive = reader.isActive := by
  cases piece <;> cases hWhole <;> rfl

theorem toolCalls_transform (hPart : ∀ raw, part ≠ .toolCall raw) :
    (reader.transform settings answers part).1.toolCalls = reader.toolCalls := by
  cases part with
  | toolCall raw => exact absurd rfl (hPart raw)
  | textDelta id delta metadata =>
    simp only [transform]
    split <;> rfl
  | finish finishReason usage metadata =>
    simp only [transform, onFinish]
    split <;> rfl
  | _ => rfl

theorem isActive_aside (hAside : isAside part = true) :
    (reader.transform settings answers part).1.isActive = reader.isActive := by
  cases part <;> first | rfl | cases hAside

theorem role_aside (hAside : isAside part = true) :
    ∀ out ∈ (reader.transform settings answers part).2, out.role = .content := by
  cases part <;> first | (simp [transform, forward, TextStreamPart.role]; done) | cases hAside

theorem record_aside (hAside : isAside part = true) (rm : ResponseMessageBuilder) :
    (reader.transform settings answers part).2.foldl recordPart rm = rm := by
  cases part <;> first | rfl | cases hAside

theorem toolCalls_onPart (hPart : ∀ raw, part ≠ .toolCall raw) :
    (reader.onPart settings answers part).1.toolCalls = reader.toolCalls := by
  rw [onPart, toolCalls_transform settings answers _ hPart, toolCalls_openStep]

end Transform

end StreamReader

/-! ## Consuming what the reader emits -/

/-- Nothing was recorded yet but the content of the running step. -/
structure Consumed.Running (state : Consumed) : Prop where
  noStep : state.steps = []
  noError : state.firstError = none

variable {part : StreamPart}

section Consume

variable (result : StreamTextResult) {settings : CallSettings} {answers : Answers} {reader : StreamReader}
  {state : Consumed}

theorem consumeItems_content {parts : List TextStreamPart} (hParts : ∀ part ∈ parts, part.role = .content)
    (tail : List StreamItem) :
    result.consumeItems state (parts.map .ok ++ tail) =
      result.consumeItems { state with rm := parts.foldl recordPart state.rm } tail := by
  induction parts generalizing state with
  | nil => rfl
  | cons part rest ih =>
    rw [List.map_cons, List.cons_append, StreamTextResult.consumeItems,
      StreamTextResult.consumePart_content result state (hParts part List.mem_cons_self)]
    exact ih fun other hOther => hParts other (List.mem_cons_of_mem _ hOther)

theorem consumeItems_openStep (hRunning : Consumed.Running state)
    (hUnopened : reader.step.started = false → state.rm = {}) (part : StreamPart) :
    ∃ opened, Consumed.Running opened ∧ opened.rm = state.rm ∧ ∀ tail,
      result.consumeItems state ((reader.openStep settings part).2.map .ok ++ tail) =
        result.consumeItems opened tail := by
  have hEmitted : (reader.openStep settings part).2 = [] ∨
      reader.step.started = false ∧
        (reader.openStep settings part).2 = [.startStep settings.request reader.step.warnings] := by
    cases hStarted : reader.step.started <;> cases part <;> simp [StreamReader.openStep, hStarted]
  rcases hEmitted with hNone | ⟨hFirst, hStart⟩
  · exact ⟨state, hRunning, rfl, by simp [hNone]⟩
  · refine ⟨{ state with rm := {}, request := settings.request, warnings := reader.step.warnings },
      ⟨hRunning.noStep, hRunning.noError⟩, (hUnopened hFirst).symm, ?_⟩
    rw [hStart]
    exact fun _ => rfl

theorem consumeItems_onPart (hRunning : Consumed.Running state)
    (hUnopened : reader.step.started = false → state.rm = {})
    (hContent : ∀ out ∈ reader.emitted settings answers part, out.role = .content) :
    ∃ next, Consumed.Running next ∧
      next.rm = (reader.emitted settings answers part).foldl recordPart state.rm ∧
      ∀ tail, result.consumeItems state ((reader.onPart settings answers part).2.map .ok ++ tail) =
        result.consumeItems next tail := by
  obtain ⟨opened, hOpened, hRm, hConsumed⟩ := consumeItems_openStep result hRunning hUnopened part
  refine ⟨{ opened with rm := (reader.emitted settings answers part).foldl recordPart opened.rm },
    ⟨hOpened.noStep, hOpened.noError⟩, by rw [hRm], fun tail => ?_⟩
  rw [StreamReader.onPart, List.map_append, List.append_assoc, hConsumed]
  exact consumeItems_content result hContent tail

end Consume

/-! ## Reading a rendered content -/

structure Reading (blocks : OpenBlocks) (expected : List ContentPart) (reader : StreamReader)
    (rm : ResponseMessageBuilder) : Prop where
  builds : Builds blocks expected rm
  active : ∀ key block, blocks key = some block → reader.isActive key
  unopened : reader.step.started = false → rm = {}

namespace Reading

variable (settings : CallSettings) (answers : Answers) {blocks : OpenBlocks} {expected : List ContentPart}
  {reader : StreamReader} {rm : ResponseMessageBuilder} {kind : BlockKind} {id : String}

section

variable (h : Reading blocks expected reader rm)

include h

theorem start (rest : String) (metadata final : Option ProviderMetadata) (hFresh : blocks (kind, id) = none) :
    Reading (Function.update blocks (kind, id) (some { rest, metadata, final }))
      (expected ++ [kind.part rest final])
      (reader.onPart settings answers (kind.startPart id metadata)).1
      ((reader.emitted settings answers (kind.startPart id metadata)).foldl recordPart rm) := by
  constructor
  case builds =>
    rw [StreamReader.emitted, StreamReader.emits_start]
    exact h.builds.start rest metadata final hFresh
  case active =>
    intro key block hBlock
    refine StreamReader.isActive_start settings answers _ kind id metadata key ?_
    rw [StreamReader.isActive_openStep]
    by_cases hKey : key = (kind, id)
    · exact .inl hKey
    · rw [Function.update_of_ne hKey] at hBlock
      exact .inr (h.active key block hBlock)
  case unopened =>
    intro hStarted
    rw [onPart_started settings answers reader (by cases kind <;> simp [BlockKind.startPart])]
      at hStarted
    cases hStarted

theorem delta {delta rest : String} {block : OpenBlock} (metadata : Option ProviderMetadata)
    (hBlock : blocks (kind, id) = some block) (hSplit : block.rest = delta ++ rest) :
    Reading (Function.update blocks (kind, id)
        (some { block with rest, metadata := metadata <|> block.metadata })) expected
      (reader.onPart settings answers (kind.deltaPart id delta metadata)).1
      ((reader.emitted settings answers (kind.deltaPart id delta metadata)).foldl recordPart rm) := by
  have hActive : (reader.openStep settings (kind.deltaPart id delta metadata)).1.isActive (kind, id) := by
    rw [StreamReader.isActive_openStep]
    exact h.active _ block hBlock
  have hTransform := StreamReader.transform_delta settings answers delta metadata hActive
  obtain ⟨index, sent, hSlot, hSent, _⟩ := h.builds.opened _ block hBlock
  constructor
  case builds =>
    rw [StreamReader.emitted, hTransform]
    split
    · rename_i hEmpty
      obtain ⟨rfl, rfl, rfl⟩ := hEmpty
      refine h.builds.delta hBlock hSplit hSlot ?_ rfl
      exact (BlockKind.modify_append_empty .text rm.content index).symm
    · exact h.builds.delta hBlock hSplit hSlot (content_record_delta delta metadata hSlot)
        (slot_record_delta rm kind id delta metadata)
  case active =>
    intro key other hOther
    rw [StreamReader.onPart, hTransform, StreamReader.isActive_openStep]
    by_cases hKey : key = (kind, id)
    · exact hKey ▸ h.active _ block hBlock
    · rw [Function.update_of_ne hKey] at hOther
      exact h.active key other hOther
  case unopened =>
    intro hStarted
    rw [onPart_started settings answers reader (by cases kind <;> simp [BlockKind.deltaPart])]
      at hStarted
    cases hStarted

theorem stop {block : OpenBlock} {metadata : Option ProviderMetadata} (hBlock : blocks (kind, id) = some block)
    (hSent : block.rest = "") (hFinal : (metadata <|> block.metadata) = block.final) :
    Reading (Function.update blocks (kind, id) none) expected
      (reader.onPart settings answers (kind.endPart id metadata)).1
      ((reader.emitted settings answers (kind.endPart id metadata)).foldl recordPart rm) := by
  have hActive : (reader.openStep settings (kind.endPart id metadata)).1.isActive (kind, id) := by
    rw [StreamReader.isActive_openStep]
    exact h.active _ block hBlock
  constructor
  case builds =>
    rw [StreamReader.emitted, StreamReader.emits_end settings answers metadata hActive]
    exact h.builds.stop hBlock hSent hFinal
  case active =>
    intro key other hOther
    by_cases hKey : key = (kind, id)
    · rw [hKey, Function.update_self] at hOther
      cases hOther
    · rw [Function.update_of_ne hKey] at hOther
      refine StreamReader.isActive_end settings answers _ kind id metadata key hKey ?_
      rw [StreamReader.isActive_openStep]
      exact h.active key other hOther
  case unopened =>
    intro hStarted
    rw [onPart_started settings answers reader (by cases kind <;> simp [BlockKind.endPart])]
      at hStarted
    cases hStarted

theorem whole (hWhole : wholePart piece = some part) {parts parts' : List ContentPart}
    (hHandled : Handled settings answers piece (reader.emitted settings answers part) parts parts') :
    Reading blocks (expected ++ parts) (reader.onPart settings answers part).1
      ((reader.emitted settings answers part).foldl recordPart rm) := by
  have hPart : ∀ warnings, part ≠ .streamStart warnings := by
    cases piece <;> cases hWhole <;> simp
  constructor
  case builds =>
    rw [hHandled.recorded]
    exact h.builds.push parts rfl rfl
  case active =>
    rw [StreamReader.onPart, StreamReader.isActive_whole settings answers _ hWhole,
      StreamReader.isActive_openStep]
    exact h.active
  case unopened =>
    intro hStarted
    rw [onPart_started settings answers reader hPart] at hStarted
    cases hStarted

theorem aside (hAside : isAside part = true) :
    Reading blocks expected (reader.onPart settings answers part).1
      ((reader.emitted settings answers part).foldl recordPart rm) := by
  have hRm : (reader.emitted settings answers part).foldl recordPart rm = rm :=
    StreamReader.record_aside settings answers _ hAside rm
  rw [hRm]
  constructor
  case builds => exact h.builds
  case active =>
    rw [StreamReader.onPart, StreamReader.isActive_aside settings answers _ hAside,
      StreamReader.isActive_openStep]
    exact h.active
  case unopened =>
    by_cases hPart : ∃ warnings, part = .streamStart warnings
    · obtain ⟨warnings, rfl⟩ := hPart
      exact h.unopened
    · intro hStarted
      rw [onPart_started settings answers reader fun warnings hEq => hPart ⟨warnings, hEq⟩]
        at hStarted
      cases hStarted

end

end Reading

section Read

variable {settings : CallSettings} {answers : Answers} {toolCalls : List ToolCall}
  {content : List GenerateContent} {items : List StreamPart} {blocks : OpenBlocks}

def contentErrors (settings : CallSettings) (answers : Answers) (content : List GenerateContent) :
    List TypedToolError :=
  content.flatMap (pieceErrors settings answers)

theorem contentErrors_keep (hPiece : rawToolCall piece = none) :
    contentErrors settings answers (piece :: content) = contentErrors settings answers content := by
  simp [contentErrors, pieceErrors, hPiece]

variable {reader : StreamReader}

theorem Calls.whole (hRepair : answers.repairToolCall = none) (hWhole : wholePart piece = some part)
    (h : Calls settings answers toolCalls reader.toolCalls (piece :: content)) :
    Calls settings answers toolCalls (reader.onPart settings answers part).1.toolCalls content := by
  cases piece with
  | text text metadata => cases hWhole
  | reasoning reasoning => cases hWhole
  | toolCall raw =>
    cases hWhole
    exact h.push hRepair
  | _ =>
    cases hWhole
    exact h.keep rfl

theorem convertPart_block (kind : BlockKind) (text : String) (metadata : Option ProviderMetadata)
    (rm : ResponseMessageBuilder) :
    convertPart settings answers toolCalls rm (kind.content text metadata) =
      .ok (rm.push (kind.part text metadata)) := by
  cases kind <;> rfl

theorem replays_block (libraries : Libraries) (kind : BlockKind) (text : String) (metadata : Option ProviderMetadata) :
    Replays libraries [kind.part text metadata] [kind.part text metadata] [] := by
  cases kind <;> exact .single rfl rfl rfl rfl

theorem rawToolCall_block (kind : BlockKind) (text : String) (metadata : Option ProviderMetadata) :
    rawToolCall (kind.content text metadata) = none := by
  cases kind <;> rfl

theorem convertParts_cons {rm rm' : ResponseMessageBuilder}
    (hConvert : convertParts settings answers toolCalls rm (piece :: content) = .ok rm') :
    ∃ next, convertPart settings answers toolCalls rm piece = .ok next ∧
      convertParts settings answers toolCalls next content = .ok rm' := by
  simp only [convertParts] at hConvert
  split at hConvert
  · rename_i next hPiece
    exact ⟨next, hPiece, hConvert⟩
  · cases hConvert

/-- Consuming what is emitted for `items` leaves a content that replays like `generated`. -/
def ReadsTo (result : StreamTextResult) (settings : CallSettings) (answers : Answers)
    (toolCalls : List ToolCall) (generated : List ContentPart) (errors : List TypedToolError)
    (items : List StreamPart) (reader : StreamReader) (state : Consumed) : Prop :=
  ∃ reader' state', Consumed.Running state' ∧ (reader'.step.started = false → state'.rm = {}) ∧
    Calls settings answers toolCalls reader'.toolCalls [] ∧
    Replays settings.libraries state'.rm.content generated errors ∧
    ∀ tail, result.consumeItems state (readAll settings answers reader (items.map .ok ++ tail)) =
      result.consumeItems state' (readAll settings answers reader' tail)

variable {state : Consumed}

theorem ReadsTo.cons {result : StreamTextResult} {generated : List ContentPart} {errors : List TypedToolError}
    (hRunning : Consumed.Running state) (hUnopened : reader.step.started = false → state.rm = {})
    (hContent : ∀ out ∈ reader.emitted settings answers part, out.role = .content)
    (hNext : ∀ next, Consumed.Running next →
      next.rm = (reader.emitted settings answers part).foldl recordPart state.rm →
      ReadsTo result settings answers toolCalls generated errors items
        (reader.onPart settings answers part).1 next) :
    ReadsTo result settings answers toolCalls generated errors (part :: items) reader state := by
  obtain ⟨next, hStillRunning, hRm, hConsumed⟩ := consumeItems_onPart result hRunning hUnopened hContent
  obtain ⟨reader', state', hRunning', hUnopened', hCalls, hReplays, hTail⟩ := hNext next hStillRunning hRm
  refine ⟨reader', state', hRunning', hUnopened', hCalls, hReplays, fun tail => ?_⟩
  rw [List.map_cons, List.cons_append, readAll, hConsumed]
  exact hTail tail

variable (result : StreamTextResult)

theorem Renders.read (hRepair : answers.repairToolCall = none) (hRenders : Renders blocks content items) :
    ∀ {expected : List ContentPart} {errors : List TypedToolError} {reader : StreamReader} {state : Consumed}
      {rm rm' : ResponseMessageBuilder},
      Reading blocks expected reader state.rm → Calls settings answers toolCalls reader.toolCalls content →
      Replays settings.libraries expected rm.content errors → Consumed.Running state →
      convertParts settings answers toolCalls rm content = .ok rm' →
      ReadsTo result settings answers toolCalls rm'.content
        (errors ++ contentErrors settings answers content) items reader state := by
  induction hRenders with
  | done hSettled =>
    intro expected errors reader state rm rm' hReading hCalls hReplays hRunning hConvert
    cases hConvert
    refine ⟨reader, state, hRunning, hReading.unopened, hCalls, ?_, fun _ => rfl⟩
    rw [hReading.builds.done hSettled, contentErrors, List.flatMap_nil, List.append_nil]
    exact hReplays
  | start kind id text metadata final hFresh hNext ih =>
    intro expected errors reader state rm rm' hReading hCalls hReplays hRunning hConvert
    obtain ⟨converted, hPiece, hRest⟩ := convertParts_cons hConvert
    rw [convertPart_block] at hPiece
    cases hPiece
    refine .cons hRunning hReading.unopened ?_ fun next hStillRunning hRm => ?_
    · rw [StreamReader.emitted, StreamReader.emits_start]
      simpa using kind.role_startOut id metadata
    · have hReading' := hReading.start settings answers text metadata final hFresh
      rw [← hRm] at hReading'
      have hCalls' := hCalls.keep (rawToolCall_block kind text final)
      rw [← StreamReader.toolCalls_onPart settings answers reader (kind.startPart_ne_toolCall id metadata)]
        at hCalls'
      have hReplays' := hReplays.append (replays_block settings.libraries kind text final)
      rw [List.append_nil] at hReplays'
      rw [contentErrors_keep (rawToolCall_block kind text final)]
      exact ih hReading' hCalls' hReplays' hStillRunning hRest
  | delta kind id delta rest metadata block hBlock hSplit hNext ih =>
    intro expected errors reader state rm rm' hReading hCalls hReplays hRunning hConvert
    refine .cons hRunning hReading.unopened ?_ fun next hStillRunning hRm => ?_
    · rw [StreamReader.emitted, StreamReader.transform_delta settings answers delta metadata
        (by rw [StreamReader.isActive_openStep]; exact hReading.active _ block hBlock)]
      split
      · simp
      · simpa using kind.role_deltaOut id delta metadata
    · have hReading' := hReading.delta settings answers metadata hBlock hSplit
      rw [← hRm] at hReading'
      rw [← StreamReader.toolCalls_onPart settings answers reader
        (kind.deltaPart_ne_toolCall id delta metadata)] at hCalls
      exact ih hReading' hCalls hReplays hStillRunning hConvert
  | stop kind id metadata block hBlock hSent hSettled hNext ih =>
    intro expected errors reader state rm rm' hReading hCalls hReplays hRunning hConvert
    refine .cons hRunning hReading.unopened ?_ fun next hStillRunning hRm => ?_
    · rw [StreamReader.emitted, StreamReader.emits_end settings answers metadata
        (by rw [StreamReader.isActive_openStep]; exact hReading.active _ block hBlock)]
      simpa using kind.role_endOut id metadata
    · have hReading' := hReading.stop settings answers hBlock hSent hSettled
      rw [← hRm] at hReading'
      rw [← StreamReader.toolCalls_onPart settings answers reader (kind.endPart_ne_toolCall id metadata)]
        at hCalls
      exact ih hReading' hCalls hReplays hStillRunning hConvert
  | whole part piece hSent hNext ih =>
    intro expected errors reader state rm rm' hReading hCalls hReplays hRunning hConvert
    obtain ⟨converted, hPiece, hRest⟩ := convertParts_cons hConvert
    have hOpened := hCalls
    rw [← StreamReader.toolCalls_openStep settings reader part] at hOpened
    obtain ⟨parts, parts', hHandled, hContent⟩ := Handled.whole hSent hOpened hPiece
    refine .cons hRunning hReading.unopened hHandled.content fun next hStillRunning hRm => ?_
    have hReading' := hReading.whole settings answers hSent hHandled
    rw [← hRm] at hReading'
    have hReplays' := hReplays.append hHandled.replays
    rw [← hContent] at hReplays'
    rw [contentErrors, List.flatMap_cons, ← List.append_assoc]
    exact ih hReading' (hCalls.whole hRepair hSent) hReplays' hStillRunning hRest
  | aside part hSilent hNext ih =>
    intro expected errors reader state rm rm' hReading hCalls hReplays hRunning hConvert
    refine .cons hRunning hReading.unopened (StreamReader.role_aside settings answers _ hSilent)
      fun next hStillRunning hRm => ?_
    have hReading' := hReading.aside settings answers hSilent
    rw [← hRm] at hReading'
    rw [← StreamReader.toolCalls_onPart settings answers reader (aside_ne_toolCall hSilent)] at hCalls
    exact ih hReading' hCalls hReplays hStillRunning hConvert

theorem Renders.upToTerminal (hRenders : Renders blocks content items) {finish : ProviderItem}
    (hFinish : isTerminalItem finish = true) (more : List ProviderItem) :
    upToTerminal (items.map .ok ++ finish :: more) = items.map .ok ++ [finish] := by
  have hItem (part : StreamPart) (rest : List StreamPart) (hPart : isTerminalItem (.ok part) = false)
      (hRest : Core.upToTerminal (rest.map .ok ++ finish :: more) = rest.map .ok ++ [finish]) :
      Core.upToTerminal ((part :: rest).map .ok ++ finish :: more) = (part :: rest).map .ok ++ [finish] := by
    rw [List.map_cons, List.cons_append, Core.upToTerminal, if_neg (by simp [hPart]), hRest]
    rfl
  induction hRenders with
  | done hSettled => simp [Core.upToTerminal, hFinish]
  | start kind id text metadata final hFresh hNext ih => exact hItem _ _ (by cases kind <;> rfl) ih
  | delta kind id delta rest metadata block hBlock hSplit hNext ih =>
    exact hItem _ _ (by cases kind <;> rfl) ih
  | stop kind id metadata block hBlock hSent hSettled hNext ih => exact hItem _ _ (by cases kind <;> rfl) ih
  | whole part piece hSent hNext ih =>
    refine hItem _ _ ?_ ih
    cases piece <;> cases hSent <;> rfl
  | aside part hSilent hNext ih =>
    refine hItem _ _ ?_ ih
    cases part <;> first | rfl | cases hSilent

theorem toolChoiceViolationError_mono {toolChoice : Option LanguageModelV4ToolChoice}
    {toolNames toolNames' : List String} {finishReason finishReason' : FinishReasonUnified}
    {provider modelId provider' modelId' : String} {content content' : List GenerateContent}
    (hNames : toolNames ⊆ toolNames')
    (h : toolChoiceViolationError toolChoice toolNames finishReason provider modelId content = none) :
    toolChoiceViolationError toolChoice toolNames' finishReason' provider' modelId' content' = none := by
  rcases toolChoice with _ | _ | _ | _ | toolName
  · rfl
  · rfl
  · rfl
  · cases toolNames with
    | nil => cases h
    | cons name rest =>
      cases toolNames' with
      | nil => exact absurd (hNames List.mem_cons_self) List.not_mem_nil
      | cons name' rest' => rfl
  · simp only [toolChoiceViolationError] at h ⊢
    split at h
    · rename_i hCalled
      obtain ⟨name, hName, hSame⟩ := List.any_eq_true.mp hCalled
      exact if_pos (List.any_eq_true.mpr ⟨name, hNames hName, hSame⟩)
    · cases h

theorem consumeItems_intoParts (hRunning : Consumed.Running state) (step : StreamStep) (headers : Option Headers)
    (now : Int) :
    ∃ streamed, result.consumeItems state ((step.intoParts headers now).map .ok) = .ok streamed ∧
      streamed.firstError = none ∧ ∃ recorded, streamed.steps = [recorded] ∧
        recorded.response.messages = (state.rm.finish result.libraries).messages := by
  refine ⟨_, rfl, hRunning.noError, ?_⟩
  exact ⟨_, congrArg (· ++ [_]) hRunning.noStep, rfl⟩

theorem read_finish (settings : CallSettings) (answers : Answers) (finishReason : FinishReason) (usage : Usage)
    (metadata : Option ProviderMetadata) (hRunning : Consumed.Running state)
    (hUnopened : reader.step.started = false → state.rm = {})
    (hChoice : ∀ finishReason content, toolChoiceViolationError settings.toolChoice
      (reader.toolCalls.map (·.2.toolName)) finishReason settings.provider settings.modelId content = none) :
    ∃ streamed, (result.consumeItems state
        (readAll settings answers reader [.ok (.finish finishReason usage metadata)])) = .ok streamed ∧
      streamed.firstError = none ∧ ∃ step, streamed.steps = [step] ∧
        step.response.messages = (state.rm.finish result.libraries).messages := by
  have hEmitted : reader.emitted settings answers (.finish finishReason usage metadata) = [] := by
    simp [StreamReader.emitted, StreamReader.transform, StreamReader.onFinish, hChoice]
  have hContent : ∀ out ∈ reader.emitted settings answers (.finish finishReason usage metadata),
      out.role = .content := by
    rw [hEmitted]
    exact fun _ hOut => absurd hOut List.not_mem_nil
  obtain ⟨next, hStillRunning, hRm, hConsumed⟩ := consumeItems_onPart result hRunning hUnopened hContent
  rw [hEmitted] at hRm
  have hTerminal : (reader.onPart settings answers (.finish finishReason usage metadata)).1.step.terminal =
      true := by
    simp [StreamReader.onPart, StreamReader.transform, StreamReader.onFinish, hChoice, StreamStep.finish]
  rw [readAll, hConsumed, readAll, StreamReader.close, hTerminal, Bool.true_or, if_pos rfl]
  rw [List.foldl_nil] at hRm
  rw [← hRm]
  exact consumeItems_intoParts result hStillRunning _ _ _

theorem consume_of_consumeItems {stream : List StreamItem} {recorded : StepResult}
    (hItems : result.consumeItems {} stream = .ok state) (hNoError : state.firstError = none)
    (hSteps : state.steps = [recorded]) :
    ∃ streamed, result.consume stream = .ok streamed ∧
      streamed.responseMessages = recorded.response.messages := by
  refine ⟨{
    steps := state.steps
    totalUsage := state.totalUsage.getD {}
    output := streamOutput recorded result.output }, ?_, ?_⟩
  · simp [StreamTextResult.consume, hItems, hNoError, hSteps]
  · simp [GenerateTextResult.responseMessages, hSteps]

end Read

/-! ## The generated messages -/

section Generate

variable {settings : CallSettings} {answers : Answers}

theorem generatedErrors_eq (hRepair : answers.repairToolCall = none) (content : List GenerateContent) :
    ((((content.filterMap rawToolCall).map (parsedCall settings answers)).filter
      fun call => call.dynamic = some true).filterMap (invalidToolCallError settings.libraries)) =
      contentErrors settings answers content := by
  induction content with
  | nil => rfl
  | cons piece rest ih =>
    cases hRaw : rawToolCall piece with
    | none =>
      rw [List.filterMap_cons_none hRaw, contentErrors_keep hRaw]
      exact ih
    | some raw =>
      have hPiece : pieceErrors settings answers piece =
          (invalidToolCallError settings.libraries (parsedCall settings answers raw)).toList := by
        simp [pieceErrors, hRaw]
      rw [List.filterMap_cons_some hRaw, List.map_cons, contentErrors, List.flatMap_cons, hPiece,
        ← contentErrors, ← ih, List.filter_cons]
      cases hError : invalidToolCallError settings.libraries (parsedCall settings answers raw) with
      | none =>
        split
        · rw [List.filterMap_cons_none hError]
          rfl
        · rfl
      | some error =>
        have hDynamic : (parsedCall settings answers raw).dynamic = some true := by
          rw [parsedCall, hRepair] at hError ⊢
          exact dynamic_of_invalidToolCallError settings.libraries settings.tools raw hError
        rw [if_pos (decide_eq_true hDynamic), List.filterMap_cons_some hError]
        rfl

theorem convertGeneratedContent_inv {toolCalls : List ToolCall} {content : List GenerateContent}
    {converted : ResponseMessages}
    (h : convertGeneratedContent settings answers toolCalls content = .ok converted) :
    ∃ rm, convertParts settings answers toolCalls {} content = .ok rm ∧
      converted = ((((toolCalls.filter fun call => call.dynamic = some true).filterMap
        (invalidToolCallError settings.libraries)).foldl
          (fun rm error => rm.push (.toolError error)) rm).finish settings.libraries) := by
  unfold convertGeneratedContent at h
  split at h
  · cases h
  · rename_i rm hConvert
    cases h
    exact ⟨rm, hConvert, rfl⟩

theorem generateStep_inv {callId : String} {generated : GenerateResult} {step : StepResult}
    (h : generateStep settings callId answers generated = .ok step) :
    toolChoiceViolationError settings.toolChoice
        (((generated.content.filterMap rawToolCall).map (parsedCall settings answers)).map (·.toolName))
        generated.finishReason.unified settings.provider settings.modelId generated.content = none ∧
      ∃ converted, convertGeneratedContent settings answers
          ((generated.content.filterMap rawToolCall).map (parsedCall settings answers)) generated.content =
            .ok converted ∧
        step.response.messages = converted.messages := by
  simp only [generateStep] at h
  split at h
  · cases h
  · rename_i hChoice
    split at h
    · cases h
    · rename_i converted hConvert
      cases h
      exact ⟨hChoice, converted, hConvert, rfl⟩

theorem generateText_inv {callId : String} {output : OutputParser} {generated : GenerateResult}
    {text : GenerateTextResult} (hRepair : answers.repairToolCall = none)
    (h : generateText settings callId output answers generated = .ok text) :
    ∃ rm, convertParts settings answers
        ((generated.content.filterMap rawToolCall).map (parsedCall settings answers)) {} generated.content =
          .ok rm ∧
      toolChoiceViolationError settings.toolChoice
        (((generated.content.filterMap rawToolCall).map (parsedCall settings answers)).map (·.toolName))
        generated.finishReason.unified settings.provider settings.modelId generated.content = none ∧
      text.responseMessages = (((contentErrors settings answers generated.content).foldl
        (fun rm error => rm.push (.toolError error)) rm).finish settings.libraries).messages := by
  unfold generateText at h
  split at h
  · cases h
  · rename_i step hStep
    split at h
    · cases h
    · cases h
      obtain ⟨hChoice, converted, hConverted, hMessages⟩ := generateStep_inv hStep
      obtain ⟨rm, hConvert, rfl⟩ := convertGeneratedContent_inv hConverted
      rw [generatedErrors_eq hRepair] at hMessages
      exact ⟨rm, hConvert, hChoice, hMessages⟩

end Generate

namespace StreamText

/-- For every content, every way to stream it and every calm schedule: the run can be completed, and once
it has, consuming the stream gives the messages of the generated text. -/
theorem run_consumes_to_generated (settings : CallSettings) (answers : Answers) (generated : GenerateResult)
    (items : List StreamPart) (finishReason : FinishReason) (usage : Usage)
    (metadata : Option ProviderMetadata) (more : List ProviderItem) (schedule : List Action)
    (callId : String) (model : StepModel) (output : OutputParser) (text : GenerateTextResult)
    (hRepair : answers.repairToolCall = none) (hOrderly : Orderly generated.content)
    (hRenders : Renders (fun _ => none) generated.content items)
    (hGenerated : generateText settings callId output answers generated = .ok text)
    (hCalm : ∀ action ∈ schedule, Calm answers action) :
    let provider := items.map .ok ++ .ok (.finish finishReason usage metadata) :: more
    let run := Lib.Transducer.run step (start settings provider none none none)
    (∃ rest, (∀ action ∈ rest, Calm answers action) ∧ (run (schedule ++ rest)).1.phase = .ended) ∧
    ((run schedule).1.phase = .ended → ∃ streamed,
      StreamTextResult.consume { libraries := settings.libraries, callId, model, output } (run schedule).2 =
        .ok streamed ∧
      streamed.responseMessages = text.responseMessages) := by
  intro provider run
  refine ⟨run_completes settings answers provider schedule hCalm, fun hEnded => ?_⟩
  obtain ⟨rm, hConvert, hChoice, hMessages⟩ := generateText_inv hRepair hGenerated
  let result : StreamTextResult := { libraries := settings.libraries, callId, model, output }
  have hReading : Reading (fun _ => none) [] (start settings provider none none none).reader {} :=
    ⟨Builds.empty, by simp, fun _ => rfl⟩
  have hRunning : Consumed.Running {} := ⟨rfl, rfl⟩
  obtain ⟨reader', state', hRunning', hUnopened, hCalls, hReplays, hRead⟩ :=
    hRenders.read result hRepair hReading (Calls.start hRepair hOrderly) Replays.nil hRunning hConvert
  have hNames : ((generated.content.filterMap rawToolCall).map (parsedCall settings answers)).map (·.toolName) ⊆
      reader'.toolCalls.map (·.2.toolName) := by
    intro name hName
    obtain ⟨call, hCall, rfl⟩ := List.mem_map.mp hName
    rcases hCalls.seenOrComing call hCall with hSeen | ⟨raw, hRaw, _⟩
    · exact List.mem_map.mpr ⟨_, hSeen, rfl⟩
    · cases hRaw
  obtain ⟨streamed, hConsumed, hNoError, recorded, hSteps, hRecorded⟩ :=
    read_finish result settings answers finishReason usage metadata hRunning' hUnopened
      fun _ _ => toolChoiceViolationError_mono hNames hChoice
  have hHistory : (run schedule).2 = .ok .start :: readAll settings answers
      (start settings provider none none none).reader
        (items.map .ok ++ [Except.ok (StreamPart.finish finishReason usage metadata)]) := by
    rw [← hRenders.upToTerminal rfl more]
    exact run_undisturbed settings answers provider schedule hCalm hEnded
  have hItems : result.consumeItems {} (run schedule).2 = .ok streamed := by
    rw [hHistory]
    exact (hRead _).trans hConsumed
  obtain ⟨consumed, hResult, hConsumedMessages⟩ := consume_of_consumeItems result hItems hNoError hSteps
  refine ⟨consumed, hResult, ?_⟩
  rw [List.nil_append] at hReplays
  calc
    consumed.responseMessages = (state'.rm.finish settings.libraries).messages :=
      hConsumedMessages.trans hRecorded
    _ = _ := hReplays.messages
    _ = text.responseMessages := hMessages.symm

/-! ## A tool the provider runs -/

def searchLibraries : Libraries where
  parseInputText _ := .error (.mk "EOF while parsing a value at line 1 column 0" none)
  validatorFor _ := .ok fun _ => .ok ()
  jsonText _ := "null"
  errorText _ := "unknown error"
  encodeBase64 _ := ""
  sameNumber _ _ := false

def searchSettings : CallSettings where
  libraries := searchLibraries
  provider := "openai.responses"
  modelId := "gpt"

def searchAnswers : Answers where
  download url := .error (.other ("no response from " ++ url) none)

def searchCall : RawToolCall where
  toolCallId := "call"
  toolName := "search"
  input := ""
  providerExecuted := some true
  dynamic := some true

def searchResult : ToolResult where
  toolCallId := "call"
  toolName := "search"
  result := .string "found"

def searchApproval : RawToolApprovalRequest where
  approvalId := "approval"
  toolCallId := "call"

def searchContent : List GenerateContent :=
  [.text "Hi!" none, .reasoning { text := "why" }, .toolCall searchCall, .toolResult searchResult,
    .toolApprovalRequest searchApproval]

def searchItems : List StreamPart :=
  [.textStart "0" none, .reasoningStart "0" none, .textDelta "0" "Hi" none, .toolCall searchCall,
    .reasoningDelta "0" "why" none, .textDelta "0" "!" none, .textEnd "0" none, .toolResult searchResult,
    .reasoningEnd "0" none, .toolApprovalRequest searchApproval]

theorem renders_search : Renders (fun _ => none) searchContent searchItems := by
  refine .start .text "0" "Hi!" none none rfl ?_
  refine .start .reasoning "0" "why" none none rfl ?_
  refine .delta .text "0" "Hi" "!" none _ rfl rfl ?_
  refine .whole _ _ rfl ?_
  refine .delta .reasoning "0" "why" "" none _ rfl rfl ?_
  refine .delta .text "0" "!" "" none _ rfl rfl ?_
  refine .stop .text "0" none _ rfl rfl rfl ?_
  refine .whole _ _ rfl ?_
  refine .stop .reasoning "0" none _ rfl rfl rfl ?_
  refine .whole _ _ rfl ?_
  refine .done fun key block hBlock => ?_
  simp only [Function.update_apply] at hBlock
  split at hBlock
  · cases hBlock
  · split at hBlock
    · cases hBlock
    · simp_all

theorem orderly_search : Orderly searchContent where
  distinct := List.nodup_singleton _
  approvals := by
    intro before request after hSplit
    rcases before with _ | ⟨first, _ | ⟨second, _ | ⟨third, _ | ⟨fourth, rest⟩⟩⟩⟩
    · cases hSplit
    · cases hSplit
    · cases hSplit
    · cases hSplit
    · simp only [searchContent, List.cons_append, List.cons.injEq] at hSplit
      obtain ⟨rfl, rfl, rfl, rfl, hRest⟩ := hSplit
      refine ⟨searchCall, by simp, ?_⟩
      rcases rest with _ | ⟨fifth, rest⟩
      · cases hRest
        rfl
      · simp at hRest
  results := by
    intro result hResult hError
    simp [searchContent, searchResult] at hResult
    subst hResult
    cases hError

def readThrough (items : Nat) : List Action :=
  List.replicate items (Action.providerNext true) ++ List.replicate (items + 2) (Action.next searchAnswers)

theorem calm_readThrough (items : Nat) : ∀ action ∈ readThrough items, Calm searchAnswers action := by
  intro action hAction
  rcases List.mem_append.mp hAction with hPump | hReader
  · rw [List.eq_of_mem_replicate hPump]
    trivial
  · rw [List.eq_of_mem_replicate hReader]
    rfl

def searchRun (items : List StreamPart) : StreamText × List StreamItem :=
  Lib.Transducer.run step
    (start searchSettings (items.map .ok ++ [Except.ok (StreamPart.finish ⟨.stop, none⟩ {} none)]) none none none)
    (readThrough (items.length + 1))

def searchConsumer : StreamTextResult where
  libraries := searchSettings.libraries
  callId := "id"
  model := { provider := "openai.responses", modelId := "gpt" }
  output := textOutput

theorem run_consumes_to_generated_search :
    (searchRun searchItems).1.phase = .ended ∧ ∃ text streamed,
      generateText searchSettings "id" textOutput searchAnswers
        { content := searchContent, finishReason := ⟨.stop, none⟩ } = .ok text ∧
      searchConsumer.consume (searchRun searchItems).2 = .ok streamed ∧
      streamed.responseMessages = text.responseMessages := by
  have hEnded : (searchRun searchItems).1.phase = .ended := by decide +kernel
  obtain ⟨text, hText⟩ : ∃ text, generateText searchSettings "id" textOutput searchAnswers
      { content := searchContent, finishReason := ⟨.stop, none⟩ } = .ok text := ⟨_, rfl⟩
  have hConsumes := run_consumes_to_generated searchSettings searchAnswers _ searchItems
    ⟨.stop, none⟩ {} none [] (readThrough (searchItems.length + 1)) "id"
    { provider := "openai.responses", modelId := "gpt" } textOutput text rfl orderly_search
    renders_search hText (calm_readThrough _)
  obtain ⟨streamed, hStreamed, hSame⟩ := hConsumes.2 hEnded
  exact ⟨hEnded, text, streamed, hText, hStreamed, hSame⟩

/-- An approval request ahead of its call is converted with the whole content at hand, and an error on a
stream. -/
theorem early_approval_ends_in_error :
    let content : List GenerateContent := [.toolApprovalRequest searchApproval, .toolCall searchCall]
    let items : List StreamPart := [.toolApprovalRequest searchApproval, .toolCall searchCall]
    ((content.filterMap rawToolCall).map (·.toolCallId)).Nodup ∧
    (∀ result, .toolResult result ∉ content) ∧
    Renders (fun _ => none) content items ∧
    (∀ action ∈ readThrough (items.length + 1), Calm searchAnswers action) ∧
    (searchRun items).1.phase = .ended ∧
    (∃ text, generateText searchSettings "id" textOutput searchAnswers
      { content, finishReason := ⟨.stop, none⟩ } = .ok text) ∧
    searchConsumer.consume (searchRun items).2 = .error (.toolCallNotFoundForApproval "call" "approval") := by
  refine ⟨List.nodup_singleton _, by simp, ?_, calm_readThrough _, by decide +kernel, ⟨_, rfl⟩, rfl⟩
  refine .whole _ _ rfl (.whole _ _ rfl (.done ?_))
  intro key block hBlock
  cases hBlock

end StreamText

end Aimux.Core
