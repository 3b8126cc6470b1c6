import Aimux.Responses.ToolInputs

/-! # The input that is streamed is the input of the call

The events of one code interpreter call or patch, and what they say.
-/

namespace Aimux.Responses

open Aimux.Core Aimux.Provider OpenAIResponsesStream
open Aimux.Lib (Transducer)

/-! ## Events of one item -/

/-- An event that passes the schema, of the item at the index. -/
structure IsEvent (kind : String) (index : Nat) (chunk : Json) : Prop where
  kind : chunk.getStr "type" = some kind
  valid : chunkSchemaError chunk = none
  index : outputIndex chunk = index

structure ItemEvent (kind : String) (index : Nat) (item chunk : Json) : Prop extends IsEvent kind index chunk where
  item : chunk.get "item" = some item

structure IsCodeItem (container : Json) (item : Json) : Prop where
  type : item.getStr "type" = some "code_interpreter_call"
  container : item.member "container_id" = container

structure IsPatchItem (callId operation path : String) (item : Json) : Prop where
  type : item.getStr "type" = some "apply_patch_call"
  callId : item.getStr "call_id" = some callId
  operation : (item.member "operation").getStr "type" = some operation
  path : (item.member "operation").getStr "path" = some path

def isCompleted (item : Json) : Bool := item.getStr "status" = some "completed"

/-- The texts of the deltas, one after the other. -/
def joined (deltas : List Json) : String := String.join (deltas.map (·.strOrEmpty "delta"))

/-- The events of a code interpreter call or of a patch at an index, with the id of its input, and whether it is called. -/
inductive InputEvents (index : Nat) : String → Bool → List Json → Prop
  | code {container : Option String} {item last added done : Json} {deltas : List Json}
    (hItem : IsCodeItem ((container.map .string).getD .null) item)
    (hAdded : ItemEvent "response.output_item.added" index item added)
    (hDeltas : ∀ delta ∈ deltas, IsEvent "response.code_interpreter_call_code.delta" index delta)
    {codeDone : Json} (hCode : IsEvent "response.code_interpreter_call_code.done" index codeDone)
    (hSplit : codeDone.getStr "code" = some (joined deltas))
    (hLast : last.getStr "type" = some "code_interpreter_call")
    (hDone : ItemEvent "response.output_item.done" index last done) :
    InputEvents index (callOrItemId item) true (added :: (deltas ++ [codeDone, done]))
  /-- Its code is never said to be done. -/
  | codeOpen {container : Option String} {item last added done : Json} {deltas : List Json}
    (hItem : IsCodeItem ((container.map .string).getD .null) item)
    (hAdded : ItemEvent "response.output_item.added" index item added)
    (hDeltas : ∀ delta ∈ deltas, IsEvent "response.code_interpreter_call_code.delta" index delta)
    (hLast : last.getStr "type" = some "code_interpreter_call")
    (hDone : ItemEvent "response.output_item.done" index last done) :
    InputEvents index (callOrItemId item) false (added :: (deltas ++ [done]))
  /-- The diff may come in deltas, at its end, or only with the item. -/
  | patch {callId operation path diff : String} (hOperation : operation = "create_file" ∨ operation = "update_file")
    {item last added done : Json} {deltas : List Json} {diffDone : Option Json}
    (hItem : IsPatchItem callId operation path item) (hAdded : ItemEvent "response.output_item.added" index item added)
    (hDeltas : ∀ delta ∈ deltas, IsEvent "response.apply_patch_call_operation_diff.delta" index delta)
    (hSplit : deltas = [] ∨ joined deltas = diff)
    (hDiff : ∀ event ∈ diffDone, IsEvent "response.apply_patch_call_operation_diff.done" index event ∧
      event.getStr "diff" = some diff)
    (hLast : IsPatchItem callId operation path last) (hWhole : (last.member "operation").getStr "diff" = some diff)
    (hDone : ItemEvent "response.output_item.done" index last done) :
    InputEvents index callId (isCompleted last) (added :: (deltas ++ (diffDone.toList ++ [done])))
  | deleted {callId path : String} {item last added done : Json}
    (hItem : IsPatchItem callId "delete_file" path item)
    (hAdded : ItemEvent "response.output_item.added" index item added)
    (hLast : IsPatchItem callId "delete_file" path last)
    (hDone : ItemEvent "response.output_item.done" index last done) :
    InputEvents index callId (isCompleted last) [added, done]

/-! ## What the handlers do with the item -/

/-- The item's input, while it is open. -/
structure OpenInput (index : Nat) (item : Json) (id : String) (received : Bool) (state : OpenAIResponsesStream) : Prop where
  names : callOrItemId item = id
  item : state.providerItems index = some item
  received : id ∈ state.diffReceived ↔ received = true
  ended : id ∉ state.endedInputs
  emitted : id ∉ state.emittedCalls

/-- Its input has ended; the call was not emitted yet. -/
structure EndedInput (id : String) (state : OpenAIResponsesStream) : Prop where
  ended : id ∈ state.endedInputs
  emitted : id ∉ state.emittedCalls

/-- Nothing of the id was heard. -/
structure Fresh (id : String) (state : OpenAIResponsesStream) : Prop where
  received : id ∉ state.diffReceived
  ended : id ∉ state.endedInputs
  emitted : id ∉ state.emittedCalls

theorem OfTools.of {property : OpenAIResponsesStream → Prop}
    (h : ∀ state, property state ↔ property state.tools) : OfTools property := by
  intro state other hTools hState
  rw [h, hTools]
  exact (h state).mp hState

theorem ofTools_openInput (index : Nat) (item : Json) (id : String) (received : Bool) :
    OfTools (OpenInput index item id received) :=
  .of fun _ => ⟨fun h => ⟨h.names, h.item, h.received, h.ended, h.emitted⟩,
    fun h => ⟨h.names, h.item, h.received, h.ended, h.emitted⟩⟩

theorem ofTools_endedInput (id : String) : OfTools (EndedInput id) :=
  .of fun _ => ⟨fun h => ⟨h.ended, h.emitted⟩, fun h => ⟨h.ended, h.emitted⟩⟩

theorem ofTools_fresh (id : String) : OfTools (Fresh id) :=
  .of fun _ => ⟨fun h => ⟨h.received, h.ended, h.emitted⟩, fun h => ⟨h.received, h.ended, h.emitted⟩⟩

variable {text : List Char} {diff : String}

section

variable {settings : ResponsesSettings} {index : Nat} {chunk : Json} {state : OpenAIResponsesStream} {id : String}

variable {kind : String}

/-- A step is what its handler does. -/
theorem IsEvent.step (hEvent : IsEvent kind index chunk) (after : OpenAIResponsesStream → Prop)
    {calls : List RawToolCall} (hAfter : after (state.handle settings chunk kind).1)
    (hSays : Says id (state.handle settings chunk kind).2 text calls) :
    after (state.transform settings (.ok chunk)).1 ∧ Says id (state.transform settings (.ok chunk)).2 text calls := by
  rw [transform_eq settings state hEvent.kind hEvent.valid]
  refine ⟨hAfter, hSays.after fun part hPart => ?_⟩
  obtain ⟨chunk, rfl⟩ := mem_rawParts hPart
  rfl

variable {item : Json} {type : String}

theorem handle_added (hAdded : ItemEvent "response.output_item.added" index item chunk)
    (hType : item.getStr "type" = some type)
    (hOther : type ∉ ["message", "function_call", "custom_tool_call", "reasoning"]) :
    state.handle settings chunk "response.output_item.added" = state.providerItemAdded settings index item := by
  show state.outputItemAdded settings chunk = _
  rw [outputItemAdded, hAdded.item, hAdded.index]
  dsimp only
  rw [Json.strOrEmpty_of_getStr hType]
  simp only [List.mem_cons, List.not_mem_nil, or_false, not_or] at hOther
  split <;> first | rfl | exact absurd rfl hOther.1 | exact absurd rfl hOther.2.1 | exact absurd rfl hOther.2.2.1 |
    exact absurd rfl hOther.2.2.2

theorem handle_done (hItem : chunk.get "item" = some item) (hType : item.getStr "type" = some type)
    (hOther : type ∉ ["message", "function_call", "custom_tool_call", "reasoning"]) :
    state.handle settings chunk "response.output_item.done" =
      state.providerItemDone settings (outputIndex chunk) item := by
  show state.outputItemDone settings chunk = _
  rw [outputItemDone, hItem]
  dsimp only
  rw [Json.strOrEmpty_of_getStr hType]
  simp only [List.mem_cons, List.not_mem_nil, or_false, not_or] at hOther
  split <;> first | rfl | exact absurd rfl hOther.1 | exact absurd rfl hOther.2.1 | exact absurd rfl hOther.2.2.1 |
    exact absurd rfl hOther.2.2.2

/-! ### The start -/

/-- What stands before the code. -/
def codePrefix (settings : ResponsesSettings) (container : Json) : String :=
  "\x7b\"containerId\":" ++ settings.ctx.toString container ++ ",\"code\":\""

/-- What stands before the diff. -/
def patchPrefix (settings : ResponsesSettings) (callId operation path : String) : String :=
  "\x7b\"callId\":" ++ settings.ctx.toString (.string callId) ++ ",\"operation\":\x7b\"type\":" ++
    settings.ctx.toString (.string operation) ++ ",\"path\":" ++ settings.ctx.toString (.string path) ++ ",\"diff\":\""

/-- The operation of a patch with these fields, in the order in which they are kept. -/
def operationOf (operation path : String) (diff : Option String) : Json :=
  .object ([("type", Json.string operation), ("path", .string path)] ++
    diff.toList.map fun diff => ("diff", Json.string diff))

/-- The input of the call of a patch. -/
def patchInput (callId operation path : String) (diff : Option String) : Json :=
  .object [("callId", .string callId), ("operation", operationOf operation path diff)]

variable {callId : String}

theorem callOrItemId_of (h : item.getStr "call_id" = some callId) :
    callOrItemId item = callId := by
  rw [callOrItemId, Json.filled, Json.get_of_getStr h]
  rfl

variable {container : Json}

theorem providerToolStart_code (settings : ResponsesSettings) (h : IsCodeItem container item) :
    ∃ name, providerToolStart settings.ctx settings.toolNames item =
      [.toolInputStart (callOrItemId item) name (some true) none none none,
        .toolInputDelta (callOrItemId item) (codePrefix settings container) none] := by
  refine ⟨settings.toolNames.toCustomToolName "code_interpreter", ?_⟩
  rw [providerToolStart, startedTool, Json.strOrEmpty_of_getStr h.type]
  dsimp only
  rw [h.container]
  rfl

variable {operation path : String}

theorem providerToolStart_patch (settings : ResponsesSettings) (h : IsPatchItem callId operation path item)
    (hOperation : operation = "create_file" ∨ operation = "update_file") :
    ∃ name, providerToolStart settings.ctx settings.toolNames item =
      [.toolInputStart callId name none none none none,
        .toolInputDelta callId (patchPrefix settings callId operation path) none] := by
  refine ⟨settings.toolNames.toCustomToolName "apply_patch", ?_⟩
  have hKept : ∃ more, applyPatchOperation (item.member "operation") =
      .object (("type", .string operation) :: ("path", .string path) :: more) := by
    rw [applyPatchOperation, h.operation, Json.member_of_getStr h.operation]
    rcases hOperation with rfl | rfl <;>
      exact ⟨_, by simp only [pick, List.filterMap_cons, Json.get_of_getStr h.path]; rfl⟩
  obtain ⟨more, hKept⟩ := hKept
  rw [providerToolStart, startedTool, Json.strOrEmpty_of_getStr h.type]
  dsimp only
  rw [hKept, callOrItemId_of h.callId]
  rcases hOperation with rfl | rfl <;> rfl

theorem providerToolStart_delete (settings : ResponsesSettings) (h : IsPatchItem callId "delete_file" path item) :
    ∃ name, providerToolStart settings.ctx settings.toolNames item =
      [.toolInputStart callId name none none none none,
        .toolInputDelta callId (settings.ctx.toString (patchInput callId "delete_file" path none)) none,
        .toolInputEnd callId none] := by
  refine ⟨settings.toolNames.toCustomToolName "apply_patch", ?_⟩
  have hKept : applyPatchOperation (item.member "operation") = operationOf "delete_file" path none := by
    rw [applyPatchOperation, h.operation, Json.member_of_getStr h.operation]
    simp only [pick, List.filterMap_cons, Json.get_of_getStr h.path]
    rfl
  rw [providerToolStart, startedTool, Json.strOrEmpty_of_getStr h.type]
  dsimp only
  rw [hKept, callOrItemId_of h.callId]
  rfl

theorem says_input {name : String} {hosted : Option Bool} {delta : String} :
    Says id [.toolInputStart id name hosted none none none, .toolInputDelta id delta none] delta.toList [] where
  text := by simp [inputText]
  calls := rfl

variable {added : Json}

theorem step_code (hItem : IsCodeItem container item) (hAdded : ItemEvent "response.output_item.added" index item added)
    (hFresh : Fresh (callOrItemId item) state) :
    OpenInput index item (callOrItemId item) false (state.transform settings (.ok added)).1 ∧
      Says (callOrItemId item) (state.transform settings (.ok added)).2 (codePrefix settings container).toList [] := by
  obtain ⟨name, hStart⟩ := providerToolStart_code settings hItem
  refine hAdded.step _ ?_ ?_
  · rw [handle_added hAdded hItem.type (by decide), providerItemAdded, hStart]
    exact {
      names := rfl
      item := Function.update_self ..
      received := ⟨fun h => absurd h hFresh.received, fun h => nomatch h⟩
      ended := by simpa [endedParts] using hFresh.ended
      emitted := by simpa [startedCalls] using hFresh.emitted }
  · rw [handle_added hAdded hItem.type (by decide), providerItemAdded, hStart]
    exact says_input

theorem step_patch (hItem : IsPatchItem id operation path item)
    (hOperation : operation = "create_file" ∨ operation = "update_file")
    (hAdded : ItemEvent "response.output_item.added" index item added) (hFresh : Fresh id state) :
    OpenInput index item id false (state.transform settings (.ok added)).1 ∧
      Says id (state.transform settings (.ok added)).2 (patchPrefix settings id operation path).toList [] := by
  obtain ⟨name, hStart⟩ := providerToolStart_patch settings hItem hOperation
  refine hAdded.step _ ?_ ?_
  · rw [handle_added hAdded hItem.type (by decide), providerItemAdded, hStart]
    exact {
      names := callOrItemId_of hItem.callId
      item := Function.update_self ..
      received := ⟨fun h => absurd h hFresh.received, fun h => nomatch h⟩
      ended := by simpa [endedParts] using hFresh.ended
      emitted := by simpa [startedCalls] using hFresh.emitted }
  · rw [handle_added hAdded hItem.type (by decide), providerItemAdded, hStart]
    exact says_input

theorem step_delete (hItem : IsPatchItem id "delete_file" path item)
    (hAdded : ItemEvent "response.output_item.added" index item added) (hFresh : Fresh id state) :
    EndedInput id (state.transform settings (.ok added)).1 ∧ Says id (state.transform settings (.ok added)).2
      (settings.ctx.toString (patchInput id "delete_file" path none)).toList [] := by
  obtain ⟨name, hStart⟩ := providerToolStart_delete settings hItem
  refine hAdded.step _ ?_ ?_
  · rw [handle_added hAdded hItem.type (by decide), providerItemAdded, hStart]
    exact ⟨by simp [endedParts], by simpa [startedCalls] using hFresh.emitted⟩
  · rw [handle_added hAdded hItem.type (by decide), providerItemAdded, hStart]
    exact ⟨by simp [inputText], rfl⟩

/-! ### The deltas -/

variable {received : Bool}

theorem step_delta {delta : Json} (hKind : kind = "response.code_interpreter_call_code.delta" ∨
      kind = "response.apply_patch_call_operation_diff.delta") (hDelta : IsEvent kind index delta)
    (hOpen : OpenInput index item id received state) :
    OpenInput index item id true (state.transform settings (.ok delta)).1 ∧
      Says id (state.transform settings (.ok delta)).2 (escape (delta.strOrEmpty "delta").toList) [] := by
  have hHandle : state.handle settings delta kind = ({ state with diffReceived := state.diffReceived ++ [id] },
      [.toolInputDelta id (escapedDelta (delta.strOrEmpty "delta")) none]) := by
    have hInput : state.handle settings delta kind = state.inputDelta delta := by
      rcases hKind with rfl | rfl <;> rfl
    rw [hInput, inputDelta, hDelta.index, hOpen.item]
    dsimp only
    rw [hOpen.names]
  refine hDelta.step _ ?_ ?_
  · rw [hHandle]
    exact {
      names := hOpen.names
      item := hOpen.item
      received := ⟨fun _ => rfl, fun _ => List.mem_append_right _ (List.mem_singleton_self id)⟩
      ended := hOpen.ended
      emitted := hOpen.emitted }
  · rw [hHandle]
    exact ⟨by simp [inputText, escapedDelta], rfl⟩

theorem escape_joined (delta : Json) (deltas : List Json) : escape (joined (delta :: deltas)).toList =
    escape (delta.strOrEmpty "delta").toList ++ escape (joined deltas).toList := by
  rw [← escape_append, joined, List.map_cons, String.join_cons, String.toList_append, joined]

theorem speaks_deltas {deltas own : List Json} {calls : List RawToolCall}
    (hKind : kind = "response.code_interpreter_call_code.delta" ∨
      kind = "response.apply_patch_call_operation_diff.delta") (hDeltas : ∀ delta ∈ deltas, IsEvent kind index delta)
    (hRest : Speaks settings id (OpenInput index item id (received || !deltas.isEmpty)) own text calls) :
    Speaks settings id (OpenInput index item id received) (deltas ++ own) (escape (joined deltas).toList ++ text) calls := by
  induction deltas generalizing received with
  | nil =>
    rw [List.isEmpty_nil, Bool.not_true, Bool.or_false] at hRest
    exact hRest
  | cons delta deltas ih =>
    obtain ⟨hDelta, hLater⟩ := List.forall_mem_cons.mp hDeltas
    rw [escape_joined, List.append_assoc, List.cons_append]
    rw [List.isEmpty_cons, Bool.not_false, Bool.or_true] at hRest
    have hMore : Speaks settings id (OpenInput index item id true) (deltas ++ own)
        (escape (joined deltas).toList ++ text) calls := ih hLater (by rw [Bool.true_or]; exact hRest)
    have hCons := Speaks.cons (ofTools_openInput index item id received)
      (fun state hOpen => step_delta hKind hDelta hOpen) hMore
    exact hCons

/-! ### The end of the input -/

/-- The call of a code interpreter item with this code. -/
def codeCall (settings : ResponsesSettings) (item container : Json) (code : String) : RawToolCall where
  toolCallId := item.strOrEmpty "id"
  toolName := settings.toolNames.toCustomToolName "code_interpreter"
  input := settings.ctx.toString (.object [("code", .string code), ("containerId", container)])
  providerExecuted := some true

theorem calls_code (hItem : IsCodeItem container item) (code : String) (mcpToolCallId : Option String) :
    calls (state.content settings (item.set "code" (.string code)) mcpToolCallId) =
      [codeCall settings item container code] := by
  have hObject := Json.isObject_of_get (Json.get_of_getStr hItem.type)
  have hOther (key : String) (hKey : key ≠ "code") : (item.set "code" (.string code)).get key = item.get key := by
    rw [Json.get_set hObject, if_neg hKey]
  have hType : (item.set "code" (.string code)).strOrEmpty "type" = "code_interpreter_call" := by
    rw [Json.strOrEmpty, Json.getStr, hOther "type" (by decide), ← Json.getStr, hItem.type, Option.getD_some]
  have hId : (item.set "code" (.string code)).strOrEmpty "id" = item.strOrEmpty "id" := by
    rw [Json.strOrEmpty, Json.getStr, hOther "id" (by decide)]
    rfl
  have hCode : (item.set "code" (.string code)).member "code" = .string code := by
    rw [Json.member, Json.get_set hObject, if_pos rfl, Option.getD_some]
  have hContainer : (item.set "code" (.string code)).member "container_id" = container := by
    rw [Json.member, hOther "container_id" (by decide), ← Json.member, hItem.container]
  rw [content, providerToolContent, hType]
  dsimp only
  rw [hId, hCode, hContainer]
  rfl

theorem step_codeDone {codeDone : Json} {code : String} (hItem : IsCodeItem container item)
    (hDone : IsEvent "response.code_interpreter_call_code.done" index codeDone)
    (hCode : codeDone.getStr "code" = some code) (hOpen : OpenInput index item id received state) :
    Says id (state.transform settings (.ok codeDone)).2 "\"\x7d".toList [codeCall settings item container code] := by
  refine (hDone.step (fun _ => True) trivial ?_).2
  show Says id (state.codeDone settings codeDone).2 _ _
  rw [OpenAIResponsesStream.codeDone, hDone.index, hOpen.item]
  dsimp only
  rw [hOpen.names, if_neg hOpen.ended, Json.member_of_getStr hCode, calls_code hItem]
  exact ⟨by simp [inputText], rfl⟩

/-- What is left of a diff, where it may have come in deltas. -/
def diffRest (received : Bool) (diff : String) : List Char :=
  (if received then [] else escape diff.toList) ++ "\"\x7d\x7d".toList

theorem says_diff {others : List String} (hReceived : id ∈ others ↔ received = true) :
    Says id ((if id ∈ others then [] else [StreamPart.toolInputDelta id (escapedDelta diff) none]) ++
      [StreamPart.toolInputDelta id "\"\x7d\x7d" none, .toolInputEnd id none]) (diffRest received diff) [] := by
  cases received with
  | true =>
    rw [if_pos (hReceived.mpr rfl)]
    exact ⟨by simp [inputText, diffRest], rfl⟩
  | false =>
    rw [if_neg (mt hReceived.mp Bool.false_ne_true)]
    exact ⟨by simp [inputText, diffRest, escapedDelta], rfl⟩

theorem step_diffDone {event : Json} (hDone : IsEvent "response.apply_patch_call_operation_diff.done" index event)
    (hDiff : event.getStr "diff" = some diff) (hOpen : OpenInput index item id received state) :
    EndedInput id (state.transform settings (.ok event)).1 ∧
      Says id (state.transform settings (.ok event)).2 (diffRest received diff) [] := by
  have hHandle : state.handle settings event "response.apply_patch_call_operation_diff.done" =
      ({ state with endedInputs := state.endedInputs ++ [id] },
        (if id ∈ state.diffReceived then [] else [StreamPart.toolInputDelta id (escapedDelta diff) none]) ++
          [StreamPart.toolInputDelta id "\"\x7d\x7d" none, .toolInputEnd id none]) := by
    show state.diffDone event = _
    rw [diffDone, hDone.index, hOpen.item]
    dsimp only
    rw [hOpen.names, if_neg hOpen.ended, Json.strOrEmpty_of_getStr hDiff]
  refine hDone.step _ ?_ ?_
  · rw [hHandle]
    exact ⟨List.mem_append_right _ (List.mem_singleton_self id), hOpen.emitted⟩
  · rw [hHandle]
    exact says_diff hOpen.received

/-! ### The item that is done -/

/-- The parts of an item that is done are those of its input and those of its content. -/
theorem parts_providerItemDone (settings : ResponsesSettings) (state : OpenAIResponsesStream) (index : Nat)
    (hType : item.getStr "type" = some type)
    (hOther : type ∉ ["local_shell_call", "tool_search_call", "tool_search_output"]) :
    ∃ (source next : OpenAIResponsesStream) (mcpToolCallId : Option String),
      next.endedInputs = (if type = "apply_patch_call" then state.patchDone item else (state, [])).1.endedInputs ∧
      next.emittedCalls = (if type = "apply_patch_call" then state.patchDone item else (state, [])).1.emittedCalls ∧
      (state.providerItemDone settings index item).2 =
        (if type = "apply_patch_call" then state.patchDone item else (state, [])).2 ++
          (Transducer.run (contentDone type item) next (source.content settings item mcpToolCallId)).2 := by
  simp only [List.mem_cons, List.not_mem_nil, or_false, not_or] at hOther
  have hPair (ids : List Json) : pairToolSearchId item ids = (item, ids) := by
    unfold pairToolSearchId
    rw [Json.strOrEmpty_of_getStr hType]
    split
    · exact absurd rfl hOther.2.1
    · exact absurd rfl hOther.2.2
    · rfl
  unfold providerItemDone
  extract_lets itemType shown patched named paired source read mcpToolCallId content counted emitted
  have hItemType : itemType = type := Json.strOrEmpty_of_getStr hType
  have hShown : shown = item := if_neg (by rw [hItemType]; exact hOther.1)
  have hPatched : patched = if type = "apply_patch_call" then state.patchDone item else (state, []) := by
    show (if itemType = "apply_patch_call" then state.patchDone shown else (state, [])) = _
    rw [hItemType, hShown]
  have hNamed : named = item := (if_neg fun h => hOther.2.1 (hItemType ▸ h.1)).trans hShown
  have hPaired : paired = (item, state.hostedToolSearchIds) := by
    show pairToolSearchId named state.hostedToolSearchIds = _
    rw [hNamed, hPair]
  refine ⟨read, counted, mcpToolCallId, ?_, ?_, ?_⟩
  · show patched.1.endedInputs = _
    rw [hPatched]
  · show patched.1.emittedCalls = _
    rw [hPatched]
  · show patched.2 ++ (Transducer.run (contentDone itemType paired.1) counted
      (read.content settings paired.1 mcpToolCallId)).2 = _
    rw [hPatched, hItemType, hPaired]

/-- A code interpreter call says nothing more when its item is done. -/
theorem step_codeItemDone {done : Json} (hType : item.getStr "type" = some "code_interpreter_call")
    (hDone : ItemEvent "response.output_item.done" index item done) :
    Says id (state.transform settings (.ok done)).2 [] [] := by
  refine (hDone.step (fun _ => True) trivial ?_).2
  rw [handle_done hDone.item hType (by decide)]
  obtain ⟨source, next, mcpToolCallId, -, -, hParts⟩ :=
    parts_providerItemDone settings state (outputIndex done) hType (by decide)
  have hContent : ∃ call result, source.content settings item mcpToolCallId = [.toolCall call, .toolResult result] := by
    rw [content, providerToolContent, Json.strOrEmpty_of_getStr hType]
    exact ⟨_, _, rfl⟩
  obtain ⟨call, result, hContent⟩ := hContent
  rw [hParts, hContent]
  exact ⟨rfl, rfl⟩

def patchCall (settings : ResponsesSettings) (item : Json) (callId : String) (input : Json) : RawToolCall where
  toolCallId := callId
  toolName := settings.toolNames.toCustomToolName "apply_patch"
  input := settings.ctx.toString input
  providerMetadata := some (providerNamespace settings.providerKey [("itemId", .string (item.strOrEmpty "id"))])

/-- The diff that the call's input has. -/
def KeptDiff (operation : String) (item : Json) (diff : Option String) : Prop :=
  match diff with
  | some text => (operation = "create_file" ∨ operation = "update_file") ∧
      (item.member "operation").getStr "diff" = some text
  | none => operation = "delete_file"

theorem content_patch {diff : Option String} (hItem : IsPatchItem callId operation path item)
    (hDiff : KeptDiff operation item diff) (mcpToolCallId : Option String) : state.content settings item mcpToolCallId =
      [.toolCall (patchCall settings item callId (patchInput callId operation path diff))] := by
  have hOperation : applyPatchOperation (item.member "operation") = operationOf operation path diff := by
    rw [applyPatchOperation, hItem.operation, Json.member_of_getStr hItem.operation]
    cases diff with
    | some text =>
      obtain ⟨rfl | rfl, hText⟩ := hDiff <;>
        simp only [pick, List.filterMap_cons, Json.get_of_getStr hItem.path, Json.get_of_getStr hText] <;> rfl
    | none =>
      rw [KeptDiff] at hDiff
      subst hDiff
      simp only [pick, List.filterMap_cons, Json.get_of_getStr hItem.path]
      rfl
  rw [content, providerToolContent, Json.strOrEmpty_of_getStr hItem.type]
  dsimp only
  rw [hOperation, hItem.callId, Json.member_of_getStr hItem.callId]
  rfl

/-- The call of a patch is emitted when its item is completed. -/
theorem says_callDone (item : Json) {call : RawToolCall} (hCall : call.toolCallId = id) (hEnded : EndedInput id state) :
    Says id (state.callDone "apply_patch_call" item call).2 [] (if isCompleted item then [call] else []) := by
  rw [callDone]
  cases hStatus : isCompleted item with
  | false =>
    rw [if_pos (.inr ⟨rfl, of_decide_eq_false hStatus⟩)]
    exact ⟨rfl, rfl⟩
  | true =>
    have hCompleted : item.getStr "status" = some "completed" := of_decide_eq_true hStatus
    rw [if_neg (by rintro (h | ⟨-, h⟩); exacts [absurd h (by decide), h hCompleted]),
      if_neg (by rw [hCall]; exact fun h => hEnded.emitted h.1)]
    dsimp only
    rw [if_neg (by rintro ⟨h, -⟩; exact absurd h (by decide)),
      if_neg (by rw [hCall]; exact fun h => h.2 hEnded.ended)]
    exact ⟨rfl, rfl⟩

/-- What a patch says when its item is done, after what its input still says. -/
theorem step_patchItemDone {done : Json} {diff : Option String} (hItem : IsPatchItem id operation path item)
    (hDiff : KeptDiff operation item diff) (hDone : ItemEvent "response.output_item.done" index item done)
    (hPatch : EndedInput id (state.patchDone item).1 ∧ Says id (state.patchDone item).2 text []) :
    Says id (state.transform settings (.ok done)).2 text
      (if isCompleted item then [patchCall settings item id (patchInput id operation path diff)] else []) := by
  refine (hDone.step (fun _ => True) trivial ?_).2
  rw [handle_done hDone.item hItem.type (by decide)]
  obtain ⟨source, next, mcpToolCallId, hEnded, hEmitted, hParts⟩ :=
    parts_providerItemDone settings state (outputIndex done) hItem.type (by decide)
  rw [if_pos rfl] at hEnded hEmitted hParts
  have hNext : EndedInput id next := ⟨hEnded ▸ hPatch.1.ended, hEmitted ▸ hPatch.1.emitted⟩
  have hCall : Says id (next.callDone "apply_patch_call" item
      (patchCall settings item id (patchInput id operation path diff))).2 [] _ := says_callDone item rfl hNext
  rw [hParts, content_patch hItem hDiff, Transducer.run_cons, Transducer.run_nil, List.append_nil]
  have hSays := hPatch.2.append hCall
  rw [List.append_nil] at hSays
  exact hSays

theorem patchDone_ended (hItem : IsPatchItem id operation path item) (hEnded : EndedInput id state) :
    EndedInput id (state.patchDone item).1 ∧ Says id (state.patchDone item).2 [] [] := by
  rw [patchDone, Json.strOrEmpty_of_getStr hItem.callId]
  dsimp only
  rw [if_pos hEnded.ended]
  exact ⟨hEnded, rfl, rfl⟩

theorem patchDone_open {first : Json} (hItem : IsPatchItem id operation path item)
    (hOperation : operation = "create_file" ∨ operation = "update_file")
    (hDiff : (item.member "operation").getStr "diff" = some diff) (hOpen : OpenInput index first id received state) :
    EndedInput id (state.patchDone item).1 ∧ Says id (state.patchDone item).2 (diffRest received diff) [] := by
  have hKept : (item.member "operation").getStr "type" ≠ some "delete_file" := by
    rw [hItem.operation]
    rcases hOperation with rfl | rfl <;> decide
  rw [patchDone, Json.strOrEmpty_of_getStr hItem.callId]
  dsimp only
  rw [if_neg hOpen.ended, if_neg hKept, Json.strOrEmpty_of_getStr hDiff]
  exact ⟨⟨List.mem_append_right _ (List.mem_singleton_self id), hOpen.emitted⟩, says_diff hOpen.received⟩

end

/-! ## The texts as values -/

section

variable (settings : ResponsesSettings) (number : List Char → Option JsonNumber)

/-- What is streamed of a code interpreter call. -/
def codeStreamed (container : Json) (code : String) : Json := .object [("containerId", container), ("code", .string code)]

theorem code_text (container : Json) (code : String) :
    (codePrefix settings container).toList ++ (escape code.toList ++ "\"\x7d".toList) =
      writeJson settings.ctx.numberText (codeStreamed container code) := by
  have hContainer : stringText "containerId" = "\"containerId\"".toList := rfl
  have hCode : stringText "code" = "\"code\"".toList := rfl
  simp only [codePrefix, StreamContext.toString, codeStreamed, writeJson, writeFields, hContainer, hCode]
  simp [stringText]

theorem patch_text (callId operation path diff : String) :
    (patchPrefix settings callId operation path).toList ++ (escape diff.toList ++ "\"\x7d\x7d".toList) =
      writeJson settings.ctx.numberText (patchInput callId operation path (some diff)) := by
  have hCallId : stringText "callId" = "\"callId\"".toList := rfl
  have hOperation : stringText "operation" = "\"operation\"".toList := rfl
  have hType : stringText "type" = "\"type\"".toList := rfl
  have hPath : stringText "path" = "\"path\"".toList := rfl
  have hDiff : stringText "diff" = "\"diff\"".toList := rfl
  simp only [patchPrefix, StreamContext.toString, patchInput, operationOf, writeJson, writeFields, hCallId, hOperation,
    hType, hPath, hDiff, Option.toList_some, List.map_cons, List.map_nil, List.cons_append, List.nil_append]
  simp [stringText]

variable {settings number}

theorem reads_object {fields : List (String × Json)} (hKeys : (fields.map (·.1)).Nodup) (hFields : ∀ field ∈ fields,
      ReadsBack (jsonLeaves number) (writeJson settings.ctx.numberText field.2) field.2) :
    Reads (jsonLeaves number) (settings.ctx.toString (.object fields)).toList (.object fields) := by
  rw [StreamContext.toString, String.toList_ofList]
  exact (readsBack_object hKeys hFields).reads

theorem readsBack_container (container : Option String) : ReadsBack (jsonLeaves number)
    (writeJson settings.ctx.numberText ((container.map .string).getD .null)) ((container.map .string).getD .null) := by
  cases container with
  | none => exact readsBack_null
  | some text => exact readsBack_string text

theorem reads_codeStreamed (container : Option String) (code : String) : Reads (jsonLeaves number)
    (settings.ctx.toString (codeStreamed ((container.map .string).getD .null) code)).toList
    (codeStreamed ((container.map .string).getD .null) code) := by
  refine reads_object (by simp) (List.forall_mem_cons.mpr ⟨readsBack_container container, ?_⟩)
  exact List.forall_mem_singleton.mpr (readsBack_string code)

theorem reads_codeCall (item : Json) (container : Option String) (code : String) : Reads (jsonLeaves number)
    (codeCall settings item ((container.map .string).getD .null) code).input.toList
    (.object [("code", .string code), ("containerId", (container.map .string).getD .null)]) := by
  refine reads_object (by simp) (List.forall_mem_cons.mpr ⟨readsBack_string code, ?_⟩)
  exact List.forall_mem_singleton.mpr (readsBack_container container)

theorem reads_patchInput (callId operation path : String) (diff : Option String) : Reads (jsonLeaves number)
    (settings.ctx.toString (patchInput callId operation path diff)).toList (patchInput callId operation path diff) := by
  refine reads_object (by simp) (List.forall_mem_cons.mpr ⟨readsBack_string callId, ?_⟩)
  refine List.forall_mem_singleton.mpr (readsBack_object (by cases diff <;> simp) ?_)
  refine List.forall_mem_cons.mpr ⟨readsBack_string operation, List.forall_mem_cons.mpr ⟨readsBack_string path, ?_⟩⟩
  intro field hField
  obtain ⟨text, -, rfl⟩ := List.mem_map.mp hField
  exact readsBack_string text

/-! ## What is said of an item -/

/-- The texts stand for the same value. -/
def SameValue (number : List Char → Option JsonNumber) (text input : List Char) : Prop :=
  ∃ streamed given, Reads (jsonLeaves number) text streamed ∧ Reads (jsonLeaves number) input given ∧
    valueEq streamed given = true

theorem reads_text {value : Json} (h : Reads (jsonLeaves number) (settings.ctx.toString value).toList value) :
    Reads (jsonLeaves number) (writeJson settings.ctx.numberText value) value := by
  rwa [StreamContext.toString, String.toList_ofList] at h

theorem sameValue_code (item : Json) (container : Option String) (code : String) :
    SameValue number
      ((codePrefix settings ((container.map .string).getD .null)).toList ++ (escape code.toList ++ "\"\x7d".toList))
      (codeCall settings item ((container.map .string).getD .null) code).input.toList := by
  refine ⟨codeStreamed ((container.map .string).getD .null) code, _, ?_, reads_codeCall item container code, ?_⟩
  · rw [code_text]
    exact reads_text (reads_codeStreamed container code)
  · simp [codeStreamed, valueEq, fieldsEq, valueEq_refl]

theorem sameValue_patch (item : Json) (callId operation path diff : String) :
    SameValue number
      ((patchPrefix settings callId operation path).toList ++ (escape diff.toList ++ "\"\x7d\x7d".toList))
      (patchCall settings item callId (patchInput callId operation path (some diff))).input.toList := by
  refine ⟨patchInput callId operation path (some diff), _, ?_, reads_patchInput callId operation path (some diff),
    valueEq_refl _⟩
  rw [patch_text]
  exact reads_text (reads_patchInput callId operation path (some diff))

/-- The calls are there when the item is called, and the text is their input. -/
structure Agrees (number : List Char → Option JsonNumber) (called : Bool) (text : List Char) (calls : List RawToolCall) :
    Prop where
  called : calls ≠ [] ↔ called = true
  inputs : ∀ call ∈ calls, SameValue number text call.input.toList

theorem agrees_patch {called : Bool} {call : RawToolCall} (h : SameValue number text call.input.toList) :
    Agrees number called text (if called then [call] else []) where
  called := by cases called <;> simp
  inputs other hOther := by
    cases called with
    | true =>
      rw [List.mem_singleton.mp hOther]
      exact h
    | false => cases hOther

variable {index : Nat} {id : String} {called : Bool} {own : List Json}

theorem diff_text {deltas : List Json} (hSplit : deltas = [] ∨ joined deltas = diff) :
    escape (joined deltas).toList ++ diffRest (false || !deltas.isEmpty) diff =
      escape diff.toList ++ "\"\x7d\x7d".toList := by
  cases deltas with
  | nil => rfl
  | cons delta deltas =>
    rw [hSplit.resolve_left (List.cons_ne_nil delta deltas)]
    rfl

theorem speaks_of_events (settings : ResponsesSettings) (number : List Char → Option JsonNumber)
    (hEvents : InputEvents index id called own) :
    ∃ text calls, Speaks settings id (Fresh id) own text calls ∧ Agrees number called text calls := by
  cases hEvents with
  | @code container item last added done deltas hItem hAdded hDeltas codeDone hCode hSplit hLast hDone =>
    have hLastSays : Speaks settings (callOrItemId item) (fun _ => True) [done] [] [] :=
      .last (fun _ _ _ _ => trivial) fun state _ => step_codeItemDone hLast hDone
    have hEnd := Speaks.cons (ofTools_openInput index item _ (false || !deltas.isEmpty))
      (fun state hOpen => ⟨trivial, step_codeDone hItem hCode hSplit hOpen⟩) hLastSays
    refine ⟨_, _, Speaks.cons (ofTools_fresh _) (fun state hFresh => step_code hItem hAdded hFresh)
      (speaks_deltas (.inl rfl) hDeltas hEnd), by simp, fun call hCall => ?_⟩
    rw [List.append_nil, List.nil_append, List.mem_singleton] at hCall
    rw [List.append_nil, hCall]
    exact sameValue_code item container (joined deltas)
  | @codeOpen container item last added done deltas hItem hAdded hDeltas hLast hDone =>
    have hEnd : Speaks settings (callOrItemId item) (OpenInput index item (callOrItemId item) (false || !deltas.isEmpty))
        [done] [] [] := .last (ofTools_openInput _ _ _ _) fun state _ => step_codeItemDone hLast hDone
    exact ⟨_, _, Speaks.cons (ofTools_fresh _) (fun state hFresh => step_code hItem hAdded hFresh)
      (speaks_deltas (.inl rfl) hDeltas hEnd), by simp, fun call hCall => nomatch hCall⟩
  | @patch _ operation path diff hOperation item last added done deltas diffDone hItem hAdded hDeltas hSplit hDiff
      hLast hWhole hDone =>
    have hKept : KeptDiff operation last (some diff) := ⟨hOperation, hWhole⟩
    have hRest : Speaks settings id (OpenInput index item id (false || !deltas.isEmpty)) (diffDone.toList ++ [done])
        (diffRest (false || !deltas.isEmpty) diff) (if isCompleted last then
          [patchCall settings last id (patchInput id operation path (some diff))] else []) := by
      cases diffDone with
      | none =>
        exact .last (ofTools_openInput _ _ _ _) fun state hOpen =>
          step_patchItemDone hLast hKept hDone (patchDone_open hLast hOperation hWhole hOpen)
      | some event =>
        obtain ⟨hEvent, hText⟩ := hDiff event rfl
        have hLastSays : Speaks settings id (EndedInput id) [done] [] (if isCompleted last then
            [patchCall settings last id (patchInput id operation path (some diff))] else []) :=
          .last (ofTools_endedInput id) fun state hEnded =>
            step_patchItemDone hLast hKept hDone (patchDone_ended hLast hEnded)
        have hBoth := Speaks.cons (ofTools_openInput index item id (false || !deltas.isEmpty))
          (fun state hOpen => step_diffDone hEvent hText hOpen) hLastSays
        rw [List.append_nil] at hBoth
        exact hBoth
    refine ⟨_, _, Speaks.cons (ofTools_fresh _) (fun state hFresh => step_patch hItem hOperation hAdded hFresh)
      (speaks_deltas (.inr rfl) hDeltas hRest), ?_⟩
    rw [diff_text hSplit]
    exact agrees_patch (sameValue_patch last id operation path diff)
  | @deleted _ path item last added done hItem hAdded hLast hDone =>
    have hKept : KeptDiff "delete_file" last none := rfl
    have hLastSays : Speaks settings id (EndedInput id) [done] [] (if isCompleted last then
        [patchCall settings last id (patchInput id "delete_file" path none)] else []) :=
      .last (ofTools_endedInput id) fun state hEnded =>
        step_patchItemDone hLast hKept hDone (patchDone_ended hLast hEnded)
    refine ⟨_, _, Speaks.cons (ofTools_fresh _) (fun state hFresh => step_delete hItem hAdded hFresh) hLastSays, ?_⟩
    rw [List.append_nil]
    exact agrees_patch ⟨_, _, reads_patchInput id "delete_file" path none, reads_patchInput id "delete_file" path none,
      valueEq_refl _⟩

/-- A code interpreter call, or a patch, is called when its input or its item says so, and then the input deltas spell
the input of the call. -/
theorem streamed_input (settings : ResponsesSettings) (number : List Char → Option JsonNumber)
    (state : OpenAIResponsesStream) (events : List (Except AiMuxError Json)) (hEvents : InputEvents index id called own)
    (hOwn : events.filter isToolEvent = own.map .ok) (hFresh : Fresh id state) :
    Agrees number called (inputText id (run settings state events).2) (toolCalls (run settings state events).2) := by
  obtain ⟨text, calls, hSpeaks, hAgrees⟩ := speaks_of_events settings number hEvents
  obtain ⟨hText, hCalls⟩ := hSpeaks state hFresh events hOwn
  rw [hText, hCalls]
  exact hAgrees

end

def patchItem (status diff : String) : Json := .object [("type", .string "apply_patch_call"), ("id", .string "apc"),
  ("call_id", .string "call"), ("status", .string status), ("operation", .object [("type", .string "create_file"),
    ("path", .string "a \"b\".txt"), ("diff", .string diff)])]

def patchItemEvent (kind : String) (item : Json) : Json :=
  .object [("type", .string kind), ("output_index", jsonNat 0), ("item", item)]

def patchDelta (delta : String) : Json := .object [("type", .string "response.apply_patch_call_operation_diff.delta"),
  ("item_id", .string "apc"), ("output_index", jsonNat 0), ("delta", .string delta)]

def patchEvents : List Json := [
  patchItemEvent "response.output_item.added" (patchItem "in_progress" ""), patchDelta "+\"", patchDelta "\\\n",
  patchItemEvent "response.output_item.done" (patchItem "completed" "+\"\\\n")]

theorem streamed_input_patch : ∃ call,
    toolCalls (run (plainSettings false true) {} (patchEvents.map .ok)).2 = [call] ∧
      SameValue (fun _ => none) (inputText "call" (run (plainSettings false true) {} (patchEvents.map .ok)).2)
        call.input.toList := by
  have hDelta (delta : String) : IsEvent "response.apply_patch_call_operation_diff.delta" 0 (patchDelta delta) :=
    ⟨rfl, rfl, rfl⟩
  have hDeltas : ∀ delta ∈ [patchDelta "+\"", patchDelta "\\\n"],
      IsEvent "response.apply_patch_call_operation_diff.delta" 0 delta :=
    List.forall_mem_cons.mpr ⟨hDelta _, List.forall_mem_singleton.mpr (hDelta _)⟩
  have hEvents : InputEvents 0 "call" true patchEvents :=
    @InputEvents.patch 0 "call" "create_file" "a \"b\".txt" "+\"\\\n" (.inl rfl) (patchItem "in_progress" "")
      (patchItem "completed" "+\"\\\n") _ _ _ none ⟨rfl, rfl, rfl, rfl⟩ ⟨⟨rfl, rfl, rfl⟩, rfl⟩ hDeltas (.inr rfl)
      (fun _ hNone => nomatch hNone) ⟨rfl, rfl, rfl, rfl⟩ rfl ⟨⟨rfl, rfl, rfl⟩, rfl⟩
  have hAgrees := streamed_input (plainSettings false true) (fun _ => none) {} (patchEvents.map .ok) hEvents rfl
    ⟨fun h => (nomatch h), fun h => (nomatch h), fun h => (nomatch h)⟩
  have hCalls : ∃ call, toolCalls (run (plainSettings false true) {} (patchEvents.map .ok)).2 = [call] := ⟨_, rfl⟩
  obtain ⟨call, hCalls⟩ := hCalls
  exact ⟨call, hCalls, hAgrees.inputs call (hCalls ▸ List.mem_singleton_self call)⟩

end Aimux.Responses
