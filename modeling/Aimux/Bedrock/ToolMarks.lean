import Aimux.Bedrock.ConvertToChatMessages

/-! # Calls and results in Converse messages

Every toolUse and toolResult block of the messages comes from a call or a result of the prompt, in its order.
-/

namespace Aimux.Bedrock

open Aimux.Core
open Aimux.Prompt (AssistantPart FilePart LanguageModelMessage LanguageModelPrompt ProviderOptions ToolPart UserPart)

/-- A call or a result, by the id that it is for. -/
inductive ToolMark where
  | call (id : String)
  | result (id : String)
deriving DecidableEq

/-- The mark of a toolUse or a toolResult block. -/
def toolMark (block : Json) : Option ToolMark :=
  (((block.get "toolUse").bind (·.getStr "toolUseId")).map .call).or
    (((block.get "toolResult").bind (·.getStr "toolUseId")).map .result)

def marks (content : List Json) : List ToolMark := content.filterMap toolMark

def messageMarks (messages : List ChatMessage) : List ToolMark := messages.flatMap fun message => marks message.content

@[simp] theorem marks_nil : marks [] = [] := rfl

@[simp] theorem marks_append (first second : List Json) : marks (first ++ second) = marks first ++ marks second :=
  List.filterMap_append

@[simp] theorem messageMarks_nil : messageMarks [] = [] := rfl

@[simp] theorem messageMarks_append (first second : List ChatMessage) :
    messageMarks (first ++ second) = messageMarks first ++ messageMarks second :=
  List.flatMap_append

@[simp] theorem messageMarks_singleton (message : ChatMessage) : messageMarks [message] = marks message.content :=
  List.flatMap_singleton ..

/-! ## The prompt's calls and results -/

section

variable (isMistral : Bool)

def assistantMark : AssistantPart → Option ToolMark
  | .toolCall part => some (.call (normalizeToolCallId part.toolCallId isMistral))
  | .toolResult part => some (.result (normalizeToolCallId part.toolCallId isMistral))
  | _ => none

def toolPartMark : ToolPart → Option ToolMark
  | .toolResult part => some (.result (normalizeToolCallId part.toolCallId isMistral))
  | .toolApprovalResponse _ => none

/-- The calls and the results of a message, in their order. -/
def promptMarks : LanguageModelMessage → List ToolMark
  | .system .. | .user .. => []
  | .assistant content _ => content.filterMap (assistantMark isMistral)
  | .tool content _ => content.filterMap (toolPartMark isMistral)

end

/-! ## Blocks with no mark -/

/-- Neither a toolUse nor a toolResult block. -/
structure Unmarked (block : Json) : Prop where
  call : block.get "toolUse" = none
  result : block.get "toolResult" = none

variable {block : Json}

theorem Unmarked.mark (h : Unmarked block) : toolMark block = none := by
  rw [toolMark, h.call, h.result]
  rfl

theorem unmarked_single {key : String} (hCall : key ≠ "toolUse") (hResult : key ≠ "toolResult") (value : Json) :
    Unmarked (.object [(key, value)]) where
  call := (lookup_cons_eq (key, value) [] "toolUse").trans (if_neg hCall.symm)
  result := (lookup_cons_eq (key, value) [] "toolResult").trans (if_neg hResult.symm)

theorem unmarked_setMember {key : String} (hCall : key ≠ "toolUse") (hResult : key ≠ "toolResult") (h : Unmarked block)
    (member : Json → Json) : Unmarked (setMember block key member) := by
  have hOther (name : String) (hName : name ≠ key) (hNone : block.get name = none) :
      (setMember block key member).get name = none := by
    cases block with
    | object fields => exact (lookup_insertField fields key _ name).trans ((if_neg hName).trans hNone)
    | _ => exact (lookup_insertField [] key _ name).trans (if_neg hName)
  exact ⟨hOther "toolUse" hCall.symm h.call, hOther "toolResult" hResult.symm h.result⟩

theorem marks_unmarked {content : List Json} (h : ∀ block ∈ content, Unmarked block) : marks content = [] :=
  List.filterMap_eq_nil_iff.mpr fun block hBlock => (h block hBlock).mark

theorem unmarked_cachePoint {options : Option ProviderOptions} (h : cachePoint options = some block) :
    Unmarked block := by
  obtain ⟨point, -, rfl⟩ := Option.map_eq_some_iff.mp h
  exact unmarked_single (by decide) (by decide) point

@[simp] theorem marks_cachePoint (options : Option ProviderOptions) : marks (cachePoint options).toList = [] :=
  marks_unmarked fun _ hBlock => unmarked_cachePoint (Option.mem_toList.mp hBlock)

@[simp] theorem marks_assistantCachePoint (part : AssistantPart) : marks (assistantCachePoint part).toList = [] := by
  cases part with
  | file part =>
    rw [assistantCachePoint]
    split
    · rfl
    · exact marks_cachePoint part.providerOptions
  | text part => exact marks_cachePoint part.providerOptions
  | reasoning part => exact marks_cachePoint part.providerOptions
  | toolCall part => exact marks_cachePoint part.providerOptions
  | toolResult part => exact marks_cachePoint part.providerOptions
  | reasoningFile _ => rfl
  | custom _ => rfl

theorem unmarked_textBlock (text : String) : Unmarked (textBlock text) :=
  unmarked_single (by decide) (by decide) (.string text)

theorem unmarked_userText (part : Prompt.TextPart) : Unmarked (userText part) := by
  rw [userText]
  split
  · exact unmarked_single (by decide) (by decide) _
  · exact unmarked_textBlock part.text

theorem unmarked_fileBlock (data mediaType : String) (filename : Option String) (options : Option ProviderOptions)
    (documents : Nat) : Unmarked (fileBlock data mediaType filename options documents).1 := by
  rw [fileBlock]
  split
  · split <;> exact unmarked_single (by decide) (by decide) _
  · split <;> exact unmarked_single (by decide) (by decide) _

theorem unmarked_withS3Source (h : Unmarked block) (mediaType url : String) :
    Unmarked (withS3Source block mediaType url) := by
  have hPlaced : ∀ inner, Unmarked inner → ∀ member, Unmarked (setMember inner
      (if startsWith mediaType "video/" then "video" else "image") member) := by
    intro inner hInner member
    split <;> exact unmarked_setMember (by decide) (by decide) hInner member
  rw [withS3Source]
  split
  · exact unmarked_setMember (by decide) (by decide) h _
  · exact hPlaced block h _

variable (crates : PromptCrates)

theorem unmarked_filePart (file : FilePart) (documents : Nat) (h : (filePart crates file documents).1 = some block) :
    Unmarked block := by
  obtain ⟨data, mediaType, filename, options⟩ := file
  cases data with
  | data bytes => cases bytes <;> exact Option.some.inj h ▸ unmarked_fileBlock ..
  | url url original => exact Option.some.inj h ▸ unmarked_withS3Source (unmarked_fileBlock ..) ..
  | text text => exact Option.some.inj h ▸ unmarked_fileBlock ..
  | reference reference => cases h

theorem unmarked_reasoningBlock {part : Prompt.ReasoningPart} (h : reasoningBlock part = some block) :
    Unmarked block := by
  rw [reasoningBlock] at h
  split at h <;> cases h <;> exact unmarked_single (by decide) (by decide) _

/-! ## Blocks with a mark -/

theorem marks_toolUseBlock (isMistral : Bool) (part : Prompt.ToolCallPart) :
    marks [toolUseBlock isMistral part] = [.call (normalizeToolCallId part.toolCallId isMistral)] := rfl

theorem marks_toolResultBlock (isMistral : Bool) (documents : Nat) (part : Prompt.ToolResultPart) :
    marks [(toolResultBlock crates isMistral documents part).1] =
      [.result (normalizeToolCallId part.toolCallId isMistral)] := rfl

/-! ## User and tool messages -/

/-- Item after item, with the marks of each one. -/
theorem marks_collect {α : Type} {convert : Nat → α → List Json × Nat} {expected : α → List ToolMark}
    {items : List α} (h : ∀ item ∈ items, ∀ documents, marks (convert documents item).1 = expected item)
    (documents : Nat) : marks (collect convert documents items).1 = items.flatMap expected := by
  induction items generalizing documents with
  | nil => rfl
  | cons item items ih =>
    rw [collect, marks_append, h item List.mem_cons_self, List.flatMap_cons,
      ih fun other hOther => h other (List.mem_cons_of_mem _ hOther)]

theorem marks_userPartBlocks (documents : Nat) (part : UserPart) :
    marks (userPartBlocks crates documents part).1 = [] := by
  cases part with
  | text part =>
    rw [userPartBlocks, marks_append, marks_cachePoint, List.append_nil]
    exact marks_unmarked fun block hBlock => List.mem_singleton.mp hBlock ▸ unmarked_userText part
  | file file =>
    rw [userPartBlocks]
    split
    · rfl
    · rw [marks_append, marks_cachePoint, List.append_nil]
      exact marks_unmarked fun block hBlock => unmarked_filePart crates file documents (Option.mem_toList.mp hBlock)

theorem marks_toolPartBlocks (isMistral : Bool) (documents : Nat) (part : ToolPart) :
    marks (toolPartBlocks crates isMistral documents part).1 = (toolPartMark isMistral part).toList := by
  cases part with
  | toolResult part =>
    rw [toolPartBlocks, marks_append, marks_cachePoint, List.append_nil, marks_toolResultBlock]
    rfl
  | toolApprovalResponse _ => rfl

theorem marks_userMessageBlocks (isMistral : Bool) (documents : Nat) {message : LanguageModelMessage}
    (hUser : blockOf message = .user) :
    marks (userMessageBlocks crates isMistral documents message).1 = promptMarks isMistral message := by
  cases message with
  | user content options =>
    rw [userMessageBlocks, marks_append, marks_cachePoint, marks_collect fun part _ before => marks_userPartBlocks crates before part]
    simp [promptMarks]
  | tool content options =>
    rw [userMessageBlocks, marks_append, marks_cachePoint, List.append_nil, promptMarks,
      List.filterMap_eq_flatMap_toList,
      marks_collect fun part _ before => marks_toolPartBlocks crates isMistral before part]
  | system content options => cases hUser
  | assistant content options => cases hUser

/-! ## Messages -/

theorem messageMarks_appendUserMessage (messages : List ChatMessage) (content : List Json) :
    messageMarks (appendUserMessage messages content) = messageMarks messages ++ marks content := by
  rw [appendUserMessage]
  split
  · rename_i last hLast
    split
    · have hSplit := List.dropLast_append_getLast? last hLast
      calc messageMarks (messages.dropLast ++ [{ last with content := last.content ++ content }])
        _ = messageMarks messages.dropLast ++ (marks last.content ++ marks content) := by
          rw [messageMarks_append, messageMarks_singleton, marks_append]
        _ = messageMarks (messages.dropLast ++ [last]) ++ marks content := by
          rw [messageMarks_append, messageMarks_singleton, List.append_assoc]
        _ = messageMarks messages ++ marks content := by rw [hSplit]
    · rw [messageMarks_append, messageMarks_singleton]
  · rename_i hNone
    rw [List.getLast?_eq_none_iff.mp hNone, messageMarks_singleton, messageMarks_nil, List.nil_append]

/-- Not both a cache point and a call or a result. -/
def Kept (block : Json) : Prop := hasKey "cachePoint" block → toolMark block = none

theorem Unmarked.kept (h : Unmarked block) : Kept block := fun _ => h.mark

/-- Content of cache points only has no mark. -/
theorem marks_invisible {content : List Json} (hKept : ∀ block ∈ content, Kept block)
    (h : isVisible content = false) : marks content = [] := by
  refine List.filterMap_eq_nil_iff.mpr fun block hBlock => hKept block hBlock ?_
  have hPoint := List.any_eq_false.mp h block hBlock
  simpa using hPoint

end Aimux.Bedrock
