import Aimux.Bedrock.ChatMessagesOrder
import Aimux.Lib.Outcomes

/-! # Converse messages of a whole prompt

The groups of a prompt alternate, and each of them keeps the order of the messages.
-/

namespace Aimux.Bedrock

open Aimux.Core
open Aimux.Prompt (AssistantPart FileData FilePart LanguageModelMessage LanguageModelPrompt ToolPart UserPart)

/-! ## Groups -/

/-- A group has its messages, and differs from the next one. -/
structure Grouped (groups : List (Blk × List LanguageModelMessage)) : Prop where
  differ : List.IsChain (fun first second => first.1 ≠ second.1) groups
  members : ∀ group ∈ groups, ∀ message ∈ group.2, blockOf message = group.1

/-- The message joins the first group, or is a group of its own. -/
theorem groupIntoBlocks_cons (message : LanguageModelMessage) (prompt : LanguageModelPrompt) :
    (∃ messages groups, groupIntoBlocks prompt = (blockOf message, messages) :: groups ∧
      groupIntoBlocks (message :: prompt) = (blockOf message, message :: messages) :: groups) ∨
    ((∀ group ∈ (groupIntoBlocks prompt).head?, blockOf message ≠ group.1) ∧
      groupIntoBlocks (message :: prompt) = (blockOf message, [message]) :: groupIntoBlocks prompt) := by
  rw [groupIntoBlocks]
  cases hGroups : groupIntoBlocks prompt with
  | nil => exact .inr ⟨fun _ hNone => (nomatch hNone), rfl⟩
  | cons group groups =>
    obtain ⟨blk, messages⟩ := group
    by_cases hSame : blockOf message = blk
    · subst hSame
      exact .inl ⟨messages, groups, rfl, if_pos rfl⟩
    · refine .inr ⟨?_, if_neg hSame⟩
      rintro _ ⟨⟩
      exact hSame

theorem groupIntoBlocks_flatMap (prompt : LanguageModelPrompt) : (groupIntoBlocks prompt).flatMap (·.2) = prompt := by
  induction prompt with
  | nil => rfl
  | cons message prompt ih =>
    obtain ⟨messages, groups, hGroups, hCons⟩ | ⟨-, hCons⟩ := groupIntoBlocks_cons message prompt
    · rw [hGroups, List.flatMap_cons] at ih
      rw [hCons, List.flatMap_cons, List.cons_append, ih]
    · rw [hCons, List.flatMap_cons, ih]
      rfl

theorem grouped_groupIntoBlocks (prompt : LanguageModelPrompt) : Grouped (groupIntoBlocks prompt) := by
  induction prompt with
  | nil => exact ⟨List.isChain_nil, fun _ hNone => nomatch hNone⟩
  | cons message prompt ih =>
    obtain ⟨messages, groups, hGroups, hCons⟩ | ⟨hOther, hCons⟩ := groupIntoBlocks_cons message prompt
    · rw [hGroups] at ih
      rw [hCons]
      constructor
      · have hDiffer := List.isChain_cons.mp ih.differ
        exact List.isChain_cons.mpr ⟨hDiffer.1, hDiffer.2⟩
      · rintro group hGroup other hMember
        rcases List.mem_cons.mp hGroup with rfl | hLater
        · rcases List.mem_cons.mp hMember with rfl | hOld
          · rfl
          · exact ih.members _ List.mem_cons_self other hOld
        · exact ih.members group (List.mem_cons_of_mem _ hLater) other hMember
    · rw [hCons]
      constructor
      · exact List.isChain_cons.mpr ⟨hOther, ih.differ⟩
      · rintro group hGroup other hMember
        rcases List.mem_cons.mp hGroup with rfl | hLater
        · rw [List.mem_singleton.mp hMember]
        · exact ih.members group hLater other hMember

variable {groups : List (Blk × List LanguageModelMessage)}

variable {group : Blk × List LanguageModelMessage}

theorem Grouped.tail (h : Grouped (group :: groups)) : Grouped groups where
  differ := (List.isChain_cons.mp h.differ).2
  members other hOther := h.members other (List.mem_cons_of_mem _ hOther)

variable {prompt : LanguageModelPrompt} {message : LanguageModelMessage}

theorem mem_of_group (hGroup : group ∈ groupIntoBlocks prompt) (hMessage : message ∈ group.2) :
    message ∈ prompt := by
  rw [← groupIntoBlocks_flatMap prompt]
  exact List.mem_flatMap.mpr ⟨group, hGroup, hMessage⟩

theorem group_ne_nil (prompt : LanguageModelPrompt) : ∀ group ∈ groupIntoBlocks prompt, group.2 ≠ [] := by
  induction prompt with
  | nil => exact fun _ hNone => nomatch hNone
  | cons message prompt ih =>
    obtain ⟨messages, groups, hGroups, hCons⟩ | ⟨-, hCons⟩ := groupIntoBlocks_cons message prompt
    · rw [hCons]
      rw [hGroups] at ih
      rintro group hGroup
      rcases List.mem_cons.mp hGroup with rfl | hLater
      · exact List.cons_ne_nil _ _
      · exact ih group (List.mem_cons_of_mem _ hLater)
    · rw [hCons]
      rintro group hGroup
      rcases List.mem_cons.mp hGroup with rfl | hLater
      · exact List.cons_ne_nil _ _
      · exact ih group hLater

/-! ## What an accepted prompt has -/

/-- The files of a user message are not references. -/
def isInline : UserPart → Bool
  | .file { data := .reference _, .. } => false
  | _ => true

def NoReferences : LanguageModelMessage → Prop
  | .user content _ => ∀ part ∈ content, isInline part = true
  | _ => True

section

variable {crates : PromptCrates}

theorem inline_of_valid {part : UserPart} (h : validateUserPart crates part = .ok ()) : isInline part = true := by
  cases part with
  | text part => rfl
  | file file =>
    obtain ⟨data, mediaType, filename, options⟩ := file
    cases data with
    | reference reference => cases h
    | _ => rfl

theorem forM_ok {α : Type} {check : α → Except AiMuxError Unit} {items : List α} (h : items.forM check = .ok ()) :
    ∀ item ∈ items, check item = .ok () := by
  induction items with
  | nil => exact fun _ hNone => nomatch hNone
  | cons first items ih =>
    obtain ⟨_, hFirst, hLater⟩ := Lib.bind_eq_ok.mp h
    exact List.forall_mem_cons.mpr ⟨hFirst, ih hLater⟩

/-- What is so of the messages when the prompt is accepted from here on. -/
structure Accepted (sawNonSystem : Bool) (prompt : LanguageModelPrompt) : Prop where
  inline : ∀ message ∈ prompt, NoReferences message
  system : sawNonSystem = true → ∀ message ∈ prompt, blockOf message ≠ .system
  later : ∀ group ∈ (groupIntoBlocks prompt).tail, group.1 ≠ .system

theorem group_not_system (h : ∀ message ∈ prompt, blockOf message ≠ .system) :
    ∀ group ∈ groupIntoBlocks prompt, group.1 ≠ .system := by
  rintro group hGroup hSystem
  obtain ⟨message, hMessage⟩ := List.exists_mem_of_ne_nil group.2 (group_ne_nil prompt group hGroup)
  have hBlock := (grouped_groupIntoBlocks prompt).members group hGroup message hMessage
  exact h message (mem_of_group hGroup hMessage) (hBlock.trans hSystem)

theorem Accepted.cons_other (h : Accepted true prompt) (message : LanguageModelMessage) (hInline : NoReferences message)
    (hOther : blockOf message ≠ .system) (sawNonSystem : Bool) :
    Accepted sawNonSystem (message :: prompt) := by
  have hAll : ∀ other ∈ message :: prompt, blockOf other ≠ .system := List.forall_mem_cons.mpr ⟨hOther, h.system rfl⟩
  exact {
    inline := List.forall_mem_cons.mpr ⟨hInline, h.inline⟩
    system := fun _ => hAll
    later := fun group hGroup => group_not_system hAll group (List.mem_of_mem_tail hGroup) }

theorem Accepted.cons_system (h : Accepted false prompt) (hInline : NoReferences message)
    (hSystem : blockOf message = .system) :
    Accepted false (message :: prompt) where
  inline := List.forall_mem_cons.mpr ⟨hInline, h.inline⟩
  system hFalse := nomatch hFalse
  later := by
    have hLater := h.later
    obtain ⟨messages, groups, hGroups, hCons⟩ | ⟨hOther, hCons⟩ := groupIntoBlocks_cons message prompt
    · rw [hGroups] at hLater
      rw [hCons]
      exact hLater
    · rw [hCons]
      cases hGroups : groupIntoBlocks prompt with
      | nil => exact fun _ hNone => nomatch hNone
      | cons group groups =>
        rw [hGroups] at hLater hOther
        refine List.forall_mem_cons.mpr ⟨fun hFirst => hOther group rfl (hSystem.trans hFirst.symm), hLater⟩

theorem accepted_of_valid {sawNonSystem : Bool} (h : validateMessages crates sawNonSystem prompt = .ok ()) :
    Accepted sawNonSystem prompt := by
  induction prompt generalizing sawNonSystem with
  | nil => exact ⟨fun _ hNone => (nomatch hNone), fun _ _ hNone => (nomatch hNone), fun _ hNone => nomatch hNone⟩
  | cons message prompt ih =>
    cases message with
    | system content options =>
      cases sawNonSystem with
      | true => cases h
      | false => exact (ih h).cons_system trivial rfl
    | user content options =>
      obtain ⟨_, hContent, hRest⟩ := Lib.bind_eq_ok.mp h
      exact (ih hRest).cons_other (.user content options)
        (fun part hPart => inline_of_valid (forM_ok hContent part hPart)) Blk.noConfusion sawNonSystem
    | assistant content options =>
      obtain ⟨_, -, hRest⟩ := Lib.bind_eq_ok.mp h
      exact (ih hRest).cons_other (.assistant content options) trivial Blk.noConfusion sawNonSystem
    | tool content options =>
      obtain ⟨_, -, hRest⟩ := Lib.bind_eq_ok.mp h
      exact (ih hRest).cons_other (.tool content options) trivial Blk.noConfusion sawNonSystem

end

/-! ## The steps of a group -/

section

variable (isMistral : Bool)

theorem placed_partSteps {steps : List AssistantStep} (h : Placed false steps) (lastMessage hasReasoning : Bool)
    (options : Option Prompt.ProviderOptions) (parts : List AssistantPart) (behindResult : Bool) :
    Placed behindResult (partSteps lastMessage hasReasoning parts ++
      .options (parts.getLast?.any isToolResult) options :: steps) := by
  induction parts generalizing behindResult with
  | nil => exact ⟨fun hFalse => (nomatch hFalse), h⟩
  | cons part parts ih =>
    cases parts with
    | nil => exact ⟨id, h⟩
    | cons next parts => exact ih (isToolResult part)

theorem placed_messageSteps (lastBlock : Bool) (messages : List LanguageModelMessage) :
    Placed false (messageSteps lastBlock messages) := by
  induction messages with
  | nil => trivial
  | cons message messages ih =>
    cases message with
    | assistant content options =>
      exact placed_partSteps ih _ _ options content false
    | _ => exact ih

theorem marks_partSteps (lastMessage hasReasoning : Bool) (parts : List AssistantPart) :
    (partSteps lastMessage hasReasoning parts).flatMap (stepMarks isMistral) =
      parts.filterMap (assistantMark isMistral) := by
  induction parts with
  | nil => rfl
  | cons part parts ih =>
    rw [partSteps, List.flatMap_cons, ih, stepMarks, List.filterMap_cons]
    cases assistantMark isMistral part <;> rfl

theorem marks_messageSteps (lastBlock : Bool) {messages : List LanguageModelMessage}
    (h : ∀ message ∈ messages, blockOf message = .assistant) :
    (messageSteps lastBlock messages).flatMap (stepMarks isMistral) = messages.flatMap (promptMarks isMistral) := by
  induction messages with
  | nil => rfl
  | cons message messages ih =>
    have hLater := ih fun other hOther => h other (List.mem_cons_of_mem _ hOther)
    have hFirst := h message List.mem_cons_self
    cases message with
    | assistant content options =>
      rw [messageSteps, List.flatMap_append, List.flatMap_cons, marks_partSteps, hLater, List.flatMap_cons]
      rfl
    | _ => cases hFirst

theorem parts_partSteps (lastMessage hasReasoning : Bool) (parts : List AssistantPart) :
    (partSteps lastMessage hasReasoning parts).flatMap stepParts = parts.map (hasReasoning, ·) := by
  induction parts with
  | nil => rfl
  | cons part parts ih =>
    rw [partSteps, List.flatMap_cons, ih]
    rfl

theorem parts_messageSteps (lastBlock : Bool) (messages : List LanguageModelMessage) :
    (messageSteps lastBlock messages).flatMap stepParts = messages.flatMap spokenParts := by
  induction messages with
  | nil => rfl
  | cons message messages ih =>
    cases message with
    | assistant content options =>
      rw [messageSteps, List.flatMap_append, List.flatMap_cons, parts_partSteps, ih, List.flatMap_cons]
      rfl
    | _ => exact ih

end

/-! ## The content of user and tool messages -/

def isAnswer : ToolPart → Bool
  | .toolResult _ => true
  | .toolApprovalResponse _ => false

/-- A user message with a part, or a tool message with a result. -/
def speaks : LanguageModelMessage → Bool
  | .user content _ => !content.isEmpty
  | .tool content _ => content.any isAnswer
  | _ => false

theorem collect_ne_nil {α : Type} {convert : Nat → α → List Json × Nat} {items : List α} {item : α}
    (hItem : item ∈ items) (h : ∀ documents, (convert documents item).1 ≠ []) (documents : Nat) :
    (collect convert documents items).1 ≠ [] := by
  induction items generalizing documents with
  | nil => cases hItem
  | cons first items ih =>
    rw [collect]
    rintro hNone
    obtain ⟨hFirst, hLater⟩ := List.append_eq_nil_iff.mp hNone
    rcases List.mem_cons.mp hItem with rfl | hMember
    · exact h documents hFirst
    · exact ih hMember _ hLater

section

variable (crates : PromptCrates) (isMistral : Bool)

theorem userPartBlocks_ne_nil {part : UserPart} (hInline : isInline part = true) (documents : Nat) :
    (userPartBlocks crates documents part).1 ≠ [] := by
  cases part with
  | text part => exact List.cons_ne_nil _ _
  | file file =>
    obtain ⟨data, mediaType, filename, options⟩ := file
    cases data with
    | data bytes => cases bytes <;> exact List.cons_ne_nil _ _
    | reference reference => cases hInline
    | _ => exact List.cons_ne_nil _ _

theorem userMessageBlocks_ne_nil (hInline : NoReferences message) (hSpeaks : speaks message = true) (documents : Nat) :
    (userMessageBlocks crates isMistral documents message).1 ≠ [] := by
  cases message with
  | user content options =>
    cases content with
    | nil => cases hSpeaks
    | cons part parts =>
      rw [userMessageBlocks]
      refine List.append_ne_nil_of_left_ne_nil (collect_ne_nil List.mem_cons_self ?_ documents) _
      exact userPartBlocks_ne_nil crates (hInline part List.mem_cons_self)
  | tool content options =>
    obtain ⟨part, hPart, hAnswer⟩ := List.any_eq_true.mp hSpeaks
    rw [userMessageBlocks]
    refine List.append_ne_nil_of_left_ne_nil (collect_ne_nil hPart (fun before => ?_) documents) _
    cases part with
    | toolResult part => exact List.cons_ne_nil _ _
    | toolApprovalResponse response => cases hAnswer
  | system content options => cases hSpeaks
  | assistant content options => cases hSpeaks

/-! ## Converting the groups -/

/-- What is so of the messages after some groups, with the marks so far. -/
structure Converted (asked : Role → Prop) (expected : List ToolMark) (messages : List ChatMessage) : Prop where
  follows : List.IsChain Follows messages
  filled : Filled asked messages
  marks : messageMarks messages = expected

variable {asked : Role → Prop} {expected : List ToolMark}

theorem Converted.append {messages : List ChatMessage} (h : Converted asked expected messages) {content : List Json}
    (hContent : asked .user → content ≠ []) :
    Converted asked (expected ++ Bedrock.marks content) (appendUserMessage messages content) where
  follows := follows_appendUserMessage h.follows content
  filled := filled_appendUserMessage h.filled hContent
  marks := by rw [messageMarks_appendUserMessage, h.marks]

theorem Converted.going {messages : List ChatMessage} (h : Converted asked expected messages)
    (hUser : EndsWithUser messages) (documents : Nat) :
    Going asked expected { messages := messages, documents := documents } where
  follows := h.follows
  afterUser _ := hUser
  waiting hMore := absurd rfl hMore
  answers hMore := absurd rfl hMore
  filled := h.filled
  kept _ hNone := nomatch hNone
  marks := by rw [marks_nil, List.append_nil, List.append_nil, h.marks]

/-- The calls and the results in a group's messages. -/
def groupMarks (group : Blk × List LanguageModelMessage) : List ToolMark := group.2.flatMap (promptMarks isMistral)

/-- What a group must have for the content of user messages, where that is asked for. -/
def Spoken (asked : Role → Prop) (group : Blk × List LanguageModelMessage) : Prop :=
  asked .user → group.1 = .user → group.2.any speaks = true

theorem collect_spoken (hUser : group.1 = .user)
    (hInline : ∀ message ∈ group.2, NoReferences message) (hSpoken : Spoken asked group) (hAsked : asked .user)
    (documents : Nat) : (collect (userMessageBlocks crates isMistral) documents group.2).1 ≠ [] := by
  obtain ⟨message, hMessage, hSpeaks⟩ := List.any_eq_true.mp (hSpoken hAsked hUser)
  exact collect_ne_nil hMessage (userMessageBlocks_ne_nil crates isMistral (hInline message hMessage) hSpeaks) documents

variable {conversion : Conversion} {group : Blk × List LanguageModelMessage}

theorem Converted.user (h : Converted asked expected conversion.messages) (hUser : group.1 = .user)
    (hMembers : ∀ message ∈ group.2, blockOf message = group.1) (hInline : ∀ message ∈ group.2, NoReferences message)
    (hSpoken : Spoken asked group) (lastBlock : Bool) :
    Converted asked (expected ++ groupMarks isMistral group)
      (convertBlock crates isMistral lastBlock conversion group).messages := by
  have hEach : ∀ message ∈ group.2, ∀ before,
      Bedrock.marks (userMessageBlocks crates isMistral before message).1 = promptMarks isMistral message :=
    fun message hMessage before =>
      marks_userMessageBlocks crates isMistral before ((hMembers message hMessage).trans hUser)
  rw [convertBlock, hUser, groupMarks, ← marks_collect hEach conversion.documents]
  exact h.append fun hAsked => collect_spoken crates isMistral hUser hInline hSpoken hAsked conversion.documents

theorem convertBlock_assistant (hAssistant : group.1 = .assistant) (lastBlock : Bool) :
    (convertBlock crates isMistral lastBlock conversion group).messages =
      ((messageSteps lastBlock group.2).foldl (AssistantState.step crates isMistral)
        { messages := conversion.messages, documents := conversion.documents }).finish := by
  rw [convertBlock, hAssistant]
  rfl

theorem Converted.assistant (h : Converted asked expected conversion.messages) (hAssistant : group.1 = .assistant)
    (hMembers : ∀ message ∈ group.2, blockOf message = group.1) (hUser : EndsWithUser conversion.messages)
    (lastBlock : Bool) :
    Converted asked (expected ++ groupMarks isMistral group)
      (convertBlock crates isMistral lastBlock conversion group).messages := by
  have hMarks := marks_messageSteps isMistral lastBlock fun message hMessage =>
    (hMembers message hMessage).trans hAssistant
  have hRun := (h.going hUser conversion.documents).run crates isMistral (placed_messageSteps lastBlock group.2)
    fun hFalse => nomatch hFalse
  rw [hMarks] at hRun
  rw [convertBlock_assistant crates isMistral hAssistant]
  obtain ⟨hFollows, hFilled, hAll⟩ := hRun.finish
  exact ⟨hFollows, hFilled, hAll⟩

/-- The groups after the system messages. -/
structure Ready (groups : List (Blk × List LanguageModelMessage)) : Prop where
  grouped : Grouped groups
  inline : ∀ group ∈ groups, ∀ message ∈ group.2, NoReferences message
  system : ∀ group ∈ groups, group.1 ≠ .system

theorem Ready.tail (h : Ready (group :: groups)) : Ready groups where
  grouped := h.grouped.tail
  inline other hOther := h.inline other (List.mem_cons_of_mem _ hOther)
  system other hOther := h.system other (List.mem_cons_of_mem _ hOther)

/-- Behind a group of the one kind comes one of the other kind. -/
theorem Ready.next (h : Ready (group :: groups)) :
    ∀ next ∈ groups.head?, group.1 ≠ next.1 := (List.isChain_cons.mp h.grouped.differ).1

theorem endsWithUser_user (hUser : group.1 = .user) (lastBlock : Bool) :
    EndsWithUser (convertBlock crates isMistral lastBlock conversion group).messages := by
  rw [convertBlock, hUser]
  exact endsWithUser_appendUserMessage _ _

theorem Converted.blocks (hReady : Ready groups) (hSpoken : ∀ group ∈ groups, Spoken asked group)
    (h : Converted asked expected conversion.messages)
    (hFirst : ∀ group ∈ groups.head?, group.1 = .assistant → EndsWithUser conversion.messages) :
    Converted asked (expected ++ groups.flatMap (groupMarks isMistral))
      (convertBlocks crates isMistral conversion groups).messages := by
  induction groups generalizing conversion expected with
  | nil => exact (List.append_nil expected).symm ▸ h
  | cons group groups ih =>
    have hMembers := hReady.grouped.members group List.mem_cons_self
    have hInline := hReady.inline group List.mem_cons_self
    have hRest := fun other hOther => hSpoken other (List.mem_cons_of_mem group hOther)
    rw [convertBlocks, List.flatMap_cons, ← List.append_assoc]
    cases hBlock : group.1 with
    | system => exact absurd hBlock (hReady.system group List.mem_cons_self)
    | user =>
      refine ih hReady.tail hRest
        (h.user crates isMistral hBlock hMembers hInline (hSpoken group List.mem_cons_self) groups.isEmpty) ?_
      exact fun _ _ _ => endsWithUser_user crates isMistral hBlock groups.isEmpty
    | assistant =>
      refine ih hReady.tail hRest
        (h.assistant crates isMistral hBlock hMembers (hFirst group rfl hBlock) groups.isEmpty) ?_
      exact fun next hNext hAssistant => absurd (hBlock.trans hAssistant.symm) (hReady.next next hNext)

/-! ## Roles that alternate -/

/-- Every group of assistant messages says something before its first tool result. -/
def Opens (group : Blk × List LanguageModelMessage) : Prop :=
  group.1 = .assistant → opens (group.2.flatMap spokenParts) = true

theorem alternates_blocks (hReady : Ready groups) (hOpens : ∀ group ∈ groups, Opens group)
    (hSpoken : ∀ group ∈ groups, Spoken asked group) (h : Converted asked expected conversion.messages)
    (hFirst : ∀ group ∈ groups.head?, group.1 = .assistant → EndsWithUser conversion.messages)
    (hClosed : ∀ group ∈ groups.head?, group.1 = .user → Closed conversion.messages)
    (hAlternates : List.IsChain Alternates conversion.messages) :
    List.IsChain Alternates (convertBlocks crates isMistral conversion groups).messages := by
  induction groups generalizing conversion expected with
  | nil => exact hAlternates
  | cons group groups ih =>
    have hMembers := hReady.grouped.members group List.mem_cons_self
    have hInline := hReady.inline group List.mem_cons_self
    have hRest := fun other hOther => hSpoken other (List.mem_cons_of_mem group hOther)
    have hOpensRest := fun other hOther => hOpens other (List.mem_cons_of_mem group hOther)
    rw [convertBlocks]
    cases hBlock : group.1 with
    | system => exact absurd hBlock (hReady.system group List.mem_cons_self)
    | user =>
      refine ih hReady.tail hOpensRest hRest
        (h.user crates isMistral hBlock hMembers hInline (hSpoken group List.mem_cons_self) groups.isEmpty) ?_ ?_ ?_
      · exact fun _ _ _ => endsWithUser_user crates isMistral hBlock groups.isEmpty
      · exact fun next hNext hUser => absurd (hBlock.trans hUser.symm) (hReady.next next hNext)
      · rw [convertBlock, hBlock]
        exact alternates_appendUserMessage hAlternates (hClosed group rfl hBlock) _
    | assistant =>
      have hUser := hFirst group rfl hBlock
      have hSaid : opens ((messageSteps groups.isEmpty group.2).flatMap stepParts) = true := by
        rw [parts_messageSteps]
        exact hOpens group List.mem_cons_self hBlock
      obtain ⟨hAll, hShut⟩ := (h.going hUser conversion.documents).run_opens crates isMistral
        (placed_messageSteps groups.isEmpty group.2) rfl hAlternates (.inr hSaid)
      rw [← convertBlock_assistant crates isMistral hBlock] at hAll hShut
      refine ih hReady.tail hOpensRest hRest
        (h.assistant crates isMistral hBlock hMembers hUser groups.isEmpty) ?_ (fun _ _ _ => hShut) hAll
      exact fun next hNext hAssistant => absurd (hBlock.trans hAssistant.symm) (hReady.next next hNext)

/-- The system messages are the first group, and no message comes of them. -/
theorem convertBlocks_ready (prompt : LanguageModelPrompt) (h : Accepted false prompt) :
    ∃ conversion : Conversion, conversion.messages = [] ∧ ∃ groups, Ready groups ∧
      (∀ group ∈ groups, group ∈ groupIntoBlocks prompt) ∧
      (convertBlocks crates isMistral {} (groupIntoBlocks prompt)).messages =
        (convertBlocks crates isMistral conversion groups).messages ∧
      groups.flatMap (groupMarks isMistral) = prompt.flatMap (promptMarks isMistral) := by
  have hGrouped := grouped_groupIntoBlocks prompt
  have hInline : ∀ group ∈ groupIntoBlocks prompt, ∀ message ∈ group.2, NoReferences message :=
    fun group hGroup message hMessage => h.inline message (mem_of_group hGroup hMessage)
  have hLater := h.later
  have hMarks : (groupIntoBlocks prompt).flatMap (groupMarks isMistral) = prompt.flatMap (promptMarks isMistral) := by
    calc (groupIntoBlocks prompt).flatMap (groupMarks isMistral)
      _ = ((groupIntoBlocks prompt).flatMap (·.2)).flatMap (promptMarks isMistral) := List.flatMap_assoc.symm
      _ = prompt.flatMap (promptMarks isMistral) := by rw [groupIntoBlocks_flatMap]
  cases hGroups : groupIntoBlocks prompt with
  | nil =>
    rw [hGroups] at hMarks
    exact ⟨{}, rfl, [], ⟨⟨List.isChain_nil, fun _ hNone => (nomatch hNone)⟩, fun _ hNone => (nomatch hNone),
      fun _ hNone => (nomatch hNone)⟩, fun _ hNone => (nomatch hNone), rfl, hMarks⟩
  | cons group groups =>
    rw [hGroups] at hGrouped hInline hLater hMarks
    cases hBlock : group.1 with
    | system =>
      refine ⟨convertBlock crates isMistral groups.isEmpty {} group, ?_, groups, ?_, ?_, rfl, ?_⟩
      · rw [convertBlock, hBlock]
      · exact ⟨hGrouped.tail, fun other hOther => hInline other (List.mem_cons_of_mem _ hOther), hLater⟩
      · exact fun other hOther => List.mem_cons_of_mem _ hOther
      · have hNone : groupMarks isMistral group = [] := by
          refine List.flatMap_eq_nil_iff.mpr fun message hMessage => ?_
          have hSystem := (hGrouped.members group List.mem_cons_self message hMessage).trans hBlock
          cases message with
          | system content options => rfl
          | _ => cases hSystem
        rw [List.flatMap_cons, hNone, List.nil_append] at hMarks
        exact hMarks
    | _ =>
      refine ⟨{}, rfl, group :: groups, ⟨hGrouped, hInline, ?_⟩, fun _ hOther => hOther, rfl, hMarks⟩
      refine List.forall_mem_cons.mpr ⟨fun hSystem => ?_, hLater⟩
      rw [hBlock] at hSystem
      cases hSystem

/-- Messages of a prompt that is accepted: of two with the same role next to each other both are the user's and the
first has no tool result; the roles alternate where every group of assistant messages says something before its first
tool result; assistant messages have content, and all messages do where every group of user and tool messages has a
user's part or a tool result; and the calls and the results are the prompt's, in its order. -/
theorem chat_messages_order {prompt : LanguageModelPrompt} {system : List Json} {messages : List ChatMessage}
    (h : convertPrompt crates prompt isMistral = .ok (system, messages)) :
    List.IsChain Follows messages ∧
    ((∀ group ∈ groupIntoBlocks prompt, Opens group) → List.IsChain Alternates messages) ∧
    Filled (· = .assistant) messages ∧
    ((∀ group ∈ groupIntoBlocks prompt, group.1 = .user → group.2.any speaks = true) →
      ∀ message ∈ messages, message.content ≠ []) ∧
    messageMarks messages = prompt.flatMap (promptMarks isMistral) := by
  obtain ⟨_, hValid, hDone⟩ := Lib.bind_eq_ok.mp h
  cases hDone
  obtain ⟨conversion, hNone, groups, hReady, hGroups, hMessages, hMarks⟩ :=
    convertBlocks_ready crates isMistral prompt (accepted_of_valid hValid)
  have hStart (asked : Role → Prop) : Converted asked [] conversion.messages := by
    rw [hNone]
    exact ⟨List.isChain_nil, fun _ hMember => (nomatch hMember), rfl⟩
  have hEnds : ∀ group ∈ groups.head?, group.1 = .assistant → EndsWithUser conversion.messages := by
    rw [hNone]
    exact fun _ _ _ _ hLast => nomatch hLast
  have hSilent : ∀ group ∈ groups, Spoken (· = .assistant) group := fun _ _ hAsked => nomatch hAsked
  rw [hMessages]
  have hAll := (hStart (· = .assistant)).blocks crates isMistral hReady hSilent hEnds
  refine ⟨hAll.follows, fun hOpens => ?_, hAll.filled, fun hSpeaks => ?_, ?_⟩
  · refine alternates_blocks crates isMistral hReady (fun group hGroup => hOpens group (hGroups group hGroup)) hSilent
      (hStart (· = .assistant)) hEnds ?_ ?_
    · rw [hNone]
      exact fun _ _ _ _ hLast => nomatch hLast
    · rw [hNone]
      exact List.isChain_nil
  · have hSpoken := (hStart fun _ => True).blocks crates isMistral hReady
      (fun group hGroup _ hUser => hSpeaks group (hGroups group hGroup) hUser) hEnds
    exact fun message hMessage => hSpoken.filled message hMessage trivial
  · rw [hAll.marks, List.nil_append, hMarks]

end

/-- Nothing is encoded or detected. -/
def plainCrates : PromptCrates where
  encodeBase64 _ := ""
  detectMediaType _ _ := .ok none
  numberText _ := []

def userSays (text : String) : LanguageModelMessage := .user [.text { text := text }] none

/-- An assistant that says something, calls, answers itself and is answered. -/
def weatherPrompt : LanguageModelPrompt := [
  .system "Be brief." none,
  userSays "Weather?",
  .assistant [.text { text := "Let me look." },
    .toolCall { toolCallId := "call 1", toolName := "weather", input := .object [] },
    .toolResult { toolCallId := "call 1", toolName := "weather", output := .text "sunny" none },
    .toolCall { toolCallId := "call 2", toolName := "wind", input := .object [] }] none,
  .tool [.toolResult { toolCallId := "call 2", toolName := "wind", output := .text "calm" none }] none]

def weatherMessages : List ChatMessage :=
  (convertBlocks plainCrates true {} (groupIntoBlocks weatherPrompt)).messages

theorem chat_messages_order_weather :
    weatherMessages.map (·.role) = [.user, .assistant, .user, .assistant, .user] ∧
      List.IsChain Alternates weatherMessages ∧
      messageMarks weatherMessages =
        [.call (normalizeToolCallId "call 1" true), .result (normalizeToolCallId "call 1" true),
          .call (normalizeToolCallId "call 2" true), .result (normalizeToolCallId "call 2" true)] := by
  have hAccepted : convertPrompt plainCrates weatherPrompt true = .ok ([textBlock "Be brief."], weatherMessages) := rfl
  obtain ⟨-, hAlternates, -, -, hMarks⟩ := chat_messages_order plainCrates true hAccepted
  have hSaid : opens ((groupIntoBlocks weatherPrompt)[2].2.flatMap spokenParts) = true := rfl
  refine ⟨rfl, hAlternates ?_, hMarks.trans rfl⟩
  rintro group hGroup hAssistant
  have hThird : group = (groupIntoBlocks weatherPrompt)[2] := by
    rcases hGroup with _ | ⟨_, _ | ⟨_, _ | ⟨_, _ | ⟨_, _ | _⟩⟩⟩⟩
    · cases hAssistant
    · cases hAssistant
    · rfl
    · cases hAssistant
  rw [hThird]
  exact hSaid

/-- Blank text leaves two user messages next to each other, and so does a result that nothing comes before; and a tool
message without results has no content. -/
theorem chat_messages_not_alternating :
    convertPrompt plainCrates [userSays "a", .assistant [.text { text := " " }] none, userSays "b"] false =
      .ok ([], [{ role := .user, content := [textBlock "a"] }, { role := .user, content := [textBlock "b"] }]) ∧
    (∃ first second, first.role = Role.user ∧ second.role = Role.user ∧
      convertPrompt plainCrates [userSays "a", .assistant
        [.toolResult { toolCallId := "call", toolName := "search", output := .text "found" none }] none] false =
          .ok ([], [first, second])) ∧
    convertPrompt plainCrates [.tool [.toolApprovalResponse { approvalId := "id", approved := true }] none] false =
      .ok ([], [{ role := .user, content := [] }]) :=
  ⟨rfl, ⟨_, _, rfl, rfl, rfl⟩, rfl⟩

end Aimux.Bedrock
