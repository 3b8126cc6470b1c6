import Aimux.Prompt.ToolResults

/-! # The options of combined tool messages

A run of tool messages becomes one message. The options of each message go to the last part that is there
when the next message comes, which need not be a part of the same message.
-/

namespace Aimux.Prompt

open Aimux.Core Aimux.Lib

/-! ## Runs of tool messages -/

structure ToolMessage where
  content : List ToolPart
  options : Option ProviderOptions

def ToolMessage.sent (message : ToolMessage) : LanguageModelMessage := .tool message.content message.options

def combineRun (front : List LanguageModelMessage) (run : List ToolMessage) : List LanguageModelMessage :=
  (run.map ToolMessage.sent).foldl pushCombiningToolMessages front

def contentOf : LanguageModelMessage → List ToolPart
  | .tool content _ => content
  | _ => []

/-- All parts of the combined message. -/
def runContent (run : List ToolMessage) : List ToolPart := (combineRun [] run).flatMap contentOf

def partCount (run : List ToolMessage) : Nat := (run.map (·.content.length)).sum

/-- What the parts of a message have become, in the combination with the messages before and after it. -/
def partsOf (before : List ToolMessage) (message : ToolMessage) (after : List ToolMessage) : List ToolPart :=
  ((runContent (before ++ message :: after)).drop (partCount before)).take message.content.length

/-- The number of parts of each message. -/
def counts (run : List ToolMessage) : List Nat := run.map (·.content.length)

/-- The other messages have no say in what becomes of the parts of a message, except for how many parts they
have. -/
def OptionsStay (run : List ToolMessage) : Prop :=
  ∀ before message after, run = before ++ message :: after →
    ∀ before' after', counts before' = counts before → counts after' = counts after →
      partsOf before' message after' = partsOf before message after

/-- Behind a message with parts none is empty, but for the last. -/
def NoneEmptyBehind (counts : List Nat) : Prop :=
  ∀ before after, counts = before ++ 0 :: after → after = [] ∨ ∀ count ∈ before, count = 0

/-- One message, combined with the next. -/
def ToolMessage.join (held message : ToolMessage) : ToolMessage where
  content := settleOptions held.content held.options ++ message.content
  options := message.options

theorem push_tool (front : List LanguageModelMessage) (held message : ToolMessage) :
    pushCombiningToolMessages (front ++ [held.sent]) message.sent = front ++ [(held.join message).sent] := by
  obtain ⟨_, _, _, _, hHeld, hMessage, hPush⟩ | ⟨hApart, -⟩ := push_cases front held.sent message.sent
  · cases hHeld
    cases hMessage
    exact hPush
  · exact absurd ⟨rfl, rfl⟩ hApart

variable {front : List LanguageModelMessage}

theorem push_front (hFront : ∀ last ∈ front.getLast?, isTool last = false) (message : LanguageModelMessage) :
    pushCombiningToolMessages front message = front ++ [message] := by
  induction front using List.reverseRecOn with
  | nil => rfl
  | append_singleton front last =>
    obtain ⟨lastContent, lastOptions, content, options, rfl, -, -⟩ | ⟨-, hPush⟩ := push_cases front last message
    · exact absurd (hFront _ List.getLast?_concat) (by simp [isTool])
    · exact hPush

theorem combineRun_held (front : List LanguageModelMessage) (held : ToolMessage) (run : List ToolMessage) :
    combineRun (front ++ [held.sent]) run = front ++ [(run.foldl ToolMessage.join held).sent] := by
  induction run generalizing held with
  | nil => rfl
  | cons message run ih =>
    rw [combineRun, List.map_cons, List.foldl_cons, push_tool]
    exact ih (held.join message)

theorem combineRun_cons (front : List LanguageModelMessage) (hFront : ∀ last ∈ front.getLast?, isTool last = false)
    (first : ToolMessage) (run : List ToolMessage) :
    combineRun front (first :: run) = front ++ [(run.foldl ToolMessage.join first).sent] := by
  rw [combineRun, List.map_cons, List.foldl_cons, push_front hFront]
  exact combineRun_held front first run

theorem runContent_cons (first : ToolMessage) (run : List ToolMessage) :
    runContent (first :: run) = (run.foldl ToolMessage.join first).content := by
  rw [runContent, combineRun_cons [] (fun last hLast => by cases hLast)]
  exact List.append_nil _

theorem length_settleOptions (content : List ToolPart) (options : Option ProviderOptions) :
    (settleOptions content options).length = content.length := by
  cases options with
  | none => rfl
  | some options =>
    induction content using List.reverseRecOn with
    | nil => rfl
    | append_singleton content part => simp [settleOptions, List.modifyLast_concat]

theorem settleOptions_nil (options : Option ProviderOptions) : settleOptions [] options = [] := by
  cases options <;> rfl

variable {content : List ToolPart}

theorem settleOptions_append (front : List ToolPart) (hContent : content ≠ []) (options : Option ProviderOptions) :
    settleOptions (front ++ content) options = front ++ settleOptions content options := by
  cases options with
  | none => rfl
  | some options => exact List.modifyLast_append_of_right_ne_nil _ front content hContent

/-! ## Runs that keep their options -/

/-- Each message with its own options on its last part; those of the last message stay with the message. -/
def joined : List ToolMessage → List ToolPart
  | [] => []
  | [message] => message.content
  | message :: next :: rest => settleOptions message.content message.options ++ joined (next :: rest)

theorem joined_nonempty (front : List ToolPart) (message : ToolMessage) (rest : List ToolMessage)
    (hParts : ∀ held ∈ (message :: rest).dropLast, held.content ≠ []) :
    (rest.foldl ToolMessage.join { message with content := front ++ message.content }).content =
      front ++ joined (message :: rest) := by
  induction rest generalizing front message with
  | nil => rfl
  | cons next rest ih =>
    rw [List.dropLast_cons_cons, List.forall_mem_cons] at hParts
    have hJoin : ToolMessage.join { message with content := front ++ message.content } next =
        { next with content := front ++ settleOptions message.content message.options ++ next.content } := by
      rw [ToolMessage.join, settleOptions_append front hParts.1]
    rw [List.foldl_cons, hJoin, ih _ next hParts.2, joined, List.append_assoc]

variable {run : List ToolMessage}

theorem runContent_joined (h : NoneEmptyBehind (counts run)) :
    runContent run = joined run := by
  induction run with
  | nil => rfl
  | cons message rest ih =>
    rw [runContent_cons]
    cases hContent : message.content with
    | nil =>
      cases rest with
      | nil => rfl
      | cons next rest =>
        -- nothing is held when the next message comes
        have hTail : NoneEmptyBehind (counts (next :: rest)) := by
          intro before after hEq
          obtain hLast | hZero := h (0 :: before) after (by
            rw [counts, List.map_cons, hContent, List.cons_append, ← hEq]
            rfl)
          · exact .inl hLast
          · exact .inr (List.forall_mem_cons.mp hZero).2
        have hJoin : message.join next = next := by rw [ToolMessage.join, hContent, settleOptions_nil, List.nil_append]
        rw [List.foldl_cons, hJoin, ← runContent_cons, ih hTail, joined, hContent, settleOptions_nil, List.nil_append]
    | cons part parts =>
      refine joined_nonempty [] message rest fun held hHeld hEmpty => ?_
      obtain ⟨before, after, hEq⟩ := List.append_of_mem hHeld
      have hRun : message :: rest = before ++ held :: (after ++ [(message :: rest).getLast (List.cons_ne_nil _ _)]) := by
        rw [← List.cons_append, ← List.append_assoc, ← hEq, List.dropLast_append_getLast]
      obtain hLast | hZero := h (counts before) (counts (after ++ [_])) (by
        rw [hRun, counts, List.map_append, List.map_cons, hEmpty]
        rfl)
      · simp [counts] at hLast
      · cases before with
        | nil =>
          rw [← (List.cons.inj hRun).1, hContent] at hEmpty
          cases hEmpty
        | cons first before =>
          have hFirst : first.content.length = 0 := hZero _ List.mem_cons_self
          rw [← (List.cons.inj hRun).1, hContent] at hFirst
          cases hFirst

theorem joined_append (before : List ToolMessage) (message : ToolMessage) (after : List ToolMessage) :
    joined (before ++ message :: after) =
      before.flatMap (fun held => settleOptions held.content held.options) ++ joined (message :: after) := by
  induction before with
  | nil => rfl
  | cons held before ih =>
    rw [List.flatMap_cons, List.append_assoc, ← ih]
    cases before <;> rfl

theorem length_settled (run : List ToolMessage) :
    (run.flatMap fun held => settleOptions held.content held.options).length = partCount run := by
  rw [List.length_flatMap, partCount]
  congr 2
  funext held
  exact length_settleOptions held.content held.options

/-- What becomes of the parts of a message when its options stay with it. -/
def ownParts (message : ToolMessage) (after : List ToolMessage) : List ToolPart :=
  if after = [] then message.content else settleOptions message.content message.options

theorem partsOf_own {before : List ToolMessage} {message : ToolMessage} {after : List ToolMessage}
    (h : NoneEmptyBehind (counts (before ++ message :: after))) :
    partsOf before message after = ownParts message after := by
  rw [partsOf, runContent_joined h, joined_append, ← length_settled, List.drop_left]
  cases after with
  | nil => exact List.take_length
  | cons next after =>
    rw [joined, ← length_settleOptions message.content message.options, List.take_left]
    rfl

theorem optionsStay (h : NoneEmptyBehind (counts run)) : OptionsStay run := by
  rintro before message after rfl before' after' hBefore hAfter
  have hCounts : counts (before' ++ message :: after') = counts (before ++ message :: after) := by
    simp only [counts, List.map_append, List.map_cons] at hBefore hAfter ⊢
    rw [hBefore, hAfter]
  rw [partsOf_own h, partsOf_own (hCounts ▸ h)]
  have hLast : after' = [] ↔ after = [] := by
    rw [← List.map_eq_nil_iff (f := fun held : ToolMessage => held.content.length), ← counts, hAfter, counts,
      List.map_eq_nil_iff]
  simp only [ownParts, hLast]

/-! ## Runs that do not -/

def ToolPart.options : ToolPart → Option ProviderOptions
  | .toolResult part => part.providerOptions
  | .toolApprovalResponse part => part.providerOptions

/-- The providers that the options name. -/
def namespacesOf (options : Option ProviderOptions) : List String :=
  options.elim [] fun options => options.namespaces.map (·.1)

theorem options_mergeOptions (options : Option ProviderOptions) (part : ToolPart) :
    (part.mergeOptions options).options = mergeObjects options part.options := by
  cases part <;> rfl

theorem mergeNamespace_namespaces (base : List (String × List (String × Json)))
    (namespaced : String × List (String × Json)) :
    (mergeNamespace base namespaced).map (·.1) =
      if isPrototypeKey namespaced.1 ∨ namespaced.1 ∈ base.map (·.1) then base.map (·.1)
      else base.map (·.1) ++ [namespaced.1] := by
  have hAny : base.any (·.1 = namespaced.1) = true ↔ namespaced.1 ∈ base.map (·.1) := by
    rw [List.any_eq_true, List.mem_map]
    simp only [decide_eq_true_iff]
  rw [mergeNamespace]
  cases hKey : isPrototypeKey namespaced.1 with
  | true => simp
  | false =>
    by_cases hHeld : namespaced.1 ∈ base.map (·.1)
    · have hSame : (fun held : String × List (String × Json) =>
          (if held.1 = namespaced.1 then (held.1, mergeFields held.2 namespaced.2) else held).1) = (·.1) := by
        funext held
        split <;> rfl
      rw [if_neg Bool.false_ne_true, if_pos (hAny.mpr hHeld), if_pos (.inr hHeld), List.map_map]
      exact congrArg (base.map ·) hSame
    · rw [if_neg Bool.false_ne_true, if_neg (mt hAny.mp hHeld), if_neg (by simpa using hHeld), List.map_append]
      rfl

variable {key : String}

theorem mem_foldl_mergeNamespace (overrides base : List (String × List (String × Json)))
    (h : key ∈ base.map (·.1) ∨ isPrototypeKey key = false ∧ key ∈ overrides.map (·.1)) :
    key ∈ (overrides.foldl mergeNamespace base).map (·.1) := by
  induction overrides generalizing base with
  | nil => simpa using h
  | cons namespaced overrides ih =>
    refine ih _ ?_
    rw [mergeNamespace_namespaces]
    rw [List.map_cons, List.mem_cons] at h
    obtain hBase | ⟨hKey, rfl | hLater⟩ := h
    · left
      split
      · exact hBase
      · exact List.mem_append_left _ hBase
    · left
      split
      · rename_i hSkip
        exact hSkip.resolve_left (by simp [hKey])
      · exact List.mem_append_right _ List.mem_cons_self
    · exact .inr ⟨hKey, hLater⟩

/-- The options of either side name their providers in the merged options. -/
theorem mem_namespacesOf_mergeObjects {base overrides : Option ProviderOptions}
    (h : key ∈ namespacesOf base ∨ isPrototypeKey key = false ∧ key ∈ namespacesOf overrides) :
    key ∈ namespacesOf (mergeObjects base overrides) := by
  cases base with
  | none =>
    obtain hBase | ⟨-, hOverrides⟩ := h
    · cases hBase
    · cases overrides with
      | none => cases hOverrides
      | some overrides => exact hOverrides
  | some base =>
    cases overrides with
    | none => exact h.resolve_right (fun hOverrides => by cases hOverrides.2)
    | some overrides => exact mem_foldl_mergeNamespace overrides.namespaces base.namespaces h

/-- The part at a place has options for this provider. -/
def NamedAt (key : String) (place : Nat) (content : List ToolPart) : Prop :=
  ∃ part, content[place]? = some part ∧ key ∈ namespacesOf part.options

variable {place : Nat}

theorem NamedAt.append (h : NamedAt key place content) (more : List ToolPart) :
    NamedAt key place (content ++ more) := by
  obtain ⟨part, hPart, hKey⟩ := h
  exact ⟨part, List.getElem?_append_left (List.getElem?_eq_some_iff.mp hPart).1 ▸ hPart, hKey⟩

/-- The options left to the last part keep what it has. -/
theorem NamedAt.settle (hKey : isPrototypeKey key = false) (h : NamedAt key place content)
    (options : Option ProviderOptions) :
    NamedAt key place (settleOptions content options) := by
  cases options with
  | none => exact h
  | some options =>
    induction content using List.reverseRecOn with
    | nil => exact h
    | append_singleton content last =>
      obtain ⟨part, hPart, hNamed⟩ := h
      rw [settleOptions, List.modifyLast_concat]
      by_cases hPlace : place < content.length
      · rw [List.getElem?_append_left hPlace] at hPart
        exact ⟨part, List.getElem?_append_left hPlace ▸ hPart, hNamed⟩
      · rw [List.getElem?_append_right (by omega), List.getElem?_singleton] at hPart
        split at hPart
        · rename_i hLast
          cases hPart
          refine ⟨last.mergeOptions (some options), ?_, ?_⟩
          · rw [List.getElem?_append_right (by omega), hLast]
            rfl
          · rw [options_mergeOptions]
            exact mem_namespacesOf_mergeObjects (.inr ⟨hKey, hNamed⟩)
        · cases hPart

theorem NamedAt.foldl (hKey : isPrototypeKey key = false) (run : List ToolMessage) {held : ToolMessage}
    (h : NamedAt key place held.content) :
    NamedAt key place (run.foldl ToolMessage.join held).content := by
  induction run generalizing held with
  | nil => exact h
  | cons message run ih => exact ih ((h.settle hKey held.options).append message.content)

/-- The last part takes the options of the message that is held. -/
theorem settle_last (content : List ToolPart) (hContent : content ≠ []) {options : ProviderOptions}
    (hKey : key ∈ namespacesOf (some options)) :
    NamedAt key (content.length - 1) (settleOptions content (some options)) := by
  obtain ⟨front, last, rfl⟩ := List.eq_nil_or_concat' content |>.resolve_left hContent
  refine ⟨last.mergeOptions (some options), ?_, ?_⟩
  · simp [settleOptions, List.modifyLast_concat]
  · rw [options_mergeOptions]
    exact mem_namespacesOf_mergeObjects (.inl hKey)

theorem length_foldl_join (run : List ToolMessage) (held : ToolMessage) :
    (run.foldl ToolMessage.join held).content.length = held.content.length + partCount run := by
  induction run generalizing held with
  | nil => rfl
  | cons message run ih =>
    rw [List.foldl_cons, ih, ToolMessage.join, List.length_append, length_settleOptions, partCount, partCount,
      List.map_cons, List.sum_cons, Nat.add_assoc]

theorem runContent_foldl (run : List ToolMessage) :
    runContent run = (run.foldl ToolMessage.join { content := [], options := none }).content := by
  cases run with
  | nil => rfl
  | cons first run => exact runContent_cons first run

/-- The options of a message without parts, at the last part before it. -/
theorem namedAt_runContent (hKey : isPrototypeKey key = false) (front : List ToolMessage) (hFront : partCount front ≠ 0)
    (options : ProviderOptions) (hNamed : key ∈ namespacesOf (some options)) (next : ToolMessage)
    (after : List ToolMessage) :
    NamedAt key (partCount front - 1)
      (runContent (front ++ { content := [], options := some options } :: next :: after)) := by
  let held := front.foldl ToolMessage.join { content := [], options := none }
  have hHeld : held.content.length = partCount front := by
    rw [length_foldl_join]
    exact Nat.zero_add _
  have hSettled : (settleOptions held.content held.options ++ []).length = partCount front := by
    rw [List.append_nil, length_settleOptions, hHeld]
  have hLast := settle_last (settleOptions held.content held.options ++ [])
    (List.ne_nil_of_length_pos (by omega)) hNamed
  rw [hSettled] at hLast
  rw [runContent_foldl, List.foldl_append]
  exact (hLast.append next.content).foldl hKey after

theorem exists_last_nonempty (h : ∃ count ∈ counts run, count ≠ 0) :
    ∃ before message after, run = before ++ message :: after ∧ message.content ≠ [] ∧ partCount after = 0 := by
  induction run using List.reverseRecOn with
  | nil => simp [counts] at h
  | append_singleton run last ih =>
    by_cases hLast : last.content = []
    · obtain ⟨count, hCount, hPositive⟩ := h
      rw [counts, List.map_append, List.mem_append] at hCount
      obtain ⟨before, message, after, rfl, hMessage, hAfter⟩ := ih ⟨count, hCount.resolve_right fun hMem => by
        rw [List.map_singleton, List.mem_singleton, hLast] at hMem
        exact hPositive hMem, hPositive⟩
      refine ⟨before, message, after ++ [last], by simp, hMessage, ?_⟩
      rw [partCount, List.map_append, List.sum_append, List.map_singleton, hLast]
      exact hAfter
    · exact ⟨run, last, [], rfl, hLast, rfl⟩

theorem exists_fresh (names : List String) : ∃ key, isPrototypeKey key = false ∧ key ∉ names := by
  obtain ⟨key, hKey⟩ := Infinite.exists_notMem_finset (["__proto__", "constructor", "prototype"] ++ names).toFinset
  rw [List.mem_toFinset, List.mem_append, not_or] at hKey
  refine ⟨key, ?_, hKey.2⟩
  simpa [isPrototypeKey, and_assoc] using hKey.1

theorem getElem?_partsOf (before : List ToolMessage) (message : ToolMessage) (after : List ToolMessage)
    (hPlace : place < message.content.length) :
    (partsOf before message after)[place]? = (runContent (before ++ message :: after))[partCount before + place]? := by
  rw [partsOf, List.getElem?_take_of_lt hPlace, List.getElem?_drop]

theorem noneEmptyBehind (h : OptionsStay run) : NoneEmptyBehind (counts run) := by
  intro frontCounts restCounts hCounts
  obtain ⟨front, rest, rfl, rfl, hRest⟩ := List.map_eq_append_iff.mp hCounts
  obtain ⟨empty, rest, rfl, hEmpty, rfl⟩ := List.map_eq_cons_iff.mp hRest
  cases rest with
  | nil => exact .inl rfl
  | cons next rest =>
    right
    by_contra hSome
    push Not at hSome
    obtain ⟨before, message, after, rfl, hMessage, hAfter⟩ := exists_last_nonempty hSome
    have hPositive := List.length_pos_iff.mpr hMessage
    -- options that the last part of the message does not name
    let place := message.content.length - 1
    have hPlace : place < message.content.length := by omega
    obtain ⟨key, hKey, hFresh⟩ := exists_fresh
      ((partsOf before message (after ++ empty :: next :: rest))[place]?.elim [] fun part => namespacesOf part.options)
    let options : ProviderOptions := { namespaces := [(key, [])] }
    have hSame := h before message (after ++ empty :: next :: rest) (by simp) before
      (after ++ { content := [], options := some options } :: next :: rest) rfl (by simp [counts, hEmpty])
    have hSum : partCount (before ++ message :: after) =
        partCount before + (message.content.length + partCount after) := by
      simp only [partCount, List.map_append, List.map_cons, List.sum_append, List.sum_cons]
    have hCount : partCount (before ++ message :: after) - 1 = partCount before + place := by omega
    have hNamed := namedAt_runContent hKey (before ++ message :: after)
      (by omega) options List.mem_cons_self next rest
    rw [hCount] at hNamed
    obtain ⟨part, hPart, hMem⟩ := hNamed
    rw [List.append_assoc, List.cons_append, ← getElem?_partsOf _ _ _ hPlace, hSame] at hPart
    rw [hPart] at hFresh
    exact hFresh hMem

/-- The parts of each message keep clear of the options of the others exactly when no message is empty behind one
with parts, but for the last. -/
theorem options_stay_iff (run : List ToolMessage) : OptionsStay run ↔ NoneEmptyBehind (counts run) :=
  ⟨noneEmptyBehind, optionsStay⟩

/-! ### Tool messages of the caller -/

section

variable {Url : Type} {crate : UrlCrate Url} {provider : Option String} {assets : DownloadedAssets}

/-- The tool messages of a caller are converted one by one, whatever their options are, and combined. -/
theorem convertMessages_run {given : List (List User.ToolContentPart × Option ProviderOptions)}
    {toolNames : String → Option String} {result : List LanguageModelMessage} {warnings : List Warning}
    (h : convertMessages crate provider assets (given.map fun message => .tool message.1 message.2) toolNames front =
      .ok (result, warnings)) :
    ∃ run, result = combineRun front run ∧ List.Forall₂ (fun message sent => sent.options = message.2 ∧
      ∃ warnings, convertAll id (message.1.filterMap (toolPart crate { toolNames, provider, assets })) =
        .ok (sent.content, warnings)) given run := by
  induction given generalizing front warnings with
  | nil =>
    cases h
    exact ⟨[], rfl, .nil⟩
  | cons message given ih =>
    obtain ⟨⟨converted, raised⟩, hConverted, h⟩ := bind_eq_ok.mp h
    obtain ⟨⟨others, more⟩, hOthers, h⟩ := bind_eq_ok.mp h
    cases h
    obtain ⟨⟨content, raised⟩, hContent, h⟩ := bind_eq_ok.mp hConverted
    cases h
    obtain ⟨run, rfl, hRun⟩ := ih hOthers
    exact ⟨{ content, options := message.2 } :: run, rfl, .cons ⟨rfl, raised, hContent⟩ hRun⟩

end

def optionsFor (provider : String) : Option ProviderOptions := some { namespaces := [(provider, [])] }

def found (id : String) (providerOptions : Option ProviderOptions) : ToolPart :=
  .toolResult { toolCallId := id, toolName := "search", output := .text "found" none, providerOptions }

/-- A result, an approval response that is not sent and a result, with options at the second message. -/
def approvalBetweenResults : List User.ModelMessage :=
  [callMessage "a", resultMessage "a", .tool [.toolApprovalResponse "1" true none none] (optionsFor "openai"),
    .tool [.toolResult { toolCallId := "a", toolName := none, output := .text "found" none }] none]

def emptyBetweenResults : List ToolMessage :=
  [{ content := [found "a" none], options := none }, { content := [], options := optionsFor "openai" },
    { content := [found "a" none], options := none }]

theorem options_land_on_other_message :
    convertToLanguageModelPrompt noUrls approvalBetweenResults none none =
      .ok [.assistant [.toolCall { toolCallId := "a", toolName := "search", input := .null }] none,
        .tool [found "a" (optionsFor "openai"), found "a" none] none] ∧
    combineRun [] emptyBetweenResults = [.tool [found "a" (optionsFor "openai"), found "a" none] none] ∧
    ¬OptionsStay emptyBetweenResults := by
  refine ⟨rfl, rfl, fun hStay => ?_⟩
  obtain hLast | hFront := noneEmptyBehind hStay [1] [1] rfl
  · cases hLast
  · cases hFront 1 List.mem_cons_self

end Aimux.Prompt
