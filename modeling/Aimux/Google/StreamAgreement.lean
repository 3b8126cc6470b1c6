import Aimux.Google.StreamLayout
import Aimux.Lib.Merging

/-! # Streamed and whole candidates

What is put together of a stream is what is taken out of a candidate that has all the parts, once neighbouring
texts are merged, unless a text goes on behind an item that did not close its block.
-/

namespace Aimux.Google

open Aimux.Core
open Aimux.Lib

/-! ## What is compared -/

def withoutMetadata : GenerateContent → GenerateContent
  | .toolCall call => .toolCall { call with providerMetadata := none }
  | .file file => .file { file with providerMetadata := none }
  | .reasoningFile file => .reasoningFile { file with providerMetadata := none }
  | .custom kind _ => .custom kind none
  | .toolApprovalRequest request => .toolApprovalRequest { request with providerMetadata := none }
  | .toolResult result => .toolResult { result with providerMetadata := none }
  | content => content

/-- A text without its metadata; an item with it or without; no sources. -/
def view (keep : Bool) : GenerateContent → Option (Piece BlockKind Char GenerateContent)
  | .text text _ => some (.block .text text.toList)
  | .reasoning reasoning => some (.block .reasoning reasoning.text.toList)
  | .source _ => none
  | content => some (.whole (if keep then content else withoutMetadata content))

/-- Empty texts are dropped, neighbouring texts and neighbouring reasonings merged. -/
def merge (keep : Bool) (content : List GenerateContent) : List (Piece BlockKind Char GenerateContent) :=
  merged (content.filterMap (view keep))

theorem merge_concat {keep : Bool} (content : List GenerateContent) {piece : GenerateContent}
    {seen : Piece BlockKind Char GenerateContent} (hView : view keep piece = some seen) :
    merge keep (content ++ [piece]) = absorb (merge keep content) seen := by
  rw [merge, List.filterMap_append, List.filterMap_cons_some hView, List.filterMap_nil, merged_concat]
  rfl

theorem view_block (keep : Bool) (kind : BlockKind) (body : String) (metadata : Option ProviderMetadata) :
    view keep (kind.content body metadata) = some (.block kind body.toList) := by
  cases kind <;> rfl

theorem view_setProviderMetadata (metadata : ProviderMetadata) (content : GenerateContent) :
    view false (setProviderMetadata metadata content) = view false content := by
  cases content with
  | source source => cases source <;> rfl
  | _ => rfl

theorem filterMap_modify (metadata : ProviderMetadata) (content : List GenerateContent) (n : Nat) :
    (content.modify n (setProviderMetadata metadata)).filterMap (view false) = content.filterMap (view false) := by
  induction content generalizing n with
  | nil => simp
  | cons piece content ih =>
    cases n with
    | zero => simp [List.filterMap_cons, view_setProviderMetadata]
    | succ n => simp [List.filterMap_cons, ih]

theorem merge_set {keep : Bool} {content : List GenerateContent} {i : Nat} {old new : GenerateContent}
    (hPiece : content[i]? = some old) (hSame : view keep new = view keep old) :
    merge keep (content.set i new) = merge keep content := by
  have hViews : (content.set i new).map (view keep) = content.map (view keep) := by
    obtain ⟨hLength, hOld⟩ := List.getElem?_eq_some_iff.mp hPiece
    rw [List.map_set, hSame, ← hOld, ← List.map_set, List.set_getElem_self]
  have hFlat : ∀ other : List GenerateContent, other.filterMap (view keep) = (other.map (view keep)).filterMap id :=
    fun other => by rw [List.filterMap_map, Function.id_comp]
  rw [merge, merge, hFlat, hViews, ← hFlat]

theorem modify_of_getElem? {content : List GenerateContent} {i : Nat} {piece : GenerateContent}
    (hPiece : content[i]? = some piece) (change : GenerateContent → GenerateContent) :
    content.modify i change = content.set i (change piece) := by
  rw [List.modify_eq_set_getElem?, hPiece]
  rfl

/-! ## Parts -/

def partKeys : List String :=
  ["text", "executableCode", "codeExecutionResult", "functionCall", "inlineData", "toolCall", "toolResponse"]

/-- Of one kind. -/
def OneKind (part : Json) : Prop :=
  ∀ key ∈ partKeys, ∀ other ∈ partKeys, (get part key).isSome = true → (get part other).isSome = true → key = other

instance (part : Json) : Decidable (OneKind part) :=
  inferInstanceAs (Decidable (∀ key ∈ partKeys, ∀ other ∈ partKeys, _ → _ → key = other))

/-- A call comes with its name and an object of arguments. -/
def CompleteCall (part : Json) : Prop :=
  ∀ call, get part "functionCall" = some call →
    (∃ name, getStr call "name" = some name) ∧ (∃ fields, get call "args" = some (.object fields)) ∧
      callField call "partialArgs" = none ∧ (callField call "willContinue").bind asBool ≠ some true

theorem CompleteCall.whole {part : Json} (h : CompleteCall part) : WholeCall part :=
  fun call hCall => (h call hCall).2.2

def IsEmptySigned (part : Json) : Prop := getStr part "text" = some "" ∧ isSigned part = true

instance (part : Json) : Decidable (IsEmptySigned part) := inferInstanceAs (Decidable (_ ∧ _))

theorem OneKind.others {part : Json} (h : OneKind part) {key : String} {value : Json}
    (hSome : get part key = some value) (hKey : key ∈ partKeys) :
    ∀ other ∈ partKeys, other ≠ key → get part other = none := by
  intro other hOther hApart
  rw [← Option.not_isSome_iff_eq_none]
  exact fun hBoth => hApart (h other hOther key hKey hBoth (by rw [hSome, Option.isSome_some]))

/-! ## Blocks that go on behind an item -/

/-- The block that is open, whether an item stands behind it, and whether code was called. -/
structure Scan where
  opened : Option BlockKind := none
  crossed : Bool := false
  called : Bool := false

namespace Scan

def text (scan : Scan) (kind : BlockKind) (body : String) (signed : Bool) : Option Scan :=
  if scan.opened = some kind ∧ scan.crossed = true ∧ body ≠ "" then none
  else some { scan with
    opened := if kind = .text ∧ signed = true then none else some kind
    crossed := decide (scan.opened = some kind) && scan.crossed }

def item (scan : Scan) : Scan := { scan with crossed := true }

def close (scan : Scan) : Scan := { scan with opened := none }

/-- `none` where a text goes on behind an item that left its block open. -/
def part (scan : Scan) (part : Json) : Option Scan :=
  match getStr part "text" with
  | some body => if body ≠ "" ∨ isSigned part = true then scan.text (textKind part) body (isSigned part) else some scan
  | none =>
    match get part "executableCode" with
    | some ec => some (if hasCode ec then { scan.item with called := true } else scan)
    | none =>
      if (get part "codeExecutionResult").isSome then some (if scan.called then scan.item else scan)
      else if (get part "toolCall").isSome ∨ (get part "toolResponse").isSome then some scan.item
      else if (get part "inlineData").isSome ∨ (get part "functionCall").isSome then some scan.close
      else some scan

end Scan

/-- No text goes on in a block behind a server's call or result. -/
def Uninterrupted (parts : List Json) : Prop := (parts.foldlM Scan.part {}).isSome = true

/-! ## One part -/

/-- The block of the scan is the layout's, and comes last unless it is crossed. -/
structure Held (layout : Layout) (scan : Scan) : Prop where
  opened : scan.opened = layout.opened.map (·.1)
  block : ∀ kind i, layout.opened = some (kind, i) → ∃ body metadata,
    layout.content[i]? = some (kind.content body metadata) ∧ (scan.crossed = false → i + 1 = layout.content.length)

namespace Held

variable {layout : Layout} {scan next : Scan}

theorem push (h : Held layout scan) (content : List GenerateContent) (ids : CallIds) :
    Held (layout.push content ids) scan.item := by
  refine ⟨h.opened, fun kind i hOpen => ?_⟩
  obtain ⟨body, metadata, hPiece, _⟩ := h.block kind i hOpen
  refine ⟨body, metadata, ?_, fun hCrossed => by cases hCrossed⟩
  rw [Layout.push, List.getElem?_append_left (List.getElem?_eq_some_iff.mp hPiece).1, hPiece]

theorem close (layout : Layout) (scan : Scan) : Held layout.close scan.close :=
  ⟨rfl, fun _ _ hOpen => by cases hOpen⟩

/-- A new block comes behind what is there. -/
theorem newBlock (layout : Layout) (scan : Scan) (keep : Bool) (kind : BlockKind) (text : String)
    (metadata : Option ProviderMetadata) :
    let spoken : Layout := { layout with
      content := layout.content ++ [kind.content text metadata]
      opened := some (kind, layout.content.length) }
    Held spoken { scan with opened := some kind, crossed := false } ∧
      merge keep spoken.content = absorb (merge keep layout.content) (.block kind text.toList) := by
  refine ⟨⟨rfl, fun other i hOpen => ?_⟩, merge_concat _ (view_block _ _ _ _)⟩
  cases hOpen
  exact ⟨text, metadata, List.getElem?_concat_length, fun _ => by simp⟩

/-- In an open block the text comes behind what was merged, unless an item has come since. -/
theorem speak (h : Held layout scan) (keep : Bool) (kind : BlockKind) (text : String)
    (metadata : Option ProviderMetadata) (hLast : scan.opened = some kind → scan.crossed = true → text = "") :
    Held (layout.speak kind text metadata)
        { scan with opened := some kind, crossed := decide (scan.opened = some kind) && scan.crossed } ∧
      merge keep (layout.speak kind text metadata).content =
        absorb (merge keep layout.content) (.block kind text.toList) := by
  have hOpened := h.opened
  rw [Layout.speak]
  cases hOpen : layout.opened with
  | none =>
    rw [hOpen] at hOpened
    rw [show (decide (scan.opened = some kind) && scan.crossed) = false by rw [hOpened]; rfl]
    exact newBlock layout scan keep kind text metadata
  | some opened =>
    obtain ⟨going, i⟩ := opened
    rw [hOpen] at hOpened
    by_cases hSame : going = kind
    · subst hSame
      obtain ⟨body, before, hPiece, hEnd⟩ := h.block going i hOpen
      have hKind : scan.opened = some going := hOpened
      have hLength := (List.getElem?_eq_some_iff.mp hPiece).1
      simp only [if_true, hKind, decide_true, Bool.true_and, modify_of_getElem? hPiece, extend_content]
      refine ⟨⟨rfl, fun other j hOther => ?_⟩, ?_⟩
      · cases hOther
        exact ⟨body ++ text, metadata <|> before, List.getElem?_set_self hLength,
          fun hCrossed => by rw [List.length_set]; exact hEnd hCrossed⟩
      · by_cases hText : text = ""
        · subst hText
          have hView : view keep (going.content (body ++ "") (metadata <|> before)) =
              view keep (going.content body before) := by
            rw [view_block, view_block, String.append_empty]
          rw [merge_set hPiece hView]
          simp
        · have hCrossed : scan.crossed = false := by
            by_contra hCrossed
            exact hText (hLast hKind (by simpa using hCrossed))
          obtain ⟨front, last, hFront⟩ : ∃ front last, layout.content = front ++ [last] :=
            ⟨_, _, (List.dropLast_append_getLast (List.ne_nil_of_length_pos (Nat.zero_lt_of_lt hLength))).symm⟩
          obtain rfl : i = front.length := by
            have hCount := hEnd hCrossed
            rw [hFront, List.length_append, List.length_singleton] at hCount
            omega
          obtain rfl : last = going.content body before := by
            rw [hFront, List.getElem?_concat_length] at hPiece
            exact Option.some.inj hPiece
          rw [hFront, List.set_append_right _ _ (Nat.le_refl _), Nat.sub_self, List.set_cons_zero,
            merge_concat _ (view_block _ _ _ _), merge_concat _ (view_block _ _ _ _), String.toList_append,
            absorb_append]
    · have hKind : ¬ scan.opened = some kind := by
        rw [hOpened]
        simpa using hSame
      simp only [if_neg hSame, hKind, decide_false, Bool.false_and]
      exact newBlock layout scan keep kind text metadata

theorem text (h : Held layout scan) (keep : Bool) {kind : BlockKind} {text : String}
    (metadata : Option ProviderMetadata) (hScan : scan.text kind text metadata.isSome = some next) :
    Held (layout.text kind text metadata) next ∧
      merge keep (layout.text kind text metadata).content =
        absorb (merge keep layout.content) (.block kind text.toList) := by
  rw [Scan.text] at hScan
  by_cases hStops : scan.opened = some kind ∧ scan.crossed = true ∧ text ≠ ""
  · rw [if_pos hStops] at hScan
    cases hScan
  · rw [if_neg hStops] at hScan
    cases hScan
    obtain ⟨hSpoken, hMerged⟩ := h.speak keep kind text metadata fun hOpen hCrossed => by
      by_contra hText
      exact hStops ⟨hOpen, hCrossed, hText⟩
    rw [Layout.text]
    by_cases hSigned : kind = .text ∧ metadata.isSome = true
    · simp only [hSigned, and_self, if_true]
      exact ⟨⟨rfl, fun _ _ hOpen => by cases hOpen⟩, hSigned.1 ▸ hMerged⟩
    · simp only [if_neg hSigned]
      exact ⟨hSpoken, hMerged⟩

end Held

/-- The stream and the extraction have come to the same. -/
structure Agrees (keep : Bool) (layout : Layout) (extracted : Extraction) (scan : Scan) : Prop where
  ids : extracted.ids = layout.ids
  called : scan.called = layout.ids.lastCodeExecutionToolCallId.isSome
  held : Held layout scan
  merged : merge keep layout.content = merge keep extracted.content

/-- What is extracted of a text. -/
theorem merge_extractText (settings : Settings) {keep : Bool} (extracted : Extraction) (part : Json) (text : String)
    (hKeep : keep = true → ¬ (text = "" ∧ isSigned part = true)) :
    (extracted.extractText settings part text).ids = extracted.ids ∧
      merge keep (extracted.extractText settings part text).content =
        absorb (merge keep extracted.content) (.block (textKind part) text.toList) := by
  simp only [Extraction.extractText]
  by_cases hText : text = ""
  · subst hText
    rw [if_pos rfl, String.toList_empty, absorb_nil]
    cases hMetadata : thoughtSignatureMetadata settings part with
    | none => exact ⟨rfl, rfl⟩
    | some metadata =>
      have hSigned : isSigned part = true := by
        rw [← isSome_metadata settings, hMetadata]
        rfl
      obtain rfl : keep = false := by
        cases keep with
        | false => rfl
        | true => exact absurd ⟨rfl, hSigned⟩ (hKeep rfl)
      exact ⟨rfl, congrArg merged (filterMap_modify metadata extracted.content _)⟩
  · rw [if_neg hText, textKind]
    cases isThought part
    · exact ⟨rfl, merge_concat _ rfl⟩
    · exact ⟨rfl, merge_concat _ rfl⟩

variable {settings : Settings} {keep : Bool} {layout : Layout} {extracted : Extraction} {scan next : Scan} {part : Json}

theorem Scan.called_text {kind : BlockKind} {body : String} {signed : Bool}
    (hScan : scan.text kind body signed = some next) : next.called = scan.called := by
  rw [Scan.text] at hScan
  split at hScan
  · cases hScan
  · cases hScan
    rfl

namespace Agrees

/-- Whole items that both have. -/
theorem push (h : Agrees keep layout extracted scan) (content : List GenerateContent) (ids : CallIds) (called : Bool)
    (hCalled : called = ids.lastCodeExecutionToolCallId.isSome) :
    Agrees keep (layout.push content ids) (extracted.push content ids) { scan.item with called } := by
  refine ⟨rfl, hCalled, ⟨(h.held.push content ids).opened, (h.held.push content ids).block⟩, ?_⟩
  have hMerged := h.merged
  simp only [merge] at hMerged
  simp only [merge, Layout.push, Extraction.push, List.filterMap_append, merged_append, hMerged]

/-- Nothing of what is compared. -/
theorem silent (h : Agrees keep layout extracted scan) :
    Agrees keep (layout.push [] layout.ids) (extracted.push [] layout.ids) scan := by
  rw [Layout.push, Extraction.push, List.append_nil, List.append_nil]
  exact ⟨rfl, h.called, h.held, h.merged⟩

/-- Once the block is closed, what stands behind it does not matter. -/
theorem close {crossed : Bool} (h : Agrees keep layout extracted { scan.close with crossed }) :
    Agrees keep layout extracted scan.close := by
  refine ⟨h.ids, h.called, ⟨h.held.opened, fun kind i hOpen => ?_⟩, h.merged⟩
  have hNone := h.held.opened
  rw [hOpen] at hNone
  cases hNone

theorem text (h : Agrees keep layout extracted scan) {text : String} (hText : getStr part "text" = some text)
    (hOther : ∀ key ∈ partKeys, key ≠ "text" → get part key = none)
    (hKeep : keep = true → ¬ IsEmptySigned part) (hScan : scan.part part = some next) :
    Agrees keep (layout.part settings part) (extracted.extractPart settings part) next := by
  have hCode : get part "executableCode" = none := hOther _ (by decide) (by decide)
  have hResult : get part "codeExecutionResult" = none := hOther _ (by decide) (by decide)
  obtain ⟨hIds, hMerged⟩ := merge_extractText settings extracted part text
    fun hTrue hEmpty => hKeep hTrue ⟨by rw [hText, hEmpty.1], hEmpty.2⟩
  simp only [Scan.part, hText] at hScan
  simp only [Layout.part, Extraction.extractPart, hText, hCode, hResult]
  by_cases hLoud : text ≠ "" ∨ isSigned part = true
  · rw [if_pos hLoud] at hScan ⊢
    obtain ⟨hHeld, hSent⟩ := h.held.text keep (thoughtSignatureMetadata settings part)
      (by rw [isSome_metadata]; exact hScan)
    have hSame : (layout.text (textKind part) text (thoughtSignatureMetadata settings part)).ids = layout.ids :=
      Layout.ids_text ..
    refine ⟨?_, ?_, hHeld, ?_⟩
    · rw [hIds, hSame, h.ids]
    · rw [Scan.called_text hScan, hSame, h.called]
    · rw [hSent, hMerged, h.merged]
  · rw [if_neg hLoud] at hScan ⊢
    cases hScan
    obtain rfl : text = "" := by simpa using mt Or.inl hLoud
    refine ⟨by rw [hIds, h.ids], h.called, h.held, ?_⟩
    rw [hMerged, h.merged, String.toList_empty, absorb_nil]

theorem noText {kind : String} (hOther : ∀ key ∈ partKeys, key ≠ kind → get part key = none) (hKind : kind ≠ "text") :
    getStr part "text" = none := by
  rw [getStr, hOther _ (by decide) (Ne.symm hKind), Option.bind_none]

theorem executableCode (h : Agrees keep layout extracted scan) {ec : Json} (hCode : get part "executableCode" = some ec)
    (hOther : ∀ key ∈ partKeys, key ≠ "executableCode" → get part key = none)
    (hScan : scan.part part = some next) :
    Agrees keep (layout.part settings part) (extracted.extractPart settings part) next := by
  have hText := noText hOther (by decide)
  simp only [Scan.part, hText, hCode] at hScan
  cases hScan
  simp only [Layout.part, Extraction.extractPart, hText, hCode, h.ids]
  by_cases hHas : hasCode ec = true
  · simp only [Google.executableCode, hHas, if_true]
    exact h.push _ _ _ rfl
  · simp only [Google.executableCode, hHas, if_false, Option.map_none, Option.toList_none, Bool.false_eq_true]
    exact h.silent

theorem codeExecutionResult (h : Agrees keep layout extracted scan) {cer : Json}
    (hResult : get part "codeExecutionResult" = some cer)
    (hOther : ∀ key ∈ partKeys, key ≠ "codeExecutionResult" → get part key = none)
    (hScan : scan.part part = some next) :
    Agrees keep (layout.part settings part) (extracted.extractPart settings part) next := by
  have hText := noText hOther (by decide)
  have hCode : get part "executableCode" = none := hOther _ (by decide) (by decide)
  simp only [Scan.part, hText, hCode, hResult, Option.isSome_some, if_true] at hScan
  cases hScan
  simp only [Layout.part, Extraction.extractPart, hText, hCode, hResult, h.ids]
  have hCalled := h.called
  cases hLast : layout.ids.lastCodeExecutionToolCallId with
  | none =>
    rw [hLast] at hCalled
    simp only [Google.codeExecutionResult, hLast, hCalled, Option.map_none, Option.toList_none]
    exact h.silent
  | some callId =>
    rw [hLast] at hCalled
    simp only [Google.codeExecutionResult, hLast, hCalled, Option.map_some, Option.toList_some, Option.isSome_some,
      if_true]
    exact h.push _ _ _ h.called

theorem lastCode_sentOr (ids : CallIds) (settings : Settings) (sent : Option String) :
    (ids.sentOr settings sent).2.lastCodeExecutionToolCallId = ids.lastCodeExecutionToolCallId := by
  rw [CallIds.sentOr]
  split <;> rfl

theorem toolCall (h : Agrees keep layout extracted scan) {tc : Json} (hCall : get part "toolCall" = some tc)
    (hOther : ∀ key ∈ partKeys, key ≠ "toolCall" → get part key = none) (hScan : scan.part part = some next) :
    Agrees keep (layout.part settings part) (extracted.extractPart settings part) next := by
  simp (disch := decide) [Scan.part, noText hOther, hOther, hCall] at hScan
  cases hScan
  simp (disch := decide) only [Layout.part, Extraction.extractPart, noText hOther, hOther, hCall, h.ids]
  refine h.push _ _ scan.called ?_
  rw [h.called]
  exact congrArg Option.isSome (lastCode_sentOr layout.ids settings _).symm

theorem toolResponse (h : Agrees keep layout extracted scan) {tr : Json} (hResponse : get part "toolResponse" = some tr)
    (hOther : ∀ key ∈ partKeys, key ≠ "toolResponse" → get part key = none) (hScan : scan.part part = some next) :
    Agrees keep (layout.part settings part) (extracted.extractPart settings part) next := by
  simp (disch := decide) [Scan.part, noText hOther, hOther, hResponse] at hScan
  cases hScan
  simp (disch := decide) only [Layout.part, Extraction.extractPart, noText hOther, hOther, hResponse, h.ids]
  refine h.push _ _ scan.called ?_
  rw [h.called]
  exact congrArg Option.isSome (lastCode_sentOr { layout.ids with lastServerToolCallId := none } settings _).symm

/-- The block is closed before a file. -/
theorem inlineData (h : Agrees keep layout extracted scan) {inline : Json}
    (hInline : get part "inlineData" = some inline)
    (hOther : ∀ key ∈ partKeys, key ≠ "inlineData" → get part key = none) (hScan : scan.part part = some next) :
    Agrees keep (layout.part settings part) (extracted.extractPart settings part) next := by
  simp (disch := decide) [Scan.part, noText hOther, hOther, hInline] at hScan
  cases hScan
  simp (disch := decide) only [Layout.part, Extraction.extractPart, noText hOther, hOther, hInline, h.ids]
  have hClosed : Agrees keep layout.close extracted scan.close :=
    ⟨h.ids, h.called, Held.close layout scan, h.merged⟩
  exact (hClosed.push _ _ _ h.called).close

theorem functionCall (h : Agrees keep layout extracted scan) {call : Json}
    (hFunction : get part "functionCall" = some call) (hComplete : CompleteCall part)
    (hOther : ∀ key ∈ partKeys, key ≠ "functionCall" → get part key = none) (hScan : scan.part part = some next) :
    Agrees keep (layout.part settings part) (extracted.extractPart settings part) next := by
  obtain ⟨⟨name, hName⟩, ⟨fields, hArgs⟩, _, _⟩ := hComplete call hFunction
  simp (disch := decide) [Scan.part, noText hOther, hOther, hFunction] at hScan
  cases hScan
  simp (disch := decide) only [Layout.part, Extraction.extractPart, noText hOther, hOther, hFunction,
    Option.bind_some, hName, Layout.call, Layout.callInput, callField, Extraction.extractCall, hArgs, h.ids]
  have hClosed : Agrees keep layout.close extracted scan.close :=
    ⟨h.ids, h.called, Held.close layout scan, h.merged⟩
  have hPushed := (hClosed.push [.toolCall {
    toolCallId := (layout.ids.sentOr settings (getStr call "id")).1
    toolName := name
    input := settings.toString (.object fields)
    providerMetadata := thoughtSignatureMetadata settings part }]
    (layout.ids.sentOr settings (getStr call "id")).2 scan.called
    (by rw [lastCode_sentOr]; exact h.called)).close
  exact ⟨hPushed.ids, hPushed.called, hPushed.held, hPushed.merged⟩

end Agrees

/-- What is asked of a part. -/
structure Fits (keep : Bool) (part : Json) : Prop where
  oneKind : OneKind part
  complete : CompleteCall part
  silent : keep = true → ¬ IsEmptySigned part

theorem Agrees.steps (h : Agrees keep layout extracted scan) (hFits : Fits keep part)
    (hScan : scan.part part = some next) :
    Agrees keep (layout.part settings part) (extracted.extractPart settings part) next := by
  have hOthers : ∀ {key value}, get part key = some value → key ∈ partKeys → _ := hFits.oneKind.others
  cases hText : getStr part "text" with
  | some text =>
    obtain ⟨value, hValue, _⟩ := Option.bind_eq_some_iff.mp hText
    exact h.text hText (hOthers hValue (by decide)) hFits.silent hScan
  | none =>
    cases hCode : get part "executableCode" with
    | some ec => exact h.executableCode hCode (hOthers hCode (by decide)) hScan
    | none =>
      cases hResult : get part "codeExecutionResult" with
      | some cer => exact h.codeExecutionResult hResult (hOthers hResult (by decide)) hScan
      | none =>
        cases hCall : get part "toolCall" with
        | some tc => exact h.toolCall hCall (hOthers hCall (by decide)) hScan
        | none =>
          cases hResponse : get part "toolResponse" with
          | some tr => exact h.toolResponse hResponse (hOthers hResponse (by decide)) hScan
          | none =>
            cases hInline : get part "inlineData" with
            | some inline => exact h.inlineData hInline (hOthers hInline (by decide)) hScan
            | none =>
              cases hFunction : get part "functionCall" with
              | some call => exact h.functionCall hFunction hFits.complete (hOthers hFunction (by decide)) hScan
              | none =>
                simp only [Scan.part, hText, hCode, hResult, hCall, hResponse, hInline, hFunction, Option.isSome_none,
                  Bool.false_eq_true, or_self, if_false, Option.some.injEq] at hScan
                subst hScan
                simp only [Layout.part, Extraction.extractPart, hText, hCode, hResult, hCall, hResponse, hInline,
                  hFunction]
                exact h

theorem Agrees.run {parts : List Json} (h : Agrees keep layout extracted scan)
    (hFits : ∀ part ∈ parts, Fits keep part) (hScan : parts.foldlM Scan.part scan = some next) :
    Agrees keep (parts.foldl (Layout.part settings) layout) (parts.foldl (Extraction.extractPart settings) extracted)
      next := by
  induction parts generalizing layout extracted scan with
  | nil =>
    obtain rfl : scan = next := Option.some.inj hScan
    exact h
  | cons part parts ih =>
    obtain ⟨between, hPart, hRest⟩ := Option.bind_eq_some_iff.mp (List.foldlM_cons.symm.trans hScan)
    exact ih (h.steps (hFits part (List.mem_cons_self ..)) hPart)
      (fun other hOther => hFits other (List.mem_cons_of_mem _ hOther)) hRest

theorem Agrees.start (keep : Bool) : Agrees keep {} {} {} where
  ids := rfl
  called := rfl
  held := ⟨rfl, fun _ _ hOpen => by cases hOpen⟩
  merged := rfl

theorem streamed_eq_extracted (settings : Settings) (keep : Bool) (parts : List Json) (chunks : List StreamChunk)
    (hParts : ∀ part ∈ parts, OneKind part ∧ CompleteCall part)
    (hSilent : keep = true → ∀ part ∈ parts, ¬ IsEmptySigned part) (hGoesOn : Uninterrupted parts)
    (hChunks : ∀ chunk ∈ chunks, confirmedPromptBlockReason chunk.promptFeedback = none)
    (hSent : sentParts false false chunks = parts) :
    merge keep (assembled settings chunks) =
      merge keep (extractContentFromCandidate settings { parts := some parts }).1 := by
  obtain ⟨next, hScan⟩ := Option.isSome_iff_exists.mp hGoesOn
  subst hSent
  rw [assembled_eq_layout (fun part hPart => (hParts part hPart).2.whole) hChunks]
  exact ((Agrees.start keep).run (fun part hPart => ⟨(hParts part hPart).1, (hParts part hPart).2,
    fun hKeep => hSilent hKeep part hPart⟩) hScan).merged

/-- Ids are counted; no number is shown. -/
def plainSettings : Settings where
  nameSpace := .google
  codeExecutionToolName := "code_execution"
  generateId := fun n => "id-" ++ String.ofList (List.replicate n '+')
  shown := { number := fun _ => [], debug := id }
  asF64 := fun _ => 0

def spoken (text : String) : Json := .object [("text", .string text)]

def emptySigned : Json := .object [("text", .string ""), ("thoughtSignature", .string "s")]

def calling : Json := .object [("functionCall", .object [("name", .string "f"), ("args", .object [])])]

def running : Json := .object [("executableCode", .object [("code", .string "1")])]

def lastChunk (parts : List Json) : StreamChunk where
  candidates := some [{ parts := some parts, finishReason := some "STOP" }]
  usageMetadata := some ({}, .null)

theorem streamed_eq_extracted_spoken :
    let chunks := [{ candidates := some [{ parts := some [spoken "a"] }] }, lastChunk [spoken "b", calling]]
    merge true (assembled plainSettings chunks) = merge true
      (extractContentFromCandidate plainSettings { parts := some [spoken "a", spoken "b", calling] }).1 := by
  refine streamed_eq_extracted plainSettings true _ _ ?_ ?_ rfl ?_ rfl
  · intro part hPart
    simp only [List.mem_cons, List.not_mem_nil, or_false] at hPart
    rcases hPart with rfl | rfl | rfl
    · exact ⟨by decide +kernel, fun call hCall => by cases hCall⟩
    · exact ⟨by decide +kernel, fun call hCall => by cases hCall⟩
    · refine ⟨by decide +kernel, fun call hCall => ?_⟩
      cases hCall
      exact ⟨⟨"f", rfl⟩, ⟨[], rfl⟩, rfl, by decide⟩
  · exact fun _ => by decide +kernel
  · intro chunk hChunk
    simp only [List.mem_cons, List.not_mem_nil, or_false] at hChunk
    rcases hChunk with rfl | rfl <;> rfl

/-- An empty signed text is kept as a block of its own, and attached to the call by the extraction; a text behind
code that is run goes on in the block before it. -/
theorem streamed_ne_extracted :
    (let signed := [("google", Json.object [("thoughtSignature", .string "s")])]
      let call : RawToolCall := { toolCallId := "id-", toolName := "f", input := "\x7b\x7d" }
      assembled plainSettings [lastChunk [calling, emptySigned]] = [.toolCall call, .text "" (some signed)] ∧
        (extractContentFromCandidate plainSettings { parts := some [calling, emptySigned] }).1 =
          [.toolCall { call with providerMetadata := some signed }]) ∧
      let call : RawToolCall := {
        toolCallId := "id-"
        toolName := "code_execution"
        input := "\x7b\"code\":\"1\"\x7d"
        providerExecuted := some true }
      assembled plainSettings [lastChunk [spoken "a", running, spoken "b"]] = [.text "ab" none, .toolCall call] ∧
        (extractContentFromCandidate plainSettings { parts := some [spoken "a", running, spoken "b"] }).1 =
          [.text "a" none, .toolCall call, .text "b" none] := by
  refine ⟨⟨?_, ?_⟩, ?_, ?_⟩
  · rfl
  · rfl
  · rfl
  · rfl

end Aimux.Google
