import Aimux.Google.ConvertToMessages
import Aimux.Google.StreamAgreement

/-! # Signatures of a response in the next request

Which thought signatures come back in the next request, when the content of a response is sent back with its
metadata as options: those of a stream, whose texts share blocks, and those of a candidate that came whole, where
an empty text hands its signature to the item before it.
-/

namespace Aimux.Google

open Aimux.Core

/-! ## Signatures of a stream -/

/-- Of the kind, and not empty. -/
def speaks (kind : BlockKind) (part : Json) : Bool := (getStr part "text").any (· ≠ "") && textKind part = kind

/-- A text of the other kind, an item that the client sees, or the signed end of a text. -/
def endsBlock (kind : BlockKind) (part : Json) : Bool :=
  match getStr part "text" with
  | some text => (text ≠ "" || isSigned part) && (textKind part ≠ kind || (kind = .text && isSigned part))
  | none => (get part "inlineData").isSome || (get part "functionCall").isSome

/-- The block of the kind that is open behind the parts has said something. -/
def spokenBefore (kind : BlockKind) (before : List Json) : Bool :=
  before.foldl (fun spoken part => !endsBlock kind part && (spoken || speaks kind part)) false

/-- The block goes on to say something. -/
def spokenAfter (kind : BlockKind) : List Json → Bool
  | [] => false
  | part :: after => !endsBlock kind part && (speaks kind part || spokenAfter kind after)

/-- No thought of the block is signed any more. -/
def lastSigned : List Json → Bool
  | [] => true
  | part :: after => endsBlock .reasoning part || (!((getStr part "text").isSome && isThought part && isSigned part) &&
      lastSigned after)

/-- An item of its own that has room for a signature. -/
def bearsSignature (part : Json) : Bool :=
  ((get part "functionCall").bind (getStr · "name")).isSome || (get part "toolCall").isSome ||
    (get part "inlineData").any fun inline => (getStr inline "data").isSome && (getStr inline "mimeType").isSome

/-- Where a stream does not lose the signature of a part. -/
def streamKeeps (keepsEmpty : Bool) (before : List Json) (part : Json) (after : List Json) : Bool :=
  match getStr part "text" with
  | some text =>
    if isThought part then
      (text ≠ "" || spokenBefore .reasoning before || spokenAfter .reasoning after) && lastSigned after
    else text ≠ "" || spokenBefore .text before || keepsEmpty
  | none => bearsSignature part || (get part "toolResponse").isSome

/-- A text and its open block. -/
structure Layout.Sound (layout : Layout) : Prop where
  opened : ∀ kind i, layout.opened = some (kind, i) → ∃ body metadata,
    layout.content[i]? = some (kind.content body metadata)

/-- The block of the item is not open. -/
structure Layout.Rests (layout : Layout) (i : Nat) (piece : GenerateContent) : Prop where
  here : layout.content[i]? = some piece
  apart : ∀ kind, layout.opened ≠ some (kind, i)

variable {text : String}

namespace Layout

variable {settings : Settings} {layout : Layout} {i : Nat} {piece : GenerateContent} {kind : BlockKind}

theorem sound_push (h : layout.Sound) (content : List GenerateContent) (ids : CallIds) : (layout.push content ids).Sound := by
  refine ⟨fun kind i hOpen => ?_⟩
  obtain ⟨body, metadata, hPiece⟩ := h.opened kind i hOpen
  refine ⟨body, metadata, ?_⟩
  rw [push, List.getElem?_append_left (List.getElem?_eq_some_iff.mp hPiece).1, hPiece]

theorem sound_close (layout : Layout) : layout.close.Sound := ⟨fun _ _ hOpen => by cases hOpen⟩

/-- A text in a block: in the one that is open, or in a new one behind the content. -/
structure Spoken (layout next : Layout) (kind : BlockKind) (text : String) (metadata : Option ProviderMetadata)
    (i : Nat) (body : String) (before : Option ProviderMetadata) : Prop where
  opened : next.opened = some (kind, i)
  here : next.content[i]? = some (kind.content (body ++ text) (metadata <|> before))
  went : ∀ j, layout.opened = some (kind, j) → j = i ∧ layout.content[i]? = some (kind.content body before)
  started : (∀ j, layout.opened ≠ some (kind, j)) → i = layout.content.length
  others : ∀ j piece, j ≠ i → layout.content[j]? = some piece → next.content[j]? = some piece

theorem spoken_new (layout : Layout) (kind : BlockKind) (text : String) (metadata : Option ProviderMetadata)
    (hClosed : ∀ j, layout.opened ≠ some (kind, j)) :
    Spoken layout { layout with
      content := layout.content ++ [kind.content text metadata]
      opened := some (kind, layout.content.length) } kind text metadata layout.content.length "" none := by
  refine ⟨rfl, ?_, fun j hOpen => absurd hOpen (hClosed j), fun _ => rfl, fun j piece _ hHere => ?_⟩
  · rw [List.getElem?_concat_length, String.empty_append]
    cases metadata <;> rfl
  · rw [List.getElem?_append_left (List.getElem?_eq_some_iff.mp hHere).1, hHere]

theorem spoken_speak (h : layout.Sound) (kind : BlockKind) (text : String) (metadata : Option ProviderMetadata) :
    ∃ i body before, Spoken layout (layout.speak kind text metadata) kind text metadata i body before := by
  rw [speak]
  cases hOpen : layout.opened with
  | none =>
    have hNew := spoken_new layout kind text metadata (by rw [hOpen]; simp)
    exact ⟨_, _, _, hNew⟩
  | some opened =>
    obtain ⟨going, i⟩ := opened
    by_cases hSame : going = kind
    · subst hSame
      obtain ⟨body, before, hPiece⟩ := h.opened going i hOpen
      simp only [if_true]
      refine ⟨i, body, before, ⟨rfl, ?_, fun j hOther => ?_, fun hClosed => absurd hOpen (hClosed i),
        fun j piece hApart hHere => ?_⟩⟩
      · rw [modify_of_getElem? hPiece, List.getElem?_set_self (List.getElem?_eq_some_iff.mp hPiece).1, extend_content]
      · rw [hOpen] at hOther
        cases hOther
        exact ⟨rfl, hPiece⟩
      · rw [List.getElem?_modify_ne _ _ (Ne.symm hApart), hHere]
    · simp only [if_neg hSame]
      have hNew := spoken_new layout kind text metadata (by rw [hOpen]; simpa using hSame)
      exact ⟨_, _, _, hNew⟩

theorem sound_speak (h : layout.Sound) (kind : BlockKind) (text : String) (metadata : Option ProviderMetadata) :
    (layout.speak kind text metadata).Sound := by
  obtain ⟨i, body, before, hSpoken⟩ := spoken_speak h kind text metadata
  refine ⟨fun other j hOpen => ?_⟩
  rw [hSpoken.opened] at hOpen
  cases hOpen
  exact ⟨_, _, hSpoken.here⟩

theorem sound_text (h : layout.Sound) (kind : BlockKind) (text : String) (metadata : Option ProviderMetadata) :
    (layout.text kind text metadata).Sound := by
  rw [Layout.text]
  split
  · exact sound_close _
  · exact sound_speak h kind text metadata

theorem sound_call (h : layout.Sound) (settings : Settings) (part call : Json) :
    (layout.call settings part call).Sound := by
  rw [Layout.call]
  split
  · exact sound_push h _ _
  · exact h

theorem sound_part (h : layout.Sound) (settings : Settings) (part : Json) : (layout.part settings part).Sound := by
  rw [Layout.part]
  split
  · split
    · exact sound_text h _ _ _
    · exact h
  · split
    · exact sound_push h _ _
    · split
      · exact sound_push h _ _
      · split
        · exact sound_push h _ _
        · split
          · exact sound_push h _ _
          · split
            · exact sound_push (sound_close layout) _ _
            · split
              · exact sound_call (sound_close layout) settings part _
              · exact h

theorem sound_parts (h : layout.Sound) (settings : Settings) (parts : List Json) :
    (parts.foldl (Layout.part settings) layout).Sound := by
  induction parts generalizing layout with
  | nil => exact h
  | cons part parts ih => exact ih (sound_part h settings part)

/-! ### What no later part changes -/

namespace Rests

theorem push (h : layout.Rests i piece) (content : List GenerateContent) (ids : CallIds) :
    (layout.push content ids).Rests i piece := by
  refine ⟨?_, h.apart⟩
  rw [Layout.push, List.getElem?_append_left (List.getElem?_eq_some_iff.mp h.here).1, h.here]

theorem close (h : layout.Rests i piece) : layout.close.Rests i piece := ⟨h.here, fun _ hOpen => by cases hOpen⟩

theorem speak (h : layout.Rests i piece) (hSound : layout.Sound) (kind : BlockKind) (text : String)
    (metadata : Option ProviderMetadata) : (layout.speak kind text metadata).Rests i piece := by
  obtain ⟨j, body, before, hSpoken⟩ := spoken_speak hSound kind text metadata
  have hApart : i ≠ j := by
    rintro rfl
    by_cases hOpen : ∃ k, layout.opened = some (kind, k)
    · obtain ⟨k, hOpen⟩ := hOpen
      exact h.apart kind ((hSpoken.went k hOpen).1 ▸ hOpen)
    · have hLength := (List.getElem?_eq_some_iff.mp h.here).1
      exact absurd (hSpoken.started fun k hSome => hOpen ⟨k, hSome⟩) (by omega)
  refine ⟨hSpoken.others i piece hApart h.here, fun other hOpen => ?_⟩
  rw [hSpoken.opened] at hOpen
  cases hOpen
  exact hApart rfl

theorem part (h : layout.Rests i piece) (hSound : layout.Sound) (settings : Settings) (part : Json) :
    (layout.part settings part).Rests i piece := by
  rw [Layout.part]
  split
  · split
    · rw [Layout.text]
      split
      · exact (h.speak hSound _ _ _).close
      · exact h.speak hSound _ _ _
    · exact h
  · split
    · exact h.push _ _
    · split
      · exact h.push _ _
      · split
        · exact h.push _ _
        · split
          · exact h.push _ _
          · split
            · exact h.close.push _ _
            · split
              · rw [Layout.call]
                split
                · exact h.close.push _ _
                · exact h.close
              · exact h

theorem parts (h : layout.Rests i piece) (hSound : layout.Sound) (settings : Settings) (parts : List Json) :
    (parts.foldl (Layout.part settings) layout).content[i]? = some piece := by
  induction parts generalizing layout with
  | nil => exact h.here
  | cons part parts ih => exact ih (h.part hSound settings part) (sound_part hSound settings part)

/-- A new item, behind all blocks. -/
theorem new (hSound : layout.Sound) (piece : GenerateContent) (ids : CallIds) :
    (layout.push [piece] ids).Rests layout.content.length piece := by
  refine ⟨List.getElem?_concat_length, fun kind hOpen => ?_⟩
  obtain ⟨_, _, hPiece⟩ := hSound.opened kind _ hOpen
  exact absurd (List.getElem?_eq_some_iff.mp hPiece).1 (Nat.lt_irrefl _)

end Rests

/-! ### Parts that do not end the open block -/

/-- The block is open and has this. -/
structure Goes (layout : Layout) (kind : BlockKind) (i : Nat) (body : String) (metadata : Option ProviderMetadata) :
    Prop where
  opened : layout.opened = some (kind, i)
  here : layout.content[i]? = some (kind.content body metadata)

variable {metadata : Option ProviderMetadata} {body : String}

variable (kind) in
theorem content_injective {other : String} {otherMetadata : Option ProviderMetadata}
    (h : kind.content body metadata = kind.content other otherMetadata) : body = other ∧ metadata = otherMetadata := by
  cases kind <;> cases h <;> exact ⟨rfl, rfl⟩

/-- What the part has to say in a block of the kind, and its metadata. -/
def said (settings : Settings) (kind : BlockKind) (part : Json) : String × Option ProviderMetadata :=
  match getStr part "text" with
  | some text => if textKind part = kind then (text, thoughtSignatureMetadata settings part) else ("", none)
  | none => ("", none)

theorem Goes.push (h : layout.Goes kind i body metadata) (content : List GenerateContent) (ids : CallIds) :
    (layout.push content ids).Goes kind i (body ++ "") (none <|> metadata) := by
  refine ⟨h.opened, ?_⟩
  rw [Layout.push, List.getElem?_append_left (List.getElem?_eq_some_iff.mp h.here).1, h.here, String.append_empty]
  rfl

theorem Goes.part (h : layout.Goes kind i body metadata) (hSound : layout.Sound) (settings : Settings) {part : Json}
    (hGoes : endsBlock kind part = false) :
    (layout.part settings part).Goes kind i (body ++ (said settings kind part).1)
      ((said settings kind part).2 <|> metadata) := by
  have hSame : layout.Goes kind i (body ++ "") (none <|> metadata) := by
    rw [String.append_empty]
    exact h
  rw [endsBlock] at hGoes
  rw [Layout.part, said]
  cases hText : getStr part "text" with
  | some text =>
    simp only [hText] at hGoes ⊢
    by_cases hLoud : text ≠ "" ∨ isSigned part = true
    · have hKind : textKind part = kind ∧ ¬ (kind = .text ∧ isSigned part = true) := by
        simp only [Bool.and_eq_false_iff, Bool.or_eq_false_iff, decide_eq_false_iff_not, not_not] at hGoes
        rcases hGoes with ⟨hEmpty, hUnsigned⟩ | ⟨hKind, hOpen⟩
        · rcases hLoud with hLoud | hLoud
          · exact absurd hEmpty hLoud
          · rw [hLoud] at hUnsigned
            cases hUnsigned
        · refine ⟨hKind, fun hBoth => ?_⟩
          rcases hOpen with hOpen | hOpen
          · exact hOpen hBoth.1
          · rw [hBoth.2] at hOpen
            cases hOpen
      rw [if_pos hLoud, if_pos hKind.1, hKind.1, Layout.text, isSome_metadata, if_neg hKind.2]
      obtain ⟨j, _, _, hSpoken⟩ := spoken_speak hSound kind text (thoughtSignatureMetadata settings part)
      obtain ⟨rfl, hBefore⟩ := hSpoken.went i h.opened
      obtain ⟨rfl, rfl⟩ := content_injective _ (Option.some.inj (hBefore.symm.trans h.here))
      exact ⟨hSpoken.opened, hSpoken.here⟩
    · rw [if_neg hLoud]
      obtain ⟨rfl, hUnsigned⟩ : text = "" ∧ isSigned part = false := by simpa using hLoud
      have hNone : thoughtSignatureMetadata settings part = none := by
        rw [← Option.not_isSome_iff_eq_none, isSome_metadata, hUnsigned]
        simp
      rw [hNone, ite_self]
      exact hSame
  | none =>
    simp only [hText, Bool.or_eq_false_iff, Option.isSome_eq_false_iff, Option.isNone_iff_eq_none] at hGoes ⊢
    rw [hGoes.1, hGoes.2]
    split
    · exact h.push _ _
    · split
      · exact h.push _ _
      · split
        · exact h.push _ _
        · split
          · exact h.push _ _
          · exact hSame

theorem said_of_speaks (settings : Settings) {part : Json} (hSpeaks : speaks kind part = true) :
    (said settings kind part).1 ≠ "" := by
  rw [speaks, Bool.and_eq_true, decide_eq_true_eq] at hSpeaks
  rw [said]
  cases hText : getStr part "text" with
  | some text => simpa [hText, hSpeaks.2] using hSpeaks.1
  | none => simp [hText] at hSpeaks

theorem said_unsigned (settings : Settings) {part : Json}
    (hUnsigned : (!((getStr part "text").isSome && isThought part && isSigned part)) = true) :
    (said settings .reasoning part).2 = none := by
  rw [said]
  split
  · rename_i text hText
    split
    · rename_i hKind
      have hThought : isThought part = true := by
        rw [textKind] at hKind
        by_contra hOther
        rw [if_neg hOther] at hKind
        cases hKind
      rw [← Option.not_isSome_iff_eq_none, isSome_metadata]
      simpa [hText, hThought] using hUnsigned
    · rfl
  · rfl

/-- A part that ends the block of thoughts leaves it as it is. -/
theorem Goes.ends (h : layout.Goes .reasoning i body metadata) (hSound : layout.Sound) (settings : Settings)
    {part : Json} (hKind : OneKind part) (hEnds : endsBlock .reasoning part = true) :
    (layout.part settings part).Rests i (BlockKind.reasoning.content body metadata) := by
  have hClosed : layout.close.Rests i (BlockKind.reasoning.content body metadata) :=
    ⟨h.here, fun _ hOpen => by cases hOpen⟩
  rw [endsBlock] at hEnds
  cases hText : getStr part "text" with
  | some text =>
    simp only [hText, Bool.and_eq_true, Bool.or_eq_true, decide_eq_true_eq, reduceCtorEq, decide_false, Bool.false_and,
      or_false, Bool.false_eq_true] at hEnds
    have hOther : textKind part = .text := by
      cases hKind : textKind part with
      | text => rfl
      | reasoning => exact absurd hKind hEnds.2
    rw [Layout.part]
    simp only [hText, if_pos hEnds.1, hOther, Layout.text]
    obtain ⟨j, _, _, hSpoken⟩ := spoken_speak hSound .text text (thoughtSignatureMetadata settings part)
    have hApart : i ≠ j := by
      have hLength := (List.getElem?_eq_some_iff.mp h.here).1
      have hStarted := hSpoken.started fun k hOpen => by
        rw [h.opened] at hOpen
        cases hOpen
      omega
    have hRests : (layout.speak .text text (thoughtSignatureMetadata settings part)).Rests i
        (BlockKind.reasoning.content body metadata) := by
      refine ⟨hSpoken.others i _ hApart h.here, fun other hOpen => ?_⟩
      rw [hSpoken.opened] at hOpen
      cases hOpen
      exact hApart rfl
    split
    · exact hRests.close
    · exact hRests
  | none =>
    simp only [hText, Bool.or_eq_true, Option.isSome_iff_exists] at hEnds
    rw [Layout.part, hText]
    rcases hEnds with ⟨inline, hInline⟩ | ⟨call, hFunction⟩
    · have hOthers := hKind.others hInline (by decide)
      simp (disch := decide) only [hOthers, hInline]
      exact hClosed.push _ _
    · have hOthers := hKind.others hFunction (by decide)
      simp (disch := decide) only [hOthers, hFunction, Layout.call]
      split
      · exact hClosed.push _ _
      · exact hClosed

/-- The thought keeps its metadata when no other thought of its block is signed. -/
theorem Goes.run (h : layout.Goes .reasoning i body metadata) (hSound : layout.Sound) (settings : Settings)
    {after : List Json} (hKinds : ∀ part ∈ after, OneKind part) (hLast : lastSigned after = true) :
    ∃ more, (after.foldl (Layout.part settings) layout).content[i]? =
        some (BlockKind.reasoning.content (body ++ more) metadata) ∧
      (spokenAfter .reasoning after = true → more ≠ "") := by
  induction after generalizing layout body with
  | nil => exact ⟨"", by rw [String.append_empty]; exact h.here, fun hSpoken => by cases hSpoken⟩
  | cons part after ih =>
    have hHead := hKinds part (List.mem_cons_self ..)
    have hNext := sound_part hSound settings part
    by_cases hEnds : endsBlock .reasoning part = true
    · refine ⟨"", ?_, fun hSpoken => ?_⟩
      · rw [String.append_empty]
        exact (h.ends hSound settings hHead hEnds).parts hNext settings after
      · rw [spokenAfter, hEnds] at hSpoken
        cases hSpoken
    · rw [Bool.not_eq_true] at hEnds
      rw [lastSigned, hEnds, Bool.false_or, Bool.and_eq_true] at hLast
      have hPart : (layout.part settings part).Goes .reasoning i (body ++ (said settings .reasoning part).1) metadata := by
        have hGoes := h.part hSound settings hEnds
        rw [said_unsigned settings hLast.1] at hGoes
        exact hGoes
      obtain ⟨more, hHere, hMore⟩ := ih hPart hNext (fun other hOther => hKinds other (List.mem_cons_of_mem _ hOther))
        hLast.2
      refine ⟨(said settings .reasoning part).1 ++ more, by rw [← String.append_assoc]; exact hHere, fun hSpoken => ?_⟩
      rw [spokenAfter, hEnds, Bool.not_false, Bool.true_and, Bool.or_eq_true] at hSpoken
      intro hNothing
      rw [String.append_eq_empty_iff] at hNothing
      rcases hSpoken with hHere | hLater
      · exact said_of_speaks settings hHere hNothing.1
      · exact hMore hLater hNothing.2

/-- What a text that the stream does not pass over leads to. -/
theorem part_text {part : Json} (hText : getStr part "text" = some text) (hLoud : text ≠ "" ∨ isSigned part = true)
    (settings : Settings) :
    layout.part settings part = layout.text (textKind part) text (thoughtSignatureMetadata settings part) := by
  rw [Layout.part]
  simp only [hText, if_pos hLoud]

theorem goes_of_speaks (hSound : layout.Sound) (settings : Settings) {part : Json} (hSpeaks : speaks kind part = true)
    (hGoes : endsBlock kind part = false) :
    ∃ i body metadata, (layout.part settings part).Goes kind i body metadata ∧ body ≠ "" := by
  rw [speaks, Bool.and_eq_true, decide_eq_true_eq] at hSpeaks
  cases hText : getStr part "text" with
  | some text =>
    have hNonempty : text ≠ "" := by simpa [hText] using hSpeaks.1
    have hUnsigned : ¬ (kind = .text ∧ (thoughtSignatureMetadata settings part).isSome = true) := by
      rw [isSome_metadata]
      simpa [endsBlock, hText, hNonempty, hSpeaks.2] using hGoes
    obtain ⟨i, body, before, hSpoken⟩ := spoken_speak hSound kind text (thoughtSignatureMetadata settings part)
    rw [part_text hText (.inl hNonempty), hSpeaks.2, Layout.text, if_neg hUnsigned]
    exact ⟨i, body ++ text, _, ⟨hSpoken.opened, hSpoken.here⟩, fun hEmpty =>
      hNonempty (String.append_eq_empty_iff.mp hEmpty).2⟩
  | none => simp [hText] at hSpeaks

theorem goes_of_spokenBefore (hSound : layout.Sound) (settings : Settings) {before : List Json} {spoken : Bool}
    (hSpoken : spoken = true → ∃ i body metadata, layout.Goes kind i body metadata ∧ body ≠ "")
    (hBefore : before.foldl (fun spoken part => !endsBlock kind part && (spoken || speaks kind part)) spoken = true) :
    ∃ i body metadata, (before.foldl (Layout.part settings) layout).Goes kind i body metadata ∧ body ≠ "" := by
  induction before generalizing layout spoken with
  | nil => exact hSpoken hBefore
  | cons part before ih =>
    refine ih (sound_part hSound settings part) (fun hNext => ?_) hBefore
    rw [Bool.and_eq_true, Bool.not_eq_true', Bool.or_eq_true] at hNext
    rcases hNext.2 with hGoing | hSpeaks
    · obtain ⟨i, body, metadata, hGoes, hNonempty⟩ := hSpoken hGoing
      exact ⟨i, _, _, hGoes.part hSound settings hNext.1, fun hEmpty =>
        hNonempty (String.append_eq_empty_iff.mp hEmpty).1⟩
    · exact goes_of_speaks hSound settings hSpeaks hNext.1

end Layout

/-! ### Signatures that a stream keeps -/

variable {crates : Crates} {settings : Settings} {keepsEmpty : Bool} {signature : String} {before after : List Json}
  {part : Json}

variable (settings) in
theorem metadata_of_signature (hSignature : getStr part "thoughtSignature" = some signature) (hSigned : signature ≠ "") :
    thoughtSignatureMetadata settings part = some (signatureMetadata settings.nameSpace signature) ∧
      isSigned part = true := by
  constructor
  · simp [thoughtSignatureMetadata, hSignature, hSigned, signatureMetadata]
  · simp [isSigned, hSignature, hSigned]

variable {layout : Layout}

/-- A thought: it is signed with what its block keeps. -/
theorem thought_kept (hSound : layout.Sound)
    (hBefore : spokenBefore .reasoning before = true →
      ∃ i body metadata, layout.Goes .reasoning i body metadata ∧ body ≠ "")
    (hSignature : getStr part "thoughtSignature" = some signature) (hSigned : signature ≠ "")
    (hText : getStr part "text" = some text) (hThought : isThought part = true)
    (hKinds : ∀ other ∈ after, OneKind other)
    (hKeeps : (text ≠ "" || spokenBefore .reasoning before || spokenAfter .reasoning after) = true)
    (hLast : lastSigned after = true) :
    ∃ piece ∈ (after.foldl (Layout.part settings) (layout.part settings part)).content,
      Carries crates settings.nameSpace keepsEmpty signature piece := by
  obtain ⟨hMetadata, hLoud⟩ := metadata_of_signature settings hSignature hSigned
  have hKind : textKind part = .reasoning := if_pos hThought
  obtain ⟨i, body, old, hSpoken⟩ := Layout.spoken_speak hSound .reasoning text (thoughtSignatureMetadata settings part)
  have hPart : layout.part settings part = layout.speak .reasoning text (thoughtSignatureMetadata settings part) := by
    rw [Layout.part_text hText (.inr hLoud), hKind, Layout.text, if_neg (by simp)]
  have hGoes : (layout.part settings part).Goes .reasoning i (body ++ text)
      (some (signatureMetadata settings.nameSpace signature)) := by
    rw [hPart]
    refine ⟨hSpoken.opened, hSpoken.here.trans ?_⟩
    rw [hMetadata]
    rfl
  obtain ⟨more, hHere, hMore⟩ := hGoes.run (Layout.sound_part hSound settings part) settings hKinds hLast
  refine ⟨_, List.mem_of_getElem? hHere, carries_reasoning ?_⟩
  intro hEmpty
  rw [String.append_eq_empty_iff, String.append_eq_empty_iff] at hEmpty
  simp only [Bool.or_eq_true, decide_eq_true_eq] at hKeeps
  rcases hKeeps with (hText | hFront) | hBack
  · exact hText hEmpty.1.2
  · obtain ⟨j, front, metadata, hGoing, hNonempty⟩ := hBefore hFront
    obtain ⟨rfl, hOld⟩ := hSpoken.went j hGoing.opened
    obtain ⟨rfl, _⟩ := Layout.content_injective _ (Option.some.inj (hOld.symm.trans hGoing.here))
    exact hNonempty hEmpty.1.1
  · exact hMore hBack hEmpty.2

/-- A signed text closes its block, and nothing changes it any more. -/
theorem text_kept (hSound : layout.Sound)
    (hBefore : spokenBefore .text before = true → ∃ i body metadata, layout.Goes .text i body metadata ∧ body ≠ "")
    (hSignature : getStr part "thoughtSignature" = some signature) (hSigned : signature ≠ "")
    (hText : getStr part "text" = some text) (hThought : isThought part = false)
    (hKeeps : (text ≠ "" || spokenBefore .text before || keepsEmpty) = true) :
    ∃ piece ∈ (after.foldl (Layout.part settings) (layout.part settings part)).content,
      Carries crates settings.nameSpace keepsEmpty signature piece := by
  obtain ⟨hMetadata, hLoud⟩ := metadata_of_signature settings hSignature hSigned
  have hKind : textKind part = .text := if_neg (by simp [hThought])
  obtain ⟨i, body, old, hSpoken⟩ := Layout.spoken_speak hSound .text text (thoughtSignatureMetadata settings part)
  have hPart : layout.part settings part =
      (layout.speak .text text (thoughtSignatureMetadata settings part)).close := by
    rw [Layout.part_text hText (.inr hLoud), hKind, Layout.text, if_pos ⟨rfl, by rw [isSome_metadata, hLoud]⟩]
  have hRests : (layout.part settings part).Rests i
      (.text (body ++ text) (some (signatureMetadata settings.nameSpace signature))) := by
    rw [hPart]
    refine ⟨hSpoken.here.trans ?_, fun _ hOpen => by cases hOpen⟩
    rw [hMetadata]
    rfl
  refine ⟨_, List.mem_of_getElem? (hRests.parts (Layout.sound_part hSound settings part) settings after),
    carries_text ?_⟩
  simp only [Bool.or_eq_true, decide_eq_true_eq] at hKeeps
  rcases hKeeps with (hText | hFront) | hKeeps
  · exact .inl fun hEmpty => hText (String.append_eq_empty_iff.mp hEmpty).2
  · obtain ⟨j, front, metadata, hGoing, hNonempty⟩ := hBefore hFront
    obtain ⟨rfl, hOld⟩ := hSpoken.went j hGoing.opened
    obtain ⟨rfl, _⟩ := Layout.content_injective .text (Option.some.inj (hOld.symm.trans hGoing.here))
    exact .inl fun hEmpty => hNonempty (String.append_eq_empty_iff.mp hEmpty).1
  · exact .inr hKeeps

theorem server_ne_codeExecution (toolType : String) : "server:" ++ toolType ≠ "code_execution" := by
  intro hSame
  have hChars := congrArg String.toList hSame
  rw [String.toList_append, show "server:".toList = 's' :: "erver:".toList by decide +kernel,
    show "code_execution".toList = 'c' :: "ode_execution".toList by decide +kernel] at hChars
  cases hChars

theorem carries_serverToolCall (hSignature : getStr part "thoughtSignature" = some signature) (hSigned : signature ≠ "")
    (ids : CallIds) (tc : Json) :
    Carries crates settings.nameSpace keepsEmpty signature (.toolCall (serverToolCall settings ids part tc).1) :=
  carries_serverCall rfl (server_ne_codeExecution _) hSigned (by rw [← hSignature]; rfl)

theorem carries_serverToolResponse (hSignature : getStr part "thoughtSignature" = some signature)
    (hSigned : signature ≠ "") (ids : CallIds) (tr : Json) :
    Carries crates settings.nameSpace keepsEmpty signature (.toolResult (serverToolResponse settings ids part tr).1) :=
  carries_serverResponse rfl (server_ne_codeExecution _) hSigned (by rw [← hSignature]; rfl)

variable (settings part) in
theorem inlineFile_complete {inline : Json}
    (hComplete : ((getStr inline "data").isSome && (getStr inline "mimeType").isSome) = true) :
    ∃ data mime, inlineFile settings part inline = some {
      data := .data (.base64 data)
      mediaType := mime
      providerMetadata := thoughtSignatureMetadata settings part } := by
  rw [Bool.and_eq_true, Option.isSome_iff_exists, Option.isSome_iff_exists] at hComplete
  obtain ⟨⟨data, hData⟩, mime, hMime⟩ := hComplete
  exact ⟨data, mime, by rw [inlineFile, hData, hMime]⟩

/-- An item of its own has the signature, and no later part changes it. -/
theorem item_kept (hSound : layout.Sound) (hSignature : getStr part "thoughtSignature" = some signature)
    (hSigned : signature ≠ "") (hKind : OneKind part) (hText : getStr part "text" = none)
    (hKeeps : (bearsSignature part || (get part "toolResponse").isSome) = true) :
    ∃ piece ∈ (after.foldl (Layout.part settings) (layout.part settings part)).content,
      Carries crates settings.nameSpace keepsEmpty signature piece := by
  obtain ⟨hMetadata, _⟩ := metadata_of_signature settings hSignature hSigned
  obtain ⟨inner, piece, ids, hInner, hPart, hCarries⟩ : ∃ (inner : Layout) (piece : GenerateContent) (ids : CallIds),
      inner.Sound ∧ layout.part settings part = inner.push [piece] ids ∧
        Carries crates settings.nameSpace keepsEmpty signature piece := by
    rw [Layout.part, hText]
    simp only [bearsSignature, Bool.or_eq_true, Option.isSome_iff_exists] at hKeeps
    rcases hKeeps with ((⟨name, hName⟩ | ⟨tc, hCall⟩) | hInline) | ⟨tr, hResponse⟩
    · obtain ⟨call, hFunction, hName⟩ := Option.bind_eq_some_iff.mp hName
      have hOthers := hKind.others hFunction (by decide)
      simp (disch := decide) only [hOthers, hFunction, Layout.call, hName]
      exact ⟨layout.close, _, _, Layout.sound_close layout, rfl, carries_call (by simp) hMetadata⟩
    · have hOthers := hKind.others hCall (by decide)
      simp (disch := decide) only [hOthers, hCall]
      exact ⟨layout, _, _, hSound, rfl, carries_serverToolCall hSignature hSigned _ _⟩
    · cases hData : get part "inlineData" with
      | none => simp [hData] at hInline
      | some inline =>
        rw [hData, Option.any_some] at hInline
        obtain ⟨data, mime, hFile⟩ := inlineFile_complete settings part hInline
        have hOthers := hKind.others hData (by decide)
        simp (disch := decide) only [hOthers, hFile, Option.map_some]
        refine ⟨layout.close, _, _, Layout.sound_close layout, rfl, ?_⟩
        split
        · exact carries_reasoningFile rfl hMetadata
        · exact carries_file rfl hMetadata
    · have hOthers := hKind.others hResponse (by decide)
      simp (disch := decide) only [hOthers, hResponse]
      exact ⟨layout, _, _, hSound, rfl, carries_serverToolResponse hSignature hSigned _ _⟩
  rw [hPart]
  exact ⟨piece, List.mem_of_getElem?
    ((Layout.Rests.new hInner piece ids).parts (Layout.sound_push hInner [piece] ids) settings after), hCarries⟩

/-! ## Signatures of a candidate that came whole -/

def callsCode (part : Json) : Bool := (get part "executableCode").any hasCode

def speaksAny (part : Json) : Bool := (getStr part "text").any (· ≠ "")

/-- An item of its own; results are those of code that was called. -/
def addsItem (called : Bool) (part : Json) : Bool :=
  callsCode part || (called && (get part "codeExecutionResult").isSome) || speaksAny part || bearsSignature part ||
    (get part "toolResponse").isSome

/-- An empty signed text comes only behind another item. -/
def shielded (called : Bool) : List Json → Bool
  | [] => true
  | part :: after => !decide (IsEmptySigned part) &&
      (addsItem called part || shielded (called || callsCode part) after)

/-- Whether code was called, and whether the last item has room for a signature. -/
def lastItem (before : List Json) : Bool × Bool :=
  before.foldl (fun last part => (last.1 || callsCode part,
    if addsItem last.1 part then speaksAny part || bearsSignature part else last.2)) (false, false)

/-- Where the extraction does not lose the signature of a part. -/
def wholeKeeps (before : List Json) (part : Json) (after : List Json) : Bool :=
  (speaksAny part || bearsSignature part || (get part "toolResponse").isSome ||
      (decide (getStr part "text" = some "") && (lastItem before).2)) &&
    shielded ((lastItem before).1 || callsCode part) after

/-- Code was called. -/
def Extraction.called (extracted : Extraction) : Bool := extracted.ids.lastCodeExecutionToolCallId.isSome

theorem isSome_lastCode_sentOr (ids : CallIds) (settings : Settings) (sent : Option String) :
    (ids.sentOr settings sent).2.lastCodeExecutionToolCallId.isSome = ids.lastCodeExecutionToolCallId.isSome := by
  rw [Agrees.lastCode_sentOr]

variable (settings) in
/-- What one part adds, unless it is an empty signed text. -/
theorem extract_adds (hKind : OneKind part) (hApart : ¬ IsEmptySigned part) (extracted : Extraction) :
    (extracted.extractPart settings part).called = (extracted.called || callsCode part) ∧
      ∃ new, (extracted.extractPart settings part).content = extracted.content ++ new ∧
        (addsItem extracted.called part = true ↔ new ≠ []) := by
  rw [Extraction.extractPart]
  cases hCode : get part "executableCode" with
  | some ec =>
    have hOthers := hKind.others hCode (by decide)
    have hAdds : addsItem extracted.called part = hasCode ec := by
      simp (disch := decide) [hOthers, addsItem, callsCode, hCode, speaksAny, bearsSignature, getStr]
    rw [hAdds]
    by_cases hHas : hasCode ec = true
    · exact ⟨by simp [executableCode, hHas, callsCode, hCode, Extraction.push, Extraction.called], _, rfl,
        by simp [executableCode, hHas]⟩
    · exact ⟨by simp [executableCode, hHas, callsCode, hCode, Extraction.push, Extraction.called], _, rfl,
        by simp [executableCode, hHas]⟩
  | none =>
    have hNoCode : callsCode part = false := by rw [callsCode, hCode, Option.any_none]
    have hCalled : ∀ content {ids}, ids.lastCodeExecutionToolCallId.isSome = extracted.called →
        (extracted.push content ids).called = (extracted.called || callsCode part) := fun _ _ hSame => by
      rw [hNoCode, Bool.or_false]
      exact hSame
    cases hResult : get part "codeExecutionResult" with
    | some cer =>
      have hOthers := hKind.others hResult (by decide)
      have hAdds : addsItem extracted.called part = extracted.called := by
        simp (disch := decide) [hOthers, addsItem, hNoCode, hResult, speaksAny, bearsSignature, getStr]
      refine ⟨hCalled _ rfl, _, rfl, ?_⟩
      rw [hAdds, Extraction.called, codeExecutionResult]
      cases extracted.ids.lastCodeExecutionToolCallId <;> simp
    | none =>
      cases hText : getStr part "text" with
      | some text =>
        obtain ⟨value, hValue, _⟩ := Option.bind_eq_some_iff.mp hText
        have hOthers := hKind.others hValue (by decide)
        have hAdds : addsItem extracted.called part = decide (text ≠ "") := by
          simp (disch := decide) [hOthers, addsItem, hNoCode, speaksAny, hText, bearsSignature]
        rw [hAdds, decide_eq_true_eq]
        simp only [Extraction.extractText]
        by_cases hEmpty : text = ""
        · have hUnsigned : thoughtSignatureMetadata settings part = none := by
            rw [← Option.not_isSome_iff_eq_none, isSome_metadata]
            exact fun hSigned => hApart ⟨by rw [hText, hEmpty], hSigned⟩
          rw [if_pos hEmpty, hUnsigned, hNoCode, Bool.or_false]
          exact ⟨rfl, [], (List.append_nil _).symm, by simp [hEmpty]⟩
        · rw [if_neg hEmpty]
          split
          · exact ⟨hCalled _ rfl, _, rfl, by simp [hEmpty]⟩
          · exact ⟨hCalled _ rfl, _, rfl, by simp [hEmpty]⟩
      | none =>
        have hSilent : speaksAny part = false := by rw [speaksAny, hText, Option.any_none]
        cases hFunction : get part "functionCall" with
        | some call =>
          have hOthers := hKind.others hFunction (by decide)
          simp (disch := decide) only [hOthers, Option.bind_some]
          cases hName : getStr call "name" with
          | some name =>
            exact ⟨hCalled [] (isSome_lastCode_sentOr ..), _, rfl,
              by simp [addsItem, bearsSignature, hFunction, hName]⟩
          | none =>
            exact ⟨by rw [hNoCode, Bool.or_false], [], (List.append_nil _).symm,
              by simp (disch := decide) [hOthers, addsItem, hNoCode, hSilent, bearsSignature, hFunction, hName]⟩
        | none =>
          cases hInline : get part "inlineData" with
          | some inline =>
            have hOthers := hKind.others hInline (by decide)
            have hAdds : addsItem extracted.called part = (inlineFile settings part inline).isSome := by
              simp (disch := decide) only [hOthers, addsItem, hNoCode, hSilent, bearsSignature,
                Option.bind_none, Option.isSome_none, hInline, Option.any_some, Bool.or_false, Bool.false_or,
                Bool.and_false, inlineFile]
              cases getStr inline "data" <;> cases getStr inline "mimeType" <;> rfl
            refine ⟨hCalled _ rfl, _, rfl, ?_⟩
            rw [hAdds]
            cases inlineFile settings part inline <;> simp
          | none =>
            cases hCall : get part "toolCall" with
            | some tc =>
              exact ⟨hCalled _ (isSome_lastCode_sentOr ..), _, rfl, by simp [addsItem, bearsSignature, hCall]⟩
            | none =>
              cases hResponse : get part "toolResponse" with
              | some tr =>
                exact ⟨hCalled _ (isSome_lastCode_sentOr { extracted.ids with lastServerToolCallId := none } settings _),
                  _, rfl, by simp [addsItem, hResponse]⟩
              | none =>
                exact ⟨by rw [hNoCode, Bool.or_false], [], (List.append_nil _).symm,
                  by simp [addsItem, hNoCode, hResult, hSilent, bearsSignature, hFunction, hInline, hCall, hResponse]⟩

variable (settings) in
/-- An empty signed text hands its signature to the last item. -/
theorem extract_emptySigned (hKind : OneKind part) (hEmpty : IsEmptySigned part) (extracted : Extraction) :
    (extracted.extractPart settings part).called = extracted.called ∧ callsCode part = false ∧
      addsItem extracted.called part = false ∧
      ∃ metadata, thoughtSignatureMetadata settings part = some metadata ∧
        (extracted.extractPart settings part).content =
          extracted.content.modify (extracted.content.length - 1) (setProviderMetadata metadata) := by
  obtain ⟨value, hValue, _⟩ := Option.bind_eq_some_iff.mp hEmpty.1
  have hOthers := hKind.others hValue (by decide)
  obtain ⟨metadata, hMetadata⟩ := Option.isSome_iff_exists.mp ((isSome_metadata settings part).trans hEmpty.2)
  have hExtract : extracted.extractPart settings part = extracted.attach (some metadata) := by
    rw [Extraction.extractPart]
    simp (disch := decide) only [hOthers, hEmpty.1, Extraction.extractText, if_true, hMetadata]
  rw [hExtract]
  refine ⟨rfl, ?_, ?_, metadata, hMetadata, rfl⟩
  · simp (disch := decide) [hOthers, callsCode]
  · simp (disch := decide) [hOthers, addsItem, callsCode, speaksAny, bearsSignature, hEmpty.1]

/-- An item that is not the last is not changed, and the last one not before an empty signed text. -/
theorem shielded_kept {extracted : Extraction} {i : Nat} {piece : GenerateContent}
    (hHere : extracted.content[i]? = some piece) (hKinds : ∀ part ∈ after, OneKind part)
    (hShielded : i + 1 < extracted.content.length ∨ shielded extracted.called after = true) :
    (after.foldl (Extraction.extractPart settings) extracted).content[i]? = some piece := by
  induction after generalizing extracted with
  | nil => exact hHere
  | cons part after ih =>
    have hHead := hKinds part (List.mem_cons_self ..)
    have hRest := fun other hOther => hKinds other (List.mem_cons_of_mem part hOther)
    have hLength := (List.getElem?_eq_some_iff.mp hHere).1
    by_cases hEmpty : IsEmptySigned part
    · obtain ⟨_, _, _, metadata, _, hContent⟩ := extract_emptySigned settings hHead hEmpty extracted
      have hLater : i + 1 < extracted.content.length := by
        rcases hShielded with hLater | hShielded
        · exact hLater
        · simp [shielded, hEmpty] at hShielded
      refine ih ?_ hRest (.inl ?_)
      · rw [hContent, List.getElem?_modify_ne _ _ (by omega), hHere]
      · rw [hContent, List.length_modify]
        exact hLater
    · obtain ⟨hCalled, new, hContent, hAdds⟩ := extract_adds settings hHead hEmpty extracted
      refine ih ?_ hRest ?_
      · rw [hContent, List.getElem?_append_left hLength, hHere]
      · rw [hContent, List.length_append, hCalled]
        rcases hShielded with hLater | hShielded
        · exact .inl (by omega)
        · simp only [shielded, hEmpty, decide_false, Bool.not_false, Bool.true_and, Bool.or_eq_true] at hShielded
          rcases hShielded with hItem | hShielded
          · have hGrows := List.length_pos_of_ne_nil (hAdds.mp hItem)
            exact .inl (by omega)
          · exact .inr hShielded

/-- Whatever metadata it gets, the item has room for a signature. -/
def HasRoom (crates : Crates) (nameSpace : Namespace) (keepsEmpty : Bool) (piece : GenerateContent) : Prop :=
  ∀ signature, Carries crates nameSpace keepsEmpty signature
    (setProviderMetadata (signatureMetadata nameSpace signature) piece)

theorem setProviderMetadata_twice (metadata other : ProviderMetadata) (piece : GenerateContent) :
    setProviderMetadata metadata (setProviderMetadata other piece) = setProviderMetadata metadata piece := by
  cases piece with
  | source source => cases source <;> rfl
  | _ => rfl

variable (crates settings keepsEmpty) in
/-- An item of its own comes last, with the signature of its part. -/
theorem extract_item (hKind : OneKind part) (extracted : Extraction)
    (hItem : (speaksAny part || bearsSignature part || (get part "toolResponse").isSome) = true) :
    ∃ piece, (extracted.extractPart settings part).content = extracted.content ++ [piece] ∧
      ((speaksAny part || bearsSignature part) = true → HasRoom crates settings.nameSpace keepsEmpty piece) ∧
      ∀ signature, getStr part "thoughtSignature" = some signature → signature ≠ "" →
        Carries crates settings.nameSpace keepsEmpty signature piece := by
  have hMetadata : ∀ signature, getStr part "thoughtSignature" = some signature → signature ≠ "" →
      thoughtSignatureMetadata settings part = some (signatureMetadata settings.nameSpace signature) :=
    fun signature hSignature hSigned => (metadata_of_signature settings hSignature hSigned).1
  rw [Extraction.extractPart]
  cases hText : getStr part "text" with
  | some text =>
    obtain ⟨value, hValue, _⟩ := Option.bind_eq_some_iff.mp hText
    have hOthers := hKind.others hValue (by decide)
    have hNonempty : text ≠ "" := by
      simpa [speaksAny, hText, bearsSignature, hOthers "functionCall" (by decide) (by decide),
        hOthers "toolCall" (by decide) (by decide), hOthers "inlineData" (by decide) (by decide),
        hOthers "toolResponse" (by decide) (by decide)] using hItem
    simp (disch := decide) only [hOthers, Extraction.extractText, if_neg hNonempty]
    split
    · refine ⟨_, rfl, fun _ signature => carries_reasoning hNonempty, fun signature hSignature hSigned => ?_⟩
      rw [hMetadata signature hSignature hSigned]
      exact carries_reasoning hNonempty
    · refine ⟨_, rfl, fun _ signature => carries_text (.inl hNonempty), fun signature hSignature hSigned => ?_⟩
      rw [hMetadata signature hSignature hSigned]
      exact carries_text (.inl hNonempty)
  | none =>
    have hSilent : speaksAny part = false := by rw [speaksAny, hText, Option.any_none]
    simp only [hSilent, Bool.false_or, bearsSignature, Bool.or_eq_true, Option.isSome_iff_exists] at hItem
    rcases hItem with ((⟨name, hName⟩ | ⟨tc, hCall⟩) | hInline) | ⟨tr, hResponse⟩
    · obtain ⟨call, hFunction, hName⟩ := Option.bind_eq_some_iff.mp hName
      have hOthers := hKind.others hFunction (by decide)
      simp (disch := decide) only [hOthers, hFunction, Option.bind_some, hName]
      exact ⟨_, rfl, fun _ signature => carries_call (by simp) rfl,
        fun signature hSignature hSigned => carries_call (by simp) (hMetadata signature hSignature hSigned)⟩
    · have hOthers := hKind.others hCall (by decide)
      simp (disch := decide) only [hOthers, hCall]
      exact ⟨_, rfl, fun _ signature => carries_call (fun _ => server_ne_codeExecution _) rfl,
        fun signature hSignature hSigned => carries_serverToolCall hSignature hSigned _ _⟩
    · cases hData : get part "inlineData" with
      | none => simp [hData] at hInline
      | some inline =>
        rw [hData, Option.any_some] at hInline
        obtain ⟨data, mime, hFile⟩ := inlineFile_complete settings part hInline
        have hOthers := hKind.others hData (by decide)
        simp (disch := decide) only [hOthers, hFile, Option.map_some]
        refine ⟨_, rfl, fun _ signature => ?_, fun signature hSignature hSigned => ?_⟩
        · split
          · exact carries_reasoningFile rfl rfl
          · exact carries_file rfl rfl
        · split
          · exact carries_reasoningFile rfl (hMetadata signature hSignature hSigned)
          · exact carries_file rfl (hMetadata signature hSignature hSigned)
    · have hOthers := hKind.others hResponse (by decide)
      simp (disch := decide) only [hOthers, hResponse]
      refine ⟨_, rfl, fun hRoom => ?_, fun signature hSignature hSigned =>
        carries_serverToolResponse hSignature hSigned _ _⟩
      simp (disch := decide) [hOthers, hSilent, bearsSignature] at hRoom

/-- What the items so far come to. -/
structure EndsWith (crates : Crates) (nameSpace : Namespace) (keepsEmpty : Bool) (extracted : Extraction)
    (last : Bool × Bool) : Prop where
  called : last.1 = extracted.called
  room : last.2 = true → ∃ front piece, extracted.content = front ++ [piece] ∧
    HasRoom crates nameSpace keepsEmpty piece

theorem endsWith_part {extracted : Extraction} {last : Bool × Bool} (hKind : OneKind part)
    (h : EndsWith crates settings.nameSpace keepsEmpty extracted last) :
    EndsWith crates settings.nameSpace keepsEmpty (extracted.extractPart settings part)
      (last.1 || callsCode part, if addsItem last.1 part then speaksAny part || bearsSignature part else last.2) := by
  by_cases hEmpty : IsEmptySigned part
  · obtain ⟨hCalled, hNoCode, hNoItem, metadata, hMetadata, hContent⟩ :=
      extract_emptySigned settings hKind hEmpty extracted
    refine ⟨by rw [hNoCode, Bool.or_false, h.called, hCalled], fun hRoom => ?_⟩
    rw [h.called, hNoItem] at hRoom
    obtain ⟨front, piece, hFront, hPiece⟩ := h.room hRoom
    refine ⟨front, setProviderMetadata metadata piece, ?_, fun signature => ?_⟩
    · rw [hContent, hFront, List.length_append, List.length_singleton, Nat.add_sub_cancel, modify_length_concat]
    · rw [setProviderMetadata_twice]
      exact hPiece signature
  · obtain ⟨hCalled, new, hContent, hAdds⟩ := extract_adds settings hKind hEmpty extracted
    refine ⟨by rw [hCalled, h.called], fun hRoom => ?_⟩
    rw [h.called] at hRoom
    by_cases hItem : addsItem extracted.called part = true
    · rw [if_pos hItem] at hRoom
      have hBears : (speaksAny part || bearsSignature part) = true := hRoom
      obtain ⟨piece, hPiece, hHasRoom, _⟩ := extract_item crates settings
        keepsEmpty hKind extracted (by rw [hBears, Bool.true_or])
      exact ⟨_, piece, hPiece, hHasRoom hBears⟩
    · rw [if_neg hItem] at hRoom
      obtain rfl : new = [] := by_contra fun hNew => hItem (hAdds.mpr hNew)
      rw [hContent, List.append_nil]
      exact h.room hRoom

variable (crates settings keepsEmpty) in
theorem endsWith_parts (hKinds : ∀ part ∈ before, OneKind part) :
    EndsWith crates settings.nameSpace keepsEmpty (before.foldl (Extraction.extractPart settings) {})
      (lastItem before) := by
  rw [lastItem]
  generalize hStart : (false, false) = last
  have hEmpty : EndsWith crates settings.nameSpace keepsEmpty {} last := by
    subst hStart
    exact ⟨rfl, fun hRoom => by cases hRoom⟩
  clear hStart
  generalize ({} : Extraction) = extracted at hEmpty ⊢
  induction before generalizing extracted last with
  | nil => exact hEmpty
  | cons part before ih =>
    exact ih (fun other hOther => hKinds other (List.mem_cons_of_mem _ hOther)) _ _
      (endsWith_part (hKinds part (List.mem_cons_self ..)) hEmpty)

/-! ## The signatures that come back -/

section

variable (hKinds : ∀ other ∈ before ++ part :: after, OneKind other)
  (hSignature : getStr part "thoughtSignature" = some signature) (hSigned : signature ≠ "")

include hKinds hSignature hSigned

theorem streamed_signature (hKeeps : streamKeeps keepsEmpty before part after = true) :
    Occurs signature (nextRequest crates settings.nameSpace keepsEmpty
      ((before ++ part :: after).foldl (Layout.part settings) {}).content) := by
  have hEmpty : ({} : Layout).Sound := ⟨fun _ _ hOpen => by cases hOpen⟩
  have hSound := Layout.sound_parts hEmpty settings before
  have hBefore : ∀ kind, spokenBefore kind before = true → ∃ i body metadata,
      (before.foldl (Layout.part settings) {}).Goes kind i body metadata ∧ body ≠ "" := fun kind hSpoken =>
    Layout.goes_of_spokenBefore hEmpty settings (by simp) hSpoken
  have hPart := hKinds part (List.mem_append_right _ (List.mem_cons_self ..))
  have hAfter : ∀ other ∈ after, OneKind other :=
    fun other hOther => hKinds other (List.mem_append_right _ (List.mem_cons_of_mem _ hOther))
  rw [List.foldl_append, List.foldl_cons]
  rw [streamKeeps] at hKeeps
  obtain ⟨piece, hPiece, hCarries⟩ : ∃ piece ∈ (after.foldl (Layout.part settings)
      ((before.foldl (Layout.part settings) {}).part settings part)).content,
      Carries crates settings.nameSpace keepsEmpty signature piece := by
    cases hText : getStr part "text" with
    | some text =>
      simp only [hText] at hKeeps
      cases hThought : isThought part with
      | true =>
        rw [hThought, if_pos rfl, Bool.and_eq_true] at hKeeps
        exact thought_kept hSound (hBefore .reasoning) hSignature hSigned hText hThought hAfter hKeeps.1 hKeeps.2
      | false =>
        rw [hThought] at hKeeps
        exact text_kept hSound (hBefore .text) hSignature hSigned hText hThought (by simpa using hKeeps)
    | none =>
      simp only [hText] at hKeeps
      exact item_kept hSound hSignature hSigned hPart hText hKeeps
  exact hCarries.occurs hPiece

theorem extracted_signature (hKeeps : wholeKeeps before part after = true) :
    Occurs signature (nextRequest crates settings.nameSpace keepsEmpty
      ((before ++ part :: after).foldl (Extraction.extractPart settings) {}).content) := by
  have hPart := hKinds part (List.mem_append_right _ (List.mem_cons_self ..))
  have hAfter : ∀ other ∈ after, OneKind other :=
    fun other hOther => hKinds other (List.mem_append_right _ (List.mem_cons_of_mem _ hOther))
  have hBefore := endsWith_parts crates settings keepsEmpty
    fun other hOther => hKinds other (List.mem_append_left _ hOther)
  rw [wholeKeeps, Bool.and_eq_true] at hKeeps
  rw [List.foldl_append, List.foldl_cons]
  generalize before.foldl (Extraction.extractPart settings) {} = extracted at hBefore ⊢
  have hCalled := (endsWith_part hPart hBefore).called
  obtain ⟨front, piece, hContent, hCarries⟩ : ∃ front piece,
      (extracted.extractPart settings part).content = front ++ [piece] ∧
        Carries crates settings.nameSpace keepsEmpty signature piece := by
    rcases Bool.or_eq_true_iff.mp hKeeps.1 with hItem | hEmpty
    · obtain ⟨piece, hContent, _, hCarries⟩ := extract_item crates settings
        keepsEmpty hPart extracted hItem
      exact ⟨_, piece, hContent, hCarries signature hSignature hSigned⟩
    · rw [Bool.and_eq_true, decide_eq_true_eq] at hEmpty
      obtain ⟨front, piece, hFront, hRoom⟩ := hBefore.room hEmpty.2
      obtain ⟨hMetadata, hLoud⟩ := metadata_of_signature settings hSignature hSigned
      obtain ⟨_, _, _, metadata, hSame, hContent⟩ :=
        extract_emptySigned settings hPart ⟨hEmpty.1, hLoud⟩ extracted
      obtain rfl := Option.some.inj (hMetadata.symm.trans hSame)
      refine ⟨front, _, ?_, hRoom signature⟩
      rw [hContent, hFront, List.length_append, List.length_singleton, Nat.add_sub_cancel, modify_length_concat]
  refine hCarries.occurs (List.mem_of_getElem? (shielded_kept (i := front.length) ?_ hAfter (.inr ?_)))
  · rw [hContent, List.getElem?_concat_length]
  · rw [← hCalled]
    exact hKeeps.2

end

/-- A signature that is kept comes back in the next request, from a stream or from a candidate that came whole. -/
theorem signature_replayed (crates : Crates) (settings : Settings) (keepsEmpty : Bool) (before : List Json) (part : Json)
    (after : List Json) (signature : String) (chunks : List StreamChunk)
    (hKinds : ∀ other ∈ before ++ part :: after, OneKind other ∧ WholeCall other)
    (hSent : sentParts false false chunks = before ++ part :: after)
    (hChunks : ∀ chunk ∈ chunks, confirmedPromptBlockReason chunk.promptFeedback = none)
    (hSignature : getStr part "thoughtSignature" = some signature) (hSigned : signature ≠ "") :
    (streamKeeps keepsEmpty before part after = true →
      Occurs signature (nextRequest crates settings.nameSpace keepsEmpty (assembled settings chunks))) ∧
    (wholeKeeps before part after = true →
      Occurs signature (nextRequest crates settings.nameSpace keepsEmpty
        (extractContentFromCandidate settings { parts := some (before ++ part :: after) }).1)) := by
  refine ⟨fun hKeeps => ?_, fun hKeeps => ?_⟩
  · rw [assembled_eq_layout (fun other hOther => (hKinds other (by rwa [← hSent])).2) hChunks, hSent]
    exact streamed_signature (fun other hOther => (hKinds other hOther).1) hSignature hSigned hKeeps
  · exact extracted_signature (fun other hOther => (hKinds other hOther).1) hSignature hSigned hKeeps

def plainCrates : Crates where
  readJson := fun text => if text = "\x7b\x7d" then some (.object []) else none
  encodeBase64 := fun _ => ""
  detectMediaType := fun _ _ => none

theorem signature_replayed_empty :
    let chunks := [{ candidates := some [{ parts := some [spoken "a"] }] }, lastChunk [emptySigned, calling]]
    Occurs "s" (nextRequest plainCrates .google false (assembled plainSettings chunks)) ∧
      Occurs "s" (nextRequest plainCrates .google false
        (extractContentFromCandidate plainSettings { parts := some [spoken "a", emptySigned, calling] }).1) := by
  intro chunks
  have hKept := signature_replayed plainCrates plainSettings false [spoken "a"] emptySigned [calling] "s" chunks
    (fun other hOther => ?_) rfl (fun chunk hChunk => ?_) rfl (by decide)
  · exact ⟨hKept.1 (by decide +kernel), hKept.2 (by decide +kernel)⟩
  · simp only [List.singleton_append, List.mem_cons, List.not_mem_nil, or_false] at hOther
    rcases hOther with rfl | rfl | rfl
    · exact ⟨by decide +kernel, fun call hCall => by cases hCall⟩
    · exact ⟨by decide +kernel, fun call hCall => by cases hCall⟩
    · refine ⟨by decide +kernel, fun call hCall => ?_⟩
      cases hCall
      exact ⟨rfl, by decide⟩
  · simp only [chunks, List.mem_cons, List.not_mem_nil, or_false] at hChunk
    rcases hChunk with rfl | rfl <;> rfl

/-- A part of one kind, signed by `s`. -/
def signedPart (key : String) (value : Json) : Json := .object [(key, value), ("thoughtSignature", .string "s")]

def thoughtPart (text signature : String) : Json :=
  .object [("text", .string text), ("thought", .bool true), ("thoughtSignature", .string signature)]

/-- The code that is run and its result, a file without data and a call in pieces lose their signatures either way or
when streamed; so do the first of two signed thoughts and a thought without text when streamed, an empty text that
is sent back by response messages, and in a whole candidate an empty text that stands first or behind a server's
response, and a text before an empty signed one. -/
theorem signature_lost :
    let code := Json.object [("code", .string "1")]
    let response := Json.object [("toolType", .string "t"), ("id", .string "i")]
    let both := [[signedPart "executableCode" code], [running, signedPart "codeExecutionResult" (.object [])],
      [signedPart "inlineData" (.object [])]]
    let streamed := [[thoughtPart "a" "s", thoughtPart "b" "t"], [thoughtPart "" "s"],
      [.object [("functionCall", .object [("name", .string "f"), ("willContinue", .bool true)])],
        signedPart "functionCall" (.object [])]]
    let whole := [[emptySigned], [.object [("toolResponse", response)], emptySigned],
      [signedPart "text" (.string "a"), .object [("text", .string ""), ("thoughtSignature", .string "t")]]]
    (∀ parts ∈ both ++ streamed,
      ¬ Occurs "s" (nextRequest plainCrates .google true (assembled plainSettings [lastChunk parts]))) ∧
    (∀ parts ∈ both ++ whole, ¬ Occurs "s" (nextRequest plainCrates .google true
      (extractContentFromCandidate plainSettings { parts := some parts }).1)) ∧
    ¬ Occurs "s" (nextRequest plainCrates .google false (assembled plainSettings [lastChunk [emptySigned]])) := by
  decide +kernel

end Aimux.Google
