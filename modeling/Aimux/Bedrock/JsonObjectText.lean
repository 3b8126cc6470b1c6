import Aimux.Bedrock.ChatStream
import Aimux.Lib.JsonText

/-! # The first JSON object of a text

The extractor takes a text in pieces. It lets the first object through, brace by brace, and nothing else.
-/

namespace Aimux.Bedrock

open Aimux.Lib.Rfc8259

namespace JsonObjectTextExtractor

/-! ## Pieces -/

variable {extractor : JsonObjectTextExtractor}

theorem processChars_completed (hCompleted : extractor.completed = true) (text : List Char) :
    extractor.processChars text = (extractor, []) := by
  cases text with
  | nil => rfl
  | cons character rest => rw [processChars, if_pos hCompleted]

theorem processChars_append (extractor : JsonObjectTextExtractor) (first rest : List Char) :
    extractor.processChars (first ++ rest) =
      (((extractor.processChars first).1.processChars rest).1,
        (extractor.processChars first).2 ++ ((extractor.processChars first).1.processChars rest).2) := by
  induction first generalizing extractor with
  | nil => rfl
  | cons character first ih =>
    rw [List.cons_append]
    cases hCompleted : extractor.completed with
    | true => rw [processChars_completed hCompleted, processChars_completed hCompleted,
        processChars_completed hCompleted, List.nil_append]
    | false =>
      rw [processChars, processChars, if_neg (by rw [hCompleted]; exact Bool.false_ne_true),
        if_neg (by rw [hCompleted]; exact Bool.false_ne_true)]
      dsimp only
      rw [ih]
      split
      · rw [List.cons_append]
      · rfl

/-- What is let through of the pieces of a text, one after the other. -/
def processPieces (extractor : JsonObjectTextExtractor) : List String → JsonObjectTextExtractor × String
  | [] => (extractor, "")
  | piece :: rest =>
    let processed := extractor.process piece
    let later := processPieces processed.1 rest
    (later.1, processed.2 ++ later.2)

theorem processPieces_eq (extractor : JsonObjectTextExtractor) (pieces : List String) :
    extractor.processPieces pieces = extractor.process (String.join pieces) := by
  induction pieces generalizing extractor with
  | nil => rfl
  | cons piece rest ih =>
    rw [processPieces, ih, String.join_cons, process, process, process, String.toList_append, processChars_append,
      String.ofList_append]

/-! ## Depth -/

/-- The depth is counted down. -/
def Descends (extractor : JsonObjectTextExtractor) (character : Char) : Prop :=
  extractor.completed = false ∧ extractor.started = true ∧ extractor.escaped = false ∧ extractor.inString = false ∧
    character = '\x7d'

/-- Within the object there is a brace to be closed. -/
def Nested (extractor : JsonObjectTextExtractor) : Prop :=
  extractor.started = true → extractor.completed = false → 0 < extractor.depth

theorem Nested.step (h : extractor.Nested) (hGoes : extractor.completed = false) (character : Char) :
    (extractor.step character).1.Nested := by
  rw [JsonObjectTextExtractor.step]
  split
  · split
    · exact h
    · exact fun _ _ => Nat.one_pos
  · rename_i hStarted
    have hDepth := h (by simpa using hStarted) hGoes
    split
    · exact fun _ _ => hDepth
    · split
      · exact fun _ _ => hDepth
      · split
        · exact fun _ _ => hDepth
        · split
          · exact h
          · split
            · exact fun _ _ => Nat.succ_pos _
            · split
              · intro _ hOpen
                exact Nat.pos_of_ne_zero (of_decide_eq_false hOpen)
              · exact h

theorem Nested.processChars (h : extractor.Nested) (text : List Char) : (extractor.processChars text).1.Nested := by
  induction text generalizing extractor with
  | nil => exact h
  | cons character rest ih =>
    rw [JsonObjectTextExtractor.processChars]
    split
    · exact h
    · rename_i hGoes
      exact ih (h.step (Bool.eq_false_iff.mpr hGoes) character)

/-! ## Objects -/

/-- Within an object, outside its strings. -/
def outside (depth : Nat) : JsonObjectTextExtractor := { started := true, depth := depth }

/-- Within a string of an object. -/
def inside (depth : Nat) : JsonObjectTextExtractor := { started := true, depth := depth, inString := true }

/-- A text is let through, and what follows it is within the same braces. -/
def Passes (text : List Char) : Prop :=
  ∀ depth, 0 < depth → (outside depth).processChars text = (outside depth, text)

variable {rest : List Char}

theorem Passes.append {first : List Char} (hFirst : Passes first) (hRest : Passes rest) :
    Passes (first ++ rest) := by
  intro depth hDepth
  rw [processChars_append, hFirst depth hDepth, hRest depth hDepth]

theorem Passes.cons {character : Char} (hFirst : Passes [character]) (hRest : Passes rest) :
    Passes (character :: rest) := hFirst.append hRest

theorem passes_nil : Passes [] := fun _ _ => rfl

/-- A character that is neither a quote nor a brace. -/
def isQuiet (character : Char) : Bool := character ∉ ['"', '\x7b', '\x7d']

variable {text : List Char}

theorem passes_quiet (h : ∀ character ∈ text, isQuiet character = true) : Passes text := by
  induction text with
  | nil => exact passes_nil
  | cons character rest ih =>
    obtain ⟨hQuiet, hRest⟩ := List.forall_mem_cons.mp h
    refine Passes.cons (fun depth _ => ?_) (ih hRest)
    simp only [isQuiet, List.mem_cons, List.not_mem_nil, or_false, not_or, decide_eq_true_eq] at hQuiet
    simp [processChars, step, outside, hQuiet]

theorem passes_one {character : Char} (h : isQuiet character = true) : Passes [character] :=
  passes_quiet (List.forall_mem_singleton.mpr h)

theorem Spaces.isQuiet (h : Spaces text) : ∀ character ∈ text, isQuiet character = true := by
  intro character hCharacter
  have hSpace := h character hCharacter
  simp only [isSpace, Bool.or_eq_true, decide_eq_true_eq] at hSpace
  rcases hSpace with ((rfl | rfl) | rfl) | rfl <;> rfl

theorem Digits.isQuiet (h : Digits text) : ∀ character ∈ text, isQuiet character = true := by
  intro character hCharacter
  have hDigit := h character hCharacter
  rw [JsonObjectTextExtractor.isQuiet, decide_eq_true_eq]
  intro hMem
  simp only [List.mem_cons, List.not_mem_nil, or_false] at hMem
  rcases hMem with rfl | rfl | rfl <;> exact absurd hDigit (by decide)

theorem Number.isQuiet (h : Number text) : ∀ character ∈ text, isQuiet character = true := by
  obtain ⟨hSign, hInt, hFrac, hExp⟩ := h
  simp only [List.forall_mem_append]
  refine ⟨?_, ?_, ?_, ?_⟩
  · cases hSign with
    | none => exact fun _ hNone => nomatch hNone
    | minus => exact List.forall_mem_singleton.mpr rfl
  · cases hInt with
    | zero => exact List.forall_mem_singleton.mpr rfl
    | digits hFirst _ hDigits => exact Digits.isQuiet (List.forall_mem_cons.mpr ⟨hFirst, hDigits⟩)
  · cases hFrac with
    | none => exact fun _ hNone => nomatch hNone
    | digits _ hDigits => exact List.forall_mem_cons.mpr ⟨rfl, Digits.isQuiet hDigits⟩
  · cases hExp with
    | none => exact fun _ hNone => nomatch hNone
    | digits hE hSign _ hDigits =>
      refine List.forall_mem_cons.mpr ⟨?_, List.forall_mem_append.mpr ⟨?_, Digits.isQuiet hDigits⟩⟩
      · rcases hE with rfl | rfl <;> rfl
      · cases hSign with
        | none => exact fun _ hNone => nomatch hNone
        | plus | minus => exact List.forall_mem_singleton.mpr rfl

/-- What stands between two quotes is let through, and the string goes on. -/
theorem inside_body {body : List Char} (h : Body body) (depth : Nat) :
    (inside depth).processChars body = (inside depth, body) := by
  have hEscape (c : Char) (cs : List Char) (hRest : (inside depth).processChars cs = (inside depth, cs)) :
      (inside depth).processChars ('\\' :: c :: cs) = (inside depth, '\\' :: c :: cs) := by
    have hTwo : (inside depth).processChars ['\\', c] = (inside depth, ['\\', c]) := rfl
    rw [show '\\' :: c :: cs = ['\\', c] ++ cs from rfl, processChars_append, hTwo, hRest]
  have hPlain (c : Char) (cs : List Char) (hQuote : c ≠ '"') (hBackslash : c ≠ '\\')
      (hRest : (inside depth).processChars cs = (inside depth, cs)) :
      (inside depth).processChars (c :: cs) = (inside depth, c :: cs) := by
    have hOne : (inside depth).processChars [c] = (inside depth, [c]) := by
      simp [processChars, step, inside, hQuote, hBackslash]
    rw [show c :: cs = [c] ++ cs from rfl, processChars_append, hOne, hRest]
  induction h with
  | nil => rfl
  | plain hQuote hBackslash _ _ ih => exact hPlain _ _ hQuote hBackslash ih
  | escape _ _ ih => exact hEscape _ _ ih
  | @unicode a b c d cs hA hB hC hD _ ih =>
    have hHex {e : Char} (h : isHexDigit e = true) : e ≠ '"' ∧ e ≠ '\\' := by
      constructor <;> rintro rfl <;> exact absurd h (by decide)
    refine hEscape _ _ ?_
    refine hPlain _ _ (hHex hA).1 (hHex hA).2 (hPlain _ _ (hHex hB).1 (hHex hB).2 ?_)
    exact hPlain _ _ (hHex hC).1 (hHex hC).2 (hPlain _ _ (hHex hD).1 (hHex hD).2 ih)

theorem passes_string {body : List Char} (h : Body body) : Passes ('"' :: (body ++ ['"'])) := by
  intro depth hDepth
  have hOpen : (outside depth).processChars ['"'] = (inside depth, ['"']) := rfl
  have hClose : (inside depth).processChars ['"'] = (outside depth, ['"']) := rfl
  rw [show '"' :: (body ++ ['"']) = ['"'] ++ (body ++ ['"']) from rfl, processChars_append, hOpen, processChars_append,
    inside_body h, hClose]

theorem passes_object {members : List Char} (h : Passes members) : Passes ('\x7b' :: (members ++ ['\x7d'])) := by
  intro depth hDepth
  have hOpen : (outside depth).processChars ['\x7b'] = (outside (depth + 1), ['\x7b']) := rfl
  have hClose : (outside (depth + 1)).processChars ['\x7d'] = (outside depth, ['\x7d']) := by
    simp [processChars, step, outside, Nat.ne_of_gt hDepth]
  rw [show '\x7b' :: (members ++ ['\x7d']) = ['\x7b'] ++ (members ++ ['\x7d']) from rfl, processChars_append, hOpen,
    processChars_append, h _ (Nat.succ_pos depth), hClose]

/-- A member: its name, a colon and what follows. -/
theorem passes_member {name gap between : List Char} (hName : Body name) (hGap : Spaces gap) (hBetween : Spaces between)
    (hRest : Passes rest) :
    Passes ('"' :: (name ++ '"' :: (gap ++ ':' :: (between ++ rest)))) := by
  have hColon : Passes (gap ++ ':' :: (between ++ rest)) :=
    (passes_quiet (Spaces.isQuiet hGap)).append (.cons (passes_one rfl)
      ((passes_quiet (Spaces.isQuiet hBetween)).append hRest))
  have hWhole := (passes_string hName).append hColon
  rwa [List.cons_append, List.append_assoc, List.cons_append, List.nil_append] at hWhole

mutual

theorem Value.passes {text : List Char} (h : JsonValue text) : Passes text := by
  match h with
  | .litTrue | .litFalse | .litNull => exact passes_quiet (by simp [isQuiet])
  | .number hNumber => exact passes_quiet (Number.isQuiet hNumber)
  | .string hBody => exact passes_string hBody
  | .emptyArray hSpaces =>
    exact .cons (passes_one rfl) ((passes_quiet (Spaces.isQuiet hSpaces)).append (passes_one rfl))
  | .array hItems => exact .cons (passes_one rfl) ((Elements.passes hItems).append (passes_one rfl))
  | .emptyObject hSpaces => exact passes_object (passes_quiet (Spaces.isQuiet hSpaces))
  | .object hMembers => exact passes_object (Members.passes hMembers)

theorem Elements.passes {text : List Char} (h : Elements (fun _ => True) text) : Passes text := by
  match h with
  | .last hBefore hValue hAfter =>
    exact (passes_quiet (Spaces.isQuiet hBefore)).append ((Value.passes hValue).append
      (passes_quiet (Spaces.isQuiet hAfter)))
  | .more hBefore hValue hAfter hRest =>
    exact (passes_quiet (Spaces.isQuiet hBefore)).append ((Value.passes hValue).append
      ((passes_quiet (Spaces.isQuiet hAfter)).append (.cons (passes_one rfl) (Elements.passes hRest))))

theorem Members.passes {text : List Char} (h : Members (fun _ => True) text) : Passes text := by
  match h with
  | .last hBefore hBody _ hGap hBetween hValue hAfter =>
    exact (passes_quiet (Spaces.isQuiet hBefore)).append (passes_member hBody hGap hBetween ((Value.passes hValue).append
      (passes_quiet (Spaces.isQuiet hAfter))))
  | .more hBefore hBody _ hGap hBetween hValue hAfter hRest =>
    exact (passes_quiet (Spaces.isQuiet hBefore)).append (passes_member hBody hGap hBetween ((Value.passes hValue).append
      ((passes_quiet (Spaces.isQuiet hAfter)).append (.cons (passes_one rfl) (Members.passes hRest)))))

end

/-! ## Texts -/

/-- Nothing is let through before the first brace. -/
theorem processChars_before (h : '\x7b' ∉ text) : (JsonObjectTextExtractor.processChars {} text) = ({}, []) := by
  induction text with
  | nil => rfl
  | cons character rest ih =>
    obtain ⟨hFirst, hRest⟩ := List.ne_and_not_mem_of_not_mem_cons h
    have hSkip : (JsonObjectTextExtractor.step {} character) = ({}, false) :=
      (if_pos rfl).trans (if_pos hFirst.symm)
    rw [processChars, if_neg Bool.false_ne_true, hSkip]
    dsimp only
    rw [ih hRest]
    rfl

/-- An object is let through, and then nothing is. -/
theorem processChars_object {object : List Char} (hValue : JsonValue object) (hObject : object.head? = some '\x7b') :
    (JsonObjectTextExtractor.processChars {} object).1.completed = true ∧
      (JsonObjectTextExtractor.processChars {} object).2 = object := by
  have hBraces {members : List Char} (hMembers : Passes members) :
      JsonObjectTextExtractor.processChars {} ('\x7b' :: (members ++ ['\x7d'])) =
        ({ started := true, completed := true }, '\x7b' :: (members ++ ['\x7d'])) := by
    have hOpen : JsonObjectTextExtractor.processChars {} ['\x7b'] = (outside 1, ['\x7b']) := rfl
    have hClose : (outside 1).processChars ['\x7d'] = ({ started := true, completed := true }, ['\x7d']) := rfl
    rw [show '\x7b' :: (members ++ ['\x7d']) = ['\x7b'] ++ (members ++ ['\x7d']) from rfl, processChars_append, hOpen,
      processChars_append, hMembers 1 Nat.one_pos, hClose]
  cases hValue with
  | number hNumber =>
    have hQuiet := Number.isQuiet hNumber _ (List.mem_of_mem_head? hObject)
    exact absurd hQuiet (by decide)
  | emptyObject hSpaces =>
    rw [hBraces (passes_quiet (Spaces.isQuiet hSpaces))]
    exact ⟨rfl, rfl⟩
  | object hMembers =>
    rw [hBraces (Members.passes hMembers)]
    exact ⟨rfl, rfl⟩
  | _ => exact absurd (Option.some.inj hObject) (by decide)

/-- The cuts of a text do not matter, of a text the first object is let through, and a brace is only closed where one is
open. -/
theorem process_object :
    (∀ (extractor : JsonObjectTextExtractor) (pieces : List String),
      (extractor.processPieces pieces).2 = (extractor.process (String.join pieces)).2) ∧
    (∀ before object after : String, '\x7b' ∉ before.toList → JsonValue object.toList →
      object.toList.head? = some '\x7b' →
        (JsonObjectTextExtractor.process {} (before ++ object ++ after)).2 = object) ∧
    ∀ (before : String) (character : Char),
      (JsonObjectTextExtractor.process {} before).1.Descends character →
        0 < (JsonObjectTextExtractor.process {} before).1.depth := by
  refine ⟨fun extractor pieces => by rw [processPieces_eq], ?_, ?_⟩
  · intro before object after hBefore hValue hObject
    obtain ⟨hCompleted, hOut⟩ := processChars_object hValue hObject
    rw [process, String.toList_append, String.toList_append, processChars_append, processChars_append,
      processChars_before hBefore]
    dsimp only
    rw [processChars_completed hCompleted, hOut, List.nil_append, List.append_nil, String.ofList_toList]
  · rintro before character ⟨hGoes, hStarted, -⟩
    have hStart : (JsonObjectTextExtractor.mk false false 0 false false).Nested := fun hNever => nomatch hNever
    exact hStart.processChars before.toList hStarted hGoes

/-- With a brace in a string. -/
theorem process_object_brace :
    (JsonObjectTextExtractor.process {} ("Here: " ++ "\x7b\"a\": \"\x7d\"\x7d" ++ " \x7d")).2 =
      "\x7b\"a\": \"\x7d\"\x7d" := by
  have hName : Body ['a'] := .plain (by decide) (by decide) (by decide) .nil
  have hBrace : Body ['\x7d'] := .plain (by decide) (by decide) (by decide) .nil
  have hNoSpaces : Spaces [] := fun _ hNone => nomatch hNone
  have hMembers : Members (fun _ => True) _ := .last hNoSpaces hName trivial hNoSpaces
    (List.forall_mem_singleton.mpr (rfl : isSpace ' ' = true)) (.string hBrace) hNoSpaces
  exact process_object.2.1 "Here: " _ " \x7d" (by decide) (.object hMembers) rfl

end JsonObjectTextExtractor

end Aimux.Bedrock
