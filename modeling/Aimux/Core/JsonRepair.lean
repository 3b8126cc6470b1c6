import Aimux.Lib.JsonText

/-! # Repair of a truncated JSON text

The scanner of `json_repair.rs`. A text is a list of characters, and the length that is kept counts characters:
every length the source keeps ends a character.
-/

namespace Aimux.Core.JsonRepair

open Aimux.Lib.Rfc8259

/-! ## The scanner -/

inductive ObjectPos where
  | start
  | key
  | afterKey
  | beforeValue
  | afterValue
  | afterComma

inductive ArrayPos where
  | start
  | afterValue
  | afterComma

inductive StringPos where
  | plain
  | escape
  | unicodeEscape (digits : Nat)

/-- A value that is open, with where the scanner is inside it. -/
inductive Frame where
  | object (pos : ObjectPos)
  | array (pos : ArrayPos)
  | string (pos : StringPos)
  | number
  | literal (rest : List Char)

def Frame.openedBy (c : Char) : Option Frame :=
  if c = '"' then some (.string .plain)
  else if c = 'f' then some (.literal ['a', 'l', 's', 'e'])
  else if c = 't' then some (.literal ['r', 'u', 'e'])
  else if c = 'n' then some (.literal ['u', 'l', 'l'])
  else if c = '-' ∨ c.isDigit = true then some .number
  else if c = '\x7b' then some (.object .start)
  else if c = '[' then some (.array .start)
  else none

/-- What closes the frame when the input ends inside it. -/
def Frame.closing : Frame → List Char
  | .object _ => ['\x7d']
  | .array _ => [']']
  | .string _ => ['"']
  | .number => []
  | .literal rest => rest

/-- The open values, innermost first, and the length of the longest prefix that ends on a complete token. -/
structure Repair where
  opened : List Frame
  validLen : Nat

namespace Repair

def mark (repair : Repair) (i : Nat) : Repair := { repair with validLen := i + 1 }

def close (repair : Repair) (i : Nat) : Repair := { opened := repair.opened.tail, validLen := i + 1 }

/-- A lone `-` is not a number yet. -/
def openValue (repair : Repair) (i : Nat) (c : Char) (frame : Frame) : Repair :=
  { opened := frame :: repair.opened, validLen := if c ≠ '-' then i + 1 else repair.validLen }

def afterValue (repair : Repair) (i : Nat) (c : Char) : Repair :=
  match repair.opened with
  | .object .afterValue :: outer =>
    if c = ',' then { repair with opened := .object .afterComma :: outer }
    else if c = '\x7d' then repair.close i
    else repair
  | .array .afterValue :: outer =>
    if c = ',' then { repair with opened := .array .afterComma :: outer }
    else if c = ']' then repair.close i
    else repair
  | _ => repair

def endScalar (repair : Repair) (i : Nat) (c : Char) : Repair :=
  { repair with opened := repair.opened.tail }.afterValue i c

def stepObject (repair : Repair) (outer : List Frame) (pos : ObjectPos) (i : Nat) (c : Char) : Repair :=
  match pos with
  | .start =>
    if c = '"' then { repair with opened := .object .key :: outer }
    else if c = '\x7d' then repair.close i
    else repair
  | .afterComma => if c = '"' then { repair with opened := .object .key :: outer } else repair
  | .key => if c = '"' then { repair with opened := .object .afterKey :: outer } else repair
  | .afterKey => if c = ':' then { repair with opened := .object .beforeValue :: outer } else repair
  | .beforeValue =>
    match Frame.openedBy c with
    | some value => { repair with opened := .object .afterValue :: outer }.openValue i c value
    | none => repair
  | .afterValue => repair.afterValue i c

def stepArray (repair : Repair) (outer : List Frame) (pos : ArrayPos) (i : Nat) (c : Char) : Repair :=
  match pos with
  | .start =>
    if c = ']' then repair.close i
    else
      let next := match Frame.openedBy c with
        | some value => { repair with opened := .array .afterValue :: outer }.openValue i c value
        | none => repair
      -- every character is marked here, also one that starts no value
      next.mark i
  | .afterValue =>
    if c = ']' then repair.close i
    else if c = ',' then { repair with opened := .array .afterComma :: outer }
    else repair.mark i
  | .afterComma =>
    match Frame.openedBy c with
    | some value => { repair with opened := .array .afterValue :: outer }.openValue i c value
    | none => repair

def stepString (repair : Repair) (outer : List Frame) (pos : StringPos) (i : Nat) (c : Char) : Repair :=
  match pos with
  | .plain =>
    if c = '"' then repair.close i
    else if c = '\\' then { repair with opened := .string .escape :: outer }
    else repair.mark i
  | .escape =>
    if c = 'u' then { repair with opened := .string (.unicodeEscape 0) :: outer }
    else { repair with opened := .string .plain :: outer }.mark i
  | .unicodeEscape digits =>
    if isHexDigit c = true then
      if digits = 3 then { repair with opened := .string .plain :: outer }.mark i
      else { repair with opened := .string (.unicodeEscape (digits + 1)) :: outer }
    else repair

def stepNumber (repair : Repair) (i : Nat) (c : Char) : Repair :=
  if c.isDigit = true then repair.mark i
  else if c = 'e' ∨ c = 'E' ∨ c = '-' ∨ c = '.' then repair
  else repair.endScalar i c

def stepLiteral (repair : Repair) (outer : List Frame) (rest : List Char) (i : Nat) (c : Char) : Repair :=
  match rest with
  | [] => repair.endScalar i c
  | first :: more =>
    if first = c then { repair with opened := .literal more :: outer }.mark i
    else repair.endScalar i c

/-- Feeds one unit of the character. Without an open value the scan breaks off. -/
def step (repair : Repair) (i : Nat) (c : Char) : Option Repair :=
  match repair.opened with
  | [] => none
  | .object pos :: outer => some (repair.stepObject outer pos i c)
  | .array pos :: outer => some (repair.stepArray outer pos i c)
  | .string pos :: outer => some (repair.stepString outer pos i c)
  | .number :: _ => some (repair.stepNumber i c)
  | .literal rest :: outer => some (repair.stepLiteral outer rest i c)

def scan (repair : Repair) : List (Nat × Char) → Repair
  | [] => repair
  | (i, c) :: more =>
    match repair.step i c with
    | some next => next.scan more
    | none => repair

def finish (repair : Repair) (input : List Char) : List Char :=
  input.take repair.validLen ++ repair.opened.flatMap Frame.closing

end Repair

def lenUtf16 (c : Char) : Nat := if c.toNat < 0x10000 then 1 else 2

/-- The characters with their positions, each as often as it has UTF-16 units. -/
def units (i : Nat) : List Char → List (Nat × Char)
  | [] => []
  | c :: cs => List.replicate (lenUtf16 c) (i, c) ++ units (i + 1) cs

/-- Characters before the first value start are skipped. -/
def scanRoot (i : Nat) : List Char → Repair
  | [] => { opened := [], validLen := 0 }
  | c :: cs =>
    match Frame.openedBy c with
    | some frame => (Repair.openValue { opened := [], validLen := 0 } i c frame).scan (units (i + 1) cs)
    | none => scanRoot (i + 1) cs

def fixJson (input : List Char) : List Char := (scanRoot 0 input).finish input

/-! ## Partial texts -/

inductive PartialJson (Json : Type) where
  | parsed (value : Json)
  | repaired (value : Json)
  | failed

def PartialJson.parse {Json : Type} (fromStr : List Char → Option Json) (text : List Char) : PartialJson Json :=
  match fromStr text with
  | some value => .parsed value
  | none =>
    match fromStr (fixJson text) with
    | some value => .repaired value
    | none => .failed

theorem PartialJson.parse_ne_failed {Json : Type} {fromStr : List Char → Option Json} {text : List Char}
    (h : (fromStr (fixJson text)).isSome = true) : PartialJson.parse fromStr text ≠ .failed := by
  obtain ⟨value, hValue⟩ := Option.isSome_iff_exists.mp h
  rw [PartialJson.parse, hValue]
  cases fromStr text <;> rintro ⟨⟩

/-! ## What the output is made of -/

/-- A closing character, or the rest of a literal. -/
def Closes (closer : List Char) : Prop :=
  closer ∈ [['\x7d'], [']'], ['"']] ∨ ∃ literal ∈ ["true", "false", "null"], closer <:+ literal.toList

theorem closes_nil : Closes [] := .inr ⟨"true", by decide, List.nil_suffix⟩

theorem closes_object : Closes ['\x7d'] := .inl (by decide)

theorem closes_array : Closes [']'] := .inl (by decide)

theorem closes_string : Closes ['"'] := .inl (by decide)

theorem Closes.tail {first : Char} {more : List Char} (h : Closes (first :: more)) : Closes more := by
  obtain hMark | ⟨literal, hLiteral, hSuffix⟩ := h
  · have hNil : more = [] := by
      simp only [List.mem_cons, List.cons.injEq, List.not_mem_nil, or_false] at hMark
      obtain ⟨-, rfl⟩ | ⟨-, rfl⟩ | ⟨-, rfl⟩ := hMark <;> rfl
    rw [hNil]
    exact closes_nil
  · exact .inr ⟨literal, hLiteral, (List.suffix_cons first more).trans hSuffix⟩

theorem closes_openedBy {c : Char} {frame : Frame} (h : Frame.openedBy c = some frame) : Closes frame.closing := by
  unfold Frame.openedBy at h
  split_ifs at h <;> cases h
  · exact closes_string
  · exact .inr ⟨"false", by decide, by decide⟩
  · exact .inr ⟨"true", by decide, by decide⟩
  · exact .inr ⟨"null", by decide, by decide⟩
  · exact closes_nil
  · exact closes_object
  · exact closes_array

/-- Every open frame is closed by a closing text. -/
def Closing (opened : List Frame) : Prop := ∀ frame ∈ opened, Closes frame.closing

section

variable {repair : Repair} {outer : List Frame} {i : Nat} {c : Char}

theorem closing_cons {frame : Frame} (hFrame : Closes frame.closing) (h : Closing outer) : Closing (frame :: outer) := by
  intro other hOther
  rcases List.mem_cons.mp hOther with rfl | hOuter
  · exact hFrame
  · exact h other hOuter

theorem closing_tail (h : Closing outer) : Closing outer.tail :=
  fun frame hFrame => h frame (List.mem_of_mem_tail hFrame)

theorem closing_openValue {frame : Frame} (hFrame : Frame.openedBy c = some frame) (h : Closing repair.opened) :
    Closing (repair.openValue i c frame).opened :=
  closing_cons (closes_openedBy hFrame) h

theorem closing_afterValue (h : Closing repair.opened) : Closing (repair.afterValue i c).opened := by
  unfold Repair.afterValue
  split
  · rename_i hOpened
    have hOuter : Closing repair.opened.tail := closing_tail h
    rw [hOpened] at hOuter
    split_ifs
    · exact closing_cons closes_object hOuter
    · exact closing_tail h
    · exact h
  · rename_i hOpened
    have hOuter : Closing repair.opened.tail := closing_tail h
    rw [hOpened] at hOuter
    split_ifs
    · exact closing_cons closes_array hOuter
    · exact closing_tail h
    · exact h
  · exact h

theorem closing_endScalar (h : Closing repair.opened) : Closing (repair.endScalar i c).opened :=
  closing_afterValue (closing_tail h)

theorem closing_stepObject {pos : ObjectPos} (h : Closing repair.opened) (hOuter : Closing outer) :
    Closing (repair.stepObject outer pos i c).opened := by
  have hObject (next : ObjectPos) : Closing (.object next :: outer) := closing_cons closes_object hOuter
  cases pos with
  | start =>
    rw [Repair.stepObject]
    split_ifs
    · exact hObject .key
    · exact closing_tail h
    · exact h
  | afterComma =>
    rw [Repair.stepObject]
    split_ifs
    · exact hObject .key
    · exact h
  | key =>
    rw [Repair.stepObject]
    split_ifs
    · exact hObject .afterKey
    · exact h
  | afterKey =>
    rw [Repair.stepObject]
    split_ifs
    · exact hObject .beforeValue
    · exact h
  | beforeValue =>
    rw [Repair.stepObject]
    split
    · rename_i hValue
      exact closing_openValue hValue (hObject .afterValue)
    · exact h
  | afterValue => exact closing_afterValue h

theorem closing_stepArray {pos : ArrayPos} (h : Closing repair.opened) (hOuter : Closing outer) :
    Closing (repair.stepArray outer pos i c).opened := by
  have hArray (next : ArrayPos) : Closing (.array next :: outer) := closing_cons closes_array hOuter
  cases pos with
  | start =>
    rw [Repair.stepArray]
    split_ifs
    · exact closing_tail h
    · dsimp only [Repair.mark]
      split
      · rename_i hValue
        exact closing_openValue hValue (hArray .afterValue)
      · exact h
  | afterValue =>
    rw [Repair.stepArray]
    split_ifs
    · exact closing_tail h
    · exact hArray .afterComma
    · exact h
  | afterComma =>
    rw [Repair.stepArray]
    split
    · rename_i hValue
      exact closing_openValue hValue (hArray .afterValue)
    · exact h

theorem closing_stepString {pos : StringPos} (h : Closing repair.opened) (hOuter : Closing outer) :
    Closing (repair.stepString outer pos i c).opened := by
  have hString (next : StringPos) : Closing (.string next :: outer) := closing_cons closes_string hOuter
  cases pos with
  | plain =>
    rw [Repair.stepString]
    split_ifs
    · exact closing_tail h
    · exact hString .escape
    · exact h
  | escape =>
    rw [Repair.stepString]
    split_ifs
    · exact hString (.unicodeEscape 0)
    · exact hString .plain
  | unicodeEscape digits =>
    rw [Repair.stepString]
    split_ifs
    · exact hString .plain
    · exact hString (.unicodeEscape (digits + 1))
    · exact h

theorem closing_stepLiteral {rest : List Char} (hRest : Closes rest) (h : Closing repair.opened)
    (hOuter : Closing outer) : Closing (repair.stepLiteral outer rest i c).opened := by
  cases rest with
  | nil => exact closing_endScalar h
  | cons first more =>
    rw [Repair.stepLiteral]
    split_ifs
    · have hFrame : Closes (Frame.literal more).closing := hRest.tail
      exact closing_cons hFrame hOuter
    · exact closing_endScalar h

theorem closing_step {next : Repair} (hStep : repair.step i c = some next) (h : Closing repair.opened) :
    Closing next.opened := by
  have hOuter := closing_tail h
  unfold Repair.step at hStep
  split at hStep
  · cases hStep
  · rename_i hOpened
    cases hStep
    rw [hOpened] at hOuter
    exact closing_stepObject h hOuter
  · rename_i hOpened
    cases hStep
    rw [hOpened] at hOuter
    exact closing_stepArray h hOuter
  · rename_i hOpened
    cases hStep
    rw [hOpened] at hOuter
    exact closing_stepString h hOuter
  · cases hStep
    unfold Repair.stepNumber
    split_ifs
    · exact h
    · exact h
    · exact closing_endScalar h
  · rename_i rest outer hOpened
    cases hStep
    have hRest : Closes (Frame.literal rest).closing := h _ (by rw [hOpened]; exact List.mem_cons_self)
    rw [hOpened] at hOuter
    exact closing_stepLiteral hRest h hOuter

theorem closing_scan {more : List (Nat × Char)} (h : Closing repair.opened) : Closing (repair.scan more).opened := by
  induction more generalizing repair with
  | nil => exact h
  | cons unit more ih =>
    obtain ⟨i, c⟩ := unit
    rw [Repair.scan]
    cases hStep : repair.step i c with
    | none => exact h
    | some next => exact ih (closing_step hStep h)

theorem closing_scanRoot (i : Nat) (input : List Char) : Closing (scanRoot i input).opened := by
  induction input generalizing i with
  | nil => rintro frame ⟨⟩
  | cons c cs ih =>
    rw [scanRoot]
    cases hFrame : Frame.openedBy c with
    | none => exact ih (i + 1)
    | some frame =>
      refine closing_scan (closing_openValue hFrame ?_)
      rintro frame ⟨⟩

/-- A part of the input from its beginning, and the closing texts. -/
theorem fixJson_closers (input : List Char) : ∃ (n : Nat) (closers : List (List Char)), fixJson input = input.take n ++ closers.flatten ∧
    ∀ closer ∈ closers, Closes closer := by
  refine ⟨(scanRoot 0 input).validLen, (scanRoot 0 input).opened.map Frame.closing, ?_, ?_⟩
  · rw [fixJson, Repair.finish, List.flatMap_def]
  · intro closer hCloser
    obtain ⟨frame, hFrame, rfl⟩ := List.mem_map.mp hCloser
    exact closing_scanRoot 0 input frame hFrame

end

end Aimux.Core.JsonRepair
