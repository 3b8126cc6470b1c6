import Aimux.Google.AccumulatorPanics

/-! # The open end of a text

In document order a value grows at its end only. The containers that stand open there are the last entry of
the value, the last entry of that, and so on; the text that is written so far is the text of the value
without their brackets.
-/

namespace Aimux.Google

open Aimux.Core

def IsLeaf : Json → Prop
  | .object _ => False
  | .array _ => False
  | _ => True

def StackEntry.opener (entry : StackEntry) : Char := if entry.isArray then '[' else '\x7b'
def StackEntry.closer (entry : StackEntry) : Char := if entry.isArray then ']' else '\x7d'

/-- What closes the entries, of which the last is the innermost. -/
def closers (stack : List StackEntry) : List Char := stack.reverse.map StackEntry.closer

theorem closers_cons (entry : StackEntry) (stack : List StackEntry) :
    closers (entry :: stack) = closers stack ++ [entry.closer] := by
  simp [closers]

/-! ## Where a leaf is put -/

/-- The open containers, from the root on, after a leaf is put into the container, and the text before the
value of the leaf. -/
def place (leaf : Segment) : List StackEntry → List Segment → List StackEntry × List Char
  | [], _ => ([], [])
  | entry :: rest, [] => ([entry.addChild], closers rest ++ comma entry ++ keyText leaf)
  | entry :: rest, segment :: container =>
    if rest.head?.map (·.segment) = some segment then
      (entry :: (place leaf rest container).1, (place leaf rest container).2)
    else
      let opened : StackEntry := { segment, isArray := (container.headD leaf).isIndex, childCount := 0 }
      (entry.addChild :: (place leaf [opened] container).1,
        closers rest ++ comma entry ++ keyText segment ++ opened.opener :: (place leaf [opened] container).2)

theorem commonLength_le (opened container : List Segment) :
    commonLength opened container ≤ opened.length ∧ commonLength opened container ≤ container.length := by
  induction opened generalizing container with
  | nil => simp [commonLength]
  | cons a opened ih =>
    cases container with
    | nil => simp [commonLength]
    | cons b container =>
      have hRest := ih container
      simp only [commonLength, List.length_cons]
      split <;> omega

theorem findCommonStackDepth_eq (entry : StackEntry) (rest : List StackEntry) (container : List Segment) :
    findCommonStackDepth (entry :: rest).reverse container =
      some (commonLength (rest.map (·.segment)) container + 1) := by
  have hTake : (rest.map (·.segment)).take rest.length = rest.map (·.segment) :=
    List.take_of_length_le (by simp)
  simp [findCommonStackDepth, checkedSub, hTake]

theorem closeDownTo_append (upper lower : List StackEntry) :
    closeDownTo lower.length (upper ++ lower) = some (lower, upper.map StackEntry.closer) := by
  induction upper with
  | nil =>
    cases lower with
    | nil => rfl
    | cons entry below => simp [closeDownTo]
  | cons entry upper ih =>
    rw [List.cons_append, closeDownTo, if_pos (by simp), ih]
    rfl

/-- What is closed is what is open below the common containers. -/
theorem closeDownTo_common (entry : StackEntry) (rest : List StackEntry) {n : Nat} (hDepth : n ≤ rest.length) :
    closeDownTo (n + 1) (entry :: rest).reverse = some ((entry :: rest.take n).reverse, closers (rest.drop n)) := by
  have hSplit : (entry :: rest).reverse = (rest.drop n).reverse ++ (entry :: rest.take n).reverse := by
    rw [← List.reverse_append, List.cons_append, List.take_append_drop]
  have hLength : n + 1 = (entry :: rest.take n).reverse.length := by simp [hDepth]
  rw [hSplit, hLength, closeDownTo_append]
  rfl

/-- The containers of a path are opened from the common ones on. -/
theorem openContainers_place (leaf : Segment) (container : List Segment) (entry : StackEntry)
    (rest base : List StackEntry) :
    ∃ top below opened,
      openContainers leaf (container.drop (commonLength (rest.map (·.segment)) container))
        ((entry :: rest.take (commonLength (rest.map (·.segment)) container)).reverse ++ base) =
          some (top :: below, opened) ∧
      top.addChild :: below = (place leaf (entry :: rest) container).1.reverse ++ base ∧
      (place leaf (entry :: rest) container).2 =
        closers (rest.drop (commonLength (rest.map (·.segment)) container)) ++ opened ++ comma top ++
          keyText leaf := by
  induction container generalizing entry rest base with
  | nil =>
    refine ⟨entry, base, [], ?_, rfl, ?_⟩
    · cases rest <;> simp [commonLength, openContainers]
    · cases rest <;> simp [commonLength, place]
  | cons segment container ih =>
    by_cases hSame : rest.head?.map (·.segment) = some segment
    · obtain ⟨next, later, rfl⟩ : ∃ next later, rest = next :: later := by
        cases rest with
        | nil => cases hSame
        | cons next later => exact ⟨next, later, rfl⟩
      obtain rfl : next.segment = segment := by simpa using hSame
      obtain ⟨top, below, opened, hOpened, hStack, hText⟩ := ih next later (entry :: base)
      refine ⟨top, below, opened, ?_, ?_, ?_⟩
      · simpa [commonLength] using hOpened
      · rw [hStack, place, if_pos hSame]
        simp
      · rw [place, if_pos hSame, hText]
        simp [commonLength]
    · have hCommon : commonLength (rest.map (·.segment)) (segment :: container) = 0 := by
        cases rest with
        | nil => rfl
        | cons next later =>
          have hOther : next.segment ≠ segment := by simpa using hSame
          simp [commonLength, hOther]
      obtain ⟨top, below, opened, hOpened, hStack, hText⟩ :=
        ih { segment, isArray := (container.headD leaf).isIndex, childCount := 0 } [] (entry.addChild :: base)
      have hNone : commonLength (([] : List StackEntry).map (·.segment)) container = 0 := by
        cases container <;> rfl
      rw [hNone] at hOpened hText
      refine ⟨top, below,
        comma entry ++ keyText segment ++
          (if (container.headD leaf).isIndex then '[' else '\x7b') :: opened, ?_, ?_, ?_⟩
      · rw [hCommon]
        simp only [List.drop_zero, List.take_zero, List.reverse_singleton, List.singleton_append, List.take_nil]
          at hOpened ⊢
        rw [openContainers, hOpened]
        rfl
      · rw [hStack, place, if_neg hSame]
        simp
      · rw [place, if_neg hSame, hCommon]
        simp only [hText]
        simp [StackEntry.opener, closers]

def PartialArg.written (arg : PartialArg) (valueJson : List Char) : Option (List Char) :=
  if arg.continues then withoutQuote valueJson else some valueJson

/-- The quote of a string that stands open. -/
def GoogleJsonAccumulator.quote (self : GoogleJsonAccumulator) : List Char := if self.stringOpen then ['"'] else []

variable {stack : List StackEntry}

theorem emitNavigationTo_eq (self : GoogleJsonAccumulator) (hSome : stack ≠ [])
    (hStack : (ensureRoot self.pathStack).1 = stack.reverse) (container : List Segment) (leaf : Segment)
    (arg : PartialArg) {valueJson written : List Char} (hWritten : arg.written valueJson = some written) :
    emitNavigationTo self (container ++ [leaf]) arg valueJson =
      some ({ self with
          pathStack := (place leaf stack container).1.reverse
          stringOpen := arg.continues },
        self.quote ++ (ensureRoot self.pathStack).2 ++ (place leaf stack container).2 ++ written) := by
  obtain ⟨entry, rest, rfl⟩ := List.exists_cons_of_ne_nil hSome
  obtain ⟨top, below, opened, hOpened, hPlaced, hText⟩ := openContainers_place leaf container entry rest []
  have hCommon := (commonLength_le (rest.map (·.segment)) container).1
  rw [List.length_map] at hCommon
  have hClosed := closeDownTo_common entry rest hCommon
  have hOpen : openDownTo container leaf
      (entry :: rest.take (commonLength (rest.map (·.segment)) container)).reverse = some (top :: below, opened) := by
    rw [List.append_nil] at hOpened
    simpa [openDownTo, checkedSub, hCommon] using hOpened
  have hLeaf : emitLeaf leaf arg valueJson (top :: below) =
      some (top.addChild :: below, comma top ++ keyText leaf ++ written) := by
    rw [PartialArg.written] at hWritten
    by_cases hContinues : arg.continues = true
    · rw [if_pos hContinues] at hWritten
      simp [emitLeaf, hContinues, hWritten]
    · rw [if_neg hContinues] at hWritten
      simp [emitLeaf, hContinues, Option.some.inj hWritten]
  rw [List.append_nil] at hPlaced
  have hDepth := findCommonStackDepth_eq entry rest container
  simp only [emitNavigationTo, hStack, hDepth, hClosed, hOpen, hLeaf, hText, ← hPlaced, checkedSub,
    GoogleJsonAccumulator.quote, List.length_append, List.length_singleton, Nat.le_add_left, if_true,
    Nat.add_sub_cancel, List.take_left', List.getElem?_concat_length, Option.bind_eq_bind, Option.bind_some,
    List.append_assoc]
  rfl

/-! ## The text of a value that is open -/

def separator (count : Nat) : List Char := if 0 < count then [','] else []

variable {number : JsonNumber → List Char}

theorem writeFields_concat (fields : List (String × Json)) (name : String) (value : Json) :
    writeFields number true (fields ++ [(name, value)]) =
      writeFields number true fields ++ separator fields.length ++ keyText (.key name) ++
        writeJson number value := by
  rw [writeFields_append]
  cases fields <;> simp [writeFields, separator, keyText]

theorem writeItems_concat (items : List Json) (value : Json) :
    writeItems number true (items ++ [value]) =
      writeItems number true items ++ separator items.length ++ writeJson number value := by
  rw [writeItems_append]
  cases items <;> simp [writeItems, separator]

/-- The containers of a value that are open at its end, from the outermost on, and its text up to there. -/
inductive Open (number : JsonNumber → List Char) : Segment → Json → List StackEntry → List Char → Prop
  | object {segment : Segment} {fields : List (String × Json)} (hLast : ∀ field ∈ fields.getLast?, IsLeaf field.2) :
      Open number segment (.object fields) [⟨segment, false, fields.length⟩]
        ('\x7b' :: writeFields number true fields)
  | array {segment : Segment} {items : List Json} (hLast : ∀ item ∈ items.getLast?, IsLeaf item) :
      Open number segment (.array items) [⟨segment, true, items.length⟩] ('[' :: writeItems number true items)
  | lastField {segment : Segment} {fields front : List (String × Json)} {name : String} {child : Json}
      {stack : List StackEntry} {text : List Char} (hFields : fields = front ++ [(name, child)])
      (hChild : Open number (.key name) child stack text) :
      Open number segment (.object fields) (⟨segment, false, fields.length⟩ :: stack)
        ('\x7b' :: (writeFields number true front ++ separator front.length ++ keyText (.key name) ++ text))
  | lastItem {segment : Segment} {items front : List Json} {child : Json} {stack : List StackEntry}
      {text : List Char} (hItems : items = front ++ [child])
      (hChild : Open number (.index front.length) child stack text) :
      Open number segment (.array items) (⟨segment, true, items.length⟩ :: stack)
        ('[' :: (writeItems number true front ++ separator front.length ++ text))

theorem open_emptyContainer (segment child : Segment) :
    Open number segment (emptyContainer child) [⟨segment, child.isIndex, 0⟩]
      [(⟨segment, child.isIndex, 0⟩ : StackEntry).opener] := by
  rw [emptyContainer]
  cases hIndex : child.isIndex with
  | true => exact .array (by simp)
  | false => exact .object (by simp)

variable {segment : Segment} {text : List Char}

theorem Open.head {value : Json} (h : Open number segment value stack text) :
    stack.head?.map (·.segment) = some segment := by
  cases h <;> rfl

/-- The brackets that are missing end the text of the value. -/
theorem Open.writeJson {value : Json} (h : Open number segment value stack text) :
    Core.writeJson number value = text ++ closers stack := by
  induction h with
  | object hLast => simp [Core.writeJson, closers, StackEntry.closer]
  | array hLast => simp [Core.writeJson, closers, StackEntry.closer]
  | lastField hFields hChild ih =>
    subst hFields
    rw [Core.writeJson, writeFields_concat, ih, closers_cons]
    simp [StackEntry.closer]
  | lastItem hItems hChild ih =>
    subst hItems
    rw [Core.writeJson, writeItems_concat, ih, closers_cons]
    simp [StackEntry.closer]

/-- Where a value is an object, its entry is the outermost one, and what is open below it closes to the text of
its fields. -/
theorem Open.ofObject {fields : List (String × Json)} (h : Open number segment (.object fields) stack text) :
    ∃ rest, stack = ⟨segment, false, fields.length⟩ :: rest ∧
      text ++ closers rest = '\x7b' :: writeFields number true fields ∧
      ∀ name, name ∉ fields.map (·.1) → rest.head?.map (·.segment) ≠ some (.key name) := by
  cases h with
  | object hLast => exact ⟨[], rfl, by simp [closers], fun _ _ hHead => by cases hHead⟩
  | @lastField _ _ front name child rest text hFields hChild =>
    refine ⟨rest, rfl, ?_, ?_⟩
    · rw [hFields, writeFields_concat, hChild.writeJson]
      simp
    · intro other hNew hHead
      rw [hChild.head] at hHead
      cases hHead
      exact hNew (by simp [hFields])

theorem Open.ofArray {items : List Json} (h : Open number segment (.array items) stack text) :
    ∃ rest, stack = ⟨segment, true, items.length⟩ :: rest ∧
      text ++ closers rest = '[' :: writeItems number true items ∧
      rest.head?.map (·.segment) ≠ some (.index items.length) := by
  cases h with
  | array hLast => exact ⟨[], rfl, by simp [closers], by simp⟩
  | @lastItem _ _ front child rest text hItems hChild =>
    refine ⟨rest, rfl, ?_, ?_⟩
    · rw [hItems, writeItems_concat, hChild.writeJson]
      simp
    · rw [hChild.head]
      simp [hItems]

end Aimux.Google
