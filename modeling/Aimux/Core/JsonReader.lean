import Aimux.Core.Json
import Aimux.Lib.JsonText

/-! # What a JSON text stands for

The value of a text of RFC 8259, with no limit on its nesting. What its numerals and strings stand for is
left open. A text that has been read to the end of an object or an array is not read otherwise when more
text follows.
-/

namespace Aimux.Core

open Aimux.Lib.Rfc8259 (isSpace Spaces takeWhile_append_stop)

structure Leaves where
  number : List Char → Option JsonNumber
  /-- Of what stands between the quotes. -/
  text : List Char → Option String

/-- `Map::insert`, of the fields of an object one after the other. -/
def objectOf (fields : List (String × Json)) : Json :=
  .object (fields.foldl (fun held field =>
    if held.any (·.1 = field.1) then held.map fun other => if other.1 = field.1 then field else other
    else held ++ [field]) [])

def skipSpaces (cs : List Char) : List Char := cs.dropWhile isSpace

/-- What is after a mark. -/
def expect (mark : Char) (cs : List Char) : Option (List Char) :=
  match skipSpaces cs with
  | c :: rest => if c = mark then some rest else none
  | [] => none

/-- What stands before the closing quote, and what is after it. -/
def splitString : List Char → Option (List Char × List Char)
  | [] => none
  | c :: rest =>
    if c = '"' then some ([], rest)
    else if c = '\\' then
      match rest with
      | [] => none
      | escaped :: rest => (splitString rest).map fun found => (c :: escaped :: found.1, found.2)
    else (splitString rest).map fun found => (c :: found.1, found.2)

def isScalarChar (c : Char) : Bool := c.isAlphanum || c = '+' || c = '-' || c = '.'

section

variable (leaves : Leaves)

def readString (cs : List Char) : Option (String × List Char) :=
  (splitString cs).bind fun found => (leaves.text found.1).map fun text => (text, found.2)

def scalar (word : List Char) : Option Json :=
  if word = "true".toList then some (.bool true)
  else if word = "false".toList then some (.bool false)
  else if word = "null".toList then some .null
  else (leaves.number word).map .number

mutual

def readValue : Nat → List Char → Option (Json × List Char)
  | 0, _ => none
  | _ + 1, [] => none
  | fuel + 1, c :: cs =>
    if c = '"' then (readString leaves cs).map fun found => (.string found.1, found.2)
    else if c = '[' then
      match expect ']' cs with
      | some rest => some (.array [], rest)
      | none => (readItems fuel cs).map fun found => (.array found.1, found.2)
    else if c = '\x7b' then
      match expect '\x7d' cs with
      | some rest => some (.object [], rest)
      | none => (readMembers fuel cs).map fun found => (objectOf found.1, found.2)
    else (scalar leaves ((c :: cs).takeWhile isScalarChar)).map fun value =>
      (value, (c :: cs).dropWhile isScalarChar)

/-- The items up to the closing bracket. -/
def readItems : Nat → List Char → Option (List Json × List Char)
  | 0, _ => none
  | fuel + 1, cs =>
    (readValue fuel (skipSpaces cs)).bind fun item =>
      match expect ']' item.2 with
      | some rest => some ([item.1], rest)
      | none => (expect ',' item.2).bind fun rest =>
        (readItems fuel rest).map fun found => (item.1 :: found.1, found.2)

def readMembers : Nat → List Char → Option (List (String × Json) × List Char)
  | 0, _ => none
  | fuel + 1, cs =>
    (expect '"' cs).bind fun cs => (readString leaves cs).bind fun name =>
      (expect ':' name.2).bind fun cs => (readValue fuel (skipSpaces cs)).bind fun value =>
        match expect '\x7d' value.2 with
        | some rest => some ([(name.1, value.1)], rest)
        | none => (expect ',' value.2).bind fun rest =>
          (readMembers fuel rest).map fun found => ((name.1, value.1) :: found.1, found.2)

end

/-- The text is a JSON text that stands for the value. -/
def Reads (text : List Char) (value : Json) : Prop :=
  ∃ fuel rest, readValue leaves fuel (skipSpaces text) = some (value, rest) ∧ Spaces rest

end

inductive IsContainer : Json → Prop
  | array (items : List Json) : IsContainer (.array items)
  | object (fields : List (String × Json)) : IsContainer (.object fields)

/-! ## More text -/

variable {cs : List Char}

theorem skipSpaces_append (hSome : skipSpaces cs ≠ []) (more : List Char) :
    skipSpaces (cs ++ more) = skipSpaces cs ++ more := by
  unfold skipSpaces at hSome ⊢
  rw [List.dropWhile_append]
  simp [hSome]

variable {rest : List Char} {mark : Char}

theorem expect_append (h : expect mark cs = some rest) (more : List Char) :
    expect mark (cs ++ more) = some (rest ++ more) := by
  unfold expect at h ⊢
  cases hSkip : skipSpaces cs with
  | nil =>
    rw [hSkip] at h
    cases h
  | cons c tail =>
    rw [skipSpaces_append (by rw [hSkip]; exact List.cons_ne_nil _ _), hSkip]
    rw [hSkip] at h
    simp only [List.cons_append] at h ⊢
    split at h
    · cases h
      exact if_pos ‹_›
    · cases h

/-- What is not found although something is there is not found later. -/
theorem expect_append_none (h : expect mark cs = none) (hSome : skipSpaces cs ≠ []) (more : List Char) :
    expect mark (cs ++ more) = none := by
  unfold expect at h ⊢
  rw [skipSpaces_append hSome]
  cases hSkip : skipSpaces cs with
  | nil => exact absurd hSkip hSome
  | cons c tail =>
    rw [hSkip] at h
    simp only [List.cons_append] at h ⊢
    split at h
    · cases h
    · exact if_neg ‹_›

theorem skipSpaces_of_expect (h : expect mark cs = some rest) :
    skipSpaces cs ≠ [] := by
  intro hNil
  rw [expect, hNil] at h
  cases h

theorem ne_nil_of_skipSpaces (h : skipSpaces cs ≠ []) : cs ≠ [] := by
  rintro rfl
  exact h rfl

theorem splitString_quote (rest : List Char) : splitString ('"' :: rest) = some ([], rest) := by
  rw [splitString.eq_def]
  rfl

theorem splitString_escape (escaped : Char) (rest : List Char) :
    splitString ('\\' :: escaped :: rest) =
      (splitString rest).map fun found => ('\\' :: escaped :: found.1, found.2) := by
  rw [splitString.eq_def]
  rfl

theorem splitString_plain {c : Char} (hQuote : c ≠ '"') (hBackslash : c ≠ '\\') (rest : List Char) :
    splitString (c :: rest) = (splitString rest).map fun found => (c :: found.1, found.2) := by
  rw [splitString.eq_def]
  simp only [if_neg hQuote, if_neg hBackslash]

theorem splitString_append {body : List Char} (h : splitString cs = some (body, rest)) (more : List Char) :
    splitString (cs ++ more) = some (body, rest ++ more) := by
  fun_induction splitString cs generalizing body with
  | case1 => cases h
  | case2 tail =>
    cases h
    exact splitString_quote (rest ++ more)
  | case3 => cases h
  | case4 escaped tail _ ih =>
    obtain ⟨found, hFound, hEq⟩ := Option.map_eq_some_iff.mp h
    cases hEq
    rw [List.cons_append, List.cons_append, splitString_escape, ih hFound, Option.map_some]
  | case5 c tail hQuote hBackslash ih =>
    obtain ⟨found, hFound, hEq⟩ := Option.map_eq_some_iff.mp h
    cases hEq
    rw [List.cons_append, splitString_plain hQuote hBackslash, ih hFound, Option.map_some]

section

variable {leaves : Leaves}

theorem readString_append {text : String} (h : readString leaves cs = some (text, rest)) (more : List Char) :
    readString leaves (cs ++ more) = some (text, rest ++ more) := by
  obtain ⟨⟨body, after⟩, hSplit, hText⟩ := Option.bind_eq_some_iff.mp h
  obtain ⟨read, hRead, hEq⟩ := Option.map_eq_some_iff.mp hText
  cases hEq
  rw [readString, splitString_append hSplit, Option.bind_some, hRead, Option.map_some]

variable {fuel : Nat}

theorem skipSpaces_of_items {found : List Json × List Char} (h : readItems leaves fuel cs = some found) :
    skipSpaces cs ≠ [] := by
  cases fuel with
  | zero => cases h
  | succ fuel =>
    rw [readItems] at h
    obtain ⟨item, hItem, -⟩ := Option.bind_eq_some_iff.mp h
    intro hNil
    rw [hNil] at hItem
    cases fuel <;> cases hItem

theorem skipSpaces_of_members {found : List (String × Json) × List Char} (h : readMembers leaves fuel cs = some found) :
    skipSpaces cs ≠ [] := by
  cases fuel with
  | zero => cases h
  | succ fuel =>
    rw [readMembers] at h
    obtain ⟨rest, hQuote, -⟩ := Option.bind_eq_some_iff.mp h
    exact skipSpaces_of_expect hQuote

variable {value : Json}

theorem scalar_not_container {word : List Char} (h : scalar leaves word = some value) :
    ¬ IsContainer value := by
  unfold scalar at h
  split at h
  · cases h
    rintro ⟨⟩
  split at h
  · cases h
    rintro ⟨⟩
  split at h
  · cases h
    rintro ⟨⟩
  obtain ⟨number, -, rfl⟩ := Option.map_eq_some_iff.mp h
  rintro ⟨⟩

/-- More text after a value changes nothing, unless the value may go on there. -/
structure Stable (leaves : Leaves) (fuel : Nat) : Prop where
  value : ∀ {cs rest : List Char} {value : Json}, readValue leaves fuel cs = some (value, rest) →
    ∀ (more : List Char) (other : Nat), (more ≠ [] → rest = [] → IsContainer value) → fuel ≤ other →
      readValue leaves other (cs ++ more) = some (value, rest ++ more)
  items : ∀ {cs rest : List Char} {items : List Json}, readItems leaves fuel cs = some (items, rest) →
    ∀ (more : List Char) (other : Nat), fuel ≤ other →
      readItems leaves other (cs ++ more) = some (items, rest ++ more)
  members : ∀ {cs rest : List Char} {members : List (String × Json)}, readMembers leaves fuel cs = some (members, rest) →
    ∀ (more : List Char) (other : Nat), fuel ≤ other →
      readMembers leaves other (cs ++ more) = some (members, rest ++ more)

variable {other : Nat}

theorem stable_value (hStable : Stable leaves fuel) (h : readValue leaves (fuel + 1) cs = some (value, rest))
    (more : List Char) (hMore : more ≠ [] → rest = [] → IsContainer value) (hFuel : fuel ≤ other) :
    readValue leaves (other + 1) (cs ++ more) = some (value, rest ++ more) := by
  cases cs with
  | nil => cases h
  | cons c cs =>
    rw [List.cons_append, readValue]
    rw [readValue] at h
    by_cases hQuote : c = '"'
    · rw [if_pos hQuote] at h ⊢
      obtain ⟨⟨text, after⟩, hText, hEq⟩ := Option.map_eq_some_iff.mp h
      cases hEq
      rw [readString_append hText, Option.map_some]
    rw [if_neg hQuote] at h ⊢
    by_cases hBracket : c = '['
    · rw [if_pos hBracket] at h ⊢
      cases hEnd : expect ']' cs with
      | some after =>
        rw [hEnd] at h
        cases h
        rw [expect_append hEnd]
      | none =>
        rw [hEnd] at h
        obtain ⟨⟨items, after⟩, hItems, hEq⟩ := Option.map_eq_some_iff.mp h
        cases hEq
        rw [expect_append_none hEnd (skipSpaces_of_items hItems), hStable.items hItems more other hFuel, Option.map_some]
    rw [if_neg hBracket] at h ⊢
    by_cases hBrace : c = '\x7b'
    · rw [if_pos hBrace] at h ⊢
      cases hEnd : expect '\x7d' cs with
      | some after =>
        rw [hEnd] at h
        cases h
        rw [expect_append hEnd]
      | none =>
        rw [hEnd] at h
        obtain ⟨⟨members, after⟩, hMembers, hEq⟩ := Option.map_eq_some_iff.mp h
        cases hEq
        rw [expect_append_none hEnd (skipSpaces_of_members hMembers), hStable.members hMembers more other hFuel,
          Option.map_some]
    rw [if_neg hBrace] at h ⊢
    obtain ⟨read, hScalar, hEq⟩ := Option.map_eq_some_iff.mp h
    obtain ⟨rfl, rfl⟩ := Prod.mk.inj hEq
    by_cases hStop : (c :: cs).dropWhile isScalarChar = []
    · have hNone : more = [] := by
        by_contra hSome
        exact scalar_not_container hScalar (hMore hSome hStop)
      rw [hNone, List.append_nil, List.append_nil, hScalar, Option.map_some]
    · obtain ⟨hTake, hDrop⟩ := takeWhile_append_stop hStop more
      rw [← List.cons_append, hTake, hDrop, hScalar, Option.map_some]

theorem stable_items (hStable : Stable leaves fuel) {items : List Json}
    (h : readItems leaves (fuel + 1) cs = some (items, rest)) (more : List Char) (hFuel : fuel ≤ other) :
    readItems leaves (other + 1) (cs ++ more) = some (items, rest ++ more) := by
  have hStart := skipSpaces_of_items h
  rw [readItems] at h ⊢
  obtain ⟨⟨item, after⟩, hItem, h⟩ := Option.bind_eq_some_iff.mp h
  dsimp only at h
  rw [skipSpaces_append hStart]
  cases hEnd : expect ']' after with
  | some tail =>
    rw [hEnd] at h
    cases h
    have hAfter : after ≠ [] := ne_nil_of_skipSpaces (skipSpaces_of_expect hEnd)
    rw [hStable.value hItem more other (fun _ hNil => absurd hNil hAfter) hFuel, Option.bind_some]
    simp only [expect_append hEnd]
  | none =>
    rw [hEnd] at h
    obtain ⟨tail, hComma, h⟩ := Option.bind_eq_some_iff.mp h
    obtain ⟨⟨others, last⟩, hOthers, hEq⟩ := Option.map_eq_some_iff.mp h
    cases hEq
    have hMore := skipSpaces_of_expect hComma
    rw [hStable.value hItem more other (fun _ hNil => absurd hNil (ne_nil_of_skipSpaces hMore)) hFuel, Option.bind_some]
    simp only [expect_append_none hEnd hMore, expect_append hComma, Option.bind_some,
      hStable.items hOthers more other hFuel, Option.map_some]

theorem stable_members (hStable : Stable leaves fuel) {members : List (String × Json)}
    (h : readMembers leaves (fuel + 1) cs = some (members, rest)) (more : List Char) (hFuel : fuel ≤ other) :
    readMembers leaves (other + 1) (cs ++ more) = some (members, rest ++ more) := by
  rw [readMembers] at h ⊢
  obtain ⟨quoted, hQuote, h⟩ := Option.bind_eq_some_iff.mp h
  obtain ⟨⟨name, named⟩, hName, h⟩ := Option.bind_eq_some_iff.mp h
  obtain ⟨valued, hColon, h⟩ := Option.bind_eq_some_iff.mp h
  obtain ⟨⟨value, after⟩, hValue, h⟩ := Option.bind_eq_some_iff.mp h
  have hStart : skipSpaces valued ≠ [] := by
    intro hNil
    rw [hNil] at hValue
    cases fuel <;> cases hValue
  rw [expect_append hQuote, Option.bind_some, readString_append hName, Option.bind_some, expect_append hColon,
    Option.bind_some, skipSpaces_append hStart]
  dsimp only at h
  cases hEnd : expect '\x7d' after with
  | some tail =>
    rw [hEnd] at h
    cases h
    have hAfter : after ≠ [] := ne_nil_of_skipSpaces (skipSpaces_of_expect hEnd)
    rw [hStable.value hValue more other (fun _ hNil => absurd hNil hAfter) hFuel, Option.bind_some]
    simp only [expect_append hEnd]
  | none =>
    rw [hEnd] at h
    obtain ⟨tail, hComma, h⟩ := Option.bind_eq_some_iff.mp h
    obtain ⟨⟨others, last⟩, hOthers, hEq⟩ := Option.map_eq_some_iff.mp h
    cases hEq
    have hMore := skipSpaces_of_expect hComma
    rw [hStable.value hValue more other (fun _ hNil => absurd hNil (ne_nil_of_skipSpaces hMore)) hFuel, Option.bind_some]
    simp only [expect_append_none hEnd hMore, expect_append hComma, Option.bind_some,
      hStable.members hOthers more other hFuel, Option.map_some]

theorem stable (leaves : Leaves) (fuel : Nat) : Stable leaves fuel := by
  induction fuel with
  | zero =>
    refine ⟨?_, ?_, ?_⟩ <;> intro _ _ _ h <;> cases h
  | succ fuel ih =>
    refine ⟨fun h more other hMore hFuel => ?_, fun h more other hFuel => ?_, fun h more other hFuel => ?_⟩
    all_goals obtain ⟨other, rfl⟩ := Nat.exists_eq_succ_of_ne_zero (Nat.ne_zero_of_lt hFuel)
    · exact stable_value ih h more hMore (Nat.le_of_succ_le_succ hFuel)
    · exact stable_items ih h more (Nat.le_of_succ_le_succ hFuel)
    · exact stable_members ih h more (Nat.le_of_succ_le_succ hFuel)

/-! ## One value -/

theorem container_iff {c : Char} (h : readValue leaves fuel (c :: cs) = some (value, rest)) :
    IsContainer value ↔ c = '[' ∨ c = '\x7b' := by
  cases fuel with
  | zero => cases h
  | succ fuel =>
    rw [readValue] at h
    by_cases hQuote : c = '"'
    · rw [if_pos hQuote] at h
      obtain ⟨found, -, hEq⟩ := Option.map_eq_some_iff.mp h
      cases hEq
      subst hQuote
      exact ⟨by rintro ⟨⟩, by rintro (h | h) <;> cases h⟩
    rw [if_neg hQuote] at h
    by_cases hBracket : c = '['
    · rw [if_pos hBracket] at h
      refine ⟨fun _ => .inl hBracket, fun _ => ?_⟩
      split at h
      · cases h
        exact .array []
      · obtain ⟨found, -, hEq⟩ := Option.map_eq_some_iff.mp h
        cases hEq
        exact .array found.1
    rw [if_neg hBracket] at h
    by_cases hBrace : c = '\x7b'
    · rw [if_pos hBrace] at h
      refine ⟨fun _ => .inr hBrace, fun _ => ?_⟩
      split at h
      · cases h
        exact .object []
      · obtain ⟨found, -, hEq⟩ := Option.map_eq_some_iff.mp h
        cases hEq
        exact .object _
    rw [if_neg hBrace] at h
    obtain ⟨read, hScalar, hEq⟩ := Option.map_eq_some_iff.mp h
    cases hEq
    exact ⟨fun hContainer => absurd hContainer (scalar_not_container hScalar),
      fun hFirst => absurd hFirst (not_or.mpr ⟨hBracket, hBrace⟩)⟩

/-- Where a text and a longer one are read, and the longer one as an object or an array, both have that value. -/
theorem Reads.longer {text more : List Char} {other : Json} (hShort : Reads leaves text value)
    (hLong : Reads leaves (text ++ more) other) (hContainer : IsContainer other) : value = other := by
  obtain ⟨fuel, rest, hValue, -⟩ := hShort
  obtain ⟨fuelLong, restLong, hOther, -⟩ := hLong
  cases hSkip : skipSpaces text with
  | nil =>
    rw [hSkip] at hValue
    cases fuel <;> cases hValue
  | cons c cs =>
    have hSome : skipSpaces text ≠ [] := by
      rw [hSkip]
      exact List.cons_ne_nil c cs
    rw [skipSpaces_append hSome, hSkip] at hOther
    rw [hSkip] at hValue
    have hBoth : IsContainer value := (container_iff hValue).mpr ((container_iff hOther).mp hContainer)
    have hFromShort := (stable leaves fuel).value hValue more (max fuel fuelLong) (fun _ _ => hBoth) (le_max_left _ _)
    have hFromLong := (stable leaves fuelLong).value hOther [] (max fuel fuelLong) (fun h => absurd rfl h) (le_max_right _ _)
    rw [List.append_nil, hFromShort] at hFromLong
    exact (Prod.mk.inj (Option.some.inj hFromLong)).1

end

end Aimux.Core
