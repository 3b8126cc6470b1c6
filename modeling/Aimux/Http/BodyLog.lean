import Aimux.Core.RedactionWalk
import Aimux.Core.JsonReader

/-! # Bodies in the log

`redact_body` of `logging.rs`: a body is cut to the limit, then redacted if what is left of it is JSON. The
`serde_json` crate is a parameter.
-/

namespace Aimux.Http

open Aimux.Core

structure Serde where
  /-- `serde_json::from_str` -/
  fromStr : String → Option Json
  /-- `serde_json::to_string` -/
  toString : Json → Option String

def BODY_LOG_LIMIT : Nat := 4096

def byteLength (text : List Char) : Nat := (text.map Char.utf8Size).sum

/-- `str::is_char_boundary` -/
def isCharBoundary : List Char → Nat → Bool
  | _, 0 => true
  | [], _ + 1 => false
  | c :: cs, index => decide (c.utf8Size ≤ index) && isCharBoundary cs (index - c.utf8Size)

/-- The last boundary that is not after the index. -/
def lastBoundary (text : List Char) : Nat → Nat
  | 0 => 0
  | index + 1 => if isCharBoundary text (index + 1) then index + 1 else lastBoundary text index

def takeBytes : List Char → Nat → List Char
  | [], _ => []
  | c :: cs, size => if c.utf8Size ≤ size then c :: takeBytes cs (size - c.utf8Size) else []

/-- Truncate `body` to `BODY_LOG_LIMIT` bytes at a UTF-8 char boundary. -/
def truncate (body : String) : String :=
  if byteLength body.toList ≤ BODY_LOG_LIMIT then body
  else String.ofList (takeBytes body.toList (lastBoundary body.toList BODY_LOG_LIMIT))

def redactBody (serde : Serde) (body : String) : String :=
  let truncated := truncate body
  match serde.fromStr truncated with
  | some value => (serde.toString (redactErrorContext value)).getD truncated
  | none => truncated

/-! ## Values under sensitive keys -/

theorem map_take_eq {α β : Type} {f : α → β} {items others : List α} (hLength : items.length = others.length)
    (hSame : ∀ (index : Nat) (x y : α), items[index]? = some x → others[index]? = some y → f x = f y) (n : Nat) :
    (items.take n).map f = (others.take n).map f := by
  have hWhole : items.map f = others.map f := by
    refine List.ext_getElem (by simpa using hLength) fun index hIndex hOther => ?_
    rw [List.getElem_map, List.getElem_map]
    exact hSame index _ _ (List.getElem?_eq_getElem _) (List.getElem?_eq_getElem _)
  rw [List.map_take, List.map_take, hWhole]

theorem redactValue_eq_of_same (left : Nat) {x y : Json} (hSame : SameOutside x y) :
    redactValue left x = redactValue left y := by
  induction left generalizing x y with
  | zero => rfl
  | succ left ih =>
    have hLabel := hSame.label
    cases x with
    | object fields =>
      cases y with
      | object others =>
        have hKeys : fields.map (·.1) = others.map (·.1) := Label.keys.inj hLabel
        have hLength : fields.length = others.length := by simpa using congrArg List.length hKeys
        have hKept : ((fields.take ERROR_CONTEXT_MAX_ITEMS).map fun field =>
              (field.1, if isSensitiveKey field.1 then Json.string "[REDACTED]" else redactValue left field.2)) =
            (others.take ERROR_CONTEXT_MAX_ITEMS).map fun field =>
              (field.1, if isSensitiveKey field.1 then Json.string "[REDACTED]" else redactValue left field.2) := by
          refine map_take_eq hLength (fun index field other hField hOther => ?_) _
          obtain ⟨key, x⟩ := field
          obtain ⟨otherKey, y⟩ := other
          have hKey : some key = some otherKey := by
            have hAt := congrArg (·[index]?) hKeys
            simpa only [List.getElem?_map, hField, hOther, Option.map_some] using hAt
          cases hKey
          cases hSensitive : isSensitiveKey key with
          | true => rfl
          | false =>
            have hX : childAt (.object fields) index = some (false, x) := by
              simp [childAt, hField, sensitiveKey_eq, hSensitive]
            have hY : childAt (.object others) index = some (false, y) := by
              simp [childAt, hOther, sensitiveKey_eq, hSensitive]
            rw [ih (hSame.child index hX hY)]
        rw [redactValue, redactValue, hKept, hLength]
      | _ => cases hLabel
    | array items =>
      cases y with
      | array others =>
        have hLength : items.length = others.length := Label.items.inj hLabel
        have hKept : (items.take ERROR_CONTEXT_MAX_ITEMS).map (redactValue left) =
            (others.take ERROR_CONTEXT_MAX_ITEMS).map (redactValue left) :=
          map_take_eq hLength (fun index x y hX hY =>
            ih (hSame.child index (by simp [childAt, hX]) (by simp [childAt, hY]))) _
        rw [redactValue, redactValue, hKept, hLength]
      | _ => cases hLabel
    | _ =>
      cases y with
      | object others => cases hLabel
      | array others => cases hLabel
      | _ => rw [Label.scalar.inj hLabel]

/-! ## Bodies that differ in secrets -/

/-- Both are JSON texts that differ only in values under sensitive keys. Only an object or an array holds
such values. -/
inductive DifferInSecrets (leaves : Leaves) (body other : String) : Prop
  | nowhere (hSame : body = other)
  | under {value otherValue : Json} (hBody : Reads leaves body.toList value)
    (hOther : Reads leaves other.toList otherValue) (hContainer : IsContainer value)
    (hOutside : SameOutside value otherValue)

/-- What is read stands in the text, and what is written can be read. -/
structure SerdeLaws (leaves : Leaves) (serde : Serde) : Prop where
  reads : ∀ text value, serde.fromStr text = some value → Reads leaves text.toList value
  writes : ∀ text value, serde.fromStr text = some value →
    ∃ written, serde.toString (redactErrorContext value) = some written ∧ (serde.fromStr written).isSome = true

theorem takeBytes_append (text : List Char) (size : Nat) : ∃ rest, text = takeBytes text size ++ rest := by
  induction text generalizing size with
  | nil => exact ⟨[], rfl⟩
  | cons c cs ih =>
    rw [takeBytes]
    split
    · obtain ⟨rest, hRest⟩ := ih (size - c.utf8Size)
      exact ⟨rest, by rw [List.cons_append, ← hRest]⟩
    · exact ⟨c :: cs, rfl⟩

theorem truncate_append (body : String) : ∃ rest, body.toList = (truncate body).toList ++ rest := by
  unfold truncate
  split
  · exact ⟨[], (List.append_nil _).symm⟩
  · rw [String.toList_ofList]
    exact takeBytes_append _ _

theorem isContainer_of_same {x y : Json} (hSame : SameOutside x y) (h : IsContainer x) : IsContainer y := by
  have hLabel := hSame.label
  cases h with
  | array items =>
    cases y with
    | array others => exact .array others
    | _ => cases hLabel
  | object fields =>
    cases y with
    | object others => exact .object others
    | _ => cases hLabel

section

variable {leaves : Leaves} {serde : Serde}

variable {body : String}

/-- What the kept part of an object or an array stands for, if it is read. -/
theorem kept_value (laws : SerdeLaws leaves serde) {value read : Json} (hBody : Reads leaves body.toList value)
    (hContainer : IsContainer value) (hRead : serde.fromStr (truncate body) = some read) : read = value := by
  obtain ⟨rest, hRest⟩ := truncate_append body
  rw [hRest] at hBody
  exact (laws.reads _ _ hRead).longer hBody hContainer

theorem redactBody_of_none (h : serde.fromStr (truncate body) = none) :
    redactBody serde body = truncate body := by
  rw [redactBody, h]

/-- Where one of the kept parts is read and the other is not, the texts differ. -/
theorem redactBody_ne (laws : SerdeLaws leaves serde) {other : String} {value : Json}
    (hBody : serde.fromStr (truncate body) = some value) (hOther : serde.fromStr (truncate other) = none) :
    redactBody serde body ≠ redactBody serde other := by
  obtain ⟨written, hWritten, hSome⟩ := laws.writes _ _ hBody
  intro hSame
  rw [redactBody_of_none hOther, redactBody, hBody] at hSame
  simp only [hWritten, Option.getD_some] at hSame
  rw [hSame, hOther] at hSome
  cases hSome

/-- The secrets do not show exactly when the kept parts are read, or are the same. -/
theorem redactBody_eq_iff (laws : SerdeLaws leaves serde) {body other : String}
    (hDiffer : DifferInSecrets leaves body other) :
    redactBody serde body = redactBody serde other ↔
      (serde.fromStr (truncate body)).isSome = true ∧ (serde.fromStr (truncate other)).isSome = true ∨
        truncate body = truncate other := by
  constructor
  · intro hSame
    cases hBody : serde.fromStr (truncate body) with
    | some value =>
      cases hOther : serde.fromStr (truncate other) with
      | some otherValue => exact .inl ⟨rfl, rfl⟩
      | none => exact absurd hSame (redactBody_ne laws hBody hOther)
    | none =>
      cases hOther : serde.fromStr (truncate other) with
      | some otherValue => exact absurd hSame.symm (redactBody_ne laws hOther hBody)
      | none =>
        rw [redactBody_of_none hBody, redactBody_of_none hOther] at hSame
        exact .inr hSame
  · rintro (⟨hBody, hOther⟩ | hKept)
    · obtain ⟨read, hRead⟩ := Option.isSome_iff_exists.mp hBody
      obtain ⟨otherRead, hOtherRead⟩ := Option.isSome_iff_exists.mp hOther
      cases hDiffer with
      | nowhere hSame => rw [hSame]
      | under hValue hOtherValue hContainer hOutside =>
        have hFirst := kept_value laws hValue hContainer hRead
        have hSecond := kept_value laws hOtherValue (isContainer_of_same hOutside hContainer) hOtherRead
        subst hFirst hSecond
        obtain ⟨written, hWritten, -⟩ := laws.writes _ _ hRead
        have hRedacted : redactErrorContext otherRead = redactErrorContext read :=
          (redactValue_eq_of_same ERROR_CONTEXT_MAX_DEPTH hOutside).symm
        simp only [redactBody, hRead, hOtherRead, hRedacted, hWritten, Option.getD_some]
    · rw [redactBody, redactBody, hKept]

end

/-! ### Two short bodies -/

def plainLeaves : Leaves where
  number _ := none
  text body := some (String.ofList body)

/-- The last member of a body. -/
def inputMember (input : List Char) : List Char :=
  '"' :: ("input".toList ++ '"' :: ':' :: '"' :: (input ++ ['"', '\x7d']))

def keyedMembers (key input : List Char) : List Char :=
  '"' :: ("api_key".toList ++ '"' :: ':' :: '"' :: (key ++ '"' :: ',' :: inputMember input))

/-- A body with a key and some input. -/
def keyed (key input : List Char) : String :=
  String.ofList ('\x7b' :: keyedMembers key input)

def keyedValue (key input : List Char) : Json :=
  .object [("api_key", .string (String.ofList key)), ("input", .string (String.ofList input))]

variable {word : List Char}

theorem splitString_word (hPlain : ∀ c ∈ word, c ≠ '"' ∧ c ≠ '\\') (rest : List Char) :
    splitString (word ++ '"' :: rest) = some (word, rest) := by
  induction word with
  | nil => exact splitString_quote rest
  | cons c word ih =>
    obtain ⟨hQuote, hBackslash⟩ := hPlain c List.mem_cons_self
    rw [List.cons_append, splitString_plain hQuote hBackslash, ih fun d hD => hPlain d (List.mem_cons_of_mem _ hD),
      Option.map_some]

theorem readString_word (hPlain : ∀ c ∈ word, c ≠ '"' ∧ c ≠ '\\') (rest : List Char) :
    readString plainLeaves (word ++ '"' :: rest) = some (String.ofList word, rest) := by
  rw [readString, splitString_word hPlain]
  rfl

theorem expect_cons {mark c : Char} (hSpace : Lib.Rfc8259.isSpace c = false) (rest : List Char) :
    expect mark (c :: rest) = if c = mark then some rest else none := by
  simp [expect, skipSpaces, hSpace]

theorem readValue_string (hPlain : ∀ c ∈ word, c ≠ '"' ∧ c ≠ '\\') (fuel : Nat) (rest : List Char) :
    readValue plainLeaves (fuel + 1) (skipSpaces ('"' :: (word ++ '"' :: rest))) =
      some (.string (String.ofList word), rest) := by
  have hSkip : skipSpaces ('"' :: (word ++ '"' :: rest)) = '"' :: (word ++ '"' :: rest) := rfl
  rw [hSkip, readValue, if_pos rfl, readString_word hPlain, Option.map_some]

variable {input : List Char}

theorem readMembers_last (hInput : ∀ c ∈ input, c ≠ '"' ∧ c ≠ '\\') :
    readMembers plainLeaves 2 (inputMember input) = some ([("input", .string (String.ofList input))], []) := by
  have hName : ∀ c ∈ "input".toList, c ≠ '"' ∧ c ≠ '\\' := by simp
  have hEnd : expect '\x7d' ['\x7d'] = some [] := rfl
  rw [inputMember, readMembers, expect_cons rfl, if_pos rfl, Option.bind_some, readString_word hName,
    Option.bind_some, expect_cons rfl, if_pos rfl, Option.bind_some, readValue_string hInput, Option.bind_some]
  simp only [hEnd, String.ofList_toList]

variable {key : List Char}

theorem readMembers_keyed (hKey : ∀ c ∈ key, c ≠ '"' ∧ c ≠ '\\') (hInput : ∀ c ∈ input, c ≠ '"' ∧ c ≠ '\\') :
    readMembers plainLeaves 3 (keyedMembers key input) =
      some ([("api_key", .string (String.ofList key)), ("input", .string (String.ofList input))], []) := by
  have hName : ∀ c ∈ "api_key".toList, c ≠ '"' ∧ c ≠ '\\' := by simp
  have hGoesOn (rest : List Char) : expect '\x7d' (',' :: rest) = none := rfl
  have hComma (rest : List Char) : expect ',' (',' :: rest) = some rest := rfl
  rw [keyedMembers, readMembers, expect_cons rfl, if_pos rfl, Option.bind_some, readString_word hName,
    Option.bind_some, expect_cons rfl, if_pos rfl, Option.bind_some, readValue_string hKey, Option.bind_some]
  simp only [hGoesOn, hComma, Option.bind_some, readMembers_last hInput, Option.map_some, String.ofList_toList]

theorem reads_keyed (hKey : ∀ c ∈ key, c ≠ '"' ∧ c ≠ '\\') (hInput : ∀ c ∈ input, c ≠ '"' ∧ c ≠ '\\') :
    Reads plainLeaves (keyed key input).toList (keyedValue key input) := by
  have hText : (keyed key input).toList = '\x7b' :: keyedMembers key input := String.toList_ofList
  have hGoesOn : expect '\x7d' (keyedMembers key input) = none := rfl
  have hQuote : '\x7b' ≠ '"' := by decide
  have hBracket : '\x7b' ≠ '[' := by decide
  have hObject : objectOf [("api_key", .string (String.ofList key)), ("input", .string (String.ofList input))] =
      keyedValue key input := by
    simp [objectOf, keyedValue]
  rw [hText]
  refine ⟨4, [], ?_, ?_⟩
  · have hStart : skipSpaces ('\x7b' :: keyedMembers key input) = '\x7b' :: keyedMembers key input := rfl
    rw [hStart, readValue, if_neg hQuote, if_neg hBracket, if_pos rfl, hGoesOn]
    simp only [readMembers_keyed hKey hInput, Option.map_some, hObject]
  · rintro c ⟨⟩

/-- Two bodies that differ in their key, and what is written of them. -/
def sampleSerde (key other input shown : List Char) : Serde where
  fromStr text :=
    if text = keyed key input then some (keyedValue key input)
    else if text = keyed other input then some (keyedValue other input)
    else if text = keyed "[REDACTED]".toList shown then some (keyedValue "[REDACTED]".toList shown)
    else none
  toString _ := some (keyed "[REDACTED]".toList shown)

def PlainText (cs : List Char) : Prop := ∀ c ∈ cs, c ≠ '"' ∧ c ≠ '\\'

variable {other : List Char}

theorem sampleSerde_laws {shown : List Char} (hKey : PlainText key) (hOther : PlainText other)
    (hInput : PlainText input) (hShown : PlainText shown) :
    SerdeLaws plainLeaves (sampleSerde key other input shown) where
  reads text value hRead := by
    unfold sampleSerde at hRead
    dsimp only at hRead
    split at hRead
    · cases hRead
      subst text
      exact reads_keyed hKey hInput
    split at hRead
    · cases hRead
      subst text
      exact reads_keyed hOther hInput
    split at hRead
    · cases hRead
      subst text
      exact reads_keyed (by simp) hShown
    · cases hRead
  writes text value _ := by
    refine ⟨_, rfl, ?_⟩
    unfold sampleSerde
    dsimp only
    split
    · rfl
    split
    · rfl
    rw [if_pos rfl]
    rfl

theorem sameOutside_keyed (key other input : List Char) :
    SameOutside (keyedValue key input) (keyedValue other input) := by
  rintro (_ | ⟨_ | _ | index, path⟩)
  · rfl
  · rfl
  · rfl
  · rfl

theorem differ_keyed (hKey : PlainText key) (hOther : PlainText other) (hInput : PlainText input) :
    DifferInSecrets plainLeaves (keyed key input) (keyed other input) :=
  .under (reads_keyed hKey hInput) (reads_keyed hOther hInput) (.object _) (sameOutside_keyed key other input)

theorem keyed_toList (key input : List Char) : (keyed key input).toList = '\x7b' :: keyedMembers key input :=
  String.toList_ofList

theorem truncate_keyed (hShort : byteLength ('\x7b' :: keyedMembers key input) ≤ BODY_LOG_LIMIT) :
    truncate (keyed key input) = keyed key input := by
  rw [truncate, keyed_toList, if_pos hShort]

theorem truncate_long (hLong : ¬ byteLength ('\x7b' :: keyedMembers key input) ≤ BODY_LOG_LIMIT) :
    (truncate (keyed key input)).toList =
      takeBytes ('\x7b' :: keyedMembers key input) (lastBoundary ('\x7b' :: keyedMembers key input) BODY_LOG_LIMIT) := by
  rw [truncate, keyed_toList, if_neg hLong]
  exact String.toList_ofList

theorem redactBody_short :
    redactBody (sampleSerde ['a'] ['b'] ['x'] ['x']) (keyed ['a'] ['x']) =
      redactBody (sampleSerde ['a'] ['b'] ['x'] ['x']) (keyed ['b'] ['x']) := by
  have hA : PlainText ['a'] := by simp [PlainText]
  have hB : PlainText ['b'] := by simp [PlainText]
  have hX : PlainText ['x'] := by simp [PlainText]
  refine (redactBody_eq_iff (sampleSerde_laws hA hB hX hX) (differ_keyed hA hB hX)).mpr (.inl ⟨?_, ?_⟩)
  · rw [truncate_keyed (by decide +kernel), sampleSerde]
    dsimp only
    rw [if_pos rfl]
    rfl
  · rw [truncate_keyed (by decide +kernel), sampleSerde]
    dsimp only
    split
    · rfl
    · rw [if_pos rfl]
      rfl

theorem not_read {shown : List Char} {text : String} (hKey : text.toList.length ≠ (keyed key input).toList.length)
    (hOther : text.toList.length ≠ (keyed other input).toList.length)
    (hShown : text.toList.length ≠ (keyed "[REDACTED]".toList shown).toList.length) :
    (sampleSerde key other input shown).fromStr text = none := by
  have hNe {a b : String} (h : a.toList.length ≠ b.toList.length) : a ≠ b := fun hEq => h (by rw [hEq])
  rw [sampleSerde]
  dsimp only
  rw [if_neg (hNe hKey), if_neg (hNe hOther), if_neg (hNe hShown)]

/-- A long input leaves the key in a text that is cut and not read. -/
theorem secret_in_log : ∃ serde, SerdeLaws plainLeaves serde ∧ ∃ body other,
    DifferInSecrets plainLeaves body other ∧ byteLength body.toList = byteLength other.toList ∧
      redactBody serde body ≠ redactBody serde other := by
  have hOne : PlainText ['1'] := by simp [PlainText]
  have hTwo : PlainText ['2'] := by simp [PlainText]
  have hInput : PlainText (List.replicate 4097 'x') := by
    intro c hC
    rw [List.eq_of_mem_replicate hC]
    decide
  have hShown : PlainText "[STRING 4097 bytes]".toList := by simp [PlainText]
  refine ⟨_, sampleSerde_laws hOne hTwo hInput hShown, _, _, differ_keyed hOne hTwo hInput, ?_, ?_⟩
  · rw [keyed_toList, keyed_toList]
    decide +kernel
  · have hFirst := @truncate_long (List.replicate 4097 'x') ['1'] (by decide +kernel)
    have hSecond := @truncate_long (List.replicate 4097 'x') ['2'] (by decide +kernel)
    have hNone : ∀ body : String, body.toList.length = 4096 →
        (sampleSerde ['1'] ['2'] (List.replicate 4097 'x') "[STRING 4097 bytes]".toList).fromStr body = none := by
      intro body hLength
      refine not_read ?_ ?_ ?_ <;> rw [hLength, keyed_toList] <;> decide +kernel
    rw [redactBody_of_none (hNone _ (by rw [hFirst]; decide +kernel)),
      redactBody_of_none (hNone _ (by rw [hSecond]; decide +kernel))]
    intro hSame
    have hKept := congrArg String.toList hSame
    rw [hFirst, hSecond] at hKept
    exact absurd hKept (by decide +kernel)

end Aimux.Http
