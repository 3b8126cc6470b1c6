import Aimux.Core.Redaction
import Aimux.Lib.AsciiSearch
import Aimux.Lib.Utf8

/-! # The redaction walk

The byte comparison `is_sensitive_key` uses for short names against the comparison of characters, and
what `redact_json` leaves of a value.
-/

namespace Aimux.Core

open Aimux.Lib (utf8 IsAscii utf8_coding)

/-! ## The two tests of a name -/

/-- `u8::to_ascii_lowercase` -/
def byteLower (byte : UInt8) : UInt8 := if 65 ≤ byte.toNat ∧ byte.toNat ≤ 90 then byte + 32 else byte

/-- Neither a dash nor an underscore. -/
def byteKept (byte : UInt8) : Bool := byte ≠ 0x2D ∧ byte ≠ 0x5F

/-- One byte of the loop that fills the two buffers. -/
def normalizeByte (buffers : List UInt8 × List UInt8) (byte : UInt8) : List UInt8 × List UInt8 :=
  let low := byteLower byte
  (buffers.1 ++ [low], if byteKept low then buffers.2 ++ [low] else buffers.2)

def windows (size : Nat) (bytes : List UInt8) : List (List UInt8) :=
  (List.range (bytes.length + 1 - size)).map fun start => (bytes.drop start).take size

def containsSubslice (haystack needle : List UInt8) : Bool :=
  decide (needle.length ≤ haystack.length) && (windows needle.length haystack).any (· == needle)

/-- The path of `is_sensitive_key` for names of up to 128 bytes. -/
def sensitiveFast (bytes : List UInt8) : Bool :=
  let (n, squashed) := bytes.foldl normalizeByte ([], [])
  n == utf8 "cookie" || n == utf8 "set-cookie" || (utf8 "key").isSuffixOf squashed ||
    (utf8 "token").isSuffixOf squashed || (utf8 "auth").isSuffixOf squashed ||
    containsSubslice squashed (utf8 "secret") || containsSubslice n (utf8 "authorization") ||
    containsSubslice squashed (utf8 "apikey")

/-- `is_sensitive_key`; `isSensitiveKey` is its path for longer names. -/
def sensitiveKey (name : String) : Bool :=
  if (utf8 name).length ≤ 128 then sensitiveFast (utf8 name) else isSensitiveKey name

theorem normalize_eq (bytes n squashed : List UInt8) :
    bytes.foldl normalizeByte (n, squashed) =
      (n ++ bytes.map byteLower, squashed ++ (bytes.map byteLower).filter byteKept) := by
  induction bytes generalizing n squashed with
  | nil => simp
  | cons byte bytes ih =>
    rw [List.foldl_cons, normalizeByte, ih, List.map_cons, List.filter_cons]
    split <;> simp

theorem mem_windows_iff {size : Nat} {bytes window : List UInt8} (hSize : size ≤ bytes.length) :
    window ∈ windows size bytes ↔ window.length = size ∧ window <:+: bytes := by
  unfold windows
  rw [List.mem_map]
  constructor
  · rintro ⟨start, hStart, rfl⟩
    rw [List.mem_range] at hStart
    refine ⟨?_, (List.take_prefix _ _).isInfix.trans (List.drop_suffix _ _).isInfix⟩
    rw [List.length_take, List.length_drop]
    omega
  · rintro ⟨hLength, before, after, rfl⟩
    refine ⟨before.length, ?_, ?_⟩
    · rw [List.mem_range]
      simp only [List.length_append]
      omega
    · rw [List.append_assoc, List.drop_left, ← hLength, List.take_left]

theorem containsSubslice_iff (haystack needle : List UInt8) :
    containsSubslice haystack needle = true ↔ needle <:+: haystack := by
  unfold containsSubslice
  rw [Bool.and_eq_true, decide_eq_true_iff, List.any_eq_true]
  constructor
  · rintro ⟨hLength, window, hWindow, hSame⟩
    rw [← (beq_iff_eq.mp hSame)]
    exact ((mem_windows_iff hLength).mp hWindow).2
  · intro hInfix
    exact ⟨hInfix.length_le, needle, (mem_windows_iff hInfix.length_le).mpr ⟨rfl, hInfix⟩, by simp⟩

/-! ### Bytes and characters -/

theorem toLower_code : ∀ code : Fin 128, (Char.ofNat code).toLower.toNat < 128 ∧
    byteLower (UInt8.ofNat (Char.ofNat code).toNat) = UInt8.ofNat (Char.ofNat code).toLower.toNat := by
  decide

theorem toLower_ascii {c : Char} (hAscii : c.toNat < 128) :
    c.toLower.toNat < 128 ∧ byteLower (UInt8.ofNat c.toNat) = UInt8.ofNat c.toLower.toNat := by
  have hCode := toLower_code ⟨c.toNat, hAscii⟩
  rw [Char.ofNat_toNat] at hCode
  exact hCode

theorem toLower_high {c : Char} (hHigh : 128 ≤ c.toNat) : c.toLower = c := by
  unfold Char.toLower
  rw [dif_neg]
  rintro ⟨-, hLe⟩
  have hNat : c.toNat ≤ 'Z'.toNat := hLe
  have hZ : 'Z'.toNat = 90 := rfl
  omega

theorem encode_toLower (c : Char) : (String.utf8EncodeChar c).map byteLower = String.utf8EncodeChar c.toLower := by
  by_cases hAscii : c.toNat < 128
  · obtain ⟨hLow, hByte⟩ := toLower_ascii hAscii
    rw [utf8_coding.ascii c hAscii, utf8_coding.ascii c.toLower hLow, List.map_singleton, hByte]
  · have hHigh := Nat.le_of_not_lt hAscii
    rw [toLower_high hHigh]
    refine (List.map_congr_left fun byte hByte => ?_).trans (List.map_id _)
    have hByteHigh := (utf8_coding.high c hHigh).2 byte hByte
    exact if_neg fun hUpper => by omega

theorem kept_code : ∀ code : Fin 128, byteKept (UInt8.ofNat (Char.ofNat code).toNat) =
    decide (Char.ofNat code ≠ '-' ∧ Char.ofNat code ≠ '_') := by
  decide

theorem encode_kept (c : Char) :
    (String.utf8EncodeChar c).filter byteKept = if c ≠ '-' ∧ c ≠ '_' then String.utf8EncodeChar c else [] := by
  by_cases hAscii : c.toNat < 128
  · have hCode := kept_code ⟨c.toNat, hAscii⟩
    rw [Char.ofNat_toNat] at hCode
    rw [utf8_coding.ascii c hAscii, List.filter_singleton, hCode]
    by_cases hKept : c ≠ '-' ∧ c ≠ '_'
    · rw [if_pos hKept, decide_eq_true hKept]
      rfl
    · rw [if_neg hKept, decide_eq_false hKept]
      rfl
  · have hHigh := Nat.le_of_not_lt hAscii
    rw [if_pos ⟨fun hDash => hAscii (by rw [hDash]; decide), fun hLine => hAscii (by rw [hLine]; decide)⟩,
      List.filter_eq_self]
    intro byte hByte
    have hByteHigh := (utf8_coding.high c hHigh).2 byte hByte
    refine decide_eq_true ⟨fun hDash => ?_, fun hLine => ?_⟩
    · rw [hDash] at hByteHigh
      exact absurd hByteHigh (by decide)
    · rw [hLine] at hByteHigh
      exact absurd hByteHigh (by decide)

theorem lower_bytes (chars : List Char) : (chars.flatMap String.utf8EncodeChar).map byteLower =
      (chars.map Char.toLower).flatMap String.utf8EncodeChar := by
  rw [List.map_flatMap, List.flatMap_map]
  congr 1
  exact funext encode_toLower

theorem squashed_bytes (chars : List Char) :
    (chars.flatMap String.utf8EncodeChar).filter byteKept = (squashed chars).flatMap String.utf8EncodeChar := by
  unfold squashed
  induction chars with
  | nil => rfl
  | cons c chars ih =>
    rw [List.flatMap_cons, List.filter_append, ih, encode_kept, List.filter_cons]
    by_cases hKept : c ≠ '-' ∧ c ≠ '_'
    · rw [if_pos hKept, if_pos (decide_eq_true hKept), List.flatMap_cons]
    · rw [if_neg hKept, if_neg (by simpa using hKept), List.nil_append]

section

variable {needle : String} (chars : List Char)

theorem fast_eq (hAscii : IsAscii needle.toList) :
    (chars.flatMap String.utf8EncodeChar == utf8 needle) = decide (chars = needle.toList) := by
  rw [Bool.eq_iff_iff, beq_iff_eq, decide_eq_true_iff]
  exact utf8_coding.eq_iff hAscii

theorem fast_suffix (hAscii : IsAscii needle.toList) :
    (utf8 needle).isSuffixOf (chars.flatMap String.utf8EncodeChar) = needle.toList.isSuffixOf chars := by
  rw [Bool.eq_iff_iff, List.isSuffixOf_iff_suffix, List.isSuffixOf_iff_suffix]
  exact utf8_coding.suffix_iff hAscii

theorem fast_infix (hAscii : IsAscii needle.toList) (hSome : needle.toList ≠ []) :
    containsSubslice (chars.flatMap String.utf8EncodeChar) (utf8 needle) =
      decide (needle.toList <:+: chars) := by
  rw [Bool.eq_iff_iff, containsSubslice_iff, decide_eq_true_iff]
  exact utf8_coding.infix_iff hAscii hSome

end

theorem sensitiveFast_eq (name : String) : sensitiveFast (utf8 name) = isSensitiveKey name := by
  unfold sensitiveFast isSensitiveKey
  rw [normalize_eq, List.nil_append, List.nil_append, utf8, lower_bytes, squashed_bytes]
  simp only
  rw [fast_eq _ (by simp [IsAscii]), fast_eq _ (by simp [IsAscii]), fast_suffix _ (by simp [IsAscii]),
    fast_suffix _ (by simp [IsAscii]), fast_suffix _ (by simp [IsAscii]),
    fast_infix _ (by simp [IsAscii]) (by simp), fast_infix _ (by simp [IsAscii]) (by simp),
    fast_infix _ (by simp [IsAscii]) (by simp)]

theorem sensitiveKey_eq (name : String) : sensitiveKey name = isSensitiveKey name := by
  unfold sensitiveKey
  rw [sensitiveFast_eq, ite_self]

/-! ## What the walk leaves -/

/-- A value without what is under it. -/
inductive Label where
  | scalar (value : Json)
  | keys (keys : List String)
  | items (count : Nat)

def label : Json → Label
  | .object fields => .keys (fields.map (·.1))
  | .array items => .items items.length
  | value => .scalar value

/-- The value at a position of an object or an array, and whether it is under a sensitive key. -/
def childAt : Json → Nat → Option (Bool × Json)
  | .object fields, index => fields[index]?.map fun (key, value) => (sensitiveKey key, value)
  | .array items, index => items[index]?.map fun item => (false, item)
  | _, _ => none

/-- The value at the end of a path, unless the path goes through a sensitive key. -/
def openAt : Json → List Nat → Option Json
  | value, [] => some value
  | value, index :: path =>
    match childAt value index with
    | some (false, child) => openAt child path
    | _ => none

/-- The two values differ at most in values under sensitive keys. -/
def SameOutside (x y : Json) : Prop := ∀ path, (openAt x path).map label = (openAt y path).map label

theorem redactFields_eq_map (fields : List (String × Json)) :
    redactFields fields = fields.map fun (key, value) =>
      (key, if isSensitiveKey key then .string "[REDACTED]" else redactJson value) := by
  induction fields with
  | nil => rfl
  | cons field rest ih =>
    obtain ⟨key, value⟩ := field
    rw [redactFields, ih, List.map_cons]

theorem redactItems_eq_map (items : List Json) : redactItems items = items.map redactJson := by
  induction items with
  | nil => rfl
  | cons item rest ih => rw [redactItems, ih, List.map_cons]

theorem label_redactJson (value : Json) : label (redactJson value) = label value := by
  cases value with
  | object fields =>
    rw [redactJson, redactFields_eq_map]
    simp [label, Function.comp_def]
  | array items =>
    rw [redactJson, redactItems_eq_map]
    simp [label]
  | _ => rfl

theorem childAt_redactJson (value : Json) (index : Nat) :
    childAt (redactJson value) index = (childAt value index).map fun (sensitive, child) =>
      (sensitive, if sensitive then .string "[REDACTED]" else redactJson child) := by
  cases value with
  | object fields =>
    rw [redactJson, redactFields_eq_map]
    simp only [childAt, List.getElem?_map, Option.map_map, sensitiveKey_eq]
    rfl
  | array items =>
    rw [redactJson, redactItems_eq_map]
    simp only [childAt, List.getElem?_map, Option.map_map]
    rfl
  | _ => rfl

/-- Where no sensitive key is passed, the path leads to the redacted value. -/
theorem openAt_redactJson (value : Json) (path : List Nat) :
    openAt (redactJson value) path = (openAt value path).map redactJson := by
  induction path generalizing value with
  | nil => rfl
  | cons index path ih =>
    rw [openAt, openAt, childAt_redactJson]
    cases hChild : childAt value index with
    | none => rfl
    | some found =>
      obtain ⟨sensitive, child⟩ := found
      cases sensitive with
      | true => rfl
      | false => exact ih child

theorem redact_sameOutside (value : Json) : SameOutside (redactJson value) value := by
  intro path
  rw [openAt_redactJson, Option.map_map]
  congr 1
  exact funext label_redactJson

/-! ### Values that differ only under sensitive keys -/

theorem SameOutside.child {x y childX childY : Json} (hSame : SameOutside x y) (index : Nat)
    (hX : childAt x index = some (false, childX)) (hY : childAt y index = some (false, childY)) :
    SameOutside childX childY := by
  intro path
  have hPath := hSame (index :: path)
  rw [openAt, openAt, hX, hY] at hPath
  exact hPath

theorem SameOutside.label {x y : Json} (hSame : SameOutside x y) : label x = label y :=
  Option.some.inj (hSame [])

theorem scalar_redact_eq {x y : Json} (hX : label x = .scalar x) (hLabel : label x = label y) :
    redactJson x = redactJson y := by
  rw [hX] at hLabel
  cases y with
  | object fields => cases hLabel
  | array items => cases hLabel
  | _ => rw [Label.scalar.inj hLabel]

mutual

theorem redactJson_eq_of_same (x y : Json) (hSame : SameOutside x y) : redactJson x = redactJson y := by
  match x with
  | .object fields =>
    have hLabel := hSame.label
    cases y with
    | object others =>
      rw [redactJson, redactJson, redactFields_eq_of_same fields others (Label.keys.inj hLabel)]
      intro index key childX childY hX hY hOpen
      have hKey : sensitiveKey key = false := (sensitiveKey_eq key).trans hOpen
      refine hSame.child index ?_ ?_
      · simp [childAt, hX, hKey]
      · simp [childAt, hY, hKey]
    | _ => cases hLabel
  | .array items =>
    have hLabel := hSame.label
    cases y with
    | array others =>
      rw [redactJson, redactJson, redactItems_eq_of_same items others (Label.items.inj hLabel)]
      intro index childX childY hX hY
      refine hSame.child index ?_ ?_
      · simp [childAt, hX]
      · simp [childAt, hY]
    | _ => cases hLabel
  | .null => exact scalar_redact_eq rfl hSame.label
  | .bool value => exact scalar_redact_eq rfl hSame.label
  | .number value => exact scalar_redact_eq rfl hSame.label
  | .string value => exact scalar_redact_eq rfl hSame.label

theorem redactFields_eq_of_same (fields others : List (String × Json)) (hKeys : fields.map (·.1) = others.map (·.1))
    (hSame : ∀ (index : Nat) (key : String) (x y : Json), fields[index]? = some (key, x) →
      others[index]? = some (key, y) → isSensitiveKey key = false → SameOutside x y) :
    redactFields fields = redactFields others := by
  match fields, others with
  | [], [] => rfl
  | [], _ :: _ => cases hKeys
  | _ :: _, [] => cases hKeys
  | (key, x) :: fields, (other, y) :: others =>
    obtain ⟨hKey, hRest⟩ := List.cons.inj hKeys
    obtain rfl : key = other := hKey
    have hFields := redactFields_eq_of_same fields others hRest
      fun index name childX childY hX hY => hSame (index + 1) name childX childY hX hY
    rw [redactFields, redactFields, hFields]
    cases hOpen : isSensitiveKey key with
    | true => rfl
    | false => rw [if_neg Bool.false_ne_true, if_neg Bool.false_ne_true,
        redactJson_eq_of_same x y (hSame 0 key x y rfl rfl hOpen)]

theorem redactItems_eq_of_same (items others : List Json) (hLength : items.length = others.length)
    (hSame : ∀ (index : Nat) (x y : Json), items[index]? = some x → others[index]? = some y →
      SameOutside x y) : redactItems items = redactItems others := by
  match items, others with
  | [], [] => rfl
  | [], _ :: _ => cases hLength
  | _ :: _, [] => cases hLength
  | x :: items, y :: others =>
    rw [redactItems, redactItems, redactJson_eq_of_same x y (hSame 0 x y rfl rfl),
      redactItems_eq_of_same items others (Nat.succ.inj hLength)
        fun index childX childY hX hY => hSame (index + 1) childX childY hX hY]

end

/-- The tests agree on every name. The walk leaves no value under a sensitive key and everything else as it
is, has no more to do the second time, and does not depend on the values under sensitive keys. -/
theorem redaction_walk :
    (∀ name : String, sensitiveFast (utf8 name) = isSensitiveKey name ∧
      sensitiveKey name = isSensitiveKey name) ∧
    ∀ value : Json,
      (∀ path reached index child, openAt (redactJson value) path = some reached →
        childAt reached index = some (true, child) → child = .string "[REDACTED]") ∧
      (∀ path, (openAt (redactJson value) path).map label = (openAt value path).map label) ∧
      redactJson (redactJson value) = redactJson value ∧
      ∀ other, SameOutside value other → redactJson value = redactJson other := by
  refine ⟨fun name => ⟨sensitiveFast_eq name, sensitiveKey_eq name⟩, fun value => ⟨?_, ?_, ?_, ?_⟩⟩
  · intro path reached index child hReached hChild
    rw [openAt_redactJson, Option.map_eq_some_iff] at hReached
    obtain ⟨original, -, rfl⟩ := hReached
    rw [childAt_redactJson, Option.map_eq_some_iff] at hChild
    obtain ⟨⟨sensitive, hidden⟩, -, hFound⟩ := hChild
    obtain ⟨rfl, rfl⟩ := Prod.mk.inj hFound
    rfl
  · exact redact_sameOutside value
  · exact redactJson_eq_of_same _ _ (redact_sameOutside value)
  · exact redactJson_eq_of_same value

end Aimux.Core
