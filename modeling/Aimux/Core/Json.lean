import Mathlib

/-! # JSON values

`serde_json::Value` as the repository uses it: objects keep their insertion order.
A number is kept as the integer or as the bits of the double that was read.
-/

namespace Aimux.Core

inductive JsonNumber where
  | int (value : Int)
  | float (bits : BitVec 64)
deriving DecidableEq, Repr

inductive Json where
  | null
  | bool (value : Bool)
  | number (value : JsonNumber)
  | string (value : String)
  | array (items : List Json)
  | object (fields : List (String × Json))
deriving Repr, Inhabited

abbrev ProviderMetadata := List (String × Json)

/-- `Value::as_str` -/
def asStr : Json → Option String
  | .string text => some text
  | _ => none

/-- `Value::as_bool` -/
def asBool : Json → Option Bool
  | .bool flag => some flag
  | _ => none

/-- `Value::as_array` -/
def asArray : Json → Option (List Json)
  | .array items => some items
  | _ => none

/-- `Value::as_object` -/
def asObject : Json → Option (List (String × Json))
  | .object fields => some fields
  | _ => none

/-- `Value::as_u64` -/
def asU64 : Json → Option Nat
  | .number (.int n) => if 0 ≤ n ∧ n < 2 ^ 64 then some n.toNat else none
  | _ => none

/-- Behind a key stands the one value that it has. -/
theorem lookup_of_mem {α : Type} {entries : List (String × α)} (hNodup : (entries.map (·.1)).Nodup)
    {key : String} {value : α} (hMem : (key, value) ∈ entries) : entries.lookup key = some value := by
  induction entries with
  | nil => cases hMem
  | cons entry entries ih =>
    rw [List.map_cons, List.nodup_cons] at hNodup
    rcases List.mem_cons.mp hMem with hHead | hTail
    · rw [← hHead]
      exact List.lookup_cons_self
    · have hOther : key ≠ entry.1 := by
        rintro rfl
        exact hNodup.1 (List.mem_map.mpr ⟨_, hTail, rfl⟩)
      rw [List.lookup_cons, beq_false_of_ne hOther]
      exact ih hNodup.2 hTail

/-- `char::is_whitespace`: the Unicode `White_Space` characters. -/
def isWhitespace (c : Char) : Bool :=
  (9 ≤ c.toNat && c.toNat ≤ 13) || c.toNat == 0x20 || c.toNat == 0x85 || c.toNat == 0xA0 ||
  c.toNat == 0x1680 || (0x2000 ≤ c.toNat && c.toNat ≤ 0x200A) || c.toNat == 0x2028 ||
  c.toNat == 0x2029 || c.toNat == 0x202F || c.toNat == 0x205F || c.toNat == 0x3000

/-! ## JSON texts of values

The compact text that `serde_json::to_string` writes. What a number looks like is left open.
-/

def escapeChar (c : Char) : List Char :=
  match c.toNat with
  | 0x22 => ['\\', '"']
  | 0x5C => ['\\', '\\']
  | 0x08 => ['\\', 'b']
  | 0x09 => ['\\', 't']
  | 0x0A => ['\\', 'n']
  | 0x0C => ['\\', 'f']
  | 0x0D => ['\\', 'r']
  | code =>
    if code < 0x20 then ['\\', 'u', '0', '0', Nat.digitChar (code / 16), Nat.digitChar (code % 16)] else [c]

def escape (text : List Char) : List Char := text.flatMap escapeChar

theorem escape_append (a b : List Char) : escape (a ++ b) = escape a ++ escape b := List.flatMap_append

def stringText (text : String) : List Char := '"' :: (escape text.toList ++ ['"'])

section

variable (numberText : JsonNumber → List Char)

mutual

def writeJson : Json → List Char
  | .null => "null".toList
  | .bool true => "true".toList
  | .bool false => "false".toList
  | .number number => numberText number
  | .string text => stringText text
  | .array items => '[' :: (writeItems true items ++ [']'])
  | .object fields => '\x7b' :: (writeFields true fields ++ ['\x7d'])

/-- A comma before each item but the first. -/
def writeItems (first : Bool) : List Json → List Char
  | [] => []
  | item :: rest => (if first then [] else [',']) ++ (writeJson item ++ writeItems false rest)

def writeFields (first : Bool) : List (String × Json) → List Char
  | [] => []
  | (key, value) :: rest =>
    (if first then [] else [',']) ++ (stringText key ++ ':' :: (writeJson value ++ writeFields false rest))

end

theorem writeItems_append (first : Bool) (items more : List Json) :
    writeItems numberText first (items ++ more) =
      writeItems numberText first items ++ writeItems numberText (first && items.isEmpty) more := by
  induction items generalizing first with
  | nil => simp [writeItems]
  | cons item items ih => simp [writeItems, ih]

theorem writeFields_append (first : Bool) (fields more : List (String × Json)) :
    writeFields numberText first (fields ++ more) =
      writeFields numberText first fields ++ writeFields numberText (first && fields.isEmpty) more := by
  induction fields generalizing first with
  | nil => simp [writeFields]
  | cons field fields ih =>
    obtain ⟨key, value⟩ := field
    simp [writeFields, ih]

end

end Aimux.Core
