import Aimux.Core.Json

/-! # Redaction

The one policy for sensitive keys of `recording.rs`, the redaction of recorded values and the bounded one of
`logging.rs` for the values an error shows.
-/

namespace Aimux.Core

def asciiLower (text : String) : String := String.ofList (text.toList.map Char.toLower)

/-- Without dashes and underscores. -/
def squashed (name : List Char) : List Char := name.filter fun c => c ≠ '-' ∧ c ≠ '_'

def isSensitiveKey (name : String) : Bool :=
  let lower := name.toList.map Char.toLower
  lower = "cookie".toList || lower = "set-cookie".toList || "key".toList.isSuffixOf (squashed lower) ||
    "token".toList.isSuffixOf (squashed lower) || "auth".toList.isSuffixOf (squashed lower) ||
    decide ("secret".toList <:+: squashed lower) || decide ("authorization".toList <:+: lower) ||
    decide ("apikey".toList <:+: squashed lower)

mutual

/-- `redact_json`: the value of every sensitive key, at any depth. -/
def redactJson : Json → Json
  | .object fields => .object (redactFields fields)
  | .array items => .array (redactItems items)
  | value => value

def redactFields : List (String × Json) → List (String × Json)
  | [] => []
  | (key, value) :: rest =>
    (key, if isSensitiveKey key then .string "[REDACTED]" else redactJson value) :: redactFields rest

def redactItems : List Json → List Json
  | [] => []
  | item :: rest => redactJson item :: redactItems rest

end

/-! ## Values in errors -/

def ERROR_CONTEXT_MAX_DEPTH : Nat := 8
def ERROR_CONTEXT_MAX_ITEMS : Nat := 128
def ERROR_CONTEXT_MAX_STRING : Nat := 4096

/-- `Map::insert`: a key that is there keeps its place. -/
def insertField (fields : List (String × Json)) (key : String) (value : Json) : List (String × Json) :=
  if fields.any (·.1 = key) then fields.map fun field => if field.1 = key then (key, value) else field
  else fields ++ [(key, value)]

/-- The number is the depth that is left. -/
def redactValue : Nat → Json → Json
  | 0, _ => .string "[MAX_DEPTH]"
  | left + 1, .object fields =>
    let kept := (fields.take ERROR_CONTEXT_MAX_ITEMS).map fun field =>
      (field.1, if isSensitiveKey field.1 then .string "[REDACTED]" else redactValue left field.2)
    .object (if ERROR_CONTEXT_MAX_ITEMS < fields.length then insertField kept "__truncated__" (.bool true) else kept)
  | left + 1, .array items =>
    let kept := (items.take ERROR_CONTEXT_MAX_ITEMS).map (redactValue left)
    .array (if ERROR_CONTEXT_MAX_ITEMS < items.length then
      kept ++ [.object [("__truncated_items__", .number (.int (items.length - ERROR_CONTEXT_MAX_ITEMS)))]]
      else kept)
  | _ + 1, .string text =>
    if ERROR_CONTEXT_MAX_STRING < text.utf8ByteSize then
      .string ("[STRING " ++ toString text.utf8ByteSize ++ " bytes]")
    else .string text
  | _ + 1, value => value

def redactErrorContext (value : Json) : Json := redactValue ERROR_CONTEXT_MAX_DEPTH value

end Aimux.Core
