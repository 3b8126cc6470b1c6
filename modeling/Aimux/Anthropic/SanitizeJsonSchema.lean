import Aimux.Core.SchemaPlaces
import Aimux.Core.ToolCallRepair

/-! # Schemas for constrained decoding

`sanitize_json_schema.rs`: of a schema, what the decoder accepts; constraints go to the description.
-/

namespace Aimux.Anthropic

open Aimux.Core

def SUPPORTED_STRING_FORMATS : List String :=
  ["date-time", "time", "date", "duration", "email", "hostname", "uri", "ipv4", "ipv6", "uuid"]

def DESCRIPTION_CONSTRAINT_KEYS : List String :=
  ["minimum", "maximum", "exclusiveMinimum", "exclusiveMaximum", "multipleOf", "minLength", "maxLength", "pattern",
    "minItems", "maxItems", "uniqueItems", "minProperties", "maxProperties", "not"]

/-! ## Constraints in words -/

section

variable (numberText : JsonNumber → List Char)

def formatConstraintName (key : String) : List Char :=
  key.toList.flatMap fun ch => if ch.isUpper then [' ', ch.toLower] else [ch]

def formatConstraintValue : Json → List Char
  | .string text => text.toList
  | value => writeJson numberText value

/-- The constraint of a key, unless it is null or false. -/
def constraintOf (schema : Json) (key : String) : Option (List Char) :=
  match schema.get key with
  | none | some .null | some (.bool false) => none
  | some value => some (formatConstraintName key ++ (": ".toList ++ formatConstraintValue numberText value))

/-- A format that is not supported. -/
def formatConstraint (schema : Json) : Option (List Char) :=
  ((schema.getStr "format").filter (· ∉ SUPPORTED_STRING_FORMATS)).map fun format => "format: ".toList ++ format.toList

def getConstraintDescription (schema : Json) : Option (List Char) :=
  let descriptions := DESCRIPTION_CONSTRAINT_KEYS.filterMap (constraintOf numberText schema) ++ (formatConstraint schema).toList
  if descriptions.isEmpty then none else some ([';', ' '].intercalate descriptions ++ ['.'])

/-! ## One schema -/

/-- Where the schemas stand that are sanitized in turn. -/
def sanitized : Keywords := ⟨["definitions", "$defs", "properties"], ["anyOf", "oneOf", "allOf", "items"], ["items"]⟩

/-- The value of `$ref`, unless it is null. -/
def refOf (schema : Json) : Option Json := schema.filled "$ref"

def isObjectSchema (schema : Json) : Bool :=
  schema.getStr "type" = some "object" || (schema.get "properties").isSome

section

variable (schema : Json) (sanitize : (sub : Json) → sanitized.Holds schema sub → Json)

def listUnder (key : String) (hKey : key ∈ sanitized.lists) : Option Json :=
  match hList : schema.get key with
  | some (.array items) => some (.array (items.attach.map fun item => sanitize item.1 (.inList hKey hList item.2)))
  | _ => none

def mapUnder (key : String) (hKey : key ∈ sanitized.maps) : Option Json :=
  match hMap : schema.get key with
  | some (.object members) => some (.object (members.attach.map fun member =>
      (member.1.1, sanitize member.1.2 (.inMap hKey hMap member.2))))
  | _ => none

/-- A value that is not a list. -/
def oneUnder (key : String) (hKey : key ∈ sanitized.schemas) : Option Json :=
  match hOne : (schema.get key).filter (!·.isArray) with
  | some one =>
    have hFilter := Option.filter_eq_some_iff.mp hOne
    some (sanitize one (.alone hKey hFilter.1 (Bool.not_eq_true' _ |>.mp hFilter.2)))
  | none => none

/-- The keywords that are kept, and what is kept of each of them. -/
def keptMembers : List (String × Option Json) :=
  [("$schema", schema.filled "$schema"), ("$id", schema.filled "$id"), ("title", schema.filled "title"),
    ("description", schema.filled "description"), ("default", schema.get "default"), ("const", schema.get "const"),
    ("enum", schema.filled "enum"), ("type", schema.filled "type"),
    ("anyOf", (listUnder schema sanitize "anyOf" (by decide)).or (listUnder schema sanitize "oneOf" (by decide))),
    ("allOf", listUnder schema sanitize "allOf" (by decide)),
    ("definitions", mapUnder schema sanitize "definitions" (by decide)),
    ("$defs", mapUnder schema sanitize "$defs" (by decide)),
    ("properties", if isObjectSchema schema then mapUnder schema sanitize "properties" (by decide) else none),
    ("additionalProperties", if isObjectSchema schema then some (.bool false) else none),
    ("required", if isObjectSchema schema then schema.get "required" else none),
    ("items", (listUnder schema sanitize "items" (by decide)).or (oneUnder schema sanitize "items" (by decide))),
    ("format", ((schema.getStr "format").filter (· ∈ SUPPORTED_STRING_FORMATS)).map .string)]

end

/-- The members that are there. -/
def present (members : List (String × Option Json)) : List (String × Json) :=
  members.filterMap fun member => member.2.map fun value => (member.1, value)

/-- The constraints follow the description, on a line of their own. -/
def describe (schema : Json) (result : List (String × Json)) : List (String × Json) :=
  match getConstraintDescription numberText schema with
  | some desc =>
    let merged := match (result.lookup "description").bind asStr with
      | some prev => prev.toList ++ '\n' :: desc
      | none => desc
    insertField result "description" (.string (String.ofList merged))
  | none => result

/-- What is not an object passes, as in `sanitize_definition`. -/
def sanitizeSchema : Json → Json
  | .object fields =>
    match refOf (.object fields) with
    | some target => .object [("$ref", target)]
    | none => .object (describe numberText (.object fields)
        (present (keptMembers (.object fields) fun sub _hSub => sanitizeSchema sub)))
  | other => other
termination_by schema => sizeOf schema
decreasing_by exact _hSub.sizeOf_lt

def sanitizeJsonSchema (schema : Json) : Json := sanitizeSchema numberText schema

end

end Aimux.Anthropic
