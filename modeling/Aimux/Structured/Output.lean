import Aimux.Replay.CallOptions

/-! # Structured output

`output.rs`: what the model is asked for, and how the text of the last step is parsed.
-/

namespace Aimux.Structured

open Aimux.Core
open Aimux.Replay (ResponseFormat)

inductive Output where
  | text
  | object (schema : Json) (name description : Option String)
  | array (element : Json) (minItems maxItems : Option UInt32) (name description : Option String)
  | choice (options : List String) (name description : Option String)
  | json (name description : Option String)

def JSON_SCHEMA_DRAFT_07 : String := "http://json-schema.org/draft-07/schema#"

def COULD_NOT_PARSE : String := "No object generated: could not parse the response."

def DID_NOT_MATCH : String := "No object generated: response did not match schema."

/-! ## The request -/

/-- `Map::remove` -/
def removeField (fields : List (String × Json)) (key : String) : List (String × Json) := fields.filter (·.1 ≠ key)

def count (n : UInt32) : Json := .number (.int n.toNat)

/-- The element schema loses `$schema`; its `definitions` and `$defs` move up to the wrapper. -/
def arraySchema (element : Json) (minItems maxItems : Option UInt32) : Json :=
  let itemSchema := removeField ((asObject element).getD []) "$schema"
  let definitions := itemSchema.lookup "definitions"
  let itemSchema := removeField itemSchema "definitions"
  let defs := itemSchema.lookup "$defs"
  let itemSchema := removeField itemSchema "$defs"
  let elements := [("type", Json.string "array"), ("items", .object itemSchema)] ++
    (minItems.map fun minItems => ("minItems", count minItems)).toList ++
    (maxItems.map fun maxItems => ("maxItems", count maxItems)).toList
  .object ([("$schema", Json.string JSON_SCHEMA_DRAFT_07)] ++
    (definitions.map fun definitions => ("definitions", definitions)).toList ++
    (defs.map fun defs => ("$defs", defs)).toList ++
    [("type", Json.string "object"), ("properties", .object [("elements", .object elements)]),
      ("required", .array [.string "elements"]), ("additionalProperties", .bool false)])

def choiceSchema (options : List String) : Json :=
  .object [("$schema", .string JSON_SCHEMA_DRAFT_07), ("type", .string "object"),
    ("properties", .object [("result", .object [("type", .string "string"), ("enum", .array (options.map .string))])]),
    ("required", .array [.string "result"]), ("additionalProperties", .bool false)]

namespace Output

/-- The least number of items must not exceed the greatest. -/
def validate : Output → Except AiMuxError Unit
  | .array _ (some minItems) (some maxItems) _ _ =>
    if maxItems < minItems then
      .error (.invalidArgument "minItems must be less than or equal to maxItems" none)
    else .ok ()
  | _ => .ok ()

def responseFormat : Output → ResponseFormat
  | .text => .text
  | .object schema name description => .json (some schema) name description
  | .array element minItems maxItems name description =>
    .json (some (arraySchema element minItems maxItems)) name description
  | .choice options name description => .json (some (choiceSchema options)) name description
  | .json name description => .json none name description

end Output

/-! ## The response -/

def parseErrorMessage : AiMuxError → String
  | .jsonParse message _ => message
  | _ => ""

/-- `serde_json::from_str` is the parameter. -/
def parseJson (fromStr : String → Except SourceError Json) (text : String) : Except AiMuxError Json :=
  let noObject (parseError : AiMuxError) : AiMuxError :=
    .jsonParse (COULD_NOT_PARSE ++ " " ++ parseErrorMessage parseError) (some (.aiMux parseError))
  match fromStr text with
  | .error error => .error (noObject (jsonParseError text error.message (some error)))
  | .ok value =>
    if containsForbiddenPrototype value then
      .error (noObject (jsonParseError text "Object contains forbidden prototype property" none))
    else .ok value

section

variable (libraries : Libraries)

/-- An invalid schema is the caller's error, not the value's. -/
def validate (value schema : Json) : Except ErrorCause Unit :=
  match libraries.validatorFor schema with
  | .error error => .error (.source (.mk ("Type validation failed: Value: " ++ libraries.jsonText value ++
      ".\nError message: schema is invalid: " ++ error.message) (some error)))
  | .ok validator =>
    match validator value with
    | .error error => .error (.aiMux (typeValidationError libraries value error.message (some error)))
    | .ok () => .ok ()

def causeText : ErrorCause → String
  | .aiMux error => libraries.errorText error
  | .source error => error.message

def schemaMismatch (cause : ErrorCause) : AiMuxError :=
  .invalidResponseData (DID_NOT_MATCH ++ " " ++ causeText libraries cause) (some cause)

/-- A value of the wrong shape. -/
def mismatch (value : Json) (message : String) : AiMuxError :=
  schemaMismatch libraries (.aiMux (typeValidationError libraries value message none))

def validateAll (element : Json) : List Json → Except AiMuxError Unit
  | [] => .ok ()
  | item :: rest =>
    match validate libraries item element with
    | .error cause => .error (schemaMismatch libraries cause)
    | .ok () => validateAll element rest

def Output.parseCompleteOutput (fromStr : String → Except SourceError Json) (output : Output) (text : String) :
    Except AiMuxError Json :=
  match output with
  | .text => .ok (.string text)
  | .json _ _ => parseJson fromStr text
  | .object schema _ _ => do
    let value ← parseJson fromStr text
    match Structured.validate libraries value schema with
    | .error cause => .error (schemaMismatch libraries cause)
    | .ok () => .ok value
  | .array element minItems maxItems _ _ => do
    let value ← parseJson fromStr text
    match (value.get "elements").bind asArray with
    | none => .error (mismatch libraries value "response must be an object with an elements array")
    | some elements =>
      if let some least := minItems.filter fun minItems => elements.length < minItems.toNat then
        .error (mismatch libraries (.array elements)
          ("elements array must contain at least " ++ toString least.toNat ++ " items"))
      else if let some most := maxItems.filter fun maxItems => maxItems.toNat < elements.length then
        .error (mismatch libraries (.array elements)
          ("elements array must contain at most " ++ toString most.toNat ++ " items"))
      else
        match validateAll libraries element elements with
        | .error error => .error error
        | .ok () => .ok (.array elements)
  | .choice options _ _ => do
    let value ← parseJson fromStr text
    match (value.getStr "result").filter fun result => options.any (· = result) with
    | some result => .ok (.string result)
    | none => .error (mismatch libraries value "response must be an object that contains a choice value.")

end

end Aimux.Structured
