import Aimux.Core.Json

/-! # Structure tracking for streamed tool-call arguments

The state follows brackets and strings of the argument text; it is not a JSON parse.
The source scans UTF-8 bytes. Every character it looks for is ASCII and no continuation byte is,
so scanning the characters of the text visits the same structural characters.
-/

namespace Aimux.Provider

open Aimux.Core

def trimStart (text : String) : List Char := text.toList.dropWhile isWhitespace

def isBlank (text : String) : Bool := (trimStart text).isEmpty

def startsWithStructuredValue : Option String → Bool
  | none => false
  | some value => match trimStart value with
    | '{' :: _ | '[' :: _ => true
    | _ => false

inductive Structure where
  /-- Only whitespace so far. -/
  | undetermined
  /-- A scalar, or a mismatched bracket. -/
  | other
  /-- Inside a top-level value; `stack` holds the open brackets, innermost first. -/
  | opened (stack : List Char) (inString escaped : Bool)
  | complete
deriving DecidableEq, Repr

structure StreamingToolCallArgumentState where
  structure_ : Structure
deriving DecidableEq, Repr

namespace StreamingToolCallArgumentState

def scan : List Char → Bool → Bool → List Char → Structure
  | stack, inString, escaped, [] => .opened stack inString escaped
  | stack, true, true, _ :: rest => scan stack true false rest
  | stack, true, false, c :: rest =>
    if c = '\\' then scan stack true true rest
    else if c = '"' then scan stack false false rest
    else scan stack true false rest
  | stack, false, escaped, c :: rest =>
    if c = '"' then scan stack true escaped rest
    else if c = '{' ∨ c = '[' then scan (c :: stack) false escaped rest
    else if c = '}' ∨ c = ']' then
      match stack with
      | [] => .other
      | top :: below =>
        if top ≠ (if c = '}' then '{' else '[') then .other
        else if below.isEmpty then .complete
        else scan below false escaped rest
    else scan stack false escaped rest

def append (state : StreamingToolCallArgumentState) (delta : String) :
    StreamingToolCallArgumentState :=
  match state.structure_ with
  | .undetermined => match trimStart delta with
    | [] => state
    | c :: rest =>
      if c = '{' ∨ c = '[' then ⟨scan [] false false (c :: rest)⟩ else ⟨.other⟩
  | .opened stack inString escaped => ⟨scan stack inString escaped delta.toList⟩
  | .other => state
  | .complete => state

def new (initialValue : String) : StreamingToolCallArgumentState :=
  append ⟨.undetermined⟩ initialValue

def hasCompleteStructuredValue (state : StreamingToolCallArgumentState) : Bool :=
  decide (state.structure_ = .complete)

end StreamingToolCallArgumentState

end Aimux.Provider
