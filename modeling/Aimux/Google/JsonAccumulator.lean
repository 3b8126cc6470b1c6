import Aimux.Core.Error
import Aimux.Http.BodyLog

/-! # The accumulator of partial arguments

`json_accumulator.rs`: arguments of a tool call that come leaf by leaf are put together as a value, and
beside it as a text that is written as they come. A slice outside a text or inside a character panics, and so
does a missing stack entry: `none` is a panic.
-/

namespace Aimux.Google

open Aimux.Core
open Aimux.Http (byteLength isCharBoundary takeBytes)

/-- How the libraries show a number (`Display`) and a text (`{:?}`). -/
structure Shown where
  number : JsonNumber → List Char
  debug : String → String

structure PartialArg where
  jsonPath : String
  stringValue : Option String := none
  /-- The bits of the double. -/
  numberValue : Option (BitVec 64) := none
  boolValue : Option Bool := none
  nullValue : Option Unit := none
  willContinue : Option Bool := none

/-! ## Numbers -/

/-- The whole number a finite double is, if it is below 9.0072e15. -/
def wholeNumber (bits : BitVec 64) : Option Int :=
  let exponent := (bits.extractLsb' 52 11).toNat
  let fraction := (bits.extractLsb' 0 52).toNat
  -- the double is `mantissa * 2 ^ (scale - 1075)`
  let mantissa := if exponent = 0 then fraction else fraction + 2 ^ 52
  let scale := if exponent = 0 then 1 else exponent
  let magnitude := if 1075 ≤ scale then mantissa * 2 ^ (scale - 1075) else mantissa / 2 ^ (1075 - scale)
  if exponent ≠ 2047 ∧ (1075 ≤ scale ∨ mantissa % 2 ^ (1075 - scale) = 0) ∧ magnitude < 9007200000000000 then
    some (if bits.msb then -magnitude else magnitude)
  else none

/-- `Number::from_f64` has no number for what is not finite. -/
def numberJson (bits : BitVec 64) : Json :=
  match wholeNumber bits with
  | some n => .number (.int n)
  | none => if bits.extractLsb' 52 11 = 2047 then .null else .number (.float bits)

/-- The value of an argument, and its JSON text. -/
def PartialArg.resolve (shown : Shown) (self : PartialArg) : Option (Json × List Char) :=
  match self.stringValue, self.numberValue, self.boolValue, self.nullValue with
  | some text, _, _, _ => some (.string text, stringText text)
  | none, some bits, _, _ => some (numberJson bits, writeJson shown.number (numberJson bits))
  | none, none, some flag, _ => some (.bool flag, writeJson shown.number (.bool flag))
  | none, none, none, some () => some (.null, "null".toList)
  | none, none, none, none => none

/-! ## Paths -/

inductive Segment where
  | key (name : String)
  | index (index : Nat)
  /-- The root container placeholder. -/
  | root
deriving DecidableEq

def Segment.isIndex : Segment → Bool
  | .index _ => true
  | _ => false

/-- `{:?}` -/
def Segment.debugText (shown : Shown) : Segment → String
  | .key name => "Key(" ++ shown.debug name ++ ")"
  | .index i => "Index(" ++ toString i ++ ")"
  | .root => "Root"

/-- `parse::<usize>()`: digits, after a plus sign or not, that fit. -/
def parseUsize (text : List Char) : Option Nat :=
  let digits := if text.head? = some '+' then text.tail else text
  if digits ≠ [] ∧ digits.all Char.isDigit ∧ Nat.ofDigitChars 10 digits 0 < 2 ^ 64 then
    some (Nat.ofDigitChars 10 digits 0)
  else none

/-- The indices in brackets that a text begins with; what is no number is passed over. -/
def parseBrackets : Nat → List Char → List Segment
  | fuel + 1, '[' :: rest =>
    if ']' ∈ rest then
      ((parseUsize (rest.takeWhile (· ≠ ']'))).map Segment.index).toList ++
        parseBrackets fuel (rest.dropWhile (· ≠ ']')).tail
    else []
  | _, _ => []

/-- What stands between two dots. -/
def parsePart (part : List Char) : List Segment :=
  if '[' ∈ part then
    let name := part.takeWhile (· ≠ '[')
    (if name = [] then [] else [Segment.key (String.ofList name)]) ++
      parseBrackets part.length (part.dropWhile (· ≠ '['))
  else [.key (String.ofList part)]

def parsePath (raw : List Char) : List Segment := (raw.splitOn '.').flatMap parsePart

/-- `strip_prefix("$.")`, or the whole path. -/
def rawPath (jsonPath : String) : List Char :=
  if "$.".toList <+: jsonPath.toList then jsonPath.toList.drop 2 else jsonPath.toList

/-! ## The value -/

def MAX_PARTIAL_ARG_INDEX : Nat := 100000
def MAX_PARTIAL_ARG_DEPTH : Nat := 64

def getNestedValue : Json → List Segment → Option Json
  | current, [] => some current
  | .object fields, .key name :: rest => (fields.lookup name).bind fun value => getNestedValue value rest
  | .array items, .index index :: rest => items[index]?.bind fun value => getNestedValue value rest
  | current, .root :: rest => getNestedValue current rest
  | _, _ :: _ => none

def parentMustBe (shown : Shown) (segment : Segment) : AiMuxError :=
  .jsonParse ("partial args path type conflict at " ++ segment.debugText shown ++
    ": accumulated value does not match the path") none

def emptyContainer (child : Segment) : Json := if child.isIndex then .array [] else .object []

/-- With nulls up to the index. -/
def setItem (items : List Json) (index : Nat) (value : Json) : List Json :=
  (items ++ List.replicate (index + 1 - items.length) Json.null).set index value

/-- A conflict is met before anything is changed: below a container that is made for the path there is none. -/
def setSegments (shown : Shown) (value : Json) : List Segment → Json → Except AiMuxError Json
  | [], current => .ok current
  | [segment], current =>
    match segment, current with
    | .key name, .object fields => .ok (.object (insertField fields name value))
    | .index index, .array items => .ok (.array (setItem items index value))
    | .root, _ => .ok value
    | _, _ => .error (parentMustBe shown segment)
  | segment :: next :: rest, current =>
    match segment, current with
    | .key name, .object fields =>
      (setSegments shown value (next :: rest) ((fields.lookup name).getD (emptyContainer next))).map
        fun child => .object (insertField fields name child)
    | .index index, .array items =>
      -- a null at the index is replaced
      let child := match items[index]? with
        | none => emptyContainer next
        | some .null => emptyContainer next
        | some child => child
      (setSegments shown value (next :: rest) child).map fun child => .array (setItem items index child)
    | .root, _ => setSegments shown value (next :: rest) current
    | _, _ => .error (parentMustBe shown segment)

def oversized : Segment → Option Nat
  | .index index => if MAX_PARTIAL_ARG_INDEX < index then some index else none
  | _ => none

def setNestedValue (shown : Shown) (current : Json) (segments : List Segment) (value : Json) :
    Except AiMuxError Json :=
  if MAX_PARTIAL_ARG_DEPTH < segments.length then
    .error (.jsonParse s!"partial args path exceeds maximum depth of {MAX_PARTIAL_ARG_DEPTH}" none)
  else match segments.findSome? oversized with
    | some index =>
      .error (.jsonParse s!"partial args array index {index} exceeds maximum of {MAX_PARTIAL_ARG_INDEX}" none)
    | none => setSegments shown value segments current

/-! ## The text -/

/-- `&text[..end]` -/
def sliceTo (text : List Char) (stop : Nat) : Option (List Char) :=
  if isCharBoundary text stop then some (takeBytes text stop) else none

/-- `&text[start..]` -/
def sliceFrom (text : List Char) (start : Nat) : Option (List Char) :=
  if isCharBoundary text start then some (text.drop (takeBytes text start).length) else none

/-- `a - b` of `usize` -/
def checkedSub (a b : Nat) : Option Nat := if b ≤ a then some (a - b) else none

structure StackEntry where
  segment : Segment
  isArray : Bool
  childCount : Nat
deriving DecidableEq

/-- The stack has its top first. -/
structure GoogleJsonAccumulator where
  accumulated : Json := .object []
  jsonText : List Char := []
  pathStack : List StackEntry := []
  stringOpen : Bool := false

def rootEntry : StackEntry where
  segment := .root
  isArray := false
  childCount := 0

def ensureRoot (stack : List StackEntry) : List StackEntry × List Char :=
  if stack = [] then ([rootEntry], ['\x7b']) else (stack, [])

def commonLength : List Segment → List Segment → Nat
  | a :: as, b :: bs => if a = b then commonLength as bs + 1 else 0
  | _, _ => 0

/-- The root, and the open containers that lie on the path. -/
def findCommonStackDepth (stack : List StackEntry) (container : List Segment) : Option Nat := do
  let below ← checkedSub stack.length 1
  let opened := (stack.reverse.map (·.segment)).tail
  return commonLength (opened.take below) container + 1

/-- A pop that finds no entry would panic. -/
def closeDownTo (depth : Nat) : List StackEntry → Option (List StackEntry × List Char)
  | [] => some ([], [])
  | entry :: below =>
    if depth < below.length + 1 then
      (closeDownTo depth below).map fun closed => (closed.1, (if entry.isArray then ']' else '\x7d') :: closed.2)
    else some (entry :: below, [])

def comma (entry : StackEntry) : List Char := if 0 < entry.childCount then [','] else []

def keyText : Segment → List Char
  | .key name => stringText name ++ [':']
  | _ => []

def StackEntry.addChild (entry : StackEntry) : StackEntry := { entry with childCount := entry.childCount + 1 }

/-- Of the containers that are not open yet. -/
def openContainers (leaf : Segment) : List Segment → List StackEntry → Option (List StackEntry × List Char)
  | [], stack => some (stack, [])
  | _ :: _, [] => none
  | segment :: rest, parent :: below =>
    let isArray := (rest.headD leaf).isIndex
    let entry : StackEntry := { segment, isArray, childCount := 0 }
    (openContainers leaf rest (entry :: parent.addChild :: below)).map fun opened =>
      (opened.1, comma parent ++ keyText segment ++ (if isArray then '[' else '\x7b') :: opened.2)

def openDownTo (container : List Segment) (leaf : Segment) (stack : List StackEntry) :
    Option (List StackEntry × List Char) := do
  let start ← checkedSub stack.length 1
  openContainers leaf (container.drop start) stack

/-- Without the closing quote. -/
def withoutQuote (valueJson : List Char) : Option (List Char) :=
  (checkedSub (byteLength valueJson) 1).bind (sliceTo valueJson)

def PartialArg.continues (self : PartialArg) : Bool := self.stringValue.isSome && self.willContinue = some true

def emitLeaf (leaf : Segment) (arg : PartialArg) (valueJson : List Char) :
    List StackEntry → Option (List StackEntry × List Char)
  | [] => none
  | container :: below => do
    let shown ← if arg.continues then withoutQuote valueJson else some valueJson
    return (container.addChild :: below, comma container ++ keyText leaf ++ shown)

/-- The stack and the fragment; after it a string is open exactly if the argument goes on. -/
def emitNavigationTo (self : GoogleJsonAccumulator) (target : List Segment) (arg : PartialArg)
    (valueJson : List Char) : Option (GoogleJsonAccumulator × List Char) := do
  let quote := if self.stringOpen then ['"'] else []
  let root := ensureRoot self.pathStack
  let last ← checkedSub target.length 1
  let container := target.take last
  let leaf ← target[last]?
  let depth ← findCommonStackDepth root.1 container
  let closed ← closeDownTo depth root.1
  let opened ← openDownTo container leaf closed.1
  let emitted ← emitLeaf leaf arg valueJson opened.1
  return ({ self with pathStack := emitted.1, stringOpen := arg.continues },
    quote ++ root.2 ++ closed.2 ++ opened.2 ++ emitted.2)

/-! ## Batches -/

/-- What one argument does: the state and the text it adds, or an error that leaves the state. -/
def processArg (shown : Shown) (self : GoogleJsonAccumulator) (arg : PartialArg) :
    Option (Except AiMuxError (GoogleJsonAccumulator × List Char)) :=
  let segments := parsePath (rawPath arg.jsonPath)
  if rawPath arg.jsonPath = [] ∨ segments = [] then some (.ok (self, []))
  else match arg.stringValue, getNestedValue self.accumulated segments with
    | some text, some existing =>
      -- a string goes on
      let value := match existing with
        | .string before => Json.string (before ++ text)
        | _ => .string text
      some ((setNestedValue shown self.accumulated segments value).map fun accumulated =>
        ({ self with accumulated }, escape text.toList))
    | _, _ =>
      match arg.resolve shown with
      | none => some (.ok (self, []))
      | some (value, valueJson) =>
        match setNestedValue shown self.accumulated segments value with
        | .error error => some (.error error)
        | .ok accumulated => (emitNavigationTo { self with accumulated } segments arg valueJson).map .ok

/-- An error ends the batch; what its earlier arguments did stays, but for the text. -/
def processArgs (shown : Shown) : List PartialArg → GoogleJsonAccumulator →
    Option (GoogleJsonAccumulator × Except AiMuxError (List Char))
  | [], self => some (self, .ok [])
  | arg :: rest, self => do
    match ← processArg shown self arg with
    | .error error => return (self, .error error)
    | .ok (next, fragment) =>
      let (last, result) ← processArgs shown rest next
      return (last, result.map fun delta => fragment ++ delta)

structure ProcessResult where
  currentJson : Json
  textDelta : List Char

def processPartialArgs (shown : Shown) (self : GoogleJsonAccumulator) (args : List PartialArg) :
    Option (GoogleJsonAccumulator × Except AiMuxError ProcessResult) := do
  let (last, result) ← processArgs shown args self
  match result with
  | .error error => return (last, .error error)
  | .ok delta =>
    return ({ last with jsonText := last.jsonText ++ delta },
      .ok { currentJson := last.accumulated, textDelta := delta })

structure FinalizeResult where
  finalJson : List Char
  closingDelta : List Char

/-- What is left of the final text after as many bytes as were written. -/
def finalize (shown : Shown) (self : GoogleJsonAccumulator) : Option FinalizeResult := do
  let finalJson := writeJson shown.number self.accumulated
  let closingDelta ←
    if byteLength self.jsonText ≤ byteLength finalJson then sliceFrom finalJson (byteLength self.jsonText)
    else some []
  return { finalJson, closingDelta }

end Aimux.Google
