import Aimux.Provider.TransformStream
import Aimux.Provider.ToolCallArguments

/-! # The tool-call deltas of a chat-completions stream

A chat stream carries no tool-call boundaries: a call is a series of fragments labelled by index,
id and function name, which providers fill in inconsistently. `ChatToolCalls` puts the fragments
back together. `delta` is the lenient entry point, `strictDelta` the one of strict stream mode,
and `finish` ends every call.
-/

namespace Aimux.Provider

open Aimux.Core

structure ToolCallDelta where
  index : Option Nat := none
  id : Option String := none
  name : Option String := none
  /-- `none` is the wire `null` or absent; `some ""` is an empty fragment. -/
  arguments : Option String := none
  invalidType : Bool := false
  providerMetadata : Option ProviderMetadata := none

def Controller.toolInputStart (controller : Controller StreamPart) (id toolName : String) :
    Controller StreamPart :=
  controller.enqueue (.toolInputStart id toolName none none none none)

def Controller.toolInputDelta (controller : Controller StreamPart) (id delta : String) :
    Controller StreamPart :=
  controller.enqueue (.toolInputDelta id delta none)

def Controller.toolInputEnd (controller : Controller StreamPart) (id : String) :
    Controller StreamPart :=
  controller.enqueue (.toolInputEnd id none)

def nonBlank (value : Option String) : Option String := value.filter fun v => !isBlank v

/-- The error a strict stream fails with: terminal, with the malformed response as its cause. -/
def strictError (problem : String) : AiMuxError :=
  let message := "Strict stream: " ++ problem
  .other message (some (.aiMux (.invalidResponseData message none)))

structure ChatToolCalls.ToolCall where
  id : String
  name : String
  arguments : String
  argumentState : StreamingToolCallArgumentState
  /-- Index of the starting delta; orders `finish`. -/
  index : Option Nat
  /-- Every wire id and index seen for this call. -/
  wireIds : List String
  indices : List Nat
  providerMetadata : Option ProviderMetadata

/-- The tool calls of one chat stream, in arrival order. The id generator is any function of the
number of calls made to it before, so a stateful generator is covered. -/
structure ChatToolCalls where
  calls : List ChatToolCalls.ToolCall := []
  generateId : Nat → String
  generated : Nat := 0

namespace ChatToolCalls

inductive Resolution where
  | existing (call : Nat)
  | new
  | ambiguous
deriving DecidableEq

def fallbackToolCallId : String := "tool-call"

def used (self : ChatToolCalls) (id : String) : Bool := self.calls.any fun c => c.id == id

/-- The wire id if unused, else the generated id, else the generated id with the first free
suffix. -/
def uniqueId (self : ChatToolCalls) (wireId : Option String) : String × ChatToolCalls :=
  match wireId.filter fun id => !self.used id with
  | some wireId => (wireId, self)
  | none =>
    let after := { self with generated := self.generated + 1 }
    let generated := (nonBlank (some (self.generateId self.generated))).getD fallbackToolCallId
    if !self.used generated then (generated, after)
    else
      let n := self.calls.length
      let suffix := ((List.range' 1 n).find? fun suffix =>
        !self.used (generated ++ "-" ++ toString suffix)).getD (n + 1)
      (generated ++ "-" ++ toString suffix, after)

def start (self : ChatToolCalls) (wireId : Option String) (index : Option Nat)
    (name arguments : String) (providerMetadata : Option ProviderMetadata)
    (controller : Controller StreamPart) : ChatToolCalls × Controller StreamPart :=
  let (id, self) := self.uniqueId wireId
  let controller := controller.toolInputStart id name
  let controller := if arguments.isEmpty then controller else controller.toolInputDelta id arguments
  ({ self with calls := self.calls ++ [{
      id, name, arguments
      argumentState := .new arguments
      index
      wireIds := wireId.toList
      indices := []
      providerMetadata }] }, controller)

/-- Resolve among the calls matching `predicate`. A fresh structured start is evidence of another
call only once the matching call has completed its own structured arguments. -/
def matching (self : ChatToolCalls) (predicate : ToolCall → Bool) (explicitStart : Bool) :
    Resolution :=
  let candidates := self.calls.zipIdx.filter fun candidate => predicate candidate.1
  match candidates, explicitStart with
  | [], _ => .new
  | [(_, call)], false => .existing call
  | _, _ =>
    let continuable := candidates.filter fun candidate =>
      !candidate.1.argumentState.hasCompleteStructuredValue
    match continuable, explicitStart with
    | [(_, call)], _ => .existing call
    | [], true => .new
    | _, _ => .ambiguous

def atIndex (index : Option Nat) (c : ToolCall) : Bool := index.any fun i => c.indices.contains i

def named (name : Option String) (c : ToolCall) : Bool := name.all fun n => c.name == n

def hasId (wireId : String) (c : ToolCall) : Bool := c.wireIds.any fun w => w == wireId

def resolve (self : ChatToolCalls) (wireId : Option String) (index : Option Nat)
    (name : Option String) (explicitStart emptyArguments : Bool) : Resolution :=
  let indexKnown := self.calls.any (atIndex index)
  match wireId with
  | none =>
    if indexKnown then
      self.matching (fun c => atIndex index c && named name c) explicitStart
    else if name.isSome then .new
    else self.matching (fun _ => true) false
  | some wireId =>
    if !self.calls.any (hasId wireId) then
      if explicitStart then .new
      else self.matching (fun c => atIndex index c && named name c) (name.isSome && emptyArguments)
    else if index.isNone then
      match name with
      | some name => self.matching (fun c => hasId wireId c && c.name == name) explicitStart
      | none => self.matching (hasId wireId) false
    else
      let resolution :=
        self.matching (fun c => hasId wireId c && atIndex index c && named name c) explicitStart
      if resolution ≠ .new then resolution
      else if name.isSome then .new
      else if indexKnown then .ambiguous
      else self.matching (hasId wireId) false

def appendArguments (call : ToolCall) (arguments : Option String)
    (controller : Controller StreamPart) : ToolCall × Controller StreamPart :=
  match arguments with
  | none => (call, controller)
  | some arguments =>
    ({ call with
        argumentState := call.argumentState.append arguments
        arguments := call.arguments ++ arguments },
      controller.toolInputDelta call.id arguments)

def noteWireId (wireId : Option String) (call : ToolCall) : ToolCall :=
  match wireId with
  | some wireId => if hasId wireId call then call else { call with wireIds := call.wireIds ++ [wireId] }
  | none => call

def noteIndex (index : Option Nat) (call : ToolCall) : ToolCall :=
  match index with
  | some index =>
    if call.indices.contains index then call else { call with indices := call.indices ++ [index] }
  | none => call

def invalid (self : ChatToolCalls) (controller : Controller StreamPart) (message : String) :
    Bool × ChatToolCalls × Controller StreamPart :=
  (false, self, controller.error (.invalidResponseData message none))

def strictInvalid (self : ChatToolCalls) (controller : Controller StreamPart) (problem : String) :
    Bool × ChatToolCalls × Controller StreamPart :=
  (false, self, controller.error (strictError problem))

/-- Apply one delta. The Boolean is the source's result: `false` once the stream has ended with an
error. -/
def delta (self : ChatToolCalls) (d : ToolCallDelta) (controller : Controller StreamPart) :
    Bool × ChatToolCalls × Controller StreamPart :=
  let wireId := nonBlank d.id
  let name := nonBlank d.name
  let explicitStart := name.isSome && startsWithStructuredValue d.arguments
  let emptyArguments := d.arguments.all isBlank
  match self.resolve wireId d.index name explicitStart emptyArguments with
  | .ambiguous => (true, self, controller)
  | .new =>
    -- A blank name cannot start a usable call; the delta is dropped.
    if d.name.isSome && name.isNone then (true, self, controller)
    else match d.invalidType, name with
      | false, some name =>
        let (self, controller) :=
          self.start wireId d.index name (d.arguments.getD "") d.providerMetadata controller
        (true, { self with calls := self.calls.modify (self.calls.length - 1) (noteIndex d.index) },
          controller)
      | true, _ => self.invalid controller "Expected 'function' type."
      | false, none => self.invalid controller "Expected 'function.name' to be a string."
  | .existing call =>
    -- `call` is a position in `calls`, so the lookup succeeds.
    match self.calls[call]? with
    | none => (true, self, controller)
    | some toolCall =>
      let (toolCall, controller) :=
        appendArguments (noteWireId wireId toolCall) d.arguments controller
      (true, { self with calls := self.calls.set call (noteIndex d.index toolCall) }, controller)

/-- Apply one delta in strict stream mode: a call starts at a new index with an id and a name, and
later deltas at that index repeat them or omit them. -/
def strictDelta (self : ChatToolCalls) (d : ToolCallDelta) (controller : Controller StreamPart) :
    Bool × ChatToolCalls × Controller StreamPart :=
  match d.index with
  | none => self.strictInvalid controller "a tool call delta without an index"
  | some index =>
    match self.calls.findIdx? fun c => c.index == some index with
    | none =>
      match nonBlank d.id, nonBlank d.name with
      | some id, some name =>
        if d.invalidType then self.invalid controller "Expected 'function' type."
        else if self.used id then
          self.strictInvalid controller
            ("tool call id `" ++ id ++ "` repeated at index " ++ toString index)
        else
          let (self, controller) := self.start (some id) (some index) name (d.arguments.getD "")
            d.providerMetadata controller
          (true, self, controller)
      | _, _ => self.strictInvalid controller
          ("tool call at index " ++ toString index ++ " started without an id and a name")
    | some call =>
      match self.calls[call]? with
      | none => (true, self, controller)
      | some toolCall =>
        if d.id.any (fun id => id != toolCall.id) || d.name.any (fun n => n != toolCall.name) then
          self.strictInvalid controller ("tool call `" ++ toolCall.id ++ "` at index " ++
            toString index ++ " changed its id or name")
        else
          let (toolCall, controller) := appendArguments toolCall d.arguments controller
          (true, { self with calls := self.calls.set call toolCall }, controller)

/-- `Option<usize>` order: an absent index comes first. -/
def indexLe (a b : ToolCall) : Bool :=
  match a.index, b.index with
  | none, _ => true
  | some _, none => false
  | some i, some j => i ≤ j

/-- The order in which `finish` ends the calls: by index when every call has one (ties keep arrival
order), otherwise by arrival. -/
def finishOrder (self : ChatToolCalls) : List ToolCall :=
  if self.calls.all fun c => c.index.isSome then self.calls.insertionSort (fun a b => indexLe a b) else self.calls

def ToolCall.toRaw (call : ToolCall) : RawToolCall where
  toolCallId := call.id
  toolName := call.name
  input := call.arguments
  providerMetadata := call.providerMetadata

def finish (self : ChatToolCalls) (controller : Controller StreamPart) : Controller StreamPart :=
  self.finishOrder.foldl (fun controller call =>
    (controller.toolInputEnd call.id).enqueue (.toolCall call.toRaw)) controller

def feed (entry : ChatToolCalls → ToolCallDelta → Controller StreamPart →
      Bool × ChatToolCalls × Controller StreamPart) :
    ChatToolCalls → Controller StreamPart → List ToolCallDelta →
      Bool × ChatToolCalls × Controller StreamPart
  | self, controller, [] => (true, self, controller)
  | self, controller, d :: rest =>
    match entry self d controller with
    | (true, self, controller) => feed entry self controller rest
    | (false, self, controller) => (false, self, controller)

/-- A whole stream: the deltas, then `finish` if none of them returned `false`. -/
def runWith (entry : ChatToolCalls → ToolCallDelta → Controller StreamPart →
      Bool × ChatToolCalls × Controller StreamPart)
    (generateId : Nat → String) (deltas : List ToolCallDelta) : Bool × List (Item StreamPart) :=
  match feed entry { generateId } {} deltas with
  | (true, self, controller) => (true, (self.finish controller).queue)
  | (false, _, controller) => (false, controller.queue)

end ChatToolCalls

end Aimux.Provider
