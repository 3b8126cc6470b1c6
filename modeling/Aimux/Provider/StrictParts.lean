import Aimux.Provider.ChatToolCalls

/-! # The strict stream guard

The checks every protocol shares, made on the parts a vendor stream emits: blocks are started
before they are continued or ended, client tool calls wait for `finish`, and a stream that stops
without one fails.
-/

namespace Aimux.Provider

open Aimux.Core

inductive Block where
  | text | reasoning | toolInput
deriving DecidableEq

def Block.name : Block → String
  | .text => "text"
  | .reasoning => "reasoning"
  | .toolInput => "tool-input"

inductive Block.Step where
  | start
  | continue (kind : String)
  | end
deriving DecidableEq

structure StrictParts where
  text : Finset String := ∅
  reasoning : Finset String := ∅
  toolInput : Finset String := ∅
  /-- The ids of the client tool calls seen so far, held or delivered. -/
  completedCalls : Finset String := ∅
  /-- Client tool calls waiting for `finish`. -/
  held : List StreamPart := []
  finished : Bool := false
  failed : Bool := false
  /-- The vendor stream reported an error part. -/
  errored : Bool := false

namespace StrictParts

def isOpen (self : StrictParts) : Block → Finset String
  | .text => self.text
  | .reasoning => self.reasoning
  | .toolInput => self.toolInput

def setOpen (self : StrictParts) (block : Block) (ids : Finset String) : StrictParts :=
  match block with
  | .text => { self with text := ids }
  | .reasoning => { self with reasoning := ids }
  | .toolInput => { self with toolInput := ids }

def fail (self : StrictParts) (problem : String) (controller : Controller StreamPart) :
    StrictParts × Controller StreamPart :=
  ({ self with failed := true, held := [] }, controller.error (strictError problem))

/-- Track a block part; the Boolean is `false` when it breaks the block's lifecycle. -/
def track (self : StrictParts) (block : Block) (id : String) (step : Block.Step)
    (controller : Controller StreamPart) : Bool × StrictParts × Controller StreamPart :=
  match step with
  | .start =>
    if id ∈ self.isOpen block then
      (false, self.fail (block.name ++ " block `" ++ id ++ "` started twice") controller)
    else (true, self.setOpen block (insert id (self.isOpen block)), controller)
  | .continue kind =>
    if id ∈ self.isOpen block then (true, self, controller)
    else (false, self.fail
      (kind ++ " for " ++ block.name ++ " block `" ++ id ++ "` that was not started") controller)
  | .end =>
    if id ∈ self.isOpen block then
      (true, self.setOpen block ((self.isOpen block).erase id), controller)
    else (false, self.fail
      ("end of " ++ block.name ++ " block `" ++ id ++ "` that was not started") controller)

def tracked : StreamPart → Option (Block × String × Block.Step)
  | .textStart id _ => some (.text, id, .start)
  | .textDelta id _ _ => some (.text, id, .continue "text-delta")
  | .textEnd id _ => some (.text, id, .end)
  | .reasoningStart id _ => some (.reasoning, id, .start)
  | .reasoningDelta id _ _ => some (.reasoning, id, .continue "reasoning-delta")
  | .reasoningEnd id _ => some (.reasoning, id, .end)
  | .toolInputStart id .. => some (.toolInput, id, .start)
  | .toolInputDelta id _ _ => some (.toolInput, id, .continue "tool-input-delta")
  | .toolInputEnd id _ => some (.toolInput, id, .end)
  | _ => none

def stepKind : Block.Step → String
  | .start => "tool-input-start"
  | .continue kind => kind
  | .end => "tool-input-end"

/-- Forward a part that passed the block checks, or hold it back. -/
def deliver (self : StrictParts) (part : StreamPart) (controller : Controller StreamPart) :
    StrictParts × Controller StreamPart :=
  match part with
  | .toolCall call =>
    if call.providerExecuted ≠ some true then
      ({ self with
          completedCalls := insert call.toolCallId self.completedCalls
          held := self.held ++ [part] }, controller)
    else (self, controller.enqueue part)
  | .error _ => ({ self with errored := true }, controller.enqueue part)
  | .finish finishReason _ _ =>
    let controller :=
      if finishReason.unified = .error then controller
      else self.held.foldl Controller.enqueue controller
    ({ self with held := [], finished := true }, controller.enqueue part)
  | part => (self, controller.enqueue part)

def transform (self : StrictParts) (chunk : Item StreamPart) (controller : Controller StreamPart) :
    StrictParts × Controller StreamPart :=
  match chunk with
  | .error error => ({ self with failed := true, held := [] }, controller.error error)
  | .ok part =>
    match tracked part with
    | none => self.deliver part controller
    | some (block, id, step) =>
      if block = .toolInput ∧ id ∈ self.completedCalls then
        self.fail (stepKind step ++ " for tool call `" ++ id ++ "` that already completed") controller
      else
        match self.track block id step controller with
        | (true, self, controller) => self.deliver part controller
        | (false, self, controller) => (self, controller)

def flush (self : StrictParts) (controller : Controller StreamPart) : Controller StreamPart :=
  if !self.failed && !self.finished && !self.errored then
    (self.fail "the stream ended without a finish part" controller).2
  else controller

def transformer : Transformer (Item StreamPart) StreamPart where
  State := StrictParts
  initial := {}
  transform := transform
  flush := flush

def guard (strictStream : Option Bool) (stream : List (Item StreamPart)) : List (Item StreamPart) :=
  if strictStream = some true then transformer.pipeThrough stream else stream

end StrictParts

end Aimux.Provider
