import Aimux.Ops.Envelope
import Aimux.Lib.Transducer

/-! # The bounded queue

A queue with an item and a byte budget. Capacity is taken by `reserve` before the payload exists and
is given back by `recv`, by dropping a permit and by `close`. Each critical section of the source is
one action, so a schedule is any interleaving of the producers, the permits they hold and the consumer.
Subtractions are checked: one that would wrap is reported as the event `underflow`.
-/

namespace Aimux.Ops

open Aimux.Core

def AUDIO_INPUT_ITEMS : Nat := 64
def OUTPUT_ITEMS : Nat := 256
def QUEUE_BYTES : Nat := 8 * 1024 * 1024
def ITEM_BYTES : Nat := 1024 * 1024

/-- Finite queue budgets. The fields of the source are private: a value is a default or a lowered
one, so every budget is positive and far below the range of `usize`. -/
structure QueueLimits where
  maxItems : Nat
  maxBytes : Nat
  maxItemBytes : Nat
  positive : 0 < maxItems ∧ 0 < maxBytes ∧ 0 < maxItemBytes
  bounded : maxItems ≤ OUTPUT_ITEMS ∧ maxBytes ≤ QUEUE_BYTES ∧ maxItemBytes ≤ ITEM_BYTES

namespace QueueLimits

def audioInput : QueueLimits where
  maxItems := AUDIO_INPUT_ITEMS
  maxBytes := QUEUE_BYTES
  maxItemBytes := ITEM_BYTES
  positive := by decide
  bounded := by decide

def output : QueueLimits where
  maxItems := OUTPUT_ITEMS
  maxBytes := QUEUE_BYTES
  maxItemBytes := ITEM_BYTES
  positive := by decide
  bounded := by decide

def lowered (self : QueueLimits) (maxItems maxBytes maxItemBytes : Nat) : Except OpsError QueueLimits :=
  if h : maxItems = 0 ∨ maxBytes = 0 ∨ maxItemBytes = 0 ∨ maxItems > self.maxItems ∨
      maxBytes > self.maxBytes ∨ maxItemBytes > self.maxItemBytes then
    .error (resourceLimit "queue limits must be positive and may only be lowered")
  else
    .ok {
      maxItems, maxBytes, maxItemBytes
      positive := by omega
      bounded := by
        have hBounded := self.bounded
        omega }

def checkItem (self : QueueLimits) (bytes : Nat) : Except OpsError Unit :=
  if bytes > self.maxItemBytes ∨ bytes > self.maxBytes then
    .error (resourceLimit "payload exceeds the single-item or queue byte limit")
  else .ok ()

end QueueLimits

class QueueItem (T : Type) where
  byteLen : T → Nat

inductive Terminal (E : Type) where
  | open
  | ready (terminal : E)
  | delivered

/-- Capacity reserved before allocation. `send` consumes the permit; when it fails, the permit is
still to be dropped. -/
structure QueuePermit where
  id : Nat
  bytes : Nat
  consumed : Bool := false

structure BoundedQueue (T E : Type) where
  limits : QueueLimits
  data : List (T × Nat) := []
  usedItems : Nat := 0
  usedBytes : Nat := 0
  terminal : Terminal E := .open
  consumerClosed : Bool := false
  permits : List QueuePermit := []
  issued : Nat := 0

/-- A `usize` subtraction, `none` when it would wrap. -/
def checkedSub (a b : Nat) : Option Nat := if b ≤ a then some (a - b) else none

namespace BoundedQueue

variable {T E : Type}

inductive Action (T E : Type) where
  | reserve (bytes : Nat) (aborted : Bool)
  | send (permit : Nat) (item : T)
  | dropPermit (permit : Nat)
  | recv
  | close
  | finish (terminal : E)

inductive Event (T E : Type) where
  | reserved (permit : Nat)
  | waiting
  | refused (error : OpsError)
  | sent (item : T)
  | dropped
  | data (item : T)
  | terminal (terminal : E)
  | ended
  | finished (published : Bool)
  | closed (first : Bool)
  | noPermit
  | underflow

def ensureOpen (self : BoundedQueue T E) : Except OpsError Unit :=
  if self.consumerClosed then .error (invalidState "consumerClosed")
  else match self.terminal with
    | .open => .ok ()
    | _ => .error (invalidState "queue already terminal")

/-- One turn of the loop of `reserve`; `waiting` when it has to wait for capacity. -/
def reserve (self : BoundedQueue T E) (bytes : Nat) (aborted : Bool) :
    BoundedQueue T E × List (Event T E) :=
  match self.limits.checkItem bytes with
  | .error error => (self, [.refused error])
  | .ok () =>
    if aborted then (self, [.refused (.aiMux (.aborted "queue send aborted"))])
    else match self.ensureOpen with
      | .error error => (self, [.refused error])
      | .ok () =>
        if self.usedItems < self.limits.maxItems then
          match checkedSub self.limits.maxBytes self.usedBytes with
          | none => (self, [.underflow])
          | some room =>
            if bytes ≤ room then
              ({ self with
                  usedItems := self.usedItems + 1
                  usedBytes := self.usedBytes + bytes
                  permits := self.permits ++ [{ id := self.issued, bytes }]
                  issued := self.issued + 1 }, [.reserved self.issued])
            else (self, [.waiting])
        else (self, [.waiting])

/-- Mark a permit that a failed `send` consumed. -/
def consume (self : BoundedQueue T E) (permit : Nat) : BoundedQueue T E :=
  { self with permits := self.permits.map fun p => if p.id = permit then { p with consumed := true } else p }

def send [QueueItem T] (self : BoundedQueue T E) (permit : Nat) (item : T) :
    BoundedQueue T E × List (Event T E) :=
  match self.permits.find? fun p => p.id == permit && !p.consumed with
  | none => (self, [.noPermit])
  | some held =>
    let actual := QueueItem.byteLen item
    if actual > held.bytes then
      (self.consume permit, [.refused (resourceLimit "payload exceeds its reserved byte budget")])
    else match self.ensureOpen with
      | .error error => (self.consume permit, [.refused error])
      | .ok () =>
        match checkedSub self.usedBytes (held.bytes - actual) with
        | none => (self, [.underflow])
        | some usedBytes =>
          ({ self with
              usedBytes
              data := self.data ++ [(item, actual)]
              permits := self.permits.eraseP fun p => p.id == permit && !p.consumed }, [.sent item])

def dropPermit (self : BoundedQueue T E) (permit : Nat) : BoundedQueue T E × List (Event T E) :=
  match self.permits.find? fun p => p.id == permit with
  | none => (self, [.noPermit])
  | some held =>
    match checkedSub self.usedItems 1, checkedSub self.usedBytes held.bytes with
    | some usedItems, some usedBytes =>
      ({ self with
          usedItems
          usedBytes
          permits := self.permits.eraseP fun p => p.id == permit }, [.dropped])
    | _, _ => (self, [.underflow])

/-- One turn of the loop of `recv`; `waiting` when there is nothing to deliver yet. -/
def recv (self : BoundedQueue T E) : BoundedQueue T E × List (Event T E) :=
  if self.consumerClosed then (self, [.ended])
  else match self.data with
    | (item, bytes) :: rest =>
      match checkedSub self.usedItems 1, checkedSub self.usedBytes bytes with
      | some usedItems, some usedBytes =>
        ({ self with usedItems, usedBytes, data := rest }, [.data item])
      | _, _ => (self, [.underflow])
    | [] =>
      match self.terminal with
      | .ready terminal => ({ self with terminal := .delivered }, [.terminal terminal])
      | .delivered => (self, [.ended])
      | .open => (self, [.waiting])

def close (self : BoundedQueue T E) : BoundedQueue T E × List (Event T E) :=
  match self.consumerClosed, self.terminal with
  | true, _ => (self, [.closed false])
  | false, .delivered => (self, [.closed false])
  | false, _ =>
    match checkedSub self.usedItems self.data.length,
      checkedSub self.usedBytes (self.data.map (·.2)).sum with
    | some usedItems, some usedBytes =>
      ({ self with consumerClosed := true, data := [], usedItems, usedBytes }, [.closed true])
    | _, _ => (self, [.underflow])

/-- Publish the first terminal outcome without acquiring data capacity. -/
def finish (self : BoundedQueue T E) (terminal : E) : BoundedQueue T E × List (Event T E) :=
  match self.consumerClosed, self.terminal with
  | false, .open => ({ self with terminal := .ready terminal }, [.finished true])
  | _, _ => (self, [.finished false])

def step [QueueItem T] : Lib.Transducer (BoundedQueue T E) (Action T E) (Event T E)
  | self, .reserve bytes aborted => self.reserve bytes aborted
  | self, .send permit item => self.send permit item
  | self, .dropPermit permit => self.dropPermit permit
  | self, .recv => self.recv
  | self, .close => self.close
  | self, .finish terminal => self.finish terminal

end BoundedQueue

end Aimux.Ops
