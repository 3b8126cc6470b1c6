import Aimux.Ops.BoundedQueue

/-! # The transcription operation

One operation with ordered audio input, an output queue and a single terminal slot. Each critical
section of the source is one action: a push is admitted, tries to enqueue, and finally drops its
admission; the driver waits for output capacity, polls the provider stream and enqueues; a reader
takes the reader lock, looks at the state, waits or times out. The calls in flight are part of the
state, so a schedule is any interleaving of producers, driver, reader and cancellation.
-/

namespace Aimux.Ops

open Aimux.Core

/-- Validated limits: positive, and at most the protocol defaults. -/
structure OperationLimits where
  inputItems : Nat := AUDIO_INPUT_ITEMS
  inputBytes : Nat := QUEUE_BYTES
  outputItems : Nat := OUTPUT_ITEMS
  outputBytes : Nat := QUEUE_BYTES
  itemBytes : Nat := ITEM_BYTES
  positive : 0 < inputItems ∧ 0 < inputBytes ∧ 0 < outputItems ∧ 0 < outputBytes ∧
    0 < itemBytes := by decide
  bounded : inputItems ≤ AUDIO_INPUT_ITEMS ∧ inputBytes ≤ QUEUE_BYTES ∧
    outputItems ≤ OUTPUT_ITEMS ∧ outputBytes ≤ QUEUE_BYTES ∧ itemBytes ≤ ITEM_BYTES := by decide

class WirePart (P : Type) where
  wireBytes : P → Except OpsError Nat

inductive CancelResult where
  | first | alreadyRequested | alreadyTerminal
deriving DecidableEq

inductive OperationOutcome where
  | success | error | cancelled
deriving DecidableEq

/-- The durable summary. The source stores the error's wire envelope, a function of the error. -/
structure TerminalSummary where
  outcome : OperationOutcome
  error : Option OpsError

/-- The terminal slot; `error` is taken by the first `next` that reaches it. -/
structure OperationTerminal where
  summary : TerminalSummary
  error : Option OpsError

inductive InputState where
  | open
  | closed (sequence : Nat)
deriving DecidableEq

inductive PushPhase where
  | waiting
  /-- The chunk is in the queue; the push is about to return success. -/
  | sent
  /-- The loop returned an error; the admission is about to be dropped. -/
  | failed (error : OpsError)

/-- A push between its admission and the drop of its admission. -/
structure Push where
  sequence : Nat
  bytes : List UInt8
  phase : PushPhase := .waiting

inductive Reader where
  | idle
  | entered
  | waiting
deriving DecidableEq

inductive Driver (P : Type) where
  | connecting
  /-- Waits for room before it polls the provider. -/
  | beforePoll
  | polling
  | beforeSend (part : P) (bytes : Nat)
  /-- Found room; about to enqueue. -/
  | sending (part : P) (bytes : Nat)
  /-- The forward loop returned; about to publish the outcome. -/
  | finishing (outcome : OperationOutcome) (error : Option OpsError)
  | done

structure Operation (P : Type) where
  limits : OperationLimits
  input : InputState := .open
  consumerClosed : Bool := false
  admissionSequence : Nat := 0
  sendSequence : Nat := 0
  completedAdmissions : Finset Nat := ∅
  inputQueue : List (List UInt8) := []
  inputBytes : Nat := 0
  outputQueue : List (P × Nat) := []
  outputBytes : Nat := 0
  terminal : Option OperationTerminal := none
  pushes : List Push := []
  reader : Reader := .idle
  driver : Driver P := .connecting

namespace Operation

variable {P : Type}

def checkedAdd (a b : Nat) : Option Nat := if a + b < 2 ^ 64 then some (a + b) else none

inductive Action (P : Type) where
  | pushAdmit (bytes : List UInt8)
  | pushTurn (sequence : Nat)
  /-- The push returns, or its future is dropped while it waits. -/
  | pushDrop (sequence : Nat)
  | tryPush (bytes : List UInt8)
  | inputDone
  | audioPoll
  | cancel
  | nextEnter
  | nextTurn
  | nextTimeout
  | connected (result : Except AiMuxError Unit)
  | streamNext (item : Option (Except AiMuxError P))
  | driverTurn
  /-- The abort or the user's signal wins the driver's select. -/
  | driverAborted
  | driverPanicked
  /-- The second half of `consumer_close`, after its `cancel`. -/
  | abandonOutput

inductive Event (P : Type) where
  | rejected (error : OpsError)
  | admitted (sequence : Nat) (bytes : List UInt8)
  | accepted (sequence : Nat) (bytes : List UInt8)
  | succeeded (sequence : Nat)
  | failed (sequence : Nat) (error : OpsError)
  | withdrawn (sequence : Nat)
  | chunk (bytes : List UInt8)
  | audioEnded
  | pending
  /-- A terminal outcome was offered; the first one is stored. -/
  | terminated (summary : TerminalSummary)
  | cancelled (result : CancelResult)
  | enqueued (part : P)
  | delivered (part : P)
  | terminalError (error : OpsError)
  | ended
  | timedOut
  | concurrentConsumer
  | inputUnderflow
  | outputUnderflow

/-! ## The terminal slot -/

/-- Store a terminal outcome unless there is one; pending input is discarded. -/
def writeTerminal (self : Operation P) (outcome : OperationOutcome) (error : Option OpsError) :
    Operation P :=
  match self.terminal with
  | some _ => self
  | none => { self with
      terminal := some { summary := { outcome, error }, error }
      inputQueue := []
      inputBytes := 0 }

def cancelledError : OpsError := .aiMux (.aborted "operation cancelled")

def cancelResult (self : Operation P) : CancelResult :=
  match self.terminal with
  | some terminal => if terminal.summary.outcome = .cancelled then .alreadyRequested else .alreadyTerminal
  | none => .first

def cancel (self : Operation P) : Operation P × List (Event P) :=
  (self.writeTerminal .cancelled (some cancelledError),
    [.terminated { outcome := .cancelled, error := some cancelledError }, .cancelled self.cancelResult])

def finish (self : Operation P) (outcome : OperationOutcome) (error : Option OpsError) :
    Operation P × List (Event P) :=
  (self.writeTerminal outcome error, [.terminated { outcome, error }])

/-! ## Input -/

def checkInputLength (self : Operation P) (length : Nat) : Except OpsError Unit :=
  if length > self.limits.itemBytes ∨ length > self.limits.inputBytes then
    .error (resourceLimit "audio chunk exceeds the input budget")
  else .ok ()

def inputClosed (self : Operation P) : Bool := self.input ≠ .open || self.terminal.isSome

def pushAdmit (self : Operation P) (bytes : List UInt8) : Operation P × List (Event P) :=
  match self.checkInputLength bytes.length with
  | .error error => (self, [.rejected error])
  | .ok () =>
    if self.inputClosed then (self, [.rejected (invalidState "operation input is closed")])
    else match checkedAdd self.admissionSequence 1 with
      | none => (self, [.rejected (resourceLimit "input admission sequence exhausted")])
      | some next =>
        ({ self with
            admissionSequence := next
            pushes := self.pushes ++ [{ sequence := self.admissionSequence, bytes }] },
          [.admitted self.admissionSequence bytes])

def setPhase (self : Operation P) (sequence : Nat) (phase : PushPhase) : Operation P :=
  { self with pushes := self.pushes.map fun p => if p.sequence = sequence then { p with phase } else p }

def waitingPush (self : Operation P) (sequence : Nat) : Option Push :=
  self.pushes.find? fun p => p.sequence == sequence && p.phase matches .waiting

/-- One turn of the loop of `push`. -/
def pushTurn (self : Operation P) (sequence : Nat) : Operation P × List (Event P) :=
  match self.waitingPush sequence with
  | none => (self, [])
  | some push =>
    if self.terminal.isSome then
      (self.setPhase sequence (.failed (invalidState "operation has terminated")), [.pending])
    else match checkedAdd self.inputBytes push.bytes.length with
      | none => (self.setPhase sequence (.failed (resourceLimit "input byte count overflow")), [.pending])
      | some byteCount =>
        if self.sendSequence = sequence ∧ self.inputQueue.length < self.limits.inputItems ∧
            byteCount ≤ self.limits.inputBytes then
          ({ self.setPhase sequence .sent with
              inputQueue := self.inputQueue ++ [push.bytes]
              inputBytes := byteCount }, [.accepted sequence push.bytes])
        else (self, [.pending])

/-- The loop in the drop of an admission: advance past every completed sequence. The set shrinks in
every turn, so its size bounds the turns. -/
def drain : Nat → Finset Nat → Nat → Finset Nat × Nat
  | 0, completed, send => (completed, send)
  | fuel + 1, completed, send =>
    if send ∈ completed then drain fuel (completed.erase send) (min (send + 1) (2 ^ 64 - 1))
    else (completed, send)

def releaseAdmission (self : Operation P) (sequence : Nat) : Operation P :=
  let completed := insert sequence self.completedAdmissions
  let drained := drain completed.card completed self.sendSequence
  { self with completedAdmissions := drained.1, sendSequence := drained.2 }

def pushReport (push : Push) : Event P :=
  match push.phase with
  | .waiting => .withdrawn push.sequence
  | .sent => .succeeded push.sequence
  | .failed error => .failed push.sequence error

def pushDrop (self : Operation P) (sequence : Nat) : Operation P × List (Event P) :=
  match self.pushes.find? fun p => p.sequence == sequence with
  | none => (self, [])
  | some push =>
    let after := { self with pushes := self.pushes.eraseP fun p => p.sequence == sequence }
    (after.releaseAdmission sequence, [pushReport push])

def tryPush (self : Operation P) (bytes : List UInt8) : Operation P × List (Event P) :=
  match self.checkInputLength bytes.length with
  | .error error => (self, [.rejected error])
  | .ok () =>
    if self.inputClosed then (self, [.rejected (invalidState "operation input is closed")])
    else match checkedAdd self.inputBytes bytes.length with
      | none => (self, [.rejected (resourceLimit "input byte count overflow")])
      | some total =>
        if self.admissionSequence ≠ self.sendSequence ∨ self.inputQueue.length ≥ self.limits.inputItems ∨
            total > self.limits.inputBytes then
          (self, [.rejected (resourceLimit "operation input queue is full")])
        else match checkedAdd self.admissionSequence 1 with
          | none => (self, [.rejected (resourceLimit "input admission sequence exhausted")])
          | some sequence =>
            ({ self with
                inputQueue := self.inputQueue ++ [bytes]
                inputBytes := total
                admissionSequence := sequence
                sendSequence := sequence },
              [.admitted self.admissionSequence bytes, .accepted self.admissionSequence bytes,
                .succeeded self.admissionSequence])

def inputDone (self : Operation P) : Operation P × List (Event P) :=
  match self.input with
  | .open => ({ self with input := .closed self.admissionSequence }, [])
  | .closed _ => (self, [])

/-- `AudioStream::poll_next`. -/
def audioPoll (self : Operation P) : Operation P × List (Event P) :=
  if self.terminal.isSome then (self, [.audioEnded])
  else match self.inputQueue with
    | bytes :: rest =>
      match checkedSub self.inputBytes bytes.length with
      | none => (self, [.inputUnderflow])
      | some inputBytes => ({ self with inputQueue := rest, inputBytes }, [.chunk bytes])
    | [] =>
      match self.input with
      | .closed sequence => if self.sendSequence = sequence then (self, [.audioEnded]) else (self, [.pending])
      | .open => (self, [.pending])

/-! ## Output -/

/-- `next` takes the reader lock, or fails when another reader holds it. -/
def nextEnter (self : Operation P) : Operation P × List (Event P) :=
  match self.reader with
  | .idle => ({ self with reader := .entered }, [])
  | _ => (self, [.concurrentConsumer])

def nextTurn (self : Operation P) : Operation P × List (Event P) :=
  if self.reader = .idle then (self, [])
  else match self.outputQueue with
    | (part, bytes) :: rest =>
      match checkedSub self.outputBytes bytes with
      | none => (self, [.outputUnderflow])
      | some outputBytes =>
        ({ self with outputQueue := rest, outputBytes, reader := .idle }, [.delivered part])
    | [] =>
      match self.terminal with
      | some terminal =>
        match terminal.error with
        | some error =>
          ({ self with terminal := some { terminal with error := none }, reader := .idle },
            [.terminalError error])
        | none => ({ self with reader := .idle }, [.ended])
      | none => ({ self with reader := .waiting }, [.pending])

/-- The timer drops a waiting `next`; it never fires before the first turn. -/
def nextTimeout (self : Operation P) : Operation P × List (Event P) :=
  match self.reader with
  | .waiting => ({ self with reader := .idle }, [.timedOut])
  | _ => (self, [])

inductive Capacity where
  | wait
  | room
  | error (error : OpsError)

def outputCapacity (self : Operation P) (bytes : Nat) : Capacity :=
  if self.terminal.isSome then .error (invalidState "operation has terminated")
  else match checkedAdd self.outputBytes bytes with
    | none => .error (resourceLimit "output byte count overflow")
    | some count =>
      if self.outputQueue.length < self.limits.outputItems ∧ count ≤ self.limits.outputBytes ∧
          self.outputBytes < self.limits.outputBytes then .room
      else .wait

/-- `part_size`: the wire size, bounded by the item and the output budget. -/
def partSize [WirePart P] (self : Operation P) (part : P) : Except OpsError Nat :=
  match WirePart.wireBytes part with
  | .error error => .error error
  | .ok bytes =>
    if bytes > min self.limits.itemBytes self.limits.outputBytes then
      .error (resourceLimit "transcription event exceeds the output budget")
    else .ok bytes

def failDriver (self : Operation P) (error : OpsError) : Operation P × List (Event P) :=
  ({ self with driver := .finishing .error (some error) }, [])

def connected (self : Operation P) (result : Except AiMuxError Unit) : Operation P × List (Event P) :=
  match self.driver, result with
  | .connecting, .ok () => ({ self with driver := .beforePoll }, [])
  | .connecting, .error error => self.failDriver (.aiMux error)
  | _, _ => (self, [])

def streamNext [WirePart P] (self : Operation P) (item : Option (Except AiMuxError P)) :
    Operation P × List (Event P) :=
  match self.driver, item with
  | .polling, none => ({ self with driver := .finishing .success none }, [])
  | .polling, some (.error error) => self.failDriver (.aiMux error)
  | .polling, some (.ok part) =>
    match self.partSize part with
    | .error error => self.failDriver error
    | .ok bytes => ({ self with driver := .beforeSend part bytes }, [])
  | _, _ => (self, [])

def driverTurn (self : Operation P) : Operation P × List (Event P) :=
  match self.driver with
  | .beforePoll =>
    match self.outputCapacity 0 with
    | .wait => (self, [])
    | .room => ({ self with driver := .polling }, [])
    | .error error => self.failDriver error
  | .beforeSend part bytes =>
    match self.outputCapacity bytes with
    | .wait => (self, [])
    | .room => ({ self with driver := .sending part bytes }, [])
    | .error error => self.failDriver error
  | .sending part bytes =>
    if self.terminal.isSome then ({ self with driver := .finishing .success none }, [])
    else match checkedAdd self.outputBytes bytes with
      | none => self.failDriver (resourceLimit "output byte count overflow")
      | some outputBytes =>
        ({ self with
            outputBytes
            outputQueue := self.outputQueue ++ [(part, bytes)]
            driver := .beforePoll }, [.enqueued part])
  | .finishing outcome error => { self with driver := .done }.finish outcome error
  | .connecting => (self, [])
  | .polling => (self, [])
  | .done => (self, [])

def Driver.awaits : Driver P → Bool
  | .connecting | .beforePoll | .polling | .beforeSend .. => true
  | .sending .. | .finishing .. | .done => false

def driverAborted (self : Operation P) : Operation P × List (Event P) :=
  if Driver.awaits self.driver then { self with driver := .done }.cancel else (self, [])

def driverPanicked (self : Operation P) : Operation P × List (Event P) :=
  match self.driver with
  | .done => (self, [])
  | _ => self.failDriver (invalidState "transcription driver panicked")

/-- `consumer_close` cancels before it gets here, so there is a terminal. -/
def abandonOutput (self : Operation P) : Operation P × List (Event P) :=
  if self.terminal.isSome then ({ self with consumerClosed := true, outputQueue := [], outputBytes := 0 }, [])
  else (self, [])

def step [WirePart P] : Lib.Transducer (Operation P) (Action P) (Event P)
  | self, .pushAdmit bytes => self.pushAdmit bytes
  | self, .pushTurn sequence => self.pushTurn sequence
  | self, .pushDrop sequence => self.pushDrop sequence
  | self, .tryPush bytes => self.tryPush bytes
  | self, .inputDone => self.inputDone
  | self, .audioPoll => self.audioPoll
  | self, .cancel => self.cancel
  | self, .nextEnter => self.nextEnter
  | self, .nextTurn => self.nextTurn
  | self, .nextTimeout => self.nextTimeout
  | self, .connected result => self.connected result
  | self, .streamNext item => self.streamNext item
  | self, .driverTurn => self.driverTurn
  | self, .driverAborted => self.driverAborted
  | self, .driverPanicked => self.driverPanicked
  | self, .abandonOutput => self.abandonOutput

end Operation

end Aimux.Ops
