import Aimux.Recorder.WriterLog

/-! # The ring recorder

The recorder in memory merges the same events into the same entries and keeps the finished ones in a
bounded ring. It takes an entry over when an exchange, an update, an outcome or the closing mark has made
it ready; an input or a session that comes last leaves a ready entry behind, which the writer of the
JSONL recorder would have written.
-/

namespace Aimux.Recorder

open Aimux.Lib

variable {Message : Type}

/-- `cap.saturating_mul(2).max(2)`. -/
def ringPendingMax (cap : Nat) : Nat := max (min (cap * 2) (2 ^ 64 - 1)) 2

structure RingRecorder (Message : Type) where
  cap : Nat
  pendingMax : Nat
  pendingOrder : List String := []
  pending : Pending Message := ∅
  completed : List (Recording Message) := []
  dropped : Nat := 0
  pendingEvicted : Nat := 0
  inconsistent : Finset String := ∅

namespace RingRecorder

def withCapacity (cap : Nat) : RingRecorder Message where
  cap := cap
  pendingMax := ringPendingMax cap

/-- The mark of a call goes when its last recording leaves the ring. -/
def push (self : RingRecorder Message) (rec : Recording Message) : RingRecorder Message :=
  if self.completed.length ≥ self.cap then
    match self.completed with
    | [] => { self with dropped := self.dropped + 1, completed := [rec] }
    | evicted :: rest =>
      { self with
        inconsistent :=
          if evicted.callId ∉ self.pending ∧ ¬ rest.any (fun r => r.callId = evicted.callId) then
            self.inconsistent.erase evicted.callId
          else self.inconsistent
        dropped := self.dropped + 1
        completed := rest ++ [rec] }
  else { self with completed := self.completed ++ [rec] }

def evictOne (self : RingRecorder Message) (old : String) (order : List String) (rec : Recording Message) :
    RingRecorder Message :=
  { self with
    pending := self.pending.erase old
    pendingOrder := order
    pendingEvicted := self.pendingEvicted + 1 }.push rec.abandoned

def evictLoop : Nat → RingRecorder Message → RingRecorder Message
  | 0, self => self
  | rounds + 1, self =>
    if self.pending.keys.length ≥ self.pendingMax then
      match popNextPendingEvictionId self.pending self.pendingOrder with
      | none => self
      | some (old, order) => match self.pending.lookup old with
        | some rec => evictLoop rounds (self.evictOne old order rec)
        | none => evictLoop rounds { self with pendingOrder := order }
    else self

def evictPendingIfNeeded (self : RingRecorder Message) : RingRecorder Message :=
  let cleaned := { self with pendingOrder := cleanOrder self.pendingMax self.pending self.pendingOrder }
  evictLoop cleaned.pending.keys.length cleaned

def entryOrInitBounded (self : RingRecorder Message) (now callId : String) : RingRecorder Message :=
  if callId ∈ self.pending then self
  else
    let room := self.evictPendingIfNeeded
    { room with
      pendingOrder := room.pendingOrder ++ [callId]
      pending := room.pending.insert callId (Recording.placeholder now callId) }

def finalize (self : RingRecorder Message) (callId : String) : RingRecorder Message :=
  match self.pending.lookup callId with
  | none => self
  | some rec =>
    if rec.ready then
      let pending := self.pending.erase callId
      let removed := { self with
        pending := pending
        pendingOrder := cleanOrder self.pendingMax pending self.pendingOrder }
      if !rec.exchanges.isEmpty || rec.transportClosed then
        removed.push { rec with complete := callId ∉ self.inconsistent }
      else removed.push rec
    else self

def markInconsistent (self : RingRecorder Message) (callId : String) : RingRecorder Message :=
  { self with inconsistent := insert callId self.inconsistent }

def modify (self : RingRecorder Message) (callId : String) (f : Recording Message → Recording Message) :
    RingRecorder Message :=
  match self.pending.lookup callId with
  | none => self
  | some rec => { self with pending := self.pending.insert callId (f rec) }

def recordInput (self : RingRecorder Message) (now callId : String) (input : InputRecord Message)
    (provider : ProviderRecord) : RingRecorder Message :=
  (self.entryOrInitBounded now callId).modify callId (Writer.setInput input provider)

def recordSession (self : RingRecorder Message) (now callId sessionId : String) (step : Nat) :
    RingRecorder Message :=
  (self.entryOrInitBounded now callId).modify callId fun rec =>
    { rec with sessionId := some sessionId, step := some step }

def recordProvider (self : RingRecorder Message) (now callId : String) (provider : ProviderRecord) :
    RingRecorder Message :=
  (self.entryOrInitBounded now callId).modify callId fun rec => { rec with provider }

/-- The entry is changed, its call marked if that finds a clash, and taken over if ready. -/
def recordChecked (self : RingRecorder Message) (now callId : String)
    (f : Recording Message → Recording Message × Bool) : RingRecorder Message :=
  let entry := self.entryOrInitBounded now callId
  let changed := entry.modify callId fun rec => (f rec).1
  let clash := (entry.pending.lookup callId).any fun rec => (f rec).2
  (if clash then changed.markInconsistent callId else changed).finalize callId

def recordExchange (self : RingRecorder Message) (now callId : String) (exchange : HttpExchange) :
    RingRecorder Message :=
  self.recordChecked now callId fun rec => insertExchange rec exchange

def recordExchangeUpdate (self : RingRecorder Message) (now callId : String) (attempt exchangeIndex : Nat)
    (response : ResponseRecord) (error : Option String) : RingRecorder Message :=
  self.recordChecked now callId fun rec =>
    let updated := applyExchangeUpdate rec attempt exchangeIndex response error
    (updated.1, updated.2 ≠ .patched)

def recordOutcome (self : RingRecorder Message) (now callId : String) (outcome : OutcomeRecord) :
    RingRecorder Message :=
  ((self.entryOrInitBounded now callId).modify callId fun rec => { rec with outcome }).finalize callId

def recordTransportClosed (self : RingRecorder Message) (callId : String) : RingRecorder Message :=
  if callId ∈ self.pending then
    (self.modify callId fun rec => { rec with transportClosed := true }).finalize callId
  else self

def takeReady (self : RingRecorder Message) : List String → RingRecorder Message
  | [] => self
  | id :: ids => match self.pending.lookup id with
    | none => takeReady self ids
    | some rec =>
      takeReady ({ self with pending := self.pending.erase id }.push
        { rec with complete := id ∉ self.inconsistent }) ids

def flush (self : RingRecorder Message) : RingRecorder Message :=
  self.takeReady (Writer.readyIds self.pending)

def step (self : RingRecorder Message) (now : String) : RecordEvent Message → RingRecorder Message
  | .input callId input provider => self.recordInput now callId input provider
  | .session callId sessionId step => self.recordSession now callId sessionId step
  | .provider callId provider => self.recordProvider now callId provider
  | .exchange callId exchange => self.recordExchange now callId exchange
  | .exchangeUpdate callId attempt exchangeIndex response error =>
    self.recordExchangeUpdate now callId attempt exchangeIndex response error
  | .outcome callId outcome => self.recordOutcome now callId outcome
  | .transportClosed callId => self.recordTransportClosed callId
  | .flush => self.flush

end RingRecorder

end Aimux.Recorder
