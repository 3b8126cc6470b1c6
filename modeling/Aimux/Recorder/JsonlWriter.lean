import Aimux.Recorder.Model

/-! # The writer of the JSONL recorder

One thread merges the events of all calls. An entry is written when it becomes ready, when too many
entries are pending, or when the recorder is dropped. A call that lost an event is marked on the side of
the senders; the mark is shared with the writer, which takes it off when it writes the call.

The log of a run lists the lines written, how each came about, and next to them the entries made and the
marks set and taken off, so that the history of a call can be read off it.
-/

namespace Aimux.Recorder

open Aimux.Lib

def jsonlPendingMax : Nat := 128
def jsonlEvictedTrackMax : Nat := 2048

inductive RecordEvent (Message : Type) where
  | input (callId : String) (input : InputRecord Message) (provider : ProviderRecord)
  | session (callId sessionId : String) (step : Nat)
  | provider (callId : String) (provider : ProviderRecord)
  | exchange (callId : String) (exchange : HttpExchange)
  | exchangeUpdate (callId : String) (attempt exchangeIndex : Nat) (response : ResponseRecord)
      (error : Option String)
  | outcome (callId : String) (outcome : OutcomeRecord)
  | transportClosed (callId : String)
  | flush

inductive Log (Message : Type) where
  | created (callId : String)
  | lost (callId : String)
  | forgotten (callId : String)
  | inconsistent (callId : String)
  | finalised (line : Recording Message)
  | evicted (line : Recording Message)
  | drained (line : Recording Message)

structure EvictedCallTracker where
  set : Finset String := ∅
  order : List String := []

structure Writer (Message : Type) where
  pending : Pending Message := ∅
  pendingOrder : List String := []
  evictedCalls : EvictedCallTracker := {}
  lossy : Finset String := ∅
  inconsistent : Finset String := ∅
  dropped : Nat := 0
  pendingEvicted : Nat := 0

namespace Writer

variable {Message : Type}

/-! ## Damaged calls -/

def markLossy (self : Writer Message) (callId : String) : Writer Message :=
  { self with lossy := insert callId self.lossy }

def notePendingEvicted (self : Writer Message) (callId : String) : Writer Message :=
  { self.markLossy callId with pendingEvicted := self.pendingEvicted + 1 }

def noteDroppedEvictedEvent (self : Writer Message) (callId : String) : Writer Message :=
  { self.markLossy callId with dropped := self.dropped + 1 }

def markInconsistent (self : Writer Message) (callId : String) : Writer Message :=
  { self with inconsistent := insert callId self.inconsistent }

def isDamaged (self : Writer Message) (callId : String) : Bool :=
  callId ∈ self.lossy || callId ∈ self.inconsistent

def clearLossy (self : Writer Message) (callId : String) : Writer Message :=
  { self with lossy := self.lossy.erase callId }

/-! ## Calls that were evicted -/

/-- The oldest tracked calls go until there is room; the mark of one that is not pending goes with it. -/
def ageOut (self : Writer Message) : List String → Writer Message × List (Log Message)
  | [] => ({ self with evictedCalls := { self.evictedCalls with order := [] } }, [])
  | old :: rest =>
    if self.evictedCalls.set.card ≥ jsonlEvictedTrackMax then
      let tracked := { self with evictedCalls := { self.evictedCalls with set := self.evictedCalls.set.erase old } }
      if old ∈ self.evictedCalls.set ∧ old ∉ self.pending then
        let after := ageOut (tracked.clearLossy old) rest
        (after.1, .forgotten old :: after.2)
      else ageOut tracked rest
    else ({ self with evictedCalls := { self.evictedCalls with order := old :: rest } }, [])

def trackEvicted (self : Writer Message) (callId : String) : Writer Message × List (Log Message) :=
  if callId ∈ self.evictedCalls.set then (self, [])
  else
    let order := self.evictedCalls.order.dropWhile fun id => !decide (id ∈ self.evictedCalls.set)
    let order := if order.length > 2 * jsonlEvictedTrackMax then
        order.filter fun id => decide (id ∈ self.evictedCalls.set)
      else order
    let aged := self.ageOut order
    ({ aged.1 with evictedCalls :=
        { set := insert callId aged.1.evictedCalls.set, order := aged.1.evictedCalls.order ++ [callId] } },
      aged.2)

/-! ## Making room -/

def evictOne (self : Writer Message) (old : String) (order : List String) (rec : Recording Message) :
    Writer Message × List (Log Message) :=
  let removed := { self with pending := self.pending.erase old, pendingOrder := order }
  let tracked := (removed.notePendingEvicted old).trackEvicted old
  (tracked.1, Log.lost old :: tracked.2 ++ [Log.evicted rec.abandoned])

/-- Each round takes an entry out, so there are at most as many as entries. -/
def evictLoop : Nat → Writer Message → Writer Message × List (Log Message)
  | 0, self => (self, [])
  | rounds + 1, self =>
    if self.pending.keys.length ≥ jsonlPendingMax then
      match popNextPendingEvictionId self.pending self.pendingOrder with
      | none => (self, [])
      | some (old, order) => match self.pending.lookup old with
        | some rec =>
          let evicted := self.evictOne old order rec
          let after := evictLoop rounds evicted.1
          (after.1, evicted.2 ++ after.2)
        | none => evictLoop rounds { self with pendingOrder := order }
    else (self, [])

def evictJsonlPendingIfNeeded (self : Writer Message) : Writer Message × List (Log Message) :=
  let cleaned := { self with pendingOrder := cleanOrder jsonlPendingMax self.pending self.pendingOrder }
  evictLoop cleaned.pending.keys.length cleaned

/-- Room is made, then the entry goes to the end of the order. -/
def addEntry (self : Writer Message) (callId : String) (rec : Recording Message) :
    Writer Message × List (Log Message) :=
  let room := self.evictJsonlPendingIfNeeded
  ({ room.1 with
      pendingOrder := room.1.pendingOrder ++ [callId]
      pending := room.1.pending.insert callId rec },
    room.2 ++ [Log.created callId])

def entryOrInit (self : Writer Message) (now callId : String) : Writer Message × List (Log Message) :=
  if callId ∈ self.pending then (self, []) else self.addEntry callId (Recording.placeholder now callId)

/-! ## Finalising -/

def finalise (self : Writer Message) (callId : String) (rec : Recording Message) :
    Writer Message × List (Log Message) :=
  (self.clearLossy callId, [.finalised { rec with complete := !self.isDamaged callId }])

def tryFinalize (self : Writer Message) (callId : String) : Writer Message × List (Log Message) :=
  match self.pending.lookup callId with
  | none => (self, [])
  | some rec =>
    if rec.ready then
      let pending := self.pending.erase callId
      let removed := { self with
        pending := pending
        pendingOrder := cleanOrder jsonlPendingMax pending self.pendingOrder }
      if !rec.exchanges.isEmpty || rec.transportClosed then removed.finalise callId rec
      else (removed, [.finalised rec])
    else (self, [])

def writeReady (self : Writer Message) : List String → Writer Message × List (Log Message)
  | [] => (self, [])
  | id :: ids => match self.pending.lookup id with
    | none => writeReady self ids
    | some rec =>
      let written := { self with pending := self.pending.erase id }.finalise id rec
      let after := writeReady written.1 ids
      (after.1, written.2 ++ after.2)

def readyIds (pending : Pending Message) : List String :=
  pending.keys.filter fun id => (pending.lookup id).any (·.ready)

def writeReadyAll (self : Writer Message) : Writer Message × List (Log Message) :=
  let after := self.writeReady (readyIds self.pending)
  ({ after.1 with pendingOrder := after.1.pendingOrder.filter fun id => decide (id ∈ after.1.pending) },
    after.2)

/-! ## Events -/

/-- An event of a call that is not pending and was evicted is dropped. -/
def isTrailing (self : Writer Message) (callId : String) : Bool :=
  callId ∉ self.pending && callId ∈ self.evictedCalls.set

def dropTrailing (self : Writer Message) (callId : String) : Writer Message × List (Log Message) :=
  (self.noteDroppedEvictedEvent callId, [.lost callId])

/-- The entry of a call is changed in place. -/
def modify (self : Writer Message) (callId : String) (f : Recording Message → Recording Message) :
    Writer Message :=
  match self.pending.lookup callId with
  | none => self
  | some rec => { self with pending := self.pending.insert callId (f rec) }

/-- The entry is made if it is missing, changed, and written if that has made it ready. -/
def handle (self : Writer Message) (now callId : String) (f : Recording Message → Recording Message) :
    Writer Message × List (Log Message) :=
  if self.isTrailing callId then self.dropTrailing callId
  else
    let entry := self.entryOrInit now callId
    let final := (entry.1.modify callId f).tryFinalize callId
    (final.1, entry.2 ++ final.2)

/-- As `handle`, for a change that may find the call inconsistent. -/
def handleChecked (self : Writer Message) (now callId : String)
    (f : Recording Message → Recording Message × Bool) : Writer Message × List (Log Message) :=
  if self.isTrailing callId then self.dropTrailing callId
  else
    let entry := self.entryOrInit now callId
    let changed := entry.1.modify callId fun rec => (f rec).1
    let clash := (entry.1.pending.lookup callId).any fun rec => (f rec).2
    let marked := if clash then changed.markInconsistent callId else changed
    let final := marked.tryFinalize callId
    (final.1, entry.2 ++ (if clash then [Log.inconsistent callId] else []) ++ final.2)

def setInput (input : InputRecord Message) (provider : ProviderRecord) (rec : Recording Message) :
    Recording Message :=
  { rec with input, provider := if rec.provider.provider.isEmpty then provider else rec.provider }

def onInput (self : Writer Message) (now callId : String) (input : InputRecord Message)
    (provider : ProviderRecord) : Writer Message × List (Log Message) :=
  if self.isTrailing callId then self.dropTrailing callId
  else
    let entry := if callId ∈ self.pending then (self.modify callId (setInput input provider), [])
      else self.addEntry callId (Recording.new now callId input provider)
    let final := entry.1.tryFinalize callId
    (final.1, entry.2 ++ final.2)

def onSession (self : Writer Message) (now callId sessionId : String) (step : Nat) :
    Writer Message × List (Log Message) :=
  self.handle now callId fun rec => { rec with sessionId := some sessionId, step := some step }

/-- A provider snapshot alone makes no entry ready, and none is written here. -/
def onProvider (self : Writer Message) (now callId : String) (provider : ProviderRecord) :
    Writer Message × List (Log Message) :=
  if self.isTrailing callId then self.dropTrailing callId
  else
    let entry := self.entryOrInit now callId
    (entry.1.modify callId fun rec => { rec with provider }, entry.2)

def onExchange (self : Writer Message) (now callId : String) (exchange : HttpExchange) :
    Writer Message × List (Log Message) :=
  self.handleChecked now callId fun rec => insertExchange rec exchange

def onExchangeUpdate (self : Writer Message) (now callId : String) (attempt exchangeIndex : Nat)
    (response : ResponseRecord) (error : Option String) : Writer Message × List (Log Message) :=
  self.handleChecked now callId fun rec =>
    let updated := applyExchangeUpdate rec attempt exchangeIndex response error
    (updated.1, updated.2 ≠ .patched)

def onOutcome (self : Writer Message) (now callId : String) (outcome : OutcomeRecord) :
    Writer Message × List (Log Message) :=
  self.handle now callId fun rec => { rec with outcome }

/-- The closing mark makes no entry: the call may have been written already. -/
def onTransportClosed (self : Writer Message) (callId : String) : Writer Message × List (Log Message) :=
  if self.isTrailing callId then self.dropTrailing callId
  else if callId ∈ self.pending then
    (self.modify callId fun rec => { rec with transportClosed := true }).tryFinalize callId
  else (self, [])

inductive Action (Message : Type) where
  | deliver (now : String) (event : RecordEvent Message)
  /-- A sender drops an event of the call: the queue is full or the writer gone. -/
  | lose (callId : String)

def step : Transducer (Writer Message) (Action Message) (Log Message)
  | self, .deliver now (.input callId input provider) => self.onInput now callId input provider
  | self, .deliver now (.session callId sessionId step) => self.onSession now callId sessionId step
  | self, .deliver now (.provider callId provider) => self.onProvider now callId provider
  | self, .deliver now (.exchange callId exchange) => self.onExchange now callId exchange
  | self, .deliver now (.exchangeUpdate callId attempt exchangeIndex response error) =>
    self.onExchangeUpdate now callId attempt exchangeIndex response error
  | self, .deliver now (.outcome callId outcome) => self.onOutcome now callId outcome
  | self, .deliver _ (.transportClosed callId) => self.onTransportClosed callId
  | self, .deliver _ .flush => self.writeReadyAll
  | self, .lose callId => ({ self.markLossy callId with dropped := self.dropped + 1 }, [.lost callId])

/-- All senders are gone: what is still pending is written as it is. -/
def shutdown (self : Writer Message) : List (Log Message) :=
  self.pending.entries.map fun entry => .drained entry.2.abandoned

end Writer

end Aimux.Recorder
