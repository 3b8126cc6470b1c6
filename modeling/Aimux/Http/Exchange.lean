import Aimux.Http.Redirects
import Aimux.Lib.Utf8
import Aimux.Recorder.JsonlWriter

/-! # The exchange of a request

`send_request_once` of `http.rs`. A guard answers for the exchange while the request is under way, and an
observer around the body of the response from then on; each reports when it is dropped. An exchange is run by
the polls and drops of its caller, with what the transport answers to each poll.
-/

namespace Aimux.Http

open Aimux.Core Aimux.Lib Aimux.Recorder

def RECORD_BODY_CAP : Nat := 2 ^ 20

/-- The part of a recording context that an exchange is recorded with. -/
structure CallContext where
  callId : String
  step : Option String

/-! ## The recorded body -/

structure ByteAccumulator where
  bytes : List UInt8 := []
  truncated : Bool := false

namespace ByteAccumulator

def push (self : ByteAccumulator) (bytes : List UInt8) : ByteAccumulator :=
  let remaining := RECORD_BODY_CAP - self.bytes.length
  if remaining < bytes.length then { bytes := self.bytes ++ bytes.take remaining, truncated := true }
  else { self with bytes := self.bytes ++ bytes }

def markTruncated (value : String) : String :=
  String.ofList (value.toList.rdropWhile (· = '\uFFFD')) ++ "…(truncated)"

def decode (self : ByteAccumulator) : Option String :=
  if self.bytes = [] then none
  else
    let value := fromUtf8Lossy self.bytes
    some (if self.truncated then markTruncated value else value)

end ByteAccumulator

/-! ## The record of a request -/

def HttpMethod.asStr : HttpMethod → String
  | .get => "GET"
  | .post => "POST"

/-- The characters that end within so many bytes. -/
def takeUtf8 : Nat → List Char → List Char
  | _, [] => []
  | left, c :: rest => if c.utf8Size ≤ left then c :: takeUtf8 (left - c.utf8Size) rest else []

def truncateUtf8 (value : String) (maximum : Nat) : String := String.ofList (takeUtf8 maximum value.toList)

def extractResponseHeaderPairs (headers : List (String × List UInt8)) : List (String × String) :=
  headers.map fun (name, value) =>
    (asciiLower name,
      if isSensitiveKey name then "[REDACTED]" else match headerText value with
        | .ok text => text
        | .error _ => "")

section

variable {Url : Type} (crates : Crates Url)

def toHttpRecord (request : PreparedRequest) : HttpRecord where
  method := request.method.asStr
  url := sanitizedRequestUrl crates request.url
  headers := request.headers.map fun (name, value) =>
    (name, if isSensitiveKey name then "[REDACTED]" else value)
  body := (match request.body with
    -- `serde_json::to_string` gives the text of `to_vec`
    | .json value => some (fromUtf8Lossy (crates.jsonBytes (redactErrorContext value)))
    | .bytes bytes _ => some (fromUtf8Lossy bytes)
    | .empty => none).map (truncateUtf8 · RECORD_BODY_CAP)

variable {Message : Type} (recordingContext : Option CallContext) (request : PreparedRequest)

def recordExchange (exchange : HttpExchange) : List (RecordEvent Message) :=
  match recordingContext with
  | some context => [.exchange context.callId exchange]
  | none => []

def recordTransportClosed : List (RecordEvent Message) :=
  match recordingContext with
  | some context => [.transportClosed context.callId]
  | none => []

def recordFailedExchange (attempt exchangeIndex latencyMs : Nat) (error : String) :
    List (RecordEvent Message) :=
  recordExchange recordingContext {
    step := recordingContext.bind (·.step)
    attempt, exchangeIndex
    request := toHttpRecord crates request
    response := none
    timing := { latencyMs, ttfbMs := none }
    error := some error
    finalized := true }

/-! ## The guard of the request -/

structure ExchangeGuard where
  attempt : Nat
  exchangeIndex : Nat
  started : Nat
  armed : Bool := true

namespace ExchangeGuard

/-- Times are readings of the clock. -/
def fail (now : Nat) (self : ExchangeGuard) (error : String) : ExchangeGuard × List (RecordEvent Message) :=
  if self.armed then
    ({ self with armed := false },
      recordFailedExchange crates recordingContext request self.attempt self.exchangeIndex (now - self.started) error ++
        recordTransportClosed recordingContext)
  else (self, [])

def disarm (self : ExchangeGuard) : ExchangeGuard := { self with armed := false }

def drop (now : Nat) (self : ExchangeGuard) : List (RecordEvent Message) :=
  (self.fail crates recordingContext request now "exchange future cancelled").2

end ExchangeGuard

/-! ## The observer of the body -/

structure ResponseRecording where
  context : CallContext
  attempt : Nat
  exchangeIndex : Nat
  status : Nat
  headers : List (String × String)
  ttfbMs : Option Nat
  body : ByteAccumulator
  chunks : Nat
  finalized : Bool

def ResponseRecording.finalize (self : ResponseRecording) (error : Option String) :
    ResponseRecording × List (RecordEvent Message) :=
  if self.finalized then (self, [])
  else
    ({ self with finalized := true },
      [.exchangeUpdate self.context.callId self.attempt self.exchangeIndex
        { status := self.status
          headers := self.headers
          body := self.body.decode
          streamChunks := some self.chunks
          ttfbMs := self.ttfbMs } error,
       .transportClosed self.context.callId])

structure ObservedBody where
  chunks : Nat := 0
  done : Bool := false
  recording : Option ResponseRecording

/-- What a poll of the body of a response returns. -/
inductive BodyPoll where
  | pending
  | chunk (bytes : List UInt8)
  | failed (error : String)
  | ended

namespace ObservedBody

def finalize (self : ObservedBody) (error : Option String) : ObservedBody × List (RecordEvent Message) :=
  match self.recording with
  | some recording =>
    let finalized : ResponseRecording × List (RecordEvent Message) := recording.finalize error
    ({ self with recording := some finalized.1 }, finalized.2)
  | none => (self, [])

/-- What the inner body answers does not matter once it has ended. -/
def pollNext (self : ObservedBody) (inner : BodyPoll) :
    ObservedBody × BodyPoll × List (RecordEvent Message) :=
  if self.done then (self, .ended, [])
  else match inner with
    | .pending => (self, .pending, [])
    | .chunk bytes =>
      let chunks := self.chunks + 1
      ({ self with
          chunks
          recording := self.recording.map fun recording =>
            { recording with body := recording.body.push bytes, chunks } }, .chunk bytes, [])
    | .failed error =>
      let finalized := { self with done := true }.finalize (some error)
      (finalized.1, .failed error, finalized.2)
    | .ended =>
      let finalized := { self with done := true }.finalize none
      (finalized.1, .ended, finalized.2)

def drop (self : ObservedBody) : List (RecordEvent Message) :=
  if self.done then [] else (self.finalize (some "response body abandoned")).2

end ObservedBody

def observeResponse (response : FetchResponse) (latencyMs attempt exchangeIndex : Nat) :
    ObservedBody × List (RecordEvent Message) :=
  match recordingContext with
  | none => ({ recording := none }, [])
  | some context =>
    let headers := extractResponseHeaderPairs response.headers
    ({ recording := some {
          context, attempt, exchangeIndex
          status := response.status
          headers
          ttfbMs := some latencyMs
          body := {}
          chunks := 0
          finalized := false } },
      recordExchange recordingContext {
        step := context.step
        attempt, exchangeIndex
        request := toHttpRecord crates request
        response := some {
          status := response.status
          headers
          body := none
          streamChunks := some 0
          ttfbMs := some latencyMs }
        timing := { latencyMs, ttfbMs := some latencyMs }
        error := none
        finalized := false })

/-! ## The run of an exchange -/

/-- What a poll of `send_following_redirects` returns, an error by its text. -/
inductive SendPoll where
  | pending
  | failed (error : String)
  | answered (response : FetchResponse)

inductive ExchangeAction where
  /-- The identity is the one that `next_exchange` gives to the first poll. -/
  | pollSend (now : Nat) (identity : Nat × Nat) (sent : SendPoll)
  | dropSend (now : Nat)
  | pollBody (inner : BodyPoll)
  | dropBody

inductive ExchangeEvent (Message : Type) where
  | recorded (event : RecordEvent Message)
  /-- A chunk that the reader of the body gets. -/
  | read (bytes : List UInt8)

inductive Exchange where
  /-- The future has not been polled. -/
  | created
  | unused
  | sending (guard : ExchangeGuard)
  | answered (body : ObservedBody)
  | gone

namespace Exchange

def resume (guard : ExchangeGuard) (now : Nat) : SendPoll → Exchange × List (RecordEvent Message)
  | .pending => (.sending guard, [])
  | .failed error =>
    let failed := guard.fail crates recordingContext request now error
    (.gone, failed.2 ++ failed.1.drop crates recordingContext request now)
  | .answered response =>
    let disarmed := guard.disarm
    let observed := observeResponse crates recordingContext request response (now - disarmed.started)
      disarmed.attempt disarmed.exchangeIndex
    (.answered observed.1, observed.2 ++ disarmed.drop crates recordingContext request now)

def firstPoll (now : Nat) (identity : Nat × Nat) : ExchangeGuard :=
  let (attempt, exchangeIndex) := if recordingContext.isSome then identity else (1, 1)
  { attempt, exchangeIndex, started := now }

/-- A part that is gone is neither polled nor dropped. -/
def step : Transducer Exchange ExchangeAction (ExchangeEvent Message)
  | .created, .pollSend now identity sent =>
    let resumed := resume crates recordingContext request (firstPoll recordingContext now identity) now sent
    (resumed.1, resumed.2.map .recorded)
  | .created, .dropSend _ => (.unused, [])
  | .sending guard, .pollSend now _ sent =>
    let resumed := resume crates recordingContext request guard now sent
    (resumed.1, resumed.2.map .recorded)
  | .sending guard, .dropSend now =>
    (.gone, (guard.drop crates recordingContext request now).map .recorded)
  | .answered body, .pollBody inner =>
    let polled := body.pollNext inner
    (.answered polled.1, polled.2.2.map .recorded ++ match polled.2.1 with
      | .chunk bytes => [.read bytes]
      | _ => [])
  | .answered body, .dropBody => (.gone, body.drop.map .recorded)
  | exchange, _ => (exchange, [])

end Exchange

end

end Aimux.Http
