import Aimux.Core.Json
import Aimux.Lib.Transducer

/-! # Recordings

One recording collects what a call sent and received. Its parts arrive as events of the call and are
merged by call id; a recording is ready once it has its input, an outcome, the closing mark of the
transport and no exchange that is still open.
-/

namespace Aimux.Recorder

open Aimux.Core

inductive RecordingOperation where
  | languageModel
  | decision
deriving DecidableEq

/-- The prompt is a list of messages, of which only its emptiness matters here. -/
structure InputRecord (Message : Type) where
  operation : RecordingOperation := .languageModel
  prompt : List Message
  options : Json

structure ProviderRecord where
  providerId : String
  provider : String
  modelId : String
deriving DecidableEq

/-- `ProviderRecord::from_model`: the id is the name up to its first dot. -/
def ProviderRecord.fromModel (provider modelId : String) : ProviderRecord where
  providerId := String.ofList (provider.toList.takeWhile (· ≠ '.'))
  provider := provider
  modelId := modelId

structure HttpRecord where
  method : String
  url : String
  headers : List (String × String)
  body : Option String
deriving DecidableEq

structure ResponseRecord where
  status : Nat
  headers : List (String × String)
  body : Option String
  streamChunks : Option Nat
  ttfbMs : Option Nat
deriving DecidableEq

structure TimingRecord where
  latencyMs : Nat
  ttfbMs : Option Nat
deriving DecidableEq

structure HttpExchange where
  step : Option String
  attempt : Nat
  exchangeIndex : Nat
  request : HttpRecord
  response : Option ResponseRecord
  timing : TimingRecord
  error : Option String
  finalized : Bool
deriving DecidableEq

inductive OutcomeStatus where
  | pending
  | success
  | error
  | incomplete
  | cancelled
deriving DecidableEq

structure OutcomeRecord where
  decisionResult : Option Json := none
  status : OutcomeStatus := .pending
  finishReason : Option String := none
  error : Option String := none
  errorValue : Option Json := none
  usage : Option Json := none

structure Recording (Message : Type) where
  schema : Nat
  callId : String
  recordedAt : String
  input : InputRecord Message
  provider : ProviderRecord
  exchanges : List HttpExchange
  outcome : OutcomeRecord
  complete : Bool
  transportClosed : Bool
  sessionId : Option String
  step : Option Nat

def recordingSchema : Nat := 2

def questions (options : Json) : List (String × Json) :=
  match options with
  | .object fields => match fields.lookup "questions" with
    | some (.object q) => q
    | _ => []
  | _ => []

def isNull : Json → Bool
  | .null => true
  | _ => false

namespace Recording

variable {Message : Type}

/-- `recordedAt` is read off the clock when the entry is made. -/
def new (now callId : String) (input : InputRecord Message) (provider : ProviderRecord) :
    Recording Message where
  schema := recordingSchema
  callId := callId
  recordedAt := now
  input := input
  provider := provider
  exchanges := []
  outcome := {}
  complete := false
  transportClosed := false
  sessionId := none
  step := none

/-- The entry of a call whose first event is not its input. -/
def placeholder (now callId : String) : Recording Message :=
  new now callId { prompt := [], options := .null } (ProviderRecord.fromModel "" "")

def inputArrived (self : Recording Message) : Bool :=
  !self.input.prompt.isEmpty ||
    (self.input.operation = .decision && !(questions self.input.options).isEmpty)

def ready (self : Recording Message) : Bool :=
  self.transportClosed && self.outcome.status ≠ .pending && self.inputArrived &&
    self.exchanges.all (·.finalized)

def hasInput (self : Recording Message) : Bool :=
  !self.input.prompt.isEmpty || !isNull self.input.options

def isEmptyPlaceholder (self : Recording Message) : Bool := !self.hasInput && self.exchanges.isEmpty

def isInactiveOrMissingInput (self : Recording Message) : Bool :=
  !self.hasInput || self.transportClosed || self.outcome.status ≠ .pending

/-- How an entry is written that did not become ready. -/
def abandoned (self : Recording Message) : Recording Message :=
  { self with
    complete := false
    outcome := { self.outcome with
      status := if self.outcome.status = .pending then .incomplete else self.outcome.status } }

end Recording

/-! ## Exchanges -/

def sameExchange (attempt exchangeIndex : Nat) (e : HttpExchange) : Bool :=
  e.attempt = attempt && e.exchangeIndex = exchangeIndex

def mergeExchange (existing new : HttpExchange) : HttpExchange :=
  { existing with
    request := new.request
    timing := new.timing
    response := if new.response.isSome then new.response else existing.response
    error := if new.error.isSome then new.error else existing.error
    finalized := new.finalized || existing.finalized }

/-- `exchanges` with the first matching one changed. -/
def updateFirst (p : HttpExchange → Bool) (f : HttpExchange → HttpExchange) :
    List HttpExchange → List HttpExchange
  | [] => []
  | e :: rest => if p e then f e :: rest else e :: updateFirst p f rest

/-- The flag says that the attempt was there already and has been merged. -/
def insertExchange {Message : Type} (rec : Recording Message) (exchange : HttpExchange) :
    Recording Message × Bool :=
  let same := sameExchange exchange.attempt exchange.exchangeIndex
  if rec.exchanges.any same then
    ({ rec with exchanges := updateFirst same (mergeExchange · exchange) rec.exchanges }, true)
  else ({ rec with exchanges := rec.exchanges ++ [exchange] }, false)

inductive UpdateMatch where
  | patched
  | notFound
  | ambiguous
deriving DecidableEq

def patchExchange (response : ResponseRecord) (error : Option String) (ex : HttpExchange) : HttpExchange :=
  { ex with response := some response, error := error.or ex.error, finalized := true }

/-- An update applies to the one exchange it names; with none or several it changes nothing. -/
def applyExchangeUpdate {Message : Type} (rec : Recording Message) (attempt exchangeIndex : Nat)
    (response : ResponseRecord) (error : Option String) : Recording Message × UpdateMatch :=
  match rec.exchanges.countP (sameExchange attempt exchangeIndex) with
  | 0 => (rec, .notFound)
  | 1 =>
    ({ rec with
        exchanges :=
          updateFirst (sameExchange attempt exchangeIndex) (patchExchange response error) rec.exchanges },
      .patched)
  | _ => (rec, .ambiguous)

/-! ## The order of eviction -/

section

variable {Message : Type}

abbrev Pending (Message : Type) := AList fun _ : String => Recording Message

/-- Stale ids leave the order at its front. -/
def dropStale (pending : Pending Message) (order : List String) : List String :=
  order.dropWhile fun id => !decide (id ∈ pending)

/-- The lazy cleaning of the order; a long one is swept as a whole. -/
def cleanOrder (limit : Nat) (pending : Pending Message) (order : List String) : List String :=
  let order := dropStale pending order
  if order.length > 2 * limit then order.filter (fun id => decide (id ∈ pending)) else order

def takeFirst (p : String → Bool) : List String → Option (String × List String)
  | [] => none
  | id :: rest => if p id then some (id, rest) else
    (takeFirst p rest).map fun (found, others) => (found, id :: others)

/-- The oldest empty placeholder, else the oldest entry that has no input or has ended, else the oldest
entry; the last resort takes any entry and is for an order that misses all of them. -/
def popNextPendingEvictionId (pending : Pending Message) (order : List String) :
    Option (String × List String) :=
  let order := dropStale pending order
  match takeFirst (fun id => (pending.lookup id).any (·.isEmptyPlaceholder)) order with
  | some found => some found
  | none => match takeFirst (fun id => (pending.lookup id).any (·.isInactiveOrMissingInput)) order with
    | some found => some found
    | none => match dropStale pending order with
      | id :: rest => some (id, rest)
      | [] => pending.keys.head?.map fun id => (id, [])

end

end Aimux.Recorder
