import Aimux.Http.Exchange
import Aimux.Http.RedirectChain

/-! # Every exchange is recorded once

The guard hands the exchange over to the observer with nothing in between: while one of them answers for
it, what is recorded is known from the state, and whichever ends it reports the rest. The recorded body is
a function of the bytes read, so it does not depend on the chunks they came in.
-/

namespace Aimux.Http

open Aimux.Core Aimux.Lib Aimux.Recorder

variable {Message : Type}

/-! ## What is said about a run -/

def recordedEvents (history : List (ExchangeEvent Message)) : List (RecordEvent Message) :=
  history.filterMap fun
    | .recorded event => some event
    | .read _ => none

/-- The body as its reader gets it. -/
def bytesRead (history : List (ExchangeEvent Message)) : List UInt8 :=
  history.flatMap fun
    | .recorded _ => []
    | .read bytes => bytes

/-- The text of the first `RECORD_BODY_CAP` bytes; a cut one ends in a mark instead of replacements. -/
def recordedBody (bytes : List UInt8) : Option String :=
  if bytes = [] then none
  else if RECORD_BODY_CAP < bytes.length then
    some (ByteAccumulator.markTruncated (fromUtf8Lossy (bytes.take RECORD_BODY_CAP)))
  else some (fromUtf8Lossy bytes)

/-- One exchange, its one finalization and one closing mark: the exchange is final from the start, or an
update of its identity finalizes it. -/
inductive RecordedOnce (callId : String) (bytes : List UInt8) : List (RecordEvent Message) → Prop where
  | unanswered (exchange : HttpExchange) (hFinalized : exchange.finalized = true)
      (hResponse : exchange.response = none) (hError : exchange.error.isSome = true) (hBytes : bytes = []) :
      RecordedOnce callId bytes [.exchange callId exchange, .transportClosed callId]
  | answered (exchange : HttpExchange) (response : ResponseRecord) (error : Option String)
      (hOpen : exchange.finalized = false) (hBody : response.body = recordedBody bytes) :
      RecordedOnce callId bytes
        [.exchange callId exchange,
          .exchangeUpdate callId exchange.attempt exchange.exchangeIndex response error,
          .transportClosed callId]

/-- The future has come to its end without a response, or the body to its end or its drop. -/
def Exchange.ended : Exchange → Bool
  | .gone => true
  | .answered body => body.done
  | _ => false

/-! ## The recorded body -/

namespace ByteAccumulator

/-- The accumulator of the bytes read so far. -/
def accumulated (bytes : List UInt8) : ByteAccumulator where
  bytes := bytes.take RECORD_BODY_CAP
  truncated := decide (RECORD_BODY_CAP < bytes.length)

theorem push_accumulated (read bytes : List UInt8) : (accumulated read).push bytes = accumulated (read ++ bytes) := by
  have hLength : (read.take RECORD_BODY_CAP).length = min RECORD_BODY_CAP read.length := List.length_take
  simp only [push, accumulated, hLength, List.length_append, List.take_append]
  split
  · rename_i hLong
    have hRemaining : RECORD_BODY_CAP - min RECORD_BODY_CAP read.length = RECORD_BODY_CAP - read.length := by omega
    have hCut : RECORD_BODY_CAP < read.length + bytes.length := by omega
    simp [hRemaining, hCut]
  · rename_i hShort
    rcases Nat.lt_or_ge RECORD_BODY_CAP read.length with hCut | hFits
    · have hEmpty : bytes = [] := List.length_eq_zero_iff.mp (by omega)
      subst hEmpty
      simp
    · have hAll : bytes.length ≤ RECORD_BODY_CAP - read.length := by omega
      have hNotCut : ¬ RECORD_BODY_CAP < read.length := by omega
      have hNotCut' : ¬ RECORD_BODY_CAP < read.length + bytes.length := by omega
      simp [List.take_of_length_le hAll, hNotCut, hNotCut']

theorem decode_accumulated (bytes : List UInt8) : (accumulated bytes).decode = recordedBody bytes := by
  have hCap : RECORD_BODY_CAP ≠ 0 := by simp [RECORD_BODY_CAP]
  simp only [decode, accumulated, recordedBody, List.take_eq_nil_iff, hCap, false_or, decide_eq_true_eq]
  split
  · rfl
  · split
    · rfl
    · rename_i hFits
      rw [List.take_of_length_le (Nat.le_of_not_lt hFits)]

end ByteAccumulator

/-! ## One step -/

@[simp] theorem recordedEvents_append (history later : List (ExchangeEvent Message)) :
    recordedEvents (history ++ later) = recordedEvents history ++ recordedEvents later :=
  List.filterMap_append

@[simp] theorem recordedEvents_recorded (events : List (RecordEvent Message)) :
    recordedEvents (events.map .recorded) = events := by
  induction events with
  | nil => rfl
  | cons event events ih => exact congrArg (event :: ·) ih

@[simp] theorem recordedEvents_read (bytes : List UInt8) :
    recordedEvents [(.read bytes : ExchangeEvent Message)] = [] := rfl

@[simp] theorem bytesRead_append (history later : List (ExchangeEvent Message)) :
    bytesRead (history ++ later) = bytesRead history ++ bytesRead later :=
  List.flatMap_append

@[simp] theorem bytesRead_recorded (events : List (RecordEvent Message)) :
    bytesRead (events.map .recorded) = [] := by
  induction events with
  | nil => rfl
  | cons event events ih => exact ih

@[simp] theorem bytesRead_read (bytes : List UInt8) :
    bytesRead [(.read bytes : ExchangeEvent Message)] = bytes :=
  List.append_nil bytes

section

variable {Url : Type} {crates : Crates Url} {context : CallContext} {request : PreparedRequest}

/-- The observer knows what was read, and the exchange it answers for is recorded. -/
structure Observes (context : CallContext) (body : ObservedBody) (history : List (ExchangeEvent Message))
    (recording : ResponseRecording) (exchange : HttpExchange) : Prop where
  hRecorded : recordedEvents history = [.exchange context.callId exchange]
  hRecording : body.recording = some recording
  hContext : recording.context = context
  hUnreported : recording.finalized = false
  hBody : recording.body = .accumulated (bytesRead history)
  hWaits : exchange.finalized = false
  hAttempt : recording.attempt = exchange.attempt
  hIndex : recording.exchangeIndex = exchange.exchangeIndex

/-- What is recorded while the exchange is in a state. -/
def Tracks (context : CallContext) (history : List (ExchangeEvent Message)) : Exchange → Prop
  | .created => history = []
  | .unused => history = []
  | .sending guard => guard.armed = true ∧ history = []
  | .answered body =>
    if body.done then RecordedOnce context.callId (bytesRead history) (recordedEvents history)
    else ∃ recording exchange, Observes context body history recording exchange
  | .gone => RecordedOnce context.callId (bytesRead history) (recordedEvents history)

variable {guard : ExchangeGuard}

theorem drop_disarmed (hArmed : guard.armed = false) (now : Nat) :
    guard.drop crates (some context) request now = ([] : List (RecordEvent Message)) := by
  simp [ExchangeGuard.drop, ExchangeGuard.fail, hArmed]

theorem fail_armed (hArmed : guard.armed = true) (now : Nat) (error : String) :
    let failed : ExchangeGuard × List (RecordEvent Message) :=
      guard.fail crates (some context) request now error
    failed.1.armed = false ∧ RecordedOnce context.callId [] failed.2 := by
  simp only [ExchangeGuard.fail, hArmed, if_true]
  exact ⟨trivial, .unanswered _ rfl rfl rfl rfl⟩

theorem observes_observeResponse (response : FetchResponse) (latencyMs attempt exchangeIndex : Nat) :
    let observed : ObservedBody × List (RecordEvent Message) :=
      observeResponse crates (some context) request response latencyMs attempt exchangeIndex
    ∃ recording exchange, Observes context observed.1 (observed.2.map .recorded) recording exchange :=
  ⟨_, _, recordedEvents_recorded _, rfl, rfl, rfl, rfl, rfl, rfl, rfl⟩

/-- The guard or the observer answers for the exchange after a poll of the request. -/
theorem tracks_resume (hArmed : guard.armed = true) (now : Nat) (sent : SendPoll) :
    let resumed : Exchange × List (RecordEvent Message) :=
      Exchange.resume crates (some context) request guard now sent
    Tracks context (resumed.2.map .recorded) resumed.1 := by
  cases sent with
  | pending => exact ⟨hArmed, rfl⟩
  | failed error =>
    obtain ⟨hDisarmed, hOnce⟩ :=
      @fail_armed Message Url crates context request guard hArmed now error
    simpa [Exchange.resume, Tracks, drop_disarmed hDisarmed] using hOnce
  | answered response =>
    have hObserves := @observes_observeResponse Message Url crates context request response
      (now - guard.started) guard.attempt guard.exchangeIndex
    have hDrop : guard.disarm.drop crates (some context) request now = ([] : List (RecordEvent Message)) :=
      drop_disarmed rfl now
    simp only [Exchange.resume, hDrop, List.append_nil]
    exact hObserves

variable {history : List (ExchangeEvent Message)} {body : ObservedBody}

theorem recordedOnce_finalize {recording : ResponseRecording} {exchange : HttpExchange}
    (h : Observes context body history recording exchange) (error : Option String) :
    RecordedOnce context.callId (bytesRead history) (recordedEvents history ++ (body.finalize error).2) := by
  simp only [ObservedBody.finalize, h.hRecording, ResponseRecording.finalize, h.hUnreported,
    Bool.false_eq_true, if_false, h.hRecorded, h.hContext, h.hAttempt, h.hIndex]
  exact .answered exchange _ error h.hWaits (by rw [h.hBody, ByteAccumulator.decode_accumulated])

theorem finalize_done (body : ObservedBody) (error : Option String) :
    (body.finalize error : ObservedBody × List (RecordEvent Message)).1.done = body.done := by
  rw [ObservedBody.finalize]
  split <;> rfl

/-- A body that comes to its end reports what is left to report. -/
theorem tracks_finalize {recording : ResponseRecording} {exchange : HttpExchange}
    (h : Observes context body history recording exchange) (error : Option String) :
    let finalized : ObservedBody × List (RecordEvent Message) := { body with done := true }.finalize error
    Tracks context (history ++ finalized.2.map .recorded) (.answered finalized.1) := by
  have hDone : Observes context { body with done := true } history recording exchange := { h with }
  have hOnce := recordedOnce_finalize hDone error
  simpa [Tracks, finalize_done] using hOnce

theorem tracks_pollNext (h : Tracks context history (.answered body)) (inner : BodyPoll) :
    let next : Exchange × List (ExchangeEvent Message) :=
      Exchange.step crates (some context) request (.answered body) (.pollBody inner)
    Tracks context (history ++ next.2) next.1 := by
  simp only [Exchange.step, ObservedBody.pollNext]
  cases hDone : body.done with
  | true => simpa [Tracks, hDone] using h
  | false =>
    simp only [Tracks, hDone, Bool.false_eq_true, if_false] at h
    obtain ⟨recording, exchange, h⟩ := h
    cases inner with
    | pending => simpa [Tracks, hDone] using ⟨recording, exchange, h⟩
    | chunk bytes =>
      simp only [Bool.false_eq_true, if_false, List.map_nil, List.nil_append, Tracks]
      refine ⟨{ recording with body := recording.body.push bytes, chunks := body.chunks + 1 }, exchange, ?_⟩
      refine { h with hRecorded := ?_, hRecording := ?_, hBody := ?_ }
      · rw [recordedEvents_append, recordedEvents_read, List.append_nil, h.hRecorded]
      · rw [h.hRecording]
        rfl
      · rw [bytesRead_append, bytesRead_read, h.hBody, ByteAccumulator.push_accumulated]
    | failed error => simpa using tracks_finalize h (some error)
    | ended => simpa using tracks_finalize h none

theorem tracks_step (history : List (ExchangeEvent Message)) (exchange : Exchange) (action : ExchangeAction)
    (h : Tracks context history exchange) :
    let next : Exchange × List (ExchangeEvent Message) :=
      Exchange.step crates (some context) request exchange action
    Tracks context (history ++ next.2) next.1 := by
  cases exchange with
  | created =>
    obtain rfl := h
    cases action with
    | pollSend now identity sent => exact tracks_resume rfl now sent
    | dropSend now => rfl
    | pollBody inner => rfl
    | dropBody => rfl
  | unused => cases action <;> simpa [Exchange.step] using h
  | sending guard =>
    obtain ⟨hArmed, rfl⟩ := h
    cases action with
    | pollSend now identity sent => exact tracks_resume hArmed now sent
    | dropSend now =>
      have hOnce :=
        (@fail_armed Message Url crates context request guard hArmed now "exchange future cancelled").2
      simpa [Exchange.step, Tracks, ExchangeGuard.drop] using hOnce
    | pollBody inner => exact ⟨hArmed, rfl⟩
    | dropBody => exact ⟨hArmed, rfl⟩
  | answered body =>
    cases action with
    | pollSend now identity sent => simpa [Exchange.step] using h
    | dropSend now => simpa [Exchange.step] using h
    | pollBody inner => exact tracks_pollNext h inner
    | dropBody =>
      simp only [Exchange.step, ObservedBody.drop]
      cases hDone : body.done with
      | true => simpa [Tracks, hDone] using h
      | false =>
        simp only [Tracks, hDone, Bool.false_eq_true, if_false] at h
        obtain ⟨recording, exchange, h⟩ := h
        simpa [Tracks] using recordedOnce_finalize h (some "response body abandoned")
  | gone => cases action <;> simpa [Exchange.step] using h

/-! ## Whole runs -/

theorem tracks_run (actions : List ExchangeAction) :
    let run : Exchange × List (ExchangeEvent Message) :=
      Transducer.run (Exchange.step crates (some context) request) .created actions
    Tracks context run.2 run.1 :=
  Transducer.run_invariant (fun exchange (history : List (ExchangeEvent Message)) => Tracks context history exchange)
    (fun exchange history action h => tracks_step history exchange action h) (show Tracks context [] .created from rfl)
    actions

theorem recordedOnce_of_tracks {exchange : Exchange} (h : Tracks context history exchange)
    (hEnded : exchange.ended = true) :
    RecordedOnce context.callId (bytesRead history) (recordedEvents history) := by
  cases exchange with
  | created => cases hEnded
  | unused => cases hEnded
  | sending guard => cases hEnded
  | answered body => simpa [Tracks, show body.done = true from hEnded] using h
  | gone => exact h

end

theorem exchange_recorded_once {Url : Type} (crates : Crates Url) (context : CallContext) (request : PreparedRequest)
    (actions : List ExchangeAction) :
    let run : Exchange × List (ExchangeEvent Message) :=
      Transducer.run (Exchange.step crates (some context) request) .created actions
    run.1.ended = true → RecordedOnce context.callId (bytesRead run.2) (recordedEvents run.2) :=
  fun hEnded => recordedOnce_of_tracks (tracks_run actions) hEnded

/-! ## A body in two chunks, and a long one -/

def placeExchange (actions : List ExchangeAction) : Exchange × List (ExchangeEvent Unit) :=
  Transducer.run (Exchange.step placeCrates (some { callId := "call", step := none })
    ((placeRequest .api).prepare placeCrates .get .empty)) .created actions

def answeredWith (chunks : List (List UInt8)) : List ExchangeAction :=
  [ExchangeAction.pollSend 3 (1, 1) .pending, .pollSend 7 (1, 1) (.answered { status := 200, headers := [] })] ++
    chunks.map (fun bytes => ExchangeAction.pollBody (.chunk bytes)) ++ [ExchangeAction.pollBody .ended, .dropBody]

theorem exchange_recorded_once_two_chunks :
    RecordedOnce "call" [104, 105] (recordedEvents (placeExchange (answeredWith [[104], [105]])).2) :=
  exchange_recorded_once placeCrates { callId := "call", step := none }
    ((placeRequest .api).prepare placeCrates .get .empty) (answeredWith [[104], [105]]) rfl

/-- No text is its own marked one. -/
theorem markTruncated_ne (value : String) : ByteAccumulator.markTruncated value ≠ value := by
  intro hSame
  have hChars : value.toList.rdropWhile (· = '\uFFFD') ++ "…(truncated)".toList = value.toList := by
    rw [← String.toList_ofList (l := value.toList.rdropWhile (· = '\uFFFD')), ← String.toList_append]
    exact congrArg String.toList hSame
  have hAll : value.toList.rdropWhile (· = '\uFFFD') = value.toList := by
    rw [List.rdropWhile_eq_self_iff]
    intro hNonempty
    have hLast : value.toList.getLast? = some ')' := by
      rw [← hChars, List.getLast?_append]
      rfl
    rw [List.getLast?_eq_some_getLast hNonempty, Option.some_inj] at hLast
    rw [hLast]
    decide
  rw [hAll] at hChars
  simpa using congrArg List.length hChars

theorem RecordedOnce.update {callId : String} {bytes : List UInt8} {events : List (RecordEvent Message)}
    (h : RecordedOnce callId bytes events) (hBytes : bytes ≠ []) :
    ∃ attempt exchangeIndex response error,
      RecordEvent.exchangeUpdate callId attempt exchangeIndex response error ∈ events ∧
        response.body = recordedBody bytes := by
  cases h with
  | unanswered exchange _ _ _ hNone => exact absurd hNone hBytes
  | answered exchange response error _ hBody =>
    exact ⟨exchange.attempt, exchange.exchangeIndex, response, error, by simp, hBody⟩

theorem recordedBody_long {bytes : List UInt8} (hLong : RECORD_BODY_CAP < bytes.length) :
    recordedBody bytes ≠ some (fromUtf8Lossy (bytes.take RECORD_BODY_CAP)) := by
  have hNonempty : bytes ≠ [] := List.ne_nil_of_length_pos (by omega)
  rw [recordedBody, if_neg hNonempty, if_pos hLong]
  intro hSame
  exact markTruncated_ne _ (Option.some.inj hSame)

def longBody : List UInt8 := List.replicate (RECORD_BODY_CAP + 1) 97

theorem bytesRead_answeredWith (bytes : List UInt8) :
    bytesRead (placeExchange (answeredWith [bytes])).2 = bytes :=
  List.append_nil bytes

theorem long_body_marked :
    ∃ actions attempt exchangeIndex response error, (placeExchange actions).1.ended = true ∧
      RecordEvent.exchangeUpdate "call" attempt exchangeIndex response error ∈
        recordedEvents (placeExchange actions).2 ∧
      response.body ≠ some (fromUtf8Lossy ((bytesRead (placeExchange actions).2).take RECORD_BODY_CAP)) := by
  have hLong : RECORD_BODY_CAP < longBody.length := by
    rw [longBody, List.length_replicate]
    exact Nat.lt_succ_self _
  have hEnded : (placeExchange (answeredWith [longBody])).1.ended = true := rfl
  have hOnce : RecordedOnce "call" (bytesRead (placeExchange (answeredWith [longBody])).2)
      (recordedEvents (placeExchange (answeredWith [longBody])).2) :=
    recordedOnce_of_tracks (tracks_run (answeredWith [longBody])) hEnded
  rw [bytesRead_answeredWith] at hOnce
  obtain ⟨attempt, exchangeIndex, response, error, hMem, hBody⟩ :=
    hOnce.update (List.ne_nil_of_length_pos (by omega))
  refine ⟨answeredWith [longBody], attempt, exchangeIndex, response, error, hEnded, hMem, ?_⟩
  rw [hBody, bytesRead_answeredWith]
  exact recordedBody_long hLong

end Aimux.Http
