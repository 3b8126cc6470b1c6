import Aimux.Core.StreamPart
import Aimux.Recorder.Model

/-! # Streams that record how they end

Two wrappers watch the items of a stream and leave one record of the call behind: the outcome of a
recording, and a trace record. The first item that settles the call decides: what comes after it, and
polls after the end, change nothing. An error that the stream may survive is kept until then.
-/

namespace Aimux.Recorder

open Aimux.Core Aimux.Lib

inductive StreamOutcome where
  | finish (finishReason : FinishReasonUnified) (usage : LanguageModelUsage)
  | error (error : AiMuxError)
  | other

def streamPartOutcome : StreamPart → StreamOutcome
  | .finish finishReason usage _ => .finish finishReason.unified (asLanguageModelUsage usage)
  | .error error => .error error
  | _ => .other

def textStreamPartOutcome : TextStreamPart → StreamOutcome
  | .finish finishReason _ totalUsage => .finish finishReason totalUsage
  | .error error => .error error
  | _ => .other

/-- What a poll of the inner stream returns. -/
inductive Polled (Part : Type) where
  | item (part : Part)
  | failed (error : AiMuxError)
  | ended
  | pending

/-- The texts and JSON values that `Display` and serde give. -/
structure OutcomeTexts where
  errorText : AiMuxError → String
  errorValue : AiMuxError → Option Json
  usageValue : LanguageModelUsage → Option Json
  reasonText : FinishReasonUnified → Option String

namespace OutcomeRecord

def success (texts : OutcomeTexts) (finishReason : FinishReasonUnified) (usage : LanguageModelUsage) :
    OutcomeRecord where
  status := .success
  finishReason := texts.reasonText finishReason
  usage := texts.usageValue usage

def failure (texts : OutcomeTexts) (error : AiMuxError) : OutcomeRecord where
  status := .error
  error := some (texts.errorText error)
  errorValue := texts.errorValue error

def incomplete : OutcomeRecord := { status := .incomplete }

def cancelled : OutcomeRecord := { status := .cancelled }

end OutcomeRecord

/-! ## The outcome of a recording -/

/-- What the recorder is told. -/
inductive OutcomeEvent where
  | outcome (outcome : OutcomeRecord)
  | transportClosed

structure RecordingOutcomeStream where
  hasRecorder : Bool := true
  recorded : Bool := false
  pending : Option OutcomeRecord := none

namespace RecordingOutcomeStream

def record (self : RecordingOutcomeStream) (outcome : OutcomeRecord) :
    RecordingOutcomeStream × List OutcomeEvent :=
  if self.recorded then (self, [])
  else ({ self with recorded := true },
    if self.hasRecorder then [.outcome outcome, .transportClosed] else [])

/-- The first error stands unless the outcome is settled. -/
def keepError (self : RecordingOutcomeStream) (outcome : OutcomeRecord) : RecordingOutcomeStream :=
  if !self.recorded && self.pending.isNone then { self with pending := some outcome } else self

/-- `flush_pending`, or else the outcome given. -/
def flushPendingOr (self : RecordingOutcomeStream) (outcome : OutcomeRecord) :
    RecordingOutcomeStream × List OutcomeEvent :=
  match self.pending with
  | some kept => { self with pending := none }.record kept
  | none => self.record outcome

variable {Part : Type} (texts : OutcomeTexts) (outcomeOf : Part → StreamOutcome)

def poll (self : RecordingOutcomeStream) : Polled Part → RecordingOutcomeStream × List OutcomeEvent
  | .item part => match outcomeOf part with
    | .finish finishReason usage => match self.pending with
      | some kept => { self with pending := none }.record { kept with usage := texts.usageValue usage }
      | none => self.record (.success texts finishReason usage)
    | .error error => (self.keepError (.failure texts error), [])
    | .other => (self, [])
  | .failed error =>
    if error.isRecoverableStreamError then (self.keepError (.failure texts error), [])
    else self.flushPendingOr (.failure texts error)
  | .ended => self.flushPendingOr .incomplete
  | .pending => (self, [])

def drop (self : RecordingOutcomeStream) : RecordingOutcomeStream × List OutcomeEvent :=
  if self.recorded then (self, []) else self.flushPendingOr .cancelled

/-- Everything recorded over polls with these results and, if it comes to that, the drop. -/
def lifetime (self : RecordingOutcomeStream) (items : List (Polled Part)) (dropped : Bool) : List OutcomeEvent :=
  let polled := Transducer.run (poll texts outcomeOf) self items
  polled.2 ++ if dropped then polled.1.drop.2 else []

end RecordingOutcomeStream

/-! ## What the items say -/

section

variable {Part : Type} (texts : OutcomeTexts) (outcomeOf : Part → StreamOutcome)

def errorOf : Polled Part → Option AiMuxError
  | .item part => match outcomeOf part with
    | .error error => some error
    | _ => none
  | .failed error => some error
  | _ => none

def firstError (items : List (Polled Part)) : Option AiMuxError := items.findSome? (errorOf outcomeOf)

/-- The item after which the outcome stands: a finish, an error the stream does not survive, the end. -/
def settles : Polled Part → Bool
  | .item part => match outcomeOf part with
    | .finish .. => true
    | _ => false
  | .failed error => !error.isRecoverableStreamError
  | .ended => true
  | .pending => false

/-- The outcome a settling item leads to after an earlier error, or none. -/
def settledBy (earlier : Option AiMuxError) : Polled Part → Option OutcomeRecord
  | .item part => match outcomeOf part with
    | .finish finishReason usage => some (match earlier with
      | some error => { OutcomeRecord.failure texts error with usage := texts.usageValue usage }
      | none => .success texts finishReason usage)
    | _ => none
  | .failed error => some (.failure texts (earlier.getD error))
  | .ended => some (match earlier with
    | some error => .failure texts error
    | none => .incomplete)
  | .pending => none

/-- The outcome by the first settling item; without one, by the drop. -/
def expectedOutcome (items : List (Polled Part)) (dropped : Bool) : Option OutcomeRecord :=
  match items.find? (settles outcomeOf) with
  | some item => settledBy texts outcomeOf
      (firstError outcomeOf (items.takeWhile fun item => !settles outcomeOf item)) item
  | none =>
    if dropped then some (match firstError outcomeOf items with
      | some error => .failure texts error
      | none => .cancelled)
    else none

end

/-! ## The wrapper does what the items say -/

namespace RecordingOutcomeStream

variable {Part : Type} {texts : OutcomeTexts} {outcomeOf : Part → StreamOutcome}

/-- A stream whose outcome is open and that has kept the failure of an earlier error, if there was one. -/
def waiting (texts : OutcomeTexts) (earlier : Option AiMuxError) : RecordingOutcomeStream where
  pending := earlier.map (.failure texts)

theorem poll_recorded {self : RecordingOutcomeStream} (hRecorded : self.recorded = true)
    (hPending : self.pending = none) (item : Polled Part) : poll texts outcomeOf self item = (self, []) := by
  cases item with
  | item part =>
    simp only [poll]
    split
    · simp [hPending, record, hRecorded]
    · simp [keepError, hRecorded]
    · rfl
  | failed error =>
    simp only [poll]
    split
    · simp [keepError, hRecorded]
    · simp [flushPendingOr, hPending, record, hRecorded]
  | ended => simp [poll, flushPendingOr, hPending, record, hRecorded]
  | pending => rfl

theorem run_recorded {self : RecordingOutcomeStream} (hRecorded : self.recorded = true)
    (hPending : self.pending = none) (items : List (Polled Part)) :
    Transducer.run (poll texts outcomeOf) self items = (self, []) := by
  induction items with
  | nil => rfl
  | cons item items ih =>
    rw [Transducer.run_cons, poll_recorded hRecorded hPending]
    simp [ih]

/-- A settling item is followed by the outcome it leads to, and by nothing else. -/
theorem poll_settles (texts : OutcomeTexts) (earlier : Option AiMuxError) {item : Polled Part}
    (h : settles outcomeOf item = true) :
    ∃ outcome, settledBy texts outcomeOf earlier item = some outcome ∧
      poll texts outcomeOf (waiting texts earlier) item =
        ({ recorded := true }, [.outcome outcome, .transportClosed]) := by
  cases item with
  | item part =>
    simp only [settles] at h
    simp only [settledBy, poll]
    split at h
    · rename_i finishReason usage hOutcome
      simp only [hOutcome]
      cases earlier <;> exact ⟨_, rfl, rfl⟩
    · cases h
  | failed error =>
    simp only [settles, Bool.not_eq_true'] at h
    simp only [settledBy, poll, h, Bool.false_eq_true, if_false]
    cases earlier <;> exact ⟨_, rfl, rfl⟩
  | ended =>
    simp only [settledBy, poll]
    cases earlier <;> exact ⟨_, rfl, rfl⟩
  | pending => cases h

/-- Any other item at most adds the first error. -/
theorem poll_waits {earlier : Option AiMuxError} {item : Polled Part} (h : settles outcomeOf item = false) :
    poll texts outcomeOf (waiting texts earlier) item =
      (waiting texts (earlier.or (errorOf outcomeOf item)), []) := by
  cases item with
  | item part =>
    simp only [settles] at h
    simp only [errorOf, poll]
    split at h
    · cases h
    · cases hOutcome : outcomeOf part with
      | finish finishReason usage => simp_all
      | error error => cases earlier <;> rfl
      | other => cases earlier <;> rfl
  | failed error =>
    simp only [settles, Bool.not_eq_false'] at h
    simp only [poll, h, if_true, errorOf]
    cases earlier <;> rfl
  | ended => cases h
  | pending => cases earlier <;> rfl

theorem firstError_cons (outcomeOf : Part → StreamOutcome) (item : Polled Part) (items : List (Polled Part)) :
    firstError outcomeOf (item :: items) = (errorOf outcomeOf item).or (firstError outcomeOf items) := by
  rw [firstError, List.findSome?_cons]
  cases errorOf outcomeOf item <;> rfl

/-- `expectedOutcome` of a stream that has met an error already. -/
def expectedAfter (texts : OutcomeTexts) (outcomeOf : Part → StreamOutcome) (earlier : Option AiMuxError)
    (items : List (Polled Part)) (dropped : Bool) : Option OutcomeRecord :=
  match items.find? (settles outcomeOf) with
  | some item => settledBy texts outcomeOf
      (earlier.or (firstError outcomeOf (items.takeWhile fun item => !settles outcomeOf item))) item
  | none =>
    if dropped then some (match earlier.or (firstError outcomeOf items) with
      | some error => .failure texts error
      | none => .cancelled)
    else none

/-- The outcome of a call comes with the closing mark. -/
def eventsOf : Option OutcomeRecord → List OutcomeEvent
  | some outcome => [.outcome outcome, .transportClosed]
  | none => []

theorem lifetime_waiting (items : List (Polled Part)) (dropped : Bool) (earlier : Option AiMuxError) :
    (waiting texts earlier).lifetime texts outcomeOf items dropped =
      eventsOf (expectedAfter texts outcomeOf earlier items dropped) := by
  induction items generalizing earlier with
  | nil =>
    cases dropped with
    | false => rfl
    | true => cases earlier <;> rfl
  | cons item items ih =>
    cases hSettles : settles outcomeOf item with
    | true =>
      obtain ⟨outcome, hOutcome, hPoll⟩ := poll_settles texts earlier hSettles
      have hExpected : expectedAfter texts outcomeOf earlier (item :: items) dropped = some outcome := by
        simp [expectedAfter, hSettles, firstError, hOutcome]
      rw [hExpected, lifetime, Transducer.run_cons, hPoll, run_recorded rfl rfl]
      simp [drop, eventsOf]
    | false =>
      have hTail := ih (earlier.or (errorOf outcomeOf item))
      have hExpected : expectedAfter texts outcomeOf earlier (item :: items) dropped =
          expectedAfter texts outcomeOf (earlier.or (errorOf outcomeOf item)) items dropped := by
        simp only [expectedAfter, List.find?_cons, hSettles, List.takeWhile_cons, Bool.not_false, if_true,
          firstError_cons, Option.or_assoc]
      rw [hExpected, ← hTail, lifetime, Transducer.run_cons, poll_waits hSettles]
      simp [lifetime]

theorem lifetime_eq (texts : OutcomeTexts) (outcomeOf : Part → StreamOutcome) (items : List (Polled Part))
    (dropped : Bool) :
    RecordingOutcomeStream.lifetime texts outcomeOf {} items dropped =
      eventsOf (expectedOutcome texts outcomeOf items dropped) :=
  lifetime_waiting items dropped none

/-- A finish comes before any error and before the end. -/
def FinishFirst (outcomeOf : Part → StreamOutcome) (items : List (Polled Part)) : Prop :=
  ∃ before part after finishReason usage, items = before ++ Polled.item part :: after ∧
    outcomeOf part = .finish finishReason usage ∧
    ∀ item ∈ before, settles outcomeOf item = false ∧ errorOf outcomeOf item = none

theorem firstError_eq_none_iff (outcomeOf : Part → StreamOutcome) (items : List (Polled Part)) :
    firstError outcomeOf items = none ↔ ∀ item ∈ items, errorOf outcomeOf item = none :=
  List.findSome?_eq_none_iff

theorem settledBy_success_iff (earlier : Option AiMuxError) (item : Polled Part) :
    (settledBy texts outcomeOf earlier item).any (fun outcome => outcome.status = .success) = true ↔
      earlier = none ∧ ∃ part finishReason usage, item = .item part ∧
        outcomeOf part = .finish finishReason usage := by
  cases item with
  | item part =>
    simp only [settledBy]
    cases hOutcome : outcomeOf part with
    | finish finishReason usage =>
      cases earlier with
      | none => simp [OutcomeRecord.success, hOutcome]
      | some error => simp [OutcomeRecord.failure]
    | error error => simp [hOutcome]
    | other => simp [hOutcome]
  | failed error => simp [settledBy, OutcomeRecord.failure]
  | ended => cases earlier <;> simp [settledBy, OutcomeRecord.failure, OutcomeRecord.incomplete]
  | pending => simp [settledBy]

/-- The outcome is a success exactly if a finish comes first. -/
theorem expectedOutcome_success_iff (texts : OutcomeTexts) (outcomeOf : Part → StreamOutcome)
    (items : List (Polled Part)) (dropped : Bool) :
    (expectedOutcome texts outcomeOf items dropped).any (fun outcome => outcome.status = .success) = true ↔
      FinishFirst outcomeOf items := by
  unfold expectedOutcome
  constructor
  · intro h
    split at h
    · rename_i item hFind
      obtain ⟨hNone, part, finishReason, usage, rfl, hOutcome⟩ := (settledBy_success_iff _ _).mp h
      obtain ⟨_, before, after, hItems, hBefore⟩ := List.find?_eq_some_iff_append.mp hFind
      refine ⟨before, part, after, finishReason, usage, hItems, hOutcome, ?_⟩
      have hSettled : settles outcomeOf (.item part) = true := by simp [settles, hOutcome]
      have hTaken : items.takeWhile (fun item => !settles outcomeOf item) = before := by
        rw [hItems, List.takeWhile_append_of_pos hBefore, List.takeWhile_cons_of_neg (by simp [hSettled]),
          List.append_nil]
      rw [hTaken, firstError_eq_none_iff] at hNone
      intro item hMem
      exact ⟨by simpa using hBefore item hMem, hNone item hMem⟩
    · split at h
      · split at h <;> cases h
      · cases h
  · rintro ⟨before, part, after, finishReason, usage, rfl, hOutcome, hBefore⟩
    have hSettled : settles outcomeOf (.item part) = true := by simp [settles, hOutcome]
    have hWaits : ∀ item ∈ before, (!settles outcomeOf item) = true := by
      intro item hMem
      simp [(hBefore item hMem).1]
    have hFind : (before ++ .item part :: after).find? (settles outcomeOf) = some (.item part) := by
      rw [List.find?_eq_some_iff_append]
      exact ⟨hSettled, before, after, rfl, hWaits⟩
    have hTaken : (before ++ .item part :: after).takeWhile (fun item => !settles outcomeOf item) = before := by
      rw [List.takeWhile_append_of_pos hWaits, List.takeWhile_cons_of_neg (by simp [hSettled]), List.append_nil]
    rw [hFind, hTaken]
    refine (settledBy_success_iff _ _).mpr ⟨?_, part, finishReason, usage, rfl, hOutcome⟩
    exact (firstError_eq_none_iff outcomeOf before).mpr fun item hMem => (hBefore item hMem).2

theorem settledBy_isSome {earlier : Option AiMuxError} {item : Polled Part}
    (h : settles outcomeOf item = true) : (settledBy texts outcomeOf earlier item).isSome = true := by
  obtain ⟨outcome, hOutcome, _⟩ := poll_settles texts earlier h
  rw [hOutcome]
  rfl

theorem expectedOutcome_isSome_iff (texts : OutcomeTexts) (outcomeOf : Part → StreamOutcome)
    (items : List (Polled Part)) (dropped : Bool) :
    (expectedOutcome texts outcomeOf items dropped).isSome = true ↔
      dropped = true ∨ ∃ item ∈ items, settles outcomeOf item = true := by
  unfold expectedOutcome
  split
  · rename_i item hFind
    have hSettles := List.find?_some hFind
    have hMem := List.mem_of_find?_eq_some hFind
    simp only [settledBy_isSome hSettles, true_iff]
    exact .inr ⟨item, hMem, hSettles⟩
  · rename_i hFind
    have hNone := List.find?_eq_none.mp hFind
    cases dropped with
    | true => simp
    | false =>
      simp only [Bool.false_eq_true, if_false, Option.isSome_none, false_or, false_iff, not_exists, not_and]
      exact hNone

end RecordingOutcomeStream

/-! ## The trace record -/

structure TraceRecordingStream where
  hasContext : Bool := true
  error : Option String := none
  recorded : Bool := false

namespace TraceRecordingStream

/-- The usage and the error of the trace record; the context is used up by it. -/
def recordNow (self : TraceRecordingStream) (usage : Usage) (error : Option String) :
    TraceRecordingStream × List (Usage × Option String) :=
  if self.recorded then (self, [])
  else ({ self with recorded := true, hasContext := false }, if self.hasContext then [(usage, error)] else [])

def keepError (self : TraceRecordingStream) (text : String) : TraceRecordingStream :=
  { self with error := some (self.error.getD text) }

def poll (texts : OutcomeTexts) (self : TraceRecordingStream) :
    Polled StreamPart → TraceRecordingStream × List (Usage × Option String)
  | .item (.finish _ usage _) => { self with error := none }.recordNow usage self.error
  | .item (.error error) => (self.keepError (texts.errorText error), [])
  | .item _ => (self, [])
  | .failed error => (self.keepError (texts.errorText error), [])
  | .ended => { self with error := none }.recordNow {} self.error
  | .pending => (self, [])

def drop (self : TraceRecordingStream) : TraceRecordingStream × List (Usage × Option String) :=
  if self.recorded then (self, [])
  else { self with error := none }.recordNow {} (self.error.or (some "stream dropped before completion"))

def lifetime (texts : OutcomeTexts) (self : TraceRecordingStream) (items : List (Polled StreamPart))
    (dropped : Bool) : List (Usage × Option String) :=
  let polled := Transducer.run (poll texts) self items
  polled.2 ++ if dropped then polled.1.drop.2 else []

/-- The usage of the item after which the record is made: a finish, or the end. -/
def settlesWith : Polled StreamPart → Option Usage
  | .item (.finish _ usage _) => some usage
  | .ended => some {}
  | _ => none

/-- The record by the first settling item, with the first error before it; without one, by the drop. -/
def expectedTrace (texts : OutcomeTexts) (items : List (Polled StreamPart)) (dropped : Bool) :
    Option (Usage × Option String) :=
  let before := items.takeWhile fun item => (settlesWith item).isNone
  let error := (firstError streamPartOutcome before).map texts.errorText
  match items.findSome? settlesWith with
  | some usage => some (usage, error)
  | none => if dropped then some ({}, error.or (some "stream dropped before completion")) else none

variable {texts : OutcomeTexts}

theorem poll_recorded (texts : OutcomeTexts) {self : TraceRecordingStream} (hRecorded : self.recorded = true)
    (item : Polled StreamPart) :
    (poll texts self item).2 = [] ∧ (poll texts self item).1.recorded = true := by
  cases item with
  | item part => cases part <;> simp [poll, recordNow, keepError, hRecorded]
  | failed error => simp [poll, keepError, hRecorded]
  | ended => simp [poll, recordNow, hRecorded]
  | pending => simp [poll, hRecorded]

theorem run_recorded (texts : OutcomeTexts) {self : TraceRecordingStream} (hRecorded : self.recorded = true)
    (items : List (Polled StreamPart)) :
    (Transducer.run (poll texts) self items).2 = [] ∧
      (Transducer.run (poll texts) self items).1.recorded = true := by
  induction items generalizing self with
  | nil => exact ⟨rfl, hRecorded⟩
  | cons item items ih =>
    obtain ⟨hQuiet, hStill⟩ := poll_recorded texts hRecorded item
    obtain ⟨hRest, hEnd⟩ := ih hStill
    rw [Transducer.run_cons]
    exact ⟨by rw [hQuiet, hRest]; rfl, hEnd⟩

/-- A stream that has not been recorded and has met the error of the text, if any. -/
def waiting (error : Option String) : TraceRecordingStream := { error }

theorem poll_settles (texts : OutcomeTexts) (error : Option String) {item : Polled StreamPart} {usage : Usage}
    (h : settlesWith item = some usage) :
    (poll texts (waiting error) item).2 = [(usage, error)] ∧
      (poll texts (waiting error) item).1.recorded = true := by
  cases item with
  | item part =>
    cases part with
    | finish finishReason found metadata =>
      obtain rfl := Option.some.inj h
      exact ⟨rfl, rfl⟩
    | _ => cases h
  | ended =>
    obtain rfl := Option.some.inj h
    exact ⟨rfl, rfl⟩
  | failed error => cases h
  | pending => cases h

theorem poll_waits {error : Option String} {item : Polled StreamPart} (h : settlesWith item = none) :
    poll texts (waiting error) item =
      (waiting (error.or ((errorOf streamPartOutcome item).map texts.errorText)), []) := by
  cases item with
  | item part =>
    cases part with
    | finish finishReason usage metadata => cases h
    | error failure => cases error <;> rfl
    | _ => cases error <;> rfl
  | ended => cases h
  | failed failure => cases error <;> rfl
  | pending => cases error <;> rfl

theorem lifetime_waiting (items : List (Polled StreamPart)) (dropped : Bool) (earlier : Option String) :
    (waiting earlier).lifetime texts items dropped =
      (match items.findSome? settlesWith with
        | some usage => some (usage, earlier.or ((firstError streamPartOutcome
            (items.takeWhile fun item => (settlesWith item).isNone)).map texts.errorText))
        | none =>
          if dropped then some ({}, (earlier.or ((firstError streamPartOutcome
            (items.takeWhile fun item => (settlesWith item).isNone)).map texts.errorText)).or
              (some "stream dropped before completion"))
          else none).toList := by
  induction items generalizing earlier with
  | nil =>
    cases dropped with
    | false => rfl
    | true => cases earlier <;> rfl
  | cons item items ih =>
    cases hSettles : settlesWith item with
    | some usage =>
      obtain ⟨hRecord, hRecorded⟩ := poll_settles texts earlier hSettles
      obtain ⟨hRest, hEnd⟩ := run_recorded texts hRecorded items
      rw [lifetime, Transducer.run_cons]
      simp [hRecord, hRest, drop, hEnd, hSettles, firstError]
    | none =>
      have hTail := ih (earlier.or ((errorOf streamPartOutcome item).map texts.errorText))
      have hErrors : ∀ rest, (firstError streamPartOutcome (item :: rest)).map texts.errorText =
          ((errorOf streamPartOutcome item).map texts.errorText).or
            ((firstError streamPartOutcome rest).map texts.errorText) := by
        intro rest
        rw [RecordingOutcomeStream.firstError_cons]
        cases errorOf streamPartOutcome item <;> rfl
      have hStep : (waiting earlier).lifetime texts (item :: items) dropped =
          (waiting (earlier.or ((errorOf streamPartOutcome item).map texts.errorText))).lifetime texts items
            dropped := by
        rw [lifetime, Transducer.run_cons, poll_waits hSettles]
        simp [lifetime]
      rw [hStep, hTail]
      simp only [List.findSome?_cons, hSettles, List.takeWhile_cons, Option.isNone_none, if_true, hErrors,
        Option.or_assoc]

theorem lifetime_eq (texts : OutcomeTexts) (items : List (Polled StreamPart)) (dropped : Bool) :
    TraceRecordingStream.lifetime texts {} items dropped = (expectedTrace texts items dropped).toList :=
  (lifetime_waiting items dropped none).trans (by simp [expectedTrace])

theorem expectedTrace_isSome_iff (texts : OutcomeTexts) (items : List (Polled StreamPart)) (dropped : Bool) :
    (expectedTrace texts items dropped).isSome = true ↔
      dropped = true ∨ ∃ item ∈ items, (settlesWith item).isSome = true := by
  unfold expectedTrace
  simp only
  split
  · rename_i usage hFind
    obtain ⟨item, hMem, hUsage⟩ := List.exists_of_findSome?_eq_some hFind
    simp only [Option.isSome_some, true_iff]
    exact .inr ⟨item, hMem, by rw [hUsage]; rfl⟩
  · rename_i hFind
    have hNone := List.findSome?_eq_none_iff.mp hFind
    cases dropped with
    | true => simp
    | false =>
      simp only [Bool.false_eq_true, if_false, Option.isSome_none, false_or, false_iff, not_exists, not_and]
      intro item hMem
      simp [hNone item hMem]

end TraceRecordingStream

/-! ## Both together -/

/-- For polls with any results and a drop or none: the recorder is told one outcome and one closing mark
once an item has settled the call or the stream was dropped, and nothing before; the outcome is the one
the first settling item leads to after the first error before it, a success exactly if a finish comes
first. The trace gets one record under the same conditions, by its own settling items. -/
theorem streams_record_once {Part : Type} (texts : OutcomeTexts) (outcomeOf : Part → StreamOutcome)
    (items : List (Polled Part)) (parts : List (Polled StreamPart)) (dropped : Bool) :
    (RecordingOutcomeStream.lifetime texts outcomeOf {} items dropped =
        RecordingOutcomeStream.eventsOf (expectedOutcome texts outcomeOf items dropped) ∧
      ((expectedOutcome texts outcomeOf items dropped).isSome = true ↔
        dropped = true ∨ ∃ item ∈ items, settles outcomeOf item = true) ∧
      ((expectedOutcome texts outcomeOf items dropped).any (fun outcome => outcome.status = .success) = true ↔
        RecordingOutcomeStream.FinishFirst outcomeOf items)) ∧
    (TraceRecordingStream.lifetime texts {} parts dropped =
        (TraceRecordingStream.expectedTrace texts parts dropped).toList ∧
      ((TraceRecordingStream.expectedTrace texts parts dropped).isSome = true ↔
        dropped = true ∨ ∃ item ∈ parts, (TraceRecordingStream.settlesWith item).isSome = true)) :=
  ⟨⟨RecordingOutcomeStream.lifetime_eq texts outcomeOf items dropped,
      RecordingOutcomeStream.expectedOutcome_isSome_iff texts outcomeOf items dropped,
      RecordingOutcomeStream.expectedOutcome_success_iff texts outcomeOf items dropped⟩,
    TraceRecordingStream.lifetime_eq texts parts dropped,
    TraceRecordingStream.expectedTrace_isSome_iff texts parts dropped⟩

def sampleTexts : OutcomeTexts where
  errorText := fun _ => "failed"
  errorValue := fun _ => none
  usageValue := fun usage => usage.inputTokens.map fun n => .number (.int n)
  reasonText := fun _ => some "stop"

def sampleFinish : Polled StreamPart :=
  .item (.finish { unified := .stop, raw := none } { inputTokens := { total := some 7 } } none)

/-- Nothing is recorded for a stream that is neither ended nor dropped; a finish after the end is no
success; and the usage of a finish after an error the stream does not survive is not kept. -/
theorem unended_and_late_finishes :
    RecordingOutcomeStream.lifetime sampleTexts streamPartOutcome {} [.pending] false = [] ∧
      TraceRecordingStream.lifetime sampleTexts {} [.pending] false = [] ∧
      RecordingOutcomeStream.lifetime sampleTexts streamPartOutcome {} [.ended, sampleFinish] true =
        [.outcome .incomplete, .transportClosed] ∧
      RecordingOutcomeStream.lifetime sampleTexts streamPartOutcome {}
          [.failed (.timeout "late"), sampleFinish] true =
        [.outcome { status := .error, error := some "failed" }, .transportClosed] :=
  ⟨rfl, rfl, rfl, rfl⟩

end Aimux.Recorder
