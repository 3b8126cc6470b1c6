import Aimux.Ops.Operation

/-! # Output of an operation

The invariant of the output side. One part is about the byte budget and is local to the state; the
other relates the queue and the terminal slot to the history of events.
-/

namespace Aimux.Ops.Operation

open Aimux.Core

variable {P : Type}

/-! ## Histories -/

def enqueuedPart : Event P → Option P
  | .enqueued part => some part
  | _ => none

def deliveredPart : Event P → Option P
  | .delivered part => some part
  | _ => none

def offeredSummary : Event P → Option TerminalSummary
  | .terminated summary => some summary
  | _ => none

def reportedError : Event P → Option OpsError
  | .terminalError error => some error
  | _ => none

def isReport : Event P → Bool
  | .terminalError _ | .ended => true
  | _ => false

def isResult : Event P → Bool
  | .delivered _ | .terminalError _ | .ended | .timedOut => true
  | _ => false

def enqueued (history : List (Event P)) : List P := history.filterMap enqueuedPart

def delivered (history : List (Event P)) : List P := history.filterMap deliveredPart

def offered (history : List (Event P)) : List TerminalSummary := history.filterMap offeredSummary

def reported (history : List (Event P)) : List OpsError := history.filterMap reportedError

variable (a b : List (Event P))

@[simp] theorem enqueued_append : enqueued (a ++ b) = enqueued a ++ enqueued b :=
  List.filterMap_append ..

@[simp] theorem delivered_append : delivered (a ++ b) = delivered a ++ delivered b :=
  List.filterMap_append ..

@[simp] theorem offered_append : offered (a ++ b) = offered a ++ offered b :=
  List.filterMap_append ..

@[simp] theorem reported_append : reported (a ++ b) = reported a ++ reported b :=
  List.filterMap_append ..

/-- Nothing is enqueued once an outcome was offered. -/
def Frozen (history : List (Event P)) : Prop :=
  ∀ before summary after, history = before ++ .terminated summary :: after → enqueued after = []

/-- Once the terminal was reported, every later result is `ended`. -/
def Final (history : List (Event P)) : Prop :=
  ∀ before event after, history = before ++ event :: after → isReport event = true →
    ∀ later ∈ after, isResult later = true → later = .ended

variable {history : List (Event P)}

theorem Frozen.concat (h : Frozen history) {event : Event P} (hEvent : enqueued [event] = [] ∨ offered history = []) :
    Frozen (history ++ [event]) := by
  intro before summary after hSplit
  rcases Lib.split_concat hSplit with ⟨rfl, _, _⟩ | ⟨rest, rfl, rfl⟩
  · rfl
  · rcases hEvent with hEvent | hOffered
    · rw [enqueued_append, hEvent, h before summary rest rfl, List.append_nil]
    · simp [offered, offeredSummary] at hOffered

theorem Final.concat (h : Final history) {event : Event P}
    (hEvent : isResult event = false ∨ event = .ended ∨ history.any isReport = false) :
    Final (history ++ [event]) := by
  intro before report after hSplit hReport later hLater hResult
  rcases Lib.split_concat hSplit with ⟨rfl, _, _⟩ | ⟨rest, rfl, rfl⟩
  · cases hLater
  · rcases List.mem_append.mp hLater with hOld | hNew
    · exact h before report rest rfl hReport later hOld hResult
    · obtain rfl := List.mem_singleton.mp hNew
      rcases hEvent with hQuiet | hEnded | hNone
      · rw [hQuiet] at hResult
        cases hResult
      · exact hEnded
      · simp [hReport] at hNone

/-! ## The budget -/

variable {op op' : Operation P}

section

variable [WirePart P]

/-- What the driver knows about the part it is about to enqueue. -/
def DriverReady (op : Operation P) : Prop :=
  match op.driver with
  | .beforeSend part bytes => WirePart.wireBytes part = .ok bytes
  | .sending part bytes => WirePart.wireBytes part = .ok bytes ∧
      op.outputQueue.length < op.limits.outputItems ∧ op.outputBytes + bytes ≤ op.limits.outputBytes
  | _ => True

/-- The accounted bytes are the sizes of the queued parts, within the limits. -/
structure Budgeted (op : Operation P) : Prop where
  bytes : op.outputBytes = (op.outputQueue.map (·.2)).sum
  sizes : ∀ entry ∈ op.outputQueue, WirePart.wireBytes entry.1 = .ok entry.2
  itemLimit : op.outputQueue.length ≤ op.limits.outputItems
  byteLimit : op.outputBytes ≤ op.limits.outputBytes
  driver : DriverReady op

structure SameOutput (op op' : Operation P) : Prop where
  limits : op'.limits = op.limits
  queue : op'.outputQueue = op.outputQueue
  bytes : op'.outputBytes = op.outputBytes
  driver : op'.driver = op.driver

theorem Budgeted.same (h : Budgeted op) (same : SameOutput op op') : Budgeted op' where
  bytes := by rw [same.bytes, same.queue, h.bytes]
  sizes := same.queue ▸ h.sizes
  itemLimit := by rw [same.queue, same.limits]; exact h.itemLimit
  byteLimit := by rw [same.bytes, same.limits]; exact h.byteLimit
  driver := by
    have hDriver := h.driver
    unfold DriverReady at hDriver ⊢
    rw [same.driver, same.queue, same.bytes, same.limits]
    exact hDriver

def Idle : Driver P → Bool
  | .beforeSend .. | .sending .. => false
  | _ => true

theorem Budgeted.idle (h : Budgeted op) (hLimits : op'.limits = op.limits) (hQueue : op'.outputQueue = op.outputQueue)
    (hBytes : op'.outputBytes = op.outputBytes) (hDriver : Idle op'.driver = true) : Budgeted op' where
  bytes := by rw [hBytes, hQueue, h.bytes]
  sizes := hQueue ▸ h.sizes
  itemLimit := by rw [hQueue, hLimits]; exact h.itemLimit
  byteLimit := by rw [hBytes, hLimits]; exact h.byteLimit
  driver := by
    unfold DriverReady
    cases hPhase : op'.driver <;> first | trivial | (rw [hPhase] at hDriver; cases hDriver)

end

/-! ## Delivery and the terminal -/

/-- The terminal slot against the errors reported so far: none before it is written, and the error of
the stored outcome from the moment it is taken. -/
def ErrorOwed (terminal : Option OperationTerminal) (errors : List OpsError) : Prop :=
  match terminal with
  | none => errors = []
  | some terminal =>
    (terminal.error = terminal.summary.error ∧ errors = []) ∨
      (terminal.error = none ∧ errors = terminal.summary.error.toList)

structure Reported (op : Operation P) (history : List (Event P)) : Prop where
  noUnderflow : .outputUnderflow ∉ history
  first : op.terminal.map (·.summary) = (offered history).head?
  order : delivered history <+: enqueued history
  queued : op.consumerClosed = false → enqueued history = delivered history ++ op.outputQueue.map (·.1)
  errors : ErrorOwed op.terminal (reported history)
  settled : history.any isReport = true → (∃ terminal, op.terminal = some terminal ∧ terminal.error = none) ∧
    op.outputQueue = [] ∧ op.reader ≠ .waiting
  abandoned : op.consumerClosed = true → op.outputQueue = [] ∧ op.terminal.isSome = true
  final : Final history
  frozen : Frozen history

def Quiet (event : Event P) : Prop :=
  enqueued [event] = [] ∧ delivered [event] = [] ∧ offered [event] = [] ∧ reported [event] = [] ∧
    isReport event = false ∧ isResult event = false ∧ event ≠ .outputUnderflow

section

variable (h : Reported op history)

include h

theorem Reported.silent (hTerminal : op'.terminal = op.terminal) (hQueue : op'.outputQueue = op.outputQueue)
    (hConsumer : op'.consumerClosed = op.consumerClosed)
    (hReader : op'.reader = .waiting → op.reader = .waiting ∨ op.terminal = none) : Reported op' history where
  noUnderflow := h.noUnderflow
  first := hTerminal ▸ h.first
  order := h.order
  queued := by rw [hConsumer, hQueue]; exact h.queued
  errors := hTerminal ▸ h.errors
  settled := by
    intro hReport
    obtain ⟨⟨terminal, hSome, hTaken⟩, hEmpty, hIdle⟩ := h.settled hReport
    refine ⟨⟨terminal, hTerminal.trans hSome, hTaken⟩, hQueue.trans hEmpty, ?_⟩
    intro hWaiting
    rcases hReader hWaiting with hWas | hNone
    · exact hIdle hWas
    · rw [hNone] at hSome
      cases hSome
  abandoned := by rw [hConsumer, hQueue, hTerminal]; exact h.abandoned
  final := h.final
  frozen := h.frozen

/-- An event that says nothing about the frames or the error. -/
theorem Reported.note {event : Event P} (hEnqueued : enqueued [event] = []) (hDelivered : delivered [event] = [])
    (hOffered : offered [event] = []) (hReported : reported [event] = []) (hUnderflow : event ≠ .outputUnderflow)
    (hTerminal : op'.terminal = op.terminal) (hQueue : op'.outputQueue = op.outputQueue)
    (hConsumer : op'.consumerClosed = op.consumerClosed)
    (hSettled : (history ++ [event]).any isReport = true →
      (∃ terminal, op'.terminal = some terminal ∧ terminal.error = none) ∧ op'.outputQueue = [] ∧ op'.reader ≠ .waiting)
    (hResult : isResult event = false ∨ event = .ended ∨ history.any isReport = false) :
    Reported op' (history ++ [event]) := by
  constructor
  case noUnderflow => simp [h.noUnderflow, hUnderflow.symm]
  case first => simpa [hTerminal, hOffered] using h.first
  case order => simpa [hEnqueued, hDelivered] using h.order
  case queued => simpa [hEnqueued, hDelivered, hQueue, hConsumer] using h.queued
  case errors => simpa [hTerminal, hReported] using h.errors
  case settled => exact hSettled
  case abandoned => rw [hConsumer, hQueue, hTerminal]; exact h.abandoned
  case final => exact h.final.concat hResult
  case frozen => exact h.frozen.concat (.inl hEnqueued)

theorem Reported.event {event : Event P} (quiet : Quiet event) : Reported op (history ++ [event]) := by
  obtain ⟨hEnqueued, hDelivered, hOffered, hReported, hReport, hResult, hUnderflow⟩ := quiet
  refine h.note hEnqueued hDelivered hOffered hReported hUnderflow rfl rfl rfl ?_ (.inl hResult)
  simpa [hReport] using h.settled

theorem Reported.quiet {event : Event P} (quiet : Quiet event) (hTerminal : op'.terminal = op.terminal)
    (hQueue : op'.outputQueue = op.outputQueue) (hConsumer : op'.consumerClosed = op.consumerClosed)
    (hReader : op'.reader = .waiting → op.reader = .waiting ∨ op.terminal = none) :
    Reported op' (history ++ [event]) :=
  (h.silent hTerminal hQueue hConsumer hReader).event quiet

theorem not_reported (hNone : op.terminal = none) : history.any isReport = false := by
  by_contra hReport
  obtain ⟨⟨terminal, hSome, _⟩, _⟩ := h.settled (by simpa using hReport)
  rw [hNone] at hSome
  cases hSome

theorem Reported.offer (outcome : OperationOutcome) (error : Option OpsError) :
    Reported (op.writeTerminal outcome error) (history ++ [Event.terminated { outcome, error }]) := by
  have hEnqueued : enqueued [(.terminated { outcome, error } : Event P)] = [] := rfl
  have hDelivered : delivered [(.terminated { outcome, error } : Event P)] = [] := rfl
  have hReported : reported [(.terminated { outcome, error } : Event P)] = [] := rfl
  have hOffered : offered [(.terminated { outcome, error } : Event P)] = [{ outcome, error }] := rfl
  cases hTerminal : op.terminal with
  | some terminal =>
    have hWrite : op.writeTerminal outcome error = op := by simp [writeTerminal, hTerminal]
    rw [hWrite]
    constructor
    case noUnderflow => simp [h.noUnderflow]
    case first =>
      have hFirst := h.first
      rw [hTerminal, Option.map_some] at hFirst
      rw [hTerminal, Option.map_some, offered_append, List.head?_append, ← hFirst, Option.some_or]
    case order => simpa [hEnqueued, hDelivered] using h.order
    case queued => simpa [hEnqueued, hDelivered] using h.queued
    case errors => simpa [hReported] using h.errors
    case settled => simpa [isReport] using h.settled
    case abandoned => exact h.abandoned
    case final => exact h.final.concat (.inl rfl)
    case frozen => exact h.frozen.concat (.inl hEnqueued)
  | none =>
    have hNone := not_reported h hTerminal
    have hWrite : op.writeTerminal outcome error = { op with
        terminal := some { summary := { outcome, error }, error }, inputQueue := [], inputBytes := 0 } := by
      simp [writeTerminal, hTerminal]
    have hFirst := h.first
    rw [hTerminal, Option.map_none, eq_comm, List.head?_eq_none_iff] at hFirst
    have hErrors := h.errors
    rw [hTerminal] at hErrors
    rw [hWrite]
    constructor
    case noUnderflow => simp [h.noUnderflow]
    case first => simp [hFirst, hOffered]
    case order => simpa [hEnqueued, hDelivered] using h.order
    case queued => simpa [hEnqueued, hDelivered] using h.queued
    case errors => exact .inl ⟨rfl, by rw [reported_append, hReported, List.append_nil]; exact hErrors⟩
    case settled =>
      intro hReport
      rw [List.any_append, hNone] at hReport
      cases hReport
    case abandoned => exact fun hClosed => ⟨(h.abandoned hClosed).1, rfl⟩
    case final => exact h.final.concat (.inl rfl)
    case frozen => exact h.frozen.concat (.inl hEnqueued)

theorem Reported.enqueue {part : P} {bytes : Nat} (hOpen : op.terminal = none) (hTerminal : op'.terminal = op.terminal)
    (hQueue : op'.outputQueue = op.outputQueue ++ [(part, bytes)]) (hConsumer : op'.consumerClosed = op.consumerClosed) :
    Reported op' (history ++ [Event.enqueued part]) := by
  have hEnqueued : enqueued [(.enqueued part : Event P)] = [part] := rfl
  have hDelivered : delivered [(.enqueued part : Event P)] = [] := rfl
  have hOffered : offered [(.enqueued part : Event P)] = [] := rfl
  have hReported : reported [(.enqueued part : Event P)] = [] := rfl
  have hNone := not_reported h hOpen
  have hFirst := h.first
  rw [hOpen, Option.map_none, eq_comm, List.head?_eq_none_iff] at hFirst
  constructor
  case noUnderflow => simp [h.noUnderflow]
  case first => simpa [hTerminal, hOffered] using h.first
  case order =>
    rw [delivered_append, enqueued_append, hDelivered, List.append_nil]
    exact h.order.trans (List.prefix_append ..)
  case queued =>
    intro hConsumerOpen
    simp [hEnqueued, hDelivered, hQueue, h.queued (hConsumer ▸ hConsumerOpen)]
  case errors => simpa [hTerminal, hReported] using h.errors
  case settled =>
    intro hReport
    rw [List.any_append, hNone] at hReport
    cases hReport
  case abandoned =>
    intro hClosed
    have hTerminated := (h.abandoned (hConsumer ▸ hClosed)).2
    rw [hOpen] at hTerminated
    cases hTerminated
  case final => exact h.final.concat (.inl rfl)
  case frozen => exact h.frozen.concat (.inr hFirst)

theorem Reported.deliver {part : P} {bytes : Nat} {rest : List (P × Nat)}
    (hHead : op.outputQueue = (part, bytes) :: rest) (hTerminal : op'.terminal = op.terminal)
    (hQueue : op'.outputQueue = rest) (hConsumer : op'.consumerClosed = op.consumerClosed) :
    Reported op' (history ++ [Event.delivered part]) := by
  have hEnqueued : enqueued [(.delivered part : Event P)] = [] := rfl
  have hDelivered : delivered [(.delivered part : Event P)] = [part] := rfl
  have hOffered : offered [(.delivered part : Event P)] = [] := rfl
  have hReported : reported [(.delivered part : Event P)] = [] := rfl
  have hOpen : op.consumerClosed = false := by
    by_contra hClosed
    have hEmpty := (h.abandoned (by simpa using hClosed)).1
    rw [hHead] at hEmpty
    cases hEmpty
  have hNone : history.any isReport = false := by
    by_contra hReport
    have hEmpty := (h.settled (by simpa using hReport)).2.1
    rw [hHead] at hEmpty
    cases hEmpty
  have hQueued : enqueued (history ++ [Event.delivered part]) =
      delivered (history ++ [Event.delivered part]) ++ op'.outputQueue.map (·.1) := by
    simp [hEnqueued, hDelivered, h.queued hOpen, hHead, hQueue]
  constructor
  case noUnderflow => simp [h.noUnderflow]
  case first => simpa [hTerminal, hOffered] using h.first
  case order => exact ⟨_, hQueued.symm⟩
  case queued => exact fun _ => hQueued
  case errors => simpa [hTerminal, hReported] using h.errors
  case settled =>
    intro hReport
    rw [List.any_append, hNone] at hReport
    cases hReport
  case abandoned =>
    intro hClosed
    rw [hConsumer, hOpen] at hClosed
    cases hClosed
  case final => exact h.final.concat (.inr (.inr hNone))
  case frozen => exact h.frozen.concat (.inl hEnqueued)

theorem Reported.reportError {terminal : OperationTerminal} {error : OpsError} (hSome : op.terminal = some terminal)
    (hOwed : terminal.error = some error) (hEmpty : op.outputQueue = [])
    (hTerminal : op'.terminal = some { terminal with error := none }) (hQueue : op'.outputQueue = op.outputQueue)
    (hConsumer : op'.consumerClosed = op.consumerClosed) (hReader : op'.reader ≠ .waiting) :
    Reported op' (history ++ [Event.terminalError error]) := by
  have hEnqueued : enqueued [(.terminalError error : Event P)] = [] := rfl
  have hDelivered : delivered [(.terminalError error : Event P)] = [] := rfl
  have hOffered : offered [(.terminalError error : Event P)] = [] := rfl
  have hReported : reported [(.terminalError error : Event P)] = [error] := rfl
  have hErrors := h.errors
  rw [hSome] at hErrors
  -- the slot still holds its error, so nothing was reported before
  have hNone : history.any isReport = false := by
    by_contra hReport
    obtain ⟨⟨found, hFound, hTaken⟩, _⟩ := h.settled (by simpa using hReport)
    rw [hSome] at hFound
    rw [← Option.some.inj hFound, hOwed] at hTaken
    cases hTaken
  constructor
  case noUnderflow => simp [h.noUnderflow]
  case first =>
    have hFirst := h.first
    rw [hSome] at hFirst
    simpa [hTerminal, hOffered] using hFirst
  case order => simpa [hEnqueued, hDelivered] using h.order
  case queued => simpa [hEnqueued, hDelivered, hQueue, hConsumer] using h.queued
  case errors =>
    rw [hTerminal, reported_append, hReported]
    rcases hErrors with ⟨hSummary, hErrors⟩ | ⟨hTaken, _⟩
    · exact .inr ⟨rfl, by rw [hErrors, ← hSummary, hOwed]; rfl⟩
    · rw [hOwed] at hTaken
      cases hTaken
  case settled => exact fun _ => ⟨⟨_, hTerminal, rfl⟩, hQueue.trans hEmpty, hReader⟩
  case abandoned => exact fun _ => ⟨hQueue.trans hEmpty, by rw [hTerminal]; rfl⟩
  case final => exact h.final.concat (.inr (.inr hNone))
  case frozen => exact h.frozen.concat (.inl hEnqueued)

theorem Reported.reportEnded {terminal : OperationTerminal} (hSome : op.terminal = some terminal)
    (hOwed : terminal.error = none) (hEmpty : op.outputQueue = []) (hTerminal : op'.terminal = op.terminal)
    (hQueue : op'.outputQueue = op.outputQueue) (hConsumer : op'.consumerClosed = op.consumerClosed)
    (hReader : op'.reader ≠ .waiting) : Reported op' (history ++ [Event.ended]) :=
  h.note rfl rfl rfl rfl nofun hTerminal hQueue hConsumer
    (fun _ => ⟨⟨_, hTerminal.trans hSome, hOwed⟩, hQueue.trans hEmpty, hReader⟩) (.inr (.inl rfl))

theorem Reported.timeout (hWaiting : op.reader = .waiting) (hTerminal : op'.terminal = op.terminal)
    (hQueue : op'.outputQueue = op.outputQueue) (hConsumer : op'.consumerClosed = op.consumerClosed) :
    Reported op' (history ++ [Event.timedOut]) := by
  have hNone : history.any isReport = false := by
    by_contra hReport
    exact (h.settled (by simpa using hReport)).2.2 hWaiting
  refine h.note rfl rfl rfl rfl nofun hTerminal hQueue hConsumer (fun hReport => ?_) (.inr (.inr hNone))
  rw [List.any_append, hNone] at hReport
  cases hReport

theorem Reported.abandon (hSome : op.terminal.isSome = true) :
    Reported { op with consumerClosed := true, outputQueue := [], outputBytes := 0 } history where
  noUnderflow := h.noUnderflow
  first := h.first
  order := h.order
  queued := by simp
  errors := h.errors
  settled := fun hReport => ⟨(h.settled hReport).1, rfl, (h.settled hReport).2.2⟩
  abandoned := fun _ => ⟨rfl, hSome⟩
  final := h.final
  frozen := h.frozen

end

end Aimux.Ops.Operation
