import Aimux.Ops.OperationOutput

/-! # Delivery to the reader of an operation

What the reader of an operation gets, along any schedule: the parts the driver enqueued, in order, then
the first terminal outcome. Every critical section keeps the invariant of the output side; sections of
the input side do not touch it at all.
-/

namespace Aimux.Ops.Operation

open Aimux.Core

variable {P : Type}

/-! ## One critical section -/

theorem Reported.events {op : Operation P} {history : List (Event P)} (h : Reported op history)
    {events : List (Event P)} (quiet : ∀ event ∈ events, Quiet event) : Reported op (history ++ events) := by
  induction events generalizing history with
  | nil => simpa using h
  | cons event events ih =>
    have hNext := ih (h.event (quiet event List.mem_cons_self)) fun e he =>
      quiet e (List.mem_cons_of_mem event he)
    simpa using hNext

structure InputSection (op : Operation P) (result : Operation P × List (Event P)) : Prop where
  same : SameOutput op result.1
  terminal : result.1.terminal = op.terminal
  consumer : result.1.consumerClosed = op.consumerClosed
  reader : result.1.reader = op.reader
  quiet : ∀ event ∈ result.2, Quiet event

theorem quiet_of_mem_singleton {event : Event P} (h : Quiet event) : ∀ e ∈ [event], Quiet e := by
  intro e he
  rw [List.mem_singleton.mp he]
  exact h

variable (op : Operation P)

theorem pushAdmit_section (bytes : List UInt8) : InputSection op (op.pushAdmit bytes) := by
  unfold pushAdmit
  repeat' split
  all_goals exact ⟨⟨rfl, rfl, rfl, rfl⟩, rfl, rfl, rfl,
    quiet_of_mem_singleton ⟨rfl, rfl, rfl, rfl, rfl, rfl, by simp⟩⟩

theorem pushTurn_section (sequence : Nat) : InputSection op (op.pushTurn sequence) := by
  unfold pushTurn
  repeat' split
  case h_1 => exact ⟨⟨rfl, rfl, rfl, rfl⟩, rfl, rfl, rfl, by simp⟩
  all_goals exact ⟨⟨rfl, rfl, rfl, rfl⟩, rfl, rfl, rfl,
    quiet_of_mem_singleton ⟨rfl, rfl, rfl, rfl, rfl, rfl, by simp⟩⟩

theorem pushDrop_section (sequence : Nat) : InputSection op (op.pushDrop sequence) := by
  unfold pushDrop
  split
  · exact ⟨⟨rfl, rfl, rfl, rfl⟩, rfl, rfl, rfl, by simp⟩
  · refine ⟨⟨rfl, rfl, rfl, rfl⟩, rfl, rfl, rfl, quiet_of_mem_singleton ?_⟩
    unfold pushReport
    split
    all_goals exact ⟨rfl, rfl, rfl, rfl, rfl, rfl, by simp⟩

theorem tryPush_section (bytes : List UInt8) : InputSection op (op.tryPush bytes) := by
  unfold tryPush
  repeat' split
  case h_2 =>
    refine ⟨⟨rfl, rfl, rfl, rfl⟩, rfl, rfl, rfl, ?_⟩
    simp only [List.forall_mem_cons, List.not_mem_nil, false_implies, implies_true, and_true]
    exact ⟨⟨rfl, rfl, rfl, rfl, rfl, rfl, by simp⟩, ⟨rfl, rfl, rfl, rfl, rfl, rfl, by simp⟩,
      ⟨rfl, rfl, rfl, rfl, rfl, rfl, by simp⟩⟩
  all_goals exact ⟨⟨rfl, rfl, rfl, rfl⟩, rfl, rfl, rfl,
    quiet_of_mem_singleton ⟨rfl, rfl, rfl, rfl, rfl, rfl, by simp⟩⟩

theorem inputDone_section : InputSection op op.inputDone := by
  unfold inputDone
  split
  all_goals exact ⟨⟨rfl, rfl, rfl, rfl⟩, rfl, rfl, rfl, by simp⟩

theorem audioPoll_section : InputSection op op.audioPoll := by
  unfold audioPoll
  repeat' split
  all_goals exact ⟨⟨rfl, rfl, rfl, rfl⟩, rfl, rfl, rfl,
    quiet_of_mem_singleton ⟨rfl, rfl, rfl, rfl, rfl, rfl, by simp⟩⟩

section

variable [WirePart P]

def Keeps (history : List (Event P)) (result : Operation P × List (Event P)) : Prop :=
  Budgeted result.1 ∧ Reported result.1 (history ++ result.2)

variable {op : Operation P} {history : List (Event P)}

theorem InputSection.keeps {result : Operation P × List (Event P)} (hSection : InputSection op result)
    (hBudget : Budgeted op) (hReported : Reported op history) : Keeps history result :=
  ⟨hBudget.same hSection.same, (hReported.silent hSection.terminal hSection.same.queue hSection.consumer
    fun hWaiting => .inl (hSection.reader ▸ hWaiting)).events hSection.quiet⟩

omit [WirePart P] in
theorem sameOutput_writeTerminal (op : Operation P) (outcome : OperationOutcome) (error : Option OpsError) :
    SameOutput op (op.writeTerminal outcome error) := by
  unfold writeTerminal
  split <;> exact ⟨rfl, rfl, rfl, rfl⟩

theorem finish_keeps (hBudget : Budgeted op) (hReported : Reported op history) (outcome : OperationOutcome)
    (error : Option OpsError) : Keeps history (op.finish outcome error) :=
  ⟨hBudget.same (sameOutput_writeTerminal op outcome error), hReported.offer outcome error⟩

omit [WirePart P] in
theorem quiet_cancelled (result : CancelResult) : Quiet (.cancelled result : Event P) :=
  ⟨rfl, rfl, rfl, rfl, rfl, rfl, by simp⟩

section

variable (hBudget : Budgeted op) (hReported : Reported op history)

include hBudget hReported

theorem cancel_keeps : Keeps history op.cancel := by
  refine ⟨hBudget.same (sameOutput_writeTerminal op _ _), ?_⟩
  have hOffer := (hReported.offer .cancelled (some cancelledError)).event
    (quiet_cancelled op.cancelResult)
  simpa [cancel] using hOffer

theorem driver_keeps {driver : Driver P} (hIdle : Idle driver = true) : Keeps history ({ op with driver }, []) :=
  ⟨hBudget.idle rfl rfl rfl hIdle, by
    rw [List.append_nil]
    exact hReported.silent rfl rfl rfl .inl⟩

theorem done_keeps : Keeps history ({ op with driver := .done }, []) :=
  driver_keeps hBudget hReported rfl

theorem unchanged_keeps : Keeps history (op, []) :=
  ⟨hBudget, by simpa using hReported⟩

theorem nextEnter_keeps : Keeps history op.nextEnter := by
  unfold nextEnter
  split
  · refine ⟨hBudget.same ⟨rfl, rfl, rfl, rfl⟩, ?_⟩
    rw [List.append_nil]
    exact hReported.silent rfl rfl rfl (by simp)
  · exact ⟨hBudget, hReported.event ⟨rfl, rfl, rfl, rfl, rfl, rfl, by simp⟩⟩

end

theorem Budgeted.pop (h : Budgeted op) {part : P} {bytes : Nat} {rest : List (P × Nat)}
    (hHead : op.outputQueue = (part, bytes) :: rest) (reader : Reader) :
    Budgeted { op with outputQueue := rest, outputBytes := op.outputBytes - bytes, reader } := by
  have hBytes := h.bytes
  have hItems := h.itemLimit
  simp only [hHead, List.map_cons, List.sum_cons, List.length_cons] at hBytes hItems
  constructor
  case bytes => simp only; omega
  case sizes => exact fun entry hEntry => h.sizes entry (hHead ▸ List.mem_cons_of_mem _ hEntry)
  case itemLimit => simp only; omega
  case byteLimit => exact Nat.le_trans (Nat.sub_le ..) h.byteLimit
  case driver =>
    have hDriver := h.driver
    unfold DriverReady at hDriver ⊢
    cases hPhase : op.driver with
    | beforeSend part bytes => simpa [hPhase] using hDriver
    | sending part bytes =>
      simp only [hPhase, hHead, List.length_cons] at hDriver
      obtain ⟨hSize, hRoom, hFits⟩ := hDriver
      exact ⟨hSize, by simp only; omega, by simp only; omega⟩
    | _ => trivial

theorem Budgeted.abandon (h : Budgeted op) :
    Budgeted { op with consumerClosed := true, outputQueue := [], outputBytes := 0 } where
  bytes := rfl
  sizes := by simp
  itemLimit := Nat.zero_le _
  byteLimit := Nat.zero_le _
  driver := by
    have hDriver := h.driver
    unfold DriverReady at hDriver ⊢
    cases hPhase : op.driver with
    | beforeSend part bytes => simpa [hPhase] using hDriver
    | sending part bytes =>
      simp only [hPhase] at hDriver
      obtain ⟨hSize, hRoom, hFits⟩ := hDriver
      exact ⟨hSize, Nat.zero_lt_of_lt hRoom, by simp only; omega⟩
    | _ => trivial

theorem nextTurn_keeps (hBudget : Budgeted op) (hReported : Reported op history) :
    Keeps history op.nextTurn := by
  unfold nextTurn
  split
  · exact unchanged_keeps hBudget hReported
  · split
    · rename_i part bytes rest hHead
      have hBytes := hBudget.bytes
      simp only [hHead, List.map_cons, List.sum_cons] at hBytes
      have hSub : checkedSub op.outputBytes bytes = some (op.outputBytes - bytes) := if_pos (by omega)
      rw [hSub]
      exact ⟨hBudget.pop hHead .idle, hReported.deliver hHead rfl rfl rfl⟩
    · rename_i hEmpty
      split
      · rename_i terminal hSome
        split
        · rename_i error hOwed
          exact ⟨hBudget.same ⟨rfl, rfl, rfl, rfl⟩,
            hReported.reportError hSome hOwed hEmpty rfl rfl rfl (by simp)⟩
        · rename_i hOwed
          exact ⟨hBudget.same ⟨rfl, rfl, rfl, rfl⟩,
            hReported.reportEnded hSome hOwed hEmpty rfl rfl rfl (by simp)⟩
      · rename_i hNone
        exact ⟨hBudget.same ⟨rfl, rfl, rfl, rfl⟩,
          hReported.quiet ⟨rfl, rfl, rfl, rfl, rfl, rfl, by simp⟩ rfl rfl rfl fun _ => .inr hNone⟩

theorem nextTimeout_keeps (hBudget : Budgeted op) (hReported : Reported op history) :
    Keeps history op.nextTimeout := by
  unfold nextTimeout
  split
  · rename_i hWaiting
    exact ⟨hBudget.same ⟨rfl, rfl, rfl, rfl⟩, hReported.timeout hWaiting rfl rfl rfl⟩
  · exact unchanged_keeps hBudget hReported

theorem connected_keeps (hBudget : Budgeted op) (hReported : Reported op history)
    (result : Except AiMuxError Unit) : Keeps history (op.connected result) := by
  unfold connected
  split
  · exact driver_keeps hBudget hReported rfl
  · exact driver_keeps hBudget hReported rfl
  · exact unchanged_keeps hBudget hReported

theorem partSize_ok {part : P} {bytes : Nat} (h : op.partSize part = .ok bytes) :
    WirePart.wireBytes part = .ok bytes := by
  unfold partSize at h
  split at h
  · cases h
  · rename_i size hSize
    split at h
    · cases h
    · rw [hSize, h]

theorem streamNext_keeps (hBudget : Budgeted op) (hReported : Reported op history)
    (item : Option (Except AiMuxError P)) : Keeps history (op.streamNext item) := by
  unfold streamNext
  split
  · exact driver_keeps hBudget hReported rfl
  · exact driver_keeps hBudget hReported rfl
  · split
    · exact driver_keeps hBudget hReported rfl
    · rename_i bytes hSize
      refine ⟨⟨hBudget.bytes, hBudget.sizes, hBudget.itemLimit, hBudget.byteLimit, partSize_ok hSize⟩, ?_⟩
      rw [List.append_nil]
      exact hReported.silent rfl rfl rfl .inl
  · exact unchanged_keeps hBudget hReported

omit [WirePart P] in
theorem outputCapacity_room {bytes : Nat} (h : op.outputCapacity bytes = .room) :
    op.outputQueue.length < op.limits.outputItems ∧ op.outputBytes + bytes ≤ op.limits.outputBytes := by
  unfold outputCapacity at h
  split at h
  · cases h
  · split at h
    · cases h
    · rename_i count hCount
      split at h
      · rename_i hRoom
        obtain ⟨_, rfl⟩ : _ ∧ op.outputBytes + bytes = count := by simpa [checkedAdd] using hCount
        exact ⟨hRoom.1, hRoom.2.1⟩
      · cases h

theorem send_keeps (hBudget : Budgeted op) (hReported : Reported op history) {part : P} {bytes : Nat}
    (hPhase : op.driver = .sending part bytes) (hOpen : op.terminal = none) :
    Keeps history ({ op with
      outputBytes := op.outputBytes + bytes
      outputQueue := op.outputQueue ++ [(part, bytes)]
      driver := .beforePoll }, [.enqueued part]) := by
  have hDriver := hBudget.driver
  simp only [DriverReady, hPhase] at hDriver
  obtain ⟨hSize, hRoom, hFits⟩ := hDriver
  refine ⟨?_, hReported.enqueue hOpen rfl rfl rfl⟩
  constructor
  case bytes => simp [hBudget.bytes]
  case sizes =>
    intro entry hEntry
    rcases List.mem_append.mp hEntry with hOld | hNew
    · exact hBudget.sizes entry hOld
    · rw [List.mem_singleton.mp hNew]
      exact hSize
  case itemLimit =>
    simp only [List.length_append, List.length_singleton]
    omega
  case byteLimit => exact hFits
  case driver => trivial

theorem driverTurn_keeps (hBudget : Budgeted op) (hReported : Reported op history) :
    Keeps history op.driverTurn := by
  unfold driverTurn
  split
  · split
    · exact unchanged_keeps hBudget hReported
    · exact driver_keeps hBudget hReported rfl
    · exact driver_keeps hBudget hReported rfl
  · rename_i part bytes hPhase
    split
    · exact unchanged_keeps hBudget hReported
    · rename_i hRoom
      have hDriver := hBudget.driver
      simp only [DriverReady, hPhase] at hDriver
      refine ⟨⟨hBudget.bytes, hBudget.sizes, hBudget.itemLimit, hBudget.byteLimit,
        hDriver, outputCapacity_room hRoom⟩, ?_⟩
      rw [List.append_nil]
      exact hReported.silent rfl rfl rfl .inl
    · exact driver_keeps hBudget hReported rfl
  · rename_i part bytes hPhase
    split
    · exact driver_keeps hBudget hReported rfl
    · rename_i hOpen
      split
      · exact driver_keeps hBudget hReported rfl
      · rename_i total hTotal
        obtain ⟨_, rfl⟩ : _ ∧ op.outputBytes + bytes = total := by simpa [checkedAdd] using hTotal
        exact send_keeps hBudget hReported hPhase (by simpa using hOpen)
  · obtain ⟨hBudget', hReported'⟩ := done_keeps hBudget hReported
    exact finish_keeps hBudget' (by simpa using hReported') _ _
  all_goals exact unchanged_keeps hBudget hReported

theorem step_keeps (hBudget : Budgeted op) (hReported : Reported op history) (action : Action P) :
    Keeps history (step op action) := by
  cases action with
  | pushAdmit bytes => exact (pushAdmit_section op bytes).keeps hBudget hReported
  | pushTurn sequence => exact (pushTurn_section op sequence).keeps hBudget hReported
  | pushDrop sequence => exact (pushDrop_section op sequence).keeps hBudget hReported
  | tryPush bytes => exact (tryPush_section op bytes).keeps hBudget hReported
  | inputDone => exact (inputDone_section op).keeps hBudget hReported
  | audioPoll => exact (audioPoll_section op).keeps hBudget hReported
  | cancel => exact cancel_keeps hBudget hReported
  | nextEnter => exact nextEnter_keeps hBudget hReported
  | nextTurn => exact nextTurn_keeps hBudget hReported
  | nextTimeout => exact nextTimeout_keeps hBudget hReported
  | connected result => exact connected_keeps hBudget hReported result
  | streamNext item => exact streamNext_keeps hBudget hReported item
  | driverTurn => exact driverTurn_keeps hBudget hReported
  | driverAborted =>
    simp only [step, driverAborted]
    split
    · obtain ⟨hBudget', hReported'⟩ := done_keeps hBudget hReported
      exact cancel_keeps hBudget' (by simpa using hReported')
    · exact unchanged_keeps hBudget hReported
  | driverPanicked =>
    simp only [step, driverPanicked]
    split
    · exact unchanged_keeps hBudget hReported
    · exact driver_keeps hBudget hReported rfl
  | abandonOutput =>
    simp only [step, abandonOutput]
    split
    · rename_i hSome
      exact ⟨hBudget.abandon, by simpa using hReported.abandon hSome⟩
    · exact unchanged_keeps hBudget hReported

theorem Budgeted.initial (limits : OperationLimits) : Budgeted ({ limits } : Operation P) where
  bytes := rfl
  sizes := by simp
  itemLimit := Nat.zero_le _
  byteLimit := Nat.zero_le _
  driver := trivial

omit [WirePart P] in
theorem Reported.initial (limits : OperationLimits) : Reported ({ limits } : Operation P) [] where
  noUnderflow := by simp
  first := rfl
  order := List.prefix_rfl
  queued := fun _ => rfl
  errors := rfl
  settled := by simp
  abandoned := by simp
  final := by
    intro before event after hSplit
    simp at hSplit
  frozen := by
    intro before summary after hSplit
    simp at hSplit

theorem step_limits (op : Operation P) (action : Action P) : (step op action).1.limits = op.limits := by
  cases action with
  | pushAdmit bytes => exact (pushAdmit_section op bytes).same.limits
  | pushTurn sequence => exact (pushTurn_section op sequence).same.limits
  | pushDrop sequence => exact (pushDrop_section op sequence).same.limits
  | tryPush bytes => exact (tryPush_section op bytes).same.limits
  | inputDone => exact (inputDone_section op).same.limits
  | audioPoll => exact (audioPoll_section op).same.limits
  | cancel => exact (sameOutput_writeTerminal op _ _).limits
  | driverTurn =>
    simp only [step, driverTurn, failDriver, finish, writeTerminal]
    repeat' split
    all_goals rfl
  | driverAborted =>
    simp only [step, driverAborted, cancel, writeTerminal]
    repeat' split
    all_goals rfl
  | _ =>
    simp only [step, nextEnter, nextTurn, nextTimeout, connected, streamNext, driverPanicked, failDriver,
      abandonOutput]
    repeat' split
    all_goals rfl

def storedError (op : Operation P) : List OpsError :=
  (op.terminal.bind fun terminal => terminal.summary.error).toList

omit [WirePart P] in
theorem Reported.errors_prefix (h : Reported op history) : reported history <+: op.storedError := by
  have hErrors := h.errors
  unfold ErrorOwed at hErrors
  split at hErrors
  · rw [hErrors]
    exact List.nil_prefix
  · rename_i terminal hSome
    rcases hErrors with ⟨_, hNone⟩ | ⟨_, hAll⟩
    · rw [hNone]
      exact List.nil_prefix
    · simp [storedError, hSome, hAll]

omit [WirePart P] in
theorem Reported.errors_of_report (h : Reported op history) (hReport : history.any isReport = true) :
    reported history = op.storedError := by
  obtain ⟨⟨terminal, hSome, hTaken⟩, _⟩ := h.settled hReport
  have hErrors := h.errors
  rw [hSome] at hErrors
  rcases hErrors with ⟨hSummary, hNone⟩ | ⟨_, hAll⟩
  · simp [storedError, hSome, hNone, ← hSummary, hTaken]
  · simp [storedError, hSome, hAll]

omit [WirePart P] in
theorem delivered_eq_nil_of_results {events : List (Event P)}
    (h : ∀ later ∈ events, isResult later = true → later = .ended) : delivered events = [] := by
  refine List.filterMap_eq_nil_iff.mpr ?_
  intro event hEvent
  cases event with
  | delivered part => cases h _ hEvent rfl
  | _ => rfl

/-- Along every schedule of one operation. The first outcome offered to the terminal slot is the one
stored. Parts are delivered once and in the order they were enqueued; none is enqueued after an outcome
was offered. When the terminal is reported, every part ever enqueued was delivered before, unless the
consumer abandoned its output; by then its error was reported, once, and every later `next` that gets
the reader lock reports the end. A timed-out `next` leaves queue and terminal as they are. The
accounted bytes are the sizes of the queued parts, within the limits. -/
theorem run_delivers_and_terminates (limits : OperationLimits) (schedule : List (Action P)) :
    let (op, history) := Lib.Transducer.run step ({ limits } : Operation P) schedule
    op.terminal.map (·.summary) = (offered history).head? ∧
    (op.consumerClosed = false → enqueued history = delivered history ++ op.outputQueue.map (·.1)) ∧
    (∀ before summary after, history = before ++ .terminated summary :: after → enqueued after = []) ∧
    (∀ before event after, history = before ++ event :: after → isReport event = true →
      (op.consumerClosed = false → enqueued history = delivered before) ∧
      (∀ later ∈ after, isResult later = true → later = .ended) ∧
      reported history = op.storedError) ∧
    reported history <+: op.storedError ∧
    (step op .nextTimeout).1.outputQueue = op.outputQueue ∧
    (step op .nextTimeout).1.terminal = op.terminal ∧
    .outputUnderflow ∉ history ∧
    op.outputBytes = (op.outputQueue.map (·.2)).sum ∧
    (∀ entry ∈ op.outputQueue, WirePart.wireBytes entry.1 = .ok entry.2) ∧
    op.outputQueue.length ≤ limits.outputItems ∧
    op.outputBytes ≤ limits.outputBytes := by
  have hRun := Lib.Transducer.run_invariant (fun op history => Budgeted op ∧ Reported op history)
    (fun _ _ action h => step_keeps h.1 h.2 action) ⟨.initial limits, .initial limits⟩ schedule
  have hLimits := Lib.Transducer.run_state_invariant (s := ({ limits } : Operation P))
    (fun op => op.limits = limits) (fun op action h => (step_limits op action).trans h) rfl schedule
  generalize Lib.Transducer.run step ({ limits } : Operation P) schedule = final at hRun hLimits ⊢
  obtain ⟨op, history⟩ := final
  obtain ⟨hBudget, hReported⟩ := hRun
  have hTimeout : (step op .nextTimeout).1.outputQueue = op.outputQueue ∧
      (step op .nextTimeout).1.terminal = op.terminal := by
    simp only [step, nextTimeout]
    split <;> exact ⟨rfl, rfl⟩
  refine ⟨hReported.first, hReported.queued, hReported.frozen, ?_, hReported.errors_prefix, hTimeout.1,
    hTimeout.2, hReported.noUnderflow, hBudget.bytes, hBudget.sizes, hLimits ▸ hBudget.itemLimit,
    hLimits ▸ hBudget.byteLimit⟩
  intro before event after hSplit hReport
  have hFinal := hReported.final before event after hSplit hReport
  have hAny : history.any isReport = true := by simp [hSplit, hReport]
  refine ⟨?_, hFinal, hReported.errors_of_report hAny⟩
  intro hOpen
  have hEvent : delivered [event] = [] := by cases event <;> first | rfl | cases hReport
  have hHistory : delivered history = delivered before ++ (delivered [event] ++ delivered after) := by
    rw [hSplit, ← delivered_append, ← delivered_append, List.singleton_append]
  rw [hReported.queued hOpen, (hReported.settled hAny).2.1, hHistory, hEvent,
    delivered_eq_nil_of_results hFinal]
  simp

end

end Aimux.Ops.Operation
