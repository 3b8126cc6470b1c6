import Aimux.Ops.BoundedQueue

/-! # Accounting and delivery of the bounded queue

The invariant ties the two counters to the queued items and the permits in existence, and the events
so far to the queue's contents. Every critical section keeps it, so it holds after every schedule.
-/

namespace Aimux.Ops.BoundedQueue

open Aimux.Core

variable {T E : Type}

/-! ## Histories -/

def sentItem : Event T E → Option T
  | .sent item => some item
  | _ => none

def receivedItem : Event T E → Option T
  | .data item => some item
  | _ => none

def deliveredTerminal : Event T E → Option E
  | .terminal terminal => some terminal
  | _ => none

def sent (history : List (Event T E)) : List T := history.filterMap sentItem

def received (history : List (Event T E)) : List T := history.filterMap receivedItem

def terminals (history : List (Event T E)) : List E := history.filterMap deliveredTerminal

@[simp] theorem sent_append (a b : List (Event T E)) : sent (a ++ b) = sent a ++ sent b :=
  List.filterMap_append ..

@[simp] theorem received_append (a b : List (Event T E)) :
    received (a ++ b) = received a ++ received b := List.filterMap_append ..

@[simp] theorem terminals_append (a b : List (Event T E)) :
    terminals (a ++ b) = terminals a ++ terminals b := List.filterMap_append ..

/-- A terminal is delivered after every item that is ever accepted. -/
def Drained (history : List (Event T E)) : Prop :=
  ∀ before terminal after, history = before ++ Event.terminal terminal :: after → sent history = received before

variable {history : List (Event T E)}

theorem Drained.concat {event : Event T E} (h : Drained history)
    (hSent : sent [event] = []) (hTerminal : ∀ t, event = .terminal t → sent history = received history) :
    Drained (history ++ [event]) := by
  intro before terminal after hSplit
  rw [sent_append, hSent, List.append_nil]
  rcases Lib.split_concat hSplit with ⟨rfl, rfl, hEvent⟩ | ⟨rest, rfl, rfl⟩
  · exact hTerminal terminal hEvent.symm
  · exact h before terminal rest rfl

theorem drained_of_no_terminal (h : terminals history = []) :
    Drained history := by
  intro before terminal after hSplit
  simp [hSplit, terminals, deliveredTerminal] at h

/-- The counters are the items and bytes of the queue and of the permits in existence. -/
structure Accounted [QueueItem T] (queue : BoundedQueue T E) : Prop where
  items : queue.usedItems = queue.data.length + queue.permits.length
  bytes : queue.usedBytes = (queue.data.map (·.2)).sum + (queue.permits.map (·.bytes)).sum
  sizes : ∀ entry ∈ queue.data, entry.2 = QueueItem.byteLen entry.1
  itemLimit : queue.usedItems ≤ queue.limits.maxItems
  byteLimit : queue.usedBytes ≤ queue.limits.maxBytes

/-- The history and the contents of the queue agree. -/
structure Delivers (queue : BoundedQueue T E) (history : List (Event T E)) : Prop where
  noUnderflow : .underflow ∉ history
  order : received history <+: sent history
  queued : queue.consumerClosed = false → sent history = received history ++ queue.data.map (·.1)
  undelivered : queue.terminal ≠ .delivered → terminals history = []
  delivered : queue.terminal = .delivered → (terminals history).length = 1 ∧
    queue.consumerClosed = false ∧ queue.data = []
  drained : Drained history

def Quiet (event : Event T E) : Prop :=
  sent [event] = [] ∧ received [event] = [] ∧ terminals [event] = [] ∧ event ≠ .underflow

variable {queue queue' : BoundedQueue T E}

theorem Delivers.quiet (h : Delivers queue history) {event : Event T E} (quiet : Quiet event)
    (hData : queue'.data = queue.data) (hTerminal : queue'.terminal = queue.terminal)
    (hClosed : queue'.consumerClosed = queue.consumerClosed) : Delivers queue' (history ++ [event]) := by
  obtain ⟨hSent, hReceived, hTerminals, hUnderflow⟩ := quiet
  constructor
  case noUnderflow => simp [h.noUnderflow, hUnderflow.symm]
  case order => simpa [hSent, hReceived] using h.order
  case queued => simpa [hSent, hReceived, hData, hClosed] using h.queued
  case undelivered => simpa [hTerminals, hTerminal] using h.undelivered
  case delivered => simpa [hTerminals, hTerminal, hData, hClosed] using h.delivered
  case drained =>
    refine h.drained.concat hSent ?_
    rintro t rfl
    simp [terminals, deliveredTerminal] at hTerminals

theorem Delivers.initial (limits : QueueLimits) : Delivers ({ limits } : BoundedQueue T E) [] where
  noUnderflow := by simp
  order := List.prefix_rfl
  queued := fun _ => rfl
  undelivered := fun _ => rfl
  delivered := by simp
  drained := drained_of_no_terminal rfl

theorem Delivers.settle (h : Delivers queue history) {event : Event T E} (quiet : Quiet event)
    (hBefore : queue.terminal ≠ .delivered) (hAfter : queue'.terminal ≠ .delivered)
    (hQueued : queue'.consumerClosed = false → queue.consumerClosed = false ∧ queue'.data = queue.data) :
    Delivers queue' (history ++ [event]) := by
  obtain ⟨hSent, hReceived, hTerminals, hUnderflow⟩ := quiet
  have hNone : terminals (history ++ [event]) = [] := by simp [h.undelivered hBefore, hTerminals]
  constructor
  case noUnderflow => simp [h.noUnderflow, hUnderflow.symm]
  case order => simpa [hSent, hReceived] using h.order
  case queued =>
    intro hOpen
    obtain ⟨hWasOpen, hData⟩ := hQueued hOpen
    simp [hSent, hReceived, hData, h.queued hWasOpen]
  case undelivered => exact fun _ => hNone
  case delivered => exact fun hDelivered => absurd hDelivered hAfter
  case drained => exact drained_of_no_terminal hNone

section

variable (h : Delivers queue history) (hOpen : queue.consumerClosed = false)

include h hOpen

theorem Delivers.send {item : T} {bytes : Nat} (hUnfinished : queue.terminal = .open)
    (hData : queue'.data = queue.data ++ [(item, bytes)]) (hTerminal : queue'.terminal = queue.terminal) :
    Delivers queue' (history ++ [Event.sent item]) := by
  have hSent : sent [(.sent item : Event T E)] = [item] := rfl
  have hReceived : received [(.sent item : Event T E)] = [] := rfl
  have hNone : terminals (history ++ [Event.sent item]) = [] := by
    rw [terminals_append, h.undelivered (by simp [hUnfinished])]
    rfl
  constructor
  case noUnderflow => simp [h.noUnderflow]
  case order =>
    rw [sent_append, received_append, hReceived, List.append_nil]
    exact h.order.trans (List.prefix_append ..)
  case queued =>
    intro _
    simp [hSent, hReceived, hData, h.queued hOpen]
  case undelivered => exact fun _ => hNone
  case delivered => simp [hTerminal, hUnfinished]
  case drained => exact drained_of_no_terminal hNone

theorem Delivers.receive {item : T} {bytes : Nat} {rest : List (T × Nat)} (hData : queue.data = (item, bytes) :: rest)
    (hRest : queue'.data = rest) (hTerminal : queue'.terminal = queue.terminal) :
    Delivers queue' (history ++ [Event.data item]) := by
  have hSent : sent [(.data item : Event T E)] = [] := rfl
  have hReceived : received [(.data item : Event T E)] = [item] := rfl
  have hTerminals : terminals [(.data item : Event T E)] = [] := rfl
  have hQueued : sent (history ++ [Event.data item]) =
      received (history ++ [Event.data item]) ++ queue'.data.map (·.1) := by
    simp [hSent, hReceived, h.queued hOpen, hData, hRest]
  constructor
  case noUnderflow => simp [h.noUnderflow]
  case order => exact ⟨_, hQueued.symm⟩
  case queued => exact fun _ => hQueued
  case undelivered => simpa [hTerminals, hTerminal] using h.undelivered
  case delivered =>
    intro hDelivered
    have hEmpty := (h.delivered (hTerminal ▸ hDelivered)).2.2
    rw [hEmpty] at hData
    cases hData
  case drained => exact h.drained.concat hSent (by simp)

theorem Delivers.deliverTerminal {terminal : E} (hEmpty : queue.data = []) (hReady : queue.terminal = .ready terminal)
    (hData : queue'.data = queue.data) (hTerminal : queue'.terminal = .delivered)
    (hClosed : queue'.consumerClosed = queue.consumerClosed) :
    Delivers queue' (history ++ [Event.terminal terminal]) := by
  have hSent : sent [(.terminal terminal : Event T E)] = [] := rfl
  have hReceived : received [(.terminal terminal : Event T E)] = [] := rfl
  have hTerminals : terminals [(.terminal terminal : Event T E)] = [terminal] := rfl
  have hAll : sent history = received history := by simpa [hEmpty] using h.queued hOpen
  constructor
  case noUnderflow => simp [h.noUnderflow]
  case order => simp [hSent, hReceived, hAll]
  case queued => simp [hSent, hReceived, hAll, hData, hEmpty]
  case undelivered => simp [hTerminal]
  case delivered =>
    intro _
    have hNone := h.undelivered (by simp [hReady])
    exact ⟨by simp [hTerminals, hNone], hClosed.trans hOpen, hData.trans hEmpty⟩
  case drained => exact h.drained.concat hSent fun _ _ => hAll

end

theorem checkedSub_of_le {a b : Nat} (h : b ≤ a) : checkedSub a b = some (a - b) := if_pos h

theorem ensureOpen_ok {queue : BoundedQueue T E} (h : queue.ensureOpen = .ok ()) :
    queue.consumerClosed = false ∧ queue.terminal = .open := by
  unfold ensureOpen at h
  split at h
  · cases h
  · rename_i hClosed
    split at h
    · rename_i hOpen
      exact ⟨by simpa using hClosed, hOpen⟩
    · cases h

theorem eraseP_permit {permits : List QueuePermit} {predicate : QueuePermit → Bool} {held : QueuePermit}
    (found : permits.find? predicate = some held) :
    permits.length = (permits.eraseP predicate).length + 1 ∧
      (permits.map (·.bytes)).sum = ((permits.eraseP predicate).map (·.bytes)).sum + held.bytes := by
  obtain ⟨hHeld, before, after, rfl, hBefore⟩ := List.find?_eq_some_iff_append.mp found
  have hErase : (before ++ held :: after).eraseP predicate = before ++ after := by
    rw [List.eraseP_append_right _ (by simpa using hBefore), List.eraseP_cons_of_pos hHeld]
  rw [hErase]
  simp only [List.length_append, List.length_cons, List.map_append, List.map_cons, List.sum_append,
    List.sum_cons]
  omega

/-! ## One critical section -/

section

variable [QueueItem T] {queue : BoundedQueue T E} {history : List (Event T E)}

section

variable (hCount : Accounted queue)

include hCount

theorem reserve_keeps (hDeliver : Delivers queue history) (bytes : Nat) (aborted : Bool) :
    Accounted (queue.reserve bytes aborted).1 ∧
      Delivers (queue.reserve bytes aborted).1 (history ++ (queue.reserve bytes aborted).2) := by
  unfold reserve
  split
  · exact ⟨hCount, hDeliver.quiet ⟨rfl, rfl, rfl, by simp⟩ rfl rfl rfl⟩
  · split
    · exact ⟨hCount, hDeliver.quiet ⟨rfl, rfl, rfl, by simp⟩ rfl rfl rfl⟩
    · split
      · exact ⟨hCount, hDeliver.quiet ⟨rfl, rfl, rfl, by simp⟩ rfl rfl rfl⟩
      · split
        · rename_i hRoom
          rw [checkedSub_of_le hCount.byteLimit]
          simp only
          split
          · rename_i hBytes
            refine ⟨?_, hDeliver.quiet ⟨rfl, rfl, rfl, by simp⟩ rfl rfl rfl⟩
            constructor
            case items => simp [hCount.items, Nat.add_assoc]
            case bytes => simp [hCount.bytes, Nat.add_assoc]
            case sizes => exact hCount.sizes
            case itemLimit => exact hRoom
            case byteLimit =>
              have hLimit := hCount.byteLimit
              simp only
              omega
          · exact ⟨hCount, hDeliver.quiet ⟨rfl, rfl, rfl, by simp⟩ rfl rfl rfl⟩
        · exact ⟨hCount, hDeliver.quiet ⟨rfl, rfl, rfl, by simp⟩ rfl rfl rfl⟩

theorem consume_accounted (permit : Nat) : Accounted (queue.consume permit) := by
  have hBytes : (queue.consume permit).permits.map (·.bytes) = queue.permits.map (·.bytes) := by
    simp only [consume, List.map_map]
    refine List.map_congr_left ?_
    intro p _
    by_cases hp : p.id = permit <;> simp [hp]
  constructor
  case items => simpa [consume] using hCount.items
  case bytes => rw [hBytes]; exact hCount.bytes
  case sizes => exact hCount.sizes
  case itemLimit => exact hCount.itemLimit
  case byteLimit => exact hCount.byteLimit

theorem send_keeps (hDeliver : Delivers queue history) (permit : Nat) (item : T) :
    Accounted (queue.send permit item).1 ∧
      Delivers (queue.send permit item).1 (history ++ (queue.send permit item).2) := by
  unfold send
  split
  · exact ⟨hCount, hDeliver.quiet ⟨rfl, rfl, rfl, by simp⟩ rfl rfl rfl⟩
  · rename_i held hFound
    simp only
    split
    · exact ⟨consume_accounted hCount permit, hDeliver.quiet ⟨rfl, rfl, rfl, by simp⟩ rfl rfl rfl⟩
    · rename_i hFits
      split
      · exact ⟨consume_accounted hCount permit, hDeliver.quiet ⟨rfl, rfl, rfl, by simp⟩ rfl rfl rfl⟩
      · rename_i hOpen
        obtain ⟨hNotClosed, hTerminal⟩ := ensureOpen_ok hOpen
        obtain ⟨hLength, hSum⟩ := eraseP_permit hFound
        have hBytes := hCount.bytes
        rw [checkedSub_of_le (by omega)]
        refine ⟨?_, ?_⟩
        · constructor
          case items =>
            have hItems := hCount.items
            simp only [List.length_append, List.length_singleton]
            omega
          case bytes =>
            simp only [List.map_append, List.sum_append, List.map_cons, List.map_nil, List.sum_cons,
              List.sum_nil]
            omega
          case sizes =>
            intro entry hEntry
            rcases List.mem_append.mp hEntry with hOld | hNew
            · exact hCount.sizes entry hOld
            · rw [List.mem_singleton.mp hNew]
          case itemLimit => exact hCount.itemLimit
          case byteLimit => exact Nat.le_trans (Nat.sub_le ..) hCount.byteLimit
        · exact hDeliver.send hNotClosed hTerminal rfl rfl

theorem dropPermit_keeps (hDeliver : Delivers queue history) (permit : Nat) :
    Accounted (queue.dropPermit permit).1 ∧
      Delivers (queue.dropPermit permit).1 (history ++ (queue.dropPermit permit).2) := by
  unfold dropPermit
  split
  · exact ⟨hCount, hDeliver.quiet ⟨rfl, rfl, rfl, by simp⟩ rfl rfl rfl⟩
  · rename_i held hFound
    obtain ⟨hLength, hSum⟩ := eraseP_permit hFound
    have hItems := hCount.items
    have hBytes := hCount.bytes
    rw [checkedSub_of_le (by omega), checkedSub_of_le (by omega)]
    refine ⟨?_, hDeliver.quiet ⟨rfl, rfl, rfl, by simp⟩ rfl rfl rfl⟩
    constructor
    case items => simp only; omega
    case bytes => simp only; omega
    case sizes => exact hCount.sizes
    case itemLimit => exact Nat.le_trans (Nat.sub_le ..) hCount.itemLimit
    case byteLimit => exact Nat.le_trans (Nat.sub_le ..) hCount.byteLimit

theorem recv_keeps (hDeliver : Delivers queue history) :
    Accounted queue.recv.1 ∧ Delivers queue.recv.1 (history ++ queue.recv.2) := by
  unfold recv
  split
  · exact ⟨hCount, hDeliver.quiet ⟨rfl, rfl, rfl, by simp⟩ rfl rfl rfl⟩
  · rename_i hOpen
    have hOpen : queue.consumerClosed = false := by simpa using hOpen
    split
    · rename_i item bytes rest hData
      have hItems := hCount.items
      have hBytes := hCount.bytes
      simp only [hData, List.length_cons, List.map_cons, List.sum_cons] at hItems hBytes
      rw [checkedSub_of_le (by omega), checkedSub_of_le (by omega)]
      refine ⟨?_, hDeliver.receive hOpen hData rfl rfl⟩
      constructor
      case items => simp only; omega
      case bytes => simp only; omega
      case sizes => exact fun entry hEntry => hCount.sizes entry (hData ▸ List.mem_cons_of_mem _ hEntry)
      case itemLimit => exact Nat.le_trans (Nat.sub_le ..) hCount.itemLimit
      case byteLimit => exact Nat.le_trans (Nat.sub_le ..) hCount.byteLimit
    · rename_i hEmpty
      split
      · rename_i terminal hReady
        refine ⟨?_, hDeliver.deliverTerminal hOpen hEmpty hReady rfl rfl rfl⟩
        exact ⟨hCount.items, hCount.bytes, hCount.sizes, hCount.itemLimit, hCount.byteLimit⟩
      · exact ⟨hCount, hDeliver.quiet ⟨rfl, rfl, rfl, by simp⟩ rfl rfl rfl⟩
      · exact ⟨hCount, hDeliver.quiet ⟨rfl, rfl, rfl, by simp⟩ rfl rfl rfl⟩

theorem close_keeps (hDeliver : Delivers queue history) :
    Accounted queue.close.1 ∧ Delivers queue.close.1 (history ++ queue.close.2) := by
  unfold close
  split
  · exact ⟨hCount, hDeliver.quiet ⟨rfl, rfl, rfl, by simp⟩ rfl rfl rfl⟩
  · exact ⟨hCount, hDeliver.quiet ⟨rfl, rfl, rfl, by simp⟩ rfl rfl rfl⟩
  · rename_i hNotDelivered
    have hItems := hCount.items
    have hBytes := hCount.bytes
    rw [checkedSub_of_le (by omega), checkedSub_of_le (by omega)]
    refine ⟨?_, hDeliver.settle ⟨rfl, rfl, rfl, by simp⟩ hNotDelivered hNotDelivered (by simp)⟩
    constructor
    case items => simp only [List.length_nil]; omega
    case bytes => simp only [List.map_nil, List.sum_nil]; omega
    case sizes => simp
    case itemLimit => exact Nat.le_trans (Nat.sub_le ..) hCount.itemLimit
    case byteLimit => exact Nat.le_trans (Nat.sub_le ..) hCount.byteLimit

theorem finish_keeps (hDeliver : Delivers queue history) (terminal : E) :
    Accounted (queue.finish terminal).1 ∧
      Delivers (queue.finish terminal).1 (history ++ (queue.finish terminal).2) := by
  unfold finish
  split
  · rename_i hOpen hUnfinished
    refine ⟨⟨hCount.items, hCount.bytes, hCount.sizes, hCount.itemLimit, hCount.byteLimit⟩, ?_⟩
    exact hDeliver.settle ⟨rfl, rfl, rfl, by simp⟩ (by simp [hUnfinished]) (by simp) fun _ => ⟨hOpen, rfl⟩
  · exact ⟨hCount, hDeliver.quiet ⟨rfl, rfl, rfl, by simp⟩ rfl rfl rfl⟩

theorem step_keeps (hDeliver : Delivers queue history) (action : Action T E) :
    Accounted (step queue action).1 ∧ Delivers (step queue action).1 (history ++ (step queue action).2) := by
  cases action with
  | reserve bytes aborted => exact reserve_keeps hCount hDeliver bytes aborted
  | send permit item => exact send_keeps hCount hDeliver permit item
  | dropPermit permit => exact dropPermit_keeps hCount hDeliver permit
  | recv => exact recv_keeps hCount hDeliver
  | close => exact close_keeps hCount hDeliver
  | finish terminal => exact finish_keeps hCount hDeliver terminal

end

theorem Accounted.initial (limits : QueueLimits) : Accounted ({ limits } : BoundedQueue T E) where
  items := rfl
  bytes := rfl
  sizes := by simp
  itemLimit := Nat.zero_le _
  byteLimit := Nat.zero_le _

theorem step_limits (queue : BoundedQueue T E) (action : Action T E) : (step queue action).1.limits = queue.limits := by
  cases action
  all_goals
    simp only [step, reserve, send, dropPermit, recv, close, finish]
    repeat' split
    all_goals rfl

/-- After every schedule: the counters are exact and within the limits and no subtraction wrapped;
the consumer got an initial part of the accepted items, all but the queued ones unless it closed the
queue; the terminal was delivered at most once, and after every item that was ever accepted. -/
theorem run_accounts_and_delivers (limits : QueueLimits) (schedule : List (Action T E)) :
    let (queue, history) := Lib.Transducer.run step ({ limits } : BoundedQueue T E) schedule
    queue.usedItems = queue.data.length + queue.permits.length ∧
    queue.usedBytes = (queue.data.map fun entry => QueueItem.byteLen entry.1).sum +
      (queue.permits.map (·.bytes)).sum ∧
    queue.usedItems ≤ limits.maxItems ∧
    queue.usedBytes ≤ limits.maxBytes ∧
    .underflow ∉ history ∧
    received history <+: sent history ∧
    (queue.consumerClosed = false → sent history = received history ++ queue.data.map (·.1)) ∧
    (terminals history).length ≤ 1 ∧
    ∀ before terminal after, history = before ++ .terminal terminal :: after →
      sent history = received before := by
  have hRun := Lib.Transducer.run_invariant
    (fun queue history => Accounted queue ∧ Delivers queue history)
    (fun _ _ action h => step_keeps h.1 h.2 action)
    ⟨.initial limits, .initial limits⟩ schedule
  have hLimits := Lib.Transducer.run_state_invariant (s := ({ limits } : BoundedQueue T E))
    (fun queue => queue.limits = limits) (fun queue action h => (step_limits queue action).trans h) rfl schedule
  generalize Lib.Transducer.run step ({ limits } : BoundedQueue T E) schedule = final at hRun hLimits ⊢
  obtain ⟨queue, history⟩ := final
  obtain ⟨hCount, hDeliver⟩ := hRun
  have hSizes : queue.data.map (·.2) = queue.data.map fun entry => QueueItem.byteLen entry.1 :=
    List.map_congr_left hCount.sizes
  have hOnce : (terminals history).length ≤ 1 := by
    by_cases hDelivered : queue.terminal = .delivered
    · exact Nat.le_of_eq (hDeliver.delivered hDelivered).1
    · simp [hDeliver.undelivered hDelivered]
  exact ⟨hCount.items, hSizes ▸ hCount.bytes, hLimits ▸ hCount.itemLimit, hLimits ▸ hCount.byteLimit,
    hDeliver.noUnderflow, hDeliver.order, hDeliver.queued, hOnce, hDeliver.drained⟩

end

end Aimux.Ops.BoundedQueue
