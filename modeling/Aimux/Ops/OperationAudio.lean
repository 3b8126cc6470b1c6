import Aimux.Ops.OperationInput

/-! # The audio stream of an operation

What the audio stream yields, along any schedule of producers, driver and cancellation: the chunks of
the admitted pushes that got in, in admission order. A terminal outcome cuts the stream short.
-/

namespace Aimux.Ops.Operation

open Aimux.Core

variable {P : Type} {op : Operation P} {history : List (Event P)}

def Feeds (history : List (Event P)) (result : Operation P × List (Event P)) : Prop :=
  Ticketed result.1 ∧ Fed result.1 (history ++ result.2)

/-! ## One critical section -/

structure OutputSection (op : Operation P) (result : Operation P × List (Event P)) : Prop where
  same : SameInput op result.1
  terminal : result.1.terminal = none → op.terminal = none
  unheard : ∀ event ∈ result.2, Unheard event

theorem section_feeds (hTickets : Ticketed op) (hFed : Fed op history)
    {result : Operation P × List (Event P)} (hSection : OutputSection op result) : Feeds history result :=
  ⟨hTickets.same hSection.same, (hFed.silent hSection.same.admission hSection.same.send hSection.same.pushes
    fun hNone => ⟨hSection.terminal hNone, hSection.same.queue⟩).events hSection.unheard⟩

theorem unheard_of_mem_singleton {event : Event P} (h : Unheard event) : ∀ e ∈ [event], Unheard e := by
  intro e he
  rw [List.mem_singleton.mp he]
  exact h

theorem unchanged_feeds (hTickets : Ticketed op) (hFed : Fed op history) {event : Event P}
    (unheard : Unheard event) : Feeds history (op, [event]) :=
  ⟨hTickets, hFed.event unheard⟩

theorem nothing_feeds (hTickets : Ticketed op) (hFed : Fed op history) : Feeds history (op, []) :=
  ⟨hTickets, by simpa using hFed⟩

theorem checkInputLength_ok {length : Nat} (h : op.checkInputLength length = .ok ()) :
    length ≤ op.limits.itemBytes ∧ length ≤ op.limits.inputBytes := by
  unfold checkInputLength at h
  split at h
  · cases h
  · omega

theorem inputClosed_eq_false (h : ¬op.inputClosed = true) : op.input = .open ∧ op.terminal = none := by
  simp only [inputClosed, Bool.or_eq_true, decide_eq_true_eq, not_or, not_not] at h
  exact ⟨h.1, by simpa using h.2⟩

theorem checkedAdd_eq_some {a b total : Nat} (h : checkedAdd a b = some total) :
    a + b < 2 ^ 64 ∧ total = a + b := by
  unfold checkedAdd at h
  split at h
  · rename_i hFits
    exact ⟨hFits, (Option.some.inj h).symm⟩
  · cases h

theorem pushAdmit_feeds (hTickets : Ticketed op) (hFed : Fed op history) (bytes : List UInt8) :
    Feeds history (op.pushAdmit bytes) := by
  unfold pushAdmit
  split
  · exact unchanged_feeds hTickets hFed ⟨rfl, rfl, rfl, rfl, rfl, rfl, by simp⟩
  · rename_i hLength
    split
    · exact unchanged_feeds hTickets hFed ⟨rfl, rfl, rfl, rfl, rfl, rfl, by simp⟩
    · rename_i hOpen
      split
      · exact unchanged_feeds hTickets hFed ⟨rfl, rfl, rfl, rfl, rfl, rfl, by simp⟩
      · rename_i next hNext
        obtain ⟨hFits, rfl⟩ := checkedAdd_eq_some hNext
        exact ⟨hTickets.issue hFits (inputClosed_eq_false hOpen).1 (checkInputLength_ok hLength).1,
          hFed.issue bytes⟩

theorem waitingPush_eq_some {sequence : Nat} {push : Push} (h : op.waitingPush sequence = some push) :
    push ∈ op.pushes ∧ push.sequence = sequence ∧ push.phase = .waiting := by
  have hFound := List.find?_some h
  simp only [Bool.and_eq_true, beq_iff_eq] at hFound
  refine ⟨List.mem_of_find?_eq_some h, hFound.1, ?_⟩
  cases hPhase : push.phase with
  | waiting => rfl
  | _ => simp [hPhase] at hFound

section

variable (hTickets : Ticketed op) (hFed : Fed op history)

include hTickets hFed

theorem pushTurn_feeds (sequence : Nat) : Feeds history (op.pushTurn sequence) := by
  unfold pushTurn
  split
  · exact nothing_feeds hTickets hFed
  · rename_i push hPush
    obtain ⟨hMem, rfl, hWaiting⟩ := waitingPush_eq_some hPush
    have hFits := hTickets.fits push hMem
    have hBudget := hTickets.budget
    split
    · rename_i hSome
      refine ⟨hTickets.setPhase (by simp), Fed.event ?_ ⟨rfl, rfl, rfl, rfl, rfl, rfl, by simp⟩⟩
      exact hFed.fail hTickets hMem hWaiting (by simpa using Option.isSome_iff_ne_none.mp hSome) _
    · rename_i hOpen
      have hNone : op.terminal = none := by simpa using hOpen
      split
      · -- within the limits the count cannot overflow
        rename_i hOverflow
        obtain ⟨_, hInputLimit, _, _, hItemLimit⟩ := op.limits.bounded
        have hTotal : op.inputBytes + push.bytes.length < 2 ^ 64 := by
          simp only [QUEUE_BYTES, ITEM_BYTES] at hInputLimit hItemLimit
          omega
        rw [checkedAdd, if_pos hTotal] at hOverflow
        cases hOverflow
      · rename_i total hTotal
        obtain ⟨_, rfl⟩ := checkedAdd_eq_some hTotal
        split
        · rename_i hTurn
          have hSent : Ticketed (op.setPhase push.sequence .sent) := hTickets.setPhase fun _ => hTurn.1.symm
          exact ⟨hSent.enqueue hTurn.2.2, hFed.accept hTickets hMem hWaiting hTurn.1 hNone _⟩
        · exact unchanged_feeds hTickets hFed ⟨rfl, rfl, rfl, rfl, rfl, rfl, by simp⟩

theorem pushDrop_feeds (sequence : Nat) : Feeds history (op.pushDrop sequence) := by
  unfold pushDrop
  split
  · exact nothing_feeds hTickets hFed
  · rename_i push hPush
    have hMem := List.mem_of_find?_eq_some hPush
    obtain rfl : push.sequence = sequence := by simpa using List.find?_some hPush
    have hReleased := hTickets.release (List.mem_map_of_mem hMem)
    exact ⟨hReleased.ticketed, hFed.release hTickets hMem hReleased rfl
      (mem_eraseP_sequence hTickets.distinct push.sequence) rfl rfl⟩

theorem tryPush_feeds (bytes : List UInt8) : Feeds history (op.tryPush bytes) := by
  unfold Operation.tryPush
  split
  · exact unchanged_feeds hTickets hFed ⟨rfl, rfl, rfl, rfl, rfl, rfl, by simp⟩
  · split
    · exact unchanged_feeds hTickets hFed ⟨rfl, rfl, rfl, rfl, rfl, rfl, by simp⟩
    · rename_i hOpen
      split
      · exact unchanged_feeds hTickets hFed ⟨rfl, rfl, rfl, rfl, rfl, rfl, by simp⟩
      · rename_i total hTotal
        obtain ⟨_, rfl⟩ := checkedAdd_eq_some hTotal
        split
        · exact unchanged_feeds hTickets hFed ⟨rfl, rfl, rfl, rfl, rfl, rfl, by simp⟩
        · rename_i hRoom
          split
          · exact unchanged_feeds hTickets hFed ⟨rfl, rfl, rfl, rfl, rfl, rfl, by simp⟩
          · rename_i next hNext
            obtain ⟨hFits, rfl⟩ := checkedAdd_eq_some hNext
            obtain ⟨hInput, hNone⟩ := inputClosed_eq_false hOpen
            simp only [not_or, not_not] at hRoom
            exact ⟨hTickets.tryPush hFits hInput hRoom.1 (by omega),
              hFed.tryPush hTickets hNone hRoom.1 bytes _⟩

theorem inputDone_feeds : Feeds history op.inputDone := by
  refine ⟨hTickets.inputDone, ?_⟩
  unfold Operation.inputDone
  split
  all_goals
    rw [List.append_nil]
    exact hFed.silent rfl rfl rfl fun hNone => ⟨hNone, rfl⟩

theorem audioPoll_feeds : Feeds history op.audioPoll := by
  unfold audioPoll
  split
  · exact unchanged_feeds hTickets hFed ⟨rfl, rfl, rfl, rfl, rfl, rfl, by simp⟩
  · rename_i hOpen
    split
    · rename_i bytes rest hHead
      have hBytes := hTickets.bytes
      rw [hHead, List.map_cons, List.sum_cons] at hBytes
      have hSub : checkedSub op.inputBytes bytes.length = some (op.inputBytes - bytes.length) :=
        if_pos (by omega)
      rw [hSub]
      exact ⟨hTickets.dequeue hHead, hFed.dequeue (by simpa using hOpen) hHead _⟩
    · repeat' split
      all_goals exact unchanged_feeds hTickets hFed ⟨rfl, rfl, rfl, rfl, rfl, rfl, by simp⟩

theorem writeTerminal_feeds (outcome : OperationOutcome) (error : Option OpsError) :
    Feeds history (op.writeTerminal outcome error, []) := by
  unfold writeTerminal
  split
  · exact nothing_feeds hTickets hFed
  · exact ⟨hTickets.clear _, by
      rw [List.append_nil]
      exact hFed.silent rfl rfl rfl (by simp)⟩

theorem finish_feeds (outcome : OperationOutcome) (error : Option OpsError) :
    Feeds history (op.finish outcome error) := by
  obtain ⟨hTickets', hFed'⟩ := writeTerminal_feeds hTickets hFed outcome error
  rw [List.append_nil] at hFed'
  exact ⟨hTickets', hFed'.event ⟨rfl, rfl, rfl, rfl, rfl, rfl, by simp⟩⟩

theorem cancel_feeds : Feeds history op.cancel := by
  obtain ⟨hTickets', hFed'⟩ := writeTerminal_feeds hTickets hFed .cancelled (some cancelledError)
  rw [List.append_nil] at hFed'
  refine ⟨hTickets', hFed'.events ?_⟩
  intro event hEvent
  rcases List.mem_pair.mp hEvent with rfl | rfl
  all_goals exact ⟨rfl, rfl, rfl, rfl, rfl, rfl, by simp⟩

theorem driver_feeds (driver : Driver P) : Feeds history ({ op with driver }, []) :=
  section_feeds hTickets hFed ⟨⟨rfl, rfl, rfl, rfl, rfl, rfl, rfl, rfl⟩, id, by simp⟩

end

theorem nextEnter_section (op : Operation P) : OutputSection op op.nextEnter := by
  unfold nextEnter
  split
  · exact ⟨⟨rfl, rfl, rfl, rfl, rfl, rfl, rfl, rfl⟩, id, by simp⟩
  · exact ⟨.refl op, id, unheard_of_mem_singleton ⟨rfl, rfl, rfl, rfl, rfl, rfl, by simp⟩⟩

theorem nextTurn_section (op : Operation P) : OutputSection op op.nextTurn := by
  unfold nextTurn
  split
  · exact ⟨.refl op, id, by simp⟩
  · split
    · split
      all_goals exact ⟨⟨rfl, rfl, rfl, rfl, rfl, rfl, rfl, rfl⟩, id,
        unheard_of_mem_singleton ⟨rfl, rfl, rfl, rfl, rfl, rfl, by simp⟩⟩
    · split
      · split
        all_goals exact ⟨⟨rfl, rfl, rfl, rfl, rfl, rfl, rfl, rfl⟩, by simp,
          unheard_of_mem_singleton ⟨rfl, rfl, rfl, rfl, rfl, rfl, by simp⟩⟩
      · exact ⟨⟨rfl, rfl, rfl, rfl, rfl, rfl, rfl, rfl⟩, id,
          unheard_of_mem_singleton ⟨rfl, rfl, rfl, rfl, rfl, rfl, by simp⟩⟩

theorem nextTimeout_section (op : Operation P) : OutputSection op op.nextTimeout := by
  unfold nextTimeout
  split
  · exact ⟨⟨rfl, rfl, rfl, rfl, rfl, rfl, rfl, rfl⟩, id,
      unheard_of_mem_singleton ⟨rfl, rfl, rfl, rfl, rfl, rfl, by simp⟩⟩
  · exact ⟨.refl op, id, by simp⟩

theorem abandonOutput_section (op : Operation P) : OutputSection op op.abandonOutput := by
  unfold abandonOutput
  split
  all_goals exact ⟨⟨rfl, rfl, rfl, rfl, rfl, rfl, rfl, rfl⟩, id, by simp⟩

section

variable [WirePart P]

theorem streamNext_feeds (hTickets : Ticketed op) (hFed : Fed op history)
    (item : Option (Except AiMuxError P)) : Feeds history (op.streamNext item) := by
  unfold streamNext
  repeat' split
  all_goals exact driver_feeds hTickets hFed _

omit [WirePart P] in
theorem connected_feeds (hTickets : Ticketed op) (hFed : Fed op history) (result : Except AiMuxError Unit) :
    Feeds history (op.connected result) := by
  unfold connected
  repeat' split
  all_goals exact driver_feeds hTickets hFed _

omit [WirePart P] in
theorem driverTurn_feeds (hTickets : Ticketed op) (hFed : Fed op history) :
    Feeds history op.driverTurn := by
  unfold driverTurn
  split
  case h_4 =>
    obtain ⟨hTickets', hFed'⟩ := driver_feeds hTickets hFed .done
    exact finish_feeds hTickets' (by simpa using hFed') _ _
  case h_3 =>
    repeat' split
    case h_2 =>
      exact section_feeds hTickets hFed ⟨⟨rfl, rfl, rfl, rfl, rfl, rfl, rfl, rfl⟩, id,
        unheard_of_mem_singleton ⟨rfl, rfl, rfl, rfl, rfl, rfl, by simp⟩⟩
    all_goals exact driver_feeds hTickets hFed _
  all_goals
    repeat' split
    all_goals first
      | exact nothing_feeds hTickets hFed
      | exact driver_feeds hTickets hFed _

theorem step_feeds (hTickets : Ticketed op) (hFed : Fed op history) (action : Action P) :
    Feeds history (step op action) := by
  cases action with
  | pushAdmit bytes => exact pushAdmit_feeds hTickets hFed bytes
  | pushTurn sequence => exact pushTurn_feeds hTickets hFed sequence
  | pushDrop sequence => exact pushDrop_feeds hTickets hFed sequence
  | tryPush bytes => exact tryPush_feeds hTickets hFed bytes
  | inputDone => exact inputDone_feeds hTickets hFed
  | audioPoll => exact audioPoll_feeds hTickets hFed
  | cancel => exact cancel_feeds hTickets hFed
  | nextEnter => exact section_feeds hTickets hFed (nextEnter_section op)
  | nextTurn => exact section_feeds hTickets hFed (nextTurn_section op)
  | nextTimeout => exact section_feeds hTickets hFed (nextTimeout_section op)
  | connected result => exact connected_feeds hTickets hFed result
  | streamNext item => exact streamNext_feeds hTickets hFed item
  | driverTurn => exact driverTurn_feeds hTickets hFed
  | driverAborted =>
    simp only [step, driverAborted]
    split
    · obtain ⟨hTickets', hFed'⟩ := driver_feeds hTickets hFed .done
      exact cancel_feeds hTickets' (by simpa using hFed')
    · exact nothing_feeds hTickets hFed
  | driverPanicked =>
    simp only [step, driverPanicked]
    split
    · exact nothing_feeds hTickets hFed
    · exact driver_feeds hTickets hFed _
  | abandonOutput => exact section_feeds hTickets hFed (abandonOutput_section op)

/-! ## Whole schedules -/

omit [WirePart P] in
theorem Fed.accepted_sublist (h : Fed op history) : List.Sublist (accepted history) (admitted history) := by
  let before (a b : Nat × List UInt8) : Prop := a.1 < b.1
  have hAntisymm : Std.Antisymm before := ⟨fun a b hab hba => absurd hab (Nat.lt_asymm hba)⟩
  have hAccepted : (accepted history).Pairwise before := List.pairwise_map.mp h.sorted
  have hAdmitted : (admitted history).Pairwise before :=
    List.pairwise_map.mp (h.sequences ▸ List.pairwise_lt_range)
  have hNodup : (accepted history).Nodup := hAccepted.imp fun {a b} hab hEq => by
    subst hEq
    exact Nat.lt_irrefl _ hab
  exact List.sublist_of_subperm_of_pairwise (List.subperm_of_subset hNodup h.known) hAccepted hAdmitted

omit [WirePart P] in
/-- The stream ends before a terminal only when every ticket was handed back and the queue is empty. -/
theorem audioPoll_ended (hTickets : Ticketed op) (hNone : op.terminal = none)
    (hEnded : .audioEnded ∈ op.audioPoll.2) : op.inputQueue = [] ∧ op.pushes = [] := by
  unfold audioPoll at hEnded
  split at hEnded
  · rename_i hSome
    rw [hNone] at hSome
    cases hSome
  · split at hEnded
    · split at hEnded <;> simp at hEnded
    · rename_i hEmpty
      split at hEnded
      · rename_i sequence hClosed
        split at hEnded
        · rename_i hSend
          exact ⟨hEmpty, hTickets.pushes_eq_nil (hSend.trans (hTickets.closed sequence hClosed))⟩
        · simp at hEnded
      · simp at hEnded

omit [WirePart P] in
theorem Fed.complete (h : Fed op history) (hNone : op.terminal = none) (hQueue : op.inputQueue = [])
    (hPushes : op.pushes = []) :
    yielded history = (accepted history).map (·.2) ∧ succeeded history = (accepted history).map (·.1) ∧
      ∀ entry ∈ admitted history, entry.1 ∈ succeeded history ∨ entry.1 ∈ withdrawn history := by
  refine ⟨?_, ?_, ?_⟩
  · rw [h.queued hNone, hQueue, List.append_nil]
  · refine List.Pairwise.eq_of_mem_iff h.sortedSucceeded h.sorted ?_
    intro n
    rw [h.reported]
    simp [SentInFlight, hPushes]
  · intro entry hEntry
    have hLt : entry.1 < op.admissionSequence := by
      rw [← List.mem_range, ← h.sequences]
      exact List.mem_map_of_mem hEntry
    rcases h.resolved entry.1 hLt with hIn | hIn | hIn | hIn
    · exact .inl hIn
    · exact .inr hIn
    · rw [(h.noFailure hNone).1] at hIn
      cases hIn
    · rw [hPushes] at hIn
      cases hIn

end

end Aimux.Ops.Operation
