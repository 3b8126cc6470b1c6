import Aimux.Recorder.RingRecorder

/-! # The two recorders side by side

As long as neither recorder evicts or drops, both hold the same entries, and the ring holds the lines the
writer has written. They part at an input that makes its entry ready: the writer writes it, the ring
recorder waits for another event of the call.
-/

namespace Aimux.Recorder

open Aimux.Lib

variable {Message : Type}

namespace Writer

variable (writer : Writer Message)

@[simp] theorem modify_pendingEvicted (callId : String) (f : Recording Message → Recording Message) :
    (writer.modify callId f).pendingEvicted = writer.pendingEvicted := by
  unfold modify
  split <;> rfl

@[simp] theorem tryFinalize_pendingEvicted (callId : String) :
    (writer.tryFinalize callId).1.pendingEvicted = writer.pendingEvicted := by
  unfold tryFinalize
  split
  · rfl
  · split
    · simp only
      split <;> rfl
    · rfl

theorem ageOut_pendingEvicted (order : List String) (writer : Writer Message) :
    (writer.ageOut order).1.pendingEvicted = writer.pendingEvicted := by
  induction order generalizing writer with
  | nil => rfl
  | cons old rest ih =>
    unfold ageOut
    split
    · simp only
      split <;> exact ih _
    · rfl

theorem evictOne_pendingEvicted (old : String) (order : List String) (rec : Recording Message) :
    (writer.evictOne old order rec).1.pendingEvicted = writer.pendingEvicted + 1 := by
  unfold evictOne trackEvicted
  simp only
  split
  · rfl
  · exact ageOut_pendingEvicted _ _

theorem evictLoop_mono (rounds : Nat) (writer : Writer Message) :
    writer.pendingEvicted ≤ (evictLoop rounds writer).1.pendingEvicted := by
  induction rounds generalizing writer with
  | zero => exact Nat.le_refl _
  | succ rounds ih =>
    unfold evictLoop
    split
    · split
      · exact Nat.le_refl _
      · rename_i old order _
        split
        · rename_i rec _
          have hAfter := ih (writer.evictOne old order rec).1
          rw [evictOne_pendingEvicted] at hAfter
          exact Nat.le_of_succ_le hAfter
        · exact ih { writer with pendingOrder := order }
    · exact Nat.le_refl _

/-- A loop that evicts nothing does nothing. -/
theorem evictLoop_quiet (rounds : Nat) (writer : Writer Message)
    (h : (evictLoop rounds writer).1.pendingEvicted = writer.pendingEvicted) :
    evictLoop rounds writer = (writer, []) := by
  cases rounds with
  | zero => rfl
  | succ rounds =>
    unfold evictLoop at h ⊢
    split
    · rename_i hFull
      rw [if_pos hFull] at h
      split
      · rfl
      · rename_i old order hPop
        obtain ⟨rec, hRec⟩ := lookup_of_mem (popNextPendingEvictionId_spec hPop).1
        simp only [hPop, hRec] at h
        have hAfter := evictLoop_mono rounds (writer.evictOne old order rec).1
        rw [evictOne_pendingEvicted] at hAfter
        omega
    · rfl

/-- Without an eviction a new entry is added to the table and nothing else is seen to change. -/
theorem addEntry_quiet (callId : String) (rec : Recording Message)
    (h : (writer.addEntry callId rec).1.pendingEvicted = writer.pendingEvicted) :
    ∃ order, writer.addEntry callId rec =
      ({ writer with pendingOrder := order, pending := writer.pending.insert callId rec }, [.created callId]) := by
  have hQuiet : writer.evictJsonlPendingIfNeeded = (_, []) := evictLoop_quiet _ _ h
  refine ⟨cleanOrder jsonlPendingMax writer.pending writer.pendingOrder ++ [callId], ?_⟩
  unfold addEntry
  rw [hQuiet]
  rfl

end Writer

namespace RingRecorder

variable (ring : RingRecorder Message)

@[simp] theorem modify_counts (callId : String)
    (f : Recording Message → Recording Message) :
    (ring.modify callId f).pendingEvicted = ring.pendingEvicted ∧
      (ring.modify callId f).dropped = ring.dropped := by
  unfold modify
  split <;> exact ⟨rfl, rfl⟩

theorem push_pendingEvicted (rec : Recording Message) : (ring.push rec).pendingEvicted = ring.pendingEvicted := by
  unfold push
  split
  · split <;> rfl
  · rfl

theorem push_quiet (rec : Recording Message) (h : (ring.push rec).dropped = ring.dropped) :
    ring.push rec = { ring with completed := ring.completed ++ [rec] } := by
  unfold push at h ⊢
  split
  · rename_i hFull
    rw [if_pos hFull] at h
    split at h <;> exact absurd h (Nat.succ_ne_self _)
  · rfl

theorem evictOne_pendingEvicted (old : String) (order : List String)
    (rec : Recording Message) : (ring.evictOne old order rec).pendingEvicted = ring.pendingEvicted + 1 :=
  push_pendingEvicted _ _

theorem evictLoop_mono (rounds : Nat) (ring : RingRecorder Message) :
    ring.pendingEvicted ≤ (evictLoop rounds ring).pendingEvicted := by
  induction rounds generalizing ring with
  | zero => exact Nat.le_refl _
  | succ rounds ih =>
    unfold evictLoop
    split
    · split
      · exact Nat.le_refl _
      · rename_i old order _
        split
        · rename_i rec _
          have hAfter := ih (ring.evictOne old order rec)
          rw [evictOne_pendingEvicted] at hAfter
          exact Nat.le_of_succ_le hAfter
        · exact ih { ring with pendingOrder := order }
    · exact Nat.le_refl _

theorem evictLoop_quiet (rounds : Nat) (ring : RingRecorder Message)
    (h : (evictLoop rounds ring).pendingEvicted = ring.pendingEvicted) : evictLoop rounds ring = ring := by
  cases rounds with
  | zero => rfl
  | succ rounds =>
    unfold evictLoop at h ⊢
    split
    · rename_i hFull
      rw [if_pos hFull] at h
      split
      · rfl
      · rename_i old order hPop
        obtain ⟨rec, hRec⟩ := Writer.lookup_of_mem (popNextPendingEvictionId_spec hPop).1
        simp only [hPop, hRec] at h
        have hAfter := evictLoop_mono rounds (ring.evictOne old order rec)
        rw [evictOne_pendingEvicted] at hAfter
        omega
    · rfl

theorem entryOrInitBounded_quiet (now callId : String)
    (h : (ring.entryOrInitBounded now callId).pendingEvicted = ring.pendingEvicted) :
    ring.entryOrInitBounded now callId = ring ∧ callId ∈ ring.pending ∨
      callId ∉ ring.pending ∧ ∃ order, ring.entryOrInitBounded now callId =
        { ring with pendingOrder := order, pending := ring.pending.insert callId (Recording.placeholder now callId) } := by
  unfold entryOrInitBounded at h ⊢
  split
  · rename_i hMem
    exact .inl ⟨rfl, hMem⟩
  · rename_i hNew
    rw [if_neg hNew] at h
    have hQuiet : ring.evictPendingIfNeeded = _ := evictLoop_quiet _ _ h
    refine .inr ⟨hNew, cleanOrder ring.pendingMax ring.pending ring.pendingOrder ++ [callId], ?_⟩
    rw [hQuiet]

end RingRecorder

/-! ## The same entries -/

def lines (log : List (Log Message)) : List (Recording Message) :=
  log.filterMap fun
    | .finalised line | .evicted line | .drained line => some line
    | _ => none

/-- Both recorders hold the same entries and marks, nothing was lost or evicted, and the ring holds the
lines of the log. -/
structure Same (writer : Writer Message) (log : List (Log Message)) (ring : RingRecorder Message) : Prop where
  pending : ∀ id, writer.pending.lookup id = ring.pending.lookup id
  inconsistent : writer.inconsistent = ring.inconsistent
  lossless : writer.lossy = ∅
  untracked : writer.evictedCalls.set = ∅
  completed : ring.completed = lines log

variable {writer : Writer Message} {log : List (Log Message)} {ring : RingRecorder Message}

theorem Same.mem_iff (h : Same writer log ring) (id : String) : id ∈ writer.pending ↔ id ∈ ring.pending := by
  rw [← AList.lookup_isSome, ← AList.lookup_isSome, h.pending]

theorem Same.not_trailing (h : Same writer log ring) (callId : String) : writer.isTrailing callId = false := by
  simp [Writer.isTrailing, h.untracked]

theorem lookup_insert_congr {a b : Pending Message} (h : ∀ id, a.lookup id = b.lookup id) (callId : String)
    (rec : Recording Message) (id : String) : (a.insert callId rec).lookup id = (b.insert callId rec).lookup id := by
  by_cases hEq : id = callId
  · subst hEq
    rw [AList.lookup_insert, AList.lookup_insert]
  · rw [AList.lookup_insert_ne hEq, AList.lookup_insert_ne hEq, h]

theorem lookup_erase_congr {a b : Pending Message} (h : ∀ id, a.lookup id = b.lookup id) (callId id : String) :
    (a.erase callId).lookup id = (b.erase callId).lookup id := by
  by_cases hEq : id = callId
  · subst hEq
    rw [AList.lookup_erase, AList.lookup_erase]
  · rw [AList.lookup_erase_ne hEq, AList.lookup_erase_ne hEq, h]

theorem Same.modify (h : Same writer log ring) (callId : String) (f : Recording Message → Recording Message) :
    Same (writer.modify callId f) log (ring.modify callId f) := by
  unfold Writer.modify RingRecorder.modify
  rw [h.pending callId]
  cases ring.pending.lookup callId with
  | none => exact h
  | some rec =>
    exact ⟨lookup_insert_congr h.pending callId (f rec), h.inconsistent, h.lossless, h.untracked, h.completed⟩

theorem Same.markInconsistent (h : Same writer log ring) (callId : String) :
    Same (writer.markInconsistent callId) (log ++ [Log.inconsistent callId]) (ring.markInconsistent callId) where
  pending := h.pending
  inconsistent := by rw [Writer.markInconsistent, RingRecorder.markInconsistent, h.inconsistent]
  lossless := h.lossless
  untracked := h.untracked
  completed := by
    rw [lines, List.filterMap_append, ← lines]
    exact h.completed.trans (List.append_nil _).symm

theorem Same.created (h : Same writer log ring) (callId : String) (rec : Recording Message)
    (writerOrder ringOrder : List String) :
    Same { writer with pendingOrder := writerOrder, pending := writer.pending.insert callId rec }
      (log ++ [Log.created callId])
      { ring with pendingOrder := ringOrder, pending := ring.pending.insert callId rec } where
  pending := lookup_insert_congr h.pending callId rec
  inconsistent := h.inconsistent
  lossless := h.lossless
  untracked := h.untracked
  completed := by
    rw [lines, List.filterMap_append, ← lines]
    exact h.completed.trans (List.append_nil _).symm

theorem Same.entry (h : Same writer log ring) (now callId : String)
    (hWriter : (writer.entryOrInit now callId).1.pendingEvicted = writer.pendingEvicted)
    (hRing : (ring.entryOrInitBounded now callId).pendingEvicted = ring.pendingEvicted) :
    Same (writer.entryOrInit now callId).1 (log ++ (writer.entryOrInit now callId).2)
        (ring.entryOrInitBounded now callId) ∧
      (ring.entryOrInitBounded now callId).dropped = ring.dropped := by
  rcases ring.entryOrInitBounded_quiet now callId hRing with ⟨hSame, hMem⟩ | ⟨hNew, ringOrder, hMade⟩
  · rw [hSame, Writer.entryOrInit, if_pos ((h.mem_iff callId).mpr hMem), List.append_nil]
    exact ⟨h, rfl⟩
  · have hAbsent : callId ∉ writer.pending := fun hMem => hNew ((h.mem_iff callId).mp hMem)
    rw [Writer.entryOrInit, if_neg hAbsent] at hWriter ⊢
    obtain ⟨order, hAdded⟩ := writer.addEntry_quiet callId _ hWriter
    rw [hMade, hAdded]
    exact ⟨h.created callId _ order ringOrder, rfl⟩

theorem tryFinalize_waits {callId : String} (h : ∀ rec, writer.pending.lookup callId = some rec → rec.ready = false) :
    writer.tryFinalize callId = (writer, []) := by
  unfold Writer.tryFinalize
  split
  · rfl
  · rename_i rec hRec
    simp [h rec hRec]

@[simp] theorem finalize_pendingEvicted (ring : RingRecorder Message) (callId : String) :
    (ring.finalize callId).pendingEvicted = ring.pendingEvicted := by
  unfold RingRecorder.finalize
  split
  · rfl
  · split
    · simp only
      split <;> exact RingRecorder.push_pendingEvicted _ _
    · rfl

/-- Both take a ready entry over, with the same mark. -/
theorem Same.finalize (h : Same writer log ring) (callId : String)
    (hDropped : (ring.finalize callId).dropped = ring.dropped) :
    Same (writer.tryFinalize callId).1 (log ++ (writer.tryFinalize callId).2) (ring.finalize callId) := by
  unfold Writer.tryFinalize
  unfold RingRecorder.finalize at hDropped ⊢
  rw [h.pending callId]
  cases hRec : ring.pending.lookup callId with
  | none =>
    simp only [List.append_nil]
    exact h
  | some rec =>
    simp only [hRec] at hDropped ⊢
    split
    · rename_i hReady
      have hClosed : (!rec.exchanges.isEmpty || rec.transportClosed) = true := by
        rw [((Writer.ready_iff rec).mp hReady).1, Bool.or_true]
      rw [if_pos hReady, if_pos hClosed] at hDropped
      rw [if_pos hClosed, if_pos hClosed, RingRecorder.push_quiet _ _ hDropped]
      refine ⟨lookup_erase_congr h.pending callId, h.inconsistent, ?_, h.untracked, ?_⟩
      · change writer.lossy.erase callId = ∅
        rw [h.lossless]
        rfl
      · have hComplete : (!Writer.isDamaged { writer with
            pending := writer.pending.erase callId
            pendingOrder := cleanOrder jsonlPendingMax (writer.pending.erase callId) writer.pendingOrder }
              callId) = decide (callId ∉ ring.inconsistent) := by
          simp [Writer.isDamaged, h.lossless, h.inconsistent]
        rw [lines, List.filterMap_append, ← lines, ← h.completed, Writer.finalise, hComplete]
        rfl
    · simp only [List.append_nil]
      exact h

/-! ## One event -/

/-- Neither recorder has evicted or dropped anything. -/
structure WithinBounds (writer : Writer Message) (ring : RingRecorder Message) : Prop where
  writerEvicted : writer.pendingEvicted = 0
  writerDropped : writer.dropped = 0
  ringEvicted : ring.pendingEvicted = 0
  ringDropped : ring.dropped = 0

/-- The input of a call does not find everything else of its entry in place. -/
def InputWaits (ring : RingRecorder Message) (now : String) : RecordEvent Message → Prop
  | .input callId input provider =>
    (Writer.setInput input provider
      ((ring.pending.lookup callId).getD (Recording.placeholder now callId))).ready = false
  | _ => True

theorem Same.handle (h : Same writer log ring) (now callId : String) (f : Recording Message → Recording Message)
    (hBefore : WithinBounds writer ring)
    (hAfter : WithinBounds (writer.handle now callId f).1
      (((ring.entryOrInitBounded now callId).modify callId f).finalize callId)) :
    Same (writer.handle now callId f).1 (log ++ (writer.handle now callId f).2)
      (((ring.entryOrInitBounded now callId).modify callId f).finalize callId) := by
  unfold Writer.handle at hAfter ⊢
  rw [h.not_trailing] at hAfter ⊢
  simp only [Bool.false_eq_true, if_false] at hAfter ⊢
  obtain ⟨hEntry, hDropped⟩ := h.entry now callId
    (by simpa [hBefore.writerEvicted] using hAfter.writerEvicted)
    (by simpa [hBefore.ringEvicted] using hAfter.ringEvicted)
  rw [← List.append_assoc]
  refine (hEntry.modify callId f).finalize callId ?_
  rw [hAfter.ringDropped, (RingRecorder.modify_counts _ _ _).2, hDropped, hBefore.ringDropped]

theorem Same.handleChecked (h : Same writer log ring) (now callId : String)
    (f : Recording Message → Recording Message × Bool) (hBefore : WithinBounds writer ring)
    (hAfter : WithinBounds (writer.handleChecked now callId f).1 (ring.recordChecked now callId f)) :
    Same (writer.handleChecked now callId f).1 (log ++ (writer.handleChecked now callId f).2)
      (ring.recordChecked now callId f) := by
  unfold Writer.handleChecked at hAfter ⊢
  unfold RingRecorder.recordChecked at hAfter ⊢
  rw [h.not_trailing] at hAfter ⊢
  simp only [Bool.false_eq_true, if_false] at hAfter ⊢
  have hWriter : (writer.entryOrInit now callId).1.pendingEvicted = writer.pendingEvicted := by
    have hCount := hAfter.writerEvicted
    rw [Writer.tryFinalize_pendingEvicted] at hCount
    rw [hBefore.writerEvicted, ← hCount]
    split
    · exact (Writer.modify_pendingEvicted _ _ _).symm
    · exact (Writer.modify_pendingEvicted _ _ _).symm
  have hRing : (ring.entryOrInitBounded now callId).pendingEvicted = ring.pendingEvicted := by
    have hCount := hAfter.ringEvicted
    rw [finalize_pendingEvicted] at hCount
    rw [hBefore.ringEvicted, ← hCount]
    split
    · exact (RingRecorder.modify_counts _ _ _).1.symm
    · exact (RingRecorder.modify_counts _ _ _).1.symm
  obtain ⟨hEntry, hDropped⟩ := h.entry now callId hWriter hRing
  have hChanged := hEntry.modify callId fun rec => (f rec).1
  have hClash := hEntry.pending callId
  rw [← hClash] at hAfter ⊢
  split
  · rename_i hMarked
    rw [if_pos hMarked, if_pos hMarked] at hAfter
    rw [← List.append_assoc, ← List.append_assoc]
    refine (hChanged.markInconsistent callId).finalize callId ?_
    rw [hAfter.ringDropped]
    exact (((RingRecorder.modify_counts _ _ _).2.trans hDropped).trans hBefore.ringDropped).symm
  · rename_i hMarked
    rw [if_neg hMarked, if_neg hMarked] at hAfter
    rw [List.append_nil, ← List.append_assoc]
    refine hChanged.finalize callId ?_
    rw [hAfter.ringDropped]
    exact (((RingRecorder.modify_counts _ _ _).2.trans hDropped).trans hBefore.ringDropped).symm

/-- A change that leaves the entry waiting is not followed by a line. -/
theorem handle_waits (hTidy : writer.Tidy) (now callId : String) (f : Recording Message → Recording Message)
    (hWaits : ∀ rec, rec.ready = false → (f rec).ready = false) (hTrailing : writer.isTrailing callId = false) :
    writer.handle now callId f =
      ((writer.entryOrInit now callId).1.modify callId f, (writer.entryOrInit now callId).2) := by
  have hEntry := (Writer.entryOrInit_spec hTidy now callId).1
  unfold Writer.handle
  rw [hTrailing]
  simp only [Bool.false_eq_true, if_false]
  rw [tryFinalize_waits, List.append_nil]
  intro rec hRec
  unfold Writer.modify at hRec
  split at hRec
  · exact hEntry.unready callId rec hRec
  · rename_i old hOld
    rw [AList.lookup_insert] at hRec
    rw [← Option.some.inj hRec]
    exact hWaits old (hEntry.unready callId old hOld)

theorem placeholder_setInput (now callId : String) (input : InputRecord Message) (provider : ProviderRecord) :
    Writer.setInput input provider (Recording.placeholder now callId) =
      Recording.new now callId input provider := rfl

/-- The ring after an event that only changes an entry. -/
theorem Same.change (h : Same writer log ring) (now callId : String) (f : Recording Message → Recording Message)
    (hBefore : WithinBounds writer ring)
    (hWriter : (writer.entryOrInit now callId).1.pendingEvicted = 0)
    (hRing : ((ring.entryOrInitBounded now callId).modify callId f).pendingEvicted = 0) :
    Same ((writer.entryOrInit now callId).1.modify callId f) (log ++ (writer.entryOrInit now callId).2)
      ((ring.entryOrInitBounded now callId).modify callId f) := by
  rw [(RingRecorder.modify_counts _ _ _).1] at hRing
  have hEntry := (h.entry now callId (hWriter.trans hBefore.writerEvicted.symm)
    (hRing.trans hBefore.ringEvicted.symm)).1
  exact hEntry.modify callId f

theorem Same.input (h : Same writer log ring) (now callId : String) (input : InputRecord Message)
    (provider : ProviderRecord) (hBefore : WithinBounds writer ring)
    (hWaits : InputWaits ring now (.input callId input provider))
    (hAfter : WithinBounds (writer.onInput now callId input provider).1
      (ring.recordInput now callId input provider)) :
    Same (writer.onInput now callId input provider).1
      (log ++ (writer.onInput now callId input provider).2) (ring.recordInput now callId input provider) := by
  have hWriter := hAfter.writerEvicted
  have hRing := hAfter.ringEvicted
  unfold Writer.onInput at hWriter ⊢
  unfold RingRecorder.recordInput at hRing ⊢
  rw [h.not_trailing] at hWriter ⊢
  simp only [Bool.false_eq_true, if_false, Writer.tryFinalize_pendingEvicted] at hWriter ⊢
  rw [(RingRecorder.modify_counts _ _ _).1] at hRing
  simp only [InputWaits] at hWaits
  rcases ring.entryOrInitBounded_quiet now callId (hRing.trans hBefore.ringEvicted.symm) with
    ⟨hSame, hMem⟩ | ⟨hNew, ringOrder, hMade⟩
  · have hPresent := (h.mem_iff callId).mpr hMem
    rw [if_pos hPresent, hSame, tryFinalize_waits, List.append_nil, List.append_nil]
    · exact h.modify callId _
    · intro rec hRec
      obtain ⟨old, hOld⟩ := Writer.lookup_of_mem hPresent
      simp only [Writer.modify, hOld] at hRec
      rw [AList.lookup_insert] at hRec
      rw [← h.pending, hOld] at hWaits
      rw [← Option.some.inj hRec]
      exact hWaits
  · have hAbsent : callId ∉ writer.pending := fun hMem => hNew ((h.mem_iff callId).mp hMem)
    rw [if_neg hAbsent] at hWriter ⊢
    obtain ⟨order, hAdded⟩ := writer.addEntry_quiet callId _ (hWriter.trans hBefore.writerEvicted.symm)
    rw [hAdded, hMade, tryFinalize_waits, List.append_nil]
    · have hFilled : RingRecorder.modify { ring with
          pendingOrder := ringOrder
          pending := ring.pending.insert callId (Recording.placeholder now callId) } callId
            (Writer.setInput input provider) =
          { ring with
            pendingOrder := ringOrder
            pending := ring.pending.insert callId (Recording.new now callId input provider) } := by
        simp only [RingRecorder.modify, AList.lookup_insert, placeholder_setInput, AList.insert_insert]
      rw [hFilled]
      exact h.created callId _ order ringOrder
    · intro rec hRec
      rw [AList.lookup_insert] at hRec
      rw [← Option.some.inj hRec]
      rfl

theorem takeReady_nil (h : Same writer log ring) (hTidy : writer.Tidy) : ring.flush = ring := by
  have hNone : Writer.readyIds ring.pending = [] := by
    rw [Writer.readyIds, List.filter_eq_nil_iff]
    intro id hMem
    obtain ⟨rec, hRec⟩ := Writer.lookup_of_mem (AList.mem_keys.mpr hMem)
    simp [hRec, hTidy.unready id rec ((h.pending id).trans hRec)]
  rw [RingRecorder.flush, hNone]
  rfl

/-- An event whose input waits takes both recorders to the same entries. -/
theorem Same.step (h : Same writer log ring) (hTidy : writer.Tidy) (now : String) (event : RecordEvent Message)
    (hBefore : WithinBounds writer ring) (hWaits : InputWaits ring now event)
    (hAfter : WithinBounds (Writer.step writer (.deliver now event)).1 (ring.step now event)) :
    Same (Writer.step writer (.deliver now event)).1 (log ++ (Writer.step writer (.deliver now event)).2)
      (ring.step now event) := by
  cases event with
  | input callId input provider => exact h.input now callId input provider hBefore hWaits hAfter
  | session callId sessionId step =>
    have hEq := handle_waits hTidy now callId
      (fun rec => { rec with sessionId := some sessionId, step := some step }) (fun _ hReady => hReady)
      (h.not_trailing callId)
    have hWriter := hAfter.writerEvicted
    simp only [Writer.step, Writer.onSession, hEq, Writer.modify_pendingEvicted] at hWriter ⊢
    exact h.change now callId _ hBefore hWriter hAfter.ringEvicted
  | provider callId provider =>
    have hWriter := hAfter.writerEvicted
    simp only [Writer.step, Writer.onProvider, h.not_trailing, Bool.false_eq_true, if_false,
      Writer.modify_pendingEvicted] at hWriter ⊢
    exact h.change now callId _ hBefore hWriter hAfter.ringEvicted
  | exchange callId exchange => exact h.handleChecked now callId _ hBefore hAfter
  | exchangeUpdate callId attempt exchangeIndex response error =>
    exact h.handleChecked now callId _ hBefore hAfter
  | outcome callId outcome => exact h.handle now callId _ hBefore hAfter
  | transportClosed callId =>
    have hDropped := hAfter.ringDropped
    simp only [Writer.step, Writer.onTransportClosed, h.not_trailing, Bool.false_eq_true, if_false,
      RingRecorder.step, RingRecorder.recordTransportClosed] at hDropped ⊢
    by_cases hMem : callId ∈ ring.pending
    · rw [if_pos hMem] at hDropped
      rw [if_pos ((h.mem_iff callId).mpr hMem), if_pos hMem]
      refine (h.modify callId _).finalize callId ?_
      rw [hDropped, (RingRecorder.modify_counts _ _ _).2, hBefore.ringDropped]
    · rw [if_neg fun hPresent => hMem ((h.mem_iff callId).mp hPresent), if_neg hMem, List.append_nil]
      exact h
  | flush =>
    simp only [Writer.step, RingRecorder.step, Writer.writeReadyAll, Writer.readyIds_eq_nil hTidy,
      takeReady_nil h hTidy]
    rw [show (writer.writeReady []).2 = [] from rfl, List.append_nil]
    exact ⟨h.pending, h.inconsistent, h.lossless, h.untracked, h.completed⟩

/-! ## Runs -/

/-- The writer and its log after a history of events, each with the clock reading at its arrival. -/
def writerAfter (history : List (String × RecordEvent Message)) : Writer Message × List (Log Message) :=
  Transducer.run Writer.step {} (history.map fun entry => .deliver entry.1 entry.2)

def ringAfter (cap : Nat) (history : List (String × RecordEvent Message)) : RingRecorder Message :=
  history.foldl (fun ring entry => ring.step entry.1 entry.2) (RingRecorder.withCapacity cap)

/-- The ring holds the recordings that were written, and neither recorder keeps a ready entry. -/
structure Agree (writer : Writer Message) (log : List (Log Message)) (ring : RingRecorder Message) : Prop where
  completed : ∀ rec, rec ∈ ring.completed ↔ rec ∈ lines log
  writerWaits : ∀ callId rec, writer.pending.lookup callId = some rec → rec.ready = false
  ringWaits : ∀ callId rec, ring.pending.lookup callId = some rec → rec.ready = false

theorem writerAfter_concat (history : List (String × RecordEvent Message)) (now : String)
    (event : RecordEvent Message) :
    writerAfter (history ++ [(now, event)]) =
      ((Writer.step (writerAfter history).1 (.deliver now event)).1,
        (writerAfter history).2 ++ (Writer.step (writerAfter history).1 (.deliver now event)).2) := by
  rw [writerAfter, List.map_append]
  exact Transducer.run_concat _ _ _ _

theorem ringAfter_concat (cap : Nat) (history : List (String × RecordEvent Message)) (now : String)
    (event : RecordEvent Message) :
    ringAfter cap (history ++ [(now, event)]) = (ringAfter cap history).step now event := by
  rw [ringAfter, List.foldl_append]
  rfl

theorem writerAfter_tidy (history : List (String × RecordEvent Message)) : (writerAfter history).1.Tidy :=
  (Writer.run_sound _).1

theorem Same.agree (h : Same writer log ring) (hTidy : writer.Tidy) : Agree writer log ring where
  completed := fun rec => by rw [h.completed]
  writerWaits := hTidy.unready
  ringWaits := fun callId rec hRec => hTidy.unready callId rec ((h.pending callId).trans hRec)

theorem recordInput_lookup (ring : RingRecorder Message) (now callId : String) (input : InputRecord Message)
    (provider : ProviderRecord)
    (hQuiet : (ring.recordInput now callId input provider).pendingEvicted = ring.pendingEvicted) :
    (ring.recordInput now callId input provider).pending.lookup callId = some
      (Writer.setInput input provider
        ((ring.pending.lookup callId).getD (Recording.placeholder now callId))) := by
  unfold RingRecorder.recordInput at hQuiet ⊢
  rw [(RingRecorder.modify_counts _ _ _).1] at hQuiet
  rcases ring.entryOrInitBounded_quiet now callId hQuiet with ⟨hSame, hMem⟩ | ⟨hNew, order, hMade⟩
  · obtain ⟨old, hOld⟩ := Writer.lookup_of_mem hMem
    simp only [hSame, RingRecorder.modify, hOld, AList.lookup_insert, Option.getD_some]
  · simp only [hMade, RingRecorder.modify, AList.lookup_insert, AList.lookup_eq_none.mpr hNew,
      Option.getD_none]

/-- While nothing is evicted or dropped, the recorders agree throughout a history exactly if no input of
it makes its entry ready. -/
theorem recorders_agree_iff (cap : Nat) (history : List (String × RecordEvent Message))
    (hBounds : ∀ before, before <+: history → WithinBounds (writerAfter before).1 (ringAfter cap before)) :
    (∀ before, before <+: history →
      Agree (writerAfter before).1 (writerAfter before).2 (ringAfter cap before)) ↔
        ∀ before now event, before ++ [(now, event)] <+: history →
          InputWaits (ringAfter cap before) now event := by
  constructor
  · intro hAgree before now event hPrefix
    cases event with
    | input callId input provider =>
      have hBefore := hBounds before ((List.prefix_append before _).trans hPrefix)
      have hAfter := hBounds _ hPrefix
      have hWaits := (hAgree _ hPrefix).ringWaits callId
      rw [ringAfter_concat] at hAfter hWaits
      exact hWaits _ (recordInput_lookup _ now callId input provider
        (hAfter.ringEvicted.trans hBefore.ringEvicted.symm))
    | _ => trivial
  · intro hWaits
    have hSame : ∀ before, before <+: history →
        Same (writerAfter before).1 (writerAfter before).2 (ringAfter cap before) := by
      intro before
      induction before using List.reverseRecOn with
      | nil => exact fun _ => ⟨fun _ => rfl, rfl, rfl, rfl, rfl⟩
      | append_singleton before entry ih =>
        obtain ⟨now, event⟩ := entry
        intro hPrefix
        have hShorter := (List.prefix_append before [(now, event)]).trans hPrefix
        have hAfter := hBounds _ hPrefix
        rw [writerAfter_concat, ringAfter_concat] at hAfter ⊢
        exact (ih hShorter).step (writerAfter_tidy before) now event (hBounds before hShorter)
          (hWaits before now event hPrefix) hAfter
    intro before hPrefix
    exact (hSame before hPrefix).agree (writerAfter_tidy before)

def sampleInput : InputRecord Unit := { prompt := [()], options := .null }

def sampleOutcome : OutcomeRecord := { status := .success }

/-- The usual order of a call. -/
def orderly : List (String × RecordEvent Unit) :=
  [("t0", .input "call" sampleInput (ProviderRecord.fromModel "p" "m")), ("t1", .outcome "call" sampleOutcome),
    ("t2", .transportClosed "call")]

/-- The input of a call comes last. -/
def inputLast : List (String × RecordEvent Unit) :=
  [("t0", .outcome "call" sampleOutcome), ("t1", .transportClosed "call"),
    ("t2", .input "call" sampleInput (ProviderRecord.fromModel "p" "m"))]

theorem recorders_agree_iff_orderly :
    (∀ before, before <+: orderly → WithinBounds (writerAfter before).1 (ringAfter 4 before)) ∧
      ((∀ before, before <+: orderly →
        Agree (writerAfter before).1 (writerAfter before).2 (ringAfter 4 before)) ↔
          ∀ before now event, before ++ [(now, event)] <+: orderly →
            InputWaits (ringAfter 4 before) now event) := by
  have hBounds : ∀ before, before <+: orderly → WithinBounds (writerAfter before).1 (ringAfter 4 before) := by
    intro before hPrefix
    have hMem := (List.mem_inits _ _).mpr hPrefix
    simp only [orderly, List.inits, List.map_cons, List.map_nil, List.mem_cons, List.not_mem_nil, or_false]
      at hMem
    rcases hMem with rfl | rfl | rfl | rfl <;> exact ⟨by decide, by decide, by decide, by decide⟩
  exact ⟨hBounds, recorders_agree_iff 4 orderly hBounds⟩

/-- The writer has written the call, the ring recorder holds its entry, ready and pending. -/
theorem input_last_parts_recorders :
    (∀ before, before <+: inputLast → WithinBounds (writerAfter before).1 (ringAfter 4 before)) ∧
      ¬ Agree (writerAfter inputLast).1 (writerAfter inputLast).2 (ringAfter 4 inputLast) := by
  constructor
  · intro before hPrefix
    have hMem := (List.mem_inits _ _).mpr hPrefix
    simp only [inputLast, List.inits, List.map_cons, List.map_nil, List.mem_cons, List.not_mem_nil, or_false]
      at hMem
    rcases hMem with rfl | rfl | rfl | rfl <;> exact ⟨by decide, by decide, by decide, by decide⟩
  · intro hAgree
    have hEmpty : (ringAfter 4 inputLast).completed = [] := rfl
    obtain ⟨line, hLine⟩ : ∃ line, line ∈ lines (writerAfter inputLast).2 := ⟨_, List.mem_singleton.mpr rfl⟩
    have hMem := (hAgree.completed line).mpr hLine
    rw [hEmpty] at hMem
    cases hMem

end Aimux.Recorder
