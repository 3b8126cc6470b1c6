import Aimux.Lib.Acceptor
import Aimux.Recorder.JsonlWriter

/-! # What the JSONL writer keeps

Between events no pending entry is ready, the table is within its bound and the order knows every entry.
The log is read call by call: an entry is made, collects what is noted about its call, and is written
once.
-/

namespace Aimux.Recorder

open Aimux.Lib

variable {Message : Type}

/-! ## The order of eviction -/

variable {pending : Pending Message} {order : List String} {id : String}

theorem mem_dropStale (hPending : id ∈ pending) (hOrder : id ∈ order) : id ∈ dropStale pending order := by
  induction order with
  | nil => exact hOrder
  | cons first order ih =>
    unfold dropStale at ih ⊢
    rw [List.dropWhile_cons]
    split
    · rename_i hStale
      rcases List.mem_cons.mp hOrder with rfl | hOrder
      · simp [hPending] at hStale
      · exact ih hOrder
    · exact hOrder

theorem mem_cleanOrder (limit : Nat) (hPending : id ∈ pending) (hOrder : id ∈ order) :
    id ∈ cleanOrder limit pending order := by
  unfold cleanOrder
  simp only
  split
  · exact List.mem_filter.mpr ⟨mem_dropStale hPending hOrder, decide_eq_true hPending⟩
  · exact mem_dropStale hPending hOrder

variable {rest : List String}

theorem takeFirst_spec {p : String → Bool} {found : String} (h : takeFirst p order = some (found, rest)) :
    p found = true ∧ ∀ id ∈ order, id ≠ found → id ∈ rest := by
  induction order generalizing rest with
  | nil => cases h
  | cons first order ih =>
    unfold takeFirst at h
    split at h
    · rename_i hFirst
      obtain ⟨rfl, rfl⟩ := Prod.mk.inj (Option.some.inj h)
      refine ⟨hFirst, ?_⟩
      intro id hMem hOther
      exact (List.mem_cons.mp hMem).resolve_left hOther
    · obtain ⟨⟨other, others⟩, hRest, hEq⟩ := Option.map_eq_some_iff.mp h
      obtain ⟨rfl, rfl⟩ := Prod.mk.inj hEq
      obtain ⟨hFound, hKept⟩ := ih hRest
      refine ⟨hFound, ?_⟩
      intro id hMem hOther
      rcases List.mem_cons.mp hMem with rfl | hMem
      · exact List.mem_cons_self
      · exact List.mem_cons_of_mem first (hKept id hMem hOther)

theorem mem_of_any_lookup {p : Recording Message → Bool} (h : (pending.lookup id).any p = true) : id ∈ pending := by
  refine AList.lookup_isSome.mp ?_
  cases hRec : pending.lookup id with
  | none => simp [hRec] at h
  | some rec => rfl

theorem dropStale_eq_cons (h : dropStale pending order = id :: rest) : id ∈ pending := by
  have hHead := List.head?_dropWhile_not (fun id => !decide (id ∈ pending)) order
  rw [show order.dropWhile (fun id => !decide (id ∈ pending)) = id :: rest from h] at hHead
  simpa using hHead

/-- The id that is picked is pending, and the order loses no other pending id. -/
theorem popNextPendingEvictionId_spec {old : String} (h : popNextPendingEvictionId pending order = some (old, rest)) :
    old ∈ pending ∧ ∀ id ∈ pending, id ∈ order → id ≠ old → id ∈ rest := by
  unfold popNextPendingEvictionId at h
  simp only at h
  split at h
  · rename_i found hFirst
    obtain rfl := Option.some.inj h
    obtain ⟨hOld, hKept⟩ := takeFirst_spec hFirst
    exact ⟨mem_of_any_lookup hOld, fun id hPending hMem => hKept id (mem_dropStale hPending hMem)⟩
  · split at h
    · rename_i found hSecond
      obtain rfl := Option.some.inj h
      obtain ⟨hOld, hKept⟩ := takeFirst_spec hSecond
      exact ⟨mem_of_any_lookup hOld, fun id hPending hMem => hKept id (mem_dropStale hPending hMem)⟩
    · split at h
      · rename_i first others hThird
        obtain ⟨rfl, rfl⟩ := Prod.mk.inj (Option.some.inj h)
        refine ⟨dropStale_eq_cons hThird, ?_⟩
        intro id hPending hMem hOther
        have hLeft := mem_dropStale hPending (mem_dropStale hPending hMem)
        rw [hThird] at hLeft
        exact (List.mem_cons.mp hLeft).resolve_left hOther
      · rename_i hThird
        obtain ⟨key, hKey, hEq⟩ := Option.map_eq_some_iff.mp h
        obtain ⟨rfl, rfl⟩ := Prod.mk.inj hEq
        refine ⟨AList.mem_keys.mpr (List.mem_of_head? hKey), ?_⟩
        intro id hPending hMem _
        have hLeft := mem_dropStale hPending (mem_dropStale hPending hMem)
        rwa [hThird] at hLeft

theorem popNextPendingEvictionId_ne_none (h : 0 < pending.keys.length) :
    popNextPendingEvictionId pending order ≠ none := by
  obtain ⟨key, keys, hKeys⟩ := List.exists_cons_of_length_pos h
  unfold popNextPendingEvictionId
  simp only
  split
  · simp
  · split
    · simp
    · split
      · simp
      · simp [hKeys]

/-! ## The log of one call -/

/-- What the log has said about a call: it has an entry, lost an event, was found inconsistent. -/
structure CallView where
  isPending : Bool := false
  lost : Bool := false
  inconsistent : Bool := false
deriving DecidableEq

def CallView.setPending (view : CallView) (isPending : Bool) : CallView := { view with isPending }

def CallView.setLost (view : CallView) (lost : Bool) : CallView := { view with lost }

/-- A line may count as complete: it has its input, an outcome, the closing mark and no open exchange,
and neither a loss nor an inconsistency of its call is on record. -/
def CallView.vouches (view : CallView) (line : Recording Message) : Bool :=
  line.inputArrived && line.outcome.status ≠ .pending && line.transportClosed &&
    line.exchanges.all (·.finalized) && !view.lost && !view.inconsistent

/-- The life of the entries of one call. An entry is made while there is none, and written while there
is one. A line is complete only if the view vouches for it; losses are taken off the record with a line,
or for a call that has no entry. A line written for lack of room or at the end is not complete. -/
def callLog (callId : String) : Acceptor CallView (Log Message)
  | view, .created id =>
    if id ≠ callId then some view
    else if view.isPending then none else some (view.setPending true)
  | view, .lost id => if id ≠ callId then some view else some (view.setLost true)
  | view, .forgotten id =>
    if id ≠ callId then some view
    else if view.isPending then none else some (view.setLost false)
  | view, .inconsistent id => if id ≠ callId then some view else some { view with inconsistent := true }
  | view, .finalised line =>
    if line.callId ≠ callId then some view
    else if view.isPending && (!line.complete || view.vouches line) then
      some ((view.setPending false).setLost false)
    else none
  | view, .evicted line =>
    if line.callId ≠ callId then some view
    else if view.isPending && !line.complete then some (view.setPending false) else none
  | view, .drained line =>
    if line.callId ≠ callId then some view
    else if view.isPending && !line.complete then some (view.setPending false) else none

namespace Writer

def view (writer : Writer Message) (callId : String) : CallView where
  isPending := callId ∈ writer.pending
  lost := callId ∈ writer.lossy
  inconsistent := callId ∈ writer.inconsistent

theorem view_markLossy (writer : Writer Message) (marked callId : String) : (writer.markLossy marked).view callId =
      if marked = callId then (writer.view callId).setLost true else writer.view callId := by
  by_cases hEq : marked = callId
  · simp [view, markLossy, CallView.setLost, hEq]
  · have hNot : ¬ callId = marked := fun h => hEq h.symm
    simp only [view, markLossy, Finset.mem_insert, hNot, false_or, if_neg hEq]
    congr

theorem view_clearLossy (writer : Writer Message) (cleared callId : String) : (writer.clearLossy cleared).view callId =
      if cleared = callId then (writer.view callId).setLost false else writer.view callId := by
  by_cases hEq : cleared = callId
  · simp [view, clearLossy, CallView.setLost, hEq]
  · have hNot : ¬ callId = cleared := fun h => hEq h.symm
    simp only [view, clearLossy, Finset.mem_erase, ne_eq, hNot, not_false_eq_true, true_and, if_neg hEq]
    congr

/-- The log of a move takes the view of every call to the view it has afterwards. -/
def Follows (writer : Writer Message) (log : List (Log Message)) (after : Writer Message) : Prop :=
  ∀ callId, Acceptor.run (callLog callId) (writer.view callId) log = some (after.view callId)

variable {writer : Writer Message}

theorem Follows.trans {middle after : Writer Message} {first rest : List (Log Message)}
    (hFirst : writer.Follows first middle) (hRest : middle.Follows rest after) :
    writer.Follows (first ++ rest) after :=
  fun callId => Acceptor.run_append_of_some (hFirst callId) (hRest callId)

theorem Follows.of_view {after : Writer Message} (h : ∀ callId, after.view callId = writer.view callId) :
    writer.Follows [] after :=
  fun callId => congrArg some (h callId).symm

/-- Entries go by the id of their call, and the order knows them all. -/
structure Kept (writer : Writer Message) : Prop where
  named : ∀ callId rec, writer.pending.lookup callId = some rec → rec.callId = callId
  ordered : ∀ callId ∈ writer.pending, callId ∈ writer.pendingOrder

def UnreadyBut (callId : String) (writer : Writer Message) : Prop :=
  ∀ id rec, id ≠ callId → writer.pending.lookup id = some rec → rec.ready = false

structure Tidy (writer : Writer Message) : Prop where
  kept : writer.Kept
  bounded : writer.pending.keys.length ≤ jsonlPendingMax
  unready : ∀ callId rec, writer.pending.lookup callId = some rec → rec.ready = false

variable {callId : String} {rec : Recording Message}

theorem mem_of_lookup (h : pending.lookup callId = some rec) : callId ∈ pending :=
  AList.lookup_isSome.mp (by rw [h]; rfl)

theorem lookup_of_mem (h : callId ∈ pending) :
    ∃ rec, pending.lookup callId = some rec :=
  Option.isSome_iff_exists.mp (AList.lookup_isSome.mpr h)

theorem lookup_erase_some {gone : String} (h : (pending.erase gone).lookup callId = some rec) :
    callId ≠ gone ∧ pending.lookup callId = some rec := by
  by_cases hEq : callId = gone
  · subst hEq
    rw [AList.lookup_erase] at h
    cases h
  · exact ⟨hEq, by rwa [AList.lookup_erase_ne hEq] at h⟩

/-! ## Aging -/

theorem ageOut_frame (order : List String) (writer : Writer Message) :
    (writer.ageOut order).1.pending = writer.pending ∧
      (writer.ageOut order).1.pendingOrder = writer.pendingOrder ∧
      (writer.ageOut order).1.inconsistent = writer.inconsistent := by
  induction order generalizing writer with
  | nil => exact ⟨rfl, rfl, rfl⟩
  | cons old rest ih =>
    unfold ageOut
    split
    · simp only
      split
      · exact ih _
      · exact ih _
    · exact ⟨rfl, rfl, rfl⟩

/-- Only marks of tracked calls without an entry are taken off. -/
theorem ageOut_log (callId : String) (isPending : Bool) (order : List String) (writer : Writer Message)
    (hKept : isPending = true → callId ∉ writer.evictedCalls.set ∨ callId ∈ writer.pending) :
    Acceptor.run (callLog callId) ((writer.view callId).setPending isPending) (writer.ageOut order).2 =
      some (((writer.ageOut order).1.view callId).setPending isPending) := by
  induction order generalizing writer with
  | nil => rfl
  | cons old rest ih =>
    unfold ageOut
    split
    · simp only
      split
      · rename_i hAged
        have hMove : callLog callId ((writer.view callId).setPending isPending) (.forgotten old : Log Message) =
            some (((writer.clearLossy old).view callId).setPending isPending) := by
          rw [view_clearLossy]
          by_cases hEq : old = callId
          · subst hEq
            have hClosed : isPending = false := by
              by_contra hOpen
              rcases hKept (Bool.eq_true_of_not_eq_false hOpen) with hSet | hPending
              · exact hSet hAged.1
              · exact hAged.2 hPending
            simp [callLog, hClosed, CallView.setPending, CallView.setLost]
          · simp [callLog, hEq]
        rw [Acceptor.run, hMove]
        refine ih ({ writer with evictedCalls :=
          { writer.evictedCalls with set := writer.evictedCalls.set.erase old } }.clearLossy old) ?_
        intro hOpen
        exact (hKept hOpen).imp_left fun hSet hMem => hSet (Finset.mem_of_mem_erase hMem)
      · refine ih { writer with evictedCalls :=
          { writer.evictedCalls with set := writer.evictedCalls.set.erase old } } ?_
        intro hOpen
        exact (hKept hOpen).imp_left fun hSet hMem => hSet (Finset.mem_of_mem_erase hMem)
    · rfl

theorem trackEvicted_frame (writer : Writer Message) (callId : String) :
    (writer.trackEvicted callId).1.pending = writer.pending ∧
      (writer.trackEvicted callId).1.pendingOrder = writer.pendingOrder := by
  unfold trackEvicted
  split
  · exact ⟨rfl, rfl⟩
  · exact ⟨(ageOut_frame _ writer).1, (ageOut_frame _ writer).2.1⟩

theorem trackEvicted_log (callId old : String) (isPending : Bool) (writer : Writer Message)
    (hKept : isPending = true → callId = old ∨ callId ∈ writer.pending) :
    Acceptor.run (callLog callId) ((writer.view callId).setPending isPending) (writer.trackEvicted old).2 =
      some (((writer.trackEvicted old).1.view callId).setPending isPending) := by
  unfold trackEvicted
  split
  · rfl
  · rename_i hNew
    refine ageOut_log callId isPending _ writer ?_
    intro hOpen
    rcases hKept hOpen with rfl | hPending
    · exact .inl hNew
    · exact .inr hPending

/-! ## Making room -/

theorem evictOne_frame (writer : Writer Message) (old : String) (order : List String) (rec : Recording Message) :
    (writer.evictOne old order rec).1.pending = writer.pending.erase old ∧
      (writer.evictOne old order rec).1.pendingOrder = order :=
  trackEvicted_frame _ old

/-- The writer without an entry, its call marked. -/
def withoutEntry (writer : Writer Message) (old : String) (order : List String) : Writer Message :=
  { writer with pending := writer.pending.erase old, pendingOrder := order }.notePendingEvicted old

theorem view_withoutEntry (writer : Writer Message) (old callId : String) (order : List String) :
    ((writer.withoutEntry old order).view callId).setPending (callId ∈ writer.pending) =
      if old = callId then (writer.view callId).setLost true else writer.view callId := by
  have hMarked := view_markLossy { writer with pending := writer.pending.erase old, pendingOrder := order }
    old callId
  change (view (markLossy _ old) callId).setPending _ = _
  rw [hMarked]
  split <;> rfl

theorem evictOne_follows (h : writer.Kept) {old : String} (hOld : writer.pending.lookup old = some rec)
    (order : List String) :
    writer.Follows (writer.evictOne old order rec).2 (writer.evictOne old order rec).1 := by
  intro callId
  have hName : rec.abandoned.callId = old := h.named old rec hOld
  have hMem : old ∈ writer.pending := mem_of_lookup hOld
  have hErased : (writer.evictOne old order rec).1.pending = writer.pending.erase old :=
    (writer.evictOne_frame old order rec).1
  have hLost : callLog callId (writer.view callId) (.lost old : Log Message) =
      some (((writer.withoutEntry old order).view callId).setPending (callId ∈ writer.pending)) := by
    rw [view_withoutEntry]
    by_cases hEq : old = callId
    · simp [callLog, hEq]
    · simp [callLog, hEq]
  have hTracked := trackEvicted_log callId old (callId ∈ writer.pending) (writer.withoutEntry old order) (by
    intro hOpen
    by_cases hEq : callId = old
    · exact .inl hEq
    · exact .inr (AList.mem_erase.mpr ⟨hEq, of_decide_eq_true hOpen⟩))
  have hLine : callLog callId
      (((writer.evictOne old order rec).1.view callId).setPending (callId ∈ writer.pending))
      (.evicted rec.abandoned) = some ((writer.evictOne old order rec).1.view callId) := by
    simp only [callLog, hName]
    by_cases hEq : old = callId
    · subst hEq
      simp [view, CallView.setPending, hErased, hMem, Recording.abandoned]
    · have hNot : ¬ callId = old := fun hSame => hEq hSame.symm
      simp [view, CallView.setPending, hErased, hEq, hNot]
  have hHead : Acceptor.run (callLog callId) (writer.view callId)
      (Log.lost old :: ((writer.withoutEntry old order).trackEvicted old).2) =
        some (((writer.evictOne old order rec).1.view callId).setPending (callId ∈ writer.pending)) := by
    rw [Acceptor.run, hLost]
    exact hTracked
  have hLast : Acceptor.run (callLog callId)
      (((writer.evictOne old order rec).1.view callId).setPending (callId ∈ writer.pending))
      [Log.evicted rec.abandoned] = some ((writer.evictOne old order rec).1.view callId) := by
    rw [Acceptor.run, hLine]
    rfl
  exact Acceptor.run_append_of_some hHead hLast

theorem Kept.reorder (h : writer.Kept) (hOrder : ∀ id ∈ writer.pending, id ∈ writer.pendingOrder → id ∈ order) :
    Kept { writer with pendingOrder := order } where
  named := h.named
  ordered := fun id hMem => hOrder id hMem (h.ordered id hMem)

theorem Kept.evictOne (h : writer.Kept) (old : String)
    (hOrder : ∀ id ∈ writer.pending, id ∈ writer.pendingOrder → id ≠ old → id ∈ order) (rec : Recording Message) :
    (writer.evictOne old order rec).1.Kept := by
  obtain ⟨hPending, hOrdered⟩ := writer.evictOne_frame old order rec
  refine ⟨?_, ?_⟩
  · intro id found hFound
    rw [hPending] at hFound
    exact h.named id found (lookup_erase_some hFound).2
  · intro id hMem
    rw [hPending] at hMem
    obtain ⟨hOther, hMem⟩ := AList.mem_erase.mp hMem
    rw [hOrdered]
    exact hOrder id hMem (h.ordered id hMem) hOther

/-- What making room leaves: a table with a free place, whose entries were there before. -/
structure Room (writer after : Writer Message) (log : List (Log Message)) : Prop where
  kept : after.Kept
  space : after.pending.keys.length < jsonlPendingMax
  before : ∀ id rec, after.pending.lookup id = some rec → writer.pending.lookup id = some rec
  follows : writer.Follows log after

theorem evictLoop_room (rounds : Nat) (writer : Writer Message) (h : writer.Kept)
    (hRounds : writer.pending.keys.length ≤ rounds) :
    Room writer (evictLoop rounds writer).1 (evictLoop rounds writer).2 := by
  induction rounds generalizing writer with
  | zero =>
    refine ⟨h, ?_, fun _ _ hRec => hRec, .of_view fun _ => rfl⟩
    exact Nat.lt_of_le_of_lt hRounds (by decide)
  | succ rounds ih =>
    unfold evictLoop
    split
    · rename_i hFull
      have hPositive : 0 < writer.pending.keys.length := Nat.lt_of_lt_of_le (by decide) hFull
      split
      · rename_i hNone
        exact absurd hNone (popNextPendingEvictionId_ne_none hPositive)
      · rename_i old order hPop
        obtain ⟨hOld, hOrder⟩ := popNextPendingEvictionId_spec hPop
        obtain ⟨rec, hRec⟩ := lookup_of_mem hOld
        simp only [hRec]
        obtain ⟨hPending, _⟩ := writer.evictOne_frame old order rec
        have hKept := h.evictOne old hOrder rec
        have hLength : (writer.evictOne old order rec).1.pending.keys.length ≤ rounds := by
          rw [hPending, AList.keys_erase, List.length_erase_of_mem (AList.mem_keys.mp hOld)]
          omega
        have hAfter := ih _ hKept hLength
        refine ⟨hAfter.kept, hAfter.space, ?_, (evictOne_follows h hRec order).trans hAfter.follows⟩
        intro id found hFound
        have hFound := hAfter.before id found hFound
        rw [hPending] at hFound
        exact (lookup_erase_some hFound).2
    · rename_i hSpace
      exact ⟨h, Nat.lt_of_not_le hSpace, fun _ _ hRec => hRec, .of_view fun _ => rfl⟩

theorem evictJsonlPendingIfNeeded_room (h : writer.Kept) :
    Room writer writer.evictJsonlPendingIfNeeded.1 writer.evictJsonlPendingIfNeeded.2 := by
  have hClean := h.reorder fun id hPending hMem => mem_cleanOrder jsonlPendingMax hPending hMem
  have hRoom := evictLoop_room _ _ hClean (Nat.le_refl _)
  exact ⟨hRoom.kept, hRoom.space, hRoom.before, hRoom.follows⟩

/-! ## Entries -/

theorem Kept.insert (h : writer.Kept) (hName : rec.callId = callId) (hNew : callId ∈ order)
    (hOrder : ∀ id ∈ writer.pendingOrder, id ∈ order) :
    Kept { writer with pending := writer.pending.insert callId rec, pendingOrder := order } where
  named := by
    intro id found hFound
    by_cases hEq : id = callId
    · subst hEq
      rw [AList.lookup_insert] at hFound
      rw [← Option.some.inj hFound, hName]
    · rw [AList.lookup_insert_ne hEq] at hFound
      exact h.named id found hFound
  ordered := by
    intro id hMem
    rcases (AList.mem_insert _).mp hMem with rfl | hMem
    · exact hNew
    · exact hOrder id (h.ordered id hMem)

theorem UnreadyBut.insert (h : writer.UnreadyBut callId) (rec : Recording Message) (order : List String) :
    UnreadyBut callId { writer with pending := writer.pending.insert callId rec, pendingOrder := order } := by
  intro id found hOther hFound
  rw [AList.lookup_insert_ne hOther] at hFound
  exact h id found hOther hFound

/-- The table has its bound and only the entry of one call may be ready. -/
structure TidyBut (callId : String) (writer : Writer Message) : Prop where
  kept : writer.Kept
  bounded : writer.pending.keys.length ≤ jsonlPendingMax
  unready : writer.UnreadyBut callId

theorem Tidy.but (h : writer.Tidy) (callId : String) : writer.TidyBut callId :=
  ⟨h.kept, h.bounded, fun id rec _ => h.unready id rec⟩

theorem view_insert (writer : Writer Message) (callId id : String) (rec : Recording Message) (order : List String) :
    view { writer with pending := writer.pending.insert callId rec, pendingOrder := order } id =
      if callId = id then (writer.view id).setPending true else writer.view id := by
  by_cases hEq : callId = id
  · subst hEq
    simp [view, CallView.setPending]
  · have hNot : ¬ id = callId := fun h => hEq h.symm
    simp only [view, AList.mem_insert, hNot, false_or, if_neg hEq]

theorem addEntry_spec (h : writer.Tidy) (hNew : callId ∉ writer.pending) (rec : Recording Message)
    (hName : rec.callId = callId) :
    (writer.addEntry callId rec).1.TidyBut callId ∧
      writer.Follows (writer.addEntry callId rec).2 (writer.addEntry callId rec).1 ∧
      (writer.addEntry callId rec).1.pending.lookup callId = some rec := by
  have hRoom := evictJsonlPendingIfNeeded_room h.kept
  have hAbsent : callId ∉ writer.evictJsonlPendingIfNeeded.1.pending := by
    intro hMem
    obtain ⟨found, hFound⟩ := lookup_of_mem hMem
    exact hNew (mem_of_lookup (hRoom.before callId found hFound))
  refine ⟨⟨?_, ?_, ?_⟩, hRoom.follows.trans ?_, AList.lookup_insert _⟩
  · exact hRoom.kept.insert hName (by simp) (by simp +contextual)
  · change (AList.insert callId rec writer.evictJsonlPendingIfNeeded.1.pending).keys.length ≤ _
    rw [AList.keys_insert, List.length_cons, List.erase_of_not_mem fun hMem => hAbsent (AList.mem_keys.mpr hMem)]
    exact hRoom.space
  · refine UnreadyBut.insert ?_ rec _
    intro id found _ hFound
    exact h.unready id found (hRoom.before id found hFound)
  · intro id
    have hAdded : (writer.addEntry callId rec).1.view id =
        if callId = id then (writer.evictJsonlPendingIfNeeded.1.view id).setPending true
        else writer.evictJsonlPendingIfNeeded.1.view id := view_insert _ callId id rec _
    rw [hAdded, Acceptor.run, callLog]
    by_cases hEq : callId = id
    · subst hEq
      simp [view, hAbsent, Acceptor.run]
    · simp [hEq, Acceptor.run]

variable {f : Recording Message → Recording Message}

/-- A change to an entry in place is seen by no one but the entry. -/
theorem modify_spec (h : writer.TidyBut callId) (hName : ∀ rec, (f rec).callId = rec.callId) :
    (writer.modify callId f).TidyBut callId ∧ writer.Follows [] (writer.modify callId f) := by
  unfold modify
  cases hRec : writer.pending.lookup callId with
  | none => exact ⟨h, .of_view fun _ => rfl⟩
  | some rec =>
    have hMem := mem_of_lookup hRec
    refine ⟨⟨?_, ?_, ?_⟩, .of_view ?_⟩
    · exact h.kept.insert ((hName rec).trans (h.kept.named callId rec hRec)) (h.kept.ordered callId hMem)
        fun _ hOrder => hOrder
    · change (AList.insert callId (f rec) writer.pending).keys.length ≤ _
      rw [AList.keys_insert, List.length_cons, List.length_erase_of_mem (AList.mem_keys.mp hMem)]
      have hPositive := List.length_pos_of_mem (AList.mem_keys.mp hMem)
      have hBounded := h.bounded
      omega
    · exact h.unready.insert (f rec) _
    · intro id
      have hView := view_insert writer callId id (f rec) writer.pendingOrder
      refine hView.trans ?_
      split
      · rename_i hEq
        subst hEq
        simp [view, CallView.setPending, hMem]
      · rfl

/-- The view of a call whose entry is taken out. -/
theorem view_erase (writer : Writer Message) (callId id : String) (order : List String) :
    view { writer with pending := writer.pending.erase callId, pendingOrder := order } id =
      if callId = id then (writer.view id).setPending false else writer.view id := by
  by_cases hEq : callId = id
  · subst hEq
    simp [view, CallView.setPending]
  · have hNot : ¬ id = callId := fun h => hEq h.symm
    simp only [view, AList.mem_erase, ne_eq, hNot, not_false_eq_true, true_and, if_neg hEq]

theorem ready_iff (rec : Recording Message) : rec.ready = true ↔
    rec.transportClosed = true ∧ rec.outcome.status ≠ .pending ∧ rec.inputArrived = true ∧
      rec.exchanges.all (·.finalized) = true := by
  simp [Recording.ready, and_assoc]

theorem vouches_of_ready {line : Recording Message} (hReady : line.ready = true) {view : CallView}
    (hLost : view.lost = false) (hInconsistent : view.inconsistent = false) : view.vouches line = true := by
  obtain ⟨hClosed, hOutcome, hInput, hExchanges⟩ := (ready_iff line).mp hReady
  simp [CallView.vouches, hInput, hClosed, hExchanges, hLost, hInconsistent, hOutcome]

theorem callLog_finalised {view : CallView} {line : Recording Message} (hName : line.callId = callId)
    (hOpen : view.isPending = true) (hLine : line.complete = true → view.vouches line = true) :
    callLog callId view (.finalised line) = some ((view.setPending false).setLost false) := by
  have hAllowed : (view.isPending && (!line.complete || view.vouches line)) = true := by
    cases hComplete : line.complete with
    | false => simp [hOpen]
    | true => simp [hOpen, hLine hComplete]
  rw [callLog, if_neg (not_not.mpr hName), if_pos hAllowed]

theorem finalise_follows (hName : rec.callId = callId) (hReady : rec.ready = true) (hMem : callId ∈ writer.pending)
    (order : List String) :
    let removed := { writer with pending := writer.pending.erase callId, pendingOrder := order }
    writer.Follows (removed.finalise callId rec).2 (removed.finalise callId rec).1 := by
  intro removed id
  have hView : (removed.clearLossy callId).view id =
      if callId = id then ((writer.view id).setPending false).setLost false else writer.view id := by
    rw [view_clearLossy, view_erase]
    split <;> rfl
  have hMove : callLog id (writer.view id)
      (.finalised { rec with complete := !removed.isDamaged callId }) =
        some ((removed.clearLossy callId).view id) := by
    rw [hView]
    by_cases hEq : callId = id
    · subst hEq
      rw [if_pos rfl]
      refine callLog_finalised hName (decide_eq_true hMem) ?_
      intro hComplete
      have hSound : removed.isDamaged callId = false := by simpa using hComplete
      obtain ⟨hLost, hBad⟩ := Bool.or_eq_false_iff.mp hSound
      exact vouches_of_ready hReady hLost hBad
    · rw [if_neg hEq, callLog, if_pos (by rwa [hName])]
  change Acceptor.run (callLog id) (writer.view id) [.finalised _] = _
  rw [Acceptor.run, hMove]
  rfl

theorem Kept.erase (h : writer.Kept) (callId : String) (hOrder : ∀ id ∈ writer.pending, id ≠ callId → id ∈ order) :
    Kept { writer with pending := writer.pending.erase callId, pendingOrder := order } where
  named := fun id rec hRec => h.named id rec (lookup_erase_some hRec).2
  ordered := by
    intro id hMem
    obtain ⟨hOther, hMem⟩ := AList.mem_erase.mp hMem
    exact hOrder id hMem hOther

theorem length_erase_le (pending : Pending Message) (callId : String) :
    (pending.erase callId).keys.length ≤ pending.keys.length := by
  rw [AList.keys_erase]
  exact List.length_erase_le

/-- Whatever the entry of the call is like, afterwards none is ready. -/
theorem tryFinalize_spec (h : writer.TidyBut callId) : (writer.tryFinalize callId).1.Tidy ∧
      writer.Follows (writer.tryFinalize callId).2 (writer.tryFinalize callId).1 := by
  unfold tryFinalize
  cases hRec : writer.pending.lookup callId with
  | none =>
    refine ⟨⟨h.kept, h.bounded, ?_⟩, .of_view fun _ => rfl⟩
    intro id rec hFound
    by_cases hEq : id = callId
    · rw [hEq, hRec] at hFound
      cases hFound
    · exact h.unready id rec hEq hFound
  | some rec =>
    simp only
    split
    · rename_i hReady
      have hOrder : ∀ id ∈ writer.pending, id ≠ callId →
          id ∈ cleanOrder jsonlPendingMax (writer.pending.erase callId) writer.pendingOrder :=
        fun id hMem hOther => mem_cleanOrder _ (AList.mem_erase.mpr ⟨hOther, hMem⟩) (h.kept.ordered id hMem)
      have hErased := h.kept.erase callId hOrder
      rw [if_pos (by rw [((ready_iff rec).mp hReady).1, Bool.or_true])]
      refine ⟨⟨⟨hErased.named, hErased.ordered⟩, ?_, ?_⟩, ?_⟩
      · exact (length_erase_le writer.pending callId).trans h.bounded
      · intro id found hFound
        obtain ⟨hOther, hFound⟩ := lookup_erase_some hFound
        exact h.unready id found hOther hFound
      · exact finalise_follows (h.kept.named callId rec hRec) hReady (mem_of_lookup hRec) _
    · rename_i hUnready
      refine ⟨⟨h.kept, h.bounded, ?_⟩, .of_view fun _ => rfl⟩
      intro id found hFound
      by_cases hEq : id = callId
      · rw [hEq, hRec] at hFound
        rw [← Option.some.inj hFound]
        exact Bool.eq_false_of_not_eq_true hUnready
      · exact h.unready id found hEq hFound

/-! ## Events -/

/-- A move keeps the writer tidy, and its log says what it does. -/
def Sound (writer : Writer Message) (result : Writer Message × List (Log Message)) : Prop :=
  result.1.Tidy ∧ writer.Follows result.2 result.1

theorem view_markInconsistent (writer : Writer Message) (marked callId : String) :
    (writer.markInconsistent marked).view callId =
      if marked = callId then { writer.view callId with inconsistent := true } else writer.view callId := by
  by_cases hEq : marked = callId
  · simp [view, markInconsistent, hEq]
  · have hNot : ¬ callId = marked := fun h => hEq h.symm
    simp only [view, markInconsistent, Finset.mem_insert, hNot, false_or, if_neg hEq]
    congr

theorem markLossy_follows (writer : Writer Message) (callId : String) :
    writer.Follows [.lost callId] (writer.markLossy callId) := by
  intro id
  rw [view_markLossy, Acceptor.run, callLog]
  by_cases hEq : callId = id
  · simp [hEq, Acceptor.run]
  · simp [hEq, Acceptor.run]

theorem markInconsistent_follows (writer : Writer Message) (callId : String) :
    writer.Follows [.inconsistent callId] (writer.markInconsistent callId) := by
  intro id
  rw [view_markInconsistent, Acceptor.run, callLog]
  by_cases hEq : callId = id
  · simp [hEq, Acceptor.run]
  · simp [hEq, Acceptor.run]

theorem dropTrailing_sound (h : writer.Tidy) (callId : String) :
    Sound writer (writer.dropTrailing callId) :=
  ⟨⟨⟨h.kept.named, h.kept.ordered⟩, h.bounded, h.unready⟩, markLossy_follows writer callId⟩

theorem placeholder_unready (now callId : String) :
    (Recording.placeholder now callId : Recording Message).ready = false := rfl

theorem entryOrInit_spec (h : writer.Tidy) (now callId : String) : (writer.entryOrInit now callId).1.Tidy ∧
      writer.Follows (writer.entryOrInit now callId).2 (writer.entryOrInit now callId).1 := by
  unfold entryOrInit
  split
  · exact ⟨h, .of_view fun _ => rfl⟩
  · rename_i hNew
    obtain ⟨hTidy, hFollows, hEntry⟩ := addEntry_spec h hNew (.placeholder now callId) rfl
    refine ⟨⟨hTidy.kept, hTidy.bounded, ?_⟩, hFollows⟩
    intro id rec hRec
    by_cases hEq : id = callId
    · rw [hEq, hEntry] at hRec
      rw [← Option.some.inj hRec]
      exact placeholder_unready now callId
    · exact hTidy.unready id rec hEq hRec

theorem handle_sound (h : writer.Tidy) (now callId : String) (hName : ∀ rec, (f rec).callId = rec.callId) :
    Sound writer (writer.handle now callId f) := by
  unfold handle
  split
  · exact dropTrailing_sound h callId
  · obtain ⟨hEntry, hMade⟩ := entryOrInit_spec h now callId
    obtain ⟨hChanged, hSame⟩ := modify_spec (hEntry.but callId) hName
    obtain ⟨hTidy, hWritten⟩ := tryFinalize_spec hChanged
    exact ⟨hTidy, hMade.trans (hSame.trans hWritten)⟩

theorem handleChecked_sound (h : writer.Tidy) (now callId : String) {f : Recording Message → Recording Message × Bool}
    (hName : ∀ rec, (f rec).1.callId = rec.callId) :
    Sound writer (writer.handleChecked now callId f) := by
  unfold handleChecked
  split
  · exact dropTrailing_sound h callId
  · obtain ⟨hEntry, hMade⟩ := entryOrInit_spec h now callId
    obtain ⟨hChanged, hSame⟩ := modify_spec (hEntry.but callId) hName
    simp only
    split
    · have hMarked : (((writer.entryOrInit now callId).1.modify callId fun rec => (f rec).1).markInconsistent
          callId).TidyBut callId :=
        ⟨⟨hChanged.kept.named, hChanged.kept.ordered⟩, hChanged.bounded, hChanged.unready⟩
      obtain ⟨hTidy, hWritten⟩ := tryFinalize_spec hMarked
      have hNoted := hMade.trans (hSame.trans (markInconsistent_follows _ callId))
      exact ⟨hTidy, hNoted.trans hWritten⟩
    · obtain ⟨hTidy, hWritten⟩ := tryFinalize_spec hChanged
      exact ⟨hTidy, (hMade.trans hSame).trans hWritten⟩

theorem onInput_sound (h : writer.Tidy) (now callId : String) (input : InputRecord Message) (provider : ProviderRecord) :
    Sound writer (writer.onInput now callId input provider) := by
  unfold onInput
  split
  · exact dropTrailing_sound h callId
  · simp only
    split
    · obtain ⟨hChanged, hSame⟩ := modify_spec (h.but callId) (f := setInput input provider) fun _ => rfl
      obtain ⟨hTidy, hWritten⟩ := tryFinalize_spec hChanged
      exact ⟨hTidy, hSame.trans hWritten⟩
    · rename_i hNew
      obtain ⟨hEntry, hMade, _⟩ := addEntry_spec h hNew (.new now callId input provider) rfl
      obtain ⟨hTidy, hWritten⟩ := tryFinalize_spec hEntry
      exact ⟨hTidy, hMade.trans hWritten⟩

/-- Readiness does not look at the provider. -/
theorem onProvider_sound (h : writer.Tidy) (now callId : String) (provider : ProviderRecord) :
    Sound writer (writer.onProvider now callId provider) := by
  unfold onProvider
  split
  · exact dropTrailing_sound h callId
  · obtain ⟨hEntry, hMade⟩ := entryOrInit_spec h now callId
    obtain ⟨hChanged, hSame⟩ := modify_spec (hEntry.but callId)
      (f := fun rec => { rec with provider }) fun _ => rfl
    have hFollows := hMade.trans hSame
    rw [List.append_nil] at hFollows
    refine ⟨⟨hChanged.kept, hChanged.bounded, ?_⟩, hFollows⟩
    intro id rec hRec
    by_cases hEq : id = callId
    · subst hEq
      simp only [modify] at hRec
      split at hRec
      · exact hEntry.unready id rec hRec
      · rename_i old hOld
        rw [AList.lookup_insert] at hRec
        rw [← Option.some.inj hRec]
        exact hEntry.unready id old hOld
    · exact hChanged.unready id rec hEq hRec

theorem onTransportClosed_sound (h : writer.Tidy) (callId : String) :
    Sound writer (writer.onTransportClosed callId) := by
  unfold onTransportClosed
  split
  · exact dropTrailing_sound h callId
  · split
    · obtain ⟨hChanged, hSame⟩ := modify_spec (h.but callId)
        (f := fun rec => { rec with transportClosed := true }) fun _ => rfl
      obtain ⟨hTidy, hWritten⟩ := tryFinalize_spec hChanged
      exact ⟨hTidy, hSame.trans hWritten⟩
    · exact ⟨h, .of_view fun _ => rfl⟩

theorem readyIds_eq_nil (h : writer.Tidy) : readyIds writer.pending = [] := by
  rw [readyIds, List.filter_eq_nil_iff]
  intro id hMem
  obtain ⟨rec, hRec⟩ := lookup_of_mem (AList.mem_keys.mpr hMem)
  simp [hRec, h.unready id rec hRec]

/-- A flush finds nothing that is ready. -/
theorem writeReadyAll_sound (h : writer.Tidy) : Sound writer writer.writeReadyAll := by
  unfold writeReadyAll
  rw [readyIds_eq_nil h]
  refine ⟨⟨h.kept.reorder ?_, h.bounded, h.unready⟩, .of_view fun _ => rfl⟩
  intro id hPending hMem
  exact List.mem_filter.mpr ⟨hMem, decide_eq_true hPending⟩

theorem insertExchange_callId (rec : Recording Message) (exchange : HttpExchange) :
    (insertExchange rec exchange).1.callId = rec.callId := by
  unfold insertExchange
  simp only
  split <;> rfl

theorem applyExchangeUpdate_callId (rec : Recording Message) (attempt exchangeIndex : Nat)
    (response : ResponseRecord) (error : Option String) :
    (applyExchangeUpdate rec attempt exchangeIndex response error).1.callId = rec.callId := by
  unfold applyExchangeUpdate
  split <;> rfl

theorem step_sound (h : writer.Tidy) (action : Action Message) :
    Sound writer (step writer action) := by
  cases action with
  | lose callId =>
    exact ⟨⟨⟨h.kept.named, h.kept.ordered⟩, h.bounded, h.unready⟩, markLossy_follows writer callId⟩
  | deliver now event =>
    cases event with
    | input callId input provider => exact onInput_sound h now callId input provider
    | session callId sessionId step => exact handle_sound h now callId fun _ => rfl
    | provider callId provider => exact onProvider_sound h now callId provider
    | exchange callId exchange =>
      exact handleChecked_sound h now callId fun rec => insertExchange_callId rec exchange
    | exchangeUpdate callId attempt exchangeIndex response error =>
      exact handleChecked_sound h now callId fun rec =>
        applyExchangeUpdate_callId rec attempt exchangeIndex response error
    | outcome callId outcome => exact handle_sound h now callId fun _ => rfl
    | transportClosed callId => exact onTransportClosed_sound h callId
    | flush => exact writeReadyAll_sound h

theorem empty_tidy : ({} : Writer Message).Tidy where
  kept := ⟨fun callId rec hRec => by simp at hRec, fun callId hMem => absurd hMem (AList.notMem_empty callId)⟩
  bounded := Nat.zero_le _
  unready := fun callId rec hRec => by simp at hRec

theorem run_sound (schedule : List (Action Message)) :
    Sound {} (Transducer.run step ({} : Writer Message) schedule) := by
  refine Transducer.run_invariant (fun (writer : Writer Message) log => Sound {} (writer, log)) ?_ ?_ schedule
  · intro writer log action hBefore
    obtain ⟨hTidy, hStep⟩ := step_sound hBefore.1 action
    exact ⟨hTidy, hBefore.2.trans hStep⟩
  · exact ⟨empty_tidy, .of_view fun _ => rfl⟩

/-! ## Whole lives -/

theorem drained_log (callId : String) (entries : List (Sigma fun _ : String => Recording Message))
    (hNodup : entries.NodupKeys) (hNamed : ∀ entry ∈ entries, entry.2.callId = entry.1) (view : CallView)
    (hView : view.isPending = decide (callId ∈ entries.keys)) :
    Acceptor.run (callLog callId) view (entries.map fun entry => .drained entry.2.abandoned) =
      some (view.setPending false) := by
  induction entries generalizing view with
  | nil =>
    have hClosed : view.isPending = false := hView
    rw [List.map_nil, Acceptor.run, CallView.setPending, ← hClosed]
  | cons entry entries ih =>
    obtain ⟨hEntry, hRest⟩ := List.forall_mem_cons.mp hNamed
    obtain ⟨hFresh, hNodup⟩ := List.nodupKeys_cons.mp hNodup
    have hName : entry.2.abandoned.callId = entry.1 := hEntry
    rw [List.map_cons, Acceptor.run]
    by_cases hEq : entry.1 = callId
    · have hOpen : view.isPending = true := by simp [hView, hEq]
      have hMove : callLog callId view (.drained entry.2.abandoned) = some (view.setPending false) := by
        rw [callLog, if_neg (not_not.mpr (hName.trans hEq)), hOpen]
        rfl
      rw [hMove]
      have hTail := ih hNodup hRest (view.setPending false) (by
        rw [← hEq]
        simp [CallView.setPending, hFresh])
      exact hTail
    · have hMove : callLog callId view (.drained entry.2.abandoned) = some view := by
        rw [callLog, if_pos (by rwa [hName])]
      rw [hMove]
      refine ih hNodup hRest view ?_
      have hNot : ¬ callId = entry.1 := fun h => hEq h.symm
      simp [hView, hNot]

theorem shutdown_log (h : writer.Tidy) (callId : String) :
    Acceptor.run (callLog callId) (writer.view callId) writer.shutdown =
      some ((writer.view callId).setPending false) := by
  refine drained_log callId writer.pending.entries writer.pending.nodupKeys ?_ _
    (decide_eq_decide.mpr AList.mem_keys)
  intro entry hMem
  exact h.kept.named entry.1 entry.2 (AList.mem_lookup_iff.mpr hMem)

/-- Over every schedule of events and losses, of any calls in any order: after each event no pending
entry is ready, at most 128 are pending and the ids of the order that are not stale are theirs. The log
tells which calls have an entry, and with what the shutdown adds it lets every call make and write its
entries one for one, with no complete line the log does not vouch for. -/
theorem run_writer (schedule : List (Action Message)) :
    let result := Transducer.run step ({} : Writer Message) schedule
    (∀ callId rec, result.1.pending.lookup callId = some rec → rec.ready = false) ∧
      result.1.pending.keys.length ≤ 128 ∧
      (result.1.pendingOrder.filter fun id => decide (id ∈ result.1.pending)).toFinset =
        result.1.pending.keys.toFinset ∧
      ∀ callId, Acceptor.run (callLog callId) {} result.2 = some (result.1.view callId) ∧
        ∃ final, Acceptor.run (callLog callId) {} (result.2 ++ result.1.shutdown) = some final ∧
          final.isPending = false := by
  intro result
  obtain ⟨hTidy, hFollows⟩ : Sound {} result := run_sound schedule
  refine ⟨hTidy.unready, hTidy.bounded, ?_, ?_⟩
  · ext id
    simp only [List.mem_toFinset, List.mem_filter, decide_eq_true_eq, ← AList.mem_keys]
    exact ⟨And.right, fun hMem => ⟨hTidy.kept.ordered id hMem, hMem⟩⟩
  · intro callId
    exact ⟨hFollows callId, _,
      Acceptor.run_append_of_some (hFollows callId) (shutdown_log hTidy callId), rfl⟩

end Writer

end Aimux.Recorder
