import Aimux.Trace.Lookup

/-! # Records per scope

The count of a scope is taken down in two places, when the ring wraps onto a record and when the scope
is full, and both may concern the slot that is written next. It stays the number of live slots of the
scope all the same. A count that falls to zero keeps its entry; a scope cap of zero is no cap.
-/

namespace Aimux.Trace.TraceStore

open Aimux.Lib

def holds (scope : Nat) (slot : RingSlot) : Bool := slot.record.any fun record => record.scope = scope

@[simp] theorem holds_none (scope generation : Nat) : holds scope { generation, record := none } = false := rfl

@[simp] theorem holds_some (scope generation : Nat) (record : StoredRecord) :
    holds scope { generation, record := some record } = decide (record.scope = scope) := rfl

/-- The number of live slots whose record has the scope. -/
def liveInScope (ring : List RingSlot) (scope : Nat) : Nat := ring.countP (holds scope)

/-! ## The oldest record of a scope -/

def olderOf (scope : Nat) (oldest : Option (Nat × Nat)) (entry : RingSlot × Nat) : Option (Nat × Nat) :=
  match entry.1.record with
  | some r =>
    if r.scope = scope && oldest.all (fun found => r.tSendMs < found.2) then some (entry.2, r.tSendMs)
    else oldest
  | none => oldest

theorem oldestInScope_eq (ring : List RingSlot) (scope : Nat) :
    oldestInScope ring scope = ring.zipIdx.foldl (olderOf scope) none := rfl

theorem olderOf_some (scope : Nat) (oldest : Option (Nat × Nat)) (entry : RingSlot × Nat)
    (found : Nat × Nat) (h : olderOf scope oldest entry = some found) :
    oldest = some found ∨ (found.1 = entry.2 ∧ holds scope entry.1 = true) := by
  unfold olderOf at h
  split at h
  · rename_i record hRecord
    split at h
    · rename_i hOlder
      obtain rfl := Option.some.inj h
      have hScope : record.scope = scope := by
        have := (Bool.and_eq_true_iff.mp hOlder).1
        exact of_decide_eq_true this
      exact .inr ⟨rfl, by simp [holds, hRecord, hScope]⟩
    · exact .inl h
  · exact .inl h

theorem olderOf_none (scope : Nat) (oldest : Option (Nat × Nat)) (entry : RingSlot × Nat)
    (h : olderOf scope oldest entry = none) : oldest = none ∧ holds scope entry.1 = false := by
  unfold olderOf at h
  split at h
  · rename_i record hRecord
    split at h
    · cases h
    · rename_i hKept
      subst h
      refine ⟨rfl, ?_⟩
      simpa [holds, hRecord] using hKept
  · rename_i hRecord
    exact ⟨h, by simp [holds, hRecord]⟩

theorem foldl_olderOf_some (scope : Nat) (entries : List (RingSlot × Nat)) (start : Option (Nat × Nat))
    (found : Nat × Nat) (h : entries.foldl (olderOf scope) start = some found) :
    start = some found ∨ ∃ slot, (slot, found.1) ∈ entries ∧ holds scope slot = true := by
  induction entries generalizing start with
  | nil => exact .inl h
  | cons entry entries ih =>
    rcases ih _ h with hStep | ⟨slot, hMem, hHolds⟩
    · rcases olderOf_some scope start entry found hStep with hStart | ⟨hPlace, hHolds⟩
      · exact .inl hStart
      · refine .inr ⟨entry.1, ?_, hHolds⟩
        rw [hPlace]
        exact List.mem_cons_self
    · exact .inr ⟨slot, List.mem_cons_of_mem entry hMem, hHolds⟩

theorem foldl_olderOf_none (scope : Nat) (entries : List (RingSlot × Nat)) (start : Option (Nat × Nat))
    (h : entries.foldl (olderOf scope) start = none) :
    start = none ∧ ∀ entry ∈ entries, holds scope entry.1 = false := by
  induction entries generalizing start with
  | nil => exact ⟨h, by simp⟩
  | cons entry entries ih =>
    obtain ⟨hStep, hRest⟩ := ih _ h
    obtain ⟨hStart, hEntry⟩ := olderOf_none scope start entry hStep
    exact ⟨hStart, List.forall_mem_cons.mpr ⟨hEntry, hRest⟩⟩

variable {scope : Nat}

theorem oldestInScope_some {ring : List RingSlot} {slot time : Nat} (h : oldestInScope ring scope = some (slot, time)) :
    ∃ hSlot : slot < ring.length, holds scope ring[slot] = true := by
  rw [oldestInScope_eq] at h
  rcases foldl_olderOf_some scope _ _ _ h with hStart | ⟨found, hMem, hHolds⟩
  · cases hStart
  · obtain ⟨hSlot, hFound⟩ := List.getElem?_eq_some_iff.mp (List.mem_zipIdx_iff_getElem?.mp hMem)
    exact ⟨hSlot, by rwa [hFound]⟩

theorem oldestInScope_none {ring : List RingSlot} (h : oldestInScope ring scope = none) :
    liveInScope ring scope = 0 := by
  rw [oldestInScope_eq] at h
  rw [liveInScope, List.countP_eq_zero]
  intro slot hMem
  obtain ⟨i, hSlot⟩ := List.mem_iff_getElem?.mp hMem
  have hNone := (foldl_olderOf_none scope _ _ h).2 (slot, i) (List.mem_zipIdx_iff_getElem?.mpr hSlot)
  simp [hNone]

/-! ## The counts -/

/-- What the entry of a scope is read as. -/
def countOf (scopeCount : AList fun _ : Nat => Nat) (scope : Nat) : Nat := (scopeCount.lookup scope).getD 0

variable (scopeCount : AList fun _ : Nat => Nat)

theorem countOf_decrementScope (gone scope : Nat) :
    countOf (decrementScope scopeCount gone) scope =
      countOf scopeCount scope - (if scope = gone then 1 else 0) := by
  unfold decrementScope countOf
  by_cases h : scope = gone
  · subst h
    cases hCount : scopeCount.lookup scope with
    | none => simp [hCount]
    | some n => simp
  · cases hCount : scopeCount.lookup gone with
    | none => simp [h]
    | some n => simp [h, AList.lookup_insert_ne h]

theorem countOf_insert (added scope n : Nat) :
    countOf (scopeCount.insert added n) scope = if scope = added then n else countOf scopeCount scope := by
  unfold countOf
  by_cases h : scope = added
  · subst h
    simp
  · simp [h, AList.lookup_insert_ne h]

theorem mem_decrementScope (gone scope : Nat) :
    scope ∈ decrementScope scopeCount gone ↔ scope ∈ scopeCount := by
  unfold decrementScope
  split
  · rename_i n hCount
    rw [AList.mem_insert]
    constructor
    · rintro (rfl | hMem)
      · exact AList.lookup_isSome.mp (by simp [hCount])
      · exact hMem
    · exact .inr
  · rfl

/-- The counts are those of the ring, and within the scope cap if there is one. -/
structure Counted (store : TraceStore) : Prop where
  length : store.ring.length = store.cap
  positive : 0 < store.cap
  counts : ∀ scope, store.recordsInScope scope = liveInScope store.ring scope
  capped : 0 < store.perScopeCap → ∀ scope, liveInScope store.ring scope ≤ store.perScopeCap

theorem liveInScope_empty (cap scope : Nat) : liveInScope (List.replicate cap {}) scope = 0 := by
  rw [liveInScope, List.countP_eq_zero]
  intro slot hMem
  rw [List.eq_of_mem_replicate hMem]
  simp

theorem Counted.new {cap : Nat} (hCap : 0 < cap) (perScopeCap : Nat) :
    Counted (new cap perScopeCap) where
  length := List.length_replicate
  positive := hCap
  counts := by
    intro scope
    exact (liveInScope_empty cap scope).symm
  capped := by
    intro _ scope
    exact (liveInScope_empty cap scope).trans_le (Nat.zero_le perScopeCap)

theorem liveInScope_set (ring : List RingSlot) (scope slot : Nat) (next : RingSlot) (hSlot : slot < ring.length) :
    liveInScope (ring.set slot next) scope =
      liveInScope ring scope - (if holds scope ring[slot] then 1 else 0) +
        (if holds scope next then 1 else 0) :=
  List.countP_set hSlot

theorem holds_iff_eq {other : Nat} {slot : RingSlot} (h : holds scope slot = true) :
    holds other slot = true ↔ other = scope := by
  unfold holds at h ⊢
  cases hRecord : slot.record with
  | none => simp [hRecord] at h
  | some record =>
    simp only [hRecord, Option.any_some, decide_eq_true_eq] at h ⊢
    subst h
    exact eq_comm

variable {store : TraceStore}

theorem Counted.evictOldestInScope (h : Counted store) (scope : Nat) :
    Counted (store.evictOldestInScope scope) := by
  unfold TraceStore.evictOldestInScope
  split
  · rename_i slot time hOldest
    obtain ⟨hSlot, hHolds⟩ := oldestInScope_some hOldest
    have hLive : ∀ other, liveInScope (store.ring.set slot
        { generation := truncate32 ((store.slotAt slot).generation + 1), record := none }) other =
          liveInScope store.ring other - (if other = scope then 1 else 0) := by
      intro other
      rw [liveInScope_set _ _ _ _ hSlot]
      simp [holds_iff_eq hHolds]
    refine ⟨by simpa using h.length, h.positive, ?_, ?_⟩
    · intro other
      have hCount := h.counts other
      unfold recordsInScope at hCount ⊢
      rw [hLive, ← hCount]
      exact countOf_decrementScope _ _ _
    · intro hCap other
      rw [hLive]
      exact (Nat.sub_le _ _).trans (h.capped hCap other)
  · exact h

/-- After an eviction the scope has room for one more record. -/
theorem evictOldestInScope_room (h : Counted store) (hCap : 0 < store.perScopeCap) (scope : Nat) :
    liveInScope (store.evictOldestInScope scope).ring scope < store.perScopeCap := by
  unfold TraceStore.evictOldestInScope
  split
  · rename_i slot time hOldest
    obtain ⟨hSlot, hHolds⟩ := oldestInScope_some hOldest
    have hBound := h.capped hCap scope
    simp only
    rw [liveInScope_set _ _ _ _ hSlot]
    rw [if_pos hHolds, holds_none]
    simp only [Bool.false_eq_true, if_false]
    omega
  · rename_i hNone
    rw [oldestInScope_none hNone]
    exact hCap

theorem Counted.makeRoom (h : Counted store) (scope : Nat) :
    Counted (store.makeRoom scope) := by
  unfold TraceStore.makeRoom
  split
  · split
    · exact h.evictOldestInScope scope
    · exact h
  · exact h

@[simp] theorem evictOldestInScope_perScopeCap (store : TraceStore) (scope : Nat) :
    (store.evictOldestInScope scope).perScopeCap = store.perScopeCap := by
  unfold TraceStore.evictOldestInScope
  split <;> rfl

@[simp] theorem evictOldestInScope_cap (store : TraceStore) (scope : Nat) :
    (store.evictOldestInScope scope).cap = store.cap := by
  unfold TraceStore.evictOldestInScope
  split <;> rfl

@[simp] theorem makeRoom_perScopeCap (store : TraceStore) (scope : Nat) :
    (store.makeRoom scope).perScopeCap = store.perScopeCap := by
  unfold TraceStore.makeRoom
  split
  · split
    · exact evictOldestInScope_perScopeCap store scope
    · rfl
  · rfl

theorem makeRoom_room (h : Counted store) (hCap : 0 < store.perScopeCap) (scope : Nat) :
    liveInScope (store.makeRoom scope).ring scope < store.perScopeCap := by
  unfold TraceStore.makeRoom
  rw [if_pos hCap]
  split
  · exact evictOldestInScope_room h hCap scope
  · rename_i hBelow
    rw [← h.counts]
    omega

/-- Writing takes the count of the old record down before it takes that of the new one up. -/
theorem liveInScope_write (h : Counted store) (record : StoredRecord) (scope : Nat) :
    liveInScope (store.write record).ring scope =
      liveInScope store.ring scope - (if holds scope (store.slotAt (store.next % store.cap)) then 1 else 0) +
        (if scope = record.scope then 1 else 0) := by
  have hSlot : store.next % store.cap < store.ring.length := by
    rw [h.length]
    exact Nat.mod_lt _ h.positive
  have hOld : store.slotAt (store.next % store.cap) = store.ring[store.next % store.cap] := by
    simp [slotAt, List.getElem?_eq_getElem hSlot]
  simp only [write]
  rw [liveInScope_set _ _ _ _ hSlot, hOld, holds_some]
  simp only [decide_eq_true_eq, @eq_comm Nat record.scope]

/-- The counts without the record a slot held. -/
def withoutOld (scopeCount : AList fun _ : Nat => Nat) (old : RingSlot) : AList fun _ : Nat => Nat :=
  match old.record with
  | some record => decrementScope scopeCount record.scope
  | none => scopeCount

theorem countOf_withoutOld (old : RingSlot) (scope : Nat) :
    countOf (withoutOld scopeCount old) scope =
      countOf scopeCount scope - (if holds scope old then 1 else 0) := by
  unfold withoutOld holds
  cases old.record with
  | none => simp
  | some record => simp [countOf_decrementScope, eq_comm]

theorem mem_withoutOld (old : RingSlot) (scope : Nat) :
    scope ∈ withoutOld scopeCount old ↔ scope ∈ scopeCount := by
  unfold withoutOld
  split
  · exact mem_decrementScope _ _ _
  · rfl

theorem write_scopeCount (store : TraceStore) (record : StoredRecord) : (store.write record).scopeCount =
      let before := withoutOld store.scopeCount (store.slotAt (store.next % store.cap))
      before.insert record.scope (countOf before record.scope + 1) := rfl

theorem recordsInScope_write (store : TraceStore) (record : StoredRecord) (scope : Nat) :
    (store.write record).recordsInScope scope =
      store.recordsInScope scope - (if holds scope (store.slotAt (store.next % store.cap)) then 1 else 0) +
        (if scope = record.scope then 1 else 0) := by
  change countOf (store.write record).scopeCount scope = countOf store.scopeCount scope - _ + _
  rw [write_scopeCount]
  simp only
  rw [countOf_insert, ← countOf_withoutOld]
  by_cases h : scope = record.scope
  · subst h
    rw [if_pos rfl, if_pos rfl]
  · rw [if_neg h, if_neg h, Nat.add_zero]

theorem Counted.write (h : Counted store) (record : StoredRecord)
    (hRoom : 0 < store.perScopeCap → liveInScope store.ring record.scope < store.perScopeCap) :
    Counted (store.write record) where
  length := by simpa [TraceStore.write] using h.length
  positive := h.positive
  counts := by
    intro scope
    rw [recordsInScope_write, liveInScope_write h, h.counts]
  capped := by
    intro hCap scope
    rw [liveInScope_write h]
    change _ ≤ store.perScopeCap
    have hBound := h.capped hCap scope
    by_cases hScope : scope = record.scope
    · have := hRoom hCap
      subst hScope
      rw [if_pos rfl]
      omega
    · rw [if_neg hScope]
      omega

theorem Counted.insert (h : Counted store) (record : StoredRecord) :
    Counted (store.insert record) := by
  refine (h.makeRoom record.scope).write record ?_
  rw [makeRoom_perScopeCap]
  exact fun hCap => makeRoom_room h hCap record.scope

/-- A lookup writes the index and the tombstone count only. -/
theorem lookup_frame (store : TraceStore) (scope : Nat) (chain : Chain) (nowMs ttlMs : Nat) :
    (store.lookup scope chain nowMs ttlMs).1.ring = store.ring ∧
      (store.lookup scope chain nowMs ttlMs).1.scopeCount = store.scopeCount ∧
      (store.lookup scope chain nowMs ttlMs).1.cap = store.cap ∧
      (store.lookup scope chain nowMs ttlMs).1.perScopeCap = store.perScopeCap := by
  unfold TraceStore.lookup
  split
  · unfold maybeRebuildIndex
    simp only
    split <;> exact ⟨rfl, rfl, rfl, rfl⟩
  · simp only
    split <;>
    · unfold maybeRebuildIndex
      simp only
      split <;> exact ⟨rfl, rfl, rfl, rfl⟩

theorem Counted.lookup (h : Counted store) (scope : Nat) (chain : Chain) (nowMs ttlMs : Nat) :
    Counted (store.lookup scope chain nowMs ttlMs).1 := by
  obtain ⟨hRing, hCount, hCap, hPerScope⟩ := store.lookup_frame scope chain nowMs ttlMs
  refine ⟨by rw [hRing, hCap, h.length], by rw [hCap]; exact h.positive, ?_, ?_⟩
  · intro other
    rw [recordsInScope, hCount, hRing]
    exact h.counts other
  · rw [hPerScope, hRing]
    exact h.capped

theorem Counted.step (h : Counted store) (action : Action) :
    Counted (step store action).1 := by
  cases action with
  | insert record => exact h.insert record
  | lookup scope chain nowMs ttlMs => exact h.lookup scope chain nowMs ttlMs

theorem run_counted {cap : Nat} (hCap : 0 < cap) (perScopeCap : Nat) (schedule : List Action) :
    Counted (Transducer.run TraceStore.step (TraceStore.new cap perScopeCap) schedule).1 :=
  Transducer.run_state_invariant Counted (fun _ action h => h.step action) (Counted.new hCap perScopeCap)
    schedule

/-! ## Entries -/

theorem mem_scopeCount_insert (store : TraceStore) (record : StoredRecord) (scope : Nat) :
    scope ∈ (store.insert record).scopeCount ↔ scope = record.scope ∨ scope ∈ store.scopeCount := by
  have hRoom : scope ∈ (store.makeRoom record.scope).scopeCount ↔ scope ∈ store.scopeCount := by
    unfold TraceStore.makeRoom TraceStore.evictOldestInScope
    split
    · split
      · split
        · exact mem_decrementScope _ _ _
        · rfl
      · rfl
    · rfl
  rw [TraceStore.insert, write_scopeCount]
  simp only
  rw [AList.mem_insert, mem_withoutOld, hRoom]

/-- A scope has an entry from its first record on. -/
theorem mem_scopeCount_run (schedule : List Action) (store : TraceStore) (scope : Nat) :
    scope ∈ (Transducer.run TraceStore.step store schedule).1.scopeCount ↔
      scope ∈ store.scopeCount ∨ ∃ record, Action.insert record ∈ schedule ∧ record.scope = scope := by
  induction schedule generalizing store with
  | nil => simp
  | cons action schedule ih =>
    rw [Transducer.run_cons, ih]
    cases action with
    | insert record =>
      simp only [TraceStore.step, mem_scopeCount_insert, List.mem_cons, Action.insert.injEq]
      constructor
      · rintro ((rfl | hMem) | ⟨other, hMem, hScope⟩)
        · exact .inr ⟨record, .inl rfl, rfl⟩
        · exact .inl hMem
        · exact .inr ⟨other, .inr hMem, hScope⟩
      · rintro (hMem | ⟨other, rfl | hMem, hScope⟩)
        · exact .inl (.inr hMem)
        · exact .inl (.inl hScope.symm)
        · exact .inr ⟨other, hMem, hScope⟩
    | lookup key chain nowMs ttlMs =>
      simp only [TraceStore.step, (store.lookup_frame key chain nowMs ttlMs).2.1, List.mem_cons, reduceCtorEq,
        false_or]

theorem live_length_le (ring : List RingSlot) : (ring.filterMap (·.record)).length ≤ ring.length :=
  List.length_filterMap_le _ _

@[simp] theorem step_cap (store : TraceStore) (action : Action) : (step store action).1.cap = store.cap := by
  cases action with
  | insert record =>
    simp only [TraceStore.step, TraceStore.insert, TraceStore.write, TraceStore.makeRoom]
    split
    · split
      · exact evictOldestInScope_cap store record.scope
      · rfl
    · rfl
  | lookup scope chain nowMs ttlMs => exact (store.lookup_frame scope chain nowMs ttlMs).2.2.1

@[simp] theorem step_perScopeCap (store : TraceStore) (action : Action) :
    (step store action).1.perScopeCap = store.perScopeCap := by
  cases action with
  | insert record => exact makeRoom_perScopeCap store record.scope
  | lookup scope chain nowMs ttlMs => exact (store.lookup_frame scope chain nowMs ttlMs).2.2.2

theorem run_caps (cap perScopeCap : Nat) (schedule : List Action) :
    (Transducer.run TraceStore.step (TraceStore.new cap perScopeCap) schedule).1.cap = cap ∧
      (Transducer.run TraceStore.step (TraceStore.new cap perScopeCap) schedule).1.perScopeCap =
        perScopeCap :=
  Transducer.run_state_invariant (fun store => store.cap = cap ∧ store.perScopeCap = perScopeCap)
    (fun store action h => ⟨(step_cap store action).trans h.1, (step_perScopeCap store action).trans h.2⟩)
    ⟨rfl, rfl⟩ schedule

/-- Over every run the count of a scope is the number of its live slots and within the cap, if there is
one; it has an entry once the scope had a record, also when the count is back at zero; and the ring holds
at most its capacity of records. -/
theorem run_scope_counts {cap : Nat} (hCap : 0 < cap) (perScopeCap : Nat) (schedule : List Action)
    (scope : Nat) :
    let store := (Transducer.run TraceStore.step (TraceStore.new cap perScopeCap) schedule).1
    store.recordsInScope scope = liveInScope store.ring scope ∧
      (0 < perScopeCap → store.recordsInScope scope ≤ perScopeCap) ∧
      (scope ∈ store.scopeCount ↔ ∃ record, Action.insert record ∈ schedule ∧ record.scope = scope) ∧
      store.live.length ≤ cap := by
  intro store
  have hCounted : Counted store := run_counted hCap perScopeCap schedule
  obtain ⟨hSame, hSamePerScope⟩ := run_caps cap perScopeCap schedule
  refine ⟨hCounted.counts scope, ?_, ?_, ?_⟩
  · intro hPerScope
    rw [hCounted.counts scope, ← hSamePerScope]
    exact hCounted.capped (hSamePerScope.symm ▸ hPerScope) scope
  · have hMem := mem_scopeCount_run schedule (TraceStore.new cap perScopeCap) scope
    have hEmpty : scope ∉ (TraceStore.new cap perScopeCap).scopeCount := AList.notMem_empty scope
    rwa [or_iff_right hEmpty] at hMem
  · calc store.live.length ≤ store.ring.length := live_length_le store.ring
      _ = store.cap := hCounted.length
      _ = cap := hSame

def emptyRecord (scope tSendMs : Nat) : StoredRecord where
  scope := scope
  session := none
  lenBytes := 0
  tSendMs := tSendMs
  blockHashes := []

theorem run_scope_counts_full_scope :
    let store := (Transducer.run TraceStore.step (TraceStore.new 2 1)
      [.insert (emptyRecord 7 0), .insert (emptyRecord 7 1), .insert (emptyRecord 7 2)]).1
    store.recordsInScope 7 = liveInScope store.ring 7 ∧ (0 < 1 → store.recordsInScope 7 ≤ 1) ∧
      (7 ∈ store.scopeCount ↔ ∃ record, Action.insert record ∈
        [.insert (emptyRecord 7 0), .insert (emptyRecord 7 1), .insert (emptyRecord 7 2)] ∧
          record.scope = 7) ∧
      store.live.length ≤ 2 :=
  run_scope_counts (by decide) 1 _ 7

/-- The ring wraps onto the only record of scope 0, whose entry stays at zero; with a scope cap of zero
scope 1 holds a record all the same. -/
theorem zero_entry_and_no_cap :
    let store := (Transducer.run TraceStore.step (TraceStore.new 1 0)
      [.insert (emptyRecord 0 0), .insert (emptyRecord 1 1)]).1
    store.scopeCount.lookup 0 = some 0 ∧ liveInScope store.ring 0 = 0 ∧
      ¬ store.recordsInScope 1 ≤ store.perScopeCap := by
  decide

/-! ## A record that was just stored -/

def isLookup : Action → Bool
  | .lookup .. => true
  | .insert _ => false

theorem live_lookup (store : TraceStore) (scope : Nat) (chain : Chain) (nowMs ttlMs : Nat) :
    (store.lookup scope chain nowMs ttlMs).1.live = store.live := by
  rw [live, (lookup_frame store scope chain nowMs ttlMs).1]
  rfl

theorem live_lookups (store : TraceStore) {queries : List Action} (hQueries : queries.all isLookup = true) :
    (Transducer.run step store queries).1.live = store.live := by
  induction queries generalizing store with
  | nil => rfl
  | cons action queries ih =>
    rw [List.all_cons, Bool.and_eq_true] at hQueries
    cases action with
    | insert record => cases hQueries.1
    | lookup scope chain nowMs ttlMs =>
      exact (ih _ hQueries.2).trans (live_lookup ..)

theorem mem_live_insert (h : Counted store) (record : StoredRecord) : record ∈ (store.insert record).live := by
  have hRoom := h.makeRoom record.scope
  refine (mem_live_iff ..).mpr ⟨_, _, List.getElem?_set_self ?_, rfl⟩
  rw [hRoom.length]
  exact Nat.mod_lt _ hRoom.positive

/-- Whatever was stored before it, a record is found by the lookups of its scope that come before the next record:
they match all its blocks, if their own chain goes on with more. -/
theorem lookup_finds_record {cap : Nat} (hCap : 0 < cap) (perScopeCap : Nat) (schedule : List Action)
    (record : StoredRecord) (hBlocks : record.blockHashes ≠ []) {queries : List Action}
    (hQueries : queries.all isLookup = true) {chain : Chain} (hChain : record.blockHashes <+: chain.blockHashes)
    {nowMs ttlMs : Nat} (hFresh : record.Fresh nowMs ttlMs)
    (hAddressable : Addressable (Transducer.run step (new cap perScopeCap) (schedule ++ .insert record :: queries)).1
      record.scope chain) :
    let store := (Transducer.run step (new cap perScopeCap) (schedule ++ .insert record :: queries)).1
    (store.lookup record.scope chain nowMs ttlMs).2.matched.isSome ∧
      record.blockHashes.length ≤ (store.lookup record.scope chain nowMs ttlMs).2.matchedBlocks := by
  intro store
  have hIndexed : Indexed store := run_indexed hCap perScopeCap _
  have hLive : record ∈ store.live := by
    have hRun : store = _ := congrArg Prod.fst (Transducer.run_append step (new cap perScopeCap) schedule _)
    rw [hRun, Transducer.run_cons, live_lookups _ hQueries]
    exact mem_live_insert (run_counted hCap perScopeCap schedule) record
  obtain ⟨more, hMore⟩ := hChain
  have hShared : record.shared chain = record.blockHashes.length := by
    rw [StoredRecord.shared, ← hMore, commonPrefixBlocks_append]
  rcases lookup_cases hIndexed hAddressable.slots nowMs ttlMs with
    ⟨_, _, hNone, _⟩ | ⟨found, hFound, hScope, _, _, hResult, hMax⟩
  · have hZero := hNone record hLive rfl hFresh
    rw [hShared, List.length_eq_zero_iff] at hZero
    exact absurd hZero hBlocks
  · have hLonger := hMax record hLive rfl hFresh
    rw [matchKey, matchKey, Prod.Lex.toLex_le_toLex, hShared] at hLonger
    rw [hResult, truncate32, Nat.mod_eq_of_lt (shared_lt_of_addressable hAddressable hFound hScope)]
    refine ⟨rfl, ?_⟩
    show _ ≤ found.shared chain
    omega

theorem lookup_finds_record_overwritten :
    let store := (Transducer.run step (new 2 2) (overwrittenRing ++ [.insert ⟨2, none, 8, 40, [4#128]⟩])).1
    (store.lookup 2 ⟨0#128, 8, 4, [4#128, 6#128]⟩ 50 100).2.matched.isSome ∧
      [4#128].length ≤ (store.lookup 2 ⟨0#128, 8, 4, [4#128, 6#128]⟩ 50 100).2.matchedBlocks :=
  lookup_finds_record (by decide) 2 overwrittenRing ⟨2, none, 8, 40, [4#128]⟩ (by decide) rfl
    (by decide) (by unfold StoredRecord.Fresh; decide)
    (addressable_of_small (run_indexed (by decide) 2 _) (by decide) (by decide) 2)

end Aimux.Trace.TraceStore
