import Aimux.Trace.Scopes

/-! # The size of the reverse index

References leave the index in a rebuild only, and a rebuild happens in a lookup that has met enough stale
references. Between rebuilds every inserted block adds a reference. So the index holds what the last
rebuild found in the ring, at most the ring's capacity of records, and every block inserted since.
-/

namespace Aimux.Trace

open Aimux.Lib

namespace Index

theorem totalRefs_empty : totalRefs ∅ = 0 := rfl

theorem refsAt_eq_nil {index : Index} {key : Nat × BitVec 64} (h : key ∉ index) : index.refsAt key = [] := by
  rw [refsAt, AList.lookup_eq_none.mpr h, Option.getD_none]

/-- Replacing a posting list changes the total by the difference of the lengths. -/
theorem totalRefs_insert (index : Index) (key : Nat × BitVec 64) (refs : List BlockRef) :
    totalRefs (index.insert key refs) + (index.refsAt key).length = totalRefs index + refs.length := by
  by_cases h : key ∈ index
  · obtain ⟨old, before, after, _, hSplit, hErased⟩ := List.exists_of_kerase (AList.mem_keys.mp h)
    have hMem : Sigma.mk key old ∈ index.entries := by
      rw [hSplit]
      simp
    have hOld : index.refsAt key = old := by
      have := AList.mem_lookup_iff.mpr hMem
      rw [refsAt, Option.mem_def.mp this, Option.getD_some]
    rw [hOld, totalRefs, totalRefs, AList.entries_insert, hErased, hSplit]
    simp only [List.map_cons, List.map_append, List.sum_cons, List.sum_append]
    omega
  · rw [refsAt_eq_nil h, totalRefs, totalRefs, AList.entries_insert_of_notMem h]
    simp only [List.map_cons, List.sum_cons, List.length_nil]
    omega

theorem totalRefs_push (index : Index) (key : Nat × BitVec 64) (blockRef : BlockRef) :
    (index.push key blockRef).totalRefs = index.totalRefs + 1 := by
  have hTotal := totalRefs_insert index key (index.refsAt key ++ [blockRef])
  rw [List.length_append, List.length_singleton] at hTotal
  unfold push
  omega

theorem totalRefs_foldl {α : Type} {f : Index → α → Index}
    (hStep : ∀ index block, (f index block).totalRefs = index.totalRefs + 1) (blocks : List α) (index : Index) :
    (blocks.foldl f index).totalRefs = index.totalRefs + blocks.length := by
  induction blocks generalizing index with
  | nil => rfl
  | cons block blocks ih =>
    rw [List.foldl_cons, ih, hStep, List.length_cons]
    omega

theorem totalRefs_pushRecord (index : Index) (slot generation : Nat) (record : StoredRecord) :
    (index.pushRecord slot generation record).totalRefs = index.totalRefs + record.blockHashes.length := by
  rw [pushRecord, totalRefs_foldl (fun index block => totalRefs_push index _ _), List.length_zipIdx]

end Index

namespace TraceStore

/-- The records of a ring have at most so many blocks. -/
def Sized (blocks : Nat) (ring : List RingSlot) : Prop :=
  ∀ slot ∈ ring, ∀ record, slot.record = some record → record.blockHashes.length ≤ blocks

variable {blocks : Nat}

theorem freshIndex_totalRefs {ring : List RingSlot} (h : Sized blocks ring) :
    (freshIndex ring).totalRefs ≤ ring.length * blocks := by
  have hFold : ∀ (entries : List (RingSlot × Nat)) (start : Index), (∀ entry ∈ entries, entry.1 ∈ ring) →
      (entries.foldl Index.pushSlot start).totalRefs ≤ start.totalRefs + entries.length * blocks := by
    intro entries
    induction entries with
    | nil => simp
    | cons entry entries ih =>
      intro start hMem
      obtain ⟨hEntry, hRest⟩ := List.forall_mem_cons.mp hMem
      have hSlot : (start.pushSlot entry).totalRefs ≤ start.totalRefs + blocks := by
        unfold Index.pushSlot
        split
        · rename_i record hRecord
          rw [Index.totalRefs_pushRecord]
          exact Nat.add_le_add_left (h entry.1 hEntry record hRecord) _
        · exact Nat.le_add_right _ _
      have hTail := ih (start.pushSlot entry) hRest
      rw [List.foldl_cons, List.length_cons, Nat.succ_mul]
      omega
  have hAll := hFold ring.zipIdx ∅ fun entry hEntry =>
    List.mem_of_getElem? (List.mem_zipIdx_iff_getElem?.mp hEntry)
  rwa [Index.totalRefs_empty, Nat.zero_add, List.length_zipIdx] at hAll

/-! ## Sweeps -/

/-- The tombstone count a lookup has when it comes to the rebuild check. -/
def tombstonesMet (store : TraceStore) (scope : Nat) (chain : Chain) (nowMs ttlMs : Nat) : Nat :=
  match chain.blockHashes.head? with
  | none => store.tombstoneHits
  | some first => ((store.index.refsAt (scope, low64 first)).foldl
      (store.scanRef scope chain first nowMs ttlMs) { tombstoneHits := store.tombstoneHits }).tombstoneHits

/-- The action is a lookup after whose walk the tombstones are more than a quarter of all references. -/
def sweeps (store : TraceStore) : Action → Bool
  | .insert _ => false
  | .lookup scope chain nowMs ttlMs =>
    decide (store.index.totalRefs > 0 ∧
      (store.tombstonesMet scope chain nowMs ttlMs * 4) % 2 ^ 64 > store.index.totalRefs)

theorem maybeRebuildIndex_index (store : TraceStore) :
    store.maybeRebuildIndex.index =
      if decide (store.index.totalRefs > 0 ∧ (store.tombstoneHits * 4) % 2 ^ 64 > store.index.totalRefs) then
        freshIndex store.ring
      else store.index := by
  unfold maybeRebuildIndex
  simp only
  split
  · rename_i hSweep
    rw [if_pos (decide_eq_true hSweep)]
  · rename_i hKept
    rw [if_neg fun hSweep => hKept (of_decide_eq_true hSweep)]

theorem lookup_store (store : TraceStore) (scope : Nat) (chain : Chain) (nowMs ttlMs : Nat) :
    (store.lookup scope chain nowMs ttlMs).1 =
      { store with tombstoneHits := store.tombstonesMet scope chain nowMs ttlMs }.maybeRebuildIndex := by
  unfold TraceStore.lookup tombstonesMet
  cases chain.blockHashes.head? with
  | none => rfl
  | some first =>
    simp only
    split <;> rfl

theorem lookup_index (store : TraceStore) (scope : Nat) (chain : Chain) (nowMs ttlMs : Nat) :
    (store.lookup scope chain nowMs ttlMs).1.index =
      if store.sweeps (.lookup scope chain nowMs ttlMs) then freshIndex store.ring else store.index := by
  rw [lookup_store]
  exact maybeRebuildIndex_index _

/-- The blocks inserted since the index was last built. -/
def unswept : TraceStore → Nat → List Action → Nat
  | _, since, [] => since
  | store, since, action :: schedule =>
    unswept (step store action).1
      (match action with
        | .insert record => since + record.blockHashes.length
        | .lookup .. => if store.sweeps action then 0 else since) schedule

/-- The index holds what the last rebuild left and the blocks pushed since. -/
structure Swept (blocks since : Nat) (store : TraceStore) : Prop where
  length : store.ring.length = store.cap
  sized : Sized blocks store.ring
  above : since ≤ store.index.totalRefs
  below : store.index.totalRefs ≤ store.cap * blocks + since

theorem Sized.set {ring : List RingSlot} (h : Sized blocks ring) (i : Nat) {next : RingSlot}
    (hNext : ∀ record, next.record = some record → record.blockHashes.length ≤ blocks) :
    Sized blocks (ring.set i next) := by
  intro slot hMem record hRecord
  rcases List.mem_or_eq_of_mem_set hMem with hMem | rfl
  · exact h slot hMem record hRecord
  · exact hNext record hRecord

variable {store : TraceStore} {since : Nat}

theorem Swept.makeRoom (h : Swept blocks since store) (scope : Nat) :
    Swept blocks since (store.makeRoom scope) := by
  unfold TraceStore.makeRoom TraceStore.evictOldestInScope
  split
  · split
    · split
      · exact ⟨by simpa using h.length, h.sized.set _ (by simp), h.above, h.below⟩
      · exact h
    · exact h
  · exact h

theorem Swept.insert (h : Swept blocks since store) {record : StoredRecord} (hSize : record.blockHashes.length ≤ blocks) :
    Swept blocks (since + record.blockHashes.length) (store.insert record) := by
  have hRoom := h.makeRoom record.scope
  have hTotal : (store.insert record).index.totalRefs =
      (store.makeRoom record.scope).index.totalRefs + record.blockHashes.length :=
    Index.totalRefs_pushRecord _ _ _ _
  have hCap : (store.insert record).cap = (store.makeRoom record.scope).cap := rfl
  refine ⟨by simpa [TraceStore.insert, TraceStore.write] using hRoom.length, ?_, ?_, ?_⟩
  · refine hRoom.sized.set _ ?_
    intro other hOther
    obtain rfl := Option.some.inj hOther
    exact hSize
  · rw [hTotal]
    exact Nat.add_le_add_right hRoom.above _
  · rw [hTotal, hCap]
    have := hRoom.below
    omega

theorem Swept.lookup (h : Swept blocks since store) (scope : Nat) (chain : Chain) (nowMs ttlMs : Nat) :
    Swept blocks (if store.sweeps (.lookup scope chain nowMs ttlMs) then 0 else since)
      (store.lookup scope chain nowMs ttlMs).1 := by
  obtain ⟨hRing, _, hCap, _⟩ := store.lookup_frame scope chain nowMs ttlMs
  have hIndex := store.lookup_index scope chain nowMs ttlMs
  refine ⟨by rw [hRing, hCap, h.length], by rw [hRing]; exact h.sized, ?_, ?_⟩
  · split
    · exact Nat.zero_le _
    · rename_i hKept
      rw [hIndex, if_neg hKept]
      exact h.above
  · rw [hIndex, hCap]
    split
    · rw [Nat.add_zero, ← h.length]
      exact freshIndex_totalRefs h.sized
    · exact h.below

theorem Swept.run (h : Swept blocks since store) (schedule : List Action)
    (hSize : ∀ record, Action.insert record ∈ schedule → record.blockHashes.length ≤ blocks) :
    Swept blocks (store.unswept since schedule) (Transducer.run TraceStore.step store schedule).1 := by
  induction schedule generalizing store since with
  | nil => exact h
  | cons action schedule ih =>
    have hTail : ∀ record, Action.insert record ∈ schedule → record.blockHashes.length ≤ blocks :=
      fun record hMem => hSize record (List.mem_cons_of_mem action hMem)
    cases action with
    | insert record => exact ih (h.insert (hSize record List.mem_cons_self)) hTail
    | lookup scope chain nowMs ttlMs => exact ih (h.lookup scope chain nowMs ttlMs) hTail

theorem Swept.new (cap perScopeCap blocks : Nat) : Swept blocks 0 (new cap perScopeCap) where
  length := List.length_replicate
  sized := by
    intro slot hMem record hRecord
    rw [List.eq_of_mem_replicate hMem] at hRecord
    cases hRecord
  above := Nat.zero_le _
  below := Nat.zero_le _

end TraceStore

/-! ## Runs -/

/-- A run of a store whose records have at most `blocks` blocks. -/
structure StoreRun where
  cap : Nat
  perScopeCap : Nat
  blocks : Nat
  schedule : List TraceStore.Action
  positive : 0 < cap
  sized : ∀ record, TraceStore.Action.insert record ∈ schedule → record.blockHashes.length ≤ blocks

namespace StoreRun

def storeAfter (r : StoreRun) (n : Nat) : TraceStore :=
  (Transducer.run TraceStore.step (TraceStore.new r.cap r.perScopeCap) (r.schedule.take n)).1

def refsAfter (r : StoreRun) (n : Nat) : Nat := (r.storeAfter n).index.totalRefs

/-- The blocks inserted since the last sweep, or since the start. -/
def unsweptAfter (r : StoreRun) (n : Nat) : Nat :=
  (TraceStore.new r.cap r.perScopeCap).unswept 0 (r.schedule.take n)

theorem swept (r : StoreRun) (n : Nat) :
    TraceStore.Swept r.blocks (r.unsweptAfter n) (r.storeAfter n) :=
  (TraceStore.Swept.new r.cap r.perScopeCap r.blocks).run _ fun record hMem =>
    r.sized record (List.mem_of_mem_take hMem)

theorem unsweptAfter_le_refsAfter (r : StoreRun) (n : Nat) : r.unsweptAfter n ≤ r.refsAfter n :=
  (r.swept n).above

theorem refsAfter_le (r : StoreRun) (n : Nat) : r.refsAfter n ≤ r.cap * r.blocks + r.unsweptAfter n := by
  have hBelow := (r.swept n).below
  rwa [show (r.storeAfter n).cap = r.cap from (TraceStore.run_caps _ _ _).1] at hBelow

/-- The references of the runs of a class are bounded by the capacity and the block count alone exactly
if the blocks inserted between two sweeps are. -/
theorem refs_bounded_iff (runs : Set StoreRun) :
    (∃ bound : Nat → Nat → Nat, ∀ r ∈ runs, ∀ n, r.refsAfter n ≤ bound r.cap r.blocks) ↔
      ∃ window : Nat → Nat → Nat, ∀ r ∈ runs, ∀ n, r.unsweptAfter n ≤ window r.cap r.blocks := by
  constructor
  · rintro ⟨bound, hBound⟩
    exact ⟨bound, fun r hRun n => (r.unsweptAfter_le_refsAfter n).trans (hBound r hRun n)⟩
  · rintro ⟨window, hWindow⟩
    refine ⟨fun cap blocks => cap * blocks + window cap blocks, ?_⟩
    intro r hRun n
    exact (r.refsAfter_le n).trans (Nat.add_le_add_left (hWindow r hRun n) _)

/-- A ring of one slot that takes the same one-block record again and again. -/
def repeated (n : Nat) : StoreRun where
  cap := 1
  perScopeCap := 0
  blocks := 1
  schedule := List.replicate n (.insert { TraceStore.emptyRecord 0 0 with blockHashes := [1#128] })
  positive := Nat.one_pos
  sized := by
    intro record hMem
    obtain rfl : record = _ := TraceStore.Action.insert.inj (List.eq_of_mem_replicate hMem)
    exact le_refl 1

theorem unsweptAfter_repeated (n : Nat) : (repeated n).unsweptAfter n = n := by
  have hCount : ∀ (k since : Nat) (store : TraceStore), store.unswept since (List.replicate k
      (.insert { TraceStore.emptyRecord 0 0 with blockHashes := [1#128] })) = since + k := by
    intro k
    induction k with
    | zero => exact fun since _ => rfl
    | succ k ih =>
      intro since store
      rw [List.replicate_succ, TraceStore.unswept, ih]
      simp only [List.length_singleton]
      omega
  rw [unsweptAfter, repeated, List.take_of_length_le (by rw [List.length_replicate]), hCount, Nat.zero_add]

/-- No bound that depends only on the capacity and the block count holds for every run: the ring of one
slot above exceeds any. -/
theorem refs_not_bounded :
    ¬ ∃ bound : Nat → Nat → Nat, ∀ r : StoreRun, ∀ n, r.refsAfter n ≤ bound r.cap r.blocks := by
  rintro ⟨bound, hBound⟩
  have hRun := hBound (repeated (bound 1 1 + 1)) (bound 1 1 + 1)
  have hAbove := (repeated (bound 1 1 + 1)).unsweptAfter_le_refsAfter (bound 1 1 + 1)
  rw [unsweptAfter_repeated] at hAbove
  exact absurd (hAbove.trans hRun) (Nat.not_succ_le_self _)

end StoreRun

end Aimux.Trace
