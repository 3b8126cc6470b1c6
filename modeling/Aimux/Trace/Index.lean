import Aimux.Trace.Store

/-! # The reverse index covers the ring

Every live record in an addressable slot is referenced under its first block, with the slot's current
generation. Inserting, evicting and rebuilding keep this; references that have gone stale stay in the
index and are not part of it.
-/

namespace Aimux.Trace

namespace Index

theorem mem_refsAt_push (index : Index) (key k : Nat × BitVec 64) (x r : BlockRef) :
    r ∈ (index.push key x).refsAt k ↔ r ∈ index.refsAt k ∨ (k = key ∧ r = x) := by
  by_cases h : k = key
  · subst h
    simp [push, refsAt]
  · simp [push, refsAt, AList.lookup_insert_ne h, h]

theorem mem_refsAt_foldl {A : Type} (f : Index → A → Index) (k : Nat × BitVec 64) (r : BlockRef)
    (grows : ∀ index a, r ∈ index.refsAt k → r ∈ (f index a).refsAt k) (items : List A) (index : Index)
    (h : r ∈ index.refsAt k) : r ∈ (items.foldl f index).refsAt k := by
  induction items generalizing index with
  | nil => exact h
  | cons item items ih => exact ih _ (grows index item h)

theorem mem_refsAt_pushRecord (index : Index) (slot generation : Nat) (record : StoredRecord)
    (k : Nat × BitVec 64) (r : BlockRef) (h : r ∈ index.refsAt k) :
    r ∈ (index.pushRecord slot generation record).refsAt k :=
  mem_refsAt_foldl _ k r (fun _ _ h => (mem_refsAt_push ..).mpr (.inl h)) _ index h

theorem mem_refsAt_pushSlot (index : Index) (entry : RingSlot × Nat) (k : Nat × BitVec 64) (r : BlockRef)
    (h : r ∈ index.refsAt k) : r ∈ (index.pushSlot entry).refsAt k := by
  unfold pushSlot
  split
  · exact mem_refsAt_pushRecord _ _ _ _ _ _ h
  · exact h

theorem pushRecord_first (index : Index) (slot generation : Nat) {record : StoredRecord}
    {first : BitVec 128} (hFirst : record.blockHashes.head? = some first) :
    { slot := truncate32 slot, generation, block := 0 } ∈
      (index.pushRecord slot generation record).refsAt (record.scope, low64 first) := by
  obtain ⟨rest, hBlocks⟩ : ∃ rest, record.blockHashes = first :: rest := List.head?_eq_some_iff.mp hFirst
  unfold pushRecord
  rw [hBlocks, List.zipIdx_cons, List.foldl_cons]
  refine mem_refsAt_foldl _ _ _ (fun _ _ h => (mem_refsAt_push ..).mpr (.inl h)) _ _ ?_
  exact (mem_refsAt_push ..).mpr (.inr ⟨rfl, rfl⟩)

end Index

namespace TraceStore

/-- Every live record in an addressable slot is referenced under its first block. -/
def Covers (index : Index) (ring : List RingSlot) : Prop :=
  ∀ i slot record first, ring[i]? = some slot → slot.record = some record →
    record.blockHashes.head? = some first → i < 2 ^ 32 →
    { slot := i, generation := slot.generation, block := 0 } ∈ index.refsAt (record.scope, low64 first)

structure Indexed (store : TraceStore) : Prop where
  length : store.ring.length = store.cap
  positive : 0 < store.cap
  covers : Covers store.index store.ring

theorem Indexed.new {cap : Nat} (hCap : 0 < cap) (perScopeCap : Nat) : Indexed (new cap perScopeCap) where
  length := List.length_replicate
  positive := hCap
  covers := by
    intro i slot record first hSlot hRecord
    rw [TraceStore.new, List.getElem?_replicate] at hSlot
    split at hSlot
    · rw [← Option.some.inj hSlot] at hRecord
      cases hRecord
    · cases hSlot

theorem covers_set_none {index : Index} {ring : List RingSlot} (h : Covers index ring) (k generation : Nat) :
    Covers index (ring.set k { generation, record := none }) := by
  intro i slot record first hSlot hRecord hFirst hRange
  rw [List.getElem?_set] at hSlot
  split at hSlot
  · split at hSlot
    · rw [← Option.some.inj hSlot] at hRecord
      cases hRecord
    · cases hSlot
  · exact h i slot record first hSlot hRecord hFirst hRange

theorem covers_write {index : Index} {ring : List RingSlot} (h : Covers index ring) (k generation : Nat)
    (record : StoredRecord) :
    Covers (index.pushRecord k generation record) (ring.set k { generation, record := some record }) := by
  intro i slot found first hSlot hFound hFirst hRange
  rw [List.getElem?_set] at hSlot
  split at hSlot
  · rename_i hEq
    subst hEq
    split at hSlot
    · rw [← Option.some.inj hSlot] at hFound ⊢
      obtain rfl := Option.some.inj hFound
      have hMem := index.pushRecord_first k generation hFirst
      rwa [truncate32, Nat.mod_eq_of_lt hRange] at hMem
    · cases hSlot
  · exact Index.mem_refsAt_pushRecord _ _ _ _ _ _ (h i slot found first hSlot hFound hFirst hRange)

theorem covers_freshIndex (ring : List RingSlot) : Covers (freshIndex ring) ring := by
  intro i slot record first hSlot hRecord hFirst hRange
  have hMem : (slot, i) ∈ ring.zipIdx := List.mem_zipIdx_iff_getElem?.mpr hSlot
  obtain ⟨before, after, hSplit⟩ := List.append_of_mem hMem
  unfold freshIndex
  rw [hSplit, List.foldl_append, List.foldl_cons]
  refine Index.mem_refsAt_foldl _ _ _ (fun index entry => index.mem_refsAt_pushSlot entry _ _) _ _ ?_
  have hFirstRef := Index.pushRecord_first (before.foldl Index.pushSlot ∅) i slot.generation hFirst
  rw [truncate32, Nat.mod_eq_of_lt hRange] at hFirstRef
  simpa only [Index.pushSlot, hRecord] using hFirstRef

variable {store : TraceStore}

theorem Indexed.makeRoom (h : Indexed store) (scope : Nat) :
    Indexed (store.makeRoom scope) := by
  unfold TraceStore.makeRoom
  split
  · split
    · unfold evictOldestInScope
      split
      · exact ⟨by simpa using h.length, h.positive, covers_set_none h.covers _ _⟩
      · exact h
    · exact h
  · exact h

theorem Indexed.insert (h : Indexed store) (record : StoredRecord) :
    Indexed (store.insert record) := by
  have hRoom := h.makeRoom record.scope
  exact ⟨by simpa [TraceStore.insert, write] using hRoom.length, hRoom.positive,
    covers_write hRoom.covers _ _ _⟩

theorem Indexed.maybeRebuildIndex (h : Indexed store) :
    Indexed store.maybeRebuildIndex := by
  unfold TraceStore.maybeRebuildIndex
  simp only
  split
  · exact ⟨h.length, h.positive, covers_freshIndex _⟩
  · exact h

theorem Indexed.lookup (h : Indexed store) (scope : Nat) (chain : Chain) (nowMs ttlMs : Nat) :
    Indexed (store.lookup scope chain nowMs ttlMs).1 := by
  unfold TraceStore.lookup
  split
  · exact h.maybeRebuildIndex
  · simp only
    split <;> exact Indexed.maybeRebuildIndex ⟨h.length, h.positive, h.covers⟩

theorem Indexed.step (h : Indexed store) (action : Action) :
    Indexed (step store action).1 := by
  cases action with
  | insert record => exact h.insert record
  | lookup scope chain nowMs ttlMs => exact h.lookup scope chain nowMs ttlMs

theorem run_indexed {cap : Nat} (hCap : 0 < cap) (perScopeCap : Nat) (schedule : List Action) :
    Indexed (Lib.Transducer.run TraceStore.step (TraceStore.new cap perScopeCap) schedule).1 :=
  Lib.Transducer.run_state_invariant Indexed (fun _ action h => h.step action)
    (Indexed.new hCap perScopeCap) schedule

end TraceStore

end Aimux.Trace
