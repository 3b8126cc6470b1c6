import Aimux.Trace.Store

/-! # The session index of the trace ring

The ring of trace records keeps, for each session, the call ids of its records. Eviction takes an id out
of the list and a query looks a record up by its id, so two records that share an id are told apart only
by their places in the ring.
-/

namespace Aimux.Trace

open Aimux.Lib

/-! ## The store -/

inductive VerdictKind where
  | trusted
  | suspectOverclaim
  | suspectUnderclaim
  | unknown

inductive VerdictConfidence where
  | high
  | medium
  | low

structure Verdict where
  kind : VerdictKind
  confidence : VerdictConfidence
  violated : List String
  expectedMax : Nat
  claimed : Nat
  lcpBytes : Nat
  notes : List String

structure Fingerprint where
  lenBytes : Nat
  blockSize : Nat
  blockHashes : List String

structure UsageSnapshot where
  inputTotal : Option Nat := none
  cacheRead : Option Nat := none

structure TraceRecord where
  sessionId : Option String
  callId : String
  monotonicSentMs : Nat
  fingerprint : Fingerprint
  usage : UsageSnapshot
  verdict : Option Verdict
  error : Option String
  scopeKey : Nat

structure SessionStepStat where
  step : Nat
  callId : String
  hitRate : Option Float
  verdict : Option Verdict
  error : Option String

def hexDigit (c : Char) : Option Nat :=
  if '0' ≤ c ∧ c ≤ '9' then some (c.toNat - '0'.toNat)
  else if 'a' ≤ c ∧ c ≤ 'f' then some (c.toNat - 'a'.toNat + 10)
  else if 'A' ≤ c ∧ c ≤ 'F' then some (c.toNat - 'A'.toNat + 10)
  else none

def hexDigits (digits : List Char) : Option Nat :=
  digits.foldlM (fun value c => do
    let value := value * 16 + (← hexDigit c)
    if value < 2 ^ 128 then some value else none) 0

/-- `u128::from_str_radix(_, 16)`: an optional plus sign, at least one digit and no overflow. -/
def fromStrRadix16 (text : String) : Option Nat :=
  match text.toList with
  | [] => none
  | '+' :: digits => if digits.isEmpty then none else hexDigits digits
  | digits => hexDigits digits

namespace TraceRecord

def stored (self : TraceRecord) : StoredRecord where
  scope := self.scopeKey
  session := self.sessionId
  lenBytes := self.fingerprint.lenBytes
  tSendMs := self.monotonicSentMs
  blockHashes := self.fingerprint.blockHashes.map fun h => BitVec.ofNat 128 ((fromStrRadix16 h).getD 0)

def reportedHitRate (self : TraceRecord) : Option Float :=
  match self.usage.cacheRead, self.usage.inputTotal with
  | some r, some t => if t > 0 then some (Float.ofNat r / Float.ofNat t) else none
  | _, _ => none

def stepStat (self : TraceRecord) (step : Nat) : SessionStepStat where
  step := truncate32 step
  callId := self.callId
  hitRate := self.reportedHitRate
  verdict := self.verdict
  error := self.error

end TraceRecord

structure RingTraceStore where
  store : TraceStore
  records : List TraceRecord
  bySession : AList fun _ : String => List String

namespace RingTraceStore

def withCapacity (cap perScopeCap : Nat) : RingTraceStore where
  store := TraceStore.new cap perScopeCap
  records := []
  bySession := ∅

/-- The index after a record has left the ring. -/
def forget (bySession : AList fun _ : String => List String) (evicted : TraceRecord) :
    AList fun _ : String => List String :=
  match evicted.sessionId with
  | none => bySession
  | some sid => match bySession.lookup sid with
    | none => bySession
    | some ids =>
      let kept := ids.filter (· ≠ evicted.callId)
      if kept.isEmpty then bySession.erase sid else bySession.insert sid kept

def enter (bySession : AList fun _ : String => List String) (record : TraceRecord) :
    AList fun _ : String => List String :=
  match record.sessionId with
  | none => bySession
  | some sid => bySession.insert sid ((bySession.lookup sid).getD [] ++ [record.callId])

/-- The bounded FIFO ring makes room: the oldest record goes if the ring is full. -/
def popFull (self : RingTraceStore) : RingTraceStore :=
  if self.records.length ≥ self.store.cap then
    match self.records with
    | evicted :: rest => { self with records := rest, bySession := forget self.bySession evicted }
    | [] => self
  else self

def append (self : RingTraceStore) (record : TraceRecord) : RingTraceStore :=
  let popped := { self with store := self.store.insert record.stored }.popFull
  { popped with
    bySession := enter popped.bySession record
    records := popped.records ++ [record] }

def sessionCacheTrajectory (self : RingTraceStore) (sessionId : String) : List SessionStepStat :=
  match self.bySession.lookup sessionId with
  | none => []
  | some ids => ids.zipIdx.filterMap fun (id, step) =>
    (self.records.find? fun r => r.callId = id).map (·.stepStat step)

/-! ## What the index is for -/

/-- The ids the index lists for a session. -/
def listed (self : RingTraceStore) (sessionId : String) : List String :=
  (self.bySession.lookup sessionId).getD []

def ofSession (sessionId : String) (record : TraceRecord) : Bool := record.sessionId = some sessionId

def retainedIn (self : RingTraceStore) (sessionId : String) : List TraceRecord :=
  self.records.filter (ofSession sessionId)

def Lists (self : RingTraceStore) : Prop :=
  ∀ sessionId, self.listed sessionId = (self.retainedIn sessionId).map (·.callId)

def Reports (self : RingTraceStore) : Prop :=
  ∀ sessionId, self.sessionCacheTrajectory sessionId =
    (self.retainedIn sessionId).zipIdx.map fun (record, step) => record.stepStat step

/-- The index lists the retained records of each session in append order, and the trajectory reports the
statistics of each. -/
structure Faithful (ring : RingTraceStore) : Prop where
  lists : ring.Lists
  reports : ring.Reports

/-! ## The condition -/

/-- The record an append pushes out shares its id with no other record of its session. -/
def EvictsAlone (self : RingTraceStore) : Prop :=
  ∀ evicted rest sessionId, self.records = evicted :: rest → self.store.cap ≤ self.records.length →
    evicted.sessionId = some sessionId →
    ∀ other ∈ rest, other.sessionId = some sessionId → other.callId ≠ evicted.callId

def SameStats (a b : TraceRecord) : Prop :=
  a.reportedHitRate = b.reportedHitRate ∧ a.verdict = b.verdict ∧ a.error = b.error

/-- A record of a session has the statistics of the oldest record with its id. -/
def FirstStands (records : List TraceRecord) : Prop :=
  ∀ record ∈ records, record.sessionId.isSome → ∀ first,
    records.find? (fun r => r.callId = record.callId) = some first → SameStats first record

/-- An append may take place: its eviction and the ring it leaves do not mix up two records. -/
structure Unmixed (ring : RingTraceStore) (record : TraceRecord) : Prop where
  evicts : ring.EvictsAlone
  stands : FirstStands (ring.popFull.records ++ [record])

/-! ## One append -/

theorem listed_forget (bySession : AList fun _ : String => List String) (evicted : TraceRecord) (sessionId : String) :
    ((forget bySession evicted).lookup sessionId).getD [] =
      if evicted.sessionId = some sessionId then
        ((bySession.lookup sessionId).getD []).filter (· ≠ evicted.callId)
      else (bySession.lookup sessionId).getD [] := by
  unfold forget
  cases hSession : evicted.sessionId with
  | none => simp
  | some sid =>
    simp only [Option.some.injEq]
    cases hIds : bySession.lookup sid with
    | none =>
      by_cases h : sid = sessionId
      · subst h
        simp [hIds]
      · simp [h]
    | some ids =>
      by_cases h : sid = sessionId
      · subst h
        simp only [hIds, Option.getD_some, if_true]
        split
        · rename_i hEmpty
          rw [AList.lookup_erase, List.isEmpty_iff.mp hEmpty, Option.getD_none]
        · rw [AList.lookup_insert, Option.getD_some]
      · rw [if_neg h]
        simp only
        split
        · rw [AList.lookup_erase_ne (Ne.symm h)]
        · rw [AList.lookup_insert_ne (Ne.symm h)]

theorem listed_enter (bySession : AList fun _ : String => List String) (record : TraceRecord) (sessionId : String) :
    ((enter bySession record).lookup sessionId).getD [] =
      (bySession.lookup sessionId).getD [] ++ ([record].filter (ofSession sessionId)).map (·.callId) := by
  unfold enter
  cases hSession : record.sessionId with
  | none => simp [ofSession, hSession]
  | some sid =>
    by_cases h : sid = sessionId
    · subst h
      simp [ofSession, hSession]
    · rw [AList.lookup_insert_ne (Ne.symm h)]
      simp [ofSession, hSession, h]

theorem insert_cap (store : TraceStore) (record : StoredRecord) : (store.insert record).cap = store.cap := by
  simp only [TraceStore.insert, TraceStore.write, TraceStore.makeRoom, TraceStore.evictOldestInScope]
  split
  · split
    · split <;> rfl
    · rfl
  · rfl

theorem append_records (ring : RingTraceStore) (record : TraceRecord) :
    (ring.append record).records = ring.popFull.records ++ [record] := by
  unfold append popFull
  simp only [insert_cap]
  split
  · split <;> rfl
  · rfl

theorem append_bySession (ring : RingTraceStore) (record : TraceRecord) :
    (ring.append record).bySession = enter ring.popFull.bySession record := by
  unfold append popFull
  simp only [insert_cap]
  split
  · split <;> rfl
  · rfl

variable {ring : RingTraceStore}

/-- Popping keeps the lists right exactly if the evicted record is alone with its id in its session. -/
theorem popFull_lists_iff (h : ring.Lists) :
    ring.popFull.Lists ↔ ring.EvictsAlone := by
  unfold popFull EvictsAlone
  split
  · rename_i hFull
    split
    · rename_i evicted rest hRecords
      have hListed : ∀ sessionId, listed { ring with
          records := rest, bySession := forget ring.bySession evicted } sessionId =
            if evicted.sessionId = some sessionId then
              ((rest.filter (ofSession sessionId)).map (·.callId)).filter (· ≠ evicted.callId)
            else (rest.filter (ofSession sessionId)).map (·.callId) := by
        intro sessionId
        have hBefore := h sessionId
        rw [listed, retainedIn, hRecords] at hBefore
        rw [listed, listed_forget, hBefore]
        by_cases hSession : evicted.sessionId = some sessionId
        · simp [hSession, ofSession]
        · simp [hSession, ofSession]
      constructor
      · intro hLists first others sessionId hSplit _ hSession other hMem hOther
        obtain ⟨rfl, rfl⟩ := List.cons.inj (hRecords.symm.trans hSplit)
        have hAfter := hLists sessionId
        rw [hListed, if_pos hSession, retainedIn, List.filter_eq_self] at hAfter
        have hKept := hAfter other.callId
          (List.mem_map_of_mem (List.mem_filter.mpr ⟨hMem, decide_eq_true hOther⟩))
        exact of_decide_eq_true hKept
      · intro hAlone sessionId
        rw [hListed]
        split
        · rename_i hSession
          refine List.filter_eq_self.mpr ?_
          intro id hId
          obtain ⟨other, hOther, rfl⟩ := List.mem_map.mp hId
          obtain ⟨hMem, hOther⟩ := List.mem_filter.mp hOther
          exact decide_eq_true
            (hAlone evicted rest sessionId hRecords hFull hSession other hMem (of_decide_eq_true hOther))
        · rfl
    · rename_i hRecords
      refine ⟨?_, fun _ => h⟩
      intro _ evicted rest _ hSplit
      rw [hRecords] at hSplit
      cases hSplit
  · rename_i hRoom
    exact ⟨fun _ _ _ _ _ hFull => absurd hFull hRoom, fun _ => h⟩

theorem append_lists_iff (ring : RingTraceStore) (record : TraceRecord) :
    (ring.append record).Lists ↔ ring.popFull.Lists := by
  refine forall_congr' fun sessionId => ?_
  rw [listed, append_bySession, listed_enter, retainedIn, append_records, List.filter_append, List.map_append,
    List.append_left_inj]
  rfl

/-! ## The trajectory -/

/-- The oldest record with the id of a record. -/
def firstLike (records : List TraceRecord) (record : TraceRecord) : TraceRecord :=
  (records.find? fun r => r.callId = record.callId).getD record

theorem find?_eq_firstLike {records : List TraceRecord} {record : TraceRecord} (h : record ∈ records) :
    records.find? (fun r => r.callId = record.callId) = some (firstLike records record) := by
  have hFound : (records.find? fun r => r.callId = record.callId).isSome := by
    rw [List.find?_isSome]
    exact ⟨record, h, by simp⟩
  obtain ⟨first, hFirst⟩ := Option.isSome_iff_exists.mp hFound
  rw [firstLike, hFirst, Option.getD_some]

theorem trajectory_eq (h : ring.Lists) (sessionId : String) :
    ring.sessionCacheTrajectory sessionId =
      (ring.retainedIn sessionId).zipIdx.map fun (record, step) =>
        (firstLike ring.records record).stepStat step := by
  have hIds : ring.sessionCacheTrajectory sessionId = (ring.listed sessionId).zipIdx.filterMap
      fun (id, step) => (ring.records.find? fun r => r.callId = id).map (·.stepStat step) := by
    unfold sessionCacheTrajectory listed
    split
    · rename_i hNone
      rw [hNone]
      rfl
    · rename_i ids hSome
      rw [hSome]
      rfl
  rw [hIds, h sessionId, List.zipIdx_map, List.filterMap_map, ← List.filterMap_eq_map]
  refine List.filterMap_congr ?_
  rintro ⟨record, step⟩ hMem
  have hRecord : record ∈ ring.retainedIn sessionId :=
    List.mem_of_getElem? (List.mem_zipIdx_iff_getElem?.mp hMem)
  simp only [Function.comp_apply, Prod.map_apply, id_eq]
  rw [find?_eq_firstLike (List.mem_of_mem_filter hRecord), Option.map_some]

theorem firstLike_callId (records : List TraceRecord) (record : TraceRecord) :
    (firstLike records record).callId = record.callId := by
  unfold firstLike
  cases hFirst : records.find? fun r => r.callId = record.callId with
  | none => rfl
  | some first =>
    have := List.find?_some hFirst
    simpa using this

theorem stepStat_firstLike_iff (records : List TraceRecord) (record : TraceRecord) (step : Nat) :
    (firstLike records record).stepStat step = record.stepStat step ↔
      SameStats (firstLike records record) record := by
  simp [TraceRecord.stepStat, SameStats, firstLike_callId]

theorem reports_iff (h : ring.Lists) : ring.Reports ↔ FirstStands ring.records := by
  constructor
  · intro hReports record hMem hSession first hFirst
    obtain ⟨sessionId, hSession⟩ := Option.isSome_iff_exists.mp hSession
    have hSame := hReports sessionId
    rw [trajectory_eq h, List.map_inj_left] at hSame
    have hRetained : record ∈ ring.retainedIn sessionId :=
      List.mem_filter.mpr ⟨hMem, decide_eq_true hSession⟩
    obtain ⟨i, hAt⟩ := List.mem_iff_getElem?.mp hRetained
    have hStat := hSame (record, i) (List.mem_zipIdx_iff_getElem?.mpr hAt)
    obtain rfl : firstLike ring.records record = first :=
      Option.some.inj ((find?_eq_firstLike hMem).symm.trans hFirst)
    exact (stepStat_firstLike_iff _ _ i).mp hStat
  · intro hStands sessionId
    rw [trajectory_eq h, List.map_inj_left]
    rintro ⟨record, i⟩ hMem
    have hRetained : record ∈ ring.retainedIn sessionId :=
      List.mem_of_getElem? (List.mem_zipIdx_iff_getElem?.mp hMem)
    obtain ⟨hRecord, hSession⟩ := List.mem_filter.mp hRetained
    have hSome : record.sessionId.isSome := by
      rw [of_decide_eq_true hSession]
      rfl
    exact (stepStat_firstLike_iff _ _ i).mpr (hStands record hRecord hSome _ (find?_eq_firstLike hRecord))

/-- From a faithful store an append leads to a faithful one exactly if it mixes up no two records. -/
theorem append_faithful_iff (h : ring.Faithful) (record : TraceRecord) :
    (ring.append record).Faithful ↔ ring.Unmixed record := by
  have hLists : (ring.append record).Lists ↔ ring.EvictsAlone :=
    (append_lists_iff ring record).trans (popFull_lists_iff h.lists)
  constructor
  · intro hAfter
    have hReports := (reports_iff hAfter.lists).mp hAfter.reports
    rw [append_records] at hReports
    exact ⟨hLists.mp hAfter.lists, hReports⟩
  · intro hUnmixed
    have hAfter := hLists.mpr hUnmixed.evicts
    refine ⟨hAfter, (reports_iff hAfter).mpr ?_⟩
    rw [append_records]
    exact hUnmixed.stands

/-! ## Runs -/

def appended (cap perScopeCap : Nat) (history : List TraceRecord) : RingTraceStore :=
  history.foldl append (withCapacity cap perScopeCap)

theorem appended_concat (cap perScopeCap : Nat) (history : List TraceRecord) (record : TraceRecord) :
    appended cap perScopeCap (history ++ [record]) = (appended cap perScopeCap history).append record := by
  rw [appended, List.foldl_append]
  rfl

theorem withCapacity_faithful (cap perScopeCap : Nat) : (withCapacity cap perScopeCap).Faithful where
  lists := fun _ => rfl
  reports := fun _ => rfl

/-- A run keeps the session index faithful throughout exactly if none of its appends mixes up two
records. -/
theorem run_faithful_iff (cap perScopeCap : Nat) (history : List TraceRecord) :
    (∀ before, before <+: history → (appended cap perScopeCap before).Faithful) ↔
      ∀ before record, before ++ [record] <+: history →
        (appended cap perScopeCap before).Unmixed record := by
  constructor
  · intro hFaithful before record hPrefix
    have hBefore := hFaithful before ((List.prefix_append before [record]).trans hPrefix)
    have hAfter := hFaithful (before ++ [record]) hPrefix
    rw [appended_concat] at hAfter
    exact (append_faithful_iff hBefore record).mp hAfter
  · intro hUnmixed before
    induction before using List.reverseRecOn with
    | nil => exact fun _ => withCapacity_faithful cap perScopeCap
    | append_singleton before record ih =>
      intro hPrefix
      have hBefore := ih ((List.prefix_append before [record]).trans hPrefix)
      rw [appended_concat]
      exact (append_faithful_iff hBefore record).mpr (hUnmixed before record hPrefix)

def sampleRecord (sessionId : Option String) (callId : String) (error : Option String) : TraceRecord where
  sessionId := sessionId
  callId := callId
  monotonicSentMs := 0
  fingerprint := { lenBytes := 0, blockSize := 0, blockHashes := [] }
  usage := {}
  verdict := none
  error := error
  scopeKey := 0

/-- A failed attempt and its retry share one call id: the trajectory reports the failure twice, and the
retry is gone from the index as soon as the failed attempt is evicted. -/
theorem retry_mixes_records :
    let retried := [sampleRecord (some "s") "call" (some "timeout"), sampleRecord (some "s") "call" none]
    ¬ (appended 2 1 retried).Reports ∧
      ¬ (appended 2 1 (retried ++ [sampleRecord none "other" none])).Lists := by
  constructor
  · intro hReports
    have hErrors := congrArg (List.map (·.error)) (hReports "s")
    exact absurd hErrors (by decide)
  · intro hLists
    exact absurd (hLists "s") (by decide)

end RingTraceStore

end Aimux.Trace
