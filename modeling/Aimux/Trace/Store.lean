import Aimux.Lib.Transducer

/-! # The trace store

A bounded ring of fingerprint records with a reverse index from a block hash to the places it occurs.
Eviction only bumps the generation of a slot; the index keeps the stale references until enough
lookups have met them, and is then rebuilt. Counters of the source wrap at their width: generations,
slots and block numbers at 32 bits, the ring position and the tombstone count at 64.
-/

namespace Aimux.Trace

structure Chain where
  bodyHash : BitVec 128
  lenBytes : Nat
  blockSize : Nat
  blockHashes : List (BitVec 128)

/-- Low 64 bits of a 128-bit hash, the key of the reverse index. -/
def low64 (h : BitVec 128) : BitVec 64 := (h &&& 0xffffffffffffffff#128).setWidth 64

structure StoredRecord where
  scope : Nat
  session : Option String
  lenBytes : Nat
  tSendMs : Nat
  blockHashes : List (BitVec 128)

structure RingSlot where
  generation : Nat := 0
  record : Option StoredRecord := none

structure BlockRef where
  slot : Nat
  generation : Nat
  block : Nat
deriving DecidableEq

structure MatchInfo where
  tSendMs : Nat
  session : Option String
  lenBytes : Nat

def StoredRecord.info (record : StoredRecord) : MatchInfo where
  tSendMs := record.tSendMs
  session := record.session
  lenBytes := record.lenBytes

structure LcpResult where
  lcpBytes : Nat
  matchedBlocks : Nat
  matched : Option MatchInfo
  /-- Block 0 had a candidate that failed the TTL check, versus no candidate at all. -/
  candidateExpired : Bool

abbrev Index := AList fun _ : Nat × BitVec 64 => List BlockRef

structure TraceStore where
  cap : Nat
  perScopeCap : Nat
  ring : List RingSlot
  next : Nat
  index : Index
  scopeCount : AList fun _ : Nat => Nat
  tombstoneHits : Nat

/-- `as u32`. -/
def truncate32 (n : Nat) : Nat := n % 2 ^ 32

def commonPrefixBlocks : List (BitVec 128) → List (BitVec 128) → Nat
  | a :: as, b :: bs => if a = b then commonPrefixBlocks as bs + 1 else 0
  | _, _ => 0

namespace Index

def refsAt (index : Index) (key : Nat × BitVec 64) : List BlockRef := (index.lookup key).getD []

def push (index : Index) (key : Nat × BitVec 64) (blockRef : BlockRef) : Index :=
  index.insert key (index.refsAt key ++ [blockRef])

def pushRecord (index : Index) (slot generation : Nat) (record : StoredRecord) : Index :=
  record.blockHashes.zipIdx.foldl (fun index (h, block) =>
    index.push (record.scope, low64 h)
      { slot := truncate32 slot, generation, block := truncate32 block }) index

def pushSlot (index : Index) (entry : RingSlot × Nat) : Index :=
  match entry.1.record with
  | some record => index.pushRecord entry.2 entry.1.generation record
  | none => index

def totalRefs (index : Index) : Nat := (index.entries.map fun entry => entry.2.length).sum

end Index

namespace TraceStore

def new (cap perScopeCap : Nat) : TraceStore where
  cap := cap
  perScopeCap := perScopeCap
  ring := List.replicate cap {}
  next := 0
  index := ∅
  scopeCount := ∅
  tombstoneHits := 0

def slotAt (self : TraceStore) (slot : Nat) : RingSlot := self.ring[slot]?.getD {}

def recordsInScope (self : TraceStore) (scope : Nat) : Nat := (self.scopeCount.lookup scope).getD 0

/-- `n.saturating_sub(1)` on the count of a scope that has one. -/
def decrementScope (scopeCount : AList fun _ : Nat => Nat) (scope : Nat) : AList fun _ : Nat => Nat :=
  match scopeCount.lookup scope with
  | some n => scopeCount.insert scope (n - 1)
  | none => scopeCount

/-- The first slot with the smallest send time in the scope. -/
def oldestInScope (ring : List RingSlot) (scope : Nat) : Option (Nat × Nat) :=
  ring.zipIdx.foldl (fun oldest (slot, i) =>
    match slot.record with
    | some r =>
      if r.scope = scope && oldest.all (fun found => r.tSendMs < found.2) then some (i, r.tSendMs)
      else oldest
    | none => oldest) none

def evictOldestInScope (self : TraceStore) (scope : Nat) : TraceStore :=
  match oldestInScope self.ring scope with
  | some (slot, _) =>
    { self with
      ring := self.ring.set slot
        { generation := truncate32 ((self.slotAt slot).generation + 1), record := none }
      scopeCount := decrementScope self.scopeCount scope }
  | none => self

def makeRoom (self : TraceStore) (scope : Nat) : TraceStore :=
  if self.perScopeCap > 0 then
    if self.recordsInScope scope ≥ self.perScopeCap then self.evictOldestInScope scope else self
  else self

def write (self : TraceStore) (record : StoredRecord) : TraceStore :=
  let slot := self.next % self.cap
  let old := self.slotAt slot
  let scopeCount := match old.record with
    | some record => decrementScope self.scopeCount record.scope
    | none => self.scopeCount
  let generation := truncate32 (old.generation + 1)
  { self with
    next := (self.next + 1) % 2 ^ 64
    ring := self.ring.set slot { generation, record := some record }
    scopeCount := scopeCount.insert record.scope ((scopeCount.lookup record.scope).getD 0 + 1)
    index := self.index.pushRecord slot generation record }

def insert (self : TraceStore) (record : StoredRecord) : TraceStore :=
  (self.makeRoom record.scope).write record

def freshIndex (ring : List RingSlot) : Index := ring.zipIdx.foldl Index.pushSlot ∅

def maybeRebuildIndex (self : TraceStore) : TraceStore :=
  let live := self.index.totalRefs
  if live > 0 ∧ (self.tombstoneHits * 4) % 2 ^ 64 > live then
    { self with index := freshIndex self.ring, tombstoneHits := 0 }
  else self

structure Scan where
  best : Option (Nat × MatchInfo) := none
  candidateExpired : Bool := false
  tombstoneHits : Nat

inductive Candidate where
  | skipped
  | stale
  | expired
  | valid (record : StoredRecord)

def examine (self : TraceStore) (scope : Nat) (first : BitVec 128) (nowMs ttlMs : Nat) (r : BlockRef) :
    Candidate :=
  if r.block ≠ 0 then .skipped
  else
    let slot := self.slotAt r.slot
    if slot.generation ≠ r.generation then .stale
    else match slot.record with
      | none => .skipped
      | some record =>
        if record.scope ≠ scope then .skipped
        else if record.blockHashes.head? ≠ some first then .skipped
        else if nowMs - record.tSendMs > ttlMs then .expired
        else .valid record

/-- The longest prefix wins, then the latest send time. -/
def better (best : Option (Nat × MatchInfo)) (shared : Nat) (info : MatchInfo) :
    Option (Nat × MatchInfo) :=
  match best with
  | none => some (shared, info)
  | some (b, m) =>
    if shared > b ∨ (shared = b ∧ info.tSendMs > m.tSendMs) then some (shared, info) else best

def scanRef (self : TraceStore) (scope : Nat) (chain : Chain) (first : BitVec 128) (nowMs ttlMs : Nat)
    (scan : Scan) (r : BlockRef) : Scan :=
  match self.examine scope first nowMs ttlMs r with
  | .skipped => scan
  | .stale => { scan with tombstoneHits := (scan.tombstoneHits + 1) % 2 ^ 64 }
  | .expired => { scan with candidateExpired := true }
  | .valid record =>
    { scan with
      best := better scan.best (commonPrefixBlocks record.blockHashes chain.blockHashes)
        record.info }

def noMatch (candidateExpired : Bool) : LcpResult where
  lcpBytes := 0
  matchedBlocks := 0
  matched := none
  candidateExpired := candidateExpired

def lookup (self : TraceStore) (scope : Nat) (chain : Chain) (nowMs ttlMs : Nat) :
    TraceStore × LcpResult :=
  match chain.blockHashes.head? with
  | none => (self.maybeRebuildIndex, noMatch false)
  | some first =>
    let scan := (self.index.refsAt (scope, low64 first)).foldl
      (self.scanRef scope chain first nowMs ttlMs) { tombstoneHits := self.tombstoneHits }
    let after := { self with tombstoneHits := scan.tombstoneHits }.maybeRebuildIndex
    match scan.best with
    | some (blocks, info) =>
      (after, {
        lcpBytes := (blocks * chain.blockSize) % 2 ^ 64
        matchedBlocks := truncate32 blocks
        matched := some info
        candidateExpired := false })
    | none => (after, noMatch scan.candidateExpired)

inductive Action where
  | insert (record : StoredRecord)
  | lookup (scope : Nat) (chain : Chain) (nowMs ttlMs : Nat)

def step : Lib.Transducer TraceStore Action LcpResult
  | self, .insert record => (self.insert record, [])
  | self, .lookup scope chain nowMs ttlMs =>
    ((self.lookup scope chain nowMs ttlMs).1, [(self.lookup scope chain nowMs ttlMs).2])

end TraceStore

end Aimux.Trace
