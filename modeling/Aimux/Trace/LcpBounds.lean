import Aimux.Trace.Fingerprint
import Aimux.Trace.Scopes
import Aimux.Trace.Verdict

/-! # The bounds on the common prefix

A traced call looks up the longest prefix its body shares with the history and hands the auditor two byte
figures, a lower and an upper bound, computed from the number of shared blocks. They are compared here
with the common prefix of the two bodies themselves.
-/

namespace Aimux.Trace

open Aimux.Lib

/-! ## The layer -/

/-- What the layer knows of a call when it records it. -/
structure TracedCall where
  sessionId : Option String
  callId : String
  scopeKey : Nat
  scopeSalt : BitVec 64
  monotonicMs : Nat
  nowMs : Nat
  ttlMs : Nat
  denoisedBytes : Option (List UInt8)
  usage : UsageSnapshot
  error : Option String

namespace TracedCall

def fingerprinter (self : TracedCall) : BlockChainFingerprint where
  blockSize := DEFAULT_BLOCK_SIZE
  scopeSalt := self.scopeSalt
  hSize := defaultBlockSize_pos

def chain (self : TracedCall) : Chain :=
  match self.denoisedBytes with
  | some bytes => self.fingerprinter.compute bytes
  | none => { bodyHash := 0, lenBytes := 0, blockSize := DEFAULT_BLOCK_SIZE, blockHashes := [] }

def fingerprint (self : TracedCall) : Fingerprint :=
  match self.denoisedBytes with
  | some bytes => .ofChain (self.fingerprinter.compute bytes)
  | none => { lenBytes := 0, blockSize := 0, blockHashes := [] }

def record (self : TracedCall) (verdict : Option Verdict) : TraceRecord where
  sessionId := self.sessionId
  callId := self.callId
  monotonicSentMs := self.monotonicMs
  fingerprint := self.fingerprint
  usage := self.usage
  verdict := verdict
  error := self.error
  scopeKey := self.scopeKey

def lookup (self : TracedCall) (ring : RingTraceStore) : LcpResult :=
  (ring.store.lookup self.scopeKey self.chain self.nowMs self.ttlMs).2

/-- The evidence for the auditor, and whether a candidate was too old. -/
def lookupLcp (self : TracedCall) (ring : RingTraceStore) : Option LcpInput × UInt64 × UInt64 × Bool :=
  let lcp := self.lookup ring
  let sameSession := lcp.matched.any fun m => m.session = self.sessionId
  let upper : UInt64 :=
    if lcp.matched.isSome then
      (UInt64.ofNat lcp.matchedBlocks + 1) * UInt64.ofNat self.chain.blockSize
    else 0
  let input := lcp.matched.map fun _ => {
    lcpBytes := UInt64.ofNat lcp.lcpBytes
    lcpUpperBytes := upper
    sameSession := sameSession
    matchedExists := true }
  (input, UInt64.ofNat lcp.lcpBytes, upper, lcp.candidateExpired)

/-- A failed call and one without a body look nothing up. -/
def looksUp (self : TracedCall) : Bool := self.error.isNone && !self.chain.blockHashes.isEmpty

def evidence (self : TracedCall) (ring : RingTraceStore) : Option LcpInput × UInt64 × UInt64 × Bool :=
  if self.looksUp then self.lookupLcp ring else (none, 0, 0, false)

end TracedCall

/-- The two accesses of a recorded call to the store. Other calls may come in between. -/
inductive LayerStep where
  | lookup (call : TracedCall)
  | append (call : TracedCall) (verdict : Option Verdict)

def layerStep : Transducer RingTraceStore LayerStep (Option LcpInput)
  | ring, .lookup call =>
    if call.looksUp then
      ({ ring with store := (ring.store.lookup call.scopeKey call.chain call.nowMs call.ttlMs).1 },
        [(call.evidence ring).1])
    else (ring, [none])
  | ring, .append call verdict => (ring.append (call.record verdict), [])

def traced (cap perScopeCap : Nat) (schedule : List LayerStep) : RingTraceStore :=
  (Transducer.run layerStep (.withCapacity cap perScopeCap) schedule).1

/-! ## What the store holds -/

namespace TraceStore

theorem mem_live_iff_slotAt (store : TraceStore) (record : StoredRecord) :
    record ∈ store.live ↔ ∃ i, (store.slotAt i).record = some record := by
  rw [mem_live_iff]
  constructor
  · rintro ⟨i, slot, hSlot, hRecord⟩
    refine ⟨i, ?_⟩
    rwa [slotAt, hSlot]
  · rintro ⟨i, hRecord⟩
    obtain ⟨slot, hSlot, rfl⟩ := slotAt_record hRecord
    exact ⟨i, _, hSlot, hRecord⟩

theorem live_makeRoom (store : TraceStore) (scope : Nat) {record : StoredRecord}
    (h : record ∈ (store.makeRoom scope).live) : record ∈ store.live := by
  unfold makeRoom at h
  split at h
  · split at h
    · unfold evictOldestInScope at h
      split at h
      · obtain ⟨i, slot, hSlot, hRecord⟩ := (mem_live_iff ..).mp h
        rw [List.getElem?_set] at hSlot
        split at hSlot
        · split at hSlot
          · cases hSlot
            cases hRecord
          · cases hSlot
        · exact (mem_live_iff ..).mpr ⟨i, slot, hSlot, hRecord⟩
      · exact h
    · exact h
  · exact h

theorem live_insert (store : TraceStore) (record : StoredRecord) {other : StoredRecord}
    (h : other ∈ (store.insert record).live) : other = record ∨ other ∈ store.live := by
  obtain ⟨i, hAt⟩ := (mem_live_iff_slotAt ..).mp h
  rcases (store.makeRoom record.scope).slotAt_write record i with hOld | ⟨hNew, _⟩
  · rw [TraceStore.insert, hOld] at hAt
    exact .inr (live_makeRoom store record.scope ((mem_live_iff_slotAt ..).mpr ⟨i, hAt⟩))
  · rw [TraceStore.insert, hNew] at hAt
    exact .inl (Option.some.inj hAt).symm

/-- A lookup that matches reports the figures of one live record. -/
theorem lookup_matched {store : TraceStore} {scope : Nat} {chain : Chain} {nowMs ttlMs : Nat}
    {info : MatchInfo} (h : (store.lookup scope chain nowMs ttlMs).2.matched = some info) :
    ∃ record ∈ store.live, record.scope = scope ∧ record.Fresh nowMs ttlMs ∧ 0 < record.shared chain ∧
      (store.lookup scope chain nowMs ttlMs).2 = {
        lcpBytes := (record.shared chain * chain.blockSize) % 2 ^ 64
        matchedBlocks := truncate32 (record.shared chain)
        matched := some record.info
        candidateExpired := false } := by
  unfold TraceStore.lookup at h ⊢
  cases hHead : chain.blockHashes.head? with
  | none =>
    rw [hHead] at h
    cases h
  | some first =>
    have hBest := (store.foldl_scanRef scope chain first nowMs ttlMs
      (store.index.refsAt (scope, low64 first)) { tombstoneHits := store.tombstoneHits }).1
    rw [hHead] at h
    simp only at h ⊢
    split at h
    · rename_i blocks found hSome
      rw [hBest] at hSome
      obtain ⟨hMem, _⟩ := foldl_pick_spec matchKey hSome
      obtain ⟨r, _, hMatch⟩ := List.mem_filterMap.mp hMem
      unfold validMatch at hMatch
      split at hMatch
      · rename_i record hExamine
        obtain ⟨hRecord, hScope, hFirst, hFresh⟩ := (examine_spec ..).1 record hExamine
        obtain ⟨rfl, rfl⟩ := Prod.mk.inj (Option.some.inj hMatch)
        exact ⟨record, (mem_live_iff_slotAt ..).mpr ⟨_, hRecord⟩, hScope, hFresh,
          (shared_pos_iff record hHead).mpr hFirst, rfl⟩
      · cases hMatch
    · cases h

end TraceStore

theorem commonPrefixBlocks_eq (a b : List (BitVec 128)) : commonPrefixBlocks a b = commonPrefixLength a b := by
  induction a generalizing b with
  | nil => simp [commonPrefixBlocks, commonPrefixLength]
  | cons x xs ih =>
    cases b with
    | nil => simp [commonPrefixBlocks, commonPrefixLength]
    | cons y ys => simp [commonPrefixBlocks, commonPrefixLength, ih]

namespace TracedCall

def stored (self : TracedCall) : StoredRecord := (self.record none).stored

theorem record_stored (self : TracedCall) (verdict : Option Verdict) : (self.record verdict).stored = self.stored := rfl

theorem stored_blockHashes (self : TracedCall) : self.stored.blockHashes = self.chain.blockHashes := by
  unfold stored TraceRecord.stored record fingerprint chain
  cases self.denoisedBytes with
  | none => rfl
  | some bytes =>
    simp only [Fingerprint.ofChain, List.map_map]
    refine (List.map_congr_left fun h _ => ?_).trans (List.map_id _)
    simp [fromStrRadix16_hex128]

theorem bytes_of_chain {self : TracedCall} (h : self.chain.blockHashes ≠ []) :
    ∃ bytes, self.denoisedBytes = some bytes ∧
      self.chain.blockHashes = self.fingerprinter.hashes bytes := by
  unfold chain at h ⊢
  cases hBytes : self.denoisedBytes with
  | none =>
    rw [hBytes] at h
    exact absurd rfl h
  | some bytes => exact ⟨bytes, rfl, rfl⟩

end TracedCall

theorem append_store (ring : RingTraceStore) (record : TraceRecord) :
    (ring.append record).store = ring.store.insert record.stored := by
  unfold RingTraceStore.append RingTraceStore.popFull
  simp only
  split
  · split <;> rfl
  · rfl

/-- Every live record is that of an appended call. -/
theorem live_traced (cap perScopeCap : Nat) (schedule : List LayerStep) {record : StoredRecord}
    (h : record ∈ (traced cap perScopeCap schedule).store.live) :
    ∃ call verdict, .append call verdict ∈ schedule ∧ record = call.stored := by
  induction schedule using List.reverseRecOn generalizing record with
  | nil =>
    have hNone : (TraceStore.new cap perScopeCap).live = [] := by
      simp [TraceStore.live, TraceStore.new]
    rw [traced, Transducer.run_nil, RingTraceStore.withCapacity, hNone] at h
    cases h
  | append_singleton schedule action ih =>
    rw [traced, Transducer.run_concat] at h
    have hBefore : ∀ {record}, record ∈ (traced cap perScopeCap schedule).store.live →
        ∃ call verdict, .append call verdict ∈ schedule ++ [action] ∧ record = call.stored := by
      intro record hRecord
      obtain ⟨call, verdict, hMem, rfl⟩ := ih hRecord
      exact ⟨call, verdict, List.mem_append_left [action] hMem, rfl⟩
    cases action with
    | lookup call =>
      simp only [layerStep] at h
      split at h
      · rw [TraceStore.live_lookup] at h
        exact hBefore h
      · exact hBefore h
    | append call verdict =>
      simp only [layerStep, append_store, TracedCall.record_stored] at h
      rcases TraceStore.live_insert _ _ h with rfl | hOld
      · exact ⟨call, verdict, by simp, rfl⟩
      · exact hBefore hOld

/-! ## The bounds against the bodies -/

/-- The figures of the evidence bracket the length of the common prefix. -/
def Brackets (input : LcpInput) (a b : List UInt8) : Prop :=
  input.lcpBytes.toNat ≤ commonPrefixLength a b ∧ commonPrefixLength a b ≤ input.lcpUpperBytes.toNat

/-- A body that comes back unchanged is made of full blocks, and 32 bits count the shared blocks. -/
structure InBounds (a b : List UInt8) : Prop where
  same : a = b → DEFAULT_BLOCK_SIZE ∣ a.length
  count : commonPrefixLength a b < 2 ^ 32 * DEFAULT_BLOCK_SIZE

/-- The lookup of a call reports the record of an earlier one. -/
structure Matched (ring : RingTraceStore) (call earlier : TracedCall) : Prop where
  live : earlier.stored ∈ ring.store.live
  scope : earlier.scopeKey = call.scopeKey
  fresh : earlier.stored.Fresh call.nowMs call.ttlMs
  answer : (call.lookup ring).matched = some earlier.stored.info

def lcpFigures (shared : Nat) : Nat × Nat :=
  ((shared * DEFAULT_BLOCK_SIZE) % 2 ^ 64, (shared % 2 ^ 32 + 1) * DEFAULT_BLOCK_SIZE)

theorem figures_bracket_full (p : Nat) :
    (lcpFigures (p / DEFAULT_BLOCK_SIZE)).1 ≤ p ∧ p ≤ (lcpFigures (p / DEFAULT_BLOCK_SIZE)).2 ↔
      p < 2 ^ 32 * DEFAULT_BLOCK_SIZE := by
  simp only [lcpFigures, DEFAULT_BLOCK_SIZE]
  omega

theorem figures_miss_short {p : Nat} (hPartial : ¬ DEFAULT_BLOCK_SIZE ∣ p) :
    ¬ ((lcpFigures (p / DEFAULT_BLOCK_SIZE + 1)).1 ≤ p ∧ p ≤ (lcpFigures (p / DEFAULT_BLOCK_SIZE + 1)).2) := by
  simp only [lcpFigures, DEFAULT_BLOCK_SIZE] at hPartial ⊢
  omega

theorem chain_blockSize (call : TracedCall) : call.chain.blockSize = DEFAULT_BLOCK_SIZE := by
  unfold TracedCall.chain
  cases call.denoisedBytes <;> rfl

theorem lookupLcp_figures {ring : RingTraceStore} {call : TracedCall} {input : LcpInput} {info : MatchInfo}
    {shared : Nat} {result : LcpResult} (hLookup : call.lookup ring = result)
    (hMatched : result.matched = some info)
    (hBytes : result.lcpBytes = (shared * call.chain.blockSize) % 2 ^ 64)
    (hBlocks : result.matchedBlocks = truncate32 shared)
    (hInput : (call.lookupLcp ring).1 = some input) :
    (input.lcpBytes.toNat, input.lcpUpperBytes.toNat) = lcpFigures shared := by
  rw [TracedCall.lookupLcp, hLookup] at hInput
  simp only [hMatched, Option.map_some, Option.isSome_some, if_true, Option.some.injEq] at hInput
  subst hInput
  rw [chain_blockSize] at hBytes
  simp only [hBytes, hBlocks, chain_blockSize, lcpFigures, truncate32, DEFAULT_BLOCK_SIZE,
    UInt64.toNat_mul, UInt64.toNat_add, UInt64.toNat_ofNat']
  have hOne : UInt64.toNat 1 = 1 := rfl
  rw [hOne, Prod.mk.injEq]
  omega

/-- The prefix two bodies of one salt share, in blocks. -/
theorem shared_eq {call earlier : TracedCall} {a b : List UInt8} (hSalt : earlier.scopeSalt = call.scopeSalt)
    (hEarlier : earlier.denoisedBytes = some a) (hCall : call.denoisedBytes = some b)
    (hFree : ¬ call.fingerprinter.Collides a b) :
    earlier.stored.shared call.chain =
      if a = b then blockCount DEFAULT_BLOCK_SIZE a.length
      else commonPrefixLength a b / DEFAULT_BLOCK_SIZE := by
  have hPrinter : earlier.fingerprinter = call.fingerprinter := by
    rw [TracedCall.fingerprinter, TracedCall.fingerprinter, hSalt]
  have hEarlierHashes : earlier.chain.blockHashes = call.fingerprinter.hashes a := by
    rw [TracedCall.chain, hEarlier, hPrinter]
    rfl
  have hCallHashes : call.chain.blockHashes = call.fingerprinter.hashes b := by
    rw [TracedCall.chain, hCall]
    rfl
  rw [StoredRecord.shared, commonPrefixBlocks_eq, earlier.stored_blockHashes, hEarlierHashes, hCallHashes]
  exact call.fingerprinter.common_hashes hFree

theorem brackets_iff {input : LcpInput} {a b : List UInt8} {shared : Nat}
    (hShared : shared = if a = b then blockCount DEFAULT_BLOCK_SIZE a.length
      else commonPrefixLength a b / DEFAULT_BLOCK_SIZE)
    (hFigures : (input.lcpBytes.toNat, input.lcpUpperBytes.toNat) = lcpFigures shared) :
    Brackets input a b ↔ InBounds a b := by
  have hLower : input.lcpBytes.toNat = (lcpFigures shared).1 := congrArg Prod.fst hFigures
  have hUpper : input.lcpUpperBytes.toNat = (lcpFigures shared).2 := congrArg Prod.snd hFigures
  have hSize := defaultBlockSize_pos
  have hFull := figures_bracket_full (commonPrefixLength a b)
  rw [Brackets, hLower, hUpper]
  by_cases hSame : a = b
  · have hCommon : commonPrefixLength a b = a.length := by rw [← hSame, commonPrefixLength_self]
    rw [if_pos hSame] at hShared
    by_cases hWhole : DEFAULT_BLOCK_SIZE ∣ a.length
    · rw [hShared, blockCount_of_dvd hSize hWhole, ← hCommon, hFull]
      exact ⟨fun hCount => ⟨fun _ => hWhole, hCount⟩, fun hBounds => hBounds.count⟩
    · rw [hShared, blockCount_of_not_dvd hSize hWhole, hCommon]
      exact iff_of_false (figures_miss_short hWhole) fun hBounds => hWhole (hBounds.same hSame)
  · rw [hShared, if_neg hSame, hFull]
    exact ⟨fun hCount => ⟨fun h => absurd h hSame, hCount⟩, fun hBounds => hBounds.count⟩

/-- The figures handed to the auditor come from an earlier call of the scope. If it used the same salt
and no two blocks collide, they bracket the common prefix of the two bodies exactly within bounds. -/
theorem lcp_brackets_iff (cap perScopeCap : Nat) (schedule : List LayerStep) (call : TracedCall)
    (input : LcpInput)
    (hHanded : (call.evidence (traced cap perScopeCap schedule)).1 = some input) :
    ∃ earlier verdict a b, .append earlier verdict ∈ schedule ∧
      Matched (traced cap perScopeCap schedule) call earlier ∧
      earlier.denoisedBytes = some a ∧ call.denoisedBytes = some b ∧
      (earlier.scopeSalt = call.scopeSalt → ¬ call.fingerprinter.Collides a b →
        (Brackets input a b ↔ InBounds a b)) := by
  unfold TracedCall.evidence at hHanded
  split at hHanded
  · rename_i hLooks
    have hChain : call.chain.blockHashes ≠ [] := by
      have hBlocks := (Bool.and_eq_true_iff.mp hLooks).2
      simpa using hBlocks
    obtain ⟨b, hCall, _⟩ := TracedCall.bytes_of_chain hChain
    obtain ⟨info, hMatched⟩ : ∃ info, (call.lookup (traced cap perScopeCap schedule)).matched = some info := by
      cases hNone : (call.lookup (traced cap perScopeCap schedule)).matched with
      | none => simp [TracedCall.lookupLcp, hNone] at hHanded
      | some info => exact ⟨info, rfl⟩
    obtain ⟨record, hLive, hScope, hFresh, hShared, hResult⟩ := TraceStore.lookup_matched hMatched
    obtain ⟨earlier, verdict, hMem, rfl⟩ := live_traced cap perScopeCap schedule hLive
    have hEarlierChain : earlier.chain.blockHashes ≠ [] := by
      intro hNil
      rw [StoredRecord.shared, earlier.stored_blockHashes, hNil] at hShared
      simp [commonPrefixBlocks] at hShared
    obtain ⟨a, hEarlier, _⟩ := TracedCall.bytes_of_chain hEarlierChain
    refine ⟨earlier, verdict, a, b, hMem, ⟨hLive, hScope, hFresh, by rw [TracedCall.lookup, hResult]⟩,
      hEarlier, hCall, ?_⟩
    intro hSalt hFree
    exact brackets_iff (shared_eq hSalt hEarlier hCall hFree) (lookupLcp_figures hResult rfl rfl rfl hHanded)
  · cases hHanded

/-! ## A request sent twice -/

def plainCall (callId : String) (body : List UInt8) : TracedCall where
  sessionId := some "s"
  callId := callId
  scopeKey := 1
  scopeSalt := 0
  monotonicMs := 0
  nowMs := 1
  ttlMs := 1000
  denoisedBytes := some body
  usage := {}
  error := none

deriving instance DecidableEq for LcpInput

def emptyObject : List UInt8 := [123, 125]

def sentOnce : RingTraceStore := traced 2 2 [.append (plainCall "first" emptyObject) none]

def handedAgain : LcpInput where
  lcpBytes := 4096
  lcpUpperBytes := 8192
  sameSession := true
  matchedExists := true

theorem evidence_again : ((plainCall "second" emptyObject).evidence sentOnce).1 = some handedAgain := by
  decide +kernel

theorem lcp_brackets_again : ∃ earlier verdict a b,
    .append earlier verdict ∈ [LayerStep.append (plainCall "first" emptyObject) none] ∧
      Matched sentOnce (plainCall "second" emptyObject) earlier ∧
      earlier.denoisedBytes = some a ∧ (plainCall "second" emptyObject).denoisedBytes = some b ∧
      (earlier.scopeSalt = (plainCall "second" emptyObject).scopeSalt →
        ¬ (plainCall "second" emptyObject).fingerprinter.Collides a b →
          (Brackets handedAgain a b ↔ InBounds a b)) :=
  lcp_brackets_iff 2 2 [.append (plainCall "first" emptyObject) none] (plainCall "second" emptyObject)
    handedAgain evidence_again

/-- The body `{}` is sent twice: 4096 bytes of its two are reported as shared. -/
theorem same_body_exceeds : ((plainCall "second" emptyObject).evidence sentOnce).1 = some handedAgain ∧
    ¬ (plainCall "second" emptyObject).fingerprinter.Collides emptyObject emptyObject ∧
    ¬ Brackets handedAgain emptyObject emptyObject := by
  refine ⟨evidence_again, BlockChainFingerprint.not_collides_self _ _, ?_⟩
  unfold Brackets
  decide

end Aimux.Trace
