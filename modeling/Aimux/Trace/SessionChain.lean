import Aimux.Trace.Fingerprint

/-! # The chain of a session

The chain view compares the fingerprints of consecutive records of a session block by block. A body that
is extended keeps its full blocks; its last block, if it is shorter, becomes a different block of the
longer body.
-/

namespace Aimux.Trace

open Aimux.Lib

inductive BreakKind where
  | systemChanged
  | toolsChanged
  | conversationReset
  | unknown

structure PrefixBreak where
  atRecordId : String
  prevRecordId : String
  lcpBytes : Nat
  expectedBreak : Bool
  kind : BreakKind

structure SessionChainView where
  sessionId : String
  recordIds : List String
  prefixStability : Float
  breaks : List PrefixBreak

/-- Shared bytes, in whole blocks, and shared blocks. -/
def chainLcp (a b : TraceRecord) : Nat × Nat :=
  let bs := max a.fingerprint.blockSize 1
  let shared := commonPrefixLength a.fingerprint.blockHashes b.fingerprint.blockHashes
  ((shared * bs) % 2 ^ 64, shared)

def breakBetween (a b : TraceRecord) : Option PrefixBreak :=
  let (lcp, shared) := chainLcp a b
  if shared < a.fingerprint.blockHashes.length then
    some {
      atRecordId := b.callId
      prevRecordId := a.callId
      lcpBytes := lcp
      expectedBreak := false
      kind := .unknown }
  else none

namespace RingTraceStore

/-- The records a view of the session finds for the ids the index lists. -/
def sessionRecords (self : RingTraceStore) (sessionId : String) : List TraceRecord :=
  (self.listed sessionId).filterMap fun id => self.records.find? fun r => r.callId = id

def sessionChain (self : RingTraceStore) (sessionId : String) : Option SessionChainView :=
  match self.bySession.lookup sessionId with
  | none => none
  | some ids =>
    if ids.isEmpty then none
    else
      let records := self.sessionRecords sessionId
      let windows := records.zip records.tail
      let lcpSum := (windows.map fun (a, b) => (chainLcp a b).1).sum % 2 ^ 64
      let prevLenSum := (windows.map fun (a, _) => a.fingerprint.lenBytes).sum % 2 ^ 64
      let stability := if prevLenSum > 0 then Float.ofNat lcpSum / Float.ofNat prevLenSum else 1.0
      some {
        sessionId := sessionId
        recordIds := ids
        prefixStability := min stability 1.0
        breaks := windows.filterMap fun (a, b) => breakBetween a b }

end RingTraceStore

/-! ## Breaks -/

theorem breakBetween_eq_none_iff (a b : TraceRecord) :
    breakBetween a b = none ↔ a.fingerprint.blockHashes <+: b.fingerprint.blockHashes := by
  rw [← length_le_commonPrefixLength_iff, ← Nat.not_lt]
  unfold breakBetween chainLcp
  simp only
  split
  · rename_i hBreak
    exact iff_of_false (by simp) (not_not.mpr hBreak)
  · rename_i hKept
    exact iff_of_true rfl hKept

theorem forall_windows_iff {α : Type} (R : α → α → Prop) (l : List α) :
    (∀ w ∈ l.zip l.tail, R w.1 w.2) ↔ l.IsChain R := by
  induction l with
  | nil => simp
  | cons a rest ih =>
    cases rest with
    | nil => simp
    | cons b rest =>
      rw [List.isChain_cons_cons, ← ih]
      simp

theorem isChain_congr_of {α : Type} {R S T : α → α → Prop} {l : List α} (hChain : l.IsChain R)
    (hIff : ∀ a b, R a b → (S a b ↔ T a b)) : l.IsChain S ↔ l.IsChain T := by
  simp only [List.isChain_iff_getElem] at hChain ⊢
  exact forall_congr' fun i => forall_congr' fun hi => hIff _ _ (hChain i hi)

/-- A traced request: the record carries the fingerprint of the body. -/
structure Request (fp : BlockChainFingerprint) where
  record : TraceRecord
  body : List UInt8
  hFingerprint : record.fingerprint = .ofChain (fp.compute body)

theorem Request.hashes_prefix_iff {fp : BlockChainFingerprint} (a b : Request fp) :
    a.record.fingerprint.blockHashes <+: b.record.fingerprint.blockHashes ↔
      fp.hashes a.body <+: fp.hashes b.body := by
  rw [a.hFingerprint, b.hFingerprint]
  exact List.prefix_map_iff_of_injective fun _ _ => hex128_inj

/-- The later body extends the earlier one. -/
def Request.Extends {fp : BlockChainFingerprint} (a b : Request fp) : Prop := a.body <+: b.body

/-- Nothing of the earlier body is hashed together with what the later one adds, unless the two hashes
happen to be equal. -/
def Request.KeepsBlocks {fp : BlockChainFingerprint} (a b : Request fp) : Prop :=
  fp.blockSize ∣ a.body.length ∨ a.body = b.body ∨ fp.Collides a.body b.body

/-- The view of a session, if there is one, reports no break. -/
def Unbroken (view : Option SessionChainView) : Prop := ∀ chain ∈ view, chain.breaks = []

theorem unbroken_iff (ring : RingTraceStore) (sessionId : String) :
    Unbroken (ring.sessionChain sessionId) ↔
      (ring.sessionRecords sessionId).IsChain fun a b => breakBetween a b = none := by
  rw [← forall_windows_iff]
  unfold Unbroken RingTraceStore.sessionChain
  split
  · rename_i hNone
    simp [RingTraceStore.sessionRecords, RingTraceStore.listed, hNone]
  · rename_i ids hSome
    split
    · rename_i hEmpty
      rw [List.isEmpty_iff] at hEmpty
      simp [RingTraceStore.sessionRecords, RingTraceStore.listed, hSome, hEmpty]
    · simp [List.filterMap_eq_nil_iff]

def tracedRequest (fp : BlockChainFingerprint) (callId : String) (body : List UInt8) : Request fp where
  record := {
    sessionId := some "s"
    callId := callId
    monotonicSentMs := 0
    fingerprint := .ofChain (fp.compute body)
    usage := {}
    verdict := none
    error := none
    scopeKey := 0 }
  body := body
  hFingerprint := rfl

def defaultFingerprint : BlockChainFingerprint where
  blockSize := DEFAULT_BLOCK_SIZE
  scopeSalt := 0
  hSize := defaultBlockSize_pos

/-- The JSON numbers 1 and 12. -/
def growing : List (Request defaultFingerprint) :=
  [tracedRequest defaultFingerprint "first" [49], tracedRequest defaultFingerprint "second" [49, 50]]

def growingRing : RingTraceStore := RingTraceStore.appended 2 2 (growing.map (·.record))

theorem growing_records : growingRing.sessionRecords "s" = growing.map (·.record) := by
  rfl

theorem growing_extends : growing.IsChain Request.Extends := by
  simp [growing, tracedRequest, Request.Extends]

end Aimux.Trace
