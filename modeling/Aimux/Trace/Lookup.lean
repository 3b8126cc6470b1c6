import Aimux.Trace.Index
import Aimux.Lib.Selection

/-! # Lookup against a scan of the live records

Stale references do no harm: a reference is only ever used to reach the record its slot holds now. Since
the index covers the ring, a lookup finds what a scan of the ring would find, as long as 32 bits are
enough for the slots and block counts involved.
-/

namespace Aimux.Trace

open Aimux.Lib

/-! ## Common prefixes -/

theorem commonPrefixBlocks_take (a b : List (BitVec 128)) :
    a.take (commonPrefixBlocks a b) <+: a ∧ a.take (commonPrefixBlocks a b) <+: b ∧
      (a.take (commonPrefixBlocks a b)).length = commonPrefixBlocks a b := by
  induction a generalizing b with
  | nil => simp [commonPrefixBlocks]
  | cons x xs ih =>
    cases b with
    | nil => simp [commonPrefixBlocks]
    | cons y ys =>
      by_cases h : x = y
      · obtain ⟨hLeft, hRight, hLength⟩ := ih ys
        simp only [commonPrefixBlocks, if_pos h, List.take_succ_cons, List.length_cons]
        exact ⟨List.cons_prefix_cons.mpr ⟨rfl, hLeft⟩, List.cons_prefix_cons.mpr ⟨h, hRight⟩, by rw [hLength]⟩
      · simp [commonPrefixBlocks, h]

theorem commonPrefixBlocks_pos_iff (a b : List (BitVec 128)) :
    0 < commonPrefixBlocks a b ↔ ∃ first, b.head? = some first ∧ a.head? = some first := by
  cases a with
  | nil => simp [commonPrefixBlocks]
  | cons x xs =>
    cases b with
    | nil => simp [commonPrefixBlocks]
    | cons y ys => by_cases h : x = y <;> simp [commonPrefixBlocks, h]

variable {record : StoredRecord} {store : TraceStore}

namespace TraceStore

/-! ## The candidate loop -/

section

variable (store : TraceStore) (scope : Nat) (chain : Chain) (first : BitVec 128) (nowMs ttlMs : Nat)

def validMatch (r : BlockRef) : Option (Nat × MatchInfo) :=
  match store.examine scope first nowMs ttlMs r with
  | .valid record => some (commonPrefixBlocks record.blockHashes chain.blockHashes, record.info)
  | _ => none

def isExpired (r : BlockRef) : Bool :=
  match store.examine scope first nowMs ttlMs r with
  | .expired => true
  | _ => false

def matchKey (found : Nat × MatchInfo) : Nat ×ₗ Nat := toLex (found.1, found.2.tSendMs)

theorem better_eq_pick (best : Option (Nat × MatchInfo)) (shared : Nat) (info : MatchInfo) :
    better best shared info = pick matchKey best (shared, info) := by
  cases best with
  | none => rfl
  | some found =>
    have hLess : matchKey found < matchKey (shared, info) ↔
        shared > found.1 ∨ (shared = found.1 ∧ info.tSendMs > found.2.tSendMs) := by
      rw [matchKey, matchKey, Prod.Lex.toLex_lt_toLex]
      simp only [gt_iff_lt, eq_comm]
    simp only [better, pick, hLess]

theorem foldl_scanRef (refs : List BlockRef) (scan : Scan) :
    (refs.foldl (store.scanRef scope chain first nowMs ttlMs) scan).best =
        (refs.filterMap (store.validMatch scope chain first nowMs ttlMs)).foldl (pick matchKey) scan.best ∧
      (refs.foldl (store.scanRef scope chain first nowMs ttlMs) scan).candidateExpired =
        (scan.candidateExpired || refs.any (store.isExpired scope first nowMs ttlMs)) := by
  induction refs generalizing scan with
  | nil => simp
  | cons r refs ih =>
    obtain ⟨hBest, hExpired⟩ := ih (store.scanRef scope chain first nowMs ttlMs scan r)
    rw [List.foldl_cons, hBest, hExpired]
    cases hExamine : store.examine scope first nowMs ttlMs r with
    | skipped | stale | expired => simp [scanRef, validMatch, isExpired, hExamine]
    | valid record => simp [scanRef, validMatch, isExpired, hExamine, better_eq_pick]

end

theorem slotAt_record {i : Nat} (h : (store.slotAt i).record = some record) :
    ∃ slot, store.ring[i]? = some slot ∧
      slot = store.slotAt i := by
  unfold slotAt at h ⊢
  cases hSlot : store.ring[i]? with
  | none =>
    rw [hSlot] at h
    cases h
  | some slot => exact ⟨slot, rfl, by simp⟩

theorem examine_spec (store : TraceStore) (scope : Nat) (first : BitVec 128) (nowMs ttlMs : Nat) (r : BlockRef) :
    (∀ record, store.examine scope first nowMs ttlMs r = .valid record →
      (store.slotAt r.slot).record = some record ∧ record.scope = scope ∧
        record.blockHashes.head? = some first ∧ nowMs - record.tSendMs ≤ ttlMs) ∧
    (store.examine scope first nowMs ttlMs r = .expired → ∃ record,
      (store.slotAt r.slot).record = some record ∧ record.scope = scope ∧
        record.blockHashes.head? = some first ∧ ¬ nowMs - record.tSendMs ≤ ttlMs) := by
  unfold examine
  simp only
  split
  · simp
  · split
    · simp
    · split
      · simp
      · rename_i record hRecord
        split
        · simp
        · rename_i hScope
          split
          · simp
          · rename_i hFirst
            have hScope : record.scope = scope := not_not.mp hScope
            have hFirst : record.blockHashes.head? = some first := not_not.mp hFirst
            split
            · rename_i hExpired
              refine ⟨by simp, fun _ => ⟨record, hRecord, hScope, hFirst, by omega⟩⟩
            · rename_i hValid
              refine ⟨?_, by simp⟩
              intro found hFound
              injection hFound with hFound
              subst hFound
              exact ⟨hRecord, hScope, hFirst, by omega⟩

theorem examine_current (store : TraceStore) {i : Nat} {slot : RingSlot} (hSlot : store.ring[i]? = some slot)
    (hRecord : slot.record = some record) {first : BitVec 128} (hFirst : record.blockHashes.head? = some first)
    (nowMs ttlMs : Nat) :
    store.examine record.scope first nowMs ttlMs { slot := i, generation := slot.generation, block := 0 } =
      if nowMs - record.tSendMs > ttlMs then .expired else .valid record := by
  have hAt : store.slotAt i = slot := by simp [slotAt, hSlot]
  simp [examine, hAt, hRecord, hFirst]

/-! ## Lookups -/

def live (store : TraceStore) : List StoredRecord := store.ring.filterMap (·.record)

theorem mem_live_iff (store : TraceStore) (record : StoredRecord) :
    record ∈ store.live ↔ ∃ (i : Nat) (slot : RingSlot), store.ring[i]? = some slot ∧ slot.record = some record := by
  rw [live, List.mem_filterMap]
  constructor
  · rintro ⟨slot, hMem, hRecord⟩
    obtain ⟨i, hSlot⟩ := List.mem_iff_getElem?.mp hMem
    exact ⟨i, slot, hSlot, hRecord⟩
  · rintro ⟨i, slot, hSlot, hRecord⟩
    exact ⟨slot, List.mem_of_getElem? hSlot, hRecord⟩

end TraceStore

def StoredRecord.shared (record : StoredRecord) (chain : Chain) : Nat :=
  commonPrefixBlocks record.blockHashes chain.blockHashes

def StoredRecord.Fresh (record : StoredRecord) (nowMs ttlMs : Nat) : Prop := nowMs - record.tSendMs ≤ ttlMs

/-- The records of a scope that share block 0 with a query sit in slots a 32-bit reference can name. -/
def TraceStore.SlotsInRange (store : TraceStore) (scope : Nat) (chain : Chain) : Prop :=
  ∀ (i : Nat) (slot : RingSlot) (record : StoredRecord), store.ring[i]? = some slot →
    slot.record = some record → record.scope = scope →
    record.blockHashes.head? = chain.blockHashes.head? → i < 2 ^ 32

/-- 32 bits are enough for the slots of the candidates and for the blocks they share with a query. -/
structure TraceStore.Addressable (store : TraceStore) (scope : Nat) (chain : Chain) : Prop where
  slots : SlotsInRange store scope chain
  blocks : ∀ record ∈ store.live, record.scope = scope → ∀ common, common <+: record.blockHashes →
    common <+: chain.blockHashes → common.length < 2 ^ 32

/-- The answer a scan of the live records gives. -/
structure Answers (live : List StoredRecord) (scope : Nat) (chain : Chain) (nowMs ttlMs : Nat)
    (result : LcpResult) : Prop where
  noMatch : result.matched = none ↔
    ∀ record ∈ live, record.scope = scope → record.Fresh nowMs ttlMs → record.shared chain = 0
  found : ∀ info, result.matched = some info → ∃ record ∈ live, record.scope = scope ∧
    record.Fresh nowMs ttlMs ∧ record.info = info ∧ result.matchedBlocks = record.shared chain
  longest : result.matched.isSome → ∀ record ∈ live, record.scope = scope → record.Fresh nowMs ttlMs →
    record.shared chain ≤ result.matchedBlocks
  latest : ∀ info, result.matched = some info → ∀ record ∈ live, record.scope = scope →
    record.Fresh nowMs ttlMs → record.shared chain = result.matchedBlocks → record.tSendMs ≤ info.tSendMs
  expired : result.candidateExpired = true ↔ result.matched = none ∧
    ∃ record ∈ live, record.scope = scope ∧ ¬ record.Fresh nowMs ttlMs ∧ 0 < record.shared chain
  blocksOfNone : result.matched = none → result.matchedBlocks = 0

namespace TraceStore

section

variable {store : TraceStore} {scope : Nat} {chain : Chain} {first : BitVec 128}

theorem shared_pos_iff (record : StoredRecord) (hFirst : chain.blockHashes.head? = some first) :
    0 < record.shared chain ↔ record.blockHashes.head? = some first := by
  rw [StoredRecord.shared, commonPrefixBlocks_pos_iff, hFirst]
  simp

/-- The matches the loop considers are the fresh records of the scope that share block 0. -/
theorem mem_matches_iff (h : Indexed store) (hFirst : chain.blockHashes.head? = some first)
    (hSlots : SlotsInRange store scope chain)
    (nowMs ttlMs : Nat) (found : Nat × MatchInfo) :
    found ∈ (store.index.refsAt (scope, low64 first)).filterMap
        (store.validMatch scope chain first nowMs ttlMs) ↔
      ∃ record ∈ store.live, record.scope = scope ∧ record.Fresh nowMs ttlMs ∧ 0 < record.shared chain ∧
        found = (record.shared chain, record.info) := by
  rw [List.mem_filterMap]
  constructor
  · rintro ⟨r, _, hMatch⟩
    unfold validMatch at hMatch
    split at hMatch
    · rename_i record hExamine
      obtain ⟨hRecord, hScope, hHead, hFresh⟩ := (examine_spec ..).1 record hExamine
      obtain ⟨slot, hSlot, rfl⟩ := slotAt_record hRecord
      exact ⟨record, (mem_live_iff ..).mpr ⟨_, _, hSlot, hRecord⟩, hScope, hFresh,
        (shared_pos_iff record hFirst).mpr hHead, (Option.some.inj hMatch).symm⟩
    · cases hMatch
  · rintro ⟨record, hLive, rfl, hFresh, hShared, rfl⟩
    obtain ⟨i, slot, hSlot, hRecord⟩ := (mem_live_iff ..).mp hLive
    have hHead := (shared_pos_iff record hFirst).mp hShared
    have hRange := hSlots i slot record hSlot hRecord rfl (hHead.trans hFirst.symm)
    refine ⟨_, h.covers i slot record first hSlot hRecord hHead hRange, ?_⟩
    have hExamine := examine_current store hSlot hRecord hHead nowMs ttlMs
    rw [if_neg (Nat.not_lt.mpr hFresh)] at hExamine
    simp only [validMatch, hExamine]
    rfl

theorem any_isExpired_iff (h : Indexed store) (hFirst : chain.blockHashes.head? = some first)
    (hSlots : SlotsInRange store scope chain)
    (nowMs ttlMs : Nat) :
    (store.index.refsAt (scope, low64 first)).any (store.isExpired scope first nowMs ttlMs) = true ↔
      ∃ record ∈ store.live, record.scope = scope ∧ ¬ record.Fresh nowMs ttlMs ∧ 0 < record.shared chain := by
  rw [List.any_eq_true]
  constructor
  · rintro ⟨r, _, hExpired⟩
    unfold isExpired at hExpired
    split at hExpired
    · rename_i hExamine
      obtain ⟨record, hRecord, hScope, hHead, hStale⟩ := (examine_spec ..).2 hExamine
      obtain ⟨slot, hSlot, rfl⟩ := slotAt_record hRecord
      exact ⟨record, (mem_live_iff ..).mpr ⟨_, _, hSlot, hRecord⟩, hScope, hStale,
        (shared_pos_iff record hFirst).mpr hHead⟩
    · cases hExpired
  · rintro ⟨record, hLive, rfl, hStale, hShared⟩
    obtain ⟨i, slot, hSlot, hRecord⟩ := (mem_live_iff ..).mp hLive
    have hHead := (shared_pos_iff record hFirst).mp hShared
    have hRange := hSlots i slot record hSlot hRecord rfl (hHead.trans hFirst.symm)
    refine ⟨_, h.covers i slot record first hSlot hRecord hHead hRange, ?_⟩
    have hExamine := examine_current store hSlot hRecord hHead nowMs ttlMs
    rw [if_pos (Nat.not_le.mp hStale)] at hExamine
    simp only [isExpired, hExamine]

/-- The two ways a lookup ends, before the block count is cut to 32 bits. -/
theorem lookup_cases (h : Indexed store) (hSlots : SlotsInRange store scope chain) (nowMs ttlMs : Nat) :
    (∃ expired, (store.lookup scope chain nowMs ttlMs).2 = noMatch expired ∧
      (∀ record ∈ store.live, record.scope = scope → record.Fresh nowMs ttlMs → record.shared chain = 0) ∧
      (expired = true ↔ ∃ record ∈ store.live, record.scope = scope ∧ ¬ record.Fresh nowMs ttlMs ∧
        0 < record.shared chain)) ∨
    ∃ record ∈ store.live, record.scope = scope ∧ record.Fresh nowMs ttlMs ∧ 0 < record.shared chain ∧
      (store.lookup scope chain nowMs ttlMs).2 = {
        lcpBytes := (record.shared chain * chain.blockSize) % 2 ^ 64
        matchedBlocks := truncate32 (record.shared chain)
        matched := some record.info
        candidateExpired := false } ∧
      ∀ other ∈ store.live, other.scope = scope → other.Fresh nowMs ttlMs →
        matchKey (other.shared chain, other.info) ≤ matchKey (record.shared chain, record.info) := by
  cases hHead : chain.blockHashes.head? with
  | none =>
    have hShared : ∀ record : StoredRecord, record.shared chain = 0 := by
      intro record
      rw [List.head?_eq_none_iff] at hHead
      cases hBlocks : record.blockHashes <;> simp [StoredRecord.shared, commonPrefixBlocks, hHead, hBlocks]
    refine .inl ⟨false, ?_, fun record _ _ _ => hShared record, ?_⟩
    · simp [lookup, hHead]
    · simp [hShared]
  | some first =>
    obtain ⟨hBest, hExpired⟩ := store.foldl_scanRef scope chain first nowMs ttlMs
      (store.index.refsAt (scope, low64 first)) { tombstoneHits := store.tombstoneHits }
    have hMatches := mem_matches_iff h hHead hSlots nowMs ttlMs
    have hAny := any_isExpired_iff h hHead hSlots nowMs ttlMs
    rw [Bool.false_or] at hExpired
    unfold lookup
    rw [hHead]
    simp only
    split
    · rename_i blocks info hSome
      rw [hBest] at hSome
      obtain ⟨hMem, hMax⟩ := foldl_pick_spec matchKey hSome
      obtain ⟨record, hLive, hScope, hFresh, hShared, hFound⟩ := (hMatches _).mp hMem
      obtain ⟨rfl, rfl⟩ := Prod.mk.inj hFound
      refine .inr ⟨record, hLive, hScope, hFresh, hShared, rfl, ?_⟩
      intro other hOther hOtherScope hOtherFresh
      rcases Nat.eq_zero_or_pos (other.shared chain) with hZero | hPos
      · rw [matchKey, matchKey, Prod.Lex.toLex_le_toLex, hZero]
        exact .inl hShared
      · exact hMax _ ((hMatches _).mpr ⟨other, hOther, hOtherScope, hOtherFresh, hPos, rfl⟩)
    · rename_i hNone
      rw [hBest, foldl_pick_eq_none_iff] at hNone
      refine .inl ⟨_, rfl, ?_, ?_⟩
      · intro record hLive hScope hFresh
        by_contra hShared
        have hMem := (hMatches _).mpr
          ⟨record, hLive, hScope, hFresh, Nat.pos_of_ne_zero hShared, rfl⟩
        rw [hNone] at hMem
        cases hMem
      · rw [hExpired]
        exact hAny

theorem shared_lt_of_addressable (h : Addressable store scope chain) (hLive : record ∈ store.live)
    (hScope : record.scope = scope) : record.shared chain < 2 ^ 32 := by
  obtain ⟨hLeft, hRight, hLength⟩ := commonPrefixBlocks_take record.blockHashes chain.blockHashes
  have hBound := h.blocks record hLive hScope _ hLeft hRight
  rwa [hLength] at hBound

theorem addressable_of_small (h : Indexed store) (hCap : store.cap ≤ 2 ^ 32)
    (hChain : chain.blockHashes.length < 2 ^ 32) (scope : Nat) : Addressable store scope chain where
  slots := by
    intro i slot record hSlot _ _ _
    have hRange := (List.getElem?_eq_some_iff.mp hSlot).1
    have hLength := h.length
    omega
  blocks := fun _ _ _ _ _ hCommon => Nat.lt_of_le_of_lt hCommon.length_le hChain

end

/-- In every run, a lookup over addressable records answers like a scan of the live records. -/
theorem lookup_answers (cap perScopeCap : Nat) (hCap : 0 < cap) (schedule : List Action) (scope : Nat)
    (chain : Chain) (nowMs ttlMs : Nat)
    (hAddressable : Addressable (Transducer.run step (new cap perScopeCap) schedule).1 scope chain) :
    let store := (Transducer.run step (new cap perScopeCap) schedule).1
    Answers store.live scope chain nowMs ttlMs (store.lookup scope chain nowMs ttlMs).2 := by
  intro store
  have hIndexed : Indexed store := run_indexed hCap perScopeCap schedule
  rcases lookup_cases hIndexed hAddressable.slots nowMs ttlMs with
    ⟨expired, hResult, hNone, hExpired⟩ | ⟨record, hLive, hScope, hFresh, hShared, hResult, hMax⟩
  · rw [hResult]
    constructor
    case noMatch => simpa [noMatch] using hNone
    case found => simp [noMatch]
    case longest => simp [noMatch]
    case latest => simp [noMatch]
    case expired => simpa [noMatch] using hExpired
    case blocksOfNone => simp [noMatch]
  · have hBlocks : truncate32 (record.shared chain) = record.shared chain :=
      Nat.mod_eq_of_lt (shared_lt_of_addressable hAddressable hLive hScope)
    have hOrder : ∀ other ∈ store.live, other.scope = scope → other.Fresh nowMs ttlMs →
        other.shared chain < record.shared chain ∨
          (other.shared chain = record.shared chain ∧ other.tSendMs ≤ record.tSendMs) := by
      intro other hOther hOtherScope hOtherFresh
      have hKey := hMax other hOther hOtherScope hOtherFresh
      rwa [matchKey, matchKey, Prod.Lex.toLex_le_toLex] at hKey
    rw [hResult, hBlocks]
    constructor
    case noMatch =>
      simp only [reduceCtorEq, false_iff]
      intro hNone
      have hZero := hNone record hLive hScope hFresh
      omega
    case found =>
      rintro info hInfo
      exact ⟨record, hLive, hScope, hFresh, Option.some.inj hInfo, rfl⟩
    case longest =>
      intro _ other hOther hOtherScope hOtherFresh
      rcases hOrder other hOther hOtherScope hOtherFresh with hLess | ⟨hEq, _⟩
      · exact Nat.le_of_lt hLess
      · exact Nat.le_of_eq hEq
    case latest =>
      rintro info hInfo other hOther hOtherScope hOtherFresh hEq
      rw [← Option.some.inj hInfo]
      rcases hOrder other hOther hOtherScope hOtherFresh with hLess | ⟨_, hTime⟩
      · exact absurd hEq (Nat.ne_of_lt hLess)
      · exact hTime
    case expired => simp
    case blocksOfNone => simp

def overwrittenRing : List Action :=
  [.insert ⟨1, none, 8, 10, [1#128, 2#128, 3#128]⟩, .insert ⟨1, some "s", 8, 20, [1#128, 5#128]⟩,
    .insert ⟨1, some "t", 8, 30, [1#128, 2#128]⟩]

theorem lookup_answers_overwritten :
    let store := (Transducer.run step (new 2 2) overwrittenRing).1
    Answers store.live 1 ⟨0#128, 12, 4, [1#128, 2#128, 3#128]⟩ 40 100
      (store.lookup 1 ⟨0#128, 12, 4, [1#128, 2#128, 3#128]⟩ 40 100).2 := by
  have hSmall : (Transducer.run step (new 2 2) overwrittenRing).1.cap ≤ 2 ^ 32 := by decide
  exact lookup_answers 2 2 (by decide) overwrittenRing 1 _ 40 100
    (addressable_of_small (run_indexed (by decide) 2 overwrittenRing) hSmall (by decide) 1)

/-! ## Past 32 bits -/

theorem commonPrefixBlocks_append (blocks more : List (BitVec 128)) :
    commonPrefixBlocks blocks (blocks ++ more) = blocks.length := by
  induction blocks with
  | nil => rfl
  | cons h blocks ih => simp [commonPrefixBlocks, ih]

def singleStore (blocks : List (BitVec 128)) : TraceStore :=
  (Transducer.run step (new 1 1) [.insert ⟨0, none, 0, 0, blocks⟩]).1

/-- A match of exactly `2 ^ 32` blocks is reported with a block count of zero. -/
theorem lookup_truncates_blocks {blocks : List (BitVec 128)} (hLength : blocks.length = 2 ^ 32) :
    ¬ Answers (singleStore blocks).live 0 ⟨0#128, 0, 1, blocks⟩ 0 0
      ((singleStore blocks).lookup 0 ⟨0#128, 0, 1, blocks⟩ 0 0).2 := by
  intro hAnswers
  have hLive : (singleStore blocks).live = [⟨0, none, 0, 0, blocks⟩] := rfl
  have hRing : (singleStore blocks).ring.length = 1 := rfl
  have hIndexed : Indexed (singleStore blocks) := run_indexed (by decide) 1 _
  generalize singleStore blocks = store at hAnswers hLive hRing hIndexed
  have hShared : ∀ record ∈ store.live, record.shared ⟨0#128, 0, 1, blocks⟩ = 2 ^ 32 := by
    intro record hRecord
    rw [hLive, List.mem_singleton] at hRecord
    have hSelf := commonPrefixBlocks_append blocks []
    rw [List.append_nil] at hSelf
    rw [hRecord, StoredRecord.shared, hSelf, hLength]
  have hSlots : SlotsInRange store 0 ⟨0#128, 0, 1, blocks⟩ := by
    intro i slot record hSlot _ _ _
    have hRange := (List.getElem?_eq_some_iff.mp hSlot).1
    omega
  rcases lookup_cases hIndexed hSlots 0 0 with
    ⟨expired, _, hNone, _⟩ | ⟨record, hRecord, _, _, _, hResult, _⟩
  · have hMem : (⟨0, none, 0, 0, blocks⟩ : StoredRecord) ∈ store.live := hLive ▸ List.mem_singleton_self _
    have hZero := hNone _ hMem rfl (Nat.zero_le _)
    rw [hShared _ hMem] at hZero
    cases hZero
  · obtain ⟨found, hFound, _, _, _, hBlocks⟩ := hAnswers.found record.info (by rw [hResult])
    rw [hResult, hShared found hFound, hShared record hRecord] at hBlocks
    cases hBlocks

def blankRecord : StoredRecord := ⟨0, none, 0, 0, []⟩

structure Blank (store : TraceStore) (cap count : Nat) : Prop where
  uncapped : store.perScopeCap = 0
  cap : store.cap = cap
  next : store.next = count
  index : store.index = ∅
  records : ∀ i record, (store.slotAt i).record = some record → record.blockHashes = []

theorem slotAt_write (store : TraceStore) (record : StoredRecord) (i : Nat) :
    (store.write record).slotAt i = store.slotAt i ∨
      ((store.write record).slotAt i).record = some record ∧ store.next % store.cap = i := by
  by_cases hSlot : store.next % store.cap = i
  · by_cases hRange : i < store.ring.length
    · right
      exact ⟨by simp [slotAt, write, hSlot, hRange], hSlot⟩
    · left
      simp [slotAt, write, hSlot, Nat.not_lt.mp hRange]
  · left
    simp [slotAt, write, hSlot]

theorem insert_of_uncapped (h : store.perScopeCap = 0) (record : StoredRecord) :
    store.insert record = store.write record := by
  simp [TraceStore.insert, makeRoom, h]

variable {count cap : Nat}

theorem Blank.insert (h : Blank store cap count) (hCount : count + 1 < 2 ^ 64) :
    Blank (store.insert blankRecord) cap (count + 1) := by
  rw [insert_of_uncapped h.uncapped]
  constructor
  case uncapped => exact h.uncapped
  case cap => exact h.cap
  case next =>
    simp only [write, h.next]
    exact Nat.mod_eq_of_lt hCount
  case index => exact h.index
  case records =>
    intro i record hRecord
    rcases store.slotAt_write blankRecord i with hOld | ⟨hNew, _⟩
    · exact h.records i record (hOld ▸ hRecord)
    · rw [hNew] at hRecord
      rw [← Option.some.inj hRecord]
      rfl

theorem run_blank (cap count : Nat) (hCount : count < 2 ^ 64) : Blank
    (Transducer.run step (new cap 0) (List.replicate count (.insert blankRecord))).1 cap count := by
  induction count with
  | zero =>
    refine ⟨rfl, rfl, rfl, rfl, ?_⟩
    intro i record hRecord
    obtain ⟨slot, hSlot, hEq⟩ := slotAt_record hRecord
    rw [← hEq, (List.mem_replicate.mp (List.mem_of_getElem? hSlot)).2] at hRecord
    cases hRecord
  | succ count ih =>
    rw [List.replicate_succ', Transducer.run_concat]
    exact (ih (by omega)).insert hCount

theorem lookup_matched_none (store : TraceStore) (scope : Nat) (chain : Chain) {first : BitVec 128}
    (hFirst : chain.blockHashes.head? = some first) (nowMs ttlMs : Nat)
    (hNone : ∀ r ∈ store.index.refsAt (scope, low64 first),
      store.validMatch scope chain first nowMs ttlMs r = none) :
    (store.lookup scope chain nowMs ttlMs).2.matched = none := by
  have hBest := (store.foldl_scanRef scope chain first nowMs ttlMs
    (store.index.refsAt (scope, low64 first)) { tombstoneHits := store.tombstoneHits }).1
  rw [List.filterMap_eq_nil_iff.mpr hNone, List.foldl_nil] at hBest
  simp [lookup, hFirst, hBest, noMatch]

/-- A record in slot `2 ^ 32` is indexed as slot `0` and not found. -/
theorem lookup_misses_slot (h : Blank store cap count) (hCap : cap = 2 ^ 32 + 1) (hCount : count = 2 ^ 32)
    (hLength : store.ring.length = cap) : let after := store.insert ⟨0, none, 0, 0, [1#128]⟩
    ¬ Answers after.live 0 ⟨0#128, 0, 1, [1#128]⟩ 0 0 (after.lookup 0 ⟨0#128, 0, 1, [1#128]⟩ 0 0).2 := by
  intro after hAnswers
  have hInsert : after = store.write ⟨0, none, 0, 0, [1#128]⟩ := insert_of_uncapped h.uncapped _
  have hPosition : store.next % store.cap = 2 ^ 32 := by
    rw [h.next, h.cap]
    subst hCap hCount
    exact Nat.mod_eq_of_lt (Nat.lt_succ_self _)
  have hLive : (⟨0, none, 0, 0, [1#128]⟩ : StoredRecord) ∈ after.live := by
    rw [hInsert, mem_live_iff]
    refine ⟨2 ^ 32, ⟨truncate32 ((store.slotAt (2 ^ 32)).generation + 1), _⟩, ?_, rfl⟩
    simp [write, hPosition, hLength, hCap]
  have hRefs : ∀ r ∈ after.index.refsAt (0, low64 1#128), r.slot = 0 := by
    intro r hr
    rw [hInsert] at hr
    simp only [write, h.index, hPosition, Index.pushRecord, List.zipIdx_cons, List.zipIdx_nil,
      List.foldl_cons, List.foldl_nil, Index.mem_refsAt_push] at hr
    rcases hr with hr | ⟨_, rfl⟩
    · simp [Index.refsAt] at hr
    · rfl
  have hUnmatched : ∀ r ∈ after.index.refsAt (0, low64 1#128),
      after.validMatch 0 ⟨0#128, 0, 1, [1#128]⟩ 1#128 0 0 r = none := by
    intro r hr
    unfold validMatch
    split
    · rename_i found hExamine
      obtain ⟨hRecord, _, hHead, _⟩ := (examine_spec ..).1 found hExamine
      rw [hRefs r hr, hInsert] at hRecord
      rcases store.slotAt_write ⟨0, none, 0, 0, [1#128]⟩ 0 with hOld | ⟨_, hZero⟩
      · rw [hOld] at hRecord
        rw [h.records 0 found hRecord] at hHead
        cases hHead
      · rw [hPosition] at hZero
        cases hZero
    · rfl
  have hNone := lookup_matched_none after 0 ⟨0#128, 0, 1, [1#128]⟩ rfl 0 0 hUnmatched
  have hShared := hAnswers.noMatch.mp hNone _ hLive rfl (Nat.zero_le _)
  cases hShared

def lastSlotStore (cap count : Nat) : TraceStore :=
  (Transducer.run step (new cap 0)
    (List.replicate count (Action.insert blankRecord) ++ [Action.insert ⟨0, none, 0, 0, [1#128]⟩])).1

theorem lastSlotStore_eq (cap count : Nat) : lastSlotStore cap count =
    (Transducer.run step (new cap 0) (List.replicate count (.insert blankRecord))).1.insert
      ⟨0, none, 0, 0, [1#128]⟩ := by
  rw [lastSlotStore, Transducer.run_concat]
  rfl

theorem lookup_misses_last_slot (hCap : cap = 2 ^ 32 + 1) (hCount : count = 2 ^ 32) :
    ¬ Answers (lastSlotStore cap count).live 0 ⟨0#128, 0, 1, [1#128]⟩ 0 0
      ((lastSlotStore cap count).lookup 0 ⟨0#128, 0, 1, [1#128]⟩ 0 0).2 := by
  have hBlank := run_blank cap count (by omega)
  have hIndexed := run_indexed (by omega : 0 < cap) 0 (List.replicate count (.insert blankRecord))
  rw [lastSlotStore_eq]
  exact lookup_misses_slot hBlank hCap hCount (hIndexed.length.trans hBlank.cap)

/-- A lookup does not answer like a scan for a chain of `2 ^ 32` blocks, nor in a ring of more than
`2 ^ 32` slots. -/
theorem lookup_fails_past_32_bits :
    ¬ Answers (singleStore (List.replicate (2 ^ 32) 1#128)).live 0
      ⟨0#128, 0, 1, List.replicate (2 ^ 32) 1#128⟩ 0 0
      ((singleStore (List.replicate (2 ^ 32) 1#128)).lookup 0
        ⟨0#128, 0, 1, List.replicate (2 ^ 32) 1#128⟩ 0 0).2 ∧
    ¬ Answers (lastSlotStore (2 ^ 32 + 1) (2 ^ 32)).live 0 ⟨0#128, 0, 1, [1#128]⟩ 0 0
      ((lastSlotStore (2 ^ 32 + 1) (2 ^ 32)).lookup 0 ⟨0#128, 0, 1, [1#128]⟩ 0 0).2 := by
  refine ⟨?_, ?_⟩
  · have hLength : (List.replicate (2 ^ 32) 1#128).length = 2 ^ 32 := List.length_replicate
    exact lookup_truncates_blocks hLength
  · exact lookup_misses_last_slot rfl rfl

end TraceStore

end Aimux.Trace
