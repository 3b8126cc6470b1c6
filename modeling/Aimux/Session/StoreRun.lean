import Aimux.Session.Store

/-! # Runs of the session store

An operation acts on a store in up to three phases, each with its events: a session is evicted, a call is
recorded, a session is read. The invariant relates the store to the history of events and is kept by each
phase.
-/

namespace Aimux.Session

open Aimux.Lib

/-! ## Histories -/

theorem uses_concat (history : List Event) (event : Event) :
    uses (history ++ [event]) = uses history ++ (used event).toList := by
  rw [uses, List.filterMap_append]
  cases event <;> rfl

@[simp] theorem handed_concat (history : List Event) (event : Event) (id : String) :
    handed (history ++ [event]) id = afterEvent id (handed history id) event := by
  simp [handed]

/-- Whenever a session was evicted it was the least recently used one. -/
def EvictsLeast (history : List Event) : Prop :=
  ∀ before id after, history = before ++ Event.evicted id :: after → LeastRecentlyUsed before id

theorem EvictsLeast.concat {history : List Event} (h : EvictsLeast history) {event : Event}
    (hEvent : ∀ id, event = .evicted id → LeastRecentlyUsed history id) : EvictsLeast (history ++ [event]) := by
  intro before id after hSplit
  rcases split_concat hSplit with ⟨_, rfl, hLast⟩ | ⟨rest, _, hHistory⟩
  · exact hEvent id hLast.symm
  · exact h before id rest hHistory

@[simp] theorem Inner.touch_sessions (inner : Inner) (id : String) : (inner.touch id).sessions = inner.sessions :=
  rfl

def SessionStore.put (store : SessionStore) (id : String) (entry : Entry) : SessionStore :=
  { store with inner := { (store.inner.touch id) with sessions := store.inner.sessions.insert id entry } }

@[simp] theorem SessionStore.put_lru (store : SessionStore) (id : String) (entry : Entry) :
    (store.put id entry).inner.lru = store.inner.lru.erase id ++ [id] := rfl

@[simp] theorem SessionStore.put_sessions (store : SessionStore) (id : String) (entry : Entry) :
    (store.put id entry).inner.sessions = store.inner.sessions.insert id entry := rfl

/-! ## The invariant -/

/-- What an entry holds, given the calls recorded in its session. -/
structure EntryKept (maxCalls : Nat) (entry : Entry) (calls : List SessionCall) : Prop where
  nonempty : calls ≠ []
  nextStep : entry.nextStep = calls.length % 2 ^ 64
  last : entry.calls = calls.drop (calls.length - maxCalls)
  steps : ∀ n call, calls[n]? = some call → call.step = min (n % 2 ^ 64) U32_MAX

structure Kept (maxSessions maxCalls : Nat) (store : SessionStore) (history : List Event) : Prop where
  sessionBound : store.maxSessions = maxSessions
  callBound : store.maxCallsPerSession = maxCalls
  order : SortedByUse (uses history) store.inner.lru
  stored : ∀ id, id ∈ store.inner.lru ↔ id ∈ store.inner.sessions
  bounded : store.inner.lru.length ≤ maxSessions
  entries : ∀ id entry, store.inner.sessions.lookup id = some entry → EntryKept maxCalls entry (handed history id)
  absent : ∀ id, id ∉ store.inner.sessions → handed history id = []
  least : EvictsLeast history
  calm : Event.panicked ∉ history

variable {calls : List SessionCall} {entry : Entry} {id oldest : String}

section Phases

variable {maxSessions maxCalls : Nat} {store : SessionStore} {history : List Event}

namespace Kept

section

variable (h : Kept maxSessions maxCalls store history)

include h

theorem perm : store.inner.lru.Perm store.inner.sessions.keys :=
  (List.perm_ext_iff_of_nodup h.order.nodup store.inner.sessions.keys_nodup).mpr h.stored

theorem live_iff (id : String) : handed history id ≠ [] ↔ id ∈ store.inner.sessions := by
  refine ⟨fun hLive => by_contra fun hAbsent => hLive (h.absent id hAbsent), fun hStored => ?_⟩
  obtain ⟨entry, hEntry⟩ := Option.isSome_iff_exists.mp (AList.lookup_isSome.mpr hStored)
  exact (h.entries id entry hEntry).nonempty

theorem first_least {rest : List String} (hLru : store.inner.lru = oldest :: rest) :
    LeastRecentlyUsed history oldest := by
  refine ⟨(h.live_iff oldest).mpr ((h.stored oldest).mp (by simp [hLru])), ?_⟩
  intro other hLive hOther
  have hMem : other ∈ store.inner.lru := (h.stored other).mpr ((h.live_iff other).mp hLive)
  rw [hLru] at hMem
  exact SortedByUse.head_first (hLru ▸ h.order) ((List.mem_cons.mp hMem).resolve_left hOther)

theorem evict {rest : List String} (hLru : store.inner.lru = oldest :: rest) :
    Kept maxSessions maxCalls
      { store with inner := { sessions := store.inner.sessions.erase oldest, lru := rest } }
      (history ++ [Event.evicted oldest]) where
  sessionBound := h.sessionBound
  callBound := h.callBound
  order := by
    rw [uses_concat]
    exact (List.append_nil (uses history)).symm ▸ h.order.sublist (hLru ▸ List.sublist_cons_self oldest rest)
  stored := by
    intro id
    have hNodup : (oldest :: rest).Nodup := hLru ▸ h.order.nodup
    have hStored := h.stored id
    rw [hLru, List.mem_cons] at hStored
    rw [AList.mem_erase, ← hStored]
    constructor
    · intro hRest
      exact ⟨fun hId => (List.nodup_cons.mp hNodup).1 (hId ▸ hRest), .inr hRest⟩
    · rintro ⟨hId, hId' | hRest⟩
      · exact absurd hId' hId
      · exact hRest
  bounded := by
    have hBound := h.bounded
    rw [hLru, List.length_cons] at hBound
    exact Nat.le_of_succ_le hBound
  entries := by
    intro id entry hEntry
    by_cases hId : id = oldest
    · subst hId
      rw [AList.lookup_erase] at hEntry
      cases hEntry
    · rw [AList.lookup_erase_ne hId] at hEntry
      simpa [afterEvent, Ne.symm hId] using h.entries id entry hEntry
  absent := by
    intro id hAbsent
    by_cases hId : id = oldest
    · simp [afterEvent, hId]
    · have hBefore : id ∉ store.inner.sessions := fun hMem => hAbsent (AList.mem_erase.mpr ⟨hId, hMem⟩)
      simpa [afterEvent, Ne.symm hId] using h.absent id hBefore
  least := h.least.concat fun id hEvent => by
    cases hEvent
    exact h.first_least hLru
  calm := by simpa using h.calm

/-- A session that is read becomes the most recently used one. -/
theorem touch (hStored : id ∈ store.inner.sessions) :
    Kept maxSessions maxCalls { store with inner := store.inner.touch id } (history ++ [Event.used id]) where
  sessionBound := h.sessionBound
  callBound := h.callBound
  order := by
    rw [uses_concat]
    exact h.order.touch id
  stored := by
    intro other
    rw [Inner.touch_sessions, ← h.stored other]
    have hMem := (h.stored id).mpr hStored
    by_cases hOther : other = id
    · simp [Inner.touch, hOther, hMem]
    · simp [Inner.touch, hOther, List.mem_erase_of_ne hOther]
  bounded := by
    have hLength := List.length_erase_add_one ((h.stored id).mpr hStored)
    have hBound := h.bounded
    simp only [Inner.touch, List.length_append, List.length_singleton]
    omega
  entries := by simpa [afterEvent, Inner.touch] using h.entries
  absent := by simpa [afterEvent, Inner.touch] using h.absent
  least := h.least.concat fun _ hEvent => by cases hEvent
  calm := by simpa using h.calm

end

end Kept

theorem EntryKept.record (hEntry : calls ≠ [] → EntryKept maxCalls entry calls)
    (hFresh : calls = [] → entry.nextStep = 0 ∧ entry.calls = []) (hMax : 0 < maxCalls) (callId : Option String)
    (env : Environment) :
    EntryKept maxCalls (entry.record maxCalls callId env).1 (calls ++ [(entry.record maxCalls callId env).2]) := by
  have hNext : entry.nextStep = calls.length % 2 ^ 64 := by
    by_cases hCalls : calls = []
    · simp [hCalls, (hFresh hCalls).1]
    · exact (hEntry hCalls).nextStep
  have hLast : entry.calls = calls.drop (calls.length - maxCalls) := by
    by_cases hCalls : calls = []
    · simp [hCalls, (hFresh hCalls).2]
    · exact (hEntry hCalls).last
  constructor
  · simp
  · simp [Entry.record, hNext]
  · simp only [Entry.record, hLast, List.length_drop, List.length_append, List.length_singleton]
    by_cases hFull : maxCalls ≤ calls.length
    · rw [if_pos (by omega), List.tail_drop, List.drop_append_of_le_length (by omega)]
      congr 2
      omega
    · rw [if_neg (by omega), List.drop_append_of_le_length (by omega)]
      congr 2
      omega
  · intro n call hCall
    rcases Nat.lt_trichotomy n calls.length with hBefore | rfl | hAfter
    · rw [List.getElem?_append_left hBefore] at hCall
      have hSome : calls ≠ [] := by
        rintro rfl
        exact absurd hBefore (Nat.not_lt_zero n)
      exact (hEntry hSome).steps n call hCall
    · rw [List.getElem?_concat_length] at hCall
      obtain rfl := Option.some.inj hCall
      simp [Entry.record, hNext]
    · rw [List.getElem?_eq_none (by simp; omega)] at hCall
      cases hCall

namespace Kept

/-- A call is recorded in a session that is stored or has room. -/
theorem record (h : Kept maxSessions maxCalls store history) (entry : Entry)
    (hRoom : id ∈ store.inner.sessions ∨ store.inner.lru.length < maxSessions)
    (hEntry : ∀ found, store.inner.sessions.lookup id = some found → entry = found)
    (hFresh : id ∉ store.inner.sessions → entry.nextStep = 0 ∧ entry.calls = []) (callId : Option String)
    (env : Environment) :
    Kept maxSessions maxCalls (store.put id (entry.record maxCalls callId env).1)
      (history ++ [Event.used id] ++ [Event.handed id (entry.record maxCalls callId env).2]) where
  sessionBound := h.sessionBound
  callBound := h.callBound
  order := by
    rw [uses_concat, uses_concat]
    exact (List.append_nil (uses history ++ [id])).symm ▸ h.order.touch id
  stored := by
    intro other
    rw [SessionStore.put_lru, SessionStore.put_sessions, AList.mem_insert, ← h.stored other]
    by_cases hOther : other = id
    · simp [hOther]
    · simp [hOther, List.mem_erase_of_ne hOther]
  bounded := by
    simp only [SessionStore.put_lru, List.length_append, List.length_singleton]
    have hBound := h.bounded
    by_cases hStored : id ∈ store.inner.lru
    · have hLength := List.length_erase_add_one hStored
      omega
    · rw [List.erase_of_not_mem hStored]
      exact hRoom.resolve_left fun hMem => hStored ((h.stored id).mpr hMem)
  entries := by
    intro other found hFound
    rw [SessionStore.put_sessions] at hFound
    rw [handed_concat, handed_concat]
    by_cases hOther : other = id
    · subst hOther
      rw [AList.lookup_insert] at hFound
      obtain rfl := Option.some.inj hFound
      have hMax : 0 < maxCalls := h.callBound ▸ store.calls_pos
      simp only [afterEvent, if_true]
      refine EntryKept.record ?_ ?_ hMax callId env
      · intro hCalls
        obtain ⟨found, hFound⟩ :=
          Option.isSome_iff_exists.mp (AList.lookup_isSome.mpr ((h.live_iff other).mp hCalls))
        exact hEntry found hFound ▸ h.entries other found hFound
      · intro hCalls
        exact hFresh fun hStored => (h.live_iff other).mpr hStored hCalls
    · rw [AList.lookup_insert_ne hOther] at hFound
      simpa [afterEvent, Ne.symm hOther] using h.entries other found hFound
  absent := by
    intro other hAbsent
    rw [SessionStore.put_sessions, AList.mem_insert, not_or] at hAbsent
    rw [handed_concat, handed_concat]
    simpa [afterEvent, Ne.symm hAbsent.1] using h.absent other hAbsent.2
  least := (h.least.concat fun _ hEvent => by cases hEvent).concat fun _ hEvent => by cases hEvent
  calm := by simpa using h.calm

theorem clear (h : Kept maxSessions maxCalls store history) :
    Kept maxSessions maxCalls store.clear (history ++ [Event.cleared]) where
  sessionBound := h.sessionBound
  callBound := h.callBound
  order := SortedByUse.nil _
  stored id := by
    simp [SessionStore.clear]
  bounded := Nat.zero_le maxSessions
  entries id entry hEntry := by
    simp [SessionStore.clear] at hEntry
  absent id _ := by
    rw [handed_concat]
    rfl
  least := h.least.concat fun _ hEvent => by cases hEvent
  calm := by simpa using h.calm

end Kept

end Phases

/-! ## Steps and runs -/

variable {maxSessions maxCalls : Nat} {store : SessionStore} {history : List Event}

/-- A session that is not stored is not touched by making room before it. -/
theorem Inner.touch_makeRoom {inner : Inner} (hAbsent : id ∉ inner.lru)
    (hEmpty : inner.lru = [] → inner.sessions.keys.length < maxSessions) :
    (inner.touch id).makeRoom maxSessions = (inner.makeRoom maxSessions).touch id := by
  unfold Inner.makeRoom
  by_cases hFull : inner.sessions.keys.length ≥ maxSessions
  · rw [touch_sessions, if_pos hFull, if_pos hFull]
    match hLru : inner.lru with
    | [] => exact absurd (hEmpty hLru) (Nat.not_lt.mpr hFull)
    | oldest :: rest =>
      rw [hLru, List.mem_cons, not_or] at hAbsent
      simp [Inner.touch, hLru, List.erase_cons_tail, Ne.symm hAbsent.1]
  · rw [touch_sessions, if_neg hFull, if_neg hFull]

theorem gone_eq_nil {next : SessionStore} (hKept : ∀ id ∈ store.inner.sessions, id ∈ next.inner.sessions) :
    gone store next = [] := by
  refine List.filter_eq_nil_iff.mpr fun id hId => ?_
  simpa using hKept id (AList.mem_keys.mpr hId)

theorem gone_eq_singleton {next : SessionStore} (hStored : oldest ∈ store.inner.sessions)
    (hGone : ∀ id ∈ store.inner.sessions, id ∉ next.inner.sessions ↔ id = oldest) : gone store next = [oldest] := by
  refine List.perm_singleton.mp ((List.perm_ext_iff_of_nodup ?_ (List.nodup_singleton oldest)).mpr fun id => ?_)
  · exact store.inner.sessions.keys_nodup.filter _
  · simp only [gone, List.mem_filter, decide_eq_true_eq, List.mem_singleton]
    constructor
    · rintro ⟨hId, hAbsent⟩
      exact (hGone id hId).mp hAbsent
    · rintro rfl
      exact ⟨hStored, (hGone id hStored).mpr rfl⟩

/-- A call is recorded in its session, or in a new one for which there is room after an eviction. -/
theorem SessionStore.append_stored (hEntry : store.inner.sessions.lookup id = some entry) (callId : Option String)
    (source : SessionSource) (env : Environment) :
    store.append id callId source env =
      some ((entry.record store.maxCallsPerSession callId env).2,
        store.put id (entry.record store.maxCallsPerSession callId env).1) := by
  have hStored : id ∈ store.inner.sessions := AList.lookup_isSome.mp (hEntry ▸ rfl)
  have hEnsure : (store.inner.touch id).ensureSession store.maxSessions id source = store.inner.touch id := if_pos hStored
  simp only [append, hEnsure, Inner.touch_sessions, hEntry, Option.map_some]
  rfl

theorem Kept.append_new (h : Kept maxSessions maxCalls store history) (hAbsent : id ∉ store.inner.sessions)
    (callId : Option String) (source : SessionSource) (env : Environment) :
    store.append id callId source env =
      some ((Entry.record { source, calls := [], nextStep := 0 } maxCalls callId env).2,
        SessionStore.put { store with inner := store.inner.makeRoom maxSessions } id
          (Entry.record { source, calls := [], nextStep := 0 } maxCalls callId env).1) := by
  have hUnordered : id ∉ store.inner.lru := fun hMem => hAbsent ((h.stored id).mp hMem)
  have hEmpty : store.inner.lru = [] → store.inner.sessions.keys.length < maxSessions := by
    intro hLru
    have hLength := h.perm.length_eq
    rw [hLru, List.length_nil] at hLength
    exact hLength ▸ h.sessionBound ▸ store.sessions_pos
  have hEnsure : (store.inner.touch id).ensureSession maxSessions id source =
      { ((store.inner.makeRoom maxSessions).touch id) with
        sessions := (store.inner.makeRoom maxSessions).sessions.insert id { source, calls := [], nextStep := 0 } } := by
    rw [Inner.ensureSession, Inner.touch_sessions, if_neg hAbsent, Inner.touch_makeRoom hUnordered hEmpty]
    rfl
  simp only [SessionStore.append, h.sessionBound, h.callBound, hEnsure, AList.lookup_insert, Option.map_some,
    AList.insert_insert]
  rfl

theorem Kept.append (h : Kept maxSessions maxCalls store history) (id : String) (callId : Option String)
    (source : SessionSource) (env : Environment) :
    ∃ call next, store.append id callId source env = some (call, next) ∧
      Kept maxSessions maxCalls next
        (history ++ ((gone store next).map Event.evicted ++ [Event.used id, .handed id call])) := by
  cases hEntry : store.inner.sessions.lookup id with
  | some entry =>
    have hStored : id ∈ store.inner.sessions := AList.lookup_isSome.mp (hEntry ▸ rfl)
    have hNext := h.record entry (.inl hStored) (fun found hFound => Option.some.inj (hEntry ▸ hFound))
      (fun hAbsent => absurd hStored hAbsent) callId env
    rw [SessionStore.append_stored hEntry, h.callBound]
    refine ⟨_, _, rfl, ?_⟩
    rw [gone_eq_nil fun other hOther => (AList.mem_insert _).mpr (.inr hOther)]
    simpa using hNext
  | none =>
    have hAbsent : id ∉ store.inner.sessions := AList.lookup_eq_none.mp hEntry
    have hLength : store.inner.lru.length = store.inner.sessions.keys.length := h.perm.length_eq
    rw [h.append_new hAbsent]
    refine ⟨_, _, rfl, ?_⟩
    by_cases hFull : store.inner.sessions.keys.length ≥ maxSessions
    · match hLru : store.inner.lru with
      | [] =>
        have hPositive : 0 < maxSessions := h.sessionBound ▸ store.sessions_pos
        rw [hLru, List.length_nil] at hLength
        omega
      | oldest :: rest =>
        have hRoom : store.inner.makeRoom maxSessions =
            { sessions := store.inner.sessions.erase oldest, lru := rest } := by
          rw [Inner.makeRoom, if_pos hFull, hLru]
        have hSpace : rest.length < maxSessions := by
          have hBound := h.bounded
          rwa [hLru, List.length_cons] at hBound
        have hNotIn : id ∉ store.inner.sessions.erase oldest := fun hMem => hAbsent (AList.mem_erase.mp hMem).2
        have hNext := (h.evict hLru).record { source, calls := [], nextStep := 0 } (.inr hSpace)
          (fun found hFound => by rw [AList.lookup_eq_none.mpr hNotIn] at hFound; cases hFound)
          (fun _ => ⟨rfl, rfl⟩) callId env
        rw [hRoom, gone_eq_singleton ((h.stored oldest).mp (by simp [hLru]))]
        · simpa using hNext
        · intro other hOther
          have hId : other ≠ id := fun hId => hAbsent (hId ▸ hOther)
          rw [SessionStore.put_sessions, AList.mem_insert, AList.mem_erase]
          tauto
    · have hRoom : store.inner.makeRoom maxSessions = store.inner := if_neg hFull
      have hNext := h.record { source, calls := [], nextStep := 0 } (.inr (by omega))
        (fun found hFound => by rw [hEntry] at hFound; cases hFound)
        (fun _ => ⟨rfl, rfl⟩) callId env
      rw [hRoom, gone_eq_nil fun other hOther => (AList.mem_insert _).mpr (.inr hOther)]
      simpa using hNext

theorem Kept.step (h : Kept maxSessions maxCalls store history) (op : Op) :
    Kept maxSessions maxCalls (step store op).1 (history ++ (step store op).2) := by
  cases op with
  | append id callId source env =>
    obtain ⟨call, next, hAppend, hNext⟩ := h.append id callId source env
    simpa only [Session.step, hAppend] using hNext
  | sessionCalls id =>
    by_cases hStored : id ∈ store.inner.sessions
    · simpa only [Session.step, SessionStore.sessionCalls, if_pos hStored] using h.touch hStored
    · simpa only [Session.step, SessionStore.sessionCalls, if_neg hStored, List.append_nil] using h
  | listSessions => simpa only [Session.step, List.append_nil] using h
  | clear => exact h.clear

theorem Kept.initial (sessions_pos : 0 < maxSessions) (calls_pos : 0 < maxCalls) :
    Kept maxSessions maxCalls (SessionStore.withCapacity maxSessions maxCalls sessions_pos calls_pos) [] where
  sessionBound := rfl
  callBound := rfl
  order := SortedByUse.nil []
  stored id := by simp [SessionStore.withCapacity]
  bounded := Nat.zero_le maxSessions
  entries id entry hEntry := by simp [SessionStore.withCapacity] at hEntry
  absent _ _ := rfl
  least before id after hSplit := by simp at hSplit
  calm := List.not_mem_nil

theorem run_kept (sessions_pos : 0 < maxSessions) (calls_pos : 0 < maxCalls) (ops : List Op) :
    Kept maxSessions maxCalls
      (Transducer.run step (SessionStore.withCapacity maxSessions maxCalls sessions_pos calls_pos) ops).1
      (Transducer.run step (SessionStore.withCapacity maxSessions maxCalls sessions_pos calls_pos) ops).2 :=
  Transducer.run_invariant (Kept maxSessions maxCalls) (fun _ _ op h => h.step op)
    (Kept.initial sessions_pos calls_pos) ops

theorem EntryKept.calls_length (h : EntryKept maxCalls entry calls) :
    entry.calls.length ≤ maxCalls := by
  rw [h.last, List.length_drop]
  omega

theorem EntryKept.step_lt (h : EntryKept maxCalls entry calls) {n m : Nat} (hOrder : n < m) (hWidth : m ≤ U32_MAX)
    {earlier later : SessionCall} (hEarlier : calls[n]? = some earlier) (hLater : calls[m]? = some later) :
    earlier.step < later.step := by
  have hMax : U32_MAX < 2 ^ 64 := by decide
  rw [h.steps n earlier hEarlier, h.steps m later hLater, Nat.mod_eq_of_lt (by omega), Nat.mod_eq_of_lt (by omega)]
  omega

theorem EntryKept.step_saturated (h : EntryKept maxCalls entry calls) {n : Nat} (hWidth : U32_MAX ≤ n)
    (hCounter : n < 2 ^ 64) {call : SessionCall} (hCall : calls[n]? = some call) :
    call.step = U32_MAX := by
  rw [h.steps n call hCall, Nat.mod_eq_of_lt hCounter, min_eq_right hWidth]

/-- A query of an unknown session answers nothing and leaves the store as it is. -/
theorem sessionCalls_unknown (hAbsent : id ∉ store.inner.sessions) :
    store.sessionCalls id = ([], store) := by
  simp only [SessionStore.sessionCalls, if_neg hAbsent, AList.lookup_eq_none.mpr hAbsent]
  rfl

/-- After any operations on a store of any capacity: the order is one of the stored sessions, within the
bounds; evictions met the least recently used session; and of the calls handed out in a live session the
last ones are kept, their steps increasing until they saturate. -/
theorem run_bounded_lru (sessions_pos : 0 < maxSessions) (calls_pos : 0 < maxCalls) (ops : List Op) :
    let run := Transducer.run step (SessionStore.withCapacity maxSessions maxCalls sessions_pos calls_pos) ops
    run.1.inner.lru.Nodup ∧ run.1.inner.lru.Perm run.1.inner.sessions.keys ∧
    run.1.inner.lru.Pairwise (UsedAfter (uses run.2)) ∧
    run.1.inner.sessions.keys.length ≤ maxSessions ∧
    (∀ before id after, run.2 = before ++ .evicted id :: after → LeastRecentlyUsed before id) ∧
    (∀ id, handed run.2 id ≠ [] ↔ id ∈ run.1.inner.sessions) ∧
    (∀ id entry, run.1.inner.sessions.lookup id = some entry →
      entry.calls.length ≤ maxCalls ∧
      entry.calls = (handed run.2 id).drop ((handed run.2 id).length - maxCalls) ∧
      (∀ n m earlier later, n < m → m ≤ U32_MAX → (handed run.2 id)[n]? = some earlier →
        (handed run.2 id)[m]? = some later → earlier.step < later.step) ∧
      (∀ n call, U32_MAX ≤ n → n < 2 ^ 64 → (handed run.2 id)[n]? = some call → call.step = U32_MAX)) ∧
    (∀ id, id ∉ run.1.inner.sessions → run.1.sessionCalls id = ([], run.1)) ∧
    .panicked ∉ run.2 := by
  intro run
  have h : Kept maxSessions maxCalls run.1 run.2 := run_kept sessions_pos calls_pos ops
  refine ⟨h.order.nodup, h.perm, h.order.sorted, h.perm.length_eq ▸ h.bounded, h.least, h.live_iff, ?_,
    fun id => sessionCalls_unknown, h.calm⟩
  intro id entry hEntry
  have hKept := h.entries id entry hEntry
  refine ⟨hKept.calls_length, hKept.last, ?_, ?_⟩
  · intro n m earlier later hOrder hWidth hEarlier hLater
    exact hKept.step_lt hOrder hWidth hEarlier hLater
  · intro n call hWidth hCounter hCall
    exact hKept.step_saturated hWidth hCounter hCall

theorem run_bounded_lru_evicts :
    let run := Transducer.run step (SessionStore.withCapacity 1 1 (by decide) (by decide))
      [.append "a" none .explicit ⟨"call-1", "t"⟩, .append "b" none .inferred ⟨"call-2", "t"⟩]
    run.1.inner.lru = ["b"] ∧ ∃ before after, run.2 = before ++ .evicted "a" :: after ∧
      LeastRecentlyUsed before "a" := by
  have hRun := @run_bounded_lru 1 1 (by decide) (by decide)
    [.append "a" none .explicit ⟨"call-1", "t"⟩, .append "b" none .inferred ⟨"call-2", "t"⟩]
  refine ⟨rfl, [.used "a", .handed "a" ⟨"call-1", 0, "t"⟩], [.used "b", .handed "b" ⟨"call-2", 0, "t"⟩], rfl, ?_⟩
  exact hRun.2.2.2.2.1 _ _ _ rfl

/-! ## What a session lists -/

theorem append_callId {target : String} {next : SessionStore} {recorded : SessionCall} {callId : Option String} {source : SessionSource} {env : Environment}
    (h : store.append target callId source env = some (recorded, next)) :
    recorded.callId = callId.getD env.newCallId := by
  obtain ⟨entry, _, hEntry⟩ := Option.map_eq_some_iff.mp h
  cases hEntry
  rfl

theorem handed_evicted (history : List Event) (ids : List String) (id : String) :
    handed (history ++ ids.map .evicted) id = if id ∈ ids then [] else handed history id := by
  induction ids generalizing history with
  | nil => simp
  | cons first ids ih =>
    rw [List.map_cons, List.append_cons, ih, handed_concat]
    by_cases hFirst : first = id <;> simp [afterEvent, hFirst, Ne.symm]

/-- What a session holds of the calls that were recorded in it, by their ids. -/
structure Holds (history : List Event) (id : String) (all : List String) : Prop where
  last : (handed history id).map (·.callId) <:+ all
  whole : .evicted id ∉ history → (handed history id).map (·.callId) = all

theorem Holds.append {all : List String} (h : Holds history id all) {target : String} (gone : List String) (call : SessionCall) :
    Holds (history ++ (gone.map .evicted ++ [.used target, .handed target call])) id
      (all ++ if target = id then [call.callId] else []) := by
  have hCalls : handed (history ++ (gone.map .evicted ++ [.used target, .handed target call])) id =
      (if id ∈ gone then [] else handed history id) ++ if target = id then [call] else [] := by
    rw [← List.append_assoc, List.append_cons, handed_concat, handed_concat, handed_evicted]
    by_cases hTarget : target = id <;> simp [afterEvent, hTarget]
  have hIds : (if target = id then [call] else []).map (·.callId) = if target = id then [call.callId] else [] := by
    split <;> rfl
  constructor
  · rw [hCalls, List.map_append, hIds, List.suffix_append_self_iff]
    split
    · exact List.nil_suffix
    · exact h.last
  · intro hNever
    simp only [List.mem_append, List.mem_map, not_or] at hNever
    have hStays : id ∉ gone := fun hGone => hNever.2.1 ⟨id, hGone, rfl⟩
    rw [hCalls, if_neg hStays, List.map_append, hIds, h.whole hNever.1]

theorem Kept.listed (h : Kept maxSessions maxCalls store history) (id : String) :
    (store.sessionCalls id).1 = (handed history id).drop ((handed history id).length - maxCalls) := by
  by_cases hStored : id ∈ store.inner.sessions
  · obtain ⟨entry, hEntry⟩ := Option.isSome_iff_exists.mp (AList.lookup_isSome.mpr hStored)
    simp only [SessionStore.sessionCalls, if_pos hStored, Inner.touch_sessions, hEntry]
    exact (h.entries id entry hEntry).last
  · rw [sessionCalls_unknown hStored, h.absent id hStored, List.drop_nil]

/-! ## A session of more calls than a step counts -/

def nextCall : Op := .append "agent" (some "call") .explicit ⟨"", ""⟩

/-- In a store without another session. -/
theorem Kept.nextCall (h : Kept maxSessions maxCalls store history)
    (hOnly : ∀ id ∈ store.inner.sessions, id = "agent") :
    ∃ call next, Session.step store nextCall = (next, [.used "agent", .handed "agent" call]) ∧
      ∀ id ∈ next.inner.sessions, id = "agent" := by
  obtain ⟨call, next, hAppend, hNext⟩ := h.append "agent" (some "call") .explicit ⟨"", ""⟩
  have hGone : gone store next = [] := by
    refine gone_eq_nil fun id hId => (hNext.live_iff id).mp ?_
    simp [hOnly id hId, handed, afterEvent]
  rw [hGone] at hNext
  refine ⟨call, next, ?_, ?_⟩
  · simp [Session.step, Session.nextCall, hAppend, hGone]
  · intro id hId
    by_contra hOther
    have hLive := (hNext.live_iff id).mpr hId
    have hBefore : handed history id = [] := h.absent id fun hMem => hOther (hOnly id hMem)
    refine hLive ?_
    simpa [handed, afterEvent, Ne.symm hOther] using hBefore

theorem nextCall_run (sessions_pos : 0 < maxSessions) (calls_pos : 0 < maxCalls) (n : Nat) :
    let run := Transducer.run step (SessionStore.withCapacity maxSessions maxCalls sessions_pos calls_pos)
      (List.replicate n nextCall)
    (handed run.2 "agent").length = n ∧ ∀ id ∈ run.1.inner.sessions, id = "agent" := by
  induction n with
  | zero => exact ⟨rfl, fun id hId => by simp [SessionStore.withCapacity] at hId⟩
  | succ n ih =>
    obtain ⟨hLength, hOnly⟩ := ih
    obtain ⟨call, next, hStep, hNext⟩ :=
      (run_kept sessions_pos calls_pos (List.replicate n nextCall)).nextCall hOnly
    rw [List.replicate_succ', Transducer.run_concat, hStep]
    refine ⟨?_, hNext⟩
    simpa [handed, afterEvent] using hLength

/-- The step counter of a session does not grow past its width. -/
theorem steps_repeat :
    ∃ earlier later,
      (handed (Transducer.run step (SessionStore.withCapacity 1 1 (by decide) (by decide))
        (List.replicate (2 ^ 32 + 1) nextCall)).2 "agent")[2 ^ 32 - 1]? = some earlier ∧
      (handed (Transducer.run step (SessionStore.withCapacity 1 1 (by decide) (by decide))
        (List.replicate (2 ^ 32 + 1) nextCall)).2 "agent")[2 ^ 32]? = some later ∧
      later.step = earlier.step := by
  generalize hCount : 2 ^ 32 + 1 = count
  have hKept := @run_kept 1 1 (by decide) (by decide) (List.replicate count nextCall)
  obtain ⟨hLength, _⟩ := @nextCall_run 1 1 (by decide) (by decide) count
  generalize Transducer.run step _ (List.replicate count nextCall) = run at hKept hLength ⊢
  have hSome (n : Nat) (hn : n < count) : ∃ call, (handed run.2 "agent")[n]? = some call :=
    ⟨_, List.getElem?_eq_getElem (hLength.symm ▸ hn)⟩
  obtain ⟨earlier, hEarlier⟩ := hSome (2 ^ 32 - 1) (by omega)
  obtain ⟨later, hLater⟩ := hSome (2 ^ 32) (by omega)
  have hStored : "agent" ∈ run.1.inner.sessions := by
    refine (hKept.live_iff "agent").mp fun hNone => ?_
    rw [hNone] at hLater
    cases hLater
  obtain ⟨entry, hEntry⟩ := Option.isSome_iff_exists.mp (AList.lookup_isSome.mpr hStored)
  have hSteps := hKept.entries "agent" entry hEntry
  refine ⟨earlier, later, hEarlier, hLater, ?_⟩
  rw [hSteps.step_saturated (by decide) (by decide) hEarlier, hSteps.step_saturated (by decide) (by decide) hLater]

end Aimux.Session
