import Aimux.Lib.Transducer
import Aimux.Lib.Recency

/-! # The session store

The calls of each session under its id, bounded in the number of sessions and of calls per session, and
next to them the order in which the sessions were last used. The id of a call that comes without one and
the time of the call are the environment's.
-/

namespace Aimux.Session

open Aimux.Lib

inductive SessionSource where
  | explicit
  | inferred
deriving DecidableEq

structure SessionCall where
  callId : String
  step : Nat
  recordedAt : String
deriving DecidableEq

structure Entry where
  source : SessionSource
  calls : List SessionCall
  nextStep : Nat

structure SessionView where
  sessionId : String
  source : SessionSource
  calls : List SessionCall

structure Inner where
  sessions : AList fun _ : String => Entry := ∅
  /-- The first one is the least recently used. -/
  lru : List String := []

structure SessionStore where
  inner : Inner
  maxSessions : Nat
  maxCallsPerSession : Nat
  sessions_pos : 0 < maxSessions
  calls_pos : 0 < maxCallsPerSession

/-- What `new_call_id` and `rfc3339_now` answer. -/
structure Environment where
  newCallId : String
  now : String

def U32_MAX : Nat := 2 ^ 32 - 1

/-- Mark `id` as most recently used. -/
def Inner.touch (inner : Inner) (id : String) : Inner := { inner with lru := inner.lru.erase id ++ [id] }

/-- Evict the least recently used session of a full store. -/
def Inner.makeRoom (inner : Inner) (maxSessions : Nat) : Inner :=
  if inner.sessions.keys.length ≥ maxSessions then
    match inner.lru with
    | oldest :: rest => { sessions := inner.sessions.erase oldest, lru := rest }
    | [] => inner
  else inner

def Inner.ensureSession (inner : Inner) (maxSessions : Nat) (sessionId : String) (source : SessionSource) : Inner :=
  if sessionId ∈ inner.sessions then inner
  else
    let inner := inner.makeRoom maxSessions
    { inner with sessions := inner.sessions.insert sessionId { source, calls := [], nextStep := 0 } }

/-- The step saturates at its width, the counter behind it wraps at its own. -/
def Entry.record (entry : Entry) (maxCalls : Nat) (callId : Option String) (env : Environment) :
    Entry × SessionCall :=
  let call : SessionCall :=
    { callId := callId.getD env.newCallId, step := min entry.nextStep U32_MAX, recordedAt := env.now }
  let kept := if entry.calls.length ≥ maxCalls then entry.calls.tail else entry.calls
  ({ entry with nextStep := (entry.nextStep + 1) % 2 ^ 64, calls := kept ++ [call] }, call)

namespace SessionStore

def withCapacity (maxSessions maxCallsPerSession : Nat) (sessions_pos : 0 < maxSessions)
    (calls_pos : 0 < maxCallsPerSession) : SessionStore where
  inner := {}
  maxSessions := maxSessions
  maxCallsPerSession := maxCallsPerSession
  sessions_pos := sessions_pos
  calls_pos := calls_pos

def new : SessionStore := withCapacity 256 64 (by decide) (by decide)

/-- `none` where the entry of the session is not there to be unwrapped. -/
def append (store : SessionStore) (sessionId : String) (callId : Option String) (source : SessionSource)
    (env : Environment) : Option (SessionCall × SessionStore) :=
  let inner := (store.inner.touch sessionId).ensureSession store.maxSessions sessionId source
  (inner.sessions.lookup sessionId).map fun entry =>
    let recorded := entry.record store.maxCallsPerSession callId env
    (recorded.2, { store with inner := { inner with sessions := inner.sessions.insert sessionId recorded.1 } })

def sessionCalls (store : SessionStore) (sessionId : String) : List SessionCall × SessionStore :=
  let inner := if sessionId ∈ store.inner.sessions then store.inner.touch sessionId else store.inner
  (((inner.sessions.lookup sessionId).map (·.calls)).getD [], { store with inner })

def listSessions (store : SessionStore) : List SessionView :=
  store.inner.sessions.entries.map fun entry =>
    { sessionId := entry.1, source := entry.2.source, calls := entry.2.calls }

def clear (store : SessionStore) : SessionStore := { store with inner := {} }

end SessionStore

/-! ## Operations on a store -/

inductive Op where
  | append (sessionId : String) (callId : Option String) (source : SessionSource) (env : Environment)
  | sessionCalls (sessionId : String)
  | listSessions
  | clear

inductive Event where
  | used (id : String)
  | handed (id : String) (call : SessionCall)
  | evicted (id : String)
  | cleared
  | panicked

/-- The sessions stored before an operation and no longer after it. -/
def gone (store next : SessionStore) : List String :=
  store.inner.sessions.keys.filter fun id => decide (id ∉ next.inner.sessions)

def step : Transducer SessionStore Op Event
  | store, .append id callId source env =>
    match store.append id callId source env with
    | none => (store, [.panicked])
    | some (call, next) => (next, (gone store next).map .evicted ++ [.used id, .handed id call])
  | store, .sessionCalls id =>
    ((store.sessionCalls id).2, if id ∈ store.inner.sessions then [.used id] else [])
  | store, .listSessions => (store, [])
  | store, .clear => (store.clear, [.cleared])

def used : Event → Option String
  | .used id => some id
  | _ => none

/-- The sessions in the order in which they were used. -/
def uses (history : List Event) : List String := history.filterMap used

def afterEvent (id : String) (calls : List SessionCall) : Event → List SessionCall
  | .handed other call => if other = id then calls ++ [call] else calls
  | .evicted other => if other = id then [] else calls
  | .cleared => []
  | .used _ | .panicked => calls

/-- The calls recorded in a session since it came to life. -/
def handed (history : List Event) (id : String) : List SessionCall := history.foldl (afterEvent id) []

/-- The session is alive, and every other live session was used after its last use. -/
def LeastRecentlyUsed (history : List Event) (id : String) : Prop :=
  handed history id ≠ [] ∧
    ∀ other, handed history other ≠ [] → other ≠ id → UsedAfter (uses history) id other

end Aimux.Session
