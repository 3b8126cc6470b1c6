import Aimux.Ops.Envelope
import Aimux.Lib.Transducer

/-! # The handle registry

Resources are named by ids from one process-wide counter and belong to the owner that inserted them.
`insert` is two critical sections: it takes an id from the counter, then publishes the entry under the
registry lock; other threads may run in between. The compare-exchange loop of `allocate` takes effect
at its successful exchange, so it is one action here.
-/

namespace Aimux.Ops

inductive Owner where
  | cProcess
  | node (token : Nat)
  | python (token : Nat)
deriving DecidableEq

structure Entry where
  kind : HandleKind
  resource : Nat
deriving DecidableEq

/-- Take the next nonzero id from a counter that starts at 1; `0` is the exhausted sentinel, reached
after `u64::MAX` was allocated. The second component is the counter afterwards. -/
def allocate (next : Nat) : Except OpsError Nat × Nat :=
  if next = 0 then (.error (.protocol .handleExhausted), next)
  else (.ok next, if next + 1 < 2 ^ 64 then next + 1 else 0)

structure HandleRegistry where
  entries : AList fun _ : Nat => Owner × Entry := ∅
  /-- The process-wide counter `NEXT_ID`. -/
  next : Nat := 1
  /-- Inserts that have their id and are about to publish. -/
  pending : List (Nat × Owner × Entry) := []

namespace HandleRegistry

def invalidHandle (allowed : List HandleKind) (actual : Option HandleKind) : OpsError :=
  .binding (.invalidHandle allowed actual)

def get (self : HandleRegistry) (owner : Owner) (id : Nat) (allowed : List HandleKind) :
    Except OpsError Entry :=
  match (self.entries.lookup id).filter fun found => found.1 = owner with
  | some (_, entry) =>
    if entry.kind ∈ allowed then .ok entry else .error (invalidHandle allowed (some entry.kind))
  | none => .error (invalidHandle allowed none)

def remove (self : HandleRegistry) (owner : Owner) (id : Nat) : HandleRegistry × Option Entry :=
  match (self.entries.lookup id).filter fun found => found.1 = owner with
  | some (_, entry) => ({ self with entries := self.entries.erase id }, some entry)
  | none => (self, none)

def ownedIds (self : HandleRegistry) (owner : Owner) : List Nat :=
  (self.entries.entries.filter fun entry => entry.2.1 = owner).map (·.1)

def removeAll (entries : AList fun _ : Nat => Owner × Entry) :
    List Nat → (AList fun _ : Nat => Owner × Entry) × List Entry
  | [] => (entries, [])
  | id :: ids =>
    match entries.lookup id with
    | some (_, entry) =>
      let (rest, removed) := removeAll (entries.erase id) ids
      (rest, entry :: removed)
    | none => removeAll entries ids

def releaseOwner (self : HandleRegistry) (owner : Owner) : HandleRegistry × Nat :=
  let (entries, removed) := removeAll self.entries (self.ownedIds owner)
  ({ self with entries }, removed.length)

inductive Target where
  | global
  | handle (entry : Entry)

/-- `resolve` of the dispatcher: id 0 is the global scope for operations that take no handle. -/
def resolve (self : HandleRegistry) (owner : Owner) (id : Nat) (allowed : List HandleKind) :
    Except OpsError Target :=
  if id = 0 ∧ allowed = [] then .ok .global else (self.get owner id allowed).map .handle

inductive Action where
  | allocate (owner : Owner) (entry : Entry)
  | publish (id : Nat)
  /-- An insert into another registry of the process, which shares the counter. -/
  | allocateElsewhere
  | get (owner : Owner) (id : Nat) (allowed : List HandleKind)
  | remove (owner : Owner) (id : Nat)
  | releaseOwner (owner : Owner)
  | resolve (owner : Owner) (id : Nat) (allowed : List HandleKind)
  | handleDrop (owner : Owner) (id : Nat)

inductive Event where
  | allocated (owner : Owner) (id : Nat)
  | exhausted (owner : Owner) (error : OpsError)
  | inserted (owner : Owner) (id : Nat)
  | issuedElsewhere (id : Nat)
  | got (owner : Owner) (id : Nat) (result : Except OpsError Entry)
  | removed (owner : Owner) (id : Nat) (result : Option Entry)
  | released (owner : Owner) (count : Nat)
  | resolved (owner : Owner) (id : Nat) (result : Except OpsError Target)
  | dropped (owner : Owner) (id : Nat)

def step : Lib.Transducer HandleRegistry Action Event
  | self, .allocate owner entry =>
    match Ops.allocate self.next with
    | (.ok id, next) =>
      ({ self with next, pending := self.pending ++ [(id, owner, entry)] }, [.allocated owner id])
    | (.error error, next) => ({ self with next }, [.exhausted owner error])
  | self, .publish id =>
    match self.pending.find? fun p => p.1 == id with
    | some (id, owner, entry) =>
      ({ self with
          entries := self.entries.insert id (owner, entry)
          pending := self.pending.eraseP fun p => p.1 == id }, [.inserted owner id])
    | none => (self, [])
  | self, .allocateElsewhere =>
    match Ops.allocate self.next with
    | (.ok id, next) => ({ self with next }, [.issuedElsewhere id])
    | (.error _, next) => ({ self with next }, [])
  | self, .get owner id allowed => (self, [.got owner id (self.get owner id allowed)])
  | self, .remove owner id => ((self.remove owner id).1, [.removed owner id (self.remove owner id).2])
  | self, .releaseOwner owner => ((self.releaseOwner owner).1, [.released owner (self.releaseOwner owner).2])
  | self, .resolve owner id allowed => (self, [.resolved owner id (self.resolve owner id allowed)])
  -- the dispatcher answers null whether or not there was an entry
  | self, .handleDrop owner id => ((self.remove owner id).1, [.dropped owner id])

end HandleRegistry

end Aimux.Ops
