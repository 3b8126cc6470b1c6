import Aimux.Ops.HandleRegistry

/-! # Isolation of owners

Ids are issued in increasing order and never again. What an owner sees of the registry is its own
entries and the counter; operations of other owners on the table change neither, so deleting them
from a schedule changes none of its results.
-/

namespace Aimux.Ops.HandleRegistry

/-! ## Issued ids -/

def issuedId : Event → Option Nat
  | .allocated _ id => some id
  | .issuedElsewhere id => some id
  | _ => none

def issued (history : List Event) : List Nat := history.filterMap issuedId

@[simp] theorem issued_append (a b : List Event) : issued (a ++ b) = issued a ++ issued b :=
  List.filterMap_append ..

/-- The counter is above every issued id, or exhausted; the table and the pending inserts use issued
ids. -/
structure Numbered (registry : HandleRegistry) (history : List Event) : Prop where
  range : registry.next < 2 ^ 64
  increasing : (issued history).Pairwise (· < ·)
  positive : ∀ id ∈ issued history, 0 < id ∧ id < 2 ^ 64
  below : registry.next ≠ 0 → ∀ id ∈ issued history, id < registry.next
  pending : ∀ p ∈ registry.pending, p.1 ∈ issued history
  entries : ∀ id ∈ registry.entries, id ∈ issued history

theorem allocate_cases (next : Nat) : (next = 0 ∧ allocate next = (.error (.protocol .handleExhausted), 0)) ∨
    (0 < next ∧ ∃ following, allocate next = (.ok next, following) ∧
      (following = 0 ∨ (following = next + 1 ∧ next + 1 < 2 ^ 64))) := by
  unfold allocate
  by_cases h : next = 0
  · exact .inl ⟨h, by simp [h]⟩
  · refine .inr ⟨Nat.pos_of_ne_zero h, _, if_neg h, ?_⟩
    by_cases hRoom : next + 1 < 2 ^ 64
    · exact .inr ⟨if_pos hRoom, hRoom⟩
    · exact .inl (if_neg hRoom)

theorem Numbered.initial : Numbered {} [] where
  range := by decide
  increasing := .nil
  positive := by simp [issued]
  below := by simp [issued]
  pending := by simp
  entries := by simp

variable {registry : HandleRegistry}

theorem Numbered.quiet {registry' : HandleRegistry} {history events : List Event} (h : Numbered registry history)
    (hEvents : issued events = []) (hNext : registry'.next = registry.next)
    (hPending : ∀ p ∈ registry'.pending, p ∈ registry.pending)
    (hEntries : ∀ id ∈ registry'.entries, id ∈ issued history) : Numbered registry' (history ++ events) := by
  have hIssued : issued (history ++ events) = issued history := by rw [issued_append, hEvents, List.append_nil]
  constructor
  case range => exact hNext ▸ h.range
  case increasing => exact hIssued ▸ h.increasing
  case positive => exact hIssued ▸ h.positive
  case below => rw [hIssued, hNext]; exact h.below
  case pending => exact fun p hp => hIssued ▸ h.pending p (hPending p hp)
  case entries => exact fun id hId => hIssued ▸ hEntries id hId

theorem Numbered.issue {registry' : HandleRegistry} {history : List Event} {event : Event}
    (h : Numbered registry history) (hPositive : 0 < registry.next) (hEvent : issued [event] = [registry.next])
    (hNext : registry'.next = 0 ∨ (registry'.next = registry.next + 1 ∧ registry.next + 1 < 2 ^ 64))
    (hPending : ∀ p ∈ registry'.pending, p ∈ registry.pending ∨ p.1 = registry.next)
    (hEntries : registry'.entries = registry.entries) : Numbered registry' (history ++ [event]) := by
  have hIssued : issued (history ++ [event]) = issued history ++ [registry.next] := by
    rw [issued_append, hEvent]
  have hBelow := h.below (Nat.pos_iff_ne_zero.mp hPositive)
  constructor
  case range =>
    rcases hNext with hZero | ⟨hSucc, hRoom⟩
    · rw [hZero]
      decide
    · rwa [hSucc]
  case increasing =>
    rw [hIssued, List.pairwise_append]
    refine ⟨h.increasing, List.pairwise_singleton .., ?_⟩
    intro a ha b hb
    rw [List.mem_singleton.mp hb]
    exact hBelow a ha
  case positive =>
    intro id hId
    rw [hIssued, List.mem_append, List.mem_singleton] at hId
    rcases hId with hOld | rfl
    · exact h.positive id hOld
    · exact ⟨hPositive, h.range⟩
  case below =>
    intro hRunning id hId
    rcases hNext with hZero | ⟨hSucc, _⟩
    · exact absurd hZero hRunning
    · rw [hIssued, List.mem_append, List.mem_singleton] at hId
      rw [hSucc]
      rcases hId with hOld | rfl
      · exact Nat.lt_succ_of_lt (hBelow id hOld)
      · exact Nat.lt_succ_self _
  case pending =>
    intro p hp
    rw [hIssued, List.mem_append, List.mem_singleton]
    exact (hPending p hp).imp (h.pending p) id
  case entries =>
    intro id hId
    rw [hIssued, List.mem_append]
    exact .inl (h.entries id (hEntries ▸ hId))

/-! ## Tables -/

theorem lookup_removeAll (entries : AList fun _ : Nat => Owner × Entry) (ids : List Nat) (id : Nat) :
    (removeAll entries ids).1.lookup id = if id ∈ ids then none else entries.lookup id := by
  induction ids generalizing entries with
  | nil => simp [removeAll]
  | cons head ids ih =>
    unfold removeAll
    split
    · rw [ih]
      by_cases hHead : id = head
      · subst hHead
        simp
      · simp [AList.lookup_erase_ne hHead, hHead]
    · rename_i hNone
      rw [ih]
      by_cases hHead : id = head
      · subst hHead
        simp [hNone]
      · simp [hHead]

theorem length_removeAll {entries : AList fun _ : Nat => Owner × Entry} {ids : List Nat}
    (distinct : ids.Nodup) (present : ∀ id ∈ ids, (entries.lookup id).isSome) :
    (removeAll entries ids).2.length = ids.length := by
  induction ids generalizing entries with
  | nil => rfl
  | cons head ids ih =>
    rw [List.nodup_cons] at distinct
    obtain ⟨found, hFound⟩ := Option.isSome_iff_exists.mp (present head List.mem_cons_self)
    have hRest : ∀ id ∈ ids, ((entries.erase head).lookup id).isSome := by
      intro id hId
      have hNe : id ≠ head := fun hEq => distinct.1 (hEq ▸ hId)
      rw [AList.lookup_erase_ne hNe]
      exact present id (List.mem_cons_of_mem head hId)
    simp [removeAll, hFound, ih distinct.2 hRest]

theorem mem_ownedIds (registry : HandleRegistry) (owner : Owner) (id : Nat) :
    id ∈ registry.ownedIds owner ↔ ∃ entry, registry.entries.lookup id = some (owner, entry) := by
  simp only [ownedIds, List.mem_map, List.mem_filter, decide_eq_true_eq]
  constructor
  · rintro ⟨⟨key, found, entry⟩, ⟨hMem, rfl⟩, rfl⟩
    exact ⟨entry, AList.mem_lookup_iff.mpr hMem⟩
  · rintro ⟨entry, hLookup⟩
    exact ⟨⟨id, owner, entry⟩, ⟨AList.mem_lookup_iff.mp hLookup, rfl⟩, rfl⟩

theorem ownedIds_nodup (registry : HandleRegistry) (owner : Owner) : (registry.ownedIds owner).Nodup :=
  (List.filter_sublist.map _).nodup registry.entries.nodupKeys

def owned (registry : HandleRegistry) (owner : Owner) (id : Nat) : Option (Owner × Entry) :=
  (registry.entries.lookup id).filter fun found => found.1 = owner

theorem owned_eq_some_iff (registry : HandleRegistry) (owner : Owner) (id : Nat)
    (found : Owner × Entry) : registry.owned owner id = some found ↔
      registry.entries.lookup id = some found ∧ found.1 = owner := by
  simp [owned, Option.filter_eq_some_iff]

theorem mem_ownedIds_iff_owned (registry : HandleRegistry) (owner : Owner) (id : Nat) :
    id ∈ registry.ownedIds owner ↔ (registry.owned owner id).isSome := by
  rw [mem_ownedIds, Option.isSome_iff_exists]
  constructor
  · rintro ⟨entry, hLookup⟩
    exact ⟨(owner, entry), (owned_eq_some_iff ..).mpr ⟨hLookup, rfl⟩⟩
  · rintro ⟨⟨_, entry⟩, hOwned⟩
    obtain ⟨hLookup, rfl⟩ := (owned_eq_some_iff ..).mp hOwned
    exact ⟨entry, hLookup⟩

variable {owner : Owner}

theorem get_of_not_owned {id : Nat} (h : registry.owned owner id = none) (allowed : List HandleKind) :
    registry.get owner id allowed = .error (invalidHandle allowed none) := by
  unfold get
  rw [show (registry.entries.lookup id).filter (fun found => found.1 = owner) = none from h]

theorem remove_of_not_owned {id : Nat} (h : registry.owned owner id = none) :
    registry.remove owner id = (registry, none) := by
  unfold remove
  rw [show (registry.entries.lookup id).filter (fun found => found.1 = owner) = none from h]

theorem remove_of_owned {id : Nat} {found : Owner × Entry} (h : registry.owned owner id = some found) :
    registry.remove owner id = ({ registry with entries := registry.entries.erase id }, some found.2) := by
  unfold remove
  rw [show (registry.entries.lookup id).filter (fun found => found.1 = owner) = some found from h]

theorem lookup_releaseOwner (registry : HandleRegistry) (owner : Owner) (id : Nat) :
    (registry.releaseOwner owner).1.entries.lookup id =
      (registry.entries.lookup id).filter fun found => found.1 ≠ owner := by
  have hRelease : (registry.releaseOwner owner).1.entries =
      (removeAll registry.entries (registry.ownedIds owner)).1 := rfl
  rw [hRelease, lookup_removeAll]
  split
  · rename_i hOwned
    obtain ⟨entry, hLookup⟩ := (mem_ownedIds ..).mp hOwned
    simp [hLookup, Option.filter]
  · rename_i hForeign
    rw [mem_ownedIds] at hForeign
    cases hLookup : registry.entries.lookup id with
    | none => rfl
    | some found =>
      have hOwner : found.1 ≠ owner := by
        rintro rfl
        exact hForeign ⟨found.2, hLookup⟩
      simp [Option.filter, hOwner]

theorem releaseOwner_count (registry : HandleRegistry) (owner : Owner) :
    (registry.releaseOwner owner).2 = (registry.ownedIds owner).length := by
  refine length_removeAll (registry.ownedIds_nodup owner) ?_
  intro id hId
  obtain ⟨entry, hLookup⟩ := (mem_ownedIds ..).mp hId
  simp [hLookup]

theorem owned_releaseOwner_ne (registry : HandleRegistry) {other : Owner} (h : owner ≠ other) (id : Nat) :
    (registry.releaseOwner owner).1.owned other id = registry.owned other id := by
  unfold owned
  rw [lookup_releaseOwner]
  cases registry.entries.lookup id with
  | none => rfl
  | some found =>
    by_cases hFound : found.1 = owner
    · simp [Option.filter, hFound, h]
    · simp [Option.filter, hFound]

theorem owned_remove_ne (registry : HandleRegistry) {other : Owner} (h : owner ≠ other) (key id : Nat) :
    (registry.remove owner key).1.owned other id = registry.owned other id := by
  cases hOwned : registry.owned owner key with
  | none => rw [remove_of_not_owned hOwned]
  | some found =>
    rw [remove_of_owned hOwned]
    obtain ⟨hLookup, hOwner⟩ := (owned_eq_some_iff ..).mp hOwned
    by_cases hKey : id = key
    · subst hKey
      simp [owned, hLookup, Option.filter, hOwner, h]
    · simp [owned, AList.lookup_erase_ne hKey]

/-! ## Two runs -/

/-- Two registries look the same to an owner. -/
structure SameView (owner : Owner) (a b : HandleRegistry) : Prop where
  next : a.next = b.next
  pending : a.pending = b.pending
  owned : ∀ id, a.owned owner id = b.owned owner id

def eventOwner : Event → Option Owner
  | .allocated owner _ | .exhausted owner _ | .inserted owner _ | .got owner _ _ | .removed owner _ _
  | .released owner _ | .resolved owner _ _ | .dropped owner _ => some owner
  | .issuedElsewhere _ => none

def observed (owner : Owner) (history : List Event) : List Event :=
  history.filter fun event => eventOwner event = some owner

/-- The actions that stay when the other owners' operations on the table are deleted: every step of
an insert, and everything the owner does itself. -/
def kept (owner : Owner) : Action → Bool
  | .allocate .. | .publish _ | .allocateElsewhere => true
  | .get o _ _ | .remove o _ | .releaseOwner o | .resolve o _ _ | .handleDrop o _ => o = owner

variable {a b : HandleRegistry}

theorem SameView.get (h : SameView owner a b) (id : Nat) (allowed : List HandleKind) :
    a.get owner id allowed = b.get owner id allowed := by
  have hOwned := h.owned id
  unfold HandleRegistry.owned at hOwned
  unfold HandleRegistry.get
  rw [hOwned]

theorem SameView.remove (h : SameView owner a b) (id : Nat) :
    SameView owner (a.remove owner id).1 (b.remove owner id).1 ∧
      (a.remove owner id).2 = (b.remove owner id).2 := by
  cases hOwned : a.owned owner id with
  | none =>
    rw [remove_of_not_owned hOwned, remove_of_not_owned (h.owned id ▸ hOwned)]
    exact ⟨h, rfl⟩
  | some found =>
    rw [remove_of_owned hOwned, remove_of_owned (h.owned id ▸ hOwned)]
    refine ⟨⟨h.next, h.pending, ?_⟩, rfl⟩
    intro other
    have hOther := h.owned other
    by_cases hKey : other = id
    · subst hKey
      simp [HandleRegistry.owned]
    · simpa [HandleRegistry.owned, AList.lookup_erase_ne hKey] using hOther

theorem SameView.releaseOwner (h : SameView owner a b) :
    SameView owner (a.releaseOwner owner).1 (b.releaseOwner owner).1 ∧
      (a.releaseOwner owner).2 = (b.releaseOwner owner).2 := by
  refine ⟨⟨h.next, h.pending, ?_⟩, ?_⟩
  · intro id
    have hNone : ∀ registry : HandleRegistry, (registry.releaseOwner owner).1.owned owner id = none := by
      intro registry
      unfold HandleRegistry.owned
      rw [lookup_releaseOwner]
      cases registry.entries.lookup id with
      | none => rfl
      | some found => by_cases hFound : found.1 = owner <;> simp [Option.filter, hFound]
    rw [hNone, hNone]
  · rw [releaseOwner_count, releaseOwner_count]
    refine ((List.perm_ext_iff_of_nodup (ownedIds_nodup ..) (ownedIds_nodup ..)).mpr ?_).length_eq
    intro id
    rw [mem_ownedIds_iff_owned, mem_ownedIds_iff_owned, h.owned id]

theorem SameView.publish (h : SameView owner a b) (id : Nat) (entry : Owner × Entry)
    (pending : List (Nat × Owner × Entry)) :
    SameView owner { a with entries := a.entries.insert id entry, pending }
      { b with entries := b.entries.insert id entry, pending } where
  next := h.next
  pending := rfl
  owned := by
    intro other
    have hOther := h.owned other
    by_cases hKey : other = id
    · subst hKey
      simp [HandleRegistry.owned]
    · simpa [HandleRegistry.owned, AList.lookup_insert_ne hKey] using hOther

theorem step_kept (a b : HandleRegistry) (action : Action) (h : SameView owner a b) (hKept : kept owner action = true) :
    SameView owner (step a action).1 (step b action).1 ∧
      observed owner (step a action).2 = observed owner (step b action).2 := by
  cases action with
  | allocate o entry =>
    simp only [step, h.next, h.pending]
    split
    · exact ⟨⟨rfl, rfl, h.owned⟩, rfl⟩
    · exact ⟨⟨rfl, rfl, h.owned⟩, rfl⟩
  | publish id =>
    simp only [step, h.pending]
    split
    · exact ⟨h.publish .., rfl⟩
    · exact ⟨h, rfl⟩
  | allocateElsewhere =>
    simp only [step, h.next]
    split
    · exact ⟨⟨rfl, h.pending, h.owned⟩, rfl⟩
    · exact ⟨⟨rfl, h.pending, h.owned⟩, rfl⟩
  | get o id allowed =>
    obtain rfl : o = owner := by simpa [kept] using hKept
    exact ⟨h, by simp only [step, h.get]⟩
  | remove o id =>
    obtain rfl : o = owner := by simpa [kept] using hKept
    exact ⟨(h.remove id).1, by simp only [step, (h.remove id).2]⟩
  | releaseOwner o =>
    obtain rfl : o = owner := by simpa [kept] using hKept
    exact ⟨h.releaseOwner.1, by simp only [step, h.releaseOwner.2]⟩
  | resolve o id allowed =>
    obtain rfl : o = owner := by simpa [kept] using hKept
    exact ⟨h, by simp only [step, resolve, h.get]⟩
  | handleDrop o id =>
    obtain rfl : o = owner := by simpa [kept] using hKept
    exact ⟨(h.remove id).1, rfl⟩

theorem step_deleted (a b : HandleRegistry) (action : Action) (h : SameView owner a b)
    (hDeleted : kept owner action = false) :
    SameView owner (step a action).1 b ∧ observed owner (step a action).2 = [] := by
  have hRemove : ∀ o id, o ≠ owner → SameView owner (a.remove o id).1 b := by
    intro o id hNe
    refine ⟨?_, ?_, fun other => (owned_remove_ne a hNe id other).trans (h.owned other)⟩
    all_goals
      cases hOwned : a.owned o id with
      | none =>
        rw [remove_of_not_owned hOwned]
        first | exact h.next | exact h.pending
      | some found =>
        rw [remove_of_owned hOwned]
        first | exact h.next | exact h.pending
  cases action with
  | allocate o entry => cases hDeleted
  | publish id => cases hDeleted
  | allocateElsewhere => cases hDeleted
  | get o id allowed =>
    have hNe : o ≠ owner := by simpa [kept] using hDeleted
    exact ⟨h, by simp [step, observed, eventOwner, hNe]⟩
  | remove o id =>
    have hNe : o ≠ owner := by simpa [kept] using hDeleted
    exact ⟨hRemove o id hNe, by simp [step, observed, eventOwner, hNe]⟩
  | releaseOwner o =>
    have hNe : o ≠ owner := by simpa [kept] using hDeleted
    refine ⟨⟨h.next, h.pending, ?_⟩, by simp [step, observed, eventOwner, hNe]⟩
    exact fun id => (owned_releaseOwner_ne a hNe id).trans (h.owned id)
  | resolve o id allowed =>
    have hNe : o ≠ owner := by simpa [kept] using hDeleted
    exact ⟨h, by simp [step, observed, eventOwner, hNe]⟩
  | handleDrop o id =>
    have hNe : o ≠ owner := by simpa [kept] using hDeleted
    exact ⟨hRemove o id hNe, by simp [step, observed, eventOwner, hNe]⟩

/-! ## Numbering along a run -/

theorem remove_fields (registry : HandleRegistry) (owner : Owner) (id : Nat) :
    (registry.remove owner id).1.next = registry.next ∧
    (registry.remove owner id).1.pending = registry.pending ∧
    ∀ key ∈ (registry.remove owner id).1.entries, key ∈ registry.entries := by
  cases hOwned : registry.owned owner id with
  | none =>
    rw [remove_of_not_owned hOwned]
    exact ⟨rfl, rfl, fun _ h => h⟩
  | some found =>
    rw [remove_of_owned hOwned]
    exact ⟨rfl, rfl, fun key h => (AList.mem_erase.mp h).2⟩

theorem step_numbered (registry : HandleRegistry) (history : List Event) (action : Action)
    (h : Numbered registry history) : Numbered (step registry action).1 (history ++ (step registry action).2) := by
  cases action with
  | allocate owner entry =>
    simp only [step]
    rcases allocate_cases registry.next with ⟨hZero, hAllocate⟩ | ⟨hPositive, following, hAllocate, hFollowing⟩
    · rw [hAllocate]
      exact h.quiet rfl hZero.symm (fun _ hp => hp) h.entries
    · rw [hAllocate]
      refine h.issue hPositive rfl hFollowing ?_ rfl
      intro p hp
      rcases List.mem_append.mp hp with hOld | hNew
      · exact .inl hOld
      · exact .inr (by rw [List.mem_singleton.mp hNew])
  | publish id =>
    simp only [step]
    split
    · rename_i key owner entry hFound
      refine h.quiet rfl rfl (fun p hp => List.mem_of_mem_eraseP hp) ?_
      intro other hOther
      rcases (AList.mem_insert _).mp hOther with rfl | hOld
      · exact h.pending _ (List.mem_of_find?_eq_some hFound)
      · exact h.entries other hOld
    · exact h.quiet rfl rfl (fun _ hp => hp) h.entries
  | allocateElsewhere =>
    simp only [step]
    rcases allocate_cases registry.next with ⟨hZero, hAllocate⟩ | ⟨hPositive, following, hAllocate, hFollowing⟩
    · rw [hAllocate]
      exact h.quiet rfl hZero.symm (fun _ hp => hp) h.entries
    · rw [hAllocate]
      exact h.issue hPositive rfl hFollowing (fun p hp => .inl hp) rfl
  | get owner id allowed => exact h.quiet rfl rfl (fun _ hp => hp) h.entries
  | remove owner id =>
    obtain ⟨hNext, hPending, hEntries⟩ := remove_fields registry owner id
    exact h.quiet rfl hNext (fun _ hp => hPending ▸ hp) fun key hKey => h.entries key (hEntries key hKey)
  | releaseOwner owner =>
    refine h.quiet rfl rfl (fun _ hp => hp) ?_
    intro id hId
    refine h.entries id ?_
    have hId : id ∈ (registry.releaseOwner owner).1.entries := hId
    rw [← AList.lookup_isSome, lookup_releaseOwner] at hId
    rw [← AList.lookup_isSome]
    cases hLookup : registry.entries.lookup id with
    | none => simp [hLookup] at hId
    | some found => rfl
  | resolve owner id allowed => exact h.quiet rfl rfl (fun _ hp => hp) h.entries
  | handleDrop owner id =>
    obtain ⟨hNext, hPending, hEntries⟩ := remove_fields registry owner id
    exact h.quiet rfl hNext (fun _ hp => hPending ▸ hp) fun key hKey => h.entries key (hEntries key hKey)

/-- After every schedule of any owners' operations. Ids are issued in strictly increasing order and
are never zero; an exhausted counter refuses and changes nothing. The results of one owner are those
of the schedule without the other owners' `get`, `remove` and `releaseOwner` (and the dispatcher's
uses of them). A foreign handle answers like an id that was never issued. `releaseOwner` removes and
counts exactly the live entries of its owner. -/
theorem run_isolates_owners (schedule : List Action) :
    let (registry, history) := Lib.Transducer.run step {} schedule
    (issued history).Pairwise (· < ·) ∧
    (∀ id ∈ issued history, 0 < id ∧ id < 2 ^ 64) ∧
    (∀ owner entry, registry.next = 0 →
      step registry (.allocate owner entry) = (registry, [.exhausted owner (.protocol .handleExhausted)])) ∧
    (∀ owner, observed owner history =
      observed owner (Lib.Transducer.run step {} (schedule.filter (kept owner))).2) ∧
    (∀ owner other entry id unknown allowed, registry.entries.lookup id = some (other, entry) →
      other ≠ owner → unknown ∉ issued history →
      registry.get owner id allowed = .error (invalidHandle allowed none) ∧
      registry.get owner unknown allowed = .error (invalidHandle allowed none) ∧
      registry.remove owner id = (registry, none) ∧ registry.remove owner unknown = (registry, none)) ∧
    (∀ owner id, (registry.releaseOwner owner).1.entries.lookup id =
      (registry.entries.lookup id).filter fun found => found.1 ≠ owner) ∧
    (∀ owner, (registry.releaseOwner owner).2 =
      (registry.entries.entries.filter fun entry => entry.2.1 = owner).length) := by
  have hNumbered := Lib.Transducer.run_invariant Numbered step_numbered Numbered.initial schedule
  have hSame := fun owner => Lib.Transducer.run_unwinding (R := SameView owner) step_kept step_deleted
    schedule {} {} ⟨rfl, rfl, fun _ => rfl⟩
  generalize Lib.Transducer.run step {} schedule = final at hNumbered hSame ⊢
  obtain ⟨registry, history⟩ := final
  refine ⟨hNumbered.increasing, hNumbered.positive, ?_, hSame, ?_, ?_, ?_⟩
  · intro owner entry hZero
    have hAllocate : allocate 0 = (.error (.protocol .handleExhausted), 0) := rfl
    simp only [step, hZero, hAllocate]
    rw [← hZero]
  · intro owner other entry id unknown allowed hLookup hNe hUnknown
    have hForeign : registry.owned owner id = none := by simp [owned, hLookup, Option.filter, hNe]
    have hAbsent : registry.owned owner unknown = none := by
      have hNone : registry.entries.lookup unknown = none := by
        rw [AList.lookup_eq_none]
        exact fun hMem => hUnknown (hNumbered.entries unknown hMem)
      simp [owned, hNone]
    exact ⟨get_of_not_owned hForeign allowed, get_of_not_owned hAbsent allowed,
      remove_of_not_owned hForeign, remove_of_not_owned hAbsent⟩
  · exact lookup_releaseOwner registry
  · intro owner
    rw [releaseOwner_count, ownedIds, List.length_map]

end Aimux.Ops.HandleRegistry
