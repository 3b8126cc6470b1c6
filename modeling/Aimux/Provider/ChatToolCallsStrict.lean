import Aimux.Provider.ChatToolCallsLifecycle

/-! # Strict streams through the lenient entry point

The deltas a strict stream accepts need no repair, so the lenient matching rules must come to the
same calls. The two tables differ in one field: `strictDelta` never notes the index of a delta on
its call. `labelled` adds those labels, and one accepted delta takes the labelled strict table to
the labelled next one.
-/

namespace Aimux.Provider.ChatToolCalls

open Aimux.Core

/-- Deltas at one index belong to one strict call; only the first of them carries a name. -/
def OnlyFirstNamed (deltas : List ToolCallDelta) : Prop :=
  deltas.Pairwise fun first later => later.index = first.index → later.name = none

structure StrictCall (c : ToolCall) : Prop where
  indexed : c.index.isSome
  wireIds : c.wireIds = [c.id]
  unlabelled : c.indices = []

structure StrictTable (table : ChatToolCalls) : Prop where
  call : ∀ c ∈ table.calls, StrictCall c
  distinct : (table.calls.map (·.index)).Nodup

def label (c : ToolCall) : ToolCall := noteIndex c.index c

/-- The lenient table that stands for a strict one. -/
def labelled (table : ChatToolCalls) : ChatToolCalls :=
  { table with calls := table.calls.map label }

theorem StrictTable.initial (generateId : Nat → String) : StrictTable { generateId } where
  call := by simp
  distinct := List.nodup_nil

/-! ## Matching in a table with at most one candidate -/

variable {self : ChatToolCalls}

theorem matching_none {predicate : ToolCall → Bool} (h : ∀ c ∈ self.calls, predicate c = false) (explicitStart : Bool) :
    self.matching predicate explicitStart = .new := by
  have hCandidates : (self.calls.zipIdx.filter fun candidate => predicate candidate.1) = [] := by
    rw [List.filter_eq_nil_iff]
    rintro ⟨c, k⟩ hMem
    simp [h c (List.mem_of_getElem? (List.mem_zipIdx_iff_getElem?.mp hMem))]
  simp only [matching, hCandidates]

variable {c : ToolCall}

theorem matching_unique {predicate : ToolCall → Bool} {k : Nat} (found : self.calls[k]? = some c)
    (accepted : predicate c = true) (unique : ∀ j other, self.calls[j]? = some other → predicate other = true → j = k) :
    self.matching predicate false = .existing k := by
  have hCandidates :
      (self.calls.zipIdx.filter fun candidate => predicate candidate.1) = [(c, k)] := by
    have hNodup : self.calls.zipIdx.Nodup := by
      refine List.Nodup.of_map Prod.snd ?_
      rw [List.zipIdx_map_snd]
      exact List.nodup_range'
    refine List.perm_singleton.mp ((List.perm_ext_iff_of_nodup (hNodup.filter _) (by simp)).mpr ?_)
    rintro ⟨other, j⟩
    rw [List.mem_filter, List.mem_zipIdx_iff_getElem?, List.mem_singleton, Prod.mk.injEq]
    constructor
    · rintro ⟨hOther, hAccepted⟩
      obtain rfl := unique j other hOther hAccepted
      exact ⟨Option.some.inj (hOther.symm.trans found), rfl⟩
    · rintro ⟨rfl, rfl⟩
      exact ⟨found, accepted⟩
  simp only [matching, hCandidates]

/-! ## Labels -/

theorem StrictCall.label_eq (h : StrictCall c) :
    label c = { c with indices := c.index.toList } := by
  obtain ⟨i, hi⟩ := Option.isSome_iff_exists.mp h.indexed
  simp [label, noteIndex, hi, h.unlabelled]

theorem StrictCall.atIndex_label (h : StrictCall c) (i : Nat) :
    atIndex (some i) (label c) = (c.index == some i) := by
  obtain ⟨j, hj⟩ := Option.isSome_iff_exists.mp h.indexed
  rw [h.label_eq]
  by_cases hEq : j = i
  · simp [atIndex, hj, hEq]
  · simp [atIndex, hj, hEq, Ne.symm hEq]

theorem StrictCall.hasId_label (h : StrictCall c) (wireId : String) :
    hasId wireId (label c) = (c.id == wireId) := by
  rw [h.label_eq]
  simp [hasId, h.wireIds]

theorem noteIndex_idem (index : Option Nat) (c : ToolCall) :
    noteIndex index (noteIndex index c) = noteIndex index c := by
  cases index with
  | none => rfl
  | some i => by_cases h : c.indices.contains i <;> simp_all [noteIndex]

theorem StrictTable.position_unique {table : ChatToolCalls} (h : StrictTable table) {j k : Nat} {other : ToolCall}
    (found : table.calls[k]? = some c) (hOther : table.calls[j]? = some other) (hIndex : other.index = c.index) :
    j = k := by
  have hc : (table.calls.map (·.index))[k]? = some c.index := by simp [found]
  have ho : (table.calls.map (·.index))[j]? = some c.index := by simp [hOther, hIndex]
  exact (List.getElem?_inj (List.getElem?_eq_some_iff.mp ho).1 h.distinct).mp (ho.trans hc.symm)

/-! ## The lenient resolution of an accepted strict delta -/

variable {id : String}

theorem StrictTable.resolve_new {table : ChatToolCalls} (h : StrictTable table) {i : Nat} {name : String}
    (newIndex : ∀ c ∈ table.calls, c.index ≠ some i) (unused : table.used id = false)
    (explicitStart emptyArguments : Bool) :
    table.labelled.resolve (some id) (some i) (some name) explicitStart emptyArguments = .new := by
  have hIds : table.labelled.calls.any (hasId id) = false := by
    simp only [labelled, List.any_map, List.any_eq_false, Function.comp]
    intro c hc
    rw [(h.call c hc).hasId_label]
    exact List.any_eq_false.mp unused c hc
  simp only [resolve, hIds, Bool.not_false, if_true]
  split
  · rfl
  · refine matching_none ?_ _
    intro labelledCall hLabelled
    obtain ⟨c, hc, rfl⟩ := List.mem_map.mp hLabelled
    rw [(h.call c hc).atIndex_label]
    simp [newIndex c hc]

theorem StrictTable.resolve_existing {table : ChatToolCalls} (h : StrictTable table) {i k : Nat}
    (found : table.calls[k]? = some c) (hIndex : c.index = some i) {wireId : Option String}
    (hId : ∀ id ∈ wireId, id = c.id) (emptyArguments : Bool) :
    table.labelled.resolve wireId (some i) none false emptyArguments = .existing k := by
  have hMem : c ∈ table.calls := List.mem_of_getElem? found
  have hFound : table.labelled.calls[k]? = some (label c) := by simp [labelled, found]
  have hAt : atIndex (some i) (label c) = true := by
    rw [(h.call c hMem).atIndex_label, hIndex]
    simp
  have hUnique : ∀ j other, table.labelled.calls[j]? = some other →
      atIndex (some i) other = true → j = k := by
    intro j labelledOther hLabelled hAtOther
    obtain ⟨other, hOther, rfl⟩ : ∃ o, table.calls[j]? = some o ∧ label o = labelledOther := by
      simpa [labelled] using hLabelled
    rw [(h.call other (List.mem_of_getElem? hOther)).atIndex_label] at hAtOther
    exact h.position_unique found hOther ((beq_iff_eq.mp hAtOther).trans hIndex.symm)
  cases wireId with
  | none =>
    have hKnown : table.labelled.calls.any (atIndex (some i)) = true :=
      List.any_eq_true.mpr ⟨_, List.mem_of_getElem? hFound, hAt⟩
    simp only [resolve, hKnown, if_true]
    refine matching_unique hFound (by simp [hAt, named]) ?_
    intro j other hOther hAccepted
    exact hUnique j other hOther (by simpa [named] using hAccepted)
  | some id =>
    obtain rfl := hId id rfl
    have hHasId : hasId c.id (label c) = true := by simp [(h.call c hMem).hasId_label]
    have hKnown : table.labelled.calls.any (hasId c.id) = true :=
      List.any_eq_true.mpr ⟨_, List.mem_of_getElem? hFound, hHasId⟩
    have hMatching : table.labelled.matching
        (fun c' => hasId c.id c' && atIndex (some i) c' && named none c') false = .existing k := by
      refine matching_unique hFound (by simp [hAt, hHasId, named]) ?_
      intro j other hOther hAccepted
      simp only [Bool.and_eq_true] at hAccepted
      exact hUnique j other hOther hAccepted.1.2
    simp [resolve, hKnown, hMatching]

/-! ## One accepted delta -/

/-- The two ways a strict delta is accepted. -/
inductive StrictStep (self : ChatToolCalls) (d : ToolCallDelta) (controller : Controller StreamPart) :
    ChatToolCalls × Controller StreamPart → Prop where
  | started (i : Nat) (id name : String) (hIndex : d.index = some i)
      (newIndex : ∀ c ∈ self.calls, c.index ≠ some i) (hId : nonBlank d.id = some id)
      (hName : nonBlank d.name = some name) (hType : d.invalidType = false)
      (unused : self.used id = false) :
      StrictStep self d controller
        (self.start (some id) (some i) name (d.arguments.getD "") d.providerMetadata controller)
  | continued (i k : Nat) (c : ToolCall) (hIndex : d.index = some i)
      (found : self.calls[k]? = some c) (hCall : c.index = some i) (hId : ∀ id ∈ d.id, id = c.id) :
      StrictStep self d controller
        ({ self with calls := self.calls.set k (appendArguments c d.arguments controller).1 },
          (appendArguments c d.arguments controller).2)

variable {d : ToolCallDelta}

theorem strictDelta_accepted {self' : ChatToolCalls} {controller controller' : Controller StreamPart}
    (h : self.strictDelta d controller = (true, self', controller')) :
    StrictStep self d controller (self', controller') := by
  unfold strictDelta at h
  split at h
  · cases h
  · rename_i i hIndex
    split at h
    · rename_i hNone
      split at h
      · rename_i id name hId hName
        split at h
        · cases h
        · rename_i hType
          split at h
          · cases h
          · rename_i hUsed
            have hNew : ∀ c ∈ self.calls, c.index ≠ some i := by
              intro c hc hEq
              have hAbsent := List.findIdx?_eq_none_iff.mp hNone c hc
              simp [hEq] at hAbsent
            have hAfter : self.start (some id) (some i) name (d.arguments.getD "") d.providerMetadata
                controller = (self', controller') := congrArg Prod.snd h
            rw [← hAfter]
            exact .started i id name hIndex hNew hId hName (by simpa using hType) (by simpa using hUsed)
      · cases h
    · rename_i k hPosition
      obtain ⟨hk, hAt, _⟩ := List.findIdx?_eq_some_iff_getElem.mp hPosition
      split at h
      · rename_i hNone
        rw [List.getElem?_eq_getElem hk] at hNone
        cases hNone
      · rename_i c hFound
        split at h
        · cases h
        · rename_i hLabels
          have hIndexed : c.index = some i := by
            rw [List.getElem?_eq_getElem hk] at hFound
            rw [← Option.some.inj hFound]
            exact beq_iff_eq.mp hAt
          have hId : ∀ id ∈ d.id, id = c.id := by
            intro id hId
            rw [Option.mem_def] at hId
            simp only [hId, Option.any_some, Bool.or_eq_true, bne_iff_ne, not_or, not_not] at hLabels
            exact hLabels.1
          have hAfter : ({ self with
                calls := self.calls.set k (appendArguments c d.arguments controller).1 },
              (appendArguments c d.arguments controller).2) = (self', controller') :=
            congrArg Prod.snd h
          rw [← hAfter]
          exact .continued i k c hIndex hFound hIndexed hId

theorem appendArguments_labels (c : ToolCall) (arguments : Option String) (controller : Controller StreamPart) :
    (appendArguments c arguments controller).1.id = c.id ∧
    (appendArguments c arguments controller).1.index = c.index ∧
    (appendArguments c arguments controller).1.wireIds = c.wireIds ∧
    (appendArguments c arguments controller).1.indices = c.indices := by
  cases arguments <;> exact ⟨rfl, rfl, rfl, rfl⟩

theorem appendArguments_label (h : StrictCall c) (arguments : Option String) (controller : Controller StreamPart) :
    appendArguments (label c) arguments controller =
      (label (appendArguments c arguments controller).1, (appendArguments c arguments controller).2) := by
  obtain ⟨i, hi⟩ := Option.isSome_iff_exists.mp h.indexed
  cases arguments <;> simp [appendArguments, label, noteIndex, hi, h.unlabelled]

theorem StrictCall.appendArguments (h : StrictCall c) (arguments : Option String) (controller : Controller StreamPart) :
    StrictCall (ChatToolCalls.appendArguments c arguments controller).1 := by
  obtain ⟨hId, hIndex, hWireIds, hIndices⟩ := appendArguments_labels c arguments controller
  exact ⟨hIndex ▸ h.indexed, by rw [hWireIds, hId, h.wireIds], hIndices.trans h.unlabelled⟩

theorem uniqueId_of_unused (unused : self.used id = false) :
    self.uniqueId (some id) = (id, self) := by
  simp [uniqueId, Option.filter, unused]

theorem startedCall_strict (unused : self.used id = false) (i : Nat) (name arguments : String)
    (providerMetadata : Option ProviderMetadata) :
    StrictCall (self.startedCall (some id) (some i) name arguments providerMetadata) where
  indexed := rfl
  wireIds := by simp [startedCall, uniqueId_of_unused unused]
  unlabelled := rfl

variable {emitted : List StreamPart} {after : ChatToolCalls × Controller StreamPart}

theorem StrictStep.table (step : StrictStep self d (.emitted emitted) after) (h : StrictTable self) :
    StrictTable after.1 := by
  cases step with
  | started i id name hIndex newIndex hId hName hType unused =>
    rw [start_emitted]
    refine ⟨?_, ?_⟩
    · intro c hc
      rcases List.mem_append.mp hc with hOld | hNew
      · exact h.call c hOld
      · rw [List.mem_singleton.mp hNew]
        exact startedCall_strict unused ..
    · rw [List.map_append]
      refine List.nodup_append'.mpr ⟨h.distinct, by simp, ?_⟩
      intro index hOld hNew
      obtain ⟨c, hc, rfl⟩ := List.mem_map.mp hOld
      exact newIndex c hc (List.mem_singleton.mp hNew)
  | continued i k c hIndex found hCall hId =>
    have hStrict := (h.call c (List.mem_of_getElem? found)).appendArguments d.arguments (.emitted emitted)
    refine ⟨?_, ?_⟩
    · intro other hOther
      rcases List.mem_or_eq_of_mem_set hOther with hOld | rfl
      · exact h.call other hOld
      · exact hStrict
    · rw [map_set_eq _ found (appendArguments_labels c d.arguments (.emitted emitted)).2.1]
      exact h.distinct

theorem labelled_ids (self : ChatToolCalls) :
    self.labelled.calls.map (·.id) = self.calls.map (·.id) := by
  simp only [labelled, List.map_map]
  exact List.map_congr_left fun c _ => (noteIndex_fields c.index c).1

/-- The lenient entry point takes the labelled table where the strict one takes the table. -/
theorem StrictStep.lenient {self' : ChatToolCalls} {controller' : Controller StreamPart}
    (step : StrictStep self d (.emitted emitted) (self', controller')) (h : StrictTable self)
    (unnamed : ∀ c ∈ self.calls, d.index = c.index → d.name = none) :
    self.labelled.delta d (.emitted emitted) = (true, self'.labelled, controller') := by
  generalize hAfter : (self', controller') = after at step
  cases step with
  | started i id name hIndex newIndex hId hName hType unused =>
    have hUnused : self.labelled.used id = false := by
      rw [used_eq_false_iff] at unused ⊢
      rwa [labelled_ids]
    have hName' : (d.name.isSome && (some name).isNone) = false := by simp
    have hStarted : self.labelled.startedCall (some id) = self.startedCall (some id) := by
      funext
      simp only [startedCall, uniqueId_of_unused hUnused, uniqueId_of_unused unused]
    rw [start_emitted, uniqueId_of_unused unused] at hAfter
    obtain ⟨rfl, rfl⟩ := Prod.mk.inj hAfter
    simp only [delta, hId, hIndex, hName, hType, h.resolve_new newIndex unused, hName', start_emitted,
      modify_last, uniqueId_of_unused hUnused, hStarted]
    simp [labelled, startedCall, label]
  | continued i k c hIndex found hCall hId =>
    have hMem := List.mem_of_getElem? found
    have hNone : d.name = none := unnamed c hMem (hIndex.trans hCall.symm)
    have hWire : ∀ id ∈ nonBlank d.id, id = c.id := by
      intro id hMemId
      exact hId id (Option.mem_filter_iff.mp hMemId).1
    have hFound : self.labelled.calls[k]? = some (label c) := by simp [labelled, found]
    obtain ⟨rfl, rfl⟩ := Prod.mk.inj hAfter
    have hNote : noteWireId (nonBlank d.id) (label c) = label c := by
      cases hBlank : nonBlank d.id with
      | none => rfl
      | some id => simp [noteWireId, (h.call c hMem).hasId_label, hWire id hBlank]
    have hLabel : noteIndex (some i) (label (appendArguments c d.arguments (.emitted emitted)).1) =
        label (appendArguments c d.arguments (.emitted emitted)).1 := by
      rw [label, (appendArguments_labels ..).2.1, hCall]
      exact noteIndex_idem ..
    have hBlankName : nonBlank none = none := rfl
    simp only [delta, hIndex, hNone, hBlankName, Option.isSome_none, Bool.false_and,
      h.resolve_existing found hCall hWire, hFound, hNote,
      appendArguments_label (h.call c hMem), hLabel]
    simp only [labelled, List.map_set]

theorem StrictStep.index_mem (step : StrictStep self d (.emitted emitted) after) (hc : c ∈ after.1.calls) :
    (∃ old ∈ self.calls, old.index = c.index) ∨ c.index = d.index := by
  cases step with
  | started i id name hIndex newIndex hId hName hType unused =>
    rw [start_emitted] at hc
    rcases List.mem_append.mp hc with hOld | hNew
    · exact .inl ⟨c, hOld, rfl⟩
    · right
      rw [List.mem_singleton.mp hNew, hIndex]
      rfl
  | continued i k old hIndex found hCall hId =>
    rcases List.mem_or_eq_of_mem_set hc with hOld | rfl
    · exact .inl ⟨c, hOld, rfl⟩
    · exact .inr (by rw [(appendArguments_labels ..).2.1, hCall, hIndex])

/-! ## Whole streams -/

theorem feed_lenient (deltas : List ToolCallDelta) : ∀ (self : ChatToolCalls)
    (emitted : List StreamPart), StrictTable self → OnlyFirstNamed deltas →
    (∀ c ∈ self.calls, ∀ d ∈ deltas, d.index = c.index → d.name = none) →
    (feed strictDelta self (.emitted emitted) deltas).1 = true →
    ∃ self' emitted', feed strictDelta self (.emitted emitted) deltas = (true, self', .emitted emitted') ∧
      feed delta self.labelled (.emitted emitted) deltas = (true, self'.labelled, .emitted emitted') := by
  induction deltas with
  | nil =>
    intro self emitted _ _ _ _
    exact ⟨self, emitted, rfl, rfl⟩
  | cons d rest ih =>
    intro self emitted h hNamed hKnown hAccepted
    obtain ⟨hFirst, hRest⟩ := List.pairwise_cons.mp hNamed
    simp only [feed] at hAccepted ⊢
    rcases strictDelta_advances self d emitted with ⟨self', emitted', hStep, _⟩ | ⟨e, hStep⟩
    · have step := strictDelta_accepted hStep
      have hLenient := step.lenient h fun c hc => hKnown c hc d List.mem_cons_self
      rw [hStep] at hAccepted ⊢
      rw [hLenient]
      refine ih self' emitted' (step.table h) hRest ?_ hAccepted
      intro c hc later hLater hIndex
      rcases step.index_mem hc with ⟨old, hOld, hEq⟩ | hEq
      · exact hKnown old hOld later (List.mem_cons_of_mem d hLater) (hIndex.trans hEq.symm)
      · exact hFirst later hLater (hIndex.trans hEq)
    · rw [hStep] at hAccepted
      cases hAccepted

theorem label_index (c : ToolCall) : (label c).index = c.index := by
  unfold label noteIndex
  repeat' split
  all_goals rfl

theorem endParts_label (c : ToolCall) : endParts (label c) = endParts c := by
  unfold label noteIndex
  repeat' split
  all_goals rfl

theorem finishOrder_labelled (self : ChatToolCalls) :
    self.labelled.finishOrder = self.finishOrder.map label := by
  have hAll : self.labelled.calls.all (fun c => c.index.isSome) =
      self.calls.all fun c => c.index.isSome := by
    simp only [labelled, List.all_map, Function.comp_def, label_index]
  unfold finishOrder
  rw [hAll]
  split
  · refine (List.map_insertionSort _ _ label self.calls ?_).symm
    intro a _ b _
    simp only [indexLe, label_index]
  · rfl

theorem finish_labelled (self : ChatToolCalls) (emitted : List StreamPart) :
    self.labelled.finish (.emitted emitted) = self.finish (.emitted emitted) := by
  rw [finish_emitted, finish_emitted, finishOrder_labelled, List.flatMap_map]
  simp only [endParts_label]

/-- A sequence of deltas that strict mode accepts, with names on the first delta of each call only,
gives the same items through either entry point. -/
theorem delta_run_eq_strictDelta_run (generateId : Nat → String) (deltas : List ToolCallDelta)
    (hAccepted : (feed strictDelta { generateId } {} deltas).1 = true)
    (hNamed : OnlyFirstNamed deltas) :
    runWith delta generateId deltas = runWith strictDelta generateId deltas := by
  obtain ⟨self', emitted', hStrict, hLenient⟩ := feed_lenient deltas { generateId } []
    (.initial generateId) hNamed (by simp) hAccepted
  rw [Controller.emitted_nil] at hStrict hLenient
  have hInitial : labelled { generateId } = { generateId } := rfl
  rw [hInitial] at hLenient
  simp only [runWith, hStrict, hLenient, finish_labelled]

def interleavedCalls : List ToolCallDelta :=
  [{ index := some 1, id := some "b", name := some "g", arguments := some "" },
    { index := some 0, id := some "a", name := some "f", arguments := some "[]" },
    { index := some 1, id := some "b", arguments := some "[" },
    { index := some 0, arguments := some " " },
    { index := some 1, arguments := some "]" }]

theorem delta_run_eq_strictDelta_run_interleaved :
    runWith delta (fun _ => "generated") interleavedCalls =
      runWith strictDelta (fun _ => "generated") interleavedCalls :=
  delta_run_eq_strictDelta_run _ interleavedCalls rfl (by
    simp [OnlyFirstNamed, interleavedCalls])

end Aimux.Provider.ChatToolCalls
