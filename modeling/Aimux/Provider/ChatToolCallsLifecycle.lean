import Aimux.Provider.ChatToolCalls

/-! # The lifecycle of a streamed tool call

Whatever labels the deltas carry, the parts about one tool-call id are a start, its argument
fragments and, once `finish` ran, one end and one call with the concatenated fragments.
The invariant relates the table of calls to the parts emitted so far; only the id, the name and the
arguments of a call take part in it, so the matching rules stay out of the argument.
-/

namespace Aimux.Provider.ChatToolCalls

open Aimux.Core

inductive CallEvent where
  | start (name : String)
  | delta (text : String)
  | inputEnd
  | call (call : RawToolCall)

def callEvent (id : String) : StreamPart → Option CallEvent
  | .toolInputStart i name .. => if i = id then some (.start name) else none
  | .toolInputDelta i text _ => if i = id then some (.delta text) else none
  | .toolInputEnd i _ => if i = id then some .inputEnd else none
  | .toolCall call => if call.toolCallId = id then some (.call call) else none
  | _ => none

def callEvents (id : String) (emitted : List StreamPart) : List CallEvent :=
  emitted.filterMap (callEvent id)

@[simp] theorem callEvents_nil (id : String) : callEvents id [] = [] := rfl

@[simp] theorem callEvents_append (id : String) (a b : List StreamPart) :
    callEvents id (a ++ b) = callEvents id a ++ callEvents id b := List.filterMap_append ..

theorem callEvents_delta (id i text : String) :
    callEvents id [.toolInputDelta i text none] = if i = id then [.delta text] else [] := by
  by_cases h : i = id <;> simp [callEvents, callEvent, h]

/-! ## Fresh ids -/

variable (self : ChatToolCalls)

theorem used_eq_false_iff (id : String) : self.used id = false ↔ id ∉ self.calls.map (·.id) := by
  simp only [used, List.any_eq_false, beq_iff_eq, List.mem_map, not_exists, not_and]

theorem suffixed_injective (generated : String) :
    Function.Injective fun suffix : Nat => generated ++ "-" ++ toString suffix := by
  intro i j h
  have hText : toString i = toString j := (String.append_right_inj _).mp h
  have hDigits : Nat.toDigits 10 i = Nat.toDigits 10 j := by
    rw [← Nat.toList_repr, ← Nat.toList_repr]
    exact congrArg String.toList hText
  rw [← Nat.ofDigitChars_ten_toDigits (n := i), hDigits, Nat.ofDigitChars_ten_toDigits]

theorem ne_suffixed (generated : String) (suffix : Nat) :
    generated ≠ generated ++ "-" ++ toString suffix := by
  intro h
  have hLength := congrArg String.length h
  simp only [String.length_append] at hLength
  have hDash : "-".length = 1 := by decide
  omega

/-- The pigeonhole bound of the suffix search: the generated id and its first `n` suffixed forms
are `n + 1` different ids, so they cannot all be among `n` used ones. -/
theorem exists_free_suffix (generated : String) (hUsed : self.used generated = true) :
    ∃ suffix, suffix ∈ List.range' 1 self.calls.length ∧
      self.used (generated ++ "-" ++ toString suffix) = false := by
  by_contra hNone
  have hAll : ∀ suffix ∈ List.range' 1 self.calls.length,
      generated ++ "-" ++ toString suffix ∈ self.calls.map (·.id) := by
    intro suffix hSuffix
    by_contra hFree
    exact hNone ⟨suffix, hSuffix, (used_eq_false_iff self _).mpr hFree⟩
  have hMem : generated ∈ self.calls.map (·.id) := by
    by_contra hFree
    rw [(used_eq_false_iff self generated).mpr hFree] at hUsed
    cases hUsed
  let taken := (List.range' 1 self.calls.length).map fun suffix => generated ++ "-" ++ toString suffix
  have hNodup : (generated :: taken).Nodup := by
    refine List.nodup_cons.mpr ⟨?_, (List.nodup_range').map (suffixed_injective generated)⟩
    intro hTaken
    obtain ⟨suffix, _, hEq⟩ := List.mem_map.mp hTaken
    exact ne_suffixed generated suffix hEq.symm
  have hSubset : generated :: taken ⊆ self.calls.map (·.id) := by
    intro id hId
    rcases List.mem_cons.mp hId with rfl | hId
    · exact hMem
    · obtain ⟨suffix, hSuffix, rfl⟩ := List.mem_map.mp hId
      exact hAll suffix hSuffix
  have hLength := (hNodup.subperm hSubset).length_le
  simp only [taken, List.length_cons, List.length_map, List.length_range'] at hLength
  omega

/-- Neither a wire id, nor a blank or repeated generated id can collide with a call in the table. -/
theorem uniqueId_fresh (wireId : Option String) : (self.uniqueId wireId).1 ∉ self.calls.map (·.id) := by
  rw [← used_eq_false_iff]
  unfold uniqueId
  split
  · rename_i id hId
    have h := (Option.filter_eq_some_iff.mp hId).2
    simpa using h
  · simp only
    split
    · rename_i hFree
      simpa using hFree
    · rename_i hUsed
      have hUsed : self.used ((nonBlank (some (self.generateId self.generated))).getD
          fallbackToolCallId) = true := by simpa using hUsed
      obtain ⟨suffix, hMem, hFree⟩ := exists_free_suffix self _ hUsed
      -- the search succeeds, and what it finds is free
      cases hFind : (List.range' 1 self.calls.length).find? fun suffix => !self.used
          ((nonBlank (some (self.generateId self.generated))).getD fallbackToolCallId ++ "-" ++
            toString suffix) with
      | none =>
        have h := List.find?_eq_none.mp hFind suffix hMem
        rw [hFree] at h
        exact absurd rfl h
      | some found =>
        have h := List.find?_some hFind
        simpa using h

theorem uniqueId_calls (wireId : Option String) : (self.uniqueId wireId).2.calls = self.calls := by
  unfold uniqueId
  split
  · rfl
  · simp only
    split <;> rfl

/-! ## The invariant -/

def Opened (c : ToolCall) (emitted : List StreamPart) : Prop :=
  ∃ deltas, callEvents c.id emitted = .start c.name :: deltas.map .delta ∧
    String.join deltas = c.arguments

/-- The call table and the parts emitted so far tell the same story. -/
structure Tracked (table : ChatToolCalls) (emitted : List StreamPart) : Prop where
  distinct : (table.calls.map (·.id)).Nodup
  opened : ∀ c ∈ table.calls, Opened c emitted
  unseen : ∀ id, id ∉ table.calls.map (·.id) → callEvents id emitted = []

theorem Tracked.initial (generateId : Nat → String) : Tracked { generateId } [] where
  distinct := List.nodup_nil
  opened := by simp
  unseen := by simp

def startParts (id name arguments : String) : List StreamPart :=
  .toolInputStart id name none none none none ::
    if arguments.isEmpty then [] else [.toolInputDelta id arguments none]

theorem callEvents_startParts_self (id name arguments : String) :
    ∃ deltas, callEvents id (startParts id name arguments) = .start name :: deltas.map .delta ∧
      String.join deltas = arguments := by
  by_cases h : arguments.isEmpty
  · refine ⟨[], ?_, ?_⟩
    · simp [startParts, h, callEvents, callEvent]
    · exact (String.isEmpty_iff.mp h).symm
  · refine ⟨[arguments], ?_, by simp [String.join]⟩
    simp [startParts, h, callEvents, callEvent]

variable {id : String}

theorem callEvents_startParts_ne {i : String} (h : i ≠ id) (name arguments : String) :
    callEvents id (startParts i name arguments) = [] := by
  by_cases hEmpty : arguments.isEmpty <;> simp [startParts, hEmpty, callEvents, callEvent, h]

/-- Everything one accepted delta can do to the table and to the emitted parts. -/
inductive Advance (self : ChatToolCalls) (emitted : List StreamPart) :
    ChatToolCalls → List StreamPart → Prop where
  | dropped : Advance self emitted self emitted
  | started (self' : ChatToolCalls) (c : ToolCall) (fresh : c.id ∉ self.calls.map (·.id))
      (calls : self'.calls = self.calls ++ [c]) :
      Advance self emitted self' (emitted ++ startParts c.id c.name c.arguments)
  | continued (self' : ChatToolCalls) (k : Nat) (c c' : ToolCall) (fragment : Option String)
      (found : self.calls[k]? = some c) (id : c'.id = c.id) (name : c'.name = c.name)
      (arguments : c'.arguments = c.arguments ++ fragment.getD "")
      (calls : self'.calls = self.calls.set k c') :
      Advance self emitted self'
        (emitted ++ (fragment.map fun text => StreamPart.toolInputDelta c.id text none).toList)

variable {emitted : List StreamPart} {self self' : ChatToolCalls} {c : ToolCall}

theorem Advance.started_of {fresh : ToolCall} (id : c.id = fresh.id) (name : c.name = fresh.name)
    (arguments : c.arguments = fresh.arguments) (unused : fresh.id ∉ self.calls.map (·.id))
    (calls : self'.calls = self.calls ++ [c]) :
    Advance self emitted self' (emitted ++ startParts fresh.id fresh.name fresh.arguments) := by
  rw [← id, ← name, ← arguments]
  exact .started self' c (id ▸ unused) calls

theorem Tracked.started (h : Tracked self emitted) (fresh : c.id ∉ self.calls.map (·.id))
    (calls : self'.calls = self.calls ++ [c]) :
    Tracked self' (emitted ++ startParts c.id c.name c.arguments) where
  distinct := by
    rw [calls, List.map_append]
    refine List.nodup_append'.mpr ⟨h.distinct, by simp, ?_⟩
    intro id hOld hNew
    simp only [List.map_cons, List.map_nil, List.mem_singleton] at hNew
    exact fresh (hNew ▸ hOld)
  opened := by
    intro other hOther
    rw [calls, List.mem_append, List.mem_singleton] at hOther
    rcases hOther with hOld | rfl
    · have hNe : c.id ≠ other.id := fun hEq => fresh (hEq ▸ List.mem_map.mpr ⟨other, hOld, rfl⟩)
      obtain ⟨deltas, hEvents, hJoin⟩ := h.opened other hOld
      exact ⟨deltas, by rw [callEvents_append, callEvents_startParts_ne hNe, hEvents, List.append_nil],
        hJoin⟩
    · obtain ⟨deltas, hEvents, hJoin⟩ := callEvents_startParts_self other.id other.name other.arguments
      exact ⟨deltas, by rw [callEvents_append, h.unseen other.id fresh, List.nil_append, hEvents], hJoin⟩
  unseen := by
    intro id hId
    rw [calls, List.map_append, List.mem_append, not_or] at hId
    have hNe : c.id ≠ id := fun hEq => hId.2 (by simp [hEq])
    rw [callEvents_append, h.unseen id hId.1, callEvents_startParts_ne hNe, List.append_nil]

variable {calls : List ToolCall}

theorem map_set_eq {β : Type} (f : ToolCall → β) {k : Nat} {c' : ToolCall} (found : calls[k]? = some c) (h : f c' = f c) :
    (calls.set k c').map f = calls.map f := by
  obtain ⟨hk, rfl⟩ := List.getElem?_eq_some_iff.mp found
  rw [List.map_set, h, ← List.getElem_map f (h := by simpa using hk), List.set_getElem_self]

theorem Tracked.continued {k : Nat} {c' : ToolCall} {fragment : Option String} (h : Tracked self emitted)
    (found : self.calls[k]? = some c) (id : c'.id = c.id) (name : c'.name = c.name)
    (arguments : c'.arguments = c.arguments ++ fragment.getD "") (calls : self'.calls = self.calls.set k c') :
    Tracked self'
      (emitted ++ (fragment.map fun text => StreamPart.toolInputDelta c.id text none).toList) where
  distinct := by
    rw [calls, map_set_eq _ found id]
    exact h.distinct
  opened := by
    intro other hOther
    rw [calls] at hOther
    obtain ⟨j, hj⟩ := List.mem_iff_getElem?.mp hOther
    rw [List.getElem?_set] at hj
    split at hj
    · -- the continued call: its events grow by the fragment
      have hEq : c' = other := by
        split at hj
        · exact Option.some.inj hj
        · cases hj
      subst hEq
      obtain ⟨deltas, hEvents, hJoin⟩ := h.opened c (List.mem_of_getElem? found)
      cases fragment with
      | none => exact ⟨deltas, by simp [id, name, hEvents], by simp [hJoin, arguments]⟩
      | some text =>
        refine ⟨deltas ++ [text], ?_, ?_⟩
        · simp [id, name, hEvents, callEvents_delta]
        · have hText : String.join [text] = text := by simp [String.join]
          rw [String.join_append, hJoin, hText, arguments, Option.getD_some]
    · rename_i hNe
      have hIds : c.id ≠ other.id := by
        intro hEq
        have hc : (self.calls.map (·.id))[k]? = some c.id := by simp [found]
        have ho : (self.calls.map (·.id))[j]? = some c.id := by simp [hj, hEq]
        exact hNe ((List.getElem?_inj (List.getElem?_eq_some_iff.mp hc).1 h.distinct).mp (hc.trans ho.symm))
      obtain ⟨deltas, hEvents, hJoin⟩ := h.opened other (List.mem_of_getElem? hj)
      refine ⟨deltas, ?_, hJoin⟩
      cases fragment <;> simp [hEvents, callEvents_delta, hIds]
  unseen := by
    intro other hOther
    rw [calls, map_set_eq _ found id] at hOther
    have hNe : c.id ≠ other := by
      intro hEq
      exact hOther (hEq ▸ List.mem_map.mpr ⟨c, List.mem_of_getElem? found, rfl⟩)
    cases fragment <;> simp [h.unseen other hOther, callEvents_delta, hNe]

theorem Advance.tracked {emitted' : List StreamPart} (step : Advance self emitted self' emitted')
    (h : Tracked self emitted) :
    Tracked self' emitted' := by
  cases step with
  | dropped => exact h
  | started _ c fresh calls => exact h.started fresh calls
  | continued _ k c c' fragment found id name arguments calls =>
    exact h.continued found id name arguments calls

/-! ## One delta -/

/-- The interface the lifecycle needs of an entry point: an accepted delta advances the table, a
refused one ends the stream with an error and leaves the table alone. -/
def Advances (entry : ChatToolCalls → ToolCallDelta → Controller StreamPart →
    Bool × ChatToolCalls × Controller StreamPart) : Prop :=
  ∀ self d emitted,
    (∃ self' emitted', entry self d (.emitted emitted) = (true, self', .emitted emitted') ∧
      Advance self emitted self' emitted') ∨
    ∃ e, entry self d (.emitted emitted) = (false, self, (Controller.emitted emitted).error e)

def startedCall (self : ChatToolCalls) (wireId : Option String) (index : Option Nat)
    (name arguments : String) (providerMetadata : Option ProviderMetadata) : ToolCall where
  id := (self.uniqueId wireId).1
  name := name
  arguments := arguments
  argumentState := .new arguments
  index := index
  wireIds := wireId.toList
  indices := []
  providerMetadata := providerMetadata

theorem start_emitted (self : ChatToolCalls) (wireId : Option String) (index : Option Nat)
    (name arguments : String) (providerMetadata : Option ProviderMetadata)
    (emitted : List StreamPart) :
    self.start wireId index name arguments providerMetadata (.emitted emitted) =
      ({ (self.uniqueId wireId).2 with
          calls := self.calls ++ [self.startedCall wireId index name arguments providerMetadata] },
        .emitted (emitted ++ startParts (self.uniqueId wireId).1 name arguments)) := by
  by_cases h : arguments.isEmpty <;>
    simp [start, uniqueId_calls, startedCall, startParts, Controller.toolInputStart,
      Controller.toolInputDelta, h]

theorem appendArguments_emitted (c : ToolCall) (arguments : Option String) (emitted : List StreamPart) :
    ∃ c', appendArguments c arguments (.emitted emitted) = (c', .emitted (emitted ++
        (arguments.map fun text => StreamPart.toolInputDelta c.id text none).toList)) ∧
      c'.id = c.id ∧ c'.name = c.name ∧ c'.arguments = c.arguments ++ arguments.getD "" := by
  cases arguments with
  | none => exact ⟨c, by simp [appendArguments], rfl, rfl, by simp⟩
  | some text =>
    refine ⟨{ c with
      argumentState := c.argumentState.append text
      arguments := c.arguments ++ text }, ?_, rfl, rfl, rfl⟩
    simp [appendArguments, Controller.toolInputDelta]

theorem noteWireId_fields (wireId : Option String) (c : ToolCall) :
    (noteWireId wireId c).id = c.id ∧ (noteWireId wireId c).name = c.name ∧
      (noteWireId wireId c).arguments = c.arguments := by
  unfold noteWireId
  repeat' split
  all_goals exact ⟨rfl, rfl, rfl⟩

theorem noteIndex_fields (index : Option Nat) (c : ToolCall) :
    (noteIndex index c).id = c.id ∧ (noteIndex index c).name = c.name ∧
      (noteIndex index c).arguments = c.arguments := by
  unfold noteIndex
  repeat' split
  all_goals exact ⟨rfl, rfl, rfl⟩

theorem modify_last (c : ToolCall) (f : ToolCall → ToolCall) :
    (calls ++ [c]).modify ((calls ++ [c]).length - 1) f = calls ++ [f c] := by
  rw [List.length_append, List.length_singleton, Nat.add_sub_cancel]
  induction calls with
  | nil => rfl
  | cons head tail ih => simp [ih]

theorem delta_advances : Advances delta := by
  intro self d emitted
  unfold delta
  simp only
  split
  · exact .inl ⟨self, emitted, rfl, .dropped⟩
  · split
    · exact .inl ⟨self, emitted, rfl, .dropped⟩
    · split
      · rename_i name _ _
        left
        rw [start_emitted]
        simp only [modify_last]
        refine ⟨_, _, rfl, ?_⟩
        obtain ⟨hId, hName, hArguments⟩ := noteIndex_fields d.index
          (self.startedCall (nonBlank d.id) d.index name (d.arguments.getD "") d.providerMetadata)
        exact .started_of hId hName hArguments (uniqueId_fresh self (nonBlank d.id)) rfl
      · exact .inr ⟨_, rfl⟩
      · exact .inr ⟨_, rfl⟩
  · split
    · exact .inl ⟨self, emitted, rfl, .dropped⟩
    · rename_i k c hFound
      left
      obtain ⟨hId, hName, hArguments⟩ := noteWireId_fields (nonBlank d.id) c
      obtain ⟨c', hEq, hId', hName', hArguments'⟩ :=
        appendArguments_emitted (noteWireId (nonBlank d.id) c) d.arguments emitted
      obtain ⟨hId'', hName'', hArguments''⟩ := noteIndex_fields d.index c'
      rw [hEq, hId]
      refine ⟨_, _, rfl, .continued _ _ c (noteIndex d.index c') d.arguments hFound ?_ ?_ ?_ rfl⟩
      · rw [hId'', hId', hId]
      · rw [hName'', hName', hName]
      · rw [hArguments'', hArguments', hArguments]

theorem strictDelta_advances : Advances strictDelta := by
  intro self d emitted
  unfold strictDelta
  split
  · exact .inr ⟨_, rfl⟩
  · split
    · split
      · split
        · exact .inr ⟨_, rfl⟩
        · split
          · exact .inr ⟨_, rfl⟩
          · rename_i id name _ _ _ _
            left
            rw [start_emitted]
            exact ⟨_, _, rfl, .started _ (self.startedCall _ _ _ _ _) (uniqueId_fresh self _) rfl⟩
      · exact .inr ⟨_, rfl⟩
    · split
      · exact .inl ⟨self, emitted, rfl, .dropped⟩
      · rename_i c hFound
        split
        · exact .inr ⟨_, rfl⟩
        · left
          obtain ⟨c', hEq, hId, hName, hArguments⟩ := appendArguments_emitted c d.arguments emitted
          rw [hEq]
          exact ⟨_, _, rfl, .continued _ _ c c' d.arguments hFound hId hName hArguments rfl⟩

/-! ## Whole streams -/

theorem feed_tracked {entry : ChatToolCalls → ToolCallDelta → Controller StreamPart →
      Bool × ChatToolCalls × Controller StreamPart} (advances : Advances entry)
    (deltas : List ToolCallDelta) : ∀ (self : ChatToolCalls) (emitted : List StreamPart),
    Tracked self emitted → ∃ self' emitted', Tracked self' emitted' ∧
      (feed entry self (.emitted emitted) deltas = (true, self', .emitted emitted') ∨
        ∃ e, feed entry self (.emitted emitted) deltas =
          (false, self', (Controller.emitted emitted').error e)) := by
  induction deltas with
  | nil =>
    intro self emitted h
    exact ⟨self, emitted, h, .inl rfl⟩
  | cons d rest ih =>
    intro self emitted h
    simp only [feed]
    rcases advances self d emitted with ⟨self', emitted', hStep, hAdvance⟩ | ⟨e, hStep⟩
    · rw [hStep]
      exact ih self' emitted' (hAdvance.tracked h)
    · rw [hStep]
      exact ⟨self, emitted, h, .inr ⟨e, rfl⟩⟩

def endParts (c : ToolCall) : List StreamPart := [.toolInputEnd c.id none, .toolCall c.toRaw]

theorem finish_emitted (self : ChatToolCalls) (emitted : List StreamPart) :
    self.finish (.emitted emitted) = .emitted (emitted ++ self.finishOrder.flatMap endParts) := by
  unfold finish
  generalize self.finishOrder = calls
  induction calls generalizing emitted with
  | nil => simp
  | cons c rest ih =>
    have hEnd : ((Controller.emitted emitted).toolInputEnd c.id).enqueue (.toolCall c.toRaw) =
        .emitted (emitted ++ endParts c) := by
      simp [Controller.toolInputEnd, endParts]
    rw [List.foldl_cons, hEnd, ih, List.flatMap_cons, List.append_assoc]

theorem finishOrder_perm (self : ChatToolCalls) : self.finishOrder.Perm self.calls := by
  unfold finishOrder
  split
  · exact List.perm_insertionSort _ _
  · exact .rfl

theorem callEvents_endParts (id : String) (c : ToolCall) :
    callEvents id (endParts c) = if c.id = id then [.inputEnd, .call c.toRaw] else [] := by
  by_cases h : c.id = id <;> simp [endParts, callEvents, callEvent, ToolCall.toRaw, h]

theorem callEvents_flatMap_endParts_of_notMem (h : id ∉ calls.map (·.id)) :
    callEvents id (calls.flatMap endParts) = [] := by
  induction calls with
  | nil => rfl
  | cons c rest ih =>
    simp only [List.map_cons, List.mem_cons, not_or] at h
    rw [List.flatMap_cons, callEvents_append, callEvents_endParts, if_neg (Ne.symm h.1), ih h.2,
      List.append_nil]

theorem callEvents_flatMap_endParts_of_mem (distinct : (calls.map (·.id)).Nodup) (h : c ∈ calls) :
    callEvents c.id (calls.flatMap endParts) = [.inputEnd, .call c.toRaw] := by
  induction calls with
  | nil => cases h
  | cons head rest ih =>
    rw [List.map_cons, List.nodup_cons] at distinct
    rw [List.flatMap_cons, callEvents_append, callEvents_endParts]
    rcases List.mem_cons.mp h with rfl | hRest
    · rw [if_pos rfl, callEvents_flatMap_endParts_of_notMem distinct.1, List.append_nil]
    · have hNe : head.id ≠ c.id := by
        intro hEq
        exact distinct.1 (List.mem_map.mpr ⟨c, hRest, hEq.symm⟩)
      rw [if_neg hNe, ih distinct.2 hRest, List.nil_append]

/-- The complete lifecycle of an id: one start, then its fragments, then one end and one call whose
input is their concatenation. -/
def Closed (id : String) (emitted : List StreamPart) : Prop :=
  ∃ (name : String) (deltas : List String) (call : RawToolCall), callEvents id emitted =
      CallEvent.start name :: deltas.map .delta ++ [CallEvent.inputEnd, .call call] ∧
    call.toolCallId = id ∧ call.toolName = name ∧ call.input = String.join deltas

/-- The lifecycle of an id cut short: one start, then fragments, and neither end nor call. -/
def Unclosed (id : String) (emitted : List StreamPart) : Prop :=
  ∃ (name : String) (deltas : List String),
    callEvents id emitted = .start name :: deltas.map .delta

theorem Tracked.closed_after_finish (h : Tracked self emitted) (hc : c ∈ self.calls) :
    Closed c.id (emitted ++ self.finishOrder.flatMap endParts) := by
  obtain ⟨deltas, hEvents, hJoin⟩ := h.opened c hc
  have hDistinct : (self.finishOrder.map (·.id)).Nodup :=
    ((self.finishOrder_perm.map _).nodup_iff).mpr h.distinct
  refine ⟨c.name, deltas, c.toRaw, ?_, rfl, rfl, hJoin.symm⟩
  rw [callEvents_append, hEvents, callEvents_flatMap_endParts_of_mem hDistinct
    (self.finishOrder_perm.mem_iff.mpr hc)]

theorem Tracked.events_after_finish_of_notMem (h : Tracked self emitted) (hId : id ∉ self.calls.map (·.id)) :
    callEvents id (emitted ++ self.finishOrder.flatMap endParts) = [] := by
  have hOrder : id ∉ self.finishOrder.map (·.id) := by
    rwa [(self.finishOrder_perm.map (·.id)).mem_iff]
  rw [callEvents_append, h.unseen id hId, callEvents_flatMap_endParts_of_notMem hOrder,
    List.append_nil]

/-- For every delta sequence and id generator. The calls of the table have pairwise different ids,
and these are the ids that appear. A stream whose deltas were all accepted closes every one of them.
A stream that a delta ended emits the error last; its calls were started once, got only fragments
after that, and were neither ended nor delivered. -/
theorem delta_run_lifecycle (generateId : Nat → String) (deltas : List ToolCallDelta) :
    let final := feed delta { generateId } {} deltas
    let items := (runWith delta generateId deltas).2
    (final.2.1.calls.map (·.id)).Nodup ∧
    (∀ id, callEvents id (parts items) ≠ [] ↔ id ∈ final.2.1.calls.map (·.id)) ∧
    (final.1 = true → ∃ emitted, items = emitted.map .ok ∧
      ∀ id ∈ final.2.1.calls.map (·.id), Closed id emitted) ∧
    (final.1 = false → ∃ emitted e, items = emitted.map .ok ++ [.error e] ∧
      ∀ id ∈ final.2.1.calls.map (·.id), Unclosed id emitted) := by
  obtain ⟨self, emitted, hTracked, hFeed | ⟨e, hFeed⟩⟩ :=
    feed_tracked delta_advances deltas _ [] (Tracked.initial generateId)
  · have hRun : (runWith delta generateId deltas).2 =
        (emitted ++ self.finishOrder.flatMap endParts).map .ok := by
      simp only [runWith]
      rw [← Controller.emitted_nil, hFeed]
      exact congrArg Controller.queue (finish_emitted self emitted)
    have hParts : parts ((emitted ++ self.finishOrder.flatMap endParts).map Except.ok) =
        emitted ++ self.finishOrder.flatMap endParts := Controller.parts_emitted _
    simp only [← Controller.emitted_nil, hFeed, hRun, hParts]
    refine ⟨hTracked.distinct, ?_, ?_, by simp⟩
    · intro id
      constructor
      · intro hEvents
        by_contra hId
        exact hEvents (hTracked.events_after_finish_of_notMem hId)
      · intro hId
        obtain ⟨c, hc, rfl⟩ := List.mem_map.mp hId
        obtain ⟨name, fragments, call, hEvents, _⟩ := hTracked.closed_after_finish hc
        simp [hEvents]
    · intro _
      refine ⟨_, rfl, ?_⟩
      intro id hId
      obtain ⟨c, hc, rfl⟩ := List.mem_map.mp hId
      exact hTracked.closed_after_finish hc
  · have hRun : (runWith delta generateId deltas).2 = emitted.map .ok ++ [Except.error e] := by
      simp only [runWith]
      rw [← Controller.emitted_nil, hFeed]
      rfl
    have hParts : parts (emitted.map Except.ok ++ [Except.error e]) = emitted := by
      rw [parts_append, parts_error, List.append_nil]
      exact Controller.parts_emitted emitted
    simp only [← Controller.emitted_nil, hFeed, hRun, hParts]
    have hOpened : ∀ id ∈ self.calls.map (·.id), Unclosed id emitted := by
      intro id hId
      obtain ⟨c, hc, rfl⟩ := List.mem_map.mp hId
      obtain ⟨fragments, hEvents, _⟩ := hTracked.opened c hc
      exact ⟨c.name, fragments, hEvents⟩
    refine ⟨hTracked.distinct, ?_, by simp, fun _ => ⟨emitted, e, rfl, hOpened⟩⟩
    intro id
    constructor
    · intro hEvents
      by_contra hId
      exact hEvents (hTracked.unseen id hId)
    · intro hId
      obtain ⟨name, fragments, hEvents⟩ := hOpened id hId
      simp [hEvents]

/-- A started call is not closed when a later delta ends the stream: the second delta starts a call
without a function name, so `finish` never runs. -/
theorem delta_run_leaves_call_unclosed :
    ¬ ∀ (generateId : Nat → String) (deltas : List ToolCallDelta) (id : String),
      callEvents id (parts (runWith delta generateId deltas).2) ≠ [] →
        Closed id (parts (runWith delta generateId deltas).2) := by
  intro h
  have hEvents : callEvents "a" (parts (runWith delta (fun _ => "generated")
      [{ index := some 0, id := some "a", name := some "f", arguments := some "[" },
        { index := some 1, id := some "b" }]).2) = [.start "f", .delta "["] := by
    rfl
  obtain ⟨name, fragments, call, hClosed, _⟩ := h (fun _ => "generated") _ "a" (by rw [hEvents]; simp)
  rw [hEvents] at hClosed
  have hEnd : CallEvent.inputEnd ∈ [CallEvent.start "f", CallEvent.delta "["] := by simp [hClosed]
  simp at hEnd

end Aimux.Provider.ChatToolCalls
