import Aimux.Provider.StrictParts

/-! # What the strict guard lets through

The guard passes an initial part of its input, less the client tool calls whose `finish` never came
or reported an error, and moves the others to the front of their `finish`. The invariant compares
the parts accepted so far with the parts emitted.
-/

namespace Aimux.Provider.StrictParts

open Aimux.Core

/-! ## Blocks -/

/-- The lifecycle of the blocks with one id: a block is started while none is open, continued and
ended while it is. The Boolean tells whether a block is open at the end. -/
inductive Lifecycle : Bool → List Block.Step → Prop where
  | nil : Lifecycle false []
  | start {steps} : Lifecycle false steps → Lifecycle true (steps ++ [Block.Step.start])
  | continue {steps} (kind : String) : Lifecycle true steps → Lifecycle true (steps ++ [Block.Step.continue kind])
  | end {steps} : Lifecycle true steps → Lifecycle false (steps ++ [Block.Step.end])

def blockStep (block : Block) (id : String) (part : StreamPart) : Option Block.Step :=
  (tracked part).bind fun t => if t.1 = block ∧ t.2.1 = id then some t.2.2 else none

def blockSteps (block : Block) (id : String) (parts : List StreamPart) : List Block.Step :=
  parts.filterMap (blockStep block id)

theorem blockSteps_append (block : Block) (id : String) (a b : List StreamPart) :
    blockSteps block id (a ++ b) = blockSteps block id a ++ blockSteps block id b :=
  List.filterMap_append ..

/-! ## Client tool calls -/

def isClientCall : StreamPart → Bool
  | .toolCall call => call.providerExecuted ≠ some true
  | _ => false

def isFinish : StreamPart → Bool
  | .finish .. => true
  | _ => false

def isErrorPart : StreamPart → Bool
  | .error _ => true
  | _ => false

def releases : StreamPart → Bool
  | .finish finishReason _ _ => finishReason.unified ≠ .error
  | _ => false

/-- The client calls whose next `finish` does not report an error. -/
def released : List StreamPart → List StreamPart
  | [] => []
  | part :: rest =>
    if isClientCall part && (rest.find? isFinish).any releases then part :: released rest
    else released rest

/-- The client calls no `finish` has followed yet. -/
def pending : List StreamPart → List StreamPart
  | [] => []
  | part :: rest =>
    if isClientCall part && !rest.any isFinish then part :: pending rest else pending rest

theorem released_sublist (parts : List StreamPart) : (released parts).Sublist parts := by
  induction parts with
  | nil => exact .slnil
  | cons part rest ih =>
    unfold released
    split
    · exact ih.cons_cons part
    · exact ih.cons part

variable {part : StreamPart}

theorem pending_client {parts : List StreamPart} (h : part ∈ pending parts) :
    isClientCall part = true := by
  induction parts with
  | nil => cases h
  | cons head rest ih =>
    unfold pending at h
    split at h
    · rename_i hHead
      rcases List.mem_cons.mp h with rfl | hRest
      · exact (Bool.and_eq_true_iff.mp hHead).1
      · exact ih hRest
    · exact ih h

theorem released_of_no_finish {parts : List StreamPart} (h : parts.any isFinish = false) :
    released parts = [] := by
  induction parts with
  | nil => rfl
  | cons part rest ih =>
    rw [List.any_cons, Bool.or_eq_false_iff] at h
    have hNone : rest.find? isFinish = none := by
      rw [List.find?_eq_none]
      intro p hp
      simpa using List.any_eq_false.mp h.2 p hp
    simp [released, hNone, ih h.2]

theorem released_concat_of_not_finish (parts : List StreamPart) (h : isFinish part = false) :
    released (parts ++ [part]) = released parts := by
  induction parts with
  | nil => simp [released]
  | cons head rest ih =>
    have hFind : (rest ++ [part]).find? isFinish = rest.find? isFinish := by simp [h]
    simp only [List.cons_append, released, hFind, ih]

theorem pending_concat_of_not_finish (parts : List StreamPart) (h : isFinish part = false) :
    pending (parts ++ [part]) = pending parts ++ if isClientCall part then [part] else [] := by
  induction parts with
  | nil => simp [pending]
  | cons head rest ih =>
    have hAny : (rest ++ [part]).any isFinish = rest.any isFinish := by simp [h]
    simp only [List.cons_append, pending, hAny, ih]
    split <;> rfl

theorem released_concat_finish (parts : List StreamPart) (h : isFinish part = true) :
    released (parts ++ [part]) = released parts ++ if releases part then pending parts else [] := by
  induction parts with
  | nil =>
    cases part <;> simp_all [released, isFinish, isClientCall, pending]
  | cons head rest ih =>
    have hFind : (rest ++ [part]).find? isFinish = (rest.find? isFinish).or (some part) := by
      simp [h]
    simp only [List.cons_append, released, pending, hFind, ih]
    cases hRest : rest.any isFinish with
    | true =>
      -- the next `finish` of `head` is already there
      obtain ⟨next, hNext⟩ : ∃ next, rest.find? isFinish = some next := by
        rw [← Option.isSome_iff_exists, List.find?_isSome]
        simpa using hRest
      simp only [hNext, Option.some_or, Bool.not_true, Bool.and_false, Bool.false_eq_true, if_false]
      split <;> rfl
    | false =>
      have hNone : rest.find? isFinish = none := by
        rw [List.find?_eq_none]
        intro p hp
        simpa using List.any_eq_false.mp hRest p hp
      simp only [hNone, Option.none_or, released_of_no_finish hRest, Option.any_some, Option.any_none,
        Bool.and_false, Bool.not_false, Bool.and_true, Bool.false_eq_true, if_false, List.nil_append]
      cases isClientCall head <;> cases releases part <;> rfl

theorem pending_concat_finish (parts : List StreamPart) (h : isFinish part = true) :
    pending (parts ++ [part]) = [] := by
  induction parts with
  | nil => cases part <;> simp_all [isFinish, isClientCall, pending]
  | cons head rest ih => simp [pending, h, ih]

/-- Every client call stands in a run of client calls right before a releasing `finish`. -/
def RunsBeforeFinish (out : List StreamPart) : Prop :=
  ∀ before call after, out = before ++ call :: after → isClientCall call = true →
    ∃ calls finish rest, after = calls ++ finish :: rest ∧ calls.all isClientCall = true ∧
      releases finish = true

theorem RunsBeforeFinish.append {a b : List StreamPart} (ha : RunsBeforeFinish a)
    (hb : RunsBeforeFinish b) : RunsBeforeFinish (a ++ b) := by
  intro before call after hSplit hCall
  rcases List.append_eq_append_iff.mp hSplit with ⟨middle, rfl, hb'⟩ | ⟨middle, ha', hRest⟩
  · exact hb middle call after hb' hCall
  · cases middle with
    | nil => exact hb [] call after (by simpa using hRest.symm) hCall
    | cons head middle =>
      obtain ⟨rfl, rfl⟩ := List.cons.inj hRest
      obtain ⟨calls, finish, rest, rfl, hCalls, hFinish⟩ := ha before call middle ha' hCall
      exact ⟨calls, finish, rest ++ b, by simp, hCalls, hFinish⟩

theorem runsBeforeFinish_singleton (h : isClientCall part = false) :
    RunsBeforeFinish [part] := by
  intro before call after hSplit hCall
  have hMem : call ∈ [part] := hSplit ▸ by simp
  rw [List.mem_singleton.mp hMem, h] at hCall
  cases hCall

theorem runsBeforeFinish_release {calls : List StreamPart} (hCalls : calls.all isClientCall = true)
    {finish : StreamPart} (hFinish : releases finish = true) : RunsBeforeFinish (calls ++ [finish]) := by
  induction calls with
  | nil => exact runsBeforeFinish_singleton (by cases finish <;> simp_all [releases, isClientCall])
  | cons head rest ih =>
    rw [List.all_cons, Bool.and_eq_true] at hCalls
    intro before call after hSplit hCall
    cases before with
    | nil =>
      obtain ⟨rfl, rfl⟩ := List.cons.inj hSplit
      exact ⟨rest, finish, [], rfl, hCalls.2, hFinish⟩
    | cons _ before => exact ih hCalls.2 before call after (List.cons.inj hSplit).2 hCall

/-! ## One part -/

structure Guarded (state : StrictParts) (accepted out : List StreamPart) : Prop where
  blocks : ∀ block id, Lifecycle (decide (id ∈ state.isOpen block)) (blockSteps block id out)
  held : state.held = pending accepted
  calls : out.filter isClientCall = released accepted
  others : (out.filter fun part => !isClientCall part) = accepted.filter fun part => !isClientCall part
  runs : RunsBeforeFinish out
  finished : state.finished = accepted.any isFinish
  errored : state.errored = accepted.any isErrorPart
  running : state.failed = false

theorem Guarded.initial : Guarded {} [] [] where
  blocks := by
    intro block id
    cases block <;> exact .nil
  held := rfl
  calls := rfl
  others := rfl
  runs := by
    intro before call after hSplit
    simp at hSplit
  finished := rfl
  errored := rfl
  running := rfl

variable (self : StrictParts)

@[simp] theorem isOpen_setOpen_self (block : Block) (ids : Finset String) : (self.setOpen block ids).isOpen block = ids := by
  cases block <;> rfl

theorem isOpen_setOpen_ne {block other : Block} (h : other ≠ block) (ids : Finset String) :
    (self.setOpen block ids).isOpen other = self.isOpen other := by
  cases block <;> cases other <;> first | rfl | exact absurd rfl h

def SameCalls (self self' : StrictParts) : Prop :=
  self'.held = self.held ∧ self'.completedCalls = self.completedCalls ∧
    self'.finished = self.finished ∧ self'.errored = self.errored ∧ self'.failed = self.failed

theorem sameCalls_setOpen (block : Block) (ids : Finset String) : SameCalls self (self.setOpen block ids) := by
  cases block <;> exact ⟨rfl, rfl, rfl, rfl, rfl⟩

/-- A part that passes `track` extends the lifecycle of its own block and no other. -/
theorem track_spec (block : Block) (id : String) (step : Block.Step) (controller : Controller StreamPart) :
    (∃ self', self.track block id step controller = (true, self', controller) ∧ SameCalls self self' ∧
      (∀ steps, Lifecycle (decide (id ∈ self.isOpen block)) steps →
        Lifecycle (decide (id ∈ self'.isOpen block)) (steps ++ [step])) ∧
      ∀ other i, ¬(block = other ∧ id = i) → (i ∈ self'.isOpen other ↔ i ∈ self.isOpen other)) ∨
    ∃ problem, self.track block id step controller = (false, self.fail problem controller) := by
  have hOther : ∀ (ids : Finset String), (∀ i, i ≠ id → (i ∈ ids ↔ i ∈ self.isOpen block)) →
      ∀ other i, ¬(block = other ∧ id = i) →
        (i ∈ (self.setOpen block ids).isOpen other ↔ i ∈ self.isOpen other) := by
    intro ids hIds other i hNe
    by_cases hBlock : other = block
    · subst hBlock
      rw [isOpen_setOpen_self]
      exact hIds i fun hEq => hNe ⟨rfl, hEq.symm⟩
    · rw [isOpen_setOpen_ne self hBlock]
  cases step with
  | start =>
    by_cases h : id ∈ self.isOpen block
    · exact .inr ⟨_, if_pos h⟩
    · refine .inl ⟨self.setOpen block (insert id (self.isOpen block)), by simp [track, h],
        sameCalls_setOpen .., ?_, hOther _ ?_⟩
      · intro steps hSteps
        rw [isOpen_setOpen_self]
        simp only [h, decide_false, Finset.mem_insert_self, decide_true] at hSteps ⊢
        exact .start hSteps
      · intro i hi
        simp [hi]
  | «continue» kind =>
    by_cases h : id ∈ self.isOpen block
    · refine .inl ⟨self, by simp [track, h], ⟨rfl, rfl, rfl, rfl, rfl⟩, ?_, fun _ _ _ => .rfl⟩
      intro steps hSteps
      simp only [h, decide_true] at hSteps ⊢
      exact .continue kind hSteps
    · exact .inr ⟨_, if_neg h⟩
  | «end» =>
    by_cases h : id ∈ self.isOpen block
    · refine .inl ⟨self.setOpen block ((self.isOpen block).erase id), by simp [track, h],
        sameCalls_setOpen .., ?_, hOther _ ?_⟩
      · intro steps hSteps
        rw [isOpen_setOpen_self]
        simp only [h, decide_true, Finset.notMem_erase, decide_false] at hSteps ⊢
        exact .end hSteps
      · intro i hi
        simp [hi]
    · exact .inr ⟨_, if_neg h⟩

theorem blockSteps_eq_nil_of_client {calls : List StreamPart} (h : ∀ call ∈ calls, isClientCall call = true)
    (block : Block) (id : String) : blockSteps block id calls = [] := by
  refine List.filterMap_eq_nil_iff.mpr ?_
  intro call hCall
  have hClient := h call hCall
  cases call with
  | toolCall _ => rfl
  | _ => cases hClient

theorem deliver_client (h : isClientCall part = true) (controller : Controller StreamPart) :
    ∃ completed, self.deliver part controller =
      ({ self with completedCalls := completed, held := self.held ++ [part] }, controller) := by
  cases part with
  | toolCall call =>
    refine ⟨insert call.toolCallId self.completedCalls, ?_⟩
    have hExecuted : call.providerExecuted ≠ some true := by simpa [isClientCall] using h
    simp only [deliver, if_pos hExecuted]
  | _ => cases h

theorem deliver_finish (h : isFinish part = true) (out : List StreamPart) :
    self.deliver part (.emitted out) =
      ({ self with held := [], finished := true },
        .emitted (out ++ (if releases part then self.held else []) ++ [part])) := by
  cases part with
  | finish finishReason usage metadata =>
    by_cases hError : finishReason.unified = .error <;> simp [deliver, releases, hError]
  | _ => cases h

theorem deliver_other (hCall : isClientCall part = false) (hFinish : isFinish part = false)
    (controller : Controller StreamPart) :
    self.deliver part controller =
      ({ self with errored := self.errored || isErrorPart part }, controller.enqueue part) := by
  cases part with
  | toolCall call =>
    have hExecuted : call.providerExecuted = some true := by simpa [isClientCall] using hCall
    simp [deliver, hExecuted, isErrorPart]
  | finish => cases hFinish
  | _ => simp [deliver, isErrorPart]

theorem Guarded.deliver {state tracked : StrictParts} {accepted out : List StreamPart}
    (h : Guarded state accepted out) (same : SameCalls state tracked) (part : StreamPart)
    (hBlocks : ∀ block id, Lifecycle (decide (id ∈ tracked.isOpen block))
      (blockSteps block id (out ++ [part]))) :
    ∃ state' out', tracked.deliver part (.emitted out) = (state', .emitted out') ∧
      Guarded state' (accepted ++ [part]) out' := by
  obtain ⟨hHeld, -, hFinished, hErrored, hFailed⟩ := same
  cases hCall : isClientCall part with
  | true =>
    obtain ⟨completed, hDeliver⟩ := tracked.deliver_client hCall (.emitted out)
    have hNotFinish : isFinish part = false := by cases part <;> simp_all [isClientCall, isFinish]
    have hNotError : isErrorPart part = false := by cases part <;> simp_all [isClientCall, isErrorPart]
    refine ⟨_, out, hDeliver, ?_⟩
    constructor
    case blocks =>
      intro block id
      have hNil : blockSteps block id [part] = [] := blockSteps_eq_nil_of_client (by simpa using hCall) ..
      have hSteps := hBlocks block id
      rw [blockSteps_append, hNil, List.append_nil] at hSteps
      exact hSteps
    case held =>
      rw [pending_concat_of_not_finish accepted hNotFinish, if_pos hCall, ← h.held, ← hHeld]
    case calls => rw [released_concat_of_not_finish accepted hNotFinish, h.calls]
    case others => simp [h.others, hCall]
    case runs => exact h.runs
    case finished => simp [hFinished, h.finished, hNotFinish]
    case errored => simp [hErrored, h.errored, hNotError]
    case running => exact hFailed.trans h.running
  | false =>
    cases hFinish : isFinish part with
    | true =>
      have hNotError : isErrorPart part = false := by cases part <;> simp_all [isFinish, isErrorPart]
      have hClient : ∀ call ∈ (if releases part then tracked.held else []), isClientCall call = true := by
        intro call hMem
        split at hMem
        · exact pending_client (h.held ▸ hHeld ▸ hMem)
        · cases hMem
      refine ⟨_, _, tracked.deliver_finish hFinish out, ?_⟩
      constructor
      case blocks =>
        intro block id
        have hSteps := hBlocks block id
        rw [blockSteps_append] at hSteps
        rw [blockSteps_append, blockSteps_append, blockSteps_eq_nil_of_client hClient, List.append_nil]
        exact hSteps
      case held => rw [pending_concat_finish accepted hFinish]
      case calls =>
        have hFilter := List.filter_eq_self.mpr hClient
        rw [List.filter_append, List.filter_append, hFilter, h.calls,
          released_concat_finish accepted hFinish, hHeld, h.held]
        simp [hCall]
      case others =>
        have hFilter : (if releases part then tracked.held else []).filter
            (fun part => !isClientCall part) = [] := by
          refine List.filter_eq_nil_iff.mpr ?_
          intro call hMem
          simp [hClient call hMem]
        simp [h.others, hFilter, hCall]
      case runs =>
        rw [List.append_assoc]
        refine h.runs.append ?_
        split
        · rename_i hReleases
          exact runsBeforeFinish_release (List.all_eq_true.mpr (by simpa [hReleases] using hClient)) hReleases
        · exact runsBeforeFinish_singleton hCall
      case finished => simp [hFinish]
      case errored => simp [hErrored, h.errored, hNotError]
      case running => exact hFailed.trans h.running
    | false =>
      have hDeliver := tracked.deliver_other hCall hFinish (.emitted out)
      rw [Controller.enqueue_emitted] at hDeliver
      refine ⟨_, _, hDeliver, ?_⟩
      constructor
      case blocks => exact hBlocks
      case held =>
        rw [pending_concat_of_not_finish accepted hFinish, hCall, ← h.held]
        simpa using hHeld
      case calls => simp [released_concat_of_not_finish accepted hFinish, h.calls, hCall]
      case others => simp [h.others]
      case runs => exact h.runs.append (runsBeforeFinish_singleton hCall)
      case finished => simp [hFinished, h.finished, hFinish]
      case errored => simp [hErrored, h.errored]
      case running => exact hFailed.trans h.running

theorem Guarded.transform {state : StrictParts} {accepted out : List StreamPart}
    (h : Guarded state accepted out) (part : StreamPart) :
    (∃ state' out', state.transform (.ok part) (.emitted out) = (state', .emitted out') ∧
      Guarded state' (accepted ++ [part]) out') ∨
    ∃ state' e, state.transform (.ok part) (.emitted out) =
      (state', (Controller.emitted out).error e) := by
  cases hTracked : tracked part with
  | none =>
    left
    simp only [StrictParts.transform, hTracked]
    refine h.deliver ⟨rfl, rfl, rfl, rfl, rfl⟩ part ?_
    intro block id
    rw [blockSteps_append]
    simpa [blockSteps, blockStep, hTracked] using h.blocks block id
  | some t =>
    obtain ⟨block, id, step⟩ := t
    simp only [StrictParts.transform, hTracked]
    split
    · exact .inr ⟨_, _, rfl⟩
    · rcases state.track_spec block id step (.emitted out) with
        ⟨self', hTrack, same, hOwn, hOther⟩ | ⟨problem, hTrack⟩
      · left
        simp only [hTrack]
        refine h.deliver same part ?_
        intro block' id'
        rw [blockSteps_append]
        by_cases hSame : block = block' ∧ id = id'
        · obtain ⟨rfl, rfl⟩ := hSame
          simpa [blockSteps, blockStep, hTracked] using hOwn _ (h.blocks block id)
        · have hSteps := h.blocks block' id'
          simpa [blockSteps, blockStep, hTracked, hSame, hOther block' id' hSame] using hSteps
      · right
        simp only [hTrack]
        exact ⟨_, _, rfl⟩

/-! ## Whole streams -/

/-- The guard keeps the invariant up to the item at which it fails the stream, if there is one. -/
theorem Guarded.transformAll (input : List (Item StreamPart)) : ∀ {state : StrictParts}
    {accepted out : List StreamPart}, Guarded state accepted out →
    ∃ more rest last out', input = more.map .ok ++ rest ∧ Guarded last (accepted ++ more) out' ∧
      ((rest = [] ∧ transformer.transformAll (state, .emitted out) input = (last, .emitted out')) ∨
        (rest ≠ [] ∧ ∃ state' e, transformer.transformAll (state, .emitted out) input =
            (state', (Controller.emitted out').error e) ∧
          ∀ e' rest', rest = .error e' :: rest' → e' = e)) := by
  induction input with
  | nil =>
    intro state accepted out h
    exact ⟨[], [], state, out, rfl, by simpa using h, .inl ⟨rfl, rfl⟩⟩
  | cons item input ih =>
    intro state accepted out h
    have hStep : transformer.transformAll (state, .emitted out) (item :: input) =
        transformer.transformAll (state.transform item (.emitted out)) input := rfl
    rw [hStep]
    cases item with
    | error e =>
      refine ⟨[], .error e :: input, state, out, rfl, by simpa using h,
        .inr ⟨by simp, { state with failed := true, held := [] }, e, ?_, ?_⟩⟩
      · exact transformer.transformAll_closed _ (Controller.error_closed ..) input
      · rintro e' rest' hEq
        injection hEq with hItem
        injection hItem with hItem
        exact hItem.symm
    | ok part =>
      rcases h.transform part with ⟨state', out', hTransform, h'⟩ | ⟨state', e, hTransform⟩
      · obtain ⟨more, rest, last, final, rfl, hLast, hRun⟩ := ih h'
        rw [hTransform]
        exact ⟨part :: more, rest, last, final, rfl, by simpa using hLast, hRun⟩
      · refine ⟨[], .ok part :: input, state, out, rfl, by simpa using h, .inr ⟨by simp, state', e, ?_, ?_⟩⟩
        · rw [hTransform]
          exact transformer.transformAll_closed _ (Controller.error_closed ..) input
        · rintro e' rest' hEq
          injection hEq with hItem
          cases hItem

/-- Everything the guard emits for a stream. The guard accepts an initial part of the input. With no
terminal error that is the whole input, and it holds a `finish` or an error part; an error item
of the input becomes the terminal error. -/
theorem guard_output (input : List (Item StreamPart)) :
    ∃ (accepted : List StreamPart) (rest : List (Item StreamPart)) (out : List StreamPart)
      (terminal : Option AiMuxError),
      input = accepted.map .ok ++ rest ∧
      transformer.pipeThrough input = out.map .ok ++ (terminal.map .error).toList ∧
      (terminal = none ↔ rest = [] ∧ (accepted.any isFinish || accepted.any isErrorPart) = true) ∧
      (∀ e rest', rest = .error e :: rest' → terminal = some e) ∧
      (∀ block id, ∃ isOpen, Lifecycle isOpen (blockSteps block id out)) ∧
      RunsBeforeFinish out ∧
      out.filter isClientCall = released accepted ∧
      (out.filter isClientCall).Sublist accepted ∧
      (out.filter fun part => !isClientCall part) = accepted.filter fun part => !isClientCall part := by
  obtain ⟨accepted, rest, last, out, hInput, h, hRun⟩ := Guarded.initial.transformAll input
  rw [List.nil_append] at h
  have hBlocks : ∀ block id, ∃ isOpen, Lifecycle isOpen (blockSteps block id out) :=
    fun block id => ⟨_, h.blocks block id⟩
  have hOrder : (out.filter isClientCall).Sublist accepted := h.calls ▸ released_sublist accepted
  rcases hRun with ⟨rfl, hRun⟩ | ⟨hRest, state', e, hRun, hError⟩
  · have hPipe : transformer.pipeThrough input = (last.flush (.emitted out)).queue := by
      have hStart : transformer.transformAll (transformer.start transformer.initial {}) input =
        (last, .emitted out) := hRun
      simp only [Transformer.pipeThrough, hStart]
      rfl
    have hFlags : (last.finished || last.errored) = (accepted.any isFinish || accepted.any isErrorPart) := by
      rw [h.finished, h.errored]
    cases hDone : accepted.any isFinish || accepted.any isErrorPart with
    | true =>
      refine ⟨accepted, [], out, none, hInput, ?_, by simp [hDone], by simp, hBlocks, h.runs, h.calls, hOrder, h.others⟩
      have hFlush : last.flush (.emitted out) = .emitted out := by
        rw [hDone, Bool.or_eq_true] at hFlags
        rcases hFlags with hFinished | hErrored
        · simp [flush, hFinished]
        · simp [flush, hErrored]
      rw [hPipe, hFlush]
      simp [Controller.emitted]
    | false =>
      refine ⟨accepted, [], out, some (strictError "the stream ended without a finish part"), hInput, ?_,
        by simp [hDone], by simp, hBlocks, h.runs, h.calls, hOrder, h.others⟩
      rw [hDone, Bool.or_eq_false_iff] at hFlags
      have hFlush : last.flush (.emitted out) =
          (Controller.emitted out).error (strictError "the stream ended without a finish part") := by
        simp [flush, h.running, hFlags, fail]
      rw [hPipe, hFlush]
      rfl
  · refine ⟨accepted, rest, out, some e, hInput, ?_, by simp [hRest], ?_, hBlocks, h.runs, h.calls, hOrder, h.others⟩
    · have hStart : transformer.transformAll (transformer.start transformer.initial {}) input =
        (state', (Controller.emitted out).error e) := hRun
      simp only [Transformer.pipeThrough, hStart]
      rfl
    · rintro e' rest' hEq
      rw [hError e' rest' hEq]

def reopenedInput : List (Item StreamPart) :=
  [.ok (.textStart "a" none), .ok (.textEnd "a" none), .ok (.textStart "a" none),
    .ok (.toolCall { toolCallId := "x", toolName := "f", input := "[]" }),
    .ok (.finish ⟨.toolCalls, none⟩ {} none),
    .ok (.toolCall { toolCallId := "y", toolName := "f", input := "[]" }),
    .ok (.finish ⟨.toolCalls, none⟩ {} none),
    .error (.timeout "read timed out")]

/-- An id may be used for a second block, a second `finish` releases a second run of calls, and an
error after `finish` cannot take back what was delivered. -/
theorem guard_reopens_and_releases_twice :
    let output := transformer.pipeThrough reopenedInput
    let out := parts output
    ¬ (blockSteps .text "a" out).count .start ≤ 1 ∧
    ¬ (∀ before first between last after, out = before ++ first :: between ++ last :: after →
      isClientCall first = true → isClientCall last = true → between.all isClientCall = true) ∧
    ¬ ((∃ e, .error e ∈ output) → out.any isClientCall = false) := by
  have hOutput : transformer.pipeThrough reopenedInput = reopenedInput := rfl
  refine ⟨by decide, ?_, ?_⟩
  · intro h
    have hBetween := h ((parts (transformer.pipeThrough reopenedInput)).take 3) _ [.finish ⟨.toolCalls, none⟩ {} none] _ [.finish ⟨.toolCalls, none⟩ {} none] rfl rfl rfl
    cases hBetween
  · intro h
    have hError : .error (.timeout "read timed out") ∈ transformer.pipeThrough reopenedInput := by
      rw [hOutput]
      simp [reopenedInput]
    exact absurd (h ⟨_, hError⟩) (by decide)

end Aimux.Provider.StrictParts
