import Aimux.Provider.TransformStream

/-! # Pulling from a transform stream

`PipeThrough` hands out what the transformer emitted and polls its input only when nothing is left. An
input stream is what its polls answer, one after the other; a pull may loop over several polls, so it is
given fuel.
-/

namespace Aimux.Provider

open Aimux.Core

inductive Poll (α : Type) where
  | pending
  | ready (value : α)

structure PipeThrough {I O : Type} (transformer : Transformer I O) where
  /-- How often the input was polled. -/
  polls : Nat
  /-- `none` once `flush` has run. -/
  transformer : Option transformer.State
  controller : Controller O

namespace Transformer

variable {I O : Type} (transformer : Transformer I O)

def pipe : PipeThrough transformer where
  polls := 0
  transformer := some (transformer.start transformer.initial {}).1
  controller := (transformer.start transformer.initial {}).2

variable {transformer} (input : Nat → Poll (Option I))

/-- `none` where the loop is still running. -/
def pollNext : Nat → PipeThrough transformer → Option (Poll (Option (Item O)) × PipeThrough transformer)
  | 0, _ => none
  | fuel + 1, this =>
    match this.controller.queue with
    | item :: rest => some (.ready (some item), { this with controller := { this.controller with queue := rest } })
    | [] =>
      if this.controller.closed then some (.ready none, this)
      else
        match this.transformer with
        | none => some (.ready none, this)
        | some state =>
          match input this.polls with
          | .pending => some (.pending, { this with polls := this.polls + 1 })
          | .ready (some chunk) =>
            let called := transformer.transform state chunk this.controller
            pollNext fuel { polls := this.polls + 1, transformer := some called.1, controller := called.2 }
          | .ready none =>
            pollNext fuel
              { polls := this.polls + 1, transformer := none, controller := transformer.flush state this.controller }

/-- A number of pulls, one after the other. -/
def pulls (fuel : Nat) : Nat → PipeThrough transformer →
    Option (List (Poll (Option (Item O))) × PipeThrough transformer)
  | 0, this => some ([], this)
  | n + 1, this =>
    (pollNext input fuel this).bind fun first =>
      (pulls fuel n first.2).map fun rest => (first.1 :: rest.1, rest.2)

end Transformer

def pulledItem {O : Type} : Poll (Option (Item O)) → Option (Item O)
  | .ready item => item
  | .pending => none

def pulledItems {O : Type} (answers : List (Poll (Option (Item O)))) : List (Item O) :=
  answers.filterMap pulledItem

/-! ## The input -/

/-- The chunks in answers of the input, up to its end. -/
def delivered {I : Type} : List (Poll (Option I)) → List I
  | [] => []
  | .pending :: rest => delivered rest
  | .ready (some chunk) :: rest => chunk :: delivered rest
  | .ready none :: _ => []

section Input

variable {I : Type} (input : Nat → Poll (Option I))

def chunks (polls : Nat) : List I := delivered ((List.range polls).map input)

def Ended (polls : Nat) : Prop := ∃ n < polls, input n = .ready none

theorem delivered_append_of_open {answers : List (Poll (Option I))} (hOpen : .ready none ∉ answers)
    (rest : List (Poll (Option I))) : delivered (answers ++ rest) = delivered answers ++ delivered rest := by
  induction answers with
  | nil => rfl
  | cons answer answers ih =>
    rw [List.mem_cons, not_or] at hOpen
    match answer with
    | .pending => exact ih hOpen.2
    | .ready (some chunk) => exact congrArg (chunk :: ·) (ih hOpen.2)
    | .ready none => exact absurd rfl hOpen.1

theorem delivered_append_of_ended {answers : List (Poll (Option I))} (hEnded : .ready none ∈ answers)
    (rest : List (Poll (Option I))) : delivered (answers ++ rest) = delivered answers := by
  induction answers with
  | nil => cases hEnded
  | cons answer answers ih =>
    match answer with
    | .pending => exact ih (by simpa using hEnded)
    | .ready (some chunk) => exact congrArg (chunk :: ·) (ih (by simpa using hEnded))
    | .ready none => rfl

theorem ended_iff (polls : Nat) : Ended input polls ↔ .ready none ∈ (List.range polls).map input := by
  simp [Ended]

theorem range_map_append {polls later : Nat} (hLater : polls ≤ later) :
    ∃ rest, (List.range later).map input = (List.range polls).map input ++ rest := by
  obtain ⟨more, rfl⟩ := Nat.exists_eq_add_of_le hLater
  exact ⟨_, by rw [List.range_add, List.map_append]⟩

theorem chunks_of_ended {polls later : Nat} (hEnded : Ended input polls) (hLater : polls ≤ later) :
    chunks input later = chunks input polls := by
  obtain ⟨rest, hRest⟩ := range_map_append input hLater
  rw [chunks, chunks, hRest, delivered_append_of_ended ((ended_iff input polls).mp hEnded)]

theorem chunks_of_open {polls later : Nat} (hOpen : ¬Ended input polls) (hLater : polls ≤ later) :
    ∃ rest, chunks input later = chunks input polls ++ rest := by
  obtain ⟨rest, hRest⟩ := range_map_append input hLater
  exact ⟨_, by rw [chunks, chunks, hRest, delivered_append_of_open fun h => hOpen ((ended_iff input polls).mpr h)]⟩

theorem chunks_succ {polls : Nat} (hOpen : ¬Ended input polls) :
    chunks input (polls + 1) = chunks input polls ++ delivered [input polls] := by
  rw [chunks, List.range_succ, List.map_append,
    delivered_append_of_open fun h => hOpen ((ended_iff input polls).mpr h)]
  rfl

theorem ended_succ {polls : Nat} (hOpen : ¬Ended input polls) :
    Ended input (polls + 1) ↔ input polls = .ready none := by
  constructor
  · rintro ⟨n, hn, hEnd⟩
    rcases Nat.lt_succ_iff_lt_or_eq.mp hn with hBefore | rfl
    · exact absurd ⟨n, hBefore, hEnd⟩ hOpen
    · exact hEnd
  · intro hEnd
    exact ⟨polls, Nat.lt_succ_self polls, hEnd⟩

end Input

/-! ## The batch run -/

/-- What calls of a transformer have emitted, each into a controller of its own. -/
structure Batch (State O : Type) where
  state : State
  items : List (Item O)
  closed : Bool

namespace Transformer

variable {I O : Type} (transformer : Transformer I O)

def started : Batch transformer.State O where
  state := (transformer.start transformer.initial {}).1
  items := (transformer.start transformer.initial {}).2.queue
  closed := (transformer.start transformer.initial {}).2.closed

def feed (batch : Batch transformer.State O) (chunk : I) : Batch transformer.State O :=
  if batch.closed then batch
  else
    let called := transformer.transform batch.state chunk {}
    { state := called.1, items := batch.items ++ called.2.queue, closed := called.2.closed }

/-- The items of `start`, then of `transform` on each chunk until the transformer closes. -/
def fed (input : List I) : Batch transformer.State O := input.foldl transformer.feed transformer.started

/-- And then of `flush`, if it did not close. -/
def batchItems (input : List I) : List (Item O) :=
  let batch := transformer.fed input
  if batch.closed then batch.items else batch.items ++ (transformer.flush batch.state {}).queue

theorem foldl_feed_closed {batch : Batch transformer.State O} (hClosed : batch.closed = true) (input : List I) :
    input.foldl transformer.feed batch = batch := by
  induction input with
  | nil => rfl
  | cons chunk input ih => rw [List.foldl_cons, feed, if_pos hClosed, ih]

theorem foldl_feed_items (batch : Batch transformer.State O) (input : List I) :
    batch.items <+: (input.foldl transformer.feed batch).items := by
  induction input generalizing batch with
  | nil => exact List.prefix_refl _
  | cons chunk input ih =>
    refine List.IsPrefix.trans ?_ (ih (transformer.feed batch chunk))
    unfold feed
    split
    · exact List.prefix_refl _
    · exact List.prefix_append _ _

theorem fed_append (first rest : List I) :
    transformer.fed (first ++ rest) = rest.foldl transformer.feed (transformer.fed first) :=
  List.foldl_append

theorem fed_closed {first : List I} (hClosed : (transformer.fed first).closed = true) (rest : List I) :
    transformer.fed (first ++ rest) = transformer.fed first := by
  rw [fed_append, foldl_feed_closed transformer hClosed]

theorem fed_items_prefix (input : List I) : (transformer.fed input).items <+: transformer.batchItems input := by
  simp only [batchItems]
  split
  · exact List.prefix_refl _
  · exact List.prefix_append _ _

theorem fed_concat {first : List I} (hOpen : (transformer.fed first).closed = false) (chunk : I) :
    transformer.fed (first ++ [chunk]) =
      { state := (transformer.transform (transformer.fed first).state chunk {}).1
        items := (transformer.fed first).items ++ (transformer.transform (transformer.fed first).state chunk {}).2.queue
        closed := (transformer.transform (transformer.fed first).state chunk {}).2.closed } := by
  rw [fed_append, List.foldl_cons, List.foldl_nil, feed, hOpen]
  rfl

end Transformer

/-! ## The pulled items -/

section Simulation

variable {I O : Type} {transformer : Transformer I O} (input : Nat → Poll (Option I))

/-- A stream and the items pulled from it, while the transformer is there and after it is flushed. -/
inductive Pulled (this : PipeThrough transformer) (items : List (Item O)) : Prop where
  | running (hOpen : ¬Ended input this.polls)
      (hState : this.transformer = some (transformer.fed (chunks input this.polls)).state)
      (hClosed : this.controller.closed = (transformer.fed (chunks input this.polls)).closed)
      (hItems : items ++ this.controller.queue = (transformer.fed (chunks input this.polls)).items)
  | flushed (hEnded : Ended input this.polls) (hNone : this.transformer = none)
      (hClosed : (transformer.fed (chunks input this.polls)).closed = false)
      (hItems : items ++ this.controller.queue = transformer.batchItems (chunks input this.polls))

theorem pulled_pipe : Pulled input transformer.pipe [] :=
  .running (by rintro ⟨n, hn, _⟩; exact absurd hn (Nat.not_lt_zero n)) rfl rfl rfl

/-- Nothing is left to hand out and nothing will come. -/
def Done (this : PipeThrough transformer) : Prop :=
  this.controller.queue = [] ∧ (this.controller.closed = true ∨ this.transformer = none)

namespace Pulled

variable {input} {this next : PipeThrough transformer} {items : List (Item O)}

/-- What was pulled is a first part of the batch run over whatever the input goes on to deliver. -/
theorem isPrefix (h : Pulled input this items) {later : Nat} (hLater : this.polls ≤ later) :
    items <+: transformer.batchItems (chunks input later) := by
  cases h with
  | running hOpen hState hClosed hItems =>
    obtain ⟨rest, hRest⟩ := chunks_of_open input hOpen hLater
    have hFed := transformer.foldl_feed_items (transformer.fed (chunks input this.polls)) rest
    rw [← Transformer.fed_append, ← hRest] at hFed
    exact (hItems ▸ List.prefix_append items _).trans (hFed.trans (transformer.fed_items_prefix _))
  | flushed hEnded hNone hClosed hItems =>
    rw [chunks_of_ended input hEnded hLater, ← hItems]
    exact List.prefix_append items _

theorem eq_batch (h : Pulled input this items) (hDone : Done this) {later : Nat} (hLater : this.polls ≤ later) :
    items = transformer.batchItems (chunks input later) := by
  obtain ⟨hQueue, hEnd⟩ := hDone
  cases h with
  | running hOpen hState hClosed hItems =>
    rw [hState] at hEnd
    have hFed : (transformer.fed (chunks input this.polls)).closed = true := hClosed ▸ hEnd.resolve_right (by simp)
    obtain ⟨rest, hRest⟩ := chunks_of_open input hOpen hLater
    rw [hQueue, List.append_nil] at hItems
    simp only [Transformer.batchItems, hRest, transformer.fed_closed hFed, hFed, if_true, hItems]
  | flushed hEnded hNone hClosed hItems =>
    rw [hQueue, List.append_nil] at hItems
    rw [hItems, chunks_of_ended input hEnded hLater]

end Pulled

/-- What a pull leaves, by what it answers. -/
def Answered (this : PipeThrough transformer) (items : List (Item O)) :
    Poll (Option (Item O)) × PipeThrough transformer → Prop
  | (.ready (some item), next) => Pulled input next (items ++ [item]) ∧ this.polls ≤ next.polls
  | (.ready none, next) => Pulled input next items ∧ Done next ∧ this.polls ≤ next.polls
  | (.pending, next) => Pulled input next items ∧ this.polls < next.polls

variable {items : List (Item O)} {answer : Poll (Option (Item O)) × PipeThrough transformer}

theorem Answered.later {input : Nat → Poll (Option I)} {this mid : PipeThrough transformer}
    (h : Answered input mid items answer) (hLater : this.polls ≤ mid.polls) : Answered input this items answer := by
  match answer, h with
  | (.ready (some item), next), ⟨hPulled, hPolls⟩ => exact ⟨hPulled, hLater.trans hPolls⟩
  | (.ready none, next), ⟨hPulled, hDone, hPolls⟩ => exact ⟨hPulled, hDone, hLater.trans hPolls⟩
  | (.pending, next), ⟨hPulled, hPolls⟩ => exact ⟨hPulled, lt_of_le_of_lt hLater hPolls⟩

/-- A controller with nothing queued that is not closed is a new one. -/
theorem controller_eq_new {controller : Controller O} (hQueue : controller.queue = [])
    (hClosed : controller.closed = false) : controller = {} := by
  cases controller
  simp_all

namespace Pulled

variable {input} {this : PipeThrough transformer} {items : List (Item O)} {state : transformer.State}

section

variable (h : Pulled input this items) (hNew : this.controller = {}) (hState : this.transformer = some state)

include h hNew hState

/-- Where the loop polls its input, the batch run over what was delivered so far has come as far. -/
theorem caught_up : ¬Ended input this.polls ∧ (transformer.fed (chunks input this.polls)) = ⟨state, items, false⟩ := by
  cases h with
  | running hOpen hSome hClosed hItems =>
    rw [hNew, List.append_nil] at hItems
    have hFed : (transformer.fed (chunks input this.polls)).closed = false := by
      rw [← hClosed, hNew]
    refine ⟨hOpen, ?_⟩
    rw [hItems, Option.some.inj (hState.symm.trans hSome), ← hFed]
  | flushed hEnded hNone hClosed hItems =>
    rw [hNone] at hState
    cases hState

theorem polled_pending (hPoll : input this.polls = .pending) :
    Pulled input { this with polls := this.polls + 1 } items := by
  obtain ⟨hOpen, hFed⟩ := h.caught_up hNew hState
  have hChunks : chunks input (this.polls + 1) = chunks input this.polls := by
    simpa [hPoll, delivered] using chunks_succ input hOpen
  have hEnd := ended_succ input hOpen
  rw [hPoll] at hEnd
  refine .running (fun h => by cases hEnd.mp h) ?_ ?_ ?_
  · rw [hChunks, hFed, hState]
  · rw [hChunks, hFed, hNew]
  · rw [hChunks, hFed, hNew, List.append_nil]

theorem polled_chunk {chunk : I} (hPoll : input this.polls = .ready (some chunk)) :
    Pulled input
      { polls := this.polls + 1
        transformer := some (transformer.transform state chunk this.controller).1
        controller := (transformer.transform state chunk this.controller).2 } items := by
  obtain ⟨hOpen, hFed⟩ := h.caught_up hNew hState
  have hChunks : chunks input (this.polls + 1) = chunks input this.polls ++ [chunk] := by
    simpa [hPoll, delivered] using chunks_succ input hOpen
  have hEnd := ended_succ input hOpen
  rw [hPoll] at hEnd
  have hNext := transformer.fed_concat (congrArg Batch.closed hFed) chunk
  rw [← hChunks, hFed] at hNext
  refine .running (fun h => by cases hEnd.mp h) ?_ ?_ ?_
  · rw [hNext, hNew]
  · rw [hNext, hNew]
  · rw [hNext, hNew]

theorem polled_end (hPoll : input this.polls = .ready none) :
    @Pulled I O transformer input
      { polls := this.polls + 1
        transformer := none
        controller := transformer.flush state this.controller } items := by
  obtain ⟨hOpen, hFed⟩ := h.caught_up hNew hState
  have hChunks : chunks input (this.polls + 1) = chunks input this.polls := by
    simpa [hPoll, delivered] using chunks_succ input hOpen
  refine .flushed ((ended_succ input hOpen).mpr hPoll) rfl ?_ ?_
  · rw [hChunks, hFed]
  · rw [hChunks, Transformer.batchItems, hFed, hNew]
    rfl

end

end Pulled

variable {this : PipeThrough transformer}

theorem pollNext_answered (h : Pulled input this items) (fuel : Nat)
    (hPoll : Transformer.pollNext input fuel this = some answer) : Answered input this items answer := by
  induction fuel generalizing this with
  | zero => cases hPoll
  | succ fuel ih =>
    rw [Transformer.pollNext] at hPoll
    split at hPoll
    · rename_i item rest hQueue
      obtain rfl := Option.some.inj hPoll
      refine ⟨?_, le_refl _⟩
      cases h with
      | running hOpen hState hClosed hItems =>
        exact .running hOpen hState hClosed (by rw [← hItems, hQueue]; simp)
      | flushed hEnded hNone hClosed hItems =>
        exact .flushed hEnded hNone hClosed (by rw [← hItems, hQueue]; simp)
    · rename_i hQueue
      split at hPoll
      · rename_i hClosed
        obtain rfl := Option.some.inj hPoll
        exact ⟨h, ⟨hQueue, .inl hClosed⟩, le_refl _⟩
      · rename_i hNotClosed
        have hNew := controller_eq_new hQueue (Bool.eq_false_iff.mpr hNotClosed)
        split at hPoll
        · rename_i hNone
          obtain rfl := Option.some.inj hPoll
          exact ⟨h, ⟨hQueue, .inr hNone⟩, le_refl _⟩
        · rename_i state hState
          split at hPoll
          · rename_i hPending
            obtain rfl := Option.some.inj hPoll
            exact ⟨h.polled_pending hNew hState hPending, Nat.lt_succ_self _⟩
          · rename_i chunk hChunk
            exact (ih (h.polled_chunk hNew hState hChunk) hPoll).later (Nat.le_succ _)
          · rename_i hEnd
            exact (ih (h.polled_end hNew hState hEnd) hPoll).later (Nat.le_succ _)

theorem pollNext_done (hDone : Done this) (fuel : Nat) :
    Transformer.pollNext input (fuel + 1) this = some (.ready none, this) := by
  obtain ⟨hQueue, hEnd⟩ := hDone
  rw [Transformer.pollNext, hQueue]
  by_cases hClosed : this.controller.closed = true
  · simp [hClosed]
  · simp [hClosed, hEnd.resolve_left hClosed]

theorem pulls_done (hDone : Done this) (fuel n : Nat)
    {pulled : List (Poll (Option (Item O))) × PipeThrough transformer}
    (hPulls : Transformer.pulls input fuel n this = some pulled) : pulled = (List.replicate n (.ready none), this) := by
  induction n generalizing pulled with
  | zero => exact (Option.some.inj hPulls).symm
  | succ n ih =>
    cases fuel with
    | zero => cases hPulls
    | succ fuel =>
      rw [Transformer.pulls, pollNext_done input hDone, Option.bind_some] at hPulls
      obtain ⟨rest, hRest, rfl⟩ := Option.map_eq_some_iff.mp hPulls
      rw [ih hRest]
      rfl

/-- A number of pulls, one after the other, and what they leave. -/
theorem pulls_pulled (h : Pulled input this items)
    (fuel n : Nat) {answers : List (Poll (Option (Item O)))} {next : PipeThrough transformer}
    (hPulls : Transformer.pulls input fuel n this = some (answers, next)) :
    Pulled input next (items ++ pulledItems answers) ∧ (.ready none ∈ answers → Done next) ∧
      (.ready none ∉ answers → n + items.length + this.polls ≤ (items ++ pulledItems answers).length + next.polls) ∧
      ∀ before after, answers = before ++ Poll.ready none :: after → ∀ answer ∈ after, answer = Poll.ready none := by
  induction n generalizing this items answers with
  | zero =>
    cases hPulls
    refine ⟨by simpa [pulledItems] using h, by simp, by simp [pulledItems], by simp⟩
  | succ n ih =>
    rw [Transformer.pulls] at hPulls
    obtain ⟨first, hFirst, hMap⟩ := Option.bind_eq_some_iff.mp hPulls
    obtain ⟨⟨rest, last⟩, hRest, hAnswers⟩ := Option.map_eq_some_iff.mp hMap
    cases hAnswers
    clear hMap hPulls
    have hAnswered := pollNext_answered input h fuel hFirst
    match first, hAnswered with
    | (.ready none, mid), ⟨hMid, hDone, hPolls⟩ =>
      cases pulls_done input hDone fuel n hRest
      refine ⟨?_, fun _ => hDone, fun h => absurd List.mem_cons_self h, ?_⟩
      · have hNone (k : Nat) : pulledItems (List.replicate k (.ready none : Poll (Option (Item O)))) = [] :=
          List.filterMap_eq_nil_iff.mpr fun answer hAnswer => by rw [List.eq_of_mem_replicate hAnswer]; rfl
        simpa [← List.replicate_succ, hNone] using hMid
      · intro before after hSplit answer hAnswer
        have hMem : answer ∈ List.replicate (n + 1) (.ready none : Poll (Option (Item O))) := by
          rw [List.replicate_succ, hSplit]
          simp [hAnswer]
        exact List.eq_of_mem_replicate hMem
    | (.ready (some item), mid), ⟨hMid, hPolls⟩ =>
      obtain ⟨hNext, hDone, hCount, hAfter⟩ := ih hMid hRest
      have hItems : items ++ pulledItems (.ready (some item) :: rest) = items ++ [item] ++ pulledItems rest := by
        simp [pulledItems, pulledItem]
      rw [hItems]
      refine ⟨hNext, fun h => hDone (by simpa using h), fun h => ?_, ?_⟩
      · have := hCount (by simpa using h)
        simp only [List.length_append, List.length_singleton] at this ⊢
        omega
      · rintro (_ | ⟨head, before⟩) after hSplit
        · cases hSplit
        · exact hAfter before after (List.cons.inj hSplit).2
    | (.pending, mid), ⟨hMid, hPolls⟩ =>
      obtain ⟨hNext, hDone, hCount, hAfter⟩ := ih hMid hRest
      refine ⟨hNext, fun h => hDone (by simpa using h), fun h => ?_, ?_⟩
      · have := hCount (by simpa using h)
        simp only [pulledItems, List.filterMap_cons, pulledItem] at this ⊢
        omega
      · rintro (_ | ⟨head, before⟩) after hSplit
        · cases hSplit
        · exact hAfter before after (List.cons.inj hSplit).2

/-- The input ends or the transformer closes within a number of polls. -/
def Finishes (transformer : Transformer I O) (polls : Nat) : Prop :=
  Ended input polls ∨ (transformer.fed (chunks input polls)).closed = true

theorem pollNext_returns (h : Pulled input this items)
    {last : Nat} (hFinishes : Finishes input transformer last) (hLast : this.polls ≤ last) {fuel : Nat}
    (hFuel : last - this.polls < fuel) :
    ∃ answer, Transformer.pollNext input fuel this = some answer ∧ answer.2.polls ≤ last := by
  induction fuel generalizing this with
  | zero => exact absurd hFuel (Nat.not_lt_zero _)
  | succ fuel ih =>
    rw [Transformer.pollNext]
    split
    · exact ⟨_, rfl, hLast⟩
    · rename_i hQueue
      split
      · exact ⟨_, rfl, hLast⟩
      · rename_i hNotClosed
        have hNew := controller_eq_new hQueue (Bool.eq_false_iff.mpr hNotClosed)
        split
        · exact ⟨_, rfl, hLast⟩
        · rename_i state hState
          obtain ⟨hOpen, hFed⟩ := h.caught_up hNew hState
          have hBefore : this.polls < last := by
            refine lt_of_le_of_ne hLast fun hSame => ?_
            rw [← hSame] at hFinishes
            rcases hFinishes with hEnded | hClosed
            · exact hOpen hEnded
            · rw [hFed] at hClosed
              cases hClosed
          split
          · exact ⟨_, rfl, hBefore⟩
          · rename_i chunk hChunk
            exact ih (h.polled_chunk hNew hState hChunk) hBefore (by simp only; omega)
          · rename_i hEnd
            exact ih (h.polled_end hNew hState hEnd) hBefore (by simp only; omega)

theorem pulls_return (h : Pulled input this items)
    {last : Nat} (hFinishes : Finishes input transformer last) (hLast : this.polls ≤ last) {fuel : Nat}
    (hFuel : last < fuel) (n : Nat) :
    ∃ answers next, Transformer.pulls input fuel n this = some (answers, next) ∧ next.polls ≤ last := by
  induction n generalizing this items with
  | zero => exact ⟨[], this, rfl, hLast⟩
  | succ n ih =>
    obtain ⟨answer, hPoll, hPolls⟩ := pollNext_returns input h hFinishes hLast (by omega : last - this.polls < fuel)
    obtain ⟨items', hNext⟩ : ∃ items', Pulled input answer.2 items' := by
      have hAnswered := pollNext_answered input h fuel hPoll
      match answer, hAnswered with
      | (.ready (some item), next), ⟨hPulled, _⟩ => exact ⟨_, hPulled⟩
      | (.ready none, next), ⟨hPulled, _⟩ => exact ⟨_, hPulled⟩
      | (.pending, next), ⟨hPulled, _⟩ => exact ⟨_, hPulled⟩
    obtain ⟨answers, next, hPulls, hRest⟩ := ih hNext hPolls
    refine ⟨answer.1 :: answers, next, ?_, hRest⟩
    rw [Transformer.pulls, hPoll, Option.bind_some, hPulls]
    rfl

end Simulation

/-! ## Transformers that only emit -/

/-- A call adds to what is queued and is told of the controller only whether it is closed. -/
def Emits {S O : Type} (call : Controller O → S × Controller O) : Prop :=
  ∀ queue closed, call { queue, closed } =
    ((call { closed }).1, { queue := queue ++ (call { closed }).2.queue, closed := (call { closed }).2.closed })

namespace Emits

variable {S O : Type} (state : S)

theorem enqueue (value : O) : Emits fun controller => (state, controller.enqueue value) := by
  intro queue closed
  cases closed <;> simp [Controller.enqueue]

theorem enqueueError (error : AiMuxError) :
    Emits fun controller : Controller O => (state, controller.enqueueError error) := by
  intro queue closed
  cases closed <;> simp [Controller.enqueueError]

theorem error (error : AiMuxError) : Emits fun controller : Controller O => (state, controller.error error) := by
  intro queue closed
  cases closed <;> simp [Controller.error]

end Emits

structure Transformer.EmitsOnly {I O : Type} (transformer : Transformer I O) : Prop where
  transform : ∀ state chunk, Emits (transformer.transform state chunk)
  flush : ∀ state, Emits fun controller => ((), transformer.flush state controller)

namespace Transformer

variable {I O : Type} {transformer : Transformer I O}

theorem EmitsOnly.transformAll (h : transformer.EmitsOnly) (batch : Batch transformer.State O) (input : List I) :
    transformer.transformAll (batch.state, { queue := batch.items, closed := batch.closed }) input =
      ((input.foldl transformer.feed batch).state,
        { queue := (input.foldl transformer.feed batch).items
          closed := (input.foldl transformer.feed batch).closed }) := by
  induction input generalizing batch with
  | nil => rfl
  | cons chunk input ih =>
    obtain ⟨state, items, closed⟩ := batch
    cases closed with
    | true =>
      rw [foldl_feed_closed transformer rfl, transformAll_closed transformer state rfl]
    | false =>
      rw [Transformer.transformAll, List.foldl_cons, feed]
      simp only [Bool.false_eq_true, if_false]
      rw [h.transform state chunk items false]
      exact ih { state := (transformer.transform state chunk {}).1, items := _, closed := _ }

/-- For a transformer that only emits, one controller for all calls does as well as one for each. -/
theorem EmitsOnly.batchItems_eq (h : transformer.EmitsOnly) (input : List I) :
    transformer.batchItems input = transformer.pipeThrough input := by
  have hAll : transformer.transformAll (transformer.start transformer.initial {}) input =
      ((transformer.fed input).state,
        { queue := (transformer.fed input).items, closed := (transformer.fed input).closed }) :=
    h.transformAll transformer.started input
  simp only [batchItems, pipeThrough, hAll]
  have hFlush := h.flush (transformer.fed input).state (transformer.fed input).items false
  simp only [Prod.mk.injEq, true_and] at hFlush
  cases hClosed : (transformer.fed input).closed with
  | true => rfl
  | false => simp only [Bool.false_eq_true, if_false, hFlush]

end Transformer

/-! ## The pulled items are those of the batch run -/

/-- For every transformer, every input stream and every number of pulls. -/
theorem pulls_eq_batch {I O : Type} (transformer : Transformer I O) (input : Nat → Poll (Option I)) :
    (∀ fuel n answers this, Transformer.pulls input fuel n transformer.pipe = some (answers, this) →
      (∀ later, this.polls ≤ later →
        pulledItems answers <+: transformer.batchItems (chunks input later) ∧
        (.ready none ∈ answers → pulledItems answers = transformer.batchItems (chunks input later))) ∧
      ∀ before after, answers = before ++ .ready none :: after → ∀ answer ∈ after, answer = .ready none) ∧
    (∀ last, Finishes input transformer last → ∀ fuel, last < fuel → ∀ n,
      ∃ answers this, Transformer.pulls input fuel n transformer.pipe = some (answers, this) ∧ this.polls ≤ last ∧
        (n > (transformer.batchItems (chunks input last)).length + last → .ready none ∈ answers)) ∧
    (transformer.EmitsOnly → ∀ chunks, transformer.batchItems chunks = transformer.pipeThrough chunks) := by
  refine ⟨?_, ?_, fun hEmits => hEmits.batchItems_eq⟩
  · intro fuel n answers this hPulls
    obtain ⟨hPulled, hDone, _, hAfter⟩ := pulls_pulled input (pulled_pipe input) fuel n hPulls
    refine ⟨fun later hLater => ⟨hPulled.isPrefix hLater, fun hNone => hPulled.eq_batch (hDone hNone) hLater⟩, hAfter⟩
  · intro last hFinishes fuel hFuel n
    obtain ⟨answers, this, hPulls, hPolls⟩ :=
      pulls_return input (pulled_pipe input) hFinishes (Nat.zero_le last) hFuel n
    refine ⟨answers, this, hPulls, hPolls, fun hMany => by_contra fun hNone => ?_⟩
    obtain ⟨hPulled, _, hCount, _⟩ := pulls_pulled input (pulled_pipe input) fuel n hPulls
    have hLength := (hPulled.isPrefix hPolls).length_le
    have := hCount hNone
    simp only [List.length_nil, List.nil_append] at this hLength
    omega

/-- Doubles each number, reports zero and goes on, stops at a negative one, and ends with the total. -/
def doubler : Transformer Int Int where
  State := Int
  initial := 0
  start total controller := (total, controller.enqueue 0)
  transform total chunk controller :=
    if chunk = 0 then (total, controller.enqueueError (.invalidResponseData "zero" none))
    else if chunk < 0 then (total, controller.error (.invalidResponseData "negative" none))
    else (total + chunk, controller.enqueue (chunk * 2))
  flush total controller := controller.enqueue total

theorem doubler_emitsOnly : doubler.EmitsOnly where
  transform total chunk := by
    simp only [doubler]
    split
    · exact Emits.enqueueError total _
    · split
      · exact Emits.error total _
      · exact Emits.enqueue (Int.add total chunk) _
  flush total := Emits.enqueue () total

def twoNumbers : Nat → Poll (Option Int)
  | 0 => .ready (some 1)
  | 1 => .pending
  | 2 => .ready (some 2)
  | _ => .ready none

theorem pulls_eq_batch_doubler :
    ∃ answers this, Transformer.pulls twoNumbers 5 12 doubler.pipe = some (answers, this) ∧
      pulledItems answers = doubler.pipeThrough [1, 2] ∧ doubler.pipeThrough [1, 2] = [.ok 0, .ok 2, .ok 4, .ok 3] := by
  obtain ⟨hSafe, hLive, hBatch⟩ := pulls_eq_batch doubler twoNumbers
  obtain ⟨answers, this, hPulls, hPolls, hNone⟩ := hLive 4 (.inl ⟨3, by decide, rfl⟩) 5 (by decide) 12
  have hChunks : chunks twoNumbers 4 = [1, 2] := rfl
  have hEnd := ((hSafe 5 12 answers this hPulls).1 4 hPolls).2 (hNone (by decide))
  exact ⟨answers, this, hPulls, by rw [hEnd, hChunks, hBatch doubler_emitsOnly], rfl⟩

end Aimux.Provider
