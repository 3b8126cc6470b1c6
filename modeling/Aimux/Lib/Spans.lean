import Aimux.Lib.Acceptor

/-! # Spans

Events start, extend and stop the spans of names. Each span goes its own way: it is started once, is extended only while
it is open, and is stopped once. A move of all spans at the same time is put together of moves of one.
-/

namespace Aimux.Lib

universe u v

namespace Span

inductive Mark where
  | start | delta | stop
deriving DecidableEq

inductive Phase where
  | fresh | isOpen | ended
deriving DecidableEq

def Phase.next : Acceptor Phase Mark
  | .fresh, .start => some .isOpen
  | .isOpen, .delta => some .isOpen
  | .isOpen, .stop => some .ended
  | _, _ => none

/-- What is written in a phase. -/
def Phase.Written : Phase → List Mark → Prop
  | .fresh, marks => marks = []
  | .isOpen, marks => ∃ n, marks = .start :: List.replicate n .delta
  | .ended, marks => ∃ n, marks = .start :: (List.replicate n .delta ++ [.stop])

theorem Phase.written_of_run {phase : Phase} {marks : List Mark} (h : Acceptor.run Phase.next .fresh marks = some phase) :
    phase.Written marks := by
  have hStart : Phase.Written .fresh [] := rfl
  refine Acceptor.run_invariant Phase.Written ?_ hStart h
  intro before history mark after hWritten hNext
  cases before <;> cases mark <;> cases hNext
  · exact ⟨0, by rw [show history = [] from hWritten]; rfl⟩
  · obtain ⟨n, rfl⟩ := hWritten
    exact ⟨n + 1, by rw [List.replicate_succ', List.cons_append]⟩
  · obtain ⟨n, rfl⟩ := hWritten
    exact ⟨n, rfl⟩

variable {K : Type u} {E : Type v} [DecidableEq K] (mark : E → Option (K × Mark))

/-- The marks of a name. -/
def marks (name : K) (events : List E) : List Mark :=
  events.filterMap fun event => (mark event).bind fun found => if found.1 = name then some found.2 else none

/-- Started once, extended only while open, and stopped once; or never started. -/
def Whole (events : List E) : Prop :=
  ∀ name, marks mark name events = [] ∨
    ∃ n, marks mark name events = .start :: (List.replicate n Mark.delta ++ [Mark.stop])

/-- What the events do to all spans. -/
def Moves (before : K → Phase) (events : List E) (after : K → Phase) : Prop :=
  ∀ name, Acceptor.run Phase.next (before name) (marks mark name events) = some (after name)

section

variable {mark} {before middle after : K → Phase} {first second : List E}

theorem marks_append (name : K) (first second : List E) :
    marks mark name (first ++ second) = marks mark name first ++ marks mark name second := List.filterMap_append

theorem whole_of_moves {events : List E} (h : Moves mark (fun _ => .fresh) events after)
    (hClosed : ∀ name, after name ≠ .isOpen) : Whole mark events := by
  intro name
  have hWritten := Phase.written_of_run (h name)
  cases hPhase : after name with
  | fresh =>
    rw [hPhase] at hWritten
    exact .inl hWritten
  | isOpen => exact absurd hPhase (hClosed name)
  | ended =>
    rw [hPhase] at hWritten
    exact .inr hWritten

theorem Moves.append (hFirst : Moves mark before first middle) (hSecond : Moves mark middle second after) :
    Moves mark before (first ++ second) after := by
  intro name
  rw [marks_append]
  exact Acceptor.run_append_of_some (hFirst name) (hSecond name)

theorem Moves.quiet {events : List E} (h : ∀ event ∈ events, mark event = none) : Moves mark before events before := by
  intro name
  have hNone : marks mark name events = [] := List.filterMap_eq_nil_iff.mpr fun event hEvent => by rw [h event hEvent]; rfl
  rw [hNone]
  rfl

theorem Moves.one {event : E} {name : K} {made : Mark} {phase : Phase} (hMark : mark event = some (name, made))
    (hNext : Phase.next (before name) made = some phase) :
    Moves mark before [event] (Function.update before name phase) := by
  intro other
  rw [marks, List.filterMap_cons, hMark, Option.bind_some, List.filterMap_nil]
  by_cases hName : name = other
  · subst hName
    rw [if_pos rfl, Function.update_self, Acceptor.run, hNext]
    rfl
  · rw [if_neg hName, Function.update_of_ne (Ne.symm hName)]
    rfl

/-- Spans that are all open are stopped one after the other. -/
theorem Moves.stopAll {ι : Type*} {event : ι → E} {name : ι → K} {indices : List ι}
    (hMark : ∀ i, mark (event i) = some (name i, .stop)) (hNames : (indices.map name).Nodup)
    (hOpen : ∀ i ∈ indices, before (name i) = .isOpen) :
    Moves mark before (indices.map event)
      fun other => if other ∈ indices.map name then .ended else before other := by
  induction indices generalizing before with
  | nil => exact .quiet fun _ hNone => nomatch hNone
  | cons i indices ih =>
    rw [List.map_cons, List.nodup_cons] at hNames
    obtain ⟨hFirst, hRest⟩ := List.forall_mem_cons.mp hOpen
    have hOne : Moves mark before [event i] (Function.update before (name i) .ended) :=
      .one (hMark i) (by rw [hFirst]; rfl)
    have hStillOpen : ∀ j ∈ indices, Function.update before (name i) .ended (name j) = .isOpen := by
      intro j hj
      have hOther : name j ≠ name i := fun hSame => hNames.1 (hSame ▸ List.mem_map_of_mem hj)
      rw [Function.update_of_ne hOther]
      exact hRest j hj
    have hLater := ih hNames.2 hStillOpen
    intro other
    rw [List.map_cons, ← List.singleton_append, (hOne.append hLater) other]
    by_cases hIs : other = name i
    · simp [hIs, hNames.1]
    · simp [hIs, Function.update_of_ne]

end

end Span

end Aimux.Lib
