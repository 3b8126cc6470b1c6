import Mathlib

/-! # Acceptors of histories

An acceptor reads a history event by event and rejects it at the first event it has no move for.
A property of histories that an acceptor decides follows from one fact about each of its moves.
-/

namespace Aimux.Lib

universe u v

abbrev Acceptor (F : Type u) (E : Type v) := F → E → Option F

namespace Acceptor

variable {F : Type u} {E : Type v} {next : Acceptor F E}

def run (next : Acceptor F E) : F → List E → Option F
  | f, [] => some f
  | f, e :: rest =>
    match next f e with
    | some g => run next g rest
    | none => none

variable {rest : List E} {f g : F}

theorem run_cons_eq_some {e : E} (h : run next f (e :: rest) = some g) :
    ∃ middle, next f e = some middle ∧ run next middle rest = some g := by
  unfold run at h
  split at h
  · rename_i middle hMove
    exact ⟨middle, hMove, h⟩
  · cases h

theorem run_append_of_some {middle : F} {first : List E} (hFirst : run next f first = some middle)
    (hRest : run next middle rest = some g) : run next f (first ++ rest) = some g := by
  induction first generalizing f with
  | nil =>
    obtain rfl := Option.some.inj hFirst
    exact hRest
  | cons e first ih =>
    obtain ⟨other, hMove, hFirst⟩ := run_cons_eq_some hFirst
    rw [List.cons_append, run, hMove]
    exact ih hFirst

theorem run_append_eq_some {first : List E} (h : run next f (first ++ rest) = some g) :
    ∃ middle, run next f first = some middle ∧ run next middle rest = some g := by
  induction first generalizing f with
  | nil => exact ⟨f, rfl, h⟩
  | cons e first ih =>
    obtain ⟨other, hMove, hRest⟩ := run_cons_eq_some h
    obtain ⟨middle, hFirst, hLater⟩ := ih hRest
    exact ⟨middle, by rw [run, hMove]; exact hFirst, hLater⟩

theorem run_split {before after : List E} {e : E} (h : run next f (before ++ e :: after) = some g) :
    ∃ reached moved, run next f before = some reached ∧ next reached e = some moved ∧
      run next moved after = some g := by
  induction before generalizing f with
  | nil =>
    obtain ⟨moved, hMove, hAfter⟩ := run_cons_eq_some h
    exact ⟨f, moved, rfl, hMove, hAfter⟩
  | cons first before ih =>
    obtain ⟨middle, hMove, hRest⟩ := run_cons_eq_some h
    obtain ⟨reached, moved, hReached, hMoved, hAfter⟩ := ih hRest
    exact ⟨reached, moved, by rw [run, hMove]; exact hReached, hMoved, hAfter⟩

variable {items : List E}

theorem run_invariant (inv : F → List E → Prop)
    (keeps : ∀ f history e g, inv f history → next f e = some g → inv g (history ++ [e])) (start : inv f [])
    (h : run next f items = some g) : inv g items := by
  induction items using List.reverseRecOn generalizing g with
  | nil =>
    obtain rfl := Option.some.inj h
    exact start
  | append_singleton items e ih =>
    obtain ⟨reached, moved, hReached, hMove, hEnd⟩ := run_split h
    obtain rfl := Option.some.inj hEnd
    exact keeps reached items e _ (ih hReached) hMove

theorem run_loop (h : ∀ e ∈ items, next f e = some f) :
    run next f items = some f := by
  induction items with
  | nil => rfl
  | cons e items ih =>
    rw [run, h e List.mem_cons_self]
    exact ih fun other hOther => h other (List.mem_cons_of_mem e hOther)

theorem run_stuck (hStuck : ∀ e, next f e = none) (h : run next f items = some g) : items = [] := by
  cases items with
  | nil => rfl
  | cons e items =>
    obtain ⟨middle, hMove, _⟩ := run_cons_eq_some h
    rw [hStuck e] at hMove
    cases hMove

end Acceptor

end Aimux.Lib
