import Mathlib

/-! # Runs of machines that emit events

A transducer answers one action with its next state and the events it emits.
A run feeds a whole schedule of actions and concatenates what was emitted, so a
statement about every run quantifies over every order of actions.
The rules below derive facts about runs from facts about one step; they name
no particular machine.
-/

namespace Aimux.Lib

universe u v w x

/-- One step of a machine: the next state and the events of the step. -/
abbrev Transducer (S : Type u) (A : Type v) (E : Type w) := S → A → S × List E

/-- A split of a longer history is a split of the shorter one, or at its last event. -/
theorem split_concat {E : Type u} {history before after : List E} {last event : E}
    (h : history ++ [last] = before ++ event :: after) :
    (after = [] ∧ before = history ∧ event = last) ∨
      ∃ rest, after = rest ++ [last] ∧ history = before ++ event :: rest := by
  rcases List.eq_nil_or_concat after with rfl | ⟨rest, final, rfl⟩
  · obtain ⟨rfl, hEvent⟩ := List.append_inj' h rfl
    exact .inl ⟨rfl, rfl, (List.singleton_inj.mp hEvent).symm⟩
  · rw [List.concat_eq_append] at h ⊢
    rw [← List.cons_append, ← List.append_assoc] at h
    obtain ⟨hHistory, hLast⟩ := List.append_inj' h rfl
    exact .inr ⟨rest, by rw [List.singleton_inj.mp hLast], hHistory⟩

namespace Transducer

variable {S : Type u} {A : Type v} {E : Type w}

def run (step : Transducer S A E) : S → List A → S × List E
  | s, [] => (s, [])
  | s, a :: rest =>
    ((run step (step s a).1 rest).1, (step s a).2 ++ (run step (step s a).1 rest).2)

@[simp] theorem run_nil (step : Transducer S A E) (s : S) : run step s [] = (s, []) := rfl

@[simp] theorem run_cons (step : Transducer S A E) (s : S) (a : A) (rest : List A) :
    run step s (a :: rest) =
      ((run step (step s a).1 rest).1, (step s a).2 ++ (run step (step s a).1 rest).2) := rfl

theorem run_append (step : Transducer S A E) (s : S) (first rest : List A) :
    run step s (first ++ rest) =
      ((run step (run step s first).1 rest).1,
        (run step s first).2 ++ (run step (run step s first).1 rest).2) := by
  induction first generalizing s with
  | nil => simp
  | cons a first ih => simp [ih, List.append_assoc]

theorem run_concat (step : Transducer S A E) (s : S) (actions : List A) (a : A) :
    run step s (actions ++ [a]) =
      ((step (run step s actions).1 a).1,
        (run step s actions).2 ++ (step (run step s actions).1 a).2) := by
  rw [run_append]
  simp

variable {step : Transducer S A E} {s : S}

/-- A relation between state and history that holds at the start and is kept by every allowed action
holds after every schedule of allowed actions. -/
theorem run_invariant_of (allowed : A → Prop) (inv : S → List E → Prop)
    (keeps : ∀ s history a, allowed a → inv s history → inv (step s a).1 (history ++ (step s a).2)) (start : inv s [])
    (actions : List A) (hAllowed : ∀ a ∈ actions, allowed a) :
    inv (run step s actions).1 (run step s actions).2 := by
  induction actions using List.reverseRecOn with
  | nil => exact start
  | append_singleton actions a ih =>
    rw [run_concat]
    have hBefore := ih fun other hOther => hAllowed other (List.mem_append_left [a] hOther)
    exact keeps _ _ a (hAllowed a (by simp)) hBefore

theorem run_invariant (inv : S → List E → Prop)
    (keeps : ∀ s history a, inv s history → inv (step s a).1 (history ++ (step s a).2)) (start : inv s [])
    (actions : List A) :
    inv (run step s actions).1 (run step s actions).2 :=
  run_invariant_of (fun _ => True) inv (fun s history a _ => keeps s history a) start actions
    fun _ _ => trivial

/-- Every action of the schedule meets a condition on the state before it. -/
def Along (step : Transducer S A E) (meets : S → A → Prop) : S → List A → Prop
  | _, [] => True
  | s, a :: rest => meets s a ∧ Along step meets (step s a).1 rest

theorem along_append {meets : S → A → Prop} {first rest : List A} (h : Along step meets s (first ++ rest)) :
    Along step meets s first ∧ Along step meets (run step s first).1 rest := by
  induction first generalizing s with
  | nil => exact ⟨trivial, h⟩
  | cons a first ih =>
    obtain ⟨hMeets, hRest⟩ := h
    obtain ⟨hFirst, hLater⟩ := ih hRest
    exact ⟨⟨hMeets, hFirst⟩, hLater⟩

/-- A relation that holds at the start and is kept by the actions that meet a condition on the state
holds after every schedule whose actions all meet it. -/
theorem run_invariant_along (meets : S → A → Prop) (inv : S → List E → Prop)
    (keeps : ∀ s history a, meets s a → inv s history → inv (step s a).1 (history ++ (step s a).2)) (start : inv s [])
    (actions : List A) (hMeets : Along step meets s actions) :
    inv (run step s actions).1 (run step s actions).2 := by
  induction actions using List.reverseRecOn with
  | nil => exact start
  | append_singleton actions a ih =>
    obtain ⟨hBefore, hLast, _⟩ := along_append hMeets
    rw [run_concat]
    exact keeps _ _ a hLast (ih hBefore)

theorem run_state_invariant (inv : S → Prop) (keeps : ∀ s a, inv s → inv (step s a).1) (start : inv s)
    (actions : List A) :
    inv (run step s actions).1 :=
  run_invariant (fun s _ => inv s) (fun s _ a => keeps s a) start actions

/-- The unwinding rule for deleting actions from a schedule: if the kept actions respect a relation
between states and show the same visible events from related states, and the deleted ones respect it
on the left alone and show nothing, then the visible history does not depend on the deleted actions. -/
theorem run_unwinding {R : S → S → Prop} {keep : A → Bool} {visible : E → Bool}
    (kept : ∀ s t a, R s t → keep a = true → R (step s a).1 (step t a).1 ∧
      (step s a).2.filter visible = (step t a).2.filter visible)
    (deleted : ∀ s t a, R s t → keep a = false → R (step s a).1 t ∧ (step s a).2.filter visible = []) (actions : List A) :
    ∀ s t, R s t →
      (run step s actions).2.filter visible = (run step t (actions.filter keep)).2.filter visible := by
  induction actions with
  | nil =>
    intro s t _
    rfl
  | cons a actions ih =>
    intro s t h
    cases hKeep : keep a with
    | true =>
      obtain ⟨hNext, hSeen⟩ := kept s t a h hKeep
      rw [List.filter_cons_of_pos hKeep, run_cons, run_cons]
      simp only [List.filter_append]
      rw [hSeen, ih _ _ hNext]
    | false =>
      obtain ⟨hNext, hSeen⟩ := deleted s t a h hKeep
      rw [List.filter_cons_of_neg (by simp [hKeep]), run_cons]
      simp only [List.filter_append]
      rw [hSeen, List.nil_append, ih _ _ hNext]

end Transducer

end Aimux.Lib
