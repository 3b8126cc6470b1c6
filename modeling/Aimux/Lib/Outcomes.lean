import Mathlib

/-! # Outcomes of fallible code

What a computation in `Except` that succeeded must have done, and lists whose items are related one by one.
-/

namespace Aimux.Lib

universe u v

section

variable {ε : Type u} {α β : Type v} {x : Except ε α}

theorem bind_eq_ok {f : α → Except ε β} {b : β} : x >>= f = .ok b ↔ ∃ a, x = .ok a ∧ f a = .ok b := by
  cases x with
  | error error =>
    constructor
    · intro h
      cases h
    · rintro ⟨_, h, _⟩
      cases h
  | ok a =>
    constructor
    · intro h
      exact ⟨a, rfl, h⟩
    · rintro ⟨_, hSame, h⟩
      cases hSame
      exact h

theorem map_eq_ok {f : α → β} {b : β} : x.map f = .ok b ↔ ∃ a, x = .ok a ∧ f a = b := by
  cases x with
  | error error =>
    constructor
    · intro h
      cases h
    · rintro ⟨_, h, _⟩
      cases h
  | ok a =>
    constructor
    · intro h
      exact ⟨a, rfl, Except.ok.inj h⟩
    · rintro ⟨_, hSame, rfl⟩
      cases hSame
      rfl

/-- No error of the outcome is of this kind. -/
def Spares (kind : ε → Prop) (outcome : Except ε α) : Prop := ∀ error, outcome = .error error → ¬kind error

variable {kind : ε → Prop}

theorem Spares.ok (a : α) : Spares kind (.ok a : Except ε α) := by
  intro error h
  cases h

theorem Spares.error {error : ε} (h : ¬kind error) : Spares kind (.error error : Except ε α) := by
  rintro _ hSame
  cases hSame
  exact h

theorem Spares.bind {f : α → Except ε β} (hFirst : Spares kind x) (hThen : ∀ a, x = .ok a → Spares kind (f a)) :
    Spares kind (x >>= f) := by
  cases x with
  | error error => exact Spares.error (hFirst error rfl)
  | ok a => exact hThen a rfl

theorem Spares.map (h : Spares kind x) (f : α → β) : Spares kind (x.map f) := by
  cases x with
  | error error => exact Spares.error (h error rfl)
  | ok a => exact Spares.ok (f a)

end

theorem forall₂_filterMap {α β γ δ : Type u} {R : α → β → Prop} {S : γ → δ → Prop} {f : α → Option γ}
    {g : β → Option δ} {xs : List α} {ys : List β} (h : List.Forall₂ R xs ys)
    (hStep : ∀ x y, R x y → Option.Rel S (f x) (g y)) :
    List.Forall₂ S (xs.filterMap f) (ys.filterMap g) := by
  induction h with
  | nil => exact .nil
  | @cons x y xs ys hHead _ ih =>
    have hRel := hStep x y hHead
    rw [List.filterMap_cons, List.filterMap_cons]
    cases hX : f x <;> cases hY : g y <;> rw [hX, hY] at hRel <;> cases hRel
    · exact ih
    · exact .cons ‹_› ih

theorem forall₂_of_filterMap {α β γ : Type u} {R : β → γ → Prop} {f : α → Option β} {xs : List α} {zs : List γ}
    (h : List.Forall₂ R (xs.filterMap f) zs) :
    List.Forall₂ (fun x z => ∃ y, f x = some y ∧ R y z) (xs.filter fun x => (f x).isSome) zs := by
  induction xs generalizing zs with
  | nil =>
    cases h
    exact .nil
  | cons x xs ih =>
    rw [List.filterMap_cons] at h
    cases hX : f x with
    | none =>
      rw [hX] at h
      rw [List.filter_cons_of_neg (by simp [hX])]
      exact ih h
    | some y =>
      rw [hX] at h
      rw [List.filter_cons_of_pos (by simp [hX])]
      cases h with
      | cons hHead hTail => exact .cons ⟨y, hX, hHead⟩ (ih hTail)

end Aimux.Lib
