import Mathlib

/-! # What holds everywhere below

A property of all that a relation leads to: of the subterms of a term, of the states that follow a state.
-/

namespace Aimux.Lib

open Relation (ReflTransGen)

universe u

variable {α : Type u} {R S : α → α → Prop} {P : α → Prop} {a : α}

/-- The property holds of all that the relation leads to. -/
def Everywhere (R : α → α → Prop) (P : α → Prop) (a : α) : Prop := ∀ b, ReflTransGen R a b → P b

theorem Everywhere.here (h : Everywhere R P a) : P a := h a .refl

theorem Everywhere.below {b : α} (h : Everywhere R P a) (hStep : R a b) : Everywhere R P b :=
  fun c hSteps => h c (.head hStep hSteps)

theorem everywhere_iff : Everywhere R P a ↔ P a ∧ ∀ b, R a b → Everywhere R P b := by
  constructor
  · exact fun h => ⟨h.here, fun b hStep => h.below hStep⟩
  · rintro ⟨hHere, hBelow⟩ b hSteps
    rcases hSteps.cases_head with rfl | ⟨c, hStep, hSteps⟩
    · exact hHere
    · exact hBelow c hStep b hSteps

theorem Everywhere.mono (hLess : ∀ a b, R a b → S a b) (h : Everywhere S P a) : Everywhere R P a :=
  fun b hSteps => h b (ReflTransGen.mono hLess _ _ hSteps)

/-- Along either of two relations: at what the first leads to, and at what follows by a step of the second. -/
theorem everywhere_or : Everywhere (fun a b => R a b ∨ S a b) P a ↔
    Everywhere R P a ∧ Everywhere R (fun b => ∀ c, S b c → Everywhere (fun a b => R a b ∨ S a b) P c) a := by
  constructor
  · intro h
    refine ⟨h.mono fun _ _ => .inl, fun b hSteps c hStep => ?_⟩
    have hB : ReflTransGen (fun a b => R a b ∨ S a b) a b :=
      ReflTransGen.mono (fun _ _ => .inl) _ _ hSteps
    exact fun d hRest => h d ((hB.tail (.inr hStep)).trans hRest)
  · rintro ⟨hFirst, hSecond⟩ b hSteps
    induction hSteps using ReflTransGen.head_induction_on with
    | refl => exact hFirst.here
    | head hStep hRest ih =>
      rcases hStep with hStep | hStep
      · exact ih (hFirst.below hStep) (hSecond.below hStep)
      · exact hSecond.here _ hStep b hRest

end Aimux.Lib
