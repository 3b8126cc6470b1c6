import Mathlib

/-! # Sums that see every changed item

A sum over items whose step loses nothing, neither of the sum so far nor of the item, differs whenever one
item of the sequence does, however many items there are.
-/

namespace Aimux.Lib

structure Faithful {S B : Type} (step : S → B → S) : Prop where
  sum : ∀ item, Function.Injective fun sum => step sum item
  item : ∀ sum, Function.Injective (step sum)

variable {S B : Type} {step : S → B → S}

theorem Faithful.foldl_injective (h : Faithful step) (items : List B) :
    Function.Injective fun sum => items.foldl step sum := by
  induction items with
  | nil => exact Function.injective_id
  | cons item items ih =>
    intro left right hSame
    exact h.sum item (ih hSame)

/-- `changed` is `items` with another item at the position. -/
def ChangedAt (position : Nat) (items changed : List B) : Prop :=
  ∃ front old new back, items = front ++ old :: back ∧ changed = front ++ new :: back ∧ old ≠ new ∧
    front.length = position

namespace ChangedAt

variable {position : Nat} {items changed : List B}

theorem length (h : ChangedAt position items changed) : changed.length = items.length := by
  obtain ⟨front, old, new, back, rfl, rfl, _, _⟩ := h
  simp only [List.length_append, List.length_cons]

theorem lt_length (h : ChangedAt position items changed) : position < items.length := by
  obtain ⟨front, old, new, back, rfl, _, _, rfl⟩ := h
  rw [List.length_append, List.length_cons]
  omega

theorem of_modify {change : B → B} (hChange : ∀ item, change item ≠ item) (hPosition : position < items.length) :
    ChangedAt position items (items.modify position change) := by
  refine ⟨items.take position, items[position], change items[position], items.drop (position + 1), ?_, ?_, ?_, ?_⟩
  · rw [List.cons_getElem_drop_succ, List.take_append_drop]
  · rw [List.modify_eq_take_cons_drop hPosition]
  · exact (hChange _).symm
  · rw [List.length_take, min_eq_left hPosition.le]

section

variable (h : ChangedAt position items changed)

include h

theorem take_of_le {count : Nat} (hCount : count ≤ position) : changed.take count = items.take count := by
  obtain ⟨front, old, new, back, rfl, rfl, _, rfl⟩ := h
  rw [List.take_append_of_le_length hCount, List.take_append_of_le_length hCount]

theorem drop_of_lt {count : Nat} (hCount : position < count) : changed.drop count = items.drop count := by
  obtain ⟨front, old, new, back, rfl, rfl, _, rfl⟩ := h
  rw [List.drop_append, List.drop_append]
  obtain ⟨more, hMore⟩ : ∃ more, count - front.length = more + 1 := ⟨count - front.length - 1, by omega⟩
  rw [hMore, List.drop_succ_cons, List.drop_succ_cons]

theorem take_of_lt {count : Nat} (hCount : position < count) :
    ChangedAt position (items.take count) (changed.take count) := by
  obtain ⟨front, old, new, back, rfl, rfl, hApart, rfl⟩ := h
  refine ⟨front, old, new, back.take (count - front.length - 1), ?_, ?_, hApart, rfl⟩
  all_goals
    rw [List.take_append, List.take_of_length_le hCount.le]
    congr 1
    obtain ⟨more, hMore⟩ : ∃ more, count - front.length = more + 1 := ⟨count - front.length - 1, by omega⟩
    rw [hMore, List.take_succ_cons, Nat.add_sub_cancel]

theorem drop_of_le {count : Nat} (hCount : count ≤ position) :
    ChangedAt (position - count) (items.drop count) (changed.drop count) := by
  obtain ⟨front, old, new, back, rfl, rfl, hApart, rfl⟩ := h
  refine ⟨front.drop count, old, new, back, ?_, ?_, hApart, List.length_drop⟩
  all_goals rw [List.drop_append_of_le_length hCount]

/-- The sum sees it. -/
theorem foldl_ne (hStep : Faithful step) (sum : S) : changed.foldl step sum ≠ items.foldl step sum := by
  obtain ⟨front, old, new, back, rfl, rfl, hApart, _⟩ := h
  rw [List.foldl_append, List.foldl_append, List.foldl_cons, List.foldl_cons]
  intro hSame
  exact hApart (hStep.item _ (hStep.foldl_injective back hSame)).symm

end

end ChangedAt

end Aimux.Lib
