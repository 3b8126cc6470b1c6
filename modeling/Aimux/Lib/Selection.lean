import Mathlib

/-! # Selecting the best element of a list

A loop that keeps the best element seen so far and replaces it only by a strictly better one ends with
an element of greatest key.
-/

namespace Aimux.Lib

universe u v

variable {α : Type u} {K : Type v} [LinearOrder K] (key : α → K)

/-- Keep the current best unless the next element has a greater key. -/
def pick (best : Option α) (next : α) : Option α :=
  match best with
  | none => some next
  | some current => if key current < key next then some next else best

/-- The best element is one of the list or the one the loop started with, and none has a greater key. -/
theorem foldl_pick_some (items : List α) (start : α) :
    ∃ best, items.foldl (pick key) (some start) = some best ∧ (best = start ∨ best ∈ items) ∧
      key start ≤ key best ∧ ∀ item ∈ items, key item ≤ key best := by
  induction items generalizing start with
  | nil => exact ⟨start, rfl, .inl rfl, le_refl _, by simp⟩
  | cons item items ih =>
    by_cases hBetter : key start < key item
    · obtain ⟨best, hFold, hMem, hStart, hItems⟩ := ih item
      refine ⟨best, ?_, ?_, le_of_lt (lt_of_lt_of_le hBetter hStart), ?_⟩
      · rw [List.foldl_cons, pick, if_pos hBetter, hFold]
      · rcases hMem with rfl | hMem
        · exact .inr List.mem_cons_self
        · exact .inr (List.mem_cons_of_mem item hMem)
      · intro other hOther
        rcases List.mem_cons.mp hOther with rfl | hOther
        · exact hStart
        · exact hItems other hOther
    · obtain ⟨best, hFold, hMem, hStart, hItems⟩ := ih start
      refine ⟨best, ?_, hMem.imp_right (List.mem_cons_of_mem item), hStart, ?_⟩
      · rw [List.foldl_cons, pick, if_neg hBetter, hFold]
      · intro other hOther
        rcases List.mem_cons.mp hOther with rfl | hOther
        · exact le_trans (le_of_not_gt hBetter) hStart
        · exact hItems other hOther

theorem foldl_pick_eq_none_iff (items : List α) : items.foldl (pick key) none = none ↔ items = [] := by
  cases items with
  | nil => simp
  | cons item items =>
    obtain ⟨best, hFold, _⟩ := foldl_pick_some key items item
    simp [pick, hFold]

theorem foldl_pick_spec {items : List α} {best : α} (h : items.foldl (pick key) none = some best) :
    best ∈ items ∧ ∀ item ∈ items, key item ≤ key best := by
  cases items with
  | nil => cases h
  | cons item items =>
    obtain ⟨found, hFold, hMem, hStart, hItems⟩ := foldl_pick_some key items item
    obtain rfl : found = best := Option.some.inj (hFold.symm.trans h)
    refine ⟨?_, ?_⟩
    · rcases hMem with rfl | hMem
      · exact List.mem_cons_self
      · exact List.mem_cons_of_mem item hMem
    · intro other hOther
      rcases List.mem_cons.mp hOther with rfl | hOther
      · exact hStart
      · exact hItems other hOther

theorem foldl_pick_kept {best : α} {items : List α} (h : ∀ item ∈ items, key item ≤ key best) :
    items.foldl (pick key) (some best) = some best := by
  induction items with
  | nil => rfl
  | cons item items ih =>
    rw [List.forall_mem_cons] at h
    rw [List.foldl_cons, pick, if_neg (not_lt_of_ge h.1), ih h.2]

/-- The best element is the first of those with the greatest key. -/
theorem foldl_pick_eq_some_iff (items : List α) (best : α) :
    items.foldl (pick key) none = some best ↔ ∃ before after, items = before ++ best :: after ∧
      (∀ item ∈ before, key item < key best) ∧ ∀ item ∈ after, key item ≤ key best := by
  constructor
  · intro h
    induction items using List.reverseRecOn generalizing best with
    | nil => cases h
    | append_singleton items last ih =>
      rw [List.foldl_append, List.foldl_cons, List.foldl_nil] at h
      cases hFold : items.foldl (pick key) none with
      | none =>
        rw [hFold] at h
        cases h
        rw [(foldl_pick_eq_none_iff key items).mp hFold]
        exact ⟨[], [], rfl, by simp, by simp⟩
      | some current =>
        rw [hFold, pick] at h
        split at h
        · rename_i hBetter
          cases h
          have hItems := (foldl_pick_spec key hFold).2
          exact ⟨items, [], rfl, fun item hItem => lt_of_le_of_lt (hItems item hItem) hBetter, by simp⟩
        · rename_i hKept
          cases h
          obtain ⟨before, after, rfl, hBefore, hAfter⟩ := ih best hFold
          refine ⟨before, after ++ [last], by simp, hBefore, fun item hItem => ?_⟩
          rcases List.mem_append.mp hItem with hItem | hItem
          · exact hAfter item hItem
          · rw [List.mem_singleton.mp hItem]
            exact le_of_not_gt hKept
  · rintro ⟨before, after, rfl, hBefore, hAfter⟩
    have hPicked : pick key (before.foldl (pick key) none) best = some best := by
      cases hFold : before.foldl (pick key) none with
      | none => rfl
      | some current => rw [pick, if_pos (hBefore current (foldl_pick_spec key hFold).1)]
    rw [List.foldl_append, List.foldl_cons, hPicked, foldl_pick_kept key hAfter]

end Aimux.Lib
