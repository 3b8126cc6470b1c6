import Mathlib

/-! # Orders of last use

A list in which every use of an element moves it to the end, and from which elements may only be taken
out, is sorted by last use: its first element is the least recently used one.
-/

namespace Aimux.Lib

universe u

variable {α : Type u}

/-- `later` was used after the last use of `earlier`. -/
def UsedAfter (uses : List α) (earlier later : α) : Prop :=
  ∃ before after, uses = before ++ later :: after ∧ earlier ∉ later :: after

theorem usedAfter_last (uses : List α) {earlier last : α} (hDistinct : earlier ≠ last) :
    UsedAfter (uses ++ [last]) earlier last :=
  ⟨uses, [], rfl, by simpa using hDistinct⟩

theorem UsedAfter.concat {uses : List α} {earlier later : α} (h : UsedAfter uses earlier later) {next : α}
    (hNext : earlier ≠ next) : UsedAfter (uses ++ [next]) earlier later := by
  obtain ⟨before, after, rfl, hUnused⟩ := h
  refine ⟨before, after ++ [next], by simp, ?_⟩
  rw [← List.cons_append, List.mem_append, not_or]
  exact ⟨hUnused, by simpa using hNext⟩

/-- The elements of `order` in the order of their last use. -/
structure SortedByUse (uses order : List α) : Prop where
  nodup : order.Nodup
  sorted : order.Pairwise (UsedAfter uses)

namespace SortedByUse

variable {uses order : List α}

theorem nil (uses : List α) : SortedByUse uses [] := ⟨List.nodup_nil, List.Pairwise.nil⟩

theorem sublist (h : SortedByUse uses order) {rest : List α} (hRest : rest.Sublist order) :
    SortedByUse uses rest :=
  ⟨h.nodup.sublist hRest, h.sorted.sublist hRest⟩

theorem head_first {first : α} {rest : List α} (h : SortedByUse uses (first :: rest)) {other : α}
    (hOther : other ∈ rest) : UsedAfter uses first other :=
  (List.pairwise_cons.mp h.sorted).1 other hOther

/-- The used element moves to the end. -/
theorem touch [DecidableEq α] (h : SortedByUse uses order) (used : α) :
    SortedByUse (uses ++ [used]) (order.erase used ++ [used]) := by
  have hFresh {id : α} (hMem : id ∈ order.erase used) : id ≠ used := (h.nodup.mem_erase_iff.mp hMem).1
  constructor
  · refine (h.nodup.erase used).append (List.nodup_singleton used) ?_
    rintro id hMem hUsed
    exact hFresh hMem (List.mem_singleton.mp hUsed)
  · refine List.pairwise_append.mpr ⟨?_, List.pairwise_singleton _ used, ?_⟩
    · refine (h.sorted.sublist List.erase_sublist).imp_of_mem ?_
      intro earlier later hEarlier _ hAfter
      exact hAfter.concat (hFresh hEarlier)
    · intro id hMem last hLast
      rw [List.mem_singleton.mp hLast]
      exact usedAfter_last uses (hFresh hMem)

end SortedByUse

end Aimux.Lib
