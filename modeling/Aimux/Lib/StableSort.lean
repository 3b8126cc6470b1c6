import Mathlib

/-! # Stable sorting by a key

Sorting by a key, with the positions as the tie breaker, is sorting that keeps equal keys in their order. Only a
sub-sequence may be sorted: its places are then refilled from the sorted values.
-/

namespace Aimux.Lib

section

variable {α κ : Type*} [LinearOrder κ] (key : α → κ)

def sortedBy (xs : List α) : List α := xs.mergeSort fun a b => decide (key a ≤ key b)

variable {key} {xs : List α}

theorem byKey_trans (a b c : α) (hab : decide (key a ≤ key b) = true) (hbc : decide (key b ≤ key c) = true) :
    decide (key a ≤ key c) = true :=
  decide_eq_true (le_trans (of_decide_eq_true hab) (of_decide_eq_true hbc))

theorem byKey_total (a b : α) : (decide (key a ≤ key b) || decide (key b ≤ key a)) = true := by
  simpa using le_total (key a) (key b)

theorem sortedBy_perm : (sortedBy key xs).Perm xs := List.mergeSort_perm _ _

theorem sortedBy_pairwise : (sortedBy key xs).Pairwise fun a b => key a ≤ key b := by
  have hSorted : (sortedBy key xs).Pairwise fun a b => decide (key a ≤ key b) = true :=
    List.pairwise_mergeSort byKey_trans byKey_total xs
  exact hSorted.imp of_decide_eq_true

variable (key xs) in
/-- Equal keys keep their order. -/
theorem sortedBy_filter (k : κ) : ((sortedBy key xs).filter fun a => decide (key a = k)) =
    xs.filter fun a => decide (key a = k) := by
  have hEqual : (xs.filter fun a => decide (key a = k)).Pairwise fun a b => decide (key a ≤ key b) = true := by
    apply List.pairwise_of_forall_mem_list
    intro a ha b hb
    have hA : key a = k := of_decide_eq_true (List.mem_filter.mp ha).2
    have hB : key b = k := of_decide_eq_true (List.mem_filter.mp hb).2
    exact decide_eq_true (le_of_eq (hA.trans hB.symm))
  have hSublist : (xs.filter fun a => decide (key a = k)).Sublist (sortedBy key xs) :=
    List.sublist_mergeSort byKey_trans byKey_total hEqual List.filter_sublist
  have hInside := hSublist.filter fun a => decide (key a = k)
  rw [List.filter_filter] at hInside
  have hPerm : (sortedBy key xs).Perm xs := sortedBy_perm
  have hSame := hInside.eq_of_length (by simpa using (hPerm.filter _).length_eq.symm)
  simpa using hSame.symm

/-- Sorting the numbered values, by the key first and by the number where the keys are equal. -/
theorem mergeSort_indexed {before : Nat × α → Nat × α → Bool}
    (hBefore : ∀ a b, before a b = true ↔ key a.2 < key b.2 ∨ (key a.2 = key b.2 ∧ a.1 ≤ b.1)) (xs : List α) :
    ((xs.zipIdx.map fun (x, i) => (i, x)).mergeSort before).map (·.2) = sortedBy key xs := by
  have hNumbered (a b : α × Nat) : List.zipIdxLE (fun a b => decide (key a ≤ key b)) a b =
      before (a.2, a.1) (b.2, b.1) := by
    rw [Bool.eq_iff_iff, hBefore, List.zipIdxLE]
    obtain hLess | hSame | hMore := lt_trichotomy (key a.1) (key b.1)
    · simp [hLess, hLess.le, hLess.not_ge]
    · simp [hSame]
    · simp [hMore.not_ge, hMore.not_gt, hMore.ne']
  have hSwapped : ((xs.zipIdx.mergeSort (List.zipIdxLE fun a b => decide (key a ≤ key b))).map fun p => (p.2, p.1)) =
      (xs.zipIdx.map fun (x, i) => (i, x)).mergeSort before :=
    List.map_mergeSort fun a _ b _ => hNumbered a b
  calc ((xs.zipIdx.map fun (x, i) => (i, x)).mergeSort before).map (·.2)
      = ((xs.zipIdx.mergeSort (List.zipIdxLE fun a b => decide (key a ≤ key b))).map
          fun p => (p.2, p.1)).map (·.2) := by
        rw [← hSwapped]
    _ = (xs.zipIdx.mergeSort (List.zipIdxLE fun a b => decide (key a ≤ key b))).map (·.1) := by
        rw [List.map_map]
        rfl
    _ = sortedBy key xs := List.mergeSort_zipIdx

end

end Aimux.Lib
