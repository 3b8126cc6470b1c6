import Mathlib

/-! # Counters that may be unknown

Sums of optional counts: the exact sum, and the sums that wrap or stop at a limit. Both agree with the
exact one for as long as it stays below the limit.
-/

namespace Aimux.Lib.Counters

/-- Unknown only when both counts are. -/
def exactAdd : Option Nat → Option Nat → Option Nat
  | none, none => none
  | some x, none => some x
  | none, some y => some y
  | some x, some y => some (x + y)

/-- The sum of the counts that are known. -/
def total (counts : List (Option Nat)) : Nat := (counts.map (·.getD 0)).sum

/-- The addition stays below the limit; a lone count is not added to anything. -/
def Fits (limit : Nat) : Option Nat → Option Nat → Prop
  | some x, some y => x + y < limit
  | _, _ => True

theorem exactAdd_getD (a b : Option Nat) : (exactAdd a b).getD 0 = a.getD 0 + b.getD 0 := by
  cases a <;> cases b <;> simp [exactAdd]

/-- Between two counts below the limit an addition fits exactly when the exact sum does. -/
theorem fits_iff {limit : Nat} {a b : Option Nat} (hA : a.getD 0 < limit) (hB : b.getD 0 < limit) :
    Fits limit a b ↔ (exactAdd a b).getD 0 < limit := by
  cases a with
  | none => simpa [Fits, exactAdd_getD] using hB
  | some x =>
    cases b with
    | none => simpa [Fits, exactAdd] using hA
    | some y => simp [Fits, exactAdd]

section

variable {limit : Nat} {add : Option Nat → Option Nat → Option Nat}

/-- Every addition of the fold fits. -/
def FoldFits (limit : Nat) (add : Option Nat → Option Nat → Option Nat) :
    Option Nat → List (Option Nat) → Prop
  | _, [] => True
  | start, count :: counts => Fits limit start count ∧ FoldFits limit add (add start count) counts

theorem total_cons (start count : Option Nat) (counts : List (Option Nat)) :
    start.getD 0 + total (count :: counts) = (exactAdd start count).getD 0 + total counts := by
  rw [exactAdd_getD, total, total, List.map_cons, List.sum_cons, Nat.add_assoc]

/-- An addition that is exact below the limit has a fold in which every addition fits exactly when the sum
of all counts does. -/
theorem fold_fits_iff (hAdd : ∀ a b, (exactAdd a b).getD 0 < limit → add a b = exactAdd a b)
    (counts : List (Option Nat)) (hCounts : ∀ count ∈ counts, count.getD 0 < limit) (start : Option Nat)
    (hStart : start.getD 0 < limit) :
    FoldFits limit add start counts ↔ start.getD 0 + total counts < limit := by
  induction counts generalizing start with
  | nil => simpa [FoldFits, total] using hStart
  | cons count counts ih =>
    have hRest := ih fun c hC => hCounts c (List.mem_cons_of_mem _ hC)
    rw [FoldFits, total_cons, fits_iff hStart (hCounts count List.mem_cons_self)]
    constructor
    · rintro ⟨hFits, hFold⟩
      rw [hAdd start count hFits] at hFold
      exact (hRest _ hFits).mp hFold
    · intro hSum
      have hFits : (exactAdd start count).getD 0 < limit := by omega
      rw [hAdd start count hFits]
      exact ⟨hFits, (hRest _ hFits).mpr hSum⟩

theorem foldl_eq_exact (hAdd : ∀ a b, (exactAdd a b).getD 0 < limit → add a b = exactAdd a b)
    (counts : List (Option Nat)) (start : Option Nat) (hSum : start.getD 0 + total counts < limit) :
    counts.foldl add start = counts.foldl exactAdd start := by
  induction counts generalizing start with
  | nil => rfl
  | cons count counts ih =>
    rw [total_cons] at hSum
    rw [List.foldl_cons, List.foldl_cons, hAdd start count (by omega)]
    exact ih _ hSum

end

end Aimux.Lib.Counters
