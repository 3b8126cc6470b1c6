import Mathlib

/-! # Obligations that are raised and settled

A history raises and settles obligations, and a list of the open ones is kept along with it: what is raised
goes to its end unless it is there, what is settled leaves it. The list holds exactly what was raised and
not settled since, in the order in which it was raised.
-/

namespace Aimux.Lib

universe u

/-! ## Lists without repetitions -/

section

variable {α : Type u} [BEq α] [LawfulBEq α]

theorem nodup_eraseDups (l : List α) : l.eraseDups.Nodup := by
  induction hLength : l.length using Nat.strong_induction_on generalizing l with
  | _ n ih =>
    cases l with
    | nil => exact List.nodup_nil
    | cons a rest =>
      rw [List.eraseDups_cons]
      refine List.nodup_cons.mpr ⟨?_, ih _ ?_ _ rfl⟩
      · rw [List.mem_eraseDups]
        simp
      · rw [← hLength, List.length_cons]
        exact Nat.lt_succ_of_le (List.length_filter_le _ _)

theorem eraseDups_filter (p : α → Bool) (l : List α) : (l.filter p).eraseDups = l.eraseDups.filter p := by
  induction hLength : l.length using Nat.strong_induction_on generalizing l with
  | _ n ih =>
    cases l with
    | nil => rfl
    | cons a rest =>
      have hRest := ih (rest.filter fun b => !b == a).length
        (by rw [← hLength, List.length_cons]; exact Nat.lt_succ_of_le (List.length_filter_le _ _)) _ rfl
      rw [List.eraseDups_cons, List.filter_cons, List.filter_cons]
      cases hKept : p a with
      | true =>
        simp only [if_true]
        rw [List.eraseDups_cons, ← hRest, List.filter_comm]
      | false =>
        rw [if_neg Bool.false_ne_true, if_neg Bool.false_ne_true, ← hRest, List.filter_filter]
        -- what equals `a` is not kept anyway
        congr 1
        refine List.filter_congr fun b _ => ?_
        by_cases hSame : b = a
        · rw [hSame, hKept]
          rfl
        · simp [hSame]

theorem eraseDups_concat (l : List α) (a : α) :
    (l ++ [a]).eraseDups = if a ∈ l then l.eraseDups else l.eraseDups ++ [a] := by
  rw [List.eraseDups_append]
  by_cases hMem : a ∈ l
  · simp [hMem, List.removeAll]
  · simp [hMem, List.removeAll, List.eraseDups_cons]

end

/-! ## The open obligations -/

inductive Mark (α : Type u) where
  | raised (a : α)
  | settled (a : α)
deriving DecidableEq

variable {α : Type u} [DecidableEq α]

/-- The list of the open ones, after one more mark. -/
def Mark.keep (waiting : List α) : Mark α → List α
  | .raised a => if a ∈ waiting then waiting else waiting ++ [a]
  | .settled a => waiting.erase a

/-- What is raised and not settled later, every time it is raised. -/
def unsettled : List (Mark α) → List α
  | [] => []
  | .raised a :: rest => if .settled a ∈ rest then unsettled rest else a :: unsettled rest
  | .settled _ :: rest => unsettled rest

theorem unsettled_raised (a : α) (rest : List (Mark α)) :
    unsettled (.raised a :: rest) = (if .settled a ∈ rest then [] else [a]) ++ unsettled rest := by
  rw [unsettled]
  split <;> rfl

theorem mem_unsettled_cons {a : α} {mark : Mark α} {rest : List (Mark α)} : a ∈ unsettled (mark :: rest) ↔
    (mark = .raised a ∧ Mark.settled a ∉ rest) ∨ a ∈ unsettled rest := by
  cases mark with
  | settled b => simp [unsettled]
  | raised b =>
    rw [unsettled_raised, List.mem_append, Mark.raised.injEq]
    refine or_congr_left ?_
    by_cases hSame : b = a
    · subst hSame
      simp
    · by_cases hSettled : Mark.settled b ∈ rest <;> simp [hSettled, hSame, Ne.symm hSame]

theorem unsettled_concat_raised (marks : List (Mark α)) (a : α) :
    unsettled (marks ++ [Mark.raised a]) = unsettled marks ++ [a] := by
  induction marks with
  | nil => rfl
  | cons mark rest ih =>
    cases mark with
    | settled b => exact ih
    | raised b => simp [unsettled_raised, ih]

theorem unsettled_concat_settled (marks : List (Mark α)) (a : α) :
    unsettled (marks ++ [Mark.settled a]) = (unsettled marks).filter (· ≠ a) := by
  induction marks with
  | nil => rfl
  | cons mark rest ih =>
    cases mark with
    | settled b => exact ih
    | raised b =>
      rw [List.cons_append, unsettled_raised, unsettled_raised, List.filter_append, ih]
      congr 1
      by_cases hSame : b = a
      · subst hSame
        by_cases hSettled : Mark.settled b ∈ rest <;> simp [hSettled]
      · by_cases hSettled : Mark.settled b ∈ rest <;> simp [hSettled, hSame]

/-- The list that is kept. -/
theorem keep_eq (marks : List (Mark α)) : marks.foldl Mark.keep [] = (unsettled marks).eraseDups := by
  induction marks using List.reverseRecOn with
  | nil => rfl
  | append_singleton marks mark ih =>
    rw [List.foldl_append, List.foldl_cons, List.foldl_nil, ih]
    cases mark with
    | raised a =>
      rw [unsettled_concat_raised, eraseDups_concat, Mark.keep]
      simp only [List.mem_eraseDups]
    | settled a =>
      rw [unsettled_concat_settled, eraseDups_filter, Mark.keep, (nodup_eraseDups _).erase_eq_filter]
      refine List.filter_congr fun b _ => ?_
      by_cases hSame : b = a <;> simp [hSame]

end Aimux.Lib
