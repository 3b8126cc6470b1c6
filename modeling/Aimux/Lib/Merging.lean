import Mathlib.Data.List.Basic

/-! # Merged runs

A sequence of blocks of several kinds and of whole items. Merging drops the blocks that are empty and puts
the bodies of neighbours of one kind together, so that it does not matter in how many blocks a body comes.
-/

namespace Aimux.Lib

variable {κ γ α : Type*}

inductive Piece (κ γ α : Type*) where
  | block (kind : κ) (body : List γ)
  | whole (item : α)

variable [DecidableEq κ]

/-- The piece behind what was merged, of which the last piece is the first. -/
def absorb (merged : List (Piece κ γ α)) (piece : Piece κ γ α) : List (Piece κ γ α) :=
  match piece, merged with
  | .block _ [], _ => merged
  | .block kind body, .block last front :: rest =>
    if kind = last then .block last (front ++ body) :: rest else .block kind body :: .block last front :: rest
  | piece, merged => piece :: merged

def merged (pieces : List (Piece κ γ α)) : List (Piece κ γ α) := pieces.foldl absorb []

@[simp] theorem absorb_nil (pieces : List (Piece κ γ α)) (kind : κ) : absorb pieces (.block kind []) = pieces := by
  cases pieces <;> rfl

/-- The body of a block may come in two. -/
theorem absorb_append (pieces : List (Piece κ γ α)) (kind : κ) (front back : List γ) :
    absorb pieces (.block kind (front ++ back)) = absorb (absorb pieces (.block kind front)) (.block kind back) := by
  cases front with
  | nil => rw [List.nil_append, absorb_nil]
  | cons c front =>
    cases back with
    | nil => rw [List.append_nil, absorb_nil]
    | cons d back =>
      cases pieces with
      | nil => simp [absorb]
      | cons piece rest =>
        cases piece with
        | whole item => simp [absorb]
        | block last body =>
          by_cases hSame : kind = last
          · simp [absorb, hSame]
          · simp [absorb, hSame]

theorem merged_append (front back : List (Piece κ γ α)) :
    merged (front ++ back) = back.foldl absorb (merged front) := List.foldl_append

theorem merged_concat (pieces : List (Piece κ γ α)) (piece : Piece κ γ α) :
    merged (pieces ++ [piece]) = absorb (merged pieces) piece := by
  rw [merged_append]
  rfl

end Aimux.Lib
