import Aimux.Lib.Merging
import Mathlib

/-! # Grouped runs

Grouping puts the bodies of neighbours of one kind together, also where one of them is empty. Which groups become
neighbours when some are left out is told by the groups between them.
-/

namespace Aimux.Lib

section

variable {κ γ α : Type*} [DecidableEq κ]

/-- A piece before some groups. -/
def Piece.join : Piece κ γ α → List (Piece κ γ α) → List (Piece κ γ α)
  | .block kind body, .block other rest :: groups =>
    if kind = other then .block kind (body ++ rest) :: groups else .block kind body :: .block other rest :: groups
  | piece, groups => piece :: groups

def grouped (pieces : List (Piece κ γ α)) : List (Piece κ γ α) := pieces.foldr Piece.join []

variable {kind other : κ} {a b : List γ} {pieces : List (Piece κ γ α)}

theorem grouped_block (kind : κ) (a : List γ) (pieces : List (Piece κ γ α)) :
    (∃ body groups, grouped pieces = .block kind body :: groups ∧
      grouped (.block kind a :: pieces) = .block kind (a ++ body) :: groups) ∨
    ((∀ body, ∀ group ∈ (grouped pieces).head?, group ≠ .block kind body) ∧
      grouped (.block kind a :: pieces) = .block kind a :: grouped pieces) := by
  have hJoin : grouped (.block kind a :: pieces) = Piece.join (.block kind a) (grouped pieces) := rfl
  rw [hJoin]
  cases grouped pieces with
  | nil => exact .inr ⟨fun _ _ hNone => (nomatch hNone), rfl⟩
  | cons group groups =>
    cases group with
    | whole item => exact .inr ⟨by rintro body _ ⟨⟩ ⟨⟩, rfl⟩
    | block other rest =>
      by_cases hSame : kind = other
      · subst hSame
        exact .inl ⟨rest, groups, rfl, if_pos rfl⟩
      · refine .inr ⟨?_, if_neg hSame⟩
        rintro body _ ⟨⟩ ⟨⟩
        exact hSame rfl

/-- A group that starts with a block is one of its kind. -/
theorem grouped_block_head (kind : κ) (a : List γ) (pieces : List (Piece κ γ α)) :
    ∃ body groups, grouped (.block kind a :: pieces) = .block kind body :: groups := by
  rcases grouped_block kind a pieces with ⟨body, groups, -, hCons⟩ | ⟨-, hCons⟩
  · exact ⟨_, _, hCons⟩
  · exact ⟨_, _, hCons⟩

theorem grouped_same : grouped (.block kind a :: .block kind b :: pieces) = grouped (.block kind (a ++ b) :: pieces) := by
  have hJoin (body : List γ) : grouped (.block kind body :: pieces) = Piece.join (.block kind body) (grouped pieces) := rfl
  have hTwo : grouped (.block kind a :: .block kind b :: pieces) =
      Piece.join (.block kind a) (grouped (.block kind b :: pieces)) := rfl
  rw [hTwo, hJoin (a ++ b)]
  rcases grouped_block kind b pieces with ⟨body, groups, hGroups, hCons⟩ | ⟨hOther, hCons⟩
  · rw [hCons, hGroups, Piece.join, if_pos rfl, Piece.join, if_pos rfl, List.append_assoc]
  · rw [hCons, Piece.join, if_pos rfl]
    generalize grouped pieces = groups at hOther
    cases groups with
    | nil => rfl
    | cons group groups =>
      cases group with
      | whole item => rfl
      | block other rest =>
        rw [Piece.join, if_neg]
        rintro rfl
        exact hOther rest _ rfl rfl

theorem grouped_other (hOther : kind ≠ other) : grouped (.block kind a :: .block other b :: pieces) =
    .block kind a :: grouped (.block other b :: pieces) := by
  obtain ⟨body, groups, hHead⟩ := grouped_block_head other b pieces
  have hTwo : grouped (.block kind a :: .block other b :: pieces) =
      Piece.join (.block kind a) (grouped (.block other b :: pieces)) := rfl
  rw [hTwo, hHead, Piece.join, if_neg hOther]

end

/-! ## Neighbours among what is kept -/

variable {α : Type*} {R : α → α → Prop} {p : α → Bool}

/-- The neighbours among the kept items are two of them with none between. -/
theorem isChain_filter_iff (items : List α) : (items.filter p).IsChain R ↔
    ∀ front first between second back, items = front ++ first :: (between ++ second :: back) → p first = true →
      p second = true → (∀ item ∈ between, p item = false) → R first second := by
  induction items with
  | nil =>
    refine ⟨fun _ front first between second back hItems => ?_, fun _ => .nil⟩
    cases front <;> cases hItems
  | cons item items ih =>
    cases hKept : p item with
    | false =>
      rw [List.filter_cons_of_neg (by rw [hKept]; exact Bool.false_ne_true), ih]
      constructor
      · intro h front first between second back hItems hFirst
        cases front with
        | nil =>
          obtain ⟨rfl, -⟩ := List.cons.inj hItems
          rw [hKept] at hFirst
          cases hFirst
        | cons head front => exact h front first between second back (List.cons.inj hItems).2 hFirst
      · intro h front first between second back hItems
        exact h (item :: front) first between second back (by rw [hItems, List.cons_append])
    | true =>
      rw [List.filter_cons_of_pos hKept, List.isChain_cons, ih]
      constructor
      · rintro ⟨hHead, h⟩ front first between second back hItems hFirst hSecond hBetween
        cases front with
        | nil =>
          obtain ⟨rfl, rfl⟩ := List.cons.inj hItems
          refine hHead second ?_
          rw [List.head?_filter, Option.mem_def, List.find?_eq_some_iff_append]
          refine ⟨hSecond, between, back, rfl, fun other hOther => ?_⟩
          rw [hBetween other hOther]
          rfl
        | cons head front => exact h front first between second back (List.cons.inj hItems).2 hFirst hSecond hBetween
      · intro h
        constructor
        · intro second hSecond
          rw [List.head?_filter, Option.mem_def, List.find?_eq_some_iff_append] at hSecond
          obtain ⟨hKeeps, between, back, rfl, hBetween⟩ := hSecond
          exact h [] item between second back rfl hKept hKeeps fun other hOther => by simpa using hBetween other hOther
        · intro front first between second back hItems
          exact h (item :: front) first between second back (by rw [hItems, List.cons_append])

end Aimux.Lib
