import Mathlib

/-! # Frames of a stream

A reader takes one frame after the other off the front of a buffer. If what it decides about the front
stays when more input arrives, then what it reads does not depend on how the input is cut.
-/

namespace Aimux.Lib

/-- What a reader decides about the front of a buffer. -/
inductive Verdict (M E : Type) where
  | wait
  | fail (error : E)
  | frame (message : M) (length : Nat)

structure Framer (B M E : Type) where
  next : List B → Verdict M E
  wait_nil : next [] = .wait
  consumes : ∀ {buffer message length}, next buffer = .frame message length → 0 < length ∧ length ≤ buffer.length
  settled : ∀ {buffer} (more : List B), next buffer ≠ .wait → next (buffer ++ more) = next buffer
  front : ∀ {buffer message length}, next buffer = .frame message length →
    next (buffer.take length) = .frame message length

namespace Framer

variable {B M E : Type} (framer : Framer B M E)

/-- The messages of a buffer, and the error or the rest after them. -/
def read (buffer : List B) : List M × (E ⊕ List B) :=
  match _hNext : framer.next buffer with
  | .wait => ([], .inr buffer)
  | .fail error => ([], .inl error)
  | .frame message length => (message :: (read (buffer.drop length)).1, (read (buffer.drop length)).2)
termination_by buffer.length
decreasing_by
  all_goals
    have hConsumes := framer.consumes _hNext
    rw [List.length_drop]
    omega

/-- Chunk after chunk, with what is left of the buffer. -/
def readChunks : List B → List (List B) → List M × (E ⊕ List B)
  | buffer, [] => ([], .inr buffer)
  | buffer, chunk :: chunks =>
    match framer.read (buffer ++ chunk) with
    | (messages, .inl error) => (messages, .inl error)
    | (messages, .inr rest) => (messages ++ (readChunks rest chunks).1, (readChunks rest chunks).2)

variable {framer} {buffer : List B}

theorem read_wait (hNext : framer.next buffer = .wait) : framer.read buffer = ([], .inr buffer) := by
  rw [read]
  split
  · rfl
  · rename_i hOther
    rw [hNext] at hOther
    cases hOther
  · rename_i hOther
    rw [hNext] at hOther
    cases hOther

theorem read_fail {error : E} (hNext : framer.next buffer = .fail error) : framer.read buffer = ([], .inl error) := by
  rw [read]
  split
  · rename_i hOther
    rw [hNext] at hOther
    cases hOther
  · rename_i hOther
    rw [hNext] at hOther
    cases hOther
    rfl
  · rename_i hOther
    rw [hNext] at hOther
    cases hOther

theorem read_frame {message : M} {length : Nat} (hNext : framer.next buffer = .frame message length) :
    framer.read buffer =
      (message :: (framer.read (buffer.drop length)).1, (framer.read (buffer.drop length)).2) := by
  rw [read]
  split
  · rename_i hOther
    rw [hNext] at hOther
    cases hOther
  · rename_i hOther
    rw [hNext] at hOther
    cases hOther
  · rename_i hOther
    rw [hNext] at hOther
    cases hOther
    rfl

/-- Reading in two goes: what the first leaves is read with the second. -/
theorem read_append (buffer more : List B) :
    framer.read (buffer ++ more) =
      match framer.read buffer with
      | (messages, .inl error) => (messages, .inl error)
      | (messages, .inr rest) =>
        (messages ++ (framer.read (rest ++ more)).1, (framer.read (rest ++ more)).2) := by
  induction hLength : buffer.length using Nat.strongRecOn generalizing buffer with
  | _ n ih =>
    cases hNext : framer.next buffer with
    | wait => rw [read_wait hNext]; rfl
    | fail error =>
      have hSame := framer.settled more (by rw [hNext]; simp)
      rw [read_fail hNext, read_fail (hSame.trans hNext)]
    | frame message length =>
      obtain ⟨hPositive, hBound⟩ := framer.consumes hNext
      have hSame := framer.settled more (by rw [hNext]; simp)
      rw [read_frame hNext, read_frame (hSame.trans hNext), List.drop_append_of_le_length hBound,
        ih (buffer.drop length).length (by rw [List.length_drop]; omega) (buffer.drop length) rfl]
      cases framer.read (buffer.drop length) with
      | mk messages result => cases result <;> rfl

theorem next_of_read {messages : List M} {rest : List B} (hRead : framer.read buffer = (messages, .inr rest)) :
    framer.next rest = .wait := by
  induction hLength : buffer.length using Nat.strongRecOn generalizing buffer messages with
  | _ n ih =>
    cases hNext : framer.next buffer with
    | wait =>
      rw [read_wait hNext] at hRead
      cases hRead
      exact hNext
    | fail error =>
      rw [read_fail hNext] at hRead
      cases hRead
    | frame message length =>
      obtain ⟨hPositive, hBound⟩ := framer.consumes hNext
      rw [read_frame hNext, Prod.mk.injEq] at hRead
      exact ih (buffer.drop length).length (by rw [List.length_drop]; omega) (Prod.ext rfl hRead.2) rfl

theorem readChunks_eq_read (chunks : List (List B)) (hNext : framer.next buffer = .wait) :
    framer.readChunks buffer chunks = framer.read (buffer ++ chunks.flatten) := by
  induction chunks generalizing buffer with
  | nil => rw [readChunks, List.flatten_nil, List.append_nil, read_wait hNext]
  | cons chunk chunks ih =>
    rw [readChunks, List.flatten_cons, ← List.append_assoc, read_append (buffer ++ chunk)]
    match hRead : framer.read (buffer ++ chunk) with
    | (messages, .inl error) => rfl
    | (messages, .inr rest) => simp only [ih (next_of_read hRead)]

/-- The messages are those of consecutive frames, each of them read once. -/
theorem frames_of_read (buffer : List B) {messages : List M} {result : E ⊕ List B} (hRead : framer.read buffer = (messages, result)) :
    ∃ frames rest, buffer = frames.flatten ++ rest ∧
      List.Forall₂ (fun frame message => framer.next frame = .frame message frame.length) frames messages ∧
      ∀ left, result = .inr left → left = rest := by
  induction hLength : buffer.length using Nat.strongRecOn generalizing buffer messages with
  | _ n ih =>
    cases hNext : framer.next buffer with
    | wait =>
      rw [read_wait hNext] at hRead
      cases hRead
      exact ⟨[], buffer, rfl, .nil, fun left hLeft => (Sum.inr.inj hLeft).symm⟩
    | fail error =>
      rw [read_fail hNext] at hRead
      cases hRead
      exact ⟨[], buffer, rfl, .nil, fun left hLeft => by cases hLeft⟩
    | frame message length =>
      obtain ⟨hPositive, hBound⟩ := framer.consumes hNext
      rw [read_frame hNext, Prod.mk.injEq] at hRead
      obtain ⟨rfl, hResult⟩ := hRead
      obtain ⟨frames, rest, hBuffer, hFrames, hRest⟩ :=
        ih (buffer.drop length).length (by rw [List.length_drop]; omega) _ (Prod.ext rfl hResult) rfl
      refine ⟨buffer.take length :: frames, rest, ?_, .cons ?_ hFrames, hRest⟩
      · rw [List.flatten_cons, List.append_assoc, ← hBuffer, List.take_append_drop]
      · rw [List.length_take, min_eq_left hBound]
        exact framer.front hNext

/-- Whole frames one after the other are read to their end. -/
theorem read_frames {frames : List (List B)} {messages : List M}
    (hFrames : List.Forall₂ (fun frame message => framer.next frame = .frame message frame.length) frames messages) :
    framer.read frames.flatten = (messages, .inr []) := by
  induction hFrames with
  | nil => exact read_wait framer.wait_nil
  | @cons frame message frames messages hNext _ ih =>
    have hSame := framer.settled frames.flatten (by rw [hNext]; simp)
    rw [List.flatten_cons, read_frame (hSame.trans hNext), List.drop_left, ih]

end Framer

end Aimux.Lib
