import Mathlib

/-! # Streams that are polled

What a stream delivers to one who polls it again and again: items, with waiting between them, and then nothing any more.
-/

namespace Aimux.Lib

universe u v

inductive Answer (α : Type u) where
  | pending
  | item (value : α)
  | ended

section

variable {S : Type v} {α : Type u} {poll : S → Answer α × S}

/-- The items up to the end, after which every poll finds the end. -/
inductive Delivers (poll : S → Answer α × S) : S → List α → Prop
  | ended {s t : S} (hPoll : poll s = (.ended, t)) (hSilent : poll t = (.ended, t)) : Delivers poll s []
  | pending {s t : S} {items : List α} (hPoll : poll s = (.pending, t)) (hRest : Delivers poll t items) :
    Delivers poll s items
  | item {s t : S} {value : α} {items : List α} (hPoll : poll s = (.item value, t)) (hRest : Delivers poll t items) :
    Delivers poll s (value :: items)

/-- What one poll finds is all that matters. -/
theorem Delivers.of_poll_eq {s t : S} {items : List α} (hPoll : poll s = poll t) (h : Delivers poll t items) :
    Delivers poll s items := by
  cases h with
  | ended hEnded hSilent => exact .ended (hPoll.trans hEnded) hSilent
  | pending hPending hRest => exact .pending (hPoll.trans hPending) hRest
  | item hItem hRest => exact .item (hPoll.trans hItem) hRest

/-- A stream that answers as another one does. -/
theorem Delivers.map {T : Type*} {other : T → Answer α × T} (f : S → T)
    (hPoll : ∀ s, other (f s) = ((poll s).1, f (poll s).2)) {s : S} {items : List α} (h : Delivers poll s items) :
    Delivers other (f s) items := by
  induction h with
  | ended hEnded hSilent =>
    exact .ended ((hPoll _).trans (by rw [hEnded])) ((hPoll _).trans (by rw [hSilent]))
  | pending hPending _ ih => exact .pending ((hPoll _).trans (by rw [hPending])) ih
  | item hItem _ ih => exact .item ((hPoll _).trans (by rw [hItem])) ih

end

end Aimux.Lib
