import Aimux.Core.StreamPart

/-! # Transform streams

The controller a transformer writes to and the batch form of `pipe_through`: the items of `start`,
then of `transform` on each chunk until the stream is closed, then of `flush` unless it was.
-/

namespace Aimux.Provider

open Aimux.Core

universe u

abbrev Item (O : Type u) := Except AiMuxError O

structure Controller (O : Type u) where
  queue : List (Item O) := []
  closed : Bool := false

namespace Controller

variable {O : Type u}

def enqueue (controller : Controller O) (value : O) : Controller O :=
  if controller.closed then controller
  else { controller with queue := controller.queue ++ [.ok value] }

/-- Emit `error` and keep the stream open. -/
def enqueueError (controller : Controller O) (error : AiMuxError) : Controller O :=
  if controller.closed then controller
  else { controller with queue := controller.queue ++ [.error error] }

/-- Emit `error` and end the stream: nothing is emitted after it and `flush` is not called. -/
def error (controller : Controller O) (error : AiMuxError) : Controller O :=
  if controller.closed then controller
  else { queue := controller.queue ++ [.error error], closed := true }

def terminate (controller : Controller O) : Controller O := { controller with closed := true }

@[simp] theorem error_closed (controller : Controller O) (e : AiMuxError) :
    (controller.error e).closed = true := by
  unfold error
  split
  · assumption
  · rfl

end Controller

def parts {O : Type u} (items : List (Item O)) : List O := items.filterMap Except.toOption

@[simp] theorem parts_append {O : Type u} (a b : List (Item O)) :
    parts (a ++ b) = parts a ++ parts b := List.filterMap_append ..

@[simp] theorem parts_error {O : Type u} (e : AiMuxError) :
    parts [(.error e : Item O)] = [] := rfl

namespace Controller

variable {O : Type u}

def emitted (values : List O) : Controller O := { queue := values.map .ok }

@[simp] theorem emitted_nil : (emitted [] : Controller O) = {} := rfl

@[simp] theorem enqueue_emitted (values : List O) (value : O) :
    (emitted values).enqueue value = emitted (values ++ [value]) := by
  simp [emitted, enqueue]

@[simp] theorem foldl_enqueue_emitted (values more : List O) :
    more.foldl enqueue (emitted values) = emitted (values ++ more) := by
  induction more generalizing values with
  | nil => simp
  | cons value more ih => rw [List.foldl_cons, enqueue_emitted, ih, List.append_assoc, List.singleton_append]

@[simp] theorem parts_emitted (values : List O) : parts (emitted values).queue = values := by
  induction values with
  | nil => rfl
  | cons value values ih =>
    have h : parts (emitted (value :: values)).queue = value :: parts (emitted values).queue := rfl
    rw [h, ih]

end Controller

structure Transformer (I O : Type) where
  State : Type
  initial : State
  start : State → Controller O → State × Controller O := fun state controller => (state, controller)
  transform : State → I → Controller O → State × Controller O
  flush : State → Controller O → Controller O

namespace Transformer

variable {I O : Type} (transformer : Transformer I O)

def transformAll : transformer.State × Controller O → List I → transformer.State × Controller O
  | (state, controller), [] => (state, controller)
  | (state, controller), chunk :: rest =>
    if controller.closed then (state, controller)
    else transformAll (transformer.transform state chunk controller) rest

theorem transformAll_closed (state : transformer.State) {controller : Controller O}
    (h : controller.closed = true) (input : List I) :
    transformer.transformAll (state, controller) input = (state, controller) := by
  cases input with
  | nil => rfl
  | cons chunk rest => simp [transformAll, h]

def pipeThrough (input : List I) : List (Item O) :=
  let (state, controller) := transformer.transformAll (transformer.start transformer.initial {}) input
  if controller.closed then controller.queue else (transformer.flush state controller).queue

end Transformer

end Aimux.Provider
