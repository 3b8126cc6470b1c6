import Aimux.Core.JsonAccess
import Aimux.Provider.ChatToolCalls

/-! # What the provider streams share

The request that a stream answers, and the error of an error event inside a stream.
-/

namespace Aimux.Provider

open Aimux.Core

/-- The request a stream answers, and how numbers are written. -/
structure StreamContext where
  warnings : List Warning := []
  includeRawChunks : Bool := false
  strict : Bool := false
  /-- The URL without its query and userinfo. -/
  url : String := ""
  requestBody : Json := .null
  responseHeaders : Headers := []
  numberText : JsonNumber → List Char
  /-- The double of a number, written by `f64`. -/
  doubleText : JsonNumber → String

namespace StreamContext

variable (context : StreamContext)

/-- `Value::to_string` -/
def toString (value : Json) : String := String.ofList (writeJson context.numberText value)

/-- The part every stream begins with. -/
def start : List (Item StreamPart) := [.ok (.streamStart context.warnings)]

/-- The chunk, when raw chunks were asked for. -/
def raw (chunk : Json) : List (Item StreamPart) := if context.includeRawChunks then [.ok (.raw chunk)] else []

/-- What a stream fails with that ended without its terminal event, if it fails. -/
def failWithoutTerminal (terminalSeen : Bool) (terminal : String) : Option AiMuxError :=
  if context.strict && !terminalSeen then some (strictError ("the stream ended without " ++ terminal)) else none

end StreamContext

/-! ## Error events -/

structure ProviderStreamError where
  message : String
  providerCode : Option String := none
  statusCode : Option Nat := none
  /-- Derived from the status where it is not given. -/
  isRetryable : Option Bool := none
  data : Json := .null

/-- `is_retryable_status` -/
def isRetryableStatus (status : Nat) : Bool := status = 408 || status = 409 || status = 429 || 500 ≤ status

def memberDouble (context : StreamContext) (event : Json) (key : String) : Option String :=
  (event.get key).bind fun value =>
    match value with
    | .number number => some (context.doubleText number)
    | _ => none

/-- The headers, with the retry hint of the event where they have none. -/
def hintedHeaders (context : StreamContext) (event : Json) : Headers :=
  let headers := context.responseHeaders
  if headers.any (·.1 = "retry-after-ms") || headers.any (·.1 = "retry-after") then headers
  else match memberDouble context event "retry_after_ms", memberDouble context event "retry_after" with
    | some ms, _ => headers ++ [("retry-after-ms", ms)]
    | none, some seconds => headers ++ [("retry-after", seconds)]
    | none, none => headers

def createProviderStreamError (context : StreamContext) (error : ProviderStreamError) (event : Json) : AiMuxError :=
  .apiCall context.url (redactErrorContext context.requestBody) error.statusCode error.providerCode error.message
    (some (context.toString event)) (some (hintedHeaders context event))
    (if error.data.isNull then none else some (redactErrorContext error.data))
    (error.isRetryable.getD (error.statusCode.any isRetryableStatus)) none .streamEvent

/-! ## Emitting -/

/-- What a handler emits goes to the queue, and the stream may end with it. -/
def Controller.send (controller : Controller StreamPart) (items : List (Item StreamPart)) (ends : Bool) :
    Controller StreamPart :=
  if controller.closed then controller else { queue := controller.queue ++ items, closed := ends }

theorem Controller.send_open {controller : Controller StreamPart} (hOpen : controller.closed = false)
    (items : List (Item StreamPart)) (ends : Bool) :
    controller.send items ends = { queue := controller.queue ++ items, closed := ends } := by
  rw [send, if_neg (by rw [hOpen]; exact Bool.false_ne_true)]

/-! ## Runs -/

namespace Transformer

variable {I O : Type} (transformer : Transformer I O)

theorem transformAll_append (run : transformer.State × Controller O) (front back : List I) :
    transformer.transformAll run (front ++ back) = transformer.transformAll (transformer.transformAll run front) back := by
  induction front generalizing run with
  | nil => rfl
  | cons chunk front ih =>
    obtain ⟨state, controller⟩ := run
    rw [List.cons_append, transformAll, transformAll]
    split
    · rename_i hClosed
      rw [transformAll_closed transformer state hClosed]
    · exact ih _

end Transformer

end Aimux.Provider
