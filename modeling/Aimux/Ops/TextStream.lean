import Aimux.Lib.Polling
import Aimux.OpenAi.Chunks

/-! # The streams of the text operations

`start_stream` of `text.rs` for `text.stream` and `text.streamOpenAI`: the text stream with the caller's signal, and the
converter behind a guard that takes the terminal error out of its input. An event stands for its JSON.
-/

namespace Aimux.Ops

open Aimux.Core Aimux.OpenAi
open Aimux.Lib (Answer)

/-! ## The text stream and the signal -/

/-- What a poll meets: the signal cancelled, or what the text stream answers. -/
inductive Tick
  | cancelled
  | pending
  | item (item : StreamItem)

/-- The polls to come; after them the text stream has ended. -/
structure NativeEvents where
  inner : List Tick
  ended : Bool

/-- What `from_abort_signal` makes of any signal, and what stands without one. -/
def requestAborted : AiMuxError := .aborted "request aborted"

namespace NativeEvents

def pollNext (self : NativeEvents) : Answer StreamItem × NativeEvents :=
  if self.ended then (.ended, self)
  else
    match self.inner with
    | [] => (.ended, { self with ended := true })
    | .cancelled :: rest => (.item (.error requestAborted), ⟨rest, true⟩)
    | .pending :: rest => (.pending, ⟨rest, false⟩)
    | .item (.error error) :: rest =>
      if error.isRecoverableStreamError then (.item (.ok (.error error)), ⟨rest, false⟩)
      else (.item (.error error), ⟨rest, true⟩)
    | .item (.ok (.abort _)) :: rest => (.item (.error requestAborted), ⟨rest, true⟩)
    | .item (.ok part) :: rest => (.item (.ok part), ⟨rest, false⟩)

end NativeEvents

/-! ## The converter behind its guard -/

/-- `terminal` is what the channel holds; a second error finds no sender. -/
structure TerminalGuard where
  native : NativeEvents
  sender : Bool
  terminal : Option AiMuxError

def TerminalGuard.pollNext (self : TerminalGuard) : Answer StreamItem × TerminalGuard :=
  match self.native.pollNext with
  | (.item (.error error), native) =>
    (.ended, if self.sender then { native, sender := false, terminal := some error } else { self with native })
  | (answer, native) => (answer, { self with native })

/-- The chunk stream: what it has still to yield before it polls its input again, if it does. -/
structure ChunkStream where
  input : TerminalGuard
  state : StreamState
  /-- How many items were taken. -/
  items : Nat
  yielding : List (Except AiMuxError ChatCompletionChunk)
  reading : Bool

section

variable (libraries : Libraries) (options : OpenAiStreamOptions) (reported : Nat → Option ResponseMetadata)

/-- What the stream does with an item, or with the end of its input. -/
def ChunkStream.take (self : ChunkStream) : Option StreamItem → ChunkStream
  | none =>
    { self with
      yielding := (self.state.close libraries options (reported self.items) none).map .ok
      reading := false }
  | some (.error error) =>
    if error.isRecoverableStreamError then { self with items := self.items + 1, yielding := [.error error] }
    else
      { self with
        yielding := (self.state.close libraries options (reported self.items) (some error)).map .ok
        reading := false }
  | some (.ok part) =>
    let processed := self.state.processPart libraries options (reported self.items) part
    { self with
      state := processed.1
      items := self.items + 1
      yielding := processed.2.map .ok
      reading := !isFinish part }

theorem TerminalGuard.pollNext_shorter {self input : TerminalGuard} {item : StreamItem}
    (h : self.pollNext = (.item item, input)) : input.native.inner.length < self.native.inner.length := by
  unfold TerminalGuard.pollNext NativeEvents.pollNext at h
  obtain ⟨⟨inner, ended⟩, sender, terminal⟩ := self
  cases ended with
  | true => cases h
  | false =>
    rcases inner with _ | ⟨_ | _ | (error | part), rest⟩
    · cases h
    · cases h
    · cases h
    · dsimp only at h
      cases hRecoverable : error.isRecoverableStreamError with
      | true =>
        rw [hRecoverable] at h
        cases h
        exact Nat.lt_succ_self _
      | false =>
        rw [hRecoverable] at h
        cases h
    · cases part <;> cases h <;> exact Nat.lt_succ_self _

/-- A poll yields the next chunk, and reads on until there is one. -/
def ChunkStream.pollNext (self : ChunkStream) : Answer (Except AiMuxError ChatCompletionChunk) × ChunkStream :=
  match self.yielding with
  | chunk :: rest => (.item chunk, { self with yielding := rest })
  | [] =>
    if self.reading then
      match _hInput : self.input.pollNext with
      | (.pending, input) => (.pending, { self with input })
      | (.ended, input) =>
        let closed := ({ self with input } : ChunkStream).take libraries options reported none
        match closed.yielding with
        | chunk :: rest => (.item chunk, { closed with yielding := rest })
        | [] => (.ended, closed)
      | (.item item, input) =>
        (({ self with input } : ChunkStream).take libraries options reported (some item)).pollNext
    else (.ended, self)
termination_by self.input.native.inner.length
decreasing_by
  have hShorter := TerminalGuard.pollNext_shorter _hInput
  unfold ChunkStream.take
  split <;> try split
  all_goals exact hShorter

/-- The events of `text.streamOpenAI`. -/
structure OpenAiEvents where
  chunks : ChunkStream
  ended : Bool

def OpenAiEvents.pollNext (self : OpenAiEvents) : Answer (Except AiMuxError ChatCompletionChunk) × OpenAiEvents :=
  if self.ended then (.ended, self)
  else
    let next := self.chunks.pollNext libraries options reported
    match next.2.input.terminal with
    | some error =>
      (.item (.error error), ⟨{ next.2 with input := { next.2.input with terminal := none } }, true⟩)
    | none =>
      match next.1 with
      | .item (.ok chunk) => (.item (.ok chunk), ⟨next.2, false⟩)
      | .item (.error error) => (.item (.error error), ⟨next.2, true⟩)
      | .ended => (.ended, ⟨next.2, true⟩)
      | .pending => (.pending, ⟨next.2, false⟩)

end

/-! ## The operations -/

/-- The setup, which may have to wait and may fail, and then the events. -/
inductive EventStream (Events : Type)
  | setup (waits : Nat) (result : Except AiMuxError Events)
  | running (events : Events)
  | failed

def EventStream.pollNext {Events Event : Type} (poll : Events → Answer (Except AiMuxError Event) × Events) :
    EventStream Events → Answer (Except AiMuxError Event) × EventStream Events
  | .setup (waits + 1) result => (.pending, .setup waits result)
  | .setup 0 (.ok events) => ((poll events).1, .running (poll events).2)
  | .setup 0 (.error error) => (.item (.error error), .failed)
  | .running events => ((poll events).1, .running (poll events).2)
  | .failed => (.ended, .failed)

/-- `text.stream` -/
def startStream (waits : Nat) (setup : Except AiMuxError (List Tick)) : EventStream NativeEvents :=
  .setup waits (setup.map fun inner => ⟨inner, false⟩)

/-- `text.streamOpenAI` -/
def startStreamOpenAi (state : StreamState) (waits : Nat) (setup : Except AiMuxError (List Tick)) :
    EventStream OpenAiEvents :=
  .setup waits (setup.map fun inner => ⟨⟨⟨⟨inner, false⟩, true, none⟩, state, 0, [], true⟩, false⟩)

end Aimux.Ops
