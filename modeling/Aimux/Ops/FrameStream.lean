import Aimux.Ops.Operation

/-! # Frames of an operation stream

`FrameStream` of `frame.rs`: numbered events, then one end frame. An action is a poll, with what the
upstream answers if it is asked, or an abort by anybody who holds the signal.
-/

namespace Aimux.Ops

open Aimux.Core

inductive Outcome where
  | success | error | cancelled
deriving DecidableEq

inductive StreamFrame where
  | event (seq : String) (event : Json)
  /-- The frame carries the error's wire envelope, a function of the error. -/
  | endFrame (seq : String) (outcome : Outcome) (error : Option OpsError)

/-- `EventStream::poll_next`. -/
inductive UpstreamPoll where
  | pending
  | ended
  | error (error : OpsError)
  | event (event : Json)

inductive FramePoll where
  | pending
  | ready (frame : Option StreamFrame)

/-- Which of the optional fields are `Some`, and the counter. -/
structure FrameStream where
  events : Bool
  cancelled : Bool
  abort : Bool
  seq : Nat

/-- `check_wire_item`: the serialised size, bounded. -/
def checkWireItem {P : Type} [WirePart P] (value : P) (maximum : Nat) : Except OpsError Nat :=
  match WirePart.wireBytes value with
  | .error error => .error error
  | .ok bytes =>
    if bytes ≤ maximum then .ok bytes else .error (resourceLimit "wire item exceeds byte budget")

namespace FrameStream

def new (abort : Bool) : FrameStream where
  events := true
  cancelled := abort
  abort := abort
  seq := 0

/-- `FrameStream::end`. -/
def finish (self : FrameStream) (outcome : Outcome) (error : Option OpsError) : FrameStream × FramePoll :=
  ({ self with events := false, cancelled := false },
    .ready (some (.endFrame (toString self.seq) outcome error)))

def errorOutcome : OpsError → Outcome
  | .aiMux (.aborted _) => .cancelled
  | _ => .error

variable [WirePart StreamFrame]

def eventNext (self : FrameStream) (event : Json) : FrameStream × FramePoll :=
  match Operation.checkedAdd self.seq 1 with
  | none => self.finish .error (some (resourceLimit "stream sequence exhausted"))
  | some nextSeq =>
    let frame : StreamFrame := .event (toString self.seq) event
    match checkWireItem frame ITEM_BYTES with
    | .error error => self.finish .error (some error)
    | .ok _ => ({ self with seq := nextSeq }, .ready (some frame))

/-- `aborted`: the abort signal has fired, which makes its `cancelled` future ready. -/
def pollNext (self : FrameStream) (aborted : Bool) (upstream : UpstreamPoll) : FrameStream × FramePoll :=
  if self.cancelled && aborted then
    self.finish .cancelled (some (.aiMux (.aborted "request aborted")))
  else if !self.events then (self, .ready none)
  else match upstream with
    | .pending => (self, .pending)
    | .ended => self.finish .success none
    | .error error => self.finish (errorOutcome error) (some error)
    | .event event => self.eventNext event

/-- `Drop` calls `abort`. -/
def dropAborts (self : FrameStream) : Bool := self.events && self.abort

end FrameStream

/-! ## Runs -/

inductive FrameAction where
  | abort
  | poll (upstream : UpstreamPoll)

structure FrameRun where
  stream : FrameStream
  aborted : Bool
  /-- What the polls returned, oldest first. -/
  outputs : List FramePoll

section

variable [WirePart StreamFrame]

def FrameRun.step (run : FrameRun) : FrameAction → FrameRun
  | .abort => { run with aborted := true }
  | .poll upstream =>
    let (stream, output) := run.stream.pollNext run.aborted upstream
    { run with stream := stream, outputs := run.outputs ++ [output] }

def FrameRun.start (signal : Bool) : FrameRun where
  stream := .new signal
  aborted := false
  outputs := []

def frameRun (signal : Bool) (actions : List FrameAction) : FrameRun :=
  actions.foldl FrameRun.step (.start signal)

end

/-! ## What a history calls for -/

/-- Why a stream ends. -/
inductive TerminalCause where
  | cancellation
  | upstreamEnd
  | upstreamError (error : OpsError)
  | sequenceExhausted
  | itemRejected (error : OpsError)

def TerminalCause.outcome : TerminalCause → Outcome
  | .cancellation => .cancelled
  | .upstreamEnd => .success
  | .upstreamError (.aiMux (.aborted _)) => .cancelled
  | .upstreamError _ | .sequenceExhausted | .itemRejected _ => .error

def TerminalCause.error : TerminalCause → Option OpsError
  | .cancellation => some (.aiMux (.aborted "request aborted"))
  | .upstreamEnd => none
  | .upstreamError error | .itemRejected error => some error
  | .sequenceExhausted => some (resourceLimit "stream sequence exhausted")

def polledEvent : FrameAction → Option Json
  | .poll (.event event) => some event
  | _ => none

def FrameAction.isAbort : FrameAction → Bool
  | .abort => true
  | .poll _ => false

def eventFrames (events : List Json) : List StreamFrame :=
  events.mapIdx fun index event => .event (toString index) event

def frameOf : FramePoll → Option StreamFrame
  | .ready frame => frame
  | .pending => none

section

variable [WirePart StreamFrame]

/-- The cause a poll meets after a history without one: a fired signal is seen before the upstream. -/
def causeAfter (signal : Bool) (before : List FrameAction) (upstream : UpstreamPoll) : Option TerminalCause :=
  if signal && before.any FrameAction.isAbort then some .cancellation
  else match upstream with
    | .pending => none
    | .ended => some .upstreamEnd
    | .error error => some (.upstreamError error)
    | .event event =>
      let index := (before.filterMap polledEvent).length
      if index + 1 < 2 ^ 64 then
        match checkWireItem (StreamFrame.event (toString index) event) ITEM_BYTES with
        | .error error => some (.itemRejected error)
        | .ok _ => none
      else some .sequenceExhausted

/-- No poll of the history meets a cause. -/
def NoCause (signal : Bool) (actions : List FrameAction) : Prop :=
  ∀ before upstream after, actions = before ++ FrameAction.poll upstream :: after →
    causeAfter signal before upstream = none

theorem noCause_nil (signal : Bool) : NoCause signal [] := by
  intro before upstream after hSplit
  simp at hSplit

theorem noCause_snoc_iff {signal : Bool} {actions : List FrameAction} {action : FrameAction} :
    NoCause signal (actions ++ [action]) ↔ NoCause signal actions ∧
      ∀ upstream, action = .poll upstream → causeAfter signal actions upstream = none := by
  constructor
  · intro hQuiet
    refine ⟨fun before upstream after hSplit => ?_, fun upstream hAction => ?_⟩
    · exact hQuiet before upstream (after ++ [action]) (by simp [hSplit])
    · exact hQuiet actions upstream [] (by rw [hAction])
  · rintro ⟨hQuiet, hLast⟩ before upstream after hSplit
    rcases List.eq_nil_or_concat after with rfl | ⟨rest, last, rfl⟩
    · obtain ⟨rfl, hAction⟩ := List.append_inj' hSplit rfl
      exact hLast upstream (List.cons.inj hAction).1
    · rw [List.concat_eq_append, ← List.cons_append, ← List.append_assoc] at hSplit
      obtain ⟨hActions, -⟩ := List.append_inj' hSplit rfl
      exact hQuiet before upstream rest hActions

/-- Before the first cause the state is a function of the history. -/
def liveStream (signal : Bool) (actions : List FrameAction) : FrameStream where
  events := true
  cancelled := signal
  abort := signal
  seq := (actions.filterMap polledEvent).length

structure Live (signal : Bool) (actions : List FrameAction) (run : FrameRun) : Prop where
  hStream : run.stream = liveStream signal actions
  hAborted : run.aborted = actions.any FrameAction.isAbort
  hQuiet : NoCause signal actions
  hFrames : run.outputs.filterMap frameOf = eventFrames (actions.filterMap polledEvent)
  hNoEnd : ∀ output ∈ run.outputs, output ≠ .ready none

/-- After it: the outputs up to the cause, one end frame, and nothing more. -/
structure Ended (signal : Bool) (actions : List FrameAction) (run : FrameRun) : Prop where
  hEvents : run.stream.events = false
  hCancelled : run.stream.cancelled = false
  hOutputs : ∃ before upstream after cause early, actions = before ++ FrameAction.poll upstream :: after ∧
    NoCause signal before ∧ causeAfter signal before upstream = some cause ∧
    early.filterMap frameOf = eventFrames (before.filterMap polledEvent) ∧
    (∀ output ∈ early, output ≠ FramePoll.ready none) ∧
    run.outputs = early ++ FramePoll.ready (some (.endFrame
        (toString (before.filterMap polledEvent).length) cause.outcome cause.error)) ::
      List.replicate (after.countP fun action => !action.isAbort) (FramePoll.ready none)

/-! ## One poll -/

section

variable {signal : Bool} {before : List FrameAction} {upstream : UpstreamPoll}

theorem pollNext_of_cause {cause : TerminalCause} (hCause : causeAfter signal before upstream = some cause) :
    (liveStream signal before).pollNext (before.any FrameAction.isAbort) upstream =
      (liveStream signal before).finish cause.outcome cause.error := by
  unfold causeAfter at hCause
  unfold FrameStream.pollNext
  split at hCause
  · next hFired =>
    obtain rfl := Option.some.inj hCause
    rw [if_pos (show ((liveStream signal before).cancelled && _) = true from hFired)]
    rfl
  · next hFired =>
    rw [if_neg (show ¬((liveStream signal before).cancelled && _) = true from hFired)]
    rw [if_neg (show ¬(!(liveStream signal before).events) = true by simp [liveStream])]
    cases upstream with
    | pending => cases hCause
    | ended =>
      obtain rfl := Option.some.inj hCause
      rfl
    | error error =>
      obtain rfl := Option.some.inj hCause
      cases error with
      | aiMux error => cases error <;> rfl
      | _ => rfl
    | event event =>
      simp only [FrameStream.eventNext, Operation.checkedAdd] at hCause ⊢
      split at hCause
      · next hSeq =>
        rw [if_pos (show (liveStream signal before).seq + 1 < 2 ^ 64 from hSeq)]
        split at hCause
        · next error hCheck =>
          obtain rfl := Option.some.inj hCause
          simp only [liveStream, hCheck]
          rfl
        · cases hCause
      · next hSeq =>
        rw [if_neg (show ¬(liveStream signal before).seq + 1 < 2 ^ 64 from hSeq)]
        obtain rfl := Option.some.inj hCause
        rfl

theorem pollNext_of_quiet (hCause : causeAfter signal before upstream = none) : (upstream = .pending ∧
        (liveStream signal before).pollNext (before.any FrameAction.isAbort) upstream =
          (liveStream signal before, .pending)) ∨
      ∃ event, upstream = .event event ∧
        (liveStream signal before).pollNext (before.any FrameAction.isAbort) upstream =
          ({ liveStream signal before with seq := (liveStream signal before).seq + 1 },
            .ready (some (.event (toString (before.filterMap polledEvent).length) event))) := by
  unfold causeAfter at hCause
  unfold FrameStream.pollNext
  split at hCause
  · cases hCause
  · next hFired =>
    rw [if_neg (show ¬((liveStream signal before).cancelled && _) = true from hFired)]
    rw [if_neg (show ¬(!(liveStream signal before).events) = true by simp [liveStream])]
    cases upstream with
    | pending => exact .inl ⟨rfl, rfl⟩
    | ended => cases hCause
    | error error => cases hCause
    | event event =>
      refine .inr ⟨event, rfl, ?_⟩
      simp only [FrameStream.eventNext, Operation.checkedAdd] at hCause ⊢
      split at hCause
      · next hSeq =>
        rw [if_pos (show (liveStream signal before).seq + 1 < 2 ^ 64 from hSeq)]
        split at hCause
        · cases hCause
        · next hCheck =>
          simp only [liveStream, hCheck]
      · cases hCause

theorem pollNext_ended {stream : FrameStream} (aborted : Bool) (upstream : UpstreamPoll) (hEvents : stream.events = false)
    (hCancelled : stream.cancelled = false) :
    stream.pollNext aborted upstream = (stream, .ready none) := by
  simp [FrameStream.pollNext, hEvents, hCancelled]

end

end

/-! ## One action -/

variable {actions : List FrameAction}

theorem polledEvents_other {action : FrameAction} (hOther : polledEvent action = none) :
    (actions ++ [action]).filterMap polledEvent = actions.filterMap polledEvent := by
  simp [hOther]

theorem polledEvents_event (actions : List FrameAction) (event : Json) :
    (actions ++ [FrameAction.poll (.event event)]).filterMap polledEvent =
      actions.filterMap polledEvent ++ [event] := by
  simp [polledEvent]

theorem liveStream_other {signal : Bool} {action : FrameAction} (hOther : polledEvent action = none) :
    liveStream signal (actions ++ [action]) = liveStream signal actions := by
  unfold liveStream
  rw [polledEvents_other hOther]

theorem liveStream_event (signal : Bool) (actions : List FrameAction) (event : Json) :
    liveStream signal (actions ++ [FrameAction.poll (.event event)]) =
      { liveStream signal actions with seq := (liveStream signal actions).seq + 1 } := by
  unfold liveStream
  rw [polledEvents_event, List.length_append, List.length_singleton]

theorem eventFrames_append (events : List Json) (event : Json) :
    eventFrames (events ++ [event]) =
      eventFrames events ++ [StreamFrame.event (toString events.length) event] := by
  simp [eventFrames, List.mapIdx_append]

section

variable [WirePart StreamFrame]
variable {signal : Bool} {actions : List FrameAction} {run : FrameRun}

theorem live_abort (hLive : Live signal actions run) :
    Live signal (actions ++ [FrameAction.abort]) (run.step .abort) where
  hStream := hLive.hStream.trans (liveStream_other rfl).symm
  hAborted := by simp [FrameRun.step, FrameAction.isAbort]
  hQuiet := noCause_snoc_iff.mpr ⟨hLive.hQuiet, fun _ hAbort => by cases hAbort⟩
  hFrames := by
    rw [polledEvents_other rfl]
    exact hLive.hFrames
  hNoEnd := hLive.hNoEnd

theorem live_poll (hLive : Live signal actions run) (upstream : UpstreamPoll) :
    Live signal (actions ++ [FrameAction.poll upstream]) (run.step (.poll upstream)) ∨
      Ended signal (actions ++ [FrameAction.poll upstream]) (run.step (.poll upstream)) := by
  obtain ⟨stream, aborted, outputs⟩ := run
  obtain rfl : stream = liveStream signal actions := hLive.hStream
  obtain rfl : aborted = actions.any FrameAction.isAbort := hLive.hAborted
  cases hCause : causeAfter signal actions upstream with
  | some cause =>
    right
    have hPoll := pollNext_of_cause hCause
    simp only [FrameRun.step, hPoll]
    exact ⟨rfl, rfl, actions, upstream, [], cause, outputs, rfl, hLive.hQuiet, hCause, hLive.hFrames,
      hLive.hNoEnd, rfl⟩
  | none =>
    left
    have hQuiet : NoCause signal (actions ++ [FrameAction.poll upstream]) := by
      refine noCause_snoc_iff.mpr ⟨hLive.hQuiet, fun other hOther => ?_⟩
      obtain rfl := FrameAction.poll.inj hOther
      exact hCause
    have hFrames : outputs.filterMap frameOf = eventFrames (actions.filterMap polledEvent) := hLive.hFrames
    rcases pollNext_of_quiet hCause with ⟨rfl, hPoll⟩ | ⟨event, rfl, hPoll⟩
    · simp only [FrameRun.step, hPoll]
      refine ⟨(liveStream_other rfl).symm, by simp [FrameAction.isAbort], hQuiet, ?_, ?_⟩
      · rw [polledEvents_other rfl, ← hFrames]
        simp [List.filterMap_cons, frameOf]
      · simpa [or_imp, forall_and] using hLive.hNoEnd
    · simp only [FrameRun.step, hPoll]
      refine ⟨(liveStream_event signal actions event).symm, by simp [FrameAction.isAbort], hQuiet, ?_, ?_⟩
      · rw [polledEvents_event, eventFrames_append, ← hFrames]
        simp [frameOf]
      · simpa [or_imp, forall_and] using hLive.hNoEnd

theorem ended_step (hEnded : Ended signal actions run) (action : FrameAction) :
    Ended signal (actions ++ [action]) (run.step action) := by
  obtain ⟨hEvents, hCancelled, before, upstream, after, cause, early, rfl, hQuiet, hCause, hFrames, hNoEnd,
    hOutputs⟩ := hEnded
  cases action with
  | abort =>
    refine ⟨hEvents, hCancelled, before, upstream, after ++ [FrameAction.abort], cause, early, by simp, hQuiet, hCause,
      hFrames, hNoEnd, ?_⟩
    simpa [FrameRun.step, FrameAction.isAbort] using hOutputs
  | poll answer =>
    have hPoll := pollNext_ended run.aborted answer hEvents hCancelled
    refine ⟨by simpa [FrameRun.step, hPoll] using hEvents, by simpa [FrameRun.step, hPoll] using hCancelled,
      before, upstream, after ++ [FrameAction.poll answer], cause, early, by simp, hQuiet, hCause, hFrames, hNoEnd, ?_⟩
    simp [FrameRun.step, hPoll, hOutputs, FrameAction.isAbort, List.countP_append, List.replicate_succ']

end

/-! ## Any run -/

section

variable [WirePart StreamFrame]

theorem run_live_or_ended (signal : Bool) (actions : List FrameAction) :
    Live signal actions (frameRun signal actions) ∨ Ended signal actions (frameRun signal actions) := by
  induction actions using List.reverseRecOn with
  | nil =>
    exact .inl ⟨rfl, rfl, noCause_nil signal, rfl, fun _ hOutput => by cases hOutput⟩
  | append_singleton actions action ih =>
    rw [frameRun, List.foldl_concat]
    rcases ih with hLive | hEnded
    · cases action with
      | abort => exact .inl (live_abort hLive)
      | poll upstream => exact live_poll hLive upstream
    · exact .inr (ended_step hEnded action)

def isEndFrame : FramePoll → Bool
  | .ready (some (.endFrame ..)) => true
  | _ => false

theorem live_yields_no_end {signal : Bool} {run : FrameRun}
    (hLive : Live signal actions run) : run.outputs.any isEndFrame = false := by
  rw [List.any_eq_false]
  intro output hOutput hEnd
  match output, hEnd with
  | .ready (some (.endFrame seq outcome error)), _ =>
    have hFrame : StreamFrame.endFrame seq outcome error ∈ run.outputs.filterMap frameOf :=
      List.mem_filterMap.mpr ⟨_, hOutput, rfl⟩
    rw [hLive.hFrames, eventFrames, List.mem_mapIdx] at hFrame
    obtain ⟨index, hIndex, hEvent⟩ := hFrame
    cases hEvent

/-- As long as no poll meets a terminal cause, the frames are the polled events under 0, 1, 2, …; the poll
that meets the first cause gives the end frame with the next number and that cause's outcome, and every
later poll `None`. A drop aborts exactly while no end frame was given, if there is a signal. -/
theorem frame_stream_run (signal : Bool) (actions : List FrameAction) :
    ((NoCause signal actions ∧
        (frameRun signal actions).outputs.filterMap frameOf = eventFrames (actions.filterMap polledEvent) ∧
        ∀ output ∈ (frameRun signal actions).outputs, output ≠ .ready none) ∨
      ∃ before upstream after cause early, actions = before ++ .poll upstream :: after ∧
        NoCause signal before ∧ causeAfter signal before upstream = some cause ∧
        early.filterMap frameOf = eventFrames (before.filterMap polledEvent) ∧
        (∀ output ∈ early, output ≠ .ready none) ∧
        (frameRun signal actions).outputs = early ++ .ready (some (.endFrame
            (toString (before.filterMap polledEvent).length) cause.outcome cause.error)) ::
          List.replicate (after.countP fun action => !action.isAbort) (.ready none)) ∧
    ((frameRun signal actions).stream.dropAborts = true ↔
      signal = true ∧ (frameRun signal actions).outputs.any isEndFrame = false) := by
  rcases run_live_or_ended signal actions with hLive | hEnded
  · refine ⟨.inl ⟨hLive.hQuiet, hLive.hFrames, hLive.hNoEnd⟩, ?_⟩
    simp [FrameStream.dropAborts, hLive.hStream, liveStream, live_yields_no_end hLive]
  · refine ⟨.inr hEnded.hOutputs, ?_⟩
    obtain ⟨before, upstream, after, cause, early, -, -, -, -, -, hOutputs⟩ := hEnded.hOutputs
    simp [FrameStream.dropAborts, hEnded.hEvents, hOutputs, isEndFrame]

end

end Aimux.Ops
