import Aimux.Core.StreamText

/-! # Undisturbed runs of the text stream

Without abort and deadlines the schedule of pump and reader does not show: a run that ends has emitted
what reading the provider's items one after the other emits, up to the first terminal item.
-/

namespace Aimux.Core

def readAll (settings : CallSettings) (answers : Answers) :
    StreamReader → List ProviderItem → List StreamItem
  | reader, [] => (reader.close settings answers).map .ok
  | reader, .error error :: rest =>
    .error error :: if error.isRecoverableStreamError then readAll settings answers reader rest else []
  | reader, .ok part :: rest =>
    (reader.onPart settings answers part).2.map .ok ++
      readAll settings answers (reader.onPart settings answers part).1 rest

/-- The pump stops after the first terminal item. -/
def upToTerminal : List ProviderItem → List ProviderItem
  | [] => []
  | item :: rest => if isTerminalItem item then [item] else item :: upToTerminal rest

namespace StreamText

def unread (stream : StreamText) : List ProviderItem :=
  stream.channel ++ match stream.pump with
    | .polling => upToTerminal stream.provider
    | .blocked item => upToTerminal (item :: stream.provider)
    | .stopped => []

/-- The caller does not abort, and the world answers the same at every poll. -/
def Calm (answers : Answers) : Action → Prop
  | .abort => False
  | .next given => given = answers
  | _ => True

/-- An undisturbed state whose emissions, those to come included, are `emitted`. -/
structure Undisturbed (settings : CallSettings) (answers : Answers) (emitted : List StreamItem)
    (stream : StreamText) (history : List StreamItem) : Prop where
  sameSettings : stream.settings = settings
  noAbort : stream.aborted = false
  noDeadline : stream.operationDeadline = none ∧ stream.chunkDeadline = none ∧ stream.chunkMs = none
  noOverflow : stream.overflowError = none
  emits : match stream.phase with
    | .fresh => history ++ .ok .start :: readAll settings answers stream.reader stream.unread = emitted
    | .reading => history ++ readAll settings answers stream.reader stream.unread = emitted
    | .ended => history = emitted

variable {settings : CallSettings} {answers : Answers} {emitted : List StreamItem} {stream : StreamText}
  {history : List StreamItem}

theorem Undisturbed.idle (h : Undisturbed settings answers emitted stream history) :
    Undisturbed settings answers emitted stream (history ++ []) := by
  rw [List.append_nil]
  exact h

theorem Undisturbed.pump (h : Undisturbed settings answers emitted stream history)
    {provider channel : List ProviderItem} {pump : Pump}
    (hUnread : { stream with provider, channel, pump }.unread = stream.unread) :
    Undisturbed settings answers emitted { stream with provider, channel, pump } (history ++ []) := by
  rw [List.append_nil]
  refine ⟨h.sameSettings, h.noAbort, h.noDeadline, h.noOverflow, ?_⟩
  rw [hUnread]
  exact h.emits

theorem afterSend_calm (stream : StreamText) (hChunk : stream.chunkMs = none)
    (hNone : stream.chunkDeadline = none) (item : ProviderItem) (inRange : Bool) :
    stream.afterSend item inRange =
      { stream with pump := if isTerminalItem item then .stopped else .polling } := by
  unfold afterSend
  split
  · rfl
  · split
    · rfl
    · split
      · rw [hChunk, ← hNone]
      · rfl

theorem enqueue_calm (hChunk : stream.chunkMs = none) (hNone : stream.chunkDeadline = none)
    (item : ProviderItem) (inRange : Bool) :
    stream.enqueue item inRange = { stream with
      channel := stream.channel ++ [item]
      pump := if isTerminalItem item then .stopped else .polling } :=
  afterSend_calm { stream with channel := stream.channel ++ [item] } hChunk hNone item inRange

section

variable (h : Undisturbed settings answers emitted stream history)

include h

theorem enqueue_undisturbed (item : ProviderItem) (inRange : Bool)
    (hUnread : stream.unread = stream.channel ++ upToTerminal (item :: stream.provider)) :
    Undisturbed settings answers emitted (stream.enqueue item inRange) (history ++ []) := by
  obtain ⟨_, hNone, hChunk⟩ := h.noDeadline
  rw [enqueue_calm hChunk hNone]
  refine h.pump ?_
  rw [hUnread]
  cases hTerminal : isTerminalItem item with
  | true => simp [unread, upToTerminal, hTerminal]
  | false => simp [unread, upToTerminal, hTerminal]

theorem providerNext_undisturbed (inRange : Bool) :
    Undisturbed settings answers emitted (stream.providerNext inRange) (history ++ []) := by
  unfold providerNext
  split
  · rename_i hPolling _ hEmpty
    refine h.pump ?_
    simp [unread, hPolling, hEmpty, upToTerminal]
  · rename_i item rest hPolling _ hProvider
    have hUnread : stream.unread = stream.channel ++ upToTerminal (item :: rest) := by
      simp [unread, hPolling, hProvider]
    have hBlocked : Undisturbed settings answers emitted
        { stream with provider := rest, pump := .blocked item } (history ++ []) := by
      refine h.pump ?_
      rw [hUnread]
      rfl
    split
    · have hSent := enqueue_undisturbed hBlocked item inRange rfl
      rw [List.append_nil] at hSent
      have hSame : { stream with provider := rest, pump := .blocked item }.enqueue item inRange =
          { stream with provider := rest }.enqueue item inRange := by
        obtain ⟨_, hNone, hChunk⟩ := h.noDeadline
        rw [enqueue_calm, enqueue_calm]
        all_goals assumption
      exact hSame ▸ hSent
    · exact hBlocked
  · exact h.idle

theorem pumpSend_undisturbed (inRange : Bool) :
    Undisturbed settings answers emitted (stream.pumpSend inRange) (history ++ []) := by
  unfold pumpSend
  split
  · rename_i item hBlocked _
    split
    · refine enqueue_undisturbed h item inRange ?_
      simp [unread, hBlocked]
    · exact h.idle
  · exact h.idle

theorem handle_undisturbed (hReading : stream.phase = .reading) {item : ProviderItem} {rest : List ProviderItem}
    (hChannel : stream.channel = item :: rest) :
    Undisturbed settings answers emitted ({ stream with channel := rest }.handle answers item).1
      (history ++ ({ stream with channel := rest }.handle answers item).2) := by
  have hEmits := h.emits
  rw [hReading] at hEmits
  have hUnread : stream.unread = item :: { stream with channel := rest }.unread := by
    simp [unread, hChannel]
  simp only [hUnread] at hEmits
  cases item with
  | error error =>
    simp only [handle]
    split
    · rename_i hRecoverable
      refine ⟨h.sameSettings, h.noAbort, h.noDeadline, h.noOverflow, ?_⟩
      rw [readAll, if_pos hRecoverable] at hEmits
      simp only [hReading]
      rw [List.append_assoc]
      exact hEmits
    · rename_i hFatal
      refine ⟨h.sameSettings, h.noAbort, h.noDeadline, h.noOverflow, ?_⟩
      rw [readAll, if_neg hFatal] at hEmits
      exact hEmits
  | ok part =>
    refine ⟨h.sameSettings, h.noAbort, h.noDeadline, h.noOverflow, ?_⟩
    simp only [handle, hReading, h.sameSettings]
    rw [readAll] at hEmits
    rw [List.append_assoc]
    exact hEmits

theorem next_undisturbed :
    Undisturbed settings answers emitted (stream.next answers).1 (history ++ (stream.next answers).2) := by
  have hEmits := h.emits
  unfold next
  split
  · rename_i hFresh
    refine ⟨h.sameSettings, h.noAbort, h.noDeadline, h.noOverflow, ?_⟩
    rw [hFresh] at hEmits
    simp only [List.append_assoc, List.singleton_append]
    exact hEmits
  · rw [List.append_nil]
    exact h
  · rename_i hReading
    rw [h.noAbort]
    simp only [Bool.false_eq_true, if_false]
    unfold readNext
    split
    · rename_i item rest hChannel
      exact handle_undisturbed h hReading hChannel
    · rename_i hOverflow
      rw [h.noOverflow] at hOverflow
      cases hOverflow
    · rename_i hChannel hStopped _
      refine ⟨h.sameSettings, h.noAbort, h.noDeadline, h.noOverflow, ?_⟩
      rw [hReading] at hEmits
      simp only [unread, hChannel, hStopped, List.append_nil, readAll] at hEmits
      simp only [finished, h.sameSettings]
      exact hEmits
    · rw [List.append_nil]
      exact h

theorem step_undisturbed {action : Action} (hCalm : Calm answers action) :
    Undisturbed settings answers emitted (step stream action).1 (history ++ (step stream action).2) := by
  obtain ⟨hOperation, hChunk, _⟩ := h.noDeadline
  cases action with
  | abort => exact hCalm.elim
  | pumpAborted =>
    simp only [step, pumpAborted, h.noAbort, Bool.false_eq_true, if_false]
    exact h.idle
  | operationTimeout =>
    have hSame : stream.operationTimeout = stream := by
      unfold operationTimeout
      rw [hOperation]
      split <;> first | rfl | contradiction
    simp only [step, hSame]
    exact h.idle
  | chunkTimeout =>
    have hSame : stream.chunkTimeout = stream := by
      unfold chunkTimeout
      rw [hChunk]
      split <;> first | rfl | contradiction
    simp only [step, hSame]
    exact h.idle
  | providerNext inRange => exact providerNext_undisturbed h inRange
  | pumpSend inRange => exact pumpSend_undisturbed h inRange
  | next given =>
    obtain rfl : given = answers := hCalm
    exact next_undisturbed h

end

theorem Undisturbed.start (settings : CallSettings) (answers : Answers) (provider : List ProviderItem) :
    Undisturbed settings answers
      (.ok .start :: readAll settings answers (start settings provider none none none).reader
        (upToTerminal provider))
      (start settings provider none none none) [] where
  sameSettings := rfl
  noAbort := rfl
  noDeadline := ⟨rfl, rfl, rfl⟩
  noOverflow := rfl
  emits := rfl

theorem run_undisturbed (settings : CallSettings) (answers : Answers) (provider : List ProviderItem)
    (schedule : List Action) (hCalm : ∀ action ∈ schedule, Calm answers action)
    (hEnded : (Lib.Transducer.run step (start settings provider none none none) schedule).1.phase = .ended) :
    (Lib.Transducer.run step (start settings provider none none none) schedule).2 =
      .ok .start :: readAll settings answers (start settings provider none none none).reader
        (upToTerminal provider) := by
  have hRun := Lib.Transducer.run_invariant_of (Calm answers) (Undisturbed settings answers _)
    (fun _ _ _ hAction h => step_undisturbed h hAction) (Undisturbed.start settings answers provider)
    schedule hCalm
  have hEmits := hRun.emits
  rw [hEnded] at hEmits
  exact hEmits

/-! ## Reading to the end -/

def phaseRemaining : ReaderPhase → Nat
  | .fresh => 2
  | .reading => 1
  | .ended => 0

def pumpRemaining : Pump → Nat
  | .polling => 1
  | .blocked _ => 3
  | .stopped => 0

def remaining (stream : StreamText) : Nat :=
  phaseRemaining stream.phase + pumpRemaining stream.pump + 2 * stream.provider.length +
    stream.channel.length

theorem remaining_enqueue (stream : StreamText) (hChunk : stream.chunkMs = none)
    (hNone : stream.chunkDeadline = none) (item : ProviderItem) (inRange : Bool) :
    (stream.enqueue item inRange).remaining + pumpRemaining stream.pump ≤ stream.remaining + 2 := by
  rw [enqueue_calm hChunk hNone]
  cases isTerminalItem item <;> simp [remaining, pumpRemaining] <;> omega

theorem remaining_finished (stream : StreamText) (emitted : List StreamItem)
    (hReading : stream.phase = .reading) : (stream.finished emitted).1.remaining < stream.remaining := by
  simp only [finished, remaining, phaseRemaining, pumpRemaining, hReading, List.length_nil]
  omega

theorem remaining_handle (answers : Answers) (stream : StreamText) (item : ProviderItem) (hReading : stream.phase = .reading) :
    (stream.handle answers item).1.remaining ≤ stream.remaining := by
  cases item with
  | error error =>
    simp only [handle]
    split
    · exact le_refl _
    · exact (remaining_finished stream _ hReading).le
  | ok part => exact le_refl _

theorem readNext_progress (h : Undisturbed settings answers emitted stream history)
    (hReading : stream.phase = .reading) (hReady : stream.channel = [] → stream.pump = .stopped) :
    (step stream (.next answers)).1.remaining < stream.remaining := by
  have hNext : (step stream (.next answers)).1 = (stream.readNext answers).1 := by
    simp [step, next, hReading, h.noAbort]
  rw [hNext, readNext]
  split
  · rename_i item rest hChannel
    have hHandled := remaining_handle answers { stream with channel := rest } item hReading
    have hShorter : { stream with channel := rest }.remaining < stream.remaining := by
      simp [remaining, hChannel]
    exact hHandled.trans_lt hShorter
  · rename_i hOverflow
    rw [h.noOverflow] at hOverflow
    cases hOverflow
  · exact remaining_finished stream _ hReading
  · rename_i hEmpty _ hStopped
    exact absurd h.noOverflow (hStopped (hReady hEmpty))

theorem exists_progress (h : Undisturbed settings answers emitted stream history) (hRunning : stream.phase ≠ .ended) :
    ∃ action, Calm answers action ∧ (step stream action).1.remaining < stream.remaining := by
  cases hPhase : stream.phase with
  | ended => exact absurd hPhase hRunning
  | fresh =>
    refine ⟨.next answers, rfl, ?_⟩
    simp [step, next, hPhase, remaining, phaseRemaining]
  | reading =>
    by_cases hReady : stream.channel = [] → stream.pump = .stopped
    · exact ⟨.next answers, rfl, readNext_progress h hPhase hReady⟩
    · obtain ⟨hEmpty, hPump⟩ := Classical.not_imp.mp hReady
      obtain ⟨_, hNone, hChunk⟩ := h.noDeadline
      have hRoom : stream.channel.length < STREAM_PUMP_CHANNEL_CAPACITY := by
        rw [hEmpty]
        decide
      cases hPumpState : stream.pump with
      | stopped => exact absurd hPumpState hPump
      | blocked item =>
        refine ⟨.pumpSend true, trivial, ?_⟩
        have hSent := remaining_enqueue stream hChunk hNone item true
        simp only [step, pumpSend, hPumpState, h.noAbort, if_pos hRoom] at hSent ⊢
        simp only [pumpRemaining] at hSent
        omega
      | polling =>
        refine ⟨.providerNext true, trivial, ?_⟩
        cases hProvider : stream.provider with
        | nil => simp [step, providerNext, hPumpState, h.noAbort, hProvider, remaining, pumpRemaining]
        | cons item rest =>
          have hSent := remaining_enqueue { stream with provider := rest } hChunk hNone item true
          simp only [step, providerNext, hPumpState, h.noAbort, hProvider, if_pos hRoom, remaining,
            pumpRemaining, List.length_cons] at hSent ⊢
          omega

theorem Undisturbed.completes (h : Undisturbed settings answers emitted stream history) :
    ∃ rest, (∀ action ∈ rest, Calm answers action) ∧
      (Lib.Transducer.run step stream rest).1.phase = .ended := by
  induction hRemaining : stream.remaining using Nat.strong_induction_on generalizing stream history with
  | _ n ih =>
    by_cases hEnded : stream.phase = .ended
    · exact ⟨[], by simp, hEnded⟩
    · obtain ⟨action, hCalm, hLess⟩ := exists_progress h hEnded
      obtain ⟨rest, hRest, hDone⟩ := ih _ (hRemaining ▸ hLess) (step_undisturbed h hCalm) rfl
      exact ⟨action :: rest, List.forall_mem_cons.mpr ⟨hCalm, hRest⟩, hDone⟩

theorem run_completes (settings : CallSettings) (answers : Answers) (provider : List ProviderItem)
    (schedule : List Action) (hCalm : ∀ action ∈ schedule, Calm answers action) :
    ∃ rest, (∀ action ∈ rest, Calm answers action) ∧
      (Lib.Transducer.run step (start settings provider none none none) (schedule ++ rest)).1.phase =
        .ended := by
  have hRun := Lib.Transducer.run_invariant_of (Calm answers) (Undisturbed settings answers _)
    (fun _ _ _ hAction h => step_undisturbed h hAction) (Undisturbed.start settings answers provider)
    schedule hCalm
  obtain ⟨rest, hRest, hEnded⟩ := hRun.completes
  refine ⟨rest, hRest, ?_⟩
  rw [Lib.Transducer.run_append]
  exact hEnded

end StreamText

end Aimux.Core
