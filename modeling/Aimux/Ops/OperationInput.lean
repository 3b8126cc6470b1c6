import Aimux.Ops.OperationTickets

/-! # Input of an operation

The invariant that relates tickets and input queue to the history of events: which pushes were
admitted, whose chunk got in, what they reported, and what the audio stream yielded.
-/

namespace Aimux.Ops.Operation

open Aimux.Core

variable {P : Type}

/-! ## Histories -/

def admittedEntry : Event P → Option (Nat × List UInt8)
  | .admitted sequence bytes => some (sequence, bytes)
  | _ => none

def acceptedEntry : Event P → Option (Nat × List UInt8)
  | .accepted sequence bytes => some (sequence, bytes)
  | _ => none

def succeededSequence : Event P → Option Nat
  | .succeeded sequence => some sequence
  | _ => none

def withdrawnSequence : Event P → Option Nat
  | .withdrawn sequence => some sequence
  | _ => none

def failedSequence : Event P → Option Nat
  | .failed sequence _ => some sequence
  | _ => none

def yieldedChunk : Event P → Option (List UInt8)
  | .chunk bytes => some bytes
  | _ => none

def admitted (history : List (Event P)) : List (Nat × List UInt8) := history.filterMap admittedEntry

def accepted (history : List (Event P)) : List (Nat × List UInt8) := history.filterMap acceptedEntry

def succeeded (history : List (Event P)) : List Nat := history.filterMap succeededSequence

def withdrawn (history : List (Event P)) : List Nat := history.filterMap withdrawnSequence

def failures (history : List (Event P)) : List Nat := history.filterMap failedSequence

def yielded (history : List (Event P)) : List (List UInt8) := history.filterMap yieldedChunk

section

variable (a b : List (Event P))

@[simp] theorem admitted_append : admitted (a ++ b) = admitted a ++ admitted b := List.filterMap_append ..

@[simp] theorem accepted_append : accepted (a ++ b) = accepted a ++ accepted b := List.filterMap_append ..

@[simp] theorem succeeded_append : succeeded (a ++ b) = succeeded a ++ succeeded b :=
  List.filterMap_append ..

@[simp] theorem withdrawn_append : withdrawn (a ++ b) = withdrawn a ++ withdrawn b :=
  List.filterMap_append ..

@[simp] theorem failures_append : failures (a ++ b) = failures a ++ failures b := List.filterMap_append ..

@[simp] theorem yielded_append : yielded (a ++ b) = yielded a ++ yielded b := List.filterMap_append ..

end

/-- The chunk of a push in flight is in the input queue. -/
def SentInFlight (op : Operation P) (sequence : Nat) : Prop :=
  ∃ push ∈ op.pushes, push.sequence = sequence ∧ push.phase = .sent

structure Fed (op : Operation P) (history : List (Event P)) : Prop where
  sequences : (admitted history).map (·.1) = List.range op.admissionSequence
  inFlight : ∀ push ∈ op.pushes, (push.sequence, push.bytes) ∈ admitted history
  known : accepted history ⊆ admitted history
  sorted : ((accepted history).map (·.1)).Pairwise (· < ·)
  sortedSucceeded : (succeeded history).Pairwise (· < ·)
  reported : ∀ n, n ∈ (accepted history).map (·.1) ↔ n ∈ succeeded history ∨ SentInFlight op n
  passed : ∀ n ∈ succeeded history, n < op.sendSequence
  resolved : ∀ n < op.admissionSequence, n ∈ succeeded history ∨ n ∈ withdrawn history ∨
    n ∈ failures history ∨ n ∈ op.pushes.map (·.sequence)
  order : yielded history <+: (accepted history).map (·.2)
  queued : op.terminal = none → (accepted history).map (·.2) = yielded history ++ op.inputQueue
  noFailure : op.terminal = none → failures history = [] ∧
    ∀ push ∈ op.pushes, ∀ error, push.phase ≠ .failed error
  noUnderflow : .inputUnderflow ∉ history

def Unheard (event : Event P) : Prop :=
  admitted [event] = [] ∧ accepted [event] = [] ∧ succeeded [event] = [] ∧ withdrawn [event] = [] ∧
    failures [event] = [] ∧ yielded [event] = [] ∧ event ≠ .inputUnderflow

variable {op op' : Operation P} {history : List (Event P)}

/-- An event that says at most that a chunk left the queue. -/
theorem Fed.pass (h : Fed op history) {event : Event P} (hAdmitted : admitted [event] = [])
    (hAccepted : accepted [event] = []) (hSucceeded : succeeded [event] = []) (hWithdrawn : withdrawn [event] = [])
    (hFailures : failures [event] = []) (hUnderflow : event ≠ .inputUnderflow) {inputQueue : List (List UInt8)}
    {inputBytes : Nat} (hOrder : yielded (history ++ [event]) <+: (accepted history).map (·.2))
    (hQueued : op.terminal = none → (accepted history).map (·.2) = yielded (history ++ [event]) ++ inputQueue) :
    Fed { op with inputQueue, inputBytes } (history ++ [event]) := by
  constructor
  case sequences => simpa [hAdmitted] using h.sequences
  case inFlight => simpa [hAdmitted] using h.inFlight
  case known => simpa [hAdmitted, hAccepted] using h.known
  case sorted => rw [accepted_append, hAccepted, List.append_nil]; exact h.sorted
  case sortedSucceeded => rw [succeeded_append, hSucceeded, List.append_nil]; exact h.sortedSucceeded
  case reported =>
    rw [accepted_append, hAccepted, succeeded_append, hSucceeded, List.append_nil, List.append_nil]
    exact h.reported
  case passed => rw [succeeded_append, hSucceeded, List.append_nil]; exact h.passed
  case resolved =>
    rw [succeeded_append, withdrawn_append, failures_append, hSucceeded, hWithdrawn, hFailures]
    simpa only [List.append_nil] using h.resolved
  case order => rwa [accepted_append, hAccepted, List.append_nil]
  case queued => rwa [accepted_append, hAccepted, List.append_nil]
  case noFailure => rw [failures_append, hFailures, List.append_nil]; exact h.noFailure
  case noUnderflow => simp [h.noUnderflow, hUnderflow.symm]

theorem Fed.event (h : Fed op history) {event : Event P} (unheard : Unheard event) :
    Fed op (history ++ [event]) := by
  obtain ⟨hAdmitted, hAccepted, hSucceeded, hWithdrawn, hFailures, hYielded, hUnderflow⟩ := unheard
  refine h.pass hAdmitted hAccepted hSucceeded hWithdrawn hFailures hUnderflow ?_ ?_
  · simpa [hYielded] using h.order
  · simpa [hYielded] using h.queued

theorem Fed.events (h : Fed op history) {events : List (Event P)}
    (unheard : ∀ event ∈ events, Unheard event) : Fed op (history ++ events) := by
  induction events generalizing history with
  | nil => simpa using h
  | cons event events ih =>
    have hNext := ih (h.event (unheard event List.mem_cons_self)) fun e he =>
      unheard e (List.mem_cons_of_mem event he)
    simpa using hNext

theorem Fed.silent (h : Fed op history) (hAdmission : op'.admissionSequence = op.admissionSequence)
    (hSend : op'.sendSequence = op.sendSequence) (hPushes : op'.pushes = op.pushes)
    (hOpen : op'.terminal = none → op.terminal = none ∧ op'.inputQueue = op.inputQueue) :
    Fed op' history where
  sequences := hAdmission ▸ h.sequences
  inFlight := hPushes ▸ h.inFlight
  known := h.known
  sorted := h.sorted
  sortedSucceeded := h.sortedSucceeded
  reported := by simpa only [SentInFlight, hPushes] using h.reported
  passed := hSend ▸ h.passed
  resolved := by rw [hAdmission, hPushes]; exact h.resolved
  order := h.order
  queued := fun hNone => by rw [(hOpen hNone).2]; exact h.queued (hOpen hNone).1
  noFailure := fun hNone => by rw [hPushes]; exact h.noFailure (hOpen hNone).1
  noUnderflow := h.noUnderflow

theorem Fed.initial (limits : OperationLimits) : Fed ({ limits } : Operation P) [] where
  sequences := rfl
  inFlight := by simp
  known := by simp [accepted]
  sorted := .nil
  sortedSucceeded := .nil
  reported := by simp [accepted, succeeded, SentInFlight]
  passed := by simp [succeeded]
  resolved := by simp
  order := List.prefix_rfl
  queued := fun _ => rfl
  noFailure := by simp [failures]
  noUnderflow := by simp

/-! ## Sections of the input side -/

theorem Fed.issue (h : Fed op history) (bytes : List UInt8) :
    Fed { op with
      admissionSequence := op.admissionSequence + 1
      pushes := op.pushes ++ [{ sequence := op.admissionSequence, bytes }] }
      (history ++ [Event.admitted op.admissionSequence bytes]) := by
  have hAdmitted : admitted [(.admitted op.admissionSequence bytes : Event P)] =
    [(op.admissionSequence, bytes)] := rfl
  have hAccepted : accepted [(.admitted op.admissionSequence bytes : Event P)] = [] := rfl
  have hSucceeded : succeeded [(.admitted op.admissionSequence bytes : Event P)] = [] := rfl
  have hWithdrawn : withdrawn [(.admitted op.admissionSequence bytes : Event P)] = [] := rfl
  have hFailures : failures [(.admitted op.admissionSequence bytes : Event P)] = [] := rfl
  have hYielded : yielded [(.admitted op.admissionSequence bytes : Event P)] = [] := rfl
  constructor
  case sequences => simp [hAdmitted, h.sequences, List.range_succ]
  case inFlight =>
    intro push hPush
    rw [admitted_append, List.mem_append]
    rcases List.mem_append.mp hPush with hOld | hNew
    · exact .inl (h.inFlight push hOld)
    · rw [List.mem_singleton.mp hNew, hAdmitted]
      exact .inr List.mem_cons_self
  case known =>
    rw [accepted_append, hAccepted, List.append_nil, admitted_append]
    exact List.subset_append_of_subset_left _ h.known
  case sorted => rw [accepted_append, hAccepted, List.append_nil]; exact h.sorted
  case sortedSucceeded => rw [succeeded_append, hSucceeded, List.append_nil]; exact h.sortedSucceeded
  case reported =>
    intro n
    rw [accepted_append, hAccepted, succeeded_append, hSucceeded, List.append_nil, List.append_nil,
      h.reported]
    simp [SentInFlight, or_and_right, exists_or]
  case passed => rw [succeeded_append, hSucceeded, List.append_nil]; exact h.passed
  case resolved =>
    intro n hn
    rw [succeeded_append, withdrawn_append, failures_append, hSucceeded, hWithdrawn, hFailures]
    simp only [List.append_nil, List.map_append, List.mem_append]
    rcases Nat.lt_succ_iff_lt_or_eq.mp hn with hOld | rfl
    · rcases h.resolved n hOld with hIn | hIn | hIn | hIn
      · exact .inl hIn
      · exact .inr (.inl hIn)
      · exact .inr (.inr (.inl hIn))
      · exact .inr (.inr (.inr (.inl hIn)))
    · exact .inr (.inr (.inr (.inr (by simp))))
  case order => simpa [hAccepted, hYielded] using h.order
  case queued => simpa [hAccepted, hYielded] using h.queued
  case noFailure =>
    intro hNone
    obtain ⟨hNil, hPhase⟩ := h.noFailure hNone
    refine ⟨by rw [failures_append, hFailures, List.append_nil, hNil], ?_⟩
    intro push hPush
    rcases List.mem_append.mp hPush with hOld | hNew
    · exact hPhase push hOld
    · rw [List.mem_singleton.mp hNew]
      simp
  case noUnderflow => simp [h.noUnderflow]

variable {push : Push}

theorem Fed.fail (h : Fed op history) (hTickets : Ticketed op) (hPush : push ∈ op.pushes)
    (hWaiting : push.phase = .waiting) (hSome : op.terminal ≠ none) (error : OpsError) :
    Fed (op.setPhase push.sequence (.failed error)) history := by
  constructor
  case sequences => exact h.sequences
  case inFlight =>
    intro changed hChanged
    obtain ⟨old, hOld, hSequence, hBytes, _⟩ := mem_setPhase hChanged
    rw [hSequence, hBytes]
    exact h.inFlight old hOld
  case known => exact h.known
  case sorted => exact h.sorted
  case sortedSucceeded => exact h.sortedSucceeded
  case reported =>
    intro n
    rw [h.reported]
    refine or_congr_right ?_
    constructor
    · rintro ⟨sent, hSent, rfl, hPhase⟩
      refine ⟨sent, List.mem_map.mpr ⟨sent, hSent, if_neg ?_⟩, rfl, hPhase⟩
      intro hSame
      rw [hTickets.eq_of_sequence hSent hPush hSame, hWaiting] at hPhase
      cases hPhase
    · rintro ⟨changed, hChanged, rfl, hPhase⟩
      obtain ⟨old, hOld, hSequence, _, ⟨_, hNew⟩ | ⟨_, hSame⟩⟩ := mem_setPhase hChanged
      · rw [hNew] at hPhase
        cases hPhase
      · exact ⟨old, hOld, hSequence.symm, hSame.symm.trans hPhase⟩
  case passed => exact h.passed
  case resolved => rw [map_sequence_setPhase]; exact h.resolved
  case order => exact h.order
  case queued => exact fun hNone => absurd hNone hSome
  case noFailure => exact fun hNone => absurd hNone hSome
  case noUnderflow => exact h.noUnderflow

theorem Fed.accept (h : Fed op history) (hTickets : Ticketed op) (hPush : push ∈ op.pushes)
    (hWaiting : push.phase = .waiting) (hTurn : op.sendSequence = push.sequence) (hOpen : op.terminal = none)
    (inputBytes : Nat) :
    Fed { op.setPhase push.sequence .sent with inputQueue := op.inputQueue ++ [push.bytes], inputBytes }
      (history ++ [Event.accepted push.sequence push.bytes]) := by
  have hAdmitted : admitted [(.accepted push.sequence push.bytes : Event P)] = [] := rfl
  have hAccepted : accepted [(.accepted push.sequence push.bytes : Event P)] =
    [(push.sequence, push.bytes)] := rfl
  have hSucceeded : succeeded [(.accepted push.sequence push.bytes : Event P)] = [] := rfl
  have hWithdrawn : withdrawn [(.accepted push.sequence push.bytes : Event P)] = [] := rfl
  have hFailures : failures [(.accepted push.sequence push.bytes : Event P)] = [] := rfl
  have hYielded : yielded [(.accepted push.sequence push.bytes : Event P)] = [] := rfl
  -- only the push whose turn it is could have sent, and it still waits
  have hNotSent : ∀ n, ¬SentInFlight op n := by
    rintro n ⟨sent, hSent, _, hPhase⟩
    have hSame := hTickets.eq_of_sequence hSent hPush ((hTickets.sent sent hSent hPhase).trans hTurn)
    rw [hSame, hWaiting] at hPhase
    cases hPhase
  have hBefore : ∀ n ∈ (accepted history).map (·.1), n < push.sequence := by
    intro n hn
    rcases (h.reported n).mp hn with hDone | hSent
    · exact hTurn ▸ h.passed n hDone
    · exact absurd hSent (hNotSent n)
  constructor
  case sequences => rw [admitted_append, hAdmitted, List.append_nil]; exact h.sequences
  case inFlight =>
    intro changed hChanged
    obtain ⟨old, hOld, hSequence, hBytes, _⟩ := mem_setPhase hChanged
    rw [hSequence, hBytes, admitted_append, hAdmitted, List.append_nil]
    exact h.inFlight old hOld
  case known =>
    rw [accepted_append, hAccepted, admitted_append, hAdmitted, List.append_nil]
    exact List.append_subset.mpr ⟨h.known, by simpa using h.inFlight push hPush⟩
  case sorted =>
    rw [accepted_append, hAccepted, List.map_append, List.pairwise_append]
    exact ⟨h.sorted, by simp, by simpa using fun n bytes hn => hBefore n (List.mem_map_of_mem hn)⟩
  case sortedSucceeded => rw [succeeded_append, hSucceeded, List.append_nil]; exact h.sortedSucceeded
  case reported =>
    intro n
    rw [accepted_append, hAccepted, List.map_append, List.mem_append, h.reported, succeeded_append,
      hSucceeded, List.append_nil, or_assoc]
    refine or_congr_right ?_
    constructor
    · rintro (hSent | hNew)
      · exact absurd hSent (hNotSent n)
      · obtain rfl : n = push.sequence := by simpa using hNew
        exact ⟨{ push with phase := .sent }, List.mem_map.mpr ⟨push, hPush, if_pos rfl⟩, rfl, rfl⟩
    · rintro ⟨changed, hChanged, rfl, hPhase⟩
      obtain ⟨old, hOld, hSequence, _, ⟨hEq, _⟩ | ⟨_, hSame⟩⟩ := mem_setPhase hChanged
      · exact .inr (by simp [hSequence, hEq])
      · exact absurd ⟨old, hOld, rfl, hSame.symm.trans hPhase⟩ (hNotSent old.sequence)
  case passed => rw [succeeded_append, hSucceeded, List.append_nil]; exact h.passed
  case resolved =>
    rw [succeeded_append, withdrawn_append, failures_append, hSucceeded, hWithdrawn, hFailures]
    simp only [List.append_nil]
    rw [map_sequence_setPhase]
    exact h.resolved
  case order =>
    rw [yielded_append, hYielded, List.append_nil, accepted_append, List.map_append]
    exact h.order.trans (List.prefix_append ..)
  case queued => simp [hAccepted, hYielded, h.queued hOpen]
  case noFailure =>
    intro _
    obtain ⟨hNil, hPhases⟩ := h.noFailure hOpen
    refine ⟨by rw [failures_append, hFailures, List.append_nil, hNil], ?_⟩
    intro changed hChanged error
    obtain ⟨old, hOld, _, _, ⟨_, hNew⟩ | ⟨_, hSame⟩⟩ := mem_setPhase hChanged
    · simp [hNew]
    · rw [hSame]
      exact hPhases old hOld error
  case noUnderflow => simp [h.noUnderflow]

theorem mem_succeeded_report {n : Nat} :
    n ∈ succeeded [(pushReport push : Event P)] ↔ n = push.sequence ∧ push.phase = .sent := by
  cases hPhase : push.phase <;> simp [succeeded, pushReport, hPhase, succeededSequence]

theorem mem_withdrawn_report {n : Nat} :
    n ∈ withdrawn [(pushReport push : Event P)] ↔ n = push.sequence ∧ push.phase = .waiting := by
  cases hPhase : push.phase <;> simp [withdrawn, pushReport, hPhase, withdrawnSequence]

theorem mem_failures_report {n : Nat} :
    n ∈ failures [(pushReport push : Event P)] ↔ n = push.sequence ∧ ∃ error, push.phase = .failed error := by
  cases hPhase : push.phase <;> simp [failures, pushReport, hPhase, failedSequence]

theorem Fed.release (h : Fed op history) (hTickets : Ticketed op) (hPush : push ∈ op.pushes)
    (hReleased : Released op op' push.sequence) (hAdmission : op'.admissionSequence = op.admissionSequence)
    (hPushes : ∀ p, p ∈ op'.pushes ↔ p ∈ op.pushes ∧ p.sequence ≠ push.sequence)
    (hTerminal : op'.terminal = op.terminal) (hQueue : op'.inputQueue = op.inputQueue) :
    Fed op' (history ++ [pushReport push]) := by
  have hAdmitted : admitted [(pushReport push : Event P)] = [] := by
    cases hPhase : push.phase <;> simp [admitted, pushReport, hPhase, admittedEntry]
  have hAccepted : accepted [(pushReport push : Event P)] = [] := by
    cases hPhase : push.phase <;> simp [accepted, pushReport, hPhase, acceptedEntry]
  have hYielded : yielded [(pushReport push : Event P)] = [] := by
    cases hPhase : push.phase <;> simp [yielded, pushReport, hPhase, yieldedChunk]
  have hSent : ∀ n ∈ succeeded [(pushReport push : Event P)], n = op.sendSequence := by
    intro n hn
    obtain ⟨rfl, hPhase⟩ := mem_succeeded_report.mp hn
    exact hTickets.sent push hPush hPhase
  constructor
  case sequences => rw [admitted_append, hAdmitted, List.append_nil, hAdmission]; exact h.sequences
  case inFlight =>
    intro p hp
    rw [admitted_append, hAdmitted, List.append_nil]
    exact h.inFlight p ((hPushes p).mp hp).1
  case known =>
    rw [accepted_append, admitted_append, hAccepted, hAdmitted, List.append_nil, List.append_nil]
    exact h.known
  case sorted => rw [accepted_append, hAccepted, List.append_nil]; exact h.sorted
  case sortedSucceeded =>
    rw [succeeded_append, List.pairwise_append]
    refine ⟨h.sortedSucceeded, ?_, fun a ha b hb => hSent b hb ▸ h.passed a ha⟩
    cases hPhase : push.phase with
    | sent => simp [succeeded, pushReport, hPhase, succeededSequence]
    | _ =>
      simp only [pushReport, hPhase]
      exact .nil
  case reported =>
    intro n
    rw [accepted_append, hAccepted, List.append_nil, h.reported, succeeded_append, List.mem_append,
      mem_succeeded_report, or_assoc]
    refine or_congr_right ?_
    constructor
    · rintro ⟨sent, hIn, rfl, hPhase⟩
      by_cases hSame : sent.sequence = push.sequence
      · exact .inl ⟨hSame, hTickets.eq_of_sequence hIn hPush hSame ▸ hPhase⟩
      · exact .inr ⟨sent, (hPushes sent).mpr ⟨hIn, hSame⟩, rfl, hPhase⟩
    · rintro (⟨rfl, hPhase⟩ | ⟨sent, hIn, rfl, hPhase⟩)
      · exact ⟨push, hPush, rfl, hPhase⟩
      · exact ⟨sent, ((hPushes sent).mp hIn).1, rfl, hPhase⟩
  case passed =>
    intro n hn
    rw [succeeded_append, List.mem_append] at hn
    rcases hn with hOld | hNew
    · exact Nat.lt_of_lt_of_le (h.passed n hOld) hReleased.mono
    · rw [hSent n hNew]
      exact hReleased.passed ((mem_succeeded_report.mp hNew).1.symm.trans (hSent n hNew))
  case resolved =>
    intro n hn
    rw [succeeded_append, withdrawn_append, failures_append, List.mem_append, List.mem_append,
      List.mem_append, mem_succeeded_report, mem_withdrawn_report, mem_failures_report]
    rcases h.resolved n (hAdmission ▸ hn) with hIn | hIn | hIn | hIn
    · exact .inl (.inl hIn)
    · exact .inr (.inl (.inl hIn))
    · exact .inr (.inr (.inl (.inl hIn)))
    · obtain ⟨p, hp, rfl⟩ := List.mem_map.mp hIn
      by_cases hSame : p.sequence = push.sequence
      · cases hPhase : push.phase with
        | waiting => exact .inr (.inl (.inr ⟨hSame, rfl⟩))
        | sent => exact .inl (.inr ⟨hSame, rfl⟩)
        | failed error => exact .inr (.inr (.inl (.inr ⟨hSame, error, rfl⟩)))
      · exact .inr (.inr (.inr (List.mem_map_of_mem ((hPushes p).mpr ⟨hp, hSame⟩))))
  case order => simpa [hAccepted, hYielded] using h.order
  case queued => simpa [hAccepted, hYielded, hTerminal, hQueue] using h.queued
  case noFailure =>
    intro hNone
    obtain ⟨hNil, hPhases⟩ := h.noFailure (hTerminal ▸ hNone)
    refine ⟨?_, fun p hp => hPhases p ((hPushes p).mp hp).1⟩
    rw [failures_append, hNil, List.nil_append, List.eq_nil_iff_forall_not_mem]
    intro n hn
    obtain ⟨_, error, hFailed⟩ := mem_failures_report.mp hn
    exact hPhases push hPush error hFailed
  case noUnderflow =>
    have hReport : (pushReport push : Event P) ≠ .inputUnderflow := by
      cases hPhase : push.phase <;> simp [pushReport, hPhase]
    simp [h.noUnderflow, hReport.symm]

theorem Fed.tryPush (h : Fed op history) (hTickets : Ticketed op) (hOpen : op.terminal = none)
    (hTurn : op.admissionSequence = op.sendSequence) (bytes : List UInt8) (inputBytes : Nat) :
    Fed { op with
      inputQueue := op.inputQueue ++ [bytes]
      inputBytes
      admissionSequence := op.admissionSequence + 1
      sendSequence := op.admissionSequence + 1 }
      (history ++ [Event.admitted op.admissionSequence bytes, .accepted op.admissionSequence bytes,
        .succeeded op.admissionSequence]) := by
  generalize hEvents : [(.admitted op.admissionSequence bytes : Event P),
    .accepted op.admissionSequence bytes, .succeeded op.admissionSequence] = events
  have hAdmitted : admitted events = [(op.admissionSequence, bytes)] := by subst hEvents; rfl
  have hAccepted : accepted events = [(op.admissionSequence, bytes)] := by subst hEvents; rfl
  have hSucceeded : succeeded events = [op.admissionSequence] := by subst hEvents; rfl
  have hWithdrawn : withdrawn events = [] := by subst hEvents; rfl
  have hFailures : failures events = [] := by subst hEvents; rfl
  have hYielded : yielded events = [] := by subst hEvents; rfl
  have hUnderflow : .inputUnderflow ∉ events := by subst hEvents; simp
  have hNone := hTickets.pushes_eq_nil hTurn.symm
  have hReported : ∀ n, n ∈ (accepted history).map (·.1) ↔ n ∈ succeeded history := by
    simpa [SentInFlight, hNone] using h.reported
  have hBefore : ∀ n ∈ succeeded history, n < op.admissionSequence := fun n hn => hTurn ▸ h.passed n hn
  constructor
  case sequences => simp [hAdmitted, h.sequences, List.range_succ]
  case inFlight => simp [hNone]
  case known =>
    rw [accepted_append, hAccepted, admitted_append, hAdmitted]
    exact List.append_subset.mpr ⟨List.subset_append_of_subset_left _ h.known, List.subset_append_right ..⟩
  case sorted =>
    rw [accepted_append, hAccepted, List.map_append, List.pairwise_append]
    refine ⟨h.sorted, by simp, ?_⟩
    intro a ha b hb
    rw [List.mem_singleton.mp hb]
    exact hBefore a ((hReported a).mp ha)
  case sortedSucceeded =>
    rw [succeeded_append, hSucceeded, List.pairwise_append]
    refine ⟨h.sortedSucceeded, by simp, ?_⟩
    intro a ha b hb
    rw [List.mem_singleton.mp hb]
    exact hBefore a ha
  case reported =>
    intro n
    rw [accepted_append, hAccepted, List.map_append, List.mem_append, hReported, succeeded_append,
      hSucceeded, List.mem_append]
    simp [SentInFlight, hNone]
  case passed =>
    intro n hn
    rw [succeeded_append, hSucceeded, List.mem_append] at hn
    rcases hn with hOld | hNew
    · exact Nat.lt_succ_of_lt (hBefore n hOld)
    · rw [List.mem_singleton.mp hNew]
      exact Nat.lt_succ_self _
  case resolved =>
    intro n hn
    rw [succeeded_append, withdrawn_append, failures_append, hSucceeded, hWithdrawn, hFailures,
      List.append_nil, List.append_nil, List.mem_append]
    rcases Nat.lt_succ_iff_lt_or_eq.mp hn with hOld | rfl
    · rcases h.resolved n hOld with hIn | hRest
      · exact .inl (.inl hIn)
      · exact .inr hRest
    · exact .inl (.inr List.mem_cons_self)
  case order =>
    rw [yielded_append, hYielded, List.append_nil, accepted_append, List.map_append]
    exact h.order.trans (List.prefix_append ..)
  case queued => simp [hAccepted, hYielded, h.queued hOpen]
  case noFailure => simpa [hFailures] using h.noFailure
  case noUnderflow => simp [h.noUnderflow, hUnderflow]

theorem Fed.dequeue (h : Fed op history) (hOpen : op.terminal = none) {bytes : List UInt8}
    {rest : List (List UInt8)} (hHead : op.inputQueue = bytes :: rest) (inputBytes : Nat) :
    Fed { op with inputQueue := rest, inputBytes } (history ++ [Event.chunk bytes]) := by
  have hYielded : yielded [(.chunk bytes : Event P)] = [bytes] := rfl
  have hQueued : (accepted history).map (·.2) = yielded (history ++ [Event.chunk bytes]) ++ rest := by
    simp [hYielded, h.queued hOpen, hHead]
  exact h.pass rfl rfl rfl rfl rfl (by simp) ⟨rest, hQueued.symm⟩ fun _ => hQueued

end Aimux.Ops.Operation
