import Aimux.Ops.Operation

/-! # Admission tickets

A push takes a ticket when it is admitted and hands it back when its admission is dropped, in any
order. The next ticket to send is the least one that was not handed back, so no ticket is lost: a
ticket between the two counters belongs to one push in flight or was handed back early.
-/

namespace Aimux.Ops.Operation

variable {P : Type}

/-! ## Handing tickets back -/

/-- What the drain loop leaves: it advances over handed-back tickets only, and stops at the first that
was not handed back. -/
structure Drained (completed : Finset Nat) (send limit : Nat) (drained : Finset Nat × Nat) : Prop where
  mono : send ≤ drained.2
  limit : drained.2 ≤ limit
  passed : ∀ n, send ≤ n → n < drained.2 → n ∈ completed
  stops : drained.2 ∉ completed
  rest : ∀ n, n ∈ drained.1 ↔ n ∈ completed ∧ (n < send ∨ drained.2 ≤ n)

theorem drain_drained {limit : Nat} (hLimit : limit < 2 ^ 64) (fuel : Nat) :
    ∀ (completed : Finset Nat) (send : Nat), completed.card ≤ fuel → (∀ n ∈ completed, n < limit) →
      send ≤ limit → Drained completed send limit (drain fuel completed send) := by
  induction fuel with
  | zero =>
    intro completed send hFuel _ hSend
    have hEmpty : completed = ∅ := Finset.card_eq_zero.mp (Nat.le_zero.mp hFuel)
    subst hEmpty
    exact ⟨Nat.le_refl _, hSend, fun n _ _ => by simp only [drain] at *; omega, by simp [drain],
      by simp [drain]⟩
  | succ fuel ih =>
    intro completed send hFuel hBound hSend
    unfold drain
    split
    · rename_i hMem
      have hLt := hBound send hMem
      have hNext : min (send + 1) (2 ^ 64 - 1) = send + 1 := by omega
      rw [hNext]
      have hCard := Finset.card_erase_of_mem hMem
      have hRest := ih (completed.erase send) (send + 1) (by omega)
        (fun n hn => hBound n (Finset.mem_of_mem_erase hn)) hLt
      have hMono := hRest.mono
      constructor
      case mono => omega
      case limit => exact hRest.limit
      case passed =>
        intro n hFrom hTo
        rcases Nat.eq_or_lt_of_le hFrom with rfl | hLater
        · exact hMem
        · exact Finset.mem_of_mem_erase (hRest.passed n hLater hTo)
      case stops =>
        intro hIn
        exact hRest.stops (Finset.mem_erase.mpr ⟨by omega, hIn⟩)
      case rest =>
        intro n
        rw [hRest.rest, Finset.mem_erase]
        constructor
        · rintro ⟨⟨hNe, hIn⟩, hSide⟩
          exact ⟨hIn, by omega⟩
        · rintro ⟨hIn, hSide⟩
          exact ⟨⟨by omega, hIn⟩, by omega⟩
    · rename_i hMem
      exact ⟨Nat.le_refl _, hSend, fun n _ _ => by omega, hMem, fun n => by
        simp only [iff_self_and]
        omega⟩

/-! ## The invariant -/

structure Ticketed (op : Operation P) : Prop where
  order : op.sendSequence ≤ op.admissionSequence
  bound : op.admissionSequence < 2 ^ 64
  completed : ∀ n ∈ op.completedAdmissions, op.sendSequence < n ∧ n < op.admissionSequence
  distinct : (op.pushes.map (·.sequence)).Nodup
  /-- The tickets in flight are those that were handed out and not handed back. -/
  inFlight : ∀ n, n ∈ op.pushes.map (·.sequence) ↔
    op.sendSequence ≤ n ∧ n < op.admissionSequence ∧ n ∉ op.completedAdmissions
  sent : ∀ push ∈ op.pushes, push.phase = .sent → push.sequence = op.sendSequence
  closed : ∀ sequence, op.input = .closed sequence → sequence = op.admissionSequence
  bytes : op.inputBytes = (op.inputQueue.map List.length).sum
  budget : op.inputBytes ≤ op.limits.inputBytes
  fits : ∀ push ∈ op.pushes, push.bytes.length ≤ op.limits.itemBytes

structure SameInput (op op' : Operation P) : Prop where
  limits : op'.limits = op.limits
  input : op'.input = op.input
  admission : op'.admissionSequence = op.admissionSequence
  send : op'.sendSequence = op.sendSequence
  completed : op'.completedAdmissions = op.completedAdmissions
  queue : op'.inputQueue = op.inputQueue
  bytes : op'.inputBytes = op.inputBytes
  pushes : op'.pushes = op.pushes

theorem SameInput.refl (op : Operation P) : SameInput op op := ⟨rfl, rfl, rfl, rfl, rfl, rfl, rfl, rfl⟩

variable {op op' : Operation P}

theorem Ticketed.same (h : Ticketed op) (same : SameInput op op') : Ticketed op' where
  order := by rw [same.send, same.admission]; exact h.order
  bound := same.admission ▸ h.bound
  completed := by rw [same.completed, same.send, same.admission]; exact h.completed
  distinct := same.pushes ▸ h.distinct
  inFlight := by rw [same.pushes, same.send, same.admission, same.completed]; exact h.inFlight
  sent := by rw [same.pushes, same.send]; exact h.sent
  closed := by rw [same.input, same.admission]; exact h.closed
  bytes := by rw [same.bytes, same.queue]; exact h.bytes
  budget := by rw [same.bytes, same.limits]; exact h.budget
  fits := by rw [same.pushes, same.limits]; exact h.fits

theorem Ticketed.clear (h : Ticketed op) (terminal : Option OperationTerminal) :
    Ticketed { op with terminal, inputQueue := [], inputBytes := 0 } where
  order := h.order
  bound := h.bound
  completed := h.completed
  distinct := h.distinct
  inFlight := h.inFlight
  sent := h.sent
  closed := h.closed
  bytes := rfl
  budget := Nat.zero_le _
  fits := h.fits

theorem Ticketed.initial (limits : OperationLimits) : Ticketed ({ limits } : Operation P) where
  order := Nat.le_refl _
  bound := by simp
  completed := by simp
  distinct := .nil
  inFlight := by simp
  sent := by simp
  closed := by simp
  bytes := rfl
  budget := Nat.zero_le _
  fits := by simp

theorem Ticketed.pushes_eq_nil (h : Ticketed op) (hDone : op.sendSequence = op.admissionSequence) :
    op.pushes = [] := by
  cases hPushes : op.pushes with
  | nil => rfl
  | cons push rest =>
    have hMem := (h.inFlight push.sequence).mp (by simp [hPushes])
    omega

theorem Ticketed.eq_of_sequence (h : Ticketed op) {a b : Push} (ha : a ∈ op.pushes) (hb : b ∈ op.pushes)
    (hSequence : a.sequence = b.sequence) : a = b :=
  List.inj_on_of_nodup_map h.distinct ha hb hSequence

/-! ## Sections of the input side -/

variable {bytes : List UInt8}

theorem Ticketed.issue (h : Ticketed op) (hNext : op.admissionSequence + 1 < 2 ^ 64) (hOpen : op.input = .open)
    (hFits : bytes.length ≤ op.limits.itemBytes) :
    Ticketed { op with
      admissionSequence := op.admissionSequence + 1
      pushes := op.pushes ++ [{ sequence := op.admissionSequence, bytes }] } := by
  have hOrder := h.order
  have hNew : op.admissionSequence ∉ op.completedAdmissions := fun hMem => by
    have := (h.completed _ hMem).2
    omega
  have hFresh : op.admissionSequence ∉ op.pushes.map (·.sequence) := fun hMem => by
    have := ((h.inFlight _).mp hMem).2.1
    omega
  constructor
  case order => simp only; omega
  case bound => exact hNext
  case completed => exact fun n hn => ⟨(h.completed n hn).1, Nat.lt_succ_of_lt (h.completed n hn).2⟩
  case distinct =>
    simp only [List.map_append, List.map_cons, List.map_nil]
    exact List.Nodup.append h.distinct (List.nodup_singleton _) (by simpa using hFresh)
  case inFlight =>
    intro n
    simp only [List.map_append, List.map_cons, List.map_nil, List.mem_append, h.inFlight,
      List.mem_singleton]
    constructor
    · rintro (⟨hFrom, hTo, hOut⟩ | rfl)
      · exact ⟨hFrom, by omega, hOut⟩
      · exact ⟨hOrder, by omega, hNew⟩
    · rintro ⟨hFrom, hTo, hOut⟩
      rcases Nat.lt_succ_iff_lt_or_eq.mp hTo with hOld | rfl
      · exact .inl ⟨hFrom, hOld, hOut⟩
      · exact .inr rfl
  case sent =>
    intro push hPush hSent
    rcases List.mem_append.mp hPush with hOld | hLast
    · exact h.sent push hOld hSent
    · rw [List.mem_singleton.mp hLast] at hSent
      cases hSent
  case closed =>
    intro sequence hClosed
    rw [hOpen] at hClosed
    cases hClosed
  case bytes => exact h.bytes
  case budget => exact h.budget
  case fits =>
    intro push hPush
    rcases List.mem_append.mp hPush with hOld | hLast
    · exact h.fits push hOld
    · rw [List.mem_singleton.mp hLast]
      exact hFits

theorem map_sequence_setPhase (op : Operation P) (sequence : Nat) (phase : PushPhase) :
    (op.setPhase sequence phase).pushes.map (·.sequence) = op.pushes.map (·.sequence) := by
  simp only [setPhase, List.map_map]
  refine List.map_congr_left ?_
  intro push _
  simp only [Function.comp_apply]
  split <;> rfl

variable {sequence : Nat}

theorem mem_setPhase {phase : PushPhase} {push : Push} (h : push ∈ (op.setPhase sequence phase).pushes) :
    ∃ old ∈ op.pushes, push.sequence = old.sequence ∧ push.bytes = old.bytes ∧
      ((old.sequence = sequence ∧ push.phase = phase) ∨
        (old.sequence ≠ sequence ∧ push.phase = old.phase)) := by
  obtain ⟨old, hOld, rfl⟩ := List.mem_map.mp h
  refine ⟨old, hOld, ?_⟩
  split
  · rename_i hSequence
    exact ⟨rfl, rfl, .inl ⟨hSequence, rfl⟩⟩
  · rename_i hSequence
    exact ⟨rfl, rfl, .inr ⟨hSequence, rfl⟩⟩

theorem Ticketed.setPhase (h : Ticketed op) {phase : PushPhase} (hSent : phase = .sent → sequence = op.sendSequence) :
    Ticketed (op.setPhase sequence phase) where
  order := h.order
  bound := h.bound
  completed := h.completed
  distinct := by rw [map_sequence_setPhase]; exact h.distinct
  inFlight := by rw [map_sequence_setPhase]; exact h.inFlight
  sent := by
    intro push hPush hPhase
    obtain ⟨old, hOld, hSequence, _, ⟨hEq, hNew⟩ | ⟨_, hSame⟩⟩ := mem_setPhase hPush
    · rw [hSequence, hEq]
      exact hSent (hNew.symm.trans hPhase)
    · rw [hSequence]
      exact h.sent old hOld (hSame.symm.trans hPhase)
  closed := h.closed
  bytes := h.bytes
  budget := h.budget
  fits := by
    intro push hPush
    obtain ⟨old, hOld, _, hBytes, _⟩ := mem_setPhase hPush
    rw [hBytes]
    exact h.fits old hOld

theorem Ticketed.enqueue (h : Ticketed op) (hFits : op.inputBytes + bytes.length ≤ op.limits.inputBytes) :
    Ticketed { op with
      inputQueue := op.inputQueue ++ [bytes]
      inputBytes := op.inputBytes + bytes.length } where
  order := h.order
  bound := h.bound
  completed := h.completed
  distinct := h.distinct
  inFlight := h.inFlight
  sent := h.sent
  closed := h.closed
  bytes := by simp [h.bytes]
  budget := hFits
  fits := h.fits

theorem Ticketed.dequeue (h : Ticketed op) {rest : List (List UInt8)} (hHead : op.inputQueue = bytes :: rest) :
    Ticketed { op with inputQueue := rest, inputBytes := op.inputBytes - bytes.length } where
  order := h.order
  bound := h.bound
  completed := h.completed
  distinct := h.distinct
  inFlight := h.inFlight
  sent := h.sent
  closed := h.closed
  bytes := by
    have hBytes := h.bytes
    rw [hHead, List.map_cons, List.sum_cons] at hBytes
    simp only
    omega
  budget := Nat.le_trans (Nat.sub_le ..) h.budget
  fits := h.fits

structure Released (op op' : Operation P) (sequence : Nat) : Prop where
  mono : op.sendSequence ≤ op'.sendSequence
  passed : sequence = op.sendSequence → op.sendSequence < op'.sendSequence
  ticketed : Ticketed op'

theorem mem_eraseP_sequence {pushes : List Push} (hDistinct : (pushes.map (·.sequence)).Nodup)
    (sequence : Nat) (push : Push) :
    push ∈ pushes.eraseP (fun p => p.sequence == sequence) ↔ push ∈ pushes ∧ push.sequence ≠ sequence := by
  induction pushes with
  | nil => simp
  | cons head rest ih =>
    rw [List.map_cons, List.nodup_cons] at hDistinct
    by_cases hHead : head.sequence = sequence
    · have hRest : ∀ p ∈ rest, p.sequence ≠ sequence := by
        rintro p hp rfl
        exact hDistinct.1 (hHead ▸ List.mem_map_of_mem hp)
      rw [List.eraseP_cons_of_pos (by simpa using hHead), List.mem_cons]
      constructor
      · exact fun hMem => ⟨.inr hMem, hRest push hMem⟩
      · rintro ⟨rfl | hMem, hNe⟩
        · exact absurd hHead hNe
        · exact hMem
    · rw [List.eraseP_cons_of_neg (by simpa using hHead), List.mem_cons, ih hDistinct.2, List.mem_cons]
      constructor
      · rintro (rfl | ⟨hMem, hNe⟩)
        · exact ⟨.inl rfl, hHead⟩
        · exact ⟨.inr hMem, hNe⟩
      · rintro ⟨rfl | hMem, hNe⟩
        · exact .inl rfl
        · exact .inr ⟨hMem, hNe⟩

theorem Ticketed.release (h : Ticketed op) (hPush : sequence ∈ op.pushes.map (·.sequence)) :
    Released op ({ op with pushes := op.pushes.eraseP fun p => p.sequence == sequence }.releaseAdmission
      sequence) sequence := by
  obtain ⟨hFrom, hTo, hOut⟩ := (h.inFlight sequence).mp hPush
  have hDrained := drain_drained h.bound (insert sequence op.completedAdmissions).card
    (insert sequence op.completedAdmissions) op.sendSequence (Nat.le_refl _)
    (fun n hn => by
      rcases Finset.mem_insert.mp hn with rfl | hOld
      · exact hTo
      · exact (h.completed n hOld).2) h.order
  have hMem := mem_eraseP_sequence h.distinct sequence
  have hMono := hDrained.mono
  constructor
  case mono => exact hMono
  case passed =>
    intro hFirst
    rcases Nat.eq_or_lt_of_le hMono with hSame | hLater
    · exact absurd (Finset.mem_insert.mpr (.inl (hSame.symm.trans hFirst.symm))) hDrained.stops
    · exact hLater
  case ticketed =>
    constructor
    case order => exact hDrained.limit
    case bound => exact h.bound
    case completed =>
      intro n hn
      obtain ⟨hIn, hSide⟩ := (hDrained.rest n).mp hn
      have hNe : (drain (insert sequence op.completedAdmissions).card
          (insert sequence op.completedAdmissions) op.sendSequence).2 ≠ n := fun hEq =>
        hDrained.stops (hEq ▸ hIn)
      simp only [releaseAdmission]
      rcases Finset.mem_insert.mp hIn with rfl | hOld
      · exact ⟨by omega, hTo⟩
      · have := h.completed n hOld
        exact ⟨by omega, this.2⟩
    case distinct => exact h.distinct.sublist (List.Sublist.map _ List.eraseP_sublist)
    case inFlight =>
      intro n
      have hErased : n ∈ (op.pushes.eraseP fun p => p.sequence == sequence).map (·.sequence) ↔
          n ∈ op.pushes.map (·.sequence) ∧ n ≠ sequence := by
        simp only [List.mem_map, hMem]
        constructor
        · rintro ⟨push, ⟨hIn, hNe⟩, rfl⟩
          exact ⟨⟨push, hIn, rfl⟩, hNe⟩
        · rintro ⟨⟨push, hIn, rfl⟩, hNe⟩
          exact ⟨push, ⟨hIn, hNe⟩, rfl⟩
      simp only [releaseAdmission]
      rw [hErased, h.inFlight, hDrained.rest, Finset.mem_insert]
      constructor
      · rintro ⟨⟨hLow, hHigh, hFree⟩, hNe⟩
        refine ⟨?_, hHigh, by tauto⟩
        by_contra hPassed
        rcases Finset.mem_insert.mp (hDrained.passed n hLow (by omega)) with hEq | hIn
        · exact hNe hEq
        · exact hFree hIn
      · rintro ⟨hLow, hHigh, hFree⟩
        exact ⟨⟨by omega, hHigh, by tauto⟩, by tauto⟩
    case sent =>
      intro push hPushMem hSent
      obtain ⟨hIn, hNe⟩ := (hMem push).mp hPushMem
      have hFirst := h.sent push hIn hSent
      have hFree := ((h.inFlight push.sequence).mp (List.mem_map_of_mem hIn)).2.2
      simp only [releaseAdmission]
      -- a sent push still holds the ticket the loop starts at
      rcases Nat.eq_or_lt_of_le hMono with hSame | hLater
      · exact hFirst.trans hSame
      · rcases Finset.mem_insert.mp (hDrained.passed _ (Nat.le_refl _) hLater) with hEq | hOld
        · exact absurd (hFirst.trans hEq) hNe
        · exact absurd (hFirst ▸ hOld) hFree
    case closed => exact h.closed
    case bytes => exact h.bytes
    case budget => exact h.budget
    case fits => exact fun push hPushMem => h.fits push ((hMem push).mp hPushMem).1

theorem Ticketed.tryPush (h : Ticketed op) (hNext : op.admissionSequence + 1 < 2 ^ 64) (hOpen : op.input = .open)
    (hTurn : op.admissionSequence = op.sendSequence) (hFits : op.inputBytes + bytes.length ≤ op.limits.inputBytes) :
    Ticketed { op with
      inputQueue := op.inputQueue ++ [bytes]
      inputBytes := op.inputBytes + bytes.length
      admissionSequence := op.admissionSequence + 1
      sendSequence := op.admissionSequence + 1 } := by
  have hNone := h.pushes_eq_nil hTurn.symm
  constructor
  case order => exact Nat.le_refl _
  case bound => exact hNext
  case completed =>
    intro n hn
    have := h.completed n hn
    omega
  case distinct => exact h.distinct
  case inFlight =>
    intro n
    simp only [hNone, List.map_nil, List.not_mem_nil, false_iff, not_and]
    omega
  case sent => simp [hNone]
  case closed =>
    intro sequence hClosed
    rw [hOpen] at hClosed
    cases hClosed
  case bytes => simp [h.bytes]
  case budget => exact hFits
  case fits => exact h.fits

theorem Ticketed.inputDone (h : Ticketed op) : Ticketed op.inputDone.1 := by
  unfold Operation.inputDone
  split
  · exact ⟨h.order, h.bound, h.completed, h.distinct, h.inFlight, h.sent,
      fun sequence hClosed => (InputState.closed.inj hClosed).symm, h.bytes, h.budget, h.fits⟩
  · exact h

end Aimux.Ops.Operation
