import Aimux.Core.Error

/-! # Retrying an operation

Runs are timed. The abort signal of a call is the time from which on it is aborted; an operation answers
its start time with what it logs and how it ends, so that whatever runs beside it only shows in its times.
The loop is `retry_with_exponential_backoff` of `retry.rs`, followed for as many rounds as there is fuel.
-/

namespace Aimux.Composite

open Aimux.Core

inductive Outcome (T : Type) where
  | ended (time : Nat) (result : Except AiMuxError T)
  /-- It never ends by itself. -/
  | hanging
  | outOfFuel

structure Ran (E T : Type) where
  log : List E
  outcome : Outcome T

def Ran.after {E T : Type} (earlier : List E) (ran : Ran E T) : Ran E T :=
  { ran with log := earlier ++ ran.log }

/-- `AiMuxError::from_abort_signal` -/
def abortedError : AiMuxError := .aborted "request aborted"

def isAborted (abort : Option Nat) (now : Nat) : Bool := abort.any fun time => decide (time ≤ now)

/-- The biased `select!` of the signal and an operation: the signal wins also at the same time. -/
def Outcome.race {T : Type} (abort : Option Nat) : Outcome T → Outcome T
  | .ended time result =>
    match abort with
    | some cancelled => if cancelled ≤ time then .ended cancelled (.error abortedError) else .ended time result
    | none => .ended time result
  | .hanging =>
    match abort with
    | some cancelled => .ended cancelled (.error abortedError)
    | none => .hanging
  | .outOfFuel => .outOfFuel

inductive AfterFailure where
  | again
  | stop (error : AiMuxError)

/-- What follows a failed attempt; the number of the try is `errors.len() as u32`. -/
def afterFailure (maxRetries : Nat) (shouldRetry : AiMuxError → Bool) (errors : List AiMuxError)
    (error : AiMuxError) : AfterFailure :=
  match error with
  | .aborted _ => .stop error
  | .timeout _ => .stop error
  | .retry _ _ => .stop error
  | _ =>
    if maxRetries = 0 then .stop error
    else
      let history := errors ++ [error]
      let tryNumber := history.length % 2 ^ 32
      if tryNumber > maxRetries then .stop (.retry .maxRetriesExceeded history)
      else if shouldRetry error then .again
      else if tryNumber = 1 then .stop error
      else .stop (.retry .errorNotRetryable history)

section

variable {E T : Type}

/-- The rounds after the failed attempts `errors`. An attempt is told how many came before it; the state
of the delay function, such as its random numbers, is told the same. -/
def retryLoop (operation : Nat → Nat → Ran E T) (maxRetries backoffFactor : Nat) (abort : Option Nat)
    (shouldRetry : AiMuxError → Bool) (getDelayMs : Nat → AiMuxError → Nat → Nat) :
    Nat → List AiMuxError → Nat → Nat → Ran E T
  | 0, _, _, _ => { log := [], outcome := .outOfFuel }
  | fuel + 1, errors, exponentialDelay, now =>
    if isAborted abort now then { log := [], outcome := .ended now (.error abortedError) }
    else
      let ran := operation errors.length now
      match ran.outcome.race abort with
      | .ended time (.error error) =>
        match afterFailure maxRetries shouldRetry errors error with
        | .stop final => { ran with outcome := .ended time (.error final) }
        | .again =>
          let awake := time + getDelayMs errors.length error exponentialDelay
          match Outcome.race abort (.ended awake (.ok ())) with
          | .ended later (.ok _) =>
            (retryLoop operation maxRetries backoffFactor abort shouldRetry getDelayMs fuel
              (errors ++ [error]) (min (exponentialDelay * backoffFactor) (2 ^ 64 - 1)) later).after ran.log
          | .ended later (.error aborted) => { ran with outcome := .ended later (.error aborted) }
          | .hanging => { ran with outcome := .hanging }
          | .outOfFuel => { ran with outcome := .outOfFuel }
      | other => { ran with outcome := other }

/-- `PreparedRetries`, with the delay and the factor that `prepare_retries` gives it. -/
structure PreparedRetries where
  maxRetries : Nat
  initialDelayMs : Nat
  backoffFactor : Nat
  abortSignal : Option Nat

def prepareRetries (maxRetries : Option Nat) (abort : Option Nat) : PreparedRetries where
  maxRetries := maxRetries.getD 2
  initialDelayMs := 2000
  backoffFactor := 2
  abortSignal := abort

def PreparedRetries.retry (self : PreparedRetries) (fuel : Nat) (getDelayMs : Nat → AiMuxError → Nat → Nat)
    (operation : Nat → Nat → Ran E T) (now : Nat) : Ran E T :=
  retryLoop operation self.maxRetries self.backoffFactor self.abortSignal AiMuxError.isRetryable getDelayMs fuel []
    self.initialDelayMs now

/-! ## The attempts of a loop -/

/-- The rounds from attempt `k` on. Only a retryable error is followed by another attempt, and then only
below the greatest number of retries; unless that is zero no retryable error comes out. -/
inductive Attempts (operation : Nat → Nat → Ran E T) (maxRetries : Nat) (abort : Option Nat) :
    Nat → Nat → Ran E T → Prop
  | outOfFuel (k now : Nat) : Attempts operation maxRetries abort k now { log := [], outcome := .outOfFuel }
  | aborted (k now : Nat) (hAborted : isAborted abort now = true) :
    Attempts operation maxRetries abort k now { log := [], outcome := .ended now (.error abortedError) }
  | last (k now : Nat) (outcome : Outcome T) (hStart : isAborted abort now = false)
    (hTime : ∀ time result, outcome = .ended time result → now ≤ time)
    (hFinal : ∀ time error, outcome = .ended time (.error error) → error.isRetryable = true → maxRetries = 0) :
    Attempts operation maxRetries abort k now { log := (operation k now).log, outcome }
  | retried (k now time later : Nat) (error : AiMuxError) (rest : Ran E T) (hStart : isAborted abort now = false)
    (hFailed : (operation k now).outcome = .ended time (.error error)) (hRetryable : error.isRetryable = true)
    (hMore : k < maxRetries) (hLater : time ≤ later)
    (hRest : Attempts operation maxRetries abort (k + 1) later rest) :
    Attempts operation maxRetries abort k now (rest.after (operation k now).log)

variable {abort : Option Nat} {now : Nat}

theorem lt_of_not_isAborted {cancelled : Nat} (h : isAborted abort now = false) (hAbort : abort = some cancelled) :
    now < cancelled := by
  rw [hAbort] at h
  exact Nat.lt_of_not_le (of_decide_eq_false h)

variable {outcome : Outcome T}

theorem Outcome.race_time {time : Nat} {result : Except AiMuxError T} (hStart : isAborted abort now = false)
    (hTime : ∀ time result, outcome = .ended time result → now ≤ time) (h : outcome.race abort = .ended time result) :
    now ≤ time := by
  cases outcome with
  | ended finished answer =>
    have hFinished := hTime finished answer rfl
    simp only [Outcome.race] at h
    split at h
    · rename_i cancelled
      split at h
      · obtain ⟨rfl, _⟩ := Outcome.ended.inj h
        exact Nat.le_of_lt (lt_of_not_isAborted hStart rfl)
      · obtain ⟨rfl, _⟩ := Outcome.ended.inj h
        exact hFinished
    · obtain ⟨rfl, _⟩ := Outcome.ended.inj h
      exact hFinished
  | hanging =>
    simp only [Outcome.race] at h
    split at h
    · obtain ⟨rfl, _⟩ := Outcome.ended.inj h
      exact Nat.le_of_lt (lt_of_not_isAborted hStart rfl)
    · cases h
  | outOfFuel => cases h

variable {error : AiMuxError}

theorem Outcome.race_error {time : Nat} (h : outcome.race abort = .ended time (.error error)) :
    outcome = .ended time (.error error) ∨ error = abortedError := by
  cases outcome with
  | ended finished answer =>
    simp only [Outcome.race] at h
    split at h
    · split at h
      · exact .inr (Except.error.inj (Outcome.ended.inj h).2).symm
      · exact .inl h
    · exact .inl h
  | hanging =>
    simp only [Outcome.race] at h
    split at h
    · exact .inr (Except.error.inj (Outcome.ended.inj h).2).symm
    · cases h
  | outOfFuel => cases h

variable {maxRetries : Nat}

/-- The loop goes on only after a retryable error, and below the greatest number of retries. -/
theorem afterFailure_again {errors : List AiMuxError} (hMax : maxRetries + 1 < 2 ^ 32)
    (hErrors : errors.length ≤ maxRetries) (h : afterFailure maxRetries AiMuxError.isRetryable errors error = .again) :
    error.isRetryable = true ∧ errors.length < maxRetries := by
  have hTry : (errors ++ [error]).length % 2 ^ 32 = errors.length + 1 := by
    rw [List.length_append, List.length_singleton]
    exact Nat.mod_eq_of_lt (Nat.lt_of_le_of_lt (Nat.succ_le_succ hErrors) hMax)
  unfold afterFailure at h
  split at h
  · cases h
  · cases h
  · cases h
  · split at h
    · cases h
    · simp only [hTry] at h
      split at h
      · cases h
      · rename_i hBelow
        split at h
        · rename_i hRetryable
          exact ⟨hRetryable, Nat.lt_of_succ_le (Nat.le_of_not_lt hBelow)⟩
        · split at h <;> cases h

/-- Where retries are allowed, the error the loop stops with is not retryable. -/
theorem afterFailure_stop {errors : List AiMuxError} {final : AiMuxError}
    (h : afterFailure maxRetries AiMuxError.isRetryable errors error = .stop final) (hFinal : final.isRetryable = true) :
    maxRetries = 0 := by
  unfold afterFailure at h
  split at h
  · obtain rfl := AfterFailure.stop.inj h
    cases hFinal
  · obtain rfl := AfterFailure.stop.inj h
    cases hFinal
  · obtain rfl := AfterFailure.stop.inj h
    cases hFinal
  · split at h
    · assumption
    · simp only at h
      split at h
      · obtain rfl := AfterFailure.stop.inj h
        cases hFinal
      · split at h
        · cases h
        · rename_i hNotRetryable
          split at h
          · obtain rfl := AfterFailure.stop.inj h
            exact absurd hFinal hNotRetryable
          · obtain rfl := AfterFailure.stop.inj h
            cases hFinal

theorem Outcome.race_ended (abort : Option Nat) (time : Nat) (result : Except AiMuxError T) :
    Outcome.race abort (.ended time result) = .ended time result ∨
      ∃ cancelled, abort = some cancelled ∧
        Outcome.race abort (.ended time result) = .ended cancelled (.error abortedError) := by
  simp only [Outcome.race]
  split
  · split
    · exact .inr ⟨_, rfl, rfl⟩
    · exact .inl rfl
  · exact .inl rfl

variable {getDelayMs : Nat → AiMuxError → Nat → Nat} {operation : Nat → Nat → Ran E T}

/-- The loop makes the attempts that are allowed and no others. -/
theorem retryLoop_attempts {backoffFactor : Nat} (hMax : maxRetries + 1 < 2 ^ 32)
    (hTimely : ∀ k now time result, (operation k now).outcome = .ended time result → now ≤ time) (fuel : Nat)
    (errors : List AiMuxError) (exponentialDelay now : Nat) (hErrors : errors.length ≤ maxRetries) :
    Attempts operation maxRetries abort errors.length now
      (retryLoop operation maxRetries backoffFactor abort AiMuxError.isRetryable getDelayMs fuel errors
        exponentialDelay now) := by
  induction fuel generalizing errors exponentialDelay now with
  | zero => exact .outOfFuel _ _
  | succ fuel ih =>
    rw [retryLoop]
    by_cases hAborted : isAborted abort now = true
    · rw [if_pos hAborted]
      exact .aborted _ _ hAborted
    rw [if_neg hAborted]
    have hStart : isAborted abort now = false := Bool.eq_false_iff.mpr hAborted
    have hTimes : ∀ time result, (operation errors.length now).outcome.race abort = .ended time result →
        now ≤ time := fun time result hRace => Outcome.race_time hStart (hTimely errors.length now) hRace
    -- an outcome without an error ends the loop as it is
    have hEnds : ∀ outcome, (operation errors.length now).outcome.race abort = outcome →
        (∀ time error, outcome ≠ .ended time (.error error)) →
        Attempts operation maxRetries abort errors.length now { operation errors.length now with outcome } := by
      intro outcome hRace hOther
      refine .last _ _ _ hStart ?_ ?_
      · rintro time result rfl
        exact hTimes time result hRace
      · intro time error hEnded _
        exact absurd hEnded (hOther time error)
    have hStops : ∀ time final, now ≤ time → (final.isRetryable = true → maxRetries = 0) →
        Attempts operation maxRetries abort errors.length now
          { operation errors.length now with outcome := .ended time (.error final) } := by
      intro time final hTime hFinal
      refine .last _ _ _ hStart ?_ ?_
      · intro other result hEnded
        exact (Outcome.ended.inj hEnded).1 ▸ hTime
      · intro other error hEnded hRetryable
        rw [← Except.error.inj (Outcome.ended.inj hEnded).2] at hRetryable
        exact hFinal hRetryable
    cases hRace : (operation errors.length now).outcome.race abort with
    | hanging =>
      simp only [hRace]
      exact hEnds _ hRace (by simp)
    | outOfFuel =>
      simp only [hRace]
      exact hEnds _ hRace (by simp)
    | ended time result =>
      have hTime := hTimes time result hRace
      cases result with
      | ok value =>
        simp only [hRace]
        exact hEnds _ hRace (by simp)
      | error error =>
        simp only [hRace]
        cases hAfter : afterFailure maxRetries AiMuxError.isRetryable errors error with
        | stop final =>
          simp only
          exact hStops time final hTime (afterFailure_stop hAfter)
        | again =>
          simp only
          obtain ⟨hRetryable, hMore⟩ := afterFailure_again hMax hErrors hAfter
          have hFailed : (operation errors.length now).outcome = .ended time (.error error) := by
            rcases Outcome.race_error hRace with hFailed | rfl
            · exact hFailed
            · cases hRetryable
          rcases Outcome.race_ended abort (time + getDelayMs errors.length error exponentialDelay)
            (.ok () : Except AiMuxError Unit) with hAwake | ⟨cancelled, hAbort, hAwake⟩
          · simp only [hAwake]
            have hNext := ih (errors ++ [error]) (min (exponentialDelay * backoffFactor) (2 ^ 64 - 1))
              (time + getDelayMs errors.length error exponentialDelay)
              (by rw [List.length_append]; exact hMore)
            rw [List.length_append, List.length_singleton] at hNext
            exact .retried errors.length now time _ error _ hStart hFailed hRetryable hMore
              (Nat.le_add_right _ _) hNext
          · simp only [hAwake]
            refine hStops cancelled abortedError (Nat.le_of_lt (lt_of_not_isAborted hStart hAbort)) ?_
            intro hRetryableAbort
            cases hRetryableAbort

theorem PreparedRetries.retry_attempts (self : PreparedRetries) (hMax : self.maxRetries + 1 < 2 ^ 32)
    (hTimely : ∀ k now time result, (operation k now).outcome = .ended time result → now ≤ time) (fuel now : Nat) :
    Attempts operation self.maxRetries self.abortSignal 0 now (self.retry fuel getDelayMs operation now) :=
  retryLoop_attempts hMax hTimely fuel [] self.initialDelayMs now (Nat.zero_le _)

/-! ## The loop ends -/

theorem Outcome.race_ne_outOfFuel (abort : Option Nat) (h : outcome ≠ .outOfFuel) :
    outcome.race abort ≠ .outOfFuel := by
  cases outcome with
  | ended time result =>
    rcases Outcome.race_ended abort time result with hSame | ⟨cancelled, _, hAborted⟩
    · rw [hSame]
      exact nofun
    · rw [hAborted]
      exact nofun
  | hanging =>
    simp only [Outcome.race]
    split
    · exact nofun
    · exact nofun
  | outOfFuel => exact absurd rfl h

/-- One round for each allowed attempt is enough. -/
theorem retryLoop_ends {backoffFactor : Nat} (hMax : maxRetries + 1 < 2 ^ 32)
    (hOperation : ∀ k now, (operation k now).outcome ≠ .outOfFuel) (fuel : Nat) (errors : List AiMuxError)
    (exponentialDelay now : Nat) (hErrors : errors.length ≤ maxRetries) (hFuel : maxRetries < errors.length + fuel) :
    (retryLoop operation maxRetries backoffFactor abort AiMuxError.isRetryable getDelayMs fuel errors
      exponentialDelay now).outcome ≠ .outOfFuel := by
  induction fuel generalizing errors exponentialDelay now with
  | zero => exact absurd hFuel (Nat.not_lt.mpr hErrors)
  | succ fuel ih =>
    have hRace := Outcome.race_ne_outOfFuel abort (hOperation errors.length now)
    rw [retryLoop]
    split
    · exact nofun
    · simp only
      split
      · split
        · exact nofun
        · rename_i time error _ _ hAgain
          obtain ⟨_, hMore⟩ := afterFailure_again hMax hErrors hAgain
          rcases Outcome.race_ended abort (time + getDelayMs errors.length error exponentialDelay)
            (.ok () : Except AiMuxError Unit) with hAwake | ⟨cancelled, _, hAwake⟩
          · simp only [hAwake]
            refine ih _ _ _ ?_ ?_
            · rw [List.length_append]
              exact hMore
            · rw [List.length_append, List.length_singleton]
              omega
          · simp only [hAwake]
            exact nofun
      · exact hRace

theorem PreparedRetries.retry_ends (self : PreparedRetries) (hMax : self.maxRetries + 1 < 2 ^ 32)
    (hOperation : ∀ k now, (operation k now).outcome ≠ .outOfFuel) {fuel : Nat} (hFuel : self.maxRetries < fuel)
    (now : Nat) : (self.retry fuel getDelayMs operation now).outcome ≠ .outOfFuel :=
  retryLoop_ends hMax hOperation fuel [] self.initialDelayMs now (Nat.zero_le _)
    (by rw [List.length_nil, Nat.zero_add]; exact hFuel)

/-- The first attempt is made at once. -/
theorem PreparedRetries.retry_starts (self : PreparedRetries) {fuel : Nat} (hFuel : 0 < fuel)
    (hStart : isAborted self.abortSignal now = false) :
    ∃ rest, (self.retry fuel getDelayMs operation now).log = (operation 0 now).log ++ rest := by
  obtain ⟨fuel, rfl⟩ := Nat.exists_eq_succ_of_ne_zero (Nat.ne_of_gt hFuel)
  rw [PreparedRetries.retry, retryLoop, hStart, if_neg Bool.false_ne_true]
  simp only [List.length_nil]
  split
  · split
    · exact ⟨[], (List.append_nil _).symm⟩
    · split
      · exact ⟨_, rfl⟩
      · exact ⟨[], (List.append_nil _).symm⟩
      · exact ⟨[], (List.append_nil _).symm⟩
      · exact ⟨[], (List.append_nil _).symm⟩
  · exact ⟨[], (List.append_nil _).symm⟩

end

end Aimux.Composite
