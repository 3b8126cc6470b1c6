import Aimux.Composite.Retry

/-! # What a retried operation returns

The attempts of one call of `retry_with_exponential_backoff`, when it makes them and what it makes of
their errors.
-/

namespace Aimux.Composite

open Aimux.Core

structure RetryAttempt where
  index : Nat
  start : Nat

/-- What an attempt does when it is started: it takes some time and ends with a result, or never ends. -/
abbrev Behaviour (T : Type) := RetryAttempt → Option (Nat × Except AiMuxError T)

section

variable {T : Type}

def Behaviour.outcome (behaviour : Behaviour T) (attempt : RetryAttempt) : Outcome T :=
  match behaviour attempt with
  | some (duration, result) => .ended (attempt.start + duration) result
  | none => .hanging

/-- The operation that logs each of its attempts. -/
def Behaviour.operation (behaviour : Behaviour T) (index start : Nat) : Ran RetryAttempt T where
  log := [⟨index, start⟩]
  outcome := behaviour.outcome ⟨index, start⟩

/-- How an attempt ends beside the abort signal. -/
def Behaviour.ends (behaviour : Behaviour T) (abort : Option Nat) (attempt : RetryAttempt) : Outcome T :=
  (behaviour.outcome attempt).race abort

/-- Errors that are handed on as they are. -/
def passesThrough : AiMuxError → Bool
  | .aborted _ | .timeout _ | .retry _ _ => true
  | _ => false

/-- What a call returns after its last attempt failed. -/
inductive FailedWith (behaviour : Behaviour T) (maxRetries : Nat) (abort : Option Nat)
    (shouldRetry : AiMuxError → Bool) (attempts : List RetryAttempt) (time : Nat) (error : AiMuxError) :
    Outcome T → Prop
  | passed (hPasses : passesThrough error = true) :
    FailedWith behaviour maxRetries abort shouldRetry attempts time error (.ended time (.error error))
  /-- The abort comes before the next attempt. -/
  | abortedWait (cancelled : Nat) (hPasses : passesThrough error = false)
    (hRetry : shouldRetry error = true) (hMore : attempts.length ≤ maxRetries)
    (hAbort : abort = some cancelled) :
    FailedWith behaviour maxRetries abort shouldRetry attempts time error
      (.ended cancelled (.error abortedError))
  | single (hPasses : passesThrough error = false)
    (hNoRetry : shouldRetry error = false ∨ maxRetries < attempts.length) (hOne : attempts.length = 1) :
    FailedWith behaviour maxRetries abort shouldRetry attempts time error (.ended time (.error error))
  | several (reason : RetryErrorReason) (history : List AiMuxError) (hPasses : passesThrough error = false)
    (hNoRetry : shouldRetry error = false ∨ maxRetries < attempts.length) (hMany : 1 < attempts.length)
    (hHistory : List.Forall₂ (fun attempt failure => ∃ ended,
      behaviour.ends abort attempt = .ended ended (.error failure)) attempts history)
    (hFlat : ∀ failure ∈ history, ∀ reason errors, failure ≠ .retry reason errors) :
    FailedWith behaviour maxRetries abort shouldRetry attempts time error
      (.ended time (.error (.retry reason history)))

/-- The call ends as its last attempt does, but for the errors `FailedWith` makes of a failed one. -/
def EndsAs (behaviour : Behaviour T) (maxRetries : Nat) (abort : Option Nat)
    (shouldRetry : AiMuxError → Bool) (attempts : List RetryAttempt) (last : RetryAttempt)
    (outcome : Outcome T) : Prop :=
  match behaviour.ends abort last with
  | .ended time (.error error) =>
    FailedWith behaviour maxRetries abort shouldRetry attempts time error outcome
  | other => outcome = other

structure RetryContract (behaviour : Behaviour T) (maxRetries : Nat) (abort : Option Nat)
    (shouldRetry : AiMuxError → Bool) (ran : Ran RetryAttempt T) : Prop where
  hAttempts : ran.log.length ≤ maxRetries + 1
  hNumbered : ∀ (index : Nat) (attempt : RetryAttempt), ran.log[index]? = some attempt → attempt.index = index
  hBeforeAbort : ∀ attempt ∈ ran.log, isAborted abort attempt.start = false
  /-- Another attempt follows only a failure that may be retried. -/
  hRetried : ∀ (index : Nat) (attempt : RetryAttempt), ran.log[index]? = some attempt → index + 1 < ran.log.length →
    ∃ time error, behaviour.ends abort attempt = .ended time (.error error) ∧
      passesThrough error = false ∧ shouldRetry error = true
  hUnstarted : ran.log = [] → ∃ time, ran.outcome = .ended time (.error abortedError) ∧
    isAborted abort time = true
  hEnds : ∀ last, ran.log.getLast? = some last →
    EndsAs behaviour maxRetries abort shouldRetry ran.log last ran.outcome

/-! ## Failures in a row -/

/-- All attempts so far failed, were to be retried and were waited for; the next is due at `start`. -/
inductive Failing (behaviour : Behaviour T) (abort : Option Nat) (shouldRetry : AiMuxError → Bool)
    (getDelayMs : Nat → AiMuxError → Nat → Nat) (backoffFactor initialDelay now : Nat) :
    List RetryAttempt → List AiMuxError → Nat → Nat → Prop
  | none : Failing behaviour abort shouldRetry getDelayMs backoffFactor initialDelay now [] [] initialDelay now
  | more (attempts : List RetryAttempt) (errors : List AiMuxError) (exponentialDelay start time : Nat)
    (error : AiMuxError)
    (hEarlier : Failing behaviour abort shouldRetry getDelayMs backoffFactor initialDelay now attempts errors
      exponentialDelay start)
    (hStart : isAborted abort start = false)
    (hFailed : behaviour.ends abort ⟨errors.length, start⟩ = .ended time (.error error))
    (hPasses : passesThrough error = false) (hRetry : shouldRetry error = true)
    (hWait : isAborted abort (time + getDelayMs errors.length error exponentialDelay) = false) :
    Failing behaviour abort shouldRetry getDelayMs backoffFactor initialDelay now
      (attempts ++ [⟨errors.length, start⟩]) (errors ++ [error])
      (min (exponentialDelay * backoffFactor) (2 ^ 64 - 1))
      (time + getDelayMs errors.length error exponentialDelay)

/-- `count` attempts in a row fail with an error to be retried, none of them cut by the abort. -/
def FailsRetryably (behaviour : Behaviour T) (abort : Option Nat) (shouldRetry : AiMuxError → Bool)
    (getDelayMs : Nat → AiMuxError → Nat → Nat) (backoffFactor initialDelay now count : Nat) : Prop :=
  ∃ attempts errors exponentialDelay start time error,
    Failing behaviour abort shouldRetry getDelayMs backoffFactor initialDelay now attempts errors
      exponentialDelay start ∧
    errors.length + 1 = count ∧ isAborted abort start = false ∧
    behaviour.ends abort ⟨errors.length, start⟩ = .ended time (.error error) ∧
    passesThrough error = false ∧ shouldRetry error = true

end

/-! ## One failure -/

section

variable {maxRetries : Nat} {shouldRetry : AiMuxError → Bool} {errors : List AiMuxError} {error : AiMuxError}

theorem afterFailure_passes (hPasses : passesThrough error = true) :
    afterFailure maxRetries shouldRetry errors error = .stop error := by
  cases error <;> first | rfl | cases hPasses

/-- The cases of a failure that is not handed on, by the number of the try. -/
theorem afterFailure_ordinary (hPasses : passesThrough error = false) :
    afterFailure maxRetries shouldRetry errors error =
      if maxRetries = 0 then .stop error
      else if (errors.length + 1) % 2 ^ 32 > maxRetries then
        .stop (.retry .maxRetriesExceeded (errors ++ [error]))
      else if shouldRetry error then .again
      else if (errors.length + 1) % 2 ^ 32 = 1 then .stop error
      else .stop (.retry .errorNotRetryable (errors ++ [error])) := by
  unfold afterFailure
  split
  · cases hPasses
  · cases hPasses
  · cases hPasses
  · simp only [List.length_append, List.length_singleton]

theorem afterFailure_retries (errors : List AiMuxError) (hPasses : passesThrough error = false) (hRetry : shouldRetry error = true)
    (hMax : maxRetries < 2 ^ 32) (hMore : errors.length < maxRetries) :
    afterFailure maxRetries shouldRetry errors error = .again := by
  have hTry : (errors.length + 1) % 2 ^ 32 = errors.length + 1 := Nat.mod_eq_of_lt (by omega)
  rw [afterFailure_ordinary hPasses, hTry, if_neg (by omega), if_neg (by omega), if_pos hRetry]

/-- At the greatest number of retries the number of the try wraps around to zero. -/
theorem afterFailure_wraps (hPasses : passesThrough error = false) (hRetry : shouldRetry error = true)
    (hMax : maxRetries + 1 = 2 ^ 32) (hLength : errors.length = maxRetries) :
    afterFailure maxRetries shouldRetry errors error = .again := by
  have hTry : (errors.length + 1) % 2 ^ 32 = 0 := by
    rw [hLength, hMax, Nat.mod_self]
  rw [afterFailure_ordinary hPasses, hTry, if_neg (by omega), if_neg (by omega), if_pos hRetry]

/-- A failure that ends the call, unless the number of the try wraps around. -/
theorem afterFailure_final (hPasses : passesThrough error = false) (hMax : maxRetries < 2 ^ 32)
    (hLength : errors.length ≤ maxRetries)
    (hNoRetry : shouldRetry error = false ∨ (errors.length = maxRetries ∧ maxRetries + 1 ≠ 2 ^ 32)) :
    (errors = [] ∧ afterFailure maxRetries shouldRetry errors error = .stop error) ∨
      (errors ≠ [] ∧ ∃ reason, afterFailure maxRetries shouldRetry errors error =
        .stop (.retry reason (errors ++ [error]))) := by
  rw [afterFailure_ordinary hPasses]
  by_cases hEmpty : errors = []
  · refine .inl ⟨hEmpty, ?_⟩
    rw [hEmpty] at hNoRetry ⊢
    simp only [List.length_nil, Nat.zero_add] at hNoRetry ⊢
    by_cases hZero : maxRetries = 0
    · rw [if_pos hZero]
    · rw [if_neg hZero, if_neg (by omega)]
      rcases hNoRetry with hNoRetry | ⟨hLast, -⟩
      · rw [hNoRetry]
        rfl
      · exact absurd hLast.symm hZero
  · refine .inr ⟨hEmpty, ?_⟩
    have hLengthPos := List.length_pos_iff.mpr hEmpty
    rw [if_neg (by omega)]
    split
    · exact ⟨_, rfl⟩
    · next hBelow =>
      rcases hNoRetry with hNoRetry | ⟨hLast, hNoWrap⟩
      · rw [hNoRetry, if_neg Bool.false_ne_true]
        split
        · next hOne => omega
        · exact ⟨_, rfl⟩
      · have hTry : (errors.length + 1) % 2 ^ 32 = errors.length + 1 := Nat.mod_eq_of_lt (by omega)
        rw [hTry] at hBelow
        omega

end

/-! ## The rounds of a call -/

section

variable {T : Type} {behaviour : Behaviour T} {abort : Option Nat} {shouldRetry : AiMuxError → Bool}
variable {getDelayMs : Nat → AiMuxError → Nat → Nat} {backoffFactor initialDelay now maxRetries : Nat}
variable {attempts : List RetryAttempt} {errors : List AiMuxError} {exponentialDelay start : Nat}

theorem race_wait (abort : Option Nat) (awake : Nat) : (isAborted abort awake = false ∧
        Outcome.race abort (.ended awake (.ok ())) = .ended awake (.ok ())) ∨
      ∃ cancelled, abort = some cancelled ∧ isAborted abort awake = true ∧
        Outcome.race abort (.ended awake (.ok ())) = .ended cancelled (.error abortedError) := by
  cases abort with
  | none => exact .inl ⟨rfl, rfl⟩
  | some cancelled =>
    by_cases hCut : cancelled ≤ awake
    · exact .inr ⟨cancelled, rfl, decide_eq_true hCut, if_pos hCut⟩
    · exact .inl ⟨decide_eq_false hCut, if_neg hCut⟩

/-- What is known of the attempts behind. -/
structure Behind (behaviour : Behaviour T) (abort : Option Nat) (shouldRetry : AiMuxError → Bool)
    (attempts : List RetryAttempt) (errors : List AiMuxError) : Prop where
  hNumbered : ∀ (index : Nat) (attempt : RetryAttempt), attempts[index]? = some attempt → attempt.index = index
  hBeforeAbort : ∀ attempt ∈ attempts, isAborted abort attempt.start = false
  hErrors : List.Forall₂ (fun attempt failure => ∃ ended,
    behaviour.ends abort attempt = .ended ended (.error failure)) attempts errors
  hRetryable : ∀ failure ∈ errors, passesThrough failure = false ∧ shouldRetry failure = true

theorem numbered_snoc {count : Nat}
    (hNumbered : ∀ (index : Nat) (attempt : RetryAttempt), attempts[index]? = some attempt →
      attempt.index = index) (hLength : attempts.length = count) (index : Nat) (attempt : RetryAttempt)
    (hAttempt : (attempts ++ [⟨count, start⟩])[index]? = some attempt) : attempt.index = index := by
  rcases Nat.lt_or_ge index attempts.length with hLess | hGreater
  · rw [List.getElem?_append_left hLess] at hAttempt
    exact hNumbered index attempt hAttempt
  · rw [List.getElem?_append_right hGreater] at hAttempt
    obtain ⟨hIndex, rfl⟩ := List.getElem?_eq_some_iff.mp hAttempt
    rw [List.length_singleton] at hIndex
    simp only [List.getElem_singleton]
    omega

theorem beforeAbort_snoc {last : RetryAttempt} (hBefore : ∀ attempt ∈ attempts, isAborted abort attempt.start = false)
    (hLast : isAborted abort last.start = false) (attempt : RetryAttempt)
    (hAttempt : attempt ∈ attempts ++ [last]) : isAborted abort attempt.start = false := by
  rcases List.mem_append.mp hAttempt with hEarlier | hSame
  · exact hBefore attempt hEarlier
  · obtain rfl := List.mem_singleton.mp hSame
    exact hLast

variable {error : AiMuxError} {time : Nat}

theorem Behind.snoc (hBehind : Behind behaviour abort shouldRetry attempts errors)
    (hStart : isAborted abort start = false)
    (hFailed : behaviour.ends abort ⟨errors.length, start⟩ = .ended time (.error error))
    (hPasses : passesThrough error = false) (hRetry : shouldRetry error = true) :
    Behind behaviour abort shouldRetry (attempts ++ [⟨errors.length, start⟩]) (errors ++ [error]) where
  hNumbered := numbered_snoc hBehind.hNumbered hBehind.hErrors.length_eq
  hBeforeAbort := beforeAbort_snoc hBehind.hBeforeAbort hStart
  hErrors := List.rel_append hBehind.hErrors (.cons ⟨time, hFailed⟩ .nil)
  hRetryable := by
    intro failure hFailure
    rcases List.mem_append.mp hFailure with hEarlier | hLast
    · exact hBehind.hRetryable failure hEarlier
    · obtain rfl := List.mem_singleton.mp hLast
      exact ⟨hPasses, hRetry⟩

theorem Failing.behind
    (hFailing : Failing behaviour abort shouldRetry getDelayMs backoffFactor initialDelay now attempts errors
      exponentialDelay start) : Behind behaviour abort shouldRetry attempts errors := by
  induction hFailing with
  | none => exact ⟨nofun, nofun, .nil, nofun⟩
  | more attempts errors exponentialDelay start time error hEarlier hStart hFailed hPasses hRetry hWait ih =>
    exact ih.snoc hStart hFailed hPasses hRetry

/-- After a wait the next attempt is not late. -/
theorem Failing.started
    (hFailing : Failing behaviour abort shouldRetry getDelayMs backoffFactor initialDelay now attempts errors
      exponentialDelay start) (hAborted : isAborted abort start = true) : attempts = [] := by
  cases hFailing with
  | none => rfl
  | more _ _ _ _ _ _ _ _ _ _ _ hWait =>
    rw [hWait] at hAborted
    cases hAborted

theorem Behind.retried (hBehind : Behind behaviour abort shouldRetry attempts errors) {index : Nat}
    {attempt : RetryAttempt} (hAttempt : attempts[index]? = some attempt) :
    ∃ time error, behaviour.ends abort attempt = .ended time (.error error) ∧
      passesThrough error = false ∧ shouldRetry error = true := by
  have hIndex : index < attempts.length := (List.getElem?_eq_some_iff.mp hAttempt).1
  have hError : index < errors.length := hBehind.hErrors.length_eq ▸ hIndex
  obtain ⟨time, hEnded⟩ := hBehind.hErrors.get hIndex hError
  rw [List.get_eq_getElem, (List.getElem?_eq_some_iff.mp hAttempt).2] at hEnded
  obtain ⟨hPasses, hRetry⟩ := hBehind.hRetryable (errors.get ⟨index, hError⟩) (List.get_mem ..)
  exact ⟨time, _, hEnded, hPasses, hRetry⟩

/-- The contract of a call that ends with the attempt that is due. -/
theorem Behind.contract (hBehind : Behind behaviour abort shouldRetry attempts errors)
    (hStart : isAborted abort start = false) (hLength : errors.length ≤ maxRetries) {outcome : Outcome T}
    (hEnds : EndsAs behaviour maxRetries abort shouldRetry (attempts ++ [⟨errors.length, start⟩])
      ⟨errors.length, start⟩ outcome) :
    RetryContract behaviour maxRetries abort shouldRetry
      { log := attempts ++ [⟨errors.length, start⟩], outcome := outcome } where
  hAttempts := by
    rw [List.length_append, List.length_singleton, hBehind.hErrors.length_eq]
    exact Nat.succ_le_succ hLength
  hNumbered := numbered_snoc hBehind.hNumbered hBehind.hErrors.length_eq
  hBeforeAbort := beforeAbort_snoc hBehind.hBeforeAbort hStart
  hRetried := by
    intro index attempt hAttempt hNext
    rw [List.length_append, List.length_singleton] at hNext
    rw [List.getElem?_append_left (Nat.lt_of_add_lt_add_right hNext)] at hAttempt
    exact hBehind.retried hAttempt
  hUnstarted := fun hEmpty => absurd hEmpty (by simp)
  hEnds := by
    intro last hLast
    rw [List.getLast?_concat] at hLast
    obtain rfl := Option.some.inj hLast
    exact hEnds

theorem contract_unstarted (hAborted : isAborted abort time = true) :
    RetryContract behaviour maxRetries abort shouldRetry
      { log := [], outcome := .ended time (.error abortedError) } where
  hAttempts := Nat.zero_le _
  hNumbered := nofun
  hBeforeAbort := nofun
  hRetried := nofun
  hUnstarted := fun _ => ⟨time, rfl, hAborted⟩
  hEnds := nofun

/-- The errors of the attempts behind together with the last one. -/
theorem Behind.several (hBehind : Behind behaviour abort shouldRetry attempts errors)
    (hFailed : behaviour.ends abort ⟨errors.length, start⟩ = .ended time (.error error))
    (hPasses : passesThrough error = false)
    (hNoRetry : shouldRetry error = false ∨
      maxRetries < (attempts ++ [(⟨errors.length, start⟩ : RetryAttempt)]).length)
    (hErrors : errors ≠ []) (reason : RetryErrorReason) :
    FailedWith behaviour maxRetries abort shouldRetry (attempts ++ [⟨errors.length, start⟩]) time error
      (.ended time (.error (.retry reason (errors ++ [error])))) := by
  have hPos := List.length_pos_iff.mpr hErrors
  have hLength := hBehind.hErrors.length_eq
  refine .several reason _ hPasses hNoRetry ?_ ?_ ?_
  · rw [List.length_append, List.length_singleton]
    omega
  · exact List.rel_append hBehind.hErrors (.cons ⟨time, hFailed⟩ .nil)
  · intro failure hFailure reason history hNested
    have hOrdinary : passesThrough failure = false := by
      rcases List.mem_append.mp hFailure with hEarlier | hLast
      · exact (hBehind.hRetryable failure hEarlier).1
      · obtain rfl := List.mem_singleton.mp hLast
        exact hPasses
    rw [hNested] at hOrdinary
    cases hOrdinary

/-- Every round either ends the call as the contract says or goes on to the next attempt. -/
theorem retryLoop_contract (hMax : maxRetries < 2 ^ 32) (hNoWrap : maxRetries + 1 = 2 ^ 32 →
      ¬FailsRetryably behaviour abort shouldRetry getDelayMs backoffFactor initialDelay now (2 ^ 32))
    (fuel : Nat)
    (hFailing : Failing behaviour abort shouldRetry getDelayMs backoffFactor initialDelay now attempts errors
      exponentialDelay start)
    (hLength : errors.length ≤ maxRetries) (hFuel : maxRetries < errors.length + fuel) :
    RetryContract behaviour maxRetries abort shouldRetry
      ((retryLoop behaviour.operation maxRetries backoffFactor abort shouldRetry getDelayMs fuel errors
        exponentialDelay start).after attempts) := by
  induction fuel generalizing attempts errors exponentialDelay start with
  | zero => exact absurd hFuel (Nat.not_lt.mpr hLength)
  | succ fuel ih =>
    have hBehind := hFailing.behind
    rw [retryLoop]
    by_cases hAborted : isAborted abort start = true
    · rw [if_pos hAborted]
      obtain rfl := hFailing.started hAborted
      exact contract_unstarted hAborted
    rw [if_neg hAborted]
    have hStart : isAborted abort start = false := Bool.eq_false_iff.mpr hAborted
    have hEndsRace : (behaviour.operation errors.length start).outcome.race abort =
        behaviour.ends abort ⟨errors.length, start⟩ := rfl
    have hContract : ∀ outcome, EndsAs behaviour maxRetries abort shouldRetry
        (attempts ++ [⟨errors.length, start⟩]) ⟨errors.length, start⟩ outcome →
        RetryContract behaviour maxRetries abort shouldRetry
          (Ran.after attempts { behaviour.operation errors.length start with outcome := outcome }) :=
      fun outcome hEnds => hBehind.contract hStart hLength hEnds
    simp only [hEndsRace]
    cases hEnd : behaviour.ends abort ⟨errors.length, start⟩ with
    | hanging => exact hContract _ (by rw [EndsAs, hEnd])
    | outOfFuel => exact hContract _ (by rw [EndsAs, hEnd])
    | ended time result =>
      cases result with
      | ok value => exact hContract _ (by rw [EndsAs, hEnd])
      | error error =>
        have hFails : ∀ outcome, FailedWith behaviour maxRetries abort shouldRetry
            (attempts ++ [⟨errors.length, start⟩]) time error outcome →
            RetryContract behaviour maxRetries abort shouldRetry
              (Ran.after attempts { behaviour.operation errors.length start with outcome := outcome }) :=
          fun outcome hFailed => hContract outcome (by rw [EndsAs, hEnd]; exact hFailed)
        have hCount : (attempts ++ [(⟨errors.length, start⟩ : RetryAttempt)]).length = errors.length + 1 := by
          rw [List.length_append, List.length_singleton, hBehind.hErrors.length_eq]
        simp only
        cases hPasses : passesThrough error with
        | true =>
          rw [afterFailure_passes hPasses]
          exact hFails _ (.passed hPasses)
        | false =>
          by_cases hAgain : shouldRetry error = true ∧ errors.length < maxRetries
          · obtain ⟨hRetry, hMore⟩ := hAgain
            rw [afterFailure_retries errors hPasses hRetry hMax hMore]
            simp only
            rcases race_wait abort (time + getDelayMs errors.length error exponentialDelay) with
              ⟨hWait, hAwake⟩ | ⟨cancelled, hAbort, hCut, hAwake⟩
            · rw [hAwake]
              have hNext := ih (.more attempts errors exponentialDelay start time error hFailing hStart hEnd
                hPasses hRetry hWait) (by rw [List.length_append]; exact hMore)
                (by rw [List.length_append, List.length_singleton]; omega)
              simp only [Ran.after, Behaviour.operation, ← List.append_assoc] at hNext ⊢
              exact hNext
            · rw [hAwake]
              exact hFails _ (.abortedWait cancelled hPasses hRetry (by rw [hCount]; exact hMore) hAbort)
          · have hLast : shouldRetry error = false ∨
                (errors.length = maxRetries ∧ maxRetries + 1 ≠ 2 ^ 32) := by
              cases hRetry : shouldRetry error with
              | false => exact .inl rfl
              | true =>
                have hSame : errors.length = maxRetries :=
                  Nat.le_antisymm hLength (Nat.not_lt.mp fun hMore => hAgain ⟨hRetry, hMore⟩)
                refine .inr ⟨hSame, fun hWrap => hNoWrap hWrap ?_⟩
                exact ⟨attempts, errors, exponentialDelay, start, time, error, hFailing, by omega, hStart, hEnd,
                  hPasses, hRetry⟩
            have hNoRetry : shouldRetry error = false ∨
                maxRetries < (attempts ++ [(⟨errors.length, start⟩ : RetryAttempt)]).length := by
              rw [hCount]
              exact hLast.imp_right fun hSame => by omega
            rcases afterFailure_final hPasses hMax hLength hLast with ⟨hEmpty, hStop⟩ | ⟨hSome, reason, hStop⟩
            · rw [hStop]
              exact hFails _ (.single hPasses hNoRetry (by rw [hCount, hEmpty]; rfl))
            · rw [hStop]
              exact hFails _ (hBehind.several hEnd hPasses hNoRetry hSome reason)

/-! ## The number of the try wraps around -/

/-- A round whose attempt fails and is to be retried. -/
theorem retryLoop_again (getDelayMs : Nat → AiMuxError → Nat → Nat) (backoffFactor exponentialDelay fuel : Nat)
    (hStart : isAborted abort start = false)
    (hFailed : behaviour.ends abort ⟨errors.length, start⟩ = .ended time (.error error))
    (hAgain : afterFailure maxRetries shouldRetry errors error = .again) :
    (∃ cancelled,
      retryLoop behaviour.operation maxRetries backoffFactor abort shouldRetry getDelayMs (fuel + 1) errors
          exponentialDelay start =
        { log := [⟨errors.length, start⟩], outcome := .ended cancelled (.error abortedError) } ∧
      isAborted abort (time + getDelayMs errors.length error exponentialDelay) = true) ∨
    (isAborted abort (time + getDelayMs errors.length error exponentialDelay) = false ∧
      retryLoop behaviour.operation maxRetries backoffFactor abort shouldRetry getDelayMs (fuel + 1) errors
          exponentialDelay start =
        (retryLoop behaviour.operation maxRetries backoffFactor abort shouldRetry getDelayMs fuel
          (errors ++ [error]) (min (exponentialDelay * backoffFactor) (2 ^ 64 - 1))
          (time + getDelayMs errors.length error exponentialDelay)).after [⟨errors.length, start⟩]) := by
  have hRace : (behaviour.operation errors.length start).outcome.race abort =
      .ended time (.error error) := hFailed
  rw [retryLoop, if_neg (by rw [hStart]; exact Bool.false_ne_true)]
  simp only [hRace, hAgain]
  rcases race_wait abort (time + getDelayMs errors.length error exponentialDelay) with
    ⟨hWait, hAwake⟩ | ⟨cancelled, hAbort, hCut, hAwake⟩
  · rw [hAwake]
    exact .inr ⟨hWait, rfl⟩
  · rw [hAwake]
    exact .inl ⟨cancelled, rfl, hCut⟩

theorem retryLoop_resume (maxRetries : Nat) (hMax : maxRetries < 2 ^ 32)
    (hFailing : Failing behaviour abort shouldRetry getDelayMs backoffFactor initialDelay now attempts errors
      exponentialDelay start) (hLength : errors.length ≤ maxRetries) (fuel : Nat) :
    retryLoop behaviour.operation maxRetries backoffFactor abort shouldRetry getDelayMs (errors.length + fuel)
        [] initialDelay now =
      (retryLoop behaviour.operation maxRetries backoffFactor abort shouldRetry getDelayMs fuel errors
        exponentialDelay start).after attempts := by
  induction hFailing generalizing fuel with
  | none =>
    rw [List.length_nil, Nat.zero_add]
    rfl
  | more attempts errors exponentialDelay start time error hEarlier hStart hFailed hPasses hRetry hWait ih =>
    rw [List.length_append, List.length_singleton] at hLength ⊢
    have hAgain := afterFailure_retries errors hPasses hRetry hMax hLength
    have hRound := retryLoop_again getDelayMs backoffFactor exponentialDelay fuel hStart hFailed hAgain
    rw [Nat.add_assoc, Nat.add_comm 1 fuel, ih (by omega)]
    rcases hRound with ⟨cancelled, -, hCut⟩ | ⟨-, hNext⟩
    · rw [hWait] at hCut
      cases hCut
    · rw [hNext]
      simp only [Ran.after, List.append_assoc]

/-- A round at a time that is not aborted starts an attempt. -/
theorem retryLoop_starts (behaviour : Behaviour T) (maxRetries backoffFactor : Nat)
    (shouldRetry : AiMuxError → Bool) (getDelayMs : Nat → AiMuxError → Nat → Nat) (errors : List AiMuxError)
    (exponentialDelay fuel : Nat) (hStart : isAborted abort start = false) :
    ⟨errors.length, start⟩ ∈
      (retryLoop behaviour.operation maxRetries backoffFactor abort shouldRetry getDelayMs (fuel + 1) errors
        exponentialDelay start).log := by
  rw [retryLoop, if_neg (by rw [hStart]; exact Bool.false_ne_true)]
  simp only
  split
  · split
    · exact List.mem_singleton_self _
    · split
      · exact List.mem_append_left _ (List.mem_singleton_self _)
      · exact List.mem_singleton_self _
      · exact List.mem_singleton_self _
      · exact List.mem_singleton_self _
  · exact List.mem_singleton_self _

/-- With the greatest `u32` for the number of retries, that many failures and one more do not end the
call. -/
theorem wrapped_breaks_contract (hMax : maxRetries + 1 = 2 ^ 32)
    (hFails : FailsRetryably behaviour abort shouldRetry getDelayMs backoffFactor initialDelay now (2 ^ 32))
    (extra : Nat) :
    ¬RetryContract behaviour maxRetries abort shouldRetry
      (retryLoop behaviour.operation maxRetries backoffFactor abort shouldRetry getDelayMs
        (maxRetries + 1 + extra) [] initialDelay now) := by
  obtain ⟨attempts, errors, exponentialDelay, start, time, error, hFailing, hCount, hStart, hFailed, hPasses,
    hRetry⟩ := hFails
  have hLength : errors.length = maxRetries := by omega
  have hSame := hFailing.behind.hErrors.length_eq
  have hMany : 1 < maxRetries := by omega
  have hResume := retryLoop_resume maxRetries (by omega) hFailing (le_of_eq hLength) (1 + extra)
  rw [hLength, ← Nat.add_assoc] at hResume
  rw [hResume]
  intro hContract
  have hAgain := afterFailure_wraps hPasses hRetry hMax hLength
  have hRound := retryLoop_again getDelayMs backoffFactor exponentialDelay extra hStart hFailed hAgain
  rw [Nat.add_comm 1 extra] at hContract
  -- the attempt that should have been the last: what the contract says of a call ending with it
  have hReturns : ∀ outcome, RetryContract behaviour maxRetries abort shouldRetry
      { log := attempts ++ [⟨errors.length, start⟩], outcome := outcome } →
      ∃ reason history, outcome = .ended time (.error (.retry reason history)) := by
    intro outcome hEnded
    have hLast : FailedWith behaviour maxRetries abort shouldRetry
        (attempts ++ [⟨errors.length, start⟩]) time error outcome := by
      have hEndsAs := hEnded.hEnds ⟨errors.length, start⟩ (List.getLast?_concat ..)
      rw [EndsAs, hFailed] at hEndsAs
      exact hEndsAs
    have hAttempts : (attempts ++ [(⟨errors.length, start⟩ : RetryAttempt)]).length = maxRetries + 1 := by
      rw [List.length_append, List.length_singleton, hSame, hLength]
    cases hLast with
    | passed hPassed =>
      rw [hPasses] at hPassed
      cases hPassed
    | abortedWait cancelled _ _ hMore => exact absurd hMore (by omega)
    | single _ _ hOne => exact absurd hOne (by omega)
    | several reason history => exact ⟨reason, history, rfl⟩
  rcases hRound with ⟨cancelled, hCut, -⟩ | ⟨hWait, hNext⟩
  · rw [hCut] at hContract
    obtain ⟨reason, history, hOutcome⟩ := hReturns _ hContract
    cases hOutcome
  · rw [hNext] at hContract
    cases extra with
    | zero =>
      obtain ⟨reason, history, hOutcome⟩ := hReturns .outOfFuel hContract
      cases hOutcome
    | succ extra =>
      have hStarted := retryLoop_starts behaviour maxRetries backoffFactor shouldRetry getDelayMs
        (errors ++ [error]) (min (exponentialDelay * backoffFactor) (2 ^ 64 - 1)) extra hWait
      have hLog := List.length_pos_of_mem hStarted
      have hBound := hContract.hAttempts
      simp only [Ran.after, List.length_append, List.length_singleton] at hBound
      omega

/-- The contract holds of every call, except that with `u32::MAX` retries it takes fewer failures in a row
than the number of the try can count. -/
theorem retry_contract_iff (maxRetries : Fin (2 ^ 32)) (extra : Nat) (behaviour : Behaviour T)
    (abort : Option Nat) (shouldRetry : AiMuxError → Bool) (getDelayMs : Nat → AiMuxError → Nat → Nat)
    (backoffFactor initialDelay now : Nat) :
    RetryContract behaviour maxRetries abort shouldRetry
        (retryLoop behaviour.operation maxRetries backoffFactor abort shouldRetry getDelayMs
          (maxRetries + 1 + extra) [] initialDelay now) ↔
      ¬((maxRetries : Nat) + 1 = 2 ^ 32 ∧
        FailsRetryably behaviour abort shouldRetry getDelayMs backoffFactor initialDelay now (2 ^ 32)) := by
  constructor
  · rintro hContract ⟨hMax, hFails⟩
    exact wrapped_breaks_contract hMax hFails extra hContract
  · intro hNoWrap
    exact retryLoop_contract maxRetries.isLt (fun hMax hFails => hNoWrap ⟨hMax, hFails⟩) (maxRetries + 1 + extra)
      .none (Nat.zero_le _) (by rw [List.length_nil]; omega)

end

/-! ## Failures without end -/

def overloadedError : AiMuxError :=
  .apiCall "https://api.example/v1" .null (some 503) none "overloaded" none none none true none .httpResponse

/-- An operation that fails at once, every time. -/
def failingBehaviour : Behaviour Unit := fun _ => some (0, .error overloadedError)

theorem failingBehaviour_fails (count : Nat) :
    ∃ attempts errors exponentialDelay, errors.length = count ∧
      Failing failingBehaviour none AiMuxError.isRetryable (fun _ _ _ => 0) 2 2000 0 attempts errors
        exponentialDelay 0 := by
  induction count with
  | zero => exact ⟨[], [], 2000, rfl, .none⟩
  | succ count ih =>
    obtain ⟨attempts, errors, exponentialDelay, hLength, hFailing⟩ := ih
    exact ⟨_, _, _, by rw [List.length_append, hLength, List.length_singleton],
      .more attempts errors exponentialDelay 0 0 overloadedError hFailing rfl rfl rfl rfl rfl⟩

theorem most_retries_break_contract :
    ¬RetryContract failingBehaviour (2 ^ 32 - 1) none AiMuxError.isRetryable
      (PreparedRetries.retry (prepareRetries (some (2 ^ 32 - 1)) none) (2 ^ 32 + 1) (fun _ _ _ => 0)
        failingBehaviour.operation 0) := by
  obtain ⟨attempts, errors, exponentialDelay, hLength, hFailing⟩ := failingBehaviour_fails (2 ^ 32 - 1)
  exact wrapped_breaks_contract (by decide) ⟨attempts, errors, exponentialDelay, 0, 0, overloadedError, hFailing,
    by omega, rfl, rfl, rfl, rfl⟩ 1

end Aimux.Composite
