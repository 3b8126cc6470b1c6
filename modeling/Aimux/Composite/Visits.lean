import Aimux.Composite.Model
import Aimux.Lib.Acceptor

/-! # What a composite does with its models

How often a model was started or a router asked is counted at the positions from the operation down to it,
whatever the numbers of the attempts. What one attempt at a router does is read event by event.
-/

namespace Aimux.Composite

open Aimux.Core Aimux.Lib

/-! ## Counting -/

def positions (address : Address) : List Position := address.map Prod.fst

inductive Kind where
  | started
  | routed
  /-- Routing itself failed with an error that is retried. -/
  | refused

def Event.is : Kind → Event → Bool
  | .started, .started _ _ => true
  | .routed, .routed _ _ _ => true
  | .refused, .routed _ _ (.error error) => error.isRetryable
  | _, _ => false

/-- The events of a kind at the positions `p`, at times that count. -/
def countAt (kind : Kind) (p : List Position) (live : Nat → Bool) (log : List Event) : Nat :=
  log.countP fun event => event.is kind && decide (positions event.address = p) && live event.time

@[simp] theorem Event.is_under (kind : Kind) (step : Step) (event : Event) :
    (event.under step).is kind = event.is kind := by
  cases event with
  | started => cases kind <;> rfl
  | routed address time answer => cases kind <;> cases answer <;> rfl
  | failed => cases kind <;> rfl

@[simp] theorem Event.address_under (step : Step) (event : Event) :
    (event.under step).address = step :: event.address := by
  cases event <;> rfl

@[simp] theorem Event.time_under (step : Step) (event : Event) : (event.under step).time = event.time := by
  cases event <;> rfl

variable {p : List Position}

section

variable {kind : Kind} {live : Nat → Bool}

@[simp] theorem countAt_nil (p : List Position) : countAt kind p live [] = 0 := rfl

@[simp] theorem countAt_append (p : List Position) (log later : List Event) :
    countAt kind p live (log ++ later) = countAt kind p live log + countAt kind p live later :=
  List.countP_append

theorem countAt_cons (p : List Position) (event : Event) (log : List Event) :
    countAt kind p live (event :: log) = countAt kind p live [event] + countAt kind p live log :=
  countAt_append p [event] log

theorem countAt_under (position : Position) (k : Nat) (p : List Position) (log : List Event) :
    countAt kind (position :: p) live (log.map (Event.under (position, k))) = countAt kind p live log := by
  rw [countAt, countAt, List.countP_map]
  congr 1
  funext event
  simp only [Function.comp_apply, Event.is_under, Event.address_under, Event.time_under, positions,
    List.map_cons, List.cons.injEq, true_and]
  congr

/-- Events at other positions do not count. -/
theorem countAt_eq_zero {log : List Event} (h : ∀ event ∈ log, positions event.address ≠ p) :
    countAt kind p live log = 0 := by
  rw [countAt, List.countP_eq_zero]
  intro event hEvent
  simp [h event hEvent]

end

/-! ## The models below a model -/

def LanguageModel.sub : LanguageModel → Position → Option LanguageModel
  | .router models _, .child i => models[i]?
  | .moa references _ _, .reference i => references[i]?
  | .moa _ aggregator _, .aggregator => some aggregator
  | _, _ => none

def LanguageModel.find (model : LanguageModel) : List Position → Option LanguageModel
  | [] => some model
  | position :: p => (model.sub position).bind fun sub => sub.find p

def LanguageModel.isRouter : LanguageModel → Bool
  | .router _ _ => true
  | _ => false

/-! ## One attempt at a router -/

/-- The event without the outermost attempt it stands in. -/
def Event.strip (step : Step) : Event → Option Event
  | .routed (first :: address) time answer => if first = step then some (.routed address time answer) else none
  | .started (first :: address) time => if first = step then some (.started address time) else none
  | .failed (first :: address) child time error =>
    if first = step then some (.failed address child time error) else none
  | _ => none

def within (step : Step) (log : List Event) : List Event := log.filterMap (Event.strip step)

inductive RouterEvent where
  | routed (time : Nat) (answer : Except AiMuxError Nat)
  | started (child k time : Nat)
  | failed (child time : Nat) (error : AiMuxError)

def RouterEvent.time : RouterEvent → Nat
  | .routed time _ => time
  | .started _ _ time => time
  | .failed _ time _ => time

def Event.ofRouter : Event → Option RouterEvent
  | .routed [] time answer => some (.routed time answer)
  | .started [(.child i, k)] time => some (.started i k time)
  | .failed [] child time error => some (.failed child time error)
  | _ => none

/-- What the attempt at an address itself did, if it is one at a router. -/
def routerEvents : Address → List Event → List RouterEvent
  | [], log => log.filterMap Event.ofRouter
  | step :: address, log => routerEvents address (within step log)

/-- The children in the order in which they may be tried. -/
def candidates (models : Nat) (fallback : FallbackPolicy) (idx : Nat) : List Nat :=
  if idx < models then
    if fallback = .onError then idx :: (List.range models).filter (· ≠ idx) else [idx]
  else []

inductive RouterState where
  | fresh
  | waiting (candidates : List Nat) (now : Nat)
  | trying (child attempts : Nat) (candidates : List Nat) (now : Nat)

/-- A router asks for a child once, starts a candidate up to `maxRetries + 1` times, and goes on to the
next one when the last one failed. -/
def routerRun (maxRetries models : Nat) (fallback : FallbackPolicy) : Acceptor RouterState RouterEvent
  | .fresh, .routed time (.ok idx) => some (.waiting (candidates models fallback idx) time)
  | .fresh, .routed time (.error _) => some (.waiting [] time)
  | .waiting (next :: rest) now, .started i k time =>
    if i = next ∧ k = 0 ∧ now ≤ time then some (.trying i 1 rest time) else none
  | .waiting (next :: rest) now, .failed i time _ =>
    if i = next ∧ now ≤ time then some (.waiting rest time) else none
  | .trying child attempts rest now, .started i k time =>
    if i = child ∧ k = attempts ∧ k ≤ maxRetries ∧ now ≤ time then some (.trying child (attempts + 1) rest time)
    else none
  | .trying child _ rest now, .failed i time _ =>
    if i = child ∧ now ≤ time then some (.waiting rest time) else none
  | _, _ => none

/-! ## One attempt at a model, and all of them -/

def Operation.retries (self : Operation) : Nat := self.maxRetries.getD 2

/-- What one attempt at a model leaves behind, wherever it stands. -/
structure Behaves (operation : Operation) (model : LanguageModel) (now : Nat) (ran : Ran Event GenerateResult) :
    Prop where
  timely : ∀ time result, ran.outcome = .ended time result → now ≤ time
  notBefore : ∀ event ∈ ran.log, now ≤ event.time
  unaborted : isAborted operation.abortSignal now = false →
    ∀ event ∈ ran.log, event.is .started = true ∨ event.is .routed = true →
      isAborted operation.abortSignal event.time = false
  ownStarts : ∀ time, Event.started [] time ∉ ran.log
  ownRoutes : ∀ live, countAt .routed [] live ran.log = if model.isRouter && live now then 1 else 0
  /-- A retryable error comes out only of a model that is not composite, or of the routing. -/
  quiet : operation.retries ≠ 0 → ∀ time error, ran.outcome = .ended time (.error error) →
    error.isRetryable = true →
      (model.isComposite = false ∧ ran.log = []) ∨ ran.log = [.routed [] now (.error error)]
  starts : ∀ p live, countAt .started p live ran.log ≤ operation.retries + 1
  reruns : ∀ p sub live, p ≠ [] → model.find p = some sub → sub.isComposite = true →
    countAt .started p live ran.log ≤ countAt .refused p live ran.log + 1
  routes : ∀ p sub live, p ≠ [] → model.find p = some sub → sub.isRouter = true →
    countAt .routed p live ran.log = countAt .started p live ran.log
  ordered : ∀ address models fallback, model.find (positions address) = some (.router models fallback) →
    ∃ state, (routerRun operation.retries models.length fallback).run .fresh (routerEvents address ran.log) =
      some state

/-- What the retry loop around a model leaves behind. -/
structure Visit (operation : Operation) (position : Position) (model : LanguageModel) (now : Nat)
    (ran : Ran Event GenerateResult) : Prop where
  timely : ∀ time result, ran.outcome = .ended time result → now ≤ time
  notBefore : ∀ event ∈ ran.log, now ≤ event.time
  unaborted : ∀ event ∈ ran.log, event.is .started = true ∨ event.is .routed = true →
    isAborted operation.abortSignal event.time = false
  inside : ∀ event ∈ ran.log, ∃ k address, event.address = (position, k) :: address
  final : ∀ time error, ran.outcome = .ended time (.error error) → error.isRetryable = true →
    operation.retries = 0
  starts : ∀ p live, countAt .started (position :: p) live ran.log ≤ operation.retries + 1
  reruns : ∀ p sub live, model.find p = some sub → sub.isComposite = true →
    countAt .started (position :: p) live ran.log ≤ countAt .refused (position :: p) live ran.log + 1
  routes : ∀ p sub live, model.find p = some sub → sub.isRouter = true →
    countAt .routed (position :: p) live ran.log = countAt .started (position :: p) live ran.log
  ordered : ∀ k address models fallback, model.find (positions address) = some (.router models fallback) →
    ∃ state, (routerRun operation.retries models.length fallback).run .fresh
      (routerEvents address (within (position, k) ran.log)) = some state
  tried : ∀ i, position = .child i → ∀ models fallback rest, ∃ state,
    (routerRun operation.retries models fallback).run (.waiting (i :: rest) now)
        (ran.log.filterMap Event.ofRouter) = some state ∧
      ∀ time result error, ran.outcome = .ended time result →
        routerRun operation.retries models fallback state (.failed i time error) = some (.waiting rest time)

section

variable {operation : Operation} {position : Position} {model : LanguageModel} {g : Generate}
  {env : Environment} {options : CallOptions}

variable {now k : Nat}

theorem mem_attempt_log {event : Event} (h : event ∈ (attempt position g env options k now).log) :
    event = .started [(position, k)] now ∨
      ∃ inner ∈ (g (env.under (position, k)) options now).log, event = inner.under (position, k) := by
  rcases List.mem_cons.mp h with hStart | hInner
  · exact .inl hStart
  · obtain ⟨inner, hMem, hEq⟩ := List.mem_map.mp hInner
    exact .inr ⟨inner, hMem, hEq.symm⟩

variable {ran : Ran Event GenerateResult}

section

variable (h : Attempts (attempt position g env options) operation.retries operation.abortSignal k now ran)
  (hTimely : ∀ env options now time result, (g env options now).outcome = .ended time result → now ≤ time)

include h hTimely

/-- The events of the attempts of a loop, each with the attempt it is one of. -/
theorem Attempts.mem_log :
    ∀ event ∈ ran.log, ∃ k' now', now ≤ now' ∧ isAborted operation.abortSignal now' = false ∧
      event ∈ (attempt position g env options k' now').log := by
  induction h with
  | outOfFuel => exact fun event hMem => absurd hMem List.not_mem_nil
  | aborted => exact fun event hMem => absurd hMem List.not_mem_nil
  | last k now outcome hStart => exact fun event hMem => ⟨k, now, Nat.le_refl _, hStart, hMem⟩
  | retried k now time later error rest hStart hFailed _ _ hLater _ ih =>
    intro event hMem
    rcases List.mem_append.mp hMem with hMem | hMem
    · exact ⟨k, now, Nat.le_refl _, hStart, hMem⟩
    · obtain ⟨k', now', hNow, hStart', hEvent⟩ := ih event hMem
      have hTime : now ≤ time := hTimely _ _ _ _ _ hFailed
      exact ⟨k', now', Nat.le_trans (Nat.le_trans hTime hLater) hNow, hStart', hEvent⟩

theorem Attempts.timely {time : Nat} {result : Except AiMuxError GenerateResult}
    (hEnded : ran.outcome = .ended time result) : now ≤ time := by
  induction h with
  | outOfFuel => cases hEnded
  | aborted => exact Nat.le_of_eq (Outcome.ended.inj hEnded).1
  | last k now outcome hStart hTime => exact hTime time result hEnded
  | retried k now failed later error rest hStart hFailed _ _ hLater _ ih =>
    have hTime : now ≤ failed := hTimely _ _ _ _ _ hFailed
    exact Nat.le_trans (Nat.le_trans hTime hLater) (ih hEnded)

end

theorem Attempts.final {time : Nat} {error : AiMuxError}
    (h : Attempts (attempt position g env options) operation.retries operation.abortSignal k now ran)
    (hEnded : ran.outcome = .ended time (.error error)) (hRetryable : error.isRetryable = true) :
    operation.retries = 0 := by
  induction h with
  | outOfFuel => cases hEnded
  | aborted =>
    rw [← Except.error.inj (Outcome.ended.inj hEnded).2] at hRetryable
    cases hRetryable
  | last k now outcome hStart hTime hFinal => exact hFinal time error hEnded hRetryable
  | retried k now failed later _ rest _ _ _ _ _ _ ih => exact ih hEnded

theorem countAt_attempt (kind : Kind) (p : List Position) (live : Nat → Bool) (k now : Nat) :
    countAt kind (position :: p) live (attempt position g env options k now).log =
      countAt kind (position :: p) live [.started [(position, k)] now] +
        countAt kind p live (g (env.under (position, k)) options now).log := by
  rw [attempt, countAt_cons, countAt_under]

theorem countAt_start_le (kind : Kind) (p : List Position) (live : Nat → Bool) (step : Step) (now : Nat) :
    countAt kind p live [.started [step] now] ≤ 1 := List.countP_le_length

theorem countAt_start_deep {kind : Kind} (hDeep : p ≠ []) (live : Nat → Bool) (k now : Nat) :
    countAt kind (position :: p) live [.started [(position, k)] now] = 0 := by
  refine countAt_eq_zero fun event hMem => ?_
  rw [List.mem_singleton.mp hMem]
  intro hSame
  exact hDeep (List.cons.inj hSame).2.symm

theorem countAt_started_own (h : Behaves operation model now ran) (live : Nat → Bool) :
    countAt .started [] live ran.log = 0 := by
  rw [countAt, List.countP_eq_zero]
  intro event hMem
  cases event with
  | started address time =>
    cases address with
    | nil => exact absurd hMem (h.ownStarts time)
    | cons step address => simp [Event.address, positions]
  | routed => simp [Event.is]
  | failed => simp [Event.is]

/-- Below a model that failed with a retryable error nothing happened. -/
theorem Behaves.quiet_deep {time : Nat} {error : AiMuxError} (h : Behaves operation model now ran)
    (hRetries : operation.retries ≠ 0) (hFailed : ran.outcome = .ended time (.error error))
    (hRetryable : error.isRetryable = true) (kind : Kind) (hDeep : p ≠ []) (live : Nat → Bool) :
    countAt kind p live ran.log = 0 := by
  refine countAt_eq_zero fun event hMem => ?_
  rcases h.quiet hRetries time error hFailed hRetryable with ⟨_, hLog⟩ | hLog
  · rw [hLog] at hMem
    exact absurd hMem List.not_mem_nil
  · rw [hLog] at hMem
    rw [List.mem_singleton.mp hMem]
    exact hDeep.symm

section

variable (hModel : ∀ env options now, Behaves operation model now (g env options now))
  (h : Attempts (attempt position g env options) operation.retries operation.abortSignal k now ran)

include hModel h

theorem Attempts.starts_own (hBound : k ≤ operation.retries) (live : Nat → Bool) :
    countAt .started [position] live ran.log + k ≤ operation.retries + 1 := by
  induction h with
  | outOfFuel k => simpa using Nat.le_succ_of_le hBound
  | aborted k => simpa using Nat.le_succ_of_le hBound
  | last k now =>
    have hStart := countAt_start_le .started [position] live (position, k) now
    simp only [countAt_attempt, countAt_started_own (hModel _ _ _)]
    omega
  | retried k now time later error rest hStart hFailed hRetryable hMore hLater hRest ih =>
    have hFirst := countAt_start_le .started [position] live (position, k) now
    have hTail := ih hMore
    simp only [Ran.after, countAt_append, countAt_attempt, countAt_started_own (hModel _ _ _)]
    omega

/-- Deep below a position, only the last attempt leaves events. -/
theorem Attempts.deep (hDeep : p ≠ []) (live : Nat → Bool) :
    (∀ kind, countAt kind (position :: p) live ran.log = 0) ∨
      ∃ env now, ∀ kind, countAt kind (position :: p) live ran.log = countAt kind p live (g env options now).log := by
  induction h with
  | outOfFuel => exact .inl fun _ => rfl
  | aborted => exact .inl fun _ => rfl
  | last k now =>
    refine .inr ⟨env.under (position, k), now, fun kind => ?_⟩
    rw [countAt_attempt, countAt_start_deep hDeep, Nat.zero_add]
  | retried k now time later error rest hStart hFailed hRetryable hMore hLater hRest ih =>
    have hQuiet := fun kind => (hModel (env.under (position, k)) options now).quiet_deep (Nat.ne_zero_of_lt hMore)
      hFailed hRetryable kind hDeep live
    simpa only [Ran.after, countAt_append, countAt_attempt, countAt_start_deep hDeep, hQuiet, Nat.zero_add] using ih

theorem Attempts.starts_deep (hDeep : p ≠ []) (live : Nat → Bool) :
    countAt .started (position :: p) live ran.log ≤ operation.retries + 1 := by
  rcases h.deep hModel hDeep live with hNone | ⟨_, _, hLast⟩
  · exact hNone _ ▸ Nat.zero_le _
  · exact hLast _ ▸ (hModel _ _ _).starts p live

/-- A composite is attempted again only after its own routing failed. -/
theorem Attempts.reruns_own (hComposite : model.isComposite = true) (live : Nat → Bool) :
    countAt .started [position] live ran.log ≤ countAt .refused [position] live ran.log + 1 := by
  induction h with
  | outOfFuel => exact Nat.zero_le _
  | aborted => exact Nat.zero_le _
  | last k now =>
    have hStart := countAt_start_le .started [position] live (position, k) now
    simp only [countAt_attempt, countAt_started_own (hModel _ _ _)]
    omega
  | retried k now time later error rest hStart hFailed hRetryable hMore hLater hRest ih =>
    rcases (hModel (env.under (position, k)) options now).quiet (Nat.ne_zero_of_lt hMore) time error hFailed
      hRetryable with ⟨hLeaf, _⟩ | hLog
    · rw [hLeaf] at hComposite
      cases hComposite
    · have hPaired : countAt .started [position] live [.started [(position, k)] now] =
          countAt .refused [] live [.routed [] now (.error error)] := by
        simp [countAt, Event.is, Event.address, Event.time, positions, hRetryable]
      have hOwn := countAt_started_own (hModel (env.under (position, k)) options now) live
      rw [hLog] at hOwn
      simp only [Ran.after, countAt_append, countAt_attempt, hLog, hOwn, hPaired]
      omega

theorem Attempts.reruns_deep {sub : LanguageModel} (hDeep : p ≠ []) (hFind : model.find p = some sub)
    (hComposite : sub.isComposite = true) (live : Nat → Bool) :
    countAt .started (position :: p) live ran.log ≤ countAt .refused (position :: p) live ran.log + 1 := by
  rcases h.deep hModel hDeep live with hNone | ⟨_, _, hLast⟩
  · rw [hNone, hNone]
    exact Nat.zero_le _
  · rw [hLast, hLast]
    exact (hModel _ _ _).reruns p sub live hDeep hFind hComposite

/-- Every attempt at a router asks it once. -/
theorem Attempts.routes_own (hRouter : model.isRouter = true) (live : Nat → Bool) :
    countAt .routed [position] live ran.log = countAt .started [position] live ran.log := by
  have hAttempt : ∀ k now, countAt .routed [position] live (attempt position g env options k now).log =
      countAt .started [position] live (attempt position g env options k now).log := by
    intro k now
    rw [countAt_attempt, countAt_attempt, countAt_started_own (hModel _ _ _), (hModel _ _ _).ownRoutes, hRouter]
    simp [countAt, List.countP_cons, Event.is, Event.address, Event.time, positions]
  induction h with
  | outOfFuel => rfl
  | aborted => rfl
  | last k now => exact hAttempt k now
  | retried k now time later error rest hStart hFailed hRetryable hMore hLater hRest ih =>
    simp only [Ran.after, countAt_append, hAttempt, ih]

theorem Attempts.routes_deep {sub : LanguageModel} (hDeep : p ≠ []) (hFind : model.find p = some sub)
    (hRouter : sub.isRouter = true) (live : Nat → Bool) :
    countAt .routed (position :: p) live ran.log = countAt .started (position :: p) live ran.log := by
  rcases h.deep hModel hDeep live with hNone | ⟨_, _, hLast⟩
  · rw [hNone, hNone]
  · rw [hLast, hLast]
    exact (hModel _ _ _).routes p sub live hDeep hFind hRouter

end

/-! ### The events of one attempt -/

theorem strip_under (step : Step) (event : Event) : (event.under step).strip step = some event := by
  cases event <;> simp [Event.under, Event.strip]

theorem strip_eq_none {step : Step} {event : Event} (h : ∀ address, event.address ≠ step :: address) :
    event.strip step = none := by
  cases event with
  | routed address time answer =>
    cases address with
    | nil => rfl
    | cons first address => exact if_neg fun hSame => h address (by rw [← hSame]; rfl)
  | started address time =>
    cases address with
    | nil => rfl
    | cons first address => exact if_neg fun hSame => h address (by rw [← hSame]; rfl)
  | failed address child time error =>
    cases address with
    | nil => rfl
    | cons first address => exact if_neg fun hSame => h address (by rw [← hSame]; rfl)

theorem within_append (step : Step) (log later : List Event) :
    within step (log ++ later) = within step log ++ within step later := List.filterMap_append

theorem within_eq_nil {step : Step} {log : List Event}
    (h : ∀ event ∈ log, ∀ address, event.address ≠ step :: address) : within step log = [] := by
  rw [within, List.filterMap_eq_nil_iff]
  exact fun event hMem => strip_eq_none (h event hMem)

theorem within_attempt_same (k now : Nat) :
    within (position, k) (attempt position g env options k now).log =
      .started [] now :: (g (env.under (position, k)) options now).log := by
  have hFirst : Event.strip (position, k) (.started [(position, k)] now) = some (.started [] now) := if_pos rfl
  rw [attempt, within, List.filterMap_cons_some hFirst, List.filterMap_map]
  congr 1
  have hStrip : Event.strip (position, k) ∘ Event.under (position, k) = some := by
    funext event
    exact strip_under (position, k) event
  rw [hStrip, List.filterMap_some]

theorem within_attempt_other {k' : Nat} (hOther : k ≠ k') (now : Nat) :
    within (position, k') (attempt position g env options k now).log = [] := by
  refine within_eq_nil fun event hMem address hAddress => ?_
  rcases mem_attempt_log hMem with rfl | ⟨inner, _, rfl⟩
  · exact hOther (Prod.mk.inj (List.cons.inj hAddress).1).2
  · rw [Event.address_under] at hAddress
    exact hOther (Prod.mk.inj (List.cons.inj hAddress).1).2

/-- An attempt is made at most once, and its events are those of the model. -/
theorem Attempts.within_log
    (h : Attempts (attempt position g env options) operation.retries operation.abortSignal k now ran) (k' : Nat) :
    (k' < k → within (position, k') ran.log = []) ∧
      (within (position, k') ran.log = [] ∨
        ∃ now', within (position, k') ran.log =
          .started [] now' :: (g (env.under (position, k')) options now').log) := by
  induction h with
  | outOfFuel => exact ⟨fun _ => rfl, .inl rfl⟩
  | aborted => exact ⟨fun _ => rfl, .inl rfl⟩
  | last k now =>
    refine ⟨fun hBefore => within_attempt_other (Nat.ne_of_gt hBefore) now, ?_⟩
    by_cases hSame : k = k'
    · rw [← hSame]
      exact .inr ⟨now, within_attempt_same k now⟩
    · exact .inl (within_attempt_other hSame now)
  | retried k now time later error rest hStart hFailed hRetryable hMore hLater hRest ih =>
    simp only [Ran.after, within_append]
    by_cases hSame : k = k'
    · rw [← hSame] at ih ⊢
      rw [ih.1 (Nat.lt_succ_self k), List.append_nil]
      exact ⟨fun hBefore => absurd hBefore (Nat.lt_irrefl k), .inr ⟨now, within_attempt_same k now⟩⟩
    · rw [within_attempt_other hSame, List.nil_append]
      exact ⟨fun hBefore => ih.1 (Nat.lt_succ_of_lt hBefore), ih.2⟩

theorem routerEvents_start (address : Address) (now : Nat) (log : List Event) :
    routerEvents address (.started [] now :: log) = routerEvents address log := by
  cases address <;> rfl

theorem routerEvents_nil (address : Address) : routerEvents address [] = [] := by
  induction address with
  | nil => rfl
  | cons step address ih => exact ih

theorem Attempts.ordered {models : List LanguageModel} {fallback : FallbackPolicy} {address : Address}
    (hModel : ∀ env options now, Behaves operation model now (g env options now))
    (h : Attempts (attempt position g env options) operation.retries operation.abortSignal k now ran) (k' : Nat)
    (hFind : model.find (positions address) = some (.router models fallback)) :
    ∃ state, (routerRun operation.retries models.length fallback).run .fresh
      (routerEvents address (within (position, k') ran.log)) = some state := by
  rcases (h.within_log k').2 with hNone | ⟨now', hSome⟩
  · rw [hNone, routerEvents_nil]
    exact ⟨.fresh, rfl⟩
  · rw [hSome, routerEvents_start]
    exact (hModel _ _ now').ordered address models fallback hFind

/-- The router may start attempt `k` at its child `i`. -/
def RouterState.Ready (i k : Nat) (rest : List Nat) (now : Nat) (state : RouterState) : Prop :=
  (∃ before ≤ now, k = 0 ∧ state = .waiting (i :: rest) before) ∨
    ∃ before ≤ now, state = .trying i k rest before

variable {state : RouterState} {i : Nat}

theorem RouterState.Ready.started {maxRetries models : Nat} {rest : List Nat} (h : state.Ready i k rest now)
    (hBound : k ≤ maxRetries) (fallback : FallbackPolicy) :
    routerRun maxRetries models fallback state (.started i k now) = some (.trying i (k + 1) rest now) := by
  rcases h with ⟨before, hBefore, rfl, rfl⟩ | ⟨before, hBefore, rfl⟩
  · exact if_pos ⟨rfl, rfl, hBefore⟩
  · exact if_pos ⟨rfl, rfl, hBound, hBefore⟩

theorem RouterState.Ready.failed {time maxRetries models : Nat} {rest : List Nat} (h : state.Ready i k rest now)
    (hTime : now ≤ time) (fallback : FallbackPolicy) (error : AiMuxError) :
    routerRun maxRetries models fallback state (.failed i time error) = some (.waiting rest time) := by
  rcases h with ⟨before, hBefore, _, rfl⟩ | ⟨before, hBefore, rfl⟩
  · exact if_pos ⟨rfl, Nat.le_trans hBefore hTime⟩
  · exact if_pos ⟨rfl, Nat.le_trans hBefore hTime⟩

theorem RouterState.ready_next (i k : Nat) (rest : List Nat) {later : Nat} (h : now ≤ later) :
    (RouterState.trying i (k + 1) rest now).Ready i (k + 1) rest later :=
  .inr ⟨now, h, rfl⟩

theorem ofRouter_attempt (hModel : ∀ env options now, Behaves operation model now (g env options now)) :
    (attempt (.child i) g env options k now).log.filterMap Event.ofRouter = [.started i k now] := by
  have hFirst : Event.ofRouter (.started [(.child i, k)] now) = some (.started i k now) := rfl
  rw [attempt, List.filterMap_cons_some hFirst]
  congr 1
  rw [List.filterMap_map, List.filterMap_eq_nil_iff]
  intro event hMem
  cases event with
  | routed => rfl
  | failed => rfl
  | started address time =>
    cases address with
    | nil => exact absurd hMem ((hModel _ _ _).ownStarts time)
    | cons => rfl

/-- The attempts of the loop around a child are those a router may make. -/
theorem Attempts.tried (hModel : ∀ env options now, Behaves operation model now (g env options now))
    (h : Attempts (attempt (.child i) g env options) operation.retries operation.abortSignal k now ran)
    (hBound : k ≤ operation.retries) (models : Nat) (fallback : FallbackPolicy) (rest : List Nat)
    (hReady : state.Ready i k rest now) :
    ∃ reached, (routerRun operation.retries models fallback).run state (ran.log.filterMap Event.ofRouter) =
        some reached ∧
      ∀ time result error, ran.outcome = .ended time result →
        routerRun operation.retries models fallback reached (.failed i time error) = some (.waiting rest time) := by
  induction h generalizing state with
  | outOfFuel =>
    refine ⟨state, rfl, fun time result error hEnded => ?_⟩
    cases hEnded
  | aborted k now =>
    refine ⟨state, rfl, fun time result error hEnded => ?_⟩
    obtain ⟨rfl, _⟩ := Outcome.ended.inj hEnded
    exact hReady.failed (Nat.le_refl _) fallback error
  | last k now outcome hStart hTime =>
    refine ⟨.trying i (k + 1) rest now, ?_, fun time result error hEnded => ?_⟩
    · rw [ofRouter_attempt hModel, Acceptor.run, hReady.started hBound]
      rfl
    · exact (RouterState.ready_next i k rest (hTime time result hEnded)).failed (Nat.le_refl _) fallback error
  | retried k now failed later error inner hStart hFailed hRetryable hMore hLater hRest ih =>
    have hNow : now ≤ later := Nat.le_trans ((hModel _ _ _).timely _ _ hFailed) hLater
    obtain ⟨reached, hRun, hEnds⟩ := ih hMore (RouterState.ready_next i k rest hNow)
    refine ⟨reached, ?_, hEnds⟩
    rw [Ran.after, List.filterMap_append, ofRouter_attempt hModel, List.singleton_append, Acceptor.run,
      hReady.started hBound]
    exact hRun

/-- The retry loop around a model that behaves. -/
theorem Operation.visit (hMax : operation.retries + 1 < 2 ^ 32)
    (hModel : ∀ env options now, Behaves operation model now (g env options now)) (position : Position)
    (env : Environment) (options : CallOptions) (now : Nat) :
    Visit operation position model now (operation.runChild position g env options now) := by
  have hTimely : ∀ env options now time result, (g env options now).outcome = .ended time result → now ≤ time :=
    fun env options now => (hModel env options now).timely
  have h : Attempts (attempt position g env options) operation.retries operation.abortSignal 0 now
      (operation.runChild position g env options now) := by
    have hOperation : ∀ k now time result, (attempt position g env options k now).outcome = .ended time result →
        now ≤ time := fun k now => hTimely _ _ now
    let prepared := prepareRetries operation.maxRetries operation.abortSignal
    exact prepared.retry_attempts hMax hOperation operation.fuel now
  exact {
    timely := fun time result hEnded => h.timely hTimely hEnded
    notBefore := by
      intro event hMem
      obtain ⟨k, now', hNow, _, hEvent⟩ := h.mem_log hTimely event hMem
      rcases mem_attempt_log hEvent with rfl | ⟨inner, hInner, rfl⟩
      · exact hNow
      · rw [Event.time_under]
        exact Nat.le_trans hNow ((hModel _ _ _).notBefore inner hInner)
    unaborted := by
      intro event hMem hKind
      obtain ⟨k, now', _, hStart, hEvent⟩ := h.mem_log hTimely event hMem
      rcases mem_attempt_log hEvent with rfl | ⟨inner, hInner, rfl⟩
      · exact hStart
      · rw [Event.is_under, Event.is_under] at hKind
        rw [Event.time_under]
        exact (hModel _ _ _).unaborted hStart inner hInner hKind
    inside := by
      intro event hMem
      obtain ⟨k, now', _, _, hEvent⟩ := h.mem_log hTimely event hMem
      rcases mem_attempt_log hEvent with rfl | ⟨inner, _, rfl⟩
      · exact ⟨k, [], rfl⟩
      · exact ⟨k, inner.address, Event.address_under _ _⟩
    final := fun time error hEnded hRetryable => h.final hEnded hRetryable
    starts := by
      intro p live
      by_cases hOwn : p = []
      · subst hOwn
        exact h.starts_own hModel (Nat.zero_le _) live
      · exact h.starts_deep hModel hOwn live
    reruns := by
      intro p sub live hFind hComposite
      by_cases hOwn : p = []
      · subst hOwn
        obtain rfl := Option.some.inj ((LanguageModel.find.eq_1 model).symm.trans hFind)
        exact h.reruns_own hModel hComposite live
      · exact h.reruns_deep hModel hOwn hFind hComposite live
    routes := by
      intro p sub live hFind hRouter
      by_cases hOwn : p = []
      · subst hOwn
        obtain rfl := Option.some.inj ((LanguageModel.find.eq_1 model).symm.trans hFind)
        exact h.routes_own hModel hRouter live
      · exact h.routes_deep hModel hOwn hFind hRouter live
    ordered := fun k address models fallback hFind => h.ordered hModel k hFind
    tried := by
      rintro i rfl models fallback rest
      exact h.tried hModel (Nat.zero_le _) models fallback rest (.inl ⟨now, Nat.le_refl _, rfl, rfl⟩) }

end

end Aimux.Composite
