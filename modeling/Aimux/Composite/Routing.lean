import Aimux.Composite.Visits

/-! # Composites made of models that behave

The log of a composite is put together of the logs of its retry loops, at most one at each position below
it. So whatever holds of the attempts at its models holds of it.
-/

namespace Aimux.Composite

open Aimux.Core Aimux.Lib

/-! ## Logs put together -/

def atPosition (position : Position) (log : List Event) : List Event :=
  log.filter fun event => decide (event.address.head?.map Prod.fst = some position)

/-- At every position there was at most one retry loop, around the model that stands there. -/
def Composed (operation : Operation) (sub : Position → Option LanguageModel) (log : List Event) : Prop :=
  ∀ position, atPosition position log = [] ∨
    ∃ model now ran, sub position = some model ∧ Visit operation position model now ran ∧
      atPosition position log = ran.log

variable {log : List Event} {now : Nat}

section

variable {operation : Operation} {sub : Position → Option LanguageModel} {position : Position}

theorem atPosition_append (position : Position) (log later : List Event) :
    atPosition position (log ++ later) = atPosition position log ++ atPosition position later :=
  List.filter_append _ _

theorem atPosition_eq_nil (h : ∀ event ∈ log, ∀ k address, event.address ≠ (position, k) :: address) :
    atPosition position log = [] := by
  rw [atPosition, List.filter_eq_nil_iff]
  intro event hMem hAt
  rw [decide_eq_true_iff] at hAt
  cases hAddress : event.address with
  | nil => simp [hAddress] at hAt
  | cons step address =>
    simp only [hAddress, List.head?_cons, Option.map_some, Option.some.injEq] at hAt
    exact h event hMem step.2 address (by rw [hAddress, ← hAt])

theorem countAt_atPosition (kind : Kind) (p : List Position) (live : Nat → Bool) (log : List Event) :
    countAt kind (position :: p) live (atPosition position log) = countAt kind (position :: p) live log := by
  rw [countAt, countAt, atPosition, List.countP_filter]
  congr 1
  funext event
  by_cases hAt : positions event.address = position :: p
  · have hHead : event.address.head?.map Prod.fst = some position := by
      cases hAddress : event.address with
      | nil => simp [hAddress, positions] at hAt
      | cons step address =>
        rw [hAddress, positions, List.map_cons] at hAt
        simp [(List.cons.inj hAt).1]
    simp [hAt, hHead]
  · simp [hAt]

theorem within_atPosition (k : Nat) (log : List Event) :
    within (position, k) (atPosition position log) = within (position, k) log := by
  rw [within, within, atPosition, List.filterMap_filter]
  congr 1
  funext event
  by_cases hAt : event.address.head?.map Prod.fst = some position
  · simp [hAt]
  · have hNone : event.strip (position, k) = none := by
      refine strip_eq_none fun address hAddress => hAt ?_
      rw [hAddress]
      rfl
    simp [hAt, hNone]

variable {model : LanguageModel} {ran : Ran Event GenerateResult}

theorem Visit.atPosition_own (h : Visit operation position model now ran) : atPosition position ran.log = ran.log := by
  rw [atPosition, List.filter_eq_self]
  intro event hMem
  obtain ⟨k, address, hAddress⟩ := h.inside event hMem
  simp [hAddress]

theorem Visit.atPosition_other (h : Visit operation position model now ran) {other : Position}
    (hOther : other ≠ position) : atPosition other ran.log = [] := by
  refine atPosition_eq_nil fun event hMem k address hAddress => ?_
  obtain ⟨k', address', hInside⟩ := h.inside event hMem
  rw [hInside] at hAddress
  exact hOther (Prod.mk.inj (List.cons.inj hAddress).1).1.symm

theorem Composed.nil : Composed operation sub [] := fun _ => .inl rfl

theorem Composed.visit (hSub : sub position = some model) (h : Visit operation position model now ran) :
    Composed operation sub ran.log := by
  intro other
  by_cases hSame : other = position
  · subst hSame
    exact .inr ⟨model, now, ran, hSub, h, h.atPosition_own⟩
  · exact .inl (h.atPosition_other hSame)

section

variable (h : Composed operation sub log)

include h

/-- Two logs with no position in common. -/
theorem Composed.append {later : List Event} (hLater : Composed operation sub later)
    (hApart : ∀ position, atPosition position log = [] ∨ atPosition position later = []) :
    Composed operation sub (log ++ later) := by
  intro position
  rw [atPosition_append]
  rcases hApart position with hNone | hNone
  · rw [hNone, List.nil_append]
    exact hLater position
  · rw [hNone, List.append_nil]
    exact h position

theorem Composed.starts (p : List Position) (live : Nat → Bool) :
    countAt .started (position :: p) live log ≤ operation.retries + 1 := by
  rw [← countAt_atPosition]
  rcases h position with hNone | ⟨model, now, ran, _, hVisit, hLog⟩
  · rw [hNone]
    exact Nat.zero_le _
  · rw [hLog]
    exact hVisit.starts p live

theorem Composed.reruns {p : List Position} {found : LanguageModel}
    (hFind : (sub position).bind (fun model => model.find p) = some found) (hComposite : found.isComposite = true)
    (live : Nat → Bool) :
    countAt .started (position :: p) live log ≤ countAt .refused (position :: p) live log + 1 := by
  rw [← countAt_atPosition, ← countAt_atPosition .refused]
  rcases h position with hNone | ⟨model, now, ran, hSub, hVisit, hLog⟩
  · rw [hNone]
    exact Nat.zero_le _
  · rw [hSub] at hFind
    rw [hLog]
    exact hVisit.reruns p found live hFind hComposite

theorem Composed.routes {p : List Position} {found : LanguageModel}
    (hFind : (sub position).bind (fun model => model.find p) = some found) (hRouter : found.isRouter = true)
    (live : Nat → Bool) : countAt .routed (position :: p) live log = countAt .started (position :: p) live log := by
  rw [← countAt_atPosition, ← countAt_atPosition .started]
  rcases h position with hNone | ⟨model, now, ran, hSub, hVisit, hLog⟩
  · rw [hNone]
    rfl
  · rw [hSub] at hFind
    rw [hLog]
    exact hVisit.routes p found live hFind hRouter

theorem Composed.ordered {k : Nat} {address : Address} {models : List LanguageModel} {fallback : FallbackPolicy}
    (hFind : (sub position).bind (fun model => model.find (positions address)) = some (.router models fallback)) :
    ∃ state, (routerRun operation.retries models.length fallback).run .fresh
      (routerEvents ((position, k) :: address) log) = some state := by
  rw [routerEvents, ← within_atPosition]
  rcases h position with hNone | ⟨model, now, ran, hSub, hVisit, hLog⟩
  · rw [hNone]
    exact ⟨.fresh, by rw [within, List.filterMap_nil, routerEvents_nil]; rfl⟩
  · rw [hSub] at hFind
    rw [hLog]
    exact hVisit.ordered k address models fallback hFind

end

end

/-! ## The router -/

/-- The candidates of a router, one after the other, until one does not fail. -/
inductive Sequence (operation : Operation) (models : List LanguageModel) :
    List Nat → Nat → Ran Event GenerateResult → Prop
  | exhausted (now : Nat) (error : AiMuxError) (hFinal : error.isRetryable = true → operation.retries = 0) :
    Sequence operation models [] now { log := [], outcome := .ended now (.error error) }
  | done (i : Nat) (rest : List Nat) (now : Nat) (model : LanguageModel) (ran : Ran Event GenerateResult)
    (hModel : models[i]? = some model) (hVisit : Visit operation (.child i) model now ran)
    (hDone : ∀ time error, ran.outcome ≠ .ended time (.error error)) :
    Sequence operation models (i :: rest) now ran
  | next (i : Nat) (rest : List Nat) (now time : Nat) (error : AiMuxError) (model : LanguageModel)
    (ran later : Ran Event GenerateResult) (hModel : models[i]? = some model)
    (hVisit : Visit operation (.child i) model now ran) (hFailed : ran.outcome = .ended time (.error error))
    (hLater : Sequence operation models rest time later) :
    Sequence operation models (i :: rest) now (later.after (ran.log ++ [Event.failed [] i time error]))

section

variable {operation : Operation} {models : List LanguageModel} {order : List Nat} {now : Nat}
  {ran : Ran Event GenerateResult}

variable {time : Nat}

section

variable (h : Sequence operation models order now ran)

include h

theorem Sequence.timely {result : Except AiMuxError GenerateResult} (hEnded : ran.outcome = .ended time result) :
    now ≤ time := by
  induction h with
  | exhausted => exact Nat.le_of_eq (Outcome.ended.inj hEnded).1
  | done i rest now model ran hModel hVisit => exact hVisit.timely time result hEnded
  | next i rest now failed error model ran later hModel hVisit hFailed hLater ih =>
    exact Nat.le_trans (hVisit.timely _ _ hFailed) (ih hEnded)

theorem Sequence.final {error : AiMuxError} (hEnded : ran.outcome = .ended time (.error error))
    (hRetryable : error.isRetryable = true) : operation.retries = 0 := by
  induction h with
  | exhausted now last hFinal =>
    rw [← Except.error.inj (Outcome.ended.inj hEnded).2] at hRetryable
    exact hFinal hRetryable
  | done i rest now model ran hModel hVisit hDone => exact absurd hEnded (hDone time error)
  | next i rest now failed _ model ran later hModel hVisit hFailed hLater ih => exact ih hEnded

theorem Sequence.notBefore : ∀ event ∈ ran.log, now ≤ event.time := by
  induction h with
  | exhausted => exact fun event hMem => absurd hMem List.not_mem_nil
  | done i rest now model ran hModel hVisit => exact hVisit.notBefore
  | next i rest now failed error model ran later hModel hVisit hFailed hLater ih =>
    have hTime := hVisit.timely _ _ hFailed
    intro event hMem
    rcases List.mem_append.mp hMem with hMem | hMem
    · rcases List.mem_append.mp hMem with hMem | hMem
      · exact hVisit.notBefore event hMem
      · rw [List.mem_singleton.mp hMem]
        exact hTime
    · exact Nat.le_trans hTime (ih event hMem)

/-- The events of a sequence: those of its visits, and that a candidate failed. -/
theorem Sequence.mem_log :
    ∀ event ∈ ran.log, (∃ i ∈ order, ∃ k address, event.address = (.child i, k) :: address ∧
        (event.is .started = true ∨ event.is .routed = true → isAborted operation.abortSignal event.time = false)) ∨
      ∃ i time error, event = .failed [] i time error := by
  induction h with
  | exhausted => exact fun event hMem => absurd hMem List.not_mem_nil
  | done i rest now model ran hModel hVisit =>
    intro event hMem
    obtain ⟨k, address, hAddress⟩ := hVisit.inside event hMem
    exact .inl ⟨i, List.mem_cons_self, k, address, hAddress, hVisit.unaborted event hMem⟩
  | next i rest now failed error model ran later hModel hVisit hFailed hLater ih =>
    intro event hMem
    rcases List.mem_append.mp hMem with hMem | hMem
    · rcases List.mem_append.mp hMem with hMem | hMem
      · obtain ⟨k, address, hAddress⟩ := hVisit.inside event hMem
        exact .inl ⟨i, List.mem_cons_self, k, address, hAddress, hVisit.unaborted event hMem⟩
      · exact .inr ⟨i, failed, error, List.mem_singleton.mp hMem⟩
    · rcases ih event hMem with ⟨j, hJ, hRest⟩ | hRest
      · exact .inl ⟨j, List.mem_cons_of_mem i hJ, hRest⟩
      · exact .inr hRest

theorem Sequence.atPosition_other {position : Position} (hOther : ∀ i ∈ order, position ≠ .child i) :
    atPosition position ran.log = [] := by
  refine atPosition_eq_nil fun event hMem k address hAddress => ?_
  rcases h.mem_log event hMem with ⟨i, hI, k', address', hInside, _⟩ | ⟨i, time, error, rfl⟩
  · rw [hInside] at hAddress
    exact hOther i hI (Prod.mk.inj (List.cons.inj hAddress).1).1.symm
  · cases hAddress

theorem Sequence.composed (hOrder : order.Nodup) (fallback : FallbackPolicy) :
    Composed operation (LanguageModel.router models fallback).sub ran.log := by
  induction h with
  | exhausted => exact .nil
  | done i rest now model ran hModel hVisit =>
    have hSub : (LanguageModel.router models fallback).sub (.child i) = some model := hModel
    exact .visit hSub hVisit
  | next i rest now failed error model ran later hModel hVisit hFailed hLater ih =>
    obtain ⟨hFresh, hRest⟩ := List.nodup_cons.mp hOrder
    have hSub : (LanguageModel.router models fallback).sub (.child i) = some model := hModel
    have hMark : ∀ position, atPosition position [Event.failed [] i failed error] = [] := fun _ => rfl
    have hFirst : Composed operation (LanguageModel.router models fallback).sub
        (ran.log ++ [Event.failed [] i failed error]) :=
      (Composed.visit hSub hVisit).append (fun position => .inl (hMark position)) fun position => .inr (hMark position)
    refine hFirst.append (ih hRest) fun position => ?_
    by_cases hSame : position = .child i
    · refine .inr (hLater.atPosition_other fun j hJ hEq => ?_)
      rw [hSame] at hEq
      exact hFresh (Position.child.inj hEq ▸ hJ)
    · refine .inl ?_
      rw [atPosition_append, hVisit.atPosition_other hSame, hMark]
      rfl

/-- A sequence of candidates is what a router may do. -/
theorem Sequence.accepted (count : Nat) (fallback : FallbackPolicy) :
    ∃ state, (routerRun operation.retries count fallback).run (.waiting order now)
      (ran.log.filterMap Event.ofRouter) = some state := by
  induction h with
  | exhausted now => exact ⟨.waiting [] now, rfl⟩
  | done i rest now model ran hModel hVisit =>
    obtain ⟨state, hRun, _⟩ := hVisit.tried i rfl count fallback rest
    exact ⟨state, hRun⟩
  | next i rest now failed error model ran later hModel hVisit hFailed hLater ih =>
    obtain ⟨state, hRun, hEnds⟩ := hVisit.tried i rfl count fallback rest
    obtain ⟨reached, hLaterRun⟩ := ih
    have hMark : (routerRun operation.retries count fallback).run state
        ([Event.failed [] i failed error].filterMap Event.ofRouter) = some (.waiting rest failed) := by
      change Acceptor.run _ state [RouterEvent.failed i failed error] = _
      rw [Acceptor.run, hEnds _ _ error hFailed]
      rfl
    refine ⟨reached, ?_⟩
    rw [Ran.after, List.filterMap_append, List.filterMap_append, List.append_assoc]
    exact Acceptor.run_append_of_some hRun (Acceptor.run_append_of_some hMark hLaterRun)

end

theorem countAt_eq_zero_of_address {kind : Kind} {live : Nat → Bool}
    (h : ∀ event ∈ log, event.is kind = true → event.address ≠ []) : countAt kind [] live log = 0 := by
  rw [countAt, List.countP_eq_zero]
  intro event hMem
  by_cases hKind : event.is kind = true
  · have hAddress : positions event.address ≠ [] := fun hNil => h event hMem hKind (List.map_eq_nil_iff.mp hNil)
    simp [hAddress]
  · simp [hKind]

variable {generates : List Generate} {models : List LanguageModel}

/-- The fallback visits the children in the order of the array, without the excluded one. -/
theorem fallbackGenerate_sequence (hMax : operation.retries + 1 < 2 ^ 32) (exclude : Nat)
    (env : Environment) (options : CallOptions) (i : Nat)
    (hModels : ∀ (j : Nat) (g : Generate), generates[j]? = some g → ∃ model, models[i + j]? = some model ∧
      ∀ env options now, Behaves operation model now (g env options now)) (error : AiMuxError)
    (hError : error.isRetryable = true → operation.retries = 0) (now : Nat) :
    Sequence operation models ((List.range' i generates.length).filter (· ≠ exclude)) now
      (fallbackGenerate operation exclude env options i generates error now) := by
  induction generates generalizing i error now with
  | nil => exact .exhausted now error hError
  | cons g generates ih =>
    have hTail : ∀ (j : Nat) (g : Generate), generates[j]? = some g → ∃ model, models[i + 1 + j]? = some model ∧
        ∀ env options now, Behaves operation model now (g env options now) := by
      intro j g hG
      rw [Nat.add_assoc, Nat.add_comm 1 j]
      exact hModels (j + 1) g hG
    rw [List.length_cons, List.range'_succ, fallbackGenerate]
    by_cases hExcluded : i = exclude
    · rw [if_pos hExcluded, List.filter_cons_of_neg (by simpa using hExcluded)]
      exact ih (i + 1) hTail error hError now
    · obtain ⟨model, hModel, hBehaves⟩ := hModels 0 g rfl
      have hVisit := operation.visit hMax hBehaves (.child i) env options now
      rw [if_neg hExcluded, List.filter_cons_of_pos (by simpa using hExcluded)]
      simp only
      split
      · rename_i time failure hFailed
        exact .next i _ now time failure model _ _ hModel hVisit hFailed
          (ih (i + 1) hTail failure (hVisit.final time failure hFailed) time)
      · rename_i hDone
        exact .done i _ now model _ hModel hVisit fun time failure hFailed => hDone time failure hFailed

/-- A router is asked; then it goes through its candidates, if it got any. -/
theorem routerGenerate_cases (hMax : operation.retries + 1 < 2 ^ 32) (hLength : generates.length = models.length)
    (hModels : ∀ (j : Nat) (g : Generate), generates[j]? = some g → ∃ model, models[j]? = some model ∧
      ∀ env options now, Behaves operation model now (g env options now)) (fallback : FallbackPolicy)
    (env : Environment) (options : CallOptions) (now : Nat) :
    (∃ error, routerGenerate operation generates fallback env options now =
        { log := [.routed [] now (.error error)], outcome := .ended now (.error error) }) ∨
      ∃ idx tried, routerGenerate operation generates fallback env options now =
          tried.after [.routed [] now (.ok idx)] ∧
        Sequence operation models (candidates models.length fallback idx) now tried := by
  unfold routerGenerate
  cases hRoute : env.route [] options.prompt with
  | error error => exact .inl ⟨error, rfl⟩
  | ok idx =>
    simp only
    cases hChild : generates[idx]? with
    | none =>
      have hOut : ¬ idx < models.length := by
        rw [← hLength]
        exact Nat.not_lt.mpr (List.getElem?_eq_none_iff.mp hChild)
      refine .inr ⟨idx, { log := [], outcome := .ended now (.error (outOfBounds idx generates.length)) }, rfl, ?_⟩
      rw [candidates, if_neg hOut]
      exact .exhausted now _ fun hRetryable => by cases hRetryable
    | some g =>
      have hIn : idx < models.length := by
        rw [← hLength]
        exact (List.getElem?_eq_some_iff.mp hChild).1
      obtain ⟨model, hModel, hBehaves⟩ := hModels idx g hChild
      have hVisit := operation.visit hMax hBehaves (.child idx) env options now
      simp only [Ran.after]
      split
      · rename_i time failure hFailed
        have hFinal := hVisit.final time failure hFailed
        by_cases hFallback : fallback = .onError
        · have hLater : Sequence operation models ((List.range models.length).filter (· ≠ idx)) time
              (fallbackGenerate operation idx env options 0 generates failure time) := by
            have hStarts := fallbackGenerate_sequence hMax idx env options 0 (by simpa using hModels) failure
              hFinal time
            rwa [hLength, ← List.range_eq_range'] at hStarts
          have hNext := Sequence.next idx _ now time failure model _ _ hModel hVisit hFailed hLater
          refine .inr ⟨idx, _, ?_, by rwa [candidates, if_pos hIn, if_pos hFallback]⟩
          rw [if_pos hFallback]
          simp [Ran.after]
        · have hNext := Sequence.next idx [] now time failure model _ _ hModel hVisit hFailed
            (.exhausted time failure hFinal)
          refine .inr ⟨idx, _, ?_, by rwa [candidates, if_pos hIn, if_neg hFallback]⟩
          rw [if_neg hFallback]
          simp [Ran.after]
      · rename_i hDone
        refine .inr ⟨idx, _, rfl, ?_⟩
        have hCandidates : ∃ rest, candidates models.length fallback idx = idx :: rest := by
          rw [candidates, if_pos hIn]
          split
          · exact ⟨_, rfl⟩
          · exact ⟨[], rfl⟩
        obtain ⟨rest, hCandidates⟩ := hCandidates
        rw [hCandidates]
        exact .done idx rest now model _ hModel hVisit fun time failure hFailed => hDone time failure hFailed

theorem atPosition_routed (position : Position) (now : Nat) (answer : Except AiMuxError Nat) :
    atPosition position [Event.routed [] now answer] = [] := rfl

theorem countAt_routed_deep (kind : Kind) (position : Position) (p : List Position) (live : Nat → Bool)
    (now : Nat) (answer : Except AiMuxError Nat) :
    countAt kind (position :: p) live [.routed [] now answer] = 0 := by
  rw [← countAt_atPosition, atPosition_routed]
  rfl

theorem candidates_nodup (count : Nat) (fallback : FallbackPolicy) (idx : Nat) :
    (candidates count fallback idx).Nodup := by
  unfold candidates
  split
  · split
    · refine List.nodup_cons.mpr ⟨?_, List.nodup_range.filter _⟩
      simp
    · exact List.nodup_singleton idx
  · exact List.nodup_nil

/-- A router that was asked, and what its candidates did after it. -/
theorem Behaves.router {fallback : FallbackPolicy} {answer : Except AiMuxError Nat} {rest : List Event}
    {outcome : Outcome GenerateResult} (hTimely : ∀ time result, outcome = .ended time result → now ≤ time)
    (hNotBefore : ∀ event ∈ rest, now ≤ event.time)
    (hUnaborted : ∀ event ∈ rest, event.is .started = true ∨ event.is .routed = true →
      event.address ≠ [] ∧ isAborted operation.abortSignal event.time = false)
    (hComposed : Composed operation (LanguageModel.router models fallback).sub rest)
    (hQuiet : operation.retries ≠ 0 → ∀ time error, outcome = .ended time (.error error) →
      error.isRetryable = true → answer = .error error ∧ rest = [])
    (hAccepted : ∃ state, (routerRun operation.retries models.length fallback).run .fresh
      (.routed now answer :: rest.filterMap Event.ofRouter) = some state) :
    Behaves operation (.router models fallback) now { log := .routed [] now answer :: rest, outcome } where
  timely := hTimely
  notBefore := by
    intro event hMem
    rcases List.mem_cons.mp hMem with rfl | hMem
    · exact Nat.le_refl _
    · exact hNotBefore event hMem
  unaborted := by
    intro hStart event hMem hKind
    rcases List.mem_cons.mp hMem with rfl | hMem
    · exact hStart
    · exact (hUnaborted event hMem hKind).2
  ownStarts := by
    intro time hMem
    rcases List.mem_cons.mp hMem with hEq | hMem
    · cases hEq
    · exact (hUnaborted _ hMem (.inl rfl)).1 rfl
  ownRoutes := by
    intro live
    have hRest : countAt .routed [] live rest = 0 :=
      countAt_eq_zero_of_address fun event hMem hKind => (hUnaborted event hMem (.inr hKind)).1
    rw [countAt_cons, hRest]
    simp [countAt, List.countP_cons, Event.is, Event.address, Event.time, positions, LanguageModel.isRouter]
  quiet := by
    intro hRetries time error hEnded hRetryable
    obtain ⟨rfl, rfl⟩ := hQuiet hRetries time error hEnded hRetryable
    exact .inr rfl
  starts := by
    intro p live
    rw [countAt_cons]
    cases p with
    | nil =>
      have hRest : countAt .started [] live rest = 0 :=
        countAt_eq_zero_of_address fun event hMem hKind => (hUnaborted event hMem (.inl hKind)).1
      rw [hRest]
      exact Nat.zero_le _
    | cons position p =>
      rw [countAt_routed_deep, Nat.zero_add]
      exact hComposed.starts p live
  reruns := by
    intro p sub live hDeep hFind hComposite
    cases p with
    | nil => exact absurd rfl hDeep
    | cons position p =>
      rw [countAt_cons, @countAt_cons .refused, countAt_routed_deep, countAt_routed_deep, Nat.zero_add,
        Nat.zero_add]
      exact hComposed.reruns hFind hComposite live
  routes := by
    intro p sub live hDeep hFind hRouter
    cases p with
    | nil => exact absurd rfl hDeep
    | cons position p =>
      rw [countAt_cons, @countAt_cons .started, countAt_routed_deep, countAt_routed_deep, Nat.zero_add,
        Nat.zero_add]
      exact hComposed.routes hFind hRouter live
  ordered := by
    intro address subModels subFallback hFind
    cases address with
    | nil =>
      obtain ⟨rfl, rfl⟩ := LanguageModel.router.inj (Option.some.inj hFind)
      exact hAccepted
    | cons step address =>
      exact hComposed.ordered hFind

theorem routerGenerate_behaves (hMax : operation.retries + 1 < 2 ^ 32) (hLength : generates.length = models.length)
    (hModels : ∀ (j : Nat) (g : Generate), generates[j]? = some g → ∃ model, models[j]? = some model ∧
      ∀ env options now, Behaves operation model now (g env options now)) (fallback : FallbackPolicy)
    (env : Environment) (options : CallOptions) (now : Nat) :
    Behaves operation (.router models fallback) now
      (routerGenerate operation generates fallback env options now) := by
  rcases routerGenerate_cases hMax hLength hModels fallback env options now with
    ⟨error, hRan⟩ | ⟨idx, tried, hRan, hSequence⟩
  · rw [hRan]
    refine Behaves.router ?_ ?_ ?_ .nil ?_ ⟨.waiting [] now, rfl⟩
    · intro time result hEnded
      exact Nat.le_of_eq (Outcome.ended.inj hEnded).1
    · exact fun event hMem => absurd hMem List.not_mem_nil
    · exact fun event hMem => absurd hMem List.not_mem_nil
    · intro _ time other hEnded _
      exact ⟨congrArg Except.error (Except.error.inj (Outcome.ended.inj hEnded).2), rfl⟩
  · rw [hRan]
    refine Behaves.router (fun time result hEnded => hSequence.timely hEnded) hSequence.notBefore ?_
      (hSequence.composed (candidates_nodup _ _ _) fallback) ?_ (hSequence.accepted models.length fallback)
    · intro event hMem hKind
      rcases hSequence.mem_log event hMem with ⟨i, _, k, address, hAddress, hFresh⟩ | ⟨i, time, error, rfl⟩
      · exact ⟨by rw [hAddress]; exact List.cons_ne_nil _ _, hFresh hKind⟩
      · rcases hKind with hKind | hKind <;> cases hKind
    · intro hRetries time error hEnded hRetryable
      exact absurd (hSequence.final hEnded hRetryable) hRetries

/-! ## The mixture of agents -/

/-- The retry loops of references that run side by side, from index `i` on. -/
theorem references_composed (hMax : operation.retries + 1 < 2 ^ 32) (sub : Position → Option LanguageModel)
    (env : Environment) (options : CallOptions) (now i : Nat)
    (hModels : ∀ (j : Nat) (g : Generate), generates[j]? = some g → ∃ model, sub (.reference (i + j)) = some model ∧
      ∀ env options now, Behaves operation model now (g env options now)) :
    let runs := generates.mapIdx fun j g => operation.runChild (.reference (i + j)) g env options now
    (∀ ran ∈ runs, ∃ j model, i ≤ j ∧ Visit operation (.reference j) model now ran) ∧
      Composed operation sub (runs.flatMap (·.log)) := by
  induction generates generalizing i with
  | nil => exact ⟨fun ran hMem => absurd hMem List.not_mem_nil, .nil⟩
  | cons g generates ih =>
    obtain ⟨model, hSub, hBehaves⟩ := hModels 0 g rfl
    have hVisit := operation.visit hMax hBehaves (.reference i) env options now
    have hTail : ∀ (j : Nat) (g : Generate), generates[j]? = some g →
        ∃ model, sub (.reference (i + 1 + j)) = some model ∧
          ∀ env options now, Behaves operation model now (g env options now) := by
      intro j g hG
      rw [Nat.add_assoc, Nat.add_comm 1 j]
      exact hModels (j + 1) g hG
    obtain ⟨hRuns, hComposed⟩ := ih (i + 1) hTail
    have hShift : (generates.mapIdx fun j g =>
          operation.runChild (.reference (i + (j + 1))) g env options now) =
        generates.mapIdx fun j g => operation.runChild (.reference (i + 1 + j)) g env options now := by
      congr 1
      funext j g
      rw [Nat.add_assoc, Nat.add_comm 1 j]
    simp only [List.mapIdx_cons, Nat.add_zero, hShift, List.flatMap_cons]
    refine ⟨?_, ?_⟩
    · intro ran hMem
      rcases List.mem_cons.mp hMem with rfl | hMem
      · exact ⟨i, model, Nat.le_refl i, hVisit⟩
      · obtain ⟨j, other, hJ, hOther⟩ := hRuns ran hMem
        exact ⟨j, other, Nat.le_of_succ_le hJ, hOther⟩
    · refine (Composed.visit hSub hVisit).append hComposed fun position => ?_
      by_cases hSame : position = .reference i
      · refine .inr (atPosition_eq_nil fun event hMem k address hAddress => ?_)
        obtain ⟨ran, hRan, hEvent⟩ := List.mem_flatMap.mp hMem
        obtain ⟨j, other, hJ, hOther⟩ := hRuns ran hRan
        obtain ⟨k', address', hInside⟩ := hOther.inside event hEvent
        rw [hInside, hSame] at hAddress
        have hIndex := Position.reference.inj (Prod.mk.inj (List.cons.inj hAddress).1).1
        omega
      · exact .inl (hVisit.atPosition_other hSame)

variable {results : List (Except AiMuxError GenerateResult)}

theorem joinAll_ended {outcomes : List (Outcome GenerateResult)}
    (hTimely : ∀ outcome ∈ outcomes, ∀ time result, outcome = .ended time result → now ≤ time)
    (h : joinAll now outcomes = .ended time results) :
    now ≤ time ∧ ∀ result ∈ results, ∃ ended, .ended ended result ∈ outcomes := by
  induction outcomes generalizing time results with
  | nil =>
    obtain ⟨rfl, rfl⟩ := Joined.ended.inj h
    exact ⟨Nat.le_refl _, fun result hMem => absurd hMem List.not_mem_nil⟩
  | cons outcome outcomes ih =>
    unfold joinAll at h
    split at h
    all_goals try cases h
    rename_i first result later rest hRest
    obtain ⟨hLater, hResults⟩ := ih (fun other hOther => hTimely other (List.mem_cons_of_mem _ hOther)) hRest
    refine ⟨Nat.le_trans hLater (Nat.le_max_right _ _), ?_⟩
    intro other hOther
    rcases List.mem_cons.mp hOther with rfl | hOther
    · exact ⟨first, List.mem_cons_self⟩
    · obtain ⟨ended, hMem⟩ := hResults other hOther
      exact ⟨ended, List.mem_cons_of_mem _ hMem⟩

theorem collectReferences_error {failMode : MoaFailMode} {errorText : AiMuxError → String} {i : Nat}
    {collected : References} {error : AiMuxError}
    (h : collectReferences failMode errorText i collected results = .error error) : .error error ∈ results := by
  induction results generalizing i collected with
  | nil => cases h
  | cons result results ih =>
    cases result with
    | ok res => exact List.mem_cons_of_mem _ (ih h)
    | error failure =>
      rw [collectReferences] at h
      split at h
      · rw [Except.error.inj h]
        exact List.mem_cons_self
      · exact List.mem_cons_of_mem _ (ih h)

variable {references : List LanguageModel}

/-- A mixture of agents does nothing of its own. -/
theorem Behaves.moa {aggregator : LanguageModel} {config : MoaConfig} {ran : Ran Event GenerateResult}
    (hTimely : ∀ time result, ran.outcome = .ended time result → now ≤ time)
    (hEvents : ∀ event ∈ ran.log, event.address ≠ [] ∧ now ≤ event.time ∧
      (event.is .started = true ∨ event.is .routed = true → isAborted operation.abortSignal event.time = false))
    (hComposed : Composed operation (LanguageModel.moa references aggregator config).sub ran.log)
    (hFinal : ∀ time error, ran.outcome = .ended time (.error error) → error.isRetryable = true →
      operation.retries = 0) : Behaves operation (.moa references aggregator config) now ran where
  timely := hTimely
  notBefore := fun event hMem => (hEvents event hMem).2.1
  unaborted := fun _ event hMem => (hEvents event hMem).2.2
  ownStarts := fun time hMem => (hEvents _ hMem).1 rfl
  ownRoutes := fun live => countAt_eq_zero_of_address fun event hMem _ => (hEvents event hMem).1
  quiet := fun hRetries time error hEnded hRetryable =>
    absurd (hFinal time error hEnded hRetryable) hRetries
  starts := by
    intro p live
    cases p with
    | nil =>
      rw [countAt_eq_zero_of_address fun event hMem _ => (hEvents event hMem).1]
      exact Nat.zero_le _
    | cons position p => exact hComposed.starts p live
  reruns := by
    intro p sub live hDeep hFind hComposite
    cases p with
    | nil => exact absurd rfl hDeep
    | cons position p => exact hComposed.reruns hFind hComposite live
  routes := by
    intro p sub live hDeep hFind hRouter
    cases p with
    | nil => exact absurd rfl hDeep
    | cons position p => exact hComposed.routes hFind hRouter live
  ordered := by
    intro address models fallback hFind
    cases address with
    | nil => cases hFind
    | cons step address => exact hComposed.ordered hFind

/-- What the references of a mixture leave behind. -/
structure FannedOut (operation : Operation) (sub : Position → Option LanguageModel) (now : Nat)
    (fanned : Ran Event References) : Prop where
  timely : ∀ time result, fanned.outcome = .ended time result → now ≤ time
  final : ∀ time error, fanned.outcome = .ended time (.error error) → error.isRetryable = true →
    operation.retries = 0
  events : ∀ event ∈ fanned.log, (∃ j k address, event.address = (.reference j, k) :: address) ∧
    now ≤ event.time ∧
    (event.is .started = true ∨ event.is .routed = true → isAborted operation.abortSignal event.time = false)
  composed : Composed operation sub fanned.log

theorem runReferencesNonstream_fannedOut (hMax : operation.retries + 1 < 2 ^ 32) (aggregator : LanguageModel)
    (hModels : ∀ (j : Nat) (g : Generate), generates[j]? = some g → ∃ model, references[j]? = some model ∧
      ∀ env options now, Behaves operation model now (g env options now)) (config : MoaConfig) (env : Environment)
    (options : CallOptions) (now : Nat) :
    FannedOut operation (LanguageModel.moa references aggregator config).sub now
      (runReferencesNonstream operation generates config env options now) := by
  unfold runReferencesNonstream
  split
  · refine ⟨?_, ?_, fun event hMem => absurd hMem List.not_mem_nil, .nil⟩
    · exact fun time result hEnded => Nat.le_of_eq (Outcome.ended.inj hEnded).1
    · intro time error hEnded
      cases hEnded
  · obtain ⟨hRuns, hComposed⟩ := references_composed hMax (LanguageModel.moa references aggregator config).sub env
      (referenceOptions config options) now 0 (fun j g hG => by rw [Nat.zero_add]; exact hModels j g hG)
    simp only [Nat.zero_add] at hRuns hComposed
    have hTimely : ∀ outcome ∈ (generates.mapIdx fun i g =>
          operation.runChild (.reference i) g env (referenceOptions config options) now).map (·.outcome),
        ∀ time result, outcome = .ended time result → now ≤ time := by
      intro outcome hMem time result hEnded
      obtain ⟨ran, hRan, rfl⟩ := List.mem_map.mp hMem
      obtain ⟨j, model, _, hVisit⟩ := hRuns ran hRan
      exact hVisit.timely time result hEnded
    refine ⟨?_, ?_, ?_, hComposed⟩
    · intro time result hEnded
      simp only at hEnded
      split at hEnded
      · cases hEnded
      · cases hEnded
      · rename_i later results hJoined
        have hLater := (joinAll_ended hTimely hJoined).1
        split at hEnded
        · exact (Outcome.ended.inj hEnded).1 ▸ hLater
        · split at hEnded
          · exact (Outcome.ended.inj hEnded).1 ▸ hLater
          · exact (Outcome.ended.inj hEnded).1 ▸ hLater
    · intro time error hEnded hRetryable
      simp only at hEnded
      split at hEnded
      · cases hEnded
      · cases hEnded
      · rename_i later results hJoined
        split at hEnded
        · rename_i failure hCollected
          obtain ⟨ended, hMem⟩ := (joinAll_ended hTimely hJoined).2 _ (collectReferences_error hCollected)
          obtain ⟨ran, hRan, hOutcome⟩ := List.mem_map.mp hMem
          obtain ⟨j, model, _, hVisit⟩ := hRuns ran hRan
          rw [← Except.error.inj (Outcome.ended.inj hEnded).2] at hRetryable
          exact hVisit.final ended failure hOutcome hRetryable
        · split at hEnded
          · rw [← Except.error.inj (Outcome.ended.inj hEnded).2] at hRetryable
            cases hRetryable
          · cases hEnded
    · intro event hMem
      obtain ⟨ran, hRan, hEvent⟩ := List.mem_flatMap.mp hMem
      obtain ⟨j, model, _, hVisit⟩ := hRuns ran hRan
      obtain ⟨k, address, hAddress⟩ := hVisit.inside event hEvent
      exact ⟨⟨j, k, address, hAddress⟩, hVisit.notBefore event hEvent, hVisit.unaborted event hEvent⟩

theorem moaGenerate_behaves (hMax : operation.retries + 1 < 2 ^ 32) {aggregator : LanguageModel} {aggregate : Generate}
    (hModels : ∀ (j : Nat) (g : Generate), generates[j]? = some g → ∃ model, references[j]? = some model ∧
      ∀ env options now, Behaves operation model now (g env options now))
    (hAggregator : ∀ env options now, Behaves operation aggregator now (aggregate env options now)) (config : MoaConfig)
    (env : Environment) (options : CallOptions) (now : Nat) :
    Behaves operation (.moa references aggregator config) now
      (moaGenerate operation generates aggregate config env options now) := by
  have hFanned := runReferencesNonstream_fannedOut hMax aggregator hModels config env options now
  have hEvents : ∀ event ∈ (runReferencesNonstream operation generates config env options now).log,
      event.address ≠ [] ∧ now ≤ event.time ∧ (event.is .started = true ∨ event.is .routed = true →
        isAborted operation.abortSignal event.time = false) := by
    intro event hMem
    obtain ⟨⟨j, k, address, hAddress⟩, hRest⟩ := hFanned.events event hMem
    exact ⟨by rw [hAddress]; exact List.cons_ne_nil _ _, hRest⟩
  unfold moaGenerate
  simp only
  split
  · exact Behaves.moa (fun time result hEnded => by cases hEnded) hEvents hFanned.composed
      fun time error hEnded => by cases hEnded
  · exact Behaves.moa (fun time result hEnded => by cases hEnded) hEvents hFanned.composed
      fun time error hEnded => by cases hEnded
  · rename_i time error hFailed
    refine Behaves.moa ?_ hEvents hFanned.composed ?_
    · intro ended result hEnded
      exact (Outcome.ended.inj hEnded).1 ▸ hFanned.timely time _ hFailed
    · intro ended other hEnded hRetryable
      rw [← Except.error.inj (Outcome.ended.inj hEnded).2] at hRetryable
      exact hFanned.final time error hFailed hRetryable
  · rename_i time collected hCollected
    have hTime := hFanned.timely time _ hCollected
    let prompt := buildAggregatorPrompt options.prompt config.aggregatorInstructions collected.texts
    have hVisit := operation.visit hMax hAggregator .aggregator env { options with prompt } time
    refine Behaves.moa ?_ ?_ ?_ ?_
    · intro ended result hEnded
      simp only [Ran.after] at hEnded
      split at hEnded
      · rename_i later agg hAgg
        rw [← (Outcome.ended.inj hEnded).1]
        exact Nat.le_trans hTime (hVisit.timely later _ hAgg)
      · exact Nat.le_trans hTime (hVisit.timely ended _ hEnded)
    · intro event hMem
      rcases List.mem_append.mp hMem with hMem | hMem
      · exact hEvents event hMem
      · obtain ⟨k, address, hAddress⟩ := hVisit.inside event hMem
        exact ⟨by rw [hAddress]; exact List.cons_ne_nil _ _,
          Nat.le_trans hTime (hVisit.notBefore event hMem), hVisit.unaborted event hMem⟩
    · have hSub : (LanguageModel.moa references aggregator config).sub .aggregator = some aggregator := rfl
      refine hFanned.composed.append (.visit hSub hVisit) fun position => ?_
      by_cases hSame : position = .aggregator
      · refine .inl (atPosition_eq_nil fun event hMem k address hAddress => ?_)
        obtain ⟨⟨j, k', address', hInside⟩, _⟩ := hFanned.events event hMem
        rw [hInside, hSame] at hAddress
        cases hAddress
      · exact .inr (hVisit.atPosition_other hSame)
    · intro ended error hEnded hRetryable
      simp only [Ran.after] at hEnded
      split at hEnded
      · cases hEnded
      · exact hVisit.final ended error hEnded hRetryable

/-! ## Every model -/

theorem leafGenerate_behaves (env : Environment) (options : CallOptions) (now : Nat) :
    Behaves operation .leaf now (leafGenerate env options now) where
  timely := by
    intro time result hEnded
    unfold leafGenerate at hEnded
    simp only at hEnded
    split at hEnded
    · rw [← (Outcome.ended.inj hEnded).1]
      exact Nat.le_add_right _ _
    · cases hEnded
  notBefore := fun event hMem => absurd hMem List.not_mem_nil
  unaborted := fun _ event hMem => absurd hMem List.not_mem_nil
  ownStarts := fun time => List.not_mem_nil
  ownRoutes := fun live => rfl
  quiet := fun _ time error _ _ => .inl ⟨rfl, rfl⟩
  starts := fun p live => Nat.zero_le _
  reruns := fun p sub live _ _ _ => Nat.zero_le _
  routes := fun p sub live _ _ _ => rfl
  ordered := by
    intro address models fallback hFind
    cases address <;> cases hFind

mutual

theorem doGenerate_behaves (hMax : operation.retries + 1 < 2 ^ 32) :
    ∀ (model : LanguageModel) (env : Environment) (options : CallOptions) (now : Nat),
      Behaves operation model now (doGenerate operation model env options now)
  | .leaf => fun env options now => by
    rw [doGenerate]
    exact leafGenerate_behaves env options now
  | .router models fallback => fun env options now => by
    obtain ⟨hLength, hModels⟩ := doGenerateAll_behaves hMax models
    rw [doGenerate]
    exact routerGenerate_behaves hMax hLength hModels fallback env options now
  | .moa references aggregator config => fun env options now => by
    have hModels := (doGenerateAll_behaves hMax references).2
    rw [doGenerate]
    exact moaGenerate_behaves hMax hModels (doGenerate_behaves hMax aggregator) config env options now

theorem doGenerateAll_behaves (hMax : operation.retries + 1 < 2 ^ 32) :
    ∀ models : List LanguageModel, (doGenerateAll operation models).length = models.length ∧
      ∀ (j : Nat) (g : Generate), (doGenerateAll operation models)[j]? = some g →
        ∃ model, models[j]? = some model ∧ ∀ env options now, Behaves operation model now (g env options now)
  | [] => ⟨by rw [doGenerateAll]; rfl, fun j g hG => by rw [doGenerateAll] at hG; cases hG⟩
  | model :: models => by
    obtain ⟨hLength, hModels⟩ := doGenerateAll_behaves hMax models
    have hModel := doGenerate_behaves hMax model
    rw [doGenerateAll]
    refine ⟨by rw [List.length_cons, List.length_cons, hLength], ?_⟩
    intro j g hG
    cases j with
    | zero =>
      obtain rfl := Option.some.inj hG
      exact ⟨model, rfl, hModel⟩
    | succ j => exact hModels j g hG

end

end

end Aimux.Composite
