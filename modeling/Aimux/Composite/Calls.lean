import Aimux.Composite.Routing

/-! # Calls on composite models

The operation runs its model in a retry loop and is dropped when it is aborted or its deadline passes. What
it does until then is what its model does.
-/

namespace Aimux.Composite

open Aimux.Core Aimux.Lib

/-! ## Every call ends -/

section

variable {operation : Operation} {generates : List Generate}

section

variable (hMax : operation.retries + 1 < 2 ^ 32) (hFuel : operation.retries < operation.fuel)

include hMax hFuel

theorem Operation.runChild_ends {g : Generate} (hModel : ∀ env options now, (g env options now).outcome ≠ .outOfFuel)
    (position : Position) (env : Environment) (options : CallOptions) (now : Nat) :
    (operation.runChild position g env options now).outcome ≠ .outOfFuel := by
  let prepared := prepareRetries operation.maxRetries operation.abortSignal
  have hAttempt : ∀ k now, (attempt position g env options k now).outcome ≠ .outOfFuel :=
    fun k now => hModel _ options now
  exact prepared.retry_ends hMax hAttempt hFuel now

theorem fallbackGenerate_ends (hModels : ∀ g ∈ generates, ∀ env options now, (g env options now).outcome ≠ .outOfFuel)
    (exclude : Nat) (env : Environment) (options : CallOptions) (i : Nat) (error : AiMuxError) (now : Nat) :
    (fallbackGenerate operation exclude env options i generates error now).outcome ≠ .outOfFuel := by
  induction generates generalizing i error now with
  | nil => exact nofun
  | cons g generates ih =>
    have hTail := ih fun other hOther => hModels other (List.mem_cons_of_mem _ hOther)
    have hFirst := Operation.runChild_ends hMax hFuel (hModels g List.mem_cons_self) (.child i) env options now
    rw [fallbackGenerate]
    split
    · exact hTail _ _ _
    · simp only
      split
      · exact hTail _ _ _
      · exact hFirst

theorem routerGenerate_ends (hModels : ∀ g ∈ generates, ∀ env options now, (g env options now).outcome ≠ .outOfFuel)
    (fallback : FallbackPolicy) (env : Environment) (options : CallOptions) (now : Nat) :
    (routerGenerate operation generates fallback env options now).outcome ≠ .outOfFuel := by
  unfold routerGenerate
  simp only
  split
  · exact nofun
  · rename_i idx _
    split
    · exact nofun
    · rename_i g hChild
      have hFirst := Operation.runChild_ends hMax hFuel (hModels g (List.mem_of_getElem? hChild)) (.child idx) env
        options now
      split
      · split
        · exact fallbackGenerate_ends hMax hFuel hModels _ env options 0 _ _
        · exact nofun
      · exact hFirst

end

theorem joinAll_ends (now : Nat) {outcomes : List (Outcome GenerateResult)}
    (h : ∀ outcome ∈ outcomes, outcome ≠ .outOfFuel) : joinAll now outcomes ≠ .outOfFuel := by
  induction outcomes with
  | nil => exact nofun
  | cons outcome outcomes ih =>
    have hFirst := h outcome List.mem_cons_self
    have hRest := ih fun other hOther => h other (List.mem_cons_of_mem _ hOther)
    unfold joinAll
    split
    · exact absurd rfl hFirst
    · rename_i hJoined
      exact absurd hJoined hRest
    · exact nofun
    · exact nofun
    · exact nofun

theorem moaGenerate_ends (hMax : operation.retries + 1 < 2 ^ 32) (hFuel : operation.retries < operation.fuel)
    {aggregate : Generate} (hModels : ∀ g ∈ generates, ∀ env options now, (g env options now).outcome ≠ .outOfFuel)
    (hAggregator : ∀ env options now, (aggregate env options now).outcome ≠ .outOfFuel) (config : MoaConfig)
    (env : Environment) (options : CallOptions) (now : Nat) :
    (moaGenerate operation generates aggregate config env options now).outcome ≠ .outOfFuel := by
  have hFanned : (runReferencesNonstream operation generates config env options now).outcome ≠ .outOfFuel := by
    unfold runReferencesNonstream
    split
    · rintro ⟨⟩
    · simp only
      split
      · rintro ⟨⟩
      · rename_i hJoined
        refine absurd hJoined (joinAll_ends now fun outcome hMem => ?_)
        obtain ⟨ran, hRan, rfl⟩ := List.mem_map.mp hMem
        obtain ⟨i, hI, rfl⟩ := List.mem_mapIdx.mp hRan
        exact Operation.runChild_ends hMax hFuel (hModels _ (List.getElem_mem hI)) _ env _ now
      · split
        · rintro ⟨⟩
        · split
          · rintro ⟨⟩
          · rintro ⟨⟩
  unfold moaGenerate
  simp only
  split
  · rintro ⟨⟩
  · rename_i hOut
    exact absurd hOut hFanned
  · rintro ⟨⟩
  · simp only [Ran.after]
    split
    · rintro ⟨⟩
    · exact Operation.runChild_ends hMax hFuel hAggregator _ env _ _

mutual

theorem doGenerate_ends (hMax : operation.retries + 1 < 2 ^ 32) (hFuel : operation.retries < operation.fuel) :
    ∀ (model : LanguageModel) (env : Environment) (options : CallOptions) (now : Nat),
      (doGenerate operation model env options now).outcome ≠ .outOfFuel
  | .leaf => fun env options now => by
    rw [doGenerate, leafGenerate]
    simp only
    split
    · exact nofun
    · exact nofun
  | .router models fallback => fun env options now => by
    rw [doGenerate]
    exact routerGenerate_ends hMax hFuel (doGenerateAll_ends hMax hFuel models) fallback env options now
  | .moa references aggregator config => fun env options now => by
    rw [doGenerate]
    exact moaGenerate_ends hMax hFuel (doGenerateAll_ends hMax hFuel references)
      (doGenerate_ends hMax hFuel aggregator) config env options now

theorem doGenerateAll_ends (hMax : operation.retries + 1 < 2 ^ 32) (hFuel : operation.retries < operation.fuel) :
    ∀ (models : List LanguageModel), ∀ g ∈ doGenerateAll operation models, ∀ env options now,
      (g env options now).outcome ≠ .outOfFuel
  | [] => fun g hMem => by
    rw [doGenerateAll] at hMem
    exact absurd hMem List.not_mem_nil
  | model :: models => fun g hMem => by
    rw [doGenerateAll] at hMem
    rcases List.mem_cons.mp hMem with rfl | hMem
    · exact doGenerate_ends hMax hFuel model
    · exact doGenerateAll_ends hMax hFuel models g hMem

end

end

/-! ## What is left when the operation is dropped -/

def running (abort : Option Nat) (deadline : Option TimeoutDeadline) (time : Nat) : Bool :=
  match stopOf abort deadline with
  | none => true
  | some (stop, _) => decide (time < stop)

theorem runUntil_log (abort : Option Nat) (deadline : Option TimeoutDeadline) (now : Nat)
    (ran : Ran Event GenerateResult) :
    (runUntil abort deadline now ran).log = ran.log.filter fun event => running abort deadline event.time := by
  unfold runUntil running
  cases stopOf abort deadline with
  | none => exact (List.filter_eq_self.mpr fun _ _ => rfl).symm
  | some stop => rfl

theorem running_before {abort : Option Nat} {deadline : Option TimeoutDeadline} {time : Nat}
    (h : running abort deadline time = true) :
    isAborted abort time = false ∧ ∀ limit, deadline = some limit → time < limit.time := by
  unfold running stopOf at h
  cases abort with
  | none =>
    refine ⟨rfl, ?_⟩
    rintro limit rfl
    exact of_decide_eq_true h
  | some cancelled =>
    cases deadline with
    | none => exact ⟨decide_eq_false (Nat.not_le.mpr (of_decide_eq_true h)), nofun⟩
    | some limit =>
      by_cases hFirst : cancelled ≤ limit.time
      · simp only [if_pos hFirst] at h
        have hTime := of_decide_eq_true h
        refine ⟨decide_eq_false (Nat.not_le.mpr hTime), ?_⟩
        rintro _ ⟨⟩
        exact Nat.lt_of_lt_of_le hTime hFirst
      · simp only [if_neg hFirst] at h
        have hTime := of_decide_eq_true h
        refine ⟨decide_eq_false (Nat.not_le.mpr (Nat.lt_trans hTime (Nat.not_le.mp hFirst))), ?_⟩
        rintro _ ⟨⟩
        exact hTime

theorem running_mono {abort : Option Nat} {deadline : Option TimeoutDeadline} {time later : Nat}
    (hTime : time ≤ later) (h : running abort deadline later = true) : running abort deadline time = true := by
  unfold running at h ⊢
  split at h
  · rfl
  · exact decide_eq_true (Nat.lt_of_le_of_lt hTime (of_decide_eq_true h))

theorem countAt_filter (kind : Kind) (p : List Position) (live : Nat → Bool) (log : List Event) :
    countAt kind p (fun _ => true) (log.filter fun event => live event.time) = countAt kind p live log := by
  rw [countAt, countAt, List.countP_filter]
  simp only [Bool.and_true]

theorem strip_time {step : Step} {event inner : Event} (h : event.strip step = some inner) :
    inner.time = event.time := by
  unfold Event.strip at h
  split at h
  · split at h
    · obtain rfl := Option.some.inj h
      rfl
    · cases h
  · split at h
    · obtain rfl := Option.some.inj h
      rfl
    · cases h
  · split at h
    · obtain rfl := Option.some.inj h
      rfl
    · cases h
  · cases h

theorem ofRouter_time {event : Event} {read : RouterEvent} (h : event.ofRouter = some read) :
    read.time = event.time := by
  unfold Event.ofRouter at h
  split at h
  · obtain rfl := Option.some.inj h
    rfl
  · obtain rfl := Option.some.inj h
    rfl
  · obtain rfl := Option.some.inj h
    rfl
  · cases h

/-- Reading events and dropping the late ones can be done in either order. -/
theorem filterMap_filter_time {A B : Type} {f : A → Option B} {timeA : A → Nat} {timeB : B → Nat}
    (hTime : ∀ a b, f a = some b → timeB b = timeA a) (live : Nat → Bool) (items : List A) :
    (items.filter fun a => live (timeA a)).filterMap f = (items.filterMap f).filter fun b => live (timeB b) := by
  rw [List.filterMap_filter, List.filter_filterMap]
  congr 1
  funext a
  cases hRead : f a with
  | none => simp
  | some b => simp [hTime a b hRead, Option.filter]

theorem routerEvents_filter (address : Address) (live : Nat → Bool) (log : List Event) :
    routerEvents address (log.filter fun event => live event.time) =
      (routerEvents address log).filter fun event => live event.time := by
  induction address generalizing log with
  | nil => exact filterMap_filter_time (fun _ _ => ofRouter_time) live log
  | cons step address ih =>
    rw [routerEvents, routerEvents, ← ih]
    congr 1
    exact filterMap_filter_time (fun _ _ => strip_time) live log

/-- The time of the last event. -/
def RouterState.since : RouterState → Option Nat
  | .fresh => none
  | .waiting _ now => some now
  | .trying _ _ _ now => some now

/-- A move of a router is not before the last one. -/
theorem routerRun_since {maxRetries models : Nat} {fallback : FallbackPolicy} {state next : RouterState}
    {event : RouterEvent} (h : routerRun maxRetries models fallback state event = some next) :
    next.since = some event.time ∧ ∀ now, state.since = some now → now ≤ event.time := by
  unfold routerRun at h
  split at h
  · obtain rfl := Option.some.inj h
    exact ⟨rfl, nofun⟩
  · obtain rfl := Option.some.inj h
    exact ⟨rfl, nofun⟩
  · split at h
    · rename_i hMove
      obtain rfl := Option.some.inj h
      exact ⟨rfl, fun now hNow => Option.some.inj hNow ▸ hMove.2.2⟩
    · cases h
  · split at h
    · rename_i hMove
      obtain rfl := Option.some.inj h
      exact ⟨rfl, fun now hNow => Option.some.inj hNow ▸ hMove.2⟩
    · cases h
  · split at h
    · rename_i hMove
      obtain rfl := Option.some.inj h
      exact ⟨rfl, fun now hNow => Option.some.inj hNow ▸ hMove.2.2.2⟩
    · cases h
  · split at h
    · rename_i hMove
      obtain rfl := Option.some.inj h
      exact ⟨rfl, fun now hNow => Option.some.inj hNow ▸ hMove.2⟩
    · cases h
  · cases h

/-- What a router does is in the order of time. -/
theorem routerRun_sorted {maxRetries models : Nat} {fallback : FallbackPolicy} {state : RouterState}
    {events : List RouterEvent} (h : (routerRun maxRetries models fallback).run .fresh events = some state) :
    events.Pairwise fun a b => a.time ≤ b.time := by
  have hInvariant := Acceptor.run_invariant
    (fun reached seen => seen.Pairwise (fun a b : RouterEvent => a.time ≤ b.time) ∧
      ∀ event ∈ seen, ∃ now, reached.since = some now ∧ event.time ≤ now)
    ?_ ⟨List.Pairwise.nil, fun event hMem => absurd hMem List.not_mem_nil⟩ h
  · exact hInvariant.1
  · rintro reached seen event next ⟨hSorted, hSeen⟩ hMove
    obtain ⟨hNext, hAfter⟩ := routerRun_since hMove
    have hLate : ∀ earlier ∈ seen, earlier.time ≤ event.time := by
      intro earlier hMem
      obtain ⟨now, hNow, hTime⟩ := hSeen earlier hMem
      exact Nat.le_trans hTime (hAfter now hNow)
    refine ⟨List.pairwise_append.mpr ⟨hSorted, List.pairwise_singleton _ _, ?_⟩, ?_⟩
    · intro earlier hMem last hLast
      rw [List.mem_singleton.mp hLast]
      exact hLate earlier hMem
    · intro earlier hMem
      refine ⟨event.time, hNext, ?_⟩
      rcases List.mem_append.mp hMem with hMem | hMem
      · exact hLate earlier hMem
      · rw [List.mem_singleton.mp hMem]

theorem filter_isPrefix_of_sorted {A : Type} {time : A → Nat} {live : Nat → Bool}
    (hLive : ∀ early late, early ≤ late → live late = true → live early = true) {items : List A}
    (h : items.Pairwise fun a b => time a ≤ time b) : (items.filter fun a => live (time a)) <+: items := by
  induction items with
  | nil => exact List.prefix_rfl
  | cons a items ih =>
    obtain ⟨hFirst, hRest⟩ := List.pairwise_cons.mp h
    by_cases hA : live (time a) = true
    · rw [List.filter_cons, if_pos hA]
      exact List.cons_prefix_cons.mpr ⟨rfl, ih hRest⟩
    · have hNone : (items.filter fun b => live (time b)) = [] := by
        rw [List.filter_eq_nil_iff]
        exact fun b hB hLate => hA (hLive _ _ (hFirst b hB) hLate)
      rw [List.filter_cons, if_neg hA, hNone]
      exact List.nil_prefix

/-! ## Calls -/

def total (kind : Kind) (p : List Position) (log : List Event) : Nat := countAt kind p (fun _ => true) log

/-- What a call on a model does, all its composites included. -/
structure OrderlyCall (operation : Operation) (deadline : Option TimeoutDeadline) (model : LanguageModel)
    (now : Nat) (ran : Ran Event GenerateResult) : Prop where
  /-- Every model is attempted at most once more than there are retries, in the whole call. -/
  attempts : ∀ p, total .started p ran.log ≤ operation.retries + 1
  /-- A composite is attempted again only when its own routing failed with a retryable error. -/
  reruns : ∀ p sub, model.find p = some sub → sub.isComposite = true →
    total .started (.root :: p) ran.log ≤ total .refused (.root :: p) ran.log + 1
  /-- Every attempt at a router asks it once. -/
  routes : ∀ p sub, model.find p = some sub → sub.isRouter = true →
    total .routed (.root :: p) ran.log = total .started (.root :: p) ran.log
  /-- An attempt at a router tries its candidates in order, the next one after the last one failed. -/
  ordered : ∀ k address models fallback, model.find (positions address) = some (.router models fallback) →
    ∃ state, (routerRun operation.retries models.length fallback).run .fresh
      (routerEvents ((.root, k) :: address) ran.log) = some state
  /-- Nothing happens once the operation is aborted or over its deadline. -/
  stopped : ∀ event ∈ ran.log, isAborted operation.abortSignal event.time = false ∧
    ∀ limit, deadline = some limit → event.time < limit.time
  /-- An operation that is not over before it begins attempts its model. -/
  begun : 0 < operation.fuel → running operation.abortSignal deadline now = true →
    .started [(.root, 0)] now ∈ ran.log
  /-- It does not run on for ever because of its retries. -/
  ends : operation.retries < operation.fuel → ran.outcome ≠ .outOfFuel

theorem runUntil_ends (abort : Option Nat) (deadline : Option TimeoutDeadline) (now : Nat)
    {ran : Ran Event GenerateResult} (h : ran.outcome ≠ .outOfFuel) :
    (runUntil abort deadline now ran).outcome ≠ .outOfFuel := by
  unfold runUntil
  split
  · exact h
  · simp only
    split
    · split
      · exact nofun
      · exact nofun
    · exact nofun
    · exact absurd ‹_› h

theorem countAt_root_eq_zero {operation : Operation} {model : LanguageModel} {now : Nat}
    {ran : Ran Event GenerateResult} (h : Visit operation .root model now ran) (kind : Kind) (live : Nat → Bool)
    {p : List Position} (hOther : ∀ rest, p ≠ .root :: rest) : countAt kind p live ran.log = 0 := by
  refine countAt_eq_zero fun event hMem hSame => ?_
  obtain ⟨k, address, hAddress⟩ := h.inside event hMem
  rw [hAddress] at hSame
  exact hOther (positions address) hSame.symm

/-- Whatever the models, their nesting, the routers and the times: as long as the number of the try does
not come round, a call on a composite does no more than it may. -/
theorem generateInOperation_orderly (operation : Operation) (hMax : operation.retries + 1 < 2 ^ 32)
    (deadline : Option TimeoutDeadline) (model : LanguageModel) (env : Environment) (options : CallOptions)
    (now : Nat) :
    OrderlyCall operation deadline model now (generateInOperation operation deadline model env options now) := by
  have hVisit := operation.visit hMax (doGenerate_behaves hMax model) .root env options now
  have hLog := runUntil_log operation.abortSignal deadline now
    (operation.runChild .root (doGenerate operation model) env options now)
  have hTotal : ∀ kind p, total kind p (generateInOperation operation deadline model env options now).log =
      countAt kind p (running operation.abortSignal deadline)
        (operation.runChild .root (doGenerate operation model) env options now).log := by
    intro kind p
    rw [total, generateInOperation, hLog, countAt_filter]
  exact {
    attempts := by
      intro p
      rw [hTotal]
      by_cases hRoot : ∃ rest, p = .root :: rest
      · obtain ⟨rest, rfl⟩ := hRoot
        exact hVisit.starts rest _
      · rw [countAt_root_eq_zero hVisit .started _ fun rest hRest => hRoot ⟨rest, hRest⟩]
        exact Nat.zero_le _
    reruns := by
      intro p sub hFind hComposite
      rw [hTotal, hTotal]
      exact hVisit.reruns p sub _ hFind hComposite
    routes := by
      intro p sub hFind hRouter
      rw [hTotal, hTotal]
      exact hVisit.routes p sub _ hFind hRouter
    ordered := by
      intro k address models fallback hFind
      obtain ⟨state, hRun⟩ := hVisit.ordered k address models fallback hFind
      rw [generateInOperation, hLog, routerEvents_filter]
      -- what happened before the stop is the first part of what would have happened
      obtain ⟨rest, hRest⟩ := filter_isPrefix_of_sorted
        (fun early late hTime hLate => running_mono hTime hLate) (routerRun_sorted hRun)
      rw [← hRest] at hRun
      obtain ⟨middle, hMiddle, _⟩ := Acceptor.run_append_eq_some hRun
      exact ⟨middle, hMiddle⟩
    stopped := by
      intro event hMem
      rw [generateInOperation, hLog] at hMem
      exact running_before (List.mem_filter.mp hMem).2
    begun := by
      intro hFuel hRunning
      let prepared := prepareRetries operation.maxRetries operation.abortSignal
      have hStarts : ∃ rest, (operation.runChild .root (doGenerate operation model) env options now).log =
          (attempt .root (doGenerate operation model) env options 0 now).log ++ rest :=
        prepared.retry_starts hFuel (running_before hRunning).1
      obtain ⟨rest, hStarts⟩ := hStarts
      rw [generateInOperation, hLog]
      refine List.mem_filter.mpr ⟨?_, hRunning⟩
      rw [hStarts]
      exact List.mem_append_left _ List.mem_cons_self
    ends := by
      intro hFuel
      exact runUntil_ends _ _ _
        (Operation.runChild_ends hMax hFuel (doGenerate_ends hMax hFuel model) .root env options now) }

def overloaded : AiMuxError :=
  .apiCall "https://api.example/v1" .null (some 503) none "overloaded" none none none true none .httpResponse

/-- Every model is overloaded, and every router picks its second child. -/
def overloadedEnvironment : Environment where
  answer := fun _ _ => some (1, .error overloaded)
  route := fun _ _ => .ok 1
  delay := fun _ _ _ => 1
  errorText := fun _ => "overloaded"

theorem generateInOperation_orderly_overloaded :
    let operation : Operation := { maxRetries := some 1, abortSignal := some 6, fuel := 2 }
    let model := LanguageModel.router [.leaf, .moa [.leaf] .leaf {}] .onError
    let ran := generateInOperation operation none model overloadedEnvironment
      { prompt := [], tools := none, toolChoice := none } 0
    OrderlyCall operation none model 0 ran ∧ total .routed [.root] ran.log = 1 ∧
      total .started [.root, .child 1, .reference 0] ran.log = 2 ∧
      total .started [.root, .child 1] ran.log = 1 ∧ total .started [.root, .child 0] ran.log = 2 := by
  intro operation model ran
  exact ⟨generateInOperation_orderly operation (by decide) none model _ _ 0, by decide, by decide, by decide,
    by decide⟩

/-- A router whose routing fails for a moment. -/
def refusingEnvironment : Environment := { overloadedEnvironment with route := fun _ _ => .error overloaded }

/-- Aborted before it begins, a call does not route; and a router that fails itself is attempted again. -/
theorem routed_never_or_twice :
    total .routed [.root] (generateInOperation { maxRetries := some 1, abortSignal := some 0, fuel := 2 } none
      (.router [.leaf] .onError) overloadedEnvironment { prompt := [], tools := none, toolChoice := none } 0).log = 0 ∧
    total .routed [.root] (generateInOperation { maxRetries := some 1, abortSignal := none, fuel := 2 } none
      (.router [.leaf] .onError) refusingEnvironment { prompt := [], tools := none, toolChoice := none } 0).log = 2 ∧
    total .started [.root] (generateInOperation { maxRetries := some 1, abortSignal := none, fuel := 2 } none
      (.router [.leaf] .onError) refusingEnvironment { prompt := [], tools := none, toolChoice := none } 0).log = 2 :=
  ⟨by decide, by decide, by decide⟩

end Aimux.Composite
