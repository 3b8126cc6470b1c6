import Aimux.Recorder.Model

/-! # Recording contexts

The contexts of one call form a tree. All share the counter that hands out attempt numbers; the current
attempt and the exchange counter belong to one context and its clones. An exchange carries the pair of
both numbers, and the entry of an exchange is found by it.
-/

namespace Aimux.Recorder

open Aimux.Lib

/-- The counters have 32 bits and come round. -/
def wrap32 (n : Nat) : Nat := n % 2 ^ 32

structure RecordingContext where
  currentAttempt : Nat := 0
  exchangeIndex : Nat := 0

/-- The contexts of a call, the root first; a clone is the same context. -/
structure ContextTree where
  attemptAllocator : Nat := 0
  contexts : List RecordingContext := [({} : RecordingContext)]

inductive ContextAction where
  | child (parent : Nat)
  | startAttempt (context : Nat)
  | nextExchange (context : Nat)

inductive ContextEvent where
  | attempt (context attempt : Nat)
  | exchange (context attempt exchangeIndex : Nat)

namespace ContextTree

/-- An action on a context that is not there does nothing. -/
def step : Transducer ContextTree ContextAction ContextEvent
  | self, .child parent =>
    match self.contexts[parent]? with
    | none => (self, [])
    | some _ => ({ self with contexts := self.contexts ++ [({} : RecordingContext)] }, [])
  | self, .startAttempt context =>
    match self.contexts[context]? with
    | none => (self, [])
    | some _ =>
      let attempt := wrap32 (self.attemptAllocator + 1)
      ({ attemptAllocator := attempt
         contexts := self.contexts.set context { currentAttempt := attempt, exchangeIndex := 0 } },
        [.attempt context attempt])
  | self, .nextExchange context =>
    match self.contexts[context]? with
    | none => (self, [])
    | some found =>
      let exchangeIndex := wrap32 (found.exchangeIndex + 1)
      ({ self with contexts := self.contexts.set context { found with exchangeIndex } },
        [.exchange context (max found.currentAttempt 1) exchangeIndex])

/-- The counter that the action advances is not at its greatest value. -/
def Fits (self : ContextTree) : ContextAction → Prop
  | .child _ => True
  | .startAttempt _ => self.attemptAllocator + 1 < 2 ^ 32
  | .nextExchange context =>
    ∀ found, self.contexts[context]? = some found → found.exchangeIndex + 1 < 2 ^ 32

end ContextTree

/-- The identities handed out to exchanges. -/
def identities (history : List ContextEvent) : List (Nat × Nat) :=
  history.filterMap fun
    | .exchange _ attempt exchangeIndex => some (attempt, exchangeIndex)
    | .attempt .. => none

/-- Every context starts an attempt before its exchanges. -/
def Started (history : List ContextEvent) : Prop :=
  ∀ before context attempt exchangeIndex after,
    history = before ++ ContextEvent.exchange context attempt exchangeIndex :: after →
      ∃ first, ContextEvent.attempt context first ∈ before

variable {history : List ContextEvent}

theorem Started.before {later : List ContextEvent} (h : Started (history ++ later)) :
    Started history := by
  intro before context attempt exchangeIndex after hSplit
  refine h before context attempt exchangeIndex (after ++ later) ?_
  rw [hSplit, List.append_assoc, List.cons_append]

theorem identities_append (history later : List ContextEvent) :
    identities (history ++ later) = identities history ++ identities later :=
  List.filterMap_append

/-! ## The numbers of a call -/

/-- An attempt number belongs to one context, and the exchanges of its current attempt are numbered up
to its counter. -/
structure Numbered (tree : ContextTree) (history : List ContextEvent) : Prop where
  current : ∀ (i : Nat) (context : RecordingContext), tree.contexts[i]? = some context →
    context.currentAttempt ≤ tree.attemptAllocator
  owner : ∀ (i j : Nat) (a b : RecordingContext), tree.contexts[i]? = some a → tree.contexts[j]? = some b →
    0 < a.currentAttempt → a.currentAttempt = b.currentAttempt → i = j
  begun : ∀ context first, ContextEvent.attempt context first ∈ history →
    ∃ found, tree.contexts[context]? = some found ∧ 0 < found.currentAttempt
  issued : ∀ pair ∈ identities history, pair.1 ≤ tree.attemptAllocator
  counted : ∀ (i : Nat) (context : RecordingContext), tree.contexts[i]? = some context →
    0 < context.currentAttempt → ∀ pair ∈ identities history, pair.1 = context.currentAttempt →
      pair.2 ≤ context.exchangeIndex
  distinct : (identities history).Nodup

theorem root_currentAttempt {i : Nat} {context : RecordingContext}
    (h : ({} : ContextTree).contexts[i]? = some context) : context.currentAttempt = 0 := by
  rcases i with _ | i
  · obtain rfl := Option.some.inj h
    rfl
  · cases h

theorem Numbered.start : Numbered {} [] where
  current := fun _ _ hContext => Nat.le_of_eq (root_currentAttempt hContext)
  owner := fun _ _ _ _ hA _ hPositive => absurd (root_currentAttempt hA) (Nat.ne_of_gt hPositive)
  begun := fun _ _ hMem => absurd hMem List.not_mem_nil
  issued := fun _ hMem => absurd hMem List.not_mem_nil
  counted := fun _ _ _ _ _ hMem => absurd hMem List.not_mem_nil
  distinct := List.nodup_nil

variable {tree : ContextTree}

/-- A new context has no attempt yet. -/
theorem Numbered.child (h : Numbered tree history) :
    Numbered { tree with contexts := tree.contexts ++ [({} : RecordingContext)] } history := by
  have hOld : ∀ (i : Nat) (context : RecordingContext),
      (tree.contexts ++ [({} : RecordingContext)])[i]? = some context →
      0 < context.currentAttempt → tree.contexts[i]? = some context := by
    intro i context hContext hPositive
    rw [List.getElem?_append] at hContext
    split at hContext
    · exact hContext
    · obtain ⟨_, hEq⟩ := List.getElem?_eq_some_iff.mp hContext
      simp only [List.getElem_singleton] at hEq
      rw [← hEq] at hPositive
      cases hPositive
  refine ⟨?_, ?_, ?_, h.issued, ?_, h.distinct⟩
  · intro i context hContext
    by_cases hPositive : 0 < context.currentAttempt
    · exact h.current i context (hOld i context hContext hPositive)
    · exact Nat.le_trans (Nat.le_of_not_lt hPositive) (Nat.zero_le _)
  · intro i j a b hA hB hPositive hSame
    exact h.owner i j a b (hOld i a hA hPositive) (hOld j b hB (hSame ▸ hPositive)) hPositive hSame
  · intro context first hMem
    obtain ⟨found, hFound, hPositive⟩ := h.begun context first hMem
    refine ⟨found, ?_, hPositive⟩
    rw [List.getElem?_append_left (List.getElem?_eq_some_iff.mp hFound).1, hFound]
  · intro i context hContext hPositive
    exact h.counted i context (hOld i context hContext hPositive) hPositive

variable {contexts : List RecordingContext} {k : Nat}

/-- A context of the tree after one of them was replaced. -/
theorem getElem?_set_cases {i : Nat} {next context : RecordingContext} (h : (contexts.set k next)[i]? = some context) :
    (i = k ∧ context = next) ∨ (i ≠ k ∧ contexts[i]? = some context) := by
  rw [List.getElem?_set] at h
  split at h
  · rename_i hSame
    split at h
    · exact .inl ⟨hSame.symm, (Option.some.inj h).symm⟩
    · cases h
  · rename_i hOther
    exact .inr ⟨Ne.symm hOther, h⟩

variable {found : RecordingContext}

theorem getElem?_set_present (h : contexts[k]? = some found) (next : RecordingContext) :
    (contexts.set k next)[k]? = some next :=
  List.getElem?_set_self (List.getElem?_eq_some_iff.mp h).1

/-- A started context stays started when a context gets a positive attempt. -/
theorem begun_set {i : Nat} {replaced next : RecordingContext} (hReplaced : contexts[k]? = some replaced)
    (hNext : 0 < next.currentAttempt) (h : ∃ found, contexts[i]? = some found ∧ 0 < found.currentAttempt) :
    ∃ found, (contexts.set k next)[i]? = some found ∧ 0 < found.currentAttempt := by
  obtain ⟨found, hFound, hPositive⟩ := h
  by_cases hSame : k = i
  · rw [← hSame]
    exact ⟨next, getElem?_set_present hReplaced next, hNext⟩
  · exact ⟨found, by rw [List.getElem?_set_ne hSame, hFound], hPositive⟩

/-- The next attempt has a number that no context and no exchange has. -/
theorem Numbered.attempt (h : Numbered tree history) (hFound : tree.contexts[k]? = some found) :
    Numbered
      { attemptAllocator := tree.attemptAllocator + 1
        contexts := tree.contexts.set k { currentAttempt := tree.attemptAllocator + 1, exchangeIndex := 0 } }
      (history ++ [ContextEvent.attempt k (tree.attemptAllocator + 1)]) := by
  have hIdentities : identities (history ++ [ContextEvent.attempt k (tree.attemptAllocator + 1)]) =
      identities history := by
    rw [identities_append]
    exact List.append_nil _
  refine ⟨?_, ?_, ?_, ?_, ?_, ?_⟩
  · intro i context hContext
    rcases getElem?_set_cases hContext with ⟨_, rfl⟩ | ⟨_, hOld⟩
    · exact Nat.le_refl _
    · exact Nat.le_succ_of_le (h.current i context hOld)
  · intro i j a b hA hB hPositive hSame
    rcases getElem?_set_cases hA with ⟨rfl, rfl⟩ | ⟨hI, hOldA⟩ <;>
      rcases getElem?_set_cases hB with ⟨hJ, rfl⟩ | ⟨hJ, hOldB⟩
    · exact hJ.symm
    · have hBound := h.current j b hOldB
      rw [← hSame] at hBound
      exact absurd hBound (Nat.not_succ_le_self _)
    · have hBound := h.current i a hOldA
      rw [hSame] at hBound
      exact absurd hBound (Nat.not_succ_le_self _)
    · exact h.owner i j a b hOldA hOldB hPositive hSame
  · intro context first hMem
    rcases List.mem_append.mp hMem with hMem | hMem
    · exact begun_set hFound (Nat.succ_pos _) (h.begun context first hMem)
    · obtain ⟨rfl, _⟩ := ContextEvent.attempt.inj (List.mem_singleton.mp hMem)
      exact ⟨_, getElem?_set_present hFound _, Nat.succ_pos _⟩
  · intro pair hPair
    rw [hIdentities] at hPair
    exact Nat.le_succ_of_le (h.issued pair hPair)
  · intro i context hContext hPositive pair hPair hAttempt
    rw [hIdentities] at hPair
    rcases getElem?_set_cases hContext with ⟨_, rfl⟩ | ⟨_, hOld⟩
    · have hBound := h.issued pair hPair
      rw [hAttempt] at hBound
      exact absurd hBound (Nat.not_succ_le_self _)
    · exact h.counted i context hOld hPositive pair hPair hAttempt
  · rw [hIdentities]
    exact h.distinct

/-- The next exchange of a started context has a number that no exchange of its attempt has. -/
theorem Numbered.exchange (h : Numbered tree history) (hFound : tree.contexts[k]? = some found)
    (hStarted : 0 < found.currentAttempt) :
    Numbered
      { tree with contexts := tree.contexts.set k { found with exchangeIndex := found.exchangeIndex + 1 } }
      (history ++ [ContextEvent.exchange k found.currentAttempt (found.exchangeIndex + 1)]) := by
  have hIdentities :
      identities (history ++ [ContextEvent.exchange k found.currentAttempt (found.exchangeIndex + 1)]) =
        identities history ++ [(found.currentAttempt, found.exchangeIndex + 1)] := identities_append _ _
  refine ⟨?_, ?_, ?_, ?_, ?_, ?_⟩
  · intro i context hContext
    rcases getElem?_set_cases hContext with ⟨_, rfl⟩ | ⟨_, hOld⟩
    · exact h.current k found hFound
    · exact h.current i context hOld
  · intro i j a b hA hB hPositive hSame
    rcases getElem?_set_cases hA with ⟨rfl, rfl⟩ | ⟨hI, hOldA⟩ <;>
      rcases getElem?_set_cases hB with ⟨rfl, rfl⟩ | ⟨hJ, hOldB⟩
    · rfl
    · exact h.owner _ _ found b hFound hOldB hStarted hSame
    · exact h.owner _ _ a found hOldA hFound hPositive hSame
    · exact h.owner i j a b hOldA hOldB hPositive hSame
  · intro context first hMem
    rcases List.mem_append.mp hMem with hMem | hMem
    · exact begun_set hFound hStarted (h.begun context first hMem)
    · exact absurd (List.mem_singleton.mp hMem) ContextEvent.noConfusion
  · intro pair hPair
    rw [hIdentities] at hPair
    rcases List.mem_append.mp hPair with hPair | hPair
    · exact h.issued pair hPair
    · rw [List.mem_singleton.mp hPair]
      exact h.current k found hFound
  · intro i context hContext hPositive pair hPair hAttempt
    rw [hIdentities] at hPair
    rcases getElem?_set_cases hContext with ⟨_, rfl⟩ | ⟨hOther, hOld⟩ <;>
      rcases List.mem_append.mp hPair with hPair | hPair
    · exact Nat.le_succ_of_le (h.counted k found hFound hStarted pair hPair hAttempt)
    · rw [List.mem_singleton.mp hPair]
    · exact h.counted i context hOld hPositive pair hPair hAttempt
    · rw [List.mem_singleton.mp hPair] at hAttempt
      exact absurd (h.owner k i found context hFound hOld hStarted hAttempt).symm hOther
  · rw [hIdentities, List.nodup_append]
    refine ⟨h.distinct, List.nodup_singleton _, ?_⟩
    intro pair hPair other hOther hSame
    rw [List.mem_singleton.mp hOther] at hSame
    rw [hSame] at hPair
    exact absurd (h.counted k found hFound hStarted _ hPair rfl) (Nat.not_succ_le_self _)

/-- Every action whose counter does not come round keeps the numbers in order. -/
theorem Numbered.step {action : ContextAction} (h : Numbered tree history) (hFits : tree.Fits action)
    (hStarted : Started (history ++ (tree.step action).2)) :
    Numbered (tree.step action).1 (history ++ (tree.step action).2) := by
  cases action with
  | child parent =>
    simp only [ContextTree.step]
    split
    · rwa [List.append_nil]
    · rw [List.append_nil]
      exact h.child
  | startAttempt context =>
    have hWrap : wrap32 (tree.attemptAllocator + 1) = tree.attemptAllocator + 1 := Nat.mod_eq_of_lt hFits
    simp only [ContextTree.step]
    split
    · rwa [List.append_nil]
    · rename_i found hFound
      rw [hWrap]
      exact h.attempt hFound
  | nextExchange context =>
    simp only [ContextTree.step] at hStarted ⊢
    split at hStarted
    · rename_i hNone
      rwa [List.append_nil]
    · rename_i found hFound
      have hWrap : wrap32 (found.exchangeIndex + 1) = found.exchangeIndex + 1 :=
        Nat.mod_eq_of_lt (hFits found hFound)
      obtain ⟨first, hMem⟩ := hStarted history context _ _ [] rfl
      obtain ⟨other, hOther, hPositive⟩ := h.begun context first hMem
      rw [hFound] at hOther
      obtain rfl := Option.some.inj hOther
      have hAttempt : max found.currentAttempt 1 = found.currentAttempt := Nat.max_eq_left hPositive
      rw [hWrap, hAttempt]
      exact h.exchange hFound hPositive

/-! ## The entries of the exchanges -/

theorem filter_updateFirst_same {p : HttpExchange → Bool} {f : HttpExchange → HttpExchange}
    (hKeeps : ∀ e, p e = true → p (f e) = true) (exchanges : List HttpExchange) :
    (updateFirst p f exchanges).filter p = updateFirst p f (exchanges.filter p) := by
  induction exchanges with
  | nil => rfl
  | cons e rest ih =>
    by_cases hMatch : p e = true
    · rw [updateFirst, if_pos hMatch, List.filter_cons_of_pos (hKeeps e hMatch),
        List.filter_cons_of_pos hMatch, updateFirst, if_pos hMatch]
    · rw [updateFirst, if_neg hMatch, List.filter_cons_of_neg hMatch, List.filter_cons_of_neg hMatch, ih]

theorem filter_updateFirst_other {p q : HttpExchange → Bool} {f : HttpExchange → HttpExchange}
    (hApart : ∀ e, q e = true → p e = false ∧ p (f e) = false) (exchanges : List HttpExchange) :
    (updateFirst q f exchanges).filter p = exchanges.filter p := by
  induction exchanges with
  | nil => rfl
  | cons e rest ih =>
    by_cases hMatch : q e = true
    · obtain ⟨hBefore, hAfter⟩ := hApart e hMatch
      rw [updateFirst, if_pos hMatch, List.filter_cons_of_neg (by simp [hAfter]),
        List.filter_cons_of_neg (by simp [hBefore])]
    · rw [updateFirst, if_neg hMatch, List.filter_cons, List.filter_cons, ih]

theorem sameExchange_iff {attempt exchangeIndex : Nat} {e : HttpExchange} :
    sameExchange attempt exchangeIndex e = true ↔ (e.attempt, e.exchangeIndex) = (attempt, exchangeIndex) := by
  rw [sameExchange, Bool.and_eq_true, decide_eq_true_iff, decide_eq_true_iff, Prod.mk.injEq]

/-- What a recorder hears of the exchanges of a call: that one began, and how it ended. -/
inductive EntryEvent (n : Nat) where
  | insert (i : Fin n) (exchange : HttpExchange)
  | update (i : Fin n) (response : ResponseRecord) (error : Option String)

namespace EntryEvent

variable {n : Nat} {Message : Type}

def exchange : EntryEvent n → Fin n
  | .insert i _ => i
  | .update i _ _ => i

/-- An exchange and its updates carry the identity that was handed out to it. -/
def apply (identity : Fin n → Nat × Nat) (rec : Recording Message) : EntryEvent n → Recording Message
  | .insert i exchange =>
    (insertExchange rec { exchange with attempt := (identity i).1, exchangeIndex := (identity i).2 }).1
  | .update i response error =>
    (applyExchangeUpdate rec (identity i).1 (identity i).2 response error).1

/-- The entries of one exchange. -/
def entries (identity : Fin n → Nat × Nat) (i : Fin n) (rec : Recording Message) : List HttpExchange :=
  rec.exchanges.filter (sameExchange (identity i).1 (identity i).2)

/-- The events of an exchange see and change its own entries only. -/
theorem entries_apply_same (identity : Fin n → Nat × Nat) (rec own : Recording Message) (event : EntryEvent n)
    (h : entries identity event.exchange rec = own.exchanges) :
    entries identity event.exchange (event.apply identity rec) = (event.apply identity own).exchanges := by
  cases event with
  | insert i exchange =>
    simp only [EntryEvent.exchange, entries] at h
    have hAny : own.exchanges.any (sameExchange (identity i).1 (identity i).2) =
        rec.exchanges.any (sameExchange (identity i).1 (identity i).2) := by
      rw [← h, List.any_filter]
      congr 1
      funext e
      exact Bool.and_self _
    simp only [EntryEvent.exchange, entries, apply, insertExchange, hAny]
    split
    · refine (filter_updateFirst_same ?_ rec.exchanges).trans (congrArg _ h)
      exact fun e hMatch => hMatch
    · refine (List.filter_append _ _).trans ?_
      rw [h, List.filter_cons_of_pos, List.filter_nil]
      exact sameExchange_iff.mpr rfl
  | update i response error =>
    simp only [EntryEvent.exchange, entries] at h
    have hCount : own.exchanges.countP (sameExchange (identity i).1 (identity i).2) =
        rec.exchanges.countP (sameExchange (identity i).1 (identity i).2) := by
      rw [← h, List.countP_filter]
      congr 1
      funext e
      exact Bool.and_self _
    simp only [EntryEvent.exchange, entries, apply, applyExchangeUpdate, hCount]
    split
    · exact h
    · refine (filter_updateFirst_same ?_ rec.exchanges).trans (congrArg _ h)
      exact fun e hMatch => hMatch
    · exact h

/-- The events of other exchanges leave the entries of an exchange alone. -/
theorem entries_apply_other {identity : Fin n → Nat × Nat} (hDistinct : Function.Injective identity)
    (rec : Recording Message) (event : EntryEvent n) {i : Fin n} (hOther : event.exchange ≠ i) :
    entries identity i (event.apply identity rec) = entries identity i rec := by
  have hApart : ∀ e, sameExchange (identity event.exchange).1 (identity event.exchange).2 e = true →
      sameExchange (identity i).1 (identity i).2 e = false := by
    intro e hMatch
    refine Bool.eq_false_iff.mpr fun hBoth => ?_
    have hSame := (sameExchange_iff.mp hMatch).symm.trans (sameExchange_iff.mp hBoth)
    exact hOther (hDistinct hSame)
  cases event with
  | insert j exchange =>
    simp only [entries, apply, insertExchange]
    split
    · refine filter_updateFirst_other ?_ rec.exchanges
      exact fun e hMatch => ⟨hApart e hMatch, hApart _ hMatch⟩
    · rw [List.filter_append, List.filter_cons_of_neg, List.filter_nil, List.append_nil]
      rw [hApart _ (sameExchange_iff.mpr rfl)]
      exact Bool.false_ne_true
  | update j response error =>
    simp only [entries, apply, applyExchangeUpdate]
    split
    · rfl
    · refine filter_updateFirst_other ?_ rec.exchanges
      exact fun e hMatch => ⟨hApart e hMatch, hApart _ hMatch⟩
    · rfl

/-- With distinct identities the entries of an exchange are what its own events alone make of it. -/
theorem entries_run {identity : Fin n → Nat × Nat} (hDistinct : Function.Injective identity)
    (events : List (EntryEvent n)) (i : Fin n) (rec own : Recording Message)
    (h : entries identity i rec = own.exchanges) :
    entries identity i (events.foldl (apply identity) rec) =
      ((events.filter (·.exchange = i)).foldl (apply identity) own).exchanges := by
  induction events generalizing rec own with
  | nil => exact h
  | cons event events ih =>
    by_cases hOwn : event.exchange = i
    · rw [List.filter_cons_of_pos (by simpa using hOwn)]
      subst hOwn
      exact ih _ _ (entries_apply_same identity rec own event h)
    · rw [List.filter_cons_of_neg (by simpa using hOwn)]
      exact ih _ _ ((entries_apply_other hDistinct rec event hOwn).trans h)

end EntryEvent

/-! ## Every interleaving -/

/-- As long as no counter comes round, whatever the tree of contexts and the interleaving, the identities
of a call are distinct, and the entry of an exchange is made by its own insertions and updates only. -/
theorem identities_distinct (actions : List ContextAction)
    (hFits : Transducer.Along ContextTree.step ContextTree.Fits {} actions)
    (hStarted : Started (Transducer.run ContextTree.step {} actions).2) :
    let handed := identities (Transducer.run ContextTree.step {} actions).2
    handed.Nodup ∧
      ∀ (Message : Type) (rec : Recording Message) (events : List (EntryEvent handed.length))
        (i : Fin handed.length), rec.exchanges = [] →
        (events.foldl (EntryEvent.apply handed.get) rec).exchanges.filter
            (sameExchange (handed.get i).1 (handed.get i).2) =
          ((events.filter (·.exchange = i)).foldl (EntryEvent.apply handed.get) rec).exchanges := by
  have hNumbered := Transducer.run_invariant_along ContextTree.Fits
    (fun tree history => Started history → Numbered tree history)
    (fun tree history action hFit hBefore hAfter => (hBefore hAfter.before).step hFit hAfter)
    (fun _ => Numbered.start) actions hFits hStarted
  refine ⟨hNumbered.distinct, ?_⟩
  intro Message rec events i hNone
  refine EntryEvent.entries_run (List.nodup_iff_injective_get.mp hNumbered.distinct) events i rec rec ?_
  rw [EntryEvent.entries, hNone, List.filter_nil]

theorem identities_distinct_siblings :
    let actions := [ContextAction.startAttempt 0, .child 0, .startAttempt 1, .nextExchange 0, .nextExchange 1,
      .startAttempt 0, .nextExchange 1, .nextExchange 0]
    Transducer.Along ContextTree.step ContextTree.Fits {} actions ∧
      identities (Transducer.run ContextTree.step {} actions).2 = [(1, 1), (2, 1), (2, 2), (3, 1)] ∧
      (identities (Transducer.run ContextTree.step {} actions).2).Nodup := by
  intro actions
  have hFits : Transducer.Along ContextTree.step ContextTree.Fits {} actions := by
    simp [actions, Transducer.Along, ContextTree.step, ContextTree.Fits, wrap32]
  have hStarted : Started (Transducer.run ContextTree.step {} actions).2 := by
    intro before context attempt exchangeIndex after hSplit
    change [ContextEvent.attempt 0 1, .attempt 1 2, .exchange 0 1 1, .exchange 1 2 1, .attempt 0 3,
      .exchange 1 2 2, .exchange 0 3 1] = _ at hSplit
    rcases before with _ | ⟨first, _ | ⟨second, before⟩⟩
    · cases hSplit
    · cases hSplit
    · simp only [List.cons_append, List.cons.injEq] at hSplit
      obtain ⟨rfl, rfl, hRest⟩ := hSplit
      have hMem : ContextEvent.exchange context attempt exchangeIndex ∈ before ++
          .exchange context attempt exchangeIndex :: after := by simp
      rw [← hRest] at hMem
      have hContext : context = 0 ∨ context = 1 := by
        simp at hMem
        omega
      rcases hContext with rfl | rfl
      · exact ⟨1, by simp⟩
      · exact ⟨2, by simp⟩
  exact ⟨hFits, by decide, (identities_distinct actions hFits hStarted).1⟩

/-! ## The counter of the attempts comes round -/

/-- A context that starts attempt after attempt. -/
theorem run_attempts (n attempt : Nat) (hAttempt : attempt < 2 ^ 32) :
    ∃ history, Transducer.run ContextTree.step
          { attemptAllocator := attempt, contexts := [{ currentAttempt := attempt }] }
          (List.replicate n (.startAttempt 0)) =
        ({ attemptAllocator := wrap32 (attempt + n), contexts := [{ currentAttempt := wrap32 (attempt + n) }] },
          history) ∧
      ∀ event ∈ history, ∃ number, event = .attempt 0 number := by
  induction n generalizing attempt with
  | zero =>
    refine ⟨[], ?_, fun _ hMem => absurd hMem List.not_mem_nil⟩
    rw [Nat.add_zero, wrap32, Nat.mod_eq_of_lt hAttempt]
    rfl
  | succ n ih =>
    obtain ⟨history, hRun, hAttempts⟩ := ih (wrap32 (attempt + 1)) (Nat.mod_lt _ (by decide))
    refine ⟨.attempt 0 (wrap32 (attempt + 1)) :: history, ?_, ?_⟩
    · have hSum : wrap32 (wrap32 (attempt + 1) + n) = wrap32 (attempt + (n + 1)) := by
        rw [wrap32, wrap32, wrap32, Nat.mod_add_mod, Nat.add_assoc, Nat.add_comm 1 n]
      rw [hSum] at hRun
      rw [List.replicate_succ, Transducer.run_cons]
      simp only [ContextTree.step, List.getElem?_cons_zero, List.set_cons_zero, hRun, List.singleton_append]
    · intro event hMem
      rcases List.mem_cons.mp hMem with rfl | hMem
      · exact ⟨_, rfl⟩
      · exact hAttempts event hMem

/-- An exchange under the first attempt, and another one under attempt 2^32. -/
def comeRound : List ContextAction :=
  [ContextAction.startAttempt 0, .nextExchange 0, .startAttempt 0] ++
    (List.replicate (2 ^ 32 - 2) (ContextAction.startAttempt 0) ++ [ContextAction.nextExchange 0])

theorem run_comeRound :
    ∃ history, (Transducer.run ContextTree.step {} comeRound).2 =
        [ContextEvent.attempt 0 1, .exchange 0 1 1, .attempt 0 2] ++ (history ++ [ContextEvent.exchange 0 1 1]) ∧
      ∀ event ∈ history, ∃ number, event = ContextEvent.attempt 0 number := by
  obtain ⟨history, hRun, hAttempts⟩ := run_attempts (2 ^ 32 - 2) 2 (by decide)
  have hRound : wrap32 (2 + (2 ^ 32 - 2)) = 0 := by decide
  have hFirst : Transducer.run ContextTree.step {} [.startAttempt 0, .nextExchange 0, .startAttempt 0] =
      ({ attemptAllocator := 2, contexts := [{ currentAttempt := 2 }] },
        [.attempt 0 1, .exchange 0 1 1, .attempt 0 2]) := rfl
  rw [hRound] at hRun
  refine ⟨history, ?_, hAttempts⟩
  rw [comeRound, Transducer.run_append, Transducer.run_append, hFirst, hRun]
  rfl

/-- After 2^32 attempts the identity of the first exchange is handed out again. -/
theorem attempts_come_round :
    Started (Transducer.run ContextTree.step {} comeRound).2 ∧
      ¬ (identities (Transducer.run ContextTree.step {} comeRound).2).Nodup := by
  obtain ⟨history, hRun, hAttempts⟩ := run_comeRound
  rw [hRun]
  constructor
  · intro before context attempt exchangeIndex after hSplit
    have hContext : context = 0 := by
      have hMem : ContextEvent.exchange context attempt exchangeIndex ∈
          [ContextEvent.attempt 0 1, .exchange 0 1 1, .attempt 0 2] ++ (history ++ [ContextEvent.exchange 0 1 1]) := by
        rw [hSplit]
        simp
      rcases List.mem_append.mp hMem with hMem | hMem
      · simp at hMem
        exact hMem.1
      · rcases List.mem_append.mp hMem with hMem | hMem
        · obtain ⟨number, hEq⟩ := hAttempts _ hMem
          cases hEq
        · exact (ContextEvent.exchange.inj (List.mem_singleton.mp hMem)).1
    rcases before with _ | ⟨first, before⟩
    · cases hSplit
    · obtain ⟨rfl, _⟩ := List.cons.inj hSplit
      exact ⟨1, by simp [hContext]⟩
  · intro hNodup
    rw [identities_append, identities_append] at hNodup
    have hTwice := List.disjoint_of_nodup_append hNodup
    exact hTwice (a := (1, 1)) (by decide) (List.mem_append_right _ (by decide))

end Aimux.Recorder
