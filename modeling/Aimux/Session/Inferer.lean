import Aimux.Session.StoreRun

/-! # Inferred sessions

`SessionInferer` of `session.rs`: a call without a session id belongs to the session of the most recent call
whose prompt it continues, among the calls that are remembered.
-/

namespace Aimux.Session

open Aimux.Lib

/-- What `resolve` gets, and what `new_call_id` would answer. -/
structure Call (Message : Type) where
  explicit : Option String := none
  prompt : List Message
  newCallId : String

structure SessionInferer (Message : Type) where
  enabled : Bool
  /-- The most recent call first. -/
  recent : List (List Message × String) := []
  capacity : Nat
  capacity_pos : 0 < capacity

namespace SessionInferer

variable {Message : Type}

def remember (self : SessionInferer Message) (prompt : List Message) (sessionId : String) : SessionInferer Message :=
  let recent := if self.recent.length ≥ self.capacity then self.recent.dropLast else self.recent
  { self with recent := (prompt, sessionId) :: recent }

section

variable [BEq Message]

/-- The old prompt is a prefix of the new one, or the same. -/
def continues (prompt old : List Message) : Bool :=
  decide (prompt.length ≥ old.length) && prompt.take old.length == old

def findByStrongPrefix (self : SessionInferer Message) (prompt : List Message) : Option String :=
  (self.recent.find? fun call => continues prompt call.1).map (·.2)

def resolve (self : SessionInferer Message) (call : Call Message) :
    Option (String × SessionSource) × SessionInferer Message :=
  match call.explicit with
  | some id => (some (id, .explicit), self.remember call.prompt id)
  | none =>
    if self.enabled then
      let id := (self.findByStrongPrefix call.prompt).getD ("auto-" ++ call.newCallId)
      (some (id, .inferred), self.remember call.prompt id)
    else (none, self)

def step : Transducer (SessionInferer Message) (Call Message) (Option (String × SessionSource))
  | self, call => ((self.resolve call).2, [(self.resolve call).1])

end

/-! ## Conversations -/

variable {Conversation : Type} [DecidableEq Conversation] {conversation : Call Message → Conversation} {capacity : Nat}

/-- The session that the first call of a conversation opens. -/
def opened (conversation : Call Message → Conversation) (calls : List (Call Message)) (c : Conversation) : Option String :=
  (calls.reverse.find? fun call => conversation call = c).map fun call => "auto-" ++ call.newCallId

def remembered (conversation : Call Message → Conversation) (capacity : Nat) (calls : List (Call Message)) :
    List (List Message × String) :=
  (calls.map fun call => (call.prompt, (opened conversation calls (conversation call)).getD "")).take capacity

variable {call old : Call Message} {before : List (Call Message)}

theorem opened_isSome (conversation : Call Message → Conversation) (hOld : old ∈ before) :
    (opened conversation before (conversation old)).isSome = true := by
  rw [opened, Option.isSome_map, List.find?_isSome]
  exact ⟨old, List.mem_reverse.mpr hOld, decide_eq_true rfl⟩

theorem opened_old (hOld : old ∈ before) :
    opened conversation (call :: before) (conversation old) = opened conversation before (conversation old) := by
  have hSome := opened_isSome conversation hOld
  rw [opened, Option.isSome_map] at hSome
  rw [opened, List.reverse_cons, List.find?_append, Option.or_of_isSome hSome, opened]

theorem opened_cons (call : Call Message) (before : List (Call Message)) :
    opened conversation (call :: before) (conversation call) =
      some ((opened conversation before (conversation call)).getD ("auto-" ++ call.newCallId)) := by
  rw [opened, List.reverse_cons, List.find?_append, opened]
  cases before.reverse.find? _ <;> simp

theorem remembered_cons (capacity_pos : 0 < capacity) (call : Call Message) (before : List (Call Message)) :
    remembered conversation capacity (call :: before) =
      (call.prompt, (opened conversation before (conversation call)).getD ("auto-" ++ call.newCallId)) ::
        if (remembered conversation capacity before).length ≥ capacity then
          (remembered conversation capacity before).dropLast
        else remembered conversation capacity before := by
  rw [remembered, List.map_cons, opened_cons, Option.getD_some, List.take_cons capacity_pos,
    List.map_congr_left fun old hMem => by rw [opened_old hMem], remembered, List.length_take]
  congr 1
  split
  · rw [List.dropLast_eq_take, List.take_take, List.length_take]
    congr 1
    omega
  · rw [List.take_of_length_le (by omega), List.take_of_length_le (by omega)]

theorem opened_inj {calls : List (Call Message)} (hIds : (calls.map (·.newCallId)).Nodup) {c other : Conversation}
    {id : String} (hOpened : opened conversation calls c = some id) (hOther : opened conversation calls other = some id) :
    other = c := by
  obtain ⟨first, hFirst, rfl⟩ := Option.map_eq_some_iff.mp hOpened
  obtain ⟨second, hSecond, hId⟩ := Option.map_eq_some_iff.mp hOther
  have hSame := List.inj_on_of_nodup_map hIds (List.mem_reverse.mp (List.mem_of_find?_eq_some hSecond))
    (List.mem_reverse.mp (List.mem_of_find?_eq_some hFirst)) ((String.append_right_inj _).mp hId)
  have hOwn := List.find?_some hFirst
  have hOwnSecond := List.find?_some hSecond
  rw [hSame] at hOwnSecond
  exact (of_decide_eq_true hOwnSecond).symm.trans (of_decide_eq_true hOwn)

/-- A call and what is recorded of it. -/
abbrev Request (Message : Type) := Call Message × Option String × Environment

/-- The calls of a kind, by the ids under which they are recorded. -/
def recorded (calls : List (Request Message)) (own : Call Message → Bool) : List String :=
  (calls.reverse.filter (own ·.1)).map fun call => call.2.1.getD call.2.2.newCallId

theorem recorded_cons (call : Request Message) (before : List (Request Message)) (id : String) :
    (recorded (call :: before) fun old => opened conversation (call.1 :: before.map (·.1)) (conversation old) = some id) =
      (recorded before fun old => opened conversation (before.map (·.1)) (conversation old) = some id) ++
        if (opened conversation (before.map (·.1)) (conversation call.1)).getD ("auto-" ++ call.1.newCallId) = id then
          [call.2.1.getD call.2.2.newCallId] else [] := by
  rw [recorded, List.reverse_cons, List.filter_append, List.map_append, recorded]
  congr 2
  · refine List.filter_congr fun old hOld => ?_
    rw [opened_old (List.mem_map_of_mem (List.mem_reverse.mp hOld))]
  · simp only [List.filter_singleton, opened_cons, Option.some.injEq]
    split <;> simp_all

variable [BEq Message]

/-- The call continues the calls of its own conversation and no others, and one of these is remembered if there are
any. -/
structure Follows (conversation : Call Message → Conversation) (capacity : Nat) (call : Call Message)
    (before : List (Call Message)) : Prop where
  apart : ∀ old ∈ before, continues call.prompt old.prompt = true ↔ conversation old = conversation call
  recent : ∀ old ∈ before, conversation old = conversation call →
    ∃ recent ∈ before.take capacity, conversation recent = conversation call

/-- Calls of several conversations without an id, the last one first. -/
inductive Interleaved (conversation : Call Message → Conversation) (capacity : Nat) : List (Call Message) → Prop
  | nil : Interleaved conversation capacity []
  | call {call : Call Message} {before : List (Call Message)} (hImplicit : call.explicit = none)
      (hFollows : Follows conversation capacity call before) (hBefore : Interleaved conversation capacity before) :
      Interleaved conversation capacity (call :: before)

/-- The session that is found is the one of the call's conversation. -/
theorem find_opened (h : Follows conversation capacity call before) :
    ((remembered conversation capacity before).find? fun old => continues call.prompt old.1).map (·.2) =
      opened conversation before (conversation call) := by
  rw [remembered, ← List.map_take, List.find?_map, Option.map_map]
  cases hFound : (before.take capacity).find? _ with
  | none =>
    symm
    rw [Option.map_none, opened, Option.map_eq_none_iff, List.find?_eq_none]
    intro old hOld hSame
    obtain ⟨recent, hMem, hOwn⟩ := h.recent old (List.mem_reverse.mp hOld) (of_decide_eq_true hSame)
    have hNot := List.find?_eq_none.mp hFound recent hMem
    exact hNot ((h.apart recent (List.mem_of_mem_take hMem)).mpr hOwn)
  | some found =>
    have hMem := List.mem_of_mem_take (List.mem_of_find?_eq_some hFound)
    have hPrefix := List.find?_some hFound
    have hOwn := (h.apart found hMem).mp hPrefix
    have hOpened := opened_isSome conversation hMem
    rw [hOwn] at hOpened
    obtain ⟨session, hSession⟩ := Option.isSome_iff_exists.mp hOpened
    simp [hOwn, hSession]

theorem resolve_opened (capacity_pos : 0 < capacity) (hImplicit : call.explicit = none)
    (hFollows : Follows conversation capacity call before) :
    resolve { enabled := true, recent := remembered conversation capacity before, capacity, capacity_pos } call =
      (some ((opened conversation before (conversation call)).getD ("auto-" ++ call.newCallId), .inferred),
        { enabled := true, recent := remembered conversation capacity (call :: before), capacity, capacity_pos }) := by
  rw [remembered_cons capacity_pos]
  simp only [resolve, hImplicit, findByStrongPrefix, find_opened hFollows, if_true, remember]

/-- Every call is put in the session that the first call of its conversation opened, whatever order the calls of
the conversations come in. -/
theorem resolve_conversations (capacity_pos : 0 < capacity) {calls : List (Call Message)}
    (hCalls : Interleaved conversation capacity calls) :
    Transducer.run step { enabled := true, capacity, capacity_pos } calls.reverse =
      ({ enabled := true, recent := remembered conversation capacity calls, capacity, capacity_pos },
        calls.reverse.map fun call => (opened conversation calls (conversation call)).map (·, .inferred)) := by
  induction hCalls with
  | nil =>
    rw [remembered, List.map_nil, List.take_nil]
    rfl
  | @call call before hImplicit hFollows _ ih =>
    have hOld : ∀ old ∈ before.reverse, (opened conversation (call :: before) (conversation old)).map (·, .inferred) =
        (opened conversation before (conversation old)).map (·, SessionSource.inferred) := fun old hMem => by
      rw [opened_old (List.mem_reverse.mp hMem)]
    rw [List.reverse_cons, Transducer.run_concat, ih, List.map_append, List.map_singleton, opened_cons,
      List.map_congr_left hOld, step, resolve_opened capacity_pos hImplicit hFollows]
    rfl

theorem resolve_conversations_two : (Transducer.run step { enabled := true, capacity := 2, capacity_pos := by decide }
      [{ prompt := [1], newCallId := "a" }, { prompt := [2], newCallId := "b" }, { prompt := [1, 3], newCallId := "c" },
        { prompt := [2, 4], newCallId := "d" }]).2 =
      ["auto-a", "auto-b", "auto-a", "auto-b"].map fun id => some (id, .inferred) := by
  have hCalls : Interleaved (fun call : Call Nat => call.prompt.head?) 2
      [⟨none, [2, 4], "d"⟩, ⟨none, [1, 3], "c"⟩, ⟨none, [2], "b"⟩, ⟨none, [1], "a"⟩] :=
    .call rfl ⟨by decide, by decide⟩ (.call rfl ⟨by decide, by decide⟩ (.call rfl ⟨by decide, by decide⟩
      (.call rfl ⟨by decide, by decide⟩ .nil)))
  exact congrArg Prod.snd (resolve_conversations (by decide) hCalls)

section Recorded

variable {maxSessions maxCalls : Nat} (capacity_pos : 0 < capacity) (sessions_pos : 0 < maxSessions)
  (calls_pos : 0 < maxCalls) {calls : List (Request Message)}

/-- Before a call is made its session is resolved, and the call is recorded there if it has one. -/
def group : Transducer (SessionInferer Message × SessionStore) (Request Message) Event
  | (inferer, store), (call, callId, env) =>
    match inferer.resolve call with
    | (some (id, source), next) =>
      let recorded := Session.step store (.append id callId source env)
      ((next, recorded.1), recorded.2)
    | (none, next) => ((next, store), [])

theorem group_run (hCalls : Interleaved conversation capacity (calls.map (·.1))) :
    let run := Transducer.run group ({ enabled := true, capacity, capacity_pos },
      SessionStore.withCapacity maxSessions maxCalls sessions_pos calls_pos) calls.reverse
    run.1.1 = { enabled := true, recent := remembered conversation capacity (calls.map (·.1)), capacity, capacity_pos } ∧
    Kept maxSessions maxCalls run.1.2 run.2 ∧
    ∀ id, Holds run.2 id (recorded calls fun call => opened conversation (calls.map (·.1)) (conversation call) = some id) := by
  induction calls with
  | nil => exact ⟨by simp [remembered], Kept.initial sessions_pos calls_pos, fun id => ⟨List.suffix_rfl, fun _ => rfl⟩⟩
  | cons call before ih =>
    cases hCalls with
    | call hImplicit hFollows hBefore =>
    obtain ⟨hInferer, hKept, hHolds⟩ := ih hBefore
    rw [List.reverse_cons, Transducer.run_concat]
    generalize Transducer.run group _ before.reverse = run at hInferer hKept hHolds ⊢
    obtain ⟨⟨inferer, store⟩, history⟩ := run
    obtain ⟨recorded, next, hAppend, hNext⟩ := hKept.append
      ((opened conversation (before.map (·.1)) (conversation call.1)).getD ("auto-" ++ call.1.newCallId)) call.2.1
      .inferred call.2.2
    obtain rfl : inferer = _ := hInferer
    simp only [group, resolve_opened capacity_pos hImplicit hFollows, Session.step, hAppend]
    refine ⟨rfl, hNext, fun id => ?_⟩
    rw [List.map_cons, recorded_cons, ← append_callId hAppend]
    exact (hHolds id).append (gone store next) recorded

/-- Calls of different conversations are never listed in one session: it lists calls of the conversation that
opened it, the last of them for which it has room unless it was evicted. -/
theorem group_conversations (hCalls : Interleaved conversation capacity (calls.map (·.1)))
    (hIds : ((calls.map (·.1)).map (·.newCallId)).Nodup) {c : Conversation} {id : String} (hOpened : opened conversation (calls.map (·.1)) c = some id) :
    let run := Transducer.run group ({ enabled := true, capacity, capacity_pos },
      SessionStore.withCapacity maxSessions maxCalls sessions_pos calls_pos) calls.reverse
    let own := recorded calls fun call => conversation call = c
    let listed := (run.1.2.sessionCalls id).1.map (·.callId)
    listed <:+ own ∧ (.evicted id ∉ run.2 → listed = own.drop (own.length - maxCalls)) := by
  intro run own listed
  obtain ⟨_, hKept, hHolds⟩ := group_run capacity_pos sessions_pos calls_pos hCalls
  have hOwn : (recorded calls fun call => opened conversation (calls.map (·.1)) (conversation call) = some id) = own := by
    refine congrArg (List.map _) (List.filter_congr fun call _ => decide_eq_decide.mpr ⟨fun h => ?_, fun h => h ▸ hOpened⟩)
    exact opened_inj hIds hOpened h
  have hSession : Holds run.2 id own := hOwn ▸ hHolds id
  have hListed : listed =
      ((handed run.2 id).map (·.callId)).drop (((handed run.2 id).map (·.callId)).length - maxCalls) := by
    rw [List.length_map, ← List.map_drop, ← hKept.listed id]
  rw [hListed]
  exact ⟨(List.drop_suffix _ _).trans hSession.last, fun hNever => by rw [hSession.whole hNever]⟩

theorem group_conversations_two :
    let run := Transducer.run group ({ enabled := true, capacity := 2, capacity_pos := by decide },
      SessionStore.withCapacity 2 1 (by decide) (by decide))
      [({ prompt := [1], newCallId := "a" }, some "1", ⟨"", ""⟩), ({ prompt := [2], newCallId := "b" }, some "2", ⟨"", ""⟩),
        ({ prompt := [1, 3], newCallId := "c" }, some "3", ⟨"", ""⟩)]
    (run.1.2.sessionCalls "auto-a").1.map (·.callId) = ["3"] := by
  have hCalls : Interleaved (fun call : Call Nat => call.prompt.head?) 2
      [⟨none, [1, 3], "c"⟩, ⟨none, [2], "b"⟩, ⟨none, [1], "a"⟩] :=
    .call rfl ⟨by decide, by decide⟩ (.call rfl ⟨by decide, by decide⟩ (.call rfl ⟨by decide, by decide⟩ .nil))
  have hGroup := @group_conversations Nat _ _ _ 2 _ 2 1 (by decide) (by decide) (by decide)
    [(⟨none, [1, 3], "c"⟩, some "3", ⟨"", ""⟩), (⟨none, [2], "b"⟩, some "2", ⟨"", ""⟩), (⟨none, [1], "a"⟩, some "1", ⟨"", ""⟩)]
    hCalls (by decide) (some 1) "auto-a" rfl
  exact hGroup.2 nofun

end Recorded

end SessionInferer

end Aimux.Session
