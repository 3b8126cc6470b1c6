import Aimux.OpenAi.Framing

/-! # Tool calls in a chunk stream

Every tool call has the index of its first appearance, and the fragments sent at the index make up the
text sent for the call: the deltas as they came, then what the call adds to them.
-/

namespace Aimux.OpenAi

open Aimux.Core

/-- The call a part tells something of. -/
def toolId : TextStreamPart → Option String
  | .toolInputStart id _ _ _ _ _ => some id
  | .toolInputDelta id _ _ => some id
  | .toolCall call => some call.toolCallId
  | _ => none

/-- The ids of the calls, in the order of their first appearance. -/
def toolIds (parts : List TextStreamPart) : List String := (parts.filterMap toolId).eraseDups

def openedId : TextStreamPart → Option String
  | .toolInputStart id _ _ _ _ _ => some id
  | .toolCall call => some call.toolCallId
  | _ => none

/-- The fragments of a chunk, each with its index. -/
def fragments (chunk : ChatCompletionChunk) : List (Nat × String) :=
  chunk.choices.flatMap fun choice =>
    (choice.delta.toolCalls.getD []).map fun call => (call.index, call.function.arguments.getD "")

def argumentsAt (index : Nat) (chunks : List ChatCompletionChunk) : String :=
  String.join (((chunks.flatMap fragments).filter (·.1 = index)).map (·.2))

/-- What was sent, or the whole text that it begins. -/
def completed (sent full : String) : String := if sent.toList <+: full.toList then full else sent

def tell (libraries : Libraries) (id text : String) : TextStreamPart → String
  | .toolInputDelta other delta _ => if other = id then text ++ delta else text
  | .toolCall call =>
    if call.toolCallId = id then completed text (parsedToolCallArguments libraries call) else text
  | _ => text

/-- The text that is sent for a call. -/
def sentText (libraries : Libraries) (id : String) (parts : List TextStreamPart) : String :=
  parts.foldl (tell libraries id) ""

/-! ## First appearances -/

section Ids

variable {parts later : List TextStreamPart} {part : TextStreamPart} {id : String}

theorem mem_toolIds : id ∈ toolIds parts ↔ id ∈ parts.filterMap toolId := List.mem_eraseDups

theorem toolIds_isPrefix_append (parts later : List TextStreamPart) : toolIds parts <+: toolIds (parts ++ later) := by
  unfold toolIds
  rw [List.filterMap_append, List.eraseDups_append]
  exact List.prefix_append _ _

theorem toolIds_other (hPart : toolId part = none) : toolIds (parts ++ [part]) = toolIds parts := by
  simp [toolIds, hPart]

theorem toolIds_concat (hPart : toolId part = some id) :
    toolIds (parts ++ [part]) = toolIds parts ++ if id ∈ toolIds parts then [] else [id] := by
  unfold toolIds
  rw [List.filterMap_append, List.eraseDups_append, List.filterMap_cons_some hPart, List.filterMap_nil]
  by_cases hSeen : id ∈ parts.filterMap toolId
  · rw [if_pos (List.mem_eraseDups.mpr hSeen), List.removeAll, List.filter_cons_of_neg]
    · rfl
    · simpa using hSeen
  · rw [if_neg (mt List.mem_eraseDups.mp hSeen), List.removeAll, List.filter_cons_of_pos]
    · rfl
    · simpa using hSeen

theorem toolIds_known (hPart : toolId part = some id) (hKnown : id ∈ toolIds parts) :
    toolIds (parts ++ [part]) = toolIds parts := by
  rw [toolIds_concat hPart, if_pos hKnown, List.append_nil]

theorem toolIds_new (hPart : toolId part = some id) (hNew : id ∉ toolIds parts) :
    toolIds (parts ++ [part]) = toolIds parts ++ [id] := by
  rw [toolIds_concat hPart, if_neg hNew]

theorem tell_other (libraries : Libraries) (text : String) (hPart : toolId part ≠ some id) :
    tell libraries id text part = text := by
  cases part with
  | toolInputDelta other delta metadata => exact if_neg fun hSame => hPart (congrArg some hSame)
  | toolCall call => exact if_neg fun hSame => hPart (congrArg some hSame)
  | _ => rfl

theorem sentText_concat (libraries : Libraries) (id : String) (parts : List TextStreamPart) (part : TextStreamPart) :
    sentText libraries id (parts ++ [part]) = tell libraries id (sentText libraries id parts) part := by
  simp [sentText]

theorem sentText_unseen (libraries : Libraries) (hUnseen : id ∉ parts.filterMap toolId) :
    sentText libraries id parts = "" := by
  induction parts using List.reverseRecOn with
  | nil => rfl
  | append_singleton parts part ih =>
    rw [List.filterMap_append, List.mem_append, not_or] at hUnseen
    rw [sentText_concat, ih hUnseen.1]
    refine tell_other libraries "" fun hPart => hUnseen.2 ?_
    simp [hPart]

end Ids

theorem argumentsAt_append (index : Nat) (chunks later : List ChatCompletionChunk) :
    argumentsAt index (chunks ++ later) = argumentsAt index chunks ++ argumentsAt index later := by
  simp [argumentsAt, List.flatMap_append, List.filter_append, String.join_append]

variable {text : String}

theorem argumentsAt_of_fragments {chunks : List ChatCompletionChunk} {index : Nat}
    (hFragments : chunks.flatMap fragments = [(index, text)]) (other : Nat) :
    argumentsAt other chunks = if index = other then text else "" := by
  rw [argumentsAt, hFragments]
  by_cases hSame : index = other
  · simp [hSame]
  · simp [hSame]

theorem argumentsAt_silent {chunks : List ChatCompletionChunk} (hSilent : chunks.flatMap fragments = [])
    (index : Nat) : argumentsAt index chunks = "" := by
  rw [argumentsAt, hSilent]
  rfl

theorem append_missingArguments (sent full : String) : sent ++ missingArguments full sent = completed sent full := by
  unfold missingArguments completed
  by_cases hPrefix : sent.toList <+: full.toList
  · rw [if_pos (List.isPrefixOf_iff_prefix.mpr hPrefix), if_pos hPrefix]
    obtain ⟨rest, hRest⟩ := hPrefix
    rw [← hRest, List.drop_left]
    apply String.toList_injective
    rw [String.toList_append, String.toList_ofList, hRest]
  · rw [if_neg (mt List.isPrefixOf_iff_prefix.mp hPrefix), if_neg hPrefix, String.append_empty]

/-! ## The table -/

/-- What does not touch the table. -/
structure Silent (state : StreamState) (result : StreamState × List ChatCompletionChunk) : Prop where
  toolCalls : result.1.toolCalls = state.toolCalls
  nextToolIndex : result.1.nextToolIndex = state.nextToolIndex
  toolCallOpened : result.1.toolCallOpened = state.toolCallOpened
  fragments : result.2.flatMap fragments = []

/-- One entry of the table is written, and the text that it grows by is sent at its index. -/
structure Entered (state : StreamState) (id : String) (acc : ToolCallAccum) (text : String)
    (result : StreamState × List ChatCompletionChunk) : Prop where
  accum : ∀ other, result.1.accum other = if other = id then some acc else state.accum other
  nextToolIndex : result.1.nextToolIndex =
    if (state.accum id).isSome then state.nextToolIndex else (state.nextToolIndex + 1) % 2 ^ 32
  fragments : result.2.flatMap fragments = [(acc.index, text)] ∨
    (state.accum id).isSome ∧ text = "" ∧ result.2.flatMap fragments = []

variable {acc : ToolCallAccum} {sent : StreamState}

section Silent

variable {self : StreamState} {opening result : StreamState × List ChatCompletionChunk}

theorem Silent.append (h : Silent self opening) (hResult : Silent opening.1 result) :
    Silent self (result.1, opening.2 ++ result.2) where
  toolCalls := hResult.toolCalls.trans h.toolCalls
  nextToolIndex := hResult.nextToolIndex.trans h.nextToolIndex
  toolCallOpened := hResult.toolCallOpened.trans h.toolCallOpened
  fragments := by rw [List.flatMap_append, h.fragments, hResult.fragments, List.append_nil]

theorem Silent.accum (h : Silent self result) (id : String) : result.1.accum id = self.accum id := by
  unfold StreamState.accum
  rw [h.toolCalls]

theorem Silent.entered (h : Silent self opening) {id : String} {chunks : List ChatCompletionChunk}
    (hResult : Entered opening.1 id acc text (sent, chunks)) :
    Entered self id acc text (sent, opening.2 ++ chunks) where
  accum := fun other => by rw [hResult.accum, h.accum]
  nextToolIndex := by rw [hResult.nextToolIndex, h.accum, h.nextToolIndex]
  fragments := by
    rw [List.flatMap_append, h.fragments, List.nil_append, ← h.accum]
    exact hResult.fragments

end Silent

variable {call : ToolCall}

namespace StreamState

variable {self : StreamState} {reported : Option ResponseMetadata}

theorem accum_setAccum (self : StreamState) (id : String) (acc : ToolCallAccum) (other : String) :
    (self.setAccum id acc).accum other = if other = id then some acc else self.accum other := by
  have hKept (entries : List (String × ToolCallAccum)) (hOther : other ≠ id) :
      (entries.filter (·.1 ≠ id)).lookup other = entries.lookup other := by
    induction entries with
    | nil => rfl
    | cons entry entries ih =>
      by_cases hEntry : entry.1 = id
      · have hMiss : (other == entry.1) = false := by simpa [hEntry] using hOther
        rw [List.filter_cons_of_neg (by simpa using hEntry), ih, List.lookup_cons, hMiss]
      · rw [List.filter_cons_of_pos (by simpa using hEntry), List.lookup_cons, List.lookup_cons, ih]
  unfold accum setAccum
  by_cases hSame : other = id
  · rw [if_pos hSame, List.lookup_cons, hSame]
    simp
  · rw [if_neg hSame, List.lookup_cons, show (other == id) = false by simpa using hSame]
    exact hKept self.toolCalls hSame

variable {delta : ChatCompletionDelta}

theorem fragments_deltaChunk (self : StreamState) (hDelta : delta.toolCalls = none) :
    fragments (self.deltaChunk delta) = [] := by
  simp [fragments, deltaChunk, baseChunk, hDelta]

theorem fragments_toolChunk (self : StreamState) (call : ChatCompletionChunkToolCall) :
    fragments (self.toolChunk call) = [(call.index, call.function.arguments.getD "")] := rfl

theorem silent_nothing : Silent self (self, []) := ⟨rfl, rfl, rfl, rfl⟩

theorem ensureStarted_silent : Silent self (self.ensureStarted reported) := by
  unfold ensureStarted
  split
  · exact silent_nothing
  · exact ⟨rfl, rfl, rfl, rfl⟩

theorem pendingStart_silent : Silent self (self.pendingStart reported) := by
  unfold pendingStart
  split
  · exact ensureStarted_silent
  · exact silent_nothing

theorem silent_chunk (hDelta : delta.toolCalls = none) :
    Silent self (self, [self.deltaChunk delta]) := by
  refine ⟨rfl, rfl, rfl, ?_⟩
  rw [List.flatMap_cons, fragments_deltaChunk self hDelta]
  rfl

theorem say_silent (hDelta : delta.toolCalls = none) :
    Silent self (self.say reported delta) :=
  ensureStarted_silent.append (silent_chunk hDelta)

theorem errorChunk_silent (libraries : Libraries) (error : AiMuxError) :
    Silent self (self.errorChunk libraries error) := by
  unfold errorChunk
  split
  · exact silent_nothing
  · exact ⟨rfl, rfl, rfl, rfl⟩

theorem finalChunk_silent (includeUsage : Bool) : Silent self (self.finalChunk includeUsage) := by
  unfold finalChunk
  split
  · exact silent_nothing
  · exact ⟨rfl, rfl, rfl, rfl⟩

theorem processPart_silent (libraries : Libraries) (options : OpenAiStreamOptions) {part : TextStreamPart}
    (hPart : toolId part = none) : Silent self (self.processPart libraries options reported part) := by
  cases part with
  | toolInputStart => cases hPart
  | toolInputDelta => cases hPart
  | toolCall => cases hPart
  | start =>
    simp only [processPart]
    split
    · exact ⟨rfl, rfl, rfl, rfl⟩
    · exact ensureStarted_silent
  | finishStep =>
    simp only [processPart]
    split
    · exact ⟨rfl, rfl, rfl, rfl⟩
    · exact silent_nothing
  | textStart => exact ensureStarted_silent
  | textDelta => exact say_silent rfl
  | reasoningDelta =>
    simp only [processPart]
    split
    · exact say_silent rfl
    · exact silent_nothing
  | toolResult => exact say_silent rfl
  | toolError =>
    simp only [processPart]
    split
    · exact say_silent rfl
    · exact silent_nothing
  | file => exact say_silent rfl
  | source source =>
    cases source with
    | url =>
      simp only [processPart]
      split
      · exact ensureStarted_silent
      · exact say_silent rfl
    | document => exact silent_nothing
  | finish finishReason rawFinishReason totalUsage =>
    have hRecorded : Silent self ({ self with
        finalUsage := some totalUsage
        finalFinishReason := some (finishReason, rawFinishReason) }, []) := ⟨rfl, rfl, rfl, rfl⟩
    exact hRecorded.append (pendingStart_silent.append (finalChunk_silent options.includeUsage))
  | error error => exact pendingStart_silent.append (errorChunk_silent libraries error)
  | _ => exact silent_nothing

variable {id : String}

/-- An entry that is in the table and its text, which may be the old one. -/
theorem entered_known (hKnown : (self.accum id).isSome) (hNext : sent.nextToolIndex = self.nextToolIndex)
    (hAccum : ∀ other, sent.accum other = if other = id then some acc else self.accum other)
    (call : ChatCompletionChunkToolCall) (hIndex : call.index = acc.index) (hText : call.function.arguments = some text) :
    Entered self id acc text (sent, [sent.toolChunk call]) where
  accum := hAccum
  nextToolIndex := by rw [hNext, if_pos hKnown]
  fragments := .inl (by simp [fragments_toolChunk, hIndex, hText])

theorem entered_new {id arguments : String} (hNew : self.accum id = none)
    (hNext : sent.nextToolIndex = (self.nextToolIndex + 1) % 2 ^ 32) (hAccum : ∀ other, sent.accum other =
      if other = id then some { index := self.nextToolIndex, arguments } else self.accum other)
    (call : ChatCompletionChunkToolCall) (hIndex : call.index = self.nextToolIndex)
    (hArguments : call.function.arguments = some arguments) :
    Entered self id { index := self.nextToolIndex, arguments } arguments (sent, [sent.toolChunk call]) where
  accum := hAccum
  nextToolIndex := by simp [hNext, hNew]
  fragments := .inl (by simp [fragments_toolChunk, hIndex, hArguments])

theorem accum_same (hAcc : self.accum id = some acc) (other : String) :
    self.accum other = if other = id then some acc else self.accum other := by
  split
  · rename_i hSame
    rw [hSame, hAcc]
  · rfl

theorem toolInputStart_entered (id toolName : String) :
    Entered self id ((self.accum id).getD { index := self.nextToolIndex, arguments := "" }) ""
      (self.toolInputStart reported id toolName) := by
  have hOpening : Silent self (self.ensureStarted reported) := ensureStarted_silent
  unfold toolInputStart
  dsimp only
  rw [← hOpening.accum, ← hOpening.nextToolIndex]
  cases hAcc : (self.ensureStarted reported).1.accum id with
  | none =>
    refine hOpening.entered (entered_new hAcc ?_ ?_ _ ?_ ?_)
    · rfl
    · exact accum_setAccum _ _ _
    · rfl
    · rfl
  | some acc =>
    refine hOpening.entered (entered_known ?_ ?_ ?_ _ ?_ ?_)
    · rw [hAcc]
      rfl
    · rfl
    · exact accum_same hAcc
    · rfl
    · rfl

theorem toolInputDelta_known (hAcc : self.accum id = some acc) (delta : String) :
    Entered self id { acc with arguments := acc.arguments ++ delta } delta
      (self.toolInputDelta reported id delta) := by
  have hOpening : Silent self (self.ensureStarted reported) := ensureStarted_silent
  rw [← hOpening.accum] at hAcc
  unfold toolInputDelta
  dsimp only
  rw [hAcc]
  refine hOpening.entered (entered_known ?_ ?_ ?_ _ ?_ ?_)
  · rw [hAcc]
    rfl
  · rfl
  · exact accum_setAccum _ _ _
  · rfl
  · rfl

theorem toolInputDelta_new (hNew : self.accum id = none) (delta : String) :
    Entered self id { index := self.nextToolIndex, arguments := delta } delta
      (self.toolInputDelta reported id delta) := by
  have hOpening : Silent self (self.ensureStarted reported) := ensureStarted_silent
  rw [← hOpening.accum] at hNew
  unfold toolInputDelta
  dsimp only
  rw [hNew, ← hOpening.nextToolIndex]
  refine hOpening.entered (entered_new hNew ?_ ?_ _ ?_ ?_)
  · rfl
  · exact accum_setAccum _ _ _
  · rfl
  · rfl

theorem toolCall_opened {libraries : Libraries} (hOpened : call.toolCallId ∈ self.toolCallOpened)
    (hAcc : self.accum call.toolCallId = some acc) :
    let missing := missingArguments (parsedToolCallArguments libraries call) acc.arguments
    Entered self call.toolCallId { acc with arguments := acc.arguments ++ missing } missing
      (self.toolCall libraries reported call) := by
  intro missing
  unfold toolCall
  dsimp only
  rw [if_pos hOpened, hAcc]
  dsimp only
  split
  · rename_i hNothing
    refine ⟨?_, ?_, .inr ⟨by rw [hAcc]; rfl, hNothing, rfl⟩⟩
    · intro other
      rw [show missing = "" from hNothing, String.append_empty]
      exact accum_same hAcc other
    · rw [hAcc]
      rfl
  · refine entered_known ?_ ?_ ?_ _ ?_ ?_
    · rw [hAcc]
      rfl
    · rfl
    · exact accum_setAccum _ _ _
    · rfl
    · rfl

theorem toolCall_new {libraries : Libraries} (hUnopened : call.toolCallId ∉ self.toolCallOpened)
    (hNew : self.accum call.toolCallId = none) :
    Entered self call.toolCallId
      { index := self.nextToolIndex, arguments := parsedToolCallArguments libraries call }
      (parsedToolCallArguments libraries call) (self.toolCall libraries reported call) := by
  have hOpening : Silent self (self.ensureStarted reported) := ensureStarted_silent
  rw [← hOpening.accum] at hNew
  unfold toolCall
  dsimp only
  rw [if_neg hUnopened, ← hOpening.nextToolIndex]
  refine hOpening.entered (entered_new hNew ?_ ?_ _ ?_ ?_)
  · rfl
  · exact accum_setAccum _ _ _
  · rfl
  · rfl

theorem toolInputStart_opens (id toolName : String) :
    (self.toolInputStart reported id toolName).1.toolCallOpened = id :: self.toolCallOpened := by
  have hOpening : Silent self (self.ensureStarted reported) := ensureStarted_silent
  unfold toolInputStart
  dsimp only
  rw [← hOpening.toolCallOpened]
  split <;> rfl

theorem toolInputDelta_opens (id delta : String) :
    (self.toolInputDelta reported id delta).1.toolCallOpened = self.toolCallOpened := by
  have hOpening : Silent self (self.ensureStarted reported) := ensureStarted_silent
  unfold toolInputDelta
  dsimp only
  rw [← hOpening.toolCallOpened]
  split <;> rfl

theorem toolCall_opens (libraries : Libraries) (call : ToolCall) (other : String) :
    other ∈ (self.toolCall libraries reported call).1.toolCallOpened ↔
      other ∈ self.toolCallOpened ∨ other = call.toolCallId := by
  have hOpening : Silent self (self.ensureStarted reported) := ensureStarted_silent
  unfold toolCall
  by_cases hOpened : call.toolCallId ∈ self.toolCallOpened
  · have hSame : other ∈ self.toolCallOpened ↔ other ∈ self.toolCallOpened ∨ other = call.toolCallId := by
      refine ⟨.inl, ?_⟩
      rintro (hOther | rfl)
      · exact hOther
      · exact hOpened
    simp only [if_pos hOpened]
    split
    · exact hSame
    · split
      · exact hSame
      · exact hSame
  · simp only [if_neg hOpened, markOpened, allocate, setAccum, List.mem_cons]
    rw [hOpening.toolCallOpened]
    exact Or.comm

end StreamState

/-! ## What the reader of the chunks sees -/

/-- The parts of a stream with the chunks that answer each of them. -/
abbrev Log := List (TextStreamPart × List ChatCompletionChunk)

namespace Log

def parts (log : Log) : List TextStreamPart := log.map (·.1)

def chunks (log : Log) : List ChatCompletionChunk := log.flatMap (·.2)

/-- The indices that are used for a call. -/
def indicesOf (log : Log) (id : String) : List Nat :=
  ((log.filter (toolId ·.1 = some id)).flatMap (·.2.flatMap fragments)).map (·.1)

variable (log : Log) (part : TextStreamPart) (answer : List ChatCompletionChunk)

theorem parts_concat : parts (log ++ [(part, answer)]) = log.parts ++ [part] := List.map_append

theorem chunks_concat : chunks (log ++ [(part, answer)]) = log.chunks ++ answer := by
  simp [chunks]

theorem indicesOf_concat (id : String) : indicesOf (log ++ [(part, answer)]) id =
    log.indicesOf id ++ if toolId part = some id then (answer.flatMap fragments).map (·.1) else [] := by
  unfold indicesOf
  rw [List.filter_append, List.flatMap_append, List.map_append]
  by_cases hPart : toolId part = some id
  · simp [hPart]
  · simp [hPart]

end Log

/-- One index for every call, counted up from 0 in the order of first appearance, and at the index the text
that is sent for the call. -/
structure Told (libraries : Libraries) (log : Log) : Prop where
  index : ∀ id ∈ toolIds log.parts,
    log.indicesOf id ≠ [] ∧ ∀ n ∈ log.indicesOf id, n = (toolIds log.parts).idxOf id
  silent : ∀ entry ∈ log, toolId entry.1 = none → entry.2.flatMap fragments = []
  arguments : ∀ id ∈ toolIds log.parts,
    argumentsAt ((toolIds log.parts).idxOf id) log.chunks = sentText libraries id log.parts

/-- The table against the parts. -/
structure Tracks (libraries : Libraries) (state : StreamState) (log : Log) : Prop where
  told : Told libraries log
  unused : ∀ n, (toolIds log.parts).length ≤ n → argumentsAt n log.chunks = ""
  next : state.nextToolIndex = (toolIds log.parts).length % 2 ^ 32
  accum : ∀ id, state.accum id = if id ∈ toolIds log.parts then
    some { index := (toolIds log.parts).idxOf id, arguments := sentText libraries id log.parts } else none
  opened : ∀ id, id ∈ state.toolCallOpened ↔ id ∈ log.parts.filterMap openedId

section Tracks

variable {libraries : Libraries} {state : StreamState} {log : Log} {part : TextStreamPart}
  {result : StreamState × List ChatCompletionChunk}

variable {id : String}

theorem toolId_of_openedId (hPart : openedId part = some id) : toolId part = some id := by
  cases part <;> first | exact hPart | cases hPart

theorem openedId_none (hPart : toolId part = none) : openedId part = none := by
  cases part <;> first | rfl | cases hPart

theorem Tracks.silent (h : Tracks libraries state log) (hPart : toolId part = none)
    (hResult : Silent state result) : Tracks libraries result.1 (log ++ [(part, result.2)]) := by
  have hIds : toolIds (log.parts ++ [part]) = toolIds log.parts := toolIds_other hPart
  have hText (id : String) : sentText libraries id (log.parts ++ [part]) = sentText libraries id log.parts := by
    rw [sentText_concat]
    exact tell_other libraries _ (by rw [hPart]; exact nofun)
  have hArguments (n : Nat) : argumentsAt n (log.chunks ++ result.2) = argumentsAt n log.chunks := by
    rw [argumentsAt_append, argumentsAt_silent hResult.fragments, String.append_empty]
  constructor
  case told =>
    constructor
    case index =>
      intro id hId
      rw [Log.parts_concat, hIds] at hId
      rw [Log.parts_concat, hIds, Log.indicesOf_concat, if_neg (by rw [hPart]; exact nofun), List.append_nil]
      exact h.told.index id hId
    case silent =>
      intro entry hEntry hNone
      rcases List.mem_append.mp hEntry with hEntry | hEntry
      · exact h.told.silent entry hEntry hNone
      · rw [List.mem_singleton.mp hEntry]
        exact hResult.fragments
    case arguments =>
      intro id hId
      rw [Log.parts_concat, hIds] at hId
      rw [Log.parts_concat, Log.chunks_concat, hIds, hArguments, hText]
      exact h.told.arguments id hId
  case unused =>
    intro n hLength
    rw [Log.parts_concat, hIds] at hLength
    rw [Log.chunks_concat, hArguments]
    exact h.unused n hLength
  case next => rw [Log.parts_concat, hIds, hResult.nextToolIndex, h.next]
  case accum =>
    intro id
    rw [Log.parts_concat, hIds, hText, hResult.accum, h.accum]
  case opened =>
    intro id
    rw [hResult.toolCallOpened, h.opened, Log.parts_concat, List.filterMap_append]
    simp [openedId_none hPart]

theorem mem_toolIds_concat {parts : List TextStreamPart} {id other : String} (hPart : toolId part = some id) :
    other ∈ toolIds (parts ++ [part]) ↔ other ∈ toolIds parts ∨ other = id := by
  rw [mem_toolIds, mem_toolIds, List.filterMap_append, List.mem_append, List.filterMap_cons_some hPart]
  simp

theorem Entered.argumentsAt (h : Entered state id acc text result) (n : Nat) :
    argumentsAt n result.2 = if acc.index = n then text else "" := by
  rcases h.fragments with hOne | ⟨_, hText, hNone⟩
  · exact argumentsAt_of_fragments hOne n
  · rw [argumentsAt_silent hNone, hText, ite_self]

theorem Tracks.isSome_accum (h : Tracks libraries state log) (id : String) :
    (state.accum id).isSome ↔ id ∈ toolIds log.parts := by
  rw [h.accum]
  split <;> simp_all

/-- The text at the index of a call before the call grows. -/
theorem Tracks.before (h : Tracks libraries state log) (hPart : toolId part = some id) :
    argumentsAt ((toolIds (log.parts ++ [part])).idxOf id) log.chunks = sentText libraries id log.parts := by
  by_cases hKnown : id ∈ toolIds log.parts
  · rw [toolIds_known hPart hKnown]
    exact h.told.arguments id hKnown
  · rw [toolIds_new hPart hKnown, List.idxOf_append_of_notMem hKnown,
      sentText_unseen libraries (mt mem_toolIds.mpr hKnown)]
    exact h.unused _ (Nat.le_add_right _ _)

theorem idxOf_toolIds {parts later : List TextStreamPart} (hId : id ∈ toolIds parts) :
    (toolIds (parts ++ later)).idxOf id = (toolIds parts).idxOf id :=
  ((toolIds_isPrefix_append parts later).idxOf_eq_of_mem hId).symm

theorem Log.indicesOf_unseen (hUnseen : id ∉ toolIds log.parts) : log.indicesOf id = [] := by
  have hNone : log.filter (toolId ·.1 = some id) = [] := by
    rw [List.filter_eq_nil_iff]
    intro entry hEntry hTold
    refine hUnseen (mem_toolIds.mpr (List.mem_filterMap.mpr ⟨entry.1, List.mem_map_of_mem hEntry, ?_⟩))
    simpa using hTold
  rw [indicesOf, hNone]
  rfl

section

variable (h : Tracks libraries state log) (hPart : toolId part = some id) (hResult : Entered state id acc text result)
  (hIndex : acc.index = (toolIds (log.parts ++ [part])).idxOf id)

include h hPart hResult hIndex

theorem Tracks.entered_index {other : String} (hOther : other ∈ toolIds (log.parts ++ [part])) :
    Log.indicesOf (log ++ [(part, result.2)]) other ≠ [] ∧
      ∀ n ∈ Log.indicesOf (log ++ [(part, result.2)]) other,
        n = (toolIds (log.parts ++ [part])).idxOf other := by
  have hEarlier (hKnown : other ∈ toolIds log.parts) : log.indicesOf other ≠ [] ∧
      ∀ n ∈ log.indicesOf other, n = (toolIds (log.parts ++ [part])).idxOf other := by
    rw [idxOf_toolIds hKnown]
    exact h.told.index other hKnown
  rw [Log.indicesOf_concat]
  by_cases hSame : other = id
  · subst hSame
    rw [if_pos hPart]
    rcases hResult.fragments with hOne | ⟨hKnown, _, hNone⟩
    · rw [hOne]
      refine ⟨by simp, fun n hMem => ?_⟩
      rcases List.mem_append.mp hMem with hMem | hMem
      · by_cases hKnown : other ∈ toolIds log.parts
        · exact (hEarlier hKnown).2 n hMem
        · rw [Log.indicesOf_unseen hKnown] at hMem
          cases hMem
      · rw [List.mem_singleton.mp hMem]
        exact hIndex
    · rw [hNone, List.map_nil, List.append_nil]
      exact hEarlier ((h.isSome_accum other).mp hKnown)
  · have hKnown := ((mem_toolIds_concat hPart).mp hOther).resolve_right hSame
    rw [if_neg (by rw [hPart]; exact fun hEq => hSame (Option.some.inj hEq).symm), List.append_nil]
    exact hEarlier hKnown

/-- An entry for a call, which the table may have or not. -/
theorem Tracks.entered (hText : acc.arguments = sentText libraries id (log.parts ++ [part]))
    (hGrows : sentText libraries id (log.parts ++ [part]) = sentText libraries id log.parts ++ text)
    (hOpened : ∀ other, other ∈ result.1.toolCallOpened ↔ other ∈ (log.parts ++ [part]).filterMap openedId) :
    Tracks libraries result.1 (log ++ [(part, result.2)]) := by
  have hIds : id ∈ toolIds (log.parts ++ [part]) := (mem_toolIds_concat hPart).mpr (.inr rfl)
  have hArguments (n : Nat) : argumentsAt n (log.chunks ++ result.2) =
      argumentsAt n log.chunks ++ if acc.index = n then text else "" := by
    rw [argumentsAt_append, hResult.argumentsAt]
  have hKept {other : String} (hOther : other ≠ id) :
      sentText libraries other (log.parts ++ [part]) = sentText libraries other log.parts := by
    rw [sentText_concat]
    exact tell_other libraries _ (by rw [hPart]; exact fun hEq => hOther (Option.some.inj hEq).symm)
  constructor
  case told =>
    constructor
    case index =>
      intro other hOther
      rw [Log.parts_concat] at hOther ⊢
      exact h.entered_index hPart hResult hIndex hOther
    case silent =>
      intro entry hEntry hNone
      rcases List.mem_append.mp hEntry with hEntry | hEntry
      · exact h.told.silent entry hEntry hNone
      · rw [List.mem_singleton.mp hEntry, hPart] at hNone
        cases hNone
    case arguments =>
      intro other hOther
      rw [Log.parts_concat] at hOther
      rw [Log.parts_concat, Log.chunks_concat, hArguments, hIndex]
      by_cases hSame : other = id
      · rw [hSame, if_pos rfl, h.before hPart, hGrows]
      · have hKnown := ((mem_toolIds_concat hPart).mp hOther).resolve_right hSame
        rw [if_neg fun hEq => hSame ((List.idxOf_inj hIds).mp hEq).symm, String.append_empty,
          hKept hSame, idxOf_toolIds hKnown]
        exact h.told.arguments other hKnown
  case unused =>
    intro n hLength
    rw [Log.parts_concat] at hLength
    have hBefore : (toolIds log.parts).length ≤ n := (toolIds_isPrefix_append _ [part]).length_le.trans hLength
    have hOther : acc.index ≠ n := by
      have hBound := List.idxOf_lt_length_of_mem hIds
      omega
    rw [Log.chunks_concat, hArguments, h.unused n hBefore, if_neg hOther]
    rfl
  case next =>
    rw [Log.parts_concat, hResult.nextToolIndex, toolIds_concat hPart, h.next]
    by_cases hKnown : id ∈ toolIds log.parts
    · rw [if_pos ((h.isSome_accum id).mpr hKnown), if_pos hKnown, List.append_nil]
    · rw [if_neg (mt (h.isSome_accum id).mp hKnown), if_neg hKnown, List.length_append, List.length_singleton,
        Nat.mod_add_mod]
  case accum =>
    intro other
    rw [hResult.accum, Log.parts_concat]
    by_cases hSame : other = id
    · rw [hSame, if_pos rfl, if_pos hIds, ← hIndex, ← hText]
    · rw [if_neg hSame, h.accum, hKept hSame]
      by_cases hKnown : other ∈ toolIds log.parts
      · rw [if_pos hKnown, if_pos ((mem_toolIds_concat hPart).mpr (.inl hKnown)), idxOf_toolIds hKnown]
      · rw [if_neg hKnown, if_neg fun hOther => hKnown (((mem_toolIds_concat hPart).mp hOther).resolve_right hSame)]
  case opened =>
    intro other
    rw [hOpened, Log.parts_concat]

end

theorem Tracks.next_new (h : Tracks libraries state log) (hPart : toolId part = some id)
    (hBound : (toolIds (log.parts ++ [part])).length ≤ 2 ^ 32) (hUnknown : id ∉ toolIds log.parts) :
    state.nextToolIndex = (toolIds (log.parts ++ [part])).idxOf id := by
  have hIds := toolIds_new hPart hUnknown
  rw [hIds, List.length_append, List.length_singleton] at hBound
  rw [h.next, hIds, List.idxOf_append_of_notMem hUnknown, List.idxOf_cons_self, Nat.add_zero]
  exact Nat.mod_eq_of_lt (by omega)

theorem Tracks.accum_known (h : Tracks libraries state log) (hKnown : id ∈ toolIds log.parts) :
    state.accum id =
      some { index := (toolIds log.parts).idxOf id, arguments := sentText libraries id log.parts } := by
  rw [h.accum, if_pos hKnown]

theorem Tracks.accum_new (h : Tracks libraries state log) (hUnknown : id ∉ toolIds log.parts) :
    state.accum id = none := by
  rw [h.accum, if_neg hUnknown]

theorem sentText_new (hUnknown : id ∉ toolIds log.parts) : sentText libraries id log.parts = "" :=
  sentText_unseen libraries (mt mem_toolIds.mpr hUnknown)

variable {reported : Option ResponseMetadata}

theorem Tracks.toolInputStart (h : Tracks libraries state log) {id toolName : String}
    (hPart : toolId part = some id) (hOpens : openedId part = some id)
    (hTell : ∀ text, tell libraries id text part = text)
    (hBound : (toolIds (log.parts ++ [part])).length ≤ 2 ^ 32) :
    Tracks libraries (state.toolInputStart reported id toolName).1
      (log ++ [(part, (state.toolInputStart reported id toolName).2)]) := by
  have hSame : sentText libraries id (log.parts ++ [part]) = sentText libraries id log.parts := by
    rw [sentText_concat, hTell]
  refine h.entered hPart (StreamState.toolInputStart_entered id toolName) ?_ ?_ ?_ ?_
  · by_cases hKnown : id ∈ toolIds log.parts
    · rw [h.accum_known hKnown, toolIds_known hPart hKnown]
      rfl
    · rw [h.accum_new hKnown]
      exact h.next_new hPart hBound hKnown
  · by_cases hKnown : id ∈ toolIds log.parts
    · rw [h.accum_known hKnown, hSame]
      rfl
    · rw [h.accum_new hKnown, hSame, sentText_new hKnown]
      rfl
  · rw [hSame, String.append_empty]
  · intro other
    rw [StreamState.toolInputStart_opens, List.mem_cons, h.opened, List.filterMap_append, List.mem_append,
      List.filterMap_cons_some hOpens, List.filterMap_nil, List.mem_singleton]
    exact Or.comm

theorem Tracks.toolInputDelta (h : Tracks libraries state log) {id delta : String}
    (hPart : toolId part = some id) (hOpens : openedId part = none)
    (hTell : ∀ text, tell libraries id text part = text ++ delta)
    (hBound : (toolIds (log.parts ++ [part])).length ≤ 2 ^ 32) :
    Tracks libraries (state.toolInputDelta reported id delta).1
      (log ++ [(part, (state.toolInputDelta reported id delta).2)]) := by
  have hGrows : sentText libraries id (log.parts ++ [part]) = sentText libraries id log.parts ++ delta := by
    rw [sentText_concat, hTell]
  have hOpened (other : String) : other ∈ (state.toolInputDelta reported id delta).1.toolCallOpened ↔
      other ∈ (log.parts ++ [part]).filterMap openedId := by
    rw [StreamState.toolInputDelta_opens, h.opened, List.filterMap_append, List.filterMap_cons_none hOpens,
      List.filterMap_nil, List.append_nil]
  by_cases hKnown : id ∈ toolIds log.parts
  · refine h.entered hPart (StreamState.toolInputDelta_known (h.accum_known hKnown) delta) ?_ hGrows.symm hGrows
      hOpened
    rw [toolIds_known hPart hKnown]
  · refine h.entered hPart (StreamState.toolInputDelta_new (h.accum_new hKnown) delta)
      (h.next_new hPart hBound hKnown) ?_ hGrows hOpened
    rw [hGrows, sentText_new hKnown, String.empty_append]

theorem Tracks.toolCall (h : Tracks libraries state log) (hPart : toolId part = some call.toolCallId)
    (hOpens : openedId part = some call.toolCallId) (hTell : ∀ text, tell libraries call.toolCallId text part =
      completed text (parsedToolCallArguments libraries call))
    (hBound : (toolIds (log.parts ++ [part])).length ≤ 2 ^ 32)
    (hCall : call.toolCallId ∈ toolIds log.parts → call.toolCallId ∈ log.parts.filterMap openedId) :
    Tracks libraries (state.toolCall libraries reported call).1
      (log ++ [(part, (state.toolCall libraries reported call).2)]) := by
  have hCompleted : sentText libraries call.toolCallId (log.parts ++ [part]) =
      completed (sentText libraries call.toolCallId log.parts) (parsedToolCallArguments libraries call) := by
    rw [sentText_concat, hTell]
  have hOpened (other : String) : other ∈ (state.toolCall libraries reported call).1.toolCallOpened ↔
      other ∈ (log.parts ++ [part]).filterMap openedId := by
    rw [StreamState.toolCall_opens, h.opened, List.filterMap_append, List.mem_append,
      List.filterMap_cons_some hOpens, List.filterMap_nil, List.mem_singleton]
  by_cases hKnown : call.toolCallId ∈ toolIds log.parts
  · have hOpen : call.toolCallId ∈ state.toolCallOpened := (h.opened _).mpr (hCall hKnown)
    refine h.entered hPart (StreamState.toolCall_opened hOpen (h.accum_known hKnown)) ?_ ?_ ?_ hOpened
    · rw [toolIds_known hPart hKnown]
    · rw [hCompleted, ← append_missingArguments]
    · rw [hCompleted, ← append_missingArguments]
  · have hClosed : call.toolCallId ∉ state.toolCallOpened := by
      intro hOpen
      obtain ⟨other, hOther, hId⟩ := List.mem_filterMap.mp ((h.opened _).mp hOpen)
      exact hKnown (mem_toolIds.mpr (List.mem_filterMap.mpr ⟨other, hOther, toolId_of_openedId hId⟩))
    have hText : sentText libraries call.toolCallId (log.parts ++ [part]) =
        parsedToolCallArguments libraries call := by
      rw [hCompleted, sentText_new hKnown]
      exact if_pos List.nil_prefix
    refine h.entered hPart (StreamState.toolCall_new hClosed (h.accum_new hKnown))
      (h.next_new hPart hBound hKnown) hText.symm ?_ hOpened
    rw [hText, sentText_new hKnown, String.empty_append]

/-- One part of the stream, where a call that is known was opened. -/
theorem Tracks.processPart (h : Tracks libraries state log) (options : OpenAiStreamOptions)
    (part : TextStreamPart) (hBound : (toolIds (log.parts ++ [part])).length ≤ 2 ^ 32)
    (hCall : ∀ call, part = .toolCall call → call.toolCallId ∈ toolIds log.parts →
      call.toolCallId ∈ log.parts.filterMap openedId) :
    Tracks libraries (state.processPart libraries options reported part).1
      (log ++ [(part, (state.processPart libraries options reported part).2)]) := by
  cases part with
  | toolInputStart id toolName => exact h.toolInputStart rfl rfl (fun _ => rfl) hBound
  | toolInputDelta id delta => exact h.toolInputDelta rfl rfl (fun _ => if_pos rfl) hBound
  | toolCall call => exact h.toolCall rfl rfl (fun _ => if_pos rfl) hBound (hCall call rfl)
  | _ => exact h.silent rfl (StreamState.processPart_silent libraries options rfl)

end Tracks

end Aimux.OpenAi
