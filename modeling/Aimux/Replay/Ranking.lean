import Aimux.Lib.Selection
import Aimux.Prompt.Equality
import Aimux.Replay.CallOptions

/-! # Ranked recordings

`ScoreMatcher` and `PrefixMatcher` of `replay.rs` keep the best recording that they have seen.
-/

namespace Aimux.Replay

open Aimux.Core Aimux.Prompt Aimux.Recorder Aimux.Lib

/-! ## The matchers -/

structure PromptCrates where
  encodeBase64 : List UInt8 → String
  decodeBase64 : String → Option (List UInt8)
  /-- `serde_json::to_string` -/
  jsonText : Json → String
  /-- `Number::as_f64` -/
  asF64 : JsonNumber → BitVec 64

/-- A recording of a language model of this provider and id. -/
def isFor (provider modelId : String) (recording : Recording LanguageModelMessage) : Bool :=
  recording.input.operation = .languageModel && recording.provider.provider = provider &&
    recording.provider.modelId = modelId

/-- The loop of both matchers: a recording that counts is kept if it has a greater score. -/
def keepBest (counts : Recording LanguageModelMessage → Bool) (score : Recording LanguageModelMessage → Nat)
    (best : Option (Recording LanguageModelMessage × Nat)) (recording : Recording LanguageModelMessage) :
    Option (Recording LanguageModelMessage × Nat) :=
  if counts recording then match best with
    | some (_, held) => if held < score recording then some (recording, score recording) else best
    | none => some (recording, score recording)
  else best

def bestMatch (counts : Recording LanguageModelMessage → Bool) (score : Recording LanguageModelMessage → Nat)
    (message : String) (recordings : List (Recording LanguageModelMessage)) :
    Except AiMuxError (Recording LanguageModelMessage) :=
  match recordings.foldl (keepBest counts score) none with
  | some (recording, _) => .ok recording
  | none => .error (.invalidArgument message none)

/-- Equality of doubles. -/
def doubleEq (x y : BitVec 64) : Bool :=
  let isNaN (bits : BitVec 64) := bits.extractLsb' 52 11 = BitVec.allOnes 11 ∧ bits.extractLsb' 0 52 ≠ 0
  !decide (isNaN x) && !decide (isNaN y) && floatEq x y

def lcpBytes (a b : String) : Nat := (((utf8 a).zip (utf8 b)).takeWhile fun pair => pair.1 == pair.2).length

section

variable (crates : PromptCrates)

/-- The text of the first part, or the content as JSON. -/
def messageText : LanguageModelMessage → String
  | .system content _ => content
  | .user content _ => match content.head? with
    | some (.text part) => part.text
    | _ => crates.jsonText (userContentValue crates.encodeBase64 content)
  | .assistant content _ => match content.head? with
    | some (.text part) => part.text
    | _ => crates.jsonText (assistantContentValue crates.encodeBase64 content)
  | .tool content _ => crates.jsonText (toolContentValue crates.encodeBase64 content)

/-- The number of leading messages that are the same. -/
def commonMessages (request recorded : LanguageModelPrompt) : Nat :=
  ((request.zip recorded).takeWhile fun pair => sameMessageContent crates.decodeBase64 pair.1 pair.2).length

/-- How far the texts of the first messages that differ agree, or those of the last compared messages. -/
def textLcp (request recorded : LanguageModelPrompt) : Nat :=
  let minLen := min request.length recorded.length
  if minLen = 0 then 0
  else
    let lcpIdx := min (commonMessages crates request recorded) (minLen - 1)
    match request[lcpIdx]?, recorded[lcpIdx]? with
    | some a, some b => lcpBytes (messageText crates a) (messageText crates b)
    | _, _ => 0

def recordedTemperature (options : Json) : Option (BitVec 64) :=
  match field options "temperature" with
  | .number number => some (crates.asF64 number)
  | _ => none

def promptRelevance (request recorded : LanguageModelPrompt) : Nat :=
  commonMessages crates request recorded * 100 + textLcp crates request recorded

def matchScore (options : CallOptions) (recording : Recording LanguageModelMessage) : Nat :=
  let relevance := promptRelevance crates options.prompt recording.input.prompt
  if relevance = 0 then 0
  else if optionEq doubleEq options.temperature (recordedTemperature crates recording.input.options) then relevance + 1
  else relevance

def scoreCounts (provider modelId : String) (options : CallOptions) (recording : Recording LanguageModelMessage) :
    Bool :=
  isFor provider modelId recording && matchScore crates options recording ≠ 0

/-- `ScoreMatcher` -/
def scoreMatch (provider modelId : String) (options : CallOptions) :
    List (Recording LanguageModelMessage) → Except AiMuxError (Recording LanguageModelMessage) :=
  bestMatch (scoreCounts crates provider modelId options) (matchScore crates options)
    "mock replay: no scoring match for this input"

def prefixScore (options : CallOptions) (recording : Recording LanguageModelMessage) : Nat :=
  commonMessages crates options.prompt recording.input.prompt

def prefixCounts (provider modelId : String) (options : CallOptions) (recording : Recording LanguageModelMessage) :
    Bool :=
  isFor provider modelId recording &&
    !decide (prefixScore crates options recording < recording.input.prompt.length) &&
    decide (0 < prefixScore crates options recording)

/-- `PrefixMatcher` -/
def prefixMatch (provider modelId : String) (options : CallOptions) :
    List (Recording LanguageModelMessage) → Except AiMuxError (Recording LanguageModelMessage) :=
  bestMatch (prefixCounts crates provider modelId options) (prefixScore crates options)
    "mock replay: no prefix match for this input"

end

/-! ## The best recording -/

section Best

variable {counts : Recording LanguageModelMessage → Bool} {score : Recording LanguageModelMessage → Nat}

/-- Of the recordings that count, the first of those with the greatest score. -/
def FirstBest (counts : Recording LanguageModelMessage → Bool) (score : Recording LanguageModelMessage → Nat)
    (recordings : List (Recording LanguageModelMessage)) (best : Recording LanguageModelMessage) : Prop :=
  ∃ before after, recordings.filter counts = before ++ best :: after ∧
    (∀ recording ∈ before, score recording < score best) ∧ ∀ recording ∈ after, score recording ≤ score best

/-- The score that is held is that of the recording. -/
def withScore (score : Recording LanguageModelMessage → Nat) (recording : Recording LanguageModelMessage) :
    Recording LanguageModelMessage × Nat :=
  (recording, score recording)

theorem keepBest_eq (best : Option (Recording LanguageModelMessage)) (recording : Recording LanguageModelMessage) :
    keepBest counts score (best.map (withScore score)) recording =
      (if counts recording then pick score best recording else best).map (withScore score) := by
  unfold keepBest
  split
  · cases best with
    | none => rfl
    | some held =>
      rw [Option.map_some, withScore, pick]
      dsimp only
      split <;> rfl
  · rfl

variable (counts score) in
theorem foldl_keepBest (recordings : List (Recording LanguageModelMessage))
    (best : Option (Recording LanguageModelMessage)) :
    recordings.foldl (keepBest counts score) (best.map (withScore score)) =
      ((recordings.filter counts).foldl (pick score) best).map (withScore score) := by
  induction recordings generalizing best with
  | nil => rfl
  | cons recording recordings ih =>
    rw [List.foldl_cons, keepBest_eq, ih, List.filter_cons]
    split <;> rfl

theorem bestMatch_ok_iff (message : String) (recordings : List (Recording LanguageModelMessage))
    (best : Recording LanguageModelMessage) :
    bestMatch counts score message recordings = .ok best ↔ FirstBest counts score recordings best := by
  rw [FirstBest, ← foldl_pick_eq_some_iff, bestMatch]
  have hFold := foldl_keepBest counts score recordings none
  rw [Option.map_none] at hFold
  rw [hFold]
  cases (recordings.filter counts).foldl (pick score) none with
  | none => simp
  | some found => simp [withScore]

theorem exists_bestMatch_iff (message : String) (recordings : List (Recording LanguageModelMessage)) :
    (∃ best, bestMatch counts score message recordings = .ok best) ↔ ∃ recording ∈ recordings, counts recording = true := by
  have hNone := foldl_pick_eq_none_iff score (recordings.filter counts)
  have hFold := foldl_keepBest counts score recordings none
  rw [Option.map_none] at hFold
  rw [List.filter_eq_nil_iff] at hNone
  rw [bestMatch, hFold]
  cases hPick : (recordings.filter counts).foldl (pick score) none with
  | none => simpa using hNone.mp hPick
  | some found =>
    have hMem := List.mem_filter.mp (foldl_pick_spec score hPick).1
    exact ⟨fun _ => ⟨found, hMem⟩, fun _ => ⟨found, rfl⟩⟩

variable {recordings : List (Recording LanguageModelMessage)} {best : Recording LanguageModelMessage}

theorem FirstBest.mem (h : FirstBest counts score recordings best) : best ∈ recordings ∧ counts best = true := by
  obtain ⟨before, after, hEq, -, -⟩ := h
  rw [← List.mem_filter, hEq]
  exact List.mem_append_right _ List.mem_cons_self

theorem FirstBest.le (h : FirstBest counts score recordings best) {recording : Recording LanguageModelMessage}
    (hMem : recording ∈ recordings) (hCounts : counts recording = true) : score recording ≤ score best := by
  obtain ⟨before, after, hEq, hBefore, hAfter⟩ := h
  have hIn := List.mem_filter.mpr ⟨hMem, hCounts⟩
  rw [hEq, List.mem_append, List.mem_cons] at hIn
  obtain hIn | rfl | hIn := hIn
  · exact (hBefore recording hIn).le
  · exact le_rfl
  · exact hAfter recording hIn

end Best

/-! ## Common messages -/

section

variable (crates : PromptCrates)

def Same (a b : LanguageModelMessage) : Prop := sameMessageContent crates.decodeBase64 a b = true

/-- The recorded prompt is the front of the request. -/
def RecordedFront (request recorded : LanguageModelPrompt) : Prop :=
  ∃ front rest, request = front ++ rest ∧ List.Forall₂ (Same crates) front recorded

/-- The request is the front of the recorded prompt. -/
def RequestFront (request recorded : LanguageModelPrompt) : Prop :=
  ∃ front rest, recorded = front ++ rest ∧ List.Forall₂ (Same crates) request front

theorem commonMessages_cons (a b : LanguageModelMessage) (request recorded : LanguageModelPrompt) :
    commonMessages crates (a :: request) (b :: recorded) =
      if sameMessageContent crates.decodeBase64 a b then commonMessages crates request recorded + 1 else 0 := by
  rw [commonMessages, List.zip_cons_cons, List.takeWhile_cons]
  split <;> rfl

variable (request recorded : LanguageModelPrompt)

theorem commonMessages_le : commonMessages crates request recorded ≤ min request.length recorded.length := by
  rw [← List.length_zip]
  exact List.Sublist.length_le (List.takeWhile_sublist _)

theorem recordedFront_iff :
    RecordedFront crates request recorded ↔ commonMessages crates request recorded = recorded.length := by
  induction recorded generalizing request with
  | nil =>
    refine iff_of_true ⟨[], request, rfl, .nil⟩ ?_
    simp [commonMessages]
  | cons b recorded ih =>
    cases request with
    | nil =>
      refine iff_of_false ?_ (by simp [commonMessages])
      rintro ⟨front, rest, hEq, hSame⟩
      obtain ⟨rfl, -⟩ := List.append_eq_nil_iff.mp hEq.symm
      cases hSame
    | cons a request =>
      have hStep : RecordedFront crates (a :: request) (b :: recorded) ↔
          Same crates a b ∧ RecordedFront crates request recorded := by
        constructor
        · rintro ⟨front, rest, hEq, hSame⟩
          cases hSame with
          | cons hHead hTail =>
            cases hEq
            exact ⟨hHead, _, rest, rfl, hTail⟩
        · rintro ⟨hHead, front, rest, rfl, hTail⟩
          exact ⟨a :: front, rest, rfl, .cons hHead hTail⟩
      rw [hStep, ih, commonMessages_cons, Same]
      split <;> simp [*]

theorem requestFront_iff :
    RequestFront crates request recorded ↔ commonMessages crates request recorded = request.length := by
  induction request generalizing recorded with
  | nil =>
    refine iff_of_true ⟨[], recorded, rfl, .nil⟩ ?_
    simp [commonMessages]
  | cons a request ih =>
    cases recorded with
    | nil =>
      refine iff_of_false ?_ (by simp [commonMessages])
      rintro ⟨front, rest, hEq, hSame⟩
      obtain ⟨rfl, -⟩ := List.append_eq_nil_iff.mp hEq.symm
      cases hSame
    | cons b recorded =>
      have hStep : RequestFront crates (a :: request) (b :: recorded) ↔
          Same crates a b ∧ RequestFront crates request recorded := by
        constructor
        · rintro ⟨front, rest, hEq, hSame⟩
          cases hSame with
          | cons hHead hTail =>
            cases hEq
            exact ⟨hHead, _, rest, rfl, hTail⟩
        · rintro ⟨hHead, front, rest, rfl, hTail⟩
          exact ⟨b :: front, rest, rfl, .cons hHead hTail⟩
      rw [hStep, ih, commonMessages_cons, Same]
      split <;> simp [*]

/-! ## Scores -/

/-- The bytes of the text of a message. -/
def textBytes (prompt : LanguageModelPrompt) (place : Nat) : Nat :=
  prompt[place]?.elim 0 fun message => (utf8 (messageText crates message)).length

theorem lcpBytes_le (a b : String) : lcpBytes a b ≤ (utf8 a).length :=
  (List.Sublist.length_le (List.takeWhile_sublist _)).trans (by rw [List.length_zip]; exact min_le_left _ _)

/-- The texts that are compared are those of the first message that is not common, or of the last common one. -/
theorem textLcp_le :
    ∃ place, (place = commonMessages crates request recorded ∨ place + 1 = commonMessages crates request recorded) ∧
      textLcp crates request recorded ≤ textBytes crates request place := by
  have hCommon := commonMessages_le crates request recorded
  rw [textLcp]
  split
  · exact ⟨_, .inl rfl, Nat.zero_le _⟩
  · refine ⟨min (commonMessages crates request recorded) (min request.length recorded.length - 1), by omega, ?_⟩
    rw [textBytes]
    dsimp only
    split
    · rename_i a b hA hB
      rw [hA]
      exact lcpBytes_le _ _
    · exact Nat.zero_le _

theorem matchScore_bounds (options : CallOptions) (recording : Recording LanguageModelMessage) :
    promptRelevance crates options.prompt recording.input.prompt ≤ matchScore crates options recording ∧
      matchScore crates options recording ≤ promptRelevance crates options.prompt recording.input.prompt + 1 := by
  rw [matchScore]
  split
  · omega
  · split <;> omega

/-- No earlier text of the request outweighs the messages that come after it. -/
def Outweighs (request recorded : LanguageModelPrompt) : Prop :=
  ∀ common < request.length, ∀ place, place = common ∨ place + 1 = common →
    common * 100 + textBytes crates request place + 1 < request.length * 100 + textLcp crates request recorded

theorem score_lt {options : CallOptions} {exact other : Recording LanguageModelMessage}
    (hExact : RequestFront crates options.prompt exact.input.prompt)
    (hOutweighs : Outweighs crates options.prompt exact.input.prompt)
    (hOther : ¬RequestFront crates options.prompt other.input.prompt) :
    matchScore crates options other < matchScore crates options exact := by
  rw [requestFront_iff] at hExact hOther
  have hCommon := commonMessages_le crates options.prompt other.input.prompt
  obtain ⟨place, hPlace, hText⟩ := textLcp_le crates options.prompt other.input.prompt
  have hLess := hOutweighs _ (by omega) place hPlace
  have hUpper := (matchScore_bounds crates options other).2
  have hLower := (matchScore_bounds crates options exact).1
  rw [promptRelevance] at hUpper hLower
  omega

theorem RequestFront.of_same {request recorded : LanguageModelPrompt}
    (h : List.Forall₂ (Same crates) request recorded) : RequestFront crates request recorded :=
  ⟨recorded, [], (List.append_nil recorded).symm, h⟩

theorem prefixCounts_iff (provider modelId : String) (options : CallOptions)
    (recording : Recording LanguageModelMessage) :
    prefixCounts crates provider modelId options recording = true ↔ isFor provider modelId recording = true ∧
      recording.input.prompt ≠ [] ∧ RecordedFront crates options.prompt recording.input.prompt := by
  have hCommon := commonMessages_le crates options.prompt recording.input.prompt
  rw [prefixCounts, prefixScore, Bool.and_eq_true, Bool.and_eq_true, Bool.not_eq_true', decide_eq_false_iff_not,
    decide_eq_true_iff, recordedFront_iff, and_assoc, ← List.length_pos_iff]
  refine and_congr_right fun _ => ?_
  omega

end

/-- No bytes, and no numbers. -/
def plainCrates : PromptCrates where
  encodeBase64 _ := ""
  decodeBase64 _ := none
  jsonText _ := "[]"
  asF64 _ := 0

def recordingOf (callId : String) (prompt : LanguageModelPrompt) : Recording LanguageModelMessage :=
  .new "now" callId { prompt, options := .object [] } { providerId := "p", provider := "p", modelId := "m" }

def hello : CallOptions where
  prompt := [.system "be brief" none, .user [.text { text := "hi" }] none]

/-- A system message of 120 bytes, and a short question. -/
def longSystem : LanguageModelMessage :=
  .system "xxxxxxxxxxxxxxxxxxxxxxxxxxxxxxxxxxxxxxxxxxxxxxxxxxxxxxxxxxxxxxxxxxxxxxxxxxxxxxxxxxxxxxxxxxxxxxxxxxxxxxxxxxxxxxxxxxxxxxxx" none

def longCall : CallOptions where
  prompt := [longSystem, .user [.text { text := "hi" }] none]

end Aimux.Replay
