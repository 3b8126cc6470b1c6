import Aimux.Core.ToolCallParsing

/-! # Repairing a tool call after the fact

`apply_tool_call_repair` of `parse_tool_call.rs`: the raw call is recovered from the invalid one and its
error, and the host's reply is applied to it.
-/

namespace Aimux.Core

/-! ## Equality of JSON values -/

/-- Equality of finite doubles: the bits, and the two zeros. -/
def floatEq (x y : BitVec 64) : Bool :=
  x == y || (x <<< 1 == 0 && y <<< 1 == 0)

def numberEq : JsonNumber → JsonNumber → Bool
  | .int x, .int y => x == y
  | .float x, .float y => floatEq x y
  | _, _ => false

mutual

/-- `PartialEq` of `serde_json::Value`; the order of an object's fields does not count. -/
def valueEq : Json → Json → Bool
  | .null, .null => true
  | .bool x, .bool y => x == y
  | .number x, .number y => numberEq x y
  | .string x, .string y => x == y
  | .array xs, .array ys => itemsEq xs ys
  | .object xs, .object ys => xs.length == ys.length && fieldsEq xs ys
  | _, _ => false

def itemsEq : List Json → List Json → Bool
  | [], [] => true
  | x :: xs, y :: ys => valueEq x y && itemsEq xs ys
  | _, _ => false

def fieldsEq : List (String × Json) → List (String × Json) → Bool
  | [], _ => true
  | (key, x) :: xs, ys => ys.any (fun field => field.1 == key && valueEq x field.2) && fieldsEq xs ys

end

theorem numberEq_refl (x : JsonNumber) : numberEq x x = true := by
  cases x <;> simp [numberEq, floatEq]

mutual

theorem valueEq_refl (value : Json) : valueEq value value = true := by
  cases value with
  | array items => simpa [valueEq] using itemsEq_refl items
  | object fields => simpa [valueEq] using fieldsEq_of_subset fields fields fun _ hMem => hMem
  | number x => simpa [valueEq] using numberEq_refl x
  | _ => simp [valueEq]

theorem itemsEq_refl (items : List Json) : itemsEq items items = true := by
  cases items with
  | nil => rfl
  | cons item rest => simp [itemsEq, valueEq_refl item, itemsEq_refl rest]

theorem fieldsEq_of_subset (fields others : List (String × Json))
    (hSubset : ∀ field ∈ fields, field ∈ others) : fieldsEq fields others = true := by
  match fields with
  | [] => rfl
  | (key, x) :: rest =>
    have hField : others.any (fun field => field.1 == key && valueEq x field.2) = true :=
      List.any_eq_true.mpr ⟨(key, x), hSubset _ (List.mem_cons_self ..), by simp [valueEq_refl x]⟩
    have hRest := fieldsEq_of_subset rest others fun field hMem =>
      hSubset field (List.mem_cons_of_mem _ hMem)
    simp [fieldsEq, hField, hRest]

end

/-! ## The reply of a host -/

inductive ToolCallRepairReply where
  | repaired (toolCall : RawToolCall)
  | unchanged
  | failed (message : String)

def RepairOutcome.ofReply : ToolCallRepairReply → RepairOutcome
  | .repaired toolCall => .repaired toolCall
  | .unchanged => .unchanged
  | .failed message => .failed (.other message none)

/-- The argument text an error keeps. -/
def errorToolInput : AiMuxError → Option String
  | .invalidToolInput _ toolInput _ => some toolInput
  | .noSuchTool _ _ toolInput => toolInput
  | .toolCallRepair originalError _ => errorToolInput originalError
  | _ => none

def originalToolCallText (libraries : Libraries) (input : Json) (error : AiMuxError) : Option String :=
  (errorToolInput error).filter fun text => valueEq (RawToolCall.backFilledInput libraries text) input

def rawFromInvalid (libraries : Libraries) (toolCall : ToolCall) :
    Except AiMuxError (RawToolCall × AiMuxError) :=
  if toolCall.invalid ≠ some true then
    .error (.invalidArgument
      ("tool call '" ++ toolCall.toolCallId ++ "' is not invalid; nothing to repair") none)
  else match toolCall.error with
    | none => .error (.invalidArgument
        ("invalid tool call '" ++ toolCall.toolCallId ++ "' carries no error") none)
    | some error =>
      .ok ({
        toolCallId := toolCall.toolCallId
        toolName := toolCall.toolName
        input := (originalToolCallText libraries toolCall.input error).getD (match toolCall.input with
          | .string text => text
          | input => libraries.jsonText input)
        providerExecuted := toolCall.providerExecuted
        dynamic := toolCall.dynamic
        providerMetadata := toolCall.providerMetadata }, error)

def requiredTools : Option (List Tool) → Except AiMuxError (List Tool)
  | some tools => .ok tools
  | none => .error (.invalidArgument "tool calls made without a tool set are not repairable" none)

def applyToolCallRepair (libraries : Libraries) (toolCall : ToolCall) (tools : Option (List Tool))
    (reply : ToolCallRepairReply) : Except AiMuxError ToolCall :=
  match requiredTools tools with
  | .error error => .error error
  | .ok tools =>
    match rawFromInvalid libraries toolCall with
    | .error error => .error error
    | .ok (raw, error) => .ok (applyRepairOutcome libraries raw error tools (.ofReply reply))

/-- The in-process hook that gives the same reply. -/
def replyHook (reply : ToolCallRepairReply) : RepairHook := fun _ _ => .ofReply reply

/-! ## What an invalid call keeps -/

variable {error : AiMuxError}

namespace RawToolCall

variable {libraries : Libraries} {call : RawToolCall}

theorem parseJsonInput_error
    (hParse : call.parseJsonInput libraries = .error error) : errorToolInput error = some call.input := by
  unfold parseJsonInput at hParse
  split at hParse
  · cases hParse
  · split at hParse
    · obtain rfl := Except.error.inj hParse
      rfl
    · split at hParse
      · obtain rfl := Except.error.inj hParse
        rfl
      · cases hParse

theorem validateInput_error {tool : FunctionTool} {input : Json}
    (hValidate : call.validateInput libraries tool input = .error error) :
    errorToolInput error = some call.input := by
  unfold validateInput at hValidate
  split at hValidate
  · obtain rfl := Except.error.inj hValidate
    rfl
  · split at hValidate
    · obtain rfl := Except.error.inj hValidate
      rfl
    · cases hValidate

theorem parseAndValidate_error {tools : List Tool} (hParse : call.parseAndValidate libraries tools = .error error) :
    errorToolInput error = some call.input := by
  unfold parseAndValidate at hParse
  split at hParse
  · split at hParse
    · split at hParse
      · next inputError hInput =>
        obtain rfl := Except.error.inj hParse
        exact parseJsonInput_error hInput
      · cases hParse
    · obtain rfl := Except.error.inj hParse
      rfl
  · split at hParse
    · next inputError hInput =>
      obtain rfl := Except.error.inj hParse
      exact parseJsonInput_error hInput
    · split at hParse
      · cases hParse
      · exact validateInput_error hParse

theorem originalToolCallText_backFilled (hText : errorToolInput error = some call.input) :
    originalToolCallText libraries (backFilledInput libraries call.input) error = some call.input := by
  unfold originalToolCallText
  rw [hText]
  exact Option.filter_some_pos (valueEq_refl _)

/-- The raw call comes back with the text it had; only `dynamic` is set. -/
theorem rawFromInvalid_invalid (hText : errorToolInput error = some call.input) :
    rawFromInvalid libraries (call.invalid libraries error) =
      .ok ({ call with dynamic := some true }, error) := by
  simp [rawFromInvalid, invalid, parsed, originalToolCallText_backFilled hText]

/-- An invalid call reports itself dynamic, whatever the raw call said. -/
theorem invalid_dynamic (libraries : Libraries) (call : RawToolCall) (dynamic : Option Bool) (error : AiMuxError) :
    ({ call with dynamic := dynamic } : RawToolCall).invalid libraries error =
      call.invalid libraries error := rfl

end RawToolCall

theorem applyRepairOutcome_dynamic (libraries : Libraries) (call : RawToolCall) (dynamic : Option Bool)
    (error : AiMuxError) (tools : List Tool) (outcome : RepairOutcome) :
    applyRepairOutcome libraries { call with dynamic := dynamic } error tools outcome =
      applyRepairOutcome libraries call error tools outcome := by
  cases outcome <;> simp only [applyRepairOutcome, RawToolCall.invalid_dynamic]

/-! ## The two paths -/

section

variable (libraries : Libraries) (declared : List Tool) (call : RawToolCall) (reply : ToolCallRepairReply)

theorem repair_of_invalid (hParse : call.parseAndValidate libraries declared = .error error) :
    applyToolCallRepair libraries (parseToolCall libraries (some declared) none call) (some declared)
        reply =
      .ok (parseToolCall libraries (some declared) (some (replyHook reply)) call) := by
  have hText := RawToolCall.parseAndValidate_error hParse
  simp only [parseToolCall, hParse, applyToolCallRepair, requiredTools,
    RawToolCall.rawFromInvalid_invalid hText, applyRepairOutcome_dynamic]
  rfl

theorem repair_of_valid {input : Json} {dynamic : Option Bool}
    (hParse : call.parseAndValidate libraries declared = .ok (input, dynamic)) :
    applyToolCallRepair libraries (parseToolCall libraries (some declared) none call) (some declared)
        reply =
      .error (.invalidArgument
        ("tool call '" ++ call.toolCallId ++ "' is not invalid; nothing to repair") none) := by
  simp [parseToolCall, hParse, applyToolCallRepair, requiredTools, rawFromInvalid, RawToolCall.parsed]

theorem repair_without_tools (toolCall : ToolCall) :
    applyToolCallRepair libraries toolCall none reply =
      .error (.invalidArgument "tool calls made without a tool set are not repairable" none) := rfl

end

/-- An invalid call repaired after the fact is the call the hook would have given. A valid call and a call
made without tools are refused, and the hook is not asked about them. -/
theorem repair_after_the_fact (libraries : Libraries) (tools : Option (List Tool)) (call : RawToolCall)
    (reply : ToolCallRepairReply) :
    (∀ declared, tools = some declared →
      (parseToolCall libraries tools none call).invalid = some true →
      applyToolCallRepair libraries (parseToolCall libraries tools none call) tools reply =
        .ok (parseToolCall libraries tools (some (replyHook reply)) call)) ∧
    (∀ declared, tools = some declared →
      (parseToolCall libraries tools none call).invalid ≠ some true →
      applyToolCallRepair libraries (parseToolCall libraries tools none call) tools reply =
          .error (.invalidArgument
            ("tool call '" ++ call.toolCallId ++ "' is not invalid; nothing to repair") none) ∧
        ∀ hook, parseToolCall libraries tools hook call = parseToolCall libraries tools none call) ∧
    (tools = none →
      applyToolCallRepair libraries (parseToolCall libraries tools none call) tools reply =
          .error (.invalidArgument "tool calls made without a tool set are not repairable" none) ∧
        ∀ hook, parseToolCall libraries tools hook call = parseToolCall libraries tools none call) := by
  refine ⟨?_, ?_, ?_⟩
  · rintro declared rfl hInvalid
    cases hParse : call.parseAndValidate libraries declared with
    | error error => exact repair_of_invalid libraries declared call reply hParse
    | ok parsed =>
      simp [parseToolCall, hParse, RawToolCall.parsed] at hInvalid
  · rintro declared rfl hValid
    cases hParse : call.parseAndValidate libraries declared with
    | error error =>
      simp [parseToolCall, hParse, RawToolCall.invalid] at hValid
    | ok parsed =>
      refine ⟨repair_of_valid libraries declared call reply hParse, fun hook => ?_⟩
      simp [parseToolCall, hParse]
  · rintro rfl
    exact ⟨repair_without_tools libraries reply _, fun hook => rfl⟩

/-! ## A valid call -/

def repairLibraries : Libraries where
  parseInputText _ := .error (.mk "EOF while parsing a value at line 1 column 0" none)
  validatorFor _ := .ok fun _ => .ok ()
  jsonText _ := "null"
  errorText _ := "unknown error"
  encodeBase64 _ := ""
  sameNumber _ _ := false

def validCall : RawToolCall where
  toolCallId := "call_1"
  toolName := "search"
  input := ""

def searchTool : Tool := .function { name := "search", inputSchema := .object [] }

theorem valid_call_is_refused :
    applyToolCallRepair repairLibraries
        (parseToolCall repairLibraries (some [searchTool]) none validCall) (some [searchTool]) .unchanged ≠
      .ok (parseToolCall repairLibraries (some [searchTool]) (some (replyHook .unchanged)) validCall) := by
  have hRefused : (applyToolCallRepair repairLibraries
      (parseToolCall repairLibraries (some [searchTool]) none validCall) (some [searchTool])
      .unchanged).isOk = false := by decide +kernel
  intro hSame
  rw [hSame] at hRefused
  cases hRefused

end Aimux.Core
