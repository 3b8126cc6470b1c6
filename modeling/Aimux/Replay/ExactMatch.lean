import Aimux.Replay.CallOptions

/-! # Exact matches

`ExactMatcher` of `replay.rs`: a request is compared with what was recorded of a call, field by field. What
redaction took away from a field other than the headers and the provider options is a difference.
-/

namespace Aimux.Replay

open Aimux.Core Aimux.Prompt Aimux.Recorder

/-! ## The matcher -/

structure ExactMatcher where
  provider : String
  modelId : String

section

variable (encodeBase64 : List UInt8 → String)

def canonicalCallKey (options : CallOptions) : Json :=
  .object [("prompt", promptValue encodeBase64 options.prompt),
    ("temperature", valueOf options.temperature floatValue),
    ("maxOutputTokens", valueOf options.maxOutputTokens natValue), ("seed", valueOf options.seed natValue),
    ("responseFormat", valueOf options.responseFormat responseFormatValue),
    ("tools", valueOf options.tools toolsValue), ("toolChoice", valueOf options.toolChoice toolChoiceValue),
    ("headers", valueOf options.headers headersValue),
    ("providerOptions", valueOf options.providerOptions ProviderOptions.toValue)]

def canonicalRecordingKey (recording : Recording LanguageModelMessage) : Json :=
  let options := recording.input.options
  .object [("prompt", promptValue encodeBase64 recording.input.prompt), ("temperature", field options "temperature"),
    ("maxOutputTokens", field options "maxOutputTokens"), ("seed", field options "seed"),
    ("responseFormat", field options "responseFormat"), ("tools", field options "tools"),
    ("toolChoice", field options "toolChoice"), ("headers", field options "headers"),
    ("providerOptions", field options "providerOptions")]

def REDACTED_FIELDS : List String := ["headers", "providerOptions"]

def canonicalKeysMatch (recKey callKey : Json) : Bool :=
  match recKey, callKey with
  | .object recorded, .object request =>
    recorded.length == request.length && recorded.all fun (key, held) => match request.lookup key with
      | some value => if key ∈ REDACTED_FIELDS then redactionAwareEq held value else valueEq held value
      | none => false
  | _, _ => valueEq recKey callKey

def ExactMatcher.accepts (matcher : ExactMatcher) (options : CallOptions)
    (recording : Recording LanguageModelMessage) : Bool :=
  recording.input.operation = .languageModel && recording.provider.provider = matcher.provider &&
    recording.provider.modelId = matcher.modelId &&
    canonicalKeysMatch (canonicalRecordingKey encodeBase64 recording) (canonicalCallKey encodeBase64 options)

def exactMatch (matcher : ExactMatcher) (options : CallOptions) (recordings : List (Recording LanguageModelMessage)) :
    Except AiMuxError (Recording LanguageModelMessage) :=
  match recordings.find? (matcher.accepts encodeBase64 options) with
  | some recording => .ok recording
  | none => .error (.invalidArgument "mock replay: no exact matching recording" none)

end

/-! ## What a match says -/

/-- Equal but for what the placeholder stands for in the recorded value. -/
inductive Masks : Json → Json → Prop where
  | masked {request : Json} (hThere : request ≠ .null) : Masks (.string "[REDACTED]") request
  | null : Masks .null .null
  | bool (flag : Bool) : Masks (.bool flag) (.bool flag)
  | number {recorded request : JsonNumber} (hEq : numberEq recorded request = true) :
    Masks (.number recorded) (.number request)
  | string (text : String) : Masks (.string text) (.string text)
  | array {recorded request : List Json} (hLength : recorded.length = request.length)
      (hItems : ∀ items ∈ recorded.zip request, Masks items.1 items.2) : Masks (.array recorded) (.array request)
  | object {recorded request : List (String × Json)} (hLength : recorded.length = request.length)
      (value : String → Json) (hThere : ∀ field ∈ recorded, request.lookup field.1 = some (value field.1))
      (hFields : ∀ field ∈ recorded, Masks field.2 (value field.1)) : Masks (.object recorded) (.object request)

theorem string_match_iff (recorded : String) (request : Json) :
    redactionAwareEq (.string recorded) request = true ↔
      (recorded = "[REDACTED]" ∧ request ≠ .null) ∨ request = .string recorded := by
  by_cases hPlaceholder : recorded = "[REDACTED]"
  · cases request <;> simp [redactionAwareEq, hPlaceholder, isNull]
  · cases request <;> simp [redactionAwareEq, hPlaceholder]
    exact eq_comm

theorem itemsMatch_iff (recorded request : List Json) : itemsMatch recorded request = true ↔
    ∀ items ∈ recorded.zip request, redactionAwareEq items.1 items.2 = true := by
  induction recorded generalizing request with
  | nil => simp [itemsMatch]
  | cons first recorded ih =>
    cases request with
    | nil => simp [itemsMatch]
    | cons value request => rw [itemsMatch, Bool.and_eq_true, ih, List.zip_cons_cons, List.forall_mem_cons]

theorem fieldsMatch_iff (recorded request : List (String × Json)) : fieldsMatch recorded request = true ↔
    ∀ field ∈ recorded, ∃ value, request.lookup field.1 = some value ∧ redactionAwareEq field.2 value = true := by
  induction recorded with
  | nil => simp [fieldsMatch]
  | cons first recorded ih =>
    obtain ⟨key, held⟩ := first
    rw [fieldsMatch, Bool.and_eq_true, ih, List.forall_mem_cons]
    refine and_congr_left fun _ => ?_
    cases request.lookup key <;> simp

mutual

theorem masks_of_match {recorded request : Json} (h : redactionAwareEq recorded request = true) :
    Masks recorded request := by
  match recorded, request with
  | .string recorded, request =>
    obtain ⟨rfl, hThere⟩ | rfl := (string_match_iff recorded request).mp h
    · exact .masked hThere
    · exact .string recorded
  | .null, .null => exact .null
  | .bool recorded, .bool request =>
    rw [redactionAwareEq, beq_iff_eq] at h
    rw [h]
    exact .bool request
  | .number recorded, .number request =>
    rw [redactionAwareEq] at h
    exact .number h
  | .array recorded, .array request =>
    rw [redactionAwareEq, Bool.and_eq_true, beq_iff_eq] at h
    exact .array h.1 (masks_items h.2)
  | .object recorded, .object request =>
    rw [redactionAwareEq, Bool.and_eq_true, beq_iff_eq] at h
    have hFields := masks_fields h.2
    refine .object h.1 (fun key => (request.lookup key).getD .null) (fun field hMem => ?_) fun field hMem => ?_
    · obtain ⟨value, hValue, -⟩ := hFields field hMem
      rw [hValue]
      rfl
    · obtain ⟨value, hValue, hMasks⟩ := hFields field hMem
      rw [hValue]
      exact hMasks

theorem masks_items {recorded request : List Json} (h : itemsMatch recorded request = true) :
    ∀ items ∈ recorded.zip request, Masks items.1 items.2 := by
  match recorded, request with
  | [], _ => simp
  | _ :: _, [] => simp
  | first :: recorded, value :: request =>
    rw [itemsMatch, Bool.and_eq_true] at h
    rw [List.zip_cons_cons, List.forall_mem_cons]
    exact ⟨masks_of_match h.1, masks_items h.2⟩

theorem masks_fields {recorded request : List (String × Json)} (h : fieldsMatch recorded request = true) :
    ∀ field ∈ recorded, ∃ value, request.lookup field.1 = some value ∧ Masks field.2 value := by
  match recorded with
  | [] => simp
  | (key, held) :: recorded =>
    obtain ⟨value, hValue, hHeld⟩ := (fieldsMatch_iff _ _).mp h (key, held) List.mem_cons_self
    rw [fieldsMatch, Bool.and_eq_true] at h
    rw [List.forall_mem_cons]
    exact ⟨⟨value, hValue, masks_of_match hHeld⟩, masks_fields h.2⟩

end

theorem match_of_masks {recorded request : Json} (h : Masks recorded request) :
    redactionAwareEq recorded request = true := by
  induction h with
  | masked hThere => exact (string_match_iff _ _).mpr (.inl ⟨rfl, hThere⟩)
  | null => rfl
  | bool flag => simp [redactionAwareEq]
  | number hEq => exact hEq
  | string text => exact (string_match_iff _ _).mpr (.inr rfl)
  | array hLength _ ih =>
    rw [redactionAwareEq, hLength, beq_self_eq_true, Bool.true_and]
    exact (itemsMatch_iff _ _).mpr ih
  | object hLength value hThere _ ih =>
    rw [redactionAwareEq, hLength, beq_self_eq_true, Bool.true_and]
    exact (fieldsMatch_iff _ _).mpr fun field hMem => ⟨value field.1, hThere field hMem, ih field hMem⟩

theorem masks_iff (recorded request : Json) : redactionAwareEq recorded request = true ↔ Masks recorded request :=
  ⟨masks_of_match, match_of_masks⟩

/-- The compared fields of a recording and a call. -/
structure KeysAgree (encodeBase64 : List UInt8 → String) (input : InputRecord LanguageModelMessage)
    (options : CallOptions) : Prop where
  prompt : valueEq (promptValue encodeBase64 input.prompt) (promptValue encodeBase64 options.prompt) = true
  temperature : valueEq (field input.options "temperature") (valueOf options.temperature floatValue) = true
  maxOutputTokens : valueEq (field input.options "maxOutputTokens") (valueOf options.maxOutputTokens natValue) = true
  seed : valueEq (field input.options "seed") (valueOf options.seed natValue) = true
  responseFormat :
    valueEq (field input.options "responseFormat") (valueOf options.responseFormat responseFormatValue) = true
  tools : valueEq (field input.options "tools") (valueOf options.tools toolsValue) = true
  toolChoice : valueEq (field input.options "toolChoice") (valueOf options.toolChoice toolChoiceValue) = true
  headers : Masks (field input.options "headers") (valueOf options.headers headersValue)
  providerOptions :
    Masks (field input.options "providerOptions") (valueOf options.providerOptions ProviderOptions.toValue)

variable (encodeBase64 : List UInt8 → String)

theorem canonicalKeysMatch_iff (recording : Recording LanguageModelMessage) (options : CallOptions) :
    canonicalKeysMatch (canonicalRecordingKey encodeBase64 recording) (canonicalCallKey encodeBase64 options) = true ↔
      KeysAgree encodeBase64 recording.input options := by
  simp only [canonicalRecordingKey, canonicalCallKey, canonicalKeysMatch, REDACTED_FIELDS, List.all_cons,
    List.all_nil, List.lookup_cons, List.length_cons, List.length_nil]
  simp [masks_iff]
  constructor
  · rintro ⟨h1, h2, h3, h4, h5, h6, h7, h8, h9⟩
    exact ⟨h1, h2, h3, h4, h5, h6, h7, h8, h9⟩
  · rintro ⟨h1, h2, h3, h4, h5, h6, h7, h8, h9⟩
    exact ⟨h1, h2, h3, h4, h5, h6, h7, h8, h9⟩

theorem accepts_iff (matcher : ExactMatcher) (options : CallOptions) (recording : Recording LanguageModelMessage) :
    matcher.accepts encodeBase64 options recording = true ↔
      recording.input.operation = .languageModel ∧ recording.provider.provider = matcher.provider ∧
        recording.provider.modelId = matcher.modelId ∧ KeysAgree encodeBase64 recording.input options := by
  rw [ExactMatcher.accepts, Bool.and_eq_true, canonicalKeysMatch_iff]
  simp only [Bool.and_eq_true, decide_eq_true_iff, and_assoc]

theorem exactMatch_ok_iff (matcher : ExactMatcher) (options : CallOptions)
    (recordings : List (Recording LanguageModelMessage)) (recording : Recording LanguageModelMessage) :
    exactMatch encodeBase64 matcher options recordings = .ok recording ↔
      recordings.find? (matcher.accepts encodeBase64 options) = some recording := by
  rw [exactMatch]
  cases recordings.find? (matcher.accepts encodeBase64 options) with
  | none => simp
  | some found => simp

/-! ## A call against its own recording -/

mutual

/-- What redaction changes is not equal to what it was. -/
theorem redact_fixed (value : Json) (hKeyed : keyed value = true) (h : valueEq (redactJson value) value = true) :
    redactJson value = value := by
  match value with
  | .null | .bool _ | .number _ | .string _ => rfl
  | .array items =>
    rw [keyed] at hKeyed
    rw [redactJson, valueEq] at h
    rw [redactJson, redactItems_fixed items hKeyed h]
  | .object fields =>
    rw [keyed, Bool.and_eq_true, decide_eq_true_iff] at hKeyed
    rw [redactJson, valueEq, Bool.and_eq_true] at h
    rw [redactJson, redactFields_fixed fields fields hKeyed.2 (fun _ hMem => hMem) hKeyed.1 h.2]

theorem redactItems_fixed (items : List Json) (hKeyed : itemsKeyed items = true)
    (h : itemsEq (redactItems items) items = true) : redactItems items = items := by
  match items with
  | [] => rfl
  | item :: rest =>
    rw [itemsKeyed, Bool.and_eq_true] at hKeyed
    rw [redactItems, itemsEq, Bool.and_eq_true] at h
    rw [redactItems, redact_fixed item hKeyed.1 h.1, redactItems_fixed rest hKeyed.2 h.2]

theorem redactFields_fixed (fields whole : List (String × Json)) (hKeyed : fieldsKeyed fields = true)
    (hSubset : ∀ field ∈ fields, field ∈ whole) (hNodup : (whole.map (·.1)).Nodup)
    (h : fieldsEq (redactFields fields) whole = true) : redactFields fields = fields := by
  match fields with
  | [] => rfl
  | (key, value) :: rest =>
    rw [fieldsKeyed, Bool.and_eq_true] at hKeyed
    rw [redactFields, fieldsEq, Bool.and_eq_true, List.any_eq_true] at h
    obtain ⟨⟨⟨name, held⟩, hMem, hSame⟩, hRest⟩ := h
    rw [Bool.and_eq_true, beq_iff_eq] at hSame
    obtain ⟨rfl, hSame⟩ := hSame
    -- the key is there once
    have hHeld : held = value := Option.some.inj
      ((lookup_of_mem hNodup hMem).symm.trans (lookup_of_mem hNodup (hSubset _ List.mem_cons_self)))
    rw [hHeld] at hSame
    rw [redactFields, redactFields_fixed rest whole hKeyed.2
      (fun field hField => hSubset field (List.mem_cons_of_mem _ hField)) hNodup hRest]
    cases hOpen : isSensitiveKey name with
    | true =>
      rw [hOpen, if_pos rfl] at hSame
      cases value with
      | string text =>
        rw [valueEq, beq_iff_eq] at hSame
        rw [hSame]
        rfl
      | _ => cases hSame
    | false =>
      rw [hOpen, if_neg Bool.false_ne_true] at hSame
      rw [if_neg Bool.false_ne_true, redact_fixed value hKeyed.1 hSame]

end

theorem redact_fixed_iff {value : Json} (hKeyed : keyed value = true) :
    valueEq (redactJson value) value = true ↔ redactJson value = value := by
  refine ⟨redact_fixed value hKeyed, fun hFixed => ?_⟩
  rw [hFixed]
  exact valueEq_refl value

variable (settings : OperationSettings)

/-- A field that no setting of the operation has the name of. -/
theorem field_fromCallOptions (options : CallOptions) {key : String} (hOpen : isSensitiveKey key = false)
    (hOther : key ∉ settings.toFields.map (·.1)) :
    field (fromCallOptions encodeBase64 settings options).options key =
      (((options.toFields encodeBase64).lookup key).map redactJson).getD .null := by
  rw [fromCallOptions, redactJson, field, lookup_redactFields hOpen, lookup_extendFields hOther]

def COMPARED_FIELDS : List String :=
  ["temperature", "maxOutputTokens", "seed", "responseFormat", "tools", "toolChoice", "headers", "providerOptions"]

theorem compared_open : ∀ key ∈ COMPARED_FIELDS, isSensitiveKey key = false := by decide

theorem compared_other : ∀ key ∈ COMPARED_FIELDS, key ∉ settings.toFields.map (·.1) := by
  obtain ⟨maxRetries, timeout, sessionId⟩ := settings
  have hNames : (OperationSettings.toFields ⟨maxRetries, timeout, sessionId⟩).map (·.1) ⊆
      ["maxRetries", "timeout", "sessionId"] := by
    cases maxRetries <;> cases timeout <;> cases sessionId <;> simp [OperationSettings.toFields, optionalField]
  intro key hKey hMem
  have hDisjoint : ∀ key ∈ COMPARED_FIELDS, key ∉ ["maxRetries", "timeout", "sessionId"] := by decide
  exact hDisjoint key hKey (hNames hMem)

theorem own_field {α : Type} (options : CallOptions) {key : String} (hKey : key ∈ COMPARED_FIELDS) (value : Option α)
    (toValue : α → Json) (hField : (options.toFields encodeBase64).lookup key = value.map toValue) :
    field (fromCallOptions encodeBase64 settings options).options key = redactJson (valueOf value toValue) := by
  rw [field_fromCallOptions _ _ _ (compared_open key hKey) (compared_other settings key hKey), hField]
  cases value <;> rfl

/-- Redaction leaves the response format and the tools of the call as they are, and takes no null from the provider
options. -/
structure SparesCall (options : CallOptions) : Prop where
  responseFormat : redactJson (valueOf options.responseFormat responseFormatValue) =
    valueOf options.responseFormat responseFormatValue
  tools : redactJson (valueOf options.tools toolsValue) = valueOf options.tools toolsValue
  providerOptions : hidesNull (valueOf options.providerOptions ProviderOptions.toValue) = false

theorem redact_floatValue (bits : BitVec 64) : redactJson (floatValue bits) = floatValue bits := by
  unfold floatValue
  split <;> rfl

theorem redact_scalar {α : Type} {toValue : α → Json} (hScalar : ∀ a, redactJson (toValue a) = toValue a)
    (value : Option α) : redactJson (valueOf value toValue) = valueOf value toValue := by
  cases value with
  | none => rfl
  | some value => exact hScalar value

theorem redact_toolChoice (toolChoice : LanguageModelV4ToolChoice) :
    redactJson (toolChoiceValue toolChoice) = toolChoiceValue toolChoice := by
  cases toolChoice <;> rfl

theorem headers_hide_nothing (headers : Option (List (String × String))) :
    hidesNull (valueOf headers headersValue) = false := by
  cases headers with
  | none => rfl
  | some headers =>
    rw [valueOf, Option.map_some, Option.getD_some, headersValue, hidesNull]
    induction headers with
    | nil => rfl
    | cons header headers ih =>
      rw [List.map_cons, fieldsHideNull, ih, Bool.or_false]
      split <;> rfl

section

variable (encodeBase64 : List UInt8 → String) (settings : OperationSettings) (options : CallOptions)

/-- The compared fields of the call's own recording. -/
theorem own_fields :
    let input := fromCallOptions encodeBase64 settings options
    field input.options "temperature" = redactJson (valueOf options.temperature floatValue) ∧
    field input.options "maxOutputTokens" = redactJson (valueOf options.maxOutputTokens natValue) ∧
    field input.options "seed" = redactJson (valueOf options.seed natValue) ∧
    field input.options "responseFormat" = redactJson (valueOf options.responseFormat responseFormatValue) ∧
    field input.options "tools" = redactJson (valueOf options.tools toolsValue) ∧
    field input.options "toolChoice" = redactJson (valueOf options.toolChoice toolChoiceValue) ∧
    field input.options "headers" = redactJson (valueOf options.headers headersValue) ∧
    field input.options "providerOptions" =
      redactJson (valueOf options.providerOptions ProviderOptions.toValue) := by
  refine ⟨own_field _ _ _ (by decide) _ _ ?_, own_field _ _ _ (by decide) _ _ ?_, own_field _ _ _ (by decide) _ _ ?_,
    own_field _ _ _ (by decide) _ _ ?_, own_field _ _ _ (by decide) _ _ ?_, own_field _ _ _ (by decide) _ _ ?_,
    own_field _ _ _ (by decide) _ _ ?_, own_field _ _ _ (by decide) _ _ ?_⟩ <;>
  simp [CallOptions.toFields, optionsField, List.lookup_cons, List.lookup_append, lookup_optionalField]

theorem keysAgree_own_iff :
    KeysAgree encodeBase64 (fromCallOptions encodeBase64 settings options) options ↔ SparesCall options := by
  have hKeyed := options.keyed
  simp only [mapsKeyed, Bool.and_eq_true] at hKeyed
  obtain ⟨⟨⟨hFormat, hTools⟩, hHeaders⟩, hOptions⟩ := hKeyed
  obtain ⟨hTemperature, hTokens, hSeed, hFieldFormat, hFieldTools, hChoice, hFieldHeaders, hFieldOptions⟩ :=
    own_fields encodeBase64 settings options
  constructor
  · intro hAgree
    have hSameFormat := hAgree.responseFormat
    have hSameTools := hAgree.tools
    have hMasks := hAgree.providerOptions
    rw [hFieldFormat, redact_fixed_iff hFormat] at hSameFormat
    rw [hFieldTools, redact_fixed_iff hTools] at hSameTools
    rw [hFieldOptions, ← masks_iff, match_redacted _ hOptions, Bool.not_eq_true'] at hMasks
    exact ⟨hSameFormat, hSameTools, hMasks⟩
  · intro hSpares
    constructor
    · exact valueEq_refl _
    · rw [hTemperature, redact_scalar redact_floatValue]
      exact valueEq_refl _
    · rw [hTokens, redact_scalar fun _ => rfl]
      exact valueEq_refl _
    · rw [hSeed, redact_scalar fun _ => rfl]
      exact valueEq_refl _
    · rw [hFieldFormat, redact_fixed_iff hFormat]
      exact hSpares.responseFormat
    · rw [hFieldTools, redact_fixed_iff hTools]
      exact hSpares.tools
    · rw [hChoice, redact_scalar redact_toolChoice]
      exact valueEq_refl _
    · rw [hFieldHeaders, ← masks_iff, match_redacted _ hHeaders, headers_hide_nothing]
      rfl
    · rw [hFieldOptions, ← masks_iff, match_redacted _ hOptions, hSpares.providerOptions]
      rfl

end

/-- The recording of a call. -/
def ownRecording (encodeBase64 : List UInt8 → String) (matcher : ExactMatcher) (settings : OperationSettings)
    (now callId providerId : String) (options : CallOptions) : Recording LanguageModelMessage :=
  .new now callId (fromCallOptions encodeBase64 settings options)
    { providerId, provider := matcher.provider, modelId := matcher.modelId }

/-- A call matches its own recording exactly when redaction spares it, and whatever recording is matched agrees
with the call. -/
theorem exact_match_agrees (encodeBase64 : List UInt8 → String) (matcher : ExactMatcher) (options : CallOptions) :
    (∀ settings now callId providerId,
      exactMatch encodeBase64 matcher options
          [ownRecording encodeBase64 matcher settings now callId providerId options] =
        .ok (ownRecording encodeBase64 matcher settings now callId providerId options) ↔ SparesCall options) ∧
    ∀ recordings recording, exactMatch encodeBase64 matcher options recordings = .ok recording →
      recording ∈ recordings ∧ recording.input.operation = .languageModel ∧
        recording.provider.provider = matcher.provider ∧ recording.provider.modelId = matcher.modelId ∧
        KeysAgree encodeBase64 recording.input options := by
  refine ⟨fun settings now callId providerId => ?_, fun recordings recording hFound => ?_⟩
  · rw [exactMatch_ok_iff, List.find?_singleton, Option.ite_none_right_eq_some, accepts_iff,
      ← keysAgree_own_iff encodeBase64 settings]
    exact ⟨fun h => h.1.2.2.2, fun h => ⟨⟨rfl, rfl, rfl, h⟩, rfl⟩⟩
  · rw [exactMatch_ok_iff] at hFound
    exact ⟨List.mem_of_find?_eq_some hFound,
      (accepts_iff encodeBase64 matcher options recording).mp (List.find?_some hFound)⟩

def gpt : ExactMatcher := { provider := "openai.chat", modelId := "gpt-4o" }

/-- No bytes are sent. -/
def noBytes : List UInt8 → String := fun _ => ""

def plainCall : CallOptions where
  prompt := [.user [.text { text := "hi" }] none]
  headers := some [("authorization", "Bearer x")]

theorem exact_match_agrees_plain :
    exactMatch noBytes gpt plainCall [ownRecording noBytes gpt {} "now" "1" "openai" plainCall] =
      .ok (ownRecording noBytes gpt {} "now" "1" "openai" plainCall) ∧
    KeysAgree noBytes (ownRecording noBytes gpt {} "now" "1" "openai" plainCall).input plainCall := by
  have hOwn := ((exact_match_agrees noBytes gpt plainCall).1 {} "now" "1" "openai").mpr ⟨rfl, rfl, rfl⟩
  exact ⟨hOwn, ((exact_match_agrees noBytes gpt plainCall).2 _ _ hOwn).2.2.2.2⟩

/-- A tool with a parameter that has the name of a secret. -/
def keyToolCall : CallOptions where
  prompt := [.user [.text { text := "hi" }] none]
  tools := some [.function {
    name := "send"
    inputSchema := .object [("properties", .object [("api_key", .object [("type", .string "string")])])] }]

theorem key_tool_not_matched :
    exactMatch noBytes gpt keyToolCall [ownRecording noBytes gpt {} "now" "1" "openai" keyToolCall] =
      .error (.invalidArgument "mock replay: no exact matching recording" none) := rfl

end Aimux.Replay
