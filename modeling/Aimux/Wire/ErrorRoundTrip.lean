import Aimux.Wire.ErrorJson

/-! # Errors are read back

What is written of an error is read as the same error, at every depth of its causes. A null tool result is
written but never read, so an error that holds one is not read at all.
-/

namespace Aimux.Wire

open Aimux.Core Aimux.Prompt

/-! ## The errors inside an error -/

def causeErrors : Option ErrorCause → List AiMuxError
  | some (.aiMux error) => [error]
  | _ => []

/-- The errors an error was directly made of. -/
def children : AiMuxError → List AiMuxError
  | .apiCall _ _ _ _ _ _ _ _ _ cause _ => causeErrors cause
  | .retry _ errors => errors
  | .jsonParse _ cause => causeErrors cause
  | .noOutputGenerated _ cause => causeErrors cause
  | .invalidResponseData _ cause => causeErrors cause
  | .typeValidation _ _ cause => causeErrors cause
  | .invalidToolInput _ _ cause => causeErrors (some cause)
  | .toolCallRepair originalError cause => [originalError, cause]
  | .invalidArgument _ cause => causeErrors cause
  | .invalidPrompt _ cause => causeErrors cause
  | .other _ cause => causeErrors cause
  | _ => []

variable {child : AiMuxError} {cause : Option ErrorCause}

theorem sizeOf_causeErrors (h : child ∈ causeErrors cause) :
    sizeOf child < sizeOf cause := by
  match cause, h with
  | some (.aiMux error), h =>
    obtain rfl := List.mem_singleton.mp h
    simp only [Option.some.sizeOf_spec, ErrorCause.aiMux.sizeOf_spec]
    omega

variable {error : AiMuxError}

theorem sizeOf_children (h : child ∈ children error) : sizeOf child < sizeOf error := by
  cases error with
  | retry reason errors =>
    have hLess : sizeOf child < sizeOf errors := List.sizeOf_lt_of_mem h
    simp only [AiMuxError.retry.sizeOf_spec]
    omega
  | toolCallRepair originalError cause =>
    rcases List.mem_pair.mp h with rfl | rfl <;> simp only [AiMuxError.toolCallRepair.sizeOf_spec] <;> omega
  | invalidToolInput toolName toolInput cause =>
    have hLess := sizeOf_causeErrors h
    simp only [AiMuxError.invalidToolInput.sizeOf_spec, Option.some.sizeOf_spec] at hLess ⊢
    omega
  | _ =>
    first
    | exact absurd h List.not_mem_nil
    | have hLess := sizeOf_causeErrors h
      simp
      omega

/-- What holds of an error when it holds of those it was made of holds of every error. -/
theorem error_induction {P : AiMuxError → Prop} (step : ∀ error, (∀ child ∈ children error, P child) → P error)
    (error : AiMuxError) : P error :=
  step error fun child hChild =>
    have := sizeOf_children hChild
    error_induction step child
termination_by sizeOf error

/-- An error inside another, at any depth, or that error itself. -/
inductive Inside (inner : AiMuxError) : AiMuxError → Prop where
  | self : Inside inner inner
  | child {error child : AiMuxError} (hChild : child ∈ children error) (hInside : Inside inner child) :
      Inside inner error

/-! ## Binary data -/

section

variable (change : FileBytes → FileBytes)

mutual

/-- An error with its binary data changed. -/
def mapError : AiMuxError → AiMuxError
  | .apiCall url requestBodyValues statusCode providerCode message responseBody responseHeaders data isRetryable
      cause origin =>
    .apiCall url requestBodyValues statusCode providerCode message responseBody responseHeaders data isRetryable
      (mapCauseOption cause) origin
  | .retry reason errors => .retry reason (mapErrors errors)
  | .jsonParse message cause => .jsonParse message (mapCauseOption cause)
  | .noOutputGenerated message cause => .noOutputGenerated message (mapCauseOption cause)
  | .invalidResponseData message cause => .invalidResponseData message (mapCauseOption cause)
  | .typeValidation message value cause => .typeValidation message value (mapCauseOption cause)
  | .toolCallNotFoundForApproval toolCallId approvalId => .toolCallNotFoundForApproval toolCallId approvalId
  | .noSuchTool toolName availableTools toolInput => .noSuchTool toolName availableTools toolInput
  | .invalidToolInput toolName toolInput cause => .invalidToolInput toolName toolInput (mapCause cause)
  | .toolCallRepair originalError cause => .toolCallRepair (mapError originalError) (mapError cause)
  | .invalidArgument message cause => .invalidArgument message (mapCauseOption cause)
  | .invalidPrompt message cause => .invalidPrompt message (mapCauseOption cause)
  | .loadApiKey envVar description => .loadApiKey envVar description
  | .loadSetting envVar name => .loadSetting envVar name
  | .missingToolResults toolCallIds => .missingToolResults toolCallIds
  | .toolChoiceViolation toolChoice finishReason provider modelId content =>
    .toolChoiceViolation toolChoice finishReason provider modelId (content.map (mapContent change))
  | .tokenExpired message => .tokenExpired message
  | .unsupportedFunctionality message => .unsupportedFunctionality message
  | .noSuchModel modelId modelType => .noSuchModel modelId modelType
  | .noSuchProvider providerId modelId modelType availableProviders =>
    .noSuchProvider providerId modelId modelType availableProviders
  | .timeout message => .timeout message
  | .aborted message => .aborted message
  | .other message cause => .other message (mapCauseOption cause)

def mapErrors : List AiMuxError → List AiMuxError
  | [] => []
  | error :: rest => mapError error :: mapErrors rest

def mapCause : ErrorCause → ErrorCause
  | .aiMux error => .aiMux (mapError error)
  | .source error => .source error

def mapCauseOption : Option ErrorCause → Option ErrorCause
  | none => none
  | some cause => some (mapCause cause)

end

end

/-- The same error, where binary data is compared by its bytes. -/
def SameError (decodeBase64 : String → Option (List UInt8)) (error other : AiMuxError) : Prop :=
  ∃ change, (∀ bytes, bytesEq decodeBase64 bytes (change bytes) = true) ∧ other = mapError change error

/-! ## What the types ask for, and null results -/

/-- A status is a `u16`, and provider metadata holds objects. -/
def TypedNode : AiMuxError → Prop
  | .apiCall _ _ (some statusCode) _ _ _ _ _ _ _ _ => statusCode < 2 ^ 16
  | .toolChoiceViolation _ _ _ _ content => ∀ item ∈ content, TypedMetadata (metadataOf item)
  | _ => True

def Typed (error : AiMuxError) : Prop := ∀ inner, Inside inner error → TypedNode inner

/-- The content that a tool choice was not met with has a null tool result. -/
def HoldsNull : AiMuxError → Prop
  | .toolChoiceViolation _ _ _ _ content => ∃ item ∈ content, hasNullResult item = true
  | _ => False

/-- No tool result in it is null, at any depth. -/
def NoNullResult (error : AiMuxError) : Prop := ∀ inner, Inside inner error → ¬ HoldsNull inner

/-! ## Fields of a written error -/

theorem lookup_causeField (encodeBase64 : List UInt8 → String) (key : String) (cause : Option ErrorCause) :
    (causeField encodeBase64 cause).lookup key =
      if key = "cause" then cause.map (writeCause encodeBase64) else none := by
  cases cause with
  | none => simp [causeField]
  | some cause => by_cases hKey : key = "cause" <;> simp [causeField, List.lookup_cons, hKey, beq_false_of_ne]

theorem lookup_originField (key : String) (origin : ApiCallErrorOrigin) : (originField origin).lookup key =
      if key = "origin" ∧ origin ≠ .unknown then some (.string (writeOrigin origin)) else none := by
  by_cases hKey : key = "origin" <;> cases origin <;> simp [originField, List.lookup_cons, hKey, beq_false_of_ne]

/-- The reading of the field `cause`, if it is there. -/
def readCauseOption : Option Json → Option (Option ErrorCause)
  | none => some none
  | some .null => some none
  | some value => match readError value with
    | some error => some (some (.aiMux error))
    | none => (readSource value).map fun error => some (.source error)

/-- A reader that stops at the first field of its name reads what is looked up there. -/
theorem read_eq_lookup {β : Type} {read : List (String × Json) → β} {f : Option Json → β} {name : String}
    (hNil : read [] = f none) (hHere : ∀ value fields, read ((name, value) :: fields) = f (some value))
    (hOther : ∀ key value fields, key ≠ name → read ((key, value) :: fields) = read fields)
    (fields : List (String × Json)) : read fields = f (fields.lookup name) := by
  induction fields with
  | nil => exact hNil
  | cons field fields ih =>
    obtain ⟨key, value⟩ := field
    by_cases hKey : key = name
    · rw [hKey, hHere, List.lookup_cons, beq_self_eq_true]
    · rw [hOther key value fields hKey, ih, List.lookup_cons, beq_false_of_ne (Ne.symm hKey)]

theorem readCause_eq (fields : List (String × Json)) : readCause fields = readCauseOption (fields.lookup "cause") := by
  refine read_eq_lookup rfl (fun value _ => ?_) (fun key value _ hKey => ?_) fields
  · cases value <;> rfl
  · cases value <;> rw [readCause, if_neg hKey] <;> simp

theorem readErrorField_eq (name : String) (fields : List (String × Json)) :
    readErrorField name fields = (fields.lookup name).bind readError :=
  read_eq_lookup (f := (·.bind readError)) rfl (fun _ _ => if_pos rfl) (fun _ _ _ hKey => if_neg hKey) fields

theorem readErrors_eq (fields : List (String × Json)) :
    readErrors fields = (fields.lookup "errors").bind fun value => (asArray value).bind readErrorItems := by
  refine read_eq_lookup (f := (·.bind fun value => (asArray value).bind readErrorItems)) rfl (fun value _ => ?_) (fun key value _ hKey => ?_) fields
  · cases value <;> rfl
  · cases value <;> rw [readErrors, if_neg hKey] <;> simp

mutual

/-- A foreign error is read back. -/
theorem readSource_write (error : SourceError) : readSource (writeSource error) = some error := by
  match error with
  | .mk message cause =>
    have hCause := readSourceCause_write cause
    simp [writeSource, readSource, readSourceCause, required, asStr, hCause]

theorem readSourceCause_write (cause : Option SourceError) : readSourceCause (sourceCauseField cause) = some cause := by
  match cause with
  | none => rfl
  | some (.mk message deeper) =>
    have hRead := readSource_write (.mk message deeper)
    rw [writeSource] at hRead
    rw [sourceCauseField, writeSource, readSourceCause, if_pos rfl, hRead]
    · rfl
    · simp

end

/-- A foreign error is never taken for one of this library: it has no name. -/
theorem readError_writeSource (error : SourceError) : readError (writeSource error) = none := by
  match error with
  | .mk message none => simp [writeSource, sourceCauseField, readError, required, List.lookup_cons]
  | .mk message (some cause) => simp [writeSource, sourceCauseField, readError, required, List.lookup_cons]

variable {inner : AiMuxError}

section

variable (encodeBase64 : List UInt8 → String)

/-! ## Reading what was written -/

theorem exists_writeError (error : AiMuxError) : ∃ fields, writeError encodeBase64 error = .object fields := by
  cases error <;> exact ⟨_, rfl⟩

/-- An error is read back as itself, its binary data as base64. -/
def ReadsBack (error : AiMuxError) : Prop :=
  readError (writeError encodeBase64 error) = some (mapError (toBase64 encodeBase64) error)

variable {encodeBase64}

theorem readCauseOption_write (cause : Option ErrorCause) (ih : ∀ child ∈ causeErrors cause, ReadsBack encodeBase64 child) :
    readCauseOption (cause.map (writeCause encodeBase64)) = some (mapCauseOption (toBase64 encodeBase64) cause) := by
  match cause, ih with
  | none, _ => rfl
  | some (.source error), _ =>
    obtain ⟨message, cause⟩ := error
    have hForeign := readError_writeSource (.mk message cause)
    have hRead := readSource_write (.mk message cause)
    rw [writeSource] at hForeign hRead
    simp [writeCause, writeSource, readCauseOption, hForeign, hRead, mapCauseOption, mapCause]
  | some (.aiMux error), ih =>
    have hRead : ReadsBack encodeBase64 error := ih error (List.mem_singleton_self error)
    obtain ⟨fields, hFields⟩ := exists_writeError encodeBase64 error
    rw [ReadsBack, hFields] at hRead
    simp [writeCause, hFields, readCauseOption, hRead, mapCauseOption, mapCause]

theorem readErrorItems_write (errors : List AiMuxError) (ih : ∀ child ∈ errors, ReadsBack encodeBase64 child) :
    readErrorItems (writeErrors encodeBase64 errors) = some (mapErrors (toBase64 encodeBase64) errors) := by
  induction errors with
  | nil => rfl
  | cons error errors hRest =>
    have hFirst := ih error List.mem_cons_self
    rw [ReadsBack] at hFirst
    rw [writeErrors, readErrorItems, hFirst, hRest fun child hMem => ih child (List.mem_cons_of_mem _ hMem)]
    rfl

@[simp] theorem readOrigin_write (origin : ApiCallErrorOrigin) :
    readOrigin (.string (writeOrigin origin)) = some origin := by
  cases origin <;> rfl

@[simp] theorem readReason_write (reason : RetryErrorReason) : readReason (.string (writeReason reason)) = some reason := by
  cases reason <;> rfl

@[simp] theorem readFinish_write (reason : FinishReasonUnified) : readFinish (.string (writeFinish reason)) = some reason := by
  cases reason <;> rfl

@[simp] theorem readToolChoice_write (choice : LanguageModelV4ToolChoice) :
    readToolChoice (writeToolChoice choice) = some choice := by
  cases choice <;> rfl

@[simp] theorem readOptional_strings (items : Option (List String)) :
    readOptional (readList asStr) (items.map writeStrings) = some items := by
  cases items with
  | none => rfl
  | some items =>
    have hRead := readList_strings items
    simp [writeStrings, readOptional, hRead]

@[simp] theorem readOptional_headers (headers : Option Headers) :
    readOptional readHeaders (headers.map writeHeaders) = some headers := by
  cases headers with
  | none => rfl
  | some headers =>
    have hRead := mapM_map_eq_some (fun header : String × String => (header.1, Json.string header.2))
      (fun field => (asStr field.2).map fun value => (field.1, value)) id headers fun _ _ => rfl
    rw [List.map_id] at hRead
    exact congrArg (Option.map some) hRead

theorem readOptional_status {statusCode : Option Nat} (hBound : ∀ status, statusCode = some status → status < 2 ^ 16) :
    readOptional readStatus (statusCode.map fun status : Nat => .number (.int status)) = some statusCode := by
  cases statusCode with
  | none => rfl
  | some status =>
    have hStatus := hBound status rfl
    simpa [readOptional, readStatus] using hStatus

variable (encodeBase64) in
theorem readList_contents {content : List GenerateContent} (hTyped : ∀ item ∈ content, TypedMetadata (metadataOf item))
    (hNull : ¬ ∃ item ∈ content, hasNullResult item = true) :
    readList readContent (.array (content.map (writeContent encodeBase64))) =
      some (content.map (mapContent (toBase64 encodeBase64))) := by
  refine mapM_map_eq_some _ _ _ _ fun item hMem => ?_
  rw [readContent_write encodeBase64 (hTyped item hMem), if_neg]
  exact fun hHolds => hNull ⟨item, hMem, hHolds⟩

theorem readsBack_apiCall {url message : String} {requestBodyValues : Json} {statusCode : Option Nat}
    {providerCode responseBody : Option String} {responseHeaders : Option Headers} {data : Option Json}
    {isRetryable : Bool} {origin : ApiCallErrorOrigin} (hTyped : ∀ status, statusCode = some status → status < 2 ^ 16)
    (ih : ∀ child ∈ causeErrors cause, ReadsBack encodeBase64 child) :
    ReadsBack encodeBase64 (.apiCall url requestBodyValues statusCode providerCode message responseBody responseHeaders
      data isRetryable cause origin) := by
  have hCause := readCauseOption_write _ ih
  have hStatus := readOptional_status hTyped
  rw [ReadsBack]
  by_cases hOrigin : origin = .unknown
  · simp [writeError, named, readError, readApiCall, required, optional, List.lookup_cons, List.lookup_append, asStr, asBool,
      lookup_optionalField, readCause_eq, lookup_causeField, lookup_originField, hCause, hStatus, mapError, hOrigin]
  · simp [writeError, named, readError, readApiCall, required, optional, List.lookup_cons, List.lookup_append, asStr, asBool,
      lookup_optionalField, readCause_eq, lookup_causeField, lookup_originField, hCause, hStatus, mapError, hOrigin]

/-- An error whose parts are read back is read back. -/
theorem readsBack_step (hTyped : TypedNode error) (hNull : ¬ HoldsNull error)
    (ih : ∀ child ∈ children error, ReadsBack encodeBase64 child) : ReadsBack encodeBase64 error := by
  cases error with
  | apiCall url requestBodyValues statusCode =>
    refine readsBack_apiCall (fun status hStatus => ?_) ih
    rw [hStatus] at hTyped
    exact hTyped
  | retry reason errors =>
    have hErrors := readErrorItems_write errors ih
    simp [ReadsBack, writeError, named, readError, required, List.lookup_cons, asStr, asArray, readErrors_eq, hErrors, mapError]
  | invalidToolInput toolName toolInput cause =>
    have hCause := readCauseOption_write (some cause) ih
    rw [Option.map_some] at hCause
    simp [ReadsBack, writeError, named, readError, required, List.lookup_cons, asStr, readCause_eq, hCause, mapError,
      mapCauseOption]
  | toolCallRepair originalError cause =>
    have hOriginal : ReadsBack encodeBase64 originalError := ih originalError (by simp [children])
    have hCause : ReadsBack encodeBase64 cause := ih cause (by simp [children])
    rw [ReadsBack] at hOriginal hCause
    simp [ReadsBack, writeError, named, readError, required, List.lookup_cons, asStr, readErrorField_eq, hOriginal, hCause,
      mapError]
  | toolChoiceViolation toolChoice finishReason provider modelId content =>
    have hContent := readList_contents encodeBase64 hTyped hNull
    simp [ReadsBack, writeError, named, readError, readToolChoiceViolation, required, List.lookup_cons, asStr, hContent,
      mapError]
  | noSuchTool toolName availableTools toolInput =>
    simp [ReadsBack, writeError, named, readError, readNoSuchTool, required, optional, List.lookup_cons, List.lookup_append,
      lookup_optionalField, asStr, mapError]
  | noSuchModel modelId modelType =>
    simp [ReadsBack, writeError, named, readError, readNoSuchModel, required, List.lookup_cons, asStr, mapError]
  | noSuchProvider providerId modelId modelType availableProviders =>
    simp [ReadsBack, writeError, named, readError, readNoSuchProvider, writeStrings, required, List.lookup_cons, asStr, mapError]
  | missingToolResults toolCallIds =>
    simp [ReadsBack, writeError, named, readError, writeStrings, required, List.lookup_cons, asStr, mapError]
  | typeValidation message _ cause | jsonParse message cause | noOutputGenerated message cause
  | invalidResponseData message cause | invalidArgument message cause | invalidPrompt message cause
  | other message cause =>
    have hCause := readCauseOption_write cause ih
    simp [ReadsBack, writeError, named, readError, required, List.lookup_cons, asStr, readCause_eq, lookup_causeField, hCause,
      mapError]
  | toolCallNotFoundForApproval toolCallId approvalId | loadApiKey envVar description | loadSetting envVar name
  | tokenExpired message | unsupportedFunctionality message | timeout message | aborted message =>
    simp [ReadsBack, writeError, named, readError, required, List.lookup_cons, asStr, mapError]

theorem inside_child {P : AiMuxError → Prop} (h : ∀ inner, Inside inner error → P inner)
    (hChild : child ∈ children error) (inner : AiMuxError) (hInside : Inside inner child) : P inner :=
  h inner (.child hChild hInside)

theorem readsBack (hTyped : Typed error) (hNull : NoNullResult error) :
    ReadsBack encodeBase64 error := by
  induction error using error_induction with
  | step error ih =>
    refine readsBack_step (hTyped error .self) (hNull error .self) fun child hChild => ?_
    exact ih child hChild (inside_child hTyped hChild) (inside_child hNull hChild)

/-! ## Null results -/

/-- Nothing reads what is written of an error, not as a foreign error either. -/
def Unread (encodeBase64 : List UInt8 → String) (error : AiMuxError) : Prop :=
  readError (writeError encodeBase64 error) = none ∧ readSource (writeError encodeBase64 error) = none

def readSourceOption : Option Json → Option (Option SourceError)
  | none => some none
  | some .null => some none
  | some value => (readSource value).map some

theorem readSourceCause_eq (fields : List (String × Json)) :
    readSourceCause fields = readSourceOption (fields.lookup "cause") := by
  refine read_eq_lookup rfl (fun value _ => ?_) (fun key value _ hKey => ?_) fields
  · cases value <;> rfl
  · cases value <;> rw [readSourceCause, if_neg hKey] <;> simp

theorem eq_of_mem_causeErrors (h : child ∈ causeErrors cause) :
    cause = some (.aiMux child) := by
  match cause, h with
  | some (.aiMux error), h => rw [List.mem_singleton.mp h]

theorem readCauseOption_unread (h : Unread encodeBase64 child) :
    readCauseOption (some (writeError encodeBase64 child)) = none := by
  obtain ⟨fields, hFields⟩ := exists_writeError encodeBase64 child
  rw [Unread, hFields] at h
  simp [hFields, readCauseOption, h.1, h.2]

theorem readSourceOption_unread (h : Unread encodeBase64 child) :
    readSourceOption (some (writeError encodeBase64 child)) = none := by
  obtain ⟨fields, hFields⟩ := exists_writeError encodeBase64 child
  rw [Unread, hFields] at h
  simp [hFields, readSourceOption, h.2]

theorem readErrorItems_unread (errors : List AiMuxError) (hMem : child ∈ errors) (h : Unread encodeBase64 child) :
    readErrorItems (writeErrors encodeBase64 errors) = none := by
  induction errors with
  | nil => cases hMem
  | cons error errors ih =>
    rw [writeErrors, readErrorItems]
    rcases List.mem_cons.mp hMem with rfl | hMem
    · rw [h.1]
      rfl
    · rw [ih hMem]
      cases readError (writeError encodeBase64 error) <;> rfl

/-- An error whose own result is null is not read. -/
theorem unread_of_holdsNull (hTyped : TypedNode error) (hNull : HoldsNull error) :
    Unread encodeBase64 error := by
  cases error with
  | toolChoiceViolation toolChoice finishReason provider modelId content =>
    obtain ⟨item, hMem, hHolds⟩ := hNull
    have hItem := readContent_write encodeBase64 (hTyped item hMem)
    rw [if_pos hHolds] at hItem
    have hContent : readList readContent (.array (content.map (writeContent encodeBase64))) = none :=
      mapM_eq_none (List.mem_map_of_mem hMem) hItem
    constructor
    · simp [writeError, named, readError, readToolChoiceViolation, required, List.lookup_cons, asStr, hContent]
    · simp [writeError, named, readSource, required, List.lookup_cons]
  | _ => exact absurd hNull id

/-- An error made of one that is not read is not read. -/
theorem unread_of_child (hMem : child ∈ children error) (h : Unread encodeBase64 child) :
    Unread encodeBase64 error := by
  have hCause := readCauseOption_unread h
  have hSource := readSourceOption_unread h
  cases error with
  | apiCall url requestBodyValues statusCode providerCode message responseBody responseHeaders data isRetryable cause origin =>
    obtain rfl := eq_of_mem_causeErrors hMem
    constructor
    · simp [writeError, named, readError, required, List.lookup_cons, List.lookup_append, asStr, lookup_optionalField,
        readCause_eq, lookup_causeField, writeCause, hCause]
    · simp [writeError, named, readSource, required, List.lookup_cons, List.lookup_append, asStr, lookup_optionalField,
        readSourceCause_eq, lookup_causeField, writeCause, hSource]
  | retry reason errors =>
    have hErrors := readErrorItems_unread errors hMem h
    constructor
    · simp [writeError, named, readError, required, List.lookup_cons, asStr, asArray, readErrors_eq, hErrors]
    · simp [writeError, named, readSource, required, List.lookup_cons]
  | invalidToolInput toolName toolInput cause =>
    obtain rfl := Option.some.inj (eq_of_mem_causeErrors hMem)
    constructor
    · simp [writeError, named, readError, required, List.lookup_cons, asStr, readCause_eq, writeCause, hCause]
    · simp [writeError, named, readSource, required, List.lookup_cons]
  | toolCallRepair originalError cause =>
    constructor
    · rcases List.mem_pair.mp hMem with rfl | rfl
      · simp [writeError, named, readError, required, List.lookup_cons, asStr, readErrorField_eq, h.1]
      · simp [writeError, named, readError, required, List.lookup_cons, asStr, readErrorField_eq, h.1]
    · simp [writeError, named, readSource, required, List.lookup_cons]
  | typeValidation message _ cause | jsonParse message cause | noOutputGenerated message cause
  | invalidResponseData message cause | invalidArgument message cause | invalidPrompt message cause
  | other message cause =>
    obtain rfl := eq_of_mem_causeErrors hMem
    constructor
    · simp [writeError, named, readError, required, List.lookup_cons, asStr, readCause_eq, lookup_causeField, writeCause, hCause]
    · simp [writeError, named, readSource, required, List.lookup_cons, asStr, readSourceCause_eq, lookup_causeField, writeCause,
        hSource]
  | _ => cases hMem

theorem unread (hTyped : Typed error) (hInside : Inside inner error) (hNull : HoldsNull inner) :
    Unread encodeBase64 error := by
  induction hInside with
  | self => exact unread_of_holdsNull (hTyped inner .self) hNull
  | child hChild _ ih => exact unread_of_child hChild (ih (inside_child hTyped hChild))

end

/-! ## The round trip -/

theorem bytesEq_toBase64 {encodeBase64 : List UInt8 → String} {decodeBase64 : String → Option (List UInt8)}
    (hBase64 : ∀ bytes, decodeBase64 (encodeBase64 bytes) = some bytes) (bytes : FileBytes) :
    bytesEq decodeBase64 bytes (toBase64 encodeBase64 bytes) = true := by
  cases bytes with
  | binary bytes => simp [toBase64, bytesEq, hBase64]
  | base64 text => simp [toBase64, bytesEq]

/-- An error is read back as the same error, causes of either kind and all, unless a tool result inside it is
null; then it is not read at all. -/
theorem error_json_round_trip (encodeBase64 : List UInt8 → String) (decodeBase64 : String → Option (List UInt8))
    (hBase64 : ∀ bytes, decodeBase64 (encodeBase64 bytes) = some bytes) (error : AiMuxError) (hTyped : Typed error) :
    (NoNullResult error → ∃ back, readError (writeError encodeBase64 error) = some back ∧
      SameError decodeBase64 error back) ∧
    (¬ NoNullResult error → readError (writeError encodeBase64 error) = none) := by
  constructor
  · intro hNull
    exact ⟨_, readsBack hTyped hNull, toBase64 encodeBase64, bytesEq_toBase64 hBase64, rfl⟩
  · intro hNull
    rw [NoNullResult] at hNull
    push Not at hNull
    obtain ⟨inner, hInside, hHolds⟩ := hNull
    exact (unread hTyped hInside hHolds).1

/-- The base64 of one value, and a code of every other. -/
def sampleEncode (bytes : List UInt8) : String :=
  if bytes = [0, 1, 2, 250, 255] then "AAEC+v8=" else String.ofList ('#' :: bytes.map fun byte => Char.ofNat byte.toNat)

def sampleDecode (text : String) : Option (List UInt8) :=
  if text = "AAEC+v8=" then some [0, 1, 2, 250, 255]
  else match text.toList with
    | '#' :: codes => some (codes.map fun c => UInt8.ofNat c.toNat)
    | _ => none

theorem sampleDecode_encode (bytes : List UInt8) : sampleDecode (sampleEncode bytes) = some bytes := by
  rw [sampleEncode]
  split
  · rename_i hBytes
    rw [hBytes]
    rfl
  · have hOther : String.ofList ('#' :: bytes.map fun byte => Char.ofNat byte.toNat) ≠ "AAEC+v8=" := by
      intro hSame
      have hChars := congrArg String.toList hSame
      rw [String.toList_ofList] at hChars
      exact absurd (List.cons.inj hChars).1 (by decide)
    have hCode (byte : UInt8) : UInt8.ofNat (Char.ofNat byte.toNat).toNat = byte := by
      have hValid : byte.toNat.isValidChar := .inl (lt_trans byte.toNat_lt (by decide))
      rw [Char.toNat_ofNat, if_pos hValid, UInt8.ofNat_toNat]
    rw [sampleDecode, if_neg hOther, String.toList_ofList]
    simp [hCode, Function.comp_def]

def violationWith (content : List GenerateContent) : AiMuxError :=
  .toolChoiceViolation .required .stop "p" "m" content

/-- An image as bytes, in the cause of an error. -/
def imageCause : AiMuxError :=
  .jsonParse "not JSON" (some (.aiMux (violationWith
    [.file { data := .data (.binary [0, 1, 2, 250, 255]), mediaType := "image/png" }])))

theorem inside_violation {content : List GenerateContent} (h : Inside inner (violationWith content)) :
    inner = violationWith content := by
  cases h with
  | self => rfl
  | child hChild => cases hChild

theorem inside_imageCause (h : Inside inner imageCause) :
    inner = imageCause ∨ inner = violationWith
      [.file { data := .data (.binary [0, 1, 2, 250, 255]), mediaType := "image/png" }] := by
  cases h with
  | self => exact .inl rfl
  | child hChild hInside =>
    rw [List.mem_singleton.mp hChild] at hInside
    exact .inr (inside_violation hInside)

theorem error_json_round_trip_image : ∃ back, readError (writeError sampleEncode imageCause) = some back ∧
    SameError sampleDecode imageCause back := by
  have hTyped : Typed imageCause := by
    intro inner hInside
    rcases inside_imageCause hInside with rfl | rfl
    · trivial
    · intro item hItem held hHeld
      obtain rfl := List.mem_singleton.mp hItem
      cases hHeld
  have hNull : NoNullResult imageCause := by
    intro inner hInside hHolds
    rcases inside_imageCause hInside with rfl | rfl
    · exact hHolds
    · obtain ⟨item, hItem, hNull⟩ := hHolds
      obtain rfl := List.mem_singleton.mp hItem
      cases hNull
  exact (error_json_round_trip sampleEncode sampleDecode sampleDecode_encode imageCause hTyped).1 hNull

/-- A result that is null is written and not read. -/
theorem null_result_not_read :
    Typed (violationWith [.toolResult { toolCallId := "a", toolName := "search", result := .null }]) ∧
    readError (writeError sampleEncode
      (violationWith [.toolResult { toolCallId := "a", toolName := "search", result := .null }])) = none := by
  refine ⟨fun inner hInside => ?_, rfl⟩
  obtain rfl := inside_violation hInside
  intro item hItem held hHeld
  obtain rfl := List.mem_singleton.mp hItem
  cases hHeld

end Aimux.Wire
