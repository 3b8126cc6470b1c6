import Aimux.Core.Types

/-! # The error type of the core

Every variant of `AiMuxError` with its payload. A cause is either another `AiMuxError` or the
message chain of an error from outside.
-/

namespace Aimux.Core

inductive ApiCallErrorOrigin where
  | transport | httpResponse | streamEvent | localOrigin | unknown
deriving DecidableEq

inductive RetryErrorReason where
  | maxRetriesExceeded | errorNotRetryable
deriving DecidableEq

inductive SourceError where
  | mk (message : String) (cause : Option SourceError)

mutual

inductive AiMuxError where
  | apiCall (url : String) (requestBodyValues : Json) (statusCode : Option Nat)
      (providerCode : Option String) (message : String) (responseBody : Option String)
      (responseHeaders : Option Headers) (data : Option Json) (isRetryable : Bool)
      (cause : Option ErrorCause) (origin : ApiCallErrorOrigin)
  | retry (reason : RetryErrorReason) (errors : List AiMuxError)
  | jsonParse (message : String) (cause : Option ErrorCause)
  | noOutputGenerated (message : String) (cause : Option ErrorCause)
  | invalidResponseData (message : String) (cause : Option ErrorCause)
  | typeValidation (message : String) (value : Json) (cause : Option ErrorCause)
  | toolCallNotFoundForApproval (toolCallId approvalId : String)
  | noSuchTool (toolName : String) (availableTools : Option (List String))
      (toolInput : Option String)
  | invalidToolInput (toolName toolInput : String) (cause : ErrorCause)
  | toolCallRepair (originalError cause : AiMuxError)
  | invalidArgument (message : String) (cause : Option ErrorCause)
  | invalidPrompt (message : String) (cause : Option ErrorCause)
  | loadApiKey (envVar description : String)
  | loadSetting (envVar name : String)
  | missingToolResults (toolCallIds : List String)
  | toolChoiceViolation (toolChoice : LanguageModelV4ToolChoice)
      (finishReason : FinishReasonUnified) (provider modelId : String)
      (content : List GenerateContent)
  | tokenExpired (message : String)
  | unsupportedFunctionality (message : String)
  | noSuchModel (modelId modelType : String)
  | noSuchProvider (providerId modelId modelType : String) (availableProviders : List String)
  | timeout (message : String)
  | aborted (message : String)
  | other (message : String) (cause : Option ErrorCause)

inductive ErrorCause where
  | aiMux (error : AiMuxError)
  | source (error : SourceError)

end

/-- A malformed frame does not prove that the transport is dead: readers may report it and poll
on. Every other error ends the stream. -/
def AiMuxError.isRecoverableStreamError : AiMuxError → Bool
  | .jsonParse .. => true
  | .invalidResponseData .. => true
  | _ => false

def AiMuxError.isRetryable : AiMuxError → Bool
  | .apiCall _ _ _ _ _ _ _ _ retryable _ _ => retryable
  | _ => false

end Aimux.Core
