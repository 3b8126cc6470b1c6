import Aimux.Core.Error

/-! # Errors of the ops layer

The variants the modelled operations construct, with their payloads. Recording errors come from a
recorder no modelled operation calls, and are left out.
-/

namespace Aimux.Ops

open Aimux.Core

inductive HandleKind where
  | provider | registry | language | embedding | image | speech | transcription | reranking | video
  | search | decision | files | operation | abort | fetch | webSocket | download
  | credentialResolver | middleware | traceStore | recorder | sessionStore | replaySession
deriving DecidableEq

inductive BindingError where
  | nullPointer (argument : String)
  | invalidUtf8 (argument : String)
  | invalidWireJson (argument message : String) (cause : Option SourceError)
  | invalidHandle (expected : List HandleKind) (actual : Option HandleKind)
  | reentrantCall
  | resultSerialization (message : String) (cause : Option SourceError)
  | callbackFailure (message : String)

inductive ProtocolError where
  | invalidOp (message : String)
  | invalidParams (message : String) (cause : Option SourceError)
  | unsupportedOpsVersion (message : String)
  | concurrentConsumer
  | invalidState (message : String)
  | resourceLimit (message : String)
  | handleExhausted

inductive OpsError where
  | aiMux (error : AiMuxError)
  | binding (error : BindingError)
  | protocol (error : ProtocolError)

def resourceLimit (message : String) : OpsError := .protocol (.resourceLimit message)

def invalidState (message : String) : OpsError := .protocol (.invalidState message)

end Aimux.Ops
