import Aimux.Lib.Utf8
import Aimux.Trace.Fingerprint

/-! # Scope keys

The trace layer keys its history by scope name and model id: the two texts are written one after the
other and hashed under the layer's salt, with nothing between them.
-/

namespace Aimux.Trace

open Aimux.Lib

/-- What a key stands for. -/
structure TraceScope where
  name : String
  modelId : String
deriving DecidableEq

namespace TraceScope

def text (scope : TraceScope) : String := scope.name ++ scope.modelId

def bytes (scope : TraceScope) : List UInt8 := utf8 scope.name ++ utf8 scope.modelId

def key (scope : TraceScope) (salt : BitVec 64) : BitVec 64 := hash64 salt scope.bytes

end TraceScope

/-- The part of the layer that the key is made of; the provider and the model id are the model's. -/
structure TraceLayer where
  provider : String
  modelId : String
  scopeSalt : BitVec 64
  scopeName : Option String

namespace TraceLayer

def new (provider modelId : String) (processId : BitVec 64) : TraceLayer where
  provider := provider
  modelId := modelId
  scopeSalt := mix (0x5eed5eed#64 ^^^ processId)
  scopeName := none

def withScopeName (self : TraceLayer) (name : String) : TraceLayer := { self with scopeName := some name }

/-- The salt of a session key of 32 bytes. -/
def withDefaultSession (self : TraceLayer) (key : Vector UInt8 32) : TraceLayer :=
  { self with
    scopeSalt := (blocks 8 key.toList).foldl (fun acc chunk => mix (acc ^^^ xorBytes 0 chunk))
      0x9e3779b97f4a7c15#64 }

def scope (self : TraceLayer) : TraceScope where
  name := self.scopeName.getD self.provider
  modelId := self.modelId

def scopeKey (self : TraceLayer) : BitVec 64 := self.scope.key self.scopeSalt

end TraceLayer

/-! ## Keys of two scopes -/

namespace TraceScope

theorem bytes_eq (scope : TraceScope) : scope.bytes = utf8 scope.text := (utf8_append _ _).symm

/-- Two different byte strings with one hash. -/
def Collides (salt : BitVec 64) (a b : List UInt8) : Prop := a ≠ b ∧ hash64 salt a = hash64 salt b

/-- Without a collision a key stands for the text of its scope, and for no more. -/
theorem key_eq_iff {salt : BitVec 64} {scope other : TraceScope} (hFree : ¬ Collides salt scope.bytes other.bytes) :
    scope.key salt = other.key salt ↔ scope.text = other.text := by
  constructor
  · intro hKey
    by_contra hText
    refine hFree ⟨fun hBytes => hText ?_, hKey⟩
    rw [bytes_eq, bytes_eq] at hBytes
    exact utf8_injective hBytes
  · intro hText
    rw [key, key, bytes_eq, bytes_eq, hText]

/-- Two different scopes have different keys exactly when name and model id, written one after the other,
give different texts. -/
theorem keys_apart_iff (salt : BitVec 64) (scope other : TraceScope)
    (hFree : ¬ Collides salt scope.bytes other.bytes) :
    (scope ≠ other → scope.key salt ≠ other.key salt) ↔
      (scope ≠ other → scope.name ++ scope.modelId ≠ other.name ++ other.modelId) :=
  imp_congr_right fun _ => not_congr (key_eq_iff hFree)

def azureScope : TraceScope := ⟨"azure", "gpt-4o"⟩

def openaiScope : TraceScope := ⟨"openai", "gpt-4o"⟩

theorem keys_apart_azure : azureScope.key 7 ≠ openaiScope.key 7 :=
  (keys_apart_iff 7 azureScope openaiScope
    (fun hCollides => absurd hCollides.2 (by decide +kernel))).mpr (fun _ => by decide) (by decide)

def shortScope : TraceScope := ⟨"proxy-a", "i-large"⟩

def longScope : TraceScope := ⟨"proxy-", "ai-large"⟩

/-- Whatever the salt, the two scopes share their key without a collision of the hash. -/
theorem shifted_scopes_share_key :
    shortScope ≠ longScope ∧ ∀ salt : BitVec 64, ¬ Collides salt shortScope.bytes longScope.bytes ∧
      shortScope.key salt = longScope.key salt := by
  have hBytes : shortScope.bytes = longScope.bytes := by decide
  refine ⟨by decide, fun salt => ⟨fun hCollides => hCollides.1 hBytes, ?_⟩⟩
  rw [key, key, hBytes]

end TraceScope

end Aimux.Trace
