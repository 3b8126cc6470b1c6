import Aimux.Core.Types

/-! # Bedrock usage

`convert_usage.rs`: the token usage of a Bedrock response as a core usage. The input total is a plain sum
of `u32` counts; the counts here are those of a build that wraps.
-/

namespace Aimux.Bedrock

open Aimux.Core

structure BedrockCacheDetail where
  inputTokens : Nat
  ttl : String
  extra : List (String × Json)

structure BedrockUsage where
  inputTokens : Option Nat := none
  outputTokens : Option Nat := none
  totalTokens : Option Nat := none
  cacheReadInputTokens : Option Nat := none
  cacheWriteInputTokens : Option Nat := none
  cacheDetails : Option (List BedrockCacheDetail) := none
  extra : List (String × Json) := []
  raw : Option (List (String × Json)) := none

def countValue (count : Nat) : Json := .number (.int count)

def BedrockCacheDetail.toValue (detail : BedrockCacheDetail) : Json :=
  .object ([("inputTokens", countValue detail.inputTokens), ("ttl", .string detail.ttl)] ++ detail.extra)

/-- The usage as `serde` writes it; `raw` is skipped. -/
def BedrockUsage.toObject (usage : BedrockUsage) : List (String × Json) :=
  (usage.inputTokens.map fun count => ("inputTokens", countValue count)).toList ++
  (usage.outputTokens.map fun count => ("outputTokens", countValue count)).toList ++
  (usage.totalTokens.map fun count => ("totalTokens", countValue count)).toList ++
  (usage.cacheReadInputTokens.map fun count => ("cacheReadInputTokens", countValue count)).toList ++
  (usage.cacheWriteInputTokens.map fun count => ("cacheWriteInputTokens", countValue count)).toList ++
  (usage.cacheDetails.map fun details =>
    ("cacheDetails", Json.array (details.map BedrockCacheDetail.toValue))).toList ++
  usage.extra

def convertUsage : Option BedrockUsage → Usage
  | none => {}
  | some usage =>
    let input := usage.inputTokens.getD 0
    let output := usage.outputTokens.getD 0
    let cacheRead := usage.cacheReadInputTokens.getD 0
    let cacheWrite := usage.cacheWriteInputTokens.getD 0
    { inputTokens := {
        total := some (((input + cacheRead) % 2 ^ 32 + cacheWrite) % 2 ^ 32)
        noCache := some input
        cacheRead := some cacheRead
        cacheWrite := some cacheWrite }
      outputTokens := { total := some output, text := some output }
      raw := usage.raw.or (some usage.toObject) }

end Aimux.Bedrock
