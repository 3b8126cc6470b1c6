import Aimux.Bedrock.ConvertUsage
import Aimux.Composite.Model
import Aimux.Lib.Counters
import Aimux.OpenAi.Chunks

/-! # Sums of token usage

Four places add `u32` counts. `Usage` addition stops at the largest count; the sum of a composite model,
the total of an OpenAI-shaped usage and the input total of a Bedrock usage are plain additions, which
panic or wrap past it.
-/

namespace Aimux.Composite

open Aimux.Core Aimux.Bedrock Aimux.OpenAi Aimux.Lib.Counters

inductive TokenField where
  | inputTotal | noCache | cacheRead | cacheWrite | outputTotal | outputText | reasoning

end Aimux.Composite

namespace Aimux.Core

open Aimux.Composite

def Usage.count (usage : Usage) : TokenField → Option Nat
  | .inputTotal => usage.inputTokens.total
  | .noCache => usage.inputTokens.noCache
  | .cacheRead => usage.inputTokens.cacheRead
  | .cacheWrite => usage.inputTokens.cacheWrite
  | .outputTotal => usage.outputTokens.total
  | .outputText => usage.outputTokens.text
  | .reasoning => usage.outputTokens.reasoning

def LanguageModelUsage.count (usage : LanguageModelUsage) : TokenField → Option Nat
  | .inputTotal => usage.inputTokens
  | .noCache => usage.noCacheTokens
  | .cacheRead => usage.cacheReadTokens
  | .cacheWrite => usage.cacheWriteTokens
  | .outputTotal => usage.outputTokens
  | .outputText => usage.textTokens
  | .reasoning => usage.reasoningTokens

end Aimux.Core

namespace Aimux.Composite

open Aimux.Core Aimux.Bedrock Aimux.OpenAi Aimux.Lib.Counters

/-- The usage a child reports: its counts are of type `u32`. -/
structure ChildUsage where
  usage : Usage
  hCounts : ∀ field, (usage.count field).getD 0 < 2 ^ 32

/-! ## The sum of a composite -/

/-- The usage of the references, in the order they were added. -/
def compositeSum (usages : List ChildUsage) : Usage := (usages.map (·.usage)).foldl addUsage {}

/-- `Usage` addition folded over the same usages. -/
def usageSum (usages : List ChildUsage) : LanguageModelUsage :=
  (usages.map (·.usage)).foldl (fun sum usage => addLanguageModelUsage sum (asLanguageModelUsage usage)) {}

/-- No addition on the way overflows. -/
def SumFits : Usage → List Usage → Prop
  | _, [] => True
  | sum, usage :: usages =>
    (∀ field, Fits (2 ^ 32) (sum.count field) (usage.count field)) ∧ SumFits (addUsage sum usage) usages

theorem addUsage_count (a b : Usage) (field : TokenField) :
    (addUsage a b).count field = optAdd (a.count field) (b.count field) := by
  cases field <;> rfl

theorem optAdd_exact (a b : Option Nat) (hSum : (exactAdd a b).getD 0 < 2 ^ 32) :
    optAdd a b = exactAdd a b := by
  cases a with
  | none => cases b <;> rfl
  | some x =>
    cases b with
    | none => rfl
    | some y => exact congrArg some (Nat.mod_eq_of_lt hSum)

variable (usages : List Usage)

theorem foldl_addUsage_count (sum : Usage) (field : TokenField) :
    (usages.foldl addUsage sum).count field =
      (usages.map (·.count field)).foldl optAdd (sum.count field) := by
  induction usages generalizing sum with
  | nil => rfl
  | cons usage usages ih => rw [List.foldl_cons, ih, addUsage_count, List.map_cons, List.foldl_cons]

theorem sumFits_iff (sum : Usage) :
    SumFits sum usages ↔
      ∀ field, FoldFits (2 ^ 32) optAdd (sum.count field) (usages.map (·.count field)) := by
  induction usages generalizing sum with
  | nil => exact ⟨fun _ _ => trivial, fun _ => trivial⟩
  | cons usage usages ih =>
    simp only [SumFits, List.map_cons, FoldFits, ih, addUsage_count]
    exact ⟨fun h field => ⟨h.1 field, h.2 field⟩, fun h => ⟨fun field => (h field).1, fun field => (h field).2⟩⟩

theorem empty_count (field : TokenField) : ({} : Usage).count field = none := by
  cases field <;> rfl

/-! ## `Usage` addition -/

theorem addTokenCounts_lt {a b : Option Nat} {count : Nat} (hSum : addTokenCounts a b = some count) :
    count < 2 ^ 32 := by
  unfold addTokenCounts at hSum
  split at hSum
  · cases hSum
  · obtain rfl := Option.some.inj hSum
    omega

theorem addTokenCounts_exact (a b : Option Nat) (hSum : (exactAdd a b).getD 0 < 2 ^ 32) :
    addTokenCounts a b = exactAdd a b := by
  cases a <;> cases b <;> simp [addTokenCounts, exactAdd] at hSum ⊢ <;> omega

/-- A count that stops at the largest one. -/
def clamp (count : Option Nat) : Option Nat := count.map (min · (2 ^ 32 - 1))

theorem addTokenCounts_eq_clamp (a b : Option Nat) : addTokenCounts a b = clamp (exactAdd a b) := by
  cases a <;> cases b <;> simp [addTokenCounts, exactAdd, clamp]

theorem clamp_interchange (x y i o : Option Nat) :
    addTokenCounts (clamp (exactAdd x y)) (addTokenCounts i o) =
      clamp (exactAdd (exactAdd x i) (exactAdd y o)) := by
  cases x <;> cases y <;> cases i <;> cases o <;>
    simp [addTokenCounts, exactAdd, clamp] <;> omega

theorem addLanguageModelUsage_count (a b : LanguageModelUsage) (field : TokenField) :
    (addLanguageModelUsage a b).count field = addTokenCounts (a.count field) (b.count field) := by
  cases field <;> rfl

theorem asLanguageModelUsage_count (usage : Usage) (field : TokenField) :
    (asLanguageModelUsage usage).count field = usage.count field := by
  cases field <;> rfl

theorem foldl_usage_count (sum : LanguageModelUsage) (field : TokenField) :
    (usages.foldl (fun sum usage => addLanguageModelUsage sum (asLanguageModelUsage usage)) sum).count field =
      (usages.map (·.count field)).foldl addTokenCounts (sum.count field) := by
  induction usages generalizing sum with
  | nil => rfl
  | cons usage usages ih =>
    rw [List.foldl_cons, ih, addLanguageModelUsage_count, asLanguageModelUsage_count, List.map_cons,
      List.foldl_cons]

/-- The total is the sum of all inputs and outputs, stopped once. -/
theorem foldl_usage_total (sum : LanguageModelUsage) (x y : Option Nat)
    (hTotal : sum.totalTokens = clamp (exactAdd x y)) :
    (usages.foldl (fun sum usage => addLanguageModelUsage sum (asLanguageModelUsage usage)) sum).totalTokens =
      clamp (exactAdd ((usages.map (·.inputTokens.total)).foldl exactAdd x)
        ((usages.map (·.outputTokens.total)).foldl exactAdd y)) := by
  induction usages generalizing sum x y with
  | nil => exact hTotal
  | cons usage usages ih =>
    refine ih _ (exactAdd x usage.inputTokens.total) (exactAdd y usage.outputTokens.total) ?_
    rw [← clamp_interchange, ← hTotal]
    rfl

theorem foldl_usage_raw (sum : LanguageModelUsage) (hRaw : sum.raw = none) :
    (usages.foldl (fun sum usage => addLanguageModelUsage sum (asLanguageModelUsage usage)) sum).raw =
      none := by
  induction usages generalizing sum with
  | nil => exact hRaw
  | cons usage usages ih => exact ih _ rfl

theorem foldl_addUsage_raw (sum : Usage) (hRaw : sum.raw = none) : (usages.foldl addUsage sum).raw = none := by
  induction usages generalizing sum with
  | nil => exact hRaw
  | cons usage usages ih => exact ih _ rfl

theorem languageModelUsage_ext {a b : LanguageModelUsage} (hCount : ∀ field, a.count field = b.count field)
    (hTotal : a.totalTokens = b.totalTokens) (hRaw : a.raw = b.raw) : a = b := by
  have hInput := hCount .inputTotal
  have hNoCache := hCount .noCache
  have hRead := hCount .cacheRead
  have hWrite := hCount .cacheWrite
  have hOutput := hCount .outputTotal
  have hText := hCount .outputText
  have hReasoning := hCount .reasoning
  cases a
  cases b
  simp_all [LanguageModelUsage.count]

/-! ## All of them -/

/-- The counts of one field over the children. -/
def fieldCounts (usages : List ChildUsage) (field : TokenField) : List (Option Nat) :=
  usages.map (·.usage.count field)

/-- Where the additions are exact and agree. -/
structure AddsUp (usages : List ChildUsage) (usage : LanguageModelUsage) (bedrock : BedrockUsage) : Prop where
  hComposite : SumFits {} (usages.map (·.usage))
  hAgree : asLanguageModelUsage (compositeSum usages) = usageSum usages
  hOpenai : (usageToOpenai usage).totalTokens = usage.inputTokens.getD 0 + usage.outputTokens.getD 0
  hBedrock : (convertUsage (some bedrock)).inputTokens.total = some (bedrock.inputTokens.getD 0 +
    bedrock.cacheReadInputTokens.getD 0 + bedrock.cacheWriteInputTokens.getD 0)
  hUsage : ∀ (a b : LanguageModelUsage) (field : TokenField) (count : Nat),
    (addLanguageModelUsage a b).count field = some count → count < 2 ^ 32

theorem map_usage_count (usages : List ChildUsage) (field : TokenField) :
    (usages.map (·.usage)).map (·.count field) = fieldCounts usages field := by
  rw [List.map_map]
  rfl

theorem composite_fits_iff (usages : List ChildUsage) :
    SumFits {} (usages.map (·.usage)) ↔ ∀ field, Lib.Counters.total (fieldCounts usages field) < 2 ^ 32 := by
  rw [sumFits_iff]
  refine forall_congr' fun field => ?_
  rw [map_usage_count, empty_count, fold_fits_iff optAdd_exact _ ?_ none (by simp), Option.getD_none, Nat.zero_add]
  intro count hCount
  obtain ⟨child, -, rfl⟩ := List.mem_map.mp hCount
  exact child.hCounts field

theorem sums_agree {usages : List ChildUsage} (hSums : ∀ field, Lib.Counters.total (fieldCounts usages field) < 2 ^ 32) :
    asLanguageModelUsage (compositeSum usages) = usageSum usages := by
  have hSum (field : TokenField) : (none : Option Nat).getD 0 + Lib.Counters.total (fieldCounts usages field) < 2 ^ 32 := by
    simpa using hSums field
  have hExact (field : TokenField) :
      (compositeSum usages).count field = (fieldCounts usages field).foldl exactAdd none := by
    rw [compositeSum, foldl_addUsage_count, map_usage_count, empty_count,
      foldl_eq_exact optAdd_exact _ none (hSum field)]
  refine languageModelUsage_ext (fun field => ?_) ?_ ?_
  · rw [asLanguageModelUsage_count, hExact, usageSum, foldl_usage_count, map_usage_count,
      show ({} : LanguageModelUsage).count field = none by cases field <;> rfl,
      foldl_eq_exact addTokenCounts_exact _ none (hSum field)]
  · rw [usageSum, foldl_usage_total (usages.map (·.usage)) {} none none rfl]
    have hInput : (compositeSum usages).inputTokens.total = _ := hExact .inputTotal
    have hOutput : (compositeSum usages).outputTokens.total = _ := hExact .outputTotal
    rw [asLanguageModelUsage, hInput, hOutput, addTokenCounts_eq_clamp, List.map_map, List.map_map]
    rfl
  · rw [usageSum, foldl_usage_raw _ _ rfl]
    exact foldl_addUsage_raw _ _ rfl

theorem wrap_exact_iff (x y : Nat) : (x + y) % 2 ^ 32 = x + y ↔ x + y < 2 ^ 32 :=
  ⟨fun h => h ▸ Nat.mod_lt _ (by decide), Nat.mod_eq_of_lt⟩

theorem bedrock_exact_iff (usage : BedrockUsage) :
    (convertUsage (some usage)).inputTokens.total = some (usage.inputTokens.getD 0 +
        usage.cacheReadInputTokens.getD 0 + usage.cacheWriteInputTokens.getD 0) ↔
      usage.inputTokens.getD 0 + usage.cacheReadInputTokens.getD 0 +
        usage.cacheWriteInputTokens.getD 0 < 2 ^ 32 := by
  rw [convertUsage, Option.some_inj]
  omega

/-- Every count adds up exactly, and the composite sum agrees with `Usage` addition, exactly when no sum
of a field over the children, no OpenAI total and no Bedrock input total reaches 2^32. -/
theorem adds_up_iff (usages : List ChildUsage) (usage : LanguageModelUsage) (bedrock : BedrockUsage) :
    AddsUp usages usage bedrock ↔
      (∀ field, Lib.Counters.total (fieldCounts usages field) < 2 ^ 32) ∧
      usage.inputTokens.getD 0 + usage.outputTokens.getD 0 < 2 ^ 32 ∧
      bedrock.inputTokens.getD 0 + bedrock.cacheReadInputTokens.getD 0 +
        bedrock.cacheWriteInputTokens.getD 0 < 2 ^ 32 := by
  constructor
  · intro hAdds
    exact ⟨(composite_fits_iff usages).mp hAdds.hComposite, (wrap_exact_iff _ _).mp hAdds.hOpenai,
      (bedrock_exact_iff bedrock).mp hAdds.hBedrock⟩
  · rintro ⟨hSums, hOpenai, hBedrock⟩
    refine ⟨(composite_fits_iff usages).mpr hSums, sums_agree hSums, (wrap_exact_iff _ _).mpr hOpenai,
      (bedrock_exact_iff bedrock).mpr hBedrock, fun a b field count hCount => ?_⟩
    rw [addLanguageModelUsage_count] at hCount
    exact addTokenCounts_lt hCount

/-! ## Two children near the limit -/

def fullChild : ChildUsage where
  usage := { inputTokens := { total := some (2 ^ 32 - 1) } }
  hCounts := by rintro ⟨⟩ <;> decide

def oneMore : ChildUsage where
  usage := { inputTokens := { total := some 1 } }
  hCounts := by rintro ⟨⟩ <;> decide

theorem full_children_overflow : ¬ AddsUp [fullChild, oneMore] {} {} := by
  rintro ⟨⟨-, hSecond, -⟩, -⟩
  have hFits : 2 ^ 32 - 1 + 1 < 2 ^ 32 := hSecond .inputTotal
  exact absurd hFits (by decide)

end Aimux.Composite
