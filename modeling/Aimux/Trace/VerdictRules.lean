import Aimux.Trace.Verdict

/-! # What the verdict says of the rules

From the rules that fired to the kind and the confidence of the verdict, and from the sums of the
accounting rules to the integers.
-/

namespace Aimux.Trace

@[simp] theorem mem_fires_iff {condition : Bool} {r rule : Rule} :
    r ∈ fires condition rule ↔ condition = true ∧ r = rule := by
  cases condition <;> simp [fires]

/-! ## Which part fires a rule -/

section

variable {inp : JudgmentInput} {r rule : Rule} {fivePercent : UInt64 → UInt64}

theorem mem_deepSeekRule (hMem : r ∈ deepSeekRule inp) : r = .r1_3 := by
  unfold deepSeekRule at hMem
  split at hMem
  · exact (mem_fires_iff.mp hMem).2
  · cases hMem

theorem mem_sumRule (hMem : r ∈ sumRule inp rule) : r = rule := by
  unfold sumRule at hMem
  split at hMem
  · exact (mem_fires_iff.mp hMem).2
  · cases hMem

theorem mem_anthropicRule (hMem : r ∈ anthropicRule inp) : r = .r1_4 := by
  unfold anthropicRule at hMem
  split at hMem
  · rcases List.mem_append.mp hMem with hSum | hFirst
    · exact mem_sumRule hSum
    · exact (mem_fires_iff.mp hFirst).2
  · cases hMem

theorem mem_bedrockRule (hMem : r ∈ bedrockRule inp) : r = .r1_5 := by
  unfold bedrockRule at hMem
  split at hMem
  · exact mem_sumRule hMem
  · cases hMem

theorem mem_quantizationRule (hMem : r ∈ quantizationRule inp) : r = .r1_6b := by
  unfold quantizationRule at hMem
  split at hMem
  · exact (mem_fires_iff.mp hMem).2
  · cases hMem

theorem mem_balanceRule (hMem : r ∈ balanceRule inp) : r = .r1_7 ∨ r = .r1_7b := by
  unfold balanceRule at hMem
  split at hMem
  · split at hMem
    · exact .inl (mem_fires_iff.mp hMem).2
    · exact .inr (List.mem_singleton.mp hMem)
    · cases hMem
  · cases hMem

theorem mem_usageRules_iff : r ∈ usageRules inp ↔
    (inp.claimed > inp.promptTokens ∧ r = .r1_1abs) ∨ r ∈ deepSeekRule inp ∨ r ∈ anthropicRule inp ∨
      r ∈ bedrockRule inp ∨ (inp.promptTokens < inp.spec.threshold ∧ inp.claimed > 0 ∧ r = .r3_3) ∨
      r ∈ quantizationRule inp ∨ r ∈ balanceRule inp ∨ (inp.first = true ∧ inp.claimed > 0 ∧ r = .r1_2) := by
  simp only [usageRules, List.mem_append, mem_fires_iff, Bool.and_eq_true, decide_eq_true_iff, and_assoc,
    or_assoc]

theorem mem_view_violated (hMem : r ∈ (viewOf fivePercent inp).violated) :
    inp.claimed ≠ 0 ∧ (r = .r1_1 ∨ r = .r1_1b ∨ r = .r1_8) := by
  have hPos : ∀ {x : UInt64}, inp.claimed > x → inp.claimed ≠ 0 := by
    intro x hLess hZero
    rw [hZero] at hLess
    exact absurd hLess (by simp)
  unfold viewOf at hMem
  split at hMem
  · simp only at hMem
    split at hMem
    · next hOver => exact ⟨hPos hOver, .inl (List.mem_singleton.mp hMem)⟩
    · split at hMem
      · next hOver => exact ⟨hPos hOver, .inr (.inl (List.mem_singleton.mp hMem))⟩
      · cases hMem
  · simp only [mem_fires_iff, Bool.and_eq_true, decide_eq_true_iff] at hMem
    exact ⟨hPos hMem.1.1.1, .inr (.inr hMem.2)⟩

theorem lowHit_claimed {lcpBytes : UInt64} (hLow : lowHit inp lcpBytes = true) : inp.claimed = 0 := by
  unfold lowHit at hLow
  rw [Bool.and_eq_true] at hLow
  have hStats := hLow.2
  split at hStats
  · simp only [Bool.and_eq_true, decide_eq_true_iff] at hStats
    exact hStats.2
  · cases hStats

theorem mem_evidence_iff : r ∈ (evidence fivePercent inp).violated ↔
    r ∈ usageRules inp ∨ r ∈ (viewOf fivePercent inp).violated ∨
      (lowHit inp (viewOf fivePercent inp).lcpBytes = true ∧ inp.routeAffinityKnown = true ∧ r = .r2_2) := by
  simp only [evidence, List.mem_append, mem_fires_iff, Bool.and_eq_true, or_assoc, and_assoc]

/-- The diagnostic and the downgradable rules exclude each other. -/
theorem no_downgradable_of_lowHit (hLow : Rule.r2_2 ∈ (evidence fivePercent inp).violated)
    (hMem : r ∈ (evidence fivePercent inp).violated) : isDowngradable r = false := by
  have hZero : inp.claimed = 0 := by
    rcases mem_evidence_iff.mp hLow with hUsage | hView | ⟨hFires, -, -⟩
    · rcases mem_usageRules_iff.mp hUsage with ⟨-, hRule⟩ | hRule | hRule | hRule | ⟨-, -, hRule⟩ | hRule |
        hRule | ⟨-, -, hRule⟩
      · cases hRule
      · cases mem_deepSeekRule hRule
      · cases mem_anthropicRule hRule
      · cases mem_bedrockRule hRule
      · cases hRule
      · cases mem_quantizationRule hRule
      · rcases mem_balanceRule hRule with hRule | hRule <;> cases hRule
      · cases hRule
    · rcases (mem_view_violated hView).2 with hRule | hRule | hRule <;> cases hRule
    · exact lowHit_claimed hFires
  rcases mem_evidence_iff.mp hMem with hUsage | hView | ⟨-, -, rfl⟩
  · rcases mem_usageRules_iff.mp hUsage with ⟨-, rfl⟩ | hRule | hRule | hRule | ⟨-, -, rfl⟩ | hRule | hRule |
      ⟨-, hClaimed, -⟩
    · rfl
    · rw [mem_deepSeekRule hRule]
      rfl
    · rw [mem_anthropicRule hRule]
      rfl
    · rw [mem_bedrockRule hRule]
      rfl
    · rfl
    · rw [mem_quantizationRule hRule]
      rfl
    · rcases mem_balanceRule hRule with rfl | rfl <;> rfl
    · rw [hZero] at hClaimed
      exact absurd hClaimed (by simp)
  · exact absurd hZero (mem_view_violated hView).1
  · rfl

end

/-! ## The cascade -/

section

variable {inp : JudgmentInput} {v : Ruling} {granularityUnknown hasW hasB : Bool}

theorem pickKind_violated : (pickKind v granularityUnknown hasW hasB).violated = v.violated := by
  unfold pickKind
  repeat' split
  all_goals rfl

theorem pickKind_overclaim_iff : (pickKind v granularityUnknown hasW hasB).kind = .suspectOverclaim ↔
    hasW = true ∨ (hasB = true ∧ .r2_2 ∉ v.violated) := by
  unfold pickKind
  cases hasW with
  | true => cases granularityUnknown <;> simp
  | false =>
    by_cases hLow : .r2_2 ∈ v.violated
    · simp [hLow]
    · cases hasB <;> cases granularityUnknown <;> simp [hLow]

theorem pickKind_high (hKind : (pickKind v granularityUnknown hasW hasB).kind = .suspectOverclaim)
    (hHigh : (pickKind v granularityUnknown hasW hasB).confidence = .high) : hasW = true := by
  rcases pickKind_overclaim_iff.mp hKind with hW | ⟨hB, hLow⟩
  · exact hW
  · cases hasW with
    | true => rfl
    | false => simp [pickKind, hB, hLow] at hHigh

/-- A W- or B-level rule that does not rest on the byte proxy. -/
def isIndependent (r : Rule) : Bool := (isWLevel r || isBLevel r) && !isByteProxyRule r

theorem capByteProxy_violated : (capByteProxy inp v granularityUnknown hasW hasB).violated = v.violated := by
  unfold capByteProxy
  split
  · rfl
  · split
    · rw [pickKind_violated]
    · exact pickKind_violated

theorem capByteProxy_independent (hProxy : inp.byteProxy = true)
    (hKind : (capByteProxy inp v granularityUnknown hasW hasB).kind = .suspectOverclaim) :
    ∃ r ∈ v.violated, isIndependent r = true := by
  by_contra hNone
  have hAny : (v.violated.any fun r => (isWLevel r || isBLevel r) && !isByteProxyRule r) = false := by
    rw [List.any_eq_false]
    intro r hMem hRule
    exact hNone ⟨r, hMem, hRule⟩
  unfold capByteProxy at hKind
  rw [hProxy, hAny] at hKind
  cases hasW <;> cases hasB <;> simp [Ruling.downgrade, pickKind_overclaim_iff] at hKind

theorem capByteProxy_high (hKind : (capByteProxy inp v granularityUnknown hasW hasB).kind = .suspectOverclaim)
    (hHigh : (capByteProxy inp v granularityUnknown hasW hasB).confidence = .high) : hasW = true := by
  unfold capByteProxy at hKind hHigh
  split at hKind
  · cases hKind
  · next hNot =>
    rw [if_neg hNot] at hHigh
    split at hKind
    · next hCap =>
      rw [if_pos hCap] at hHigh
      exact absurd (pickKind_high hKind hHigh) Bool.false_ne_true
    · next hCap =>
      rw [if_neg hCap] at hHigh
      exact pickKind_high hKind hHigh

/-- With an independent rule the byte proxy only lowers the confidence. -/
theorem capByteProxy_of_independent {r : Rule} (hMem : r ∈ v.violated) (hIndependent : isIndependent r = true)
    (hCount : hasW = true ∨ hasB = true) (hLow : .r2_2 ∈ v.violated → hasW = true ∧ .r1_1 ∉ v.violated)
    (hW : hasW = true → v.violated.any isWLevel = true) :
    (capByteProxy inp v granularityUnknown hasW hasB).kind = .suspectOverclaim := by
  have hAny : (v.violated.any fun r => (isWLevel r || isBLevel r) && !isByteProxyRule r) = true :=
    List.any_eq_true.mpr ⟨r, hMem, hIndependent⟩
  unfold capByteProxy
  rw [hAny, if_neg (by simp)]
  split
  · next hCap =>
    rw [pickKind_overclaim_iff]
    refine .inr ⟨rfl, fun hFires => ?_⟩
    simp only [Bool.and_eq_true] at hCap
    obtain ⟨rule, hRule, hLevel⟩ := List.any_eq_true.mp (hW hCap.1.1.2)
    have hOnly := List.all_eq_true.mp hCap.2 rule (List.mem_filter.mpr ⟨hRule, hLevel⟩)
    rw [beq_iff_eq] at hOnly
    exact (hLow hFires).2 (hOnly ▸ hRule)
  · rw [pickKind_overclaim_iff]
    by_cases hFires : Rule.r2_2 ∈ v.violated
    · exact .inl (hLow hFires).1
    · rcases hCount with hCount | hCount
      · exact .inl hCount
      · exact .inr ⟨hCount, hFires⟩

end

/-! ## The verdict -/

section

variable {inp : JudgmentInput} {v : Ruling} {lcpPresent granularityUnknown : Bool}

theorem classify_violated : (classify inp v lcpPresent granularityUnknown).violated = v.violated := by
  unfold classify
  split
  · split
    · exact capByteProxy_violated
    · rfl
  · exact capByteProxy_violated

theorem classify_independent (hProxy : inp.byteProxy = true)
    (hKind : (classify inp v lcpPresent granularityUnknown).kind = .suspectOverclaim) :
    ∃ r ∈ v.violated, isIndependent r = true := by
  unfold classify at hKind
  split at hKind
  · split at hKind
    · exact capByteProxy_independent hProxy hKind
    · cases hKind
  · exact capByteProxy_independent hProxy hKind

theorem classify_high (hShared : inp.strict = false)
    (hKind : (classify inp v lcpPresent granularityUnknown).kind = .suspectOverclaim)
    (hHigh : (classify inp v lcpPresent granularityUnknown).confidence = .high) :
    ∃ r ∈ v.violated, isWLevel r = true ∧ isDowngradable r = false := by
  unfold classify at hKind hHigh
  split at hKind
  · next hDowngrade =>
    rw [if_pos hDowngrade] at hHigh
    split at hKind
    · next hPresent =>
      rw [if_pos hPresent] at hHigh
      exact absurd (capByteProxy_high hKind hHigh) Bool.false_ne_true
    · cases hKind
  · next hDowngrade =>
    rw [if_neg hDowngrade] at hHigh
    have hW := capByteProxy_high hKind hHigh
    by_contra hNone
    refine hDowngrade ?_
    rw [hShared, onlyDowngradeW, hW]
    refine List.all_eq_true.mpr fun r hMem => ?_
    by_contra hRule
    rw [Bool.or_eq_true, not_or] at hRule
    exact hNone ⟨r, hMem, by simpa using hRule.1, by simpa using hRule.2⟩

/-- What masks an independent rule. -/
structure Unmasked (inp : JudgmentInput) (violated : List Rule) (lcpPresent : Bool) : Prop where
  /-- Not: shared, without a local source, and every W-level rule that fired may be another process. -/
  hSource : ¬(inp.strict = false ∧ lcpPresent = false ∧ (∃ r ∈ violated, isWLevel r = true) ∧
    ∀ r ∈ violated, isWLevel r = true → isDowngradable r = true)
  /-- Not: the low-hit diagnostic without a W-level rule. -/
  hDiagnostic : ¬(.r2_2 ∈ violated ∧ ∀ r ∈ violated, isWLevel r = false)

theorem onlyDowngradeW_iff : onlyDowngradeW v = true ↔ (∃ r ∈ v.violated, isWLevel r = true) ∧
    ∀ r ∈ v.violated, isWLevel r = true → isDowngradable r = true := by
  unfold onlyDowngradeW
  rw [Bool.and_eq_true, List.any_eq_true, List.all_eq_true]
  refine and_congr_right fun _ => forall₂_congr fun r _ => ?_
  cases isWLevel r <;> simp

theorem classify_of_independent {r : Rule} (hMem : r ∈ v.violated) (hB : isBLevel r = true)
    (hIndependent : isIndependent r = true) (hUnmasked : Unmasked inp v.violated lcpPresent)
    (hExcludes : .r2_2 ∈ v.violated → ∀ other ∈ v.violated, isDowngradable other = false) :
    (classify inp v lcpPresent granularityUnknown).kind = .suspectOverclaim := by
  have hNoLimit : .r2_2 ∈ v.violated → .r1_1 ∉ v.violated :=
    fun hLow hLimit => absurd (hExcludes hLow .r1_1 hLimit) (by decide)
  unfold classify
  split
  · next hDowngrade =>
    rw [Bool.and_eq_true, Bool.not_eq_true'] at hDowngrade
    obtain ⟨⟨w, hW, hLevel⟩, hAll⟩ := onlyDowngradeW_iff.mp hDowngrade.2
    cases lcpPresent with
    | false => exact absurd ⟨hDowngrade.1, rfl, ⟨w, hW, hLevel⟩, hAll⟩ hUnmasked.hSource
    | true =>
      refine capByteProxy_of_independent hMem hIndependent (.inr rfl) (fun hLow => ?_) nofun
      have hOther := hExcludes hLow w hW
      rw [hAll w hW hLevel] at hOther
      cases hOther
  · refine capByteProxy_of_independent hMem hIndependent (.inr (List.any_eq_true.mpr ⟨r, hMem, hB⟩))
      (fun hLow => ⟨?_, hNoLimit hLow⟩) id
    by_contra hNone
    refine hUnmasked.hDiagnostic ⟨hLow, fun w hW => ?_⟩
    rw [Bool.not_eq_true, List.any_eq_false] at hNone
    exact Bool.not_eq_true _ ▸ hNone w hW

end

theorem lcpPresent_eq (fivePercent : UInt64 → UInt64) (inp : JudgmentInput) :
    (viewOf fivePercent inp).lcpPresent = inp.lcp.isSome := by
  unfold viewOf
  split
  · next hLcp => rw [hLcp]; rfl
  · next hLcp => rw [hLcp]; rfl

/-- The byte proxy accuses nobody by itself; in shared mode an overclaim of high confidence rests on a rule
that is not downgraded; and quantization or a missing write side is an overclaim unless it is masked. -/
theorem judge_levels (fivePercent : UInt64 → UInt64) (inp : JudgmentInput) :
    (inp.byteProxy = true → (judge fivePercent inp).kind = .suspectOverclaim →
      ∃ r ∈ (judge fivePercent inp).violated, r ≠ .r1_1 ∧ r ≠ .r1_1b ∧
        (isWLevel r = true ∨ isBLevel r = true)) ∧
    (inp.strict = false → (judge fivePercent inp).kind = .suspectOverclaim →
      (judge fivePercent inp).confidence = .high →
      ∃ r ∈ (judge fivePercent inp).violated, isWLevel r = true ∧ isDowngradable r = false) ∧
    ∀ r ∈ (judge fivePercent inp).violated, r = .r1_6b ∨ r = .r1_7b →
      Unmasked inp (judge fivePercent inp).violated inp.lcp.isSome →
      (judge fivePercent inp).kind = .suspectOverclaim := by
  unfold judge
  split
  · refine ⟨nofun, nofun, fun r hMem hRule => ?_⟩
    rw [List.mem_singleton.mp hMem] at hRule
    rcases hRule with hRule | hRule <;> cases hRule
  · split
    · refine ⟨nofun, nofun, fun r hMem hRule => ?_⟩
      rw [List.mem_singleton.mp hMem] at hRule
      rcases hRule with hRule | hRule <;> cases hRule
    · simp only [classify_violated, lcpPresent_eq]
      refine ⟨fun hProxy hKind => ?_, classify_high, fun r hMem hRule hUnmasked => ?_⟩
      · obtain ⟨r, hMem, hIndependent⟩ := classify_independent hProxy hKind
        refine ⟨r, hMem, ?_⟩
        cases r <;> simp_all [isIndependent, isWLevel, isBLevel, isByteProxyRule]
      · refine classify_of_independent hMem ?_ ?_ hUnmasked fun hLow other hOther =>
          no_downgradable_of_lowHit hLow hOther
        · rcases hRule with rfl | rfl <;> rfl
        · rcases hRule with rfl | rfl <;> rfl

/-! ### Verdicts the rules alone do not explain -/

def sampleSpec : ProviderAuditSpec where
  family := .openAi
  gran := some 128
  threshold := 1024
  ttlMs := 3600000
  model56plus := false

/-- Nothing fires. -/
def quietInput : JudgmentInput where
  spec := sampleSpec
  strict := false
  first := false
  promptTokens := 2000
  promptBytes := 8000
  claimed := 0
  byteProxy := true

/-- An unquantized claim after the only candidate has expired. -/
def expiredInput : JudgmentInput := { quietInput with claimed := 100, candidateExpired := true }

/-- A 5.6+ call without a write side, after stable rounds without hits. -/
def coldInput : JudgmentInput :=
  { quietInput with
    spec := { sampleSpec with gran := none, model56plus := true }
    routeAffinityKnown := true
    sessionStats := some { sameSessionRounds := 3, prefixStable := true, lcpGt1024 := true } }

theorem verdict_beyond_rules :
    ((judge (fun _ => 0) quietInput).confidence = .high ∧ (judge (fun _ => 0) quietInput).violated = []) ∧
    (.r1_6b ∈ (judge (fun _ => 0) expiredInput).violated ∧ (judge (fun _ => 0) expiredInput).kind = .unknown) ∧
    (.r1_7b ∈ (judge (fun _ => 0) coldInput).violated ∧
      (judge (fun _ => 0) coldInput).kind = .suspectUnderclaim) := by
  decide +kernel

end Aimux.Trace
