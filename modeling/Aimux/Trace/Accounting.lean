import Aimux.Trace.VerdictRules

/-! # The accounting rules over the integers

The sums of the accounting rules are taken in 64-bit words after casts to signed ones. Within bounds of
the counts no cast and no sum leaves its range, and the rules fire as the integers say.
-/

namespace Aimux.Trace

/-! ## Signed words -/

def CastExact (x : UInt64) : Prop := x.toInt64.toInt = x.toNat
def AddExact (x y : Int64) : Prop := (x + y).toInt = x.toInt + y.toInt
def SubExact (x y : Int64) : Prop := (x - y).toInt = x.toInt - y.toInt
def AbsExact (x : Int64) : Prop := x.abs.toInt = |x.toInt|

theorem toInt_toInt64 (x : UInt64) : x.toInt64.toInt = (x.toNat : Int).bmod (2 ^ 64) := by
  show x.toBitVec.toInt = _
  rw [BitVec.toInt_eq_toNat_bmod]
  rfl

theorem castExact_iff (x : UInt64) : CastExact x ↔ x.toNat < 2 ^ 63 := by
  have hBound := x.toNat_lt
  unfold CastExact
  rw [toInt_toInt64, Int.bmod_def]
  split <;> omega

theorem addExact_iff (x y : Int64) : AddExact x y ↔ -2 ^ 63 ≤ x.toInt + y.toInt ∧ x.toInt + y.toInt < 2 ^ 63 := by
  have hx := Int64.toInt_lt x
  have hx' := Int64.le_toInt x
  have hy := Int64.toInt_lt y
  have hy' := Int64.le_toInt y
  unfold AddExact
  rw [Int64.toInt_add, Int.bmod_def]
  split <;> omega

theorem subExact_of_bounds {x y : Int64} (hLow : -2 ^ 63 ≤ x.toInt - y.toInt)
    (hHigh : x.toInt - y.toInt < 2 ^ 63) : SubExact x y := by
  unfold SubExact
  rw [Int64.toInt_sub, Int.bmod_def]
  split <;> omega

theorem absExact_of_bounds {x : Int64} (hLow : -2 ^ 63 < x.toInt) : AbsExact x := by
  have hMin : x.toBitVec ≠ BitVec.intMin 64 := by
    intro hSame
    have hInt : x.toInt = (BitVec.intMin 64).toInt := congrArg BitVec.toInt hSame
    rw [show (BitVec.intMin 64).toInt = -2 ^ 63 from by decide] at hInt
    omega
  unfold AbsExact
  rw [show x.abs.toInt = x.toBitVec.abs.toInt from rfl, BitVec.toInt_abs_eq_natAbs_of_ne_intMin hMin,
    Int.abs_eq_natAbs]
  rfl

/-- The last steps of a sum rule: the total is taken off a sum and the distance compared. -/
structure DistanceExact (sum : Int64) (total : UInt64) : Prop where
  hTotal : CastExact total
  hSub : SubExact sum total.toInt64
  hAbs : AbsExact (sum - total.toInt64)

theorem distanceExact_of_bounds {sum : Int64} {total : UInt64} (hSum : 0 ≤ sum.toInt)
    (hTotal : total.toNat < 2 ^ 63) : DistanceExact sum total := by
  have hCast : total.toInt64.toInt = total.toNat := (castExact_iff total).mpr hTotal
  have hBound := Int64.toInt_lt sum
  have hSub : SubExact sum total.toInt64 := subExact_of_bounds (by omega) (by omega)
  refine ⟨hCast, hSub, absExact_of_bounds ?_⟩
  rw [hSub, hCast]
  omega

theorem distance_iff {sum : Int64} {total : UInt64} (hExact : DistanceExact sum total) :
    decide ((sum - total.toInt64).abs > 1) = true ↔ 1 < |sum.toInt - total.toNat| := by
  have hAbs : (sum - total.toInt64).abs.toInt = |sum.toInt - total.toNat| := by
    rw [hExact.hAbs, hExact.hSub, hExact.hTotal]
  rw [decide_eq_true_iff, gt_iff_lt, Int64.lt_iff_toInt_lt, hAbs]
  rfl

/-- No cast and no sum of `(h as i64 + m as i64 - prompt as i64).abs()` leaves its range. -/
structure PairExact (h m prompt : UInt64) : Prop where
  hFirst : CastExact h
  hSecond : CastExact m
  hAdd : AddExact h.toInt64 m.toInt64
  hDistance : DistanceExact (h.toInt64 + m.toInt64) prompt

structure TripleExact (nc rd wr total : UInt64) : Prop where
  hFirst : CastExact nc
  hSecond : CastExact rd
  hThird : CastExact wr
  hAdd : AddExact nc.toInt64 rd.toInt64
  hAddThird : AddExact (nc.toInt64 + rd.toInt64) wr.toInt64
  hDistance : DistanceExact (nc.toInt64 + rd.toInt64 + wr.toInt64) total

/-- The words of `claimed + w + nc`. -/
structure BalanceExact (claimed w nc : UInt64) : Prop where
  hAdd : (claimed + w).toNat = claimed.toNat + w.toNat
  hAddThird : (claimed + w + nc).toNat = (claimed + w).toNat + nc.toNat

theorem pairExact_iff (h m prompt : UInt64) :
    PairExact h m prompt ↔ h.toNat + m.toNat < 2 ^ 63 ∧ prompt.toNat < 2 ^ 63 := by
  constructor
  · rintro ⟨hFirst, hSecond, hAdd, hDistance⟩
    have hSum := (addExact_iff _ _).mp hAdd
    rw [hFirst, hSecond] at hSum
    exact ⟨by omega, (castExact_iff prompt).mp hDistance.hTotal⟩
  · rintro ⟨hSum, hPrompt⟩
    have hFirst : CastExact h := (castExact_iff h).mpr (by omega)
    have hSecond : CastExact m := (castExact_iff m).mpr (by omega)
    have hAdd : AddExact h.toInt64 m.toInt64 := by
      rw [addExact_iff, hFirst, hSecond]
      omega
    refine ⟨hFirst, hSecond, hAdd, distanceExact_of_bounds ?_ hPrompt⟩
    rw [hAdd, hFirst, hSecond]
    omega

theorem tripleExact_iff (nc rd wr total : UInt64) :
    TripleExact nc rd wr total ↔ nc.toNat + rd.toNat + wr.toNat < 2 ^ 63 ∧ total.toNat < 2 ^ 63 := by
  constructor
  · rintro ⟨hFirst, hSecond, hThird, hAdd, hAddThird, hDistance⟩
    have hSum := (addExact_iff _ _).mp hAddThird
    rw [hAdd, hFirst, hSecond, hThird] at hSum
    exact ⟨by omega, (castExact_iff total).mp hDistance.hTotal⟩
  · rintro ⟨hSum, hTotal⟩
    have hFirst : CastExact nc := (castExact_iff nc).mpr (by omega)
    have hSecond : CastExact rd := (castExact_iff rd).mpr (by omega)
    have hThird : CastExact wr := (castExact_iff wr).mpr (by omega)
    have hAdd : AddExact nc.toInt64 rd.toInt64 := by
      rw [addExact_iff, hFirst, hSecond]
      omega
    have hAddThird : AddExact (nc.toInt64 + rd.toInt64) wr.toInt64 := by
      rw [addExact_iff, hAdd, hFirst, hSecond, hThird]
      omega
    refine ⟨hFirst, hSecond, hThird, hAdd, hAddThird, distanceExact_of_bounds ?_ hTotal⟩
    rw [hAddThird, hAdd, hFirst, hSecond, hThird]
    omega

theorem balanceExact_iff (claimed w nc : UInt64) :
    BalanceExact claimed w nc ↔ claimed.toNat + w.toNat + nc.toNat < 2 ^ 64 := by
  constructor
  · rintro ⟨hAdd, hAddThird⟩
    have hBound := (claimed + w + nc).toNat_lt
    omega
  · intro hSum
    have hAdd : (claimed + w).toNat = claimed.toNat + w.toNat := by
      rw [UInt64.toNat_add, Nat.mod_eq_of_lt (by omega)]
    refine ⟨hAdd, ?_⟩
    rw [UInt64.toNat_add, Nat.mod_eq_of_lt (by omega)]

theorem pairOff_iff {h m prompt : UInt64} (hExact : PairExact h m prompt) :
    pairOff h m prompt = true ↔ 1 < |(h.toNat : Int) + m.toNat - prompt.toNat| := by
  rw [pairOff, distance_iff hExact.hDistance, hExact.hAdd, hExact.hFirst, hExact.hSecond]

theorem tripleOff_iff {nc rd wr total : UInt64} (hExact : TripleExact nc rd wr total) :
    tripleOff nc rd wr total = true ↔ 1 < |(nc.toNat : Int) + rd.toNat + wr.toNat - total.toNat| := by
  rw [tripleOff, distance_iff hExact.hDistance, hExact.hAddThird, hExact.hAdd, hExact.hFirst, hExact.hSecond,
    hExact.hThird]

/-! ## The accounting of a call -/

/-- `judge` comes to the rules. -/
def Audited (inp : JudgmentInput) : Prop := inp.usagePresent = true ∧ inp.responseCacheHeaderHit = false

/-- The sum a family reports, when all three parts are there. -/
def SumOff (inp : JudgmentInput) : Prop :=
  ∃ nc rd wr, inp.inputNoCache = some nc ∧ inp.inputCacheRead = some rd ∧ inp.inputCacheWrite = some wr ∧
    1 < |(nc.toNat : Int) + rd.toNat + wr.toNat - inp.promptTokens.toNat|

/-- The rules fire as the integers say, and no intermediate value leaves its range. -/
structure AccountingExact (inp : JudgmentInput) (violated : List Rule) : Prop where
  hCeiling : .r1_1abs ∈ violated ↔ (inp.promptTokens.toNat : Int) < inp.claimed.toNat
  hDeepSeek : .r1_3 ∈ violated ↔ ∃ h m, inp.spec.family = .deepSeek ∧ inp.hit = some h ∧ inp.miss = some m ∧
    1 < |(h.toNat : Int) + m.toNat - inp.promptTokens.toNat|
  /-- The rule also fires for reads on a first request. -/
  hAnthropic : .r1_4 ∈ violated ↔ inp.spec.family = .anthropic ∧
    (SumOff inp ∨ (inp.first = true ∧ 0 < (inp.inputCacheRead.getD 0).toNat))
  hBedrock : .r1_5 ∈ violated ↔ inp.spec.family = .bedrock ∧ SumOff inp
  hBalance : .r1_7 ∈ violated ↔ ∃ w nc, inp.spec.model56plus = true ∧ inp.write = some w ∧
    inp.noCache = some nc ∧ (inp.claimed.toNat : Int) + w.toNat + nc.toNat ≠ inp.promptTokens.toNat
  hPairs : ∀ h m, inp.spec.family = .deepSeek → inp.hit = some h → inp.miss = some m →
    PairExact h m inp.promptTokens
  hTriples : ∀ nc rd wr, inp.spec.family = .anthropic ∨ inp.spec.family = .bedrock →
    inp.inputNoCache = some nc → inp.inputCacheRead = some rd → inp.inputCacheWrite = some wr →
    TripleExact nc rd wr inp.promptTokens
  hBalances : ∀ w nc, inp.spec.model56plus = true → inp.write = some w → inp.noCache = some nc →
    BalanceExact inp.claimed w nc

/-- The counts a rule adds stay below 2^63, those of the balance below 2^64. -/
structure CountsFit (inp : JudgmentInput) : Prop where
  hPairs : ∀ h m, inp.spec.family = .deepSeek → inp.hit = some h → inp.miss = some m →
    h.toNat + m.toNat < 2 ^ 63 ∧ inp.promptTokens.toNat < 2 ^ 63
  hTriples : ∀ nc rd wr, inp.spec.family = .anthropic ∨ inp.spec.family = .bedrock →
    inp.inputNoCache = some nc → inp.inputCacheRead = some rd → inp.inputCacheWrite = some wr →
    nc.toNat + rd.toNat + wr.toNat < 2 ^ 63 ∧ inp.promptTokens.toNat < 2 ^ 63
  hBalances : ∀ w nc, inp.spec.model56plus = true → inp.write = some w → inp.noCache = some nc →
    inp.claimed.toNat + w.toNat + nc.toNat < 2 ^ 64

/-! ## Which sums decide a rule -/

section

variable {fivePercent : UInt64 → UInt64} {inp : JudgmentInput}

theorem mem_evidence_accounting {r : Rule} (hRule : r = .r1_1abs ∨ r = .r1_3 ∨ r = .r1_4 ∨ r = .r1_5 ∨ r = .r1_7) :
    r ∈ (evidence fivePercent inp).violated ↔
      (r = .r1_1abs ∧ inp.claimed > inp.promptTokens) ∨ (r = .r1_3 ∧ r ∈ deepSeekRule inp) ∨
        (r = .r1_4 ∧ r ∈ anthropicRule inp) ∨ (r = .r1_5 ∧ r ∈ bedrockRule inp) ∨
        (r = .r1_7 ∧ r ∈ balanceRule inp) := by
  rw [mem_evidence_iff, mem_usageRules_iff]
  constructor
  · rintro ((⟨hClaimed, rfl⟩ | hMem | hMem | hMem | ⟨-, -, rfl⟩ | hMem | hMem | ⟨-, -, rfl⟩) | hView | ⟨-, -, rfl⟩)
    · exact .inl ⟨rfl, hClaimed⟩
    · exact .inr (.inl ⟨mem_deepSeekRule hMem, hMem⟩)
    · exact .inr (.inr (.inl ⟨mem_anthropicRule hMem, hMem⟩))
    · exact .inr (.inr (.inr (.inl ⟨mem_bedrockRule hMem, hMem⟩)))
    · simp at hRule
    · rw [mem_quantizationRule hMem] at hRule
      simp at hRule
    · rcases mem_balanceRule hMem with rfl | rfl
      · exact .inr (.inr (.inr (.inr ⟨rfl, hMem⟩)))
      · simp at hRule
    · simp at hRule
    · rcases (mem_view_violated hView).2 with rfl | rfl | rfl <;> simp at hRule
    · simp at hRule
  · rintro (⟨rfl, hClaimed⟩ | ⟨-, hMem⟩ | ⟨-, hMem⟩ | ⟨-, hMem⟩ | ⟨-, hMem⟩)
    · exact .inl (.inl ⟨hClaimed, rfl⟩)
    · exact .inl (.inr (.inl hMem))
    · exact .inl (.inr (.inr (.inl hMem)))
    · exact .inl (.inr (.inr (.inr (.inl hMem))))
    · exact .inl (.inr (.inr (.inr (.inr (.inr (.inr (.inl hMem)))))))

theorem deepSeekRule_iff (hFit : CountsFit inp) : .r1_3 ∈ deepSeekRule inp ↔
    ∃ h m, inp.spec.family = .deepSeek ∧ inp.hit = some h ∧ inp.miss = some m ∧
      1 < |(h.toNat : Int) + m.toNat - inp.promptTokens.toNat| := by
  unfold deepSeekRule
  split
  · next h m hFamily hHit hMiss =>
    have hExact := (pairExact_iff h m inp.promptTokens).mpr (hFit.hPairs h m hFamily hHit hMiss)
    rw [mem_fires_iff, pairOff_iff hExact]
    constructor
    · rintro ⟨hOff, -⟩
      exact ⟨h, m, hFamily, hHit, hMiss, hOff⟩
    · rintro ⟨h', m', -, hHit', hMiss', hOff⟩
      obtain rfl := Option.some.inj (hHit.symm.trans hHit')
      obtain rfl := Option.some.inj (hMiss.symm.trans hMiss')
      exact ⟨hOff, rfl⟩
  · next hOther =>
    refine iff_of_false List.not_mem_nil ?_
    rintro ⟨h, m, hFamily, hHit, hMiss, -⟩
    exact hOther h m hFamily hHit hMiss

theorem sumRule_iff {rule : Rule} (hFit : CountsFit inp)
    (hFamily : inp.spec.family = .anthropic ∨ inp.spec.family = .bedrock) :
    rule ∈ sumRule inp rule ↔ SumOff inp := by
  unfold sumRule
  split
  · next nc rd wr hNc hRd hWr =>
    have hExact := (tripleExact_iff nc rd wr inp.promptTokens).mpr
      (hFit.hTriples nc rd wr hFamily hNc hRd hWr)
    rw [mem_fires_iff, tripleOff_iff hExact]
    constructor
    · rintro ⟨hOff, -⟩
      exact ⟨nc, rd, wr, hNc, hRd, hWr, hOff⟩
    · rintro ⟨nc', rd', wr', hNc', hRd', hWr', hOff⟩
      obtain rfl := Option.some.inj (hNc.symm.trans hNc')
      obtain rfl := Option.some.inj (hRd.symm.trans hRd')
      obtain rfl := Option.some.inj (hWr.symm.trans hWr')
      exact ⟨hOff, rfl⟩
  · next hOther =>
    refine iff_of_false List.not_mem_nil ?_
    rintro ⟨nc, rd, wr, hNc, hRd, hWr, -⟩
    exact hOther nc rd wr hNc hRd hWr

theorem anthropicRule_iff (hFit : CountsFit inp) : .r1_4 ∈ anthropicRule inp ↔
    inp.spec.family = .anthropic ∧
      (SumOff inp ∨ (inp.first = true ∧ 0 < (inp.inputCacheRead.getD 0).toNat)) := by
  unfold anthropicRule
  split
  · next hFamily =>
    rw [List.mem_append, sumRule_iff hFit (.inl hFamily), mem_fires_iff, Bool.and_eq_true, decide_eq_true_iff]
    simp [hFamily, UInt64.lt_iff_toNat_lt]
  · next hFamily => simp [hFamily]

theorem bedrockRule_iff (hFit : CountsFit inp) : .r1_5 ∈ bedrockRule inp ↔
    inp.spec.family = .bedrock ∧ SumOff inp := by
  unfold bedrockRule
  split
  · next hFamily => rw [sumRule_iff hFit (.inr hFamily), and_iff_right hFamily]
  · next hFamily => simp [hFamily]

theorem balanceRule_iff (hFit : CountsFit inp) : .r1_7 ∈ balanceRule inp ↔
    ∃ w nc, inp.spec.model56plus = true ∧ inp.write = some w ∧ inp.noCache = some nc ∧
      (inp.claimed.toNat : Int) + w.toNat + nc.toNat ≠ inp.promptTokens.toNat := by
  unfold balanceRule
  split
  · next hModel =>
    split
    · next w nc hWrite hNc =>
      have hExact := (balanceExact_iff inp.claimed w nc).mpr (hFit.hBalances w nc hModel hWrite hNc)
      have hSum : (inp.claimed + w + nc).toNat = inp.claimed.toNat + w.toNat + nc.toNat := by
        rw [hExact.hAddThird, hExact.hAdd]
      rw [mem_fires_iff, decide_eq_true_iff, ne_eq, ← UInt64.toNat_inj, hSum]
      constructor
      · rintro ⟨hOff, -⟩
        exact ⟨w, nc, hModel, hWrite, hNc, by exact_mod_cast hOff⟩
      · rintro ⟨w', nc', -, hWrite', hNc', hOff⟩
        obtain rfl := Option.some.inj (hWrite.symm.trans hWrite')
        obtain rfl := Option.some.inj (hNc.symm.trans hNc')
        exact ⟨by exact_mod_cast hOff, rfl⟩
    · next hWrite =>
      refine iff_of_false (by simp) ?_
      rintro ⟨w, nc, -, hSome, -⟩
      rw [hWrite] at hSome
      cases hSome
    · next hNc =>
      refine iff_of_false List.not_mem_nil ?_
      rintro ⟨w, nc, -, -, hSome, -⟩
      rw [hNc] at hSome
      cases hSome
  · next hModel => simp [hModel]

theorem accounting_of_countsFit (hFit : CountsFit inp) :
    AccountingExact inp (evidence fivePercent inp).violated where
  hCeiling := by
    rw [mem_evidence_accounting (.inl rfl)]
    simp [UInt64.lt_iff_toNat_lt]
  hDeepSeek := by
    rw [mem_evidence_accounting (.inr (.inl rfl)), ← deepSeekRule_iff hFit]
    simp
  hAnthropic := by
    rw [mem_evidence_accounting (.inr (.inr (.inl rfl))), ← anthropicRule_iff hFit]
    simp
  hBedrock := by
    rw [mem_evidence_accounting (.inr (.inr (.inr (.inl rfl)))), ← bedrockRule_iff hFit]
    simp
  hBalance := by
    rw [mem_evidence_accounting (.inr (.inr (.inr (.inr rfl)))), ← balanceRule_iff hFit]
    simp
  hPairs := fun h m hFamily hHit hMiss =>
    (pairExact_iff h m inp.promptTokens).mpr (hFit.hPairs h m hFamily hHit hMiss)
  hTriples := fun nc rd wr hFamily hNc hRd hWr =>
    (tripleExact_iff nc rd wr inp.promptTokens).mpr (hFit.hTriples nc rd wr hFamily hNc hRd hWr)
  hBalances := fun w nc hModel hWrite hNc =>
    (balanceExact_iff inp.claimed w nc).mpr (hFit.hBalances w nc hModel hWrite hNc)

end

theorem judge_violated {fivePercent : UInt64 → UInt64} {inp : JudgmentInput} (hAudited : Audited inp) :
    (judge fivePercent inp).violated = (evidence fivePercent inp).violated := by
  unfold judge
  rw [hAudited.1, hAudited.2, if_neg (by simp), if_neg (by simp), classify_violated]

/-- Where the rules are applied, they decide as the integers do and no word leaves its range exactly when
the counts fit. -/
theorem accounting_exact_iff (fivePercent : UInt64 → UInt64) (inp : JudgmentInput) :
    (Audited inp → AccountingExact inp (judge fivePercent inp).violated) ↔ (Audited inp → CountsFit inp) := by
  refine forall_congr' fun hAudited => ?_
  rw [judge_violated hAudited]
  constructor
  · intro hExact
    exact ⟨fun h m hFamily hHit hMiss =>
        (pairExact_iff h m inp.promptTokens).mp (hExact.hPairs h m hFamily hHit hMiss),
      fun nc rd wr hFamily hNc hRd hWr =>
        (tripleExact_iff nc rd wr inp.promptTokens).mp (hExact.hTriples nc rd wr hFamily hNc hRd hWr),
      fun w nc hModel hWrite hNc =>
        (balanceExact_iff inp.claimed w nc).mp (hExact.hBalances w nc hModel hWrite hNc)⟩
  · exact accounting_of_countsFit

/-! ### A negative number of hits -/

/-- The hits are `u64::MAX`, minus one once they are signed. -/
def hugeHitInput : JudgmentInput where
  spec := { family := .deepSeek, gran := some 64, threshold := 64, ttlMs := 172800000, model56plus := false }
  strict := false
  first := false
  promptTokens := 10
  promptBytes := 40
  claimed := 0
  hit := some 0xffffffffffffffff
  miss := some 11
  byteProxy := true

theorem huge_hits_balance :
    Audited hugeHitInput ∧ ¬AccountingExact hugeHitInput (judge (fun _ => 0) hugeHitInput).violated := by
  refine ⟨⟨rfl, rfl⟩, fun hExact => ?_⟩
  have hSilent : .r1_3 ∉ (judge (fun _ => 0) hugeHitInput).violated := by decide +kernel
  exact hSilent (hExact.hDeepSeek.mpr ⟨0xffffffffffffffff, 11, rfl, rfl, rfl, by decide⟩)

end Aimux.Trace
