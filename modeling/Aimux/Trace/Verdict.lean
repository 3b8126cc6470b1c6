import Aimux.Trace.SessionIndex

/-! # The verdict engine

`judge` of `verdict.rs`: hard rules over the reported usage, the expected upper bound of the cache hits
and the classification of what fired. Counts are `u64`; sums wrap as in a release build. The five percent
of the tolerance is a floating-point product and a parameter here.
-/

namespace Aimux.Trace

deriving instance DecidableEq for VerdictKind

deriving instance DecidableEq for VerdictConfidence

/-- The rule ids. -/
inductive Rule where
  | r1_1 | r1_1abs | r1_1b | r1_2 | r1_3 | r1_4 | r1_5 | r1_6b | r1_7 | r1_7b | r1_8 | r2_2 | r3_3 | r4_1 | r5_1
deriving DecidableEq, Repr

def Rule.id : Rule → String
  | .r1_1 => "R-1.1"
  | .r1_1abs => "R-1.1abs"
  | .r1_1b => "R-1.1b"
  | .r1_2 => "R-1.2"
  | .r1_3 => "R-1.3"
  | .r1_4 => "R-1.4"
  | .r1_5 => "R-1.5"
  | .r1_6b => "R-1.6b"
  | .r1_7 => "R-1.7"
  | .r1_7b => "R-1.7b"
  | .r1_8 => "R-1.8"
  | .r2_2 => "R-2.2"
  | .r3_3 => "R-3.3"
  | .r4_1 => "R-4.1"
  | .r5_1 => "R-5.1"

/-- A verdict with its rules; `Ruling.verdict` is the stored one. -/
structure Ruling where
  kind : VerdictKind
  confidence : VerdictConfidence
  violated : List Rule
  expectedMax : UInt64
  claimed : UInt64
  lcpBytes : UInt64
  notes : List String

def Ruling.verdict (ruling : Ruling) : Verdict where
  kind := ruling.kind
  confidence := ruling.confidence
  violated := ruling.violated.map Rule.id
  expectedMax := ruling.expectedMax.toNat
  claimed := ruling.claimed.toNat
  lcpBytes := ruling.lcpBytes.toNat
  notes := ruling.notes

inductive ProviderFamily where
  | openAi | deepSeek | anthropic | bedrock | gemini | vllm | generic
deriving DecidableEq, Repr

structure ProviderAuditSpec where
  family : ProviderFamily
  gran : Option UInt64
  threshold : UInt64
  ttlMs : UInt64
  model56plus : Bool

structure LcpInput where
  lcpBytes : UInt64
  lcpUpperBytes : UInt64
  sameSession : Bool
  matchedExists : Bool

structure SessionStats where
  sameSessionRounds : UInt32
  prefixStable : Bool
  lcpGt1024 : Bool

structure JudgmentInput where
  spec : ProviderAuditSpec
  strict : Bool
  first : Bool
  promptTokens : UInt64
  promptBytes : UInt64
  claimed : UInt64
  inputNoCache : Option UInt64 := none
  inputCacheRead : Option UInt64 := none
  inputCacheWrite : Option UInt64 := none
  write : Option UInt64 := none
  noCache : Option UInt64 := none
  hit : Option UInt64 := none
  miss : Option UInt64 := none
  usagePresent : Bool := true
  responseCacheHeaderHit : Bool := false
  candidateExpired : Bool := false
  byteProxy : Bool
  routeAffinityKnown : Bool := false
  lcp : Option LcpInput := none
  systemTokens : UInt64 := 0
  sessionStats : Option SessionStats := none

def quantizeDown (x : UInt64) : Option UInt64 → UInt64
  | some g => if g > 0 then x / g * g else x
  | none => x

def tau (fivePercent : UInt64 → UInt64) (u : UInt64) : Option UInt64 → UInt64
  | some g => max (fivePercent u) g
  | none => fivePercent u

def saturatingMul (x y : UInt64) : UInt64 :=
  if x.toNat * y.toNat < 2 ^ 64 then x * y else 0xffffffffffffffff

def isWLevel : Rule → Bool
  | .r1_1 | .r1_1abs | .r1_2 | .r1_3 | .r1_4 | .r1_5 | .r1_7 | .r1_8 | .r3_3 => true
  | _ => false

def isBLevel : Rule → Bool
  | .r1_1b | .r1_6b | .r1_7b => true
  | _ => false

def isByteProxyRule : Rule → Bool
  | .r1_1 | .r1_1b => true
  | _ => false

/-- `DOWNGRADE_IDS` -/
def isDowngradable : Rule → Bool
  | .r1_1 | .r1_2 | .r1_8 => true
  | _ => false

def fires (condition : Bool) (rule : Rule) : List Rule := if condition then [rule] else []

/-! ## The rules on the reported usage -/

/-- `(h as i64 + m as i64 - prompt as i64).abs() > 1` -/
def pairOff (h m prompt : UInt64) : Bool := (h.toInt64 + m.toInt64 - prompt.toInt64).abs > 1

def tripleOff (nc rd wr total : UInt64) : Bool :=
  (nc.toInt64 + rd.toInt64 + wr.toInt64 - total.toInt64).abs > 1

def deepSeekRule (inp : JudgmentInput) : List Rule :=
  match inp.spec.family, inp.hit, inp.miss with
  | .deepSeek, some h, some m => fires (pairOff h m inp.promptTokens) .r1_3
  | _, _, _ => []

/-- The three-field sum of a family. -/
def sumRule (inp : JudgmentInput) (rule : Rule) : List Rule :=
  match inp.inputNoCache, inp.inputCacheRead, inp.inputCacheWrite with
  | some nc, some rd, some wr => fires (tripleOff nc rd wr inp.promptTokens) rule
  | _, _, _ => []

def anthropicRule (inp : JudgmentInput) : List Rule :=
  if inp.spec.family = .anthropic then
    sumRule inp .r1_4 ++ fires (inp.first && decide (inp.inputCacheRead.getD 0 > 0)) .r1_4
  else []

def bedrockRule (inp : JudgmentInput) : List Rule :=
  if inp.spec.family = .bedrock then sumRule inp .r1_5 else []

def quantizationRule (inp : JudgmentInput) : List Rule :=
  match inp.spec.gran with
  | some g => fires (decide (inp.claimed > 0) && decide (inp.claimed % g ≠ 0) && !inp.spec.model56plus) .r1_6b
  | none => []

def balanceRule (inp : JudgmentInput) : List Rule :=
  if inp.spec.model56plus then
    match inp.write, inp.noCache with
    | some w, some nc => fires (decide (inp.claimed + w + nc ≠ inp.promptTokens)) .r1_7
    | none, _ => [.r1_7b]
    | some _, none => []
  else []

def balanceNotes (inp : JudgmentInput) : List String :=
  if inp.spec.model56plus && inp.write.isNone then
    ["5.6+ write side missing; downgraded to medium (R-1.7)"]
  else []

/-- What fires before the view-dependent rules, in the order of the source. -/
def usageRules (inp : JudgmentInput) : List Rule :=
  fires (decide (inp.claimed > inp.promptTokens)) .r1_1abs ++ deepSeekRule inp ++ anthropicRule inp ++
    bedrockRule inp ++ fires (decide (inp.promptTokens < inp.spec.threshold) && decide (inp.claimed > 0)) .r3_3 ++
    quantizationRule inp ++ balanceRule inp ++ fires (inp.first && decide (inp.claimed > 0)) .r1_2

/-! ## The expected upper bound -/

def capBytes (inp : JudgmentInput) (l : LcpInput) : UInt64 :=
  if l.sameSession then l.lcpUpperBytes
  else min l.lcpUpperBytes (saturatingMul inp.systemTokens 4)

def sharedNotes (inp : JudgmentInput) (l : LcpInput) : List String :=
  if !l.sameSession && decide (saturatingMul inp.claimed 4 > saturatingMul inp.systemTokens 4) then
    ["claimed exceeds shared system segment (R-2.1)"]
  else []

def expectedUpper (inp : JudgmentInput) (l : LcpInput) : UInt64 :=
  let upperBytes := min (min l.lcpUpperBytes (capBytes inp l)) inp.promptBytes
  min (quantizeDown (upperBytes / 4) inp.spec.gran) inp.promptTokens

/-- What the view of the history adds. -/
structure View where
  violated : List Rule
  notes : List String
  expectedMax : UInt64
  lcpBytes : UInt64
  lcpPresent : Bool
  granularityUnknown : Bool

def viewOf (fivePercent : UInt64 → UInt64) (inp : JudgmentInput) : View :=
  match inp.lcp with
  | some l =>
    let u := expectedUpper inp l
    let t := tau fivePercent u inp.spec.gran
    { violated := if inp.claimed > u + t then [.r1_1] else if inp.claimed > u then [.r1_1b] else []
      notes := sharedNotes inp l
      expectedMax := u
      lcpBytes := l.lcpBytes
      lcpPresent := true
      granularityUnknown := false }
  | none =>
    let unmatched := decide (inp.claimed > 0) && !inp.first
    { violated := fires (unmatched && inp.candidateExpired) .r1_8
      notes := if unmatched && !inp.candidateExpired then
        ["no block-granularity match; cannot confirm or refute (short body / sub-block growth)"] else []
      expectedMax := 0
      lcpBytes := 0
      lcpPresent := false
      granularityUnknown := unmatched && !inp.candidateExpired }

/-! ## Diagnosis -/

def suppressed (inp : JudgmentInput) (lcpBytes : UInt64) : Bool :=
  inp.spec.model56plus && decide (inp.claimed = 0) && decide (lcpBytes / 4 > 1024)

def lowHit (inp : JudgmentInput) (lcpBytes : UInt64) : Bool :=
  !suppressed inp lcpBytes &&
    match inp.sessionStats with
    | some stats => decide (stats.sameSessionRounds ≥ 3) && stats.prefixStable && stats.lcpGt1024 &&
        decide (inp.claimed = 0)
    | none => false

def lowHitNotes (inp : JudgmentInput) (lcpBytes : UInt64) : List String :=
  (if suppressed inp lcpBytes then
    ["5.6+ implicit breakpoint: claimed=0 legal despite large LCP (R-2.3)"] else []) ++
  if lowHit inp lcpBytes && !inp.routeAffinityKnown then
    ["stable prefix with zero claimed hits; route affinity unknown — likely cluster routing artifact, " ++
      "not a broken prefix (R-2.2 suppressed)"] else []

/-! ## Classification -/

def Ruling.downgrade (v : Ruling) (note : String) : Ruling :=
  { v with kind := .unknown, confidence := .medium, notes := v.notes ++ [note] }

/-- The last step, over the levels that count. -/
def pickKind (v : Ruling) (granularityUnknown hasW hasB : Bool) : Ruling :=
  if granularityUnknown && !hasW && !hasB && !v.violated.contains .r2_2 then
    { v with kind := .unknown, confidence := .medium }
  else if v.violated.contains .r2_2 && !hasW then
    { v with kind := .suspectUnderclaim, confidence := .low }
  else if hasW then { v with kind := .suspectOverclaim, confidence := .high }
  else if hasB then { v with kind := .suspectOverclaim, confidence := .medium }
  else { v with kind := .trusted, confidence := .high }

/-- The caps on evidence from the byte proxy. -/
def capByteProxy (inp : JudgmentInput) (v : Ruling) (granularityUnknown hasW hasB : Bool) : Ruling :=
  if inp.byteProxy &&
      !(v.violated.any fun r => (isWLevel r || isBLevel r) && !isByteProxyRule r) && (hasW || hasB) then
    v.downgrade ("byte-proxy overclaim (bytes/4 is not a safe token bound) — " ++
      "downgraded to Unknown (C4-2)")
  else if inp.byteProxy && hasW && !v.violated.contains .r1_1abs &&
      (v.violated.filter isWLevel).all (· == .r1_1) then
    pickKind { v with notes := v.notes ++ ["byte-proxy evidence caps at medium (RFC F2)"] }
      granularityUnknown false true
  else pickKind v granularityUnknown hasW hasB

/-- Every W-level rule that fired may have been another process warming the cache. -/
def onlyDowngradeW (v : Ruling) : Bool :=
  v.violated.any isWLevel && v.violated.all fun r => !isWLevel r || isDowngradable r

def classify (inp : JudgmentInput) (v : Ruling) (lcpPresent granularityUnknown : Bool) : Ruling :=
  if !inp.strict && onlyDowngradeW v then
    if lcpPresent then capByteProxy inp v granularityUnknown false true
    else v.downgrade "no local history source; other process may have warmed (R-5.3)"
  else capByteProxy inp v granularityUnknown (v.violated.any isWLevel) (v.violated.any isBLevel)

/-- A call that is not audited. -/
def unaudited (inp : JudgmentInput) (rule : Rule) (note : String) : Ruling where
  kind := .unknown
  confidence := .medium
  violated := [rule]
  expectedMax := 0
  claimed := inp.claimed
  lcpBytes := 0
  notes := [note]

/-- What fired, before the classification. -/
def evidence (fivePercent : UInt64 → UInt64) (inp : JudgmentInput) : Ruling :=
  let view := viewOf fivePercent inp
  { kind := .trusted
    confidence := .high
    violated := usageRules inp ++ view.violated ++
      fires (lowHit inp view.lcpBytes && inp.routeAffinityKnown) .r2_2
    expectedMax := view.expectedMax
    claimed := inp.claimed
    lcpBytes := view.lcpBytes
    notes := balanceNotes inp ++ view.notes ++ lowHitNotes inp view.lcpBytes }

def judge (fivePercent : UInt64 → UInt64) (inp : JudgmentInput) : Ruling :=
  if !inp.usagePresent then unaudited inp .r5_1 "usage missing (stream truncated / stripped)"
  else if inp.responseCacheHeaderHit then
    unaudited inp .r4_1 "response-cache header hit; provider cache not audited (R-4.1)"
  else
    let view := viewOf fivePercent inp
    classify inp (evidence fivePercent inp) view.lcpPresent view.granularityUnknown

end Aimux.Trace
