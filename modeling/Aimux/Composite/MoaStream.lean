import Aimux.Composite.Model

/-! # The streaming path of the mixture of agents

Both paths run the references alike. The streaming path then opens with a stream start of its own, drops
the stream start of the aggregator and adds the usage of the references to its finish; the other path edits
one result. They are compared through what a consumer of the stream is told: warnings and total usage.
-/

namespace Aimux.Composite

open Aimux.Core

abbrev StreamItem := Except AiMuxError StreamPart

structure StreamResult where
  stream : List StreamItem
  request : Option RequestInfo := none
  response : Option GenerateResponse := none

/-- `do_stream` of a model, from its start time on. -/
abbrev StreamCall := Environment → CallOptions → Nat → Ran Event StreamResult

def attemptStream (position : Position) (model : StreamCall) (env : Environment) (options : CallOptions)
    (k now : Nat) : Ran Event StreamResult :=
  let ran := model (env.under (position, k)) options now
  { ran with log := .started [(position, k)] now :: ran.log.map (Event.under (position, k)) }

def Operation.runStream (self : Operation) (position : Position) (model : StreamCall) (env : Environment)
    (options : CallOptions) (now : Nat) : Ran Event StreamResult :=
  (prepareRetries self.maxRetries self.abortSignal).retry self.fuel (fun k => env.delay [(position, k)])
    (attemptStream position model env options) now

/-- The loop over the aggregator's stream. -/
def relay (refUsage : Usage) : List StreamItem → List StreamItem
  | [] => []
  | .ok (.streamStart _) :: items => relay refUsage items
  | .ok (.finish finishReason usage providerMetadata) :: items =>
    .ok (.finish finishReason (addUsage usage refUsage) providerMetadata) :: relay refUsage items
  | .ok other :: items => .ok other :: relay refUsage items
  | .error e :: items => .error e :: if e.isRecoverableStreamError then relay refUsage items else []

def moaStream (operation : Operation) (references : List Generate) (aggregator : StreamCall)
    (config : MoaConfig) : StreamCall := fun env options now =>
  let fanned := runReferencesNonstream operation references config env options now
  match fanned.outcome with
  | .hanging => { log := fanned.log, outcome := .hanging }
  | .outOfFuel => { log := fanned.log, outcome := .outOfFuel }
  | .ended time (.error error) => { log := fanned.log, outcome := .ended time (.error error) }
  | .ended time (.ok collected) =>
    let prompt := buildAggregatorPrompt options.prompt config.aggregatorInstructions collected.texts
    let ran := (operation.runStream .aggregator aggregator env { options with prompt } time).after fanned.log
    { ran with
      outcome := match ran.outcome with
        | .ended later (.ok agg) =>
          .ended later (.ok {
            stream := .ok (.streamStart collected.warnings) :: relay collected.usage agg.stream })
        | other => other }

/-! ## What a stream reports -/

/-- The parts that come before a failure which is not recoverable. -/
def delivered : List StreamItem → List StreamPart
  | [] => []
  | .ok part :: items => part :: delivered items
  | .error e :: items => if e.isRecoverableStreamError then delivered items else []

def startWarnings : StreamPart → List Warning
  | .streamStart warnings => warnings
  | _ => []

def finishUsage : StreamPart → Option Usage
  | .finish _ usage _ => some usage
  | _ => none

def StreamResult.warnings (self : StreamResult) : List Warning := (delivered self.stream).flatMap startWarnings

/-- The total of the first finish, at which a consumer stops. -/
def StreamResult.usage (self : StreamResult) : Option Usage := (delivered self.stream).findSome? finishUsage

structure Reports (result : GenerateResult) (streamed : StreamResult) : Prop where
  warnings : streamed.warnings = result.warnings
  usage : streamed.usage = some result.usage

/-- Two paths of one model that report the same. Where one has no result, the stream of the other has no
total either. -/
def Alike : Outcome GenerateResult → Outcome StreamResult → Prop
  | .ended _ (.ok result), .ended _ (.ok streamed) => Reports result streamed
  | .ended _ (.error e), .ended _ (.error f) => e = f
  | .ended _ (.error _), .ended _ (.ok streamed) => streamed.usage = none
  | .hanging, .ended _ (.ok streamed) => streamed.usage = none
  | .hanging, .hanging => True
  | .outOfFuel, .outOfFuel => True
  | _, _ => False

/-! ## The relayed stream -/

/-- What the loop makes of one part. -/
def edit (refUsage : Usage) : StreamPart → Option StreamPart
  | .streamStart _ => none
  | .finish finishReason usage providerMetadata =>
    some (.finish finishReason (addUsage usage refUsage) providerMetadata)
  | other => some other

variable (refUsage : Usage)

theorem relay_ok (part : StreamPart) (items : List StreamItem) :
    relay refUsage (.ok part :: items) =
      ((edit refUsage part).toList.map .ok) ++ relay refUsage items := by
  cases part <;> rfl

theorem delivered_relay (items : List StreamItem) :
    delivered (relay refUsage items) = (delivered items).filterMap (edit refUsage) := by
  induction items with
  | nil => rfl
  | cons item items ih =>
    cases item with
    | ok part =>
      rw [relay_ok, delivered, List.filterMap_cons]
      cases hEdit : edit refUsage part with
      | none => exact ih
      | some edited => exact congrArg (edited :: ·) ih
    | error e =>
      rw [relay, delivered, delivered]
      split
      · exact ih
      · rfl

theorem edit_startWarnings {refUsage : Usage} {part edited : StreamPart} (h : edit refUsage part = some edited) :
    startWarnings edited = [] := by
  cases part <;> cases h <;> rfl

theorem edit_finishUsage (part : StreamPart) :
    (edit refUsage part).bind finishUsage = (finishUsage part).map (addUsage · refUsage) := by
  cases part <;> rfl

theorem relayed_warnings (parts : List StreamPart) : (parts.filterMap (edit refUsage)).flatMap startWarnings = [] := by
  rw [List.flatMap_eq_nil_iff]
  intro edited hEdited
  obtain ⟨part, _, hEdit⟩ := List.mem_filterMap.mp hEdited
  exact edit_startWarnings hEdit

theorem relayed_usage (parts : List StreamPart) :
    (parts.filterMap (edit refUsage)).findSome? finishUsage =
      (parts.findSome? finishUsage).map (addUsage · refUsage) := by
  induction parts with
  | nil => rfl
  | cons part parts ih =>
    have hPart := edit_finishUsage refUsage part
    rw [List.filterMap_cons, List.findSome?_cons]
    cases hEdit : edit refUsage part with
    | none =>
      rw [hEdit, Option.bind_none, eq_comm, Option.map_eq_none_iff] at hPart
      rw [hPart]
      exact ih
    | some edited =>
      rw [hEdit, Option.bind_some] at hPart
      simp only [List.findSome?_cons, hPart]
      cases finishUsage part with
      | none => exact ih
      | some usage => rfl

/-- The stream of the mixture: its own start, then the relayed parts. -/
def moaParts (collected : References) (agg : StreamResult) : StreamResult where
  stream := .ok (.streamStart collected.warnings) :: relay collected.usage agg.stream

variable (collected : References)

theorem moaParts_warnings (agg : StreamResult) : (moaParts collected agg).warnings = collected.warnings := by
  rw [StreamResult.warnings, moaParts, delivered, delivered_relay, List.flatMap_cons, relayed_warnings,
    List.append_nil]
  rfl

theorem moaParts_usage (agg : StreamResult) :
    (moaParts collected agg).usage = agg.usage.map (addUsage · collected.usage) := by
  rw [StreamResult.usage, moaParts, delivered, delivered_relay, List.findSome?_cons]
  exact relayed_usage collected.usage (delivered agg.stream)

/-- The result of the mixture. -/
def moaResult (collected : References) (agg : GenerateResult) : GenerateResult :=
  { agg with
    usage := addUsage agg.usage collected.usage
    warnings := agg.warnings ++ collected.warnings }

theorem moaResult_reports_iff {agg : GenerateResult} {streamed : StreamResult} (h : Reports agg streamed) :
    Reports (moaResult collected agg) (moaParts collected streamed) ↔ agg.warnings = [] := by
  constructor
  · intro hReports
    have hWarnings := hReports.warnings
    rw [moaParts_warnings] at hWarnings
    exact List.self_eq_append_left.mp hWarnings
  · intro hNone
    constructor
    case warnings => rw [moaParts_warnings, moaResult, hNone, List.nil_append]
    case usage => rw [moaParts_usage, h.usage, Option.map_some, moaResult]

/-! ## The two paths -/

def Outcome.mapOk {T : Type} (f : T → T) : Outcome T → Outcome T
  | .ended later (.ok agg) => .ended later (.ok (f agg))
  | other => other

theorem alike_mapOk_iff {generated : Outcome GenerateResult} {streamed : Outcome StreamResult}
    (h : Alike generated streamed) :
    Alike (generated.mapOk (moaResult collected)) (streamed.mapOk (moaParts collected)) ↔
      ∀ later agg, generated = .ended later (.ok agg) → agg.warnings = [] := by
  have hTotal : ∀ agg : StreamResult, agg.usage = none → (moaParts collected agg).usage = none := by
    intro agg hNone
    rw [moaParts_usage, hNone, Option.map_none]
  cases generated with
  | hanging =>
    refine iff_of_true ?_ fun _ _ hEnded => by cases hEnded
    cases streamed with
    | hanging => trivial
    | outOfFuel => exact h
    | ended later answer =>
      cases answer with
      | error e => exact h
      | ok agg => exact hTotal agg h
  | outOfFuel =>
    refine iff_of_true ?_ fun _ _ hEnded => by cases hEnded
    cases streamed with
    | hanging => exact h
    | outOfFuel => trivial
    | ended later answer => cases answer <;> exact h.elim
  | ended later result =>
    cases result with
    | error e =>
      refine iff_of_true ?_ fun _ _ hEnded => by cases hEnded
      cases streamed with
      | hanging => exact h
      | outOfFuel => exact h
      | ended later answer =>
        cases answer with
        | error f => exact h
        | ok agg => exact hTotal agg h
    | ok agg =>
      cases streamed with
      | hanging => exact h.elim
      | outOfFuel => exact h.elim
      | ended other answer =>
        cases answer with
        | error f => exact h.elim
        | ok streamed =>
          refine (moaResult_reports_iff collected h).trans ?_
          constructor
          · rintro hNone _ _ ⟨rfl, rfl⟩
            exact hNone
          · exact fun hAll => hAll later agg rfl

/-- The prompt of the aggregator. -/
def aggregatorOptions (config : MoaConfig) (options : CallOptions) (collected : References) : CallOptions :=
  { options with prompt := buildAggregatorPrompt options.prompt config.aggregatorInstructions collected.texts }

section

variable {operation : Operation} {references : List Generate} {config : MoaConfig} {env : Environment}
  {options : CallOptions} {now time : Nat} {collected : References}

theorem moaGenerate_outcome (generate : Generate)
    (hReferences : (runReferencesNonstream operation references config env options now).outcome =
      .ended time (.ok collected)) :
    (moaGenerate operation references generate config env options now).outcome =
      (operation.runChild .aggregator generate env (aggregatorOptions config options collected)
        time).outcome.mapOk (moaResult collected) := by
  simp only [moaGenerate, hReferences, Ran.after, aggregatorOptions]
  generalize (operation.runChild .aggregator generate env _ time).outcome = outcome
  cases outcome with
  | ended later result => cases result <;> rfl
  | hanging => rfl
  | outOfFuel => rfl

theorem moaStream_outcome (stream : StreamCall)
    (hReferences : (runReferencesNonstream operation references config env options now).outcome =
      .ended time (.ok collected)) :
    (moaStream operation references stream config env options now).outcome =
      (operation.runStream .aggregator stream env (aggregatorOptions config options collected)
        time).outcome.mapOk (moaParts collected) := by
  simp only [moaStream, hReferences, Ran.after, aggregatorOptions]
  generalize (operation.runStream .aggregator stream env _ time).outcome = outcome
  cases outcome with
  | ended later result => cases result <;> rfl
  | hanging => rfl
  | outOfFuel => rfl

end

/-- Over an aggregator whose two paths report the same, the two paths of the mixture report the same
exactly if the aggregator has no warnings, in the case that the references go through and it gives a
result. -/
theorem moa_paths_alike_iff (operation : Operation) (references : List Generate) (generate : Generate)
    (stream : StreamCall) (config : MoaConfig) (env : Environment) (options : CallOptions) (now : Nat)
    (hAlike : ∀ options time, Alike (operation.runChild .aggregator generate env options time).outcome
      (operation.runStream .aggregator stream env options time).outcome) :
    Alike (moaGenerate operation references generate config env options now).outcome
        (moaStream operation references stream config env options now).outcome ↔
      ∀ time collected later agg,
        (runReferencesNonstream operation references config env options now).outcome =
          .ended time (.ok collected) →
        (operation.runChild .aggregator generate env (aggregatorOptions config options collected) time).outcome =
          .ended later (.ok agg) →
        agg.warnings = [] := by
  cases hReferences : (runReferencesNonstream operation references config env options now).outcome with
  | hanging =>
    simp only [moaGenerate, moaStream, hReferences]
    exact iff_of_true trivial fun _ _ _ _ hEnded => by cases hEnded
  | outOfFuel =>
    simp only [moaGenerate, moaStream, hReferences]
    exact iff_of_true trivial fun _ _ _ _ hEnded => by cases hEnded
  | ended time result =>
    cases result with
    | error e =>
      simp only [moaGenerate, moaStream, hReferences]
      exact iff_of_true rfl fun _ _ _ _ hEnded => by cases hEnded
    | ok collected =>
      rw [moaGenerate_outcome generate hReferences, moaStream_outcome stream hReferences]
      refine (alike_mapOk_iff collected (hAlike (aggregatorOptions config options collected) time)).trans ⟨?_, ?_⟩
      · rintro hNone _ _ later agg ⟨rfl, rfl⟩ hEnded
        exact hNone later agg hEnded
      · exact fun hAll later agg hEnded => hAll time collected later agg rfl hEnded

/-! ## An aggregator that warns -/

def stopped : FinishReason := { unified := .stop, raw := none }

def scriptedResult (warnings : List Warning) : GenerateResult :=
  { content := [], finishReason := stopped, warnings }

def scriptedStream (warnings : List Warning) : StreamResult where
  stream := [.ok (.streamStart warnings), .ok (.finish stopped {} none)]

def scriptedGenerate (warnings : List Warning) : Generate := fun _ _ now =>
  { log := [], outcome := .ended now (.ok (scriptedResult warnings)) }

def scriptedCall (warnings : List Warning) : StreamCall := fun _ _ now =>
  { log := [], outcome := .ended now (.ok (scriptedStream warnings)) }

def oneAttempt : Operation := { maxRetries := none, abortSignal := none, fuel := 1 }

def silentEnvironment : Environment where
  answer := fun _ _ => none
  route := fun _ _ => .ok 0
  delay := fun _ _ _ => 0
  errorText := fun _ => ""

def noOptions : CallOptions := { prompt := [], tools := none, toolChoice := none }

theorem scripted_alike (warnings : List Warning) (options : CallOptions) (time : Nat) :
    Alike (oneAttempt.runChild .aggregator (scriptedGenerate warnings) silentEnvironment options time).outcome
      (oneAttempt.runStream .aggregator (scriptedCall warnings) silentEnvironment options time).outcome := by
  show Reports (scriptedResult warnings) (scriptedStream warnings)
  exact ⟨by simp [StreamResult.warnings, scriptedStream, delivered, startWarnings, scriptedResult], rfl⟩

theorem moa_paths_alike_scripted :
    Alike (moaGenerate oneAttempt [] (scriptedGenerate []) {} silentEnvironment noOptions 0).outcome
        (moaStream oneAttempt [] (scriptedCall []) {} silentEnvironment noOptions 0).outcome ↔
      ∀ time collected later agg,
        (runReferencesNonstream oneAttempt [] {} silentEnvironment noOptions 0).outcome =
          .ended time (.ok collected) →
        (oneAttempt.runChild .aggregator (scriptedGenerate []) silentEnvironment
          (aggregatorOptions {} noOptions collected) time).outcome = .ended later (.ok agg) →
        agg.warnings = [] :=
  moa_paths_alike_iff oneAttempt [] (scriptedGenerate []) (scriptedCall []) {} silentEnvironment noOptions 0
    (scripted_alike [])

/-- The stream of the mixture does not carry the warning of its aggregator, the result does. -/
theorem aggregator_warning_is_lost :
    (∀ options time,
      Alike (oneAttempt.runChild .aggregator (scriptedGenerate [.other "w"]) silentEnvironment options time).outcome
        (oneAttempt.runStream .aggregator (scriptedCall [.other "w"]) silentEnvironment options time).outcome) ∧
    ¬ Alike (moaGenerate oneAttempt [] (scriptedGenerate [.other "w"]) {} silentEnvironment noOptions 0).outcome
      (moaStream oneAttempt [] (scriptedCall [.other "w"]) {} silentEnvironment noOptions 0).outcome := by
  refine ⟨scripted_alike [.other "w"], ?_⟩
  intro hAlike
  have hReports : Reports (moaResult {} (scriptedResult [.other "w"])) (moaParts {} (scriptedStream [.other "w"])) :=
    hAlike
  have hWarnings := hReports.warnings
  rw [moaParts_warnings] at hWarnings
  cases hWarnings

end Aimux.Composite
