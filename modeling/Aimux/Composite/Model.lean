import Aimux.Composite.Retry
import Aimux.Core.GenerateText

/-! # Composite models

A router tries its children one after the other; a mixture of agents runs its references side by side and
then its aggregator. Both run every child inside a retry loop of their own, and an operation runs its model
inside one more. What the models that are not composite do is up to the environment, attempt by attempt.
-/

namespace Aimux.Composite

open Aimux.Core

/-- A message of the caller, or the one that the mixture of agents adds. -/
inductive LanguageModelMessage where
  | given (message : Json)
  | userText (text : String)

/-- The options that composites read or change; the others are passed on as they are. -/
structure CallOptions where
  prompt : List LanguageModelMessage
  tools : Option (List Tool)
  toolChoice : Option LanguageModelV4ToolChoice

inductive FallbackPolicy where
  | onError
  | none
deriving DecidableEq

inductive MoaFailMode where
  | bestEffort
  | failFast
deriving DecidableEq

structure MoaConfig where
  aggregatorInstructions : Option String := none
  stripReferenceTools : Bool := true
  failMode : MoaFailMode := .bestEffort

inductive LanguageModel where
  | leaf
  | router (models : List LanguageModel) (fallback : FallbackPolicy)
  | moa (references : List LanguageModel) (aggregator : LanguageModel) (config : MoaConfig)

def LanguageModel.isComposite : LanguageModel → Bool
  | .leaf => false
  | _ => true

/-! ## Events -/

/-- Where a model stands below the composite that runs it. -/
inductive Position where
  | root
  | child (index : Nat)
  | reference (index : Nat)
  | aggregator
deriving DecidableEq

/-- One attempt at the model of a position. -/
abbrev Step := Position × Nat

/-- The attempts inside which an attempt stands, from the outermost to itself. -/
abbrev Address := List Step

inductive Event where
  | routed (address : Address) (time : Nat) (answer : Except AiMuxError Nat)
  | started (address : Address) (time : Nat)
  /-- The retry loop of a child of the router at `address` gave up. -/
  | failed (address : Address) (child : Nat) (time : Nat) (error : AiMuxError)

namespace Event

def address : Event → Address
  | .routed address _ _ => address
  | .started address _ => address
  | .failed address _ _ _ => address

def time : Event → Nat
  | .routed _ time _ => time
  | .started _ time => time
  | .failed _ _ time _ => time

def under (step : Step) : Event → Event
  | .routed address time answer => .routed (step :: address) time answer
  | .started address time => .started (step :: address) time
  | .failed address child time error => .failed (step :: address) child time error

end Event

/-- What the model code does not decide: how long a child takes and what it answers (one that never does
has no answer), what a router picks, and how long a delay takes. -/
structure Environment where
  answer : Address → CallOptions → Option (Nat × Except AiMuxError GenerateResult)
  route : Address → List LanguageModelMessage → Except AiMuxError Nat
  delay : Address → AiMuxError → Nat → Nat
  errorText : AiMuxError → String

def Environment.under (self : Environment) (step : Step) : Environment :=
  { self with
    answer := fun address => self.answer (step :: address)
    route := fun address => self.route (step :: address)
    delay := fun address => self.delay (step :: address) }

/-- The settings of the operation that all its retry loops read. -/
structure Operation where
  maxRetries : Option Nat
  abortSignal : Option Nat
  fuel : Nat

/-- `do_generate` of a model, from its start time on. -/
abbrev Generate := Environment → CallOptions → Nat → Ran Event GenerateResult

/-- One attempt of a retry loop around a model. -/
def attempt (position : Position) (model : Generate) (env : Environment) (options : CallOptions)
    (k now : Nat) : Ran Event GenerateResult :=
  let ran := model (env.under (position, k)) options now
  { ran with log := .started [(position, k)] now :: ran.log.map (Event.under (position, k)) }

def Operation.runChild (self : Operation) (position : Position) (model : Generate) (env : Environment)
    (options : CallOptions) (now : Nat) : Ran Event GenerateResult :=
  (prepareRetries self.maxRetries self.abortSignal).retry self.fuel (fun k => env.delay [(position, k)])
    (attempt position model env options) now

/-! ## The router -/

section

variable (operation : Operation)

/-- The children from index `i` on. -/
def fallbackGenerate (exclude : Nat) (env : Environment) (options : CallOptions) :
    Nat → List Generate → AiMuxError → Nat → Ran Event GenerateResult
  | _, [], lastErr, now => { log := [], outcome := .ended now (.error lastErr) }
  | i, model :: models, lastErr, now =>
    if i = exclude then fallbackGenerate exclude env options (i + 1) models lastErr now
    else
      let ran := operation.runChild (.child i) model env options now
      match ran.outcome with
      | .ended time (.error error) =>
        (fallbackGenerate exclude env options (i + 1) models error time).after
          (ran.log ++ [.failed [] i time error])
      | _ => ran

def outOfBounds (idx models : Nat) : AiMuxError :=
  .invalidArgument ("router: router returned out-of-bounds index " ++ toString idx ++
    " (models: " ++ toString models ++ ")") none

def routerGenerate (models : List Generate) (fallback : FallbackPolicy) : Generate := fun env options now =>
  let answer := env.route [] options.prompt
  let routed := Event.routed [] now answer
  match answer with
  | .error error => { log := [routed], outcome := .ended now (.error error) }
  | .ok idx =>
    match models[idx]? with
    | none => { log := [routed], outcome := .ended now (.error (outOfBounds idx models.length)) }
    | some model =>
      let ran := (operation.runChild (.child idx) model env options now).after [routed]
      match ran.outcome with
      | .ended time (.error error) =>
        let log := ran.log ++ [.failed [] idx time error]
        if fallback = .onError then
          (fallbackGenerate operation idx env options 0 models error time).after log
        else { log, outcome := .ended time (.error error) }
      | _ => ran

/-! ## The mixture of agents -/

def optAdd : Option Nat → Option Nat → Option Nat
  | none, none => none
  | some x, none => some x
  | none, some y => some y
  | some x, some y => some ((x + y) % 2 ^ 32)

def addUsage (a b : Usage) : Usage where
  inputTokens := {
    total := optAdd a.inputTokens.total b.inputTokens.total
    noCache := optAdd a.inputTokens.noCache b.inputTokens.noCache
    cacheRead := optAdd a.inputTokens.cacheRead b.inputTokens.cacheRead
    cacheWrite := optAdd a.inputTokens.cacheWrite b.inputTokens.cacheWrite }
  outputTokens := {
    total := optAdd a.outputTokens.total b.outputTokens.total
    text := optAdd a.outputTokens.text b.outputTokens.text
    reasoning := optAdd a.outputTokens.reasoning b.outputTokens.reasoning }
  raw := none

def extractText (content : List GenerateContent) : String :=
  content.foldl (fun out c => match c with
    | .text text _ => out ++ text
    | _ => out) ""

def defaultInstruction : String :=
  "You are an aggregation assistant. Synthesize the reference model responses below into a single " ++
    "high-quality answer. Resolve conflicts by preferring the most accurate reasoning; do not mention the " ++
    "reference models unless asked."

def buildAggregatorPrompt (prompt : List LanguageModelMessage) (instructions : Option String)
    (references : List (String × String)) : List LanguageModelMessage :=
  if references.isEmpty then prompt
  else
    prompt ++ [LanguageModelMessage.userText (references.foldl (fun body (modelId, text) =>
      body ++ "\n## " ++ modelId ++ "\n" ++ text ++ "\n")
      (instructions.getD defaultInstruction ++ "\n\n# Reference model responses\n"))]

def referenceOptions (config : MoaConfig) (options : CallOptions) : CallOptions :=
  if config.stripReferenceTools then { options with tools := none, toolChoice := none } else options

inductive Joined where
  | ended (time : Nat) (results : List (Except AiMuxError GenerateResult))
  | hanging
  | outOfFuel

/-- `join_all`: every future runs to its end. -/
def joinAll (now : Nat) : List (Outcome GenerateResult) → Joined
  | [] => .ended now []
  | outcome :: outcomes =>
    match outcome, joinAll now outcomes with
    | .outOfFuel, _ => .outOfFuel
    | _, .outOfFuel => .outOfFuel
    | .hanging, _ => .hanging
    | _, .hanging => .hanging
    | .ended time result, .ended later results => .ended (max time later) (result :: results)

structure References where
  texts : List (String × String) := []
  usage : Usage := {}
  warnings : List Warning := []

/-- The results of the references from index `i` on. -/
def collectReferences (failMode : MoaFailMode) (errorText : AiMuxError → String) :
    Nat → References → List (Except AiMuxError GenerateResult) → Except AiMuxError References
  | _, collected, [] => .ok collected
  | i, collected, .ok res :: results =>
    let modelId := (res.response.bind (·.modelId)).getD ("ref-" ++ toString i)
    collectReferences failMode errorText (i + 1)
      { collected with
        usage := addUsage collected.usage res.usage
        texts := collected.texts ++ [(modelId, extractText res.content)] } results
  | i, collected, .error e :: results =>
    if failMode = .failFast then .error e
    else
      collectReferences failMode errorText (i + 1)
        { collected with
          warnings := collected.warnings ++
            [.other ("moa reference " ++ toString i ++ " failed: " ++ errorText e)] } results

def allReferencesFailed : AiMuxError := .other "moa: all reference models failed" none

def runReferencesNonstream (references : List Generate) (config : MoaConfig) (env : Environment)
    (options : CallOptions) (now : Nat) : Ran Event References :=
  if references.isEmpty then { log := [], outcome := .ended now (.ok {}) }
  else
    let runs := references.mapIdx fun i reference =>
      operation.runChild (.reference i) reference env (referenceOptions config options) now
    { log := runs.flatMap (·.log)
      outcome := match joinAll now (runs.map (·.outcome)) with
        | .hanging => .hanging
        | .outOfFuel => .outOfFuel
        | .ended time results =>
          match collectReferences config.failMode env.errorText 0 {} results with
          | .error error => .ended time (.error error)
          | .ok collected =>
            if collected.texts.isEmpty then .ended time (.error allReferencesFailed)
            else .ended time (.ok collected) }

def moaGenerate (references : List Generate) (aggregator : Generate) (config : MoaConfig) : Generate :=
  fun env options now =>
    let fanned := runReferencesNonstream operation references config env options now
    match fanned.outcome with
    | .hanging => { log := fanned.log, outcome := .hanging }
    | .outOfFuel => { log := fanned.log, outcome := .outOfFuel }
    | .ended time (.error error) => { log := fanned.log, outcome := .ended time (.error error) }
    | .ended time (.ok collected) =>
      let prompt := buildAggregatorPrompt options.prompt config.aggregatorInstructions collected.texts
      let ran := (operation.runChild .aggregator aggregator env { options with prompt } time).after fanned.log
      { ran with
        outcome := match ran.outcome with
          | .ended later (.ok agg) =>
            .ended later (.ok { agg with
              usage := addUsage agg.usage collected.usage
              warnings := agg.warnings ++ collected.warnings })
          | other => other }

/-! ## The operation -/

def leafGenerate : Generate := fun env options now =>
  { log := []
    outcome := match env.answer [] options with
      | some (duration, result) => .ended (now + duration) result
      | none => .hanging }

mutual

def doGenerate : LanguageModel → Generate
  | .leaf => leafGenerate
  | .router models fallback => routerGenerate operation (doGenerateAll models) fallback
  | .moa references aggregator config =>
    moaGenerate operation (doGenerateAll references) (doGenerate aggregator) config

def doGenerateAll : List LanguageModel → List Generate
  | [] => []
  | model :: models => doGenerate model :: doGenerateAll models

end

end

structure TimeoutDeadline where
  time : Nat
  label : String
  durationMs : Nat

def TimeoutDeadline.error (self : TimeoutDeadline) : AiMuxError :=
  .timeout (self.label ++ " timeout of " ++ toString self.durationMs ++ "ms exceeded")

/-- The time at which the signal or the deadline ends the operation, and the error; the signal goes first. -/
def stopOf (abort : Option Nat) (deadline : Option TimeoutDeadline) : Option (Nat × AiMuxError) :=
  match abort, deadline with
  | none, none => none
  | some cancelled, none => some (cancelled, abortedError)
  | none, some deadline => some (deadline.time, deadline.error)
  | some cancelled, some deadline =>
    if cancelled ≤ deadline.time then some (cancelled, abortedError) else some (deadline.time, deadline.error)

/-- `run_until`: at its stop the operation is dropped, and nothing of it happens any more. -/
def runUntil {T : Type} (abort : Option Nat) (deadline : Option TimeoutDeadline) (now : Nat) (ran : Ran Event T) :
    Ran Event T :=
  match stopOf abort deadline with
  | none => ran
  | some (stop, error) =>
    { log := ran.log.filter fun event => event.time < stop
      outcome := match ran.outcome with
        | .ended time result => if stop ≤ time then .ended (max now stop) (.error error) else .ended time result
        | .hanging => .ended (max now stop) (.error error)
        | .outOfFuel => .outOfFuel }

/-- The provider call of `generate_in_operation`. -/
def generateInOperation (operation : Operation) (deadline : Option TimeoutDeadline) (model : LanguageModel)
    (env : Environment) (options : CallOptions) (now : Nat) : Ran Event GenerateResult :=
  runUntil operation.abortSignal deadline now
    (operation.runChild .root (doGenerate operation model) env options now)

end Aimux.Composite
