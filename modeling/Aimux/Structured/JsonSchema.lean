import Aimux.Core.SchemaPlaces
import Aimux.Lib.Everywhere

/-! # Draft 07

What a value has to satisfy by a schema of draft 07. The keywords that apply schemas are spelled out; those that look at
the value alone, regular expressions and the reading of references are the vocabulary's. A reference leads back into
the document, so that a schema is evaluated with so much fuel; without a verdict it is not satisfied.
-/

namespace Aimux.Structured

open Aimux.Core
open Aimux.Lib

/-! ## Verdicts -/

/-- The verdicts on the members of a list, if there is one on each. -/
def verdicts {α : Type} (f : α → Option Bool) : List α → Option (List Bool)
  | [] => some []
  | a :: rest => (f a).bind fun verdict => (verdicts f rest).map (verdict :: ·)

def all {α : Type} (f : α → Option Bool) (items : List α) : Option Bool := (verdicts f items).map (·.all id)

def any {α : Type} (f : α → Option Bool) (items : List α) : Option Bool := (verdicts f items).map (·.any id)

def exactlyOne {α : Type} (f : α → Option Bool) (items : List α) : Option Bool :=
  (verdicts f items).map (·.count true == 1)

section

variable {α : Type} {f g : α → Option Bool} {items : List α}

theorem verdicts_congr (h : ∀ a ∈ items, f a = g a) : verdicts f items = verdicts g items := by
  induction items with
  | nil => rfl
  | cons a rest ih =>
    obtain ⟨hHere, hRest⟩ := List.forall_mem_cons.mp h
    rw [verdicts, verdicts, hHere, ih hRest]

theorem all_congr (h : ∀ a ∈ items, f a = g a) : all f items = all g items := by
  rw [all, all, verdicts_congr h]

theorem any_congr (h : ∀ a ∈ items, f a = g a) : any f items = any g items := by
  rw [any, any, verdicts_congr h]

theorem exactlyOne_congr (h : ∀ a ∈ items, f a = g a) : exactlyOne f items = exactlyOne g items := by
  rw [exactlyOne, exactlyOne, verdicts_congr h]

theorem all_eq_true_iff : all f items = some true ↔ ∀ a ∈ items, f a = some true := by
  induction items with
  | nil => simp [all, verdicts]
  | cons a rest ih =>
    rw [List.forall_mem_cons, ← ih, all, all, verdicts]
    cases f a with
    | none => simp
    | some verdict => cases verdict <;> simp

end

/-! ## Keywords -/

inductive Keyword where
  | allOf | anyOf | oneOf | not | «if»
  | properties | patternProperties | additionalProperties | propertyNames | dependencies
  | items | additionalItems | contains
  | type | enum | const | required | minItems | maxItems
  | assertion (name : String)
deriving DecidableEq

def Keyword.name : Keyword → String
  | .allOf => "allOf"
  | .anyOf => "anyOf"
  | .oneOf => "oneOf"
  | .not => "not"
  | .«if» => "if"
  | .properties => "properties"
  | .patternProperties => "patternProperties"
  | .additionalProperties => "additionalProperties"
  | .propertyNames => "propertyNames"
  | .dependencies => "dependencies"
  | .items => "items"
  | .additionalItems => "additionalItems"
  | .contains => "contains"
  | .type => "type"
  | .enum => "enum"
  | .const => "const"
  | .required => "required"
  | .minItems => "minItems"
  | .maxItems => "maxItems"
  | .assertion name => name

/-- The keywords that look at the value alone and that the vocabulary knows. -/
def ASSERTIONS : List String := ["multipleOf", "maximum", "exclusiveMaximum", "minimum", "exclusiveMinimum",
  "maxLength", "minLength", "pattern", "format", "uniqueItems", "maxProperties", "minProperties", "contentEncoding",
  "contentMediaType"]

def KEYWORDS : List Keyword := [Keyword.allOf, .anyOf, .oneOf, .not, .«if», .properties, .patternProperties,
  .additionalProperties, .propertyNames, .dependencies, .items, .additionalItems, .contains, .type, .enum, .const,
  .required, .minItems, .maxItems] ++ ASSERTIONS.map .assertion

/-- Where schemas stand in a schema. -/
def PLACES : Keywords where
  maps := ["definitions", "properties", "patternProperties", "dependencies"]
  lists := ["allOf", "anyOf", "oneOf", "items"]
  schemas := ["not", "if", "then", "else", "additionalProperties", "propertyNames", "items", "additionalItems",
    "contains"]

structure Vocabulary where
  /-- The steps of a reference that is a pointer into its own document. -/
  pointer : String → Option (List String)
  matchesPattern : String → String → Bool
  /-- Equal as JSON values; two strings are compared by their letters. -/
  equal : Json → Json → Bool
  isIntegral : JsonNumber → Bool
  /-- A keyword with its argument, on a value. -/
  assertion : String → Json → Json → Bool
  /-- The argument of a keyword is what the schema of schemas asks for. -/
  isShaped : String → Json → Bool

namespace Vocabulary

variable (vocabulary : Vocabulary)

def sameJson : Json → Json → Bool
  | .string a, .string b => a == b
  | a, b => vocabulary.equal a b

def hasType (value : Json) : String → Bool
  | "null" => value.isNull
  | "boolean" => (asBool value).isSome
  | "object" => value.isObject
  | "array" => value.isArray
  | "string" => value.isString
  | "number" => value.isNumber
  | "integer" => match value with
    | .number number => vocabulary.isIntegral number
    | _ => false
  | _ => false

def hasTypes (value : Json) : Json → Bool
  | .string name => vocabulary.hasType value name
  | .array names => names.any fun name => (asStr name).any (vocabulary.hasType value)
  | _ => false

/-- A property that neither `properties` nor `patternProperties` speaks of. -/
def isAdditional (schema : Json) (name : String) : Bool :=
  ((schema.get "properties").bind (·.get name)).isNone &&
    match schema.get "patternProperties" with
    | some (.object patterns) => patterns.all fun pattern => !vocabulary.matchesPattern pattern.1 name
    | _ => true

def hasNames (value : Json) (names : List Json) : Bool :=
  names.all fun name => (asStr name).any fun name => (value.get name).isSome

/-- What a keyword with this argument says of a value, where `check` tells what the schemas below it say. -/
def applies (check : Json → Json → Option Bool) (schema value : Json) : Keyword → Json → Option Bool
  | .allOf, .array schemas => all (check · value) schemas
  | .anyOf, .array schemas => any (check · value) schemas
  | .oneOf, .array schemas => exactlyOne (check · value) schemas
  | .not, argument => (check argument value).map (!·)
  | .«if», argument => (check argument value).bind fun holds =>
    match schema.get (if holds then "then" else "else") with
    | some branch => check branch value
    | none => some true
  | .properties, .object schemas => all (fun field => match schemas.lookup field.1 with
    | some sub => check sub field.2
    | none => some true) ((asObject value).getD [])
  | .patternProperties, .object patterns => all (fun field => all (fun pattern =>
      if vocabulary.matchesPattern pattern.1 field.1 then check pattern.2 field.2 else some true) patterns)
        ((asObject value).getD [])
  | .additionalProperties, argument => all (fun field =>
      if vocabulary.isAdditional schema field.1 then check argument field.2 else some true) ((asObject value).getD [])
  | .propertyNames, argument => all (fun field => check argument (.string field.1)) ((asObject value).getD [])
  | .dependencies, .object members => all (fun member =>
      if ((asObject value).getD []).any (·.1 = member.1) then match member.2 with
        | .array names => some (hasNames value names)
        | sub => check sub value
      else some true) members
  | .items, .array schemas => all (fun pair => check pair.1 pair.2) (schemas.zip ((asArray value).getD []))
  | .items, argument => all (check argument) ((asArray value).getD [])
  | .additionalItems, argument => match schema.get "items" with
    | some (.array schemas) => all (check argument) (((asArray value).getD []).drop schemas.length)
    | _ => some true
  | .contains, argument => match value with
    | .array items => any (check argument) items
    | _ => some true
  | .type, argument => some (vocabulary.hasTypes value argument)
  | .enum, .array options => some (options.any (vocabulary.sameJson value))
  | .const, argument => some (vocabulary.sameJson value argument)
  | .required, .array names => some (!value.isObject || hasNames value names)
  | .minItems, .number (.int least) => some ((asArray value).all fun items => least ≤ items.length)
  | .maxItems, .number (.int most) => some ((asArray value).all fun items => items.length ≤ most)
  | keyword, argument => some (vocabulary.assertion keyword.name argument value)

def evaluate (check : Json → Json → Option Bool) (schema value : Json) : Option Bool :=
  all (fun keyword : Keyword => match schema.get keyword.name with
    | some argument => vocabulary.applies check schema value keyword argument
    | none => some true) KEYWORDS

/-- A reference hides what stands beside it. -/
def check (resolve : String → Option Json) : Nat → Json → Json → Option Bool
  | 0, _, _ => none
  | fuel + 1, schema, value =>
    match schema with
    | .bool verdict => some verdict
    | .object _ =>
      match schema.get "$ref" with
      | some reference => ((asStr reference).bind resolve).bind fun target => check resolve fuel target value
      | none => vocabulary.evaluate (check resolve fuel) schema value
    | _ => none

/-! ## Documents -/

def walk : Json → List String → Option Json
  | value, [] => some value
  | .object fields, step :: rest => (fields.lookup step).bind (walk · rest)
  | .array items, step :: rest => (step.toNat?.bind (items[·]?)).bind (walk · rest)
  | _, _ :: _ => none

def resolve (document : Json) (reference : String) : Option Json :=
  (vocabulary.pointer reference).bind (walk document)

/-- From a schema to the schemas in it and to the one that it refers to. -/
inductive Leads (document : Json) (schema sub : Json) : Prop
  | place (hPlace : PLACES.Holds schema sub)
  | reference {name : String} (hReference : schema.getStr "$ref" = some name)
    (hTarget : vocabulary.resolve document name = some sub)

/-- A schema by itself: its arguments are shaped, and its reference leads somewhere. The value of a dependency may be a
list of names. -/
inductive Formed (document : Json) : Json → Prop
  | bool (verdict : Bool) : Formed document (.bool verdict)
  | names (names : List Json) : Formed document (.array names)
  | object {fields : List (String × Json)}
    (hShaped : ∀ key argument, (Json.object fields).get key = some argument → vocabulary.isShaped key argument = true)
    (hReference : ∀ name, (Json.object fields).getStr "$ref" = some name →
      (vocabulary.resolve document name).isSome = true) : Formed document (.object fields)

/-- Every schema that the document leads to is formed. -/
def Valid (document : Json) : Prop :=
  Everywhere (vocabulary.Leads document) (vocabulary.Formed document) document

/-- The document is a schema, and the value satisfies it. -/
def Satisfies (document value : Json) : Prop :=
  vocabulary.Valid document ∧ ∃ fuel, vocabulary.check (vocabulary.resolve document) fuel document value = some true

/-! ## What an evaluation looks at -/

section

variable {vocabulary : Vocabulary} {check check' : Json → Json → Option Bool} {schema : Json}

/-- A keyword looks at the schemas that stand in the schema, and at no others; a list of names is not one. -/
theorem applies_congr
    (hSubs : ∀ sub, PLACES.Holds schema sub ∨ sub.isArray = true → ∀ value, check sub value = check' sub value)
    (value : Json) (keyword : Keyword) {argument : Json} (hGet : schema.get keyword.name = some argument) :
    vocabulary.applies check schema value keyword argument =
      vocabulary.applies check' schema value keyword argument := by
  have hAlone (key : String) (hKey : key ∈ PLACES.schemas) {sub : Json} (hSub : schema.get key = some sub)
      (value : Json) : check sub value = check' sub value := by
    cases hArray : sub.isArray with
    | true => exact hSubs sub (.inr hArray) value
    | false => exact hSubs sub (.inl (.alone hKey hSub hArray)) value
  have hListed (key : String) (hKey : key ∈ PLACES.lists) {subs : List Json}
      (hList : schema.get key = some (.array subs)) {sub : Json} (hMem : sub ∈ subs) (value : Json) :
      check sub value = check' sub value :=
    hSubs sub (.inl (.inList hKey hList hMem)) value
  have hMapped (key : String) (hKey : key ∈ PLACES.maps) {members : List (String × Json)}
      (hMap : schema.get key = some (.object members)) {name : String} {sub : Json} (hMem : (name, sub) ∈ members)
      (value : Json) : check sub value = check' sub value :=
    hSubs sub (.inl (.inMap hKey hMap hMem)) value
  cases keyword with
  | allOf =>
    cases argument with
    | array schemas => exact all_congr fun sub hMem => hListed "allOf" (by decide) hGet hMem value
    | _ => rfl
  | anyOf =>
    cases argument with
    | array schemas => exact any_congr fun sub hMem => hListed "anyOf" (by decide) hGet hMem value
    | _ => rfl
  | oneOf =>
    cases argument with
    | array schemas => exact exactlyOne_congr fun sub hMem => hListed "oneOf" (by decide) hGet hMem value
    | _ => rfl
  | not => exact congrArg (Option.map _) (hAlone "not" (by decide) hGet value)
  | «if» =>
    rw [applies, applies, hAlone "if" (by decide) hGet value]
    congr 1
    funext holds
    cases hBranch : schema.get (if holds then "then" else "else") with
    | none => rfl
    | some branch => exact hAlone _ (by cases holds <;> decide) hBranch value
  | properties =>
    cases argument with
    | object schemas =>
      apply all_congr
      intro field _
      cases hSub : schemas.lookup field.1 with
      | none => rfl
      | some sub => exact hMapped "properties" (by decide) hGet (mem_of_lookup hSub) field.2
    | _ => rfl
  | patternProperties =>
    cases argument with
    | object patterns =>
      apply all_congr
      intro field _
      apply all_congr
      intro pattern hPattern
      rw [hMapped "patternProperties" (by decide) hGet hPattern field.2]
    | _ => rfl
  | additionalProperties =>
    apply all_congr
    intro field _
    rw [hAlone "additionalProperties" (by decide) hGet field.2]
  | propertyNames => exact all_congr fun field _ => hAlone "propertyNames" (by decide) hGet (.string field.1)
  | dependencies =>
    cases argument with
    | object members =>
      apply all_congr
      rintro ⟨name, sub⟩ hMember
      have hSub := hMapped "dependencies" (by decide) hGet hMember value
      cases sub with
      | array names => rfl
      | _ => simp only [hSub]
    | _ => rfl
  | items =>
    cases argument with
    | array schemas =>
      apply all_congr
      intro pair hPair
      exact hListed "items" (by decide) hGet (List.of_mem_zip hPair).1 pair.2
    | _ => exact all_congr fun item _ => hAlone "items" (by decide) hGet item
  | additionalItems =>
    rw [applies, applies]
    split
    · exact all_congr fun item _ => hAlone "additionalItems" (by decide) hGet item
    · rfl
  | contains =>
    cases value with
    | array items => exact any_congr fun item _ => hAlone "contains" (by decide) hGet item
    | _ => rfl
  | minItems =>
    cases argument with
    | number count => cases count <;> rfl
    | _ => rfl
  | maxItems =>
    cases argument with
    | number count => cases count <;> rfl
    | _ => rfl
  | _ => cases argument <;> rfl

theorem evaluate_congr
    (hSubs : ∀ sub, PLACES.Holds schema sub ∨ sub.isArray = true → ∀ value, check sub value = check' sub value)
    (value : Json) : vocabulary.evaluate check schema value = vocabulary.evaluate check' schema value := by
  apply all_congr
  intro keyword _
  cases hGet : schema.get keyword.name with
  | none => rfl
  | some argument => exact applies_congr hSubs value keyword hGet

theorem check_of_isArray (resolve : String → Option Json) (fuel : Nat) {schema : Json} (hArray : schema.isArray = true)
    (value : Json) : vocabulary.check resolve fuel schema value = none := by
  cases schema with
  | array items => cases fuel <;> rfl
  | _ => cases hArray

/-- Two readings of the references agree on a schema if they agree on every reference that is reached from it. -/
theorem check_congr {resolve resolve' : String → Option Json} {reached : Json → Prop}
    (hPlaces : ∀ schema sub, reached schema → PLACES.Holds schema sub → reached sub)
    (hTargets : ∀ schema name target, reached schema → schema.getStr "$ref" = some name → resolve name = some target →
      reached target)
    (hSame : ∀ schema name, reached schema → schema.getStr "$ref" = some name → resolve name = resolve' name)
    (fuel : Nat) {schema : Json} (hReached : reached schema) (value : Json) :
    vocabulary.check resolve fuel schema value = vocabulary.check resolve' fuel schema value := by
  induction fuel generalizing schema value with
  | zero => rfl
  | succ fuel ih =>
    cases schema with
    | object fields =>
      rw [Vocabulary.check, Vocabulary.check]
      cases hGet : (Json.object fields).get "$ref" with
      | none =>
        apply evaluate_congr
        rintro sub (hPlace | hArray) value
        · exact ih (hPlaces _ _ hReached hPlace) value
        · rw [check_of_isArray _ _ hArray, check_of_isArray _ _ hArray]
      | some reference =>
        cases hName : asStr reference with
        | none => simp only [hName, Option.bind_none]
        | some name =>
          have hRef : (Json.object fields).getStr "$ref" = some name := by
            rw [Json.getStr, hGet, Option.bind_some, hName]
          have hTarget := hSame _ name hReached hRef
          dsimp only
          rw [hName, Option.bind_some, Option.bind_some, ← hTarget]
          cases hFound : resolve name with
          | none => rfl
          | some target => exact ih (hTargets _ name target hReached hRef hFound) value
    | _ => rfl

end

/-! ## Documents that are written out -/

/-- The schemas that stand in a schema. -/
def subschemas (schema : Json) : List Json :=
  (PLACES.maps.flatMap fun key => match schema.get key with
    | some (.object members) => members.map (·.2)
    | _ => []) ++
  (PLACES.lists.flatMap fun key => match schema.get key with
    | some (.array items) => items
    | _ => []) ++
  PLACES.schemas.filterMap fun key => (schema.get key).filter (!·.isArray)

theorem mem_subschemas {schema sub : Json} (h : PLACES.Holds schema sub) : sub ∈ subschemas schema := by
  rw [subschemas, List.mem_append, List.mem_append, List.mem_flatMap, List.mem_flatMap, List.mem_filterMap]
  cases h with
  | inMap hKey hMap hMember =>
    refine .inl (.inl ⟨_, hKey, ?_⟩)
    rw [hMap]
    exact List.mem_map_of_mem hMember
  | inList hKey hList hItem =>
    refine .inl (.inr ⟨_, hKey, ?_⟩)
    rw [hList]
    exact hItem
  | alone hKey hValue hSchema =>
    refine .inr ⟨_, hKey, ?_⟩
    rw [hValue, Option.filter_some, hSchema]
    rfl

/-- A list of schemas that leads to no others. -/
theorem everywhere_of_closed {vocabulary : Vocabulary} {document schema : Json} {P : Json → Prop} {closed : List Json}
    (hMem : schema ∈ closed) (hPlaces : ∀ schema ∈ closed, ∀ sub ∈ subschemas schema, sub ∈ closed)
    (hTargets : ∀ schema ∈ closed, ∀ name, schema.getStr "$ref" = some name →
      ∀ target, vocabulary.resolve document name = some target → target ∈ closed)
    (h : ∀ schema ∈ closed, P schema) : Everywhere (vocabulary.Leads document) P schema := by
  intro reached hSteps
  apply h
  induction hSteps with
  | refl => exact hMem
  | tail _ hStep ih =>
    cases hStep with
    | place hPlace => exact hPlaces _ ih _ (mem_subschemas hPlace)
    | reference hReference hTarget => exact hTargets _ ih _ hReference _ hTarget

end Vocabulary

end Aimux.Structured
