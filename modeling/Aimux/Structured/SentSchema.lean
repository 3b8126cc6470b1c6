import Aimux.Structured.JsonSchema
import Aimux.Structured.Output

/-! # The schema that is sent

The wrapper that the model is asked to satisfy holds the element schema without its definitions, which stand beside
it. Where the references of the element lead into these definitions, an item satisfies the schema in the wrapper just
when it satisfies the element itself.
-/

namespace Aimux.Structured

open Aimux.Core
open Aimux.Lib
open Relation (ReflTransGen)

/-! ## What a satisfied keyword says -/

variable {name : String}

namespace Vocabulary

section

variable {vocabulary : Vocabulary} {resolve : String → Option Json} {fuel : Nat} {schema value argument : Json}

theorem check_keyword (keyword : Keyword) (hCheck : vocabulary.check resolve fuel schema value = some true)
    (hNoReference : schema.get "$ref" = none) (hKeyword : keyword ∈ KEYWORDS)
    (hGet : schema.get keyword.name = some argument) :
    ∃ below, vocabulary.applies (vocabulary.check resolve below) schema value keyword argument = some true := by
  cases fuel with
  | zero => cases hCheck
  | succ below =>
    cases schema with
    | object fields =>
      rw [check, hNoReference] at hCheck
      have hAll := all_eq_true_iff.mp hCheck keyword hKeyword
      rw [hGet] at hAll
      exact ⟨below, hAll⟩
    | _ => cases hGet

theorem isObject_of_check (hCheck : vocabulary.check resolve fuel schema value = some true)
    (hNoReference : schema.get "$ref" = none) (hType : schema.get "type" = some (.string "object")) :
    ∃ fields, value = .object fields := by
  obtain ⟨_, hApplies⟩ := check_keyword .type hCheck hNoReference (by decide) hType
  cases value with
  | object fields => exact ⟨fields, rfl⟩
  | _ => cases hApplies

theorem isArray_of_check (hCheck : vocabulary.check resolve fuel schema value = some true)
    (hNoReference : schema.get "$ref" = none) (hType : schema.get "type" = some (.string "array")) :
    ∃ items, value = .array items := by
  obtain ⟨_, hApplies⟩ := check_keyword .type hCheck hNoReference (by decide) hType
  cases value with
  | array items => exact ⟨items, rfl⟩
  | _ => cases hApplies

theorem get_of_required (name : String) (hCheck : vocabulary.check resolve fuel schema value = some true)
    (hNoReference : schema.get "$ref" = none) (hRequired : schema.get "required" = some (.array [.string name]))
    (hObject : value.isObject = true) : ∃ member, value.get name = some member := by
  obtain ⟨_, hApplies⟩ := check_keyword .required hCheck hNoReference (by decide) hRequired
  have hNames : hasNames value [.string name] = true := by simpa [applies, hObject] using hApplies
  simpa [hasNames, asStr, Option.isSome_iff_exists] using hNames

theorem check_property {properties : List (String × Json)} (sub : Json) {member : Json}
    (hCheck : vocabulary.check resolve fuel schema value = some true) (hNoReference : schema.get "$ref" = none)
    (hProperties : schema.get "properties" = some (.object properties)) (hSub : properties.lookup name = some sub)
    (hMember : value.get name = some member) :
    ∃ below, vocabulary.check resolve below sub member = some true := by
  obtain ⟨below, hApplies⟩ := check_keyword .properties hCheck hNoReference (by decide) hProperties
  cases value with
  | object fields =>
    have hField := all_eq_true_iff.mp hApplies (name, member) (mem_of_lookup hMember)
    dsimp only at hField
    rw [hSub] at hField
    exact ⟨below, hField⟩
  | _ => cases hMember

variable {items : List Json}

theorem check_items (sub : Json) (hCheck : vocabulary.check resolve fuel schema (.array items) = some true)
    (hNoReference : schema.get "$ref" = none) (hItems : schema.get "items" = some sub) (hOne : sub.isArray = false) :
    ∃ below, ∀ item ∈ items, vocabulary.check resolve below sub item = some true := by
  obtain ⟨below, hApplies⟩ := check_keyword .items hCheck hNoReference (by decide) hItems
  cases sub with
  | array subs => cases hOne
  | _ => exact ⟨below, all_eq_true_iff.mp hApplies⟩

theorem length_of_minItems {least : Nat} (hCheck : vocabulary.check resolve fuel schema (.array items) = some true)
    (hNoReference : schema.get "$ref" = none) (hMin : schema.get "minItems" = some (.number (.int least))) :
    least ≤ items.length := by
  obtain ⟨_, hApplies⟩ := check_keyword .minItems hCheck hNoReference (by decide) hMin
  simpa [applies, asArray] using hApplies

theorem length_of_maxItems {most : Nat} (hCheck : vocabulary.check resolve fuel schema (.array items) = some true)
    (hNoReference : schema.get "$ref" = none) (hMax : schema.get "maxItems" = some (.number (.int most))) :
    items.length ≤ most := by
  obtain ⟨_, hApplies⟩ := check_keyword .maxItems hCheck hNoReference (by decide) hMax
  simpa [applies, asArray] using hApplies

end

/-! ## Members that no keyword looks at -/

/-- What the wrapper takes out of the element. -/
def LIFTED : List String := ["$schema", "definitions", "$defs"]

theorem not_lifted {keyword : Keyword} (h : keyword ∈ KEYWORDS) : keyword.name ∉ LIFTED := by
  have hAll : KEYWORDS.all (fun keyword => !LIFTED.contains keyword.name) = true := by decide
  simpa using List.all_eq_true.mp hAll keyword h

variable {vocabulary : Vocabulary} {schema other : Json}

theorem applies_of_get (hSame : ∀ key, key ∉ LIFTED → schema.get key = other.get key)
    (check : Json → Json → Option Bool) (value : Json) (keyword : Keyword) (argument : Json) :
    vocabulary.applies check schema value keyword argument = vocabulary.applies check other value keyword argument := by
  cases keyword with
  | «if» =>
    rw [applies, applies]
    congr 1
    funext holds
    rw [hSame _ (by cases holds <;> decide)]
  | additionalProperties =>
    have hAdditional (name : String) : vocabulary.isAdditional schema name = vocabulary.isAdditional other name := by
      rw [isAdditional, isAdditional, hSame "properties" (by decide), hSame "patternProperties" (by decide)]
    exact all_congr fun field _ => by rw [hAdditional]
  | additionalItems => rw [applies, applies, hSame "items" (by decide)]
  | minItems =>
    cases argument with
    | number count => cases count <;> rfl
    | _ => rfl
  | maxItems =>
    cases argument with
    | number count => cases count <;> rfl
    | _ => rfl
  | _ => cases argument <;> rfl

theorem check_of_get {fields others : List (String × Json)}
    (hSame : ∀ key, key ∉ LIFTED → (Json.object fields).get key = (Json.object others).get key)
    (resolve : String → Option Json) (fuel : Nat) (value : Json) :
    vocabulary.check resolve fuel (.object fields) value = vocabulary.check resolve fuel (.object others) value := by
  cases fuel with
  | zero => rfl
  | succ fuel =>
    rw [check, check, hSame "$ref" (by decide)]
    split
    · rfl
    · apply all_congr
      intro keyword hKeyword
      rw [hSame _ (not_lifted hKeyword)]
      split
      · exact applies_of_get hSame _ value keyword _
      · rfl

/-! ## Documents that are read by draft 07 -/

def DRAFT_07 : List String := ["http://json-schema.org/draft-07/schema#", "http://json-schema.org/draft-07/schema"]

/-- A document of draft 07 whose references, if it has any, are read in the document as a whole. -/
structure Plain (vocabulary : Vocabulary) (document : Json) : Prop where
  dialect (argument : Json) (h : document.get "$schema" = some argument) : ∃ uri ∈ DRAFT_07, argument = .string uri
  base : Everywhere (vocabulary.Leads document) (fun schema => schema.get "$id" = none) document ∨
    Everywhere (vocabulary.Leads document) (fun schema => schema.get "$ref" = none) document

/-- A reference into the definitions of its document. -/
def IntoDefinitions (vocabulary : Vocabulary) (name : String) : Prop :=
  ∃ key ∈ ["definitions", "$defs"], ∃ rest, vocabulary.pointer name = some (key :: rest)

/-- An element schema that keeps its meaning in the wrapper. -/
inductive Liftable (vocabulary : Vocabulary) : Json → Prop
  | anything : Liftable vocabulary (.bool true)
  | object {fields : List (String × Json)} (hPlain : vocabulary.Plain (.object fields))
    (hReferences : Everywhere (vocabulary.Leads (.object fields))
      (fun schema => ∀ name, schema.getStr "$ref" = some name → vocabulary.IntoDefinitions name) (.object fields)) :
    Liftable vocabulary (.object fields)

/-- What the crate is documented to do with such documents. -/
structure CrateLaws (vocabulary : Vocabulary) (libraries : Libraries) : Prop where
  shaped (uri : String) (h : uri ∈ DRAFT_07) : vocabulary.isShaped "$schema" (.string uri) = true
  accepts {document value : Json} (hPlain : vocabulary.Plain document) (h : vocabulary.Satisfies document value) :
    ∃ validator, libraries.validatorFor document = .ok validator ∧ validator value = .ok ()
  rejects {document value : Json} (hPlain : vocabulary.Plain document) (h : ¬ vocabulary.Satisfies document value)
    (validator : Json → Except SourceError Unit) (hValidator : libraries.validatorFor document = .ok validator) :
    validator value ≠ .ok ()

end Vocabulary

/-! ## The wrapper -/

section

variable (element : Json) (minItems maxItems : Option UInt32)

/-- What is left of the element for the items. -/
def itemFields : List (String × Json) :=
  removeField (removeField (removeField ((asObject element).getD []) "$schema") "definitions") "$defs"

def elementsSchema : Json :=
  .object ([("type", Json.string "array"), ("items", .object (itemFields element))] ++
    (minItems.map fun minItems => ("minItems", count minItems)).toList ++
    (maxItems.map fun maxItems => ("maxItems", count maxItems)).toList)

/-- The members of the wrapper behind the definitions. -/
def wrapperFields : List (String × Json) := [("type", .string "object"),
  ("properties", .object [("elements", elementsSchema element minItems maxItems)]),
  ("required", .array [.string "elements"]), ("additionalProperties", .bool false)]

theorem lookup_removeField (fields : List (String × Json)) (key name : String) :
    (removeField fields key).lookup name = if name = key then none else fields.lookup name := by
  induction fields with
  | nil => simp [removeField]
  | cons field rest ih =>
    rw [removeField] at ih ⊢
    by_cases hKey : field.1 = key
    · rw [List.filter_cons_of_neg (by simp [hKey]), ih, lookup_cons_eq, hKey]
      split_ifs <;> rfl
    · rw [List.filter_cons_of_pos (by simp [hKey]), lookup_cons_eq, lookup_cons_eq, ih]
      by_cases hName : name = field.1
      · rw [if_pos hName, if_neg (hName ▸ hKey), if_pos hName]
      · rw [if_neg hName, if_neg hName]

theorem lookup_optional (value : Option Json) (key name : String) :
    ((value.map fun value => (key, value)).toList).lookup name = if name = key then value else none := by
  cases value with
  | none => simp
  | some value =>
    rw [Option.map_some, Option.toList_some, lookup_cons_eq]
    rfl

theorem lookup_fields (key : String) : ((asObject element).getD []).lookup key = element.get key := by
  rw [Json.get]
  cases asObject element <;> rfl

variable {element minItems maxItems}

theorem itemFields_get {key : String} (h : key ∉ Vocabulary.LIFTED) :
    (Json.object (itemFields element)).get key = element.get key := by
  have hKeys : key ≠ "$schema" ∧ key ≠ "definitions" ∧ key ≠ "$defs" := by simpa [Vocabulary.LIFTED] using h
  rw [Json.get, asObject, Option.bind_some, itemFields, lookup_removeField, if_neg hKeys.2.2, lookup_removeField,
    if_neg hKeys.2.1, lookup_removeField, if_neg hKeys.1, lookup_fields]

/-- The wrapper, member by member. -/
theorem arraySchema_get (key : String) : (arraySchema element minItems maxItems).get key =
    if key = "$schema" then some (.string JSON_SCHEMA_DRAFT_07)
    else if key = "definitions" ∨ key = "$defs" then element.get key
    else (wrapperFields element minItems maxItems).lookup key := by
  have hSchema : (arraySchema element minItems maxItems).get key =
      ([("$schema", Json.string JSON_SCHEMA_DRAFT_07)] ++
        ((element.get "definitions").map fun definitions => ("definitions", definitions)).toList ++
        ((element.get "$defs").map fun defs => ("$defs", defs)).toList ++
        wrapperFields element minItems maxItems).lookup key := by
    have hDefinitions : (removeField ((asObject element).getD []) "$schema").lookup "definitions" =
        element.get "definitions" := by
      rw [lookup_removeField, if_neg (by decide), lookup_fields]
    have hDefs : (removeField (removeField ((asObject element).getD []) "$schema") "definitions").lookup "$defs" =
        element.get "$defs" := by
      rw [lookup_removeField, if_neg (by decide), lookup_removeField, if_neg (by decide), lookup_fields]
    rw [← hDefinitions, ← hDefs]
    rfl
  rw [hSchema, List.lookup_append, List.lookup_append, List.lookup_append, lookup_optional, lookup_optional,
    lookup_cons_eq, List.lookup_nil]
  by_cases hFirst : key = "$schema"
  · rw [if_pos hFirst, if_pos hFirst]
    rfl
  · rw [if_neg hFirst, if_neg hFirst]
    by_cases hDefinitions : key = "definitions"
    · subst hDefinitions
      cases element.get "definitions" <;> rfl
    · by_cases hDefs : key = "$defs"
      · subst hDefs
        cases element.get "$defs" <;> rfl
      · rw [if_neg hDefinitions, if_neg hDefs, if_neg (not_or.mpr ⟨hDefinitions, hDefs⟩)]
        rfl

theorem elementsSchema_get (key : String) : (elementsSchema element minItems maxItems).get key =
    if key = "minItems" then minItems.map count else if key = "maxItems" then maxItems.map count
    else [("type", Json.string "array"), ("items", Json.object (itemFields element))].lookup key := by
  have hMin : (minItems.map fun minItems => ("minItems", count minItems)) =
      (minItems.map count).map fun count => ("minItems", count) := by
    rw [Option.map_map]
    rfl
  have hMax : (maxItems.map fun maxItems => ("maxItems", count maxItems)) =
      (maxItems.map count).map fun count => ("maxItems", count) := by
    rw [Option.map_map]
    rfl
  rw [elementsSchema, Json.get, asObject, Option.bind_some, List.lookup_append, List.lookup_append, hMin, hMax,
    lookup_optional, lookup_optional]
  by_cases hFirst : key = "minItems"
  · subst hFirst
    cases minItems <;> rfl
  · by_cases hSecond : key = "maxItems"
    · subst hSecond
      cases maxItems <;> rfl
    · rw [if_neg hFirst, if_neg hSecond, if_neg hFirst, if_neg hSecond, Option.or_none, Option.or_none]

end

/-! ## The element in the wrapper -/

variable {document : Json} {schema : Json}

namespace Vocabulary

variable {vocabulary : Vocabulary}

theorem Formed.shaped {schema argument : Json} {key : String} (h : vocabulary.Formed document schema)
    (hGet : schema.get key = some argument) : vocabulary.isShaped key argument = true := by
  cases h with
  | object hShaped _ => exact hShaped key argument hGet
  | _ => cases hGet

theorem Formed.resolves (h : vocabulary.Formed document schema) (hReference : schema.getStr "$ref" = some name) :
    (vocabulary.resolve document name).isSome = true := by
  cases h with
  | object _ hResolves => exact hResolves name hReference
  | _ => cases hReference

section

variable {fields : List (String × Json)} (minItems maxItems : Option UInt32)

theorem resolve_wrapper (h : vocabulary.IntoDefinitions name) :
    vocabulary.resolve (arraySchema (.object fields) minItems maxItems) name =
      vocabulary.resolve (.object fields) name := by
  obtain ⟨key, hKey, rest, hPointer⟩ := h
  have hGet : (arraySchema (.object fields) minItems maxItems).get key = (Json.object fields).get key := by
    have hOther : key ≠ "$schema" := by
      rintro rfl
      revert hKey
      decide
    rw [arraySchema_get, if_neg hOther, if_pos (by simpa using hKey)]
  rw [resolve, resolve, hPointer, Option.bind_some, Option.bind_some]
  exact congrArg (fun found => Option.bind found fun value => walk value rest) hGet

/-- The items of the wrapper are reached in it. -/
theorem item_reached : ReflTransGen (vocabulary.Leads (arraySchema (.object fields) minItems maxItems))
    (arraySchema (.object fields) minItems maxItems) (.object (itemFields (.object fields))) := by
  have hProperties : "properties" ∈ PLACES.maps := by decide
  have hSchemas : "items" ∈ PLACES.schemas := by decide
  have hElements : PLACES.Holds (arraySchema (.object fields) minItems maxItems)
      (elementsSchema (.object fields) minItems maxItems) :=
    .inMap hProperties (by rw [arraySchema_get]; rfl) (List.mem_singleton_self _)
  have hItems : PLACES.Holds (elementsSchema (.object fields) minItems maxItems)
      (.object (itemFields (.object fields))) :=
    .alone hSchemas (by rw [elementsSchema_get]; rfl) rfl
  exact (ReflTransGen.single (.place hElements)).tail (.place hItems)

/-- A schema in the element stands in the wrapper: among its definitions, or in its items. -/
theorem reached_of_place {sub : Json} (h : PLACES.Holds (.object fields) sub) :
    ReflTransGen (vocabulary.Leads (arraySchema (.object fields) minItems maxItems))
      (arraySchema (.object fields) minItems maxItems) sub := by
  have hLists : ∀ key ∈ PLACES.lists, key ∉ LIFTED := by decide
  have hSchemas : ∀ key ∈ PLACES.schemas, key ∉ LIFTED := by decide
  have hMaps : ∀ key ∈ PLACES.maps, key = "definitions" ∨ key ∉ LIFTED := by decide
  cases h with
  | inMap hKey hMap hMember =>
    rcases hMaps _ hKey with rfl | hKept
    · have hDefinitions := hMap
      rw [← (show (arraySchema (.object fields) minItems maxItems).get "definitions" =
        (Json.object fields).get "definitions" by rw [arraySchema_get]; rfl)] at hDefinitions
      exact .single (.place (.inMap hKey hDefinitions hMember))
    · exact (item_reached minItems maxItems).tail (.place (.inMap hKey ((itemFields_get hKept).trans hMap) hMember))
  | inList hKey hList hItem =>
    have hItems := (itemFields_get (hLists _ hKey)).trans hList
    exact (item_reached minItems maxItems).tail (.place (.inList hKey hItems hItem))
  | alone hKey hValue hSchema =>
    have hMember := (itemFields_get (hSchemas _ hKey)).trans hValue
    exact (item_reached minItems maxItems).tail (.place (.alone hKey hMember hSchema))

theorem getStr_itemFields : (Json.object (itemFields (.object fields))).getStr "$ref" =
    (Json.object fields).getStr "$ref" := by
  rw [Json.getStr, Json.getStr, itemFields_get (by decide)]

variable (hReferences : Everywhere (vocabulary.Leads (.object fields))
  (fun schema => ∀ name, schema.getStr "$ref" = some name → vocabulary.IntoDefinitions name) (.object fields))

include hReferences

/-- What the element leads to is reached in the wrapper. -/
theorem reached_in_wrapper (h : ReflTransGen (vocabulary.Leads (.object fields)) (.object fields) schema) :
    schema = .object fields ∨ ReflTransGen (vocabulary.Leads (arraySchema (.object fields) minItems maxItems))
      (arraySchema (.object fields) minItems maxItems) schema := by
  induction h with
  | refl => exact .inl rfl
  | @tail schema sub hSteps hStep ih =>
    right
    have hName := hReferences schema hSteps
    rcases ih with rfl | hReached
    · cases hStep with
      | place hPlace => exact reached_of_place minItems maxItems hPlace
      | reference hReference hTarget =>
        exact (item_reached minItems maxItems).tail (.reference (getStr_itemFields.trans hReference)
          ((resolve_wrapper minItems maxItems (hName _ hReference)).trans hTarget))
    · cases hStep with
      | place hPlace => exact hReached.tail (.place hPlace)
      | reference hReference hTarget =>
        have hThere := (resolve_wrapper minItems maxItems (hName _ hReference)).trans hTarget
        exact hReached.tail (.reference hReference hThere)

/-- The element is a schema by itself if the wrapper is one. -/
theorem valid_of_wrapper (hShaped : ∀ argument, (Json.object fields).get "$schema" = some argument →
      vocabulary.isShaped "$schema" argument = true)
    (hValid : vocabulary.Valid (arraySchema (.object fields) minItems maxItems)) :
    vocabulary.Valid (.object fields) := by
  intro schema hSteps
  have hName := hReferences schema hSteps
  rcases reached_in_wrapper minItems maxItems hReferences hSteps with rfl | hReached
  · have hItem := hValid _ (item_reached minItems maxItems)
    refine .object (fun key argument hGet => ?_) fun name hReference => ?_
    · by_cases hKept : key ∈ LIFTED
      · by_cases hSchema : key = "$schema"
        · subst hSchema
          exact hShaped argument hGet
        · have hBeside : key = "definitions" ∨ key = "$defs" := by simpa [LIFTED, hSchema] using hKept
          have hWrapper : (arraySchema (.object fields) minItems maxItems).get key = some argument := by
            rw [arraySchema_get, if_neg hSchema, if_pos hBeside, hGet]
          exact hValid.here.shaped hWrapper
      · exact hItem.shaped ((itemFields_get hKept).trans hGet)
    · rw [← resolve_wrapper minItems maxItems (hName name hReference)]
      exact hItem.resolves (getStr_itemFields.trans hReference)
  · have hFormed := hValid schema hReached
    cases hFormed with
    | bool verdict => exact .bool verdict
    | names names => exact .names names
    | object hMembers hResolves =>
      refine .object hMembers fun name hReference => ?_
      rw [← resolve_wrapper minItems maxItems (hName name hReference)]
      exact hResolves name hReference

/-- An item is told by the element as it is told in the wrapper. -/
theorem check_item (fuel : Nat) (item : Json) :
    vocabulary.check (vocabulary.resolve (arraySchema (.object fields) minItems maxItems)) fuel
        (.object (itemFields (.object fields))) item =
      vocabulary.check (vocabulary.resolve (.object fields)) fuel (.object fields) item := by
  have hSame : ∀ key, key ∉ LIFTED →
      (Json.object (itemFields (.object fields))).get key = (Json.object fields).get key :=
    fun key hKey => itemFields_get hKey
  rw [check_of_get hSame]
  symm
  exact check_congr (fun schema sub hReached hPlace => hReached.tail (.place hPlace))
    (fun schema name target hReached hReference hTarget => hReached.tail (.reference hReference hTarget))
    (fun schema name hReached hReference =>
      (resolve_wrapper minItems maxItems (hReferences schema hReached name hReference)).symm)
    fuel .refl item

end

end Vocabulary

/-! ## Parsing what satisfies the schema -/

section

variable {vocabulary : Vocabulary} {libraries : Libraries} {fromStr : String → Except SourceError Json} {text : String}
variable {value : Json}

theorem parseJson_eq (hParse : fromStr text = .ok value) (hAllowed : containsForbiddenPrototype value = false) :
    parseJson fromStr text = .ok value := by
  simp [parseJson, hParse, hAllowed]

theorem validate_eq_ok (hLaws : vocabulary.CrateLaws libraries) (hPlain : vocabulary.Plain schema)
    (h : vocabulary.Satisfies schema value) : validate libraries value schema = .ok () := by
  obtain ⟨validator, hValidator, hOk⟩ := hLaws.accepts hPlain h
  rw [validate, hValidator]
  dsimp only
  rw [hOk]

theorem validateAll_eq_ok {element : Json} {items : List Json}
    (h : ∀ item ∈ items, validate libraries item element = .ok ()) : validateAll libraries element items = .ok () := by
  induction items with
  | nil => rfl
  | cons item rest ih =>
    obtain ⟨hItem, hRest⟩ := List.forall_mem_cons.mp h
    rw [validateAll, hItem]
    exact ih hRest

namespace Vocabulary

theorem not_leads_bool {sub : Json} {verdict : Bool} : ¬ vocabulary.Leads document (.bool verdict) sub := by
  rintro (hPlace | ⟨hReference, _⟩)
  · obtain ⟨fields, hFields⟩ := hPlace.isObject
    cases hFields
  · cases hReference

theorem everywhere_bool {P : Json → Prop} {verdict : Bool} (h : P (.bool verdict)) :
    Everywhere (vocabulary.Leads document) P (.bool verdict) :=
  everywhere_iff.mpr ⟨h, fun _ hStep => absurd hStep not_leads_bool⟩

theorem plain_bool (verdict : Bool) : vocabulary.Plain (.bool verdict) where
  dialect _ h := by cases h
  base := .inl (everywhere_bool rfl)

variable {minItems maxItems : Option UInt32}

/-- What passes the items of the wrapper passes the element. -/
theorem satisfies_element (hLaws : vocabulary.CrateLaws libraries) {element : Json}
    (hElement : vocabulary.Liftable element) (hValid : vocabulary.Valid (arraySchema element minItems maxItems))
    {fuel : Nat} {item : Json}
    (hCheck : vocabulary.check (vocabulary.resolve (arraySchema element minItems maxItems)) fuel
      (.object (itemFields element)) item = some true) :
    vocabulary.Plain element ∧ vocabulary.Satisfies element item := by
  cases hElement with
  | anything => exact ⟨plain_bool true, everywhere_bool (.bool true), 1, rfl⟩
  | @object fields hPlain hReferences =>
    have hShaped (argument : Json) (hGet : (Json.object fields).get "$schema" = some argument) :
        vocabulary.isShaped "$schema" argument = true := by
      obtain ⟨uri, hUri, rfl⟩ := hPlain.dialect argument hGet
      exact hLaws.shaped uri hUri
    exact ⟨hPlain, valid_of_wrapper minItems maxItems hReferences hShaped hValid, fuel,
      (check_item minItems maxItems hReferences fuel item).symm.trans hCheck⟩

/-- What a value of the wrapper holds. -/
theorem elements_of_check {resolve : String → Option Json} {element : Json} {fuel : Nat}
    (hCheck : vocabulary.check resolve fuel (arraySchema element minItems maxItems) value = some true) :
    ∃ items below, value.get "elements" = some (.array items) ∧
      (∀ item ∈ items, vocabulary.check resolve below (.object (itemFields element)) item = some true) ∧
      (∀ least ∈ minItems, least.toNat ≤ items.length) ∧ ∀ most ∈ maxItems, items.length ≤ most.toNat := by
  have hNoReference : (arraySchema element minItems maxItems).get "$ref" = none := by
    rw [arraySchema_get]
    rfl
  have hBelow : (elementsSchema element minItems maxItems).get "$ref" = none := by
    rw [elementsSchema_get]
    rfl
  obtain ⟨fields, rfl⟩ := isObject_of_check hCheck hNoReference (by rw [arraySchema_get]; rfl)
  obtain ⟨member, hMember⟩ := get_of_required "elements" hCheck hNoReference (by rw [arraySchema_get]; rfl) rfl
  obtain ⟨below, hElements⟩ := check_property (elementsSchema element minItems maxItems) hCheck hNoReference
    (by rw [arraySchema_get]; rfl) (by rfl) hMember
  obtain ⟨items, rfl⟩ := isArray_of_check hElements hBelow (by rw [elementsSchema_get]; rfl)
  obtain ⟨fuel, hItems⟩ := check_items (.object (itemFields element)) hElements hBelow
    (by rw [elementsSchema_get]; rfl) rfl
  refine ⟨items, fuel, hMember, hItems, ?_, ?_⟩
  · rintro least rfl
    exact length_of_minItems hElements hBelow (by rw [elementsSchema_get]; rfl)
  · rintro most rfl
    exact length_of_maxItems hElements hBelow (by rw [elementsSchema_get]; rfl)

theorem result_of_check {resolve : String → Option Json} {options : List String} {fuel : Nat}
    (hCheck : vocabulary.check resolve fuel (choiceSchema options) value = some true) :
    ∃ result ∈ options, value.get "result" = some (.string result) := by
  obtain ⟨fields, rfl⟩ := isObject_of_check hCheck rfl rfl
  obtain ⟨member, hMember⟩ := get_of_required "result" hCheck rfl rfl rfl
  obtain ⟨below, hResult⟩ := check_property
    (.object [("type", .string "string"), ("enum", .array (options.map .string))]) hCheck rfl rfl rfl hMember
  obtain ⟨_, hType⟩ := check_keyword .type hResult rfl (by decide) rfl
  obtain ⟨_, hEnum⟩ := check_keyword .enum hResult rfl (by decide) rfl
  cases member with
  | string result =>
    obtain ⟨option, hOption, hSame⟩ := List.any_eq_true.mp (Option.some.inj hEnum)
    obtain ⟨name, hName, rfl⟩ := List.mem_map.mp hOption
    obtain rfl : result = name := beq_iff_eq.mp hSame
    exact ⟨result, hName, hMember⟩
  | _ => cases hType

end Vocabulary

theorem validate_ne_ok (hLaws : vocabulary.CrateLaws libraries) (hPlain : vocabulary.Plain schema)
    (h : ¬ vocabulary.Satisfies schema value) : validate libraries value schema ≠ .ok () := by
  rw [validate]
  cases hValidator : libraries.validatorFor schema with
  | error error => exact nofun
  | ok validator =>
    dsimp only
    cases hOutcome : validator value with
    | error error => exact nofun
    | ok done => exact absurd hOutcome (hLaws.rejects hPlain h validator hValidator)

/-- One item that the element does not accept, and no text is parsed. -/
theorem parse_ne_ok (hLaws : vocabulary.CrateLaws libraries) {element item : Json} (hPlain : vocabulary.Plain element)
    (h : ¬ vocabulary.Satisfies element item) (hElements : value.get "elements" = some (.array [item]))
    (hParse : fromStr text = .ok value) (hAllowed : containsForbiddenPrototype value = false) (parsed : Json) :
    (Output.array element none none none none).parseCompleteOutput libraries fromStr text ≠ .ok parsed := by
  have hFails := validate_ne_ok hLaws hPlain h
  simp only [Output.parseCompleteOutput, parseJson_eq hParse hAllowed, bind, Except.bind, hElements, Option.bind,
    asArray, Option.filter_none, validateAll]
  cases hItem : validate libraries item element with
  | error cause => exact nofun
  | ok done => exact absurd hItem hFails

end

/-! ## Elements that are not kept -/

/-- A vocabulary for schemas without patterns and numbers; the only pointer is the one to the whole document. -/
def plainVocabulary : Vocabulary where
  pointer name := if name = "#" then some [] else none
  matchesPattern _ _ := false
  equal _ _ := false
  isIntegral number := match number with
    | .int _ => true
    | .float _ => false
  assertion _ _ _ := true
  isShaped _ _ := true

open Classical in
/-- The crate as it is documented. -/
noncomputable def draft07Libraries (vocabulary : Vocabulary) : Libraries where
  parseInputText _ := .error (.mk "" none)
  validatorFor document := .ok fun value =>
    if vocabulary.Satisfies document value then .ok () else .error (.mk "the value does not match" none)
  jsonText _ := ""
  errorText _ := ""
  encodeBase64 _ := ""
  sameNumber a b := a == b

theorem draft07Libraries_laws : plainVocabulary.CrateLaws (draft07Libraries plainVocabulary) where
  shaped _ _ := rfl
  accepts _ h := ⟨_, rfl, if_pos h⟩
  rejects _ h validator hValidator := by
    cases hValidator
    dsimp only
    rw [if_neg h]
    exact nofun

/-- Arrays of such arrays. -/
def nestedArrays : Json := .object [("type", .string "array"), ("items", .object [("$ref", .string "#")])]

def emptyElements : Json := .object [("elements", .array [])]

def wholeDocument : Json := .object [("$ref", .string "#")]

theorem wholeDocument_target {target : Json} (hName : wholeDocument.getStr "$ref" = some name)
    (hTarget : plainVocabulary.resolve document name = some target) : target = document := by
  cases hName
  cases hTarget
  rfl

theorem formed_wholeDocument (document : Json) : plainVocabulary.Formed document wholeDocument :=
  .object (fun _ _ _ => rfl) fun name hName => by
    cases hName
    rfl

theorem formed_object (document : Json) {fields : List (String × Json)}
    (hNoReference : (Json.object fields).getStr "$ref" = none) : plainVocabulary.Formed document (.object fields) :=
  .object (fun _ _ _ => rfl) fun name hName => by
    rw [hNoReference] at hName
    cases hName

theorem nestedArrays_plain : plainVocabulary.Plain nestedArrays where
  dialect _ h := by cases h
  base := by
    left
    have hSubs : Vocabulary.subschemas nestedArrays = [wholeDocument] := rfl
    have hNone : Vocabulary.subschemas wholeDocument = [] := rfl
    refine Vocabulary.everywhere_of_closed (List.mem_cons_self : nestedArrays ∈ [nestedArrays, wholeDocument]) ?_ ?_ ?_
    · simp [hSubs, hNone]
    · rw [List.forall_mem_cons, List.forall_mem_singleton]
      refine ⟨fun name hName => (by cases hName), fun name hName target hTarget => ?_⟩
      rw [wholeDocument_target hName hTarget]
      exact List.mem_cons_self
    · rw [List.forall_mem_cons, List.forall_mem_singleton]
      exact ⟨rfl, rfl⟩

/-- The wrapper of arrays of such arrays is a schema: its reference leads to the wrapper. -/
theorem wrapper_valid : plainVocabulary.Valid (arraySchema nestedArrays none none) := by
  have hWrapper : Vocabulary.subschemas (arraySchema nestedArrays none none) =
      [elementsSchema nestedArrays none none, .bool false] := rfl
  have hElements : Vocabulary.subschemas (elementsSchema nestedArrays none none) =
      [.object (itemFields nestedArrays)] := rfl
  have hItem : Vocabulary.subschemas (.object (itemFields nestedArrays)) = [wholeDocument] := rfl
  have hReference : Vocabulary.subschemas wholeDocument = [] := rfl
  have hFalse : Vocabulary.subschemas (.bool false) = [] := rfl
  refine Vocabulary.everywhere_of_closed (List.mem_cons_self : _ ∈ [arraySchema nestedArrays none none,
    elementsSchema nestedArrays none none, .object (itemFields nestedArrays), wholeDocument, .bool false]) ?_ ?_ ?_
  · simp [hWrapper, hElements, hItem, hReference, hFalse]
  · simp only [List.forall_mem_cons]
    refine ⟨fun name hName => (by cases hName), fun name hName => (by cases hName), fun name hName => (by cases hName),
      fun name hName target hTarget => ?_, fun name hName => (by cases hName), nofun⟩
    rw [wholeDocument_target hName hTarget]
    exact List.mem_cons_self
  · simp only [List.forall_mem_cons]
    exact ⟨formed_object _ rfl, formed_object _ rfl, formed_object _ rfl, formed_wholeDocument _, .bool false, nofun⟩

theorem wrapper_valid_bool (verdict : Bool) : plainVocabulary.Valid (arraySchema (.bool verdict) none none) := by
  have hWrapper : Vocabulary.subschemas (arraySchema (.bool verdict) none none) =
      [elementsSchema (.bool verdict) none none, .bool false] := rfl
  have hElements : Vocabulary.subschemas (elementsSchema (.bool verdict) none none) = [.object []] := rfl
  have hItem : Vocabulary.subschemas (.object []) = [] := rfl
  have hFalse : Vocabulary.subschemas (.bool false) = [] := rfl
  refine Vocabulary.everywhere_of_closed (List.mem_cons_self : _ ∈ [arraySchema (.bool verdict) none none,
    elementsSchema (.bool verdict) none none, .object [], .bool false]) ?_ ?_ ?_
  · simp [hWrapper, hElements, hItem, hFalse]
  · simp only [List.forall_mem_cons]
    exact ⟨fun name hName => (by cases hName), fun name hName => (by cases hName), fun name hName => (by cases hName),
      fun name hName => (by cases hName), nofun⟩
  · simp only [List.forall_mem_cons]
    exact ⟨formed_object _ rfl, formed_object _ rfl, formed_object _ rfl, .bool false, nofun⟩

theorem not_nestedArrays : ¬ plainVocabulary.Satisfies nestedArrays (.array [emptyElements]) := by
  rintro ⟨-, fuel, hCheck⟩
  obtain ⟨below, hItems⟩ := Vocabulary.check_items wholeDocument hCheck rfl rfl rfl
  have hItem := hItems emptyElements (List.mem_singleton_self _)
  cases below with
  | zero => cases hItem
  | succ below =>
    have hTarget : plainVocabulary.check (plainVocabulary.resolve nestedArrays) below nestedArrays emptyElements =
        some true := hItem
    obtain ⟨items, hArray⟩ := Vocabulary.isArray_of_check hTarget rfl rfl
    cases hArray

theorem not_false (value : Json) : ¬ plainVocabulary.Satisfies (.bool false) value := by
  rintro ⟨-, fuel, hCheck⟩
  cases fuel <;> cases hCheck

/-- A list of this item satisfies what is sent for the element, and is never parsed. -/
def SentDiffers (element item : Json) : Prop :=
  plainVocabulary.Satisfies (arraySchema element none none) (.object [("elements", .array [item])]) ∧
    ∀ fromStr text parsed, fromStr text = .ok (.object [("elements", .array [item])]) →
      (Output.array element none none none none).parseCompleteOutput (draft07Libraries plainVocabulary) fromStr text ≠
        .ok parsed

end Aimux.Structured
