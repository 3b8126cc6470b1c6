import Aimux.Anthropic.SanitizeJsonSchema
import Aimux.Lib.Everywhere

/-! # What is left of a schema

Only keywords that are accepted, the names of properties and of what is required; and nothing changes a second time.
-/

namespace Aimux.Anthropic

open Aimux.Core
open Aimux.Lib (Everywhere everywhere_iff)

/-! ## Members of a sanitized schema -/

section

variable (schema : Json) (f : Json → Json) (key : String)

theorem listUnder_plain (hKey : key ∈ sanitized.lists) : listUnder schema (fun sub _ => f sub) key hKey =
    ((schema.get key).bind asArray).map fun items => .array (items.map f) := by
  unfold listUnder
  split
  · rename_i items hList
    refine (congrArg (fun held => some (Json.array held)) List.attach_map_val).trans ?_
    rw [hList]
    rfl
  · rename_i hNot
    cases hGet : schema.get key with
    | none => rfl
    | some value =>
      cases value with
      | array items => exact absurd hGet (hNot items)
      | _ => rfl

theorem mapUnder_plain (hKey : key ∈ sanitized.maps) : mapUnder schema (fun sub _ => f sub) key hKey =
    ((schema.get key).bind asObject).map fun members => .object (members.map fun member => (member.1, f member.2)) := by
  unfold mapUnder
  split
  · rename_i members hMap
    refine (congrArg (fun held => some (Json.object held))
      (List.attach_map_val (f := fun member : String × Json => (member.1, f member.2)))).trans ?_
    rw [hMap]
    rfl
  · rename_i hNot
    cases hGet : schema.get key with
    | none => rfl
    | some value =>
      cases value with
      | object members => exact absurd hGet (hNot members)
      | _ => rfl

theorem oneUnder_plain (hKey : key ∈ sanitized.schemas) : oneUnder schema (fun sub _ => f sub) key hKey =
    ((schema.get key).filter (!·.isArray)).map f := by
  unfold oneUnder
  split
  · rename_i one hOne
    exact (congrArg (Option.map f) hOne).symm
  · rename_i hNone
    rw [hNone]
    rfl

end

theorem lookup_present (members : List (String × Option Json)) (hKeys : (members.map (·.1)).Nodup) (key : String) :
    (present members).lookup key = (members.lookup key).join := by
  induction members with
  | nil => rfl
  | cons member rest ih =>
    obtain ⟨name, value⟩ := member
    obtain ⟨hNew, hRest⟩ := List.nodup_cons.mp hKeys
    have hFront : present ((name, value) :: rest) = (value.toList.map fun held => (name, held)) ++ present rest := by
      cases value <;> rfl
    rw [hFront, List.lookup_append, ih hRest, List.lookup_cons]
    by_cases hName : key = name
    · have hNone : rest.lookup name = none := by
        rw [List.lookup_eq_none_iff]
        intro other hOther
        rw [bne_iff_ne]
        exact fun hSame => hNew (List.mem_map.mpr ⟨other, hOther, hSame.symm⟩)
      rw [hName, beq_self_eq_true, hNone]
      cases value with
      | none => rfl
      | some held =>
        rw [Option.toList_some, List.map_singleton, List.lookup_cons_self]
        rfl
    · rw [beq_false_of_ne hName]
      cases value with
      | none => rfl
      | some held =>
        rw [Option.toList_some, List.map_singleton, List.lookup_cons, beq_false_of_ne hName]
        rfl

variable (numberText : JsonNumber → List Char) {key : String}

theorem lookup_describe (schema : Json) (result : List (String × Json)) (hKey : key ≠ "description") :
    (describe numberText schema result).lookup key = result.lookup key := by
  unfold describe
  split
  · rw [lookup_insertField, if_neg hKey]
  · rfl

variable {value : Json}

section

variable {schema : Json}

theorem sanitizeSchema_other (hObject : schema.isObject = false) : sanitizeSchema numberText schema = schema := by
  cases schema with
  | object fields => cases hObject
  | _ => rw [sanitizeSchema]; rintro fields ⟨⟩

theorem sanitizeSchema_ref {target : Json} (hRef : refOf schema = some target) :
    sanitizeSchema numberText schema = .object [("$ref", target)] := by
  cases schema with
  | object fields => rw [sanitizeSchema, hRef]
  | _ => cases hRef

/-- What is kept of a schema. -/
def kept (schema : Json) : List (String × Option Json) := keptMembers schema fun sub _ => sanitizeSchema numberText sub

theorem sanitizeSchema_members (hObject : schema.isObject = true) (hRef : refOf schema = none) :
    sanitizeSchema numberText schema = .object (describe numberText schema (present (kept numberText schema))) := by
  cases schema with
  | object fields =>
    rw [sanitizeSchema, hRef]
    rfl
  | _ => cases hObject

/-- The keywords of a schema that is no reference. -/
def KEPT_KEYWORDS : List String :=
  ["$schema", "$id", "title", "description", "default", "const", "enum", "type", "anyOf", "allOf", "definitions", "$defs",
    "properties", "additionalProperties", "required", "items", "format"]

theorem kept_keywords (schema : Json) : (kept numberText schema).map (·.1) = KEPT_KEYWORDS := rfl

theorem mem_kept_keywords (h : ((kept numberText schema).lookup key).join = some value) :
    key ∈ KEPT_KEYWORDS := by
  obtain ⟨held, hHeld⟩ := Option.isSome_iff_exists.mp (Option.isSome_of_mem (Option.join_eq_some_iff.mp h))
  obtain ⟨front, rest, hList, _⟩ := List.lookup_eq_some_iff.mp hHeld
  rw [← kept_keywords numberText schema, hList, List.map_append]
  exact List.mem_append_right _ (List.mem_cons_self ..)

theorem get_sanitizeSchema (hObject : schema.isObject = true) (hRef : refOf schema = none)
    (hKey : key ≠ "description") :
    (sanitizeSchema numberText schema).get key = ((kept numberText schema).lookup key).join := by
  rw [sanitizeSchema_members numberText hObject hRef]
  exact (lookup_describe numberText schema _ hKey).trans
    (lookup_present _ ((kept_keywords numberText schema).symm ▸ (by decide)) key)

end

/-! ## Keywords -/

/-- The places of schemas, of any draft. -/
def anyDraft : Keywords where
  maps := ["properties", "patternProperties", "definitions", "$defs", "dependencies", "dependentSchemas"]
  lists := ["items", "prefixItems", "allOf", "anyOf", "oneOf"]
  schemas := ["items", "additionalItems", "unevaluatedItems", "contains", "additionalProperties", "unevaluatedProperties",
    "propertyNames", "not", "if", "then", "else", "contentSchema"]

/-- Of an object, every keyword is one that the decoder accepts. -/
def onlyKept : Json → Bool
  | .object fields => fields.all (·.1 ∈ "$ref" :: KEPT_KEYWORDS)
  | _ => true

variable {members fields : List (String × Json)} {items : List Json} {field : String × Json} {sub : Json}

section

variable {schema : Json}

theorem mem_present {members : List (String × Option Json)} (h : field ∈ present members) :
    field.1 ∈ members.map (·.1) := by
  obtain ⟨member, hMember, hField⟩ := List.mem_filterMap.mp h
  obtain ⟨value, _, hValue⟩ := Option.map_eq_some_iff.mp hField
  exact hValue ▸ List.mem_map_of_mem hMember

theorem mem_insertField {name : String} {new : Json} (h : field ∈ insertField fields name new) :
    field.1 = name ∨ field ∈ fields := by
  unfold insertField at h
  split at h
  · obtain ⟨old, hOld, hField⟩ := List.mem_map.mp h
    split at hField
    · exact .inl (congrArg Prod.fst hField).symm
    · exact .inr (hField ▸ hOld)
  · rcases List.mem_append.mp h with hOld | hNew
    · exact .inr hOld
    · exact .inl (congrArg Prod.fst (List.mem_singleton.mp hNew))

theorem mem_describe {result : List (String × Json)} (h : field ∈ describe numberText schema result) :
    field.1 = "description" ∨ field ∈ result := by
  unfold describe at h
  split at h
  · exact mem_insertField h
  · exact .inr h

theorem onlyKept_sanitizeSchema (schema : Json) : onlyKept (sanitizeSchema numberText schema) = true := by
  cases hObject : schema.isObject with
  | false =>
    rw [sanitizeSchema_other numberText hObject]
    cases schema with
    | object fields => cases hObject
    | _ => rfl
  | true =>
    cases hRef : refOf schema with
    | some target =>
      rw [sanitizeSchema_ref numberText hRef]
      rfl
    | none =>
      rw [sanitizeSchema_members numberText hObject hRef]
      refine List.all_eq_true.mpr fun field hField => decide_eq_true ?_
      rcases mem_describe numberText hField with hName | hField
      · rw [hName]
        decide
      · exact List.mem_cons_of_mem _ (kept_keywords numberText schema ▸ mem_present hField)

theorem get_asArray (h : (schema.get key).bind asArray = some items) :
    schema.get key = some (.array items) := by
  obtain ⟨value, hValue, hItems⟩ := Option.bind_eq_some_iff.mp h
  rw [hValue]
  cases value with
  | array held => exact congrArg (fun held => some (Json.array held)) (Option.some.inj hItems)
  | _ => cases hItems

theorem get_asObject (h : (schema.get key).bind asObject = some members) :
    schema.get key = some (.object members) := by
  obtain ⟨value, hValue, hMembers⟩ := Option.bind_eq_some_iff.mp h
  rw [hValue]
  cases value with
  | object held => exact congrArg (fun held => some (Json.object held)) (Option.some.inj hMembers)
  | _ => cases hMembers

variable {f : Json → Json}

theorem listUnder_some (hKey : key ∈ sanitized.lists)
    (h : listUnder schema (fun sub _ => f sub) key hKey = some value) :
    ∃ items, schema.get key = some (.array items) ∧ value = .array (items.map f) := by
  rw [listUnder_plain] at h
  obtain ⟨items, hItems, hValue⟩ := Option.map_eq_some_iff.mp h
  exact ⟨items, get_asArray hItems, hValue.symm⟩

theorem mapUnder_some (hKey : key ∈ sanitized.maps) (h : mapUnder schema (fun sub _ => f sub) key hKey = some value) :
    ∃ members, schema.get key = some (.object members) ∧
      value = .object (members.map fun member => (member.1, f member.2)) := by
  rw [mapUnder_plain] at h
  obtain ⟨members, hMembers, hValue⟩ := Option.map_eq_some_iff.mp h
  exact ⟨members, get_asObject hMembers, hValue.symm⟩

theorem oneUnder_some (hKey : key ∈ sanitized.schemas)
    (h : oneUnder schema (fun sub _ => f sub) key hKey = some value) :
    ∃ one, schema.get key = some one ∧ one.isArray = false ∧ value = f one := by
  rw [oneUnder_plain] at h
  obtain ⟨one, hOne, hValue⟩ := Option.map_eq_some_iff.mp h
  obtain ⟨hGet, hSchema⟩ := Option.filter_eq_some_iff.mp hOne
  exact ⟨one, hGet, (Bool.not_eq_true' _).mp hSchema, hValue.symm⟩

/-- A value under a keyword with schemas, and what it was. -/
theorem holds_of_listUnder (hKey : key ∈ sanitized.lists)
    (h : listUnder schema (fun sub _ => sanitizeSchema numberText sub) key hKey = some (.array items))
    (hSub : sub ∈ items) : ∃ given, sanitized.Holds schema given ∧ sub = sanitizeSchema numberText given := by
  obtain ⟨held, hHeld, hItems⟩ := listUnder_some hKey h
  cases hItems
  obtain ⟨given, hGiven, rfl⟩ := List.mem_map.mp hSub
  exact ⟨given, .inList hKey hHeld hGiven, rfl⟩

theorem holds_of_mapUnder {key name : String} (hKey : key ∈ sanitized.maps)
    (h : mapUnder schema (fun sub _ => sanitizeSchema numberText sub) key hKey = some (.object members))
    (hSub : (name, sub) ∈ members) : ∃ given, sanitized.Holds schema given ∧ sub = sanitizeSchema numberText given := by
  obtain ⟨held, hHeld, hMembers⟩ := mapUnder_some hKey h
  cases hMembers
  obtain ⟨⟨givenName, given⟩, hGiven, hPair⟩ := List.mem_map.mp hSub
  exact ⟨given, .inMap hKey hHeld hGiven, (congrArg Prod.snd hPair).symm⟩

theorem isArray_sanitizeSchema (schema : Json) : (sanitizeSchema numberText schema).isArray = schema.isArray := by
  cases schema with
  | object fields =>
    rw [sanitizeSchema]
    cases refOf (.object fields) <;> rfl
  | _ => rw [sanitizeSchema_other numberText rfl]

/-- A schema in a sanitized schema is a schema that was sanitized. -/
theorem holds_sanitizeSchema (h : anyDraft.Holds (sanitizeSchema numberText schema) sub) :
    (∃ given, sanitized.Holds schema given ∧ sub = sanitizeSchema numberText given) ∨ sub = .bool false := by
  obtain ⟨fields, hFields⟩ := h.isObject
  cases hObject : schema.isObject with
  | false =>
    rw [sanitizeSchema_other numberText hObject] at hFields
    rw [hFields] at hObject
    cases hObject
  | true =>
  cases hRef : refOf schema with
  | some target =>
    -- Under `$ref` alone no schema stands.
    have hNone {key : String} (hKey : key ∈ anyDraft.maps ++ anyDraft.lists ++ anyDraft.schemas) :
        (sanitizeSchema numberText schema).get key = none := by
      rw [sanitizeSchema_ref numberText hRef]
      have hOther : key ≠ "$ref" := fun hSame => absurd (hSame ▸ hKey) (by decide)
      exact (lookup_cons_eq ("$ref", target) [] key).trans (if_neg hOther)
    cases h with
    | inMap hKey hMap _ =>
      rw [hNone (List.mem_append_left _ (List.mem_append_left _ hKey))] at hMap
      cases hMap
    | inList hKey hList _ =>
      rw [hNone (List.mem_append_left _ (List.mem_append_right _ hKey))] at hList
      cases hList
    | alone hKey hValue _ =>
      rw [hNone (List.mem_append_right _ hKey)] at hValue
      cases hValue
  | none =>
    have hKept {key : String} {value : Json} (hKey : key ∈ anyDraft.maps ++ anyDraft.lists ++ anyDraft.schemas)
        (hValue : (sanitizeSchema numberText schema).get key = some value) :
        key ∈ KEPT_KEYWORDS ∧ ((kept numberText schema).lookup key).join = some value := by
      rw [get_sanitizeSchema numberText hObject hRef fun hSame => absurd (hSame ▸ hKey) (by decide)] at hValue
      exact ⟨mem_kept_keywords numberText hValue, hValue⟩
    cases h with
    | inMap hKey hMap hMember =>
      obtain ⟨hKeyword, hMap⟩ := hKept (List.mem_append_left _ (List.mem_append_left _ hKey)) hMap
      have hKeys : ∀ key ∈ anyDraft.maps, key ∈ KEPT_KEYWORDS → key ∈ ["definitions", "$defs", "properties"] := by decide
      have hName := hKeys _ hKey hKeyword
      simp only [List.mem_cons, List.not_mem_nil, or_false] at hName
      rcases hName with rfl | rfl | rfl
      · exact .inl (holds_of_mapUnder numberText (by decide) hMap hMember)
      · exact .inl (holds_of_mapUnder numberText (by decide) hMap hMember)
      · refine .inl (holds_of_mapUnder numberText (show "properties" ∈ sanitized.maps by decide) ?_ hMember)
        exact (Option.ite_none_right_eq_some.mp hMap).2
    | inList hKey hList hItem =>
      obtain ⟨hKeyword, hList⟩ := hKept (List.mem_append_left _ (List.mem_append_right _ hKey)) hList
      have hKeys : ∀ key ∈ anyDraft.lists, key ∈ KEPT_KEYWORDS → key ∈ ["anyOf", "allOf", "items"] := by decide
      have hName := hKeys _ hKey hKeyword
      simp only [List.mem_cons, List.not_mem_nil, or_false] at hName
      rcases hName with rfl | rfl | rfl
      · rcases Option.or_eq_some_iff.mp hList with hList | ⟨_, hList⟩
        · exact .inl (holds_of_listUnder numberText (by decide) hList hItem)
        · exact .inl (holds_of_listUnder numberText (by decide) hList hItem)
      · exact .inl (holds_of_listUnder numberText (by decide) hList hItem)
      · rcases Option.or_eq_some_iff.mp hList with hList | ⟨_, hOne⟩
        · exact .inl (holds_of_listUnder numberText (by decide) hList hItem)
        · obtain ⟨one, _, hNoList, hSame⟩ := oneUnder_some (by decide) hOne
          have hArray := isArray_sanitizeSchema numberText one
          rw [← hSame, hNoList] at hArray
          cases hArray
    | alone hKey hValue hSchema =>
      obtain ⟨hKeyword, hValue⟩ := hKept (List.mem_append_right _ hKey) hValue
      have hKeys : ∀ key ∈ anyDraft.schemas, key ∈ KEPT_KEYWORDS → key ∈ ["items", "additionalProperties"] := by decide
      have hName := hKeys _ hKey hKeyword
      simp only [List.mem_cons, List.not_mem_nil, or_false] at hName
      rcases hName with rfl | rfl
      · rcases Option.or_eq_some_iff.mp hValue with hList | ⟨_, hOne⟩
        · obtain ⟨items, _, rfl⟩ := listUnder_some (by decide) hList
          cases hSchema
        · obtain ⟨one, hGet, hNoList, rfl⟩ := oneUnder_some (by decide) hOne
          exact .inl ⟨one, .alone (by decide) hGet hNoList, rfl⟩
      · exact .inr (Option.some.inj (Option.ite_none_right_eq_some.mp hValue).2).symm

/-- At every place of a schema in a sanitized schema only keywords stand that the decoder accepts. -/
theorem onlyKept_everywhere (schema : Json) :
    Everywhere anyDraft.Holds (onlyKept · = true) (sanitizeSchema numberText schema) := by
  induction schema using sanitized.induction with
  | hStep schema ih =>
    rw [everywhere_iff]
    refine ⟨onlyKept_sanitizeSchema numberText schema, fun sub hSub => ?_⟩
    rcases holds_sanitizeSchema numberText hSub with ⟨given, hGiven, rfl⟩ | rfl
    · exact ih given hGiven
    · rw [everywhere_iff]
      refine ⟨rfl, fun below hBelow => ?_⟩
      obtain ⟨fields, hFields⟩ := hBelow.isObject
      cases hFields

end

/-! ## Names -/

/-- A place in a schema: under a name or an index below a keyword, or the value of a keyword. -/
inductive Place
  | member (key name : String)
  | item (key : String) (index : Nat)
  | value (key : String)

def standsAt (schema : Json) : Place → Option Json
  | .member key name => ((schema.get key).bind asObject).bind (·.lookup name)
  | .item key index => ((schema.get key).bind asArray).bind (·[index]?)
  | .value key => (schema.get key).filter (!·.isArray)

def standsBelow : Json → List Place → Option Json
  | schema, [] => some schema
  | schema, place :: path => (standsAt schema place).bind (standsBelow · path)

/-- The first place is a place of a sanitized schema, and what stood there now stands at the second one. -/
inductive Carried (schema : Json) : Place → Place → Prop
  | map {key : String} (hKey : key ∈ ["definitions", "$defs", "properties"]) (name : String) :
    Carried schema (.member key name) (.member key name)
  | list {key : String} (hKey : key ∈ ["anyOf", "allOf", "items"]) (index : Nat) :
    Carried schema (.item key index) (.item key index)
  | oneOf (hAnyOf : (schema.get "anyOf").bind asArray = none) (index : Nat) :
    Carried schema (.item "oneOf" index) (.item "anyOf" index)
  | items : Carried schema (.value "items") (.value "items")

/-- A schema below another one, by the path that leads to it afterwards; no reference is passed. -/
inductive Reached : Json → List Place → Json → Prop
  | here (schema : Json) : Reached schema [] schema
  | inside {schema sub found : Json} {place after : Place} {path : List Place} (hRef : refOf schema = none)
    (hCarried : Carried schema place after) (hSub : standsAt schema place = some sub) (hFound : Reached sub path found) :
    Reached schema (after :: path) found

/-- The names and what is required are those of the given schema. -/
structure NamesKept (numberText : JsonNumber → List Char) (given out : Json) : Prop where
  maps : ∀ key ∈ ["definitions", "$defs", "properties"], ∀ members, given.get key = some (.object members) →
    out.get key = some (.object (members.map fun member => (member.1, sanitizeJsonSchema numberText member.2)))
  required : isObjectSchema given = true → out.get "required" = given.get "required"

section

variable {schema : Json} {f : Json → Json}

theorem mapUnder_of_get (hKey : key ∈ sanitized.maps)
    (h : schema.get key = some (.object members)) : mapUnder schema (fun sub _ => f sub) key hKey =
      some (.object (members.map fun member => (member.1, f member.2))) := by
  rw [mapUnder_plain, h]
  rfl

theorem listUnder_of_get (hKey : key ∈ sanitized.lists) (h : schema.get key = some (.array items)) :
    listUnder schema (fun sub _ => f sub) key hKey = some (.array (items.map f)) := by
  rw [listUnder_plain, h]
  rfl

theorem listUnder_none (hKey : key ∈ sanitized.lists)
    (h : (schema.get key).bind asArray = none) : listUnder schema (fun sub _ => f sub) key hKey = none := by
  rw [listUnder_plain, h]
  rfl

section

variable (hObject : schema.isObject = true) (hRef : refOf schema = none)

include hObject hRef

theorem get_map (hKey : key ∈ ["definitions", "$defs", "properties"]) (h : schema.get key = some (.object members)) :
    (sanitizeSchema numberText schema).get key =
      some (.object (members.map fun member => (member.1, sanitizeSchema numberText member.2))) := by
  rw [get_sanitizeSchema numberText hObject hRef fun hSame => absurd (hSame ▸ hKey) (by decide)]
  have hMap := mapUnder_of_get (f := sanitizeSchema numberText) hKey h
  simp only [List.mem_cons, List.not_mem_nil, or_false] at hKey
  rcases hKey with rfl | rfl | rfl
  · exact hMap
  · exact hMap
  · have hTyped : isObjectSchema schema = true := by
      rw [isObjectSchema, h, Option.isSome_some, Bool.or_true]
    exact (if_pos hTyped).trans hMap

theorem get_list (hKey : key ∈ ["anyOf", "allOf", "items"]) (h : schema.get key = some (.array items)) :
    (sanitizeSchema numberText schema).get key = some (.array (items.map (sanitizeSchema numberText))) := by
  rw [get_sanitizeSchema numberText hObject hRef fun hSame => absurd (hSame ▸ hKey) (by decide)]
  have hLists : ∀ key ∈ ["anyOf", "allOf", "items"], key ∈ sanitized.lists := by decide
  have hList := listUnder_of_get (f := sanitizeSchema numberText) (hLists key hKey) h
  simp only [List.mem_cons, List.not_mem_nil, or_false] at hKey
  rcases hKey with rfl | rfl | rfl
  · exact Option.or_eq_some_iff.mpr (.inl hList)
  · exact hList
  · exact Option.or_eq_some_iff.mpr (.inl hList)

theorem get_oneOf (hAnyOf : (schema.get "anyOf").bind asArray = none) (h : schema.get "oneOf" = some (.array items)) :
    (sanitizeSchema numberText schema).get "anyOf" = some (.array (items.map (sanitizeSchema numberText))) := by
  rw [get_sanitizeSchema numberText hObject hRef (by decide)]
  exact Option.or_eq_some_iff.mpr (.inr ⟨listUnder_none (by decide) hAnyOf, listUnder_of_get (by decide) h⟩)

theorem get_items {one : Json} (h : (schema.get "items").filter (!·.isArray) = some one) :
    (sanitizeSchema numberText schema).get "items" = some (sanitizeSchema numberText one) := by
  rw [get_sanitizeSchema numberText hObject hRef (by decide)]
  obtain ⟨hGet, hSchema⟩ := Option.filter_eq_some_iff.mp h
  have hNoList : (schema.get "items").bind asArray = none := by
    rw [hGet]
    cases one with
    | array items => cases hSchema
    | _ => rfl
  refine Option.or_eq_some_iff.mpr (.inr ⟨listUnder_none (by decide) hNoList, ?_⟩)
  rw [oneUnder_plain, h, Option.map_some]

end

theorem lookup_map_snd (f : Json → Json) (members : List (String × Json)) (name : String) :
    (members.map fun member => (member.1, f member.2)).lookup name = (members.lookup name).map f := by
  induction members with
  | nil => rfl
  | cons member rest ih =>
    rw [List.map_cons, lookup_cons_eq, lookup_cons_eq, ih]
    split <;> rfl

/-- What stood at a place stands, sanitized, where that place is carried to. -/
theorem standsAt_carried {place after : Place} (hRef : refOf schema = none) (hCarried : Carried schema place after)
    (hSub : standsAt schema place = some sub) :
    standsAt (sanitizeSchema numberText schema) after = some (sanitizeSchema numberText sub) := by
  cases hCarried with
  | map hKey name =>
    obtain ⟨members, hMembers, hName⟩ := Option.bind_eq_some_iff.mp hSub
    have hGet := get_asObject hMembers
    rw [standsAt, get_map numberText (Json.isObject_of_get hGet) hRef hKey hGet]
    exact (lookup_map_snd _ members name).trans (congrArg (Option.map _) hName)
  | list hKey index =>
    obtain ⟨items, hItems, hIndex⟩ := Option.bind_eq_some_iff.mp hSub
    have hGet := get_asArray hItems
    rw [standsAt, get_list numberText (Json.isObject_of_get hGet) hRef hKey hGet]
    exact List.getElem?_map.trans (congrArg (Option.map _) hIndex)
  | oneOf hAnyOf index =>
    obtain ⟨items, hItems, hIndex⟩ := Option.bind_eq_some_iff.mp hSub
    have hGet := get_asArray hItems
    rw [standsAt, get_oneOf numberText (Json.isObject_of_get hGet) hRef hAnyOf hGet]
    exact List.getElem?_map.trans (congrArg (Option.map _) hIndex)
  | items =>
    obtain ⟨hGet, hSchema⟩ := Option.filter_eq_some_iff.mp hSub
    rw [standsAt, get_items numberText (Json.isObject_of_get hGet) hRef hSub]
    refine Option.filter_eq_some_iff.mpr ⟨rfl, ?_⟩
    rw [isArray_sanitizeSchema]
    exact hSchema

theorem standsBelow_reached {path : List Place} {found : Json} (h : Reached schema path found) :
    standsBelow (sanitizeSchema numberText schema) path = some (sanitizeSchema numberText found) := by
  induction h with
  | here schema => rfl
  | inside hRef hCarried hSub _ ih =>
    rw [standsBelow, standsAt_carried numberText hRef hCarried hSub]
    exact ih

theorem namesKept (hRef : refOf schema = none) : NamesKept numberText schema (sanitizeSchema numberText schema) where
  maps _ hKey _ hGet := get_map numberText (Json.isObject_of_get hGet) hRef hKey hGet
  required hTyped := by
    have hObject : schema.isObject = true := by
      cases schema with
      | object fields => rfl
      | _ => cases hTyped
    rw [get_sanitizeSchema numberText hObject hRef (by decide)]
    exact if_pos hTyped

end

/-! ## A second time -/

/-- Equal values, or none on either side. -/
def SameMember : Option Json → Option Json → Prop := Option.Rel fun a b => valueEq a b = true

theorem sameMember_refl (value : Option Json) : SameMember value value := by
  cases value with
  | none => exact .none
  | some held => exact .some (valueEq_refl held)

theorem fieldsEq_iff (fields others : List (String × Json)) : fieldsEq fields others = true ↔
    ∀ field ∈ fields, ∃ other ∈ others, other.1 = field.1 ∧ valueEq field.2 other.2 = true := by
  induction fields with
  | nil => exact ⟨fun _ => List.forall_mem_nil _, fun _ => rfl⟩
  | cons field rest ih =>
    obtain ⟨key, value⟩ := field
    rw [fieldsEq, Bool.and_eq_true, List.any_eq_true, ih, List.forall_mem_cons]
    refine and_congr_left fun _ => exists_congr fun other => and_congr_right fun _ => ?_
    rw [Bool.and_eq_true, beq_iff_eq]

/-- Objects without repeated keys are equal when their members are. -/
theorem valueEq_of_lookup {others : List (String × Json)} (hFields : (fields.map (·.1)).Nodup)
    (hOthers : (others.map (·.1)).Nodup) (h : ∀ key, SameMember (fields.lookup key) (others.lookup key)) :
    valueEq (.object fields) (.object others) = true := by
  have hKeys (key : String) : key ∈ fields.map (·.1) ↔ key ∈ others.map (·.1) := by
    constructor
    · intro hKey
      obtain ⟨field, hField, rfl⟩ := List.mem_map.mp hKey
      have hSame := h field.1
      rw [lookup_of_mem hFields hField] at hSame
      generalize hOther : others.lookup field.1 = other at hSame
      cases hSame
      exact List.mem_map.mpr ⟨_, mem_of_lookup hOther, rfl⟩
    · intro hKey
      obtain ⟨other, hOther, rfl⟩ := List.mem_map.mp hKey
      have hSame := h other.1
      rw [lookup_of_mem hOthers hOther] at hSame
      generalize hField : fields.lookup other.1 = field at hSame
      cases hSame
      exact List.mem_map.mpr ⟨_, mem_of_lookup hField, rfl⟩
  have hLength := ((List.perm_ext_iff_of_nodup hFields hOthers).mpr hKeys).length_eq
  rw [List.length_map, List.length_map] at hLength
  rw [valueEq, hLength, beq_self_eq_true, Bool.true_and, fieldsEq_iff]
  intro field hField
  have hSame := h field.1
  rw [lookup_of_mem hFields hField] at hSame
  generalize hOther : others.lookup field.1 = other at hSame
  cases hSame with
  | some hEq => exact ⟨_, mem_of_lookup hOther, rfl, hEq⟩

theorem itemsEq_map {f g : Json → Json} (h : ∀ item ∈ items, valueEq (f item) (g item) = true) :
    itemsEq (items.map f) (items.map g) = true := by
  induction items with
  | nil => rfl
  | cons item rest ih =>
    obtain ⟨hItem, hRest⟩ := List.forall_mem_cons.mp h
    rw [List.map_cons, List.map_cons, itemsEq, hItem, ih hRest]
    rfl

theorem nodup_present (schema : Json) : ((present (kept numberText schema)).map (·.1)).Nodup := by
  have hSublist (members : List (String × Option Json)) : ((present members).map (·.1)).Sublist (members.map (·.1)) := by
    induction members with
    | nil => exact .slnil
    | cons member rest ih =>
      obtain ⟨name, value⟩ := member
      cases value with
      | none => exact ih.cons name
      | some held => exact ih.cons_cons name
  exact (hSublist _).nodup (kept_keywords numberText schema ▸ (by decide))

theorem nodup_insertField (hKeys : (fields.map (·.1)).Nodup) (name : String) (new : Json) :
    ((insertField fields name new).map (·.1)).Nodup := by
  unfold insertField
  split
  · have hMap : (fields.map fun field => if field.1 = name then (name, new) else field).map (·.1) = fields.map (·.1) := by
      rw [List.map_map]
      refine List.map_congr_left fun field _ => ?_
      rw [Function.comp_apply]
      split
      · rename_i hName
        exact hName.symm
      · rfl
    rw [hMap]
    exact hKeys
  · rename_i hNone
    rw [List.map_append]
    refine List.nodup_append.mpr ⟨hKeys, List.nodup_singleton _, fun key hKey other hOther => ?_⟩
    rw [List.mem_singleton.mp hOther]
    rintro rfl
    obtain ⟨field, hField, hName⟩ := List.mem_map.mp hKey
    exact hNone (List.any_eq_true.mpr ⟨field, hField, decide_eq_true hName⟩)

variable {schema : Json}

/-- A member that is kept unless it is null is kept again. -/
theorem filled_twice (h : (sanitizeSchema numberText schema).get key = schema.filled key) :
    (sanitizeSchema numberText schema).filled key = (sanitizeSchema numberText schema).get key := by
  rw [Json.filled, h, Json.filled, Option.filter_filter]
  exact congrArg (Option.filter · _) (funext fun _ => Bool.and_self _)

theorem list_twice (hKey : key ∈ sanitized.lists)
    (hOut : schema.get key = some (.array (items.map (sanitizeSchema numberText))))
    (hItems : ∀ item ∈ items,
      valueEq (sanitizeSchema numberText (sanitizeSchema numberText item)) (sanitizeSchema numberText item) = true) :
    SameMember (listUnder schema (fun sub _ => sanitizeSchema numberText sub) key hKey) (schema.get key) := by
  rw [listUnder_of_get hKey hOut, hOut, List.map_map]
  refine .some ?_
  rw [valueEq]
  exact itemsEq_map hItems

theorem map_twice (hKey : key ∈ sanitized.maps)
    (hOut : schema.get key = some (.object (members.map fun member => (member.1, sanitizeSchema numberText member.2))))
    (hMembers : ∀ member ∈ members,
      valueEq (sanitizeSchema numberText (sanitizeSchema numberText member.2)) (sanitizeSchema numberText member.2) = true) :
    SameMember (mapUnder schema (fun sub _ => sanitizeSchema numberText sub) key hKey) (schema.get key) := by
  rw [mapUnder_of_get hKey hOut, hOut, List.map_map]
  refine .some ?_
  rw [valueEq, List.length_map, List.length_map, beq_self_eq_true, Bool.true_and, fieldsEq_iff]
  intro field hField
  obtain ⟨member, hMember, rfl⟩ := List.mem_map.mp hField
  exact ⟨_, List.mem_map_of_mem hMember, rfl, hMembers member hMember⟩

theorem map_kept_twice (hKey : key ∈ sanitized.maps)
    (hBelow : ∀ sub, sanitized.Holds schema sub →
      valueEq (sanitizeSchema numberText (sanitizeSchema numberText sub)) (sanitizeSchema numberText sub) = true)
    (hKept : (sanitizeSchema numberText schema).get key =
      mapUnder schema (fun sub _ => sanitizeSchema numberText sub) key hKey) :
    SameMember (mapUnder (sanitizeSchema numberText schema) (fun sub _ => sanitizeSchema numberText sub) key hKey)
      ((sanitizeSchema numberText schema).get key) := by
  cases hMap : (schema.get key).bind asObject with
  | some members =>
    have hMembers := get_asObject hMap
    rw [mapUnder_of_get hKey hMembers] at hKept
    exact map_twice numberText hKey hKept fun member hMember => hBelow member.2 (.inMap hKey hMembers hMember)
  | none =>
    rw [mapUnder_plain, hMap] at hKept
    rw [mapUnder_plain, hKept]
    exact .none

section

variable {schema : Json} (hObject : schema.isObject = true) (hRef : refOf schema = none)

include hObject hRef

/-- Members that are not kept are absent. -/
theorem get_sanitizeSchema_none (hKey : key ∉ KEPT_KEYWORDS) : (sanitizeSchema numberText schema).get key = none := by
  have hOther : key ≠ "description" := fun hSame => hKey (hSame ▸ (by decide))
  rw [get_sanitizeSchema numberText hObject hRef hOther]
  cases hLookup : ((kept numberText schema).lookup key).join with
  | none => rfl
  | some value => exact absurd (mem_kept_keywords numberText hLookup) hKey

theorem isObject_sanitizeSchema : (sanitizeSchema numberText schema).isObject = true := by
  rw [sanitizeSchema_members numberText hObject hRef]
  rfl

theorem refOf_sanitizeSchema : refOf (sanitizeSchema numberText schema) = none := by
  rw [refOf, Json.filled, get_sanitizeSchema_none numberText hObject hRef (by decide), Option.filter_none]

theorem get_format : (sanitizeSchema numberText schema).getStr "format" =
    (schema.getStr "format").filter (· ∈ SUPPORTED_STRING_FORMATS) := by
  rw [Json.getStr, get_sanitizeSchema numberText hObject hRef (by decide)]
  have hFormat : ((kept numberText schema).lookup "format").join =
    ((schema.getStr "format").filter (· ∈ SUPPORTED_STRING_FORMATS)).map .string := rfl
  rw [hFormat]
  cases (schema.getStr "format").filter (· ∈ SUPPORTED_STRING_FORMATS) <;> rfl

/-- No constraint is left that could go to the description. -/
theorem getConstraintDescription_sanitizeSchema :
    getConstraintDescription numberText (sanitizeSchema numberText schema) = none := by
  have hKeys : DESCRIPTION_CONSTRAINT_KEYS.filterMap (constraintOf numberText (sanitizeSchema numberText schema)) = [] := by
    refine List.filterMap_eq_nil_iff.mpr fun key hKey => ?_
    have hDropped : ∀ key ∈ DESCRIPTION_CONSTRAINT_KEYS, key ∉ KEPT_KEYWORDS := by decide
    rw [constraintOf, get_sanitizeSchema_none numberText hObject hRef (hDropped key hKey)]
  have hFormat : formatConstraint (sanitizeSchema numberText schema) = none := by
    rw [formatConstraint, get_format numberText hObject hRef, Option.filter_filter]
    refine Option.map_eq_none_iff.mpr (Option.filter_eq_none_iff.mpr fun format _ => ?_)
    simp
  rw [getConstraintDescription, hKeys, hFormat]
  rfl

theorem filled_description : (sanitizeSchema numberText schema).filled "description" =
    (sanitizeSchema numberText schema).get "description" := by
  have hKept : (present (kept numberText schema)).lookup "description" = schema.filled "description" :=
    lookup_present _ (kept_keywords numberText schema ▸ (by decide)) _
  rw [Json.filled, sanitizeSchema_members numberText hObject hRef]
  have hGet (fields : List (String × Json)) (key : String) : (Json.object fields).get key = fields.lookup key := rfl
  rw [hGet, describe]
  split
  · rw [lookup_insertField, if_pos rfl]
    rfl
  · rw [hKept, Json.filled, Option.filter_filter]
    exact congrArg (Option.filter · _) (funext fun _ => Bool.and_self _)

theorem get_type : (sanitizeSchema numberText schema).getStr "type" = schema.getStr "type" := by
  rw [Json.getStr, get_sanitizeSchema numberText hObject hRef (by decide)]
  have hType : ((kept numberText schema).lookup "type").join = schema.filled "type" := rfl
  rw [hType, Json.filled, Json.getStr]
  cases schema.get "type" with
  | none => rfl
  | some value => cases value <;> rfl

theorem isObjectSchema_sanitizeSchema (hMaps : ∀ value, schema.get "properties" = some value → value.isObject = true) :
    isObjectSchema (sanitizeSchema numberText schema) = isObjectSchema schema := by
  rw [isObjectSchema, get_type numberText hObject hRef, isObjectSchema]
  congr 1
  cases hGet : schema.get "properties" with
  | none =>
    rw [get_sanitizeSchema numberText hObject hRef (by decide)]
    have hNone : mapUnder schema (fun sub _ => sanitizeSchema numberText sub) "properties" (by decide) = none := by
      rw [mapUnder_plain, hGet]
      rfl
    have hProperties : ((kept numberText schema).lookup "properties").join = if isObjectSchema schema then
      mapUnder schema (fun sub _ => sanitizeSchema numberText sub) "properties" (by decide) else none := rfl
    rw [hProperties, hNone, ite_self]
  | some value =>
    cases value with
    | object members =>
      rw [get_map numberText hObject hRef (by decide) hGet]
      rfl
    | _ => cases hMaps _ hGet

end

section

variable {schema : Json} (hObject : schema.isObject = true) (hRef : refOf schema = none)
  (hBelow : ∀ sub, sanitized.Holds schema sub →
    valueEq (sanitizeSchema numberText (sanitizeSchema numberText sub)) (sanitizeSchema numberText sub) = true)

include hObject hRef hBelow

theorem anyOf_twice : SameMember ((kept numberText (sanitizeSchema numberText schema)).lookup "anyOf").join
    ((sanitizeSchema numberText schema).get "anyOf") := by
  have hKept (schema : Json) : ((kept numberText schema).lookup "anyOf").join =
    (listUnder schema (fun sub _ => sanitizeSchema numberText sub) "anyOf" (by decide)).or
      (listUnder schema (fun sub _ => sanitizeSchema numberText sub) "oneOf" (by decide)) := rfl
  have hOneOf : listUnder (sanitizeSchema numberText schema) (fun sub _ => sanitizeSchema numberText sub) "oneOf"
      (by decide) = none :=
    listUnder_none (by decide) (by rw [get_sanitizeSchema_none numberText hObject hRef (by decide)]; rfl)
  rw [hKept, hOneOf, Option.or_none]
  cases hAnyOf : (schema.get "anyOf").bind asArray with
  | some items =>
    have hItems := get_asArray hAnyOf
    exact list_twice numberText (by decide) (get_list numberText hObject hRef (by decide) hItems)
      fun item hItem => hBelow item (.inList (by decide) hItems hItem)
  | none =>
    cases hOneOf : (schema.get "oneOf").bind asArray with
    | some items =>
      have hItems := get_asArray hOneOf
      exact list_twice numberText (by decide) (get_oneOf numberText hObject hRef hAnyOf hItems)
        fun item hItem => hBelow item (.inList (by decide) hItems hItem)
    | none =>
      have hNone : (sanitizeSchema numberText schema).get "anyOf" = none := by
        rw [get_sanitizeSchema numberText hObject hRef (by decide), hKept, listUnder_none (by decide) hAnyOf,
          listUnder_none (by decide) hOneOf]
        rfl
      rw [hNone, listUnder_none (by decide) (by rw [hNone]; rfl)]
      exact .none

theorem allOf_twice : SameMember ((kept numberText (sanitizeSchema numberText schema)).lookup "allOf").join
    ((sanitizeSchema numberText schema).get "allOf") := by
  have hKept (schema : Json) : ((kept numberText schema).lookup "allOf").join =
    listUnder schema (fun sub _ => sanitizeSchema numberText sub) "allOf" (by decide) := rfl
  rw [hKept]
  cases hAllOf : (schema.get "allOf").bind asArray with
  | some items =>
    have hItems := get_asArray hAllOf
    exact list_twice numberText (by decide) (get_list numberText hObject hRef (by decide) hItems)
      fun item hItem => hBelow item (.inList (by decide) hItems hItem)
  | none =>
    have hNone : (sanitizeSchema numberText schema).get "allOf" = none := by
      rw [get_sanitizeSchema numberText hObject hRef (by decide), hKept, listUnder_none (by decide) hAllOf]
    rw [hNone, listUnder_none (by decide) (by rw [hNone]; rfl)]
    exact .none

theorem items_twice : SameMember ((kept numberText (sanitizeSchema numberText schema)).lookup "items").join
    ((sanitizeSchema numberText schema).get "items") := by
  have hKept (schema : Json) : ((kept numberText schema).lookup "items").join =
    (listUnder schema (fun sub _ => sanitizeSchema numberText sub) "items" (by decide)).or
      (oneUnder schema (fun sub _ => sanitizeSchema numberText sub) "items" (by decide)) := rfl
  rw [hKept]
  cases hItems : schema.get "items" with
  | none =>
    have hNone : (sanitizeSchema numberText schema).get "items" = none := by
      rw [get_sanitizeSchema numberText hObject hRef (by decide), hKept, listUnder_none (by decide) (by rw [hItems]; rfl),
        oneUnder_plain, hItems]
      rfl
    rw [hNone, listUnder_none (by decide) (by rw [hNone]; rfl), oneUnder_plain, hNone]
    exact .none
  | some one =>
    cases hArray : one.isArray with
    | true =>
      cases one with
      | array items =>
        have hOut := get_list numberText hObject hRef (by decide) hItems
        have hTwice := list_twice numberText (by decide) hOut fun item hItem =>
          hBelow item (.inList (by decide) hItems hItem)
        rw [listUnder_of_get (by decide) hOut] at hTwice ⊢
        exact hTwice
      | _ => cases hArray
    | false =>
      have hOne : (schema.get "items").filter (!·.isArray) = some one := by
        rw [hItems, Option.filter_some_pos (by rw [hArray]; rfl)]
      have hOut := get_items numberText hObject hRef hOne
      have hOutArray : (sanitizeSchema numberText one).isArray = false := by
        rw [isArray_sanitizeSchema, hArray]
      have hNoList : ((sanitizeSchema numberText schema).get "items").bind asArray = none := by
        rw [hOut]
        cases hSanitized : sanitizeSchema numberText one with
        | array items =>
          rw [hSanitized] at hOutArray
          cases hOutArray
        | _ => rfl
      rw [listUnder_none (by decide) hNoList, Option.none_or, oneUnder_plain, hOut,
        Option.filter_some_pos (by rw [hOutArray]; rfl)]
      exact .some (hBelow one (.alone (by decide) hItems hArray))

/-- What is kept of a member of a sanitized schema is that member. -/
theorem kept_twice (hMaps : ∀ value, schema.get "properties" = some value → value.isObject = true) (key : String) :
    SameMember ((kept numberText (sanitizeSchema numberText schema)).lookup key).join
      ((sanitizeSchema numberText schema).get key) := by
  by_cases hKey : key ∈ KEPT_KEYWORDS
  · have hFilled {key : String} (hOther : key ≠ "description")
        (hKept : ∀ schema : Json, ((kept numberText schema).lookup key).join = schema.filled key) :
        SameMember ((kept numberText (sanitizeSchema numberText schema)).lookup key).join
          ((sanitizeSchema numberText schema).get key) := by
      rw [hKept, filled_twice numberText ((get_sanitizeSchema numberText hObject hRef hOther).trans (hKept schema))]
      exact sameMember_refl _
    have hSchemas {key : String} (hMapKey : key ∈ sanitized.maps) (hOther : key ≠ "description")
        (hKept : ∀ schema : Json, ((kept numberText schema).lookup key).join =
          mapUnder schema (fun sub _ => sanitizeSchema numberText sub) key hMapKey) :
        SameMember ((kept numberText (sanitizeSchema numberText schema)).lookup key).join
          ((sanitizeSchema numberText schema).get key) := by
      rw [hKept]
      exact map_kept_twice numberText hMapKey hBelow
        ((get_sanitizeSchema numberText hObject hRef hOther).trans (hKept schema))
    have hTyped := isObjectSchema_sanitizeSchema numberText hObject hRef hMaps
    have hEvery : ∀ key ∈ KEPT_KEYWORDS, SameMember ((kept numberText (sanitizeSchema numberText schema)).lookup key).join
        ((sanitizeSchema numberText schema).get key) := by
      simp only [KEPT_KEYWORDS, List.forall_mem_cons]
      refine ⟨hFilled (by decide) fun _ => rfl, hFilled (by decide) fun _ => rfl, hFilled (by decide) fun _ => rfl, ?_,
        sameMember_refl _, sameMember_refl _, hFilled (by decide) fun _ => rfl, hFilled (by decide) fun _ => rfl,
        anyOf_twice numberText hObject hRef hBelow, allOf_twice numberText hObject hRef hBelow,
        hSchemas (by decide) (by decide) fun _ => rfl, hSchemas (by decide) (by decide) fun _ => rfl, ?_, ?_, ?_,
        items_twice numberText hObject hRef hBelow, ?_, List.forall_mem_nil _⟩
      · have hKept : ((kept numberText (sanitizeSchema numberText schema)).lookup "description").join =
          (sanitizeSchema numberText schema).filled "description" := rfl
        rw [hKept, filled_description numberText hObject hRef]
        exact sameMember_refl _
      · have hKept (schema : Json) : ((kept numberText schema).lookup "properties").join =
          if isObjectSchema schema then mapUnder schema (fun sub _ => sanitizeSchema numberText sub) "properties" (by decide)
          else none := rfl
        have hGet := (get_sanitizeSchema numberText hObject hRef (by decide)).trans (hKept schema)
        rw [hKept, hTyped]
        cases hIs : isObjectSchema schema with
        | true =>
          rw [hIs, if_pos rfl] at hGet
          rw [if_pos rfl]
          exact map_kept_twice numberText (by decide) hBelow hGet
        | false =>
          rw [hIs] at hGet
          rw [hGet]
          exact .none
      · have hKept (schema : Json) : ((kept numberText schema).lookup "additionalProperties").join =
          if isObjectSchema schema then some (.bool false) else none := rfl
        rw [get_sanitizeSchema numberText hObject hRef (by decide), hKept, hKept, hTyped]
        exact sameMember_refl _
      · have hKept (schema : Json) : ((kept numberText schema).lookup "required").join =
          if isObjectSchema schema then schema.get "required" else none := rfl
        have hGet := (get_sanitizeSchema numberText hObject hRef (by decide)).trans (hKept schema)
        rw [hKept, hTyped]
        cases hIs : isObjectSchema schema with
        | true => exact sameMember_refl _
        | false =>
          rw [hIs] at hGet
          rw [hGet]
          exact .none
      · have hKept (schema : Json) : ((kept numberText schema).lookup "format").join =
          ((schema.getStr "format").filter (· ∈ SUPPORTED_STRING_FORMATS)).map .string := rfl
        rw [get_sanitizeSchema numberText hObject hRef (by decide), hKept, hKept, get_format numberText hObject hRef,
          Option.filter_filter]
        refine (congrArg (fun keep => SameMember (((schema.getStr "format").filter keep).map .string) _) ?_).mpr
          (sameMember_refl _)
        exact funext fun _ => Bool.and_self _
    exact hEvery key hKey
  · rw [get_sanitizeSchema_none numberText hObject hRef hKey]
    cases hLookup : ((kept numberText (sanitizeSchema numberText schema)).lookup key).join with
    | none => exact .none
    | some value => exact absurd (mem_kept_keywords numberText hLookup) hKey

end

/-- Every value that stands under `properties` is an object, wherever a schema is sanitized. -/
def PropertiesMaps (schema : Json) : Prop :=
  Everywhere sanitized.Holds (fun sub => ∀ value, sub.get "properties" = some value → value.isObject = true) schema

theorem sanitizeSchema_twice (schema : Json) (hMaps : PropertiesMaps schema) :
    valueEq (sanitizeSchema numberText (sanitizeSchema numberText schema)) (sanitizeSchema numberText schema) = true := by
  induction schema using sanitized.induction with
  | hStep schema ih =>
    have hBelow (sub : Json) (hSub : sanitized.Holds schema sub) := ih sub hSub (hMaps.below hSub)
    cases hObject : schema.isObject with
    | false =>
      rw [sanitizeSchema_other numberText hObject, sanitizeSchema_other numberText hObject]
      exact valueEq_refl schema
    | true =>
      cases hRef : refOf schema with
      | some target =>
        have hAgain : refOf (.object [("$ref", target)]) = some target := by
          have hGet : (Json.object [("$ref", target)]).get "$ref" = some target := rfl
          rw [refOf, Json.filled, hGet]
          exact Option.filter_some_pos (Option.filter_eq_some_iff.mp hRef).2
        rw [sanitizeSchema_ref numberText hRef, sanitizeSchema_ref numberText hAgain]
        exact valueEq_refl _
      | none =>
        have hObjectOut := isObject_sanitizeSchema numberText hObject hRef
        have hRefOut := refOf_sanitizeSchema numberText hObject hRef
        have hTwice := kept_twice numberText hObject hRef hBelow hMaps.here
        have hNone := getConstraintDescription_sanitizeSchema numberText hObject hRef
        rw [sanitizeSchema_members numberText hObjectOut hRefOut, describe, hNone]
        revert hTwice
        rw [sanitizeSchema_members numberText hObject hRef]
        intro hTwice
        refine valueEq_of_lookup (nodup_present numberText _) ?_ fun key => ?_
        · unfold describe
          split
          · exact nodup_insertField (nodup_present numberText schema) _ _
          · exact nodup_present numberText schema
        · rw [lookup_present _ (kept_keywords numberText _ ▸ (by decide))]
          exact hTwice key

/-- Below a sanitized schema only accepted keywords stand; every schema that no reference hides stands where it stood, with
its names; and a second time nothing changes. -/
theorem sanitizeJsonSchema_keeps (schema : Json) :
    Everywhere anyDraft.Holds (onlyKept · = true) (sanitizeJsonSchema numberText schema) ∧
    (∀ path given, Reached schema path given →
      standsBelow (sanitizeJsonSchema numberText schema) path = some (sanitizeJsonSchema numberText given) ∧
        (refOf given = none → NamesKept numberText given (sanitizeJsonSchema numberText given))) ∧
    (PropertiesMaps schema →
      valueEq (sanitizeJsonSchema numberText (sanitizeJsonSchema numberText schema)) (sanitizeJsonSchema numberText schema) =
        true) :=
  ⟨onlyKept_everywhere numberText schema,
    fun _ _ hReached => ⟨standsBelow_reached numberText hReached, namesKept numberText⟩,
    sanitizeSchema_twice numberText schema⟩

def noDigits (_ : JsonNumber) : List Char := []

theorem sanitizeJsonSchema_keeps_pattern :
    valueEq (sanitizeJsonSchema noDigits (sanitizeJsonSchema noDigits (.object [("pattern", .string "a+")])))
      (sanitizeJsonSchema noDigits (.object [("pattern", .string "a+")])) = true := by
  refine (sanitizeJsonSchema_keeps noDigits _).2.2 (everywhere_iff.mpr ⟨fun _ hValue => (nomatch hValue), fun sub hSub => ?_⟩)
  have hKey {key : String} {value : Json} (hGet : (Json.object [("pattern", .string "a+")]).get key = some value) :
      key = "pattern" := by
    by_contra hOther
    have hNone : (Json.object [("pattern", .string "a+")]).get key = none :=
      (lookup_cons_eq ("pattern", .string "a+") [] key).trans (if_neg hOther)
    cases hGet.symm.trans hNone
  cases hSub with
  | inMap hMaps hGet _ => exact absurd (hKey hGet ▸ hMaps) (by decide)
  | inList hLists hGet _ => exact absurd (hKey hGet ▸ hLists) (by decide)
  | alone hSchemas hGet _ => exact absurd (hKey hGet ▸ hSchemas) (by decide)

/-- A list of what is required where no object is described, and properties beside a reference. -/
def loose : Json :=
  .object [("allOf", .array [.object [("required", .array [.string "a"])]]),
    ("items", .object [("$ref", .string "#/$defs/b"), ("properties", .object [("a", .object [])])])]

theorem loose_not_kept :
    ((standsBelow loose [.item "allOf" 0]).bind (·.get "required")).isSome = true ∧
    ((standsBelow (sanitizeJsonSchema noDigits loose) [.item "allOf" 0]).bind (·.get "required")).isNone = true ∧
    (standsBelow loose [.value "items", .member "properties" "a"]).isSome = true ∧
    (standsBelow (sanitizeJsonSchema noDigits loose) [.value "items", .member "properties" "a"]).isNone = true := by
  decide +kernel

end Aimux.Anthropic
