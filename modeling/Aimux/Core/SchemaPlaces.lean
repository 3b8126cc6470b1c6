import Aimux.Core.JsonAccess

/-! # Places of schemas in a schema

A schema stands in another one under a keyword: in a map, in a list or alone.
-/

namespace Aimux.Core

/-- The keywords whose value is a map of schemas, a list of them, or one schema. -/
structure Keywords where
  maps : List String
  lists : List String
  schemas : List String

/-- A schema stands directly in another one. -/
inductive Keywords.Holds (keywords : Keywords) (schema sub : Json) : Prop
  | inMap {key name : String} {members : List (String × Json)} (hKey : key ∈ keywords.maps)
    (hMap : schema.get key = some (.object members)) (hMember : (name, sub) ∈ members)
  | inList {key : String} {items : List Json} (hKey : key ∈ keywords.lists) (hList : schema.get key = some (.array items))
    (hItem : sub ∈ items)
  | alone {key : String} (hKey : key ∈ keywords.schemas) (hValue : schema.get key = some sub)
    (hSchema : sub.isArray = false)

theorem mem_of_lookup {fields : List (String × Json)} {key : String} {value : Json}
    (h : fields.lookup key = some value) : (key, value) ∈ fields := by
  obtain ⟨front, rest, rfl, _⟩ := List.lookup_eq_some_iff.mp h
  exact List.mem_append_right _ (List.mem_cons_self ..)

theorem sizeOf_lookup {fields : List (String × Json)} {key : String} {value : Json}
    (h : fields.lookup key = some value) : sizeOf value < sizeOf (Json.object fields) := by
  have hMem := List.sizeOf_lt_of_mem (mem_of_lookup h)
  simp only [Prod.mk.sizeOf_spec, Json.object.sizeOf_spec] at hMem ⊢
  omega

variable {keywords : Keywords} {schema sub : Json}

theorem Keywords.Holds.isObject (h : keywords.Holds schema sub) : ∃ fields, schema = .object fields := by
  have hFields {key : String} {value : Json} (hGet : schema.get key = some value) : ∃ fields, schema = .object fields := by
    cases schema with
    | object fields => exact ⟨fields, rfl⟩
    | _ => cases hGet
  cases h with
  | inMap _ hMap _ => exact hFields hMap
  | inList _ hList _ => exact hFields hList
  | alone _ hValue _ => exact hFields hValue

theorem Keywords.Holds.mono {more : Keywords} (hMaps : keywords.maps ⊆ more.maps) (hLists : keywords.lists ⊆ more.lists)
    (hSchemas : keywords.schemas ⊆ more.schemas) (h : keywords.Holds schema sub) : more.Holds schema sub := by
  cases h with
  | inMap hKey hMap hMember => exact .inMap (hMaps hKey) hMap hMember
  | inList hKey hList hItem => exact .inList (hLists hKey) hList hItem
  | alone hKey hValue hSchema => exact .alone (hSchemas hKey) hValue hSchema

theorem Keywords.Holds.sizeOf_lt (h : keywords.Holds schema sub) : sizeOf sub < sizeOf schema := by
  obtain ⟨fields, rfl⟩ := h.isObject
  cases h with
  | inMap _ hMap hMember =>
    have hMembers := sizeOf_lookup hMap
    have hPair := List.sizeOf_lt_of_mem hMember
    simp only [Json.object.sizeOf_spec, Prod.mk.sizeOf_spec] at hMembers hPair ⊢
    omega
  | inList _ hList hItem =>
    have hItems := sizeOf_lookup hList
    have hOne := List.sizeOf_lt_of_mem hItem
    simp only [Json.array.sizeOf_spec] at hItems
    omega
  | alone _ hValue _ => exact sizeOf_lookup hValue

/-- What passes from the schemas in a schema to the schema holds of every schema. -/
theorem Keywords.induction (keywords : Keywords) {P : Json → Prop}
    (hStep : ∀ schema, (∀ sub, keywords.Holds schema sub → P sub) → P schema) (schema : Json) : P schema := by
  refine hStep schema fun sub hSub => ?_
  have hSmaller := hSub.sizeOf_lt
  exact Keywords.induction keywords hStep sub
termination_by sizeOf schema

end Aimux.Core
