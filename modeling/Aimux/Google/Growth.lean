import Aimux.Google.OpenText

/-! # Values that grow at their end

The next leaf in document order is put under a new key, or after the last item, of a container that is open
at the end of the value.
-/

namespace Aimux.Google

open Aimux.Core

/-- What a value becomes with a leaf under the segment of the container that the path leads to. -/
inductive Grows (leaf : Segment) : Json → List Segment → (Json → Json) → Prop
  | key {fields : List (String × Json)} {name : String} (hLeaf : leaf = .key name)
      (hNew : name ∉ fields.map (·.1)) :
      Grows leaf (.object fields) [] fun value => .object (fields ++ [(name, value)])
  | index {items : List Json} (hLeaf : leaf = .index items.length) :
      Grows leaf (.array items) [] fun value => .array (items ++ [value])
  | newKey {fields : List (String × Json)} {name : String} {container : List Segment} {grown : Json → Json}
      (hNew : name ∉ fields.map (·.1))
      (hChild : Grows leaf (emptyContainer (container.headD leaf)) container grown) :
      Grows leaf (.object fields) (.key name :: container) fun value => .object (fields ++ [(name, grown value)])
  | newIndex {items : List Json} {index : Nat} {container : List Segment} {grown : Json → Json}
      (hIndex : index = items.length)
      (hChild : Grows leaf (emptyContainer (container.headD leaf)) container grown) :
      Grows leaf (.array items) (.index index :: container) fun value => .array (items ++ [grown value])
  | lastKey {fields front : List (String × Json)} {name : String} {child : Json} {container : List Segment}
      {grown : Json → Json} (hFields : fields = front ++ [(name, child)]) (hNew : name ∉ front.map (·.1))
      (hChild : Grows leaf child container grown) :
      Grows leaf (.object fields) (.key name :: container) fun value => .object (front ++ [(name, grown value)])
  | lastIndex {items front : List Json} {index : Nat} {child : Json} {container : List Segment}
      {grown : Json → Json} (hItems : items = front ++ [child]) (hIndex : index = front.length)
      (hChild : Grows leaf child container grown) :
      Grows leaf (.array items) (.index index :: container) fun value => .array (front ++ [grown value])

/-! ## Lookups and updates at the end -/

variable {fields : List (String × Json)} {name : String}

theorem lookup_concat (hNew : name ∉ fields.map (·.1)) (value : Json) :
    (fields ++ [(name, value)]).lookup name = some value := by
  induction fields with
  | nil => simp
  | cons field fields ih =>
    rw [List.map_cons, List.mem_cons, not_or] at hNew
    rw [List.cons_append, List.lookup_cons, ih hNew.2, beq_false_of_ne hNew.1]

theorem lookup_of_new (hNew : name ∉ fields.map (·.1)) :
    fields.lookup name = none := by
  induction fields with
  | nil => rfl
  | cons field fields ih =>
    rw [List.map_cons, List.mem_cons, not_or] at hNew
    rw [List.lookup_cons, ih hNew.2, beq_false_of_ne hNew.1]

theorem insertField_of_new (hNew : name ∉ fields.map (·.1)) (value : Json) :
    insertField fields name value = fields ++ [(name, value)] := by
  rw [insertField, if_neg]
  rw [List.any_eq_true]
  rintro ⟨field, hMem, hName⟩
  exact hNew (List.mem_map.mpr ⟨field, hMem, by simpa using hName⟩)

theorem insertField_concat (hNew : name ∉ fields.map (·.1)) (old value : Json) :
    insertField (fields ++ [(name, old)]) name value = fields ++ [(name, value)] := by
  rw [insertField, if_pos (by simp), List.map_append, List.map_singleton, if_pos rfl]
  congr 1
  refine (List.map_congr_left ?_).trans (List.map_id fields)
  intro field hMem
  exact if_neg fun hName => hNew (List.mem_map.mpr ⟨field, hMem, hName⟩)

theorem setItem_length (items : List Json) (value : Json) : setItem items items.length value = items ++ [value] := by
  simp [setItem]

theorem setItem_concat (items : List Json) (old value : Json) :
    setItem (items ++ [old]) items.length value = items ++ [value] := by
  simp [setItem]

variable {container : List Segment} {grown : Json → Json} {value : Json}

theorem Grows.ne_null {leaf : Segment} (h : Grows leaf value container grown) :
    value ≠ .null ∧ ∀ new, grown new ≠ .null := by
  cases h <;> exact ⟨Json.noConfusion, fun _ => Json.noConfusion⟩

theorem Grows.not_isLeaf {leaf : Segment} (h : Grows leaf value container grown) : ¬ IsLeaf value := by
  cases h <;> exact id

variable {shown : Shown} {leaf : Segment}

theorem setSegments_key (value : Json) (name : String) (container : List Segment) (fields : List (String × Json)) :
    setSegments shown value (.key name :: (container ++ [leaf])) (.object fields) =
      (setSegments shown value (container ++ [leaf])
        ((fields.lookup name).getD (emptyContainer (container.headD leaf)))).map
          fun child => .object (insertField fields name child) := by
  cases container <;> rfl

theorem setSegments_index (value : Json) (index : Nat) (container : List Segment) (items : List Json) :
    setSegments shown value (.index index :: (container ++ [leaf])) (.array items) =
      (setSegments shown value (container ++ [leaf])
        (match items[index]? with
          | none => emptyContainer (container.headD leaf)
          | some .null => emptyContainer (container.headD leaf)
          | some child => child)).map fun child => .array (setItem items index child) := by
  cases container <;> rfl

/-- The item is put where the array ends. -/
theorem setSegments_index_new (value : Json) (container : List Segment) (items : List Json) :
    setSegments shown value (.index items.length :: (container ++ [leaf])) (.array items) =
      (setSegments shown value (container ++ [leaf]) (emptyContainer (container.headD leaf))).map
        fun child => .array (items ++ [child]) := by
  rw [setSegments_index, List.getElem?_eq_none (Nat.le_refl _)]
  simp only [setItem_length]

theorem setSegments_index_last (value : Json) (container : List Segment) (items : List Json) {child : Json}
    (hChild : child ≠ .null) :
    setSegments shown value (.index items.length :: (container ++ [leaf])) (.array (items ++ [child])) =
      (setSegments shown value (container ++ [leaf]) child).map fun child => .array (items ++ [child]) := by
  rw [setSegments_index, List.getElem?_concat_length]
  cases child with
  | null => exact absurd rfl hChild
  | _ => simp only [setItem_concat]

/-! ## The value of the accumulator -/

theorem getNestedValue_of_grows (h : Grows leaf value container grown) :
    getNestedValue value (container ++ [leaf]) = none ∧
      ∀ new, getNestedValue (grown new) (container ++ [leaf]) = some new := by
  induction h with
  | key hLeaf hNew =>
    subst hLeaf
    refine ⟨by simp [getNestedValue, lookup_of_new hNew], fun new => ?_⟩
    simp [getNestedValue, lookup_concat hNew]
  | index hLeaf =>
    subst hLeaf
    exact ⟨by simp [getNestedValue], fun new => by simp [getNestedValue]⟩
  | newKey hNew hChild ih =>
    refine ⟨by simp [getNestedValue, lookup_of_new hNew], fun new => ?_⟩
    simpa [getNestedValue, lookup_concat hNew] using ih.2 new
  | newIndex hIndex hChild ih =>
    subst hIndex
    exact ⟨by simp [getNestedValue], fun new => by simpa [getNestedValue] using ih.2 new⟩
  | lastKey hFields hNew hChild ih =>
    subst hFields
    refine ⟨by simpa [getNestedValue, lookup_concat hNew] using ih.1, fun new => ?_⟩
    simpa [getNestedValue, lookup_concat hNew] using ih.2 new
  | lastIndex hItems hIndex hChild ih =>
    subst hItems hIndex
    exact ⟨by simpa [getNestedValue] using ih.1, fun new => by simpa [getNestedValue] using ih.2 new⟩

theorem setSegments_of_grows (h : Grows leaf value container grown) (new : Json) :
    setSegments shown new (container ++ [leaf]) value = .ok (grown new) ∧
      ∀ old, setSegments shown new (container ++ [leaf]) (grown old) = .ok (grown new) := by
  induction h with
  | key hLeaf hNew =>
    subst hLeaf
    refine ⟨by simp [setSegments, insertField_of_new hNew], fun old => ?_⟩
    simp [setSegments, insertField_concat hNew]
  | index hLeaf =>
    subst hLeaf
    exact ⟨by simp [setSegments, setItem_length], fun old => by simp [setSegments, setItem_concat]⟩
  | newKey hNew hChild ih =>
    constructor
    · rw [List.cons_append, setSegments_key, lookup_of_new hNew, Option.getD_none, ih.1]
      simp [Except.map, insertField_of_new hNew]
    · intro old
      rw [List.cons_append, setSegments_key, lookup_concat hNew, Option.getD_some, ih.2]
      simp [Except.map, insertField_concat hNew]
  | newIndex hIndex hChild ih =>
    subst hIndex
    constructor
    · rw [List.cons_append, setSegments_index_new, ih.1]
      rfl
    · intro old
      rw [List.cons_append, setSegments_index_last _ _ _ (hChild.ne_null.2 old), ih.2]
      rfl
  | lastKey hFields hNew hChild ih =>
    subst hFields
    constructor
    · rw [List.cons_append, setSegments_key, lookup_concat hNew, Option.getD_some, ih.1]
      simp [Except.map, insertField_concat hNew]
    · intro old
      rw [List.cons_append, setSegments_key, lookup_concat hNew, Option.getD_some, ih.2]
      simp [Except.map, insertField_concat hNew]
  | lastIndex hItems hIndex hChild ih =>
    subst hItems hIndex
    constructor
    · rw [List.cons_append, setSegments_index_last _ _ _ hChild.ne_null.1, ih.1]
      rfl
    · intro old
      rw [List.cons_append, setSegments_index_last _ _ _ (hChild.ne_null.2 old), ih.2]
      rfl

/-! ## Its text -/

variable {number : JsonNumber → List Char}

theorem Grows.open (h : Grows leaf value container grown) {segment : Segment} {stack : List StackEntry}
    {text : List Char} (hOpen : Open number segment value stack text) {new : Json} (hNew : IsLeaf new) :
    Open number segment (grown new) (place leaf stack container).1
      (text ++ (place leaf stack container).2 ++ writeJson number new) := by
  induction h generalizing segment stack text with
  | @key fields name hLeaf _ =>
    subst hLeaf
    obtain ⟨rest, rfl, hText, _⟩ := hOpen.ofObject
    have hGrown : Open number segment (.object (fields ++ [(name, new)])) _ _ := .object (by simpa using hNew)
    rw [writeFields_concat] at hGrown
    simp only [place, ← List.append_assoc, hText]
    simpa [StackEntry.addChild, comma, separator] using hGrown
  | @index items hLeaf =>
    subst hLeaf
    obtain ⟨rest, rfl, hText, _⟩ := hOpen.ofArray
    have hGrown : Open number segment (.array (items ++ [new])) _ _ := .array (by simpa using hNew)
    rw [writeItems_concat] at hGrown
    simp only [place, ← List.append_assoc, hText]
    simpa [StackEntry.addChild, comma, separator, keyText] using hGrown
  | @newKey fields name container grown hKey hChild ih =>
    obtain ⟨rest, rfl, hText, hOther⟩ := hOpen.ofObject
    have hGrown : Open number segment (.object (fields ++ [(name, _)])) _ _ := .lastField rfl
      (ih (open_emptyContainer (.key name) (container.headD leaf)))
    rw [place, if_neg (hOther name hKey)]
    simp only [← List.append_assoc, hText]
    simpa [StackEntry.addChild, comma, separator] using hGrown
  | @newIndex items index container grown hIndex hChild ih =>
    subst hIndex
    obtain ⟨rest, rfl, hText, hOther⟩ := hOpen.ofArray
    have hGrown : Open number segment (.array (items ++ [_])) _ _ := .lastItem rfl
      (ih (open_emptyContainer (.index items.length) (container.headD leaf)))
    rw [place, if_neg hOther]
    simp only [← List.append_assoc, hText]
    simpa [StackEntry.addChild, comma, separator, keyText] using hGrown
  | @lastKey fields front name child container grown hFields hKey hChild ih =>
    subst hFields
    cases hOpen with
    | object hLast => exact absurd (hLast (name, child) (by simp)) hChild.not_isLeaf
    | @lastField _ _ others other last stack text hSame hLastChild =>
      obtain ⟨rfl, hChildren⟩ := List.append_inj' hSame rfl
      cases hChildren
      have hGrown : Open number segment (.object (front ++ [(name, _)])) _ _ := .lastField rfl (ih hLastChild)
      rw [place, if_pos hLastChild.head]
      simpa using hGrown
  | @lastIndex items front index child container grown hItems hIndex hChild ih =>
    subst hItems hIndex
    cases hOpen with
    | array hLast => exact absurd (hLast child (by simp)) hChild.not_isLeaf
    | @lastItem _ _ others last stack text hSame hLastChild =>
      obtain ⟨rfl, hChildren⟩ := List.append_inj' hSame rfl
      cases hChildren
      have hGrown : Open number segment (.array (front ++ [_])) _ _ := .lastItem rfl (ih hLastChild)
      rw [place, if_pos hLastChild.head]
      simpa using hGrown

/-! ## Below a new entry -/

theorem Grows.path (h : Grows leaf value container grown) : .root ∉ container ++ [leaf] := by
  induction h with
  | key hLeaf _ => simp [hLeaf]
  | index hLeaf => simp [hLeaf]
  | newKey _ _ ih => simpa using ih
  | newIndex _ _ ih => simpa using ih
  | lastKey _ _ _ ih => simpa using ih
  | lastIndex _ _ _ ih => simpa using ih

theorem headD_concat (container : List Segment) (leaf other : Segment) :
    (container ++ [leaf]).headD other = container.headD leaf := by
  cases container <;> rfl

/-- The first entry of a container that is not there yet. -/
theorem Grows.first {inner : Json → Json} {below : Segment} (h : Grows leaf value container grown)
    (hInner : Grows below (emptyContainer below) [] inner) :
    Grows below value (container ++ [leaf]) fun new => grown (inner new) := by
  induction h with
  | key hLeaf hNew =>
    subst hLeaf
    exact .newKey hNew hInner
  | index hLeaf =>
    subst hLeaf
    exact .newIndex rfl hInner
  | newKey hNew hChild ih =>
    rw [List.cons_append]
    exact .newKey hNew (by rwa [headD_concat])
  | newIndex hIndex hChild ih =>
    rw [List.cons_append]
    exact .newIndex hIndex (by rwa [headD_concat])
  | lastKey hFields hNew hChild ih => exact .lastKey hFields hNew ih
  | lastIndex hItems hIndex hChild ih => exact .lastIndex hItems hIndex ih

/-- The next entry of a container that is the last. -/
theorem Grows.next {old : Json} {inner : Json → Json} {below : Segment} (h : Grows leaf value container grown)
    (hInner : Grows below old [] inner) :
    Grows below (grown old) (container ++ [leaf]) fun new => grown (inner new) := by
  induction h with
  | key hLeaf hNew =>
    subst hLeaf
    exact .lastKey rfl hNew hInner
  | index hLeaf =>
    subst hLeaf
    exact .lastIndex rfl rfl hInner
  | newKey hNew hChild ih => exact .lastKey rfl hNew ih
  | newIndex hIndex hChild ih => exact .lastIndex rfl hIndex ih
  | lastKey hFields hNew hChild ih => exact .lastKey rfl hNew ih
  | lastIndex hItems hIndex hChild ih => exact .lastIndex rfl hIndex ih

end Aimux.Google
