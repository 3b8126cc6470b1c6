import Aimux.Core.JsonAccess
import Aimux.Google.Growth
import Aimux.Replay.RecordedMatch

/-! # Setting a value in place

`set_nested_value` as it changes its value: containers are made on the way along the path, before it is known
whether the rest of the path fits.
-/

namespace Aimux.Google

open Aimux.Core

/-! ## The walk -/

/-- `get_mut` of a key, and the change of the entry. -/
def replaceField : List (String × Json) → String → Json → List (String × Json)
  | [], _, _ => []
  | field :: fields, name, value =>
    if field.1 = name then (name, value) :: fields else field :: replaceField fields name value

/-- A null is replaced as if the position did not exist. -/
def presentItem (items : List Json) (index : Nat) : Option Json :=
  match items[index]? with
  | some .null => none
  | item => item

/-- The value as it is left, and the error. A container that is missing is made before the walk goes on. -/
def walkSegments (shown : Shown) (value : Json) : List Segment → Json → Json × Option AiMuxError
  | [], current => (current, none)
  | [segment], current =>
    match segment, current with
    | .key name, .object fields => (.object (insertField fields name value), none)
    | .index index, .array items => (.array (setItem items index value), none)
    | .root, _ => (value, none)
    | segment, current => (current, some (parentMustBe shown segment))
  | segment :: next :: rest, current =>
    match segment, current with
    | .key name, .object fields =>
      match fields.lookup name with
      | some child =>
        let walked := walkSegments shown value (next :: rest) child
        (.object (replaceField fields name walked.1), walked.2)
      | none =>
        let walked := walkSegments shown value (next :: rest) (emptyContainer next)
        (.object (fields ++ [(name, walked.1)]), walked.2)
    | .index index, .array items =>
      match presentItem items index with
      | some child =>
        let walked := walkSegments shown value (next :: rest) child
        (.array (items.set index walked.1), walked.2)
      | none =>
        let walked := walkSegments shown value (next :: rest) (emptyContainer next)
        (.array (setItem items index walked.1), walked.2)
    | .root, current => walkSegments shown value (next :: rest) current
    | segment, current => (current, some (parentMustBe shown segment))

/-- Every index is looked at before anything is changed. -/
def setNestedInPlace (shown : Shown) (current : Json) (segments : List Segment) (value : Json) :
    Json × Option AiMuxError :=
  if MAX_PARTIAL_ARG_DEPTH < segments.length then
    (current, some (.jsonParse s!"partial args path exceeds maximum depth of {MAX_PARTIAL_ARG_DEPTH}" none))
  else match segments.findSome? oversized with
    | some index => (current, some
        (.jsonParse s!"partial args array index {index} exceeds maximum of {MAX_PARTIAL_ARG_INDEX}" none))
    | none => walkSegments shown value segments current

variable {shown : Shown} {value : Json}

/-! ## Entries and items -/

variable {fields : List (String × Json)} {child : Json} {name : String}

theorem replaceField_lookup (hChild : fields.lookup name = some child) : replaceField fields name child = fields := by
  induction fields with
  | nil => cases hChild
  | cons field fields ih =>
    obtain ⟨key, old⟩ := field
    rw [replaceField]
    by_cases hName : key = name
    · subst hName
      rw [List.lookup_cons_self, Option.some.injEq] at hChild
      rw [if_pos rfl, hChild]
    · rw [List.lookup_cons, beq_false_of_ne (Ne.symm hName)] at hChild
      rw [if_neg hName, ih hChild]

theorem lookup_replaceField (hChild : fields.lookup name = some child) (new : Json) (other : String) :
    (replaceField fields name new).lookup other = if other = name then some new else fields.lookup other := by
  induction fields with
  | nil => cases hChild
  | cons field fields ih =>
    rw [lookup_cons_eq] at hChild
    rw [replaceField]
    by_cases hName : field.1 = name
    · rw [if_pos hName, lookup_cons_eq, lookup_cons_eq, hName]
      by_cases hOther : other = name
      · rw [if_pos hOther, if_pos hOther]
      · rw [if_neg hOther, if_neg hOther, if_neg hOther]
    · rw [if_neg (Ne.symm hName)] at hChild
      rw [if_neg hName, lookup_cons_eq, lookup_cons_eq, ih hChild]
      by_cases hOther : other = field.1
      · have hApart : other ≠ name := fun hSame => hName (hOther.symm.trans hSame)
        rw [if_pos hOther, if_pos hOther, if_neg hApart]
      · rw [if_neg hOther, if_neg hOther]

theorem getElem?_setItem (items : List Json) (index : Nat) (new : Json) (i : Nat) : (setItem items index new)[i]? =
      if i = index then some new else if i < items.length then items[i]? else if i < index then some .null else none := by
  rw [setItem, List.getElem?_set]
  by_cases hSame : i = index
  · subst hSame
    rw [if_pos rfl, if_pos rfl, if_pos (by simp; omega)]
  · rw [if_neg (Ne.symm hSame), if_neg hSame]
    by_cases hOld : i < items.length
    · rw [if_pos hOld, List.getElem?_append_left hOld]
    · rw [if_neg hOld, List.getElem?_append_right (by omega), List.getElem?_replicate]
      by_cases hBelow : i < index
      · rw [if_pos hBelow, if_pos (by omega)]
      · rw [if_neg hBelow, if_neg (by omega)]

variable {items : List Json} {index : Nat}

theorem getElem?_of_presentItem (hChild : presentItem items index = some child) : items[index]? = some child := by
  rw [presentItem] at hChild
  split at hChild
  · cases hChild
  · exact hChild

theorem set_presentItem (hChild : presentItem items index = some child) : items.set index child = items := by
  obtain ⟨hLength, hItem⟩ := List.getElem?_eq_some_iff.mp (getElem?_of_presentItem hChild)
  rw [← hItem, List.set_getElem_self]

/-- Where there is no item, or a null, nothing is read. -/
theorem bind_of_presentItem (hNone : presentItem items index = none) {α : Type} (read : Json → Option α)
    (hNull : read .null = none) : items[index]?.bind read = none := by
  rw [presentItem] at hNone
  split at hNone
  · rename_i hItem
    rw [hItem]
    exact hNull
  · rw [hNone]
    rfl

/-! ## What is read -/

@[simp] theorem getNestedValue_nil (current : Json) : getNestedValue current [] = some current := by
  cases current <;> rfl

@[simp] theorem getNestedValue_key (fields : List (String × Json)) (name : String) (rest : List Segment) :
    getNestedValue (.object fields) (.key name :: rest) =
      (fields.lookup name).bind fun value => getNestedValue value rest := rfl

@[simp] theorem getNestedValue_index (items : List Json) (index : Nat) (rest : List Segment) :
    getNestedValue (.array items) (.index index :: rest) =
      items[index]?.bind fun value => getNestedValue value rest := rfl

variable {path : List Segment}

/-- Nothing is read of an empty container, nor of a null. -/
theorem getNestedValue_empty (child : Segment) (hPath : path ≠ []) (hRoot : .root ∉ path) :
    getNestedValue (emptyContainer child) path = none ∧ getNestedValue .null path = none := by
  cases path with
  | nil => exact absurd rfl hPath
  | cons segment rest =>
    cases segment with
    | key name => cases child <;> exact ⟨rfl, rfl⟩
    | index index => cases child <;> exact ⟨rfl, rfl⟩
    | root => exact absurd (List.mem_cons_self ..) hRoot

/-! ## Errors -/

/-- A container that is made for a path takes the path. -/
theorem walk_emptyContainer {next : Segment} {rest : List Segment} (hRoot : .root ∉ next :: rest) :
    (walkSegments shown value (next :: rest) (emptyContainer next)).2 = none := by
  induction rest generalizing next with
  | nil =>
    cases next with
    | key name => rfl
    | index index => rfl
    | root => exact absurd (List.mem_cons_self ..) hRoot
  | cons below rest ih =>
    have hBelow := ih fun hMem => hRoot (List.mem_cons_of_mem _ hMem)
    cases next with
    | key name => exact hBelow
    | index index => exact hBelow
    | root => exact absurd (List.mem_cons_self ..) hRoot

variable {current : Json}

/-- A conflict is met before anything is changed. -/
theorem walk_error (hRoot : .root ∉ path) {error : AiMuxError}
    (hError : (walkSegments shown value path current).2 = some error) :
    (walkSegments shown value path current).1 = current := by
  induction path generalizing current with
  | nil => cases hError
  | cons segment rest ih =>
    cases rest with
    | nil => cases segment <;> cases current <;> first | rfl | cases hError
    | cons next rest =>
      have hRest : .root ∉ next :: rest := fun hMem => hRoot (List.mem_cons_of_mem _ hMem)
      cases segment with
      | key name =>
        cases current with
        | object fields =>
          simp only [walkSegments] at hError ⊢
          cases hChild : fields.lookup name with
          | some child =>
            simp only [hChild] at hError ⊢
            rw [ih hRest hError, replaceField_lookup hChild]
          | none =>
            simp only [hChild] at hError
            rw [walk_emptyContainer hRest] at hError
            cases hError
        | _ => rfl
      | index index =>
        cases current with
        | array items =>
          simp only [walkSegments] at hError ⊢
          cases hChild : presentItem items index with
          | some child =>
            simp only [hChild] at hError ⊢
            rw [ih hRest hError, set_presentItem hChild]
          | none =>
            simp only [hChild] at hError
            rw [walk_emptyContainer hRest] at hError
            cases hError
        | _ => rfl
      | root => exact absurd (List.mem_cons_self ..) hRoot

/-! ## Successes -/

theorem walk_read (hRoot : .root ∉ path) (hPath : path ≠ []) (hDone : (walkSegments shown value path current).2 = none) :
    getNestedValue (walkSegments shown value path current).1 path = some value := by
  induction path generalizing current with
  | nil => exact absurd rfl hPath
  | cons segment rest ih =>
    cases rest with
    | nil =>
      cases segment with
      | key name =>
        cases current with
        | object fields =>
          simp only [walkSegments, getNestedValue_key, lookup_insertField, if_true, Option.bind_some, getNestedValue_nil]
        | _ => cases hDone
      | index index =>
        cases current with
        | array items =>
          simp only [walkSegments, getNestedValue_index, getElem?_setItem, if_true, Option.bind_some, getNestedValue_nil]
        | _ => cases hDone
      | root => exact absurd (List.mem_cons_self ..) hRoot
    | cons next rest =>
      have hRest : ∀ {child : Json}, (walkSegments shown value (next :: rest) child).2 = none →
          getNestedValue (walkSegments shown value (next :: rest) child).1 (next :: rest) = some value :=
        ih (fun hMem => hRoot (List.mem_cons_of_mem _ hMem)) (List.cons_ne_nil next rest)
      cases segment with
      | key name =>
        cases current with
        | object fields =>
          simp only [walkSegments] at hDone ⊢
          cases hChild : fields.lookup name with
          | some child =>
            simp only [hChild] at hDone ⊢
            rw [getNestedValue_key, lookup_replaceField hChild, if_pos rfl]
            exact hRest hDone
          | none =>
            simp only [hChild] at hDone ⊢
            rw [getNestedValue_key, lookup_concat_eq hChild, if_pos rfl]
            exact hRest hDone
        | _ => cases hDone
      | index index =>
        cases current with
        | array items =>
          simp only [walkSegments] at hDone ⊢
          cases hChild : presentItem items index with
          | some child =>
            simp only [hChild] at hDone ⊢
            have hLength := (List.getElem?_eq_some_iff.mp (getElem?_of_presentItem hChild)).1
            rw [getNestedValue_index, List.getElem?_set_self hLength]
            exact hRest hDone
          | none =>
            simp only [hChild] at hDone ⊢
            rw [getNestedValue_index, getElem?_setItem, if_pos rfl]
            exact hRest hDone
        | _ => cases hDone
      | root => exact absurd (List.mem_cons_self ..) hRoot

/-- The other path is an item before a position that the path goes through, and there was no such item. -/
structure Padded (before after : Json) (path other : List Segment) : Prop where
  missing : getNestedValue before other = none
  padded : getNestedValue after other = some .null
  below : ∃ front i j rest, other = front ++ [Segment.index i] ∧ path = front ++ Segment.index j :: rest ∧ i < j

/-- The other path reads as before. -/
def Kept (before after : Json) (path other : List Segment) : Prop :=
  getNestedValue after other = getNestedValue before other ∨ Padded before after path other

variable {other : List Segment} {segment : Segment}

theorem Kept.cons {before after next : Json} (h : Kept child next path other)
    (hBefore : getNestedValue before (segment :: other) = getNestedValue child other)
    (hAfter : getNestedValue after (segment :: other) = getNestedValue next other) :
    Kept before after (segment :: path) (segment :: other) := by
  rcases h with hSame | ⟨hMissing, hNull, front, i, j, rest, rfl, rfl, hBelow⟩
  · exact .inl (by rw [hBefore, hAfter, hSame])
  · exact .inr ⟨hBefore.trans hMissing, hAfter.trans hNull, segment :: front, i, j, rest, rfl, rfl, hBelow⟩

/-- In a new container there is nothing but what the path needs. -/
theorem Kept.ofEmpty {next : Json} (hOther : other ≠ []) (hRoot : .root ∉ other)
    (h : Kept (emptyContainer segment) next path other) {before : Json} (hBefore : getNestedValue before other = none) :
    Kept before next path other := by
  have hEmpty := (getNestedValue_empty segment hOther hRoot).1
  rcases h with hSame | hPadded
  · exact .inl (by rw [hSame, hEmpty, hBefore])
  · exact .inr ⟨hBefore, hPadded.padded, hPadded.below⟩

theorem kept_otherKey {before after : List (String × Json)} (name : String)
    (hLookup : ∀ other, other ≠ name → after.lookup other = before.lookup other) (hSegment : segment ≠ .key name)
    (hRoot : segment ≠ .root) (other : List Segment) :
    Kept (.object before) (.object after) path (segment :: other) := by
  refine .inl ?_
  cases segment with
  | key otherName =>
    rw [getNestedValue_key, getNestedValue_key, hLookup otherName fun hSame => hSegment (by rw [hSame])]
  | index index => rfl
  | root => exact absurd rfl hRoot

theorem kept_otherIndex (items : List Json) (index : Nat) (new : Json) (rest : List Segment)
    (hSegment : segment ≠ .index index) (hRoot : segment ≠ .root) (hOther : .root ∉ other) :
    Kept (.array items) (.array (setItem items index new)) (.index index :: rest) (segment :: other) := by
  cases segment with
  | key name => exact .inl rfl
  | root => exact absurd rfl hRoot
  | index i =>
    have hApart : i ≠ index := fun hSame => hSegment (by rw [hSame])
    have hItem := getElem?_setItem items index new i
    rw [if_neg hApart] at hItem
    by_cases hOld : i < items.length
    · rw [if_pos hOld] at hItem
      exact .inl (by rw [getNestedValue_index, getNestedValue_index, hItem])
    · rw [if_neg hOld] at hItem
      have hNone : getNestedValue (.array items) (.index i :: other) = none := by
        rw [getNestedValue_index, List.getElem?_eq_none (Nat.le_of_not_lt hOld), Option.bind_none]
      by_cases hBelow : i < index
      · rw [if_pos hBelow] at hItem
        have hNull : getNestedValue (.array (setItem items index new)) (.index i :: other) = getNestedValue .null other := by
          rw [getNestedValue_index, hItem, Option.bind_some]
        cases other with
        | nil => exact .inr ⟨hNone, hNull, [], i, index, rest, rfl, rfl, hBelow⟩
        | cons below other =>
          refine .inl ?_
          rw [hNull, hNone]
          exact (getNestedValue_empty below (List.cons_ne_nil _ _) hOther).2
      · rw [if_neg hBelow] at hItem
        refine .inl ?_
        rw [hNone, getNestedValue_index, hItem, Option.bind_none]

theorem walk_frame (hRoot : .root ∉ path) (hOther : .root ∉ other) (hPrefix : ¬ other <+: path)
    (hExtends : ¬ path <+: other) (current : Json) :
    Kept current (walkSegments shown value path current).1 path other := by
  induction path generalizing current other with
  | nil => exact absurd List.nil_prefix hExtends
  | cons segment rest ih =>
    cases other with
    | nil => exact absurd List.nil_prefix hPrefix
    | cons first other =>
      have hFirst : first ≠ .root := fun hSame => hOther (hSame ▸ List.mem_cons_self ..)
      have hBelow : .root ∉ other := fun hMem => hOther (List.mem_cons_of_mem _ hMem)
      cases rest with
      | nil =>
        have hApart : first ≠ segment := fun hSame => hExtends (by rw [hSame]; simp)
        cases segment with
        | key name =>
          cases current with
          | object fields =>
            refine kept_otherKey name (fun other hSame => ?_) hApart hFirst other
            rw [lookup_insertField, if_neg hSame]
          | _ => exact .inl rfl
        | index index =>
          cases current with
          | array items => exact kept_otherIndex items index value [] hApart hFirst hBelow
          | _ => exact .inl rfl
        | root => exact absurd (List.mem_cons_self ..) hRoot
      | cons next rest =>
        have hRest : .root ∉ next :: rest := fun hMem => hRoot (List.mem_cons_of_mem _ hMem)
        have hInner : first = segment → ∀ child, Kept child (walkSegments shown value (next :: rest) child).1
            (next :: rest) other := fun hSame child =>
          ih hRest hBelow (fun hFront => hPrefix (by rw [hSame]; exact (List.prefix_cons_inj _).mpr hFront))
            (fun hFront => hExtends (by rw [hSame]; exact (List.prefix_cons_inj _).mpr hFront)) child
        have hNull : first = segment → getNestedValue .null other = none ∧
            Kept .null (walkSegments shown value (next :: rest) (emptyContainer next)).1 (next :: rest) other := by
          intro hSame
          have hNonempty : other ≠ [] := fun hNil => hPrefix (by rw [hSame, hNil]; simp)
          obtain ⟨_, hNone⟩ := getNestedValue_empty next hNonempty hBelow
          exact ⟨hNone, (hInner hSame (emptyContainer next)).ofEmpty hNonempty hBelow hNone⟩
        cases segment with
        | key name =>
          cases current with
          | object fields =>
            simp only [walkSegments]
            cases hChild : fields.lookup name with
            | some child =>
              by_cases hSame : first = .key name
              · subst hSame
                refine (hInner rfl child).cons ?_ ?_
                · rw [getNestedValue_key, hChild, Option.bind_some]
                · rw [getNestedValue_key, lookup_replaceField hChild, if_pos rfl, Option.bind_some]
              · refine kept_otherKey name (fun otherName hApart => ?_) hSame hFirst other
                rw [lookup_replaceField hChild, if_neg hApart]
            | none =>
              by_cases hSame : first = .key name
              · subst hSame
                refine (hNull rfl).2.cons ?_ ?_
                · rw [getNestedValue_key, hChild, Option.bind_none, (hNull rfl).1]
                · rw [getNestedValue_key, lookup_concat_eq hChild, if_pos rfl, Option.bind_some]
              · refine kept_otherKey name (fun otherName hApart => ?_) hSame hFirst other
                rw [lookup_concat_eq hChild, if_neg hApart]
          | _ => exact .inl rfl
        | index index =>
          cases current with
          | array items =>
            simp only [walkSegments]
            cases hChild : presentItem items index with
            | some child =>
              by_cases hSame : first = .index index
              · subst hSame
                have hItem := getElem?_of_presentItem hChild
                refine (hInner rfl child).cons ?_ ?_
                · rw [getNestedValue_index, hItem, Option.bind_some]
                · rw [getNestedValue_index, List.getElem?_set_self (List.getElem?_eq_some_iff.mp hItem).1,
                    Option.bind_some]
              · refine .inl ?_
                cases first with
                | key name => rfl
                | root => exact absurd rfl hFirst
                | index i =>
                  have hApart : index ≠ i := fun hIndex => hSame (by rw [hIndex])
                  rw [getNestedValue_index, getNestedValue_index, List.getElem?_set_ne hApart]
            | none =>
              by_cases hSame : first = .index index
              · subst hSame
                refine (hNull rfl).2.cons ?_ ?_
                · rw [getNestedValue_index, (hNull rfl).1]
                  exact bind_of_presentItem hChild _ (hNull rfl).1
                · rw [getNestedValue_index, getElem?_setItem, if_pos rfl, Option.bind_some]
              · exact kept_otherIndex items index _ (next :: rest) hSame hFirst hBelow
          | _ => exact .inl rfl
        | root => exact absurd (List.mem_cons_self ..) hRoot

/-! ## The value that the accumulator goes on with -/

theorem insertField_of_lookup (hNodup : (fields.map (·.1)).Nodup) (hChild : fields.lookup name = some child)
    (new : Json) :
    insertField fields name new = replaceField fields name new := by
  have hAny : fields.any (·.1 = name) = true := by
    by_contra hNone
    rw [List.lookup_eq_none_iff.mpr] at hChild
    · cases hChild
    · intro field hField
      rw [bne_iff_ne]
      rintro rfl
      exact hNone (List.any_eq_true.mpr ⟨field, hField, by simp⟩)
  rw [insertField, if_pos hAny]
  clear hAny
  induction fields with
  | nil => cases hChild
  | cons field fields ih =>
    rw [List.map_cons, List.nodup_cons] at hNodup
    rw [lookup_cons_eq] at hChild
    rw [List.map_cons, replaceField]
    by_cases hName : field.1 = name
    · have hRest : ∀ other ∈ fields, other.1 ≠ name := fun other hOther hSame =>
        hNodup.1 (List.mem_map.mpr ⟨other, hOther, hSame.trans hName.symm⟩)
      rw [if_pos hName, if_pos hName, List.map_congr_left fun other hOther => if_neg (hRest other hOther),
        List.map_id']
    · rw [if_neg (Ne.symm hName)] at hChild
      rw [if_neg hName, if_neg hName, ih hNodup.2 hChild]

theorem insertField_of_lookup_none (hNone : fields.lookup name = none) (new : Json) :
    insertField fields name new = fields ++ [(name, new)] := by
  refine insertField_of_new (fun hMem => ?_) new
  obtain ⟨field, hField, rfl⟩ := List.mem_map.mp hMem
  have hApart := List.lookup_eq_none_iff.mp hNone field hField
  simp at hApart

theorem set_eq_setItem (hIndex : index < items.length) (new : Json) :
    setItem items index new = items.set index new := by
  rw [setItem, Nat.sub_eq_zero_of_le hIndex, List.replicate_zero, List.append_nil]

def walkResult (walked : Json × Option AiMuxError) : Except AiMuxError Json :=
  match walked with
  | (new, none) => .ok new
  | (_, some error) => .error error

theorem map_walkResult (walked : Json × Option AiMuxError) (place : Json → Json) :
    (walkResult walked).map place = walkResult (place walked.1, walked.2) := by
  rcases walked with ⟨new, _ | error⟩ <;> rfl

open Aimux.Replay (keyed fieldsKeyed itemsKeyed fieldsKeyed_iff itemsKeyed_iff)

theorem keyed_emptyContainer (child : Segment) : keyed (emptyContainer child) = true := by
  cases child <;> rfl

theorem keyed_lookup (h : keyed (.object fields) = true) (hChild : fields.lookup name = some child) :
    keyed child = true := by
  rw [keyed, Bool.and_eq_true, fieldsKeyed_iff] at h
  obtain ⟨front, back, hFields, _⟩ := List.lookup_eq_some_iff.mp hChild
  exact h.2 (name, child) (by rw [hFields]; simp)

theorem setSegments_eq_walk (hRoot : .root ∉ path) (hKeyed : keyed current = true) :
    setSegments shown value path current = walkResult (walkSegments shown value path current) := by
  induction path generalizing current with
  | nil => cases current <;> rfl
  | cons segment rest ih =>
    cases rest with
    | nil => cases segment <;> cases current <;> rfl
    | cons next rest =>
      have hRest : .root ∉ next :: rest := fun hMem => hRoot (List.mem_cons_of_mem _ hMem)
      have hNew := ih hRest (keyed_emptyContainer next)
      cases segment with
      | key name =>
        cases current with
        | object fields =>
          simp only [setSegments, walkSegments]
          cases hChild : fields.lookup name with
          | some child =>
            rw [Option.getD_some, ih hRest (keyed_lookup hKeyed hChild), map_walkResult]
            rw [keyed, Bool.and_eq_true, decide_eq_true_eq] at hKeyed
            rw [insertField_of_lookup hKeyed.1 hChild]
          | none =>
            rw [Option.getD_none, hNew, map_walkResult, insertField_of_lookup_none hChild]
        | _ => rfl
      | index index =>
        cases current with
        | array items =>
          simp only [setSegments, walkSegments, presentItem]
          rw [keyed, itemsKeyed_iff] at hKeyed
          cases hItem : items[index]? with
          | none => rw [hNew, map_walkResult]
          | some child =>
            have hLength := (List.getElem?_eq_some_iff.mp hItem).1
            have hChild := ih hRest (hKeyed child (List.mem_of_getElem? hItem))
            cases child with
            | null => rw [hNew, map_walkResult]
            | _ => rw [hChild, map_walkResult, set_eq_setItem hLength]
        | _ => rfl
      | root => exact absurd (List.mem_cons_self ..) hRoot

/-- The value that the accumulator keeps after a success, and what it reports otherwise. -/
theorem setNestedValue_eq (hRoot : .root ∉ path) (hKeyed : keyed current = true) :
    setNestedValue shown current path value = walkResult (setNestedInPlace shown current path value) := by
  rw [setNestedValue, setNestedInPlace]
  split
  · rfl
  · cases hIndex : path.findSome? oversized with
    | some index => rfl
    | none => exact setSegments_eq_walk hRoot hKeyed

/-! ## Paths that are read from text -/

theorem root_notMem_parseBrackets (fuel : Nat) (text : List Char) : .root ∉ parseBrackets fuel text := by
  induction fuel generalizing text with
  | zero => simp [parseBrackets]
  | succ fuel ih =>
    match text with
    | [] => simp [parseBrackets]
    | head :: rest =>
      by_cases hOpen : head = '['
      · subst hOpen
        rw [parseBrackets]
        split
        · rw [List.mem_append, not_or]
          exact ⟨by simp, ih _⟩
        · simp
      · simp [parseBrackets, hOpen]

theorem root_notMem_parsePath (raw : List Char) : .root ∉ parsePath raw := by
  rw [parsePath, List.mem_flatMap]
  rintro ⟨part, _, hMem⟩
  rw [parsePart] at hMem
  split at hMem
  · rcases List.mem_append.mp hMem with hName | hBrackets
    · split at hName <;> simp at hName
    · exact root_notMem_parseBrackets _ _ hBrackets
  · simp at hMem

/-! ## Setting a value -/

/-- An error leaves the value. After a success the leaf is read back, and no path apart from the leaf's is read
otherwise than before, unless it is an item that an array is filled up with. -/
theorem set_in_place (shown : Shown) (current : Json) (path : List Segment) (value : Json) (hRoot : .root ∉ path)
    (hPath : path ≠ []) :
    let done := setNestedInPlace shown current path value
    (∀ error, done.2 = some error → done.1 = current) ∧
      (done.2 = none → getNestedValue done.1 path = some value ∧
        ∀ other, .root ∉ other → ¬ other <+: path → ¬ path <+: other → Kept current done.1 path other) := by
  intro done
  have hDone : done = setNestedInPlace shown current path value := rfl
  rw [setNestedInPlace] at hDone
  split at hDone
  · rw [hDone]
    exact ⟨fun _ _ => rfl, fun hNone => by cases hNone⟩
  · split at hDone
    · rw [hDone]
      exact ⟨fun _ _ => rfl, fun hNone => by cases hNone⟩
    · rw [hDone]
      exact ⟨fun error hError => walk_error hRoot hError, fun hNone => ⟨walk_read hRoot hPath hNone,
        fun other hOther hPrefix hExtends => walk_frame hRoot hOther hPrefix hExtends current⟩⟩

def quotedNames : Shown where
  number := fun _ => []
  debug := fun text => "\"" ++ text ++ "\""

theorem set_in_place_new :
    let before : Json := .object [("b", .null)]
    let done := setNestedInPlace quotedNames before [.key "a", .index 1] (.bool true)
    getNestedValue done.1 [.key "a", .index 1] = some (.bool true) ∧
      Kept before done.1 [.key "a", .index 1] [.key "a", .index 0] ∧
      Kept before done.1 [.key "a", .index 1] [.key "b"] := by
  intro before done
  obtain ⟨_, hSet⟩ := set_in_place quotedNames before [.key "a", .index 1] (.bool true) (by decide) (by decide)
  obtain ⟨hRead, hKept⟩ := hSet rfl
  exact ⟨hRead, hKept _ (by decide) (by decide) (by decide), hKept _ (by decide) (by decide) (by decide)⟩

/-- The empty path is set without the leaf, and a root behind a key hides what the container is made for. -/
theorem set_in_place_not_every_path :
    (setNestedInPlace quotedNames .null [] (.bool true) = (.null, none) ∧ getNestedValue .null [] ≠ some (.bool true)) ∧
      (let done := setNestedInPlace quotedNames (.object []) [.key "a", .root, .index 0] .null
       done.2 = some (parentMustBe quotedNames (.index 0)) ∧ done.1 ≠ .object []) :=
  ⟨⟨rfl, fun hRead => by cases hRead⟩, rfl, fun hLeft => by cases hLeft⟩

end Aimux.Google
