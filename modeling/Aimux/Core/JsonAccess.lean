import Aimux.Core.Redaction

/-! # Members of a JSON value

`Value::get` and the readings of a member that the providers' handlers share.
-/

namespace Aimux.Core

/-- `Value::get` -/
def Json.get (value : Json) (key : String) : Option Json := (asObject value).bind (·.lookup key)

def Json.getStr (value : Json) (key : String) : Option String := (value.get key).bind asStr

def Json.getBool (value : Json) (key : String) : Option Bool := (value.get key).bind asBool

def Json.getU64 (value : Json) (key : String) : Option Nat := (value.get key).bind asU64

/-- The member of an indexed value; null where there is none. -/
def Json.member (value : Json) (key : String) : Json := (value.get key).getD .null

def Json.isNull : Json → Bool
  | .null => true
  | _ => false

def Json.isString (value : Json) : Bool := (asStr value).isSome

def Json.isObject (value : Json) : Bool := (asObject value).isSome

/-- A member that is there and not null. -/
def Json.filled (value : Json) (key : String) : Option Json := (value.get key).filter fun member => !member.isNull

/-- `as_str().unwrap_or_default()` of a member -/
def Json.strOrEmpty (value : Json) (key : String) : String := (value.getStr key).getD ""

def Json.isNumber : Json → Bool
  | .number _ => true
  | _ => false

def Json.isArray (value : Json) : Bool := (asArray value).isSome

/-- A member is set; other values than objects have none. -/
def Json.set (value : Json) (key : String) (member : Json) : Json :=
  match value with
  | .object fields => .object (insertField fields key member)
  | other => other

/-! ## Lookups -/

theorem lookup_cons_eq (field : String × Json) (fields : List (String × Json)) (name : String) :
    (field :: fields).lookup name = if name = field.1 then some field.2 else fields.lookup name := by
  by_cases hName : name = field.1
  · rw [if_pos hName, hName, List.lookup_cons_self]
  · rw [if_neg hName, List.lookup_cons, beq_false_of_ne hName]

theorem lookup_concat_eq {fields : List (String × Json)} {name : String} (hNone : fields.lookup name = none)
    (new : Json) (other : String) :
    (fields ++ [(name, new)]).lookup other = if other = name then some new else fields.lookup other := by
  rw [List.lookup_append, lookup_cons_eq, List.lookup_nil]
  by_cases hOther : other = name
  · rw [if_pos hOther, if_pos hOther, hOther, hNone]
    rfl
  · rw [if_neg hOther, if_neg hOther]
    simp

theorem lookup_map_field (fields : List (String × Json)) (name : String) (new : Json) (other : String) :
    (fields.map fun field => if field.1 = name then (name, new) else field).lookup other =
      if other = name then (if fields.any (·.1 = name) then some new else none) else fields.lookup other := by
  induction fields with
  | nil => simp
  | cons field fields ih =>
    rw [List.map_cons, lookup_cons_eq, lookup_cons_eq, ih, List.any_cons]
    by_cases hName : field.1 = name
    · simp only [hName, if_true, decide_true, Bool.true_or]
      by_cases hOther : other = name
      · rw [if_pos hOther, if_pos hOther]
      · simp only [if_neg hOther]
    · simp only [hName, if_false, decide_false, Bool.false_or]
      by_cases hOther : other = field.1
      · rw [if_pos hOther, if_neg (fun hSame => hName (hOther.symm.trans hSame)), if_pos hOther]
      · rw [if_neg hOther, if_neg hOther]

theorem lookup_insertField (fields : List (String × Json)) (name : String) (new : Json) (other : String) :
    (insertField fields name new).lookup other = if other = name then some new else fields.lookup other := by
  rw [insertField]
  split
  · rename_i hAny
    rw [lookup_map_field, if_pos hAny]
  · rename_i hNone
    refine lookup_concat_eq ?_ new other
    rw [List.lookup_eq_none_iff]
    intro field hField
    rw [bne_iff_ne]
    rintro rfl
    exact hNone (List.any_eq_true.mpr ⟨field, hField, by simp⟩)

variable {value : Json}

theorem Json.get_set (hObject : value.isObject = true) (key other : String) (member : Json) :
    (value.set key member).get other = if other = key then some member else value.get other := by
  cases value with
  | object fields => exact lookup_insertField fields key member other
  | _ => cases hObject

variable {key : String}

theorem Json.isObject_of_get {member : Json} (h : value.get key = some member) :
    value.isObject = true := by
  cases value with
  | object fields => rfl
  | _ => cases h

variable {text : String}

theorem Json.get_of_getStr (h : value.getStr key = some text) :
    value.get key = some (.string text) := by
  obtain ⟨member, hMember, hText⟩ := Option.bind_eq_some_iff.mp h
  rw [hMember]
  cases member with
  | string other => exact congrArg (fun text => some (Json.string text)) (Option.some.inj hText)
  | _ => cases hText

theorem Json.member_of_getStr (h : value.getStr key = some text) :
    value.member key = .string text := by
  rw [Json.member, Json.get_of_getStr h, Option.getD_some]

theorem Json.strOrEmpty_of_getStr (h : value.getStr key = some text) :
    value.strOrEmpty key = text := by
  rw [Json.strOrEmpty, h, Option.getD_some]

end Aimux.Core
