import Aimux.Core.RedactionWalk
import Aimux.Core.ToolCallRepair
import Aimux.Recorder.Model

/-! # A request against a recorded one

`redaction_aware_eq` of `replay.rs`: a recorded `[REDACTED]` stands for any value that is there. Of a
value and what `redact_json` left of it the comparison sees one thing only, a null that was redacted.
-/

namespace Aimux.Replay

open Aimux.Core Aimux.Recorder

/-! ## Values of maps -/

mutual

/-- Every object in the value is a map. -/
def keyed : Json → Bool
  | .object fields => decide (fields.map (·.1)).Nodup && fieldsKeyed fields
  | .array items => itemsKeyed items
  | _ => true

def fieldsKeyed : List (String × Json) → Bool
  | [] => true
  | (_, value) :: rest => keyed value && fieldsKeyed rest

def itemsKeyed : List Json → Bool
  | [] => true
  | item :: rest => keyed item && itemsKeyed rest

end

theorem fieldsKeyed_iff (fields : List (String × Json)) :
    fieldsKeyed fields = true ↔ ∀ field ∈ fields, keyed field.2 = true := by
  induction fields with
  | nil => simp [fieldsKeyed]
  | cons field rest ih =>
    obtain ⟨key, value⟩ := field
    simp [fieldsKeyed, ih]

theorem itemsKeyed_iff (items : List Json) : itemsKeyed items = true ↔ ∀ item ∈ items, keyed item = true := by
  induction items with
  | nil => simp [itemsKeyed]
  | cons item rest ih => simp [itemsKeyed, ih]

/-! ## The comparison -/

mutual

def redactionAwareEq : Json → Json → Bool
  | .string recorded, request =>
    if recorded = "[REDACTED]" then !isNull request
    else match request with
      | .string text => recorded == text
      | _ => false
  | .null, request => isNull request
  | .object recorded, .object request =>
    recorded.length == request.length && fieldsMatch recorded request
  | .array recorded, .array request => recorded.length == request.length && itemsMatch recorded request
  | .bool recorded, .bool flag => recorded == flag
  | .number recorded, .number number => numberEq recorded number
  | _, _ => false

def fieldsMatch : List (String × Json) → List (String × Json) → Bool
  | [], _ => true
  | (key, recorded) :: rest, request =>
    (match request.lookup key with
      | some value => redactionAwareEq recorded value
      | none => false) && fieldsMatch rest request

/-- As far as both lists go. -/
def itemsMatch : List Json → List Json → Bool
  | recorded :: rest, value :: request => redactionAwareEq recorded value && itemsMatch rest request
  | _, _ => true

end

/-! ## A value against its redacted form -/

mutual

/-- A null stands under a sensitive key that is not itself under one. -/
def hidesNull : Json → Bool
  | .object fields => fieldsHideNull fields
  | .array items => itemsHideNull items
  | _ => false

def fieldsHideNull : List (String × Json) → Bool
  | [] => false
  | (key, value) :: rest =>
    (if isSensitiveKey key then isNull value else hidesNull value) || fieldsHideNull rest

def itemsHideNull : List Json → Bool
  | [] => false
  | item :: rest => hidesNull item || itemsHideNull rest

end

theorem redacted_length (fields : List (String × Json)) : (redactFields fields).length = fields.length := by
  rw [redactFields_eq_map, List.length_map]

mutual

theorem match_redacted (value : Json) (hKeyed : keyed value = true) :
    redactionAwareEq (redactJson value) value = !hidesNull value := by
  match value with
  | .null => rfl
  | .bool flag => simp [redactJson, redactionAwareEq, hidesNull]
  | .number number => simp [redactJson, redactionAwareEq, hidesNull, numberEq_refl]
  | .string text =>
    rw [show redactJson (.string text) = .string text from rfl, redactionAwareEq]
    split
    · rfl
    · simp [hidesNull]
  | .object fields =>
    rw [keyed, Bool.and_eq_true, decide_eq_true_iff] at hKeyed
    rw [redactJson, redactionAwareEq, redacted_length, beq_self_eq_true, Bool.true_and, hidesNull]
    exact match_redacted_fields fields fields hKeyed.2 fun key value hMem => lookup_of_mem hKeyed.1 hMem
  | .array items =>
    rw [keyed] at hKeyed
    rw [redactJson, redactionAwareEq, redactItems_eq_map, List.length_map, beq_self_eq_true, Bool.true_and,
      hidesNull, ← redactItems_eq_map]
    exact match_redacted_items items hKeyed

theorem match_redacted_fields (fields request : List (String × Json)) (hKeyed : fieldsKeyed fields = true)
    (hThere : ∀ key value, (key, value) ∈ fields → request.lookup key = some value) :
    fieldsMatch (redactFields fields) request = !fieldsHideNull fields := by
  match fields with
  | [] => rfl
  | (key, value) :: rest =>
    rw [fieldsKeyed, Bool.and_eq_true] at hKeyed
    have hRest := match_redacted_fields rest request hKeyed.2
      fun name other hMem => hThere name other (List.mem_cons_of_mem _ hMem)
    rw [redactFields, fieldsMatch, hThere key value List.mem_cons_self, hRest, fieldsHideNull, Bool.not_or]
    congr 1
    cases hOpen : isSensitiveKey key with
    | true => rfl
    | false => exact match_redacted value hKeyed.1

theorem match_redacted_items (items : List Json) (hKeyed : itemsKeyed items = true) :
    itemsMatch (redactItems items) items = !itemsHideNull items := by
  match items with
  | [] => rfl
  | item :: rest =>
    rw [itemsKeyed, Bool.and_eq_true] at hKeyed
    rw [redactItems, itemsMatch, match_redacted item hKeyed.1, match_redacted_items rest hKeyed.2,
      itemsHideNull, Bool.not_or]

end

end Aimux.Replay
