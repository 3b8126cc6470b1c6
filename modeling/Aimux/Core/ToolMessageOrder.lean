import Aimux.Core.ResponseMessages
import Aimux.Lib.StableSort

/-! # The order of a tool message

The results of a tool message are put in the order of their calls while the approval responses keep their places. The
order is any table of ids; the one that a response builds from its own calls is the case of
`ResponseMessageBuilder.toolMessageContent`.
-/

namespace Aimux.Core

open Aimux.Lib

namespace ResponseMessageBuilder

/-- The order of a result with its position, from the order of the known ids. -/
def compareResults (order : String → Option Nat) (a b : Nat × ToolResultPart) : Ordering :=
  match order a.2.toolCallId, order b.2.toolCallId with
  | none, none => compare a.1 b.1
  | none, some _ => .gt
  | some _, none => .lt
  | some aOrder, some bOrder => (compare aOrder bOrder).then (compare a.1 b.1)

def sortResults (order : String → Option Nat) (parts : List ToolContentPart) : List ToolContentPart :=
  let results := (parts.filterMap resultOf).zipIdx.map fun (result, index) => (index, result)
  replaceResults parts ((results.mergeSort fun a b => (compareResults order a b).isLE).map (·.2))

def toolMessageContentBy (libraries : Libraries) (content : List ContentPart) (order : String → Option Nat) :
    List ToolContentPart :=
  sortResults order (content.flatMap (toolParts libraries))

/-- Unknown calls come last. -/
def rank (order : String → Option Nat) (result : ToolResultPart) : WithTop Nat :=
  match order result.toolCallId with
  | some place => place
  | none => ⊤

/-! ## The results alone -/

section

variable {order : String → Option Nat}

theorem compareResults_isLE (a b : Nat × ToolResultPart) : (compareResults order a b).isLE = true ↔
    rank order a.2 < rank order b.2 ∨ (rank order a.2 = rank order b.2 ∧ a.1 ≤ b.1) := by
  rw [compareResults, rank, rank]
  cases order a.2.toolCallId with
  | none =>
    cases order b.2.toolCallId with
    | none => simp [Nat.isLE_compare]
    | some bOrder => simp
  | some aOrder =>
    cases order b.2.toolCallId with
    | none => simp
    | some bOrder => simp [Ordering.isLE_then_iff_or, Nat.isLE_compare, Nat.compare_eq_lt]

theorem sortResults_eq (parts : List ToolContentPart) :
    sortResults order parts = replaceResults parts (sortedBy (rank order) (parts.filterMap resultOf)) := by
  rw [sortResults, mergeSort_indexed compareResults_isLE]

theorem rank_eq_iff (a : ToolResultPart) (key : Option Nat) :
    rank order a = (match key with | some place => (place : WithTop Nat) | none => ⊤) ↔ order a.toolCallId = key := by
  rw [rank]
  cases order a.toolCallId <;> cases key <;> simp

end

/-! ## The places of the others -/

theorem resultOf_eq_some_iff {part : ToolContentPart} {result : ToolResultPart} :
    resultOf part = some result ↔ part = .toolResult result := by
  cases part <;> simp [resultOf]

theorem results_eq_filter (parts : List ToolContentPart) :
    (parts.filterMap resultOf).map ToolContentPart.toolResult = parts.filter fun part => (resultOf part).isSome := by
  induction parts with
  | nil => rfl
  | cons part parts ih => cases part <;> simp [List.filterMap_cons, resultOf, ih]

section

variable {parts : List ToolContentPart} {sorted : List ToolResultPart}

theorem replaceResults_results (hLength : sorted.length = (parts.filterMap resultOf).length) :
    (replaceResults parts sorted).filterMap resultOf = sorted := by
  induction parts generalizing sorted with
  | nil => simpa [replaceResults, eq_comm] using hLength
  | cons part parts ih =>
    cases part with
    | toolResult result =>
      cases sorted with
      | nil => simp [resultOf] at hLength
      | cons first sorted =>
        have hRest : sorted.length = (parts.filterMap resultOf).length := by simpa [resultOf] using hLength
        rw [replaceResults, List.filterMap_cons_some (resultOf_eq_some_iff.mpr rfl), ih hRest]
    | toolApprovalResponse approvalId approved reason providerExecuted =>
      rw [List.filterMap_cons_none (by rfl)] at hLength
      rw [replaceResults, List.filterMap_cons_none (by rfl), ih hLength]
      all_goals simp

variable (parts sorted) in
theorem replaceResults_others : (replaceResults parts sorted).filter (fun part => !(resultOf part).isSome) =
      parts.filter fun part => !(resultOf part).isSome := by
  fun_induction replaceResults parts sorted with
  | case1 result rest first sorted ih => simpa [resultOf] using ih
  | case2 result rest ih => simpa [resultOf] using ih
  | case3 part rest sorted hFirst hLast ih => simp only [List.filter_cons, ih]
  | case4 => rfl

/-- A part that is no result stays in its place. -/
theorem replaceResults_place (i : Nat) {part : ToolContentPart} (hOther : resultOf part = none) :
    (replaceResults parts sorted)[i]? = some part ↔ parts[i]? = some part := by
  have hNot (result : ToolResultPart) : ToolContentPart.toolResult result ≠ part := by
    rintro rfl
    cases hOther
  fun_induction replaceResults parts sorted generalizing i with
  | case1 result rest first sorted ih => cases i <;> simp [hNot, ih]
  | case2 result rest ih => cases i <;> simp [ih]
  | case3 first rest sorted hFirst hLast ih => cases i <;> simp [ih]
  | case4 => rfl

theorem replaceResults_perm (hPerm : sorted.Perm (parts.filterMap resultOf)) :
    (replaceResults parts sorted).Perm parts := by
  have hResults : ((replaceResults parts sorted).filter fun part => (resultOf part).isSome).Perm
      (parts.filter fun part => (resultOf part).isSome) := by
    rw [← results_eq_filter, ← results_eq_filter, replaceResults_results hPerm.length_eq]
    exact hPerm.map _
  have hBoth := hResults.append (List.Perm.of_eq (replaceResults_others parts sorted))
  exact (List.filter_append_perm _ _).symm.trans (hBoth.trans (List.filter_append_perm _ _))

end

/-! ## The tool message -/

/-- The table of a response's own calls. -/
def orderOf (calls : List String) (id : String) : Option Nat := if id ∈ calls then some (calls.idxOf id) else none

theorem resultBefore_iff (calls : List String) (a b : Nat × ToolResultPart) : resultBefore calls a b = true ↔
    rank (orderOf calls) a.2 < rank (orderOf calls) b.2 ∨
      (rank (orderOf calls) a.2 = rank (orderOf calls) b.2 ∧ a.1 ≤ b.1) := by
  have hKnown {id : String} (h : id ∈ calls) : calls.idxOf id < calls.length := List.idxOf_lt_length_iff.mpr h
  rw [resultBefore, rank, rank, orderOf, orderOf]
  by_cases hA : a.2.toolCallId ∈ calls
  · by_cases hB : b.2.toolCallId ∈ calls
    · simp [hA, hB]
    · simp [hA, hB, hKnown hA]
  · by_cases hB : b.2.toolCallId ∈ calls
    · have hBefore := hKnown hB
      simp [hA, hB, hBefore.ne', hBefore.le]
    · simp [hA, hB]

/-- The order of a response's own calls is one such table. -/
theorem toolMessageContent_eq (libraries : Libraries) (content : List ContentPart) (calls : List String) :
    toolMessageContent libraries content calls = toolMessageContentBy libraries content (orderOf calls) := by
  rw [toolMessageContentBy, sortResults_eq, toolMessageContent, mergeSort_indexed (resultBefore_iff calls)]

/-- Known calls in the order of the table, unknown calls behind them. -/
def CallOrder (order : String → Option Nat) (a b : ToolResultPart) : Prop :=
  match order a.toolCallId, order b.toolCallId with
  | some aOrder, some bOrder => aOrder ≤ bOrder
  | none, some _ => False
  | _, none => True

theorem callOrder_iff (order : String → Option Nat) (a b : ToolResultPart) :
    CallOrder order a b ↔ rank order a ≤ rank order b := by
  rw [CallOrder, rank, rank]
  cases order a.toolCallId <;> cases order b.toolCallId <;> simp

theorem toolMessage_sorted (libraries : Libraries) (content : List ContentPart) (order : String → Option Nat) :
    let parts := content.flatMap (toolParts libraries)
    let message := toolMessageContentBy libraries content order
    let results := message.filterMap resultOf
    message.Perm parts ∧
      (∀ (i : Nat) (part : ToolContentPart), resultOf part = none → (message[i]? = some part ↔ parts[i]? = some part)) ∧
      results.Pairwise (CallOrder order) ∧
      ∀ key, (results.filter fun result => order result.toolCallId = key) =
        (parts.filterMap resultOf).filter fun result => order result.toolCallId = key := by
  intro parts message results
  have hMessage : message = replaceResults parts (sortedBy (rank order) (parts.filterMap resultOf)) :=
    sortResults_eq parts
  have hResults : results = sortedBy (rank order) (parts.filterMap resultOf) := by
    rw [show results = message.filterMap resultOf from rfl, hMessage]
    exact replaceResults_results sortedBy_perm.length_eq
  refine ⟨?_, ?_, ?_, ?_⟩
  · rw [hMessage]
    exact replaceResults_perm sortedBy_perm
  · intro i part hOther
    rw [hMessage]
    exact replaceResults_place i hOther
  · rw [hResults]
    exact sortedBy_pairwise.imp fun {a b} => (callOrder_iff order a b).mpr
  · intro key
    rw [hResults]
    simpa [rank_eq_iff] using sortedBy_filter (rank order) (parts.filterMap resultOf)
      (match key with | some place => (place : WithTop Nat) | none => ⊤)

end ResponseMessageBuilder

end Aimux.Core
