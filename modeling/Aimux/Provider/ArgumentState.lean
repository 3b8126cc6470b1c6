import Aimux.Lib.JsonText
import Aimux.Provider.ToolCallArguments

/-! # When streamed arguments are complete

The state after all fragments is that of their concatenation. It is complete as soon as one bracket group
has been read, and a JSON object or array is such a group, no proper prefix of which is one.
-/

namespace Aimux.Provider

open Aimux.Core Aimux.Lib.Rfc8259

/-! ## Bracket groups -/

inductive Pair : Char → Char → Prop
  | brace : Pair '{' '}'
  | bracket : Pair '[' ']'

def isStructural (c : Char) : Bool := c = '"' || c = '{' || c = '}' || c = '[' || c = ']'

/-- What stands between two quotes: a character after a backslash counts for nothing. -/
inductive Quoted : List Char → Prop
  | nil : Quoted []
  | plain {c : Char} {cs : List Char} (hQuote : c ≠ '"') (hBackslash : c ≠ '\\') (hRest : Quoted cs) :
    Quoted (c :: cs)
  | escape {c : Char} {cs : List Char} (hRest : Quoted cs) : Quoted ('\\' :: c :: cs)

/-- The brackets outside strings are balanced. -/
inductive Inside : List Char → Prop
  | nil : Inside []
  | plain {c : Char} {cs : List Char} (hPlain : isStructural c = false) (hRest : Inside cs) : Inside (c :: cs)
  | text {body cs : List Char} (hBody : Quoted body) (hRest : Inside cs) : Inside ('"' :: (body ++ '"' :: cs))
  | group {o c : Char} {inner cs : List Char} (hPair : Pair o c) (hInner : Inside inner) (hRest : Inside cs) :
    Inside (o :: (inner ++ c :: cs))

inductive Group : List Char → Prop
  | mk {o c : Char} {inner : List Char} (hPair : Pair o c) (hInner : Inside inner) :
    Group (o :: (inner ++ [c]))

/-- After leading whitespace the text begins with a group. -/
def BeginsWithGroup (cs : List Char) : Prop :=
  ∃ before group after, cs = before ++ (group ++ after) ∧ (∀ c ∈ before, isWhitespace c = true) ∧ Group group

theorem Inside.append {a b : List Char} (hA : Inside a) (hB : Inside b) : Inside (a ++ b) := by
  induction hA with
  | nil => exact hB
  | plain hPlain _ ih => exact .plain hPlain ih
  | text hBody _ ih =>
    rw [List.cons_append, List.append_assoc, List.cons_append]
    exact .text hBody ih
  | group hPair hInner _ _ ih =>
    rw [List.cons_append, List.append_assoc, List.cons_append]
    exact .group hPair hInner ih

/-- What brings every open bracket of a stack, the innermost first, to its closing one. -/
inductive Unwinds : List Char → List Char → Prop
  | last {o c : Char} {inner : List Char} (rest : List Char) (hPair : Pair o c) (hInner : Inside inner) :
    Unwinds [o] (inner ++ c :: rest)
  | more {o c : Char} {inner rest below : List Char} (hPair : Pair o c) (hInner : Inside inner)
    (hRest : Unwinds below rest) : Unwinds (o :: below) (inner ++ c :: rest)

variable {cs stack : List Char}

theorem Unwinds.prepend {front : List Char} (hFront : Inside front) (h : Unwinds stack cs) :
    Unwinds stack (front ++ cs) := by
  cases h with
  | last rest hPair hInner =>
    rw [← List.append_assoc]
    exact .last rest hPair (hFront.append hInner)
  | more hPair hInner hRest =>
    rw [← List.append_assoc]
    exact .more hPair (hFront.append hInner) hRest

namespace StreamingToolCallArgumentState

/-! ## The scan -/

theorem scan_nil (stack : List Char) (inString escaped : Bool) :
    scan stack inString escaped [] = .opened stack inString escaped := by
  cases inString <;> cases escaped <;> rfl

theorem scan_escaped (stack : List Char) (c : Char) (rest : List Char) :
    scan stack true true (c :: rest) = scan stack true false rest := rfl

theorem scan_in_string (stack : List Char) (c : Char) (rest : List Char) :
    scan stack true false (c :: rest) =
      if c = '\\' then scan stack true true rest
      else if c = '"' then scan stack false false rest
      else scan stack true false rest := rfl

theorem scan_outside (stack : List Char) (escaped : Bool) (c : Char) (rest : List Char) :
    scan stack false escaped (c :: rest) =
      if c = '"' then scan stack true escaped rest
      else if c = '{' ∨ c = '[' then scan (c :: stack) false escaped rest
      else if c = '}' ∨ c = ']' then
        match stack with
        | [] => .other
        | top :: below =>
          if top ≠ (if c = '}' then '{' else '[') then .other
          else if below.isEmpty then .complete
          else scan below false escaped rest
      else scan stack false escaped rest := by
  cases escaped <;> rfl

/-- Scanning on from what a scan gave. -/
def resume : Structure → List Char → Structure
  | .opened stack inString escaped, cs => scan stack inString escaped cs
  | ended, _ => ended

theorem scan_append (stack : List Char) (inString escaped : Bool) (a b : List Char) :
    scan stack inString escaped (a ++ b) = resume (scan stack inString escaped a) b := by
  fun_induction scan stack inString escaped a with
  | case1 => rfl
  | _ => simp_all [scan, resume]

/-- A scan that has ended stays as it is. -/
theorem scan_append_of_opened {a b : List Char} {inString escaped : Bool} {top : List Char} {i e : Bool}
    (hWhole : scan stack inString escaped (a ++ b) = .opened top i e) :
    scan stack inString escaped a ≠ .complete := by
  intro hComplete
  rw [scan_append, hComplete] at hWhole
  cases hWhole

theorem scan_quoted {body : List Char} (h : Quoted body) (stack cs : List Char) :
    scan stack true false (body ++ '"' :: cs) = scan stack false false cs := by
  induction h with
  | nil => rw [List.nil_append, scan_in_string, if_neg (by decide), if_pos rfl]
  | plain hQuote hBackslash _ ih => rw [List.cons_append, scan_in_string, if_neg hBackslash, if_neg hQuote, ih]
  | escape _ ih => rw [List.cons_append, List.cons_append, scan_in_string, if_pos rfl, scan_escaped, ih]

variable {c o : Char}

theorem scan_open (hPair : Pair o c) (stack cs : List Char) :
    scan stack false false (o :: cs) = scan (o :: stack) false false cs := by
  cases hPair <;> simp [scan]

theorem scan_close (hPair : Pair o c) (stack cs : List Char) :
    scan (o :: stack) false false (c :: cs) =
      if stack.isEmpty then .complete else scan stack false false cs := by
  cases hPair <;> simp [scan]

theorem scan_plain (hPlain : isStructural c = false) (stack cs : List Char) :
    scan stack false false (c :: cs) = scan stack false false cs := by
  simp only [isStructural, Bool.or_eq_false_iff, decide_eq_false_iff_not] at hPlain
  obtain ⟨⟨⟨⟨hQuote, hBrace⟩, hBraceEnd⟩, hBracket⟩, hBracketEnd⟩ := hPlain
  rw [scan_outside, if_neg hQuote, if_neg (not_or.mpr ⟨hBrace, hBracket⟩), if_neg (not_or.mpr ⟨hBraceEnd, hBracketEnd⟩)]

/-- Balanced text leaves the open brackets as they are. -/
theorem scan_inside (h : Inside cs) (hStack : stack ≠ []) (rest : List Char) :
    scan stack false false (cs ++ rest) = scan stack false false rest := by
  induction h generalizing stack rest with
  | nil => rfl
  | plain hPlain _ ih => rw [List.cons_append, scan_plain hPlain, ih hStack]
  | text hBody _ ih =>
    rw [List.cons_append, List.append_assoc, List.cons_append, scan_outside, if_pos rfl, scan_quoted hBody,
      ih hStack]
  | group hPair _ _ ihInner ihRest =>
    rw [List.cons_append, List.append_assoc, List.cons_append, scan_open hPair, ihInner (List.cons_ne_nil _ _),
      scan_close hPair, if_neg (by simpa using hStack), ihRest hStack]

theorem scan_group {g : List Char} (h : Group g) (rest : List Char) :
    scan [] false false (g ++ rest) = .complete := by
  obtain ⟨hPair, hInner⟩ := h
  rw [List.cons_append, List.append_assoc, scan_open hPair, scan_inside hInner (List.cons_ne_nil _ _),
    List.singleton_append, scan_close hPair]
  rfl

/-! ### What a complete scan has read -/

/-- A scan that completes from within a string has left it. By induction on how much text is left, as
an escape takes two characters. -/
theorem quoted_of_complete (n : Nat) (stack cs : List Char) (hLength : cs.length ≤ n)
    (h : scan stack true false cs = .complete) :
    ∃ body rest, Quoted body ∧ cs = body ++ '"' :: rest ∧ scan stack false false rest = .complete := by
  induction n generalizing cs with
  | zero =>
    rw [List.length_eq_zero_iff.mp (Nat.le_zero.mp hLength), scan_nil] at h
    cases h
  | succ n ih =>
    cases cs with
    | nil =>
      rw [scan_nil] at h
      cases h
    | cons c cs =>
      have hShort : cs.length ≤ n := Nat.le_of_succ_le_succ hLength
      rw [scan_in_string] at h
      split at h
      · rename_i hBackslash
        subst hBackslash
        cases cs with
        | nil =>
          rw [scan_nil] at h
          cases h
        | cons d cs =>
          rw [scan_escaped] at h
          obtain ⟨body, rest, hBody, rfl, hRest⟩ := ih cs (Nat.le_of_succ_le hShort) h
          exact ⟨'\\' :: d :: body, rest, .escape hBody, rfl, hRest⟩
      · rename_i hBackslash
        split at h
        · rename_i hQuote
          subst hQuote
          exact ⟨[], cs, .nil, rfl, h⟩
        · rename_i hQuote
          obtain ⟨body, rest, hBody, rfl, hRest⟩ := ih cs hShort h
          exact ⟨c :: body, rest, .plain hQuote hBackslash hBody, rfl, hRest⟩

/-- A complete scan has unwound its stack. By induction on how much text is left. -/
theorem unwinds_of_complete (n : Nat) (stack cs : List Char) (hLength : cs.length ≤ n) (hStack : stack ≠ [])
    (h : scan stack false false cs = .complete) : Unwinds stack cs := by
  induction n generalizing stack cs with
  | zero =>
    rw [List.length_eq_zero_iff.mp (Nat.le_zero.mp hLength), scan_nil] at h
    cases h
  | succ n ih =>
    cases cs with
    | nil =>
      rw [scan_nil] at h
      cases h
    | cons c cs =>
      have hShort : cs.length ≤ n := Nat.le_of_succ_le_succ hLength
      by_cases hStructural : isStructural c = false
      · rw [scan_plain hStructural] at h
        exact (ih stack cs hShort hStack h).prepend (.plain hStructural .nil)
      simp only [isStructural, Bool.or_eq_false_iff, decide_eq_false_iff_not] at hStructural
      by_cases hQuote : c = '"'
      · subst hQuote
        rw [scan_outside, if_pos rfl] at h
        obtain ⟨body, rest, hBody, rfl, hRest⟩ := quoted_of_complete cs.length stack cs le_rfl h
        rw [List.length_append, List.length_cons] at hShort
        have hUnwinds := (ih stack rest (by omega) hStack hRest).prepend (.text hBody .nil)
        rwa [List.cons_append, List.append_assoc, List.singleton_append] at hUnwinds
      by_cases hOpen : c = '{' ∨ c = '['
      · obtain ⟨closing, hPair⟩ : ∃ closing, Pair c closing := by
          rcases hOpen with rfl | rfl
          · exact ⟨_, .brace⟩
          · exact ⟨_, .bracket⟩
        rw [scan_open hPair] at h
        cases ih (c :: stack) cs hShort (List.cons_ne_nil _ _) h with
        | last rest hPair hInner => exact absurd rfl hStack
        | more hPair hInner hRest =>
          have hUnwinds := hRest.prepend (.group hPair hInner .nil)
          rwa [List.cons_append, List.append_assoc, List.singleton_append] at hUnwinds
      · have hClose : c = '}' ∨ c = ']' := by tauto
        rw [scan_outside, if_neg hQuote, if_neg hOpen, if_pos hClose] at h
        cases stack with
        | nil => exact absurd rfl hStack
        | cons top below =>
          simp only at h
          by_cases hTop : top = if c = '}' then '{' else '['
          · have hPair : Pair top c := by
              subst hTop
              rcases hClose with rfl | rfl
              · exact .brace
              · exact .bracket
            rw [if_neg (not_not.mpr hTop)] at h
            by_cases hBelow : below.isEmpty = true
            · rw [List.isEmpty_iff.mp hBelow]
              exact .last cs hPair .nil
            · rw [if_neg hBelow] at h
              exact .more hPair .nil (ih below cs hShort (mt List.isEmpty_iff.mpr hBelow) h)
          · rw [if_pos hTop] at h
            cases h

theorem group_of_complete (hPair : Pair o c) (h : scan [] false false (o :: cs) = .complete) :
    ∃ g rest, o :: cs = g ++ rest ∧ Group g := by
  rw [scan_open hPair] at h
  cases unwinds_of_complete cs.length [o] cs le_rfl (List.cons_ne_nil _ _) h with
  | last rest hClose hInner =>
    exact ⟨_, rest, by rw [List.cons_append, List.append_assoc]; rfl, .mk hClose hInner⟩
  | more _ _ hRest => cases hRest

/-! ## Fragments -/

theorem append_empty (state : StreamingToolCallArgumentState) : state.append "" = state := by
  obtain ⟨structure_⟩ := state
  cases structure_ <;> rfl

theorem trimStart_append (a b : String) :
    trimStart (a ++ b) = if (trimStart a).isEmpty then trimStart b else trimStart a ++ b.toList := by
  rw [trimStart, String.toList_append, List.dropWhile_append]
  rfl

theorem scan_determined (stack : List Char) (inString escaped : Bool) (cs : List Char) :
    scan stack inString escaped cs ≠ .undetermined := by
  fun_induction scan stack inString escaped cs <;> first | assumption | rintro ⟨⟩

theorem append_scanned (stack : List Char) (inString escaped : Bool) (cs : List Char) (delta : String) :
    append ⟨scan stack inString escaped cs⟩ delta = ⟨resume (scan stack inString escaped cs) delta.toList⟩ := by
  cases hScan : scan stack inString escaped cs with
  | undetermined => exact absurd hScan (scan_determined stack inString escaped cs)
  | _ => rfl

theorem append_append (state : StreamingToolCallArgumentState) (a b : String) :
    (state.append a).append b = state.append (a ++ b) := by
  obtain ⟨structure_⟩ := state
  cases structure_ with
  | undetermined =>
    unfold append
    rw [trimStart_append]
    cases hTrim : trimStart a with
    | nil => rfl
    | cons c cs =>
      simp only [List.isEmpty_cons, Bool.false_eq_true, if_false, List.cons_append]
      by_cases hOpen : c = '{' ∨ c = '['
      · rw [if_pos hOpen, if_pos hOpen, ← List.cons_append, scan_append]
        exact append_scanned [] false false (c :: cs) b
      · rw [if_neg hOpen, if_neg hOpen]
  | opened stack inString escaped =>
    have hWhole : append ⟨.opened stack inString escaped⟩ (a ++ b) =
        ⟨scan stack inString escaped (a.toList ++ b.toList)⟩ := by
      rw [← String.toList_append]
      rfl
    rw [hWhole, scan_append]
    exact append_scanned stack inString escaped a.toList b
  | other => rfl
  | complete => rfl

theorem foldl_append (fragments : List String) (state : StreamingToolCallArgumentState) :
    fragments.foldl append state = state.append (String.join fragments) := by
  induction fragments generalizing state with
  | nil => exact (append_empty state).symm
  | cons fragment fragments ih => rw [List.foldl_cons, ih, append_append, String.join_cons]

theorem complete_sticky {state : StreamingToolCallArgumentState}
    (hComplete : state.hasCompleteStructuredValue = true) (delta : String) :
    (state.append delta).hasCompleteStructuredValue = true := by
  obtain ⟨structure_⟩ := state
  obtain rfl : structure_ = .complete := of_decide_eq_true hComplete
  rfl

/-! ## Complete texts -/

variable {before : List Char}

theorem dropWhile_before {rest : List Char} (hBefore : ∀ c ∈ before, isWhitespace c = true)
    (hFirst : isWhitespace o = false) :
    (before ++ o :: rest).dropWhile isWhitespace = o :: rest := by
  rw [List.dropWhile_append, List.dropWhile_eq_nil_iff.mpr hBefore, List.isEmpty_nil, if_pos rfl,
    List.dropWhile_cons_of_neg (by rw [hFirst]; exact Bool.false_ne_true)]

theorem Pair.first (h : Pair o c) : isWhitespace o = false ∧ (o = '{' ∨ o = '[') := by
  cases h <;> decide

theorem new_of_open (hPair : Pair o c) {rest : List Char} {text : String} (hText : text.toList = before ++ o :: rest)
    (hBefore : ∀ c ∈ before, isWhitespace c = true) :
    (new text).structure_ = scan [] false false (o :: rest) := by
  rw [new, append, trimStart, hText, dropWhile_before hBefore (Pair.first hPair).1]
  simp only [if_pos (Pair.first hPair).2]

/-- Complete exactly when a group has been read. -/
theorem complete_iff (text : String) : (new text).hasCompleteStructuredValue = true ↔ BeginsWithGroup text.toList := by
  rw [hasCompleteStructuredValue, decide_eq_true_iff]
  constructor
  · intro hComplete
    have hSplit := List.takeWhile_append_dropWhile (p := isWhitespace) (l := text.toList)
    rw [new, append] at hComplete
    cases hTrim : trimStart text with
    | nil =>
      rw [hTrim] at hComplete
      cases hComplete
    | cons o rest =>
      rw [hTrim] at hComplete
      simp only at hComplete
      split at hComplete
      · rename_i hOpen
        obtain ⟨c, hPair⟩ : ∃ c, Pair o c := by
          rcases hOpen with rfl | rfl
          · exact ⟨_, .brace⟩
          · exact ⟨_, .bracket⟩
        obtain ⟨g, after, hEq, hGroup⟩ := group_of_complete hPair hComplete
        refine ⟨text.toList.takeWhile isWhitespace, g, after, ?_, fun c hC => List.mem_takeWhile_imp hC, hGroup⟩
        rw [← hEq, ← hTrim]
        exact hSplit.symm
      · cases hComplete
  · rintro ⟨before, g, after, hText, hBefore, hGroup⟩
    have hScan := scan_group hGroup after
    obtain ⟨hPair, hInner⟩ := hGroup
    rw [List.cons_append] at hText hScan
    rw [new_of_open hPair hText hBefore, hScan]

/-! ## JSON objects and arrays -/

theorem inside_of_plain (h : ∀ c ∈ cs, isStructural c = false) : Inside cs := by
  induction cs with
  | nil => exact .nil
  | cons c cs ih =>
    exact .plain (h c List.mem_cons_self) (ih fun d hD => h d (List.mem_cons_of_mem _ hD))

theorem isSpace_plain (h : isSpace c = true) : isStructural c = false := by
  simp only [isSpace, Bool.or_eq_true, decide_eq_true_iff] at h
  rcases h with ((rfl | rfl) | rfl) | rfl <;> rfl

theorem isDigit_plain (h : c.isDigit = true) : isStructural c = false := by
  simp only [isStructural, Bool.or_eq_false_iff, decide_eq_false_iff_not]
  refine ⟨⟨⟨⟨?_, ?_⟩, ?_⟩, ?_⟩, ?_⟩ <;> rintro rfl <;> cases h

theorem inside_of_spaces (h : Spaces cs) : Inside cs :=
  inside_of_plain fun c hC => isSpace_plain (h c hC)

theorem inside_of_digits (h : Digits cs) : Inside cs :=
  inside_of_plain fun c hC => isDigit_plain (h c hC)

theorem inside_of_number (h : Number cs) : Inside cs := by
  obtain ⟨hSign, hInt, hFrac, hExp⟩ := h
  refine .append ?_ (.append ?_ (.append ?_ ?_))
  · cases hSign with
    | none => exact .nil
    | minus => exact .plain rfl .nil
  · cases hInt with
    | zero => exact .plain rfl .nil
    | digits hFirst _ hDigits => exact .plain (isDigit_plain hFirst) (inside_of_digits hDigits)
  · cases hFrac with
    | none => exact .nil
    | digits _ hDigits => exact .plain rfl (inside_of_digits hDigits)
  · cases hExp with
    | none => exact .nil
    | @digits e _ _ hE hSign _ hDigits =>
      have hTail := inside_of_digits hDigits
      have hFirst : isStructural e = false := by rcases hE with rfl | rfl <;> rfl
      cases hSign with
      | none => exact .plain hFirst hTail
      | plus => exact .plain hFirst (.plain rfl hTail)
      | minus => exact .plain hFirst (.plain rfl hTail)

theorem quoted_of_body (h : Body cs) : Quoted cs := by
  induction h with
  | nil => exact .nil
  | plain hQuote hBackslash _ _ ih => exact .plain hQuote hBackslash ih
  | escape _ _ ih => exact .escape ih
  | unicode hA hB hC hD _ ih =>
    have hPlain {d : Char} (hDigit : isHexDigit d = true) : d ≠ '"' ∧ d ≠ '\\' := by
      constructor <;> rintro rfl <;> exact absurd hDigit (by decide)
    exact .escape (.plain (hPlain hA).1 (hPlain hA).2 (.plain (hPlain hB).1 (hPlain hB).2
      (.plain (hPlain hC).1 (hPlain hC).2 (.plain (hPlain hD).1 (hPlain hD).2 ih))))

section

variable {Name : List Char → Prop}

mutual

theorem inside_of_value {cs : List Char} (h : Value Name cs) : Inside cs := by
  match h with
  | .litTrue | .litNull => exact .plain rfl (.plain rfl (.plain rfl (.plain rfl .nil)))
  | .litFalse => exact .plain rfl (.plain rfl (.plain rfl (.plain rfl (.plain rfl .nil))))
  | .number hNumber => exact inside_of_number hNumber
  | .string hBody => exact .text (quoted_of_body hBody) .nil
  | .emptyArray hSpaces => exact .group .bracket (inside_of_spaces hSpaces) .nil
  | .array hItems => exact .group .bracket (inside_of_elements hItems) .nil
  | .emptyObject hSpaces => exact .group .brace (inside_of_spaces hSpaces) .nil
  | .object hMembers => exact .group .brace (inside_of_members hMembers) .nil

theorem inside_of_elements {cs : List Char} (h : Elements Name cs) : Inside cs := by
  match h with
  | .last hBefore hValue hAfter =>
    exact (inside_of_spaces hBefore).append ((inside_of_value hValue).append (inside_of_spaces hAfter))
  | .more hBefore hValue hAfter hRest =>
    exact (inside_of_spaces hBefore).append ((inside_of_value hValue).append
      ((inside_of_spaces hAfter).append (.plain rfl (inside_of_elements hRest))))

theorem inside_of_members {cs : List Char} (h : Members Name cs) : Inside cs := by
  match h with
  | .last hBefore hBody _ hGap hBetween hValue hAfter =>
    exact (inside_of_spaces hBefore).append (.text (quoted_of_body hBody) ((inside_of_spaces hGap).append
      (.plain rfl ((inside_of_spaces hBetween).append
        ((inside_of_value hValue).append (inside_of_spaces hAfter))))))
  | .more hBefore hBody _ hGap hBetween hValue hAfter hRest =>
    exact (inside_of_spaces hBefore).append (.text (quoted_of_body hBody) ((inside_of_spaces hGap).append
      (.plain rfl ((inside_of_spaces hBetween).append ((inside_of_value hValue).append
        ((inside_of_spaces hAfter).append (.plain rfl (inside_of_members hRest))))))))

end

theorem not_pair_digit (h : Pair o c) : o.isDigit = false ∧ o ≠ '-' := by
  cases h <;> decide

/-- An object or an array is a group. -/
theorem group_of_value (h : Value Name cs) (hPair : Pair o c) (hFirst : cs.head? = some o) : Group cs := by
  cases h with
  | litTrue | litFalse | litNull | string _ =>
    obtain rfl := Option.some.inj hFirst
    cases hPair
  | emptyArray hSpaces => exact .mk .bracket (inside_of_spaces hSpaces)
  | array hItems => exact .mk .bracket (inside_of_elements hItems)
  | emptyObject hSpaces => exact .mk .brace (inside_of_spaces hSpaces)
  | object hMembers => exact .mk .brace (inside_of_members hMembers)
  | number hNumber =>
    obtain ⟨hSign, hInt, -, -⟩ := hNumber
    cases hSign with
    | minus =>
      obtain rfl := Option.some.inj hFirst
      cases hPair
    | none =>
      cases hInt with
      | zero =>
        obtain rfl := Option.some.inj hFirst
        cases hPair
      | digits hDigit _ _ =>
        obtain rfl := Option.some.inj hFirst
        rw [(not_pair_digit hPair).1] at hDigit
        cases hDigit

end

/-- A text that lacks the last bracket of its object or array is not complete. -/
theorem not_complete_of_cut {value after p : List Char} (hBefore : Spaces before) (hValue : JsonValue value)
    (hPair : Pair o c) (hFirst : value.head? = some o) (hPrefix : p <+: before ++ (value ++ after))
    (hShort : p.length < (before ++ value).length) :
    (new (String.ofList p)).hasCompleteStructuredValue = false := by
  have hGroup := group_of_value hValue hPair hFirst
  obtain ⟨hOwn, hInner⟩ := hGroup
  obtain rfl := Option.some.inj hFirst
  have hSpace : ∀ c ∈ before, isWhitespace c = true := by
    intro c hC
    have hIs := hBefore c hC
    simp only [isSpace, Bool.or_eq_true, decide_eq_true_iff] at hIs
    rcases hIs with ((rfl | rfl) | rfl) | rfl <;> rfl
  rw [hasCompleteStructuredValue, decide_eq_false_iff_not]
  rcases prefix_append_cases hPrefix with hOnlySpace | ⟨r, rfl, hRest⟩
  · rw [new, append, trimStart, String.toList_ofList,
      List.dropWhile_eq_nil_iff.mpr fun c hC => hSpace c (hOnlySpace.subset hC)]
    rintro ⟨⟩
  rename_i o closing inner
  rw [List.length_append, List.length_append] at hShort
  cases r with
  | nil =>
    rw [List.append_nil, new, append, trimStart, String.toList_ofList,
      List.dropWhile_eq_nil_iff.mpr hSpace]
    rintro ⟨⟩
  | cons first r =>
    rw [List.cons_append, List.cons_prefix_cons] at hRest
    obtain ⟨rfl, hTail⟩ := hRest
    have hInside : r <+: inner := by
      refine List.prefix_of_prefix_length_le hTail ?_ ?_
      · rw [List.append_assoc]
        exact List.prefix_append inner _
      · simp only [List.length_cons, List.length_append, List.length_nil] at hShort
        omega
    obtain ⟨t, rfl⟩ := hInside
    rw [new_of_open hOwn String.toList_ofList hSpace, scan_open hOwn]
    have hWhole := scan_inside hInner (List.cons_ne_nil first []) []
    rw [List.append_nil] at hWhole
    exact scan_append_of_opened hWhole

/-- However a text is cut, its fragments lead to the state of the whole. That state is complete exactly
when a group has been read, and stays so; a JSON object or array is not complete before its last
bracket. -/
theorem argument_state :
    (∀ fragments : List String, fragments.foldl append ⟨.undetermined⟩ = new (String.join fragments)) ∧
    (∀ (state : StreamingToolCallArgumentState) (delta : String), state.hasCompleteStructuredValue = true →
      (state.append delta).hasCompleteStructuredValue = true) ∧
    (∀ text : String, (new text).hasCompleteStructuredValue = true ↔ BeginsWithGroup text.toList) ∧
    ∀ (before value after p : List Char) (o c : Char), Spaces before → JsonValue value → Pair o c →
      value.head? = some o → p <+: before ++ (value ++ after) → p.length < (before ++ value).length →
      (new (String.ofList p)).hasCompleteStructuredValue = false :=
  ⟨fun fragments => foldl_append fragments _, fun _ delta hComplete => complete_sticky hComplete delta,
    complete_iff, fun _ _ _ _ _ _ hBefore hValue hPair hFirst hPrefix hShort =>
      not_complete_of_cut hBefore hValue hPair hFirst hPrefix hShort⟩

end StreamingToolCallArgumentState

end Aimux.Provider
