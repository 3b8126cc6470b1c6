import Mathlib

/-! # Patterns

Regular expressions as JSON Schema has them: anchors, classes, groups, alternatives and counted
repetitions. A pattern is a text; escapes and the lazy and look-around forms are not read.
-/

namespace Aimux.Lib

inductive Regex where
  | empty
  | start
  | stop
  | oneOf (negated : Bool) (ranges : List (Char × Char))
  | seq (first second : Regex)
  | alt (first second : Regex)
  | repeated (body : Regex) (least : Nat) (most : Option Nat)
deriving DecidableEq

namespace Regex

/-! ## Reading a pattern -/

def isSyntax (c : Char) : Bool := "^$\\.*+?()[]\x7b\x7d|".toList.contains c

/-- What stands in a class, up to its bracket. -/
def ranges : List Char → Option (List (Char × Char) × List Char)
  | ']' :: rest => some ([], rest)
  | first :: '-' :: last :: rest =>
    if isSyntax first ∨ isSyntax last then none
    else (ranges rest).map fun (others, rest) => ((first, last) :: others, rest)
  | c :: rest =>
    if isSyntax c then none else (ranges rest).map fun (others, rest) => ((c, c) :: others, rest)
  | [] => none

def count (cs : List Char) : Option (Nat × List Char) :=
  match cs.takeWhile Char.isDigit with
  | [] => none
  | digits => some (Nat.ofDigitChars 10 digits 0, cs.dropWhile Char.isDigit)

/-- A quantifier, if there is one. -/
def quantified (body : Regex) : List Char → Option (Regex × List Char)
  | '*' :: rest => some (.repeated body 0 none, rest)
  | '+' :: rest => some (.repeated body 1 none, rest)
  | '?' :: rest => some (.repeated body 0 (some 1), rest)
  | '\x7b' :: rest =>
    match count rest with
    | some (least, '\x7d' :: rest) => some (.repeated body least (some least), rest)
    | some (least, ',' :: '\x7d' :: rest) => some (.repeated body least none, rest)
    | some (least, ',' :: rest) =>
      match count rest with
      | some (most, '\x7d' :: rest) => some (.repeated body least (some most), rest)
      | _ => none
    | _ => none
  | rest => some (body, rest)

mutual

def disjunction : Nat → List Char → Option (Regex × List Char)
  | 0, _ => none
  | fuel + 1, cs => do
    let (first, rest) ← alternative fuel cs
    match rest with
    | '|' :: rest => (disjunction fuel rest).map fun (second, rest) => (.alt first second, rest)
    | rest => some (first, rest)

def alternative : Nat → List Char → Option (Regex × List Char)
  | 0, _ => none
  | fuel + 1, cs => match cs with
    | [] => some (.empty, [])
    | '|' :: _ | ')' :: _ => some (.empty, cs)
    | cs => do
      let (first, rest) ← term fuel cs
      (alternative fuel rest).map fun (others, rest) => (.seq first others, rest)

def term : Nat → List Char → Option (Regex × List Char)
  | 0, _ => none
  | fuel + 1, cs => match cs with
    | '^' :: rest => some (.start, rest)
    | '$' :: rest => some (.stop, rest)
    | '(' :: rest =>
      match disjunction fuel rest with
      | some (body, ')' :: rest) => quantified body rest
      | _ => none
    | '[' :: '^' :: rest => (ranges rest).bind fun (ranges, rest) => quantified (.oneOf true ranges) rest
    | '[' :: rest => (ranges rest).bind fun (ranges, rest) => quantified (.oneOf false ranges) rest
    | c :: rest => if isSyntax c then none else quantified (.oneOf false [(c, c)]) rest
    | [] => none

end

/-- No part of a pattern is nested deeper than three times its length. -/
def parse (pattern : String) : Option Regex :=
  match disjunction (3 * pattern.length + 3) pattern.toList with
  | some (regex, []) => some regex
  | _ => none

/-! ## What a pattern accepts -/

def inRanges (ranges : List (Char × Char)) (c : Char) : Bool :=
  ranges.any fun (first, last) => decide (first ≤ c) && decide (c ≤ last)

/-- The text that stands before, the text that is matched, and the text after it. -/
inductive Matches : Regex → List Char → List Char → List Char → Prop
  | empty {before after : List Char} : Matches .empty before [] after
  | start {after : List Char} : Matches .start [] [] after
  | stop {before : List Char} : Matches .stop before [] []
  | oneOf {negated : Bool} {ranges : List (Char × Char)} {c : Char} {before after : List Char}
    (hIn : inRanges ranges c = !negated) : Matches (.oneOf negated ranges) before [c] after
  | seq {first second : Regex} {before a b after : List Char} (hFirst : Matches first before a (b ++ after))
    (hSecond : Matches second (before ++ a) b after) : Matches (.seq first second) before (a ++ b) after
  | left {first second : Regex} {before a after : List Char} (hFirst : Matches first before a after) :
    Matches (.alt first second) before a after
  | right {first second : Regex} {before a after : List Char} (hSecond : Matches second before a after) :
    Matches (.alt first second) before a after
  | done {body : Regex} {most : Option Nat} {before after : List Char} :
    Matches (.repeated body 0 most) before [] after
  | again {body : Regex} {least : Nat} {most : Option Nat} {before a b after : List Char} (hMost : most ≠ some 0)
    (hBody : Matches body before a (b ++ after))
    (hRest : Matches (.repeated body (least - 1) (most.map (· - 1))) (before ++ a) b after) :
    Matches (.repeated body least most) before (a ++ b) after

/-- A match anywhere in the text. -/
def Accepts (pattern text : String) : Prop :=
  ∃ regex before matched after, parse pattern = some regex ∧ text.toList = before ++ (matched ++ after) ∧
    Matches regex before matched after

section

variable {before matched after : List Char}

@[simp] theorem matches_empty : Matches .empty before matched after ↔ matched = [] := by
  constructor
  · rintro ⟨⟩
    rfl
  · rintro rfl
    exact .empty

@[simp] theorem matches_start : Matches .start before matched after ↔ before = [] ∧ matched = [] := by
  constructor
  · rintro ⟨⟩
    exact ⟨rfl, rfl⟩
  · rintro ⟨rfl, rfl⟩
    exact .start

@[simp] theorem matches_stop : Matches .stop before matched after ↔ matched = [] ∧ after = [] := by
  constructor
  · rintro ⟨⟩
    exact ⟨rfl, rfl⟩
  · rintro ⟨rfl, rfl⟩
    exact .stop

theorem matches_oneOf {ranges : List (Char × Char)} :
    Matches (.oneOf false ranges) before matched after ↔ ∃ c, matched = [c] ∧ inRanges ranges c = true := by
  constructor
  · rintro (_ | _ | _ | hIn)
    exact ⟨_, rfl, hIn⟩
  · rintro ⟨c, rfl, hIn⟩
    exact .oneOf hIn

theorem matches_seq {first second : Regex} :
    Matches (.seq first second) before matched after ↔
      ∃ a b, matched = a ++ b ∧ Matches first before a (b ++ after) ∧ Matches second (before ++ a) b after := by
  constructor
  · intro h
    cases h with
    | seq hFirst hSecond => exact ⟨_, _, rfl, hFirst, hSecond⟩
  · rintro ⟨a, b, rfl, hFirst, hSecond⟩
    exact .seq hFirst hSecond

theorem matches_alt {first second : Regex} :
    Matches (.alt first second) before matched after ↔
      Matches first before matched after ∨ Matches second before matched after := by
  constructor
  · intro h
    cases h with
    | left hFirst => exact .inl hFirst
    | right hSecond => exact .inr hSecond
  · rintro (hFirst | hSecond)
    · exact .left hFirst
    · exact .right hSecond

/-- A class that is repeated: so many characters of it. -/
theorem matches_repeated_oneOf {ranges : List (Char × Char)} {least : Nat} {most : Option Nat} :
    Matches (.repeated (.oneOf false ranges) least most) before matched after ↔
      least ≤ matched.length ∧ (∀ n ∈ most, matched.length ≤ n) ∧ ∀ c ∈ matched, inRanges ranges c = true := by
  constructor
  · intro h
    generalize hRegex : Regex.repeated (.oneOf false ranges) least most = regex at h
    induction h generalizing least most with
    | done =>
      cases hRegex
      simp
    | again hMost hBody hRest _ ih =>
      cases hRegex
      obtain ⟨c, rfl, hIn⟩ := matches_oneOf.mp hBody
      obtain ⟨hLeast, hMostRest, hAll⟩ := ih rfl
      refine ⟨by simp only [List.singleton_append, List.length_cons]; omega, ?_, ?_⟩
      · rintro n hN
        have hLe := hMostRest (n - 1) (by simp [Option.mem_def.mp hN])
        have hPositive : n ≠ 0 := fun hZero => hMost (by rw [Option.mem_def.mp hN, hZero])
        simp only [List.singleton_append, List.length_cons]
        omega
      · intro d hD
        rcases List.mem_cons.mp hD with rfl | hRestMem
        · exact hIn
        · exact hAll d hRestMem
    | _ => cases hRegex
  · rintro ⟨hLeast, hMost, hAll⟩
    induction matched generalizing before least most with
    | nil =>
      obtain rfl := Nat.le_zero.mp hLeast
      exact .done
    | cons c cs ih =>
      have hMostRest : ∀ n ∈ most.map (· - 1), cs.length ≤ n := by
        intro n hN
        obtain ⟨m, hM, rfl⟩ := Option.map_eq_some_iff.mp (Option.mem_def.mp hN)
        have hLe := hMost m hM
        simp only [List.length_cons] at hLe
        omega
      have hNext : Matches (.repeated (.oneOf false ranges) (least - 1) (most.map (· - 1))) (before ++ [c]) cs after :=
        ih (by simp only [List.length_cons] at hLeast; omega) hMostRest fun d hD => hAll d (List.mem_cons_of_mem _ hD)
      have hPositive : most ≠ some 0 := by
        rintro rfl
        exact absurd (hMost 0 rfl) (by simp)
      exact .again hPositive (.oneOf (hAll c List.mem_cons_self)) hNext

end

/-! ## Sequences and alternatives of many parts -/

def seqOf (parts : List Regex) : Regex := parts.foldr .seq .empty

def altOf : List Regex → Regex
  | [] => .empty
  | [part] => part
  | part :: next :: parts => .alt part (altOf (next :: parts))

def literal (c : Char) : Regex := .oneOf false [(c, c)]

theorem matches_literal {c : Char} {before matched after : List Char} :
    Matches (literal c) before matched after ↔ matched = [c] := by
  rw [literal, matches_oneOf]
  constructor
  · rintro ⟨d, rfl, hIn⟩
    simp only [inRanges, List.any_cons, List.any_nil, Bool.or_false, Bool.and_eq_true, decide_eq_true_eq] at hIn
    rw [le_antisymm hIn.2 hIn.1]
  · rintro rfl
    exact ⟨c, rfl, by simp [inRanges]⟩

theorem matches_word (word : List Char) {parts : List Regex} {before matched after : List Char} :
    Matches (seqOf (word.map literal ++ parts)) before matched after ↔
      ∃ rest, matched = word ++ rest ∧ Matches (seqOf parts) (before ++ word) rest after := by
  induction word generalizing before matched with
  | nil => simp
  | cons c word ih =>
    rw [List.map_cons, List.cons_append, seqOf, List.foldr_cons, matches_seq]
    constructor
    · rintro ⟨a, b, rfl, hFirst, hRest⟩
      obtain rfl := matches_literal.mp hFirst
      obtain ⟨rest, rfl, hParts⟩ := ih.mp hRest
      exact ⟨rest, rfl, by rwa [List.append_assoc] at hParts⟩
    · rintro ⟨rest, rfl, hParts⟩
      refine ⟨[c], word ++ rest, rfl, matches_literal.mpr rfl, ih.mpr ⟨rest, rfl, ?_⟩⟩
      rwa [List.append_assoc]

theorem matches_altOf {parts : List Regex} (hSome : parts ≠ []) {before matched after : List Char} :
    Matches (altOf parts) before matched after ↔ ∃ part ∈ parts, Matches part before matched after := by
  induction parts with
  | nil => exact absurd rfl hSome
  | cons part parts ih =>
    cases parts with
    | nil => simp [altOf]
    | cons next parts =>
      rw [altOf, matches_alt, ih (List.cons_ne_nil _ _), List.exists_mem_cons_iff]
      simp

/-- A pattern between anchors matches the whole of a text or nothing. -/
theorem matches_anchored {body : Regex} {text : List Char} :
    (∃ before matched after, text = before ++ (matched ++ after) ∧
      Matches (seqOf [.start, body, .stop]) before matched after) ↔ Matches body [] text [] := by
  constructor
  · rintro ⟨before, matched, after, rfl, h⟩
    simp only [seqOf, List.foldr_cons, List.foldr_nil, matches_seq, matches_start, matches_stop,
      matches_empty] at h
    obtain ⟨_, b, rfl, ⟨rfl, rfl⟩, c, _, rfl, hBody, _, _, rfl, ⟨rfl, hNil⟩, rfl⟩ := h
    simp only [List.nil_append, List.append_nil] at hNil hBody ⊢
    subst hNil
    simpa using hBody
  · intro h
    exact ⟨[], [] ++ (text ++ ([] ++ [])), [], by simp, .seq .start (.seq (by simpa using h) (.seq .stop .empty))⟩

end Regex

end Aimux.Lib
