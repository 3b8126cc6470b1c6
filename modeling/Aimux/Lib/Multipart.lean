import Aimux.Lib.Utf8

/-! # Multipart bodies

Bodies of `multipart/form-data` as they are read: parts between delimiter lines, header lines before a blank one, and
parameters of a header whose values may be quoted. Headers that are folded are not read.
-/

namespace Aimux.Lib.Multipart

/-! ## Separators -/

section

variable {α : Type*} [DecidableEq α]

/-- What stands before the first separator and after it. -/
def breakOn (sep : List α) : List α → Option (List α × List α)
  | [] => none
  | b :: rest =>
    if sep.isPrefixOf (b :: rest) then some ([], (b :: rest).drop sep.length)
    else (breakOn sep rest).map fun found => (b :: found.1, found.2)

theorem breakOn_length {sep text front rest : List α} (hSep : sep ≠ []) (h : breakOn sep text = some (front, rest)) :
    rest.length < text.length := by
  induction text generalizing front with
  | nil => cases h
  | cons b text ih =>
    rw [breakOn] at h
    split at h
    · cases h
      have hPositive := List.length_pos_iff.mpr hSep
      rw [List.length_drop, List.length_cons]
      omega
    · obtain ⟨found, hFound, hPair⟩ := Option.map_eq_some_iff.mp h
      cases hPair
      exact (ih hFound).trans (Nat.lt_succ_self _)

/-- A separator whose first item does not come again in it is found where it was put. -/
theorem breakOn_append {mark : α} {sep front : List α} (hMark : mark ∉ sep) (hFront : ¬ mark :: sep <:+: front)
    (rest : List α) : breakOn (mark :: sep) (front ++ (mark :: sep ++ rest)) = some (front, rest) := by
  induction front with
  | nil =>
    rw [List.nil_append, List.cons_append, breakOn, if_pos]
    · rw [List.length_cons, List.drop_succ_cons, List.drop_left]
    · rw [List.isPrefixOf_iff_prefix]
      exact List.prefix_append (mark :: sep) rest
  | cons b front ih =>
    have hLater : ¬ mark :: sep <:+: front := fun h => hFront (h.trans (List.suffix_cons b front).isInfix)
    have hHere : ¬ mark :: sep <+: b :: (front ++ (mark :: sep ++ rest)) := by
      intro h
      have hOwn : b :: front <+: b :: (front ++ (mark :: sep ++ rest)) := List.prefix_append (b :: front) _
      rcases List.prefix_or_prefix_of_prefix h hOwn with hIn | hOver
      · exact hFront hIn.isInfix
      · -- The separator would go on with the first item of the one that was put.
        obtain ⟨tail, hTail⟩ := hOver
        obtain ⟨rfl, rfl⟩ := List.cons.inj hTail
        have hNext : tail <+: b :: (front ++ tail ++ rest) :=
          (List.prefix_append_right_inj front).mp ((List.cons_prefix_cons.mp h).2)
        cases tail with
        | nil =>
          have hSame : b :: (front ++ []) = b :: front := congrArg (b :: ·) (List.append_nil front)
          exact hFront (hSame ▸ List.infix_refl (b :: (front ++ [])))
        | cons c tail =>
          obtain ⟨rfl, _⟩ := List.cons_prefix_cons.mp hNext
          exact hMark (List.mem_append_right _ (List.mem_cons_self ..))
    rw [List.cons_append, breakOn, if_neg, ih hLater]
    · rfl
    · rw [List.isPrefixOf_iff_prefix]
      exact hHere

omit [DecidableEq α] in
/-- No separator comes where a line begins, in the line or after it. -/
theorem not_infix_line {mark : α} {sep line rest : List α} (hLine : mark ∉ line) (hHere : ¬ sep <+: line ++ rest)
    (hRest : ¬ mark :: sep <:+: rest) : ¬ mark :: sep <:+: mark :: (line ++ rest) := by
  have hBelow : ¬ mark :: sep <:+: line ++ rest := by
    clear hHere
    induction line with
    | nil => exact hRest
    | cons b line ih =>
      obtain ⟨hFirst, hLater⟩ := not_or.mp (mt List.mem_cons.mpr hLine)
      intro h
      rcases List.infix_cons_iff.mp h with hPrefix | hIn
      · exact hFirst (List.cons_prefix_cons.mp hPrefix).1
      · exact ih hLater hIn
  intro h
  rcases List.infix_cons_iff.mp h with hPrefix | hIn
  · exact hHere (List.cons_prefix_cons.mp hPrefix).2
  · exact hBelow hIn

omit [DecidableEq α] in
theorem not_infix_of_not_mem {mark : α} {sep text : List α} (h : mark ∉ text) : ¬ mark :: sep <:+: text :=
  fun hIn => h (hIn.subset (List.mem_cons_self ..))

end

/-! ## Headers -/

def CRLF : List UInt8 := [13, 10]

/-- A blank or a tabulator. -/
def isLwsp (b : UInt8) : Bool := b = 32 || b = 9

def trim (bytes : List UInt8) : List UInt8 := (bytes.dropWhile isLwsp).rdropWhile isLwsp

def lower (bytes : List UInt8) : List UInt8 := bytes.map fun b => if 65 ≤ b ∧ b ≤ 90 then b + 32 else b

def readHeader (line : List UInt8) : Option (List UInt8 × List UInt8) :=
  (breakOn [58] line).map fun header => (lower (trim header.1), trim header.2)

/-- The header lines, and what comes after the blank line. -/
def readHeaders (text : List UInt8) : Option (List (List UInt8 × List UInt8) × List UInt8) :=
  match _hLine : breakOn CRLF text with
  | none => none
  | some ([], content) => some ([], content)
  | some (line, rest) =>
    (readHeader line).bind fun header => (readHeaders rest).map fun found => (header :: found.1, found.2)
termination_by text.length
decreasing_by exact breakOn_length (by decide) _hLine

/-- A quoted string without its first quote, and what comes after it; a backslash quotes one byte. -/
def readQuoted : List UInt8 → Option (List UInt8 × List UInt8)
  | [] => none
  | b :: rest =>
    if b = 34 then some ([], rest)
    else if b = 92 then
      match rest with
      | [] => none
      | c :: rest => (readQuoted rest).map fun found => (c :: found.1, found.2)
    else (readQuoted rest).map fun found => (b :: found.1, found.2)

/-- A value of a parameter: a quoted string, or what comes before the next semicolon. -/
def readParamValue (text : List UInt8) : Option (List UInt8 × List UInt8) :=
  match text with
  | 34 :: rest => readQuoted rest
  | _ => some (trim (text.takeWhile (· ≠ 59)), text.dropWhile (· ≠ 59))

theorem readQuoted_quote (rest : List UInt8) : readQuoted (34 :: rest) = some ([], rest) := by
  rw [readQuoted.eq_def]
  rfl

theorem readQuoted_escaped (c : UInt8) (rest : List UInt8) :
    readQuoted (92 :: c :: rest) = (readQuoted rest).map fun found => (c :: found.1, found.2) := by
  rw [readQuoted.eq_def]
  rfl

theorem readQuoted_plain {b : UInt8} (hQuote : b ≠ 34) (hSlash : b ≠ 92) (rest : List UInt8) :
    readQuoted (b :: rest) = (readQuoted rest).map fun found => (b :: found.1, found.2) := by
  rw [readQuoted.eq_def]
  dsimp only
  rw [if_neg hQuote, if_neg hSlash]

theorem readQuoted_length {text value rest : List UInt8} (h : readQuoted text = some (value, rest)) :
    rest.length < text.length := by
  match text with
  | [] => cases h
  | b :: text =>
    by_cases hQuote : b = 34
    · rw [hQuote, readQuoted_quote] at h
      cases h
      exact Nat.lt_succ_self _
    by_cases hSlash : b = 92
    · match text with
      | [] =>
        rw [hSlash] at h
        cases h
      | c :: text =>
        rw [hSlash, readQuoted_escaped] at h
        obtain ⟨found, hFound, hPair⟩ := Option.map_eq_some_iff.mp h
        cases hPair
        have hShorter := readQuoted_length hFound
        simp only [List.length_cons]
        omega
    · rw [readQuoted_plain hQuote hSlash] at h
      obtain ⟨found, hFound, hPair⟩ := Option.map_eq_some_iff.mp h
      cases hPair
      exact (readQuoted_length hFound).trans (Nat.lt_succ_self _)
termination_by text.length

theorem readParamValue_length {text value rest : List UInt8} (h : readParamValue text = some (value, rest)) :
    rest.length ≤ text.length := by
  unfold readParamValue at h
  split at h
  · exact (readQuoted_length h).le.trans (Nat.le_succ _)
  · cases h
    exact (List.dropWhile_sublist _).length_le

/-- Parameters, each after a semicolon. -/
def readParams (text : List UInt8) : Option (List (List UInt8 × List UInt8)) :=
  match _hText : text.dropWhile isLwsp with
  | [] => some []
  | b :: param =>
    if b ≠ 59 then none
    else
      match _hName : breakOn [61] param with
      | none => none
      | some (name, value) =>
        match _hValue : readParamValue value with
        | none => none
        | some (read, rest) => (readParams rest).map fun params => (lower (trim name), read) :: params
termination_by text.length
decreasing_by
  have hDrop := (List.dropWhile_sublist isLwsp (l := text)).length_le
  rw [_hText, List.length_cons] at hDrop
  have hParam := breakOn_length (by decide) _hName
  have hRest := readParamValue_length _hValue
  omega

/-- A value with parameters. -/
def readValue (text : List UInt8) : Option (List UInt8 × List (List UInt8 × List UInt8)) :=
  (readParams (text.dropWhile (· ≠ 59))).map fun params => (lower (trim (text.takeWhile (· ≠ 59))), params)

/-! ## Bodies -/

structure FormField where
  name : List UInt8
  filename : Option (List UInt8)
  contentType : Option (List UInt8)
  content : List UInt8
deriving DecidableEq

def readField (headers : List (List UInt8 × List UInt8)) (content : List UInt8) : Option FormField :=
  (headers.lookup (utf8 "content-disposition")).bind fun disposition =>
    (readValue disposition).bind fun value =>
      if value.1 = utf8 "form-data" then
        (value.2.lookup (utf8 "name")).map fun name =>
          { name, filename := value.2.lookup (utf8 "filename"), contentType := headers.lookup (utf8 "content-type"), content }
      else none

/-- A part, from the end of its delimiter on. -/
def readPart (part : List UInt8) : Option FormField :=
  if CRLF.isPrefixOf (part.dropWhile isLwsp) then
    (readHeaders ((part.dropWhile isLwsp).drop 2)).bind fun found => readField found.1 found.2
  else none

/-- The parts up to the closing delimiter; the text begins after a delimiter. -/
def splitParts (delimiter text : List UInt8) (hDelimiter : delimiter ≠ []) : Option (List (List UInt8)) :=
  if (utf8 "--").isPrefixOf text then some []
  else
    match _hPart : breakOn delimiter text with
    | none => none
    | some (part, rest) => (splitParts delimiter rest hDelimiter).map fun parts => part :: parts
termination_by text.length
decreasing_by exact breakOn_length hDelimiter _hPart

def delimiterOf (boundary : List UInt8) : List UInt8 := CRLF ++ (utf8 "--" ++ boundary)

theorem delimiterOf_ne_nil (boundary : List UInt8) : delimiterOf boundary ≠ [] := List.cons_ne_nil _ _

/-- The fields of a body, with the boundary that its content type names. -/
def readForm (contentType body : List UInt8) : Option (List FormField) :=
  (readValue contentType).bind fun value =>
    (value.2.lookup (utf8 "boundary")).bind fun boundary =>
      if value.1 = utf8 "multipart/form-data" then
        (breakOn (delimiterOf boundary) (CRLF ++ body)).bind fun found =>
          (splitParts (delimiterOf boundary) found.2 (delimiterOf_ne_nil boundary)).bind fun parts => parts.mapM readPart
      else none

/-! ## Reading what was written -/

theorem trim_blank (bytes : List UInt8) : trim (32 :: bytes) = trim bytes := by
  rw [trim, List.dropWhile_cons_of_pos (by decide), trim]

theorem trim_eq_self {bytes : List UInt8} (hFirst : ∀ b ∈ bytes.head?, isLwsp b = false)
    (hLast : ∀ b ∈ bytes.getLast?, isLwsp b = false) : trim bytes = bytes := by
  have hFront : bytes.dropWhile isLwsp = bytes := by
    cases bytes with
    | nil => rfl
    | cons b bytes => exact List.dropWhile_cons_of_neg (by rw [hFirst b rfl]; exact Bool.false_ne_true)
  rw [trim, hFront]
  rcases List.eq_nil_or_concat bytes with rfl | ⟨front, last, rfl⟩
  · rfl
  · rw [List.concat_eq_append] at hLast ⊢
    exact List.rdropWhile_concat_neg _ _ _ (by rw [hLast last (List.getLast?_concat ..)]; exact Bool.false_ne_true)

theorem breakOn_mark {mark : UInt8} {front : List UInt8} (h : mark ∉ front) (rest : List UInt8) :
    breakOn [mark] (front ++ mark :: rest) = some (front, rest) :=
  breakOn_append (List.not_mem_nil) (not_infix_of_not_mem h) rest

theorem readHeader_append {name : List UInt8} (h : 58 ∉ name) (value : List UInt8) :
    readHeader (name ++ 58 :: value) = some (lower (trim name), trim value) := by
  rw [readHeader, breakOn_mark h, Option.map_some]

theorem readHeaders_blank (content : List UInt8) : readHeaders (CRLF ++ content) = some ([], content) := by
  have hBreak : breakOn CRLF (CRLF ++ content) = some ([], content) :=
    breakOn_append (by decide) (not_infix_of_not_mem List.not_mem_nil) content
  rw [readHeaders]
  split
  · rename_i hNone
    cases hNone.symm.trans hBreak
  · rename_i hSome
    cases hSome.symm.trans hBreak
    rfl
  · rename_i hOther hSome
    cases hSome.symm.trans hBreak
    exact absurd rfl hOther

theorem readHeaders_line {line : List UInt8} (hLine : line ≠ []) (h : 13 ∉ line) (rest : List UInt8) :
    readHeaders (line ++ (CRLF ++ rest)) =
      (readHeader line).bind fun header => (readHeaders rest).map fun found => (header :: found.1, found.2) := by
  have hBreak : breakOn CRLF (line ++ (CRLF ++ rest)) = some (line, rest) :=
    breakOn_append (by decide) (not_infix_of_not_mem h) rest
  rw [readHeaders]
  split
  · rename_i hNone
    cases hNone.symm.trans hBreak
  · rename_i hSome
    cases hSome.symm.trans hBreak
    exact absurd rfl hLine
  · rename_i hSome
    cases hSome.symm.trans hBreak
    rfl

theorem readQuoted_append {value : List UInt8} (hQuote : 34 ∉ value) (hSlash : 92 ∉ value) (rest : List UInt8) :
    readQuoted (value ++ 34 :: rest) = some (value, rest) := by
  induction value with
  | nil => exact readQuoted_quote rest
  | cons b value ih =>
    obtain ⟨hFirst, hLater⟩ := not_or.mp (mt List.mem_cons.mpr hQuote)
    obtain ⟨hPlain, hRest⟩ := not_or.mp (mt List.mem_cons.mpr hSlash)
    rw [List.cons_append, readQuoted_plain (Ne.symm hFirst) (Ne.symm hPlain), ih hLater hRest, Option.map_some]

/-- A value without quotes is read as one that is no longer, and shorter where there is a backslash. -/
theorem readQuoted_shorter {value read rest after : List UInt8} (hValue : 34 ∉ value) (hRead : 34 ∉ read)
    (h : readQuoted (value ++ 34 :: rest) = some (read, after)) :
    read.length ≤ value.length ∧ (92 ∈ value → read.length < value.length) := by
  match value with
  | [] =>
    rw [List.nil_append, readQuoted_quote] at h
    cases h
    exact ⟨le_rfl, fun hMem => (nomatch hMem)⟩
  | b :: value =>
    obtain ⟨hFirst, hLater⟩ := not_or.mp (mt List.mem_cons.mpr hValue)
    by_cases hSlash : b = 92
    · match value with
      | [] =>
        -- The quote at the end is quoted itself.
        rw [hSlash, List.cons_append, List.nil_append, readQuoted_escaped] at h
        obtain ⟨found, _, hPair⟩ := Option.map_eq_some_iff.mp h
        cases hPair
        exact absurd (List.mem_cons_self ..) hRead
      | c :: value =>
        rw [hSlash, List.cons_append, List.cons_append, readQuoted_escaped] at h
        obtain ⟨found, hFound, hPair⟩ := Option.map_eq_some_iff.mp h
        cases hPair
        have hShorter := (readQuoted_shorter (fun hMem => hLater (List.mem_cons_of_mem _ hMem))
          (fun hMem => hRead (List.mem_cons_of_mem _ hMem)) hFound).1
        simp only [List.length_cons]
        omega
    · rw [List.cons_append, readQuoted_plain (Ne.symm hFirst) hSlash] at h
      obtain ⟨found, hFound, hPair⟩ := Option.map_eq_some_iff.mp h
      cases hPair
      obtain ⟨hShorter, hShort⟩ := readQuoted_shorter hLater (fun hMem => hRead (List.mem_cons_of_mem _ hMem)) hFound
      refine ⟨Nat.succ_le_succ hShorter, fun hMem => ?_⟩
      rcases List.mem_cons.mp hMem with hSame | hIn
      · exact absurd hSame.symm hSlash
      · exact Nat.succ_lt_succ (hShort hIn)
termination_by value.length

theorem readQuoted_self {value rest after : List UInt8} (hValue : 34 ∉ value)
    (h : readQuoted (value ++ 34 :: rest) = some (value, after)) : 92 ∉ value :=
  fun hMem => absurd ((readQuoted_shorter hValue hValue h).2 hMem) (lt_irrefl _)

theorem readParams_nil : readParams [] = some [] := by
  rw [readParams]
  rfl

/-- A parameter with a quoted value. -/
theorem readParams_quoted {key : List UInt8} (hKey : 61 ∉ key) (text : List UInt8) :
    readParams (59 :: (key ++ 61 :: 34 :: text)) =
      (readQuoted text).bind fun found => (readParams found.2).map fun params => (lower (trim key), found.1) :: params := by
  have hText : (59 :: (key ++ 61 :: 34 :: text)).dropWhile isLwsp = 59 :: (key ++ 61 :: 34 :: text) :=
    List.dropWhile_cons_of_neg (by decide)
  have hName := breakOn_mark hKey (34 :: text)
  rw [readParams]
  split
  · rename_i hNil
    cases hText.symm.trans hNil
  · rename_i b param hCons
    obtain ⟨rfl, rfl⟩ := List.cons.inj (hText.symm.trans hCons)
    rw [if_neg (by decide)]
    split
    · rename_i hNone
      cases hName.symm.trans hNone
    · rename_i name value hSome
      cases hName.symm.trans hSome
      have hQuoted : readParamValue (34 :: text) = readQuoted text := rfl
      split
      · rename_i hNone
        rw [← hQuoted, hNone]
        rfl
      · rename_i read rest hRead
        rw [← hQuoted, hRead, Option.bind_some]

/-- A parameter that is the last one and not quoted. -/
theorem readParams_token {key value : List UInt8} (hKey : 61 ∉ key) (hValue : 59 ∉ value) (hTrim : trim value = value)
    (hQuote : value.head? ≠ some 34) : readParams (59 :: (key ++ 61 :: value)) = some [(lower (trim key), value)] := by
  have hText : (59 :: (key ++ 61 :: value)).dropWhile isLwsp = 59 :: (key ++ 61 :: value) :=
    List.dropWhile_cons_of_neg (by decide)
  have hName := breakOn_mark hKey value
  have hAll : ∀ b ∈ value, decide (b ≠ 59) = true := fun b hMem => decide_eq_true fun hSame => hValue (hSame ▸ hMem)
  have hRead : readParamValue value = some (value, []) := by
    unfold readParamValue
    split
    · exact absurd rfl hQuote
    · rw [List.takeWhile_eq_self_iff.mpr hAll, List.dropWhile_eq_nil_iff.mpr hAll, hTrim]
  rw [readParams]
  split
  · rename_i hNil
    cases hText.symm.trans hNil
  · rename_i b param hCons
    obtain ⟨rfl, rfl⟩ := List.cons.inj (hText.symm.trans hCons)
    rw [if_neg (by decide)]
    split
    · rename_i hNone
      cases hName.symm.trans hNone
    · rename_i name found hSome
      cases hName.symm.trans hSome
      split
      · rename_i hNone
        cases hRead.symm.trans hNone
      · rename_i hFound
        cases hRead.symm.trans hFound
        rw [readParams_nil, Option.map_some]

theorem readValue_append {kind : List UInt8} (h : 59 ∉ kind) (rest : List UInt8) :
    readValue (kind ++ 59 :: rest) = (readParams (59 :: rest)).map fun params => (lower (trim kind), params) := by
  have hKind : ∀ b ∈ kind, decide (b ≠ 59) = true := fun b hMem => decide_eq_true fun hSame => h (hSame ▸ hMem)
  rw [readValue, List.dropWhile_append_of_pos hKind, List.takeWhile_append_of_pos hKind]
  have hDrop : (59 :: rest).dropWhile (fun b : UInt8 => decide (b ≠ 59)) = 59 :: rest := rfl
  have hTake : (59 :: rest).takeWhile (fun b : UInt8 => decide (b ≠ 59)) = [] := rfl
  rw [hDrop, hTake, List.append_nil]

theorem readPart_append (text : List UInt8) :
    readPart (CRLF ++ text) = (readHeaders text).bind fun found => readField found.1 found.2 := by
  have hDrop : (CRLF ++ text).dropWhile isLwsp = CRLF ++ text := List.dropWhile_cons_of_neg (by decide)
  rw [readPart, hDrop, if_pos]
  · rfl
  · rw [List.isPrefixOf_iff_prefix]
    exact List.prefix_append CRLF text

theorem splitParts_append {delimiter : List UInt8} {mark : UInt8} {sep : List UInt8} (hDelimiter : delimiter = mark :: sep)
    (hMark : mark ∉ sep) {parts : List (List UInt8)} (hParts : ∀ part ∈ parts, ¬ delimiter <:+: part)
    (hFirst : ∀ part ∈ parts, part.head? = some mark) (hNotDash : mark ≠ 45) (rest : List UInt8) (hNil : delimiter ≠ []) :
    splitParts delimiter (parts.flatMap (· ++ delimiter) ++ (utf8 "--" ++ rest)) hNil = some parts := by
  induction parts with
  | nil =>
    rw [splitParts, if_pos]
    rfl
  | cons part parts ih =>
    obtain ⟨hPart, hLater⟩ := List.forall_mem_cons.mp hParts
    obtain ⟨hHead, hHeads⟩ := List.forall_mem_cons.mp hFirst
    have hText : (part :: parts).flatMap (· ++ delimiter) ++ (utf8 "--" ++ rest) =
        part ++ (delimiter ++ (parts.flatMap (· ++ delimiter) ++ (utf8 "--" ++ rest))) := by
      rw [List.flatMap_cons, List.append_assoc, List.append_assoc]
    have hBreak := breakOn_append hMark (hDelimiter ▸ hPart) (parts.flatMap (· ++ delimiter) ++ (utf8 "--" ++ rest))
    rw [← hDelimiter] at hBreak
    rw [hText, splitParts, if_neg]
    · split
      · rename_i hNone
        cases hBreak.symm.trans hNone
      · rename_i hSome
        cases hBreak.symm.trans hSome
        rw [ih hLater hHeads, Option.map_some]
    · obtain ⟨tail, rfl⟩ := List.head?_eq_some_iff.mp hHead
      intro hDash
      rw [List.isPrefixOf_iff_prefix] at hDash
      exact hNotDash (List.cons_prefix_cons.mp hDash).1.symm

end Aimux.Lib.Multipart
