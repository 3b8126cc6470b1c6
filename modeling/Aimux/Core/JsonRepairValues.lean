import Aimux.Core.JsonRepairCuts

/-! # Repair of the values of a JSON text -/

namespace Aimux.Core.JsonRepair

open Aimux.Lib.Rfc8259

variable {outer ctx : List Frame} {seen kept q : List Char}

/-! ## What a cut value becomes -/

/-- A value begins at the next character. -/
structure Opens (outer : List Frame) (seen : List Char) : Prop where
  begun : ∀ {c : Char} {frame : Frame}, Frame.openedBy c = some frame → c ≠ '-' →
    Reached (frame :: outer) (seen ++ [c]) (seen ++ [c])
  minus : ∃ kept, Reached (.number :: outer) (seen ++ ['-']) kept

/-- What is kept of a cut value is a value once it is closed. -/
def Held (outer : List Frame) (seen q : List Char) : Prop :=
  ∃ frames k, Reached (frames ++ outer) (seen ++ q) (seen ++ k) ∧ PlainValue (k ++ frames.flatMap Frame.closing)

/-- The cut is right after the minus sign of the first item of an array. -/
def MinusCut (q : List Char) : Prop :=
  ∃ before ws fin, q = before ++ '[' :: (ws ++ ['-']) ∧ Spaces ws ∧
    ∀ item, PlainValue item → PlainValue (before ++ '[' :: (ws ++ (item ++ fin)))

structure Repaired (outer : List Frame) (seen value : List Char) : Prop where
  whole : ∃ frames k, Finished frames ∧ Reached (frames ++ outer) (seen ++ value) (seen ++ k) ∧ PlainValue k ∧
    (¬ (Number value ∧ '+' ∈ value) → k = value)
  cut : ∀ q, q <+: value → q ≠ [] → q = ['-'] ∨ MinusCut q ∨ Held outer seen q

/-! ## Numbers -/

/-- What the scanner reads inside a number. -/
def NumberMark (c : Char) : Prop := c.isDigit = true ∨ c = 'e' ∨ c = 'E' ∨ c = '-' ∨ c = '.'

theorem integer_digits {int : List Char} (h : Integer int) : int ≠ [] ∧ Digits int := by
  cases h with
  | zero =>
    refine ⟨List.cons_ne_nil _ _, fun c hC => ?_⟩
    rw [List.mem_singleton.mp hC]
    rfl
  | digits hFirst _ hDigits =>
    refine ⟨List.cons_ne_nil _ _, fun c hC => ?_⟩
    rcases List.mem_cons.mp hC with rfl | hRest
    · exact hFirst
    · exact hDigits c hRest

variable {ds : List Char}

theorem endsInDigit_of_digits (hSome : ds ≠ []) (hDigits : Digits ds) : EndsInDigit ds :=
  ⟨ds.getLast hSome, List.getLast?_eq_some_getLast hSome, hDigits _ (List.getLast_mem hSome)⟩

variable {n : List Char}

theorem number_head (h : Number n) :
    ∃ sign d rest, Sign sign ∧ d.isDigit = true ∧ n = sign ++ d :: rest := by
  obtain ⟨hSign, hInt, -, -⟩ := h
  obtain ⟨hSome, hDigits⟩ := integer_digits hInt
  obtain ⟨d, int, rfl⟩ := List.exists_cons_of_ne_nil hSome
  exact ⟨_, d, _, hSign, hDigits d List.mem_cons_self, rfl⟩

variable {c : Char}

theorem digit_ne {mark : Char} (hDigit : c.isDigit = true) (hMark : mark.isDigit = false) : c ≠ mark := by
  rintro rfl
  rw [hMark] at hDigit
  cases hDigit

theorem number_endsInDigit (h : Number n) : EndsInDigit n := by
  obtain ⟨hSign, hInt, hFrac, hExp⟩ := h
  obtain ⟨hSomeInt, hIntDigits⟩ := integer_digits hInt
  cases hExp with
  | @digits e sign ds hE hExpSign hSome hDigits =>
    refine (endsInDigit_append (by simp)).mpr ((endsInDigit_append (by simp)).mpr ?_)
    refine (endsInDigit_append (List.cons_ne_nil _ _)).mpr ?_
    exact (endsInDigit_append (a := e :: sign) hSome).mpr (endsInDigit_of_digits hSome hDigits)
  | none =>
    rw [List.append_nil]
    cases hFrac with
    | none =>
      rw [List.append_nil]
      exact (endsInDigit_append hSomeInt).mpr (endsInDigit_of_digits hSomeInt hIntDigits)
    | @digits ds hSome hDigits =>
      refine (endsInDigit_append (by simp)).mpr ((endsInDigit_append (List.cons_ne_nil _ _)).mpr ?_)
      exact (endsInDigit_append (a := ['.']) hSome).mpr (endsInDigit_of_digits hSome hDigits)

theorem numberMark_of_digits (h : Digits ds) : ∀ c ∈ ds, NumberMark c := fun c hC => .inl (h c hC)

theorem numberMark_append {a b : List Char} (hA : ∀ c ∈ a, NumberMark c) (hB : ∀ c ∈ b, NumberMark c) :
    ∀ c ∈ a ++ b, NumberMark c := by
  intro c hC
  rcases List.mem_append.mp hC with hMem | hMem
  · exact hA c hMem
  · exact hB c hMem

theorem numberMark_cons {cs : List Char} (hC : NumberMark c) (h : ∀ d ∈ cs, NumberMark d) :
    ∀ d ∈ c :: cs, NumberMark d := by
  intro d hD
  rcases List.mem_cons.mp hD with rfl | hMem
  · exact hC
  · exact h d hMem

/-- A plus sign is followed by digits alone. -/
theorem number_plus (h : Number n) :
    (∀ c ∈ n, NumberMark c) ∨ ∃ a ds, n = a ++ '+' :: ds ∧ (∀ c ∈ a, NumberMark c) ∧ Digits ds := by
  obtain ⟨hSign, hInt, hFrac, hExp⟩ := h
  rename_i sign int frac exp
  have hSignMarks : ∀ c ∈ sign, NumberMark c := by
    cases hSign with
    | none => rintro c ⟨⟩
    | minus => exact numberMark_cons (.inr (.inr (.inr (.inl rfl)))) (by rintro c ⟨⟩)
  have hFracMarks : ∀ c ∈ frac, NumberMark c := by
    cases hFrac with
    | none => rintro c ⟨⟩
    | digits _ hDigits => exact numberMark_cons (.inr (.inr (.inr (.inr rfl)))) (numberMark_of_digits hDigits)
  have hFront := numberMark_append (numberMark_append hSignMarks (numberMark_of_digits (integer_digits hInt).2))
    hFracMarks
  cases hExp with
  | none =>
    refine .inl ?_
    rw [List.append_nil, ← List.append_assoc]
    exact hFront
  | @digits e expSign ds hE hExpSign _ hDigits =>
    have hMark : NumberMark e := .inr (hE.elim .inl fun hUpper => .inr (.inl hUpper))
    have hDigitMarks := numberMark_of_digits hDigits
    cases hExpSign with
    | none =>
      refine .inl ?_
      rw [← List.append_assoc, ← List.append_assoc]
      exact numberMark_append hFront (numberMark_cons hMark hDigitMarks)
    | minus =>
      refine .inl ?_
      rw [← List.append_assoc, ← List.append_assoc]
      exact numberMark_append hFront
        (numberMark_cons hMark (numberMark_cons (.inr (.inr (.inr (.inl rfl)))) hDigitMarks))
    | plus =>
      refine .inr ⟨sign ++ int ++ frac ++ [e], ds, ?_, numberMark_append hFront ?_, hDigits⟩
      · simp only [List.append_assoc, List.cons_append, List.nil_append]
      · exact numberMark_cons hMark (by rintro c ⟨⟩)

/-- The scanner keeps a part of the number that ends in a digit. -/
structure Tracks (opened : List Frame) (seen q k : List Char) : Prop where
  reached : Reached opened (seen ++ q) (seen ++ k)
  part : k <+: q
  digit : EndsInDigit k

theorem numberMark_step (hMark : NumberMark c) (hDigit : c.isDigit = false) (n i : Nat) :
    Repair.step ⟨.number :: outer, n⟩ i c = some ⟨.number :: outer, n⟩ := by
  have hNot : ¬ c.isDigit = true := by
    rw [hDigit]
    exact Bool.false_ne_true
  have hOther := hMark.resolve_left hNot
  simp only [Repair.step, Repair.stepNumber, if_neg hNot, if_pos hOther]

theorem digit_step (hDigit : c.isDigit = true) (n i : Nat) :
    Repair.step ⟨.number :: outer, n⟩ i c = some ⟨.number :: outer, i + 1⟩ := by
  simp only [Repair.step, Repair.stepNumber, if_pos hDigit, Repair.mark]

variable {r : List Char}

/-- Inside a number its last digit is kept. -/
theorem Tracks.number {q k : List Char} (h : Tracks (.number :: outer) seen q k) (hWhole : EndsInDigit q → k = q)
    (hMarks : ∀ c ∈ r, NumberMark c) :
    ∃ k, Tracks (.number :: outer) seen (q ++ r) k ∧ (EndsInDigit (q ++ r) → k = q ++ r) := by
  induction r generalizing q k with
  | nil =>
    rw [List.append_nil]
    exact ⟨k, h, hWhole⟩
  | cons c r ih =>
    rw [List.append_cons]
    have hRest : ∀ d ∈ r, NumberMark d := fun d hD => hMarks d (List.mem_cons_of_mem c hD)
    cases hDigit : c.isDigit with
    | true =>
      have hReached := h.reached.mark (c := c) (digit_step hDigit)
      rw [List.append_assoc] at hReached
      exact ih ⟨hReached, List.prefix_rfl, endsInDigit_concat q hDigit⟩ (fun _ => rfl) hRest
    | false =>
      have hReached := h.reached.stay (c := c) (numberMark_step (hMarks c List.mem_cons_self) hDigit)
      rw [List.append_assoc] at hReached
      refine ih ⟨hReached, h.part.trans (List.prefix_append q [c]), h.digit⟩ ?_ hRest
      rintro ⟨d, hLast, hLastDigit⟩
      rw [List.getLast?_concat] at hLast
      cases hLast
      rw [hDigit] at hLastDigit
      cases hLastDigit

theorem Tracks.digits {q k : List Char} (hAfter : After outer) (h : Tracks outer seen q k) (hDigits : Digits ds) :
    ∃ k, Tracks outer seen (q ++ ds) k := by
  induction ds generalizing q k with
  | nil =>
    rw [List.append_nil]
    exact ⟨k, h⟩
  | cons c ds ih =>
    rw [List.append_cons]
    have hDigit := hDigits c List.mem_cons_self
    have hRest : Digits ds := fun d hD => hDigits d (List.mem_cons_of_mem c hD)
    have hComma : c ≠ ',' := digit_ne hDigit rfl
    have hPart := h.part.trans (List.prefix_append q [c])
    cases hAfter with
    | root =>
      have hReached := h.reached.closed [c]
      rw [List.append_assoc] at hReached
      exact ih ⟨hReached, hPart, h.digit⟩ hRest
    | object ctx =>
      have hReached := h.reached.stay (c := c) (by
        intro n i
        have hBrace : c ≠ '\x7d' := digit_ne hDigit rfl
        simp only [Repair.step, Repair.stepObject, Repair.afterValue, if_neg hComma, if_neg hBrace])
      rw [List.append_assoc] at hReached
      exact ih ⟨hReached, hPart, h.digit⟩ hRest
    | array ctx =>
      have hReached := h.reached.mark (c := c) (by
        intro n i
        have hBracket : c ≠ ']' := digit_ne hDigit rfl
        simp only [Repair.step, Repair.stepArray, Repair.mark, if_neg hComma, if_neg hBracket])
      rw [List.append_assoc] at hReached
      exact ih ⟨hReached, List.prefix_rfl, endsInDigit_concat q hDigit⟩ hRest

theorem Reached.plus (hAfter : After outer) (h : Reached (.number :: outer) seen kept) :
    Reached outer (seen ++ ['+']) kept := by
  cases hAfter <;> exact h.move rfl fun _ _ => rfl

theorem openedBy_digit (hDigit : c.isDigit = true) : Frame.openedBy c = some .number := by
  rw [Frame.openedBy, if_neg (digit_ne hDigit rfl), if_neg (digit_ne hDigit rfl), if_neg (digit_ne hDigit rfl),
    if_neg (digit_ne hDigit rfl), if_pos (.inr hDigit)]

/-- The first digit of a number is kept, with the sign before it. -/
theorem Opens.number (hOpens : Opens outer seen) {d : Char} {sign : List Char} (hSign : Sign sign)
    (hDigit : d.isDigit = true) : Tracks (.number :: outer) seen (sign ++ [d]) (sign ++ [d]) := by
  refine ⟨?_, List.prefix_rfl, endsInDigit_concat sign hDigit⟩
  cases hSign with
  | none =>
    refine hOpens.begun (openedBy_digit hDigit) ?_
    rintro rfl
    cases hDigit
  | minus =>
    obtain ⟨kept, hMinus⟩ := hOpens.minus
    rw [← List.append_assoc]
    exact hMinus.mark (digit_step hDigit)

theorem sign_cases {sign : List Char} (h : Sign sign) : sign = [] ∨ sign = ['-'] := by
  cases h with
  | none => exact .inl rfl
  | minus => exact .inr rfl

/-- Up to a plus sign the scanner stays in the number. -/
theorem Opens.numberMarks (hOpens : Opens outer seen) (hNumber : Number n) (hPrefix : q <+: n) (hSome : q ≠ [])
    (hMinus : q ≠ ['-']) (hMarks : ∀ c ∈ q, NumberMark c) :
    ∃ k, Tracks (.number :: outer) seen q k ∧ (EndsInDigit q → k = q) := by
  obtain ⟨sign, d, rest, hSign, hDigit, rfl⟩ := number_head hNumber
  have hSigns := sign_cases hSign
  rcases prefix_append_cases hPrefix with hInSign | ⟨r, rfl, hRest⟩
  · have hOnly : q = [] ∨ q = ['-'] := by
      rcases hSigns with rfl | rfl
      · exact .inl (List.prefix_nil.mp hInSign)
      · rcases List.prefix_cons_iff.mp hInSign with rfl | ⟨r, rfl, hNil⟩
        · exact .inl rfl
        · rw [List.prefix_nil.mp hNil]
          exact .inr rfl
    rcases hOnly with rfl | rfl
    · exact absurd rfl hSome
    · exact absurd rfl hMinus
  rcases List.prefix_cons_iff.mp hRest with rfl | ⟨r, rfl, -⟩
  · rw [List.append_nil] at hSome hMinus
    exact absurd hSigns (by simp [hSome, hMinus])
  · rw [List.append_cons] at hMarks ⊢
    exact (hOpens.number hSign hDigit).number (fun _ => rfl) fun c hC => hMarks c (List.mem_append_right _ hC)

theorem Opens.numberCut (hAfter : After outer) (hOpens : Opens outer seen) (hNumber : Number n) (hPrefix : q <+: n)
    (hSome : q ≠ []) (hMinus : q ≠ ['-']) :
    ∃ frames k, (frames = [] ∨ frames = [Frame.number]) ∧ Tracks (frames ++ outer) seen q k ∧
      ('+' ∉ n → EndsInDigit q → k = q) := by
  have hInside (hMarks : ∀ c ∈ q, NumberMark c) : ∃ frames k, (frames = [] ∨ frames = [Frame.number]) ∧
      Tracks (frames ++ outer) seen q k ∧ ('+' ∉ n → EndsInDigit q → k = q) := by
    obtain ⟨k, hTracks, hWhole⟩ := hOpens.numberMarks hNumber hPrefix hSome hMinus hMarks
    exact ⟨[.number], k, .inr rfl, hTracks, fun _ => hWhole⟩
  rcases number_plus hNumber with hMarks | ⟨a, ds, rfl, hMarks, hDigits⟩
  · exact hInside fun c hC => hMarks c (hPrefix.subset hC)
  rcases prefix_append_cases hPrefix with hBefore | ⟨r, rfl, hRest⟩
  · exact hInside fun c hC => hMarks c (hBefore.subset hC)
  rcases List.prefix_cons_iff.mp hRest with rfl | ⟨r, rfl, hInDigits⟩
  · rw [List.append_nil] at hInside ⊢
    exact hInside hMarks
  -- the plus sign ends the number for the scanner
  obtain ⟨sign, d, rest, hSign, hDigit, hHead⟩ := number_head hNumber
  have hPlus : d ≠ '+' := digit_ne hDigit rfl
  have hSomeA : a ≠ [] := by
    rintro rfl
    rcases sign_cases hSign with rfl | rfl
    · exact hPlus (List.cons.inj hHead).1.symm
    · exact absurd (List.cons.inj hHead).1 (by decide)
  have hMinusA : a ≠ ['-'] := by
    rintro rfl
    rcases sign_cases hSign with rfl | rfl
    · exact digit_ne hDigit rfl (List.cons.inj hHead).1.symm
    · exact hPlus (List.cons.inj (List.cons.inj hHead).2).1.symm
  obtain ⟨k, hTracks, -⟩ := hOpens.numberMarks hNumber (List.prefix_append a _) hSomeA hMinusA hMarks
  have hReached := hTracks.reached.plus hAfter
  rw [List.append_assoc] at hReached
  have hPopped : Tracks outer seen (a ++ ['+']) k :=
    ⟨hReached, hTracks.part.trans (List.prefix_append a ['+']), hTracks.digit⟩
  obtain ⟨k, hAll⟩ := hPopped.digits hAfter (hDigits.of_cut hInDigits)
  rw [← List.append_cons] at hAll
  refine ⟨[], k, .inl rfl, hAll, fun hNoPlus => ?_⟩
  exact absurd (List.mem_append_right a List.mem_cons_self) hNoPlus

theorem repaired_number (hAfter : After outer) (hOpens : Opens outer seen) (hNumber : Number n) :
    Repaired outer seen n where
  whole := by
    have hEnds := number_endsInDigit hNumber
    have hSome : n ≠ [] := by
      rintro rfl
      exact not_endsInDigit_nil hEnds
    have hMinus : n ≠ ['-'] := by
      rintro rfl
      exact Sign.minus.cut_not_digit List.prefix_rfl hEnds
    obtain ⟨frames, k, hFrames, hTracks, hWhole⟩ :=
      hOpens.numberCut hAfter hNumber List.prefix_rfl hSome hMinus
    refine ⟨frames, k, hFrames.imp_right .inl, hTracks.reached, .number (hNumber.of_cut hTracks.part hTracks.digit), ?_⟩
    intro hPlain
    exact hWhole (fun hMem => hPlain ⟨hNumber, hMem⟩) hEnds
  cut q hPrefix hSome := by
    by_cases hMinus : q = ['-']
    · exact .inl hMinus
    obtain ⟨frames, k, hFrames, hTracks, -⟩ := hOpens.numberCut hAfter hNumber hPrefix hSome hMinus
    refine .inr (.inr ⟨frames, k, hTracks.reached, ?_⟩)
    have hClosing : frames.flatMap Frame.closing = [] := by
      rcases hFrames with rfl | rfl <;> rfl
    rw [hClosing, List.append_nil]
    exact .number (hNumber.of_cut (hTracks.part.trans hPrefix) hTracks.digit)

/-! ## Literals and strings -/

variable {rest : List Char}

theorem Reached.literal {read : List Char} (h : Reached (.literal (read ++ rest) :: outer) seen seen)
    (hUnits : ∀ c ∈ read, lenUtf16 c = 1) : Reached (.literal rest :: outer) (seen ++ read) (seen ++ read) := by
  induction read generalizing seen with
  | nil => rwa [List.append_nil]
  | cons c read ih =>
    rw [List.append_cons]
    refine ih (h.moveMark (hUnits c List.mem_cons_self) fun n i => ?_) fun d hD => hUnits d (List.mem_cons_of_mem c hD)
    simp only [List.cons_append, Repair.step, Repair.stepLiteral, if_true, Repair.mark]

theorem repaired_literal (hOpens : Opens outer seen) {first : Char}
    (hFirst : Frame.openedBy first = some (.literal rest)) (hMinus : first ≠ '-') (hLetters : ∀ c ∈ rest, c ≤ 'z')
    (hValue : PlainValue (first :: rest)) :
    Repaired outer seen (first :: rest) := by
  have hRead {r s : List Char} (hEq : r ++ s = rest) :
      Reached (.literal s :: outer) (seen ++ first :: r) (seen ++ first :: r) := by
    subst hEq
    have hReached := (hOpens.begun hFirst hMinus).literal fun c hC =>
      lenUtf16_of_le (hLetters c (List.mem_append_left s hC))
    rwa [← List.append_cons] at hReached
  refine ⟨⟨[.literal []], first :: rest, .inr (.inr rfl), hRead (List.append_nil rest), hValue, fun _ => rfl⟩, ?_⟩
  intro q hPrefix hSome
  rcases List.prefix_cons_iff.mp hPrefix with rfl | ⟨r, rfl, s, hEq⟩
  · exact absurd rfl hSome
  · refine .inr (.inr ⟨[.literal s], first :: r, hRead hEq, ?_⟩)
    change PlainValue (first :: r ++ (s ++ []))
    rwa [List.append_nil, List.cons_append, hEq]

theorem held_whole {value : List Char} (h : Reached outer (seen ++ value) (seen ++ value)) (hValue : PlainValue value) :
    Held outer seen value := by
  refine ⟨[], value, h, ?_⟩
  rwa [List.flatMap_nil, List.append_nil]

theorem repaired_whole {value : List Char} (h : Reached outer (seen ++ value) (seen ++ value))
    (hValue : PlainValue value) : ∃ frames k, Finished frames ∧ Reached (frames ++ outer) (seen ++ value) (seen ++ k) ∧
      PlainValue k ∧ (¬ (Number value ∧ '+' ∈ value) → k = value) :=
  ⟨[], value, .inl rfl, h, hValue, fun _ => rfl⟩

theorem repaired_string (hOpens : Opens outer seen) {body : List Char} (hBody : Body body) :
    Repaired outer seen ('"' :: (body ++ ['"'])) := by
  have hQuote := hOpens.begun (c := '"') rfl (by decide)
  have hAll : Reached outer _ _ := (hQuote.body hBody).moveMark (c := '"') rfl fun _ _ => rfl
  rw [← List.append_cons, List.append_assoc, List.cons_append] at hAll
  refine ⟨repaired_whole hAll (.string hBody), fun q hPrefix hSome => ?_⟩
  rcases List.prefix_cons_iff.mp hPrefix with rfl | ⟨r, rfl, hRest⟩
  · exact absurd rfl hSome
  rcases List.prefix_concat_iff.mp hRest with rfl | hInBody
  · exact .inr (.inr (held_whole hAll (.string hBody)))
  · obtain ⟨pos, k, hReached, hKept⟩ := hQuote.bodyCut hBody hInBody
    rw [← List.append_cons, ← List.append_cons] at hReached
    exact .inr (.inr ⟨[.string pos], '"' :: k, hReached, .string hKept⟩)

/-! ## Items -/

variable {frame : Frame}

theorem lenUtf16_openedBy (h : Frame.openedBy c = some frame) : lenUtf16 c = 1 := by
  unfold Frame.openedBy at h
  split_ifs at h with hQuote hFalse hTrue hNull hNumber hBrace hBracket
  · rw [hQuote]; rfl
  · rw [hFalse]; rfl
  · rw [hTrue]; rfl
  · rw [hNull]; rfl
  · rcases hNumber with rfl | hDigit
    · rfl
    · refine lenUtf16_hexDigit ?_
      simp [isHexDigit, hDigit]
  · rw [hBrace]; rfl
  · rw [hBracket]; rfl

theorem openValue_marked {repair : Repair} {i : Nat} (frame : Frame) (hMinus : c ≠ '-') :
    repair.openValue i c frame = ⟨frame :: repair.opened, i + 1⟩ := by
  rw [Repair.openValue, if_pos hMinus]

theorem opens_start (h : Reached (.array .start :: ctx) seen kept) : Opens (.array .afterValue :: ctx) seen where
  begun {c frame} hFrame hMinus := by
    refine h.moveMark (lenUtf16_openedBy hFrame) fun n i => ?_
    have hBracket : c ≠ ']' := by
      rintro rfl
      cases hFrame
    simp only [Repair.step, Repair.stepArray, if_neg hBracket, hFrame, openValue_marked frame hMinus, Repair.mark]
  minus := ⟨_, h.moveMark rfl fun _ _ => rfl⟩

theorem opens_afterComma (h : Reached (.array .afterComma :: ctx) seen kept) :
    Opens (.array .afterValue :: ctx) seen where
  begun {c frame} hFrame hMinus := by
    refine h.moveMark (lenUtf16_openedBy hFrame) fun n i => ?_
    simp only [Repair.step, Repair.stepArray, hFrame, openValue_marked frame hMinus]
  minus := ⟨_, h.move rfl fun _ _ => rfl⟩

theorem opens_member (h : Reached (.object .beforeValue :: ctx) seen kept) :
    Opens (.object .afterValue :: ctx) seen where
  begun {c frame} hFrame hMinus := by
    refine h.moveMark (lenUtf16_openedBy hFrame) fun n i => ?_
    simp only [Repair.step, Repair.stepObject, hFrame, openValue_marked frame hMinus]
  minus := ⟨_, h.move rfl fun _ _ => rfl⟩

/-- A cut that may be inside a container. -/
def Cut (outer : List Frame) (seen q : List Char) : Prop := MinusCut q ∨ Held outer seen q

/-- A value that is cut inside a container cuts the container. -/
theorem Repaired.inside {front value : List Char} (h : Repaired (frame :: ctx) (seen ++ front) value)
    (hFits : ∀ value, PlainValue value → PlainValue (front ++ (value ++ frame.closing)))
    (hMinus : Cut ctx seen (front ++ ['-'])) (hPrefix : r <+: value) (hSome : r ≠ []) :
    Cut ctx seen (front ++ r) := by
  rcases h.cut r hPrefix hSome with rfl | ⟨before, ws, fin, rfl, hSpaces, hItems⟩ | ⟨frames, k, hReached, hKept⟩
  · exact hMinus
  · refine .inl ⟨front ++ before, ws, fin ++ frame.closing, ?_, hSpaces, fun item hItem => ?_⟩
    · rw [List.append_assoc]
    · have hValue := hFits _ (hItems item hItem)
      simp only [List.append_assoc, List.cons_append] at hValue ⊢
      exact hValue
  · refine .inr ⟨frames ++ [frame], front ++ k, ?_, ?_⟩
    · simp only [List.append_assoc, List.cons_append, List.nil_append] at hReached ⊢
      exact hReached
    · have hValue := hFits _ hKept
      rw [List.flatMap_append, List.flatMap_singleton, List.append_assoc]
      rwa [List.append_assoc] at hValue

theorem held_open {k : List Char} (h : Reached (frame :: ctx) (seen ++ q) (seen ++ k))
    (hKept : PlainValue (k ++ frame.closing)) : Held ctx seen q := by
  refine ⟨[frame], k, h, ?_⟩
  rwa [List.flatMap_singleton]

theorem spaces_nil : Spaces [] := by rintro c ⟨⟩

/-- A place in an array before an item: `pre` are the items that are read, each with its comma. -/
structure InArray (ctx : List Frame) (seen pre : List Char) (pos : ArrayPos) (k : List Char) : Prop where
  reached : Reached (.array pos :: ctx) (seen ++ '[' :: pre) (seen ++ '[' :: k)
  kept : PlainValue ('[' :: (k ++ [']']))
  fits : ∀ items, PlainElements items → PlainElements (pre ++ items)
  first : (pos = .start ∧ pre = [] ∧ k = []) ∨ pos = .afterComma

variable {ws : List Char}

section

variable {pre k before value after : List Char} {pos : ArrayPos}

theorem InArray.spaces (h : InArray ctx seen pre pos k) (hBefore : Spaces before) :
    ∃ k, Reached (.array pos :: ctx) (seen ++ '[' :: (pre ++ before)) (seen ++ '[' :: k) ∧
      PlainValue ('[' :: (k ++ [']'])) := by
  obtain ⟨hReached, hKept, -, ⟨rfl, rfl, rfl⟩ | rfl⟩ := h
  · refine ⟨before, ?_, .emptyArray hBefore⟩
    have hStep : ∀ c ∈ before, ∀ n i, Repair.step ⟨.array .start :: ctx, n⟩ i c = some ⟨.array .start :: ctx, i + 1⟩ := by
      intro c hC n i
      rcases isSpace_cases (hBefore c hC) with rfl | rfl | rfl | rfl <;> rfl
    have hAll := hReached.marks hStep
    rw [List.append_assoc, List.cons_append, List.nil_append] at hAll
    split at hAll
    · rename_i hNil
      rwa [hNil] at hAll ⊢
    · exact hAll
  · refine ⟨k, ?_, hKept⟩
    have hStep : ∀ c ∈ before, ∀ n i,
        Repair.step ⟨.array .afterComma :: ctx, n⟩ i c = some ⟨.array .afterComma :: ctx, n⟩ := by
      intro c hC n i
      rcases isSpace_cases (hBefore c hC) with rfl | rfl | rfl | rfl <;> rfl
    have hAll := hReached.stays hStep
    rwa [List.append_assoc, List.cons_append] at hAll

theorem InArray.opens (h : InArray ctx seen pre pos k) (hBefore : Spaces before) :
    Opens (.array .afterValue :: ctx) (seen ++ '[' :: (pre ++ before)) := by
  obtain ⟨l, hReached, -⟩ := h.spaces hBefore
  rcases h.first with ⟨rfl, -, -⟩ | rfl
  · exact opens_start hReached
  · exact opens_afterComma hReached

theorem InArray.fit (h : InArray ctx seen pre pos k) (hBefore : Spaces before) (value : List Char)
    (hValue : PlainValue value) : PlainValue ('[' :: (pre ++ before) ++ (value ++ [']'])) := by
  have hItems := h.fits _ (.last hBefore hValue spaces_nil)
  have hArray : PlainValue _ := .array hItems
  rw [List.append_nil] at hArray
  simp only [List.append_assoc, List.cons_append] at hArray ⊢
  exact hArray

/-- Only the sign of the first item is kept. -/
theorem InArray.minus (h : InArray ctx seen pre pos k) (hBefore : Spaces before) :
    Cut ctx seen ('[' :: (pre ++ before) ++ ['-']) := by
  obtain ⟨l, hReached, hKept⟩ := h.spaces hBefore
  have hFit := h.fit hBefore
  rcases h.first with ⟨rfl, rfl, -⟩ | rfl
  · refine .inl ⟨[], before, [']'], rfl, hBefore, fun item hItem => ?_⟩
    exact hFit item hItem
  · have hNext : Reached (.number :: .array .afterValue :: ctx) _ _ := hReached.move (c := '-') rfl fun _ _ => rfl
    rw [List.append_assoc] at hNext
    exact .inr ⟨[.number, .array .afterValue], '[' :: l, hNext, hKept⟩

/-- After an item, with the spaces that follow it. -/
theorem InArray.read (h : InArray ctx seen pre pos k) (hBefore : Spaces before) (hValue : PlainValue value)
    (hAfter : Spaces after)
    (hRepaired : Repaired (.array .afterValue :: ctx) (seen ++ '[' :: (pre ++ before)) value) :
    ∃ frames k, Finished frames ∧ Reached (frames ++ .array .afterValue :: ctx)
      (seen ++ '[' :: (pre ++ (before ++ (value ++ after)))) (seen ++ '[' :: k) ∧ PlainElements k := by
  obtain ⟨frames, l, hFrames, hReached, hKept, -⟩ := hRepaired.whole
  obtain ⟨rest, m, hRest, hSpaced, hCases⟩ := hFrames.arraySpaces hAfter hReached
  simp only [List.append_assoc, List.cons_append] at hSpaced hCases
  rcases hCases with rfl | rfl
  · refine ⟨rest, pre ++ (before ++ (l ++ [])), hRest, ?_, h.fits _ (.last hBefore hKept spaces_nil)⟩
    rwa [List.append_nil]
  · exact ⟨rest, _, hRest, hSpaced, h.fits _ (.last hBefore hValue hAfter)⟩

theorem InArray.heldAfter (h : InArray ctx seen pre pos k) (hBefore : Spaces before) (hValue : PlainValue value)
    (hAfter : Spaces after)
    (hRepaired : Repaired (.array .afterValue :: ctx) (seen ++ '[' :: (pre ++ before)) value) :
    Held ctx seen ('[' :: (pre ++ (before ++ (value ++ after)))) := by
  obtain ⟨frames, l, hFrames, hReached, hKept⟩ := h.read hBefore hValue hAfter hRepaired
  refine ⟨frames ++ [Frame.array .afterValue], '[' :: l, ?_, ?_⟩
  · rwa [List.append_assoc]
  · rw [List.flatMap_append, hFrames.closing]
    exact .array hKept

theorem InArray.item (h : InArray ctx seen pre pos k) (hBefore : Spaces before) (hValue : PlainValue value)
    (hAfter : Spaces after)
    (hRepaired : Repaired (.array .afterValue :: ctx) (seen ++ '[' :: (pre ++ before)) value)
    (hPrefix : q <+: before ++ (value ++ after)) : Cut ctx seen ('[' :: (pre ++ q)) := by
  have hHeldBefore {before : List Char} (hBefore : Spaces before) : Cut ctx seen ('[' :: (pre ++ before)) := by
    obtain ⟨l, hReached, hKept⟩ := h.spaces hBefore
    exact .inr (held_open hReached hKept)
  rcases prefix_append_cases hPrefix with hInBefore | ⟨r, rfl, hMore⟩
  · exact hHeldBefore fun c hC => hBefore c (hInBefore.subset hC)
  rcases prefix_append_cases hMore with hInValue | ⟨r, rfl, hInAfter⟩
  · by_cases hSome : r = []
    · rw [hSome, List.append_nil]
      exact hHeldBefore hBefore
    · have hCut := hRepaired.inside (h.fit hBefore) (h.minus hBefore) hInValue hSome
      rwa [List.cons_append, List.append_assoc] at hCut
  · exact .inr (h.heldAfter hBefore hValue (fun c hC => hAfter c (hInAfter.subset hC)) hRepaired)

/-- The items of an array, from a place before the first or after a comma. -/
structure ItemsRepaired (ctx : List Frame) (seen pre items : List Char) : Prop where
  whole : ∃ frames kept, Finished frames ∧
    Reached (frames ++ .array .afterValue :: ctx) (seen ++ '[' :: (pre ++ items)) kept
  cut : ∀ q, q <+: items → Cut ctx seen ('[' :: (pre ++ q))

theorem InArray.last (h : InArray ctx seen pre pos k) (hBefore : Spaces before) (hValue : PlainValue value)
    (hAfter : Spaces after)
    (hRepaired : Repaired (.array .afterValue :: ctx) (seen ++ '[' :: (pre ++ before)) value) :
    ItemsRepaired ctx seen pre (before ++ (value ++ after)) where
  whole := by
    obtain ⟨frames, l, hFrames, hReached, -⟩ := h.read hBefore hValue hAfter hRepaired
    exact ⟨frames, _, hFrames, hReached⟩
  cut q hPrefix := h.item hBefore hValue hAfter hRepaired hPrefix

theorem InArray.comma (h : InArray ctx seen pre pos k) (hBefore : Spaces before) (hValue : PlainValue value)
    (hAfter : Spaces after)
    (hRepaired : Repaired (.array .afterValue :: ctx) (seen ++ '[' :: (pre ++ before)) value) :
    ∃ k, InArray ctx seen (pre ++ (before ++ (value ++ after)) ++ [',']) .afterComma k := by
  obtain ⟨frames, l, hFrames, hReached, hKept⟩ := h.read hBefore hValue hAfter hRepaired
  have hComma := hFrames.arrayComma hReached
  rw [List.append_assoc, List.cons_append] at hComma
  refine ⟨l, hComma, .array hKept, fun items hItems => ?_, .inr rfl⟩
  have hAll := h.fits _ (.more hBefore hValue hAfter hItems)
  simp only [List.append_assoc, List.cons_append, List.nil_append]
  exact hAll

theorem InArray.more (h : InArray ctx seen pre pos k) (hBefore : Spaces before) (hValue : PlainValue value)
    (hAfter : Spaces after) (hRepaired : Repaired (.array .afterValue :: ctx) (seen ++ '[' :: (pre ++ before)) value)
    (hRest : ItemsRepaired ctx seen (pre ++ (before ++ (value ++ after)) ++ [',']) rest) :
    ItemsRepaired ctx seen pre (before ++ (value ++ (after ++ ',' :: rest))) where
  whole := by
    obtain ⟨frames, kept, hFrames, hReached⟩ := hRest.whole
    simp only [List.append_assoc, List.cons_append, List.nil_append] at hReached
    exact ⟨frames, kept, hFrames, hReached⟩
  cut q hPrefix := by
    have hItem {q : List Char} (hPrefix : q <+: before ++ (value ++ after)) : Cut ctx seen ('[' :: (pre ++ q)) :=
      h.item hBefore hValue hAfter hRepaired hPrefix
    have hSplit : before ++ (value ++ (after ++ ',' :: rest)) = before ++ (value ++ after) ++ ',' :: rest := by
      simp only [List.append_assoc]
    rw [hSplit] at hPrefix
    rcases prefix_append_cases hPrefix with hFirst | ⟨r, rfl, hMore⟩
    · exact hItem hFirst
    rcases List.prefix_cons_iff.mp hMore with rfl | ⟨r, rfl, hInRest⟩
    · rw [List.append_nil]
      exact hItem List.prefix_rfl
    · have hCut := hRest.cut r hInRest
      rwa [List.append_assoc, List.append_assoc] at hCut

theorem repaired_array {items : List Char} (hItems : PlainElements items)
    (hRepaired : ItemsRepaired outer seen [] items) : Repaired outer seen ('[' :: (items ++ [']'])) := by
  obtain ⟨frames, kept, hFrames, hReached⟩ := hRepaired.whole
  have hAll := hFrames.arrayClose hReached
  rw [List.append_assoc, List.cons_append, List.nil_append] at hAll
  refine ⟨repaired_whole hAll (.array hItems), fun q hPrefix hSome => .inr ?_⟩
  rcases List.prefix_cons_iff.mp hPrefix with rfl | ⟨r, rfl, hMore⟩
  · exact absurd rfl hSome
  rcases List.prefix_concat_iff.mp hMore with rfl | hInItems
  · exact .inr (held_whole hAll (.array hItems))
  · exact hRepaired.cut r hInItems

theorem inArray_start (hOpens : Opens outer seen) : InArray outer seen [] .start [] where
  reached := hOpens.begun rfl (by decide)
  kept := .emptyArray spaces_nil
  fits items hItems := hItems
  first := .inl ⟨rfl, rfl, rfl⟩

theorem repaired_emptyArray (hOpens : Opens outer seen) (hSpaces : Spaces ws) :
    Repaired outer seen ('[' :: (ws ++ [']'])) := by
  have hHeld {ws : List Char} (hSpaces : Spaces ws) : Held outer seen ('[' :: ws) := by
    obtain ⟨k, hReached, hKept⟩ := (inArray_start hOpens).spaces hSpaces
    exact held_open hReached hKept
  obtain ⟨k, hReached, -⟩ := (inArray_start hOpens).spaces hSpaces
  have hAll : Reached outer _ _ := hReached.moveMark (c := ']') rfl fun _ _ => rfl
  rw [List.append_assoc, List.cons_append, List.nil_append] at hAll
  refine ⟨repaired_whole hAll (.emptyArray hSpaces), fun q hPrefix hSome => .inr (.inr ?_)⟩
  rcases List.prefix_cons_iff.mp hPrefix with rfl | ⟨r, rfl, hMore⟩
  · exact absurd rfl hSome
  rcases List.prefix_concat_iff.mp hMore with rfl | hInSpaces
  · exact held_whole hAll (.emptyArray hSpaces)
  · exact hHeld fun c hC => hSpaces c (hInSpaces.subset hC)

end

/-! ## Members -/

/-- A place in an object before a member: `pre` are the members that are read, each with its comma. -/
structure InObject (ctx : List Frame) (seen pre : List Char) (pos : ObjectPos) (k : List Char) : Prop where
  reached : Reached (.object pos :: ctx) (seen ++ '\x7b' :: pre) (seen ++ '\x7b' :: k)
  kept : PlainValue ('\x7b' :: (k ++ ['\x7d']))
  fits : ∀ members, PlainMembers members → PlainMembers (pre ++ members)
  first : pos = .start ∨ pos = .afterComma

/-- What stands before the value of a member. -/
inductive Front : List Char → Prop
  | mk {before name gap between : List Char} (hBefore : Spaces before) (hBody : Body name) (hName : PlainName name)
    (hGap : Spaces gap) (hBetween : Spaces between) :
    Front (before ++ '"' :: (name ++ '"' :: (gap ++ ':' :: between)))

section

variable {pre k front value after : List Char} {pos : ObjectPos}

theorem Front.last (h : Front front) (hValue : PlainValue value) (hAfter : Spaces after) :
    PlainMembers (front ++ (value ++ after)) := by
  obtain ⟨hBefore, hBody, hName, hGap, hBetween⟩ := h
  have hMember := Members.last hBefore hBody hName hGap hBetween hValue hAfter
  simp only [List.append_assoc, List.cons_append]
  exact hMember

theorem Front.more (h : Front front) (hValue : PlainValue value) (hAfter : Spaces after) (hRest : PlainMembers rest) :
    PlainMembers (front ++ (value ++ (after ++ ',' :: rest))) := by
  obtain ⟨hBefore, hBody, hName, hGap, hBetween⟩ := h
  have hMembers := Members.more hBefore hBody hName hGap hBetween hValue hAfter hRest
  simp only [List.append_assoc, List.cons_append]
  exact hMembers

/-- Nothing is kept before a value begins. -/
theorem Front.read (h : Front front) (hPos : pos = .start ∨ pos = .afterComma)
    (hReached : Reached (.object pos :: ctx) seen kept) :
    Reached (.object .beforeValue :: ctx) (seen ++ front) kept ∧
      ∀ q, q <+: front → ∃ pos, Reached (.object pos :: ctx) (seen ++ q) kept := by
  obtain ⟨hBefore, -, hName, hGap, hBetween⟩ := h
  rename_i before name gap between
  have hQuote : Reached (.object .key :: ctx) (seen ++ before ++ ['"']) kept := by
    rcases hPos with rfl | rfl <;> exact (hReached.objectSpaces hBefore).move rfl fun _ _ => rfl
  obtain ⟨hNamed, hInName⟩ := hQuote.name hName
  have hColon : Reached (.object .beforeValue :: ctx) (seen ++ before ++ ['"'] ++ (name ++ ['"']) ++ gap ++ [':']) kept :=
    (hNamed.objectSpaces hGap).move rfl fun _ _ => rfl
  have hSplit : before ++ '"' :: (name ++ '"' :: (gap ++ ':' :: between)) =
      before ++ '"' :: (name ++ ['"'] ++ (gap ++ ':' :: between)) := by
    simp only [List.append_assoc, List.cons_append, List.nil_append]
  rw [hSplit]
  refine ⟨?_, fun q hPrefix => ?_⟩
  · have hAll := hColon.objectSpaces hBetween
    simp only [List.append_assoc, List.cons_append, List.nil_append] at hAll ⊢
    exact hAll
  have hSpaces {a b : List Char} (h : Spaces a) (hPrefix : b <+: a) : Spaces b := fun c hC => h c (hPrefix.subset hC)
  rcases prefix_append_cases hPrefix with hInBefore | ⟨r, rfl, hAfterBefore⟩
  · exact ⟨pos, hReached.objectSpaces (hSpaces hBefore hInBefore)⟩
  rcases List.prefix_cons_iff.mp hAfterBefore with rfl | ⟨r, rfl, hAfterQuote⟩
  · rw [List.append_nil]
    exact ⟨pos, hReached.objectSpaces hBefore⟩
  rw [← List.append_assoc, List.append_cons]
  rcases prefix_append_cases hAfterQuote with hCut | ⟨r, rfl, hAfterName⟩
  · exact hInName r hCut
  rw [← List.append_assoc]
  rcases prefix_append_cases hAfterName with hInGap | ⟨r, rfl, hAfterGap⟩
  · exact ⟨.afterKey, hNamed.objectSpaces (hSpaces hGap hInGap)⟩
  rw [← List.append_assoc]
  rcases List.prefix_cons_iff.mp hAfterGap with rfl | ⟨r, rfl, hInBetween⟩
  · rw [List.append_nil]
    exact ⟨.afterKey, hNamed.objectSpaces hGap⟩
  · rw [List.append_cons]
    exact ⟨.beforeValue, hColon.objectSpaces (hSpaces hBetween hInBetween)⟩

section

variable (h : InObject ctx seen pre pos k) (hFront : Front front)

include h hFront

theorem InObject.beforeValue :
    Reached (.object .beforeValue :: ctx) (seen ++ '\x7b' :: (pre ++ front)) (seen ++ '\x7b' :: k) ∧
      ∀ q, q <+: front → Held ctx seen ('\x7b' :: (pre ++ q)) := by
  obtain ⟨hWhole, hCuts⟩ := hFront.read h.first h.reached
  rw [List.append_assoc, List.cons_append] at hWhole
  refine ⟨hWhole, fun q hPrefix => ?_⟩
  obtain ⟨next, hReached⟩ := hCuts q hPrefix
  rw [List.append_assoc, List.cons_append] at hReached
  exact held_open hReached h.kept

theorem InObject.fit (value : List Char) (hValue : PlainValue value) :
    PlainValue ('\x7b' :: (pre ++ front) ++ (value ++ ['\x7d'])) := by
  have hMembers := h.fits _ (hFront.last hValue spaces_nil)
  have hObject : PlainValue _ := .object hMembers
  rw [List.append_nil] at hObject
  simp only [List.append_assoc, List.cons_append] at hObject ⊢
  exact hObject

theorem InObject.minus : Cut ctx seen ('\x7b' :: (pre ++ front) ++ ['-']) := by
  have hNext : Reached (.number :: .object .afterValue :: ctx) _ _ :=
    (h.beforeValue hFront).1.move (c := '-') rfl fun _ _ => rfl
  rw [List.append_assoc] at hNext
  exact .inr ⟨[.number, .object .afterValue], '\x7b' :: k, hNext, h.kept⟩

/-- After a member, with the spaces that follow it. -/
theorem InObject.read (hAfter : Spaces after)
    (hRepaired : Repaired (.object .afterValue :: ctx) (seen ++ '\x7b' :: (pre ++ front)) value) :
    ∃ frames k, Finished frames ∧ Reached (frames ++ .object .afterValue :: ctx)
      (seen ++ '\x7b' :: (pre ++ (front ++ (value ++ after)))) (seen ++ '\x7b' :: k) ∧ PlainMembers k := by
  obtain ⟨frames, l, hFrames, hReached, hKept, -⟩ := hRepaired.whole
  obtain ⟨rest, hRest, hSpaced⟩ := hFrames.objectSpaces hAfter hReached
  refine ⟨rest, pre ++ (front ++ (l ++ [])), hRest, ?_, h.fits _ (hFront.last hKept spaces_nil)⟩
  rw [List.append_nil]
  simp only [List.append_assoc, List.cons_append] at hSpaced ⊢
  exact hSpaced

theorem InObject.heldAfter (hAfter : Spaces after)
    (hRepaired : Repaired (.object .afterValue :: ctx) (seen ++ '\x7b' :: (pre ++ front)) value) :
    Held ctx seen ('\x7b' :: (pre ++ (front ++ (value ++ after)))) := by
  obtain ⟨frames, l, hFrames, hReached, hKept⟩ := h.read hFront hAfter hRepaired
  refine ⟨frames ++ [Frame.object .afterValue], '\x7b' :: l, ?_, ?_⟩
  · rwa [List.append_assoc]
  · rw [List.flatMap_append, hFrames.closing]
    exact .object hKept

theorem InObject.member (hAfter : Spaces after)
    (hRepaired : Repaired (.object .afterValue :: ctx) (seen ++ '\x7b' :: (pre ++ front)) value)
    (hPrefix : q <+: front ++ (value ++ after)) : Cut ctx seen ('\x7b' :: (pre ++ q)) := by
  rcases prefix_append_cases hPrefix with hInFront | ⟨r, rfl, hMore⟩
  · exact .inr ((h.beforeValue hFront).2 q hInFront)
  rcases prefix_append_cases hMore with hInValue | ⟨r, rfl, hInAfter⟩
  · by_cases hSome : r = []
    · rw [hSome, List.append_nil]
      exact .inr ((h.beforeValue hFront).2 front List.prefix_rfl)
    · have hCut := hRepaired.inside (h.fit hFront) (h.minus hFront) hInValue hSome
      rwa [List.cons_append, List.append_assoc] at hCut
  · exact .inr (h.heldAfter hFront (fun c hC => hAfter c (hInAfter.subset hC)) hRepaired)

end

/-- The members of an object, from a place before the first or after a comma. -/
structure MembersRepaired (ctx : List Frame) (seen pre members : List Char) : Prop where
  whole : ∃ frames kept, Finished frames ∧
    Reached (frames ++ .object .afterValue :: ctx) (seen ++ '\x7b' :: (pre ++ members)) kept
  cut : ∀ q, q <+: members → Cut ctx seen ('\x7b' :: (pre ++ q))

theorem InObject.last (h : InObject ctx seen pre pos k) (hFront : Front front) (hAfter : Spaces after)
    (hRepaired : Repaired (.object .afterValue :: ctx) (seen ++ '\x7b' :: (pre ++ front)) value) :
    MembersRepaired ctx seen pre (front ++ (value ++ after)) where
  whole := by
    obtain ⟨frames, l, hFrames, hReached, -⟩ := h.read hFront hAfter hRepaired
    exact ⟨frames, _, hFrames, hReached⟩
  cut q hPrefix := h.member hFront hAfter hRepaired hPrefix

theorem InObject.comma (h : InObject ctx seen pre pos k) (hFront : Front front) (hValue : PlainValue value)
    (hAfter : Spaces after)
    (hRepaired : Repaired (.object .afterValue :: ctx) (seen ++ '\x7b' :: (pre ++ front)) value) :
    ∃ k, InObject ctx seen (pre ++ (front ++ (value ++ after)) ++ [',']) .afterComma k := by
  obtain ⟨frames, l, hFrames, hReached, hKept⟩ := h.read hFront hAfter hRepaired
  have hComma := hFrames.objectComma hReached
  rw [List.append_assoc, List.cons_append] at hComma
  refine ⟨l, hComma, .object hKept, fun members hMembers => ?_, .inr rfl⟩
  have hAll := h.fits _ (hFront.more hValue hAfter hMembers)
  simp only [List.append_assoc, List.cons_append, List.nil_append]
  exact hAll

theorem InObject.more (h : InObject ctx seen pre pos k) (hFront : Front front) (hAfter : Spaces after)
    (hRepaired : Repaired (.object .afterValue :: ctx) (seen ++ '\x7b' :: (pre ++ front)) value)
    (hRest : MembersRepaired ctx seen (pre ++ (front ++ (value ++ after)) ++ [',']) rest) :
    MembersRepaired ctx seen pre (front ++ (value ++ (after ++ ',' :: rest))) where
  whole := by
    obtain ⟨frames, kept, hFrames, hReached⟩ := hRest.whole
    simp only [List.append_assoc, List.cons_append, List.nil_append] at hReached
    exact ⟨frames, kept, hFrames, hReached⟩
  cut q hPrefix := by
    have hSplit : front ++ (value ++ (after ++ ',' :: rest)) = front ++ (value ++ after) ++ ',' :: rest := by
      simp only [List.append_assoc]
    rw [hSplit] at hPrefix
    rcases prefix_append_cases hPrefix with hFirst | ⟨r, rfl, hMore⟩
    · exact h.member hFront hAfter hRepaired hFirst
    rcases List.prefix_cons_iff.mp hMore with rfl | ⟨r, rfl, hInRest⟩
    · rw [List.append_nil]
      exact h.member hFront hAfter hRepaired List.prefix_rfl
    · have hCut := hRest.cut r hInRest
      rwa [List.append_assoc, List.append_assoc] at hCut

theorem inObject_start (hOpens : Opens outer seen) : InObject outer seen [] .start [] where
  reached := hOpens.begun rfl (by decide)
  kept := .emptyObject spaces_nil
  fits members hMembers := hMembers
  first := .inl rfl

theorem repaired_object {members : List Char} (hMembers : PlainMembers members)
    (hRepaired : MembersRepaired outer seen [] members) : Repaired outer seen ('\x7b' :: (members ++ ['\x7d'])) := by
  obtain ⟨frames, kept, hFrames, hReached⟩ := hRepaired.whole
  have hAll := hFrames.objectClose hReached
  rw [List.append_assoc, List.cons_append, List.nil_append] at hAll
  refine ⟨repaired_whole hAll (.object hMembers), fun q hPrefix hSome => .inr ?_⟩
  rcases List.prefix_cons_iff.mp hPrefix with rfl | ⟨r, rfl, hMore⟩
  · exact absurd rfl hSome
  rcases List.prefix_concat_iff.mp hMore with rfl | hInMembers
  · exact .inr (held_whole hAll (.object hMembers))
  · exact hRepaired.cut r hInMembers

theorem repaired_emptyObject (hOpens : Opens outer seen) (hSpaces : Spaces ws) :
    Repaired outer seen ('\x7b' :: (ws ++ ['\x7d'])) := by
  have hStart := inObject_start hOpens
  have hAll : Reached outer _ _ :=
    (hStart.reached.objectSpaces hSpaces).moveMark (c := '\x7d') rfl fun _ _ => rfl
  simp only [List.append_assoc, List.cons_append, List.nil_append] at hAll
  refine ⟨repaired_whole hAll (.emptyObject hSpaces), fun q hPrefix hSome => .inr (.inr ?_)⟩
  rcases List.prefix_cons_iff.mp hPrefix with rfl | ⟨r, rfl, hMore⟩
  · exact absurd rfl hSome
  rcases List.prefix_concat_iff.mp hMore with rfl | hInSpaces
  · exact held_whole hAll (.emptyObject hSpaces)
  · have hReached := hStart.reached.objectSpaces fun c hC => hSpaces c (hInSpaces.subset hC)
    rw [List.append_assoc] at hReached
    exact held_open hReached hStart.kept

end

/-! ## Values -/

mutual

/-- A value is read to its end, and what is kept of it at a cut can be closed. -/
theorem repaired_value {outer : List Frame} {seen value : List Char} (hValue : PlainValue value) (hAfter : After outer)
    (hOpens : Opens outer seen) : Repaired outer seen value := by
  match hValue with
  | .litTrue => exact repaired_literal hOpens rfl (by decide) (by simp) .litTrue
  | .litFalse => exact repaired_literal hOpens rfl (by decide) (by simp) .litFalse
  | .litNull => exact repaired_literal hOpens rfl (by decide) (by simp) .litNull
  | .number hNumber => exact repaired_number hAfter hOpens hNumber
  | .string hBody => exact repaired_string hOpens hBody
  | .emptyArray hSpaces => exact repaired_emptyArray hOpens hSpaces
  | .array hItems => exact repaired_array hItems (repaired_elements hItems (inArray_start hOpens))
  | .emptyObject hSpaces => exact repaired_emptyObject hOpens hSpaces
  | .object hMembers => exact repaired_object hMembers (repaired_members hMembers (inObject_start hOpens))

theorem repaired_elements {ctx : List Frame} {seen items pre k : List Char} {pos : ArrayPos} (hItems : PlainElements items)
    (hPlace : InArray ctx seen pre pos k) : ItemsRepaired ctx seen pre items := by
  match hItems with
  | .last hBefore hValue hAfter =>
    exact hPlace.last hBefore hValue hAfter (repaired_value hValue (.array ctx) (hPlace.opens hBefore))
  | .more hBefore hValue hAfter hRest =>
    have hFirst := repaired_value hValue (.array ctx) (hPlace.opens hBefore)
    obtain ⟨_, hNext⟩ := hPlace.comma hBefore hValue hAfter hFirst
    exact hPlace.more hBefore hValue hAfter hFirst (repaired_elements hRest hNext)

theorem repaired_members {ctx : List Frame} {seen members pre k : List Char} {pos : ObjectPos} (hMembers : PlainMembers members)
    (hPlace : InObject ctx seen pre pos k) : MembersRepaired ctx seen pre members := by
  match hMembers with
  | .last hBefore hBody hName hGap hBetween hValue hAfter =>
    have hFront : Front _ := .mk hBefore hBody hName hGap hBetween
    have hFirst := repaired_value hValue (.object ctx) (opens_member (hPlace.beforeValue hFront).1)
    have hLast := hPlace.last hFront hAfter hFirst
    simp only [List.append_assoc, List.cons_append] at hLast
    exact hLast
  | .more hBefore hBody hName hGap hBetween hValue hAfter hRest =>
    have hFront : Front _ := .mk hBefore hBody hName hGap hBetween
    have hFirst := repaired_value hValue (.object ctx) (opens_member (hPlace.beforeValue hFront).1)
    obtain ⟨_, hNext⟩ := hPlace.comma hFront hValue hAfter hFirst
    have hMore := hPlace.more hFront hAfter hFirst (repaired_members hRest hNext)
    simp only [List.append_assoc, List.cons_append] at hMore
    exact hMore

end

/-! ## Texts -/

inductive Token : List Char → Prop
  | mark {c : Char} (hMark : c ∈ ['\x7b', '\x7d', '[', ']', ':', ',']) : Token [c]
  | litTrue : Token ['t', 'r', 'u', 'e']
  | litFalse : Token ['f', 'a', 'l', 's', 'e']
  | litNull : Token ['n', 'u', 'l', 'l']
  | number {cs : List Char} (hNumber : Number cs) : Token cs
  | string {body : List Char} (hBody : Body body) : Token ('"' :: (body ++ ['"']))

def HasToken (cut : List Char) : Prop :=
  ∃ before token after, cut = before ++ (token ++ after) ∧ Spaces before ∧ Token token

/-- The text ends right after the minus sign of the first item of an array: a string may stand in its place. -/
def CutAfterMinus (cut : List Char) : Prop :=
  ∃ before ws after, cut = before ++ '[' :: (ws ++ ['-']) ∧ Spaces ws ∧
    JsonText (before ++ '[' :: (ws ++ '"' :: '"' :: after))

/-- More than spaces and a sign. -/
def Begun (cut : List Char) : Prop := ∃ c ∈ cut, isSpace c = false ∧ c ≠ '-'

theorem Token.begun {token : List Char} (h : Token token) : Begun token := by
  cases h with
  | @mark c hMark =>
    refine ⟨c, List.mem_singleton_self c, ?_⟩
    simp only [List.mem_cons, List.not_mem_nil, or_false] at hMark
    rcases hMark with rfl | rfl | rfl | rfl | rfl | rfl <;> decide
  | litTrue => exact ⟨'t', by decide, by decide⟩
  | litFalse => exact ⟨'f', by decide, by decide⟩
  | litNull => exact ⟨'n', by decide, by decide⟩
  | number hNumber =>
    obtain ⟨sign, d, rest, -, hDigit, rfl⟩ := number_head hNumber
    refine ⟨d, List.mem_append_right sign List.mem_cons_self, ?_, digit_ne hDigit rfl⟩
    simp only [isSpace, Bool.or_eq_false_iff, decide_eq_false_iff_not]
    exact ⟨⟨⟨digit_ne hDigit rfl, digit_ne hDigit rfl⟩, digit_ne hDigit rfl⟩, digit_ne hDigit rfl⟩
  | string => exact ⟨'"', List.mem_cons_self, by decide⟩

variable {cut : List Char}

theorem HasToken.begun (h : HasToken cut) : Begun cut := by
  obtain ⟨before, token, after, rfl, -, hToken⟩ := h
  obtain ⟨c, hC, hMark⟩ := hToken.begun
  exact ⟨c, List.mem_append_right before (List.mem_append_left after hC), hMark⟩

theorem not_begun_of_spaces (h : Spaces cut) : ¬ Begun cut := by
  rintro ⟨c, hC, hSpace, -⟩
  rw [h c hC] at hSpace
  cases hSpace

theorem openedBy_space (h : isSpace c = true) : Frame.openedBy c = none := by
  rcases isSpace_cases h with rfl | rfl | rfl | rfl <;> rfl

theorem scanRoot_spaces (i : Nat) (hSpaces : Spaces ws) (rest : List Char) :
    scanRoot i (ws ++ rest) = scanRoot (i + ws.length) rest := by
  induction ws generalizing i with
  | nil => rfl
  | cons c ws ih =>
    rw [List.cons_append, scanRoot, openedBy_space (hSpaces c List.mem_cons_self)]
    dsimp only
    rw [ih (i + 1) fun d hD => hSpaces d (List.mem_cons_of_mem c hD), List.length_cons, Nat.add_right_comm, Nat.add_assoc]

theorem reached_root (hSpaces : Spaces ws) (hFrame : Frame.openedBy c = some frame) {n : Nat}
    (hLength : n = if c ≠ '-' then ws.length + 1 else 0) :
    Reached [frame] (ws ++ [c]) ((ws ++ [c]).take n) := by
  refine ⟨n, rfl, ?_, fun rest => ?_⟩
  · rw [hLength, List.length_append]
    split
    · exact le_rfl
    · exact Nat.zero_le _
  · rw [List.append_assoc, List.singleton_append, scanRoot_spaces 0 hSpaces, scanRoot, hFrame, hLength,
      List.length_append, Nat.zero_add]
    rfl

theorem opens_root (hSpaces : Spaces ws) : Opens [] ws where
  begun {c frame} hFrame hMinus := by
    have hReached := reached_root hSpaces hFrame (if_pos hMinus).symm
    rwa [take_length_succ] at hReached
  minus := ⟨_, reached_root hSpaces (c := '-') rfl rfl⟩

theorem repaired_root {value : List Char} (hSpaces : Spaces ws) (hValue : PlainValue value) :
    Repaired [] ws value := repaired_value hValue .root (opens_root hSpaces)

/-- A whole value is kept, and what follows it is not. -/
theorem fixJson_whole {before value after : List Char} (hBefore : Spaces before) (hValue : PlainValue value)
    (hAfter : Spaces after) : ∃ k, fixJson (before ++ (value ++ after)) = before ++ k ∧ PlainValue k ∧
      (¬ (Number value ∧ '+' ∈ value) → k = value) := by
  obtain ⟨frames, k, hFrames, hReached, hKept, hWhole⟩ := (repaired_root hBefore hValue).whole
  rw [List.append_nil] at hReached
  obtain ⟨rest, hRest, hSpaced⟩ := hFrames.rootSpaces hAfter hReached
  rw [List.append_assoc] at hSpaced
  refine ⟨k, ?_, hKept, hWhole⟩
  rw [hSpaced.fixJson, hRest.closing, List.append_nil]

theorem MinusCut.cutAfterMinus {before : List Char} (hBefore : Spaces before) (h : MinusCut r) :
    CutAfterMinus (before ++ r) := by
  obtain ⟨front, ws, fin, rfl, hSpaces, hItems⟩ := h
  have hString : PlainValue ('"' :: ([] ++ ['"'])) := .string .nil
  have hText : Text PlainName _ := .mk hBefore (hItems _ hString) spaces_nil
  refine ⟨before ++ front, ws, fin, ?_, hSpaces, ?_⟩
  · rw [List.append_assoc]
  · have hJson : JsonText _ := hText.mono fun _ _ => trivial
    simp only [List.append_assoc, List.nil_append, List.cons_append, List.append_nil] at hJson ⊢
    exact hJson

theorem Held.text {before : List Char} (hBefore : Spaces before) (h : Held [] before r) :
    JsonText (fixJson (before ++ r)) := by
  obtain ⟨frames, k, hReached, hKept⟩ := h
  rw [List.append_nil] at hReached
  have hText : Text PlainName _ := .mk hBefore hKept spaces_nil
  rw [hReached.fixJson, List.append_assoc]
  rw [List.append_nil] at hText
  exact hText.mono fun _ _ => trivial

/-- A cut of a text in which a value has begun is repaired. -/
theorem fixJson_cut {text : List Char} (hText : Text PlainName text) (hPrefix : cut <+: text) (hBegun : Begun cut)
    (hMinus : ¬ CutAfterMinus cut) : JsonText (fixJson cut) := by
  obtain ⟨hBefore, hValue, hAfter⟩ := hText
  rcases prefix_append_cases hPrefix with hInBefore | ⟨r, rfl, hMore⟩
  · exact absurd hBegun (not_begun_of_spaces fun c hC => hBefore c (hInBefore.subset hC))
  rcases prefix_append_cases hMore with hInValue | ⟨s, rfl, hInAfter⟩
  · by_cases hSome : r = []
    · rw [hSome, List.append_nil] at hBegun
      exact absurd hBegun (not_begun_of_spaces hBefore)
    rcases (repaired_root hBefore hValue).cut r hInValue hSome with rfl | hCut | hHeld
    · obtain ⟨c, hC, hSpace, hNe⟩ := hBegun
      rcases List.mem_append.mp hC with hSpaces | hSign
      · rw [hBefore c hSpaces] at hSpace
        cases hSpace
      · exact absurd (List.mem_singleton.mp hSign) hNe
    · exact absurd (hCut.cutAfterMinus hBefore) hMinus
    · exact hHeld.text hBefore
  · have hRest : Spaces s := fun c hC => hAfter c (hInAfter.subset hC)
    obtain ⟨k, hEq, hKept, -⟩ := fixJson_whole hBefore hValue hRest
    have hText : Text PlainName _ := .mk hBefore hKept spaces_nil
    rw [List.append_nil] at hText
    rw [hEq]
    exact hText.mono fun _ _ => trivial

/-- A cut text becomes a JSON text, a whole text loses only the spaces after it, and the output is a part of the
input with closing texts. -/
theorem fixJson_repairs :
    (∀ text cut, Text PlainName text → cut <+: text → HasToken cut → ¬ CutAfterMinus cut →
      JsonText (fixJson cut) ∧ ∀ {Json : Type} (fromStr : List Char → Option Json),
        (fromStr (fixJson cut)).isSome = true → PartialJson.parse fromStr cut ≠ .failed) ∧
    (∀ before value after, Spaces before → PlainValue value → Spaces after → ¬ (Number value ∧ '+' ∈ value) →
      fixJson (before ++ (value ++ after)) = before ++ value) ∧
    (∀ input, ∃ (n : Nat) (closers : List (List Char)), fixJson input = input.take n ++ closers.flatten ∧
      ∀ closer ∈ closers, Closes closer) := by
  refine ⟨fun text cut hText hPrefix hToken hMinus => ⟨?_, ?_⟩, ?_, fixJson_closers⟩
  · exact fixJson_cut hText hPrefix hToken.begun hMinus
  · intro Json fromStr hReads
    exact PartialJson.parse_ne_failed hReads
  · intro before value after hBefore hValue hAfter hPlain
    obtain ⟨k, hEq, -, hWhole⟩ := fixJson_whole hBefore hValue hAfter
    rw [hEq, hWhole hPlain]

/-- A space after the text is dropped. -/
theorem fixJson_space : JsonText ['[', '1', ']', ' '] ∧ fixJson ['[', '1', ']', ' '] = ['[', '1', ']'] := by
  have hInt : Integer ['1'] := .digits rfl (by decide) (by rintro c ⟨⟩)
  have hNumber := Number.mk .none hInt .none .none
  have hDigit : JsonValue ['1'] := .number hNumber
  have hArray : JsonValue ['[', '1', ']'] := .array (.last spaces_nil hDigit spaces_nil)
  have hSpace : Spaces [' '] := by
    intro c hC
    rw [List.mem_singleton.mp hC]
    rfl
  exact ⟨.mk spaces_nil hArray hSpace, rfl⟩

end Aimux.Core.JsonRepair
