import Mathlib

/-! # JSON texts

The grammar of RFC 8259 over lists of characters. The names an object may have are a parameter: with
every name allowed the texts are the JSON texts.
-/

namespace Aimux.Lib.Rfc8259

def isSpace (c : Char) : Bool := c = ' ' || c = '\t' || c = '\n' || c = '\r'

def Spaces (cs : List Char) : Prop := ∀ c ∈ cs, isSpace c = true

def isHexDigit (c : Char) : Bool :=
  c.isDigit || ('a' ≤ c && c ≤ 'f') || ('A' ≤ c && c ≤ 'F')

/-! ## Numbers and strings -/

def Digits (cs : List Char) : Prop := ∀ c ∈ cs, c.isDigit = true

/-- No leading zero. -/
inductive Integer : List Char → Prop
  | zero : Integer ['0']
  | digits {c : Char} {cs : List Char} (hFirst : c.isDigit = true) (hZero : c ≠ '0') (hDigits : Digits cs) :
    Integer (c :: cs)

inductive Sign : List Char → Prop
  | none : Sign []
  | minus : Sign ['-']

inductive Fraction : List Char → Prop
  | none : Fraction []
  | digits {ds : List Char} (hSome : ds ≠ []) (hDigits : Digits ds) : Fraction ('.' :: ds)

inductive ExponentSign : List Char → Prop
  | none : ExponentSign []
  | plus : ExponentSign ['+']
  | minus : ExponentSign ['-']

inductive Exponent : List Char → Prop
  | none : Exponent []
  | digits {e : Char} {sign ds : List Char} (hE : e = 'e' ∨ e = 'E') (hSign : ExponentSign sign)
    (hSome : ds ≠ []) (hDigits : Digits ds) : Exponent (e :: (sign ++ ds))

inductive Number : List Char → Prop
  | mk {sign int frac exp : List Char} (hSign : Sign sign) (hInt : Integer int) (hFrac : Fraction frac)
    (hExp : Exponent exp) : Number (sign ++ (int ++ (frac ++ exp)))

/-- What stands between the quotes. -/
inductive Body : List Char → Prop
  | nil : Body []
  | plain {c : Char} {cs : List Char} (hQuote : c ≠ '"') (hBackslash : c ≠ '\\') (hControl : 0x20 ≤ c.toNat)
    (hRest : Body cs) : Body (c :: cs)
  | escape {c : Char} {cs : List Char}
    (hEscape : c ∈ ['"', '\\', '/', 'b', 'f', 'n', 'r', 't']) (hRest : Body cs) : Body ('\\' :: c :: cs)
  | unicode {a b c d : Char} {cs : List Char} (hA : isHexDigit a = true) (hB : isHexDigit b = true)
    (hC : isHexDigit c = true) (hD : isHexDigit d = true) (hRest : Body cs) :
    Body ('\\' :: 'u' :: a :: b :: c :: d :: cs)

/-! ## Values -/

section

variable (Name : List Char → Prop)

mutual

/-- Every text in parentheses is what the grammar puts between two marks. -/
inductive Value : List Char → Prop
  | litTrue : Value ['t', 'r', 'u', 'e']
  | litFalse : Value ['f', 'a', 'l', 's', 'e']
  | litNull : Value ['n', 'u', 'l', 'l']
  | number {cs : List Char} (hNumber : Number cs) : Value cs
  | string {body : List Char} (hBody : Body body) : Value ('"' :: (body ++ ['"']))
  | emptyArray {ws : List Char} (hSpaces : Spaces ws) : Value ('[' :: (ws ++ [']']))
  | array {items : List Char} (hItems : Elements items) : Value ('[' :: (items ++ [']']))
  | emptyObject {ws : List Char} (hSpaces : Spaces ws) : Value ('{' :: (ws ++ ['}']))
  | object {members : List Char} (hMembers : Members members) : Value ('{' :: (members ++ ['}']))

inductive Elements : List Char → Prop
  | last {before value after : List Char} (hBefore : Spaces before) (hValue : Value value)
    (hAfter : Spaces after) : Elements (before ++ (value ++ after))
  | more {before value after rest : List Char} (hBefore : Spaces before) (hValue : Value value)
    (hAfter : Spaces after) (hRest : Elements rest) :
    Elements (before ++ (value ++ (after ++ ',' :: rest)))

inductive Members : List Char → Prop
  | last {before name gap between value after : List Char} (hBefore : Spaces before) (hBody : Body name)
    (hName : Name name) (hGap : Spaces gap) (hBetween : Spaces between) (hValue : Value value)
    (hAfter : Spaces after) :
    Members (before ++ '"' :: (name ++ '"' :: (gap ++ ':' :: (between ++ (value ++ after)))))
  | more {before name gap between value after rest : List Char} (hBefore : Spaces before)
    (hBody : Body name) (hName : Name name) (hGap : Spaces gap) (hBetween : Spaces between)
    (hValue : Value value) (hAfter : Spaces after) (hRest : Members rest) :
    Members (before ++ '"' :: (name ++ '"' :: (gap ++ ':' :: (between ++ (value ++ (after ++ ',' :: rest))))))

end

inductive Text : List Char → Prop
  | mk {before value after : List Char} (hBefore : Spaces before) (hValue : Value Name value)
    (hAfter : Spaces after) : Text (before ++ (value ++ after))

end

/-- A value in any JSON text. -/
abbrev JsonValue : List Char → Prop := Value fun _ => True

abbrev JsonText : List Char → Prop := Text fun _ => True

section

variable {Name Other : List Char → Prop}

mutual

theorem Value.mono (hNames : ∀ name, Name name → Other name) {cs : List Char} (h : Value Name cs) :
    Value Other cs := by
  match h with
  | .litTrue => exact .litTrue
  | .litFalse => exact .litFalse
  | .litNull => exact .litNull
  | .number hNumber => exact .number hNumber
  | .string hBody => exact .string hBody
  | .emptyArray hSpaces => exact .emptyArray hSpaces
  | .array hItems => exact .array (hItems.mono hNames)
  | .emptyObject hSpaces => exact .emptyObject hSpaces
  | .object hMembers => exact .object (hMembers.mono hNames)

theorem Elements.mono (hNames : ∀ name, Name name → Other name) {cs : List Char} (h : Elements Name cs) :
    Elements Other cs := by
  match h with
  | .last hBefore hValue hAfter => exact .last hBefore (hValue.mono hNames) hAfter
  | .more hBefore hValue hAfter hRest =>
    exact .more hBefore (hValue.mono hNames) hAfter (hRest.mono hNames)

theorem Members.mono (hNames : ∀ name, Name name → Other name) {cs : List Char} (h : Members Name cs) :
    Members Other cs := by
  match h with
  | .last hBefore hBody hName hGap hBetween hValue hAfter =>
    exact .last hBefore hBody (hNames _ hName) hGap hBetween (hValue.mono hNames) hAfter
  | .more hBefore hBody hName hGap hBetween hValue hAfter hRest =>
    exact .more hBefore hBody (hNames _ hName) hGap hBetween (hValue.mono hNames) hAfter (hRest.mono hNames)

end

theorem Text.mono (hNames : ∀ name, Name name → Other name) {cs : List Char} (h : Text Name cs) :
    Text Other cs := by
  obtain ⟨hBefore, hValue, hAfter⟩ := h
  exact .mk hBefore (hValue.mono hNames) hAfter

end

/-! ## Cutting a number -/

theorem prefix_append_cases {α : Type} {q a b : List α} (hPrefix : q <+: a ++ b) :
    q <+: a ∨ ∃ r, q = a ++ r ∧ r <+: b := by
  obtain ⟨t, hEq⟩ := hPrefix
  rcases List.append_eq_append_iff.mp hEq with ⟨a', rfl, -⟩ | ⟨r, rfl, hRest⟩
  · exact .inl (List.prefix_append q a')
  · exact .inr ⟨r, rfl, t, hRest.symm⟩

/-- A run of characters that ends before the end of the text ends there in a longer text. -/
theorem takeWhile_append_stop {p : Char → Bool} {cs : List Char} (hStop : cs.dropWhile p ≠ []) (more : List Char) :
    (cs ++ more).takeWhile p = cs.takeWhile p ∧ (cs ++ more).dropWhile p = cs.dropWhile p ++ more := by
  constructor
  · rw [List.takeWhile_append, if_neg]
    intro hLength
    have hSplit := congrArg List.length (List.takeWhile_append_dropWhile (p := p) (l := cs))
    rw [List.length_append] at hSplit
    exact hStop (List.length_eq_zero_iff.mp (by omega))
  · rw [List.dropWhile_append, if_neg (by simpa using hStop)]

def EndsInDigit (cs : List Char) : Prop := ∃ c, cs.getLast? = some c ∧ c.isDigit = true

theorem not_endsInDigit_nil : ¬ EndsInDigit [] := by
  rintro ⟨c, hLast, -⟩
  cases hLast

theorem endsInDigit_append {a b : List Char} (hSome : b ≠ []) : EndsInDigit (a ++ b) ↔ EndsInDigit b := by
  unfold EndsInDigit
  rw [List.getLast?_append_of_ne_nil a hSome]

theorem endsInDigit_concat (a : List Char) {c : Char} (hDigit : c.isDigit = true) : EndsInDigit (a ++ [c]) :=
  ⟨c, List.getLast?_concat, hDigit⟩

theorem Digits.of_cut {a b : List Char} (h : Digits b) (hPrefix : a <+: b) : Digits a :=
  fun c hC => h c (hPrefix.subset hC)

theorem Sign.cut_not_digit {sign q : List Char} (h : Sign sign) (hPrefix : q <+: sign) : ¬ EndsInDigit q := by
  rintro ⟨c, hLast, hDigit⟩
  have hMem := hPrefix.subset (List.mem_of_getLast? hLast)
  cases h with
  | none => cases hMem
  | minus =>
    obtain rfl := List.mem_singleton.mp hMem
    cases hDigit

theorem Integer.of_cut {int q : List Char} (h : Integer int) (hPrefix : q <+: int) (hSome : q ≠ []) :
    Integer q := by
  cases h with
  | zero =>
    have hWhole : q = ['0'] := by
      rcases List.prefix_cons_iff.mp hPrefix with rfl | ⟨r, rfl, hRest⟩
      · exact absurd rfl hSome
      · rw [List.prefix_nil.mp hRest]
    rw [hWhole]
    exact .zero
  | digits hFirst hZero hDigits =>
    rcases List.prefix_cons_iff.mp hPrefix with rfl | ⟨r, rfl, hRest⟩
    · exact absurd rfl hSome
    · exact .digits hFirst hZero (hDigits.of_cut hRest)

theorem Fraction.of_cut {frac q : List Char} (h : Fraction frac) (hPrefix : q <+: frac)
    (hEnds : q ≠ [] → EndsInDigit q) : Fraction q := by
  cases h with
  | none =>
    rw [List.prefix_nil.mp hPrefix]
    exact .none
  | digits hSome hDigits =>
    rcases List.prefix_cons_iff.mp hPrefix with rfl | ⟨r, rfl, hRest⟩
    · exact .none
    · refine .digits ?_ (hDigits.of_cut hRest)
      rintro rfl
      obtain ⟨c, hLast, hDigit⟩ := hEnds (List.cons_ne_nil _ _)
      obtain rfl : '.' = c := Option.some.inj hLast
      cases hDigit

theorem Exponent.of_cut {exp q : List Char} (h : Exponent exp) (hPrefix : q <+: exp)
    (hEnds : q ≠ [] → EndsInDigit q) : Exponent q := by
  cases h with
  | none =>
    rw [List.prefix_nil.mp hPrefix]
    exact .none
  | @digits e sign ds hE hSign hSome hDigits =>
    rcases List.prefix_cons_iff.mp hPrefix with rfl | ⟨r, rfl, hRest⟩
    · exact .none
    have hLast := hEnds (List.cons_ne_nil _ _)
    rcases prefix_append_cases hRest with hInSign | ⟨r, rfl, hInDigits⟩
    · have hNoDigit : ∀ c ∈ e :: r, c.isDigit = false := by
        intro c hC
        rcases List.mem_cons.mp hC with rfl | hR
        · rcases hE with rfl | rfl <;> rfl
        · have hMem := hInSign.subset hR
          cases hSign with
          | none => cases hMem
          | plus => rw [List.mem_singleton.mp hMem]; rfl
          | minus => rw [List.mem_singleton.mp hMem]; rfl
      obtain ⟨c, hGet, hDigit⟩ := hLast
      rw [hNoDigit c (List.mem_of_getLast? hGet)] at hDigit
      cases hDigit
    · refine .digits hE hSign ?_ (hDigits.of_cut hInDigits)
      rintro rfl
      rw [List.append_nil] at hLast
      obtain ⟨c, hGet, hDigit⟩ := hLast
      cases hSign with
      | none =>
        obtain rfl : e = c := Option.some.inj hGet
        rcases hE with rfl | rfl <;> cases hDigit
      | plus =>
        obtain rfl : '+' = c := Option.some.inj hGet
        cases hDigit
      | minus =>
        obtain rfl : '-' = c := Option.some.inj hGet
        cases hDigit

/-- A number cut after one of its digits is a number. -/
theorem Number.of_cut {n q : List Char} (h : Number n) (hPrefix : q <+: n) (hEnds : EndsInDigit q) :
    Number q := by
  obtain ⟨hSign, hInt, hFrac, hExp⟩ := h
  rcases prefix_append_cases hPrefix with hInSign | ⟨r, rfl, hAfterSign⟩
  · exact absurd hEnds (hSign.cut_not_digit hInSign)
  have hSome : r ≠ [] := by
    rintro rfl
    rw [List.append_nil] at hEnds
    exact hSign.cut_not_digit List.prefix_rfl hEnds
  rw [endsInDigit_append hSome] at hEnds
  rcases prefix_append_cases hAfterSign with hInInt | ⟨s, rfl, hAfterInt⟩
  · have hCut := Number.mk hSign (hInt.of_cut hInInt hSome) .none .none
    rwa [List.append_nil, List.append_nil] at hCut
  have hEndsRest (hNe : s ≠ []) : EndsInDigit s := (endsInDigit_append hNe).mp hEnds
  rcases prefix_append_cases hAfterInt with hInFrac | ⟨t, rfl, hAfterFrac⟩
  · have hCut := Number.mk hSign hInt (hFrac.of_cut hInFrac hEndsRest) .none
    rwa [List.append_nil] at hCut
  · refine .mk hSign hInt hFrac (hExp.of_cut hAfterFrac fun hNe => ?_)
    exact (endsInDigit_append hNe).mp (hEndsRest fun hNil => hNe (List.append_eq_nil_iff.mp hNil).2)

end Aimux.Lib.Rfc8259
