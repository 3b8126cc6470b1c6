import Aimux.Core.JsonRepair

/-! # Cuts of a JSON text

What the repair makes of a JSON text that is cut. The scanner is followed value by value: it leaves what was open
before the value as it was, and what it keeps of the value can be closed.
-/

namespace Aimux.Core.JsonRepair

open Aimux.Lib.Rfc8259

/-! ## Places of the scanner -/

/-- After `seen` the values `opened` are open, and `kept` is the prefix that is kept. -/
def Reached (opened : List Frame) (seen kept : List Char) : Prop :=
  ∃ n, seen.take n = kept ∧ n ≤ seen.length ∧
    ∀ rest, scanRoot 0 (seen ++ rest) = Repair.scan ⟨opened, n⟩ (units seen.length rest)

section

variable {opened next outer : List Frame} {seen kept : List Char} {c : Char}

theorem Reached.fixJson (h : Reached opened seen kept) : fixJson seen = kept ++ opened.flatMap Frame.closing := by
  obtain ⟨n, rfl, -, hScan⟩ := h
  have hAll := hScan []
  rw [List.append_nil] at hAll
  rw [JsonRepair.fixJson, hAll]
  rfl

theorem scan_closed (n : Nat) (more : List (Nat × Char)) : Repair.scan ⟨[], n⟩ more = ⟨[], n⟩ := by
  cases more <;> rfl

theorem Reached.closed (h : Reached [] seen kept) (more : List Char) : Reached [] (seen ++ more) kept := by
  obtain ⟨n, rfl, hLe, hScan⟩ := h
  refine ⟨n, List.take_append_of_le_length hLe, ?_, fun rest => ?_⟩
  · rw [List.length_append]
    omega
  · rw [List.append_assoc, hScan, scan_closed, scan_closed]

theorem units_cons (i : Nat) (c : Char) (rest : List Char) (hUnits : lenUtf16 c = 1) :
    units i (c :: rest) = (i, c) :: units (i + 1) rest := by
  rw [units, hUnits]
  rfl

/-- One unit after another does the same as long as the open values stay. -/
theorem scan_units {f : Nat → Nat} {i : Nat} (hTwice : ∀ n, f (f n) = f n)
    (hStep : ∀ n, Repair.step ⟨opened, n⟩ i c = some ⟨opened, f n⟩) (n : Nat) (rest : List (Nat × Char)) :
    Repair.scan ⟨opened, n⟩ (List.replicate (lenUtf16 c) (i, c) ++ rest) = Repair.scan ⟨opened, f n⟩ rest := by
  have hOnce (n : Nat) (more : List (Nat × Char)) :
      Repair.scan ⟨opened, n⟩ ((i, c) :: more) = Repair.scan ⟨opened, f n⟩ more := by
    rw [Repair.scan, hStep]
  unfold lenUtf16
  split
  · exact hOnce n rest
  · change Repair.scan ⟨opened, n⟩ ((i, c) :: (i, c) :: rest) = _
    rw [hOnce, hOnce, hTwice]

theorem Reached.stay (h : Reached opened seen kept)
    (hStep : ∀ n i, Repair.step ⟨opened, n⟩ i c = some ⟨opened, n⟩) : Reached opened (seen ++ [c]) kept := by
  obtain ⟨n, rfl, hLe, hScan⟩ := h
  refine ⟨n, List.take_append_of_le_length hLe, ?_, fun rest => ?_⟩
  · rw [List.length_append]
    omega
  · rw [List.append_assoc, List.singleton_append, hScan, units, scan_units (f := fun n => n) (fun _ => rfl) fun n => hStep n _,
      List.length_append]
    rfl

theorem take_length_succ (seen : List Char) (c : Char) : (seen ++ [c]).take (seen.length + 1) = seen ++ [c] :=
  List.take_of_length_le (by rw [List.length_append]; exact le_rfl)

theorem Reached.mark (h : Reached opened seen kept)
    (hStep : ∀ n i, Repair.step ⟨opened, n⟩ i c = some ⟨opened, i + 1⟩) :
    Reached opened (seen ++ [c]) (seen ++ [c]) := by
  obtain ⟨n, -, -, hScan⟩ := h
  refine ⟨seen.length + 1, take_length_succ seen c, ?_, fun rest => ?_⟩
  · rw [List.length_append]
    exact le_rfl
  · rw [List.append_assoc, List.singleton_append, hScan, units, scan_units (f := fun _ => seen.length + 1) (fun _ => rfl) fun n => hStep n _,
      List.length_append]
    rfl

theorem Reached.move (h : Reached opened seen kept) (hUnits : lenUtf16 c = 1)
    (hStep : ∀ n i, Repair.step ⟨opened, n⟩ i c = some ⟨next, n⟩) : Reached next (seen ++ [c]) kept := by
  obtain ⟨n, rfl, hLe, hScan⟩ := h
  refine ⟨n, List.take_append_of_le_length hLe, ?_, fun rest => ?_⟩
  · rw [List.length_append]
    omega
  · rw [List.append_assoc, List.singleton_append, hScan, units_cons _ _ _ hUnits, Repair.scan, hStep,
      List.length_append]
    rfl

theorem Reached.moveMark (h : Reached opened seen kept) (hUnits : lenUtf16 c = 1)
    (hStep : ∀ n i, Repair.step ⟨opened, n⟩ i c = some ⟨next, i + 1⟩) :
    Reached next (seen ++ [c]) (seen ++ [c]) := by
  obtain ⟨n, -, -, hScan⟩ := h
  refine ⟨seen.length + 1, take_length_succ seen c, ?_, fun rest => ?_⟩
  · rw [List.length_append]
    exact le_rfl
  · rw [List.append_assoc, List.singleton_append, hScan, units_cons _ _ _ hUnits, Repair.scan, hStep,
      List.length_append]
    rfl

theorem Reached.stays {cs : List Char} (h : Reached opened seen kept)
    (hStep : ∀ c ∈ cs, ∀ n i, Repair.step ⟨opened, n⟩ i c = some ⟨opened, n⟩) : Reached opened (seen ++ cs) kept := by
  induction cs generalizing seen with
  | nil => rwa [List.append_nil]
  | cons c cs ih =>
    rw [List.append_cons]
    exact ih (h.stay (hStep c List.mem_cons_self)) fun d hD => hStep d (List.mem_cons_of_mem c hD)

theorem Reached.marks {cs : List Char} (h : Reached opened seen kept)
    (hStep : ∀ c ∈ cs, ∀ n i, Repair.step ⟨opened, n⟩ i c = some ⟨opened, i + 1⟩) :
    Reached opened (seen ++ cs) (if cs = [] then kept else seen ++ cs) := by
  induction cs generalizing seen kept with
  | nil => rwa [List.append_nil, if_pos rfl]
  | cons c cs ih =>
    have hRest := ih (h.mark (hStep c List.mem_cons_self)) fun d hD => hStep d (List.mem_cons_of_mem c hD)
    rw [if_neg (List.cons_ne_nil c cs), List.append_cons]
    split at hRest
    · rename_i hNil
      rw [hNil, List.append_nil] at hRest ⊢
      exact hRest
    · exact hRest

end

/-! ## Strings -/

theorem lenUtf16_of_le {c : Char} (h : c ≤ 'z') : lenUtf16 c = 1 := by
  have hCode : c.toNat ≤ 'z'.toNat := UInt32.le_iff_toNat_le.mp h
  have hSmall : c.toNat < 0x10000 := hCode.trans_lt (by decide)
  rw [lenUtf16, if_pos hSmall]

theorem lenUtf16_hexDigit {c : Char} (h : isHexDigit c = true) : lenUtf16 c = 1 := by
  refine lenUtf16_of_le ?_
  simp only [isHexDigit, Bool.or_eq_true, Bool.and_eq_true, decide_eq_true_eq] at h
  obtain (hDigit | ⟨-, hLe⟩) | ⟨-, hLe⟩ := h
  · have hCode : c.toNat ≤ '9'.toNat := (Char.isDigit_iff_toNat.mp hDigit).2
    exact UInt32.le_iff_toNat_le.mpr (hCode.trans (by decide))
  · exact hLe.trans (by decide)
  · exact hLe.trans (by decide)

section

variable {outer : List Frame} {seen kept : List Char} {c : Char}

theorem Reached.plain (h : Reached (.string .plain :: outer) seen kept) (hQuote : c ≠ '"') (hBackslash : c ≠ '\\') :
    Reached (.string .plain :: outer) (seen ++ [c]) (seen ++ [c]) := by
  refine h.mark fun n i => ?_
  simp only [Repair.step, Repair.stepString, if_neg hQuote, if_neg hBackslash, Repair.mark]

theorem Reached.backslash (h : Reached (.string .plain :: outer) seen kept) :
    Reached (.string .escape :: outer) (seen ++ ['\\']) kept :=
  h.move rfl fun _ _ => rfl

theorem Reached.escaped (h : Reached (.string .escape :: outer) seen kept)
    (hEscape : c ∈ ['"', '\\', '/', 'b', 'f', 'n', 'r', 't']) :
    Reached (.string .plain :: outer) (seen ++ [c]) (seen ++ [c]) := by
  simp only [List.mem_cons, List.not_mem_nil, or_false] at hEscape
  rcases hEscape with rfl | rfl | rfl | rfl | rfl | rfl | rfl | rfl <;> exact h.moveMark rfl fun _ _ => rfl

theorem Reached.unicode (h : Reached (.string .escape :: outer) seen kept) :
    Reached (.string (.unicodeEscape 0) :: outer) (seen ++ ['u']) kept :=
  h.move rfl fun _ _ => rfl

theorem Reached.hexDigit {digits : Nat} (h : Reached (.string (.unicodeEscape digits) :: outer) seen kept)
    (hHex : isHexDigit c = true) (hMore : digits ≠ 3) :
    Reached (.string (.unicodeEscape (digits + 1)) :: outer) (seen ++ [c]) kept := by
  refine h.move (lenUtf16_hexDigit hHex) fun n i => ?_
  simp only [Repair.step, Repair.stepString, if_pos hHex, if_neg hMore]

theorem Reached.lastHexDigit (h : Reached (.string (.unicodeEscape 3) :: outer) seen kept)
    (hHex : isHexDigit c = true) : Reached (.string .plain :: outer) (seen ++ [c]) (seen ++ [c]) := by
  refine h.moveMark (lenUtf16_hexDigit hHex) fun n i => ?_
  simp only [Repair.step, Repair.stepString, if_pos hHex, if_true, Repair.mark]

theorem Reached.body {body : List Char} (h : Reached (.string .plain :: outer) seen seen) (hBody : Body body) :
    Reached (.string .plain :: outer) (seen ++ body) (seen ++ body) := by
  induction hBody generalizing seen with
  | nil => rwa [List.append_nil]
  | plain hQuote hBackslash _ _ ih =>
    rw [List.append_cons]
    exact ih (h.plain hQuote hBackslash)
  | escape hEscape _ ih =>
    rw [List.append_cons, List.append_cons]
    exact ih (h.backslash.escaped hEscape)
  | unicode hA hB hC hD _ ih =>
    have hFirst := (h.backslash.unicode.hexDigit hA (by decide)).hexDigit hB (by decide)
    rw [List.append_cons, List.append_cons, List.append_cons, List.append_cons, List.append_cons, List.append_cons]
    exact ih ((hFirst.hexDigit hC (by decide)).lastHexDigit hD)

/-- What is kept of a string ends before an escape that is cut. -/
theorem Reached.bodyCut {body q : List Char} (h : Reached (.string .plain :: outer) seen seen) (hBody : Body body)
    (hPrefix : q <+: body) :
    ∃ pos k, Reached (.string pos :: outer) (seen ++ q) (seen ++ k) ∧ Body k := by
  have hStop {seen : List Char} {pos : StringPos} {r : List Char}
      (hReached : Reached (.string pos :: outer) (seen ++ r) seen) :
      ∃ pos k, Reached (.string pos :: outer) (seen ++ r) (seen ++ k) ∧ Body k := by
    refine ⟨pos, [], ?_, .nil⟩
    rwa [List.append_nil]
  induction hBody generalizing seen q with
  | nil =>
    rw [List.prefix_nil.mp hPrefix]
    exact hStop (by rwa [List.append_nil])
  | @plain c cs hQuote hBackslash hControl hRest ih =>
    rcases List.prefix_cons_iff.mp hPrefix with rfl | ⟨r, rfl, hMore⟩
    · exact hStop (by rwa [List.append_nil])
    obtain ⟨pos, k, hReached, hKept⟩ := ih (h.plain hQuote hBackslash) hMore
    simp only [List.append_assoc, List.cons_append, List.nil_append] at hReached
    exact ⟨pos, c :: k, hReached, .plain hQuote hBackslash hControl hKept⟩
  | @escape c cs hEscape hRest ih =>
    rcases List.prefix_cons_iff.mp hPrefix with rfl | ⟨q, rfl, hAfter⟩
    · exact hStop (by rwa [List.append_nil])
    rcases List.prefix_cons_iff.mp hAfter with rfl | ⟨q, rfl, hMore⟩
    · exact hStop h.backslash
    obtain ⟨pos, k, hReached, hKept⟩ := ih (h.backslash.escaped hEscape) hMore
    simp only [List.append_assoc, List.cons_append, List.nil_append] at hReached
    exact ⟨pos, '\\' :: c :: k, hReached, .escape hEscape hKept⟩
  | @unicode a b c d cs hA hB hC hD hRest ih =>
    rcases List.prefix_cons_iff.mp hPrefix with rfl | ⟨q, rfl, hAfter⟩
    · exact hStop (by rwa [List.append_nil])
    have hBackslash := h.backslash
    rcases List.prefix_cons_iff.mp hAfter with rfl | ⟨q, rfl, hAfterU⟩
    · exact hStop hBackslash
    have hUnicode := hBackslash.unicode
    rcases List.prefix_cons_iff.mp hAfterU with rfl | ⟨q, rfl, hAfterA⟩
    · simp only [List.append_assoc, List.cons_append, List.nil_append] at hUnicode
      exact hStop hUnicode
    have hFirst := hUnicode.hexDigit hA (by decide)
    rcases List.prefix_cons_iff.mp hAfterA with rfl | ⟨q, rfl, hAfterB⟩
    · simp only [List.append_assoc, List.cons_append, List.nil_append] at hFirst
      exact hStop hFirst
    have hSecond := hFirst.hexDigit hB (by decide)
    rcases List.prefix_cons_iff.mp hAfterB with rfl | ⟨q, rfl, hAfterC⟩
    · simp only [List.append_assoc, List.cons_append, List.nil_append] at hSecond
      exact hStop hSecond
    have hThird := hSecond.hexDigit hC (by decide)
    rcases List.prefix_cons_iff.mp hAfterC with rfl | ⟨q, rfl, hMore⟩
    · simp only [List.append_assoc, List.cons_append, List.nil_append] at hThird
      exact hStop hThird
    obtain ⟨pos, k, hReached, hKept⟩ := ih (hThird.lastHexDigit hD) hMore
    simp only [List.append_assoc, List.cons_append, List.nil_append] at hReached
    exact ⟨pos, '\\' :: 'u' :: a :: b :: c :: d :: k, hReached, .unicode hA hB hC hD hKept⟩

end

/-! ## Names -/

/-- No colon comes after a quote, which only an escape can put there. -/
def PlainName (name : List Char) : Prop := ':' ∉ name.dropWhile (· ≠ '"')

abbrev PlainValue : List Char → Prop := Value PlainName

abbrev PlainElements : List Char → Prop := Elements PlainName

abbrev PlainMembers : List Char → Prop := Members PlainName

section

variable {outer : List Frame} {seen kept : List Char}

theorem isSpace_cases {c : Char} (h : isSpace c = true) : c = ' ' ∨ c = '\t' ∨ c = '\n' ∨ c = '\r' := by
  simp only [isSpace, Bool.or_eq_true, decide_eq_true_eq, or_assoc] at h
  exact h

theorem Reached.objectSpaces {pos : ObjectPos} (h : Reached (.object pos :: outer) seen kept) {ws : List Char}
    (hSpaces : Spaces ws) : Reached (.object pos :: outer) (seen ++ ws) kept := by
  refine h.stays fun c hC n i => ?_
  rcases isSpace_cases (hSpaces c hC) with rfl | rfl | rfl | rfl <;> cases pos <;> rfl

theorem Reached.keyEnd (h : Reached (.object .key :: outer) seen kept) :
    Reached (.object .afterKey :: outer) (seen ++ ['"']) kept :=
  h.move rfl fun _ _ => rfl

theorem Reached.keyMore {c : Char} (h : Reached (.object .key :: outer) seen kept) (hQuote : c ≠ '"') :
    Reached (.object .key :: outer) (seen ++ [c]) kept := by
  refine h.stay fun n i => ?_
  simp only [Repair.step, Repair.stepObject, if_neg hQuote]

theorem Reached.afterKey {cs : List Char} (h : Reached (.object .afterKey :: outer) seen kept) (hColon : ':' ∉ cs) :
    Reached (.object .afterKey :: outer) (seen ++ cs) kept := by
  refine h.stays fun c hC n i => ?_
  have hNe : c ≠ ':' := fun hEq => hColon (hEq ▸ hC)
  simp only [Repair.step, Repair.stepObject, if_neg hNe]

theorem Reached.name {name : List Char} (h : Reached (.object .key :: outer) seen kept) (hName : PlainName name) :
    Reached (.object .afterKey :: outer) (seen ++ (name ++ ['"'])) kept ∧
      ∀ q, q <+: name ++ ['"'] → ∃ pos, Reached (.object pos :: outer) (seen ++ q) kept := by
  induction name generalizing seen with
  | nil =>
    refine ⟨h.keyEnd, fun q hPrefix => ?_⟩
    rcases List.prefix_cons_iff.mp hPrefix with rfl | ⟨r, rfl, hRest⟩
    · exact ⟨.key, by rwa [List.append_nil]⟩
    · rw [List.prefix_nil.mp hRest]
      exact ⟨.afterKey, h.keyEnd⟩
  | cons c name ih =>
    by_cases hQuote : c = '"'
    · -- the source takes an escaped quote for the end of the name
      subst hQuote
      have hColon : ':' ∉ name ++ ['"'] := by
        intro hMem
        rcases List.mem_append.mp hMem with hRest | hLast
        · exact hName (List.mem_cons_of_mem _ hRest)
        · exact absurd hLast (by decide)
      refine ⟨?_, fun q hPrefix => ?_⟩
      · rw [List.cons_append, List.append_cons]
        exact h.keyEnd.afterKey hColon
      · rcases List.prefix_cons_iff.mp hPrefix with rfl | ⟨r, rfl, hRest⟩
        · exact ⟨.key, by rwa [List.append_nil]⟩
        · rw [List.append_cons]
          exact ⟨.afterKey, h.keyEnd.afterKey fun hMem => hColon (hRest.subset hMem)⟩
    · have hRestName : PlainName name := by
        have hDrop : (c :: name).dropWhile (· ≠ '"') = name.dropWhile (· ≠ '"') :=
          List.dropWhile_cons_of_pos (decide_eq_true hQuote)
        rwa [PlainName, hDrop] at hName
      obtain ⟨hWhole, hCuts⟩ := ih (h.keyMore hQuote) hRestName
      refine ⟨?_, fun q hPrefix => ?_⟩
      · rw [List.cons_append, List.append_cons]
        exact hWhole
      · rcases List.prefix_cons_iff.mp hPrefix with rfl | ⟨r, rfl, hRest⟩
        · exact ⟨.key, by rwa [List.append_nil]⟩
        · rw [List.append_cons]
          exact hCuts r hRest

/-! ## After a value -/

/-- What a value that is read to its end may leave open. -/
def Finished (frames : List Frame) : Prop := frames = [] ∨ frames = [.number] ∨ frames = [.literal []]

theorem Finished.closing {frames : List Frame} (h : Finished frames) : frames.flatMap Frame.closing = [] := by
  rcases h with rfl | rfl | rfl <;> rfl

variable {frames ctx : List Frame} {ws : List Char}

theorem Finished.arrayComma (hFrames : Finished frames) (h : Reached (frames ++ .array .afterValue :: ctx) seen kept) :
    Reached (.array .afterComma :: ctx) (seen ++ [',']) kept := by
  rcases hFrames with rfl | rfl | rfl <;> exact h.move rfl fun _ _ => rfl

theorem Finished.arrayClose (hFrames : Finished frames) (h : Reached (frames ++ .array .afterValue :: ctx) seen kept) :
    Reached ctx (seen ++ [']']) (seen ++ [']']) := by
  rcases hFrames with rfl | rfl | rfl <;> exact h.moveMark rfl fun _ _ => rfl

theorem Finished.objectComma (hFrames : Finished frames)
    (h : Reached (frames ++ .object .afterValue :: ctx) seen kept) :
    Reached (.object .afterComma :: ctx) (seen ++ [',']) kept := by
  rcases hFrames with rfl | rfl | rfl <;> exact h.move rfl fun _ _ => rfl

theorem Finished.objectClose (hFrames : Finished frames)
    (h : Reached (frames ++ .object .afterValue :: ctx) seen kept) :
    Reached ctx (seen ++ ['\x7d']) (seen ++ ['\x7d']) := by
  rcases hFrames with rfl | rfl | rfl <;> exact h.moveMark rfl fun _ _ => rfl

/-- Where a value may end. -/
inductive After : List Frame → Prop
  | root : After []
  | object (ctx : List Frame) : After (.object .afterValue :: ctx)
  | array (ctx : List Frame) : After (.array .afterValue :: ctx)

/-- A space ends a number or a literal and does nothing else. -/
theorem Finished.space {c : Char} (hFrames : Finished frames) (hSome : frames ≠ []) (hAfter : After outer)
    (hSpace : isSpace c = true) (h : Reached (frames ++ outer) seen kept) : Reached outer (seen ++ [c]) kept := by
  rcases isSpace_cases hSpace with rfl | rfl | rfl | rfl <;> cases hAfter <;>
    (rcases hFrames with rfl | rfl | rfl
     · exact absurd rfl hSome
     · exact h.move rfl fun _ _ => rfl
     · exact h.move rfl fun _ _ => rfl)

theorem Finished.objectSpaces (hFrames : Finished frames) (hSpaces : Spaces ws)
    (h : Reached (frames ++ .object .afterValue :: ctx) seen kept) :
    ∃ rest, Finished rest ∧ Reached (rest ++ .object .afterValue :: ctx) (seen ++ ws) kept := by
  by_cases hNone : frames = []
  · subst hNone
    exact ⟨[], hFrames, h.objectSpaces hSpaces⟩
  cases ws with
  | nil => exact ⟨frames, hFrames, by rwa [List.append_nil]⟩
  | cons c ws =>
    have hNext := hFrames.space hNone (.object ctx) (hSpaces c List.mem_cons_self) h
    refine ⟨[], .inl rfl, ?_⟩
    rw [List.append_cons seen]
    exact hNext.objectSpaces fun d hD => hSpaces d (List.mem_cons_of_mem c hD)

theorem Reached.arraySpaces (h : Reached (.array .afterValue :: ctx) seen kept) (hSpaces : Spaces ws) :
    Reached (.array .afterValue :: ctx) (seen ++ ws) (if ws = [] then kept else seen ++ ws) := by
  refine h.marks fun c hC n i => ?_
  rcases isSpace_cases (hSpaces c hC) with rfl | rfl | rfl | rfl <;> rfl

theorem Finished.arraySpaces (hFrames : Finished frames) (hSpaces : Spaces ws)
    (h : Reached (frames ++ .array .afterValue :: ctx) seen kept) :
    ∃ rest k, Finished rest ∧ Reached (rest ++ .array .afterValue :: ctx) (seen ++ ws) k ∧
      (k = kept ∨ k = seen ++ ws) := by
  have hMarked {seen ws : List Char} (hSpaces : Spaces ws) (h : Reached (.array .afterValue :: ctx) seen kept) :
      ∃ rest k, Finished rest ∧ Reached (rest ++ .array .afterValue :: ctx) (seen ++ ws) k ∧
        (k = kept ∨ k = seen ++ ws) := by
    refine ⟨[], _, .inl rfl, h.arraySpaces hSpaces, ?_⟩
    split
    · exact .inl rfl
    · exact .inr rfl
  by_cases hNone : frames = []
  · subst hNone
    exact hMarked hSpaces h
  cases ws with
  | nil => exact ⟨frames, kept, hFrames, by rwa [List.append_nil], .inl rfl⟩
  | cons c ws =>
    have hNext := hFrames.space hNone (.array ctx) (hSpaces c List.mem_cons_self) h
    rw [List.append_cons seen]
    exact hMarked (fun d hD => hSpaces d (List.mem_cons_of_mem c hD)) hNext

theorem Finished.rootSpaces (hFrames : Finished frames) (hSpaces : Spaces ws) (h : Reached frames seen kept) :
    ∃ rest, Finished rest ∧ Reached rest (seen ++ ws) kept := by
  by_cases hNone : frames = []
  · subst hNone
    exact ⟨[], hFrames, h.closed ws⟩
  cases ws with
  | nil => exact ⟨frames, hFrames, by rwa [List.append_nil]⟩
  | cons c ws =>
    rw [← List.append_nil frames] at h
    have hNext := hFrames.space hNone .root (hSpaces c List.mem_cons_self) h
    refine ⟨[], .inl rfl, ?_⟩
    rw [List.append_cons]
    exact hNext.closed ws

end

end Aimux.Core.JsonRepair
