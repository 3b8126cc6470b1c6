import Aimux.Google.Growth
import Aimux.Google.PathText

/-! # The text of delivered arguments

An object comes leaf by leaf in document order, its strings in chunks, the leaves in any batches. What the
accumulator writes of it, with what `finalize` adds, is the text of the object.
-/

namespace Aimux.Google

open Aimux.Core
open Aimux.Http (byteLength)

/-! ## Leaves in document order -/

/-- A partial argument before its path is written. -/
structure Leaf where
  path : List Segment
  stringValue : Option String := none
  numberValue : Option (BitVec 64) := none
  boolValue : Option Bool := none
  nullValue : Option Unit := none
  willContinue : Option Bool := none

def Leaf.arg (leaf : Leaf) : PartialArg where
  jsonPath := renderPath leaf.path
  stringValue := leaf.stringValue
  numberValue := leaf.numberValue
  boolValue := leaf.boolValue
  nullValue := leaf.nullValue
  willContinue := leaf.willContinue

def chunkLeaf (path : List Segment) (chunk : String × Option Bool) : Leaf where
  path := path
  stringValue := some chunk.1
  willContinue := chunk.2

mutual

/-- The leaves of a value that stands at the path. -/
inductive Delivers : List Segment → Json → List Leaf → Prop
  | null {path : List Segment} : Delivers path .null [{ path, nullValue := some () }]
  | bool {path : List Segment} {flag : Bool} : Delivers path (.bool flag) [{ path, boolValue := some flag }]
  | number {path : List Segment} {bits : BitVec 64} {number : JsonNumber}
      (hNumber : numberJson bits = .number number) :
      Delivers path (.number number) [{ path, numberValue := some bits }]
  | string {path : List Segment} {chunk : String × Option Bool} {more : List (String × Option Bool)}
      (hContinues : more ≠ [] → chunk.2 = some true) :
      Delivers path (.string (chunk.1 ++ String.join (more.map (·.1)))) ((chunk :: more).map (chunkLeaf path))
  | array {path : List Segment} {items : List Json} {leaves : List Leaf} (hSome : items ≠ [])
      (hItems : DeliversItems path 0 items leaves) : Delivers path (.array items) leaves
  | object {path : List Segment} {fields : List (String × Json)} {leaves : List Leaf} (hSome : fields ≠ [])
      (hFields : DeliversFields path fields leaves) : Delivers path (.object fields) leaves

/-- The items from the index on. -/
inductive DeliversItems : List Segment → Nat → List Json → List Leaf → Prop
  | nil {path : List Segment} {index : Nat} : DeliversItems path index [] []
  | cons {path : List Segment} {index : Nat} {item : Json} {items : List Json} {leaves more : List Leaf}
      (hItem : Delivers (path ++ [Segment.index index]) item leaves)
      (hItems : DeliversItems path (index + 1) items more) :
      DeliversItems path index (item :: items) (leaves ++ more)

/-- The fields of an object, which has a key once. -/
inductive DeliversFields : List Segment → List (String × Json) → List Leaf → Prop
  | nil {path : List Segment} : DeliversFields path [] []
  | cons {path : List Segment} {name : String} {value : Json} {fields : List (String × Json)}
      {leaves more : List Leaf} (hNew : name ∉ fields.map (·.1))
      (hValue : Delivers (path ++ [Segment.key name]) value leaves) (hFields : DeliversFields path fields more) :
      DeliversFields path ((name, value) :: fields) (leaves ++ more)

end

/-! ## One argument -/

variable {shown : Shown}

/-- What is written and what is open, but for the quote of a string, are the text and the open end of the
value. -/
structure Written (shown : Shown) (acc : GoogleJsonAccumulator) (text : List Char) (value : Json) : Prop where
  accumulated : acc.accumulated = value
  object : ∃ fields, value = .object fields
  opened : ∃ stack opened, Open shown.number .root value stack opened ∧
    (ensureRoot acc.pathStack).1 = stack.reverse ∧
    text ++ acc.quote ++ (ensureRoot acc.pathStack).2 = opened

variable (shown) in
theorem written_new : Written shown {} [] (.object []) where
  accumulated := rfl
  object := ⟨[], rfl⟩
  opened := ⟨[rootEntry], ['\x7b'], .object (by simp), rfl, rfl⟩

variable {container : List Segment} {grown : Json → Json}

theorem Grows.ofObject {leaf : Segment} {fields : List (String × Json)}
    (h : Grows leaf (.object fields) container grown) :
    (∃ name rest, container ++ [leaf] = .key name :: rest) ∧ ∀ new, ∃ fields, grown new = .object fields := by
  cases h with
  | key hLeaf _ => exact ⟨⟨_, [], by rw [hLeaf, List.nil_append]⟩, fun _ => ⟨_, rfl⟩⟩
  | newKey _ _ => exact ⟨⟨_, _, rfl⟩, fun _ => ⟨_, rfl⟩⟩
  | lastKey _ _ _ => exact ⟨⟨_, _, rfl⟩, fun _ => ⟨_, rfl⟩⟩

/-- The argument's path is read, and below the caps. -/
structure LeadsTo (arg : PartialArg) (path : List Segment) : Prop where
  raw : rawPath arg.jsonPath ≠ []
  segments : parsePath (rawPath arg.jsonPath) = path
  some : path ≠ []
  depth : path.length ≤ MAX_PARTIAL_ARG_DEPTH
  index : path.findSome? oversized = none

variable {arg : PartialArg}

theorem Grows.leadsTo {leaf : Segment} {fields : List (String × Json)}
    (h : Grows leaf (.object fields) container grown) (hArg : arg.jsonPath = renderPath (container ++ [leaf]))
    (hPath : Addressable (container ++ [leaf])) : LeadsTo arg (container ++ [leaf]) := by
  obtain ⟨name, rest, hKey⟩ := h.ofObject.1
  have hRoot := h.path
  rw [hKey] at hArg hPath hRoot ⊢
  obtain ⟨hRaw, hSegments⟩ := hPath.parsePath fun hMem => hRoot (List.mem_cons_of_mem _ hMem)
  refine ⟨hArg ▸ hRaw, hArg ▸ hSegments, List.cons_ne_nil _ _, hPath.depth, ?_⟩
  rw [List.findSome?_eq_none_iff]
  intro segment hMem
  cases segment with
  | index i => exact if_neg (Nat.not_lt.mpr (hPath.index i hMem))
  | _ => rfl

theorem setNestedValue_leads {path : List Segment} (hPath : LeadsTo arg path) (current value : Json) :
    setNestedValue shown current path value = setSegments shown value path current := by
  rw [setNestedValue, if_neg (Nat.not_lt.mpr hPath.depth), hPath.index]

variable {self : GoogleJsonAccumulator} {text : List Char}

/-- The argument of a leaf is written behind what was written; another leaf in its place would have been too. -/
theorem Written.put {value : Json} (h : Written shown self text value) {leaf : Segment}
    (hGrows : Grows leaf value container grown) (hPath : LeadsTo arg (container ++ [leaf])) {new : Json}
    {valueJson written : List Char} (hResolve : arg.resolve shown = some (new, valueJson))
    (hWritten : arg.written valueJson = some written) :
    ∃ next fragment before stack,
      processArg shown self arg = some (.ok (next, fragment)) ∧
      next.accumulated = grown new ∧ next.jsonText = self.jsonText ∧ next.stringOpen = arg.continues ∧
      ensureRoot next.pathStack = (stack.reverse, []) ∧ text ++ fragment = before ++ written ∧
      ∀ other, IsLeaf other →
        Open shown.number .root (grown other) stack (before ++ writeJson shown.number other) := by
  obtain ⟨stack, opened, hOpen, hStack, hOpened⟩ := h.opened
  have hSome : stack ≠ [] := by
    rintro rfl
    exact ensureRoot_ne_nil _ hStack
  have hPlaced : (place leaf stack container).1.reverse ≠ [] := by
    have hHead := (hGrows.open hOpen (show IsLeaf .null from trivial)).head
    intro hNil
    rw [List.reverse_eq_nil_iff.mp hNil] at hHead
    cases hHead
  have hNone : getNestedValue self.accumulated (container ++ [leaf]) = none := by
    rw [h.accumulated]
    exact (getNestedValue_of_grows hGrows).1
  have hSet : setNestedValue shown self.accumulated (container ++ [leaf]) new = .ok (grown new) := by
    rw [setNestedValue_leads hPath, h.accumulated]
    exact (setSegments_of_grows hGrows new).1
  have hEmit := emitNavigationTo_eq { self with accumulated := grown new } hSome hStack container leaf
    arg hWritten
  refine ⟨{ self with
      accumulated := grown new
      pathStack := (place leaf stack container).1.reverse
      stringOpen := arg.continues },
    self.quote ++ (ensureRoot self.pathStack).2 ++ (place leaf stack container).2 ++ written,
    opened ++ (place leaf stack container).2, (place leaf stack container).1, ?_, rfl, rfl, rfl, ?_, ?_,
    fun other hOther => hGrows.open hOpen hOther⟩
  · simp only [processArg, hPath.segments]
    rw [if_neg (not_or.mpr ⟨hPath.raw, hPath.some⟩), hNone]
    cases arg.stringValue
    all_goals
      simp only [hResolve, hSet, hEmit, Option.map_some]
      rfl
  · rw [ensureRoot, if_neg hPlaced]
  · rw [← hOpened]
    simp only [GoogleJsonAccumulator.quote, List.append_assoc]

/-! ## One value -/

theorem processArgs_append {args more : List PartialArg} {self next last : GoogleJsonAccumulator}
    {delta rest : List Char} (hArgs : processArgs shown args self = some (next, .ok delta))
    (hMore : processArgs shown more next = some (last, .ok rest)) :
    processArgs shown (args ++ more) self = some (last, .ok (delta ++ rest)) := by
  induction args generalizing self delta with
  | nil =>
    cases hArgs
    exact hMore
  | cons arg args ih =>
    rw [processArgs, Option.bind_eq_bind, Option.bind_eq_some_iff] at hArgs
    obtain ⟨result, hArg, hResult⟩ := hArgs
    cases result with
    | error error => cases hResult
    | ok done =>
      obtain ⟨⟨middle, tail⟩, hTail, hDelta⟩ := Option.bind_eq_some_iff.mp hResult
      cases tail with
      | error error => cases hDelta
      | ok tail =>
        cases hDelta
        rw [List.cons_append, processArgs, hArg]
        simp [ih hTail, Except.map]

theorem processArgs_singleton {self next : GoogleJsonAccumulator} {fragment : List Char}
    (hArg : processArg shown self arg = some (.ok (next, fragment))) :
    processArgs shown [arg] self = some (next, .ok fragment) := by
  simp [processArgs, hArg, Except.map]

/-- What a value's arguments do where the value is the next one. -/
def Puts (shown : Shown) (args : List PartialArg) (self : GoogleJsonAccumulator) (text : List Char)
    (value : Json) : Prop :=
  ∃ next delta, processArgs shown args self = some (next, .ok delta) ∧ next.jsonText = self.jsonText ∧
    Written shown next (text ++ delta) value

theorem Puts.append {args more : List PartialArg} {value last : Json} (h : Puts shown args self text value)
    (hMore : ∀ next text, Written shown next text value → Puts shown more next text last) :
    Puts shown (args ++ more) self text last := by
  obtain ⟨next, delta, hArgs, hText, hWritten⟩ := h
  obtain ⟨final, rest, hRest, hFinal, hLast⟩ := hMore next _ hWritten
  refine ⟨final, delta ++ rest, processArgs_append hArgs hRest, hFinal.trans hText, ?_⟩
  rwa [← List.append_assoc]

theorem puts_nil {value : Json} (h : Written shown self text value) : Puts shown [] self text value :=
  ⟨self, [], rfl, rfl, by rwa [List.append_nil]⟩

section

variable {self : GoogleJsonAccumulator} {text : List Char} {value : Json} {leaf : Segment}
  {container : List Segment} {grown : Json → Json}

/-- Of a leaf that no more comes of. -/
theorem Written.putAll (h : Written shown self text value) (hGrows : Grows leaf value container grown)
    (hPath : LeadsTo arg (container ++ [leaf])) (new : Json) (hLeaf : IsLeaf new)
    (hResolve : arg.resolve shown = some (new, writeJson shown.number new)) (hDone : arg.continues = false) :
    Puts shown [arg] self text (grown new) := by
  obtain ⟨fields, rfl⟩ := h.object
  have hWhole : arg.written (writeJson shown.number new) = some (writeJson shown.number new) := by
    rw [PartialArg.written, hDone]
    rfl
  obtain ⟨next, fragment, before, stack, hArg, hValue, hText, hQuote, hRoot, hBefore, hOpen⟩ :=
    h.put hGrows hPath hResolve hWhole
  refine ⟨next, fragment, processArgs_singleton hArg, hText, hValue, hGrows.ofObject.2 new, stack, _,
    hOpen new hLeaf, by rw [hRoot], ?_⟩
  rw [hRoot, GoogleJsonAccumulator.quote, hQuote, hDone, hBefore]
  simp

/-- A string of which more has come is open, with as much of it written. -/
structure Continued (shown : Shown) (grown : Json → Json) (before : List Char) (stack : List StackEntry)
    (acc : GoogleJsonAccumulator) (text : List Char) (read : String) : Prop where
  accumulated : acc.accumulated = grown (.string read)
  quote : acc.stringOpen = true
  root : ensureRoot acc.pathStack = (stack.reverse, [])
  written : text = before ++ '"' :: escape read.toList

theorem Continued.chunks {before : List Char} {stack : List StackEntry} {read : String}
    (h : Continued shown grown before stack self text read) (hGrows : Grows leaf value container grown)
    (more : List (String × Option Bool))
    (hPath : ∀ chunk ∈ more, LeadsTo (chunkLeaf (container ++ [leaf]) chunk).arg (container ++ [leaf])) :
    ∃ next delta,
      processArgs shown (more.map fun chunk => (chunkLeaf (container ++ [leaf]) chunk).arg) self =
        some (next, .ok delta) ∧
      next.jsonText = self.jsonText ∧
      Continued shown grown before stack next (text ++ delta) (read ++ String.join (more.map (·.1))) := by
  induction more generalizing self text read with
  | nil =>
    refine ⟨self, [], rfl, rfl, ?_⟩
    simpa using h
  | cons chunk more ih =>
    have hLeads := hPath chunk List.mem_cons_self
    have hExisting : getNestedValue self.accumulated (container ++ [leaf]) = some (.string read) := by
      rw [h.accumulated]
      exact (getNestedValue_of_grows hGrows).2 _
    have hSet : setNestedValue shown self.accumulated (container ++ [leaf]) (.string (read ++ chunk.1)) =
        .ok (grown (.string (read ++ chunk.1))) := by
      rw [setNestedValue_leads hLeads, h.accumulated]
      exact (setSegments_of_grows hGrows _).2 _
    have hArg : processArg shown self (chunkLeaf (container ++ [leaf]) chunk).arg =
        some (.ok ({ self with accumulated := grown (.string (read ++ chunk.1)) }, escape chunk.1.toList)) := by
      simp only [processArg, hLeads.segments]
      rw [if_neg (not_or.mpr ⟨hLeads.raw, hLeads.some⟩), hExisting]
      simp [chunkLeaf, Leaf.arg, hSet, Except.map]
    have hNext : Continued shown grown before stack { self with accumulated := grown (.string (read ++ chunk.1)) }
        (text ++ escape chunk.1.toList) (read ++ chunk.1) :=
      ⟨rfl, h.quote, h.root, by rw [h.written, String.toList_append, escape_append]; simp⟩
    obtain ⟨next, delta, hMore, hText, hLast⟩ :=
      ih hNext fun other hMem => hPath other (List.mem_cons_of_mem _ hMem)
    refine ⟨next, escape chunk.1.toList ++ delta, processArgs_append (processArgs_singleton hArg) hMore, hText, ?_⟩
    have hRead : read ++ String.join ((chunk :: more).map (·.1)) =
        read ++ chunk.1 ++ String.join (more.map (·.1)) := by
      simp [String.append_assoc]
    rwa [hRead, ← List.append_assoc]

theorem Written.putString (h : Written shown self text value) (hGrows : Grows leaf value container grown)
    (chunk : String × Option Bool) (more : List (String × Option Bool))
    (hPath : ∀ other ∈ chunk :: more, LeadsTo (chunkLeaf (container ++ [leaf]) other).arg (container ++ [leaf]))
    (hContinues : more ≠ [] → chunk.2 = some true) :
    Puts shown ((chunk :: more).map fun chunk => (chunkLeaf (container ++ [leaf]) chunk).arg) self text
      (grown (.string (chunk.1 ++ String.join (more.map (·.1))))) := by
  obtain ⟨fields, rfl⟩ := h.object
  have hLeads := hPath chunk List.mem_cons_self
  have hResolve : (chunkLeaf (container ++ [leaf]) chunk).arg.resolve shown =
      some (.string chunk.1, stringText chunk.1) := rfl
  have hFlag : (chunkLeaf (container ++ [leaf]) chunk).arg.continues = decide (chunk.2 = some true) := rfl
  by_cases hOpen : chunk.2 = some true
  · have hWritten : (chunkLeaf (container ++ [leaf]) chunk).arg.written (stringText chunk.1) =
        some ('"' :: escape chunk.1.toList) := by
      rw [PartialArg.written, hFlag, if_pos (decide_eq_true hOpen), withoutQuote_stringText]
    obtain ⟨first, fragment, before, stack, hArg, hValue, hText, hQuote, hRoot, hBefore, hEnd⟩ :=
      h.put hGrows hLeads hResolve hWritten
    have hContinued : Continued shown grown before stack first (text ++ fragment) chunk.1 :=
      ⟨hValue, by rw [hQuote, hFlag, decide_eq_true hOpen], hRoot, hBefore⟩
    obtain ⟨next, delta, hMore, hNext, hLast⟩ :=
      hContinued.chunks hGrows more fun other hMem => hPath other (List.mem_cons_of_mem _ hMem)
    refine ⟨next, fragment ++ delta, processArgs_append (processArgs_singleton hArg) hMore, hNext.trans hText,
      hLast.accumulated, hGrows.ofObject.2 _, stack, _, hEnd _ trivial, by rw [hLast.root], ?_⟩
    rw [← List.append_assoc, hLast.written, hLast.root, GoogleJsonAccumulator.quote, hLast.quote, writeJson, stringText]
    simp
  · obtain rfl : more = [] := by
      by_contra hMore
      exact hOpen (hContinues hMore)
    have hWhole := h.putAll hGrows hLeads (.string chunk.1) trivial hResolve (by rw [hFlag, decide_eq_false hOpen])
    simpa using hWhole

end

mutual

/-- By recursion on how the value is delivered. -/
theorem Delivers.puts {path : List Segment} {new : Json} {leaves : List Leaf} (hDelivers : Delivers path new leaves)
    (hPaths : ∀ leaf ∈ leaves, Addressable leaf.path) {self : GoogleJsonAccumulator} {text : List Char}
    {value : Json} (h : Written shown self text value) {leaf : Segment} {container : List Segment}
    {grown : Json → Json} (hPath : path = container ++ [leaf]) (hGrows : Grows leaf value container grown) :
    Puts shown (leaves.map Leaf.arg) self text (grown new) := by
  subst hPath
  obtain ⟨fields, rfl⟩ := h.object
  cases hDelivers with
  | null => exact h.putAll hGrows (hGrows.leadsTo rfl (hPaths _ List.mem_cons_self)) _ trivial rfl rfl
  | bool =>
    exact h.putAll hGrows (hGrows.leadsTo rfl (hPaths _ List.mem_cons_self)) _ trivial rfl rfl
  | @number _ bits number hNumber =>
    refine h.putAll hGrows (hGrows.leadsTo rfl (hPaths _ List.mem_cons_self)) _ trivial ?_ rfl
    rw [← hNumber]
    rfl
  | @string _ chunk more hContinues =>
    have hChunks : ∀ other ∈ chunk :: more,
        LeadsTo (chunkLeaf (container ++ [leaf]) other).arg (container ++ [leaf]) := fun other hMem =>
      hGrows.leadsTo rfl (hPaths _ (List.mem_map_of_mem hMem))
    rw [List.map_map]
    exact h.putString hGrows chunk more hChunks hContinues
  | array hSome hItems =>
    refine DeliversItems.puts hItems hPaths h [] grown rfl (hGrows.first (.index rfl))
      (fun front => hGrows.next (.index rfl)) fun hNil => absurd hNil hSome
  | object hSome hFields =>
    refine DeliversFields.puts hFields hPaths h [] grown (fun name hNew => hGrows.first (.key rfl hNew))
      (fun front name hNew => hGrows.next (.key rfl hNew)) (fun name _ hMem => by cases hMem)
      fun hNil => absurd hNil hSome
termination_by sizeOf new

theorem DeliversItems.puts {path : List Segment} {index : Nat} {items : List Json} {leaves : List Leaf}
    (hDelivers : DeliversItems path index items leaves) (hPaths : ∀ leaf ∈ leaves, Addressable leaf.path)
    {self : GoogleJsonAccumulator} {text : List Char} {value : Json} (h : Written shown self text value)
    (front : List Json) (grown : Json → Json) (hIndex : index = front.length)
    (hFirst : Grows (.index front.length) value path fun new => grown (.array (front ++ [new])))
    (hLater : ∀ front, Grows (.index front.length) (grown (.array front)) path
      fun new => grown (.array (front ++ [new])))
    (hNone : items = [] → value = grown (.array front)) :
    Puts shown (leaves.map Leaf.arg) self text (grown (.array (front ++ items))) := by
  subst hIndex
  cases hDelivers with
  | nil =>
    rw [hNone rfl] at h
    rw [List.append_nil]
    exact puts_nil h
  | @cons _ _ item items leaves more hItem hItems =>
    rw [List.map_append]
    have hHead := hItem.puts (fun leaf hMem => hPaths leaf (List.mem_append_left _ hMem)) h rfl hFirst
    refine hHead.append fun next text hNext => ?_
    have hTail := hItems.puts (fun leaf hMem => hPaths leaf (List.mem_append_right _ hMem)) hNext
      (front ++ [item]) grown (by simp) (hLater _) hLater fun _ => rfl
    simpa using hTail
termination_by sizeOf items

theorem DeliversFields.puts {path : List Segment} {fields : List (String × Json)} {leaves : List Leaf}
    (hDelivers : DeliversFields path fields leaves) (hPaths : ∀ leaf ∈ leaves, Addressable leaf.path)
    {self : GoogleJsonAccumulator} {text : List Char} {value : Json} (h : Written shown self text value)
    (front : List (String × Json)) (grown : Json → Json)
    (hFirst : ∀ name, name ∉ front.map (·.1) →
      Grows (.key name) value path fun new => grown (.object (front ++ [(name, new)])))
    (hLater : ∀ front name, name ∉ front.map (·.1) →
      Grows (.key name) (grown (.object front)) path fun new => grown (.object (front ++ [(name, new)])))
    (hApart : ∀ name ∈ fields.map (·.1), name ∉ front.map (·.1))
    (hNone : fields = [] → value = grown (.object front)) :
    Puts shown (leaves.map Leaf.arg) self text (grown (.object (front ++ fields))) := by
  cases hDelivers with
  | nil =>
    rw [hNone rfl] at h
    rw [List.append_nil]
    exact puts_nil h
  | @cons _ name new fields leaves more hNew hValue hFields =>
    rw [List.map_append]
    have hHead := hValue.puts (fun leaf hMem => hPaths leaf (List.mem_append_left _ hMem)) h rfl
      (hFirst name (hApart name List.mem_cons_self))
    refine hHead.append fun next text hNext => ?_
    have hApart' : ∀ other ∈ fields.map (·.1), other ∉ (front ++ [(name, new)]).map (·.1) := by
      intro other hOther hMem
      rw [List.map_append, List.mem_append] at hMem
      rcases hMem with hMem | hMem
      · exact hApart other (List.mem_cons_of_mem _ hOther) hMem
      · obtain rfl : other = name := by simpa using hMem
        exact hNew hOther
    have hTail := hFields.puts (fun leaf hMem => hPaths leaf (List.mem_append_right _ hMem)) hNext
      (front ++ [(name, new)]) grown (fun other hOther => hLater _ other hOther) hLater hApart' fun _ => rfl
    simpa using hTail
termination_by sizeOf fields

end

end Aimux.Google
