import Aimux.Http.RedirectChain
import Aimux.Http.SigV4

/-! # Verifying a signed request

A verifier has nothing but the request that arrived. It reads the names of the signed headers off the
`authorization` header, builds the canonical request again from what it received, and from that the string
that must have been signed.
-/

namespace Aimux.Http

open Aimux.Core Aimux.Lib

/-! ## The verifier -/

/-- Two hexadecimal digits. -/
def hexNumber (high low : UInt8) : Option UInt8 :=
  match hexValue high, hexValue low with
  | some high, some low => some (high * 16 + low)
  | _, _ => none

def isBlank (c : Char) : Bool := c == ' ' || c == '\t'

/-- With runs of spaces made one. -/
def collapsed : List Char → List Char
  | [] => []
  | c :: rest => if c = ' ' ∧ rest.head? = some ' ' then collapsed rest else c :: collapsed rest

def normalized (value : String) : String :=
  String.ofList (collapsed ((value.toList.dropWhile isBlank).rdropWhile isBlank))

/-- The part between `SignedHeaders=` and the comma before the signature. -/
def signedHeaderNames (authorization : String) : List String :=
  let beforeSignature := (authorization.toList.rdropWhile (· ≠ ',')).dropLast
  ((beforeSignature.rtakeWhile (· ≠ '=')).splitOn ';').map String.ofList

section Verifier

variable {Url : Type} (crates : Crates Url) (digests : Digests)

def receivedValue (request : OutboundRequest Url) (name : String) : Option String :=
  (request.headers.lookup name).map fun value => normalized (fromUtf8Lossy value)

def rebuildCanonicalRequest (request : OutboundRequest Url) : Option String := do
  let authorization ← request.headers.lookup "authorization"
  let names := (signedHeaderNames (fromUtf8Lossy authorization)).insertionSort (· ≤ ·)
  let headers ← names.mapM fun name => (receivedValue request name).map fun value => (name, value)
  let payloadHash := (receivedValue request "x-amz-content-sha256").getD (hexEncode (digests.sha256 request.body))
  return canonicalRequestText request.method (canonicalUri (crates.path request.url))
    (canonicalQueryBy (decodeEscapes hexNumber) ((crates.query request.url).getD "")) headers payloadHash

/-- The verifier knows the region and the service that it stands for. -/
def rebuildStringToSign (region service : String) (request : OutboundRequest Url) : Option String := do
  let canonicalRequest ← rebuildCanonicalRequest crates digests request
  let amzDate ← receivedValue request "x-amz-date"
  let dateStamp := String.ofList (amzDate.toList.takeWhile (· ≠ 'T'))
  return stringToSignText digests amzDate (credentialScope dateStamp region service) canonicalRequest

/-- The verifier gets the canonical request that was signed, and with it the string to sign. -/
structure Verifies (region service : String) (forwarded : OutboundRequest Url) (signed : SignedRequest) :
    Prop where
  canonicalRequest : rebuildCanonicalRequest crates digests forwarded = some signed.canonicalRequest
  stringToSign : rebuildStringToSign crates digests region service forwarded = some signed.stringToSign

/-- What a decorator signs of a request. -/
def SigV4Fetch.signs (self : SigV4Fetch) (request : OutboundRequest Url) : Option SignedRequest := do
  let credentials ← self.credentials.toOption
  let extra ← (SigV4Fetch.extraHeaders self.signing request.headers).toOption
  signRequestWith crates digests credentials self.service request.method (crates.text request.url) request.body
    extra self.now self.signing

end Verifier

/-! ## What the requests are -/

def isTokenChar (c : Char) : Bool :=
  (48 ≤ c.toNat && c.toNat ≤ 57) || (65 ≤ c.toNat && c.toNat ≤ 90) || (97 ≤ c.toNat && c.toNat ≤ 122) ||
    "!#$%&'*+-.^_`|~".toList.contains c

/-- What the `url` and `http` crates promise to the signer. -/
structure SigningLaws {Url : Type} (crates : Crates Url) : Prop extends Lawful crates where
  headerName_token : ∀ name built, crates.headerName name = .ok built → ∀ c ∈ built.toList, isTokenChar c = true
  hostStr_visible : ∀ url host, crates.hostStr url = some host → ∀ c ∈ host.toList, isWhitespace c = false

/-- A header map with one value for every name. -/
structure SingleValued {Url : Type} (crates : Crates Url) (headers : List (String × List UInt8)) : Prop where
  names : ∀ header ∈ headers, crates.headerName header.1 = .ok header.1
  single : (headers.map (·.1)).Nodup

/-- No whitespace at an end, and none next to other whitespace. -/
structure Tidy (text : List Char) : Prop where
  first : ∀ c ∈ text.head?, isWhitespace c = false
  last : ∀ c ∈ text.getLast?, isWhitespace c = false
  single : text.IsChain fun c next => ¬ (isWhitespace c = true ∧ isWhitespace next = true)

/-- An escape that has a sign in the place of its first digit. -/
def isPlusEscape : List UInt8 → Bool
  | byte :: sign :: digit :: _ => byte == 37 && sign == 43 && (hexValue digit).isSome
  | _ => false

def hasPlusEscape (bytes : List UInt8) : Bool := bytes.tails.any isPlusEscape

/-! ## Values of headers -/

theorem isWhitespace_of_isBlank {c : Char} (h : isBlank c = true) : isWhitespace c = true := by
  simp only [isBlank, Bool.or_eq_true, beq_iff_eq] at h
  rcases h with rfl | rfl <;> rfl

theorem collapsed_single {text : List Char}
    (h : text.IsChain fun c next => ¬ (isWhitespace c = true ∧ isWhitespace next = true)) :
    collapsed text = text := by
  induction text with
  | nil => rfl
  | cons c rest ih =>
    rw [collapsed, if_neg, ih h.tail]
    rintro ⟨rfl, hNext⟩
    obtain ⟨next, others, rfl⟩ : ∃ next others, rest = next :: others := by
      cases rest with
      | nil => cases hNext
      | cons next others => exact ⟨next, others, rfl⟩
    obtain rfl := Option.some.inj hNext
    exact (List.isChain_cons_cons.mp h).1 ⟨rfl, rfl⟩

variable {value : String}

/-- The verifier leaves a tidy value as it is. -/
theorem normalized_tidy (h : Tidy value.toList) : normalized value = value := by
  have hFirst : value.toList.dropWhile isBlank = value.toList := by
    cases hChars : value.toList with
    | nil => rfl
    | cons c rest =>
      have hVisible := h.first c (by simp [hChars])
      rw [List.dropWhile_cons_of_neg]
      intro hBlank
      simp [isWhitespace_of_isBlank hBlank] at hVisible
  have hLast : value.toList.rdropWhile isBlank = value.toList := by
    rw [List.rdropWhile_eq_self_iff]
    intro hNonempty hBlank
    have hVisible := h.last _ (List.getLast?_eq_some_getLast hNonempty)
    simp [isWhitespace_of_isBlank hBlank] at hVisible
  rw [normalized, hFirst, hLast, collapsed_single h.single, String.ofList_toList]

theorem tidy_visible {text : List Char} (h : ∀ c ∈ text, isWhitespace c = false) : Tidy text where
  first := fun c hc => h c (List.mem_of_head? hc)
  last := fun c hc => h c (List.mem_of_getLast? hc)
  single := by
    refine List.Pairwise.isChain (List.pairwise_of_forall_mem_list ?_)
    intro c hc next _ hBoth
    simp [h c hc] at hBoth

/-- Words with one space between them. -/
theorem tidy_words {words : List (List Char)} (h : ∀ word ∈ words, word ≠ [] ∧ ∀ c ∈ word, isWhitespace c = false) :
    Tidy (List.intercalate [' '] words) := by
  induction words with
  | nil => exact tidy_visible nofun
  | cons word words ih =>
    obtain ⟨hNonempty, hVisible⟩ := h word (List.mem_cons_self ..)
    have hWord : Tidy word := tidy_visible hVisible
    have hRest := ih fun other hOther => h other (List.mem_cons_of_mem _ hOther)
    cases words with
    | nil => simpa using hWord
    | cons next words =>
      rw [List.intercalate_cons_cons, List.append_assoc, List.singleton_append]
      set tail := List.intercalate [' '] (next :: words) with hTail
      have hTailNonempty : tail ≠ [] := by
        obtain ⟨hNext, _⟩ := h next (by simp)
        rw [hTail]
        cases words <;> simp [hNext]
      refine ⟨?_, ?_, ?_⟩
      · intro c hc
        rw [List.head?_append_of_ne_nil _ hNonempty] at hc
        exact hWord.first c hc
      · intro c hc
        rw [List.getLast?_append_of_ne_nil _ (by simp), List.getLast?_cons_of_ne_nil hTailNonempty] at hc
        exact hRest.last c hc
      · refine List.isChain_append.mpr ⟨hWord.single, List.isChain_cons.mpr ⟨?_, hRest.single⟩, ?_⟩
        · rintro c hc ⟨_, hBoth⟩
          simp [hRest.first c hc] at hBoth
        · rintro c hc next hNext ⟨hBoth, _⟩
          simp [hWord.last c hc] at hBoth

theorem readWords_visible (text : List Char) : (∀ c ∈ (readWords text).1, isWhitespace c = false) ∧
      ∀ word ∈ (readWords text).2, word ≠ [] ∧ ∀ c ∈ word, isWhitespace c = false := by
  induction text with
  | nil => exact ⟨List.forall_mem_nil _, List.forall_mem_nil _⟩
  | cons c rest ih =>
    obtain ⟨hWord, hWords⟩ := ih
    rw [readWords]
    by_cases hSpace : isWhitespace c = true
    · simp only [hSpace, if_true]
      refine ⟨List.forall_mem_nil _, ?_⟩
      split
      · exact hWords
      · rename_i hNonempty
        exact List.forall_mem_cons.mpr ⟨⟨hNonempty, hWord⟩, hWords⟩
    · simp only [hSpace, Bool.false_eq_true, if_false]
      exact ⟨List.forall_mem_cons.mpr ⟨by simpa using hSpace, hWord⟩, hWords⟩

theorem tidy_canonicalHeaderValue (value : String) : Tidy (canonicalHeaderValue value).toList := by
  obtain ⟨hWord, hWords⟩ := readWords_visible value.toList
  have hAll : ∀ word ∈ splitWhitespace value.toList, word ≠ [] ∧ ∀ c ∈ word, isWhitespace c = false := by
    rw [splitWhitespace]
    dsimp only
    split
    · exact hWords
    · rename_i hNonempty
      exact List.forall_mem_cons.mpr ⟨⟨hNonempty, hWord⟩, hWords⟩
  have hChars : (canonicalHeaderValue value).toList = List.intercalate [' '] (splitWhitespace value.toList) := by
    rw [canonicalHeaderValue, String.toList_intercalate, List.map_map]
    have hBack : (String.toList ∘ String.ofList) = id := funext fun _ => String.toList_ofList
    rw [hBack, List.map_id]
    rfl
  rw [hChars]
  exact tidy_words hAll

/-! ## Digits -/

theorem hexDigit_mem (digit : Nat) : hexDigit digit ∈ "0123456789abcdef".toList := by
  rw [hexDigit, List.getD_eq_getElem?_getD]
  cases hDigit : "0123456789abcdef".toList[digit]? with
  | none => decide
  | some c => exact List.mem_of_getElem? hDigit

variable {p : Char → Prop}

theorem hexEncode_all (h : ∀ c ∈ "0123456789abcdef".toList, p c) (bytes : List UInt8) :
    ∀ c ∈ (hexEncode bytes).toList, p c := by
  intro c hc
  rw [hexEncode, String.toList_ofList] at hc
  obtain ⟨byte, _, hByte⟩ := List.mem_flatMap.mp hc
  rcases List.mem_pair.mp hByte with rfl | rfl <;> exact h _ (hexDigit_mem _)

theorem padLeft_all (h : ∀ c : Char, c.isDigit = true → p c) (width n : Nat) :
    ∀ c ∈ (padLeft width n).toList, p c := by
  intro c hc
  rw [padLeft, String.toList_ofList, List.leftpad, List.mem_append] at hc
  rcases hc with hc | hc
  · rw [List.eq_of_mem_replicate hc]
    exact h _ rfl
  · exact h c (Nat.isDigit_of_mem_toDigits (by decide) (by decide) hc)

theorem dateStamp_all (h : ∀ c : Char, c.isDigit = true → p c) (hPlus : p '+') (hMinus : p '-') (now : DateTime) :
    ∀ c ∈ now.dateStamp.toList, p c := by
  have hYear : ∀ c ∈ (yearText now.year).toList, p c := by
    rw [yearText]
    split
    · exact padLeft_all h _ _
    · rw [String.toList_append]
      refine List.forall_mem_append.mpr ⟨?_, padLeft_all h _ _⟩
      split <;> simpa
  simp only [DateTime.dateStamp, String.toList_append, List.forall_mem_append]
  exact ⟨⟨hYear, padLeft_all h _ _⟩, padLeft_all h _ _⟩

theorem not_whitespace_of_isDigit {c : Char} (h : c.isDigit = true) : isWhitespace c = false := by
  rw [Char.isDigit_iff_toNat] at h
  obtain ⟨hLow, hHigh⟩ : 48 ≤ c.toNat ∧ c.toNat ≤ 57 := h
  simp only [isWhitespace, Bool.or_eq_false_iff, Bool.and_eq_false_iff, decide_eq_false_iff_not, beq_eq_false_iff_ne]
  omega

theorem amzDate_visible (now : DateTime) : ∀ c ∈ now.amzDate.toList, isWhitespace c = false := by
  have hDigit : ∀ c : Char, c.isDigit = true → isWhitespace c = false := fun c => not_whitespace_of_isDigit
  have hDate := dateStamp_all hDigit rfl rfl now
  have hPad : ∀ n : Nat, ∀ c ∈ (padLeft 2 n).toList, isWhitespace c = false := fun n => padLeft_all hDigit 2 n
  simp only [DateTime.amzDate, String.toList_append, List.forall_mem_append]
  exact ⟨⟨⟨⟨⟨hDate, by simp [isWhitespace]⟩, hPad _⟩, hPad _⟩, hPad _⟩, by simp [isWhitespace]⟩

theorem dateStamp_of_amzDate (now : DateTime) :
    String.ofList (now.amzDate.toList.takeWhile (· ≠ 'T')) = now.dateStamp := by
  have hDate : ∀ c ∈ now.dateStamp.toList, decide (c ≠ 'T') = true := by
    refine dateStamp_all (fun c hDigit => ?_) (by decide) (by decide) now
    rw [decide_eq_true_eq]
    rintro rfl
    cases hDigit
  have hRest : "T".toList = ['T'] := rfl
  simp only [DateTime.amzDate, String.toList_append, List.append_assoc, hRest]
  rw [List.takeWhile_append_of_pos hDate, List.singleton_append, List.takeWhile_cons_of_neg (by simp), List.append_nil, String.ofList_toList]

/-! ## Escapes with a sign

Where the signer reads a sign as part of an escape and the verifier does not, the canonical query of the
verifier is longer. -/

theorem hexValue_sign : hexValue 43 = none := rfl

theorem number_eq {high low : UInt8} (h : high ≠ 43 ∨ hexValue low = none) :
    fromStrRadix16 high low = hexNumber high low := by
  rw [fromStrRadix16, hexNumber]
  cases hexValue high <;> cases hLow : hexValue low <;> try rfl
  rcases h with h | h
  · exact if_neg h
  · rw [hLow] at h
    cases h

@[simp] theorem hasPlusEscape_nil : hasPlusEscape [] = false := rfl

theorem hasPlusEscape_cons (byte : UInt8) (rest : List UInt8) :
    hasPlusEscape (byte :: rest) = (isPlusEscape (byte :: rest) || hasPlusEscape rest) := by
  rw [hasPlusEscape, List.tails_cons, List.any_cons]
  rfl

variable {byte : UInt8}

theorem hasPlusEscape_cons_ne (h : byte ≠ 37) (rest : List UInt8) :
    hasPlusEscape (byte :: rest) = hasPlusEscape rest := by
  have hFirst : isPlusEscape (byte :: rest) = false := by
    match rest with
    | [] => rfl
    | [_] => rfl
    | _ :: _ :: _ => simp [isPlusEscape, h]
  rw [hasPlusEscape_cons, hFirst, Bool.false_or]

theorem hexValue_ne_percent (h : (hexValue byte).isSome = true) : byte ≠ 37 := by
  rintro rfl
  cases h

/-- How the signer and the verifier read what stands first in a text. -/
inductive ReadsFirst (bytes : List UInt8) : Prop where
  | short (hSigner : decodeEscapes fromStrRadix16 bytes = bytes) (hVerifier : decodeEscapes hexNumber bytes = bytes)
      (hPlain : hasPlusEscape bytes = false)
  | same (byte : UInt8) (rest : List UInt8) (hLength : rest.length < bytes.length)
      (hSigner : decodeEscapes fromStrRadix16 bytes = byte :: decodeEscapes fromStrRadix16 rest)
      (hVerifier : decodeEscapes hexNumber bytes = byte :: decodeEscapes hexNumber rest)
      (hRest : hasPlusEscape bytes = hasPlusEscape rest)
  | sign (digit value : UInt8) (rest : List UInt8) (hLength : rest.length < bytes.length)
      (hDigit : hexValue digit = some value)
      (hSigner : decodeEscapes fromStrRadix16 bytes = value :: decodeEscapes fromStrRadix16 rest)
      (hVerifier : decodeEscapes hexNumber bytes = 37 :: 43 :: digit :: decodeEscapes hexNumber rest)
      (hPlus : hasPlusEscape bytes = true)

theorem decodeEscapes_cons_ne {number : UInt8 → UInt8 → Option UInt8} (h : byte ≠ 37) (rest : List UInt8) :
    decodeEscapes number (byte :: rest) = byte :: decodeEscapes number rest := by
  match rest with
  | [] => rfl
  | [_] => rfl
  | high :: low :: rest => rw [decodeEscapes, if_neg h]

theorem readsFirst (bytes : List UInt8) : ReadsFirst bytes := by
  match bytes with
  | [] => exact .short rfl rfl rfl
  | [_] => exact .short rfl rfl rfl
  | [_, _] => exact .short rfl rfl rfl
  | byte :: high :: low :: rest =>
    by_cases hByte : byte = 37
    · subst hByte
      by_cases hSign : high = 43 ∧ (hexValue low).isSome
      · obtain ⟨rfl, hLow⟩ := hSign
        obtain ⟨value, hValue⟩ := Option.isSome_iff_exists.mp hLow
        refine .sign low value rest (by simp only [List.length_cons]; omega) hValue ?_ ?_ ?_
        · simp [decodeEscapes, fromStrRadix16, hexValue_sign, hValue]
        · rw [decodeEscapes, if_pos rfl, hexNumber, hexValue_sign]
          dsimp only
          rw [decodeEscapes_cons_ne (by decide), decodeEscapes_cons_ne (hexValue_ne_percent hLow)]
        · rw [hasPlusEscape_cons]
          simp [isPlusEscape, hLow]
      · have hNumber : fromStrRadix16 high low = hexNumber high low := by
          refine number_eq ?_
          by_cases hHigh : high = 43
          · exact .inr (by simpa [hHigh] using hSign)
          · exact .inl hHigh
        have hFirst : isPlusEscape (37 :: high :: low :: rest) = false := by
          simpa [isPlusEscape] using hSign
        cases hEscape : hexNumber high low with
        | none =>
          refine .same 37 (high :: low :: rest) (by simp) ?_ ?_ ?_
          · rw [decodeEscapes, if_pos rfl, hNumber, hEscape]
          · rw [decodeEscapes, if_pos rfl, hEscape]
          · rw [hasPlusEscape_cons, hFirst, Bool.false_or]
        | some value =>
          have hDigits : (hexValue high).isSome = true ∧ (hexValue low).isSome = true := by
            rw [hexNumber] at hEscape
            cases hHigh : hexValue high <;> cases hLow : hexValue low <;> simp_all
          refine .same value rest (by simp only [List.length_cons]; omega) ?_ ?_ ?_
          · rw [decodeEscapes, if_pos rfl, hNumber, hEscape]
          · rw [decodeEscapes, if_pos rfl, hEscape]
          · rw [hasPlusEscape_cons, hFirst, Bool.false_or,
              hasPlusEscape_cons_ne (hexValue_ne_percent hDigits.1),
              hasPlusEscape_cons_ne (hexValue_ne_percent hDigits.2)]
    · exact .same byte (high :: low :: rest) (by simp) (decodeEscapes_cons_ne hByte _)
        (decodeEscapes_cons_ne hByte _) (hasPlusEscape_cons_ne hByte _)

theorem decode_eq {bytes : List UInt8} (h : hasPlusEscape bytes = false) :
    decodeEscapes hexNumber bytes = percentDecode bytes := by
  rw [percentDecode]
  induction hLength : bytes.length using Nat.strongRecOn generalizing bytes with
  | ind length ih =>
    cases readsFirst bytes with
    | short hSigner hVerifier _ => rw [hSigner, hVerifier]
    | same byte rest hShorter hSigner hVerifier hRest =>
      rw [hSigner, hVerifier, ih rest.length (by omega) (hRest ▸ h) rfl]
    | sign digit value rest _ _ _ _ hPlus =>
      rw [h] at hPlus
      cases hPlus

theorem length_encodeByte (byte : UInt8) : 1 ≤ (encodeByte byte).length ∧ (encodeByte byte).length ≤ 3 := by
  rw [encodeByte]
  split <;> simp

@[simp] theorem length_uriEncode_cons (byte : UInt8) (rest : List UInt8) :
    (uriEncode (byte :: rest)).length = (encodeByte byte).length + (uriEncode rest).length := by
  simp [uriEncode]

/-- The part of the verifier is never the shorter one, and is longer where a sign stands in an escape. -/
theorem length_uriEncode_le (bytes : List UInt8) :
    (uriEncode (percentDecode bytes)).length + (hasPlusEscape bytes).toNat ≤
      (uriEncode (decodeEscapes hexNumber bytes)).length := by
  rw [percentDecode]
  induction hLength : bytes.length using Nat.strongRecOn generalizing bytes with
  | ind length ih =>
    cases readsFirst bytes with
    | short hSigner hVerifier hPlain =>
      rw [hSigner, hVerifier, hPlain]
      exact Nat.le_refl _
    | same byte rest hShorter hSigner hVerifier hRest =>
      have hTail := ih rest.length (by omega) rest rfl
      rw [hSigner, hVerifier, hRest, length_uriEncode_cons, length_uriEncode_cons]
      omega
    | sign digit value rest hShorter hDigit hSigner hVerifier hPlus =>
      have hTail := ih rest.length (by omega) rest rfl
      have hPercent : (encodeByte 37).length = 3 := rfl
      have hSign : (encodeByte 43).length = 3 := rfl
      have hValue := (length_encodeByte value).2
      rw [hSigner, hVerifier, hPlus]
      simp only [length_uriEncode_cons, hPercent, hSign, Bool.toNat_true]
      omega

theorem length_intercalate (separator : String) (texts : List String) : (String.intercalate separator texts).length =
      (texts.map String.length).sum + (texts.length - 1) * separator.length := by
  induction texts with
  | nil => simp
  | cons text texts ih =>
    cases texts with
    | nil => simp
    | cons next texts =>
      rw [String.intercalate_cons_cons, String.length_append, String.length_append, ih]
      simp only [List.map_cons, List.sum_cons, List.length_cons, Nat.add_sub_cancel, Nat.succ_mul]
      omega

/-- The canonical lengths of the names and values of a query. -/
theorem length_canonicalQueryBy (decode : List UInt8 → List UInt8) (query : String) :
    (canonicalQueryBy decode query).length =
      ((queryPairs query).map fun pair =>
        (uriEncode (decode pair.1)).length + 1 + (uriEncode (decode pair.2)).length).sum +
        ((queryPairs query).length - 1) := by
  rw [canonicalQueryBy, length_intercalate]
  have hPerm := List.perm_insertionSort pairLe
    ((queryPairs query).map fun pair => (uriEncode (decode pair.1), uriEncode (decode pair.2)))
  have hSum := (hPerm.map fun pair => pair.1.length + 1 + pair.2.length).sum_eq
  rw [List.map_map] at hSum
  have hOne : "&".length = 1 := rfl
  have hEquals : "=".length = 1 := rfl
  simp only [List.map_map, List.length_map, List.length_insertionSort, hOne, Nat.mul_one, Function.comp_def,
    String.length_append, hEquals]
  rw [hSum]
  rfl

/-- The query of the verifier is the signer's exactly when no escape has a sign. -/
theorem canonicalQuery_verified_iff (query : String) :
    canonicalQueryBy (decodeEscapes hexNumber) query = canonicalQuery query ↔
      ∀ pair ∈ queryPairs query, hasPlusEscape pair.1 = false ∧ hasPlusEscape pair.2 = false := by
  constructor
  · intro hSame
    by_contra hSome
    have hLe : ∀ pair ∈ queryPairs query,
        (uriEncode (percentDecode pair.1)).length + 1 + (uriEncode (percentDecode pair.2)).length ≤
          (uriEncode (decodeEscapes hexNumber pair.1)).length + 1 +
            (uriEncode (decodeEscapes hexNumber pair.2)).length := by
      intro pair _
      have hName := length_uriEncode_le pair.1
      have hValue := length_uriEncode_le pair.2
      omega
    have hLt : ∃ pair ∈ queryPairs query,
        (uriEncode (percentDecode pair.1)).length + 1 + (uriEncode (percentDecode pair.2)).length <
          (uriEncode (decodeEscapes hexNumber pair.1)).length + 1 +
            (uriEncode (decodeEscapes hexNumber pair.2)).length := by
      obtain ⟨pair, hPair⟩ := not_forall.mp hSome
      obtain ⟨hMem, hPlus⟩ := Classical.not_imp.mp hPair
      refine ⟨pair, hMem, ?_⟩
      have hName := length_uriEncode_le pair.1
      have hValue := length_uriEncode_le pair.2
      rcases not_and_or.mp hPlus with hPlus | hPlus
      · simp only [Bool.not_eq_false] at hPlus
        simp only [hPlus, Bool.toNat_true] at hName
        omega
      · simp only [Bool.not_eq_false] at hPlus
        simp only [hPlus, Bool.toNat_true] at hValue
        omega
    have hLength := congrArg String.length hSame
    rw [canonicalQuery, length_canonicalQueryBy, length_canonicalQueryBy] at hLength
    have hSum := List.sum_lt_sum _ _ hLe hLt
    omega
  · intro hPlain
    rw [canonicalQuery, canonicalQueryBy, canonicalQueryBy]
    have hPairs : (queryPairs query).map (fun pair =>
          (uriEncode (decodeEscapes hexNumber pair.1), uriEncode (decodeEscapes hexNumber pair.2))) =
        (queryPairs query).map fun pair => (uriEncode (percentDecode pair.1), uriEncode (percentDecode pair.2)) := by
      refine List.map_congr_left fun pair hPair => ?_
      rw [decode_eq (hPlain pair hPair).1, decode_eq (hPlain pair hPair).2]
    rw [hPairs]

/-! ## The authorization header -/

variable {α : Type}

theorem rdropWhile_append_cons {p : α → Bool} {before after : List α} {mark : α} (hMark : p mark = false)
    (hAfter : ∀ item ∈ after, p item = true) : (before ++ mark :: after).rdropWhile p = before ++ [mark] := by
  have hReverse : ∀ item ∈ after.reverse, p item = true := fun item hItem => hAfter item (List.mem_reverse.mp hItem)
  rw [List.rdropWhile, List.reverse_append, List.reverse_cons, List.append_assoc,
    List.dropWhile_append_of_pos hReverse, List.singleton_append, List.dropWhile_cons_of_neg (by simp [hMark])]
  simp

theorem rtakeWhile_append_cons {p : α → Bool} {before after : List α} {mark : α} (hMark : p mark = false)
    (hAfter : ∀ item ∈ after, p item = true) : (before ++ mark :: after).rtakeWhile p = after := by
  have hReverse : ∀ item ∈ after.reverse, p item = true := fun item hItem => hAfter item (List.mem_reverse.mp hItem)
  rw [List.rtakeWhile, List.reverse_append, List.reverse_cons, List.append_assoc,
    List.takeWhile_append_of_pos hReverse, List.singleton_append, List.takeWhile_cons_of_neg (by simp [hMark])]
  simp

theorem toList_ofList_map (texts : List String) : (texts.map String.toList).map String.ofList = texts := by
  rw [List.map_map]
  exact List.map_id'' (fun text => String.ofList_toList) texts

theorem ne_of_isTokenChar {c d : Char} (hToken : isTokenChar c = true) (hOther : isTokenChar d = false) : c ≠ d := by
  rintro rfl
  rw [hToken] at hOther
  cases hOther

theorem mem_intercalate {separator : List α} {parts : List (List α)} {item : α} (h : item ∈ separator.intercalate parts) :
    item ∈ separator ∨ ∃ part ∈ parts, item ∈ part := by
  induction parts with
  | nil => cases h
  | cons part parts ih =>
    cases parts with
    | nil => exact .inr ⟨part, by simp, by simpa using h⟩
    | cons next parts =>
      rw [List.intercalate_cons_cons, List.mem_append, List.mem_append] at h
      rcases h with (h | h) | h
      · exact .inr ⟨part, by simp, h⟩
      · exact .inl h
      · rcases ih h with h | ⟨other, hOther, h⟩
        · exact .inl h
        · exact .inr ⟨other, List.mem_cons_of_mem _ hOther, h⟩

theorem authorizationValue_parts (credentials : AwsCredentials) (scope : String) (names : List String)
    (signature : String) :
    ∃ before, (authorizationValue credentials scope names signature).toList =
      (before ++ '=' :: (String.intercalate ";" names).toList) ++ ',' :: (" Signature=".toList ++ signature.toList) := by
  have hBefore : ", SignedHeaders=".toList = ", SignedHeaders".toList ++ ['='] := by simp
  have hAfter : ", Signature=".toList = [','] ++ " Signature=".toList := by simp
  unfold authorizationValue
  simp only [String.toList_append, hBefore, hAfter]
  generalize (", SignedHeaders").toList = marker
  generalize (" Signature=").toList = mark
  generalize ("AWS4-HMAC-SHA256 Credential=").toList = start
  refine ⟨start ++ credentials.accessKeyId.toList ++ "/".toList ++ scope.toList ++ marker, ?_⟩
  simp only [List.append_assoc, List.cons_append, List.nil_append]

/-- The names of the signed headers can be read back, whatever the access key, the region and the service. -/
theorem signedHeaderNames_authorizationValue (credentials : AwsCredentials) (scope : String) {names : List String}
    (bytes : List UInt8) (hNonempty : names ≠ [])
    (hTokens : ∀ name ∈ names, ∀ c ∈ name.toList, isTokenChar c = true) :
    signedHeaderNames (authorizationValue credentials scope names (hexEncode bytes)) = names := by
  obtain ⟨before, hChars⟩ := authorizationValue_parts credentials scope names (hexEncode bytes)
  have hJoined : (String.intercalate ";" names).toList = [';'].intercalate (names.map String.toList) :=
    String.toList_intercalate
  have hNames : ∀ c ∈ [';'].intercalate (names.map String.toList), decide (c ≠ '=') = true := by
    intro c hc
    rcases mem_intercalate hc with hc | ⟨part, hPart, hc⟩
    · rw [List.mem_singleton.mp hc]
      rfl
    · obtain ⟨name, hName, rfl⟩ := List.mem_map.mp hPart
      simpa using ne_of_isTokenChar (hTokens name hName c hc) rfl
  have hSignature : ∀ c ∈ " Signature=".toList ++ (hexEncode bytes).toList, decide (c ≠ ',') = true :=
    List.forall_mem_append.mpr ⟨by simp, hexEncode_all (by simp) bytes⟩
  have hSemicolon : ∀ part ∈ names.map String.toList, ';' ∉ part := by
    intro part hPart hMem
    obtain ⟨name, hName, rfl⟩ := List.mem_map.mp hPart
    have hOther : isTokenChar ';' = false := rfl
    rw [hTokens name hName _ hMem] at hOther
    cases hOther
  have hSplit : ([';'].intercalate (names.map String.toList)).splitOn ';' = names.map String.toList :=
    List.splitOn_intercalate ';' hSemicolon (by simpa using hNonempty)
  rw [signedHeaderNames, hChars, hJoined,
    rdropWhile_append_cons (p := fun c => decide (c ≠ ',')) rfl hSignature, List.dropLast_concat,
    rtakeWhile_append_cons (p := fun c => decide (c ≠ '=')) rfl hNames, hSplit, toList_ofList_map]

/-! ## The headers that arrive -/

variable {name : String} {β : Type}

theorem lookup_cons_ne {key : String} (h : name ≠ key) (held : β) (items : List (String × β)) :
    ((key, held) :: items).lookup name = items.lookup name := by
  rw [List.lookup_cons, beq_eq_false_iff_ne.mpr h]

theorem lookup_insertBytes (headers : List (String × List UInt8)) (name : String) (value : List UInt8)
    (other : String) :
    (SigV4Fetch.insertBytes headers name value).lookup other =
      if other = name then some value else headers.lookup other := by
  rw [SigV4Fetch.insertBytes]
  induction headers with
  | nil =>
    by_cases hName : other = name
    · subst hName
      simp
    · rw [List.filter_nil, List.nil_append, lookup_cons_ne hName, if_neg hName]
  | cons header headers ih =>
    obtain ⟨key, held⟩ := header
    by_cases hKey : key = name
    · subst hKey
      rw [List.filter_cons_of_neg (by simp), ih]
      split
      · rfl
      · rename_i hOther
        rw [lookup_cons_ne hOther]
    · rw [List.filter_cons_of_pos (by simpa using hKey), List.cons_append]
      by_cases hOther : other = key
      · subst hOther
        simp [hKey]
      · rw [lookup_cons_ne hOther, lookup_cons_ne hOther, ih]

theorem lookup_eq_none {items : List (String × β)} (h : name ∉ items.map (·.1)) :
    items.lookup name = none := by
  rw [List.lookup_eq_none_iff]
  intro item hItem
  rw [bne_iff_ne]
  rintro rfl
  exact h (List.mem_map_of_mem hItem)

variable {headers : List (String × List UInt8)}

theorem extraHeaders_names {signing : SigV4Signing} {extra : List (String × String)}
    (h : SigV4Fetch.extraHeaders signing headers = .ok extra) :
    extra.map (·.1) = (headers.map (·.1)).filter fun name => !SigV4Fetch.isUnsigned signing name := by
  induction headers generalizing extra with
  | nil =>
    cases h
    rfl
  | cons header headers ih =>
    obtain ⟨name, value⟩ := header
    rw [SigV4Fetch.extraHeaders] at h
    split at h
    · rename_i hUnsigned
      rw [List.map_cons, List.filter_cons_of_neg (by simp [hUnsigned]), ih h]
    · rename_i hSigned
      split at h
      · cases h
      · cases hRest : SigV4Fetch.extraHeaders signing headers with
        | error error =>
          rw [hRest] at h
          cases h
        | ok rest =>
          rw [hRest] at h
          cases h
          rw [List.map_cons, List.map_cons, List.filter_cons_of_pos (by simpa using hSigned), ih hRest]

section

variable {Url : Type} {crates : Crates Url} {digests : Digests}

/-- A header that was signed arrives as it was signed; the others arrive as they were. -/
theorem lookup_insertSigned (laws : Lawful crates) {out : List (String × List UInt8)} {signed : List (String × String)}
    (h : SigV4Fetch.insertSigned crates headers signed = .ok out)
    (hSingle : (signed.map fun header => asciiLower header.1).Nodup) (name : String) :
    out.lookup name = ((signed.map fun header => (asciiLower header.1, utf8 header.2)).lookup name).or
      (headers.lookup name) := by
  induction signed generalizing headers with
  | nil =>
    cases h
    rfl
  | cons header signed ih =>
    obtain ⟨key, value⟩ := header
    rw [List.map_cons, List.nodup_cons] at hSingle
    rw [SigV4Fetch.insertSigned] at h
    cases hBuilt : crates.headerName key with
    | error error =>
      rw [hBuilt] at h
      cases h
    | ok built =>
      obtain rfl := laws.headerName_lower key built hBuilt
      cases hValue : crates.headerValue value with
      | error error =>
        rw [hBuilt, hValue] at h
        cases h
      | ok valid =>
        rw [hBuilt, hValue] at h
        rw [ih h hSingle.2, lookup_insertBytes, List.map_cons]
        by_cases hName : name = asciiLower key
        · subst hName
          have hRest : asciiLower key ∉ (signed.map fun header => (asciiLower header.1, utf8 header.2)).map (·.1) := by
            rw [List.map_map]
            exact hSingle.1
          rw [lookup_eq_none hRest, List.lookup_cons_self, if_pos rfl]
          rfl
        · rw [lookup_cons_ne hName, if_neg hName]

/-! ## The headers that are signed -/

/-- What the signer relies on. -/
structure Signable (headers : List (String × String)) : Prop where
  single : (headers.map (·.1)).Nodup
  lower : ∀ header ∈ headers, asciiLower header.1 = header.1
  token : ∀ header ∈ headers, ∀ c ∈ header.1.toList, isTokenChar c = true
  authorization : "authorization" ∉ headers.map (·.1)

theorem isUnsigned_authorization (signing : SigV4Signing) :
    SigV4Fetch.isUnsigned signing "authorization" = true := by
  cases signing <;> decide

theorem signable_extraHeaders (laws : SigningLaws crates) (hHeaders : SingleValued crates headers)
    {signing : SigV4Signing} {extra : List (String × String)} (h : SigV4Fetch.extraHeaders signing headers = .ok extra) :
    Signable extra := by
  have hNames := extraHeaders_names h
  have hFrom : ∀ header ∈ extra, ∃ value, (header.1, value) ∈ headers := by
    intro header hHeader
    have hMem : header.1 ∈ extra.map (·.1) := List.mem_map_of_mem hHeader
    rw [hNames] at hMem
    obtain ⟨other, hOther, hSame⟩ := List.mem_map.mp (List.mem_of_mem_filter hMem)
    exact ⟨other.2, hSame ▸ hOther⟩
  have hBuilt : ∀ header ∈ extra, crates.headerName header.1 = .ok header.1 := by
    intro header hHeader
    obtain ⟨value, hMem⟩ := hFrom header hHeader
    exact hHeaders.names _ hMem
  refine ⟨?_, ?_, ?_, ?_⟩
  · rw [hNames]
    exact hHeaders.single.filter _
  · intro header hHeader
    exact (laws.headerName_lower _ _ (hBuilt header hHeader)).symm
  · intro header hHeader
    exact laws.headerName_token _ _ (hBuilt header hHeader)
  · rw [hNames]
    intro hMem
    have hSigned := (List.mem_filter.mp hMem).2
    rw [isUnsigned_authorization] at hSigned
    cases hSigned

variable {credentials : AwsCredentials} {url : Url} {body : List UInt8} {extra : List (String × String)}
  {now : DateTime} {signing : SigV4Signing}

variable {header : String × String}

theorem mem_canonicalHeaders :
    header ∈ canonicalHeaders crates digests credentials url body extra now signing ↔
      header = ("host", hostHeader crates url) ∨ header = ("x-amz-date", now.amzDate) ∨
      ((signing = .allHeaders ∨ (callerHeader extra "x-amz-content-sha256").isSome) ∧
        header = ("x-amz-content-sha256", bodyHash digests body extra)) ∨
      (∃ token, credentials.sessionToken.or (callerHeader extra "x-amz-security-token") = some token ∧
        header = ("x-amz-security-token", token)) ∨
      ((∃ name value, (name, value) ∈ extra ∧ header = (asciiLower name, canonicalHeaderValue value)) ∧
        header.1 ∉ reservedHeaders) := by
  rw [canonicalHeaders, List.mem_insertionSort]
  simp only [List.mem_append, List.mem_cons, List.not_mem_nil, or_false, List.mem_map, List.mem_filter,
    Option.mem_toList, Prod.exists, or_assoc]
  have hHash : header ∈ (if signing = .allHeaders ∨ (callerHeader extra "x-amz-content-sha256").isSome then
      [("x-amz-content-sha256", bodyHash digests body extra)] else []) ↔
      (signing = .allHeaders ∨ (callerHeader extra "x-amz-content-sha256").isSome) ∧
        header = ("x-amz-content-sha256", bodyHash digests body extra) := by
    split <;> simp_all
  have hReserved : (!reservedHeaders.contains header.1) = true ↔ header.1 ∉ reservedHeaders := by simp
  rw [hHash, hReserved]
  simp only [eq_comm]

theorem tidy_hostHeader (laws : SigningLaws crates) (url : Url) : Tidy (hostHeader crates url).toList := by
  have hHost : ∀ c ∈ ((crates.hostStr url).getD "").toList, isWhitespace c = false := by
    cases hStr : crates.hostStr url with
    | none => exact List.forall_mem_nil _
    | some host => exact laws.hostStr_visible url host hStr
  refine tidy_visible ?_
  rw [hostHeader]
  cases crates.port url with
  | none => exact hHost
  | some port =>
    simp only [String.toList_append, List.forall_mem_append]
    refine ⟨⟨hHost, by simp [isWhitespace]⟩, ?_⟩
    intro c hc
    rw [Nat.toString_eq_ofList_toDigits, String.toList_ofList] at hc
    exact not_whitespace_of_isDigit (Nat.isDigit_of_mem_toDigits (by decide) (by decide) hc)

theorem tidy_callerHeader (h : callerHeader extra name = some value) : Tidy value.toList := by
  rw [callerHeader, Option.map_eq_some_iff] at h
  obtain ⟨header, _, rfl⟩ := h
  exact tidy_canonicalHeaderValue header.2

theorem tidy_bodyHash (digests : Digests) (body : List UInt8) (extra : List (String × String)) :
    Tidy (bodyHash digests body extra).toList := by
  rw [bodyHash]
  cases hHash : callerHeader extra "x-amz-content-sha256" with
  | none => exact tidy_visible (hexEncode_all (by simp [isWhitespace]) _)
  | some hash => exact tidy_callerHeader hHash

/-- Every value that is signed is one that the verifier leaves as it is. -/
theorem tidy_canonicalHeaders (laws : SigningLaws crates)
    (hToken : ∀ token, credentials.sessionToken = some token → Tidy token.toList)
    (h : header ∈ canonicalHeaders crates digests credentials url body extra now signing) :
    Tidy header.2.toList := by
  rcases mem_canonicalHeaders.mp h with rfl | rfl | ⟨_, rfl⟩ | ⟨token, hSome, rfl⟩ | ⟨⟨name, value, _, rfl⟩, _⟩
  · exact tidy_hostHeader laws url
  · exact tidy_visible (amzDate_visible now)
  · exact tidy_bodyHash digests body extra
  · rcases Option.or_eq_some_iff.mp hSome with hOwn | ⟨_, hCaller⟩
    · exact hToken token hOwn
    · exact tidy_callerHeader hCaller
  · exact tidy_canonicalHeaderValue value

/-- The signer's own headers come once each, and no other header has the name of one. -/
theorem nodup_canonicalHeaders (hExtra : Signable extra) :
    ((canonicalHeaders crates digests credentials url body extra now signing).map (·.1)).Nodup := by
  rw [canonicalHeaders, ((List.perm_insertionSort headerLe _).map (·.1)).nodup_iff, List.map_append]
  have hOthers : (extra.map fun header => (asciiLower header.1, canonicalHeaderValue header.2)).map (·.1) =
      extra.map (·.1) := by
    rw [List.map_map]
    exact List.map_congr_left fun header hHeader => hExtra.lower header hHeader
  refine List.nodup_append.mpr ⟨?_, ?_, ?_⟩
  · have hOwn : reservedHeaders.Nodup := by decide
    refine hOwn.sublist ?_
    generalize credentials.sessionToken.or (callerHeader extra "x-amz-security-token") = token
    split <;> cases token <;> simp [reservedHeaders]
  · exact (hOthers ▸ hExtra.single).sublist (List.filter_sublist.map _)
  · rintro name hName other hOther rfl
    obtain ⟨header, hHeader, rfl⟩ := List.mem_map.mp hOther
    have hFree : header.1 ∉ reservedHeaders := by simpa using (List.mem_filter.mp hHeader).2
    refine hFree ?_
    revert hName
    generalize credentials.sessionToken.or (callerHeader extra "x-amz-security-token") = token
    split <;> cases token <;> simp only [reservedHeaders, List.map_append, List.map_cons, List.map_nil,
      List.mem_append, List.mem_cons, Option.toList] <;> tauto

theorem signable_canonicalHeaders (hExtra : Signable extra) :
    Signable (canonicalHeaders crates digests credentials url body extra now signing) := by
  have hReserved : ∀ name ∈ reservedHeaders, asciiLower name = name ∧ name ≠ "authorization" ∧
      ∀ c ∈ name.toList, isTokenChar c = true := by
    simp only [reservedHeaders, List.forall_mem_cons]
    refine ⟨⟨?_, ?_, ?_⟩, ⟨?_, ?_, ?_⟩, ⟨?_, ?_, ?_⟩, ⟨?_, ?_, ?_⟩, List.forall_mem_nil _⟩
    all_goals simp [asciiLower, isTokenChar]
  have hNames : ∀ header ∈ canonicalHeaders crates digests credentials url body extra now signing,
      header.1 ∈ reservedHeaders ∨ header.1 ∈ extra.map (·.1) := by
    intro header hHeader
    rcases mem_canonicalHeaders.mp hHeader with rfl | rfl | ⟨_, rfl⟩ | ⟨token, _, rfl⟩ | ⟨⟨name, value, hMem, rfl⟩, _⟩
    · exact .inl (by simp [reservedHeaders])
    · exact .inl (by simp [reservedHeaders])
    · exact .inl (by simp [reservedHeaders])
    · exact .inl (by simp [reservedHeaders])
    · have hLower : asciiLower name = name := hExtra.lower _ hMem
      exact .inr (List.mem_map.mpr ⟨_, hMem, hLower.symm⟩)
  refine ⟨nodup_canonicalHeaders hExtra, ?_, ?_, ?_⟩
  · intro header hHeader
    rcases hNames header hHeader with hName | hName
    · exact (hReserved _ hName).1
    · obtain ⟨other, hOther, hSame⟩ := List.mem_map.mp hName
      rw [← hSame]
      exact hExtra.lower other hOther
  · intro header hHeader
    rcases hNames header hHeader with hName | hName
    · exact (hReserved _ hName).2.2
    · obtain ⟨other, hOther, hSame⟩ := List.mem_map.mp hName
      rw [← hSame]
      exact hExtra.token other hOther
  · intro hMem
    obtain ⟨header, hHeader, hSame⟩ := List.mem_map.mp hMem
    rcases hNames header hHeader with hName | hName
    · exact (hReserved _ hName).2.1 hSame
    · rw [hSame] at hName
      exact hExtra.authorization hName

theorem canonicalHeaders_ne_nil : canonicalHeaders crates digests credentials url body extra now signing ≠ [] :=
  List.ne_nil_of_mem (mem_canonicalHeaders.mpr (.inl rfl))

theorem sorted_canonicalHeaders :
    ((canonicalHeaders crates digests credentials url body extra now signing).map (·.1)).Pairwise (· ≤ ·) := by
  rw [List.pairwise_map, canonicalHeaders]
  have hTotal : Std.Total headerLe := ⟨fun header other => le_total header.1 other.1⟩
  have hTrans : IsTrans (String × String) headerLe := ⟨fun _ _ _ hFirst hSecond => le_trans hFirst hSecond⟩
  exact List.pairwise_insertionSort headerLe _

/-! ## What the verifier rebuilds -/

theorem fromUtf8Lossy_value (h : Tidy value.toList) :
    normalized (fromUtf8Lossy (utf8 value)) = value := by
  rw [fromUtf8Lossy_utf8, normalized_tidy h]

variable {headers : List (String × String)}

theorem mapM_received {received : String → Option String} (h : ∀ header ∈ headers, received header.1 = some header.2) :
    (headers.map (·.1)).mapM (fun name => (received name).map fun value => (name, value)) = some headers := by
  induction headers with
  | nil => rfl
  | cons header headers ih =>
    have hFirst := h header (List.mem_cons_self ..)
    have hRest := ih fun other hOther => h other (List.mem_cons_of_mem _ hOther)
    rw [List.map_cons, List.mapM_cons, hFirst, hRest]
    rfl

theorem callerHeader_eq_none (h : callerHeader extra name = none) : name ∉ extra.map (·.1) := by
  intro hMem
  obtain ⟨header, hHeader, rfl⟩ := List.mem_map.mp hMem
  rw [callerHeader, Option.map_eq_none_iff, List.find?_eq_none] at h
  exact h header hHeader (by simp [eqIgnoreAsciiCase])

/-- The request as it is forwarded, with what was signed of it. -/
structure Forwards (crates : Crates Url) (digests : Digests) (fetcher : SigV4Fetch)
    (request forwarded : OutboundRequest Url) (credentials : AwsCredentials) (extra : List (String × String)) :
    Prop where
  hCredentials : fetcher.credentials = .ok credentials
  hExtra : SigV4Fetch.extraHeaders fetcher.signing request.headers = .ok extra
  hInserted : SigV4Fetch.insertSigned crates request.headers
    (signParsed crates digests credentials fetcher.service request.method request.url request.body extra
      fetcher.now fetcher.signing).headers = .ok forwarded.headers
  hRest : forwarded = { request with headers := forwarded.headers }

variable {request forwarded : OutboundRequest Url}

theorem fetch_forwards (laws : Lawful crates) {fetcher : SigV4Fetch} (hIncluded : request.credentials = .included)
    (h : fetcher.fetch crates digests request = .ok forwarded) :
    ∃ credentials extra, Forwards crates digests fetcher request forwarded credentials extra := by
  rw [SigV4Fetch.fetch, hIncluded, if_neg (by decide)] at h
  cases hCredentials : fetcher.credentials with
  | error error =>
    rw [hCredentials] at h
    cases h
  | ok credentials =>
    rw [hCredentials] at h
    cases hExtra : SigV4Fetch.extraHeaders fetcher.signing request.headers with
    | error error =>
      rw [hExtra] at h
      cases h
    | ok extra =>
      rw [hExtra] at h
      have hSigned : signRequestWith crates digests credentials fetcher.service request.method
          (crates.text request.url) request.body extra fetcher.now fetcher.signing =
          some (signParsed crates digests credentials fetcher.service request.method request.url request.body
            extra fetcher.now fetcher.signing) := by
        simp only [signRequestWith, laws.parse_text, Except.toOption, Option.some_or, Option.map_some]
      dsimp only [Bind.bind, Except.bind] at h
      rw [hSigned] at h
      dsimp only at h
      cases hInserted : SigV4Fetch.insertSigned crates request.headers
          (signParsed crates digests credentials fetcher.service request.method request.url request.body extra
            fetcher.now fetcher.signing).headers with
      | error error =>
        rw [hInserted] at h
        cases h
      | ok headers =>
        rw [hInserted] at h
        cases h
        exact ⟨credentials, extra, hCredentials, hExtra, hInserted, by rw [← hIncluded]⟩

namespace Forwards

variable {fetcher : SigV4Fetch} {request forwarded : OutboundRequest Url}

/-- The headers that were signed. -/
def signedHeaders (crates : Crates Url) (digests : Digests) (fetcher : SigV4Fetch) (request : OutboundRequest Url)
    (credentials : AwsCredentials) (extra : List (String × String)) : List (String × String) :=
  canonicalHeaders crates digests credentials request.url request.body extra fetcher.now fetcher.signing

def signature (crates : Crates Url) (digests : Digests) (fetcher : SigV4Fetch) (request : OutboundRequest Url)
    (credentials : AwsCredentials) (extra : List (String × String)) : List UInt8 :=
  digests.hmacSha256 (signingKey digests credentials fetcher.service fetcher.now.dateStamp)
    (utf8 (signParsed crates digests credentials fetcher.service request.method request.url request.body extra
      fetcher.now fetcher.signing).stringToSign)

def authorization (crates : Crates Url) (digests : Digests) (fetcher : SigV4Fetch) (request : OutboundRequest Url)
    (credentials : AwsCredentials) (extra : List (String × String)) : String :=
  authorizationValue credentials (credentialScope fetcher.now.dateStamp credentials.region fetcher.service)
    ((signedHeaders crates digests fetcher request credentials extra).map (·.1))
    (hexEncode (signature crates digests fetcher request credentials extra))

theorem signable (laws : SigningLaws crates) (hHeaders : SingleValued crates request.headers)
    (h : Forwards crates digests fetcher request forwarded credentials extra) :
    Signable (signedHeaders crates digests fetcher request credentials extra) :=
  signable_canonicalHeaders (signable_extraHeaders laws hHeaders h.hExtra)

/-- The headers that the signer sends. -/
def arriving (crates : Crates Url) (digests : Digests) (fetcher : SigV4Fetch) (request : OutboundRequest Url)
    (credentials : AwsCredentials) (extra : List (String × String)) : List (String × List UInt8) :=
  ((signedHeaders crates digests fetcher request credentials extra).map fun header => (header.1, utf8 header.2)) ++
    [("authorization", utf8 (authorization crates digests fetcher request credentials extra))]

theorem nodup_arriving (hSignable : Signable (signedHeaders crates digests fetcher request credentials extra)) :
    ((arriving crates digests fetcher request credentials extra).map (·.1)).Nodup := by
  rw [arriving, List.map_append, List.map_map]
  refine List.nodup_append.mpr ⟨hSignable.single, List.nodup_singleton _, ?_⟩
  intro name hName other hOther
  rw [List.mem_singleton.mp hOther]
  rintro rfl
  exact hSignable.authorization hName

theorem lookup_eq (laws : SigningLaws crates) (hHeaders : SingleValued crates request.headers)
    (h : Forwards crates digests fetcher request forwarded credentials extra) (name : String) :
    forwarded.headers.lookup name =
      ((arriving crates digests fetcher request credentials extra).lookup name).or (request.headers.lookup name) := by
  have hSignable := h.signable laws hHeaders
  have hSent : (signParsed crates digests credentials fetcher.service request.method request.url request.body
      extra fetcher.now fetcher.signing).headers =
      signedHeaders crates digests fetcher request credentials extra ++
        [("Authorization", authorization crates digests fetcher request credentials extra)] := rfl
  have hInserted := h.hInserted
  rw [hSent] at hInserted
  have hLower : (signedHeaders crates digests fetcher request credentials extra ++
        [("Authorization", authorization crates digests fetcher request credentials extra)]).map
        (fun header => (asciiLower header.1, utf8 header.2)) =
      arriving crates digests fetcher request credentials extra := by
    have hName : asciiLower "Authorization" = "authorization" := by decide +kernel
    rw [arriving, List.map_append, List.map_singleton, hName]
    congr 1
    exact List.map_congr_left fun header hHeader => by rw [hSignable.lower header hHeader]
  have hNodup := nodup_arriving hSignable
  rw [← hLower, List.map_map] at hNodup
  rw [lookup_insertSigned laws.toLawful hInserted hNodup, hLower]

theorem lookup_authorization (laws : SigningLaws crates) (hHeaders : SingleValued crates request.headers)
    (h : Forwards crates digests fetcher request forwarded credentials extra) :
    forwarded.headers.lookup "authorization" =
      some (utf8 (authorization crates digests fetcher request credentials extra)) := by
  have hMem : ("authorization", utf8 (authorization crates digests fetcher request credentials extra)) ∈
      arriving crates digests fetcher request credentials extra := by simp [arriving]
  rw [h.lookup_eq laws hHeaders, lookup_of_mem (nodup_arriving (h.signable laws hHeaders)) hMem]
  rfl

/-- A signed header arrives with the value that was signed. -/
theorem receivedValue_signed (laws : SigningLaws crates) (hHeaders : SingleValued crates request.headers)
    (hToken : ∀ token, credentials.sessionToken = some token → Tidy token.toList)
    (h : Forwards crates digests fetcher request forwarded credentials extra)
    (hHeader : header ∈ signedHeaders crates digests fetcher request credentials extra) :
    receivedValue forwarded header.1 = some header.2 := by
  have hMem : (header.1, utf8 header.2) ∈ arriving crates digests fetcher request credentials extra :=
    List.mem_append_left _ (List.mem_map.mpr ⟨header, hHeader, rfl⟩)
  rw [receivedValue, h.lookup_eq laws hHeaders, lookup_of_mem (nodup_arriving (h.signable laws hHeaders)) hMem,
    Option.some_or, Option.map_some, fromUtf8Lossy_value (tidy_canonicalHeaders laws hToken hHeader)]

/-- The hash of the verifier is the one that was signed, sent or not. -/
theorem received_bodyHash (laws : SigningLaws crates) (hHeaders : SingleValued crates request.headers)
    (hToken : ∀ token, credentials.sessionToken = some token → Tidy token.toList)
    (h : Forwards crates digests fetcher request forwarded credentials extra) :
    (receivedValue forwarded "x-amz-content-sha256").getD (hexEncode (digests.sha256 request.body)) =
      bodyHash digests request.body extra := by
  by_cases hSigned : fetcher.signing = .allHeaders ∨ (callerHeader extra "x-amz-content-sha256").isSome
  · have hHeader : ("x-amz-content-sha256", bodyHash digests request.body extra) ∈
        signedHeaders crates digests fetcher request credentials extra :=
      mem_canonicalHeaders.mpr (.inr (.inr (.inl ⟨hSigned, rfl⟩)))
    rw [h.receivedValue_signed laws hHeaders hToken hHeader]
    rfl
  · obtain ⟨hSigning, hCaller⟩ := not_or.mp hSigned
    have hNone : callerHeader extra "x-amz-content-sha256" = none := Option.not_isSome_iff_eq_none.mp hCaller
    have hNotSent : "x-amz-content-sha256" ∉
        (arriving crates digests fetcher request credentials extra).map (·.1) := by
      rw [arriving, List.map_append, List.map_map, List.mem_append, not_or]
      refine ⟨?_, by simp⟩
      intro hMem
      obtain ⟨header, hHeader, hName⟩ := List.mem_map.mp hMem
      rcases mem_canonicalHeaders.mp hHeader with rfl | rfl | ⟨hCondition, _⟩ | ⟨_, _, rfl⟩ | ⟨_, hFree⟩
      · simp at hName
      · simp at hName
      · exact hSigned hCondition
      · simp at hName
      · refine hFree ?_
        rw [show header.1 = "x-amz-content-sha256" from hName]
        simp [reservedHeaders]
    have hNotCarried : "x-amz-content-sha256" ∉ request.headers.map (·.1) := by
      intro hMem
      have hExtra := extraHeaders_names h.hExtra
      refine callerHeader_eq_none hNone ?_
      rw [hExtra, List.mem_filter]
      refine ⟨hMem, ?_⟩
      cases hMode : fetcher.signing with
      | allHeaders => exact absurd hMode hSigning
      | aws4Fetch => decide
    rw [receivedValue, h.lookup_eq laws hHeaders, lookup_eq_none hNotSent, lookup_eq_none hNotCarried, bodyHash, hNone]
    rfl

theorem rebuildCanonicalRequest_eq (laws : SigningLaws crates) (hHeaders : SingleValued crates request.headers)
    (hToken : ∀ token, credentials.sessionToken = some token → Tidy token.toList)
    (h : Forwards crates digests fetcher request forwarded credentials extra) :
    rebuildCanonicalRequest crates digests forwarded =
      some (canonicalRequestText request.method (canonicalUri (crates.path request.url))
        (canonicalQueryBy (decodeEscapes hexNumber) ((crates.query request.url).getD ""))
        (signedHeaders crates digests fetcher request credentials extra)
        (bodyHash digests request.body extra)) := by
  have hSignable := h.signable laws hHeaders
  have hNonempty : (signedHeaders crates digests fetcher request credentials extra).map (·.1) ≠ [] :=
    fun hNil => canonicalHeaders_ne_nil (List.map_eq_nil_iff.mp hNil)
  have hTokens : ∀ name ∈ (signedHeaders crates digests fetcher request credentials extra).map (·.1),
      ∀ c ∈ name.toList, isTokenChar c = true := by
    intro name hName
    obtain ⟨header, hHeader, rfl⟩ := List.mem_map.mp hName
    exact hSignable.token header hHeader
  have hNames := signedHeaderNames_authorizationValue credentials
    (credentialScope fetcher.now.dateStamp credentials.region fetcher.service)
    (signature crates digests fetcher request credentials extra) hNonempty hTokens
  have hSorted : ((signedHeaders crates digests fetcher request credentials extra).map (·.1)).insertionSort (· ≤ ·) =
      (signedHeaders crates digests fetcher request credentials extra).map (·.1) :=
    sorted_canonicalHeaders.insertionSort_eq
  have hReceived := mapM_received fun header hHeader => h.receivedValue_signed laws hHeaders hToken hHeader
  have hRest := h.hRest
  have hBody : forwarded.body = request.body := by rw [hRest]
  have hMethod : forwarded.method = request.method := by rw [hRest]
  have hUrl : forwarded.url = request.url := by rw [hRest]
  rw [rebuildCanonicalRequest, h.lookup_authorization laws hHeaders]
  dsimp only [Option.bind_eq_bind, Option.bind_some]
  rw [fromUtf8Lossy_utf8, authorization, hNames, hSorted, hReceived, hBody, hMethod, hUrl,
    h.received_bodyHash laws hHeaders hToken]
  rfl

theorem signs_eq (laws : SigningLaws crates) (h : Forwards crates digests fetcher request forwarded credentials extra) :
    fetcher.signs crates digests request = some (signParsed crates digests credentials fetcher.service request.method
      request.url request.body extra fetcher.now fetcher.signing) := by
  rw [SigV4Fetch.signs, h.hCredentials, h.hExtra]
  dsimp only [Except.toOption, Option.bind_eq_bind, Option.bind_some]
  simp only [signRequestWith, laws.parse_text, Except.toOption, Option.some_or, Option.map_some]

theorem rebuildStringToSign_eq (laws : SigningLaws crates) (hHeaders : SingleValued crates request.headers)
    (hToken : ∀ token, credentials.sessionToken = some token → Tidy token.toList)
    (h : Forwards crates digests fetcher request forwarded credentials extra) {canonicalRequest : String}
    (hCanonical : rebuildCanonicalRequest crates digests forwarded = some canonicalRequest) :
    rebuildStringToSign crates digests credentials.region fetcher.service forwarded =
      some (stringToSignText digests fetcher.now.amzDate
        (credentialScope fetcher.now.dateStamp credentials.region fetcher.service) canonicalRequest) := by
  have hDate : ("x-amz-date", fetcher.now.amzDate) ∈
      signedHeaders crates digests fetcher request credentials extra :=
    mem_canonicalHeaders.mpr (.inr (.inl rfl))
  have hReceived := h.receivedValue_signed laws hHeaders hToken hDate
  rw [rebuildStringToSign, hCanonical]
  dsimp only [Option.bind_eq_bind, Option.bind_some] at hReceived ⊢
  rw [hReceived]
  dsimp only [Option.bind_some]
  rw [dateStamp_of_amzDate]
  rfl

end Forwards

theorem canonicalRequestText_query {method path query other : String} {hash : String}
    (h : canonicalRequestText method path query headers hash = canonicalRequestText method path other headers hash) :
    query = other := by
  simp only [canonicalRequestText, String.append_left_inj, String.append_right_inj] at h
  exact h

theorem stringToSignText_digest {digests : Digests} {amzDate scope text other : String}
    (h : stringToSignText digests amzDate scope text = stringToSignText digests amzDate scope other) :
    hexEncode (digests.sha256 (utf8 text)) = hexEncode (digests.sha256 (utf8 other)) :=
  (String.append_right_inj ("AWS4-HMAC-SHA256\n" ++ amzDate ++ "\n" ++ scope ++ "\n")).mp h

theorem Forwards.verifies_iff {fetcher : SigV4Fetch} (laws : SigningLaws crates)
    (hHeaders : SingleValued crates request.headers)
    (hToken : ∀ token, credentials.sessionToken = some token → Tidy token.toList)
    (h : Forwards crates digests fetcher request forwarded credentials extra) :
    Verifies crates digests credentials.region fetcher.service forwarded
      (signParsed crates digests credentials fetcher.service request.method request.url request.body extra
        fetcher.now fetcher.signing) ↔
      ∀ pair ∈ queryPairs ((crates.query request.url).getD ""),
        hasPlusEscape pair.1 = false ∧ hasPlusEscape pair.2 = false := by
  have hRebuilt := h.rebuildCanonicalRequest_eq laws hHeaders hToken
  rw [← canonicalQuery_verified_iff]
  constructor
  · intro hVerifies
    have hSame := hVerifies.canonicalRequest
    rw [hRebuilt] at hSame
    exact canonicalRequestText_query (Option.some.inj hSame)
  · intro hQuery
    rw [hQuery] at hRebuilt
    exact ⟨hRebuilt, h.rebuildStringToSign_eq laws hHeaders hToken hRebuilt⟩

theorem sigv4_verifies_iff (laws : SigningLaws crates) (digests : Digests) (fetcher : SigV4Fetch)
    (hToken : ∀ credentials token, fetcher.credentials = .ok credentials → credentials.sessionToken = some token →
      Tidy token.toList)
    (request forwarded : OutboundRequest Url) (hHeaders : SingleValued crates request.headers)
    (hForwarded : fetcher.fetch crates digests request = .ok forwarded) :
    (request.credentials = .omitted → forwarded = request) ∧
    (request.credentials = .included → ∃ credentials signed, fetcher.credentials = .ok credentials ∧
      fetcher.signs crates digests request = some signed ∧
      (Verifies crates digests credentials.region fetcher.service forwarded signed ↔
        ∀ pair ∈ queryPairs ((crates.query request.url).getD ""),
          hasPlusEscape pair.1 = false ∧ hasPlusEscape pair.2 = false)) := by
  constructor
  · intro hOmitted
    rw [SigV4Fetch.fetch, if_pos hOmitted] at hForwarded
    exact (Except.ok.inj hForwarded).symm
  · intro hIncluded
    obtain ⟨credentials, extra, h⟩ := fetch_forwards laws.toLawful hIncluded hForwarded
    exact ⟨credentials, _, h.hCredentials, h.signs_eq laws,
      h.verifies_iff laws hHeaders fun token hSome => hToken credentials token h.hCredentials hSome⟩

end

/-! ## A signed request, and one with a sign in an escape -/

def signerCrates (query : Option String) : Crates Place :=
  { placeCrates with
    query := fun _ => query
    headerName := fun name =>
      if (asciiLower name).toList.all isTokenChar then .ok (asciiLower name)
      else .error (.mk "invalid HTTP header name" none) }

theorem signerCrates_laws (query : Option String) : SigningLaws (signerCrates query) where
  parse_text := placeCrates_lawful.parse_text
  headerName_lower := by
    intro name built h
    simp only [signerCrates] at h
    split at h
    · exact (Except.ok.inj h).symm
    · cases h
  headerName_token := by
    intro name built h
    simp only [signerCrates] at h
    split at h
    · rename_i hTokens
      rw [← Except.ok.inj h]
      exact List.all_eq_true.mp hTokens
    · cases h
  hostStr_visible := by
    intro place host h
    cases place <;> obtain rfl := Option.some.inj h <;> simp [isWhitespace]

/-- Digests of one byte, which keep texts of different length apart. -/
def lengthDigests : Digests where
  sha256 bytes := [UInt8.ofNat bytes.length]
  hmacSha256 key data := [UInt8.ofNat (key.length + data.length)]

def sampleSigner : SigV4Fetch where
  credentials := .ok { accessKeyId := "AKID", secretAccessKey := "secret", sessionToken := none, region := "us-east-1" }
  service := "bedrock"
  now := { year := 2024, month := 1, day := 2, hour := 3, minute := 4, second := 5 }
  signing := .aws4Fetch

def sampleRequest : OutboundRequest Place where
  method := "POST"
  url := .api
  headers := [("user-agent", utf8 "app/1"), ("x-custom", utf8 "  a   b ")]
  body := utf8 "\x7b\x7d"
  credentials := .included

theorem signerCrates_headerName {query : Option String} (hTokens : (asciiLower name).toList.all isTokenChar = true)
    (hLower : asciiLower name = name) :
    (signerCrates query).headerName name = .ok name := by
  rw [hLower] at hTokens
  simp only [signerCrates, hLower, hTokens, if_true]

theorem sampleRequest_singleValued {query : Option String} : SingleValued (signerCrates query) sampleRequest.headers where
  names := by
    simp only [sampleRequest, List.forall_mem_cons]
    refine ⟨signerCrates_headerName ?_ ?_, signerCrates_headerName ?_ ?_, List.forall_mem_nil _⟩
    all_goals decide +kernel
  single := by decide +kernel

theorem exists_ok_of_isSome {ε : Type} {result : Except ε α} (h : result.toOption.isSome = true) :
    ∃ value, result = .ok value := by
  cases result with
  | error error => cases h
  | ok value => exact ⟨value, rfl⟩

theorem sigv4_verifies_iff_spaces : ∃ forwarded signed,
    sampleSigner.fetch (signerCrates none) lengthDigests sampleRequest = .ok forwarded ∧
    sampleSigner.signs (signerCrates none) lengthDigests sampleRequest = some signed ∧
    Verifies (signerCrates none) lengthDigests "us-east-1" "bedrock" forwarded signed := by
  obtain ⟨forwarded, hForwarded⟩ := exists_ok_of_isSome (show
    (sampleSigner.fetch (signerCrates none) lengthDigests sampleRequest).toOption.isSome = true by decide +kernel)
  have hToken : ∀ credentials token, sampleSigner.credentials = .ok credentials →
      credentials.sessionToken = some token → Tidy token.toList := by
    rintro credentials token ⟨⟩ hNone
    cases hNone
  obtain ⟨credentials, signed, hCredentials, hSigned, hIff⟩ :=
    (sigv4_verifies_iff (signerCrates_laws none) lengthDigests sampleSigner hToken sampleRequest forwarded
      sampleRequest_singleValued hForwarded).2 rfl
  have hRegion : credentials.region = "us-east-1" := by
    cases hCredentials
    rfl
  rw [hRegion] at hIff
  refine ⟨forwarded, signed, hForwarded, hSigned, hIff.mpr ?_⟩
  decide +kernel

theorem sign_in_escape : ∃ forwarded signed,
    sampleSigner.fetch (signerCrates (some "q=%+5")) lengthDigests sampleRequest = .ok forwarded ∧
    sampleSigner.signs (signerCrates (some "q=%+5")) lengthDigests sampleRequest = some signed ∧
    rebuildStringToSign (signerCrates (some "q=%+5")) lengthDigests "us-east-1" "bedrock" forwarded ≠
      some signed.stringToSign := by
  obtain ⟨forwarded, hForwarded⟩ := exists_ok_of_isSome (show
    (sampleSigner.fetch (signerCrates (some "q=%+5")) lengthDigests sampleRequest).toOption.isSome = true by
      decide +kernel)
  have laws := signerCrates_laws (some "q=%+5")
  obtain ⟨credentials, extra, h⟩ := fetch_forwards laws.toLawful rfl hForwarded
  have hExtra : SigV4Fetch.extraHeaders .aws4Fetch sampleRequest.headers = .ok [("x-custom", "  a   b ")] := rfl
  obtain rfl := Except.ok.inj h.hCredentials
  obtain rfl := Except.ok.inj (hExtra.symm.trans h.hExtra)
  refine ⟨forwarded, _, hForwarded, h.signs_eq laws, ?_⟩
  have hToken : ∀ token, (none : Option String) = some token → Tidy token.toList := fun _ hNone => nomatch hNone
  intro hSame
  have hRebuilt := h.rebuildStringToSign_eq laws sampleRequest_singleValued hToken
    (h.rebuildCanonicalRequest_eq laws sampleRequest_singleValued hToken)
  have hDigest := stringToSignText_digest (Option.some.inj (hRebuilt.symm.trans hSame))
  revert hDigest
  decide +kernel

end Aimux.Http
