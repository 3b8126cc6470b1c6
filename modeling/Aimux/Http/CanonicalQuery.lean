import Aimux.Http.SigV4Verifier
import Aimux.Lib.AsciiSearch

/-! # Canonical queries

The canonical query string of a request, as the signature scheme defines it, and what the signer makes of a
query.
-/

namespace Aimux.Http

open Aimux.Lib

/-! ## The reference -/

def BeginsWithEscape (bytes : List UInt8) : Prop :=
  ∃ high low rest, bytes = 37 :: high :: low :: rest ∧ (hexValue high).isSome = true ∧ (hexValue low).isSome = true

/-- Exactly the escapes of two hexadecimal digits are decoded. -/
inductive Decodes : List UInt8 → List UInt8 → Prop
  | nil : Decodes [] []
  | escape {high low a b : UInt8} {rest out : List UInt8} (hHigh : hexValue high = some a)
    (hLow : hexValue low = some b) (hRest : Decodes rest out) :
    Decodes (37 :: high :: low :: rest) ((a * 16 + b) :: out)
  | plain {byte : UInt8} {rest out : List UInt8} (hPlain : ¬ BeginsWithEscape (byte :: rest))
    (hRest : Decodes rest out) : Decodes (byte :: rest) (byte :: out)

/-- A name, and a value after the first `=`. -/
inductive SplitsAtFirst : List UInt8 → List UInt8 → List UInt8 → Prop
  | found {name : List UInt8} (value : List UInt8) (hName : 61 ∉ name) : SplitsAtFirst (name ++ 61 :: value) name value
  | missing {name : List UInt8} (hName : 61 ∉ name) : SplitsAtFirst name name []

inductive ReferencePair (segment : List UInt8) : String × String → Prop
  | mk {name value decodedName decodedValue : List UInt8} (hSplit : SplitsAtFirst segment name value)
    (hName : Decodes name decodedName) (hValue : Decodes value decodedValue) :
    ReferencePair segment (uriEncode decodedName, uriEncode decodedValue)

/-- The pairs of a query, what stands between two `&`. -/
def querySegments (query : String) : List (List UInt8) := ((utf8 query).splitOn 38).filter (· ≠ [])

def joinPairs (pairs : List (String × String)) : String :=
  String.intercalate "&" (pairs.map fun pair => pair.1 ++ "=" ++ pair.2)

inductive ReferenceQuery (query : String) : String → Prop
  | mk {encoded pairs : List (String × String)} (hEncoded : List.Forall₂ ReferencePair (querySegments query) encoded)
    (hPerm : pairs.Perm encoded) (hSorted : pairs.Pairwise pairLe) : ReferenceQuery query (joinPairs pairs)

variable {high low : UInt8}

theorem decodeEscapes_escape {a b : UInt8} (hHigh : hexValue high = some a) (hLow : hexValue low = some b)
    (rest : List UInt8) :
    decodeEscapes hexNumber (37 :: high :: low :: rest) = (a * 16 + b) :: decodeEscapes hexNumber rest := by
  rw [decodeEscapes, if_pos rfl, hexNumber, hHigh, hLow]

theorem hexNumber_eq_none (h : ¬ ((hexValue high).isSome = true ∧ (hexValue low).isSome = true)) :
    hexNumber high low = none := by
  rw [hexNumber]
  cases hHigh : hexValue high with
  | none => rfl
  | some a =>
    cases hLow : hexValue low with
    | none => rfl
    | some b => exact absurd ⟨by rw [hHigh]; rfl, by rw [hLow]; rfl⟩ h

theorem decodeEscapes_of_plain {byte : UInt8} {rest : List UInt8} (h : ¬ BeginsWithEscape (byte :: rest)) :
    decodeEscapes hexNumber (byte :: rest) = byte :: decodeEscapes hexNumber rest := by
  by_cases hByte : byte = 37
  · subst hByte
    cases rest with
    | nil => rfl
    | cons high rest =>
      cases rest with
      | nil => rfl
      | cons low rest =>
        have hNone : hexNumber high low = none :=
          hexNumber_eq_none fun hBoth => h ⟨high, low, rest, rfl, hBoth.1, hBoth.2⟩
        rw [decodeEscapes, if_pos rfl, hNone]
  · exact decodeEscapes_cons_ne hByte rest

theorem decodes_total (bytes : List UInt8) : Decodes bytes (decodeEscapes hexNumber bytes) := by
  induction hLength : bytes.length using Nat.strongRecOn generalizing bytes with
  | ind length ih =>
    cases bytes with
    | nil => exact .nil
    | cons byte rest =>
      subst hLength
      by_cases hEscape : BeginsWithEscape (byte :: rest)
      · obtain ⟨high, low, rest', hEq, hHigh, hLow⟩ := hEscape
        obtain ⟨rfl, rfl⟩ := List.cons.inj hEq
        obtain ⟨a, hA⟩ := Option.isSome_iff_exists.mp hHigh
        obtain ⟨b, hB⟩ := Option.isSome_iff_exists.mp hLow
        rw [decodeEscapes_escape hA hB]
        exact .escape hA hB (ih rest'.length (by simp only [List.length_cons]; omega) rest' rfl)
      · rw [decodeEscapes_of_plain hEscape]
        exact .plain hEscape (ih rest.length (by simp) rest rfl)

theorem decodes_iff {bytes out : List UInt8} : Decodes bytes out ↔ out = decodeEscapes hexNumber bytes := by
  constructor
  · intro h
    induction h with
    | nil => rfl
    | escape hHigh hLow _ ih => rw [decodeEscapes_escape hHigh hLow, ih]
    | plain hPlain _ ih => rw [decodeEscapes_of_plain hPlain, ih]
  · rintro rfl
    exact decodes_total bytes

theorem splitsAtFirst_iff {segment name value : List UInt8} :
    SplitsAtFirst segment name value ↔
      name = segment.takeWhile (· ≠ 61) ∧ value = (segment.dropWhile (· ≠ 61)).drop 1 := by
  have hKeeps {name : List UInt8} (hName : 61 ∉ name) : ∀ byte ∈ name, decide (byte ≠ 61) = true :=
    fun byte hByte => decide_eq_true fun h => hName (h ▸ hByte)
  constructor
  · rintro (⟨value, hName⟩ | hName)
    · rw [List.takeWhile_append_of_pos (hKeeps hName), List.dropWhile_append_of_pos (hKeeps hName)]
      simp
    · rw [List.takeWhile_eq_self_iff.mpr (hKeeps hName), List.dropWhile_eq_nil_iff.mpr (hKeeps hName)]
      exact ⟨rfl, rfl⟩
  · rintro ⟨rfl, rfl⟩
    have hName : 61 ∉ segment.takeWhile (· ≠ 61) := by
      intro hMem
      have hKept := List.mem_takeWhile_imp hMem
      simp at hKept
    have hSplit := List.takeWhile_append_dropWhile (p := fun byte : UInt8 => byte ≠ 61) (l := segment)
    cases hRest : segment.dropWhile (· ≠ 61) with
    | nil =>
      rw [hRest, List.append_nil] at hSplit
      have hMissing := SplitsAtFirst.missing hName
      rwa [hSplit] at hMissing ⊢
    | cons first rest =>
      have hFirst : first = 61 := by
        have hHead := List.head?_dropWhile_not (fun byte : UInt8 => decide (byte ≠ 61)) segment
        rw [hRest] at hHead
        simpa using hHead
      have hFound := SplitsAtFirst.found rest hName
      rw [hRest, hFirst] at hSplit
      rwa [hSplit] at hFound

def referencePair (segment : List UInt8) : String × String :=
  (uriEncode (decodeEscapes hexNumber (segment.takeWhile (· ≠ 61))),
    uriEncode (decodeEscapes hexNumber ((segment.dropWhile (· ≠ 61)).drop 1)))

variable {pair : String × String}

theorem referencePair_iff {segment : List UInt8} :
    ReferencePair segment pair ↔ pair = referencePair segment := by
  constructor
  · rintro ⟨hSplit, hName, hValue⟩
    obtain ⟨rfl, rfl⟩ := splitsAtFirst_iff.mp hSplit
    rw [decodes_iff.mp hName, decodes_iff.mp hValue]
    rfl
  · rintro rfl
    exact .mk (splitsAtFirst_iff.mpr ⟨rfl, rfl⟩) (decodes_total _) (decodes_total _)

/-! ## One pair order, and so one canonical query -/

theorem pairLe_iff {other : String × String} : pairLe pair other ↔ toLex pair ≤ toLex other :=
  Prod.Lex.le_iff.symm

theorem sorted_pairs (pairs : List (String × String)) : (pairs.insertionSort pairLe).Pairwise pairLe := by
  have hTotal : Std.Total pairLe := ⟨fun pair other => by
    rw [pairLe_iff, pairLe_iff]
    exact le_total _ _⟩
  have hTrans : IsTrans (String × String) pairLe := ⟨fun pair middle other hFirst hSecond => by
    rw [pairLe_iff] at hFirst hSecond ⊢
    exact hFirst.trans hSecond⟩
  exact List.pairwise_insertionSort pairLe pairs

variable {pairs : List (String × String)}

theorem eq_of_perm_sorted {others : List (String × String)} (hPerm : pairs.Perm others)
    (hSorted : pairs.Pairwise pairLe) (hOthers : others.Pairwise pairLe) : pairs = others := by
  refine List.Perm.eq_of_pairwise (fun pair other _ _ hLe hGe => ?_) hSorted hOthers hPerm
  exact toLex.injective (le_antisymm (pairLe_iff.mp hLe) (pairLe_iff.mp hGe))

theorem insertionSort_eq_of_perm {others : List (String × String)} (hPerm : pairs.Perm others) :
    pairs.insertionSort pairLe = others.insertionSort pairLe :=
  eq_of_perm_sorted (((List.perm_insertionSort pairLe pairs).trans hPerm).trans
    (List.perm_insertionSort pairLe others).symm) (sorted_pairs pairs) (sorted_pairs others)

def encodedPairs (decode : List UInt8 → List UInt8) (query : String) : List (String × String) :=
  (queryPairs query).map fun pair => (uriEncode (decode pair.1), uriEncode (decode pair.2))

theorem canonicalQueryBy_eq (decode : List UInt8 → List UInt8) (query : String) :
    canonicalQueryBy decode query = joinPairs ((encodedPairs decode query).insertionSort pairLe) := rfl

theorem encodedPairs_reference (query : String) :
    encodedPairs (decodeEscapes hexNumber) query = (querySegments query).map referencePair :=
  List.map_map

theorem forall₂_referencePair {segments : List (List UInt8)} {encoded : List (String × String)} :
    List.Forall₂ ReferencePair segments encoded ↔ encoded = segments.map referencePair := by
  induction segments generalizing encoded with
  | nil => rw [List.forall₂_nil_left_iff, List.map_nil]
  | cons segment segments ih =>
    rw [List.forall₂_cons_left_iff, List.map_cons]
    constructor
    · rintro ⟨pair, rest, hPair, hRest, rfl⟩
      rw [referencePair_iff.mp hPair, ih.mp hRest]
    · rintro rfl
      exact ⟨_, _, referencePair_iff.mpr rfl, ih.mpr rfl, rfl⟩

variable {query text : String}

theorem referenceQuery_iff :
    ReferenceQuery query text ↔ text = canonicalQueryBy (decodeEscapes hexNumber) query := by
  rw [canonicalQueryBy_eq, encodedPairs_reference]
  constructor
  · rintro ⟨hEncoded, hPerm, hSorted⟩
    rw [← forall₂_referencePair.mp hEncoded,
      eq_of_perm_sorted (hPerm.trans (List.perm_insertionSort pairLe _).symm) hSorted (sorted_pairs _)]
  · rintro rfl
    exact .mk (forall₂_referencePair.mpr rfl) (List.perm_insertionSort pairLe _) (sorted_pairs _)

theorem canonicalQuery_perm {other : String} (hPerm : (querySegments other).Perm (querySegments query)) :
    canonicalQuery other = canonicalQuery query := by
  have hEncoded : (encodedPairs percentDecode other).Perm (encodedPairs percentDecode query) := (hPerm.map _).map _
  rw [canonicalQuery, canonicalQuery, canonicalQueryBy_eq, canonicalQueryBy_eq, insertionSort_eq_of_perm hEncoded]

/-! ## Canonical queries are fixed -/

def IsEncoded (text : String) : Prop := ∃ bytes, text = uriEncode bytes

theorem isEncoded_encodedPairs {decode : List UInt8 → List UInt8} (h : pair ∈ encodedPairs decode query) :
    IsEncoded pair.1 ∧ IsEncoded pair.2 := by
  obtain ⟨raw, -, rfl⟩ := List.mem_map.mp h
  exact ⟨⟨_, rfl⟩, ⟨_, rfl⟩⟩

/-- The code of an upper-case hexadecimal digit. -/
def digitCode (digit : Nat) : UInt8 := UInt8.ofNat (hexDigit digit).toUpper.toNat

theorem digitCode_spec : ∀ digit : Fin 16,
    String.utf8EncodeChar (hexDigit digit.val).toUpper = [digitCode digit.val] ∧
      hexValue (digitCode digit.val) = some (UInt8.ofNat digit.val) ∧
      digitCode digit.val ≠ 38 ∧ digitCode digit.val ≠ 61 := by
  decide +kernel

theorem unreserved_spec : ∀ n : Fin 256, isUnreserved (UInt8.ofNat n.val) = true →
    String.utf8EncodeChar (Char.ofNat (UInt8.ofNat n.val).toNat) = [UInt8.ofNat n.val] ∧
      UInt8.ofNat n.val ≠ 37 ∧ UInt8.ofNat n.val ≠ 38 ∧ UInt8.ofNat n.val ≠ 61 := by
  decide +kernel

/-- How one encoded byte stands in the bytes of a text. -/
inductive EncodedAs (byte : UInt8) : List UInt8 → Prop
  | itself (hPercent : byte ≠ 37) (hAmpersand : byte ≠ 38) (hEquals : byte ≠ 61) : EncodedAs byte [byte]
  | escaped {high low a b : UInt8} (hHigh : hexValue high = some a) (hLow : hexValue low = some b)
    (hByte : a * 16 + b = byte) (hAmpersand : high ≠ 38 ∧ low ≠ 38) (hEquals : high ≠ 61 ∧ low ≠ 61) :
    EncodedAs byte [37, high, low]

theorem encodedAs (byte : UInt8) : EncodedAs byte ((encodeByte byte).flatMap String.utf8EncodeChar) := by
  have hLt := byte.toNat_lt
  have hByte : UInt8.ofNat byte.toNat = byte := UInt8.ofNat_toNat
  rw [encodeByte]
  split
  · rename_i hUnreserved
    have hSpec := unreserved_spec ⟨byte.toNat, hLt⟩
    simp only [hByte] at hSpec
    obtain ⟨hCode, hPercent, hAmpersand, hEquals⟩ := hSpec hUnreserved
    rw [List.flatMap_singleton, hCode]
    exact .itself hPercent hAmpersand hEquals
  · obtain ⟨hHighCode, hHigh, hHighAmpersand, hHighEquals⟩ := digitCode_spec ⟨byte.toNat / 16, by omega⟩
    obtain ⟨hLowCode, hLow, hLowAmpersand, hLowEquals⟩ := digitCode_spec ⟨byte.toNat % 16, by omega⟩
    dsimp only at hHighCode hHigh hHighAmpersand hHighEquals hLowCode hLow hLowAmpersand hLowEquals
    rw [List.flatMap_cons, List.flatMap_cons, List.flatMap_singleton, hHighCode, hLowCode]
    refine .escaped hHigh hLow ?_ ⟨hHighAmpersand, hLowAmpersand⟩ ⟨hHighEquals, hLowEquals⟩
    refine UInt8.toNat_inj.mp ?_
    simp only [UInt8.toNat_add, UInt8.toNat_mul, UInt8.toNat_ofNat', UInt8.reduceToNat]
    omega

theorem utf8_uriEncode (bytes : List UInt8) :
    utf8 (uriEncode bytes) = bytes.flatMap fun byte => (encodeByte byte).flatMap String.utf8EncodeChar := by
  rw [utf8, uriEncode, String.toList_ofList, List.flatMap_assoc]

theorem percentDecode_escape {a b : UInt8} (hHigh : hexValue high = some a) (hLow : hexValue low = some b)
    (rest : List UInt8) : percentDecode (37 :: high :: low :: rest) = (a * 16 + b) :: percentDecode rest := by
  rw [percentDecode, percentDecode, decodeEscapes, if_pos rfl, fromStrRadix16, hHigh, hLow]

theorem percentDecode_uriEncode (bytes : List UInt8) : percentDecode (utf8 (uriEncode bytes)) = bytes := by
  rw [utf8_uriEncode]
  induction bytes with
  | nil => rfl
  | cons byte bytes ih =>
    rw [List.flatMap_cons]
    have hAs := encodedAs byte
    generalize (encodeByte byte).flatMap String.utf8EncodeChar = code at hAs
    cases hAs with
    | itself hPercent _ _ => rw [List.singleton_append, percentDecode, decodeEscapes_cons_ne hPercent, ← percentDecode, ih]
    | escaped hHigh hLow hByte _ _ =>
      rw [List.cons_append, List.cons_append, List.singleton_append, percentDecode_escape hHigh hLow, hByte, ih]

theorem EncodedAs.not_mem {byte : UInt8} {code : List UInt8} (h : EncodedAs byte code) : 38 ∉ code ∧ 61 ∉ code := by
  cases h with
  | itself _ hAmpersand hEquals => simp [hAmpersand.symm, hEquals.symm]
  | escaped _ _ _ hAmpersand hEquals =>
    simp [hAmpersand.1.symm, hAmpersand.2.symm, hEquals.1.symm, hEquals.2.symm]

theorem IsEncoded.not_mem (h : IsEncoded text) : 38 ∉ utf8 text ∧ 61 ∉ utf8 text := by
  obtain ⟨bytes, rfl⟩ := h
  rw [utf8_uriEncode]
  constructor <;> intro hMem <;> obtain ⟨byte, -, hCode⟩ := List.mem_flatMap.mp hMem
  · exact (encodedAs byte).not_mem.1 hCode
  · exact (encodedAs byte).not_mem.2 hCode

theorem IsEncoded.decoded (h : IsEncoded text) : uriEncode (percentDecode (utf8 text)) = text := by
  obtain ⟨bytes, rfl⟩ := h
  rw [percentDecode_uriEncode]

theorem utf8_intercalate (texts : List String) :
    utf8 (String.intercalate "&" texts) = List.intercalate [38] (texts.map utf8) := by
  induction texts with
  | nil => rfl
  | cons text texts ih =>
    cases texts with
    | nil => simp
    | cons next texts =>
      rw [String.intercalate_cons_cons, utf8_append, utf8_append, ih, List.map_cons, List.map_cons, List.map_cons,
        List.intercalate_cons_cons]
      rfl

/-- Written pairs are read as they are. -/
theorem queryPairs_joinPairs (hEncoded : ∀ pair ∈ pairs, IsEncoded pair.1 ∧ IsEncoded pair.2) :
    queryPairs (joinPairs pairs) = pairs.map fun pair => (utf8 pair.1, utf8 pair.2) := by
  cases hPairs : pairs with
  | nil => rfl
  | cons first rest =>
    rw [← hPairs]
    have hPair (pair : String × String) : utf8 (pair.1 ++ "=" ++ pair.2) = utf8 pair.1 ++ 61 :: utf8 pair.2 := by
      rw [utf8_append, utf8_append, List.append_assoc]
      rfl
    have hNames : ∀ segment ∈ (pairs.map fun pair => pair.1 ++ "=" ++ pair.2).map utf8, 38 ∉ segment := by
      simp only [List.map_map, List.mem_map, forall_exists_index, and_imp]
      rintro _ pair hMem rfl
      obtain ⟨hName, hValue⟩ := hEncoded pair hMem
      rw [Function.comp_apply, hPair]
      simp [hName.not_mem.1, hValue.not_mem.1]
    rw [queryPairs, joinPairs, utf8_intercalate, List.splitOn_intercalate 38 hNames (by simp [hPairs])]
    rw [List.map_map, List.filter_map, List.map_map]
    rw [List.filter_eq_self.mpr fun pair _ => by simp [hPair]]
    refine List.map_congr_left fun pair hMem => ?_
    obtain ⟨hName, -⟩ := hEncoded pair hMem
    obtain ⟨hSplitName, hSplitValue⟩ := splitsAtFirst_iff.mp (.found (utf8 pair.2) hName.not_mem.2)
    simp only [Function.comp_apply, hPair]
    rw [← hSplitName, ← hSplitValue]

theorem canonicalQuery_fixed (query : String) : canonicalQuery (canonicalQuery query) = canonicalQuery query := by
  have hEncoded : ∀ pair ∈ (encodedPairs percentDecode query).insertionSort pairLe, IsEncoded pair.1 ∧ IsEncoded pair.2 :=
    fun pair hPair => isEncoded_encodedPairs ((List.mem_insertionSort pairLe).mp hPair)
  have hAgain : encodedPairs percentDecode (joinPairs ((encodedPairs percentDecode query).insertionSort pairLe)) =
      (encodedPairs percentDecode query).insertionSort pairLe := by
    rw [encodedPairs, queryPairs_joinPairs hEncoded, List.map_map]
    refine (List.map_congr_left fun pair hPair => ?_).trans (List.map_id _)
    obtain ⟨hName, hValue⟩ := hEncoded pair hPair
    simp only [Function.comp_apply, hName.decoded, hValue.decoded, id]
  rw [canonicalQuery, canonicalQuery, canonicalQueryBy_eq, canonicalQueryBy_eq, hAgain,
    (sorted_pairs _).insertionSort_eq]

/-- The canonical query does not depend on the order of the pairs and is its own canonical query. It is the
reference's exactly when no escape has a sign. -/
theorem canonicalQuery_iff (query : String) :
    (ReferenceQuery query (canonicalQuery query) ∧
      (∀ other, (querySegments other).Perm (querySegments query) → canonicalQuery other = canonicalQuery query) ∧
      canonicalQuery (canonicalQuery query) = canonicalQuery query) ↔
    ∀ pair ∈ queryPairs query, hasPlusEscape pair.1 = false ∧ hasPlusEscape pair.2 = false := by
  rw [← canonicalQuery_verified_iff, referenceQuery_iff]
  constructor
  · rintro ⟨hReference, -, -⟩
    exact hReference.symm
  · intro hSame
    exact ⟨hSame.symm, fun _ => canonicalQuery_perm, canonicalQuery_fixed query⟩

theorem sign_read_as_digit : ¬ ReferenceQuery "a=%+F" (canonicalQuery "a=%+F") := by
  rw [referenceQuery_iff]
  decide +kernel

end Aimux.Http
