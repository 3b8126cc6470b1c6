import Aimux.Core.Error
import Aimux.Wire.Base64Text

/-! # Media types of inline data

`media_type.rs`: the signature at the start of the data, or behind its ID3 tag, tells the media type. Of a base64 text
only a prefix is decoded.
-/

namespace Aimux.Wire

open Aimux.Core

inductive MediaTypeData where
  | bytes (bytes : List UInt8)
  | base64 (data : String)

/-- The largest tag, its header of ten bytes included, that is searched for an audio frame. -/
def MAX_ID3_TAG_BYTES : Nat := 128 * 1024

def DEFAULT_SNIFF_BYTES : Nat := 18

def MAX_SIGNATURE_BYTES : Nat := 12

/-- A media type and the bytes its data starts with; `-1` marks a variable byte. -/
structure Signature where
  mediaType : String
  bytes : List Int
deriving DecidableEq, Repr

/-- The order is significant for overlapping containers. -/
def SIGNATURES : List Signature := [
  ⟨"image/gif", [0x47, 0x49, 0x46, 0x38, 0x37, 0x61]⟩,
  ⟨"image/gif", [0x47, 0x49, 0x46, 0x38, 0x39, 0x61]⟩,
  ⟨"image/png", [0x89, 0x50, 0x4e, 0x47]⟩,
  ⟨"image/jpeg", [0xff, 0xd8]⟩,
  ⟨"image/webp", [0x52, 0x49, 0x46, 0x46, -1, -1, -1, -1, 0x57, 0x45, 0x42, 0x50]⟩,
  ⟨"image/bmp", [0x42, 0x4d, -1, -1, -1, -1, 0, 0, 0, 0]⟩,
  ⟨"image/tiff", [0x49, 0x49, 0x2a, 0]⟩,
  ⟨"image/tiff", [0x4d, 0x4d, 0, 0x2a]⟩,
  ⟨"image/avif", [0, 0, 0, -1, 0x66, 0x74, 0x79, 0x70, 0x61, 0x76, 0x69, 0x66]⟩,
  ⟨"image/heic", [0, 0, 0, -1, 0x66, 0x74, 0x79, 0x70, 0x68, 0x65, 0x69, 0x63]⟩,
  ⟨"application/pdf", [0x25, 0x50, 0x44, 0x46]⟩,
  ⟨"audio/aac", [0xff, 0xf0]⟩,
  ⟨"audio/aac", [0xff, 0xf1]⟩,
  ⟨"audio/aac", [0xff, 0xf8]⟩,
  ⟨"audio/aac", [0xff, 0xf9]⟩,
  ⟨"audio/mpeg", [0xff, 0xfb]⟩,
  ⟨"audio/mpeg", [0xff, 0xfa]⟩,
  ⟨"audio/mpeg", [0xff, 0xf3]⟩,
  ⟨"audio/mpeg", [0xff, 0xf2]⟩,
  ⟨"audio/mpeg", [0xff, 0xe3]⟩,
  ⟨"audio/mpeg", [0xff, 0xe2]⟩,
  ⟨"audio/wav", [0x52, 0x49, 0x46, 0x46, -1, -1, -1, -1, 0x57, 0x41, 0x56, 0x45]⟩,
  ⟨"audio/ogg", [0x4f, 0x67, 0x67, 0x53]⟩,
  ⟨"audio/flac", [0x66, 0x4c, 0x61, 0x43]⟩,
  ⟨"audio/aac", [0x40, 0x15, 0, 0]⟩,
  ⟨"audio/webm", [0x1a, 0x45, 0xdf, 0xa3]⟩,
  ⟨"video/mp4", [0, 0, 0, -1, 0x66, 0x74, 0x79, 0x70]⟩,
  ⟨"video/webm", [0x1a, 0x45, 0xdf, 0xa3]⟩,
  ⟨"video/quicktime", [0, 0, 0, 0x14, 0x66, 0x74, 0x79, 0x70, 0x71, 0x74]⟩,
  ⟨"video/x-msvideo", [0x52, 0x49, 0x46, 0x46]⟩,
  ⟨"audio/mp4", [0, 0, 0, -1, 0x66, 0x74, 0x79, 0x70]⟩]

/-- The segment before the first slash. -/
def getTopLevelMediaType (mediaType : String) : String := String.ofList (mediaType.toList.takeWhile (· ≠ '/'))

/-- The code units of a text. -/
def units (data : String) : List Nat := data.toList.flatMap encodeUtf16

/-- The code units of the quanta that hold so many bytes. -/
def unitsFor (maxBytes : Nat) : Nat := (maxBytes + 2) / 3 * 4

def decodePrefix (data : MediaTypeData) (maxBytes : Nat) : Except AiMuxError (List UInt8) :=
  match data with
  | .bytes bytes => .ok (bytes.take maxBytes)
  | .base64 data =>
    match forgivingDecode ((units data).take (unitsFor maxBytes)) with
    | some bytes => .ok (bytes.take maxBytes)
    | none => .error (.invalidArgument "invalid base64 data" none)

def isEligible (topLevelType : Option String) (mediaType : String) : Bool :=
  match topLevelType with
  | some kind => getTopLevelMediaType mediaType == kind
  | none => mediaType != "audio/mp4"

def Signature.isAt (signature : Signature) (bytes : List UInt8) : Bool :=
  signature.bytes.length ≤ bytes.length &&
    (signature.bytes.zip bytes).all fun (expected, actual) => expected == -1 || expected == actual.toNat

def signatureOf (topLevelType : Option String) (bytes : List UInt8) : Option Signature :=
  SIGNATURES.find? fun signature => isEligible topLevelType signature.mediaType && signature.isAt bytes

def hasId3Tag (bytes : List UInt8) : Bool := 10 < bytes.length && [0x49, 0x44, 0x33].isPrefixOf bytes

/-- Where the tag ends: seven bits of each of the four bytes of its size. -/
def id3End (bytes : List UInt8) : Nat :=
  let size (i : Nat) : Nat := (bytes.getD i 0 &&& 0x7f).toNat
  10 + (size 6 <<< 21 ||| size 7 <<< 14 ||| size 8 <<< 7 ||| size 9)

def isKnownTopLevel (topLevelType : Option String) : Bool :=
  topLevelType.all fun kind => kind ∈ ["image", "audio", "video", "application"]

def detectMediaType (data : MediaTypeData) (topLevelType : Option String) : Except AiMuxError (Option String) :=
  if isKnownTopLevel topLevelType then do
    let bytes ← decodePrefix data DEFAULT_SNIFF_BYTES
    if hasId3Tag bytes then
      let bytes ← decodePrefix data (MAX_ID3_TAG_BYTES + MAX_SIGNATURE_BYTES)
      return (signatureOf topLevelType (bytes.drop (min (id3End bytes) bytes.length))).map (·.mediaType)
    return (signatureOf topLevelType bytes).map (·.mediaType)
  else .ok none

/-! ## Signatures on a prefix -/

theorem zip_take {α β : Type} (xs : List α) (ys : List β) {n : Nat} (h : xs.length ≤ n) :
    xs.zip (ys.take n) = xs.zip ys := by
  induction xs generalizing ys n with
  | nil => simp
  | cons x xs ih =>
    cases ys with
    | nil => simp
    | cons y ys =>
      cases n with
      | zero => simp at h
      | succ n => simp [ih ys (Nat.le_of_succ_le_succ h)]

theorem Signature.isAt_take (signature : Signature) (bytes : List UInt8) (n : Nat) :
    signature.isAt (bytes.take n) = (signature.isAt bytes && decide (signature.bytes.length ≤ n)) := by
  by_cases hFits : signature.bytes.length ≤ n
  · rw [isAt, isAt, zip_take _ _ hFits, List.length_take]
    simp [hFits]
  · rw [isAt, List.length_take]
    simp [hFits]

/-- A later signature of the same media type is not shorter. -/
theorem signatures_pairwise :
    SIGNATURES.Pairwise fun a b => a.mediaType = b.mediaType → a.bytes.length ≤ b.bytes.length := by decide

theorem signatures_length :
    ∀ signature ∈ SIGNATURES, 0 < signature.bytes.length ∧ signature.bytes.length ≤ MAX_SIGNATURE_BYTES := by decide

/-- A search that skips what fails a test finds something else, unless what it finds passes the test. -/
theorem find_and_map_iff {α β : Type} {p q : α → Bool} {f : α → β} {xs : List α}
    (hPairwise : xs.Pairwise fun a b => f a = f b → q b = true → q a = true) :
    (xs.find? fun a => p a && q a).map f = (xs.find? p).map f ↔ ∀ a, xs.find? p = some a → q a = true := by
  induction xs with
  | nil => simp
  | cons x xs ih =>
    obtain ⟨hHead, hTail⟩ := List.pairwise_cons.mp hPairwise
    by_cases hFound : p x = true
    · by_cases hTest : q x = true
      · simp [hFound, hTest]
      · rw [List.find?_cons_of_neg (by simp [hTest]), List.find?_cons_of_pos hFound]
        constructor
        · intro hSame
          obtain ⟨later, hLater, hMap⟩ := Option.map_eq_some_iff.mp hSame
          have hPasses := List.find?_some hLater
          have hEarlier := hHead later (List.mem_of_find?_eq_some hLater) hMap.symm (Bool.and_eq_true_iff.mp hPasses).2
          exact absurd hEarlier hTest
        · intro hAll
          exact absurd (hAll x rfl) hTest
    · rw [List.find?_cons_of_neg (by simp [hFound]), List.find?_cons_of_neg hFound]
      exact ih hTail

theorem mediaType_take_iff (topLevelType : Option String) (bytes : List UInt8) (n : Nat) :
    (signatureOf topLevelType (bytes.take n)).map (·.mediaType) = (signatureOf topLevelType bytes).map (·.mediaType) ↔
      ∀ signature, signatureOf topLevelType bytes = some signature → signature.bytes.length ≤ n := by
  have hSkips : signatureOf topLevelType (bytes.take n) = SIGNATURES.find? fun signature =>
      (isEligible topLevelType signature.mediaType && signature.isAt bytes) && decide (signature.bytes.length ≤ n) := by
    simp only [signatureOf, Signature.isAt_take, Bool.and_assoc]
  have hPairwise : SIGNATURES.Pairwise fun a b => a.mediaType = b.mediaType →
      decide (b.bytes.length ≤ n) = true → decide (a.bytes.length ≤ n) = true := by
    apply signatures_pairwise.imp
    intro a b hShort hSame hFits
    exact decide_eq_true (le_trans (hShort hSame) (of_decide_eq_true hFits))
  have hFind := find_and_map_iff (p := fun signature : Signature =>
    isEligible topLevelType signature.mediaType && signature.isAt bytes) hPairwise
  rw [hSkips, signatureOf]
  simpa only [decide_eq_true_eq] using hFind

/-! ## Tags on a prefix -/

theorem hasId3Tag_take (bytes : List UInt8) (n : Nat) :
    hasId3Tag (bytes.take n) = true ↔ hasId3Tag bytes = true ∧ 10 < n := by
  simp only [hasId3Tag, Bool.and_eq_true, decide_eq_true_eq, List.isPrefixOf_iff_prefix, List.prefix_take_iff,
    List.length_take, lt_min_iff]
  constructor
  · rintro ⟨⟨hn, hLength⟩, hTag, -⟩
    exact ⟨⟨hLength, hTag⟩, hn⟩
  · rintro ⟨⟨hLength, hTag⟩, hn⟩
    exact ⟨⟨hn, hLength⟩, hTag, le_trans (by decide) hn.le⟩

theorem id3End_take (bytes : List UInt8) {n : Nat} (hHeader : 10 ≤ n) : id3End (bytes.take n) = id3End bytes := by
  have hByte (i : Nat) (hi : i < n) : (bytes.take n).getD i 0 = bytes.getD i 0 := by
    rw [List.getD_eq_getElem?_getD, List.getD_eq_getElem?_getD, List.getElem?_take_of_lt hi]
  rw [id3End, id3End]
  dsimp only
  rw [hByte 6 (by omega), hByte 7 (by omega), hByte 8 (by omega), hByte 9 (by omega)]

theorem zip_all_prefix {α β : Type} {p : α × β → Bool} {xs : List α} {ys zs : List β} (hPrefix : ys <+: zs)
    (h : (xs.zip zs).all p = true) : (xs.zip ys).all p = true := by
  induction xs generalizing ys zs with
  | nil => rfl
  | cons x xs ih =>
    obtain ⟨rest, rfl⟩ := hPrefix
    cases ys with
    | nil => rfl
    | cons y ys =>
      rw [List.cons_append, List.zip_cons_cons, List.all_cons, Bool.and_eq_true] at h
      rw [List.zip_cons_cons, List.all_cons, Bool.and_eq_true]
      exact ⟨h.1, ih (List.prefix_append ys rest) h.2⟩

/-- No signature starts as a tag does. -/
theorem signatureOf_tagged (topLevelType : Option String) {bytes : List UInt8} (hTag : hasId3Tag bytes = true)
    (n : Nat) : signatureOf topLevelType (bytes.take n) = none := by
  have hApart : ∀ signature ∈ SIGNATURES, ((signature.bytes.zip [0x49, 0x44, 0x33]).all
      fun (expected, actual) => expected == -1 || expected == (actual : UInt8).toNat) = false := by decide
  apply List.find?_eq_none.mpr
  intro signature hMem hFound
  rw [Signature.isAt_take, Bool.and_eq_true, Bool.and_eq_true] at hFound
  have hStart : [0x49, 0x44, 0x33] <+: bytes := List.isPrefixOf_iff_prefix.mp (Bool.and_eq_true_iff.mp hTag).2
  have hZip := zip_all_prefix hStart (Bool.and_eq_true_iff.mp hFound.2.1).2
  rw [hApart signature hMem] at hZip
  cases hZip

theorem drop_min_length {α : Type} (xs : List α) (n : Nat) : xs.drop (min n xs.length) = xs.drop n := by
  by_cases hInside : n ≤ xs.length
  · rw [Nat.min_eq_left hInside]
  · rw [Nat.min_eq_right (by omega), List.drop_eq_nil_of_le (le_refl _), List.drop_eq_nil_of_le (by omega)]

/-- The bytes behind the tag, as far as they are searched. -/
def afterTag (bytes : List UInt8) : List UInt8 :=
  (bytes.take (MAX_ID3_TAG_BYTES + MAX_SIGNATURE_BYTES)).drop (id3End bytes)

theorem signatureOf_length {topLevelType : Option String} {bytes : List UInt8} {signature : Signature}
    (h : signatureOf topLevelType bytes = some signature) :
    0 < signature.bytes.length ∧ signature.bytes.length ≤ MAX_SIGNATURE_BYTES :=
  signatures_length signature (List.mem_of_find?_eq_some h)

theorem detectMediaType_bytes (topLevelType : Option String) (bytes : List UInt8) :
    detectMediaType (.bytes bytes) topLevelType = .ok (if isKnownTopLevel topLevelType then
      (signatureOf topLevelType (if hasId3Tag bytes then afterTag bytes else bytes)).map (·.mediaType) else none) := by
  have hSniffed : hasId3Tag (bytes.take DEFAULT_SNIFF_BYTES) = hasId3Tag bytes := by
    rw [Bool.eq_iff_iff, hasId3Tag_take]
    exact and_iff_left (by decide)
  have hHeader : 10 ≤ MAX_ID3_TAG_BYTES + MAX_SIGNATURE_BYTES := by decide
  unfold detectMediaType
  by_cases hKnown : isKnownTopLevel topLevelType = true
  · rw [if_pos hKnown, if_pos hKnown]
    simp only [decodePrefix, bind, Except.bind, pure, Except.pure, hSniffed, id3End_take bytes hHeader, drop_min_length]
    by_cases hTag : hasId3Tag bytes = true
    · rw [if_pos hTag, if_pos hTag, afterTag]
    · rw [if_neg hTag, if_neg hTag]
      have hShort := (mediaType_take_iff topLevelType bytes DEFAULT_SNIFF_BYTES).mpr fun signature hFound =>
        le_trans (signatureOf_length hFound).2 (by decide)
      exact congrArg Except.ok hShort
  · rw [if_neg hKnown, if_neg hKnown]

end Aimux.Wire
