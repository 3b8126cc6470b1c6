import Aimux.Lib.Checksums
import Aimux.Bedrock.EventStreamCuts

/-! # Frames with a flipped bit

The checksums of a frame see every changed byte: that of the lengths where the lengths or the checksum itself
are hit, so that the length is never trusted, and that of the frame everywhere else.
-/

namespace Aimux.Bedrock

open Aimux.Lib Aimux.Core

/-! ## The checksum -/

section Sum

variable {crc other : UInt32} {byte otherByte : UInt8}

/-- A byte in `crc32`. -/
def crcStep (crc : UInt32) (byte : UInt8) : UInt32 := (crc >>> 8) ^^^ CRC32_TABLE ((crc ^^^ byte.toUInt32) &&& 0xFF)

theorem crc32_eq_foldl (data : List UInt8) : crc32 data = data.foldl crcStep 0xFFFFFFFF ^^^ 0xFFFFFFFF := rfl

theorem lowByte_toNat (word : UInt32) : (word &&& 0xFF).toNat = word.toUInt8.toNat := by
  rw [UInt32.toNat_and, UInt32.toNat_toUInt8]
  exact Nat.and_two_pow_sub_one_eq_mod word.toNat 8

theorem and_one_cases (crc : UInt32) : crc &&& 1 = 0 ∨ crc &&& 1 = 1 := by
  have hBit : (crc &&& 1).toNat = crc.toNat % 2 := (UInt32.toNat_and crc 1).trans (Nat.and_one_is_mod _)
  rcases Nat.mod_two_eq_zero_or_one crc.toNat with hZero | hOne
  · exact .inl (UInt32.toNat_inj.mp (hBit.trans hZero))
  · exact .inr (UInt32.toNat_inj.mp (hBit.trans hOne))

theorem and_one_xor (crc other : UInt32) : (crc ^^^ other) &&& 1 = (crc &&& 1) ^^^ (other &&& 1) := by
  apply UInt32.toNat_inj.mp
  rw [UInt32.toNat_and, UInt32.toNat_xor, UInt32.toNat_xor, UInt32.toNat_and, UInt32.toNat_and, Nat.and_xor_distrib_right]

/-- A shift is linear. -/
theorem crcShift_xor (crc other : UInt32) : crcShift (crc ^^^ other) = crcShift crc ^^^ crcShift other := by
  rw [crcShift, crcShift, crcShift, and_one_xor, UInt32.shiftRight_xor]
  rcases and_one_cases crc with hCrc | hCrc <;> rcases and_one_cases other with hOther | hOther <;>
    rw [hCrc, hOther]
  · rfl
  · exact UInt32.xor_assoc ..
  · show crc >>> 1 ^^^ other >>> 1 ^^^ (0xEDB88320 : UInt32) = crc >>> 1 ^^^ (0xEDB88320 : UInt32) ^^^ other >>> 1
    rw [UInt32.xor_assoc, UInt32.xor_assoc, UInt32.xor_comm 0xEDB88320]
  · show crc >>> 1 ^^^ other >>> 1 = crc >>> 1 ^^^ (0xEDB88320 : UInt32) ^^^ (other >>> 1 ^^^ 0xEDB88320)
    rw [UInt32.xor_comm (other >>> 1) 0xEDB88320, UInt32.xor_assoc, ← UInt32.xor_assoc 0xEDB88320, UInt32.xor_self,
      UInt32.zero_xor]

theorem table_xor (left right : UInt32) : CRC32_TABLE (left ^^^ right) = CRC32_TABLE left ^^^ CRC32_TABLE right := by
  rw [CRC32_TABLE, CRC32_TABLE, CRC32_TABLE]
  induction 8 generalizing left right with
  | zero => rfl
  | succ count ih =>
    rw [Function.iterate_succ_apply, Function.iterate_succ_apply, Function.iterate_succ_apply, crcShift_xor, ih]

/-- Only the first entry of the table has no high byte. -/
theorem highByte_ne_zero : ∀ byte < 256, byte ≠ 0 → CRC32_TABLE (UInt32.ofNat byte) >>> 24 ≠ 0 := by
  decide +kernel

theorem table_inj {left right : UInt8}
    (hSame : CRC32_TABLE left.toUInt32 >>> 24 = CRC32_TABLE right.toUInt32 >>> 24) : left = right := by
  have hZero : CRC32_TABLE (UInt32.ofNat (left ^^^ right).toNat) >>> 24 = 0 := by
    rw [UInt32.ofNat_uInt8ToNat, UInt8.toUInt32_xor, table_xor, UInt32.shiftRight_xor, hSame, UInt32.xor_self]
  by_contra hDiffer
  refine highByte_ne_zero _ (left ^^^ right).toNat_lt (fun hNone => hDiffer ?_) hZero
  exact UInt8.xor_eq_zero_iff.mp (UInt8.toNat_inj.mp hNone)

theorem crcStep_eq (crc : UInt32) (byte : UInt8) :
    crcStep crc byte = (crc >>> 8) ^^^ CRC32_TABLE (crc.toUInt8 ^^^ byte).toUInt32 := by
  have hIndex : (crc ^^^ byte.toUInt32) &&& 0xFF = (crc.toUInt8 ^^^ byte).toUInt32 := by
    apply UInt32.toNat_inj.mp
    rw [lowByte_toNat, UInt32.toUInt8_xor, UInt8.toUInt8_toUInt32, UInt8.toNat_toUInt32]
  rw [crcStep, hIndex]

theorem crcStep_high (crc : UInt32) (byte : UInt8) :
    crcStep crc byte >>> 24 = CRC32_TABLE (crc.toUInt8 ^^^ byte).toUInt32 >>> 24 := by
  have hNone : crc >>> 8 >>> 24 = 0 := by
    apply UInt32.toNat_inj.mp
    rw [UInt32.toNat_shiftRight, UInt32.toNat_shiftRight, ← Nat.shiftRight_add]
    exact Nat.shiftRight_eq_zero _ _ crc.toNat_lt
  rw [crcStep_eq, UInt32.shiftRight_xor, hNone, UInt32.zero_xor]

theorem index_of_crcStep (hSame : crcStep crc byte = crcStep other otherByte) :
    crc.toUInt8 ^^^ byte = other.toUInt8 ^^^ otherByte := by
  apply table_inj
  rw [← crcStep_high, ← crcStep_high, hSame]

theorem crcStep_faithful : Faithful crcStep where
  sum byte := by
    intro crc other hSame
    have hIndex := index_of_crcStep hSame
    have hLow := (UInt8.xor_left_inj byte).mp hIndex
    have hHigh : crc >>> 8 = other >>> 8 := by
      simp only [crcStep_eq, hIndex] at hSame
      exact (UInt32.xor_left_inj _).mp hSame
    have hLowNat := congrArg UInt8.toNat hLow
    have hHighNat := congrArg UInt32.toNat hHigh
    rw [UInt32.toNat_toUInt8, UInt32.toNat_toUInt8] at hLowNat
    rw [UInt32.toNat_shiftRight, UInt32.toNat_shiftRight, Nat.shiftRight_eq_div_pow, Nat.shiftRight_eq_div_pow]
      at hHighNat
    apply UInt32.toNat_inj.mp
    have hParts := Nat.div_add_mod crc.toNat 256
    have hOtherParts := Nat.div_add_mod other.toNat 256
    simp only [UInt32.reduceToNat, Nat.reducePow, Nat.reduceMod] at hLowNat hHighNat
    omega
  item crc := by
    intro byte otherByte hSame
    exact (UInt8.xor_right_inj crc.toUInt8).mp (index_of_crcStep hSame)

theorem crc32_ne {position : Nat} {data changed : List UInt8} (h : ChangedAt position data changed) :
    crc32 changed ≠ crc32 data := by
  rw [crc32_eq_foldl, crc32_eq_foldl]
  intro hSame
  exact h.foldl_ne crcStep_faithful _ ((UInt32.xor_left_inj _).mp hSame)

theorem fromBe_faithful : Faithful fun (n : Nat) (byte : UInt8) => n * 256 + byte.toNat where
  sum byte := by
    intro n other hSame
    simp only at hSame
    omega
  item n := by
    intro byte otherByte hSame
    simp only at hSame
    exact UInt8.toNat_inj.mp (by omega)

theorem fromBe_ne {position : Nat} {bytes changed : List UInt8} (h : ChangedAt position bytes changed) :
    fromBe changed ≠ fromBe bytes :=
  h.foldl_ne fromBe_faithful 0

/-- The sum of the bytes before the position is stored there. -/
def Checked (bytes : List UInt8) (position : Nat) : Prop := u32At bytes position = (crc32 (bytes.take position)).toNat

theorem u32At_of_take {bytes other : List UInt8} {position count : Nat} (hTake : bytes.take count = other.take count)
    (hCount : position + 4 ≤ count) : u32At bytes position = u32At other position := by
  rw [← u32At_take hCount, hTake, u32At_take hCount]

theorem checked_of_take {bytes other : List UInt8} {position count : Nat} (hTake : bytes.take count = other.take count)
    (hCount : position + 4 ≤ count) (h : Checked bytes position) : Checked other position := by
  rw [Checked] at h ⊢
  rw [← u32At_of_take hTake hCount, h, ← take_take_of_le (show position ≤ count by omega), hTake,
    take_take_of_le (by omega)]

theorem checked_of_checksumError {frame : List UInt8} (hNone : checksumError frame = none) :
    Checked frame 8 ∧ Checked frame (frame.length - 4) := by
  simp only [checksumError] at hNone
  split at hNone
  · cases hNone
  · rename_i hPrelude
    split at hNone
    · cases hNone
    · rename_i hBody
      exact ⟨not_not.mp hPrelude, not_not.mp hBody⟩

/-- Of the sum and the bytes that it is of, one byte is changed. -/
theorem not_checked {position stored : Nat} {bytes changed : List UInt8} (h : ChangedAt position bytes changed)
    (hChecked : Checked bytes stored) (hPosition : position < stored + 4) : ¬ Checked changed stored := by
  intro hOther
  rw [Checked] at hChecked hOther
  by_cases hBefore : position < stored
  · rw [u32At, h.drop_of_lt hBefore, ← u32At, hChecked] at hOther
    exact crc32_ne (h.take_of_lt hBefore) (UInt32.toNat_inj.mp hOther.symm)
  · rw [h.take_of_le (by omega), ← hChecked] at hOther
    exact fromBe_ne ((h.drop_of_le (by omega)).take_of_lt (by omega)) hOther

end Sum

/-! ## The frame -/

section Flipped

variable {frame headerBytes payloadBytes changed : List UInt8} {position : Nat}

/-- No message is read off the front of a buffer that starts with a changed frame, whole or not. -/
theorem nextFrame_changed (hFrame : Laid frame headerBytes payloadBytes) (hChanged : ChangedAt position frame changed)
    {buffer more : List UInt8} (hFront : buffer <+: changed ++ more) (message : EventStreamMessage) (length : Nat) :
    nextFrame buffer ≠ .frame message length := by
  intro hNext
  obtain ⟨hFirst, hShort, hLong, hWhole⟩ := nextFrame_frame hNext
  subst hFirst
  have hLength := hFrame.length
  have hSame := hChanged.length
  obtain ⟨rest, hBuffer⟩ := hFront
  have hTake (count : Nat) (hCount : count ≤ buffer.length) (hInside : count ≤ changed.length) :
      buffer.take count = changed.take count := by
    have hLonger : (buffer ++ rest).take count = buffer.take count := List.take_append_of_le_length hCount
    rw [← hLonger, hBuffer, List.take_append_of_le_length hInside]
  have hNone : checksumError (buffer.take (u32At buffer 0)) = none := by
    rw [nextFrame_whole hShort hLong hWhole, wholeFrame] at hNext
    cases hSum : checksumError (buffer.take (u32At buffer 0)) with
    | some error =>
      rw [hSum] at hNext
      cases hNext
    | none => rfl
  obtain ⟨hPrelude, hBody⟩ := checked_of_checksumError hNone
  by_cases hLengths : position < 12
  · -- the sum of the lengths is looked at before the length is used
    have hTwelve : (buffer.take (u32At buffer 0)).take 12 = changed.take 12 := by
      rw [take_take_of_le (by omega), hTake 12 (by omega) (by omega)]
    exact not_checked hChanged hFrame.prelude (by omega) (checked_of_take hTwelve (by omega) hPrelude)
  · have hTotal : u32At buffer 0 = changed.length := by
      rw [u32At_of_take (hTake 4 (by omega) (by omega)) (by omega),
        u32At_of_take (hChanged.take_of_le (show 4 ≤ position by omega)) (by omega), hFrame.total, hSame]
    rw [hTotal, hTake _ (by omega) (by omega), List.take_length, hSame] at hBody
    exact not_checked hChanged hFrame.checksum (by have := hChanged.lt_length; omega) hBody

end Flipped

/-! ## The stream -/

/-- The bytes of the input up to a transport error. -/
def received : List (Except AiMuxError (List UInt8)) → List UInt8
  | [] | .error _ :: _ => []
  | .ok chunk :: input => chunk ++ received input

/-- Where the bytes do not end with a frame, there is one error behind the messages. -/
theorem decodeStream_error (input : List (Except AiMuxError (List UInt8))) {buffer : List UInt8}
    (hWait : nextFrame buffer = .wait) {messages : List EventStreamMessage} {result : AiMuxError ⊕ List UInt8}
    (hRead : eventFrames.read (buffer ++ received input) = (messages, result))
    (hOpen : ∀ rest, result = .inr rest → rest ≠ []) :
    ∃ error, decodeStream buffer input = messages.map .ok ++ [Except.error error] := by
  induction input generalizing buffer messages with
  | nil =>
    rw [received, List.append_nil, Framer.read_wait hWait, Prod.mk.injEq] at hRead
    obtain ⟨rfl, rfl⟩ := hRead
    refine ⟨incompleteFrame buffer.length, ?_⟩
    rw [decodeStream, if_neg (fun hEmpty => hOpen buffer rfl (List.isEmpty_iff.mp hEmpty))]
    rfl
  | cons item input ih =>
    cases item with
    | error error =>
      rw [received, List.append_nil, Framer.read_wait hWait, Prod.mk.injEq] at hRead
      obtain ⟨rfl, rfl⟩ := hRead
      exact ⟨error, rfl⟩
    | ok chunk =>
      rw [received, ← List.append_assoc, Framer.read_append] at hRead
      rw [decodeStream]
      cases hChunk : eventFrames.read (buffer ++ chunk) with
      | mk front left =>
        rw [hChunk] at hRead
        cases left with
        | inl error =>
          rw [Prod.mk.injEq] at hRead
          obtain ⟨rfl, rfl⟩ := hRead
          exact ⟨error, rfl⟩
        | inr rest =>
          rw [Prod.mk.injEq] at hRead
          obtain ⟨rfl, hResult⟩ := hRead
          obtain ⟨error, hError⟩ := ih (Framer.next_of_read hChunk) (Prod.ext rfl hResult)
          refine ⟨error, ?_⟩
          simp only [hError, List.map_append, List.append_assoc]

/-- The bit of the byte `bit / 8` with the weight `2 ^ (bit % 8)`. -/
def flipBit (frame : List UInt8) (bit : Nat) : List UInt8 :=
  frame.modify (bit / 8) (· ^^^ (1 <<< UInt8.ofNat (bit % 8)))

theorem changedAt_flipBit {frame : List UInt8} {bit : Nat} (hBit : bit < 8 * frame.length) :
    ChangedAt (bit / 8) frame (flipBit frame bit) := by
  refine .of_modify (fun byte hSame => ?_) (by omega)
  have hWeight : ∀ bit : Fin 8, (1 : UInt8) <<< UInt8.ofNat bit.val ≠ 0 := by decide
  have hNone := (UInt8.xor_right_inj byte).mp (hSame.trans UInt8.xor_zero.symm)
  exact hWeight ⟨bit % 8, Nat.mod_lt _ (by omega)⟩ hNone

/-- For every frame and every bit of it, wherever the frame stands in the stream, however the stream is cut and
wherever it ends: an error is all that comes behind the messages of the frames before. -/
theorem flipped_bit_not_delivered :
    (∀ messageType eventType payload : String, (encodeMessage messageType eventType payload).length < 4294967296 →
      Laid (encodeMessage messageType eventType payload) (encodeHeaders messageType eventType) (utf8 payload)) ∧
    ∀ frame headerBytes payloadBytes : List UInt8, Laid frame headerBytes payloadBytes →
      ∀ bit < 8 * frame.length, ∀ before : List EventStreamMessage, (∀ message ∈ before, Encodable message) →
        ∀ bytes more : List UInt8, bytes ≠ [] → bytes <+: flipBit frame bit ++ more →
          ∀ input, received input = encodeMessages before ++ bytes →
            ∃ error, decodeStream [] input = before.map .ok ++ [.error error] := by
  refine ⟨fun messageType eventType payload hLength => laid_encodeMessage hLength, ?_⟩
  intro frame headerBytes payloadBytes hFrame bit hBit before hBefore bytes more hBytes hFront input hInput
  have hChanged := changedAt_flipBit hBit
  have hNext := nextFrame_changed hFrame hChanged hFront
  have hRest : ∃ result, eventFrames.read bytes = ([], result) ∧ ∀ rest, result = .inr rest → rest ≠ [] := by
    cases hVerdict : nextFrame bytes with
    | wait => exact ⟨.inr bytes, Framer.read_wait hVerdict, fun rest hSame => by rwa [← Sum.inr.inj hSame]⟩
    | fail error => exact ⟨.inl error, Framer.read_fail hVerdict, fun rest hSame => by cases hSame⟩
    | frame message length => exact absurd hVerdict (hNext message length)
  obtain ⟨result, hRead, hOpen⟩ := hRest
  have hAll : eventFrames.read ([] ++ received input) = (before, result) := by
    rw [List.nil_append, hInput, Framer.read_append, read_encodeMessages hBefore]
    simp only [List.nil_append, List.append_nil, hRead]
  exact decodeStream_error input rfl hAll hOpen

theorem flipped_bit_not_delivered_metadata :
    let frame := encodeMessages [metadataMessage]
    ∃ error, decodeStream [] [.ok frame, .ok (flipBit frame 100)] = [.ok metadataMessage, .error error] := by
  intro frame
  have hOne : ∀ message ∈ [metadataMessage], Encodable message := by
    rintro message (_ | ⟨_, ⟨⟩⟩)
    exact ⟨by decide, by decide, by decide⟩
  have hSame : frame = encodeMessage "event" "metadata" "\x7b\x7d" := List.append_nil _
  have hFrame := flipped_bit_not_delivered.1 "event" "metadata" "\x7b\x7d" (by decide)
  rw [← hSame] at hFrame
  refine flipped_bit_not_delivered.2 frame _ _ hFrame 100 (by decide) [metadataMessage] hOne (flipBit frame 100) []
    (by decide) ?_ _ ?_
  · rw [List.append_nil]
  · rw [received, received, received, List.append_nil]

end Aimux.Bedrock
