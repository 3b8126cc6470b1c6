import Aimux.Bedrock.EventStream

/-! # Cuts of an event stream

What the decoder decides about a frame depends on the bytes of the frame alone, and it is decided as soon
as these are there. Encoded frames are read back as their messages.
-/

namespace Aimux.Bedrock

open Aimux.Lib Aimux.Core

/-! ## Bytes of a front -/

section Fronts

variable {bytes : List UInt8} {length position : Nat}

theorem u32At_take (hPosition : position + 4 ≤ length) : u32At (bytes.take length) position = u32At bytes position := by
  rw [u32At, u32At, List.drop_take, List.take_take, min_eq_left (by omega)]

theorem take_take_of_le {count : Nat} (hCount : count ≤ length) : (bytes.take length).take count = bytes.take count := by
  rw [List.take_take, min_eq_left hCount]

theorem u32At_append (position : Nat) (more : List UInt8) (hPosition : position + 4 ≤ bytes.length) :
    u32At (bytes ++ more) position = u32At bytes position := by
  rw [u32At, u32At, List.drop_append_of_le_length (by omega), List.take_append_of_le_length (by rw [List.length_drop]; omega)]

end Fronts

/-! ## The frames of a buffer -/

variable {frame : List UInt8}

section Frames

variable {buffer : List UInt8} {message : EventStreamMessage}

theorem wholeFrame_frame {length : Nat} (hFrame : wholeFrame frame = .frame message length) :
    length = frame.length := by
  unfold wholeFrame at hFrame
  split at hFrame
  · cases hFrame
  · split at hFrame
    · cases hFrame
      rfl
    · cases hFrame

/-- Where the buffer holds the whole frame, it is decided by the bytes of the frame. -/
theorem nextFrame_whole (hShort : 16 ≤ u32At buffer 0) (hLong : u32At buffer 0 ≤ MAX_EVENT_STREAM_FRAME_LEN)
    (hWhole : u32At buffer 0 ≤ buffer.length) : nextFrame buffer = wholeFrame (buffer.take (u32At buffer 0)) := by
  have hLength : ¬(u32At buffer 0 < 16 ∨ MAX_EVENT_STREAM_FRAME_LEN < u32At buffer 0) := by omega
  simp only [nextFrame, if_neg (show ¬buffer.length < 4 by omega), if_neg hLength,
    if_neg (show ¬buffer.length < u32At buffer 0 by omega)]
  split
  · rename_i hPrelude
    have hFirst : u32At (buffer.take (u32At buffer 0)) 8 = u32At buffer 8 := u32At_take (by omega)
    have hEight : (buffer.take (u32At buffer 0)).take 8 = buffer.take 8 := take_take_of_le (by omega)
    rw [wholeFrame, checksumError, hFirst, hEight, if_pos hPrelude.2]
  · rfl

theorem nextFrame_frame {length : Nat} (hNext : nextFrame buffer = .frame message length) :
    length = u32At buffer 0 ∧ 16 ≤ length ∧ length ≤ MAX_EVENT_STREAM_FRAME_LEN ∧ length ≤ buffer.length := by
  simp only [nextFrame] at hNext
  split at hNext
  · cases hNext
  · split at hNext
    · cases hNext
    · rename_i hLength
      split at hNext
      · cases hNext
      · split at hNext
        · cases hNext
        · rename_i hWhole
          have hSame := wholeFrame_frame hNext
          rw [List.length_take, min_eq_left (by omega)] at hSame
          omega

theorem nextFrame_front {length : Nat} (hNext : nextFrame buffer = .frame message length) :
    nextFrame (buffer.take length) = .frame message length := by
  obtain ⟨rfl, hShort, hLong, hWhole⟩ := nextFrame_frame hNext
  have hLength : u32At (buffer.take (u32At buffer 0)) 0 = u32At buffer 0 := u32At_take (by omega)
  rw [nextFrame_whole (hLength.symm ▸ hShort) (hLength.symm ▸ hLong)
    (by rw [hLength, List.length_take, min_eq_left hWhole]), hLength, take_take_of_le (le_refl _),
    ← nextFrame_whole hShort hLong hWhole, hNext]

theorem nextFrame_settled (more : List UInt8) (hNext : nextFrame buffer ≠ .wait) :
    nextFrame (buffer ++ more) = nextFrame buffer := by
  have hFour : 4 ≤ buffer.length := by
    by_contra hShort
    exact hNext (by simp only [nextFrame, if_pos (show buffer.length < 4 by omega)])
  have hLength := u32At_append 0 more (by omega : 0 + 4 ≤ buffer.length)
  by_cases hBounds : u32At buffer 0 < 16 ∨ MAX_EVENT_STREAM_FRAME_LEN < u32At buffer 0
  · simp only [nextFrame, hLength, if_pos hBounds, List.length_append, if_neg (show ¬buffer.length < 4 by omega),
      if_neg (show ¬buffer.length + more.length < 4 by omega)]
  · by_cases hWhole : u32At buffer 0 ≤ buffer.length
    · rw [nextFrame_whole (by omega) (by omega) hWhole, nextFrame_whole (by omega) (by omega)
        (by rw [hLength, List.length_append]; omega), hLength, List.take_append_of_le_length hWhole]
    · -- the checksum of the lengths can be wrong before the frame is whole
      have hPrelude : 12 ≤ buffer.length ∧ u32At buffer 8 ≠ (crc32 (buffer.take 8)).toNat := by
        by_contra hPrelude
        refine hNext ?_
        simp only [nextFrame, if_neg (show ¬buffer.length < 4 by omega), if_neg hBounds, if_neg hPrelude,
          if_pos (show buffer.length < u32At buffer 0 by omega)]
      have hEight : (buffer ++ more).take 8 = buffer.take 8 := List.take_append_of_le_length (by omega)
      have hStored := u32At_append 8 more (by omega : 8 + 4 ≤ buffer.length)
      have hMore : 12 ≤ (buffer ++ more).length ∧ u32At buffer 8 ≠ (crc32 (buffer.take 8)).toNat :=
        ⟨by rw [List.length_append]; omega, hPrelude.2⟩
      simp only [nextFrame, hLength, hEight, hStored, if_neg hBounds, if_pos hPrelude, if_pos hMore,
        if_neg (show ¬buffer.length < 4 by omega)]
      rw [if_neg (by rw [List.length_append]; omega)]

def eventFrames : Framer UInt8 EventStreamMessage AiMuxError where
  next := nextFrame
  wait_nil := rfl
  consumes hNext := by
    obtain ⟨_, hShort, _, hWhole⟩ := nextFrame_frame hNext
    exact ⟨by omega, hWhole⟩
  settled more hNext := nextFrame_settled more hNext
  front := nextFrame_front

end Frames

/-! ## The stream -/

def incompleteFrame (remaining : Nat) : AiMuxError :=
  invalidData ("Incomplete Amazon Bedrock event-stream frame: " ++ toString remaining ++
    " buffered bytes remain at end of stream.")

/-- What the decoder yields, from what is buffered and the items of its input on. -/
def decodeStream : List UInt8 → List (Except AiMuxError (List UInt8)) → List (Except AiMuxError EventStreamMessage)
  | buffer, [] => if buffer.isEmpty then [] else [.error (incompleteFrame buffer.length)]
  | _, .error error :: _ => [.error error]
  | buffer, .ok chunk :: input =>
    let frames := eventFrames.read (buffer ++ chunk)
    frames.1.map .ok ++ match frames.2 with
      | .inl error => [.error error]
      | .inr rest => decodeStream rest input

def ending : AiMuxError ⊕ List UInt8 → List (Except AiMuxError EventStreamMessage)
  | .inl error => [.error error]
  | .inr rest => if rest.isEmpty then [] else [.error (incompleteFrame rest.length)]

theorem decodeStream_chunks (buffer : List UInt8) (chunks : List (List UInt8)) :
    decodeStream buffer (chunks.map .ok) =
      (eventFrames.readChunks buffer chunks).1.map .ok ++ ending (eventFrames.readChunks buffer chunks).2 := by
  induction chunks generalizing buffer with
  | nil => rfl
  | cons chunk chunks ih =>
    rw [List.map_cons, decodeStream, Framer.readChunks]
    rcases eventFrames.read (buffer ++ chunk) with ⟨messages, error | rest⟩
    · rfl
    · simp only [ih, List.map_append, List.append_assoc]

theorem decodeStream_eq_read (chunks : List (List UInt8)) :
    decodeStream [] (chunks.map .ok) =
      (eventFrames.read chunks.flatten).1.map .ok ++ ending (eventFrames.read chunks.flatten).2 := by
  rw [decodeStream_chunks, Framer.readChunks_eq_read chunks eventFrames.wait_nil, List.nil_append]

/-! ## Encoded messages -/

section Encoded

theorem fromBe_be16 {n : Nat} (hn : n < 65536) : fromBe (be16 n) = n := by
  simp only [fromBe, be16, List.foldl_cons, List.foldl_nil, UInt8.toNat_ofNat']
  omega

theorem fromBe_be32 {n : Nat} (hn : n < 4294967296) : fromBe (be32 n) = n := by
  simp only [fromBe, be32, List.foldl_cons, List.foldl_nil, UInt8.toNat_ofNat']
  omega

theorem be32_length (n : Nat) : (be32 n).length = 4 := rfl

theorem u32At_be32 {n : Nat} (hn : n < 4294967296) {before : List UInt8} {position : Nat}
    (hPosition : before.length = position) (after : List UInt8) : u32At (before ++ (be32 n ++ after)) position = n := by
  rw [u32At, ← hPosition, List.drop_left, List.take_left' (be32_length n), fromBe_be32 hn]

theorem crc32_lt (data : List UInt8) : (crc32 data).toNat < 4294967296 := (crc32 data).toNat_lt

theorem readHeader_encodeHeader {name text : String} (hName : utf8 name ≠ []) (hWidth : (utf8 name).length < 256)
    (hText : (utf8 text).length ≤ 65535) (rest : List UInt8) :
    readHeader (encodeHeader name (.string text) ++ rest) = some (name, some text, rest) := by
  obtain ⟨first, others, hBytes⟩ := List.exists_cons_of_ne_nil hName
  have hLength : (UInt8.ofNat (utf8 name).length).toNat = (utf8 name).length := by
    rw [UInt8.toNat_ofNat', Nat.mod_eq_of_lt hWidth]
  have hShape : encodeHeader name (.string text) ++ rest =
      UInt8.ofNat (utf8 name).length :: first :: (others ++ 7 :: UInt8.ofNat ((utf8 text).length / 256) ::
        UInt8.ofNat (utf8 text).length :: (utf8 text ++ rest)) := by
    simp [encodeHeader, be16, hBytes]
  have hAfter : first :: (others ++ 7 :: UInt8.ofNat ((utf8 text).length / 256) ::
        UInt8.ofNat (utf8 text).length :: (utf8 text ++ rest)) =
      utf8 name ++ 7 :: UInt8.ofNat ((utf8 text).length / 256) :: UInt8.ofNat (utf8 text).length ::
        (utf8 text ++ rest) := by
    rw [hBytes, List.cons_append]
  have hTextLength := fromBe_be16 (show (utf8 text).length < 65536 by omega)
  simp only [be16] at hTextLength
  rw [hShape, readHeader.eq_def]
  simp only [hLength]
  rw [hAfter, List.drop_left, List.take_left]
  simp [hTextLength, fromUtf8Lossy_utf8]

theorem readHeaders_nil (types : String × String) : readHeaders [] types = types := by
  rw [readHeaders]
  rfl

theorem readHeaders_some {headers rest : List UInt8} {name : String} {value : Option String}
    (hRead : readHeader headers = some (name, value, rest)) (types : String × String) :
    readHeaders headers types = readHeaders rest (withHeader types name value) := by
  rw [readHeaders]
  split
  · rename_i hOther
    rw [hRead] at hOther
    cases hOther
  · rename_i hOther
    rw [hRead] at hOther
    cases hOther
    rfl

theorem readHeaders_encoded {messageType eventType : String} (hMessage : (utf8 messageType).length ≤ 65535)
    (hEvent : (utf8 eventType).length ≤ 65535) :
    readHeaders (encodeHeaders messageType eventType) ("", "") = (messageType, eventType) := by
  have hContent : (utf8 "application/json").length ≤ 65535 := by decide
  rw [encodeHeaders, List.append_assoc,
    readHeaders_some (readHeader_encodeHeader (by decide) (by decide) hMessage _),
    readHeaders_some (readHeader_encodeHeader (by decide) (by decide) hEvent _),
    ← List.append_nil (encodeHeader ":content-type" _),
    readHeaders_some (readHeader_encodeHeader (by decide) (by decide) hContent _), readHeaders_nil]
  rfl

/-- Header values of a length that two bytes can say, in a frame within the limit. -/
structure Encodable (message : EventStreamMessage) : Prop where
  messageType : (utf8 message.messageType).length ≤ 65535
  eventType : (utf8 message.eventType).length ≤ 65535
  frame : (encodeMessage message.messageType message.eventType message.data).length ≤ MAX_EVENT_STREAM_FRAME_LEN

/-- The parts of a whole frame. -/
structure Laid (frame headerBytes payloadBytes : List UInt8) : Prop where
  length : frame.length = 16 + headerBytes.length + payloadBytes.length
  total : u32At frame 0 = frame.length
  headersLength : u32At frame 4 = headerBytes.length
  prelude : u32At frame 8 = (crc32 (frame.take 8)).toNat
  checksum : u32At frame (frame.length - 4) = (crc32 (frame.take (frame.length - 4))).toNat
  headers : (frame.drop 12).take headerBytes.length = headerBytes
  payload : (frame.take (frame.length - 4)).drop (12 + headerBytes.length) = payloadBytes

variable {payloadBytes headerBytes : List UInt8}

theorem laid_frame {lengths message : List UInt8}
    (hLengths : lengths = be32 (4 + 4 + 4 + headerBytes.length + payloadBytes.length + 4) ++ be32 headerBytes.length)
    (hMessage : message = lengths ++ be32 (crc32 lengths).toNat ++ headerBytes ++ payloadBytes)
    (hMax : 16 + headerBytes.length + payloadBytes.length < 4294967296) :
    Laid (message ++ be32 (crc32 message).toNat) headerBytes payloadBytes := by
  have hEight : lengths.length = 8 := by rw [hLengths]; rfl
  have hLength : message.length = 12 + headerBytes.length + payloadBytes.length := by
    rw [hMessage]
    simp only [List.length_append, hEight, be32_length]
  have hWhole : (message ++ be32 (crc32 message).toNat).length = 16 + headerBytes.length + payloadBytes.length := by
    rw [List.length_append, hLength, be32_length]
    omega
  have hEnd : (message ++ be32 (crc32 message).toNat).length - 4 = message.length := by omega
  have hFront (tail : List UInt8) : message ++ tail =
      lengths ++ (be32 (crc32 lengths).toNat ++ (headerBytes ++ payloadBytes ++ tail)) := by
    rw [hMessage]
    simp only [List.append_assoc]
  constructor
  · exact hWhole
  · have hTotal := u32At_be32 (n := 4 + 4 + 4 + headerBytes.length + payloadBytes.length + 4) (by omega)
      (show ([] : List UInt8).length = 0 from rfl) (be32 headerBytes.length ++ (be32 (crc32 lengths).toNat ++
        (headerBytes ++ payloadBytes ++ be32 (crc32 message).toNat)))
    rw [hWhole, hFront]
    rw [List.nil_append, ← List.append_assoc, ← hLengths] at hTotal
    omega
  · have hHeaders := u32At_be32 (n := headerBytes.length) (by omega)
      (be32_length (4 + 4 + 4 + headerBytes.length + payloadBytes.length + 4)) (be32 (crc32 lengths).toNat ++
        (headerBytes ++ payloadBytes ++ be32 (crc32 message).toNat))
    rw [← List.append_assoc, ← hLengths] at hHeaders
    rw [hFront, hHeaders]
  · rw [hFront, u32At_be32 (crc32_lt lengths) hEight, List.take_left' hEight]
  · have hLast := u32At_be32 (crc32_lt message) (show message.length = message.length from rfl) []
    rw [List.append_nil] at hLast
    rw [hEnd, List.take_left, hLast]
  · have hTwelve : (lengths ++ be32 (crc32 lengths).toNat).length = 12 := by
      rw [List.length_append, hEight, be32_length]
    rw [hFront, ← List.append_assoc, List.drop_left' hTwelve, List.append_assoc, List.take_left]
  · have hBefore : (lengths ++ be32 (crc32 lengths).toNat ++ headerBytes).length = 12 + headerBytes.length := by
      simp only [List.length_append, hEight, be32_length]
    rw [hEnd, List.take_left, hMessage, List.drop_left' hBefore]

theorem laid_encodeMessage {messageType eventType payload : String}
    (hMax : (encodeMessage messageType eventType payload).length < 4294967296) :
    Laid (encodeMessage messageType eventType payload) (encodeHeaders messageType eventType) (utf8 payload) := by
  refine laid_frame rfl rfl ?_
  have hLength : (encodeMessage messageType eventType payload).length =
      16 + (encodeHeaders messageType eventType).length + (utf8 payload).length := by
    simp only [encodeMessage, List.length_append, be32_length]
    omega
  omega

variable {message : EventStreamMessage}

/-- A frame laid out so is decoded to its types and its payload. -/
theorem decodeMessage_laid (h : Laid frame headerBytes payloadBytes) :
    decodeMessage frame = some
      ({ messageType := (readHeaders headerBytes ("", "")).1
         eventType := (readHeaders headerBytes ("", "")).2
         data := fromUtf8Lossy payloadBytes }, frame.length) := by
  have hLength := h.length
  simp only [decodeMessage, h.total, h.headersLength, h.prelude, h.checksum, h.headers, h.payload,
    if_neg (show ¬frame.length < 12 by omega), if_neg (show ¬(frame.length < 16 ∨ frame.length < frame.length) by omega),
    if_neg (show ¬(12 + headerBytes.length > frame.length - 4 ∨ frame.length - 4 > frame.length) by omega),
    ne_eq, not_true_eq_false, if_false]
  split
  · rfl
  · have hNone : payloadBytes = [] := List.eq_nil_of_length_eq_zero (by omega)
    rw [hNone]
    rfl

theorem checksumError_laid (h : Laid frame headerBytes payloadBytes) :
    checksumError frame = none := by
  simp only [checksumError, h.prelude, h.checksum, ne_eq, not_true_eq_false, if_false]

theorem decodeMessages_whole (hDecode : decodeMessage frame = some (message, frame.length)) :
    decodeMessages frame = [message] := by
  have hNil : decodeMessages [] = [] := by
    rw [decodeMessages]
    rfl
  rw [decodeMessages]
  split
  · rename_i hOther
    rw [hDecode] at hOther
    cases hOther
  · rename_i hOther
    rw [hDecode] at hOther
    cases hOther
    rw [List.drop_length, hNil]

theorem nextFrame_encoded (h : Encodable message) :
    nextFrame (encodeMessage message.messageType message.eventType message.data) =
      .frame message (encodeMessage message.messageType message.eventType message.data).length := by
  have hLaid := laid_encodeMessage (Nat.lt_of_le_of_lt h.frame (by decide))
  have hDecode := decodeMessage_laid hLaid
  rw [readHeaders_encoded h.messageType h.eventType, fromUtf8Lossy_utf8] at hDecode
  have hTotal := hLaid.total
  have hLength := hLaid.length
  have hMax := h.frame
  rw [nextFrame_whole (by omega) (by omega) (by omega), hTotal, List.take_length, wholeFrame, checksumError_laid hLaid,
    decodeMessages_whole hDecode]
  rfl

end Encoded

theorem read_encodeMessages {messages : List EventStreamMessage} (h : ∀ message ∈ messages, Encodable message) :
    eventFrames.read (encodeMessages messages) = (messages, .inr []) := by
  have hFrames : List.Forall₂ (fun frame message => eventFrames.next frame = .frame message frame.length)
      (messages.map fun message => encodeMessage message.messageType message.eventType message.data) messages := by
    rw [List.forall₂_map_left_iff, List.forall₂_same]
    intro message hMem
    have hNext : eventFrames.next = nextFrame := rfl
    rw [hNext]
    exact nextFrame_encoded (h message hMem)
  have hRead := Framer.read_frames hFrames
  rwa [← List.flatMap_def] at hRead

/-- For every byte sequence and every cut of it; and for every list of messages that can be encoded, in
every cut of their frames. -/
theorem decodeStream_cuts :
    (∀ chunks : List (List UInt8), decodeStream [] (chunks.map .ok) = decodeStream [] [.ok chunks.flatten] ∧
      ∃ frames messages rest, chunks.flatten = frames.flatten ++ rest ∧
        List.Forall₂ (fun frame message => nextFrame frame = .frame message frame.length) frames messages ∧
        (decodeStream [] (chunks.map .ok) = messages.map .ok ∧ rest = [] ∨
          ∃ error, decodeStream [] (chunks.map .ok) = messages.map .ok ++ [.error error])) ∧
    (∀ messages : List EventStreamMessage, (∀ message ∈ messages, Encodable message) →
      ∀ chunks : List (List UInt8), chunks.flatten = encodeMessages messages →
        decodeStream [] (chunks.map .ok) = messages.map .ok) := by
  constructor
  · intro chunks
    have hWhole := decodeStream_eq_read [chunks.flatten]
    rw [List.flatten_singleton, List.map_singleton] at hWhole
    refine ⟨(decodeStream_eq_read chunks).trans hWhole.symm, ?_⟩
    obtain ⟨frames, rest, hBytes, hFrames, hRest⟩ := eventFrames.frames_of_read chunks.flatten rfl
    refine ⟨frames, _, rest, hBytes, hFrames, ?_⟩
    rw [decodeStream_eq_read]
    match hResult : (eventFrames.read chunks.flatten).2 with
    | .inl error => exact .inr ⟨error, rfl⟩
    | .inr [] => exact .inl ⟨List.append_nil _, (hRest [] hResult).symm⟩
    | .inr (byte :: bytes) => exact .inr ⟨_, rfl⟩
  · intro messages hEncodable chunks hBytes
    rw [decodeStream_eq_read, hBytes, read_encodeMessages hEncodable]
    exact List.append_nil _

def metadataMessage : EventStreamMessage := { messageType := "event", eventType := "metadata", data := "\x7b\x7d" }

theorem decodeStream_cuts_in_prelude :
    decodeStream [] ([(encodeMessages [metadataMessage]).take 5, [], (encodeMessages [metadataMessage]).drop 5].map .ok) =
      [.ok metadataMessage] := by
  have hEncodable : Encodable metadataMessage := ⟨by decide, by decide, by decide⟩
  refine decodeStream_cuts.2 [metadataMessage] (fun message hMem => ?_) _ ?_
  · rw [List.mem_singleton.mp hMem]
    exact hEncodable
  · simp only [List.flatten_cons, List.flatten_nil, List.append_nil, List.nil_append, List.take_append_drop]

end Aimux.Bedrock
