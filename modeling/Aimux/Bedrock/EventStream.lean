import Aimux.Lib.Framer
import Aimux.Lib.Utf8
import Aimux.Core.Error

/-! # The event stream codec

Frames of the AWS event stream format: a length-prefixed record of headers and a payload, with a checksum
over the two lengths and one over the whole frame.
-/

namespace Aimux.Bedrock

open Aimux.Lib Aimux.Core

/-! ## Bytes -/

def be16 (n : Nat) : List UInt8 := [UInt8.ofNat (n / 256), UInt8.ofNat n]

def be32 (n : Nat) : List UInt8 :=
  [UInt8.ofNat (n / 16777216), UInt8.ofNat (n / 65536), UInt8.ofNat (n / 256), UInt8.ofNat n]

def fromBe (bytes : List UInt8) : Nat := bytes.foldl (fun n byte => n * 256 + byte.toNat) 0

/-- `u32::from_be_bytes` of the four bytes there. -/
def u32At (bytes : List UInt8) (position : Nat) : Nat := fromBe ((bytes.drop position).take 4)

def crcShift (crc : UInt32) : UInt32 := if crc &&& 1 ≠ 0 then (crc >>> 1) ^^^ 0xEDB88320 else crc >>> 1

/-- The IEEE polynomial, an entry for every byte. -/
def CRC32_TABLE (index : UInt32) : UInt32 := Nat.iterate crcShift 8 index

def crc32 (data : List UInt8) : UInt32 :=
  let crc : UInt32 :=
    data.foldl (fun crc byte => (crc >>> 8) ^^^ CRC32_TABLE ((crc ^^^ byte.toUInt32) &&& 0xFF)) 0xFFFFFFFF
  crc ^^^ 0xFFFFFFFF

/-! ## Encoding -/

structure EventStreamMessage where
  messageType : String
  eventType : String
  data : String
deriving DecidableEq

inductive HeaderValue where
  | string (value : String)
  | bool (value : Bool)

def encodeHeader (name : String) (value : HeaderValue) : List UInt8 :=
  UInt8.ofNat (utf8 name).length :: utf8 name ++
    match value with
    | .string text => 7 :: be16 (utf8 text).length ++ utf8 text
    | .bool true => [0]
    | .bool false => [1]

def encodeHeaders (messageType eventType : String) : List UInt8 :=
  encodeHeader ":message-type" (.string messageType) ++ encodeHeader ":event-type" (.string eventType) ++
    encodeHeader ":content-type" (.string "application/json")

def encodeMessage (messageType eventType payload : String) : List UInt8 :=
  let headers := encodeHeaders messageType eventType
  let lengths := be32 (4 + 4 + 4 + headers.length + (utf8 payload).length + 4) ++ be32 headers.length
  let message := lengths ++ be32 (crc32 lengths).toNat ++ headers ++ utf8 payload
  message ++ be32 (crc32 message).toNat

def encodeMessages (messages : List EventStreamMessage) : List UInt8 :=
  messages.flatMap fun message => encodeMessage message.messageType message.eventType message.data

/-! ## Decoding a frame -/

/-- One header: its name, its value if it is a text, and the headers after it. -/
def readHeader : List UInt8 → Option (String × Option String × List UInt8)
  | [] | [_] => none
  | nameLength :: rest =>
    let name := fromUtf8Lossy (rest.take nameLength.toNat)
    match rest.drop nameLength.toNat with
    | [] => none
    | type :: rest =>
      if type = 7 then
        match rest with
        | high :: low :: rest =>
          let length := fromBe [high, low]
          if rest.length < length then none
          else some (name, some (fromUtf8Lossy (rest.take length)), rest.drop length)
        | _ => none
      else if type = 0 ∨ type = 1 then some (name, none, rest)
      else none

theorem readHeader_length {headers rest : List UInt8} {name : String} {value : Option String}
    (hRead : readHeader headers = some (name, value, rest)) : rest.length < headers.length := by
  match headers with
  | [] => cases hRead
  | [_] => cases hRead
  | nameLength :: first :: others =>
    rw [readHeader.eq_def] at hRead
    simp only at hRead
    split at hRead
    · cases hRead
    · rename_i type after hAfter
      have hLength : (type :: after).length ≤ (first :: others).length := by
        rw [← hAfter, List.length_drop]
        omega
      simp only [List.length_cons] at hLength ⊢
      split at hRead
      · split at hRead
        · rename_i high low value
          split at hRead
          · cases hRead
          · cases hRead
            rw [List.length_drop]
            simp only [List.length_cons] at hLength
            omega
        · cases hRead
      · split at hRead
        · cases hRead
          omega
        · cases hRead

/-- What a header says of the message and event types. -/
def withHeader (types : String × String) : String → Option String → String × String
  | ":message-type", some value => (value, types.2)
  | ":event-type", some value | ":exception-type", some value => (types.1, value)
  | _, _ => types

/-- The message and event types of the headers, up to the first one that cannot be read. -/
def readHeaders (headers : List UInt8) (types : String × String) : String × String :=
  match _hRead : readHeader headers with
  | none => types
  | some (name, value, rest) => readHeaders rest (withHeader types name value)
termination_by headers.length
decreasing_by exact readHeader_length _hRead

/-- The first message of the data, and how many bytes its frame has. -/
def decodeMessage (data : List UInt8) : Option (EventStreamMessage × Nat) :=
  let totalLength := u32At data 0
  let headersLength := u32At data 4
  let payloadStart := 12 + headersLength
  let payloadEnd := totalLength - 4
  if data.length < 12 then none
  else if totalLength < 16 ∨ data.length < totalLength then none
  else if (crc32 (data.take 8)).toNat ≠ u32At data 8 then none
  else if payloadStart > payloadEnd ∨ payloadEnd > data.length then none
  else
    let types := readHeaders ((data.drop 12).take headersLength) ("", "")
    let payload := if payloadEnd > payloadStart then fromUtf8Lossy ((data.take payloadEnd).drop payloadStart) else ""
    if (crc32 (data.take (totalLength - 4))).toNat ≠ u32At data (totalLength - 4) then none
    else some ({ messageType := types.1, eventType := types.2, data := payload }, totalLength)

theorem decodeMessage_length {data : List UInt8} {message : EventStreamMessage} {length : Nat}
    (hDecode : decodeMessage data = some (message, length)) : 16 ≤ length ∧ length ≤ data.length := by
  simp only [decodeMessage] at hDecode
  split at hDecode
  · cases hDecode
  · split at hDecode
    · cases hDecode
    · rename_i hBounds
      rw [not_or, not_lt, not_lt] at hBounds
      split at hDecode
      · cases hDecode
      · split at hDecode
        · cases hDecode
        · split at hDecode
          · cases hDecode
          · cases hDecode
            exact hBounds

/-- Up to the first frame that is not well formed. -/
def decodeMessages (data : List UInt8) : List EventStreamMessage :=
  match _hDecode : decodeMessage data with
  | none => []
  | some (message, length) => message :: decodeMessages (data.drop length)
termination_by data.length
decreasing_by
  have hLength := decodeMessage_length _hDecode
  rw [List.length_drop]
  omega

/-! ## Decoding a stream -/

def preludeMismatch (expected computed : Nat) : String :=
  "The prelude checksum specified in the message (" ++ toString expected ++
    ") does not match the calculated CRC32 checksum (" ++ toString computed ++ ")"

/-- The checksum errors of a frame of at least 16 bytes. -/
def checksumError (frame : List UInt8) : Option String :=
  if u32At frame 8 ≠ (crc32 (frame.take 8)).toNat then
    some (preludeMismatch (u32At frame 8) (crc32 (frame.take 8)).toNat)
  else
    let bodyEnd := frame.length - 4
    if u32At frame bodyEnd ≠ (crc32 (frame.take bodyEnd)).toNat then
      some ("The message checksum (" ++ toString (crc32 (frame.take bodyEnd)).toNat ++
        ") did not match the expected value of " ++ toString (u32At frame bodyEnd))
    else none

def MAX_EVENT_STREAM_FRAME_LEN : Nat := 24 * 1024 * 1024

def invalidData (message : String) : AiMuxError := .invalidResponseData message none

def wholeFrame (frame : List UInt8) : Verdict EventStreamMessage AiMuxError :=
  match checksumError frame with
  | some message => .fail (invalidData message)
  | none =>
    match (decodeMessages frame).head? with
    | some message => .frame message frame.length
    | none => .fail (invalidData "Invalid Amazon Bedrock event-stream frame")

/-- The loop body over what is buffered. The checksum of the lengths is checked before the frame is whole. -/
def nextFrame (buffer : List UInt8) : Verdict EventStreamMessage AiMuxError :=
  let length := u32At buffer 0
  if buffer.length < 4 then .wait
  else if length < 16 ∨ MAX_EVENT_STREAM_FRAME_LEN < length then
    .fail (invalidData "Invalid Amazon Bedrock event-stream frame length")
  else if 12 ≤ buffer.length ∧ u32At buffer 8 ≠ (crc32 (buffer.take 8)).toNat then
    .fail (invalidData (preludeMismatch (u32At buffer 8) (crc32 (buffer.take 8)).toNat))
  else if buffer.length < length then .wait
  else wholeFrame (buffer.take length)

end Aimux.Bedrock
