import Aimux.Lib.Base64

/-! # Base64 texts

`uint8_utils.rs` and `wire.rs`: the two decoders of base64 texts, and the encoder.
-/

namespace Aimux.Wire

open Aimux.Lib

/-! ## The decoder of the provider utilities -/

/-- The UTF-16 code units of a character. -/
def encodeUtf16 (c : Char) : List Nat :=
  if c.toNat < 0x10000 then [c.toNat]
  else [0xD800 + (c.toNat - 0x10000) / 0x400, 0xDC00 + (c.toNat - 0x10000) % 0x400]

def isSpaceUnit (unit : Nat) : Bool := unit ∈ [0x09, 0x0a, 0x0c, 0x0d, 0x20]

def popPadding (chars : List Nat) : List Nat := if chars.getLast? = some 0x3d then chars.dropLast else chars

def digitOfUnit (c : Nat) : Option Nat :=
  if 0x41 ≤ c ∧ c ≤ 0x5a then some (c - 0x41)
  else if 0x61 ≤ c ∧ c ≤ 0x7a then some (c - 0x61 + 26)
  else if 0x30 ≤ c ∧ c ≤ 0x39 then some (c - 0x30 + 52)
  else if c = 0x2b ∨ c = 0x2d then some 62
  else if c = 0x2f ∨ c = 0x5f then some 63
  else none

/-- The bits that are read and fill no byte yet, and the bytes before them. -/
structure Bits where
  bytes : List UInt8
  value : Nat
  bits : Nat

/-- One digit; `value` is a `u32`. -/
def Bits.push (read : Bits) (digit : Nat) : Bits :=
  let value := read.value <<< 6 % 2 ^ 32 ||| digit
  let bits := read.bits + 6
  if 8 ≤ bits then
    { bytes := read.bytes ++ [UInt8.ofNat (value >>> (bits - 8))], value := value &&& (1 <<< (bits - 8) - 1), bits := bits - 8 }
  else { read with value, bits }

def Bits.read : Bits → List Nat → Option (List UInt8)
  | read, [] => some read.bytes
  | read, c :: rest =>
    match digitOfUnit c with
    | some digit => (read.push digit).read rest
    | none => none

def forgivingDecode (chars : List Nat) : Option (List UInt8) :=
  let chars := chars.filter (!isSpaceUnit ·)
  let chars := if chars.length % 4 = 0 then popPadding (popPadding chars) else chars
  if chars.length % 4 = 1 then none else Bits.read ⟨[], 0, 0⟩ chars

def convertBase64ToUint8Array (base64 : String) : Option (List UInt8) :=
  forgivingDecode (base64.toList.flatMap encodeUtf16)

/-! ## The decoder of the core -/

/-- The standard encoder of the base64 crate, and its decoder where padding is indifferent and trailing bits are allowed. -/
structure Base64Crate where
  encode : List UInt8 → String
  decode : String → Option (List UInt8)

/-- What the crate's documentation promises: fewer padding letters than the canonical ones are as good. -/
structure Base64Crate.Documented (crate : Base64Crate) : Prop where
  encode (bytes : List UInt8) : crate.encode bytes = String.ofList (Base64.encode bytes)
  accepts (text : String) (digits : List (Fin 64)) (padding : Nat)
    (hText : Base64.spelling Base64.digitOfLetter '=' text.toList = some (digits, padding)) (hDigits : digits.length % 4 ≠ 1)
    (hPadding : padding ≤ Base64.canonicalPadding digits.length) : crate.decode text = some (Base64.pack digits)
  rejects (text : String)
    (hText : ∀ digits padding, Base64.spelling Base64.digitOfLetter '=' text.toList = some (digits, padding) →
      digits.length % 4 = 1 ∨ Base64.canonicalPadding digits.length < padding) : crate.decode text = none

section

variable (crate : Base64Crate)

def encodeBase64 (bytes : List UInt8) : String := crate.encode bytes

def isSpace (c : Char) : Bool := c ∈ [' ', '\t', '\n', '\x0c', '\r']

def standardLetter (c : Char) : Char := if c = '-' then '+' else if c = '_' then '/' else c

def decodeBase64 (text : String) : Option (List UInt8) :=
  crate.decode (String.ofList ((text.toList.filter (!isSpace ·)).map standardLetter))

end

end Aimux.Wire
