import Aimux.Core.Redaction
import Aimux.Core.ToolCallParsing

/-! # Downloads of provider-supplied URLs

`download_guard.rs`: origins, the addresses a download may go to and the headers it may carry. The `url` and
`http` crates are fields of `Crates`.
-/

namespace Aimux.Http

open Aimux.Core

/-- `IpAddr` -/
inductive IpAddr where
  | v4 (a b c d : UInt8)
  | v6 (groups : Vector UInt16 8)
deriving DecidableEq

structure Crates (Url : Type) where
  /-- `Url::parse` -/
  parse : String → Except SourceError Url
  join : Url → String → Except SourceError Url
  scheme : Url → String
  hostStr : Url → Option String
  /-- The port, unless it is the default one of the scheme. -/
  port : Url → Option Nat
  portOrKnownDefault : Url → Option Nat
  path : Url → String
  query : Url → Option String
  /-- `Url` display -/
  text : Url → String
  /-- The URL without its query and its userinfo. -/
  bare : Url → Url
  /-- `HeaderName::try_from` -/
  headerName : String → Except SourceError String
  /-- `HeaderValue::try_from` -/
  headerValue : String → Except SourceError Unit
  /-- `serde_json::to_vec` -/
  jsonBytes : Json → List UInt8
  /-- `IpAddr` display -/
  addressText : IpAddr → String

def eqIgnoreAsciiCase (text other : String) : Bool := asciiLower text = asciiLower other

/-! ## Origins -/

section Origins

variable {Url : Type} (crates : Crates Url)

/-- Scheme, host and effective port. What cannot be parsed has no origin. -/
def sameOrigin (url origin : String) : Bool :=
  match crates.parse url, crates.parse origin with
  | .ok url, .ok origin =>
    crates.scheme url = crates.scheme origin && crates.hostStr url = crates.hostStr origin &&
      crates.portOrKnownDefault url = crates.portOrKnownDefault origin
  | _, _ => false

/-- A redirect inherits the trust of the URL it comes from. -/
def hopTrustedOrigin (trustedOrigin : Option String) (currentUrl : String) : Option String :=
  trustedOrigin.filter fun origin => sameOrigin crates currentUrl origin

end Origins

/-! ## Addresses

`IpAddr::from_str`, on the classes of the characters. -/

inductive Token where
  | hex (value : Nat)
  | dot
  | colon
  | other
deriving DecidableEq

def token (c : Char) : Token :=
  if 48 ≤ c.toNat ∧ c.toNat ≤ 57 then .hex (c.toNat - 48)
  else if 97 ≤ c.toNat ∧ c.toNat ≤ 102 then .hex (c.toNat - 87)
  else if 65 ≤ c.toNat ∧ c.toNat ≤ 70 then .hex (c.toNat - 55)
  else if c.toNat = 46 then .dot
  else if c.toNat = 58 then .colon
  else .other

def digits (radix : Nat) : List Token → Option (List Nat)
  | [] => some []
  | .hex value :: rest => if value < radix then (digits radix rest).map (value :: ·) else none
  | _ :: _ => none

/-- Up to three decimal digits without a leading zero. -/
def octet (tokens : List Token) : Option UInt8 := do
  let values ← digits 10 tokens
  let value := values.foldl (fun sum digit => sum * 10 + digit) 0
  if values = [] ∨ 3 < values.length ∨ 255 < value then none
  else if 1 < values.length ∧ values.head? = some 0 then none
  else some (UInt8.ofNat value)

/-- Up to four hexadecimal digits. -/
def group (tokens : List Token) : Option UInt16 := do
  let values ← digits 16 tokens
  if values = [] ∨ 4 < values.length then none
  else some (UInt16.ofNat (values.foldl (fun sum digit => sum * 16 + digit) 0))

def ipv4 (tokens : List Token) : Option (UInt8 × UInt8 × UInt8 × UInt8) :=
  match tokens.splitOn .dot with
  | [a, b, c, d] => do return (← octet a, ← octet b, ← octet c, ← octet d)
  | _ => none

def groups : List (List Token) → Option (List UInt16)
  | [] => some []
  | piece :: rest => do return (← group piece) :: (← groups rest)

/-- The last piece may be an IPv4 address, which stands for two groups. -/
def groupsToIpv4 : List (List Token) → Option (List UInt16)
  | [] => some []
  | [piece] =>
    match ipv4 piece with
    | some (a, b, c, d) => some [a.toUInt16 * 256 + b.toUInt16, c.toUInt16 * 256 + d.toUInt16]
    | none => groups [piece]
  | piece :: rest => do return (← group piece) :: (← groupsToIpv4 rest)

def pieces (tokens : List Token) : List (List Token) := if tokens = [] then [] else tokens.splitOn .colon

/-- What stands before and after the first `::`. -/
def splitDouble : List Token → List Token × Option (List Token)
  | .colon :: .colon :: rest => ([], some rest)
  | first :: rest => (first :: (splitDouble rest).1, (splitDouble rest).2)
  | [] => ([], none)

def ipv6 (tokens : List Token) : Option (Vector UInt16 8) := do
  let all ← match splitDouble tokens with
    | (head, none) => groupsToIpv4 (pieces head)
    | (head, some tail) => do
      let front ← groups (pieces head)
      let back ← groupsToIpv4 (pieces tail)
      if 7 < front.length + back.length then none
      else some (front ++ List.replicate (8 - (front.length + back.length)) 0 ++ back)
  if h : all.length = 8 then some ⟨all.toArray, h⟩ else none

def parseAddress (tokens : List Token) : Option IpAddr :=
  match ipv4 tokens with
  | some (a, b, c, d) => some (.v4 a b c d)
  | none => (ipv6 tokens).map .v6

/-- A host with its brackets. -/
def hostIpLiteral (host : List Char) : Option IpAddr :=
  parseAddress (((host.dropWhile (· = '[')).rdropWhile (· = ']')).map token)

def isPublicIpv4 (a b c : UInt8) : Bool :=
  !(a == 0 || a == 10 || (a == 100 && 64 ≤ b && b ≤ 127) || a == 127 || (a == 169 && b == 254) ||
    (a == 172 && 16 ≤ b && b ≤ 31) || (a == 192 && b == 0 && (c == 0 || c == 2)) || (a == 192 && b == 168) ||
    (a == 198 && (b == 18 || b == 19)) || (a == 198 && b == 51 && c == 100) ||
    (a == 203 && b == 0 && c == 113) || 224 ≤ a)

def isPublicDownloadAddress : IpAddr → Bool
  | .v4 a b c _ => isPublicIpv4 a b c
  | .v6 groups =>
    let topZero (count : Nat) : Bool := (groups.toList.take count).all (· == 0)
    if (topZero 7 && (groups[7] == 0 || groups[7] == 1)) || groups[0] &&& 0xfe00 == 0xfc00 ||
        groups[0] &&& 0xffc0 == 0xfe80 || groups[0] &&& 0xffc0 == 0xfec0 ||
        groups[0] &&& 0xff00 == 0xff00 || (groups[0] == 0x2001 && groups[1] == 0x0db8) ||
        (groups[0] == 0x3fff && groups[1] &&& 0xf000 == 0) then false
    else
      -- the transition prefixes are judged by the IPv4 address they embed
      let embedsIpv4 := topZero 6 || (topZero 5 && groups[5] == 0xffff) ||
        (topZero 4 && groups[4] == 0xffff && groups[5] == 0) ||
        (groups[0] == 0x0064 && groups[1] == 0xff9b && ((groups.toList.drop 2).take 4).all (· == 0)) ||
        (groups[0] == 0x0064 && groups[1] == 0xff9b && groups[2] == 1)
      if !embedsIpv4 then true
      else isPublicIpv4 (groups[6] >>> 8).toUInt8 groups[6].toUInt8 (groups[7] >>> 8).toUInt8

/-! ## Targets -/

section Targets

variable {Url : Type} (crates : Crates Url)

def invalidArgument (message : String) : AiMuxError := .invalidArgument message none

/-- Lower case, without the dots at the end. -/
def normalizedHost (host : List Char) : List Char := (host.map Char.toLower).rdropWhile (· = '.')

def validateDownloadUrl (url : String) : Except AiMuxError Url :=
  match crates.parse url with
  | .error error =>
    .error (.invalidArgument ("invalid download URL: " ++ error.message) (some (.source error)))
  | .ok parsed =>
    if crates.scheme parsed ≠ "http" ∧ crates.scheme parsed ≠ "https" then
      .error (invalidArgument ("download URL must use HTTP or HTTPS: " ++ crates.text (crates.bare parsed)))
    else
      match crates.hostStr parsed with
      | none => .error (invalidArgument "download URL has no host")
      | some host =>
        let normalized := normalizedHost host.toList
        if normalized = "localhost".toList ∨ ".local".toList <:+ normalized ∨
            ".localhost".toList <:+ normalized then
          .error (invalidArgument ("download URL targets a disallowed hostname: " ++ String.ofList normalized))
        else
          match hostIpLiteral normalized with
          | some address =>
            if isPublicDownloadAddress address then .ok parsed
            else .error (invalidArgument
              ("download URL targets a non-public address: " ++ crates.addressText address))
          | none => .ok parsed

def validateResolved (host : String) : List IpAddr → List IpAddr → Except AiMuxError (List IpAddr)
  | validated, [] => .ok validated
  | validated, address :: rest =>
    if isPublicDownloadAddress address then
      validateResolved host (if address ∈ validated then validated else validated ++ [address]) rest
    else .error (invalidArgument
      ("download URL resolves to a non-public address: " ++ crates.addressText address))

def validateResolvedDownloadAddresses (host : String) (addresses : List IpAddr) :
    Except AiMuxError (List IpAddr) :=
  if addresses = [] then
    .error (invalidArgument ("download URL host did not resolve to an address: " ++ host))
  else validateResolved crates host [] addresses

/-- The addresses to connect to; none for a URL on the trusted origin. -/
def validateDownloadTarget (lookupHost : String → Nat → Except SourceError (List IpAddr)) (url : String)
    (trustedOrigin : Option String) : Except AiMuxError (List IpAddr) :=
  if trustedOrigin.any fun origin => sameOrigin crates url origin then .ok []
  else
    match validateDownloadUrl crates url with
    | .error error => .error error
    | .ok parsed =>
      match crates.hostStr parsed with
      | none => .error (invalidArgument "download URL has no host")
      | some host =>
        match hostIpLiteral host.toList with
        -- `validateDownloadUrl` has rejected what is not public
        | some address => .ok [address]
        | none =>
          match crates.portOrKnownDefault parsed with
          | none => .error (invalidArgument "download URL has no known port")
          | some port =>
            match lookupHost host port with
            | .error error => .error (.invalidArgument
                ("download URL host could not be resolved: " ++ error.message) (some (.source error)))
            | .ok addresses => validateResolvedDownloadAddresses crates host addresses

end Targets

/-! ## Headers -/

def BLOCKED : List String :=
  ["connection", "keep-alive", "te", "trailer", "transfer-encoding", "upgrade", "host", "forwarded",
    "proxy-authorization", "via", "x-forwarded-for", "x-forwarded-host", "x-forwarded-proto", "x-real-ip",
    "metadata", "metadata-flavor", "x-aws-ec2-metadata-token", "x-metadata-token", "cookie", "set-cookie"]

def sanitizeDownloadHeaders (headers : List (String × String)) : List (String × String) :=
  headers.filter fun header => !BLOCKED.any fun blocked => eqIgnoreAsciiCase header.1 blocked

def isUserAgent (header : String × String) : Bool := eqIgnoreAsciiCase header.1 "user-agent"

def retainUserAgent (headers : List (String × String)) : List (String × String) :=
  (headers.find? isUserAgent).toList

end Aimux.Http
