import Aimux.Http.Redirects
import Aimux.Lib.Utf8

/-! # Request signing

`SigV4Fetch` and `sign_request_with` of `sigv4_fetch.rs`. The `sha2` and `hmac` crates are fields of `Digests`.
-/

namespace Aimux.Http

open Aimux.Core Aimux.Lib

structure Digests where
  sha256 : List UInt8 → List UInt8
  /-- The key comes first. -/
  hmacSha256 : List UInt8 → List UInt8 → List UInt8

def hexDigit (digit : Nat) : Char := "0123456789abcdef".toList.getD digit '0'

/-- `hex::encode` -/
def hexEncode (bytes : List UInt8) : String :=
  String.ofList (bytes.flatMap fun byte => [hexDigit (byte.toNat / 16), hexDigit (byte.toNat % 16)])

/-! ## Canonical forms -/

def isUnreserved (byte : UInt8) : Bool :=
  (48 ≤ byte && byte ≤ 57) || (65 ≤ byte && byte ≤ 90) || (97 ≤ byte && byte ≤ 122) ||
    byte == 45 || byte == 95 || byte == 46 || byte == 126

def encodeByte (byte : UInt8) : List Char :=
  if isUnreserved byte then [Char.ofNat byte.toNat]
  else ['%', (hexDigit (byte.toNat / 16)).toUpper, (hexDigit (byte.toNat % 16)).toUpper]

def uriEncode (input : List UInt8) : String := String.ofList (input.flatMap encodeByte)

def canonicalUri (path : String) : String :=
  if path = "" then "/" else String.intercalate "/" (((utf8 path).splitOn 47).map uriEncode)

def hexValue (byte : UInt8) : Option UInt8 :=
  if 48 ≤ byte ∧ byte ≤ 57 then some (byte - 48)
  else if 97 ≤ byte ∧ byte ≤ 102 then some (byte - 87)
  else if 65 ≤ byte ∧ byte ≤ 70 then some (byte - 55)
  else none

/-- `u8::from_str_radix` of two characters, the first of which may be a sign. -/
def fromStrRadix16 (high low : UInt8) : Option UInt8 :=
  match hexValue high, hexValue low with
  | some high, some low => some (high * 16 + low)
  | none, some low => if high = 43 then some low else none
  | _, none => none

/-- The bytes with every `%` replaced that is followed by a number. -/
def decodeEscapes (number : UInt8 → UInt8 → Option UInt8) : List UInt8 → List UInt8
  | byte :: high :: low :: rest =>
    match if byte = 37 then number high low else none with
    | some value => value :: decodeEscapes number rest
    | none => byte :: decodeEscapes number (high :: low :: rest)
  | bytes => bytes

def percentDecode (input : List UInt8) : List UInt8 := decodeEscapes fromStrRadix16 input

/-- The names and values of a query, as they stand there. -/
def queryPairs (query : String) : List (List UInt8 × List UInt8) :=
  (((utf8 query).splitOn 38).filter (· ≠ [])).map fun pair =>
    (pair.takeWhile (· ≠ 61), (pair.dropWhile (· ≠ 61)).drop 1)

abbrev pairLe (pair other : String × String) : Prop :=
  pair.1 < other.1 ∨ pair.1 = other.1 ∧ pair.2 ≤ other.2

def canonicalQueryBy (decode : List UInt8 → List UInt8) (query : String) : String :=
  let pairs := (queryPairs query).map fun (name, value) => (uriEncode (decode name), uriEncode (decode value))
  String.intercalate "&" ((pairs.insertionSort pairLe).map fun (name, value) => name ++ "=" ++ value)

def canonicalQuery (query : String) : String := canonicalQueryBy percentDecode query

/-- The word that is begun, and the words after it. -/
def readWords : List Char → List Char × List (List Char)
  | [] => ([], [])
  | c :: rest =>
    let (word, words) := readWords rest
    if isWhitespace c then ([], if word = [] then words else word :: words) else (c :: word, words)

def splitWhitespace (text : List Char) : List (List Char) :=
  let (word, words) := readWords text
  if word = [] then words else word :: words

def canonicalHeaderValue (value : String) : String :=
  String.intercalate " " ((splitWhitespace value.toList).map String.ofList)

/-! ## Time -/

structure DateTime where
  year : Int
  month : Nat
  day : Nat
  hour : Nat
  minute : Nat
  second : Nat

def padLeft (width n : Nat) : String :=
  String.ofList ((Nat.toDigits 10 n).leftpad width '0')

/-- A year of more than four digits, or before year 0, has a sign. -/
def yearText (year : Int) : String :=
  if 0 ≤ year ∧ year ≤ 9999 then padLeft 4 year.toNat
  else (if 0 ≤ year then "+" else "-") ++ padLeft 4 year.natAbs

namespace DateTime

def dateStamp (now : DateTime) : String := yearText now.year ++ padLeft 2 now.month ++ padLeft 2 now.day

def amzDate (now : DateTime) : String :=
  now.dateStamp ++ "T" ++ padLeft 2 now.hour ++ padLeft 2 now.minute ++ padLeft 2 now.second ++ "Z"

end DateTime

/-! ## Signing -/

structure AwsCredentials where
  accessKeyId : String
  secretAccessKey : String
  sessionToken : Option String
  region : String

inductive SigV4Signing where
  | allHeaders
  | aws4Fetch
deriving DecidableEq

def UNSIGNABLE_HEADERS : List String :=
  ["authorization", "content-type", "content-length", "user-agent", "presigned-expires", "expect",
    "x-amzn-trace-id", "range", "connection"]

def asciiUpper (text : String) : String := String.ofList (text.toList.map Char.toUpper)

def canonicalRequestText (method path query : String) (headers : List (String × String)) (bodyHash : String) :
    String :=
  asciiUpper method ++ "\n" ++ path ++ "\n" ++ query ++ "\n" ++
    String.join (headers.map fun (name, value) => name ++ ":" ++ value ++ "\n") ++ "\n" ++
    String.intercalate ";" (headers.map (·.1)) ++ "\n" ++ bodyHash

def credentialScope (dateStamp region service : String) : String :=
  dateStamp ++ "/" ++ region ++ "/" ++ service ++ "/aws4_request"

def stringToSignText (digests : Digests) (amzDate scope canonicalRequest : String) : String :=
  "AWS4-HMAC-SHA256\n" ++ amzDate ++ "\n" ++ scope ++ "\n" ++ hexEncode (digests.sha256 (utf8 canonicalRequest))

section Signing

variable {Url : Type} (crates : Crates Url) (digests : Digests)

def hostHeader (url : Url) : String :=
  let host := (crates.hostStr url).getD ""
  match crates.port url with
  | some port => host ++ ":" ++ toString port
  | none => host

def callerHeader (extraHeaders : List (String × String)) (name : String) : Option String :=
  (extraHeaders.find? fun header => eqIgnoreAsciiCase header.1 name).map fun header =>
    canonicalHeaderValue header.2

/-- The headers that the signer sets itself. -/
def reservedHeaders : List String := ["host", "x-amz-date", "x-amz-content-sha256", "x-amz-security-token"]

def bodyHash (body : List UInt8) (extraHeaders : List (String × String)) : String :=
  (callerHeader extraHeaders "x-amz-content-sha256").getD (hexEncode (digests.sha256 body))

abbrev headerLe (header other : String × String) : Prop := header.1 ≤ other.1

def canonicalHeaders (credentials : AwsCredentials) (url : Url) (body : List UInt8)
    (extraHeaders : List (String × String)) (now : DateTime) (signing : SigV4Signing) :
    List (String × String) :=
  let hash := if signing = .allHeaders ∨ (callerHeader extraHeaders "x-amz-content-sha256").isSome then
    [("x-amz-content-sha256", bodyHash digests body extraHeaders)] else []
  let token := (credentials.sessionToken.or (callerHeader extraHeaders "x-amz-security-token")).toList.map
    fun token => ("x-amz-security-token", token)
  -- the names of a header map are ASCII
  let others := (extraHeaders.map fun (name, value) => (asciiLower name, canonicalHeaderValue value)).filter
    fun header => !reservedHeaders.contains header.1
  ([("host", hostHeader crates url), ("x-amz-date", now.amzDate)] ++ hash ++ token ++ others).insertionSort headerLe

/-- What is signed, and the headers to send. -/
structure SignedRequest where
  canonicalRequest : String
  stringToSign : String
  headers : List (String × String)

def signingKey (credentials : AwsCredentials) (service dateStamp : String) : List UInt8 :=
  let date := digests.hmacSha256 (utf8 ("AWS4" ++ credentials.secretAccessKey)) (utf8 dateStamp)
  let region := digests.hmacSha256 date (utf8 credentials.region)
  digests.hmacSha256 (digests.hmacSha256 region (utf8 service)) (utf8 "aws4_request")

def authorizationValue (credentials : AwsCredentials) (scope : String) (names : List String)
    (signature : String) : String :=
  "AWS4-HMAC-SHA256 Credential=" ++ credentials.accessKeyId ++ "/" ++ scope ++ ", SignedHeaders=" ++
    String.intercalate ";" names ++ ", Signature=" ++ signature

/-- `sign_request_with`, of a URL that has been parsed. -/
def signParsed (credentials : AwsCredentials) (service method : String) (url : Url) (body : List UInt8)
    (extraHeaders : List (String × String)) (now : DateTime) (signing : SigV4Signing) : SignedRequest :=
  let headers := canonicalHeaders crates digests credentials url body extraHeaders now signing
  let canonicalRequest := canonicalRequestText method (canonicalUri (crates.path url))
    (canonicalQuery ((crates.query url).getD "")) headers (bodyHash digests body extraHeaders)
  let scope := credentialScope now.dateStamp credentials.region service
  let stringToSign := stringToSignText digests now.amzDate scope canonicalRequest
  let signature := hexEncode (digests.hmacSha256 (signingKey digests credentials service now.dateStamp)
    (utf8 stringToSign))
  { canonicalRequest, stringToSign
    headers := headers ++
      [("Authorization", authorizationValue credentials scope (headers.map (·.1)) signature)] }

/-- A URL that cannot be parsed is signed as `http://localhost`, which can be. -/
def signRequestWith (credentials : AwsCredentials) (service method url : String) (body : List UInt8)
    (extraHeaders : List (String × String)) (now : DateTime) (signing : SigV4Signing) : Option SignedRequest :=
  ((crates.parse url).toOption.or (crates.parse "http://localhost").toOption).map fun parsed =>
    signParsed crates digests credentials service method parsed body extraHeaders now signing

end Signing

/-! ## The decorator -/

/-- A request on its way to a transport. The values of its headers are bytes, its method is any token. -/
structure OutboundRequest (Url : Type) where
  method : String
  url : Url
  headers : List (String × List UInt8)
  body : List UInt8
  credentials : RequestCredentials

structure SigV4Fetch where
  /-- What the credentials resolve to for this request. -/
  credentials : Except SourceError AwsCredentials
  service : String
  /-- The reading of the clock. -/
  now : DateTime
  signing : SigV4Signing

namespace SigV4Fetch

def isUnsigned (signing : SigV4Signing) (name : String) : Bool :=
  match signing with
  | .allHeaders => name = "authorization"
  | .aws4Fetch => UNSIGNABLE_HEADERS.contains name

/-- Every error is a `FetchError::Other`. -/
def extraHeaders (signing : SigV4Signing) :
    List (String × List UInt8) → Except SourceError (List (String × String))
  | [] => .ok []
  | (name, value) :: rest =>
    if isUnsigned signing name then extraHeaders signing rest
    else match headerText value with
      | .error error => .error (.mk ("cannot sign non-ASCII header value for " ++ name) (some error))
      | .ok text => (extraHeaders signing rest).map ((name, text) :: ·)

variable {Url : Type} (crates : Crates Url) (digests : Digests)

/-- `HeaderMap::insert` -/
def insertBytes (headers : List (String × List UInt8)) (name : String) (value : List UInt8) :
    List (String × List UInt8) :=
  headers.filter (·.1 ≠ name) ++ [(name, value)]

def insertSigned : List (String × List UInt8) → List (String × String) →
    Except SourceError (List (String × List UInt8))
  | headers, [] => .ok headers
  | headers, (name, value) :: rest =>
    match crates.headerName name with
    | .error error => .error (.mk ("invalid signed header name " ++ name ++ ": " ++ error.message) (some error))
    | .ok headerName =>
      match crates.headerValue value with
      | .error error =>
        .error (.mk ("invalid signed header value for " ++ headerName ++ ": " ++ error.message) (some error))
      | .ok () => insertSigned (insertBytes headers headerName (utf8 value)) rest

/-- The request that the inner transport gets. The last error stands for a panic that no URL leads to. -/
def fetch (self : SigV4Fetch) (request : OutboundRequest Url) : Except SourceError (OutboundRequest Url) :=
  if request.credentials = .omitted then .ok request
  else match self.credentials with
    | .error error => .error (.mk ("failed to resolve AWS credentials: " ++ error.message) (some error))
    | .ok credentials => do
      let extra ← extraHeaders self.signing request.headers
      match signRequestWith crates digests credentials self.service request.method (crates.text request.url)
          request.body extra self.now self.signing with
      | none => .error (.mk "relative URL without a base" none)
      | some signed =>
        let headers ← insertSigned crates request.headers signed.headers
        return { request with headers }

end SigV4Fetch

end Aimux.Http
