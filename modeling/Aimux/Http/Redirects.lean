import Aimux.Http.DownloadGuard

/-! # Following redirects

`prepare`, `build_fetch_request` and `send_following_redirects` of `http.rs`. The server, the name service and
the caller's abort are the world of a run: they may answer every request in any way.
-/

namespace Aimux.Http

open Aimux.Core

def MAX_REDIRECTS : Nat := 10

def PROVIDER_UTILS : String := "5.0.53"

inductive HttpBody where
  | json (value : Json)
  | bytes (bytes : List UInt8) (contentType : String)
  | empty

inductive HttpMethod where
  | get
  | post
deriving DecidableEq

inductive RequestCredentials where
  | included
  | omitted
deriving DecidableEq

structure HttpRequest where
  url : String
  headers : List (String × String) := []
  validateUrl : Bool := false
  trustedOrigin : Option String := none
  credentialedOrigin : Option String := none
  omitProviderUtilsUserAgent : Bool := false

structure DownloadValidation where
  trustedOrigin : Option String
  credentialedOrigin : Option String

structure PreparedRequest where
  method : HttpMethod
  body : HttpBody
  url : String
  headers : List (String × String)
  validation : Option DownloadValidation
  credentials : RequestCredentials
  providerUtilsUserAgent : Bool

structure FetchRequest (Url : Type) where
  method : HttpMethod
  url : Url
  /-- One value for every name, which is in lower case. -/
  headers : List (String × String)
  body : List UInt8
  credentials : RequestCredentials

structure FetchResponse where
  status : Nat
  headers : List (String × List UInt8)

section Requests

variable {Url : Type} (crates : Crates Url)

def HttpRequest.prepare (self : HttpRequest) (method : HttpMethod) (body : HttpBody) : PreparedRequest :=
  let foreign := self.credentialedOrigin.any fun origin => !sameOrigin crates self.url origin
  { method, body
    url := self.url
    headers := if foreign then retainUserAgent self.headers else self.headers
    validation := if self.validateUrl then some {
      trustedOrigin := self.trustedOrigin, credentialedOrigin := self.credentialedOrigin } else none
    credentials := if foreign then .omitted else .included
    providerUtilsUserAgent := !self.omitProviderUtilsUserAgent }

/-- `HeaderMap::insert` -/
def insertHeader (headers : List (String × String)) (name value : String) : List (String × String) :=
  headers.filter (·.1 ≠ name) ++ [(name, value)]

def insertHeaders : List (String × String) → List (String × String) → Except AiMuxError (List (String × String))
  | built, [] => .ok built
  | built, (name, value) :: rest =>
    match crates.headerName name with
    | .error error => .error (.invalidArgument ("invalid header name: " ++ name) (some (.source error)))
    | .ok headerName =>
      match crates.headerValue value with
      -- the value is commonly a credential
      | .error error => .error (.invalidArgument ("invalid header value for " ++ name) (some (.source error)))
      | .ok () => insertHeaders (insertHeader built headerName value) rest

def userAgentValue (current suffix : String) : String :=
  String.intercalate " " ([current, suffix].filter (· ≠ ""))

/-- The last `user-agent` of the request, followed by the part of the helpers. -/
def withUserAgent (request : PreparedRequest) (headers : List (String × String)) :
    Except AiMuxError (List (String × String)) :=
  if !request.providerUtilsUserAgent then .ok headers
  else
    let current := ((request.headers.reverse.find? isUserAgent).map (·.2)).getD ""
    let userAgent := userAgentValue current ("ai-sdk-provider-utils/" ++ PROVIDER_UTILS)
    match crates.headerValue userAgent with
    | .error error => .error (.invalidArgument "invalid header value for user-agent" (some (.source error)))
    | .ok () => .ok (insertHeader headers "user-agent" userAgent)

def isMultipart (mediaType : String) : Bool :=
  "multipart/".toList.isPrefixOf ((mediaType.toList.dropWhile isWhitespace).map Char.toLower)

def withBody (body : HttpBody) (headers : List (String × String)) :
    Except AiMuxError (List (String × String) × List UInt8) :=
  let present := headers.any (·.1 = "content-type")
  match body with
  | .json value =>
    .ok (if present then headers else insertHeader headers "content-type" "application/json",
      crates.jsonBytes value)
  | .bytes bytes contentType =>
    match crates.headerValue contentType with
    | .error error => .error (.invalidArgument ("invalid content type: " ++ contentType) (some (.source error)))
    | .ok () =>
      -- the boundary of a multipart body is known to the body alone
      .ok (if isMultipart contentType || !present then insertHeader headers "content-type" contentType
        else headers, bytes)
  | .empty => .ok (headers, [])

def buildFetchRequest (request : PreparedRequest) : Except AiMuxError (FetchRequest Url) :=
  match crates.parse request.url with
  | .error error =>
    .error (.invalidArgument ("invalid request URL: " ++ error.message) (some (.source error)))
  | .ok url => do
    let headers ← insertHeaders crates [] request.headers
    let headers ← withUserAgent crates request headers
    let (headers, body) ← withBody crates request.body headers
    return { method := request.method, url, headers, body, credentials := request.credentials }

end Requests

/-! ## The request in errors -/

def redactRequestValues : HttpBody → Json
  | .json value => redactErrorContext value
  | .bytes bytes contentType =>
    .object [("content_type", .string contentType), ("length", .number (.int bytes.length))]
  | .empty => .object []

/-- `split_once` -/
def splitOnce (separator : List Char) : List Char → Option (List Char × List Char)
  | [] => if separator = [] then some ([], []) else none
  | c :: rest =>
    if separator <+: c :: rest then some ([], (c :: rest).drop separator.length)
    else (splitOnce separator rest).map fun split => (c :: split.1, split.2)

/-- Without query and userinfo, also when the URL cannot be parsed. -/
def sanitizedRequestUrl {Url : Type} (crates : Crates Url) (url : String) : String :=
  match crates.parse url with
  | .ok parsed => crates.text (crates.bare parsed)
  | .error _ =>
    let withoutQuery := url.toList.takeWhile (· ≠ '?')
    match splitOnce "://".toList withoutQuery with
    | none => String.ofList withoutQuery
    | some (scheme, rest) =>
      let authority := rest.takeWhile (· ≠ '/')
      if '@' ∈ authority then
        String.ofList (scheme ++ "://".toList ++ authority.rtakeWhile (· ≠ '@') ++ rest.drop authority.length)
      else String.ofList withoutQuery

/-! ## The redirects -/

/-- A request on its way: what it was built from, and the addresses it is pinned to. -/
structure Sent (Url : Type) where
  prepared : PreparedRequest
  request : FetchRequest Url
  pinned : Option (List IpAddr)

/-- What answers a run, request by request. -/
structure World (Url : Type) where
  lookupHost : Nat → String → Nat → Except SourceError (List IpAddr)
  aborted : Nat → Bool
  respond : Nat → Sent Url → Except AiMuxError FetchResponse

section Redirects

variable {Url : Type} (crates : Crates Url) (world : World Url)

def sendOneRequest (n : Nat) (pinned : Option (List IpAddr)) (request : PreparedRequest) :
    Except AiMuxError FetchResponse × List (Sent Url) :=
  match buildFetchRequest crates request with
  | .error error => (.error error, [])
  | .ok built =>
    if world.aborted n then (.error (.aborted "request aborted"), [])
    else
      let sent : Sent Url := { prepared := request, request := built, pinned }
      (world.respond n sent, [sent])

def isRedirectStatus (status : Nat) : Bool := [301, 302, 303, 307, 308].contains status

def redirectError (request : PreparedRequest) (message : String) (status : Nat) (cause : Option ErrorCause) :
    AiMuxError :=
  .apiCall (sanitizedRequestUrl crates request.url) (redactRequestValues request.body) (some status) none message none
    none none false cause .httpResponse

/-- `HeaderValue::to_str`: visible ASCII characters and tabs. -/
def headerText (value : List UInt8) : Except SourceError String :=
  if value.all fun byte => (32 ≤ byte && byte < 127) || byte == 9 then
    .ok (String.ofList (value.map fun byte => Char.ofNat byte.toNat))
  else .error (.mk "failed to convert header to a str" none)

/-- Where a response leads to, if it is followed. -/
def redirectTarget (request current : PreparedRequest) (response : FetchResponse) :
    Except AiMuxError (Option Url) :=
  if !isRedirectStatus response.status then .ok none
  else
    match response.headers.lookup "location" with
    | none => .ok none
    | some location =>
      match headerText location with
      | .error error => .error (redirectError crates request "redirect location is not valid UTF-8"
          response.status (some (.source error)))
      | .ok location =>
        match crates.parse current.url with
        | .error error =>
          .error (.invalidArgument ("invalid request URL: " ++ error.message) (some (.source error)))
        | .ok base =>
          match crates.join base location with
          | .error error => .error (redirectError crates request ("invalid redirect URL: " ++ error.message)
              response.status (some (.source error)))
          | .ok next =>
            if crates.scheme next ≠ "http" ∧ crates.scheme next ≠ "https" then
              .error (redirectError crates request ("redirect to non-HTTP scheme: " ++ crates.scheme next)
                response.status none)
            else .ok (some next)

/-- The request for the next hop. -/
def redirected (anchor : String) (current : PreparedRequest) (status : Nat) (next : String) : PreparedRequest :=
  let foreign := !sameOrigin crates next anchor
  let asGet := status = 303 || ((status = 301 || status = 302) && current.method = .post)
  { current with
    url := next
    headers := if foreign then retainUserAgent current.headers else current.headers
    credentials := if foreign then .omitted else current.credentials
    method := if asGet then .get else current.method
    body := if asGet then .empty else current.body }

/-- The addresses of the next hop of a validated download. -/
def validateHop (n : Nat) (trustedOrigin : Option String) (current : PreparedRequest) (next : String) :
    Option (List IpAddr) → Except AiMuxError (Option (List IpAddr))
  | none => .ok none
  | some _ =>
    (validateDownloadTarget crates (world.lookupHost n) next
      (hopTrustedOrigin crates trustedOrigin current.url)).map some

/-- The loop, with the redirects that may still be followed. -/
def followRedirects (request : PreparedRequest) (anchor : String) (trustedOrigin : Option String) :
    Nat → Nat → PreparedRequest → Option (List IpAddr) → Except AiMuxError FetchResponse × List (Sent Url)
  | n, left, current, pinned =>
    let sent := sendOneRequest crates world n pinned current
    match sent.1 with
    | .error error => (.error error, sent.2)
    | .ok response =>
      match redirectTarget crates request current response with
      | .error error => (.error error, sent.2)
      | .ok none => (.ok response, sent.2)
      | .ok (some next) =>
        match left with
        | 0 => (.error (redirectError crates request "too many redirects" response.status none), sent.2)
        | left + 1 =>
          match validateHop crates world (n + 1) trustedOrigin current (crates.text next) pinned with
          | .error error => (.error error, sent.2)
          | .ok pinned =>
            let rest := followRedirects request anchor trustedOrigin (n + 1) left
              (redirected crates anchor current response.status (crates.text next)) pinned
            (rest.1, sent.2 ++ rest.2)
termination_by structural _ left => left

def sendFollowingRedirects (request : PreparedRequest) :
    Except AiMuxError FetchResponse × List (Sent Url) :=
  let trustedOrigin := request.validation.bind (·.trustedOrigin)
  let anchor := (request.validation.bind (·.credentialedOrigin)).getD request.url
  match request.validation with
  | none => followRedirects crates world request anchor trustedOrigin 0 MAX_REDIRECTS request none
  | some _ =>
    let current := { request with headers := sanitizeDownloadHeaders request.headers }
    match validateDownloadTarget crates (world.lookupHost 0) current.url trustedOrigin with
    | .error error => (.error error, [])
    | .ok pinned =>
      followRedirects crates world request anchor trustedOrigin 0 MAX_REDIRECTS current (some pinned)

end Redirects

end Aimux.Http
