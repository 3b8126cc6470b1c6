import Aimux.Http.DownloadTargets
import Aimux.Http.Redirects

/-! # Redirect chains

The requests of one exchange are a chain: each follows from the one before by one redirect, whatever the
servers answer. The headers, the addresses and the schemes of all of them are read off one link.
-/

namespace Aimux.Http

open Aimux.Core

variable {Url : Type} {crates : Crates Url} {world : World Url}

/-- What the `url` and `http` crates promise. -/
structure Lawful (crates : Crates Url) : Prop where
  parse_text : ∀ url, crates.parse (crates.text url) = .ok url
  headerName_lower : ∀ name built, crates.headerName name = .ok built → built = asciiLower name

def isHttp (crates : Crates Url) (url : Url) : Prop := crates.scheme url = "http" ∨ crates.scheme url = "https"

/-! ## The chain -/

/-- One redirect. -/
structure Follows (crates : Crates Url) (world : World Url) (anchor : String) (trustedOrigin : Option String)
    (hop next : Sent Url) : Prop where
  target : ∃ url status, isHttp crates url ∧
    next.prepared = redirected crates anchor hop.prepared status (crates.text url)
  pinned : (hop.pinned = none ∧ next.pinned = none) ∨
    ∃ n addresses, next.pinned = some addresses ∧
      validateDownloadTarget crates (world.lookupHost n) next.prepared.url
        (hopTrustedOrigin crates trustedOrigin hop.prepared.url) = .ok addresses

/-- The requests of an exchange from its first one on. -/
structure Chained (crates : Crates Url) (world : World Url) (anchor : String) (trustedOrigin : Option String)
    (current : PreparedRequest) (pinned : Option (List IpAddr)) (hops : List (Sent Url)) : Prop where
  first : ∀ hop ∈ hops.head?, hop.prepared = current ∧ hop.pinned = pinned
  chain : hops.IsChain (Follows crates world anchor trustedOrigin)
  built : ∀ hop ∈ hops, buildFetchRequest crates hop.prepared = .ok hop.request

variable {current request : PreparedRequest}

theorem redirectTarget_http {response : FetchResponse} {next : Url}
    (h : redirectTarget crates request current response = .ok (some next)) : isHttp crates next := by
  unfold redirectTarget at h
  repeat' split at h
  all_goals cases h
  rename_i hScheme
  by_contra hNeither
  exact hScheme (not_or.mp hNeither)

theorem sendOneRequest_sent (crates : Crates Url) (world : World Url) (n : Nat) (pinned : Option (List IpAddr))
    (request : PreparedRequest) :
    (∃ built, buildFetchRequest crates request = .ok built ∧
      (sendOneRequest crates world n pinned request).2 = [{ prepared := request, request := built, pinned }]) ∨
    ((sendOneRequest crates world n pinned request).2 = [] ∧
      ∃ error, (sendOneRequest crates world n pinned request).1 = .error error) := by
  unfold sendOneRequest
  cases hBuilt : buildFetchRequest crates request with
  | error error => exact .inr ⟨rfl, error, rfl⟩
  | ok built =>
    dsimp only
    split
    · exact .inr ⟨rfl, _, rfl⟩
    · exact .inl ⟨built, rfl, rfl⟩

variable {trustedOrigin : Option String} {pinned : Option (List IpAddr)} {anchor : String}

theorem chained_nil : Chained crates world anchor trustedOrigin current pinned [] where
  first := by
    rintro other ⟨⟩
  chain := .nil
  built := by
    rintro other ⟨⟩

theorem chained_single {built : FetchRequest Url} (hBuilt : buildFetchRequest crates current = .ok built) :
    Chained crates world anchor trustedOrigin current pinned
      [{ prepared := current, request := built, pinned }] where
  first := by
    rintro other ⟨⟩
    exact ⟨rfl, rfl⟩
  chain := .singleton _
  built := by
    intro other hOther
    rw [List.mem_singleton.mp hOther]
    exact hBuilt

theorem chained_sendOneRequest (n : Nat) (pinned : Option (List IpAddr)) (request : PreparedRequest)
    (anchor : String) (trustedOrigin : Option String) :
    Chained crates world anchor trustedOrigin request pinned (sendOneRequest crates world n pinned request).2 ∧
      (sendOneRequest crates world n pinned request).2.length ≤ 1 := by
  rcases sendOneRequest_sent crates world n pinned request with ⟨built, hBuilt, hSent⟩ | ⟨hNone, _⟩
  · rw [hSent]
    exact ⟨chained_single hBuilt, le_rfl⟩
  · rw [hNone]
    exact ⟨chained_nil, Nat.zero_le _⟩

theorem validateHop_ok {n : Nat} {next : String} {hopPinned : Option (List IpAddr)}
    (h : validateHop crates world n trustedOrigin current next pinned = .ok hopPinned) :
    (pinned = none ∧ hopPinned = none) ∨ ∃ addresses, hopPinned = some addresses ∧
      validateDownloadTarget crates (world.lookupHost n) next
        (hopTrustedOrigin crates trustedOrigin current.url) = .ok addresses := by
  cases pinned with
  | none =>
    cases h
    exact .inl ⟨rfl, rfl⟩
  | some before =>
    rw [validateHop] at h
    cases hTarget : validateDownloadTarget crates (world.lookupHost n) next
        (hopTrustedOrigin crates trustedOrigin current.url) with
    | error error =>
      rw [hTarget] at h
      cases h
    | ok addresses =>
      rw [hTarget] at h
      cases h
      exact .inr ⟨addresses, rfl, rfl⟩

/-- One round of the loop. -/
theorem followRedirects_round (request : PreparedRequest) (anchor : String) (trustedOrigin : Option String)
    (n left : Nat) (current : PreparedRequest) (pinned : Option (List IpAddr)) :
    (followRedirects crates world request anchor trustedOrigin n left current pinned).2 =
        (sendOneRequest crates world n pinned current).2 ∨
    ∃ later built url status hopPinned, left = later + 1 ∧ buildFetchRequest crates current = .ok built ∧
      isHttp crates url ∧
      validateHop crates world (n + 1) trustedOrigin current (crates.text url) pinned = .ok hopPinned ∧
      (followRedirects crates world request anchor trustedOrigin n left current pinned).2 =
        { prepared := current, request := built, pinned } ::
          (followRedirects crates world request anchor trustedOrigin (n + 1) later
            (redirected crates anchor current status (crates.text url)) hopPinned).2 := by
  generalize hRun : followRedirects crates world request anchor trustedOrigin n left current pinned = run
  unfold followRedirects at hRun
  dsimp only at hRun
  cases hSent : (sendOneRequest crates world n pinned current).1 with
  | error error =>
    rw [hSent] at hRun
    exact .inl (by rw [← hRun])
  | ok response =>
    rw [hSent] at hRun
    dsimp only at hRun
    cases hTarget : redirectTarget crates request current response with
    | error error =>
      rw [hTarget] at hRun
      exact .inl (by rw [← hRun])
    | ok target =>
      rw [hTarget] at hRun
      cases target with
      | none => exact .inl (by rw [← hRun])
      | some url =>
        cases left with
        | zero => exact .inl (by rw [← hRun])
        | succ later =>
          dsimp only at hRun
          cases hPinned : validateHop crates world (n + 1) trustedOrigin current (crates.text url) pinned with
          | error error =>
            rw [hPinned] at hRun
            exact .inl (by rw [← hRun])
          | ok hopPinned =>
            rw [hPinned] at hRun
            rcases sendOneRequest_sent crates world n pinned current with ⟨built, hBuilt, hOne⟩ | ⟨_, error, hError⟩
            · refine .inr ⟨later, built, url, response.status, hopPinned, rfl, hBuilt,
                redirectTarget_http hTarget, hPinned, ?_⟩
              rw [← hRun, hOne]
              rfl
            · rw [hSent] at hError
              cases hError

theorem followRedirects_chained (request : PreparedRequest) (anchor : String) (trustedOrigin : Option String)
    (left : Nat) : ∀ (n : Nat) (current : PreparedRequest) (pinned : Option (List IpAddr)),
      Chained crates world anchor trustedOrigin current pinned
        (followRedirects crates world request anchor trustedOrigin n left current pinned).2 ∧
      (followRedirects crates world request anchor trustedOrigin n left current pinned).2.length ≤ left + 1 := by
  induction left with
  | zero =>
    intro n current pinned
    rcases followRedirects_round request anchor trustedOrigin n 0 current pinned with hOne | ⟨_, _, _, _, _, h, _⟩
    · rw [hOne]
      exact chained_sendOneRequest n pinned current anchor trustedOrigin
    · cases h
  | succ left ih =>
    intro n current pinned
    rcases followRedirects_round request anchor trustedOrigin n (left + 1) current pinned with
      hOne | ⟨later, built, url, status, hopPinned, hLeft, hBuilt, hHttp, hPinned, hMore⟩
    · obtain ⟨hChained, hLength⟩ := @chained_sendOneRequest Url crates world n pinned current anchor trustedOrigin
      rw [hOne]
      exact ⟨hChained, by omega⟩
    · obtain rfl : left = later := by omega
      obtain ⟨hChained, hLength⟩ := ih (n + 1) (redirected crates anchor current status (crates.text url)) hopPinned
      rw [hMore]
      refine ⟨⟨?_, ?_, ?_⟩, Nat.succ_le_succ hLength⟩
      · rintro hop ⟨⟩
        exact ⟨rfl, rfl⟩
      · refine List.isChain_cons.mpr ⟨fun next hNext => ?_, hChained.chain⟩
        obtain ⟨hPrepared, hNextPinned⟩ := hChained.first next hNext
        refine ⟨⟨url, status, hHttp, hPrepared⟩, ?_⟩
        rcases validateHop_ok hPinned with ⟨hNone, hNextNone⟩ | ⟨addresses, hAddresses, hTarget⟩
        · exact .inl ⟨hNone, hNextPinned.trans hNextNone⟩
        · refine .inr ⟨n + 1, addresses, hNextPinned.trans hAddresses, ?_⟩
          rw [hPrepared]
          exact hTarget
      · intro hop hMem
        rcases List.mem_cons.mp hMem with rfl | hMem
        · exact hBuilt
        · exact hChained.built hop hMem

variable {α : Type} {R : α → α → Prop}

theorem chain_invariant (holds : α → Prop) {hops : List α} (hChain : hops.IsChain R)
    (hFirst : ∀ hop ∈ hops.head?, holds hop) (hKept : ∀ hop next, R hop next → holds hop → holds next) :
    ∀ hop ∈ hops, holds hop := by
  induction hops with
  | nil => exact nofun
  | cons first hops ih =>
    have hHolds : holds first := hFirst first rfl
    obtain ⟨hNext, hRest⟩ := List.isChain_cons.mp hChain
    intro hop hMem
    rcases List.mem_cons.mp hMem with rfl | hMem
    · exact hHolds
    · exact ih hRest (fun next hHead => hKept first next (hNext next hHead) hHolds) hop hMem

theorem chain_link {hops earlier after : List α} {previous hop : α} (hChain : hops.IsChain R)
    (hHops : hops = earlier ++ previous :: hop :: after) : R previous hop := by
  rw [hHops] at hChain
  exact (List.isChain_append_cons_cons.mp hChain).2.1

/-- What one link passes on, and what a link brings, holds from where it was brought on. -/
theorem chain_persists (brought holds : α → Prop) {hops : List α} (hChain : hops.IsChain R)
    (hFirst : ∀ hop ∈ hops.head?, brought hop → holds hop)
    (hBrought : ∀ hop ∈ hops, ∀ next, R hop next → brought next → holds next)
    (hKept : ∀ hop next, R hop next → holds hop → holds next) {before after : List α} {hop : α}
    (hHops : hops = before ++ hop :: after) (h : ∃ earlier ∈ before ++ [hop], brought earlier) : holds hop := by
  induction before using List.reverseRecOn generalizing hop after with
  | nil =>
    obtain ⟨earlier, hMem, hEarlier⟩ := h
    obtain rfl := List.mem_singleton.mp hMem
    exact hFirst earlier (by rw [hHops]; rfl) hEarlier
  | append_singleton before previous ih =>
    have hHere : hops = before ++ previous :: hop :: after := by
      rw [hHops, List.append_assoc]
      rfl
    have hLink : R previous hop := chain_link hChain hHere
    obtain ⟨earlier, hMem, hEarlier⟩ := h
    rcases List.mem_append.mp hMem with hMem | hMem
    · exact hKept previous hop hLink (ih hHere ⟨earlier, hMem, hEarlier⟩)
    · obtain rfl := List.mem_singleton.mp hMem
      exact hBrought previous (by rw [hHere]; simp) earlier hLink hEarlier

/-! ## Headers -/

/-- The request keeps of the caller's headers the user agent at most. -/
structure Bare (caller : List (String × String)) (request : PreparedRequest) : Prop where
  credentials : request.credentials = .omitted
  headers : ∀ header ∈ request.headers, header ∈ caller ∧ isUserAgent header = true

variable {headers : List (String × String)} {header : String × String}

theorem mem_retainUserAgent (h : header ∈ retainUserAgent headers) : header ∈ headers ∧ isUserAgent header = true := by
  have hFound : headers.find? isUserAgent = some header := by simpa [retainUserAgent] using h
  exact ⟨List.mem_of_find?_eq_some hFound, List.find?_some hFound⟩

theorem redirected_headers (crates : Crates Url) (anchor : String) (current : PreparedRequest) (status : Nat)
    (next : String) (h : header ∈ (redirected crates anchor current status next).headers) :
    header ∈ current.headers := by
  unfold redirected at h
  dsimp only at h
  split at h
  · exact (mem_retainUserAgent h).1
  · exact h

variable {caller : List (String × String)}

theorem Bare.redirected (h : Bare caller current) (anchor : String) (status : Nat) (next : String) :
    Bare caller (redirected crates anchor current status next) where
  credentials := by
    unfold Http.redirected
    dsimp only
    split
    · rfl
    · exact h.credentials
  headers := fun header hHeader => h.headers header (redirected_headers crates anchor current status next hHeader)

theorem bare_of_foreign (hCaller : ∀ header ∈ current.headers, header ∈ caller) {next : String}
    (hForeign : sameOrigin crates next anchor = false) (status : Nat) :
    Bare caller (redirected crates anchor current status next) where
  credentials := by simp [redirected, hForeign]
  headers := by
    intro header hHeader
    have hKept : header ∈ retainUserAgent current.headers := by simpa [redirected, hForeign] using hHeader
    obtain ⟨hMem, hAgent⟩ := mem_retainUserAgent hKept
    exact ⟨hCaller header hMem, hAgent⟩

/-- Origins are the same or not: whoever is on the origin of one is on the origin of the other. -/
theorem sameOrigin_congr {url origin : String} (h : sameOrigin crates url origin = true) (other : String) :
    sameOrigin crates other url = sameOrigin crates other origin := by
  unfold sameOrigin at h ⊢
  cases hUrl : crates.parse url with
  | error error =>
    rw [hUrl] at h
    cases h
  | ok parsed =>
    cases hOrigin : crates.parse origin with
    | error error =>
      rw [hUrl, hOrigin] at h
      cases h
    | ok parsedOrigin =>
      rw [hUrl, hOrigin] at h
      simp only [Bool.and_eq_true, decide_eq_true_eq] at h
      obtain ⟨⟨hScheme, hHost⟩, hPort⟩ := h
      cases crates.parse other with
      | error error => rfl
      | ok parsedOther =>
        dsimp only
        rw [hScheme, hHost, hPort]

theorem mem_insertHeader {name value : String} (h : header ∈ insertHeader headers name value) :
    header ∈ headers ∨ header = (name, value) := by
  rcases List.mem_append.mp h with h | h
  · exact .inl (List.mem_filter.mp h).1
  · exact .inr (List.mem_singleton.mp h)

theorem insertHeaders_mem {built all : List (String × String)} (h : insertHeaders crates built headers = .ok all)
    (hMem : header ∈ all) :
    header ∈ built ∨ ∃ original ∈ headers, crates.headerName original.1 = .ok header.1 := by
  induction headers generalizing built with
  | nil =>
    cases h
    exact .inl hMem
  | cons first headers ih =>
    rw [insertHeaders] at h
    cases hName : crates.headerName first.1 with
    | error error =>
      rw [hName] at h
      cases h
    | ok name =>
      rw [hName] at h
      dsimp only at h
      cases hValue : crates.headerValue first.2 with
      | error error =>
        rw [hValue] at h
        cases h
      | ok done =>
        rw [hValue] at h
        rcases ih h with hBuilt | ⟨original, hOriginal, hSame⟩
        · rcases mem_insertHeader hBuilt with hBuilt | rfl
          · exact .inl hBuilt
          · exact .inr ⟨first, List.mem_cons_self, hName⟩
        · exact .inr ⟨original, List.mem_cons_of_mem _ hOriginal, hSame⟩

theorem withUserAgent_mem {all : List (String × String)} (h : withUserAgent crates request headers = .ok all)
    (hMem : header ∈ all) :
    header ∈ headers ∨ header.1 = "user-agent" := by
  unfold withUserAgent at h
  split at h
  · cases h
    exact .inl hMem
  · dsimp only at h
    split at h
    · cases h
    · cases h
      rcases mem_insertHeader hMem with hMem | rfl
      · exact .inl hMem
      · exact .inr rfl

/-- The content type a body brings. -/
def contentTypeOf : HttpBody → Option String
  | .json _ => some "application/json"
  | .bytes _ contentType => some contentType
  | .empty => none

theorem withBody_mem {body : HttpBody} {result : List (String × String) × List UInt8}
    (h : withBody crates body headers = .ok result) (hMem : header ∈ result.1) :
    header ∈ headers ∨ (header.1 = "content-type" ∧ contentTypeOf body = some header.2) := by
  have hInserted {value : String} (hValue : contentTypeOf body = some value)
      (hMem : header ∈ insertHeader headers "content-type" value) :
      header ∈ headers ∨ (header.1 = "content-type" ∧ contentTypeOf body = some header.2) := by
    rcases mem_insertHeader hMem with hMem | rfl
    · exact .inl hMem
    · exact .inr ⟨rfl, hValue⟩
  cases body with
  | json value =>
    cases h
    dsimp only at hMem
    split at hMem
    · exact .inl hMem
    · exact hInserted rfl hMem
  | bytes bytes contentType =>
    rw [withBody] at h
    split at h
    · cases h
    · cases h
      dsimp only at hMem
      split at hMem
      · exact hInserted rfl hMem
      · exact .inl hMem
  | empty =>
    cases h
    exact .inl hMem

theorem buildFetchRequest_inv {built : FetchRequest Url} (h : buildFetchRequest crates request = .ok built) :
    crates.parse request.url = .ok built.url ∧ built.credentials = request.credentials ∧
      ∀ header ∈ built.headers, header.1 = "user-agent" ∨
        (header.1 = "content-type" ∧ contentTypeOf request.body = some header.2) ∨
        ∃ original ∈ request.headers, crates.headerName original.1 = .ok header.1 := by
  unfold buildFetchRequest at h
  cases hUrl : crates.parse request.url with
  | error error =>
    rw [hUrl] at h
    cases h
  | ok url =>
    rw [hUrl] at h
    dsimp only at h
    cases hInserted : insertHeaders crates [] request.headers with
    | error error =>
      rw [hInserted] at h
      cases h
    | ok inserted =>
      rw [hInserted] at h
      cases hAgent : withUserAgent crates request inserted with
      | error error =>
        simp only [Except.bind, bind, hAgent] at h
        cases h
      | ok named =>
        cases hBody : withBody crates request.body named with
        | error error =>
          simp only [Except.bind, bind, hAgent, hBody] at h
          cases h
        | ok result =>
          simp only [Except.bind, bind, hAgent, hBody, pure, Except.pure, Except.ok.injEq] at h
          subst h
          refine ⟨rfl, rfl, fun header hHeader => ?_⟩
          rcases withBody_mem hBody hHeader with hNamed | hType
          · rcases withUserAgent_mem hAgent hNamed with hGiven | hUser
            · exact .inr (.inr ((insertHeaders_mem hInserted hGiven).resolve_left List.not_mem_nil))
            · exact .inl hUser
          · exact .inr (.inl hType)

/-- What leaves the caller's origin: the user agent, the content type of the body, and no credentials. -/
structure Stripped (caller : List (String × String)) (hop : Sent Url) : Prop where
  credentials : hop.request.credentials = .omitted
  kept : ∀ header ∈ hop.prepared.headers, header ∈ caller ∧ isUserAgent header = true
  sent : ∀ header ∈ hop.request.headers, header.1 = "user-agent" ∨
    (header.1 = "content-type" ∧ contentTypeOf hop.prepared.body = some header.2)

variable {hop : Sent Url}

theorem Bare.stripped (hLawful : Lawful crates) (h : Bare caller hop.prepared)
    (hBuilt : buildFetchRequest crates hop.prepared = .ok hop.request) :
    Stripped caller hop := by
  obtain ⟨_, hCredentials, hHeaders⟩ := buildFetchRequest_inv hBuilt
  refine ⟨hCredentials.trans h.credentials, h.headers, fun header hHeader => ?_⟩
  rcases hHeaders header hHeader with hAgent | hType | ⟨original, hOriginal, hName⟩
  · exact .inl hAgent
  · exact .inr hType
  · have hAgent : asciiLower original.1 = asciiLower "user-agent" := by
      simpa [isUserAgent, eqIgnoreAsciiCase] using (h.headers original hOriginal).2
    exact .inl (by rw [hLawful.headerName_lower _ _ hName, hAgent]; rfl)

theorem sameOrigin_self {url : String} {parsed : Url} (h : crates.parse url = .ok parsed) :
    sameOrigin crates url url = true := by
  simp [sameOrigin, h]

/-! ## Exchanges -/

/-- What every exchange is: nothing at all, or a chain from the request, sanitized for a download. -/
theorem sendFollowingRedirects_chained (crates : Crates Url) (world : World Url) (request : PreparedRequest) :
    let hops := (sendFollowingRedirects crates world request).2
    let trustedOrigin := request.validation.bind (·.trustedOrigin)
    let anchor := (request.validation.bind (·.credentialedOrigin)).getD request.url
    hops.length ≤ MAX_REDIRECTS + 1 ∧ ∃ current pinned,
      Chained crates world anchor trustedOrigin current pinned hops ∧
      current.url = request.url ∧ current.credentials = request.credentials ∧
      (∀ header ∈ current.headers, header ∈ request.headers) ∧
      (request.validation ≠ none → hops ≠ [] → ∃ addresses, pinned = some addresses ∧
        validateDownloadTarget crates (world.lookupHost 0) request.url trustedOrigin = .ok addresses) := by
  intro hops trustedOrigin anchor
  obtain ⟨current, hCurrent⟩ : ∃ current : PreparedRequest,
      current = { request with headers := sanitizeDownloadHeaders request.headers } := ⟨_, rfl⟩
  cases hValidation : request.validation with
  | none =>
    obtain ⟨hChained, hLength⟩ := @followRedirects_chained Url crates world request anchor trustedOrigin
      MAX_REDIRECTS 0 request none
    have hHops : hops = (followRedirects crates world request anchor trustedOrigin 0 MAX_REDIRECTS request none).2 := by
      simp only [hops, sendFollowingRedirects, hValidation, anchor, trustedOrigin]
    rw [hHops]
    exact ⟨hLength, request, none, hChained, rfl, rfl, fun _ h => h, fun h => (h rfl).elim⟩
  | some validation =>
    have hTrusted : trustedOrigin = validation.trustedOrigin := by
      simp only [trustedOrigin, hValidation, Option.bind_some]
    cases hTarget : validateDownloadTarget crates (world.lookupHost 0) request.url trustedOrigin with
    | error error =>
      have hHops : hops = [] := by
        rw [hTrusted] at hTarget
        simp only [hops, sendFollowingRedirects, hValidation, Option.bind_some, hTarget]
      rw [hHops]
      exact ⟨Nat.zero_le _, request, none, chained_nil, rfl, rfl, fun _ h => h, fun _ h => (h rfl).elim⟩
    | ok addresses =>
      obtain ⟨hChained, hLength⟩ := @followRedirects_chained Url crates world request anchor trustedOrigin
        MAX_REDIRECTS 0 current (some addresses)
      have hHops : hops = (followRedirects crates world request anchor trustedOrigin 0 MAX_REDIRECTS current
          (some addresses)).2 := by
        rw [hTrusted] at hTarget
        simp only [hops, sendFollowingRedirects, hValidation, Option.bind_some, hTarget, hCurrent, anchor, trustedOrigin]
      rw [hHops]
      refine ⟨hLength, current, some addresses, hChained, ?_, ?_, ?_, fun _ _ => ⟨addresses, rfl, rfl⟩⟩
      · rw [hCurrent]
      · rw [hCurrent]
      · intro header hHeader
        rw [hCurrent] at hHeader
        exact (List.mem_filter.mp hHeader).1

variable {before after : List (Sent Url)}

/-- Headers: from the first hop off the credentialed origin on. -/
theorem hops_bare (world : World Url) (request : HttpRequest) (method : HttpMethod) (body : HttpBody)
    (hHops : (sendFollowingRedirects crates world (request.prepare crates method body)).2 = before ++ hop :: after)
    (hForeign : ∃ earlier ∈ before ++ [hop],
      sameOrigin crates earlier.prepared.url (request.credentialedOrigin.getD request.url) = false) :
    Bare request.headers hop.prepared := by
  obtain ⟨_, current, pinned, hChained, hUrl, hCredentials, hHeaders, _⟩ :=
    sendFollowingRedirects_chained crates world (request.prepare crates method body)
  set hops := (sendFollowingRedirects crates world (request.prepare crates method body)).2 with hDef
  have hCaller : ∀ hop ∈ hops, ∀ header ∈ hop.prepared.headers, header ∈ request.headers := by
    have hPrepared : ∀ header ∈ (request.prepare crates method body).headers, header ∈ request.headers := by
      intro header hHeader
      unfold HttpRequest.prepare at hHeader
      dsimp only at hHeader
      split at hHeader
      · exact (mem_retainUserAgent hHeader).1
      · exact hHeader
    refine chain_invariant (fun hop => ∀ header ∈ hop.prepared.headers, header ∈ request.headers)
      hChained.chain ?_ ?_
    · intro first hFirst header hHeader
      rw [(hChained.first first hFirst).1] at hHeader
      exact hPrepared header (hHeaders header hHeader)
    · intro first next hLink hFirst header hHeader
      obtain ⟨url, status, _, hNext⟩ := hLink.target
      rw [hNext] at hHeader
      exact hFirst header (redirected_headers crates _ _ status _ hHeader)
  by_cases hAway : (request.credentialedOrigin.any fun origin => !sameOrigin crates request.url origin) = true
  · -- off the credentialed origin from the first request on
    refine chain_invariant (fun hop => Bare request.headers hop.prepared) hChained.chain ?_ ?_ hop
      (by rw [hHops]; simp)
    · intro first hFirst
      rw [(hChained.first first hFirst).1]
      refine ⟨hCredentials.trans (by simp [HttpRequest.prepare, hAway]), fun header hHeader => ?_⟩
      have hKept : header ∈ retainUserAgent request.headers := by
        simpa [HttpRequest.prepare, hAway] using hHeaders header hHeader
      exact mem_retainUserAgent hKept
    · intro first next hLink hFirst
      obtain ⟨url, status, _, hNext⟩ := hLink.target
      rw [hNext]
      exact hFirst.redirected _ status _
  · have hAnchor (url : String) : sameOrigin crates url (((request.prepare crates method body).validation.bind
        (·.credentialedOrigin)).getD (request.prepare crates method body).url) =
          sameOrigin crates url (request.credentialedOrigin.getD request.url) := by
      unfold HttpRequest.prepare
      cases hOrigin : request.credentialedOrigin with
      | none => cases request.validateUrl <;> rfl
      | some origin =>
        have hHome : sameOrigin crates request.url origin = true := by simpa [hOrigin] using hAway
        cases request.validateUrl with
        | true => rfl
        | false => exact sameOrigin_congr hHome url
    refine chain_persists _ (fun hop => Bare request.headers hop.prepared) hChained.chain ?_ ?_ ?_ hHops hForeign
    · intro first hFirst hOff
      exfalso
      obtain ⟨hUrlParsed, _⟩ := buildFetchRequest_inv (hChained.built first (List.mem_of_mem_head? hFirst))
      have hFirstUrl : first.prepared.url = request.url := by
        rw [(hChained.first first hFirst).1, hUrl]
        rfl
      rw [hFirstUrl] at hUrlParsed hOff
      cases hOrigin : request.credentialedOrigin with
      | none =>
        rw [hOrigin, Option.getD_none, sameOrigin_self hUrlParsed] at hOff
        cases hOff
      | some origin =>
        rw [hOrigin] at hOff hAway
        simp only [Option.getD_some] at hOff
        simp [hOff] at hAway
    · intro first hFirst next hLink hOff
      obtain ⟨url, status, _, hNext⟩ := hLink.target
      have hNextUrl : next.prepared.url = crates.text url := by rw [hNext]; rfl
      rw [← hAnchor, hNextUrl] at hOff
      rw [hNext]
      exact bare_of_foreign (hCaller first hFirst) hOff status
    · intro first next hLink hFirst
      obtain ⟨url, status, _, hNext⟩ := hLink.target
      rw [hNext]
      exact hFirst.redirected _ status _

/-- Addresses: every hop of a validated download. -/
theorem hops_pinned (world : World Url) (request : PreparedRequest) (hValidated : request.validation ≠ none)
    (hHops : (sendFollowingRedirects crates world request).2 = before ++ hop :: after) :
    ∃ n trustedOrigin addresses, hop.pinned = some addresses ∧
      validateDownloadTarget crates (world.lookupHost n) hop.prepared.url trustedOrigin = .ok addresses ∧
      ∀ origin, trustedOrigin = some origin → request.validation.bind (·.trustedOrigin) = some origin ∧
        ∀ previous ∈ before.getLast?, sameOrigin crates previous.prepared.url origin = true := by
  obtain ⟨_, current, pinned, hChained, hUrl, _, _, hFirstTarget⟩ :=
    sendFollowingRedirects_chained crates world request
  set hops := (sendFollowingRedirects crates world request).2 with hDef
  have hNonempty : hops ≠ [] := by
    rw [hHops]
    simp
  obtain ⟨addresses, hPinned, hTarget⟩ := hFirstTarget hValidated hNonempty
  rcases List.eq_nil_or_concat before with rfl | ⟨earlier, previous, rfl⟩
  · obtain ⟨hPrepared, hHopPinned⟩ := hChained.first hop (by rw [hHops]; rfl)
    refine ⟨0, _, addresses, hHopPinned.trans hPinned, ?_, fun origin hOrigin => ⟨hOrigin, ?_⟩⟩
    · rw [hPrepared, hUrl]
      exact hTarget
    · intro previous hLast
      cases hLast
  · have hSome : ∀ hop ∈ hops, hop.pinned ≠ none := by
      refine chain_invariant (fun hop => hop.pinned ≠ none) hChained.chain ?_ ?_
      · intro first hFirst
        rw [(hChained.first first hFirst).2, hPinned]
        exact nofun
      · intro first next hLink hFirst
        rcases hLink.pinned with ⟨hNone, _⟩ | ⟨_, _, hNext, _⟩
        · exact absurd hNone hFirst
        · rw [hNext]
          exact nofun
    have hHere : hops = earlier ++ previous :: hop :: after := by
      rw [hHops, List.concat_eq_append, List.append_assoc]
      rfl
    have hLink := chain_link hChained.chain hHere
    rcases hLink.pinned with ⟨hNone, _⟩ | ⟨n, hopAddresses, hNext, hHopTarget⟩
    · exact absurd hNone (hSome previous (by rw [hHere]; simp))
    · refine ⟨n, _, hopAddresses, hNext, hHopTarget, fun origin hOrigin => ?_⟩
      obtain ⟨hTrusted, hSame⟩ := Option.filter_eq_some_iff.mp hOrigin
      refine ⟨hTrusted, fun other hOther => ?_⟩
      rw [List.concat_eq_append, List.getLast?_concat, Option.mem_some_iff] at hOther
      rw [← hOther]
      exact hSame

/-- Schemes: every hop that a redirect leads to. -/
theorem hops_http (hLawful : Lawful crates) (world : World Url) (request : PreparedRequest) (hBefore : before ≠ [])
    (hHops : (sendFollowingRedirects crates world request).2 = before ++ hop :: after) :
    isHttp crates hop.request.url := by
  obtain ⟨_, current, pinned, hChained, _⟩ := sendFollowingRedirects_chained crates world request
  rcases List.eq_nil_or_concat before with rfl | ⟨earlier, previous, rfl⟩
  · exact absurd rfl hBefore
  · rw [List.concat_eq_append, List.append_assoc] at hHops
    obtain ⟨url, status, hHttp, hPrepared⟩ := (chain_link hChained.chain hHops).target
    obtain ⟨hParsed, _⟩ := buildFetchRequest_inv (hChained.built hop (by rw [hHops]; simp))
    rw [hPrepared, show (redirected crates _ previous.prepared status (crates.text url)).url = crates.text url from
      rfl, hLawful.parse_text] at hParsed
    cases hParsed
    exact hHttp

inductive Place where
  | api
  | mirror
  | files
deriving DecidableEq

def Place.text : Place → String
  | .api => "https://api.example/v1"
  | .mirror => "https://mirror.example/v1"
  | .files => "ftp://files.example/v1"

def readPlace (text : String) : Except SourceError Place :=
  if text = Place.api.text then .ok .api
  else if text = Place.mirror.text then .ok .mirror
  else if text = Place.files.text then .ok .files
  else .error (.mk "relative URL without a base" none)

def placeCrates : Crates Place where
  parse := readPlace
  join _ := readPlace
  scheme place := match place with
    | .files => "ftp"
    | _ => "https"
  hostStr place := match place with
    | .api => some "api.example"
    | .mirror => some "mirror.example"
    | .files => some "files.example"
  port _ := none
  portOrKnownDefault place := match place with
    | .files => some 21
    | _ => some 443
  path _ := "/v1"
  query _ := none
  text := Place.text
  bare := id
  headerName name := .ok (asciiLower name)
  headerValue _ := .ok ()
  jsonBytes _ := []
  addressText _ := ""

theorem placeCrates_lawful : Lawful placeCrates where
  parse_text := by
    intro place
    cases place <;> rfl
  headerName_lower := by
    rintro name built ⟨⟩
    rfl

def Place.bytes (place : Place) : List UInt8 := place.text.toList.map fun c => UInt8.ofNat c.toNat

/-- The first server sends the request away, the second one back. -/
def placeWorld : World Place where
  lookupHost _ _ _ := .ok []
  aborted _ := false
  respond n _ := match n with
    | 0 => .ok { status := 302, headers := [("location", Place.mirror.bytes)] }
    | 1 => .ok { status := 302, headers := [("location", Place.api.bytes)] }
    | _ => .ok { status := 200, headers := [] }

def placeRequest (place : Place) : HttpRequest where
  url := place.text
  headers := [("Authorization", "Bearer key"), ("User-Agent", "app/1")]

def placeHops (place : Place) : List (Sent Place) :=
  (sendFollowingRedirects placeCrates placeWorld ((placeRequest place).prepare placeCrates .get .empty)).2

theorem placeHops_api : (placeHops .api).map (fun hop => (hop.prepared.url, hop.prepared.headers)) =
      [(Place.api.text, (placeRequest .api).headers), (Place.mirror.text, [("User-Agent", "app/1")]),
        (Place.api.text, [("User-Agent", "app/1")])] := by
  decide +kernel

end Aimux.Http
