import Aimux.Http.DownloadTargets
import Aimux.Http.Redirects
import Aimux.Lib.JsonText
import Aimux.Lib.Utf8

/-! # Userinfo in texts

`resolve_proxy` and `sanitized_proxy_url` of `ws.rs`, and what `sanitized_request_url` of `http.rs` leaves of
the userinfo of a URL.
-/

namespace Aimux.Http

open Aimux.Core Aimux.Lib

/-! ## Proxies -/

structure ProxyConfig where
  httpUrl : Option String
  httpsUrl : Option String
  allUrl : Option String

structure ProxyTunnel where
  host : String
  port : Nat
  authorization : Option String
  targetTls : Bool
  targetAuthority : String

structure ProxyCrates (Url : Type) extends Crates Url where
  username : Url → String
  password : Url → Option String
  encodeBase64 : List UInt8 → String

def maskedProxy (raw : List Char) : List Char :=
  match splitOnce "://".toList raw with
  | some (scheme, rest) =>
    match splitOnce ['@'] rest with
    | some (_, hostPart) => scheme ++ "://***@".toList ++ hostPart
    | none => raw
  | none => raw

def sanitizedProxyUrl (raw : String) : String := String.ofList (maskedProxy raw.toList)

section

variable {Url : Type} (crates : ProxyCrates Url)

/-- The proxy that the configuration has for the target. -/
def proxyFor (target : Url) (config : ProxyConfig) : Option String :=
  if crates.scheme target = "wss" then config.httpsUrl.or config.allUrl
  else if crates.scheme target = "ws" then config.httpUrl.or config.allUrl
  else none

/-- Pick direct vs. tunneled for a WS target under a proxy config. -/
def resolveProxy (target : Url) (config : ProxyConfig) : Except AiMuxError (Option ProxyTunnel) :=
  match proxyFor crates target config with
  | none => .ok none
  | some raw =>
    match crates.parse raw with
    | .error error =>
      .error (.invalidArgument ("invalid proxy URL " ++ sanitizedProxyUrl raw ++ ": " ++ error.message)
        (some (.source error)))
    | .ok proxy =>
      let scheme := asciiLower (crates.scheme proxy)
      if scheme ≠ "http" then
        .error (.unsupportedFunctionality ("WebSocket proxy tunneling supports http proxies only, got \"" ++ scheme ++
          "\" (" ++ sanitizedProxyUrl raw ++
          "); refusing to bypass the configured proxy with a direct connection"))
      else
        match crates.hostStr proxy with
        | none => .error (.invalidArgument ("proxy URL has no host: " ++ sanitizedProxyUrl raw) none)
        | some host =>
          let authorization :=
            if crates.username proxy = "" ∧ (crates.password proxy).isNone then none
            else some ("Basic " ++ crates.encodeBase64
              (utf8 (crates.username proxy ++ ":" ++ (crates.password proxy).getD "")))
          let port := (crates.portOrKnownDefault target).getD (if crates.scheme target = "wss" then 443 else 80)
          .ok (some {
            -- an IPv6 literal has brackets, the socket resolver wants the bare address
            host := String.ofList ((host.toList.dropWhile (· = '[')).rdropWhile (· = ']'))
            port := (crates.port proxy).getD 80
            authorization
            targetTls := crates.scheme target = "wss"
            targetAuthority := (crates.hostStr target).getD "" ++ ":" ++ toString port })

end

/-! ## Splitting a text -/

section

variable {separator : List Char} {mark : Char}

theorem not_separator_across (hMark : mark ∉ separator) {a b : List Char} (h : separator <+: a ++ mark :: b) :
    separator <+: a := by
  rcases Rfc8259.prefix_append_cases h with hInside | ⟨r, rfl, hRest⟩
  · exact hInside
  · cases r with
    | nil => rw [List.append_nil]
    | cons c r =>
      obtain ⟨rfl, -⟩ := List.cons_prefix_cons.mp hRest
      exact absurd (List.mem_append_right a List.mem_cons_self) hMark

theorem splitOnce_nil (hSome : separator ≠ []) : splitOnce separator [] = none := by
  rw [splitOnce, if_neg hSome]

theorem splitOnce_here {raw : List Char} (hSome : separator ≠ []) (h : separator <+: raw) :
    splitOnce separator raw = some ([], raw.drop separator.length) := by
  cases raw with
  | nil => exact absurd (List.prefix_nil.mp h) hSome
  | cons c rest => rw [splitOnce, if_pos h]

theorem splitOnce_later {c : Char} {rest : List Char} (h : ¬ separator <+: c :: rest) :
    splitOnce separator (c :: rest) = (splitOnce separator rest).map fun split => (c :: split.1, split.2) := by
  rw [splitOnce, if_neg h]

/-- A mark that is not in the separator: the text is split before it or after it. -/
theorem splitOnce_mark (hSome : separator ≠ []) (hMark : mark ∉ separator) (a b : List Char) :
    splitOnce separator (a ++ mark :: b) =
      match splitOnce separator a with
      | some split => some (split.1, split.2 ++ mark :: b)
      | none => (splitOnce separator b).map fun split => (a ++ mark :: split.1, split.2) := by
  induction a with
  | nil =>
    have hNot : ¬ separator <+: mark :: b := fun h => hSome (List.prefix_nil.mp (not_separator_across hMark h))
    rw [List.nil_append, splitOnce_later hNot, splitOnce_nil hSome]
    rfl
  | cons c a ih =>
    rw [List.cons_append]
    by_cases hHere : separator <+: c :: a
    · have hLonger : separator <+: c :: (a ++ mark :: b) := hHere.trans (List.prefix_append (c :: a) (mark :: b))
      rw [splitOnce_here hSome hHere, splitOnce_here hSome hLonger]
      dsimp only
      rw [← List.cons_append, List.drop_append_of_le_length hHere.length_le]
    · have hLonger : ¬ separator <+: c :: (a ++ mark :: b) := fun h => hHere (not_separator_across hMark h)
      rw [splitOnce_later hHere, splitOnce_later hLonger, ih]
      cases splitOnce separator a with
      | some split => rfl
      | none =>
        simp only [Option.map_none, Option.map_map]
        rfl

theorem splitOnce_eq (hSome : separator ≠ []) {raw a b : List Char} (h : splitOnce separator raw = some (a, b)) :
    raw = a ++ (separator ++ b) := by
  induction raw generalizing a with
  | nil =>
    rw [splitOnce_nil hSome] at h
    cases h
  | cons c rest ih =>
    by_cases hHere : separator <+: c :: rest
    · rw [splitOnce_here hSome hHere] at h
      cases h
      exact (List.prefix_iff_eq_append.mp hHere).symm
    · rw [splitOnce_later hHere] at h
      obtain ⟨split, hSplit, hEq⟩ := Option.map_eq_some_iff.mp h
      cases hEq
      rw [List.cons_append, ← ih hSplit]

/-- The first separator stays the first when what follows it changes. -/
theorem splitOnce_again (hSome : separator ≠ []) {raw a b : List Char} (h : splitOnce separator raw = some (a, b))
    (other : List Char) : splitOnce separator (a ++ (separator ++ other)) = some (a, other) := by
  induction raw generalizing a with
  | nil =>
    rw [splitOnce_nil hSome] at h
    cases h
  | cons c rest ih =>
    by_cases hHere : separator <+: c :: rest
    · rw [splitOnce_here hSome hHere] at h
      cases h
      rw [List.nil_append, splitOnce_here hSome (List.prefix_append separator other), List.drop_left]
    · rw [splitOnce_later hHere] at h
      obtain ⟨⟨a', b'⟩, hSplit, hEq⟩ := Option.map_eq_some_iff.mp h
      cases hEq
      have hNot : ¬ separator <+: c :: (a' ++ (separator ++ other)) := by
        intro hOther
        have hLength : separator.length ≤ (c :: (a' ++ separator)).length := by
          simp only [List.length_cons, List.length_append]
          omega
        have hWithin : separator <+: c :: (a' ++ separator) := by
          refine List.prefix_of_prefix_length_le hOther ?_ hLength
          rw [← List.append_assoc]
          exact List.prefix_append (c :: (a' ++ separator)) other
        rw [splitOnce_eq hSome hSplit, ← List.append_assoc] at hHere
        exact hHere (hWithin.trans (List.prefix_append (c :: (a' ++ separator)) b'))
      rw [List.cons_append, splitOnce_later hNot, ih hSplit, Option.map_some]

end

/-! ## Masks -/

/-- A text that keeps the scheme and puts a mask in the place of what follows it. -/
structure Masks (text : List Char → List Char) (mask : List Char → List Char → List Char)
    (key : List Char → Option (List Char)) : Prop where
  found : ∀ {front scheme user : List Char} (rest : List Char), splitOnce "://".toList front = some (scheme, user) →
    text (front ++ '@' :: rest) = scheme ++ ("://".toList ++ mask user rest)
  missing : ∀ {front : List Char} (rest : List Char), splitOnce "://".toList front = none →
    text (front ++ '@' :: rest) = front ++ '@' :: text rest
  shorter : ∀ {rest scheme other : List Char} (user : List Char),
    splitOnce "://".toList (text rest) = some (scheme, other) → other.length < (mask user rest).length
  key : ∀ {user other : List Char} (rest : List Char), mask user rest = mask other rest ↔ key user = key other

/-- The userinfos are the same, or both stand after the same scheme and the mask treats them alike. -/
def MaskedAlike (key : List Char → Option (List Char)) (front other : List Char) : Prop :=
  front = other ∨ ∃ scheme user otherUser, splitOnce "://".toList front = some (scheme, user) ∧
    splitOnce "://".toList other = some (scheme, otherUser) ∧ key user = key otherUser

section

variable {text : List Char → List Char} {mask : List Char → List Char → List Char}
  {key : List Char → Option (List Char)}

/-- One of the texts shows the whole of what is before the `@`. -/
theorem Masks.ne (h : Masks text mask key) {front other scheme user : List Char} (rest : List Char)
    (hFront : splitOnce "://".toList front = some (scheme, user)) (hOther : splitOnce "://".toList other = none) :
    text (front ++ '@' :: rest) ≠ text (other ++ '@' :: rest) := by
  intro hSame
  have hSome : "://".toList ≠ [] := by decide
  rw [h.found rest hFront, h.missing rest hOther] at hSame
  have hSplit := congrArg (splitOnce "://".toList) hSame
  rw [splitOnce_again hSome hFront, splitOnce_mark hSome (by decide), hOther] at hSplit
  obtain ⟨⟨later, remains⟩, hLater, hEq⟩ := Option.map_eq_some_iff.mp hSplit.symm
  obtain ⟨-, hMask⟩ := Prod.mk.inj hEq
  have hShort := h.shorter user hLater
  rw [← hMask] at hShort
  exact lt_irrefl _ hShort

theorem Masks.eq_iff (h : Masks text mask key) (front other rest : List Char) :
    text (front ++ '@' :: rest) = text (other ++ '@' :: rest) ↔ MaskedAlike key front other := by
  have hSome : "://".toList ≠ [] := by decide
  constructor
  · intro hSame
    cases hFront : splitOnce "://".toList front with
    | none =>
      cases hOther : splitOnce "://".toList other with
      | none =>
        rw [h.missing rest hFront, h.missing rest hOther] at hSame
        exact .inl (List.append_cancel_right hSame)
      | some split => exact absurd hSame.symm (h.ne rest hOther hFront)
    | some split =>
      obtain ⟨scheme, user⟩ := split
      cases hOther : splitOnce "://".toList other with
      | none => exact absurd hSame (h.ne rest hFront hOther)
      | some otherSplit =>
        obtain ⟨otherScheme, otherUser⟩ := otherSplit
        rw [h.found rest hFront, h.found rest hOther] at hSame
        have hSplit := congrArg (splitOnce "://".toList) hSame
        rw [splitOnce_again hSome hFront, splitOnce_again hSome hOther] at hSplit
        obtain ⟨rfl, hMask⟩ := Prod.mk.inj (Option.some.inj hSplit)
        exact .inr ⟨scheme, user, otherUser, hFront, hOther, (h.key rest).mp hMask⟩
  · rintro (rfl | ⟨scheme, user, otherUser, hFront, hOther, hKey⟩)
    · rfl
    · rw [h.found rest hFront, h.found rest hOther, (h.key rest).mpr hKey]

end

/-! ### The mask of a proxy -/

theorem ne_append_cons (rest before : List Char) (c : Char) : rest ≠ before ++ c :: rest := by
  intro h
  have hLength := congrArg List.length h
  rw [List.length_append, List.length_cons] at hLength
  omega

def afterAt (user : List Char) : Option (List Char) := (splitOnce ['@'] user).map (·.2)

def proxyMask (user rest : List Char) : List Char :=
  "***@".toList ++ match afterAt user with
    | some shown => shown ++ '@' :: rest
    | none => rest

theorem splitOnce_at (user rest : List Char) : (splitOnce ['@'] (user ++ '@' :: rest)).map (·.2) =
      some (match afterAt user with
        | some shown => shown ++ '@' :: rest
        | none => rest) := by
  unfold afterAt
  induction user with
  | nil => rfl
  | cons c user ih =>
    rw [List.cons_append]
    by_cases hAt : ['@'] <+: c :: user
    · have hLonger : ['@'] <+: c :: (user ++ '@' :: rest) := hAt.trans (List.prefix_append (c :: user) ('@' :: rest))
      rw [splitOnce_here (List.cons_ne_nil _ _) hAt, splitOnce_here (List.cons_ne_nil _ _) hLonger]
      rfl
    · have hNot : ¬ ['@'] <+: c :: (user ++ '@' :: rest) := by
        intro hLonger
        obtain ⟨rfl, -⟩ := List.cons_prefix_cons.mp hLonger
        exact hAt (List.prefix_append ['@'] user)
      rw [splitOnce_later hAt, splitOnce_later hNot, Option.map_map, Option.map_map]
      exact ih

theorem length_splitOnce {raw scheme other : List Char} (h : splitOnce "://".toList raw = some (scheme, other)) :
    raw.length = scheme.length + 3 + other.length := by
  rw [splitOnce_eq (by decide) h, List.length_append, List.length_append, Nat.add_assoc]
  rfl

theorem maskedProxy_of_split {raw scheme rest : List Char} (h : splitOnce "://".toList raw = some (scheme, rest)) :
    maskedProxy raw = match (splitOnce ['@'] rest).map (·.2) with
      | some hostPart => scheme ++ ("://".toList ++ ("***@".toList ++ hostPart))
      | none => raw := by
  rw [maskedProxy, h]
  dsimp only
  cases splitOnce ['@'] rest with
  | some split =>
    simp only [Option.map_some, List.append_assoc]
    rfl
  | none => rfl

theorem maskedProxy_of_none {raw : List Char} (h : splitOnce "://".toList raw = none) : maskedProxy raw = raw := by
  rw [maskedProxy, h]

theorem proxy_masks : Masks maskedProxy proxyMask afterAt where
  found {front scheme user} rest hFront := by
    have hSplit : splitOnce "://".toList (front ++ '@' :: rest) = some (scheme, user ++ '@' :: rest) := by
      rw [splitOnce_mark (by decide) (by decide), hFront]
    rw [maskedProxy_of_split hSplit, splitOnce_at]
    rfl
  missing {front} rest hFront := by
    have hSplit : splitOnce "://".toList (front ++ '@' :: rest) =
        (splitOnce "://".toList rest).map fun split => (front ++ '@' :: split.1, split.2) := by
      rw [splitOnce_mark (by decide) (by decide), hFront]
    cases hRest : splitOnce "://".toList rest with
    | none =>
      rw [hRest] at hSplit
      rw [maskedProxy_of_none hSplit, maskedProxy_of_none hRest]
    | some split =>
      obtain ⟨scheme, tail⟩ := split
      rw [hRest] at hSplit
      rw [maskedProxy_of_split hSplit, maskedProxy_of_split hRest]
      cases (splitOnce ['@'] tail).map (·.2) with
      | none => rfl
      | some hostPart => simp
  shorter {rest scheme other} user h := by
    have hStars : "***@".toList.length = 4 := by decide
    have hShown : rest.length + 4 ≤ (proxyMask user rest).length := by
      rw [proxyMask]
      cases afterAt user with
      | none =>
        simp only [List.length_append, hStars]
        omega
      | some shown =>
        simp only [List.length_append, List.length_cons, hStars]
        omega
    cases hRest : splitOnce "://".toList rest with
    | none =>
      rw [maskedProxy_of_none hRest, hRest] at h
      cases h
    | some split =>
      obtain ⟨first, tail⟩ := split
      have hLength := length_splitOnce hRest
      rw [maskedProxy_of_split hRest] at h
      cases hAt : splitOnce ['@'] tail with
      | none =>
        rw [hAt] at h
        obtain ⟨-, rfl⟩ := Prod.mk.inj (Option.some.inj (hRest.symm.trans h))
        omega
      | some found =>
        rw [hAt, Option.map_some] at h
        dsimp only at h
        rw [splitOnce_again (by decide) hRest] at h
        obtain ⟨-, rfl⟩ := Prod.mk.inj (Option.some.inj h)
        have hTail := congrArg List.length (splitOnce_eq (List.cons_ne_nil _ _) hAt)
        simp only [List.length_append, List.length_cons, List.length_nil, hStars] at hTail ⊢
        omega
  key {user other} rest := by
    unfold proxyMask
    rw [List.append_cancel_left_eq]
    cases hUser : afterAt user with
    | none =>
      cases hOther : afterAt other with
      | none => simp
      | some shown => simp [ne_append_cons]
    | some shown =>
      cases hOther : afterAt other with
      | none => simp [(ne_append_cons _ _ _).symm]
      | some otherShown => simp

/-! ### The mask of a request that is no URL -/

/-- What follows the userinfo of an authority, where a path begins with a slash. -/
def bareAuthority (rest : List Char) : List Char :=
  (rest.takeWhile (· ≠ '/')).rtakeWhile (· ≠ '@') ++ rest.dropWhile (· ≠ '/')

def maskedRequest (withoutQuery : List Char) : List Char :=
  match splitOnce "://".toList withoutQuery with
  | some (scheme, rest) => scheme ++ ("://".toList ++ bareAuthority rest)
  | none => withoutQuery

variable {p : Char → Bool}

theorem rtakeWhile_self {cs : List Char} (h : ∀ c ∈ cs, p c = true) : cs.rtakeWhile p = cs := by
  rw [List.rtakeWhile, List.takeWhile_eq_self_iff.mpr fun c hC => h c (List.mem_reverse.mp hC), List.reverse_reverse]

theorem rtakeWhile_mark {mark : Char} (hMark : p mark = false) (a b : List Char) :
    (a ++ mark :: b).rtakeWhile p = b.rtakeWhile p := by
  rw [List.rtakeWhile, List.rtakeWhile, List.reverse_append, List.reverse_cons, List.append_assoc, List.takeWhile_append]
  split
  · rename_i hAll
    rw [List.singleton_append, List.takeWhile_cons_of_neg (by rw [hMark]; exact Bool.false_ne_true), List.append_nil,
      (List.takeWhile_prefix p).eq_of_length hAll]
  · rfl

theorem drop_takeWhile (p : Char → Bool) (cs : List Char) : cs.drop (cs.takeWhile p).length = cs.dropWhile p := by
  induction cs with
  | nil => rfl
  | cons c cs ih =>
    rw [List.takeWhile_cons, List.dropWhile_cons]
    split
    · exact ih
    · rfl

theorem sanitizedRequestUrl_of_error {Url : Type} {crates : Crates Url} {url : String} {error : SourceError}
    (h : crates.parse url = .error error) :
    sanitizedRequestUrl crates url = String.ofList (maskedRequest (url.toList.takeWhile (· ≠ '?'))) := by
  rw [sanitizedRequestUrl, h, maskedRequest]
  dsimp only
  cases hSplit : splitOnce "://".toList (url.toList.takeWhile (· ≠ '?')) with
  | none => rfl
  | some split =>
    obtain ⟨scheme, rest⟩ := split
    dsimp only
    split
    · rw [bareAuthority, drop_takeWhile]
      simp only [List.append_assoc]
    · rename_i hNoAt
      have hAll : ∀ c ∈ rest.takeWhile (· ≠ '/'), decide (c ≠ '@') = true := by
        intro c hC
        refine decide_eq_true ?_
        rintro rfl
        exact hNoAt hC
      rw [bareAuthority, rtakeWhile_self hAll, List.takeWhile_append_dropWhile, ← splitOnce_eq (by decide) hSplit]

/-- What stands before the `@` and is shown, where a slash ends the authority before it. -/
def shownPath (user : List Char) : Option (List Char) := if '/' ∈ user then some (bareAuthority user) else none

theorem bareAuthority_mark (user rest : List Char) :
    bareAuthority (user ++ '@' :: rest) = match shownPath user with
      | some shown => shown ++ '@' :: rest
      | none => bareAuthority rest := by
  unfold shownPath bareAuthority
  by_cases hSlash : '/' ∈ user
  · have hStop : user.dropWhile (· ≠ '/') ≠ [] := by
      intro hNil
      have hAll := List.dropWhile_eq_nil_iff.mp hNil '/' hSlash
      simp at hAll
    obtain ⟨hTake, hDrop⟩ := Rfc8259.takeWhile_append_stop hStop ('@' :: rest)
    rw [if_pos hSlash, hTake, hDrop]
    exact (List.append_assoc _ _ _).symm
  · have hAll : ∀ c ∈ user, decide (c ≠ '/') = true := by
      intro c hC
      refine decide_eq_true ?_
      rintro rfl
      exact hSlash hC
    rw [if_neg hSlash, List.takeWhile_append_of_pos hAll, List.dropWhile_append_of_pos hAll,
      List.takeWhile_cons_of_pos (by decide), List.dropWhile_cons_of_pos (by decide), rtakeWhile_mark (by decide)]

theorem length_bareAuthority_le (rest : List Char) : (bareAuthority rest).length ≤ rest.length := by
  have hSplit := congrArg List.length (List.takeWhile_append_dropWhile (p := (· ≠ '/')) (l := rest))
  have hSuffix := (List.rtakeWhile_suffix (· ≠ '@') (rest.takeWhile (· ≠ '/'))).length_le
  rw [List.length_append] at hSplit
  rw [bareAuthority, List.length_append]
  omega

theorem length_dropWhile_mark {mark : Char} (hMark : p mark = false) (a b : List Char) :
    (mark :: b).length ≤ ((a ++ mark :: b).dropWhile p).length := by
  have hStop : (mark :: b).dropWhile p = mark :: b :=
    List.dropWhile_cons_of_neg (by rw [hMark]; exact Bool.false_ne_true)
  rw [List.dropWhile_append, hStop]
  split
  · exact le_rfl
  · rw [List.length_append]
    omega

theorem request_masks : Masks maskedRequest (fun user rest => bareAuthority (user ++ '@' :: rest)) shownPath where
  found {front scheme user} rest hFront := by
    have hSplit : splitOnce "://".toList (front ++ '@' :: rest) = some (scheme, user ++ '@' :: rest) := by
      rw [splitOnce_mark (by decide) (by decide), hFront]
    rw [maskedRequest, hSplit]
  missing {front} rest hFront := by
    rw [maskedRequest, maskedRequest, splitOnce_mark (by decide) (by decide), hFront]
    cases splitOnce "://".toList rest with
    | none => rfl
    | some split =>
      dsimp only [Option.map_some]
      rw [List.append_assoc]
      rfl
  shorter {rest scheme other} user h := by
    cases hRest : splitOnce "://".toList rest with
    | none =>
      rw [maskedRequest, hRest] at h
      dsimp only at h
      rw [hRest] at h
      cases h
    | some split =>
      obtain ⟨first, tail⟩ := split
      have hLength := length_splitOnce hRest
      rw [maskedRequest, hRest] at h
      dsimp only at h
      rw [splitOnce_again (by decide) hRest] at h
      obtain ⟨-, rfl⟩ := Prod.mk.inj (Option.some.inj h)
      have hTail := length_bareAuthority_le tail
      rw [bareAuthority_mark]
      cases shownPath user with
      | some shown =>
        simp only [List.length_append, List.length_cons]
        omega
      | none =>
        have hSlashes : rest = (first ++ [':']) ++ '/' :: '/' :: tail := by
          rw [splitOnce_eq (by decide) hRest, List.append_assoc]
          rfl
        have hStop : decide ('/' ≠ '/') = false := rfl
        have hPath := length_dropWhile_mark (p := fun c => decide (c ≠ '/')) hStop (first ++ [':']) ('/' :: tail)
        rw [← hSlashes] at hPath
        simp only [List.length_cons] at hPath
        have hShown : (rest.dropWhile fun c => decide (c ≠ '/')).length ≤ (bareAuthority rest).length := by
          rw [bareAuthority, List.length_append]
          exact Nat.le_add_left _ _
        dsimp only
        omega
  key {user other} rest := by
    rw [bareAuthority_mark, bareAuthority_mark]
    have hLength := length_bareAuthority_le rest
    cases hUser : shownPath user with
    | none =>
      cases hOther : shownPath other with
      | none => simp
      | some shown =>
        refine ⟨fun hSame => ?_, by rintro ⟨⟩⟩
        have hBoth := congrArg List.length hSame
        simp only [List.length_append, List.length_cons] at hBoth
        omega
    | some shown =>
      cases hOther : shownPath other with
      | none =>
        refine ⟨fun hSame => ?_, by rintro ⟨⟩⟩
        have hBoth := congrArg List.length hSame
        simp only [List.length_append, List.length_cons] at hBoth
        omega
      | some otherShown => simp

/-! ## What the errors show -/

/-- Why a proxy is refused. -/
inductive Refused where
  | unread (error : SourceError)
  | scheme (name : String)
  | noHost

def Refused.error (sanitized : String) : Refused → AiMuxError
  | .unread error =>
    .invalidArgument ("invalid proxy URL " ++ sanitized ++ ": " ++ error.message) (some (.source error))
  | .scheme name =>
    .unsupportedFunctionality ("WebSocket proxy tunneling supports http proxies only, got \"" ++ name ++
      "\" (" ++ sanitized ++ "); refusing to bypass the configured proxy with a direct connection")
  | .noHost => .invalidArgument ("proxy URL has no host: " ++ sanitized) none

def errorOf {α : Type} : Except AiMuxError α → Option AiMuxError
  | .error error => some error
  | .ok _ => none

section

variable {Url : Type} (crates : ProxyCrates Url)

def refused (raw : String) : Option Refused :=
  match crates.parse raw with
  | .error error => some (.unread error)
  | .ok proxy =>
    if asciiLower (crates.scheme proxy) ≠ "http" then some (.scheme (asciiLower (crates.scheme proxy)))
    else if (crates.hostStr proxy).isNone then some .noHost
    else none

theorem errorOf_resolveProxy {target : Url} {config : ProxyConfig} {raw : String}
    (hRaw : proxyFor crates target config = some raw) :
    errorOf (resolveProxy crates target config) = (refused crates raw).map (Refused.error (sanitizedProxyUrl raw)) := by
  rw [resolveProxy, hRaw, refused]
  dsimp only
  cases crates.parse raw with
  | error error => rfl
  | ok proxy =>
    dsimp only
    split
    · rfl
    · cases crates.hostStr proxy <;> rfl

end

theorem append_left_cancel_string {a b c : String} (h : a ++ b = a ++ c) : b = c := by
  have hList := congrArg String.toList h
  rw [String.toList_append, String.toList_append] at hList
  exact String.toList_inj.mp (List.append_cancel_left hList)

theorem append_right_cancel_string {a b c : String} (h : a ++ c = b ++ c) : a = b := by
  have hList := congrArg String.toList h
  rw [String.toList_append, String.toList_append] at hList
  exact String.toList_inj.mp (List.append_cancel_right hList)

theorem before_mark_inj {mark : Char} {a b x y : List Char} (hA : mark ∉ a) (hB : mark ∉ b)
    (h : a ++ mark :: x = b ++ mark :: y) : a = b ∧ x = y := by
  induction a generalizing b with
  | nil =>
    cases b with
    | nil => exact ⟨rfl, (List.cons.inj h).2⟩
    | cons d b =>
      obtain ⟨rfl, -⟩ := List.cons.inj h
      exact absurd List.mem_cons_self hB
  | cons c a ih =>
    cases b with
    | nil =>
      obtain ⟨rfl, -⟩ := List.cons.inj h
      exact absurd List.mem_cons_self hA
    | cons d b =>
      obtain ⟨rfl, hRest⟩ := List.cons.inj h
      obtain ⟨rfl, rfl⟩ := ih (fun hC => hA (List.mem_cons_of_mem _ hC)) (fun hC => hB (List.mem_cons_of_mem _ hC)) hRest
      exact ⟨rfl, rfl⟩

/-- Where no name has a quote in it, an error shows why it is one and what is left of the value. -/
theorem refused_error_inj {shown otherShown : String} {reason otherReason : Refused}
    (hName : ∀ name, reason = .scheme name → '"' ∉ name.toList)
    (hOtherName : ∀ name, otherReason = .scheme name → '"' ∉ name.toList)
    (h : reason.error shown = otherReason.error otherShown) : reason = otherReason ∧ shown = otherShown := by
  cases reason with
  | unread error =>
    cases otherReason with
    | unread otherError =>
      simp only [Refused.error, AiMuxError.invalidArgument.injEq, Option.some.injEq, ErrorCause.source.injEq] at h
      obtain ⟨hMessage, rfl⟩ := h
      exact ⟨rfl, append_left_cancel_string (append_right_cancel_string (append_right_cancel_string hMessage))⟩
    | scheme name => cases h
    | noHost => cases h
  | scheme name =>
    cases otherReason with
    | unread otherError => cases h
    | scheme otherName =>
      simp only [Refused.error, AiMuxError.unsupportedFunctionality.injEq, String.append_assoc] at h
      have hAfter := congrArg String.toList (append_left_cancel_string h)
      simp only [String.toList_append] at hAfter
      have hQuote : "\" (".toList = '"' :: " (".toList := by decide
      rw [hQuote, List.cons_append, List.cons_append] at hAfter
      obtain ⟨hNames, hShown⟩ := before_mark_inj (hName name rfl) (hOtherName otherName rfl) hAfter
      obtain rfl := String.toList_inj.mp hNames
      exact ⟨rfl, String.toList_inj.mp (List.append_cancel_right (List.append_cancel_left hShown))⟩
    | noHost => cases h
  | noHost =>
    cases otherReason with
    | unread otherError => cases h
    | scheme name => cases h
    | noHost =>
      simp only [Refused.error, AiMuxError.invalidArgument.injEq, and_true] at h
      exact ⟨rfl, append_left_cancel_string h⟩

/-! ## The userinfo in both texts -/

/-- A value with its userinfo; `front` is what stands before the `@` that ends it. -/
def withFront (front rest : List Char) : String := String.ofList (front ++ '@' :: rest)

/-- The values are used, or refused for one reason and masked alike. -/
def ProxyAlike {Url : Type} (crates : ProxyCrates Url) (front other rest : List Char) : Prop :=
  refused crates (withFront front rest) = refused crates (withFront other rest) ∧
    (refused crates (withFront front rest) = none ∨ MaskedAlike afterAt front other)

/-- The URLs that are read differ only in userinfo and query; of URLs that are not, both userinfos have no `?`
and are masked alike. -/
inductive RequestAlike {Url : Type} (crates : Crates Url) (front other rest : List Char) : Prop
  | read {url otherUrl : Url} (hUrl : crates.parse (withFront front rest) = .ok url)
    (hOther : crates.parse (withFront other rest) = .ok otherUrl) (hBare : crates.bare url = crates.bare otherUrl)
  | refused {error otherError : SourceError} (hError : crates.parse (withFront front rest) = .error error)
    (hOther : crates.parse (withFront other rest) = .error otherError) (hFront : '?' ∉ front)
    (hOtherFront : '?' ∉ other) (hAlike : MaskedAlike shownPath front other)

section

variable {Url : Type}

theorem sanitizedProxyUrl_eq_iff (front other rest : List Char) :
    sanitizedProxyUrl (withFront front rest) = sanitizedProxyUrl (withFront other rest) ↔
      MaskedAlike afterAt front other := by
  rw [← proxy_masks.eq_iff front other rest, sanitizedProxyUrl, sanitizedProxyUrl, withFront, withFront,
    String.toList_ofList, String.toList_ofList, String.ofList_inj]

theorem quote_not_mem_asciiLower {text : String} (h : '"' ∉ text.toList) : '"' ∉ (asciiLower text).toList := by
  intro hMem
  rw [asciiLower, String.toList_ofList] at hMem
  obtain ⟨c, hC, hLower⟩ := List.mem_map.mp hMem
  obtain rfl := (toLower_eq_iff (.inl (by decide))).mp hLower
  exact h hC

theorem refused_name {crates : ProxyCrates Url} (hScheme : ∀ url, '"' ∉ (crates.scheme url).toList)
    {raw : String} {reason : Refused} (h : refused crates raw = some reason) (name : String)
    (hName : reason = .scheme name) : '"' ∉ name.toList := by
  subst hName
  unfold refused at h
  split at h
  · cases h
  · split at h
    · cases h
      exact quote_not_mem_asciiLower (hScheme _)
    · split at h <;> cases h

theorem proxyErrors_eq_iff {crates : ProxyCrates Url} (hScheme : ∀ url, '"' ∉ (crates.scheme url).toList)
    (front other rest : List Char) :
    (refused crates (withFront front rest)).map (Refused.error (sanitizedProxyUrl (withFront front rest))) =
        (refused crates (withFront other rest)).map (Refused.error (sanitizedProxyUrl (withFront other rest))) ↔
      ProxyAlike crates front other rest := by
  unfold ProxyAlike
  rw [← sanitizedProxyUrl_eq_iff front other rest]
  cases hReason : refused crates (withFront front rest) with
  | none =>
    cases hOther : refused crates (withFront other rest) with
    | none => simp
    | some otherReason => simp
  | some reason =>
    cases hOther : refused crates (withFront other rest) with
    | none => simp
    | some otherReason =>
      rw [Option.map_some, Option.map_some]
      constructor
      · intro hSame
        obtain ⟨rfl, hShown⟩ := refused_error_inj (refused_name hScheme hReason) (refused_name hScheme hOther)
          (Option.some.inj hSame)
        exact ⟨rfl, .inr hShown⟩
      · rintro ⟨hEq, hNone | hShown⟩
        · cases hNone
        · cases hEq
          rw [hShown]

theorem takeWhile_front {front : List Char} (hFront : '?' ∉ front) (rest : List Char) :
    (front ++ '@' :: rest).takeWhile (· ≠ '?') = front ++ '@' :: rest.takeWhile (· ≠ '?') := by
  have hAll : ∀ c ∈ front, decide (c ≠ '?') = true := by
    intro c hC
    refine decide_eq_true ?_
    rintro rfl
    exact hFront hC
  rw [List.takeWhile_append_of_pos hAll, List.takeWhile_cons_of_pos (by decide)]

variable {front other rest : List Char}

theorem refusedRequests_eq_iff {crates : Crates Url} {error otherError : SourceError}
    (hError : crates.parse (withFront front rest) = .error error)
    (hOther : crates.parse (withFront other rest) = .error otherError) (hFront : '?' ∉ front)
    (hOtherFront : '?' ∉ other) :
    sanitizedRequestUrl crates (withFront front rest) = sanitizedRequestUrl crates (withFront other rest) ↔
      MaskedAlike shownPath front other := by
  rw [sanitizedRequestUrl_of_error hError, sanitizedRequestUrl_of_error hOther, String.ofList_inj, withFront, withFront,
    String.toList_ofList, String.toList_ofList, takeWhile_front hFront, takeWhile_front hOtherFront]
  exact request_masks.eq_iff front other _

theorem requests_alike {crates : Crates Url} (h : RequestAlike crates front other rest) :
    sanitizedRequestUrl crates (withFront front rest) = sanitizedRequestUrl crates (withFront other rest) := by
  cases h with
  | read hUrl hOther hBare =>
    rw [sanitizedRequestUrl, sanitizedRequestUrl, hUrl, hOther]
    dsimp only
    rw [hBare]
  | refused hError hOther hFront hOtherFront hAlike =>
    exact (refusedRequests_eq_iff hError hOther hFront hOtherFront).mpr hAlike

/-- Both are read, or neither is and no userinfo has a `?`. -/
def SameReading (crates : Crates Url) (front other rest : List Char) : Prop :=
  (crates.parse (withFront front rest)).isOk = (crates.parse (withFront other rest)).isOk ∧
    ((crates.parse (withFront front rest)).isOk = false → '?' ∉ front ∧ '?' ∉ other)

theorem requests_eq_iff {crates : Crates Url} (hText : Function.Injective crates.text)
    (hReading : SameReading crates front other rest) :
    sanitizedRequestUrl crates (withFront front rest) = sanitizedRequestUrl crates (withFront other rest) ↔
      RequestAlike crates front other rest := by
  refine ⟨fun hSame => ?_, requests_alike⟩
  obtain ⟨hBoth, hMarks⟩ := hReading
  cases hUrl : crates.parse (withFront front rest) with
  | ok url =>
    cases hOther : crates.parse (withFront other rest) with
    | ok otherUrl =>
      rw [sanitizedRequestUrl, sanitizedRequestUrl, hUrl, hOther] at hSame
      exact .read hUrl hOther (hText hSame)
    | error otherError =>
      rw [hUrl, hOther] at hBoth
      cases hBoth
  | error error =>
    obtain ⟨hFront, hOtherFront⟩ := hMarks (by rw [hUrl]; rfl)
    cases hOther : crates.parse (withFront other rest) with
    | ok otherUrl =>
      rw [hUrl, hOther] at hBoth
      cases hBoth
    | error otherError =>
      exact .refused hUrl hOther hFront hOtherFront
        ((refusedRequests_eq_iff hUrl hOther hFront hOtherFront).mp hSame)

/-- The error of a proxy and the text of a request do not depend on the userinfo exactly where the values are
treated alike. -/
theorem userinfo_hidden_iff (crates : ProxyCrates Url) (hScheme : ∀ url, '"' ∉ (crates.scheme url).toList)
    (hText : Function.Injective crates.text) (front other rest : List Char) :
    (∀ target config otherConfig, proxyFor crates target config = some (withFront front rest) →
      proxyFor crates target otherConfig = some (withFront other rest) →
      (errorOf (resolveProxy crates target config) = errorOf (resolveProxy crates target otherConfig) ↔
        ProxyAlike crates front other rest)) ∧
    (RequestAlike crates.toCrates front other rest →
      sanitizedRequestUrl crates.toCrates (withFront front rest) =
        sanitizedRequestUrl crates.toCrates (withFront other rest)) ∧
    (SameReading crates.toCrates front other rest →
      (sanitizedRequestUrl crates.toCrates (withFront front rest) =
        sanitizedRequestUrl crates.toCrates (withFront other rest) ↔
          RequestAlike crates.toCrates front other rest)) := by
  refine ⟨fun target config otherConfig hRaw hOther => ?_, requests_alike, requests_eq_iff hText⟩
  rw [errorOf_resolveProxy crates hRaw, errorOf_resolveProxy crates hOther]
  exact proxyErrors_eq_iff hScheme front other rest

end

/-! ### Sample URLs -/

def sampleAuthority (url : String) : List Char :=
  match splitOnce "://".toList url.toList with
  | some (_, rest) => (rest.takeWhile fun c => c ∉ ['/', '?', '#']).rtakeWhile (· ≠ '@')
  | none => []

def sampleCrates : ProxyCrates String where
  parse url :=
    if ((sampleAuthority url).dropWhile (· ≠ ':')).tail.all Char.isDigit then .ok url
    else .error (.mk "invalid port number" none)
  join _ reference := .ok reference
  scheme url := String.ofList (url.toList.takeWhile Char.isAlphanum)
  hostStr url := some (String.ofList ((sampleAuthority url).takeWhile (· ≠ ':')))
  port _ := none
  portOrKnownDefault _ := none
  path _ := "/"
  query _ := none
  text url := url
  bare url := String.ofList (maskedRequest (url.toList.takeWhile (· ≠ '?')))
  headerName name := .ok name
  headerValue _ := .ok ()
  jsonBytes _ := []
  addressText _ := ""
  username _ := "u"
  password _ := none
  encodeBase64 _ := ""

theorem quote_not_in_sample (url : String) : '"' ∉ (sampleCrates.scheme url).toList := by
  intro hMem
  change '"' ∈ (String.ofList (url.toList.takeWhile Char.isAlphanum)).toList at hMem
  rw [String.toList_ofList] at hMem
  exact absurd (List.mem_takeWhile_imp hMem) (by decide)

def proxies (value : String) : ProxyConfig := { httpUrl := none, httpsUrl := some value, allUrl := none }

theorem sample_refused {raw : String} (hRead : sampleCrates.parse raw = .ok raw)
    (hName : asciiLower (sampleCrates.scheme raw) = "socks5") : refused sampleCrates raw = some (.scheme "socks5") := by
  rw [refused, hRead]
  dsimp only
  rw [hName, if_pos (by decide)]

theorem userinfo_hidden_sample :
    errorOf (resolveProxy sampleCrates "wss://t" (proxies "socks5://u:a@h:1080")) =
      errorOf (resolveProxy sampleCrates "wss://t" (proxies "socks5://u:b@h:1080")) ∧
    sanitizedRequestUrl sampleCrates.toCrates "https://u:a@h/x" =
      sanitizedRequestUrl sampleCrates.toCrates "https://u:b@h/x" := by
  have hProxy := (userinfo_hidden_iff sampleCrates quote_not_in_sample Function.injective_id "socks5://u:a".toList
    "socks5://u:b".toList "h:1080".toList).1 "wss://t" (proxies "socks5://u:a@h:1080") (proxies "socks5://u:b@h:1080")
    (by decide +kernel) (by decide +kernel)
  have hRequest := (userinfo_hidden_iff sampleCrates quote_not_in_sample Function.injective_id "https://u:a".toList
    "https://u:b".toList "h/x".toList).2.1
  have hFirst : refused sampleCrates (withFront "socks5://u:a".toList "h:1080".toList) = some (.scheme "socks5") :=
    sample_refused rfl (by decide +kernel)
  have hSecond : refused sampleCrates (withFront "socks5://u:b".toList "h:1080".toList) = some (.scheme "socks5") :=
    sample_refused rfl (by decide +kernel)
  refine ⟨hProxy.mpr ⟨hFirst.trans hSecond.symm, .inr (.inr ⟨"socks5".toList, "u:a".toList, "u:b".toList, ?_⟩)⟩, ?_⟩
  · decide +kernel
  · exact hRequest (.read rfl rfl (by decide +kernel))

/-- A password with an `@` is not masked in a proxy error; one with a `?` is shown of a URL that cannot be read. -/
theorem password_in_text :
    errorOf (resolveProxy sampleCrates "wss://t" (proxies "socks5://u:p@1@h:1080")) ≠
      errorOf (resolveProxy sampleCrates "wss://t" (proxies "socks5://u:p@2@h:1080")) ∧
    sanitizedRequestUrl sampleCrates.toCrates "https://u:a?x@h" ≠
      sanitizedRequestUrl sampleCrates.toCrates "https://u:b?x@h" := by
  constructor
  · have hFirst : refused sampleCrates "socks5://u:p@1@h:1080" = some (.scheme "socks5") :=
      sample_refused rfl (by decide +kernel)
    have hSecond : refused sampleCrates "socks5://u:p@2@h:1080" = some (.scheme "socks5") :=
      sample_refused rfl (by decide +kernel)
    intro hSame
    rw [errorOf_resolveProxy sampleCrates rfl, errorOf_resolveProxy sampleCrates rfl, hFirst, hSecond] at hSame
    obtain ⟨-, hShown⟩ := refused_error_inj (refused_name quote_not_in_sample hFirst)
      (refused_name quote_not_in_sample hSecond) (Option.some.inj hSame)
    revert hShown
    decide +kernel
  · decide +kernel

end Aimux.Http
