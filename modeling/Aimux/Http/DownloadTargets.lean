import Aimux.Http.DownloadGuard

/-! # Validated download targets

What passes the guard is on the trusted origin, or it is pinned to public addresses. The guard checks the
literal of the normalized host and pins the literal of the host: the two are the same address.
-/

namespace Aimux.Http

open Aimux.Core

/-! ## Lower case -/

theorem toNat_toLower (c : Char) :
    c.toLower.toNat = if 65 ≤ c.toNat ∧ c.toNat ≤ 90 then c.toNat + 32 else c.toNat := by
  have hUpper : (c.val ≥ 'A'.val ∧ c.val ≤ 'Z'.val) ↔ (65 ≤ c.toNat ∧ c.toNat ≤ 90) := by
    rw [ge_iff_le, UInt32.le_iff_toNat_le, UInt32.le_iff_toNat_le]
    rfl
  unfold Char.toLower
  split
  · rename_i h
    have hRange := hUpper.mp h
    rw [if_pos hRange]
    change (c.val + ('a'.val - 'A'.val)).toNat = c.toNat + 32
    rw [UInt32.toNat_add]
    change (c.toNat + 32) % 2 ^ 32 = c.toNat + 32
    exact Nat.mod_eq_of_lt (by omega)
  · rename_i h
    rw [if_neg (mt hUpper.mpr h)]

theorem token_toLower (c : Char) : token c.toLower = token c := by
  unfold token
  rw [toNat_toLower]
  split
  · rename_i hUpper
    split_ifs <;> first | rfl | omega
  · rfl

/-- What is no letter is the lower case of itself alone. -/
theorem toLower_eq_iff {c sign : Char} (hSign : sign.toNat < 65 ∨ (90 < sign.toNat ∧ sign.toNat < 97)) :
    c.toLower = sign ↔ c = sign := by
  rw [← Char.toNat_inj, ← Char.toNat_inj, toNat_toLower]
  split
  · omega
  · rfl

/-! ## Addresses -/

theorem digits_dot (radix : Nat) (tokens : List Token) : digits radix (tokens ++ [Token.dot]) = none := by
  induction tokens with
  | nil => rfl
  | cons first tokens ih =>
    cases first with
    | hex value =>
      rw [List.cons_append, digits, ih]
      split <;> rfl
    | _ => rfl

variable (tokens : List Token)

theorem group_dot : group (tokens ++ [Token.dot]) = none := by
  rw [group, digits_dot]
  rfl

theorem ipv4_dot : ipv4 (tokens ++ [Token.dot]) = none := by
  unfold ipv4
  rw [List.splitOn_append_cons_self, List.splitOn_nil]
  split
  · rename_i a b c d hPieces
    have hLast : d = [] := by
      have hSame := congrArg List.getLast? hPieces
      simpa using hSame.symm
    rw [hLast]
    cases octet a <;> cases octet b <;> cases octet c <;> rfl
  · rfl

theorem splitOn_concat {sep last : Token} (hLast : last ≠ sep) (tokens : List Token) :
    ∃ earlier piece, (tokens ++ [last]).splitOn sep = earlier ++ [piece ++ [last]] := by
  induction tokens with
  | nil => exact ⟨[], [], by simp [List.splitOn_cons_eq_if_modifyHead, hLast]⟩
  | cons first tokens ih =>
    obtain ⟨earlier, piece, hSplit⟩ := ih
    rw [List.cons_append, List.splitOn_cons_eq_if_modifyHead, hSplit]
    split
    · exact ⟨[] :: earlier, piece, rfl⟩
    · cases earlier with
      | nil => exact ⟨[], first :: piece, rfl⟩
      | cons head earlier => exact ⟨(first :: head) :: earlier, piece, rfl⟩

theorem groupsToIpv4_dot (earlier : List (List Token)) (piece : List Token) :
    groupsToIpv4 (earlier ++ [piece ++ [Token.dot]]) = none := by
  induction earlier with
  | nil =>
    rw [List.nil_append, groupsToIpv4, ipv4_dot]
    simp [groups, group_dot]
  | cons head earlier ih =>
    obtain ⟨next, rest, hRest⟩ : ∃ next rest, earlier ++ [piece ++ [Token.dot]] = next :: rest := by
      cases earlier with
      | nil => exact ⟨_, _, rfl⟩
      | cons next earlier => exact ⟨_, _, rfl⟩
    rw [List.cons_append, hRest, groupsToIpv4, ← hRest, ih]
    · cases group head <;> rfl
    · exact nofun

theorem pieces_dot : groupsToIpv4 (pieces (tokens ++ [Token.dot])) = none := by
  obtain ⟨earlier, piece, hSplit⟩ := @splitOn_concat .colon .dot nofun tokens
  rw [pieces, if_neg (by simp), hSplit]
  exact groupsToIpv4_dot earlier piece

theorem splitDouble_dot :
    (∃ head, splitDouble (tokens ++ [Token.dot]) = (head ++ [.dot], none)) ∨
      ∃ head tail, splitDouble (tokens ++ [Token.dot]) = (head, some (tail ++ [.dot])) := by
  induction tokens using splitDouble.induct with
  | case1 rest => exact .inr ⟨[], rest, rfl⟩
  | case2 first rest hSingle ih =>
    have hStep : splitDouble (first :: rest ++ [Token.dot]) =
        (first :: (splitDouble (rest ++ [Token.dot])).1, (splitDouble (rest ++ [Token.dot])).2) := by
      rw [List.cons_append, splitDouble]
      rintro after rfl hAfter
      cases rest with
      | nil => cases hAfter
      | cons next rest =>
        rw [List.cons_append, List.cons.injEq] at hAfter
        exact hSingle rest rfl (by rw [hAfter.1])
    rw [hStep]
    rcases ih with ⟨head, hHead⟩ | ⟨head, tail, hTail⟩
    · exact .inl ⟨first :: head, by rw [hHead]; rfl⟩
    · exact .inr ⟨first :: head, tail, by rw [hTail]⟩
  | case3 => exact .inl ⟨[], rfl⟩

theorem ipv6_dot : ipv6 (tokens ++ [Token.dot]) = none := by
  unfold ipv6
  rcases splitDouble_dot tokens with ⟨head, hSplit⟩ | ⟨head, tail, hSplit⟩
  · rw [hSplit]
    dsimp only
    rw [pieces_dot]
    rfl
  · rw [hSplit]
    dsimp only
    rw [pieces_dot]
    cases groups (pieces head) <;> rfl

/-- An address does not end in a dot. -/
theorem parseAddress_dot : parseAddress (tokens ++ [Token.dot]) = none := by
  rw [parseAddress, ipv4_dot, ipv6_dot]
  rfl

theorem dropWhile_concat {p : Char → Bool} {last : Char} (hLast : p last = false) (text : List Char) :
    ∃ rest, (text ++ [last]).dropWhile p = rest ++ [last] := by
  induction text with
  | nil => exact ⟨[], by rw [List.nil_append, List.dropWhile_cons_of_neg (by simp [hLast])]⟩
  | cons first text ih =>
    rw [List.cons_append, List.dropWhile_cons]
    split
    · exact ih
    · exact ⟨first :: text, rfl⟩

theorem hostIpLiteral_dot (host : List Char) : hostIpLiteral (host ++ ['.']) = none := by
  obtain ⟨rest, hRest⟩ := @dropWhile_concat (· = '[') '.' rfl host
  rw [hostIpLiteral, hRest, List.rdropWhile_concat_neg _ _ _ (by decide), List.map_append]
  exact parseAddress_dot _

theorem hostIpLiteral_toLower (host : List Char) : hostIpLiteral (host.map Char.toLower) = hostIpLiteral host := by
  have hOpen : ((· = '[') : Char → Bool) ∘ Char.toLower = (· = '[') := by
    funext c
    exact decide_eq_decide.mpr (toLower_eq_iff (.inr (by decide)))
  have hClose : ((· = ']') : Char → Bool) ∘ Char.toLower = (· = ']') := by
    funext c
    exact decide_eq_decide.mpr (toLower_eq_iff (.inr (by decide)))
  have hToken : token ∘ Char.toLower = token := funext token_toLower
  unfold hostIpLiteral List.rdropWhile
  rw [List.dropWhile_map, hOpen, ← List.map_reverse, List.dropWhile_map, hClose, ← List.map_reverse,
    List.map_map, hToken]

/-- The literal that is checked is the literal that is pinned. -/
theorem hostIpLiteral_normalizedHost {host : List Char} {address : IpAddr}
    (h : hostIpLiteral host = some address) : hostIpLiteral (normalizedHost host) = some address := by
  have hKept : normalizedHost host = host.map Char.toLower := by
    refine List.rdropWhile_eq_self_iff.mpr fun hNil hDot => ?_
    rcases List.eq_nil_or_concat host with rfl | ⟨rest, last, rfl⟩
    · exact hNil rfl
    · have hLast : last = '.' := by
        rw [← toLower_eq_iff (.inl (by decide))]
        simpa using hDot
      rw [hLast, List.concat_eq_append, hostIpLiteral_dot] at h
      cases h
  rw [hKept, hostIpLiteral_toLower, h]

/-! ## Targets -/

variable {Url : Type} {crates : Crates Url}

theorem validateDownloadUrl_inv {url : String} {parsed : Url} (h : validateDownloadUrl crates url = .ok parsed) :
    crates.parse url = .ok parsed ∧ (crates.scheme parsed = "http" ∨ crates.scheme parsed = "https") ∧
      ∀ host address, crates.hostStr parsed = some host → hostIpLiteral host.toList = some address →
        isPublicDownloadAddress address = true := by
  unfold validateDownloadUrl at h
  cases hParse : crates.parse url with
  | error error =>
    rw [hParse] at h
    cases h
  | ok found =>
    rw [hParse] at h
    dsimp only at h
    split at h
    · cases h
    rename_i hScheme
    have hHttp : crates.scheme found = "http" ∨ crates.scheme found = "https" := by
      by_contra hNeither
      exact hScheme (not_or.mp hNeither)
    cases hHost : crates.hostStr found with
    | none =>
      rw [hHost] at h
      cases h
    | some host =>
      rw [hHost] at h
      dsimp only at h
      split at h
      · cases h
      cases hLiteral : hostIpLiteral (normalizedHost host.toList) with
      | none =>
        rw [hLiteral] at h
        cases h
        refine ⟨rfl, hHttp, fun other address hOther hAddress => ?_⟩
        rw [hHost] at hOther
        cases hOther
        rw [hostIpLiteral_normalizedHost hAddress] at hLiteral
        cases hLiteral
      | some literal =>
        rw [hLiteral] at h
        dsimp only at h
        split at h
        · rename_i hPublic
          cases h
          refine ⟨rfl, hHttp, fun other address hOther hAddress => ?_⟩
          rw [hHost] at hOther
          cases hOther
          rw [hostIpLiteral_normalizedHost hAddress] at hLiteral
          cases hLiteral
          exact hPublic
        · cases h

theorem validateResolved_public {host : String} {validated addresses all : List IpAddr}
    (h : validateResolved crates host validated addresses = .ok all)
    (hValidated : ∀ address ∈ validated, isPublicDownloadAddress address = true) :
    (∀ address ∈ all, isPublicDownloadAddress address = true) ∧
      (validated ≠ [] ∨ addresses ≠ [] → all ≠ []) := by
  induction addresses generalizing validated with
  | nil =>
    cases h
    exact ⟨hValidated, fun hSome => hSome.resolve_right (fun hNil => hNil rfl)⟩
  | cons address addresses ih =>
    rw [validateResolved] at h
    split at h
    · rename_i hPublic
      obtain ⟨hAll, hSome⟩ := ih h (by
        split
        · exact hValidated
        · intro other hOther
          rcases List.mem_append.mp hOther with hOther | hOther
          · exact hValidated other hOther
          · rw [List.mem_singleton.mp hOther]
            exact hPublic)
      refine ⟨hAll, fun _ => hSome (.inl ?_)⟩
      split
      · rename_i hKnown
        exact List.ne_nil_of_mem hKnown
      · simp
    · cases h

theorem validateResolvedDownloadAddresses_ok {host : String} {addresses all : List IpAddr}
    (h : validateResolvedDownloadAddresses crates host addresses = .ok all) :
    all ≠ [] ∧ ∀ address ∈ all, isPublicDownloadAddress address = true := by
  unfold validateResolvedDownloadAddresses at h
  split at h
  · cases h
  · rename_i hSome
    obtain ⟨hPublic, hNonempty⟩ := validateResolved_public h (by simp)
    exact ⟨hNonempty (.inr hSome), hPublic⟩

/-- The spec of the guard. -/
theorem validateDownloadTarget_ok {lookupHost : String → Nat → Except SourceError (List IpAddr)} {url : String}
    {trustedOrigin : Option String} {addresses : List IpAddr}
    (h : validateDownloadTarget crates lookupHost url trustedOrigin = .ok addresses) :
    (∃ origin, trustedOrigin = some origin ∧ sameOrigin crates url origin = true ∧ addresses = []) ∨
      (addresses ≠ [] ∧ (∀ address ∈ addresses, isPublicDownloadAddress address = true) ∧
        ∃ parsed, crates.parse url = .ok parsed ∧
          (crates.scheme parsed = "http" ∨ crates.scheme parsed = "https")) := by
  unfold validateDownloadTarget at h
  split at h
  · rename_i hTrusted
    cases h
    cases trustedOrigin with
    | none => cases hTrusted
    | some origin => exact .inl ⟨origin, rfl, hTrusted, rfl⟩
  · right
    cases hUrl : validateDownloadUrl crates url with
    | error error =>
      rw [hUrl] at h
      cases h
    | ok parsed =>
      obtain ⟨hParse, hScheme, hLiteral⟩ := validateDownloadUrl_inv hUrl
      have hTarget : ∃ parsed, crates.parse url = .ok parsed ∧
          (crates.scheme parsed = "http" ∨ crates.scheme parsed = "https") := ⟨parsed, hParse, hScheme⟩
      rw [hUrl] at h
      dsimp only at h
      cases hHost : crates.hostStr parsed with
      | none =>
        rw [hHost] at h
        cases h
      | some host =>
        rw [hHost] at h
        dsimp only at h
        split at h
        · rename_i address hAddress
          cases h
          refine ⟨by simp, fun other hOther => ?_, hTarget⟩
          rw [List.mem_singleton.mp hOther]
          exact hLiteral host address hHost hAddress
        · split at h
          · cases h
          · split at h
            · cases h
            · obtain ⟨hNonempty, hPublic⟩ := validateResolvedDownloadAddresses_ok h
              exact ⟨hNonempty, hPublic, hTarget⟩

end Aimux.Http
