import HttpSmtpRele.AuthGate

/-!
# `Authorization` before `X-API-Key`

`extract_token` looks at `X-API-Key` when there is no `Authorization` text, and an
`Authorization` header whose bytes are no text is none.  So two requests that
differ in `X-API-Key` only are told apart exactly when the `Authorization` value
they share is not visible ASCII and their source gets as far as the token.
-/

namespace HttpSmtpRele

open RustStr

/-- The headers other than `X-API-Key`. -/
def HeaderMap.withoutApiKey (headers : HeaderMap) : HeaderMap :=
  headers.filter fun h => h.1 != "x-api-key"

/-- Requests that differ only in their `X-API-Key` headers. -/
structure SameButApiKey (p p' : Parts) : Prop where
  headers : p'.headers.withoutApiKey = p.headers.withoutApiKey
  peer : p'.peer = p.peer

/-- `p` with these values of `X-API-Key` and no others. -/
def Parts.withApiKeys (p : Parts) (values : List (List UInt8)) : Parts :=
  { p with headers := p.headers.withoutApiKey ++ values.map fun v => ("x-api-key", v) }

/-- An `Authorization` value that is not `Bearer ` and a token. -/
def Malformed (value : List UInt8) : Prop :=
  ∀ token, HeaderMap.toStr value ≠ some ("Bearer " ++ token)

/-- Some value of `X-API-Key` is the secret of an enabled entry. -/
def HasHeaderKey (config : AppConfig) : Prop :=
  ∃ value token e, HeaderMap.toStr value = some token ∧
    Auth.matchedKey config.security.apiKeys token = some e ∧ e.enabled = true

namespace TokenPriority

open Auth

/-! ## Lookups -/

theorem lookup_withoutApiKey {name : String} (hname : name ≠ "x-api-key") (headers : HeaderMap) :
    headers.withoutApiKey.lookup name = headers.lookup name := by
  unfold HeaderMap.withoutApiKey
  induction headers with
  | nil => rfl
  | cons h headers ih =>
    obtain ⟨other, value⟩ := h
    by_cases hother : other = "x-api-key"
    · subst hother
      have hne : (name == "x-api-key") = false := beq_eq_false_iff_ne.mpr hname
      rw [List.filter_cons_of_neg (by simp), ih, List.lookup_cons, hne]
    · rw [List.filter_cons_of_pos (by simpa using hother), List.lookup_cons, List.lookup_cons, ih]

theorem getStr_eq {p p' : Parts} (h : SameButApiKey p p') {name : String}
    (hname : name ≠ "x-api-key") : p'.headers.getStr name = p.headers.getStr name := by
  unfold HeaderMap.getStr
  rw [← lookup_withoutApiKey hname, h.headers, lookup_withoutApiKey hname]

theorem withoutApiKey_keys (values : List (List UInt8)) :
    HeaderMap.withoutApiKey (values.map fun v => ("x-api-key", v)) = [] := by
  unfold HeaderMap.withoutApiKey
  rw [List.filter_eq_nil_iff]
  intro h hmem
  obtain ⟨v, -, rfl⟩ := List.mem_map.mp hmem
  simp

theorem sameButApiKey_withApiKeys (p : Parts) (values : List (List UInt8)) :
    SameButApiKey p (p.withApiKeys values) where
  headers := by
    have hkeys := withoutApiKey_keys values
    unfold Parts.withApiKeys HeaderMap.withoutApiKey at *
    rw [List.filter_append, hkeys, List.append_nil, List.filter_filter]
    simp only [Bool.and_self]
  peer := rfl

theorem getStr_withApiKeys (p : Parts) (values : List (List UInt8)) :
    (p.withApiKeys values).headers.getStr "x-api-key" = values.head?.bind HeaderMap.toStr := by
  have hnone : p.headers.withoutApiKey.lookup "x-api-key" = none := by
    rw [List.lookup_eq_none_iff]
    intro h hmem
    have hne : h.1 ≠ "x-api-key" := bne_iff_ne.mp (List.mem_filter.mp hmem).2
    exact bne_iff_ne.mpr hne.symm
  unfold HeaderMap.getStr Parts.withApiKeys
  rw [List.lookup_append, hnone]
  cases values with
  | nil => rfl
  | cons v values => simp

/-! ## What the extractor reads -/

theorem clientIp_eq {D : Deps} {p p' : Parts} (h : SameButApiKey p p')
    (security : SecurityConfig) : clientIp D security p' = clientIp D security p := by
  unfold clientIp resolveClientIp parseForwardedFor resolvePeerIp
  rw [h.peer, getStr_eq h (by decide), getStr_eq h (by decide)]

theorem ipPasses_eq {D : Deps} {p p' : Parts} (h : SameButApiKey p p')
    (security : SecurityConfig) : IpPasses D security p' ↔ IpPasses D security p := by
  unfold IpPasses
  rw [clientIp_eq h]

theorem fromRequestParts_of_refused {D : Deps} {config : AppConfig} {p : Parts}
    (hip : ¬IpPasses D config.security p) : fromRequestParts D config p = .error forbidden := by
  unfold fromRequestParts
  dsimp only
  rw [if_pos (not_not.mp (mt ipPasses_iff.mpr hip))]

theorem fromRequestParts_of_noToken {D : Deps} {config : AppConfig} {p : Parts}
    (hip : IpPasses D config.security p) (htoken : extractToken p = none) :
    fromRequestParts D config p = .error unauthorized := by
  unfold fromRequestParts
  dsimp only
  rw [if_neg (ipPasses_iff.mp hip), htoken]

/-- Whoever presents a token is not told that authentication is required. -/
theorem fromRequestParts_of_token {D : Deps} {config : AppConfig} {p : Parts} {token : String}
    (hip : IpPasses D config.security p) (htoken : extractToken p = some token) :
    fromRequestParts D config p ≠ .error unauthorized := by
  unfold fromRequestParts
  dsimp only
  rw [if_neg (ipPasses_iff.mp hip), htoken]
  dsimp only
  split
  · intro h
    cases h
  · intro h
    exact absurd (Except.error.inj h) (by decide)
  · intro h
    exact absurd (Except.error.inj h) (by decide)

/-- With an `Authorization` text `X-API-Key` is not looked at. -/
theorem fromRequestParts_eq_of_text {D : Deps} {config : AppConfig} {p p' : Parts}
    (h : SameButApiKey p p') {text : String}
    (htext : p.headers.getStr "authorization" = some text) :
    fromRequestParts D config p' = fromRequestParts D config p := by
  have htext' : p'.headers.getStr "authorization" = some text :=
    (getStr_eq h (by decide)).trans htext
  unfold fromRequestParts extractToken
  dsimp only
  rw [clientIp_eq h, htext, htext']

theorem extractToken_of_noText {p : Parts} (hnone : p.headers.getStr "authorization" = none) :
    extractToken p = p.headers.getStr "x-api-key" := by
  rw [extractToken, hnone]

theorem extractToken_withApiKeys {p : Parts} (hnone : p.headers.getStr "authorization" = none)
    (values : List (List UInt8)) :
    extractToken (p.withApiKeys values) = values.head?.bind HeaderMap.toStr := by
  have hsame := getStr_eq (sameButApiKey_withApiKeys p values)
    (by decide : "authorization" ≠ "x-api-key")
  rw [extractToken_of_noText (hsame.trans hnone), getStr_withApiKeys]

/-- Without an `Authorization` text, a request whose source passes is answered
otherwise with an `X-API-Key` than without. -/
theorem told_apart {D : Deps} {config : AppConfig} {p : Parts}
    (hnone : p.headers.getStr "authorization" = none) (hip : IpPasses D config.security p) :
    fromRequestParts D config (p.withApiKeys []) ≠
      fromRequestParts D config (p.withApiKeys [[]]) := by
  have hip₀ := (ipPasses_eq (sameButApiKey_withApiKeys p []) config.security).mpr hip
  have hip₁ := (ipPasses_eq (sameButApiKey_withApiKeys p [[]]) config.security).mpr hip
  have htoken : extractToken (p.withApiKeys [[]]) = some "" :=
    extractToken_withApiKeys hnone [[]]
  rw [fromRequestParts_of_noToken hip₀ (extractToken_withApiKeys hnone [])]
  exact (fromRequestParts_of_token hip₁ htoken).symm

theorem refused_of_malformed {D : Deps} {config : AppConfig} {p : Parts} {value : List UInt8}
    (hvalue : p.headers.lookup "authorization" = some value) (hmalformed : Malformed value)
    (htext : (HeaderMap.toStr value).isSome = true) {ctx : AuthContext} :
    fromRequestParts D config p ≠ .ok ctx := by
  intro hok
  obtain ⟨-, -, token, e, hpresents, -⟩ := fromRequestParts_ok hok
  have hstr : p.headers.getStr "authorization" = HeaderMap.toStr value := by
    rw [HeaderMap.getStr, hvalue, Option.bind_some]
  rcases hpresents with hbearer | ⟨hnone, -⟩
  · exact hmalformed token (hstr ▸ hbearer)
  · rw [hstr] at hnone
    rw [hnone] at htext
    cases htext

end TokenPriority

open Auth TokenPriority in
/-- Of two requests that share an `Authorization` value and differ in `X-API-Key`, both have
the same outcome exactly when the value is text or the source is refused anyway; a value
that is no `Bearer` token is never rescued exactly then, or when no entry can be. -/
theorem authorization_shadows_iff {D : Deps} {config : AppConfig} {p : Parts}
    {value : List UInt8} (hvalue : p.headers.lookup "authorization" = some value) :
    ((∀ p', SameButApiKey p p' →
        fromRequestParts D config p' = fromRequestParts D config p) ↔
      (HeaderMap.toStr value).isSome = true ∨ ¬IpPasses D config.security p) ∧
    (Malformed value →
      ((∀ p', SameButApiKey p p' → ∀ ctx, fromRequestParts D config p' ≠ .ok ctx) ↔
        ((HeaderMap.toStr value).isSome = true ∨ ¬IpPasses D config.security p) ∨
          ¬HasHeaderKey config)) := by
  have hstr : p.headers.getStr "authorization" = HeaderMap.toStr value := by
    rw [HeaderMap.getStr, hvalue, Option.bind_some]
  have hsame : (HeaderMap.toStr value).isSome = true ∨ ¬IpPasses D config.security p →
      ∀ p', SameButApiKey p p' →
        fromRequestParts D config p' = fromRequestParts D config p := by
    rintro (htext | hip) p' hp'
    · obtain ⟨text, ht⟩ := Option.isSome_iff_exists.mp htext
      exact fromRequestParts_eq_of_text hp' (hstr.trans ht)
    · rw [fromRequestParts_of_refused hip, fromRequestParts_of_refused]
      exact mt (ipPasses_eq hp' config.security).mp hip
  refine ⟨⟨fun hall => ?_, hsame⟩, fun hmalformed => ⟨fun hall => ?_, ?_⟩⟩
  · by_contra hcon
    rw [not_or, Bool.not_eq_true, Option.isSome_eq_false_iff, Option.isNone_iff_eq_none,
      not_not] at hcon
    apply told_apart (hstr.trans hcon.1) hcon.2
    rw [hall _ (sameButApiKey_withApiKeys p []), hall _ (sameButApiKey_withApiKeys p [[]])]
  · by_contra hcon
    rw [not_or, not_or, Bool.not_eq_true, Option.isSome_eq_false_iff, Option.isNone_iff_eq_none,
      not_not, not_not] at hcon
    obtain ⟨⟨hnone, hip⟩, key, token, e, hkey, he, hen⟩ := hcon
    have hp' := sameButApiKey_withApiKeys p [key]
    have htoken : extractToken (p.withApiKeys [key]) = some token :=
      (extractToken_withApiKeys (hstr.trans hnone) [key]).trans hkey
    exact hall _ hp' _ (fromRequestParts_of_matched ((ipPasses_eq hp' config.security).mpr hip)
      (extractToken_eq_some.mp htoken) he hen)
  · rintro (hcond | hkeys) p' hp' ctx hok
    · rw [hsame hcond p' hp'] at hok
      rcases hcond with htext | hip
      · exact refused_of_malformed hvalue hmalformed htext hok
      · rw [fromRequestParts_of_refused hip] at hok
        cases hok
    · obtain ⟨-, -, token, e, hpresents, he, hen, -⟩ := fromRequestParts_ok hok
      rcases hpresents with hbearer | ⟨-, hkey⟩
      · rw [getStr_eq hp' (by decide), hstr] at hbearer
        exact hmalformed token hbearer
      · obtain ⟨key, -, hkey⟩ := Option.bind_eq_some_iff.mp hkey
        exact hkeys ⟨key, token, e, hkey, he, hen⟩

/-! One entry, and two `Authorization` values that carry no token. -/

def headerConfig : AppConfig := .default "127.0.0.1:8080" "relay@example.com" [gateKey]

def requestWith (authorization : List UInt8) : Parts where
  headers := [("authorization", authorization), ("content-length", asciiBytes "2")]
  peer := some .localhost

/-- The secret in `X-API-Key` does not rescue another scheme. -/
theorem authorization_shadows_basic :
    Auth.fromRequestParts .plain headerConfig
        ((requestWith (asciiBytes "Basic dXNlcjpwdw==")).withApiKeys
          [asciiBytes gateKey.secret.expose]) =
      .error Auth.unauthorized := by
  have hvalue : (requestWith (asciiBytes "Basic dXNlcjpwdw==")).headers.lookup "authorization" =
      some (asciiBytes "Basic dXNlcjpwdw==") := by decide
  have htext : (HeaderMap.toStr (asciiBytes "Basic dXNlcjpwdw==")).isSome = true := by decide
  have hrefused : Auth.fromRequestParts .plain headerConfig
      (requestWith (asciiBytes "Basic dXNlcjpwdw==")) = .error Auth.unauthorized := by decide
  rw [← hrefused]
  exact (authorization_shadows_iff hvalue).1.mpr (Or.inl htext) _
    (TokenPriority.sameButApiKey_withApiKeys _ _)

/-- A token with one byte above 0x7F. -/
def latinBearer : List UInt8 := asciiBytes "Bearer caf" ++ [0xE9]

/-- It is refused alone, and not with the secret in `X-API-Key`. -/
theorem latin_bearer_rescued :
    Malformed latinBearer ∧
      (requestWith latinBearer).headers.lookup "authorization" = some latinBearer ∧
      SameButApiKey (requestWith latinBearer)
        ((requestWith latinBearer).withApiKeys [asciiBytes gateKey.secret.expose]) ∧
      Auth.fromRequestParts .plain headerConfig (requestWith latinBearer) =
        .error Auth.unauthorized ∧
      Auth.fromRequestParts .plain headerConfig
          ((requestWith latinBearer).withApiKeys [asciiBytes gateKey.secret.expose]) =
        .ok
          { keyId := "svc"
            clientIp := .localhost
            keyRateLimitPerMin := none
            keyBurst := 3 } := by
  have hnone : HeaderMap.toStr latinBearer = none := by decide
  refine ⟨?_, ?_, TokenPriority.sameButApiKey_withApiKeys _ _, ?_, ?_⟩
  · intro token htoken
    rw [hnone] at htoken
    cases htoken
  · decide
  · decide
  · decide

end HttpSmtpRele
