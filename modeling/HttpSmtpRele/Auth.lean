import HttpSmtpRele.Lib.Results
import HttpSmtpRele.Request

/-!
# `auth.rs`: authentication and access control

The `AuthContext` extractor: the client IP, the source allowlist, the token, and
the comparison with every configured secret.  It leaves only the key's id
behind; `matchedKey` is the entry itself, which the loop has in hand.
-/

namespace HttpSmtpRele

open RustStr

/-- The JSON error body the extractor answers with. -/
structure AuthRejection where
  httpStatus : Nat
  code : String
  message : String
  deriving DecidableEq, Repr

namespace Auth

def unauthorized : AuthRejection := ⟨401, "unauthorized", "Authentication required"⟩

def forbidden : AuthRejection := ⟨403, "forbidden", "Access denied"⟩

/-! ## Client IP -/

def ipInCidrs (D : Deps) (ip : IpAddr) (cidrs : List String) : Bool :=
  (cidrs.filterMap D.parseIpNet).any fun net => net ip

def resolvePeerIp (parts : Parts) : IpAddr := parts.peer.getD .localhost

/-- One `;`-separated part of a `Forwarded` element. -/
def forwardedPart (D : Deps) (part : String) : Option IpAddr :=
  let part := trim part
  (stripPrefix (toAsciiLowercase part) "for=").bind fun addrPart =>
    let addrStr := String.ofList (part.toList.drop (part.length - addrPart.length))
    D.parseIpAddr (trimMatches (trimMatches (trimMatches addrStr '"') '[') ']')

def parseForwardedFor (D : Deps) (headers : HeaderMap) : Option IpAddr := do
  let value ← headers.getStr "forwarded"
  let firstItem ← (split value ',').head?
  (split firstItem ';').findSome? (forwardedPart D)

def resolveClientIp (D : Deps) (parts : Parts) (peerIp : IpAddr) (trustedCidrs : List String) :
    IpAddr :=
  if !ipInCidrs D peerIp trustedCidrs then peerIp
  else
    match parseForwardedFor D parts.headers with
    | some ip => ip
    | none =>
      (((parts.headers.getStr "x-forwarded-for").bind fun v => (split v ',').head?).bind
        fun s => D.parseIpAddr (trim s)).getD peerIp

/-! ## Token and key -/

/-- A malformed `Authorization` header does not fall through to `X-API-Key`. -/
def extractToken (parts : Parts) : Option String :=
  match parts.headers.getStr "authorization" with
  | some auth => stripPrefix auth "Bearer "
  | none => parts.headers.getStr "x-api-key"

inductive MatchResult
  | matched (keyId : String) (rateLimitPerMin : Option Nat) (burst : Nat)
  | disabled (keyId : String)
  | notFound
  deriving DecidableEq, Repr

/-- The loop over all entries: a later match replaces an earlier one. -/
def matchedKey (keys : List ApiKeyConfig) (token : String) : Option ApiKeyConfig :=
  keys.foldl (fun found key => if token = key.secret.expose then some key else found) none

def findMatchingKey (keys : List ApiKeyConfig) (token : String) : MatchResult :=
  match matchedKey keys token with
  | some k => if k.enabled then .matched k.id k.rateLimitPerMin k.burst else .disabled k.id
  | none => .notFound

/-! ## The extractor -/

/-- Step 1 of the extractor. -/
def clientIp (D : Deps) (security : SecurityConfig) (parts : Parts) : IpAddr :=
  if security.trustProxyHeaders then
    resolveClientIp D parts (resolvePeerIp parts) security.trustedSourceCidrs
  else resolvePeerIp parts

def fromRequestParts (D : Deps) (config : AppConfig) (parts : Parts) :
    Except AuthRejection AuthContext :=
  let security := config.security
  let clientIp := clientIp D security parts
  if !security.allowedSourceCidrs.isEmpty && !ipInCidrs D clientIp security.allowedSourceCidrs then
    .error forbidden
  else
    match extractToken parts with
    | none => .error unauthorized
    | some token =>
      match findMatchingKey security.apiKeys token with
      | .matched keyId rateLimitPerMin burst =>
        .ok
          { keyId := keyId
            clientIp := clientIp
            keyRateLimitPerMin := rateLimitPerMin
            keyBurst := burst }
      | .disabled _ => .error forbidden
      | .notFound => .error forbidden

/-! ## What a match shows -/

theorem matchedKey_eq_find (keys : List ApiKeyConfig) (token : String) :
    matchedKey keys token = keys.reverse.find? fun k => decide (token = k.secret.expose) := by
  unfold matchedKey
  induction keys using List.reverseRecOn with
  | nil => rfl
  | append_singleton keys key ih =>
    rw [List.foldl_append, List.foldl_cons, List.foldl_nil, ih, List.reverse_append,
      List.reverse_singleton, List.singleton_append, List.find?_cons]
    split <;> simp_all

/-- The match is the last entry that carries the token. -/
theorem matchedKey_eq_some {keys : List ApiKeyConfig} {token : String} {e : ApiKeyConfig} :
    matchedKey keys token = some e ↔
      ∃ before after, keys = before ++ e :: after ∧ e.secret.expose = token ∧
        ∀ k ∈ after, k.secret.expose ≠ token := by
  rw [matchedKey_eq_find, List.find?_eq_some_iff_append]
  simp only [decide_eq_true_eq, Bool.not_eq_true', decide_eq_false_iff_not]
  constructor
  · rintro ⟨htok, as, bs, hrev, has⟩
    refine ⟨bs.reverse, as.reverse, ?_, htok.symm, fun k hk h => ?_⟩
    · rw [← keys.reverse_reverse, hrev]
      simp
    · exact has k (List.mem_reverse.mp hk) h.symm
  · rintro ⟨before, after, rfl, htok, hafter⟩
    refine ⟨htok.symm, after.reverse, before.reverse, by simp, fun k hk h => ?_⟩
    exact hafter k (List.mem_reverse.mp hk) h.symm

theorem mem_of_matchedKey {keys : List ApiKeyConfig} {token : String} {e : ApiKeyConfig}
    (h : matchedKey keys token = some e) : e ∈ keys ∧ e.secret.expose = token := by
  obtain ⟨before, after, rfl, hsecret, -⟩ := matchedKey_eq_some.mp h
  exact ⟨by simp, hsecret⟩

theorem findMatchingKey_eq_matched {keys : List ApiKeyConfig} {token id : String}
    {rate : Option Nat} {burst : Nat} :
    findMatchingKey keys token = .matched id rate burst ↔
      ∃ e, matchedKey keys token = some e ∧ e.enabled = true ∧ e.id = id ∧
        e.rateLimitPerMin = rate ∧ e.burst = burst := by
  unfold findMatchingKey
  cases matchedKey keys token with
  | none => simp
  | some k =>
    cases hk : k.enabled <;> simp [hk]

end Auth

end HttpSmtpRele
