import HttpSmtpRele.ConfigValidate
import HttpSmtpRele.Auth

/-!
# The authentication gate

What the `AuthContext` extractor lets in, in both directions: `Admitted` is read
off a context that was handed out, and with pairwise distinct secrets the token
of an enabled entry always gets one.  Then the last match is the only match, so
the order of the entries plays no part.
-/

namespace HttpSmtpRele

open RustStr

/-- The token of a request: what follows `Bearer ` in `Authorization`, or the
value of `X-API-Key` if there is no `Authorization` text. -/
def Presents (parts : Parts) (token : String) : Prop :=
  parts.headers.getStr "authorization" = some ("Bearer " ++ token) ∨
    parts.headers.getStr "authorization" = none ∧
      parts.headers.getStr "x-api-key" = some token

/-- One of the networks contains `ip`; a text that is no network contains nothing. -/
def LiesIn (D : Deps) (ip : IpAddr) (cidrs : List String) : Prop :=
  ∃ cidr ∈ cidrs, ∃ net, D.parseIpNet cidr = some net ∧ net ip = true

/-- `ctx` carries the id and the overrides of the entry `e`. -/
structure SpeaksFor (ctx : AuthContext) (e : ApiKeyConfig) : Prop where
  id : ctx.keyId = e.id
  rateLimitPerMin : ctx.keyRateLimitPerMin = e.rateLimitPerMin
  burst : ctx.keyBurst = e.burst

/-- What a context that was handed out shows. -/
structure Admitted (D : Deps) (security : SecurityConfig) (parts : Parts) (ctx : AuthContext) :
    Prop where
  entry : ∃ e ∈ security.apiKeys, e.enabled = true ∧ Presents parts e.secret.expose ∧
    SpeaksFor ctx e
  socketIp : ¬(security.trustProxyHeaders = true ∧
      LiesIn D (Auth.resolvePeerIp parts) security.trustedSourceCidrs) →
    ctx.clientIp = Auth.resolvePeerIp parts
  allowed : security.allowedSourceCidrs ≠ [] → LiesIn D ctx.clientIp security.allowedSourceCidrs

/-- The resolved client IP may proceed. -/
def IpPasses (D : Deps) (security : SecurityConfig) (parts : Parts) : Prop :=
  security.allowedSourceCidrs = [] ∨
    LiesIn D (Auth.clientIp D security parts) security.allowedSourceCidrs

def DistinctSecrets (keys : List ApiKeyConfig) : Prop :=
  (keys.map fun k => k.secret.expose).Nodup

/-- `config` with its entries replaced. -/
def AppConfig.withKeys (config : AppConfig) (keys : List ApiKeyConfig) : AppConfig :=
  { config with security := { config.security with apiKeys := keys } }

namespace Auth

/-! ## Client IP -/

theorem ipInCidrs_iff {D : Deps} {ip : IpAddr} {cidrs : List String} :
    ipInCidrs D ip cidrs = true ↔ LiesIn D ip cidrs := by
  unfold ipInCidrs LiesIn
  rw [List.any_eq_true]
  constructor
  · rintro ⟨net, hnet, hip⟩
    obtain ⟨cidr, hcidr, hparse⟩ := List.mem_filterMap.mp hnet
    exact ⟨cidr, hcidr, net, hparse, hip⟩
  · rintro ⟨cidr, hcidr, net, hparse, hip⟩
    exact ⟨net, List.mem_filterMap.mpr ⟨cidr, hcidr, hparse⟩, hip⟩

theorem clientIp_of_untrusted {D : Deps} {security : SecurityConfig} {parts : Parts}
    (h : ¬(security.trustProxyHeaders = true ∧
      LiesIn D (resolvePeerIp parts) security.trustedSourceCidrs)) :
    clientIp D security parts = resolvePeerIp parts := by
  unfold clientIp
  by_cases htrust : security.trustProxyHeaders = true
  · have hpeer : ipInCidrs D (resolvePeerIp parts) security.trustedSourceCidrs = false := by
      rw [Bool.eq_false_iff]
      intro hin
      exact h ⟨htrust, ipInCidrs_iff.mp hin⟩
    rw [if_pos htrust, resolveClientIp, hpeer]
    rfl
  · rw [if_neg htrust]

/-- The source allowlist, as the extractor tests it. -/
theorem ipPasses_iff {D : Deps} {security : SecurityConfig} {parts : Parts} :
    IpPasses D security parts ↔
      ¬((!security.allowedSourceCidrs.isEmpty &&
        !ipInCidrs D (clientIp D security parts) security.allowedSourceCidrs) = true) := by
  unfold IpPasses
  rw [← ipInCidrs_iff]
  cases hlist : security.allowedSourceCidrs with
  | nil => simp
  | cons cidr cidrs => simp

/-! ## Token -/

theorem extractToken_eq_some {parts : Parts} {token : String} :
    extractToken parts = some token ↔ Presents parts token := by
  unfold extractToken Presents
  cases parts.headers.getStr "authorization" with
  | none => simp
  | some auth => simp [stripPrefix_eq_some]

/-! ## Matching -/

/-- With distinct secrets an entry that carries the token is the match. -/
theorem matchedKey_iff {keys : List ApiKeyConfig} (hdistinct : DistinctSecrets keys)
    {token : String} {e : ApiKeyConfig} :
    matchedKey keys token = some e ↔ e ∈ keys ∧ e.secret.expose = token := by
  constructor
  · exact mem_of_matchedKey
  · rintro ⟨hmem, rfl⟩
    obtain ⟨before, after, rfl⟩ := List.append_of_mem hmem
    refine matchedKey_eq_some.mpr ⟨before, after, rfl, rfl, fun k hk heq => ?_⟩
    -- a later entry with the same secret would repeat it
    unfold DistinctSecrets at hdistinct
    rw [List.map_append, List.map_cons] at hdistinct
    have hnot := (List.nodup_cons.mp (List.nodup_append.mp hdistinct).2.1).1
    exact hnot (heq ▸ List.mem_map_of_mem hk)

theorem matchedKey_perm {keys keys' : List ApiKeyConfig} (hdistinct : DistinctSecrets keys)
    (hperm : keys'.Perm keys) (token : String) :
    matchedKey keys' token = matchedKey keys token := by
  have hdistinct' : DistinctSecrets keys' := (hperm.map _).nodup_iff.mpr hdistinct
  apply Option.ext
  intro e
  rw [matchedKey_iff hdistinct, matchedKey_iff hdistinct', hperm.mem_iff]

/-! ## The extractor -/

/-- A context that was handed out, traced back through the four steps. -/
theorem fromRequestParts_ok {D : Deps} {config : AppConfig} {parts : Parts} {ctx : AuthContext}
    (h : fromRequestParts D config parts = .ok ctx) :
    IpPasses D config.security parts ∧ ctx.clientIp = clientIp D config.security parts ∧
      ∃ token e, Presents parts token ∧ matchedKey config.security.apiKeys token = some e ∧
        e.enabled = true ∧ SpeaksFor ctx e := by
  unfold fromRequestParts at h
  dsimp only at h
  split at h
  · cases h
  · rename_i hip
    cases htoken : extractToken parts with
    | none =>
      rw [htoken] at h
      cases h
    | some token =>
      simp only [htoken] at h
      split at h
      · rename_i id rate burst hfind
        obtain ⟨e, he, hen, rfl, rfl, rfl⟩ := findMatchingKey_eq_matched.mp hfind
        obtain rfl := Except.ok.inj h
        exact ⟨ipPasses_iff.mpr hip, rfl, token, e, extractToken_eq_some.mp htoken, he, hen,
          rfl, rfl, rfl⟩
      · cases h
      · cases h

theorem fromRequestParts_of_matched {D : Deps} {config : AppConfig} {parts : Parts}
    {token : String} {e : ApiKeyConfig} (hip : IpPasses D config.security parts)
    (hpresents : Presents parts token)
    (he : matchedKey config.security.apiKeys token = some e) (hen : e.enabled = true) :
    fromRequestParts D config parts =
      .ok
        { keyId := e.id
          clientIp := clientIp D config.security parts
          keyRateLimitPerMin := e.rateLimitPerMin
          keyBurst := e.burst } := by
  have hfind : findMatchingKey config.security.apiKeys token =
      .matched e.id e.rateLimitPerMin e.burst :=
    findMatchingKey_eq_matched.mpr ⟨e, he, hen, rfl, rfl, rfl⟩
  unfold fromRequestParts
  dsimp only
  rw [if_neg (ipPasses_iff.mp hip), extractToken_eq_some.mpr hpresents]
  simp only [hfind]

end Auth

open Auth in
/-- The gate lets in nobody without the secret of an enabled entry; with distinct
secrets it lets in everybody who has one, whatever the order of the entries. -/
theorem auth_gate (D : Deps) (config : AppConfig) (parts : Parts) :
    (∀ ctx, fromRequestParts D config parts = .ok ctx →
      Admitted D config.security parts ctx) ∧
      (DistinctSecrets config.security.apiKeys →
        (IpPasses D config.security parts →
          ∀ e ∈ config.security.apiKeys, e.enabled = true → Presents parts e.secret.expose →
            ∃ ctx, fromRequestParts D config parts = .ok ctx ∧ SpeaksFor ctx e) ∧
        ∀ keys, keys.Perm config.security.apiKeys →
          fromRequestParts D (config.withKeys keys) parts = fromRequestParts D config parts) := by
  refine ⟨fun ctx h => ?_, fun hdistinct => ⟨fun hip e hmem hen hpresents => ?_, ?_⟩⟩
  · obtain ⟨hip, hclient, token, e, hpresents, he, hen, hspeaks⟩ := fromRequestParts_ok h
    obtain ⟨hmem, rfl⟩ := mem_of_matchedKey he
    refine ⟨⟨e, hmem, hen, hpresents, hspeaks⟩, fun huntrusted => ?_, fun hne => ?_⟩
    · rw [hclient, clientIp_of_untrusted huntrusted]
    · rw [hclient]
      exact hip.resolve_left hne
  · have he := (matchedKey_iff hdistinct).mpr ⟨hmem, rfl⟩
    exact ⟨_, fromRequestParts_of_matched hip hpresents he hen, rfl, rfl, rfl⟩
  · intro keys hperm
    have hmatch : ∀ token, findMatchingKey keys token =
        findMatchingKey config.security.apiKeys token := by
      intro token
      unfold findMatchingKey
      rw [matchedKey_perm hdistinct hperm]
    unfold fromRequestParts
    simp only [AppConfig.withKeys, hmatch]
    rfl

/-! A service behind a proxy on the loopback network, with one entry disabled. -/

/-- `Deps.plain` with the networks and addresses of the example. -/
def proxyDeps : Deps :=
  { Deps.plain with
    parseIpAddr := fun s => if s = "10.0.0.7" then some (.v4 0x0a000007#32) else none
    parseIpNet := fun s =>
      if s = "127.0.0.1/32" then some fun ip => decide (ip = .localhost)
      else if s = "10.0.0.7/32" then some fun ip => decide (ip = .v4 0x0a000007#32)
      else none }

def gateKey : ApiKeyConfig :=
  { ApiKeyConfig.default "svc" ⟨"0123456789abcdef0123456789abcdef"⟩ with burst := 3 }

def retiredKey : ApiKeyConfig :=
  { ApiKeyConfig.default "old" ⟨"fedcba9876543210fedcba9876543210"⟩ with enabled := false }

def gateConfig : AppConfig :=
  let config := AppConfig.default "127.0.0.1:8080" "relay@example.com" [retiredKey, gateKey]
  { config with
    security :=
      { config.security with
        trustProxyHeaders := true
        trustedSourceCidrs := ["127.0.0.1/32"]
        allowedSourceCidrs := ["10.0.0.7/32"] } }

def asciiBytes (s : String) : List UInt8 := s.toList.map fun c => c.toNat.toUInt8

/-- The secret of `gateKey`, forwarded for 10.0.0.7. -/
def gateParts : Parts where
  headers :=
    [("authorization", asciiBytes "Bearer 0123456789abcdef0123456789abcdef"),
     ("x-forwarded-for", asciiBytes "10.0.0.7, 127.0.0.1")]
  peer := some .localhost

theorem auth_gate_behind_proxy :
    ∃ ctx, Auth.fromRequestParts proxyDeps (gateConfig.withKeys [gateKey, retiredKey]) gateParts =
        .ok ctx ∧ SpeaksFor ctx gateKey ∧ Admitted proxyDeps gateConfig.security gateParts ctx := by
  obtain ⟨hsound, hconverse⟩ := auth_gate proxyDeps gateConfig gateParts
  have hdistinct : DistinctSecrets gateConfig.security.apiKeys := by
    unfold DistinctSecrets
    decide
  obtain ⟨hcomplete, horder⟩ := hconverse hdistinct
  have hip : IpPasses proxyDeps gateConfig.security gateParts := by
    rw [Auth.ipPasses_iff]
    decide
  have hpresents : Presents gateParts gateKey.secret.expose := by
    left
    decide
  obtain ⟨ctx, hctx, hspeaks⟩ :=
    hcomplete hip gateKey (List.mem_cons_of_mem _ List.mem_cons_self) rfl hpresents
  refine ⟨ctx, ?_, hspeaks, hsound ctx hctx⟩
  rw [horder [gateKey, retiredKey] (List.Perm.swap retiredKey gateKey []), hctx]

end HttpSmtpRele
