import HttpSmtpRele.Api.Keys
import HttpSmtpRele.Auth
import HttpSmtpRele.ConfigValidate
import HttpSmtpRele.Validation

/-!
# The authenticated key and the key whose policy applies

Authentication picks an entry by secret, the last one that matches; everything
after it picks an entry by id, the first one.  `validateConfig` does not look at
the ids, so the two can be different entries.  `speaksAbout_iff` says when they
are the same.
-/

namespace HttpSmtpRele

/-- What the policy of one key, by itself, allows. -/
structure KeyPermits (D : Deps) (e : ApiKeyConfig) (addr : String) : Prop where
  recipient : Policy.addressPermittedForKey e addr = true
  domain : ∃ d, Validation.extractDomain D addr = .ok d ∧ Policy.domainPermittedForKey e d = true

/-- `find_matching_key` returns `Matched` for the entry `e`. -/
structure MatchedEntry (config : AppConfig) (token : String) (e : ApiKeyConfig) : Prop where
  entry : Auth.matchedKey config.security.apiKeys token = some e
  enabled : Auth.findMatchingKey config.security.apiKeys token =
    .matched e.id e.rateLimitPerMin e.burst

/-- Whatever is later said about the key of the request is said about `e`. -/
structure SpeaksAbout (D : Deps) (config : AppConfig) (e : ApiKeyConfig) : Prop where
  policy : ∀ auth : AuthContext, auth.keyId = e.id → Policy.findKey config auth.keyId = some e
  reported : ∀ auth : AuthContext, auth.keyId = e.id →
    Api.getKeySelf config auth = (200, .ok (.ofKey config e))
  confined : ∀ (auth : AuthContext) (addr : String), auth.keyId = e.id →
    Validation.checkRecipientDomainOrAddress D addr config auth = .ok () → KeyPermits D e addr

/-- No entry listed before `e` has the id of `e`. -/
def NoEarlierNamesake (config : AppConfig) (e : ApiKeyConfig) : Prop :=
  ∀ k ∈ config.security.apiKeys.takeWhile (fun k => decide (k ≠ e)), k.id ≠ e.id

namespace KeyIdentity

/-- The first entry with the id of `e` is `e` iff no other comes before it. -/
theorem find_id_eq_some {keys : List ApiKeyConfig} {e : ApiKeyConfig} (hmem : e ∈ keys) :
    (keys.find? fun k => k.id == e.id) = some e ↔
      ∀ k ∈ keys.takeWhile (fun k => decide (k ≠ e)), k.id ≠ e.id := by
  induction keys with
  | nil => cases hmem
  | cons k keys ih =>
    by_cases hk : k = e
    · simp [hk]
    · have hrest : e ∈ keys := (List.mem_cons.mp hmem).resolve_left fun h => hk h.symm
      by_cases hid : k.id = e.id
      · simp [hid, hk]
      · have hne : (k.id == e.id) = false := by simpa using hid
        simp [hne, hk, hid, ih hrest]

/-- A recipient that got through is one the looked-up entry allows. -/
theorem keyPermits_of_check {D : Deps} {config : AppConfig} {auth : AuthContext} {addr : String}
    {e : ApiKeyConfig} (hfind : Policy.findKey config auth.keyId = some e)
    (h : Validation.checkRecipientDomainOrAddress D addr config auth = .ok ()) :
    KeyPermits D e addr := by
  have hp := (Validation.checkRecipientDomainOrAddress_ok D).mp h
  obtain ⟨d, hd, -, hkey⟩ := hp.domain
  exact ⟨hp.recipient e hfind, d, hd, hkey e hfind⟩

theorem speaksAbout_of_find {D : Deps} {config : AppConfig} {e : ApiKeyConfig}
    (h : Policy.findKey config e.id = some e) : SpeaksAbout D config e where
  policy auth hid := hid ▸ h
  reported auth hid := by
    unfold Api.getKeySelf
    rw [hid, h]
  confined auth addr hid hcheck := keyPermits_of_check (hid ▸ h) hcheck

end KeyIdentity

open KeyIdentity in
/-- The entry a request authenticates with is the one all later lookups find,
exactly if no entry before it has its id. -/
theorem speaksAbout_iff {features : Features} {D : Deps} {config : AppConfig} {token : String}
    {e : ApiKeyConfig} (_accepted : ConfigValidate.Accepted features D config)
    (hmatched : MatchedEntry config token e) :
    SpeaksAbout D config e ↔ NoEarlierNamesake config e := by
  have hmem := (Auth.mem_of_matchedKey hmatched.entry).1
  constructor
  · intro h
    have hfind := h.policy { keyId := e.id, clientIp := .localhost, keyRateLimitPerMin := none,
                             keyBurst := 0 } rfl
    exact (find_id_eq_some hmem).mp hfind
  · intro h
    exact speaksAbout_of_find ((find_id_eq_some hmem).mpr h)

/-! ## Two entries with one id -/

/-- May send to anybody. -/
def openKey : ApiKeyConfig := .default "svc" ⟨"0123456789abcdef0123456789abcdef"⟩

/-- Listed second, under the same id, and confined to one address. -/
def confinedKey : ApiKeyConfig :=
  { ApiKeyConfig.default "svc" ⟨"fedcba9876543210fedcba9876543210"⟩ with
    allowedRecipients := ["ops@example.com"] }

def namesakesConfig : AppConfig :=
  .default "127.0.0.1:8080" "relay@example.com" [openKey, confinedKey]

theorem namesakesConfig_matched :
    MatchedEntry namesakesConfig "fedcba9876543210fedcba9876543210" confinedKey := by
  constructor <;> decide

def distinctConfig : AppConfig :=
  .default "127.0.0.1:8080" "relay@example.com" [{ openKey with id := "other" }, confinedKey]

/-- `speaksAbout_iff` on a config where the ids differ. -/
theorem speaksAbout_distinct_ids : SpeaksAbout .plain distinctConfig confinedKey := by
  have haccepted : ConfigValidate.Accepted {} .plain distinctConfig := by
    unfold ConfigValidate.Accepted
    decide
  have hmatched : MatchedEntry distinctConfig "fedcba9876543210fedcba9876543210" confinedKey := by
    constructor <;> decide
  apply (speaksAbout_iff haccepted hmatched).mpr
  unfold NoEarlierNamesake
  decide

/-- The config is accepted, the confined entry's secret authenticates, and a
recipient that the entry forbids is accepted. -/
theorem namesakesConfig_not_confined :
    ConfigValidate.Accepted {} .plain namesakesConfig ∧
      MatchedEntry namesakesConfig "fedcba9876543210fedcba9876543210" confinedKey ∧
      ¬SpeaksAbout .plain namesakesConfig confinedKey ∧
      ∃ auth : AuthContext, auth.keyId = confinedKey.id ∧
        Validation.checkRecipientDomainOrAddress .plain "eve@example.org" namesakesConfig auth =
          .ok () ∧
        ¬KeyPermits .plain confinedKey "eve@example.org" := by
  have hforbidden : ¬KeyPermits .plain confinedKey "eve@example.org" := by
    intro h
    have hr := h.recipient
    revert hr
    decide
  have haccepted : Validation.checkRecipientDomainOrAddress .plain "eve@example.org"
      namesakesConfig { keyId := "svc", clientIp := .localhost, keyRateLimitPerMin := none,
                        keyBurst := 0 } = .ok () := by decide
  refine ⟨?_, namesakesConfig_matched, fun h => ?_, _, rfl, haccepted, hforbidden⟩
  · unfold ConfigValidate.Accepted
    decide
  · exact hforbidden (h.confined _ _ rfl haccepted)

end HttpSmtpRele
