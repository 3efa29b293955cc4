import HttpSmtpRele.OpenRelay

/-!
# The two copies of the domain policy

`validation.rs` lowers the domain of a recipient before it looks it up, by the
Unicode rules, and `policy.rs` does not; both look it up without regard to ASCII
case only.  The copies agree on a recipient exactly when the domain has no
character beyond ASCII that lower case would change.
-/

namespace HttpSmtpRele

open RustStr

/-- `lettre` takes an address apart at its last `@`, and fails without one. -/
structure AddressHasAt (D : Deps) : Prop where
  has_at : ∀ s a, D.parseAddress s = some a → containsChar s '@' = true

namespace DomainPolicies

variable {D : Deps}

theorem extractDomain_lowered {addr before d : String}
    (h : rsplitOnce addr '@' = some (before, d)) :
    Validation.extractDomain D addr = .ok (toLowercase D.caseTable (Policy.extractDomain addr)) := by
  simp only [Validation.extractDomain, Policy.extractDomain, afterLast, h, Option.map_some,
    Option.getD_some]

/-- `check_recipient_domain` is the policy applied to the domain in lower case. -/
theorem checkRecipientDomain_lowered (laws : AddressHasAt D) {addr field text : String}
    (haddr : Validation.validateEmailAddress D addr field = .ok text) {config : AppConfig}
    {auth : AuthContext} {key : ApiKeyConfig} (hkey : Policy.findKey config auth.keyId = some key) :
    Validation.checkRecipientDomain D addr config auth = .ok () ↔
      Policy.domainPermittedGlobally config
          (toLowercase D.caseTable (Policy.extractDomain addr)) = true ∧
        Policy.domainPermittedForKey key
          (toLowercase D.caseTable (Policy.extractDomain addr)) = true := by
  obtain ⟨-, a, ha, -⟩ := (Validation.validateEmailAddress_ok D).mp haddr
  obtain ⟨before, d, hsplit⟩ := exists_rsplitOnce (laws.has_at addr a ha)
  rw [Validation.checkRecipientDomain_ok, extractDomain_lowered hsplit]
  constructor
  · rintro ⟨d', hd', hglobal, hall⟩
    rw [Except.ok.inj hd']
    exact ⟨hglobal, hall key hkey⟩
  · rintro ⟨hglobal, hforKey⟩
    refine ⟨_, rfl, hglobal, fun key' hkey' => ?_⟩
    rw [hkey] at hkey'
    cases hkey'
    exact hforKey

theorem domainListed_congr {d d' : String} (h : eqIgnoreAsciiCase d d' = true)
    (allowed : List String) :
    Policy.domainListed allowed d = Policy.domainListed allowed d' := by
  unfold Policy.domainListed
  rw [funext (eqIgnoreAsciiCase_congr h)]

theorem domainListed_of_mem {allowed : List String} {d : String} (h : d ∈ allowed) :
    Policy.domainListed allowed d = true :=
  Policy.domainListed_eq_true.mpr fun _ => ⟨d, h, eqIgnoreAsciiCase_iff.mpr rfl⟩

/-! A configuration with one domain in both of its allowlists. -/

def exactKey (d : String) : ApiKeyConfig :=
  { ApiKeyConfig.default "svc" ⟨"0123456789abcdef0123456789abcdef"⟩ with
    allowedRecipientDomains := [d] }

def exactConfig (d : String) : AppConfig :=
  let config := AppConfig.default "127.0.0.1:8080" "relay@example.com" [exactKey d]
  { config with mail := { config.mail with allowedRecipientDomains := [d] } }

theorem findKey_exactConfig (d : String) :
    Policy.findKey (exactConfig d) sampleAuth.keyId = some (exactKey d) := rfl

theorem permitted_exactConfig (d d' : String) :
    Policy.domainPermittedGlobally (exactConfig d) d' = eqIgnoreAsciiCase d d' := by
  show ([d].isEmpty || [d].any fun x => eqIgnoreAsciiCase x d') = _
  simp

/-- Both copies of the policy decide alike on `addr`, for every key that is found. -/
def CopiesAgree (D : Deps) (addr : String) : Prop :=
  ∀ config auth key, Policy.findKey config auth.keyId = some key →
    (Validation.checkRecipientDomain D addr config auth = .ok () ↔
      Policy.domainPermittedGlobally config (Policy.extractDomain addr) = true ∧
        Policy.domainPermittedForKey key (Policy.extractDomain addr) = true)

/-- The domain of `addr` is accepted where both allowlists have it as it is written. -/
def ExactAccepted (D : Deps) (addr : String) : Prop :=
  ∀ config auth key, Policy.findKey config auth.keyId = some key →
    Policy.extractDomain addr ∈ config.mail.allowedRecipientDomains →
      Policy.extractDomain addr ∈ key.allowedRecipientDomains →
        Validation.checkRecipientDomain D addr config auth = .ok ()

theorem copiesAgree_of_lowercase (table : D.caseTable.Lawful) (laws : AddressHasAt D)
    {addr field text : String} (haddr : Validation.validateEmailAddress D addr field = .ok text)
    (hlower : NonAsciiLowercase D.caseTable (Policy.extractDomain addr)) :
    CopiesAgree D addr := by
  intro config auth key hkey
  have heq := (eqIgnoreAsciiCase_toLowercase table _).mpr hlower
  rw [checkRecipientDomain_lowered laws haddr hkey, Policy.domainPermittedGlobally,
    Policy.domainPermittedForKey, Policy.domainPermittedGlobally, Policy.domainPermittedForKey,
    domainListed_congr heq, domainListed_congr heq]

theorem CopiesAgree.exactAccepted {addr : String} (h : CopiesAgree D addr) :
    ExactAccepted D addr := by
  intro config auth key hkey hglobal hforKey
  exact (h config auth key hkey).mpr
    ⟨domainListed_of_mem hglobal, domainListed_of_mem hforKey⟩

/-- Listing the domain alone already tells whether lower case changes it. -/
theorem lowercase_of_exactAccepted (table : D.caseTable.Lawful) (laws : AddressHasAt D)
    {addr field text : String} (haddr : Validation.validateEmailAddress D addr field = .ok text)
    (h : ExactAccepted D addr) : NonAsciiLowercase D.caseTable (Policy.extractDomain addr) := by
  have hkey := findKey_exactConfig (Policy.extractDomain addr)
  have hok := h _ sampleAuth _ hkey List.mem_cons_self List.mem_cons_self
  have hpermitted := ((checkRecipientDomain_lowered laws haddr hkey).mp hok).1
  rw [permitted_exactConfig] at hpermitted
  exact (eqIgnoreAsciiCase_toLowercase table _).mp hpermitted

/-! Enough of the Unicode tables for a German domain. -/

def germanTable : CaseTable :=
  { asciiTable with lower := fun c => if c = 'Ü' then ['ü'] else [c.toLower] }

def germanDeps : Deps := { Deps.plain with caseTable := germanTable }

theorem germanTable_lawful : germanTable.Lawful where
  lower_ne_nil c := by
    show (if c = 'Ü' then ['ü'] else [c.toLower]) ≠ []
    split <;> exact List.cons_ne_nil _ _
  lower_ascii c hc := by
    have hne : c ≠ 'Ü' := by
      rintro rfl
      exact absurd hc (by decide)
    exact if_neg hne

theorem germanDeps_addressHasAt : AddressHasAt germanDeps where
  has_at s a h := by
    have hs : Deps.plainAddress s = some a := h
    unfold Deps.plainAddress at hs
    split at hs
    · assumption
    · cases hs

end DomainPolicies

open DomainPolicies

/-- For a recipient that passed `validate_email_address`, the copies of the policy agree
under all configurations, and the domain is accepted under all that list it as it is
written, exactly when its characters beyond ASCII are in lower case. -/
theorem domain_policies_agree_iff {D : Deps} (table : D.caseTable.Lawful) (laws : AddressHasAt D)
    {addr field text : String} (haddr : Validation.validateEmailAddress D addr field = .ok text) :
    (CopiesAgree D addr ↔ NonAsciiLowercase D.caseTable (Policy.extractDomain addr)) ∧
      (ExactAccepted D addr ↔ NonAsciiLowercase D.caseTable (Policy.extractDomain addr)) := by
  have hagree := copiesAgree_of_lowercase table laws haddr
  have hlower := lowercase_of_exactAccepted table laws haddr
  exact ⟨⟨fun h => hlower h.exactAccepted, hagree⟩, ⟨hlower, fun h => (hagree h).exactAccepted⟩⟩

theorem domain_policies_agree_german : CopiesAgree germanDeps "post@Bücher.Example" := by
  have haddr : Validation.validateEmailAddress germanDeps "post@Bücher.Example" "to" =
      .ok "post@Bücher.Example" := by decide
  have hlower : NonAsciiLowercase germanTable "Bücher.Example" := by decide
  exact (domain_policies_agree_iff germanTable_lawful germanDeps_addressHasAt haddr).1.mpr hlower

/-- A domain that both allowlists have as the client writes it, and that is refused. -/
theorem upper_umlaut_refused :
    Validation.validateEmailAddress germanDeps "post@BÜCHER.example" "to" =
        .ok "post@BÜCHER.example" ∧
      Policy.findKey (exactConfig "BÜCHER.example") sampleAuth.keyId =
        some (exactKey "BÜCHER.example") ∧
      Policy.extractDomain "post@BÜCHER.example" = "BÜCHER.example" ∧
      (exactConfig "BÜCHER.example").mail.allowedRecipientDomains = ["BÜCHER.example"] ∧
      (exactKey "BÜCHER.example").allowedRecipientDomains = ["BÜCHER.example"] ∧
      Policy.domainPermittedGlobally (exactConfig "BÜCHER.example") "BÜCHER.example" = true ∧
      Policy.domainPermittedForKey (exactKey "BÜCHER.example") "BÜCHER.example" = true ∧
      Validation.checkRecipientDomain germanDeps "post@BÜCHER.example"
          (exactConfig "BÜCHER.example") sampleAuth =
        .error (.validation "recipient domain `bücher.example` is not permitted") := by
  refine ⟨?_, rfl, ?_, rfl, rfl, ?_, ?_, ?_⟩
  · decide
  · decide
  · decide
  · decide
  · decide

end HttpSmtpRele
