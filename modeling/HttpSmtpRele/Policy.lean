import HttpSmtpRele.Request

/-!
# `policy.rs` and `sanitize.rs`

Recipient policy of a key and of the server, and the header-injection checks.
-/

namespace HttpSmtpRele

open RustStr

namespace Policy

/-- The first entry with that id. -/
def findKey (config : AppConfig) (keyId : String) : Option ApiKeyConfig :=
  config.security.apiKeys.find? fun k => k.id == keyId

/-- An allowlist of domains; the empty one allows all. -/
def domainListed (allowed : List String) (domain : String) : Bool :=
  allowed.isEmpty || allowed.any fun d => eqIgnoreAsciiCase d domain

def domainPermittedGlobally (config : AppConfig) (domain : String) : Bool :=
  domainListed config.mail.allowedRecipientDomains domain

def domainPermittedForKey (key : ApiKeyConfig) (domain : String) : Bool :=
  domainListed key.allowedRecipientDomains domain

def extractDomain (address : String) : String := (afterLast address '@').getD ""

/-- A non-empty `allowed_recipients` decides; otherwise the key's domains do. -/
def addressPermittedForKey (key : ApiKeyConfig) (address : String) : Bool :=
  if !key.allowedRecipients.isEmpty then
    key.allowedRecipients.any fun r => eqIgnoreAsciiCase r address
  else domainPermittedForKey key (extractDomain address)

theorem domainListed_eq_true {allowed : List String} {domain : String} :
    domainListed allowed domain = true ↔
      (allowed ≠ [] → ∃ d ∈ allowed, eqIgnoreAsciiCase d domain = true) := by
  cases allowed <;> simp [domainListed]

theorem findKey_mem {config : AppConfig} {keyId : String} {key : ApiKeyConfig}
    (h : findKey config keyId = some key) :
    key ∈ config.security.apiKeys ∧ key.id = keyId :=
  ⟨List.mem_of_find?_eq_some h, by simpa using List.find?_some h⟩

theorem findKey_eq_none {config : AppConfig} {keyId : String} :
    findKey config keyId = none ↔ ∀ k ∈ config.security.apiKeys, k.id ≠ keyId := by
  simp [findKey]

end Policy

namespace Sanitize

/-- CR or LF; in UTF-8 these bytes occur in no other character. -/
def containsHeaderInjection (s : String) : Bool :=
  s.toList.any fun c => c == '\r' || c == '\n'

/-- A byte below 0x20 other than tab, that is, such a character. -/
def containsControlChars (s : String) : Bool :=
  s.toList.any fun c => c.toNat < 0x20 && c.toNat != 0x09

end Sanitize

end HttpSmtpRele
