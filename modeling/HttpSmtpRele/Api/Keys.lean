import HttpSmtpRele.Policy

/-!
# `api/keys.rs`: `GET /v1/keys/self`

What the endpoint reports about the authenticated key.  The entry is looked up
again, by id.
-/

namespace HttpSmtpRele.Api

/-- The JSON body; the secret is not part of it. -/
structure KeySelf where
  id : String
  enabled : Bool
  description : Option String
  allowedRecipientDomains : List String
  allowedRecipients : List String
  rateLimitPerMin : Option Nat
  burst : Nat
  maskRecipient : Option Bool
  effectiveRateLimitPerMin : Nat
  effectiveBurst : Nat
  deriving DecidableEq

structure KeySelfError where
  code : String
  message : String
  deriving DecidableEq

def KeySelf.ofKey (config : AppConfig) (k : ApiKeyConfig) : KeySelf where
  id := k.id
  enabled := k.enabled
  description := k.description
  allowedRecipientDomains := k.allowedRecipientDomains
  allowedRecipients := k.allowedRecipients
  rateLimitPerMin := k.rateLimitPerMin
  burst := k.burst
  maskRecipient := k.maskRecipient
  effectiveRateLimitPerMin := k.rateLimitPerMin.getD config.rateLimit.perKeyPerMin
  effectiveBurst := if k.burst > 0 then k.burst else config.rateLimit.effectivePerKeyBurst

/-- The HTTP status and the body. -/
def getKeySelf (config : AppConfig) (auth : AuthContext) : Nat × Except KeySelfError KeySelf :=
  match Policy.findKey config auth.keyId with
  | some k => (200, .ok (.ofKey config k))
  | none => (500, .error ⟨"internal_error", "Authenticated key not found in config."⟩)

end HttpSmtpRele.Api
