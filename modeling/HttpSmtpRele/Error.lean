import HttpSmtpRele.Lib.RustStr

/-!
# `error.rs`: error classification and HTTP mapping

`ErrorCode` is the external classification, shared by HTTP responses and status
records; `AppError` is what the code raises.
-/

namespace HttpSmtpRele

/-- `request_id.rs`: an opaque identifier, `req_` followed by a ULID. -/
structure RequestId where
  asStr : String
  deriving DecidableEq, Repr

theorem RequestId.asStr_injective : Function.Injective RequestId.asStr := by
  rintro ⟨a⟩ ⟨b⟩ h
  exact congrArg RequestId.mk h

inductive ErrorCode
  | badRequest
  | validationFailed
  | unauthorized
  | forbidden
  | payloadTooLarge
  | unsupportedMediaType
  | rateLimited
  | smtpUnavailable
  | smtpRejected
  | submissionNotFound
  | statusStoreUnavailable
  | featureDisabled
  | internalError
  deriving DecidableEq, Repr

namespace ErrorCode

def asStr : ErrorCode → String
  | badRequest => "bad_request"
  | validationFailed => "validation_failed"
  | unauthorized => "unauthorized"
  | forbidden => "forbidden"
  | payloadTooLarge => "payload_too_large"
  | unsupportedMediaType => "unsupported_media_type"
  | rateLimited => "rate_limited"
  | smtpUnavailable => "smtp_unavailable"
  | smtpRejected => "smtp_rejected"
  | submissionNotFound => "submission_not_found"
  | statusStoreUnavailable => "status_store_unavailable"
  | featureDisabled => "feature_disabled"
  | internalError => "internal_error"

/-- Distinct codes have distinct external names. -/
theorem asStr_injective : Function.Injective asStr := by
  intro a b h
  cases a <;> cases b <;> first | rfl | exact absurd h (by decide)

end ErrorCode

inductive AppError
  | badRequest
  | unauthorized
  | forbidden
  | payloadTooLarge
  | unsupportedMediaType
  | rateLimited (retryAfterSecs : Option Nat)
  | validation (message : String)
  | smtpUnavailable
  | smtpRejected
  | featureDisabled (feature : String)
  | internal
  deriving DecidableEq, Repr

namespace AppError

def errorCode : AppError → ErrorCode
  | badRequest => .badRequest
  | unauthorized => .unauthorized
  | forbidden => .forbidden
  | payloadTooLarge => .payloadTooLarge
  | unsupportedMediaType => .unsupportedMediaType
  | rateLimited _ => .rateLimited
  | validation _ => .validationFailed
  | smtpUnavailable => .smtpUnavailable
  | smtpRejected => .smtpRejected
  | featureDisabled _ => .featureDisabled
  | internal => .internalError

def httpStatus : AppError → Nat
  | badRequest => 400
  | validation _ => 400
  | unauthorized => 401
  | forbidden => 403
  | payloadTooLarge => 413
  | unsupportedMediaType => 415
  | rateLimited _ => 429
  | smtpUnavailable => 502
  | smtpRejected => 502
  | featureDisabled _ => 404
  | internal => 500

/-- The `Display` text. -/
def display : AppError → String
  | badRequest => "request payload is not valid JSON or contains unknown fields"
  | unauthorized => "authentication required"
  | forbidden => "access denied"
  | payloadTooLarge => "request payload too large"
  | unsupportedMediaType => "unsupported media type"
  | rateLimited _ => "rate limit exceeded"
  | validation message => "validation failed: " ++ message
  | smtpUnavailable => "SMTP server unavailable"
  | smtpRejected => "SMTP server rejected the message"
  | featureDisabled feature => "feature disabled: " ++ feature
  | internal => "internal error"

/-- Every error answers with a 4xx or 5xx status. -/
theorem httpStatus_is_error (e : AppError) : 400 ≤ e.httpStatus ∧ e.httpStatus < 600 := by
  cases e <;> simp [httpStatus]

end AppError

structure RequestError where
  requestId : RequestId
  source : AppError
  deriving DecidableEq, Repr

end HttpSmtpRele
