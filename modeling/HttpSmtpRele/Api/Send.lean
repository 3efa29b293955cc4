import HttpSmtpRele.Mail
import HttpSmtpRele.Smtp
import HttpSmtpRele.Validation

/-!
# `api/send.rs`: `POST /v1/send`

`sendMail` is the handler, cut at the steps its source numbers: `sendPayload`
continues after the JSON has been parsed (step 7), `sendValidated` after the
request has been validated (step 9), `sendMessage` after the message has been
built (step 10).
-/

namespace HttpSmtpRele.Api

open RustStr Except

structure SendResponse where
  httpStatus : Nat
  status : String
  requestId : String
  deriving DecidableEq

/-- `202` with `{ "status": "accepted", "request_id": .. }`. -/
def acceptedResponse (requestId : RequestId) : SendResponse where
  httpStatus := 202
  status := "accepted"
  requestId := requestId.asStr

abbrev SendResult := Except RequestError SendResponse

/-- The code stored for an error; internal errors are not exposed. -/
def storeCodeFromAppError (e : AppError) : Option ErrorCode :=
  match e.errorCode with
  | .internalError => none
  | code => some code

/-- The closure that stores a rejection. -/
def reject (requestId : RequestId) (auth : AuthContext) (status : AppError) : RelayM Unit :=
  Relay.updateStatus requestId auth.keyId
    { status := .rejected, code := storeCodeFromAppError status, message := none }

/-- Store `stored`, answer `answered`. -/
def refuse (requestId : RequestId) (auth : AuthContext) (stored answered : AppError) :
    RelayM SendResult := do
  reject requestId auth stored
  return .error ⟨requestId, answered⟩

/-- Steps 4 to 6: content type, body size, JSON. -/
def readPayload (D : Deps) (cfg : AppConfig) (headers : HeaderMap) (body : List UInt8) :
    Except AppError MailRequest := do
  let ct := (headers.getStr "content-type").getD ""
  failIf (!startsWith ct "application/json") .unsupportedMediaType
  failIf (body.length > cfg.server.maxRequestBodyBytes) .payloadTooLarge
  okOr (D.parseMailRequest body) .badRequest

/-- Step 7: global, per IP, per key; the first refusal ends the checks. -/
def checkRates (auth : AuthContext) : RelayM (Except Nat Unit) := do
  match ← Relay.checkGlobal with
  | .error retryAfter => return .error retryAfter
  | .ok () =>
    match ← Relay.checkIp auth.clientIp with
    | .error retryAfter => return .error retryAfter
    | .ok () => Relay.checkKey auth.keyId auth.keyRateLimitPerMin auth.keyBurst

/-- The code stored after a failed submission. -/
def smtpCode : AppError → ErrorCode
  | .smtpRejected => .smtpRejected
  | _ => .smtpUnavailable

/-- Steps 10 and 11. -/
def sendMessage (requestId : RequestId) (auth : AuthContext) (cfg : AppConfig)
    (message : Message) : RelayM SendResult := do
  Relay.updateStatus requestId auth.keyId
    { status := .smtpSubmissionStarted, code := none, message := none }
  match ← Smtp.submit message cfg.smtp.submissionTimeoutSeconds with
  | .ok () =>
    Relay.updateStatus requestId auth.keyId
      { status := .smtpAccepted
        code := none
        message := some "The message was accepted by the configured SMTP server." }
    return .ok (acceptedResponse requestId)
  | .error appErr =>
    Relay.updateStatus requestId auth.keyId
      { status := .smtpFailed, code := some (smtpCode appErr), message := none }
    return .error ⟨requestId, appErr⟩

/-- The recipient metadata and step 9. -/
def sendValidated (D : Deps) (requestId : RequestId) (auth : AuthContext) (cfg : AppConfig)
    (validated : ValidatedMailRequest) : RelayM SendResult := do
  Relay.setRecipientMetadata requestId auth.keyId
    (recipientDomainsFrom D.caseTable validated.toAddrs validated.cc)
    (recipientCount validated.toAddrs validated.cc)
  match Mail.buildMessage D validated cfg with
  | .error e =>
    Relay.updateStatus requestId auth.keyId
      { status := .rejected
        code := some .internalError
        message := some "Failed to build mail message." }
    return .error ⟨requestId, e⟩
  | .ok message => sendMessage requestId auth cfg message

/-- Steps 7 and 8. -/
def sendPayload (D : Deps) (requestId : RequestId) (auth : AuthContext) (cfg : AppConfig)
    (payload : MailRequest) : RelayM SendResult := do
  match ← checkRates auth with
  | .error retryAfter =>
    refuse requestId auth (.rateLimited none) (.rateLimited (some retryAfter))
  | .ok () =>
    match Validation.validateMailRequest D payload cfg auth with
    | .error e => refuse requestId auth (.validation "") e
    | .ok validated => sendValidated D requestId auth cfg validated

/-- After step 3. -/
def sendReceived (D : Deps) (requestId : RequestId) (auth : AuthContext) (cfg : AppConfig)
    (headers : HeaderMap) (body : List UInt8) : RelayM SendResult :=
  match readPayload D cfg headers body with
  | .error e => refuse requestId auth e e
  | .ok payload => sendPayload D requestId auth cfg payload

/-- `SubmissionStatusRecord::new_received` and `put_received`. -/
def putNewReceived (requestId : RequestId) (keyId : String) (ttlSeconds : Nat) : RelayM Unit := do
  let now ← Relay.utcNow
  match SubmissionStatusRecord.newReceived requestId keyId ttlSeconds now with
  | none => .abort
  | some record => Relay.putReceived record

def sendMail (D : Deps) (requestId : RequestId) (auth : AuthContext) (headers : HeaderMap)
    (body : List UInt8) : RelayM SendResult := do
  let cfg ← Relay.config
  putNewReceived requestId auth.keyId cfg.status.ttlSeconds
  sendReceived D requestId auth cfg headers body

end HttpSmtpRele.Api
