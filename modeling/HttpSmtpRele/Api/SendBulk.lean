import HttpSmtpRele.Api.Send

/-!
# `api/send_bulk.rs`: `POST /v1/send-bulk`

Phase 1 goes through the messages in order; phase 2 submits those that are left
in parallel tasks, as many at a time as the semaphore admits.  `sendBulk` is the
handler with the tasks run one after the other; `bulkConcurrency` and the parts
of it are what other schedules are made of.

Each `RequestId::new()` of phase 1 is an argument.  The masked domain that phase
2 logs is left out.
-/

namespace HttpSmtpRele.Api

structure MessageResult where
  index : Nat
  requestId : String
  status : String
  code : Option String
  message : Option String
  deriving DecidableEq

structure PreparedMessage where
  index : Nat
  reqId : RequestId
  keyId : String
  message : Message

structure BulkResponse where
  httpStatus : Nat
  bulkRequestId : String
  total : Nat
  accepted : Nat
  rejected : Nat
  results : List MessageResult
  deriving DecidableEq

def rejectedResult (index : Nat) (reqId : RequestId) (code : ErrorCode) (message : String) :
    MessageResult where
  index := index
  requestId := reqId.asStr
  status := "rejected"
  code := some code.asStr
  message := some message

def acceptedResult (index : Nat) (reqId : RequestId) : MessageResult where
  index := index
  requestId := reqId.asStr
  status := "accepted"
  code := none
  message := none

def apperrToCode : AppError → ErrorCode
  | .validation _ => .validationFailed
  | .badRequest => .badRequest
  | .payloadTooLarge => .payloadTooLarge
  | .unsupportedMediaType => .unsupportedMediaType
  | .rateLimited _ => .rateLimited
  | .forbidden => .forbidden
  | .smtpUnavailable => .smtpUnavailable
  | _ => .internalError

def storeRejected (reqId : RequestId) (keyId : String) (code : ErrorCode) (msg : String)
    (ttl : Nat) : RelayM Unit := do
  putNewReceived reqId keyId ttl
  Relay.updateStatus reqId keyId
    { status := .rejected, code := some code, message := some msg }

/-! ## Phase 1 -/

/-- A refused rate limit: stored and reported under one text. -/
def rateLimitedMessage (index : Nat) (reqId : RequestId) (auth : AuthContext) (cfg : AppConfig)
    (text : String) : RelayM (Except MessageResult PreparedMessage) := do
  storeRejected reqId auth.keyId .rateLimited text cfg.status.ttlSeconds
  return .error (rejectedResult index reqId .rateLimited text)

/-- After validation: metadata and the message. -/
def prepareValidated (D : Deps) (index : Nat) (reqId : RequestId) (auth : AuthContext)
    (cfg : AppConfig) (validated : ValidatedMailRequest) :
    RelayM (Except MessageResult PreparedMessage) := do
  Relay.setRecipientMetadata reqId auth.keyId
    (recipientDomainsFrom D.caseTable validated.toAddrs validated.cc)
    (recipientCount validated.toAddrs validated.cc)
  match Mail.buildMessage D validated cfg with
  | .error e =>
    Relay.updateStatus reqId auth.keyId
      { status := .rejected
        code := some .internalError
        message := some "Failed to build mail message." }
    return .error (rejectedResult index reqId .internalError e.display)
  | .ok message =>
    return .ok { index := index, reqId := reqId, keyId := auth.keyId, message := message }

/-- After the rate limits. -/
def prepareAdmitted (D : Deps) (index : Nat) (rawMsg : MailRequest) (reqId : RequestId)
    (auth : AuthContext) (cfg : AppConfig) : RelayM (Except MessageResult PreparedMessage) := do
  putNewReceived reqId auth.keyId cfg.status.ttlSeconds
  match Validation.validateMailRequest D rawMsg cfg auth with
  | .error e =>
    Relay.updateStatus reqId auth.keyId
      { status := .rejected
        code := some (apperrToCode e)
        message := some "Request rejected during validation." }
    return .error (rejectedResult index reqId (apperrToCode e) e.display)
  | .ok validated => prepareValidated D index reqId auth cfg validated

def phase1Prepare (D : Deps) (index : Nat) (rawMsg : MailRequest) (reqId : RequestId)
    (auth : AuthContext) (cfg : AppConfig) : RelayM (Except MessageResult PreparedMessage) := do
  match ← Relay.checkGlobal with
  | .error _ => rateLimitedMessage index reqId auth cfg "Global rate limit exceeded."
  | .ok () =>
    match ← Relay.checkIp auth.clientIp with
    | .error _ => rateLimitedMessage index reqId auth cfg "IP rate limit exceeded."
    | .ok () =>
      match ← Relay.checkKey auth.keyId auth.keyRateLimitPerMin auth.keyBurst with
      | .error _ => rateLimitedMessage index reqId auth cfg "Per-key rate limit exceeded."
      | .ok () => prepareAdmitted D index rawMsg reqId auth cfg

/-- A message of the request, with its index and the id drawn for it. -/
structure BulkItem where
  index : Nat
  rawMsg : MailRequest
  reqId : RequestId

/-- The loop of phase 1: what it rejects and what it prepares, in order. -/
def phase1Loop (D : Deps) (auth : AuthContext) (cfg : AppConfig) :
    List BulkItem → RelayM (List MessageResult × List PreparedMessage)
  | [] => return ([], [])
  | item :: items => do
    let outcome ← phase1Prepare D item.index item.rawMsg item.reqId auth cfg
    let (rejected, prepared) ← phase1Loop D auth cfg items
    match outcome with
    | .ok p => return (rejected, p :: prepared)
    | .error r => return (r :: rejected, prepared)

/-! ## Phase 2 -/

/-- The transport is chosen by `smtp.mode`. -/
def submitByMode (cfg : AppConfig) (message : Message) : RelayM (Except AppError Unit) :=
  if cfg.smtp.mode = "pipe" then
    Smtp.submitPipe message cfg.smtp.pipeCommand cfg.smtp.submissionTimeoutSeconds
  else Smtp.submit message cfg.smtp.submissionTimeoutSeconds

def phase2Submit (cfg : AppConfig) (p : PreparedMessage) : RelayM MessageResult := do
  Relay.updateStatus p.reqId p.keyId
    { status := .smtpSubmissionStarted, code := none, message := some "Submitting to SMTP." }
  match ← submitByMode cfg p.message with
  | .ok () =>
    Relay.updateStatus p.reqId p.keyId
      { status := .smtpAccepted, code := none, message := some "Accepted by SMTP server." }
    return acceptedResult p.index p.reqId
  | .error _ =>
    Relay.updateStatus p.reqId p.keyId
      { status := .smtpFailed
        code := some .smtpUnavailable
        message := some "SMTP server unavailable." }
    return rejectedResult p.index p.reqId .smtpUnavailable "SMTP server unavailable."

/-- The way of one message through both phases. -/
def bulkMessage (D : Deps) (index : Nat) (reqId : RequestId) (auth : AuthContext)
    (cfg : AppConfig) (rawMsg : MailRequest) : RelayM MessageResult := do
  match ← phase1Prepare D index rawMsg reqId auth cfg with
  | .error result => return result
  | .ok p => phase2Submit cfg p

/-- How many submissions at a time: the permits of the semaphore. -/
def bulkConcurrency (cfg : AppConfig) (prepared : List PreparedMessage) : Nat :=
  match cfg.smtp.bulkConcurrency with
  | 0 => max prepared.length 1
  | n => n

/-- `Semaphore::MAX_PERMITS` on a 64-bit target: `usize::MAX >> 3`. -/
def maxPermits : Nat := 2305843009213693951

/-- `Semaphore::new` panics above `MAX_PERMITS`. -/
def newSemaphore (permits : Nat) : RelayM Unit :=
  if permits ≤ maxPermits then return () else .abort

def phase2InOrder (cfg : AppConfig) : List PreparedMessage → RelayM (List MessageResult)
  | [] => return []
  | p :: ps => do
    let result ← phase2Submit cfg p
    let results ← phase2InOrder cfg ps
    return result :: results

/-! ## The handler -/

/-- Number the messages and give each its id. -/
def bulkItems (messages : List MailRequest) (ids : List RequestId) : List BulkItem :=
  (messages.zip ids).mapIdx fun i m => { index := i, rawMsg := m.1, reqId := m.2 }

theorem bulkItems_eq (messages : List (MailRequest × RequestId)) :
    bulkItems (messages.map Prod.fst) (messages.map Prod.snd) =
      messages.mapIdx fun i m => { index := i, rawMsg := m.1, reqId := m.2 } := by
  have hzip : (messages.map Prod.fst).zip (messages.map Prod.snd) = messages := by
    rw [List.zip_map', List.map_id'']
    intro x
    rfl
  rw [bulkItems, hzip]

/-- Merge, sort by index, count. -/
def bulkResponse (bulkReqId : RequestId) (total : Nat) (rejected submitted : List MessageResult) :
    BulkResponse :=
  let all := (rejected ++ submitted).insertionSort fun a b => a.index ≤ b.index
  { httpStatus := 202
    bulkRequestId := bulkReqId.asStr
    total := total
    accepted := (all.filter fun r => r.status == "accepted").length
    rejected := (all.filter fun r => r.status != "accepted").length
    results := all }

/-- The payload guards. -/
def checkBulk (cfg : AppConfig) (messages : List MailRequest) : Except AppError Unit := do
  Except.failIf messages.isEmpty .badRequest
  Except.failIf (messages.length > cfg.mail.maxBulkMessages) .payloadTooLarge

def sendBulk (D : Deps) (bulkReqId : RequestId) (auth : AuthContext) (messages : List MailRequest)
    (ids : List RequestId) : RelayM (Except AppError BulkResponse) := do
  let cfg ← Relay.config
  match checkBulk cfg messages with
  | .error e => return .error e
  | .ok () =>
    let (rejected, prepared) ← phase1Loop D auth cfg (bulkItems messages ids)
    newSemaphore (bulkConcurrency cfg prepared)
    let submitted ← phase2InOrder cfg prepared
    return .ok (bulkResponse bulkReqId messages.length rejected submitted)

end HttpSmtpRele.Api
