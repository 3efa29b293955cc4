import HttpSmtpRele.Lifecycle

/-!
# The handlers follow the life of their record

For each part of `send_mail` and of the two phases of `send_bulk`, from which
phase it starts and in which it leaves the record, whatever the answers to its
operations are.  `SendEnds` and `MessageEnds` relate what the client is told to
the final phase; `storedCode` is the code under which an error is stored.
-/

namespace HttpSmtpRele

open Prog LPhase Api

variable {rid : RequestId} {D : Deps}

/-! ## Operations and their automaton -/

theorem messageNext_putReceived {record : SubmissionStatusRecord} (hid : record.requestId = rid)
    (hstatus : record.status = .received) :
    messageNext rid .fresh (.putReceived record) = some (.received record.keyId) := by
  simp [messageNext, Op.target, hid, LPhase.step, hstatus]

theorem messageNext_setRecipientMetadata {keyId : String} {domains : List Domain} {count : Nat} :
    messageNext rid (.received keyId) (.setRecipientMetadata rid keyId domains count) =
      some (.received keyId) := by
  simp [messageNext, Op.target, LPhase.step]

theorem messageNext_updateStatus {φ : LPhase} {keyId : String} {u : StatusUpdate} :
    messageNext rid φ (.updateStatus rid keyId u) = φ.update keyId u := by
  simp [messageNext, Op.target, LPhase.step]

theorem update_rejected {keyId : String} {code : Option ErrorCode} {message : Option String} :
    (LPhase.received keyId).update keyId ⟨.rejected, code, message⟩ =
      some (.ended keyId .rejected code) := by
  simp [LPhase.update]

theorem update_started {keyId : String} {code : Option ErrorCode} {message : Option String} :
    (LPhase.received keyId).update keyId ⟨.smtpSubmissionStarted, code, message⟩ =
      some (.started keyId) := by
  simp [LPhase.update]

theorem update_accepted {keyId : String} {code : Option ErrorCode} {message : Option String} :
    (LPhase.started keyId).update keyId ⟨.smtpAccepted, code, message⟩ =
      some (.ended keyId .smtpAccepted code) := by
  simp [LPhase.update]

theorem update_failed {keyId : String} {code : Option ErrorCode} {message : Option String} :
    (LPhase.started keyId).update keyId ⟨.smtpFailed, code, message⟩ =
      some (.ended keyId .smtpFailed code) := by
  simp [LPhase.update]

theorem follows_putNewReceived {keyId : String} {ttl : Nat} :
    Follows (messageNext rid) (fun _ φ => φ = .received keyId) .fresh
      (putNewReceived rid keyId ttl) := by
  unfold putNewReceived
  apply Follows.perform (ψ := .fresh) rfl
  intro now
  cases h : SubmissionStatusRecord.newReceived rid keyId ttl now with
  | none => trivial
  | some record =>
    obtain ⟨hid, hkey, hstatus, -⟩ := SubmissionStatusRecord.newReceived_eq_some h
    apply Follows.step (messageNext_putReceived hid hstatus)
    intro _
    exact congrArg LPhase.received hkey

/-! ## `send_mail` -/

/-- The code under which an error is stored: its own, except that a disabled
feature is stored as a validation failure. -/
def storedCode : AppError → ErrorCode
  | .featureDisabled _ => .validationFailed
  | e => e.errorCode

/-- What the client is told, and how the record ends. -/
def SendSettles (rid : RequestId) (status : SubmissionStatus) (code : Option ErrorCode) :
    SendResult → Prop
  | .ok response => response = acceptedResponse rid ∧ status = .smtpAccepted
  | .error err => err.requestId = rid ∧ (status = .rejected ∨ status = .smtpFailed) ∧
      code = some (storedCode err.source)

/-- Where `send_mail` leaves its record. -/
def SendEnds (rid : RequestId) (keyId : String) (res : SendResult) (φ : LPhase) : Prop :=
  ∃ status code, φ = .ended keyId status code ∧ SendSettles rid status code res

theorem follows_refuse {auth : AuthContext} {stored answered : AppError}
    (h : storeCodeFromAppError stored = some (storedCode answered)) :
    Follows (messageNext rid) (SendEnds rid auth.keyId) (.received auth.keyId)
      (refuse rid auth stored answered) := by
  apply Follows.step (messageNext_updateStatus.trans update_rejected)
  intro _
  exact ⟨_, _, rfl, rfl, Or.inl rfl, h⟩

theorem readPayload_error {cfg : AppConfig} {headers : HeaderMap} {body : List UInt8}
    {e : AppError} (h : readPayload D cfg headers body = .error e) :
    e = .unsupportedMediaType ∨ e = .payloadTooLarge ∨ e = .badRequest := by
  unfold readPayload at h
  rcases Except.bind_eq_error_iff.mp h with h | ⟨_, -, h⟩
  · exact Or.inl (Except.failIf_eq_error.mp h).2.symm
  · rcases Except.bind_eq_error_iff.mp h with h | ⟨_, -, h⟩
    · exact Or.inr (Or.inl (Except.failIf_eq_error.mp h).2.symm)
    · cases hp : D.parseMailRequest body with
      | none =>
        rw [hp] at h
        exact Or.inr (Or.inr (Except.error.inj h).symm)
      | some payload => simp [hp, Except.okOr] at h

/-- The answer is not that a feature is disabled. -/
def NotDisabled : SendResult → Prop
  | .ok _ => True
  | .error err => ∀ feature, err.source ≠ .featureDisabled feature

theorem follows_sendMessage {auth : AuthContext} {cfg : AppConfig} {message : Message} :
    Follows (messageNext rid) (fun res φ => SendEnds rid auth.keyId res φ ∧ NotDisabled res)
      (.received auth.keyId) (sendMessage rid auth cfg message) := by
  unfold sendMessage Smtp.submit
  apply Follows.perform (messageNext_updateStatus.trans update_started)
  intro _
  simp only [bind_assoc]
  apply Follows.perform (ψ := .started auth.keyId) rfl
  intro outcome
  simp only [pure_eq, ret_bind]
  cases hres : Smtp.outcomeResult outcome with
  | ok _ =>
    apply Follows.step (messageNext_updateStatus.trans update_accepted)
    intro _
    exact ⟨⟨_, _, rfl, rfl, rfl⟩, trivial⟩
  | error appErr =>
    apply Follows.step (messageNext_updateStatus.trans update_failed)
    intro _
    rcases Smtp.outcomeResult_error hres with rfl | rfl
    · exact ⟨⟨_, _, rfl, rfl, Or.inr rfl, rfl⟩, fun _ h => nomatch h⟩
    · exact ⟨⟨_, _, rfl, rfl, Or.inr rfl, rfl⟩, fun _ h => nomatch h⟩

theorem follows_sendValidated {auth : AuthContext} {cfg : AppConfig}
    {validated : ValidatedMailRequest} :
    Follows (messageNext rid) (fun res φ => SendEnds rid auth.keyId res φ ∧ NotDisabled res)
      (.received auth.keyId) (sendValidated D rid auth cfg validated) := by
  apply Follows.step messageNext_setRecipientMetadata
  intro _
  cases hb : Mail.buildMessage D validated cfg with
  | error e =>
    apply Follows.step (messageNext_updateStatus.trans update_rejected)
    intro _
    obtain rfl := Mail.buildMessage_error D hb
    exact ⟨⟨_, _, rfl, rfl, Or.inl rfl, rfl⟩, fun _ h => nomatch h⟩
  | ok message => exact follows_sendMessage

theorem follows_checkRates {auth : AuthContext} {φ : LPhase} :
    Follows (messageNext rid) (fun _ φ' => φ' = φ) φ (checkRates auth) := by
  apply Follows.step (ψ := φ) rfl
  intro global
  cases global with
  | error retryAfter => rfl
  | ok _ =>
    apply Follows.step (ψ := φ) rfl
    intro ip
    cases ip with
    | error retryAfter => rfl
    | ok _ => exact Follows.step (ψ := φ) rfl fun _ => rfl

/-- The validator's errors are all stored under one code. -/
theorem storedCode_validation {req : MailRequest} {cfg : AppConfig} {auth : AuthContext}
    {e : AppError} (h : Validation.validateMailRequest D req cfg auth = .error e) :
    storedCode e = .validationFailed := by
  rcases Validation.validate_error D h with h | ⟨-, message, rfl⟩
  · obtain ⟨feature, rfl⟩ := Validation.checkFeatureGates_error h
    rfl
  · rfl

theorem follows_sendPayload {auth : AuthContext} {cfg : AppConfig} {payload : MailRequest} :
    Follows (messageNext rid) (SendEnds rid auth.keyId) (.received auth.keyId)
      (sendPayload D rid auth cfg payload) := by
  apply follows_checkRates.seq
  intro rates
  cases rates with
  | error retryAfter => exact follows_refuse rfl
  | ok _ =>
    simp only []
    cases hv : Validation.validateMailRequest D payload cfg auth with
    | error e =>
      apply follows_refuse
      rw [storedCode_validation hv]
      rfl
    | ok validated => exact follows_sendValidated.mono fun _ _ h => h.1

theorem follows_sendReceived {auth : AuthContext} {cfg : AppConfig} {headers : HeaderMap}
    {body : List UInt8} :
    Follows (messageNext rid) (SendEnds rid auth.keyId) (.received auth.keyId)
      (sendReceived D rid auth cfg headers body) := by
  unfold sendReceived
  cases hp : readPayload D cfg headers body with
  | error e =>
    apply follows_refuse
    rcases readPayload_error hp with rfl | rfl | rfl <;> rfl
  | ok payload => exact follows_sendPayload

theorem follows_sendMail {auth : AuthContext} {headers : HeaderMap} {body : List UInt8} :
    Follows (messageNext rid) (SendEnds rid auth.keyId) .fresh
      (sendMail D rid auth headers body) := by
  apply Follows.step (ψ := .fresh) rfl
  intro cfg
  apply follows_putNewReceived.bind
  intro _ φ hφ
  rw [hφ]
  exact follows_sendReceived

/-! ## `send_bulk` -/

/-- How a message result and the record of the message end. -/
def MessageEnds (rid : RequestId) (keyId : String) (result : MessageResult) (φ : LPhase) : Prop :=
  ∃ status code, φ = .ended keyId status code ∧ result.requestId = rid.asStr ∧
    (result.status = "accepted" ∧ status = .smtpAccepted ∨
      result.status = "rejected" ∧ (status = .rejected ∨ status = .smtpFailed))

/-- Phase 1 rejects the message for good, or leaves it to be submitted. -/
def PrepareEnds (rid : RequestId) (keyId : String) :
    Except MessageResult PreparedMessage → LPhase → Prop
  | .error result, φ => MessageEnds rid keyId result φ
  | .ok p, φ => p.reqId = rid ∧ p.keyId = keyId ∧ φ = .received keyId

theorem follows_rateLimitedMessage {index : Nat} {auth : AuthContext} {cfg : AppConfig}
    {text : String} :
    Follows (messageNext rid) (PrepareEnds rid auth.keyId) .fresh
      (rateLimitedMessage index rid auth cfg text) := by
  have hstore : Follows (messageNext rid)
      (fun _ φ => φ = .ended auth.keyId .rejected (some .rateLimited)) .fresh
      (storeRejected rid auth.keyId .rateLimited text cfg.status.ttlSeconds) := by
    apply follows_putNewReceived.bind
    intro _ φ hφ
    rw [hφ]
    exact Follows.step (messageNext_updateStatus.trans update_rejected) fun _ => rfl
  apply hstore.bind
  intro _ φ hφ
  exact ⟨_, _, hφ, rfl, Or.inr ⟨rfl, Or.inl rfl⟩⟩

theorem follows_prepareValidated {index : Nat} {auth : AuthContext} {cfg : AppConfig}
    {validated : ValidatedMailRequest} :
    Follows (messageNext rid) (PrepareEnds rid auth.keyId) (.received auth.keyId)
      (prepareValidated D index rid auth cfg validated) := by
  apply Follows.step messageNext_setRecipientMetadata
  intro _
  cases hb : Mail.buildMessage D validated cfg with
  | error e =>
    apply Follows.step (messageNext_updateStatus.trans update_rejected)
    intro _
    exact ⟨_, _, rfl, rfl, Or.inr ⟨rfl, Or.inl rfl⟩⟩
  | ok message => exact ⟨rfl, rfl, rfl⟩

theorem follows_prepareAdmitted {index : Nat} {rawMsg : MailRequest} {auth : AuthContext}
    {cfg : AppConfig} :
    Follows (messageNext rid) (PrepareEnds rid auth.keyId) .fresh
      (prepareAdmitted D index rawMsg rid auth cfg) := by
  apply follows_putNewReceived.bind
  intro _ φ hφ
  rw [hφ]
  cases hv : Validation.validateMailRequest D rawMsg cfg auth with
  | error e =>
    apply Follows.step (messageNext_updateStatus.trans update_rejected)
    intro _
    exact ⟨_, _, rfl, rfl, Or.inr ⟨rfl, Or.inl rfl⟩⟩
  | ok validated => exact follows_prepareValidated

theorem follows_phase1Prepare {index : Nat} {rawMsg : MailRequest} {auth : AuthContext}
    {cfg : AppConfig} :
    Follows (messageNext rid) (PrepareEnds rid auth.keyId) .fresh
      (phase1Prepare D index rawMsg rid auth cfg) := by
  apply Follows.step (ψ := .fresh) rfl
  intro global
  cases global with
  | error _ => exact follows_rateLimitedMessage
  | ok _ =>
    apply Follows.step (ψ := .fresh) rfl
    intro ip
    cases ip with
    | error _ => exact follows_rateLimitedMessage
    | ok _ =>
      apply Follows.step (ψ := .fresh) rfl
      intro key
      cases key with
      | error _ => exact follows_rateLimitedMessage
      | ok _ => exact follows_prepareAdmitted

theorem follows_phase2Submit {cfg : AppConfig} {p : PreparedMessage} :
    Follows (messageNext p.reqId) (MessageEnds p.reqId p.keyId) (.received p.keyId)
      (phase2Submit cfg p) := by
  apply Follows.step (messageNext_updateStatus.trans update_started)
  intro _
  have hsubmit : Follows (messageNext p.reqId) (fun _ φ => φ = .started p.keyId)
      (.started p.keyId) (submitByMode cfg p.message) := by
    unfold submitByMode
    split
    · exact Follows.step (ψ := .started p.keyId) rfl fun _ => rfl
    · exact Follows.step (ψ := .started p.keyId) rfl fun _ => rfl
  apply hsubmit.seq
  intro result
  cases result with
  | ok _ =>
    apply Follows.step (messageNext_updateStatus.trans update_accepted)
    intro _
    exact ⟨_, _, rfl, rfl, Or.inl ⟨rfl, rfl⟩⟩
  | error e =>
    apply Follows.step (messageNext_updateStatus.trans update_failed)
    intro _
    exact ⟨_, _, rfl, rfl, Or.inr ⟨rfl, Or.inr rfl⟩⟩

end HttpSmtpRele
