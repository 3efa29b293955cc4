import HttpSmtpRele.ServerSession

/-!
# The session of a submission

Where a submission stands, as a thread of the server carries it out: which tiers
of the limiter have let it pass, under which config it runs, what it has handed
to a transport and whether the transport answered that it took it.  Only a message
that the validator and the builder made under that config is handed over, once,
after all three tiers (`Attempt.Next`), and what the handler answers is what it
saw happen (`obeys_sendMail`, `obeys_phase1Prepare`, `obeys_phase2Submit`).
-/

namespace HttpSmtpRele

open Prog Api

inductive Stage
  | unchecked
  | passedGlobal
  | passedIp
  | admitted
  /-- its record says that it is being submitted -/
  | started
  /-- a tier has refused it, or its record says that it is rejected -/
  | refused
  | handed (h : Handed) (sent : Bool)

structure Attempt where
  auth : AuthContext
  /-- the config snapshot, once it is taken -/
  cfg : Option AppConfig
  stage : Stage

/-- The message was made of a request that is valid under the config. -/
def Authorised (D : Deps) (cfg : AppConfig) (auth : AuthContext) (message : Message) : Prop :=
  ∃ req v, Validation.validateMailRequest D req cfg auth = .ok v ∧
    Mail.buildMessage D v cfg = .ok message

namespace Handed

def message : Handed → Message
  | smtp message => message
  | pipe _ message => message

/-- The config has the message go this way: a command is run in pipe mode only, and only its own. -/
def UsesTransport (cfg : AppConfig) : Handed → Prop
  | smtp _ => True
  | pipe command _ => cfg.smtp.mode = "pipe" ∧ command = cfg.smtp.pipeCommand

end Handed

/-- What an answer says about the message. -/
inductive Told
  | accepted
  /-- a transport was given it, and did not answer that it took it -/
  | failed
  /-- it never got to a transport -/
  | refused
  deriving DecidableEq

def Stage.told : Stage → Told
  | handed _ true => .accepted
  | handed _ false => .failed
  | _ => .refused

/-- `202`, `502`, or any other status. -/
def sendTold : SendResult → Told
  | .ok _ => .accepted
  | .error err => if err.source.httpStatus = 502 then .failed else .refused

def messageTold (result : MessageResult) : Told :=
  if result.status = "accepted" then .accepted
  else if result.code = some "smtp_unavailable" then .failed
  else .refused

/-- A status that is written to the record is true. -/
def Stage.report (stage : Stage) : SubmissionStatus → Option Stage
  | .received => none
  | .rejected => if stage.told = .refused then some .refused else none
  | .smtpSubmissionStarted =>
    match stage with
    | admitted => some .started
    | _ => none
  | .smtpAccepted => if stage.told = .accepted then some stage else none
  | .smtpFailed => if stage.told = .failed then some stage else none

/-- A report is about what has been handed over, and hands nothing over. -/
theorem Stage.report_cases {stage stage' : Stage} {status : SubmissionStatus}
    (h : stage.report status = some stage') :
    (status = .rejected ∧ stage.told = .refused ∧ stage' = .refused) ∨
      (status = .smtpSubmissionStarted ∧ stage = .admitted ∧ stage' = .started) ∨
      (status = .smtpAccepted ∧ stage.told = .accepted ∧ stage' = stage) ∨
      (status = .smtpFailed ∧ stage.told = .failed ∧ stage' = stage) := by
  cases status with
  | received => cases h
  | rejected =>
    obtain ⟨htold, hstage⟩ := Option.ite_none_right_eq_some.mp h
    exact Or.inl ⟨rfl, htold, (Option.some.inj hstage).symm⟩
  | smtpSubmissionStarted =>
    cases stage with
    | admitted => exact Or.inr (Or.inl ⟨rfl, rfl, (Option.some.inj h).symm⟩)
    | _ => cases h
  | smtpAccepted =>
    obtain ⟨htold, hstage⟩ := Option.ite_none_right_eq_some.mp h
    exact Or.inr (Or.inr (Or.inl ⟨rfl, htold, (Option.some.inj hstage).symm⟩))
  | smtpFailed =>
    obtain ⟨htold, hstage⟩ := Option.ite_none_right_eq_some.mp h
    exact Or.inr (Or.inr (Or.inr ⟨rfl, htold, (Option.some.inj hstage).symm⟩))

namespace Attempt

/-- The submission may hand over the message. -/
structure MayHand (D : Deps) (s : Attempt) (h : Handed) : Prop where
  stage : s.stage = .started
  authorised : ∃ cfg, s.cfg = some cfg ∧ Authorised D cfg s.auth h.message ∧ h.UsesTransport cfg

/-- The operations of a submission, and where their answers take it. -/
def Next (D : Deps) (s : Attempt) : (op : Op) → op.Res → Attempt → Prop
  | .config, cfg, s' => s.cfg = none ∧ s' = { s with cfg := some cfg }
  | .now, _, s' => s' = s
  | .putReceived record, _, s' => record.keyId = s.auth.keyId ∧ s' = s
  | .setRecipientMetadata _ keyId _ _, _, s' => keyId = s.auth.keyId ∧ s' = s
  | .updateStatus _ keyId update, _, s' => keyId = s.auth.keyId ∧
      ∃ stage', s.stage.report update.status = some stage' ∧ s' = { s with stage := stage' }
  | .getRead _ _, _, _ => False
  | .getExpire _, _, _ => False
  | .expireOldRecords _, _, _ => False
  | .checkGlobal, r, s' => s.stage = .unchecked ∧
      s' = { s with stage := if r.isOk then .passedGlobal else .refused }
  | .checkIp ip, r, s' => s.stage = .passedGlobal ∧ ip = s.auth.clientIp ∧
      s' = { s with stage := if r.isOk then .passedIp else .refused }
  | .checkKey keyId perMin burst, r, s' => s.stage = .passedIp ∧ keyId = s.auth.keyId ∧
      perMin = s.auth.keyRateLimitPerMin ∧ burst = s.auth.keyBurst ∧
      s' = { s with stage := if r.isOk then .admitted else .refused }
  | .smtpSend message _, r, s' => s.MayHand D (.smtp message) ∧
      s' = { s with stage := .handed (.smtp message) (r == .sent) }
  | .pipeSend message command _, r, s' => s.MayHand D (.pipe command message) ∧
      s' = { s with stage := .handed (.pipe command message) (r == .sent) }

theorem auth_next {D : Deps} {s s' : Attempt} {op : Op} {r : op.Res} (h : s.Next D op r s') :
    s'.auth = s.auth := by
  cases op with
  | config => rw [h.2]
  | now => rw [show s' = s from h]
  | putReceived record => rw [h.2]
  | setRecipientMetadata id keyId domains count => rw [h.2]
  | updateStatus id keyId update =>
    obtain ⟨-, stage', -, rfl⟩ := h
    rfl
  | getRead id keyId => cases h
  | getExpire id => cases h
  | expireOldRecords now => cases h
  | checkGlobal => rw [h.2]
  | checkIp ip => rw [h.2.2]
  | checkKey keyId perMin burst => rw [h.2.2.2.2]
  | smtpSend message timeout => rw [h.2]
  | pipeSend message command timeout => rw [h.2]

/-! ## The handlers -/

variable {D : Deps} {rid : RequestId} {auth : AuthContext} {cfg : AppConfig}

/-- A submission that has taken its config. -/
abbrev under (auth : AuthContext) (cfg : AppConfig) (stage : Stage) : Attempt :=
  ⟨auth, some cfg, stage⟩

theorem obeys_putNewReceived {ttl : Nat} {s : Attempt} (hkey : s.auth = auth) :
    Obeys (Next D) (fun _ s' => s' = s) s (putNewReceived rid auth.keyId ttl) := by
  unfold putNewReceived
  apply Obeys.perform (ψ := fun _ => s) (fun _ => rfl)
  intro now
  cases h : SubmissionStatusRecord.newReceived rid auth.keyId ttl now with
  | none => trivial
  | some record =>
    obtain ⟨-, hrecord, -, -⟩ := SubmissionStatusRecord.newReceived_eq_some h
    exact Obeys.keep (fun _ => ⟨by rw [hrecord, hkey], rfl⟩) fun _ => rfl

theorem obeys_report {α : Type} {Q : α → Attempt → Prop} {id : RequestId} {keyId : String}
    {update : StatusUpdate} {f : Unit → RelayM α} {stage stage' : Stage} (hkey : keyId = auth.keyId)
    (hreport : stage.report update.status = some stage')
    (hf : Obeys (Next D) Q (under auth cfg stage') (f ())) :
    Obeys (Next D) Q (under auth cfg stage) (Relay.updateStatus id keyId update >>= f) :=
  fun _ => ⟨under auth cfg stage', ⟨hkey, stage', hreport, rfl⟩, hf⟩

theorem obeys_refuse {stored answered : AppError} {stage : Stage} (hstage : stage.told = .refused)
    (hstatus : answered.httpStatus ≠ 502) :
    Obeys (Next D) (fun res s => s.stage.told = sendTold res) (under auth cfg stage)
      (refuse rid auth stored answered) := by
  have hreport : stage.report .rejected = some .refused := if_pos hstage
  apply obeys_report rfl hreport
  show Told.refused = sendTold (.error ⟨rid, answered⟩)
  rw [sendTold, if_neg hstatus]

theorem outcomeResult_told (outcome : SmtpOutcome) :
    (match Smtp.outcomeResult outcome with
      | .ok _ => outcome = .sent
      | .error e => outcome ≠ .sent ∧ e.httpStatus = 502) := by
  cases outcome with
  | sent => rfl
  | error text =>
    cases hr : Smtp.isRejection text <;> simp [Smtp.outcomeResult, hr, AppError.httpStatus]
  | elapsed => simp [Smtp.outcomeResult, AppError.httpStatus]

theorem obeys_sendMessage {message : Message} (hauth : Authorised D cfg auth message) :
    Obeys (Next D) (fun res s => s.stage.told = sendTold res) (under auth cfg .admitted)
      (sendMessage rid auth cfg message) := by
  unfold sendMessage Smtp.submit
  apply obeys_report rfl rfl
  simp only [bind_assoc]
  apply Obeys.perform (fun _ => ⟨⟨rfl, cfg, rfl, hauth, trivial⟩, rfl⟩)
  intro outcome
  have htold := outcomeResult_told outcome
  simp only [pure_eq, ret_bind]
  cases hres : Smtp.outcomeResult outcome with
  | ok _ =>
    rw [hres] at htold
    obtain rfl : outcome = .sent := htold
    exact obeys_report rfl rfl rfl
  | error appErr =>
    rw [hres] at htold
    obtain ⟨hne, hstatus⟩ : outcome ≠ .sent ∧ appErr.httpStatus = 502 := htold
    rw [beq_eq_false_iff_ne.mpr hne]
    apply obeys_report rfl rfl
    show Told.failed = sendTold (.error ⟨rid, appErr⟩)
    rw [sendTold, if_pos hstatus]

theorem obeys_sendValidated {req : MailRequest} {validated : ValidatedMailRequest}
    (hvalid : Validation.validateMailRequest D req cfg auth = .ok validated) :
    Obeys (Next D) (fun res s => s.stage.told = sendTold res) (under auth cfg .admitted)
      (sendValidated D rid auth cfg validated) := by
  apply Obeys.keep (fun _ => ⟨rfl, rfl⟩)
  intro _
  cases hb : Mail.buildMessage D validated cfg with
  | error e =>
    obtain rfl := Mail.buildMessage_error D hb
    exact obeys_report rfl rfl rfl
  | ok message => exact obeys_sendMessage ⟨req, validated, hvalid, hb⟩

theorem obeys_checkRates :
    Obeys (Next D) (fun rates s => s = under auth cfg (if rates.isOk then .admitted else .refused))
      (under auth cfg .unchecked) (checkRates auth) := by
  intro global
  refine ⟨_, ⟨rfl, rfl⟩, ?_⟩
  cases global with
  | error retryAfter => rfl
  | ok _ =>
    intro ip
    refine ⟨_, ⟨rfl, rfl, rfl⟩, ?_⟩
    cases ip with
    | error retryAfter => rfl
    | ok _ => exact fun key => ⟨_, ⟨rfl, rfl, rfl, rfl, rfl⟩, rfl⟩

/-- The validator's errors do not speak of a transport. -/
theorem validate_status {req : MailRequest} {e : AppError}
    (h : Validation.validateMailRequest D req cfg auth = .error e) :
    e.httpStatus ≠ 502 ∧ apperrToCode e ≠ .smtpUnavailable := by
  rcases Validation.validate_error D h with h | ⟨-, message, rfl⟩
  · obtain ⟨feature, rfl⟩ := Validation.checkFeatureGates_error h
    exact ⟨by simp [AppError.httpStatus], by simp [apperrToCode]⟩
  · exact ⟨by simp [AppError.httpStatus], by simp [apperrToCode]⟩

theorem obeys_sendPayload {payload : MailRequest} :
    Obeys (Next D) (fun res s => s.stage.told = sendTold res) (under auth cfg .unchecked)
      (sendPayload D rid auth cfg payload) := by
  apply obeys_checkRates.bind
  intro rates s hs
  rw [hs]
  cases rates with
  | error retryAfter => exact obeys_refuse rfl (by simp [AppError.httpStatus])
  | ok _ =>
    simp only []
    cases hv : Validation.validateMailRequest D payload cfg auth with
    | error e => exact obeys_refuse rfl (validate_status hv).1
    | ok validated => exact obeys_sendValidated hv

theorem obeys_sendMail {headers : HeaderMap} {body : List UInt8} :
    Obeys (Next D) (fun res s => s.stage.told = sendTold res) ⟨auth, none, .unchecked⟩
      (sendMail D rid auth headers body) := by
  intro cfg
  refine ⟨under auth cfg .unchecked, ⟨rfl, rfl⟩, ?_⟩
  apply (obeys_putNewReceived rfl).seq
  intro _
  unfold sendReceived
  cases hp : readPayload D cfg headers body with
  | error e =>
    apply obeys_refuse rfl
    rcases readPayload_error hp with rfl | rfl | rfl <;> decide
  | ok payload => exact obeys_sendPayload

/-- Phase 1 rejects a message that no transport has, or leaves it ready to be handed over. -/
def Prepared (D : Deps) (auth : AuthContext) (cfg : AppConfig) :
    Except MessageResult PreparedMessage → Attempt → Prop
  | .error result, s => s.stage.told = messageTold result
  | .ok p, s => s = under auth cfg .admitted ∧ p.keyId = auth.keyId ∧
      Authorised D cfg auth p.message

theorem messageTold_rejected {index : Nat} {code : ErrorCode} {text : String}
    (h : code ≠ .smtpUnavailable) : messageTold (rejectedResult index rid code text) = .refused := by
  have hcode : (rejectedResult index rid code text).code ≠ some "smtp_unavailable" := by
    intro he
    exact h (ErrorCode.asStr_injective (Option.some.inj he))
  rw [messageTold, if_neg (by simp [rejectedResult]), if_neg hcode]

theorem obeys_rateLimitedMessage {index : Nat} {text : String} :
    Obeys (Next D) (Prepared D auth cfg) (under auth cfg .refused)
      (rateLimitedMessage index rid auth cfg text) := by
  have hstore : Obeys (Next D) (fun _ s => s = under auth cfg .refused) (under auth cfg .refused)
      (storeRejected rid auth.keyId .rateLimited text cfg.status.ttlSeconds) := by
    apply (obeys_putNewReceived rfl).seq
    intro _
    exact obeys_report rfl rfl rfl
  apply hstore.seq
  intro _
  exact (messageTold_rejected (by decide)).symm

theorem obeys_prepareAdmitted {index : Nat} {rawMsg : MailRequest} :
    Obeys (Next D) (Prepared D auth cfg) (under auth cfg .admitted)
      (prepareAdmitted D index rawMsg rid auth cfg) := by
  apply (obeys_putNewReceived rfl).seq
  intro _
  cases hv : Validation.validateMailRequest D rawMsg cfg auth with
  | error e => exact obeys_report rfl rfl (messageTold_rejected (validate_status hv).2).symm
  | ok validated =>
    apply Obeys.keep (fun _ => ⟨rfl, rfl⟩)
    intro _
    cases hb : Mail.buildMessage D validated cfg with
    | error e => exact obeys_report rfl rfl (messageTold_rejected (by decide)).symm
    | ok message => exact ⟨rfl, rfl, rawMsg, validated, hv, hb⟩

theorem obeys_phase1Prepare {index : Nat} {rawMsg : MailRequest} :
    Obeys (Next D) (Prepared D auth cfg) (under auth cfg .unchecked)
      (phase1Prepare D index rawMsg rid auth cfg) := by
  intro global
  refine ⟨_, ⟨rfl, rfl⟩, ?_⟩
  cases global with
  | error _ => exact obeys_rateLimitedMessage
  | ok _ =>
    intro ip
    refine ⟨_, ⟨rfl, rfl, rfl⟩, ?_⟩
    cases ip with
    | error _ => exact obeys_rateLimitedMessage
    | ok _ =>
      intro key
      refine ⟨_, ⟨rfl, rfl, rfl, rfl, rfl⟩, ?_⟩
      cases key with
      | error _ => exact obeys_rateLimitedMessage
      | ok _ => exact obeys_prepareAdmitted

/-- What a transport answers, and what `submit` and `submit_pipe` make of it. -/
theorem obeys_submitByMode {message : Message} (hauth : Authorised D cfg auth message) :
    Obeys (Next D) (fun result s => ∃ h, s = under auth cfg (.handed h result.isOk))
      (under auth cfg .started) (submitByMode cfg message) := by
  unfold submitByMode
  split
  · rename_i hmode
    intro outcome
    refine ⟨_, ⟨⟨rfl, cfg, rfl, hauth, hmode, rfl⟩, rfl⟩, .pipe cfg.smtp.pipeCommand message, ?_⟩
    cases outcome <;> rfl
  · intro outcome
    refine ⟨_, ⟨⟨rfl, cfg, rfl, hauth, trivial⟩, rfl⟩, .smtp message, ?_⟩
    have htold := outcomeResult_told outcome
    cases hres : Smtp.outcomeResult outcome with
    | ok _ =>
      rw [hres] at htold
      rw [show outcome = .sent from htold]
      rfl
    | error e =>
      rw [hres] at htold
      rw [beq_eq_false_iff_ne.mpr htold.1]
      rfl

theorem obeys_phase2Submit {p : PreparedMessage} (hkey : p.keyId = auth.keyId)
    (hauth : Authorised D cfg auth p.message) :
    Obeys (Next D) (fun result s => s.stage.told = messageTold result) (under auth cfg .admitted)
      (phase2Submit cfg p) := by
  apply obeys_report hkey rfl
  apply (obeys_submitByMode hauth).bind
  rintro result _ ⟨h, rfl⟩
  cases result with
  | ok _ => exact obeys_report hkey rfl rfl
  | error e => exact obeys_report hkey rfl rfl

end Attempt

end HttpSmtpRele
