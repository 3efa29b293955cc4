import HttpSmtpRele.ConfigValidate
import HttpSmtpRele.RefusalCode

/-!
# One message through `/v1/send` and through `/v1/send-bulk`

The two handlers process one message under the same circumstances: the same
state, one moment, one answer of the transports.  `Outcome` is what can be seen
of it afterwards.  `Alike` is when the outcomes agree; it leaves little, since
the two handlers store different texts for all but one of their outcomes.
-/

namespace HttpSmtpRele

open Prog Api

variable {ρ : Type}

/-- What the client is told, with the external code of a refusal. -/
inductive Verdict
  | accepted
  | refused (code : String)
  deriving DecidableEq

/-- What a record says about the outcome. -/
structure StoredOutcome where
  status : SubmissionStatus
  code : Option ErrorCode
  message : Option String
  recipientDomains : List Domain
  recipientCount : Nat
  deriving DecidableEq

def SubmissionStatusRecord.storedOutcome (r : SubmissionStatusRecord) : StoredOutcome where
  status := r.status
  code := r.code
  message := r.message
  recipientDomains := r.recipientDomains
  recipientCount := r.recipientCount

/-- `verdict` is `none` if the handler panicked. -/
structure Outcome (ρ : Type) where
  verdict : Option Verdict
  rateLimiter : ρ
  record : Option StoredOutcome
  handed : List Handed

def sendVerdict : SendResult → Verdict
  | .ok _ => .accepted
  | .error err => .refused err.source.errorCode.asStr

def messageVerdict (r : MessageResult) : Verdict :=
  if r.status = "accepted" then .accepted else .refused (r.code.getD "")

/-- The verdict on the only message. -/
def bulkVerdict : Except AppError BulkResponse → Verdict
  | .error e => .refused e.errorCode.asStr
  | .ok response => (response.results.head?.map messageVerdict).getD (.refused "")

/-- What can be seen of a program that runs on `w` in the circumstances `c`. -/
def outcomeOf {α : Type} (L : Limiter ρ) (c : Choice) (rid : RequestId) (verdict : α → Verdict)
    (p : RelayM α) (w : World ρ) : Outcome ρ :=
  let (a, w') := run (exec L) p (fun _ => c) w
  { verdict := a.map verdict
    rateLimiter := w'.app.rateLimiter
    record := (w'.find rid).map SubmissionStatusRecord.storedOutcome
    handed := w'.handed }

def singleOutcome (D : Deps) (L : Limiter ρ) (w : World ρ) (rid : RequestId) (auth : AuthContext)
    (headers : HeaderMap) (body : List UInt8) (c : Choice) : Outcome ρ :=
  outcomeOf L c rid sendVerdict (sendMail D rid auth headers body) w

def bulkOutcome (D : Deps) (L : Limiter ρ) (w : World ρ) (bulkId rid : RequestId)
    (auth : AuthContext) (m : MailRequest) (c : Choice) : Outcome ρ :=
  outcomeOf L c rid bulkVerdict (sendBulk D bulkId auth [m] [rid]) w

/-! ## When they agree -/

/-- The store is off, or the TTL wraps to a negative one and the record is born expired. -/
def Unrecorded (w : World ρ) : Prop :=
  w.app.statusStore = .noop ∨ Chrono.asI64 w.app.config.status.ttlSeconds < 0

/-- Rate limits and validation pass, and `build_message` fails. -/
def BuildFails (D : Deps) (L : Limiter ρ) (w : World ρ) (auth : AuthContext) (m : MailRequest)
    (c : Choice) : Prop :=
  Admits L auth (fun _ => c) w.app.rateLimiter ∧
    ∃ v e, Validation.validateMailRequest D m w.app.config auth = .ok v ∧
      Mail.buildMessage D v w.app.config = .error e

/-- The handlers differ in what they answer or in where they send. -/
def AnswersDiffer (D : Deps) (L : Limiter ρ) (w : World ρ) (auth : AuthContext) (m : MailRequest)
    (c : Choice) : Prop :=
  Admits L auth (fun _ => c) w.app.rateLimiter ∧
    (Validation.checkFeatureGates m w.app.config.mail ≠ .ok () ∨
      ∃ v message, Validation.validateMailRequest D m w.app.config auth = .ok v ∧
        Mail.buildMessage D v w.app.config = .ok message ∧
        (w.app.config.smtp.mode = "pipe" ∨ Smtp.outcomeResult c.smtp = .error .smtpRejected))

structure Alike (D : Deps) (L : Limiter ρ) (w : World ρ) (auth : AuthContext) (m : MailRequest)
    (c : Choice) : Prop where
  count : 1 ≤ w.app.config.mail.maxBulkMessages
  permits : w.app.config.smtp.bulkConcurrency ≤ maxPermits
  dates : (Chrono.addSeconds c.utc w.app.config.status.ttlSeconds).isSome
  same : BuildFails D L w auth m c ∨ Unrecorded w ∧ ¬AnswersDiffer D L w auth m c

namespace BulkAgreement

variable {D : Deps} {L : Limiter ρ} {w : World ρ} {rid bulkId : RequestId} {auth : AuthContext}
  {m : MailRequest} {cfg : AppConfig} {c : Choice}

/-! ## Rate limits -/

/-- The three checks at one instant: of a refusal the `retry_after_secs` and the text of
the bulk handler. -/
def checkTiers (L : Limiter ρ) (auth : AuthContext) (c : Choice) (l : ρ) :
    Except (Nat × String) Unit × ρ :=
  match L.checkGlobal c.instant l with
  | (.error retryAfter, l) => (.error (retryAfter, "Global rate limit exceeded."), l)
  | (.ok (), l) =>
    match L.checkIp auth.clientIp c.instant l with
    | (.error retryAfter, l) => (.error (retryAfter, "IP rate limit exceeded."), l)
    | (.ok (), l) =>
      match L.checkKey auth.keyId auth.keyRateLimitPerMin auth.keyBurst c.instant l with
      | (.error retryAfter, l) => (.error (retryAfter, "Per-key rate limit exceeded."), l)
      | (.ok (), l) => (.ok (), l)

theorem checkTiers_ok_iff {l : ρ} :
    (checkTiers L auth c l).1 = .ok () ↔ Admits L auth (fun _ => c) l := by
  unfold checkTiers Admits
  rcases hglobal : L.checkGlobal c.instant l with ⟨_ | _, l₁⟩
  · simp
  · rcases hip : L.checkIp auth.clientIp c.instant l₁ with ⟨_ | _, l₂⟩
    · simp [hip]
    · rcases hkey : L.checkKey auth.keyId auth.keyRateLimitPerMin auth.keyBurst c.instant l₂
        with ⟨_ | _, l₃⟩ <;> simp [hip, hkey]

/-- The text is none that a new record carries. -/
theorem checkTiers_text {l : ρ} {retryAfter : Nat} {text : String}
    (h : (checkTiers L auth c l).1 = .error (retryAfter, text)) : text ≠ "Submission received." := by
  unfold checkTiers at h
  split at h
  · cases h
    decide
  · split at h
    · cases h
      decide
    · split at h
      · cases h
        decide
      · cases h

/-- What `send_mail` does once the record is put. -/
def singleReceived (D : Deps) (rid : RequestId) (auth : AuthContext) (cfg : AppConfig)
    (m : MailRequest) : Except (Nat × String) Unit → RelayM SendResult
  | .error (retryAfter, _) => refuse rid auth (.rateLimited none) (.rateLimited (some retryAfter))
  | .ok () =>
    match Validation.validateMailRequest D m cfg auth with
    | .error e => refuse rid auth (.validation "") e
    | .ok validated => sendValidated D rid auth cfg validated

theorem run_sendPayload :
    run (exec L) (sendPayload D rid auth cfg m) (fun _ => c) w =
      run (exec L) (singleReceived D rid auth cfg m (checkTiers L auth c w.app.rateLimiter).1)
        (fun _ => c) (w.setLimiter (checkTiers L auth c w.app.rateLimiter).2) := by
  unfold checkTiers sendPayload
  simp only [checkRates, perform_bind, step_bind, run_step, exec_checkGlobal]
  rcases L.checkGlobal c.instant w.app.rateLimiter with ⟨_ | _, l₁⟩
  · rfl
  · simp only [step_bind, run_step, exec_checkIp, rateLimiter_setLimiter, setLimiter_setLimiter]
    rcases L.checkIp auth.clientIp c.instant l₁ with ⟨_ | _, l₂⟩
    · rfl
    · simp only [perform_bind, run_step, exec_checkKey, rateLimiter_setLimiter,
        setLimiter_setLimiter]
      rcases L.checkKey auth.keyId auth.keyRateLimitPerMin auth.keyBurst c.instant l₂
        with ⟨_ | _, l₃⟩ <;> rfl

theorem run_phase1Prepare {index : Nat} :
    run (exec L) (phase1Prepare D index m rid auth cfg) (fun _ => c) w =
      run (exec L)
        (match (checkTiers L auth c w.app.rateLimiter).1 with
          | .error (_, text) => rateLimitedMessage index rid auth cfg text
          | .ok () => prepareAdmitted D index m rid auth cfg)
        (fun _ => c) (w.setLimiter (checkTiers L auth c w.app.rateLimiter).2) := by
  unfold checkTiers phase1Prepare
  simp only [perform_bind, run_step, exec_checkGlobal]
  rcases L.checkGlobal c.instant w.app.rateLimiter with ⟨_ | _, l₁⟩
  · rfl
  · simp only [run_step, exec_checkIp, rateLimiter_setLimiter, setLimiter_setLimiter]
    rcases L.checkIp auth.clientIp c.instant l₁ with ⟨_ | _, l₂⟩
    · rfl
    · simp only [run_step, exec_checkKey, rateLimiter_setLimiter, setLimiter_setLimiter]
      rcases L.checkKey auth.keyId auth.keyRateLimitPerMin auth.keyBurst c.instant l₂
        with ⟨_ | _, l₃⟩ <;> rfl

/-! ## Both handlers up to the validator -/

/-- What the bulk handler does for its only message, once the record is put. -/
def bulkReceived (D : Deps) (rid : RequestId) (auth : AuthContext) (cfg : AppConfig)
    (m : MailRequest) : Except (Nat × String) Unit → RelayM MessageResult
  | .error (_, text) => do
    Relay.updateStatus rid auth.keyId
      { status := .rejected, code := some .rateLimited, message := some text }
    return rejectedResult 0 rid .rateLimited text
  | .ok () =>
    match Validation.validateMailRequest D m cfg auth with
    | .error e => do
      Relay.updateStatus rid auth.keyId
        { status := .rejected
          code := some (apperrToCode e)
          message := some "Request rejected during validation." }
      return rejectedResult 0 rid (apperrToCode e) e.display
    | .ok validated => do
      match ← prepareValidated D 0 rid auth cfg validated with
      | .error result => return result
      | .ok p => phase2Submit cfg p

/-- With `bulk_concurrency` zero, one message takes one permit. -/
theorem newSemaphore_singleton {prepared : List PreparedMessage} (h : prepared.length ≤ 1) :
    newSemaphore (bulkConcurrency cfg prepared) =
      if cfg.smtp.bulkConcurrency ≤ maxPermits then .ret () else .abort := by
  unfold newSemaphore bulkConcurrency
  split
  · rename_i hzero
    have hone : max prepared.length 1 ≤ maxPermits := by
      simp only [maxPermits]
      omega
    rw [if_pos hone, hzero, if_pos (Nat.zero_le _)]
    rfl
  · rfl

theorem sendBulk_singleton :
    sendBulk D bulkId auth [m] [rid] = (do
      let cfg ← Relay.config
      match checkBulk cfg [m] with
      | .error e => return .error e
      | .ok () =>
        if cfg.smtp.bulkConcurrency ≤ maxPermits then
          bulkMessage D 0 rid auth cfg m >>= fun r =>
            .ret (.ok (bulkResponse bulkId 1 [r] []))
        else phase1Prepare D 0 m rid auth cfg >>= fun _ => .abort) := by
  unfold sendBulk
  congr 1
  funext cfg
  cases checkBulk cfg [m] with
  | error e => rfl
  | ok _ =>
    simp only [bulkItems, List.zip_cons_cons, List.zip_nil_right, List.mapIdx_cons,
      List.mapIdx_nil, phase1Loop, bulkMessage, Prog.bind_assoc, ret_bind, pure_eq]
    by_cases hpermits : cfg.smtp.bulkConcurrency ≤ maxPermits
    · rw [if_pos hpermits]
      congr 1
      funext outcome
      cases outcome with
      | error r => simp [newSemaphore_singleton, hpermits, phase2InOrder]
      | ok p =>
        simp [newSemaphore_singleton, hpermits, phase2InOrder, Prog.bind_assoc]
        rfl
    · rw [if_neg hpermits]
      congr 1
      funext outcome
      cases outcome with
      | error r => simp [newSemaphore_singleton, hpermits]
      | ok p => simp [newSemaphore_singleton, hpermits]

/-! ## Records that no update reaches -/

/-- Nothing is held, or it has expired. -/
def Dead (t : DateTime) (o : Option SubmissionStatusRecord) : Prop :=
  ∀ r, o = some r → r.isExpired t = true

/-- A new record of the key, if any. -/
def New (keyId : String) (o : Option SubmissionStatusRecord) : Prop :=
  ∀ r, o = some r → r.keyId = keyId ∧ r.status = .received ∧
    r.message = some "Submission received."

theorem Dead.withStatus {t t' : DateTime} {o : Option SubmissionStatusRecord} (h : Dead t o)
    (keyId : String) (u : StatusUpdate) :
    o.map (SubmissionStatusRecord.withStatus keyId u t t') = o := by
  cases o with
  | none => rfl
  | some r =>
    simp [SubmissionStatusRecord.withStatus, SubmissionStatusRecord.Updatable, h r rfl]

theorem Dead.withRecipientMetadata {t t' : DateTime} {o : Option SubmissionStatusRecord}
    (h : Dead t o) (keyId : String) (domains : List Domain) (count : Nat) :
    o.map (SubmissionStatusRecord.withRecipientMetadata keyId domains count t t') = o := by
  cases o with
  | none => rfl
  | some r => simp [SubmissionStatusRecord.withRecipientMetadata, h r rfl]

theorem withStatus_live {t t' : DateTime} {r : SubmissionStatusRecord} {keyId : String}
    {u : StatusUpdate} (hkey : r.keyId = keyId) (hlive : r.isExpired t = false)
    (hstatus : r.status.isTerminal = false) :
    r.withStatus keyId u t t' =
      { r with
        status := u.status
        code := u.code
        message := u.message.or r.message
        updatedAt := t' } := by
  rw [SubmissionStatusRecord.withStatus, if_pos]
  simp [SubmissionStatusRecord.Updatable, hkey, hlive, hstatus]

theorem withRecipientMetadata_live {t t' : DateTime} {r : SubmissionStatusRecord} {keyId : String}
    {domains : List Domain} {count : Nat} (hkey : r.keyId = keyId) (hlive : r.isExpired t = false) :
    r.withRecipientMetadata keyId domains count t t' =
      { r with
        recipientDomains := domains
        recipientCount := count
        updatedAt := t' } :=
  if_pos ⟨hkey, hlive⟩

/-- What differs on a live new record is the same exactly where the record is dead. -/
theorem New.same_iff_dead {t : DateTime} {o : Option SubmissionStatusRecord} {keyId : String}
    {Same : Prop} (hnew : New keyId o) (hdead : Dead t o → Same)
    (hlive : ∀ r, o = some r → r.keyId = keyId → r.isExpired t = false → r.status = .received →
      r.message = some "Submission received." → ¬Same) : Same ↔ Dead t o := by
  refine ⟨fun h r hr => ?_, hdead⟩
  obtain ⟨hkey, hstatus, hmessage⟩ := hnew r hr
  by_contra hexpired
  rw [Bool.not_eq_true] at hexpired
  exact hlive r hr hkey hexpired hstatus hmessage h

/-- Two rejections of a new record with different texts. -/
theorem rejections_agree_iff {t t' : DateTime} {o : Option SubmissionStatusRecord} {keyId : String}
    {u u' : StatusUpdate} (hnew : New keyId o)
    (htext : u.message.or (some "Submission received.") ≠
      u'.message.or (some "Submission received.")) :
    (o.map (SubmissionStatusRecord.withStatus keyId u t t')).map
        SubmissionStatusRecord.storedOutcome =
      (o.map (SubmissionStatusRecord.withStatus keyId u' t t')).map
        SubmissionStatusRecord.storedOutcome ↔ Dead t o := by
  apply hnew.same_iff_dead
  · intro hdead
    rw [hdead.withStatus, hdead.withStatus]
  · rintro r rfl hkey hlive hstatus hmessage h
    have hterminal : r.status.isTerminal = false := by rw [hstatus]; rfl
    simp only [Option.map_some, Option.some.injEq, withStatus_live hkey hlive hterminal,
      SubmissionStatusRecord.storedOutcome, StoredOutcome.mk.injEq] at h
    rw [hmessage] at h
    exact htext h.2.2.1

/-- The record of a submission: its metadata, its start and its end. -/
def submitted (keyId : String) (domains : List Domain) (count : Nat) (started u : StatusUpdate)
    (t t' : DateTime) (o : Option SubmissionStatusRecord) : Option SubmissionStatusRecord :=
  ((o.map (SubmissionStatusRecord.withRecipientMetadata keyId domains count t t')).map
    (SubmissionStatusRecord.withStatus keyId started t t')).map
    (SubmissionStatusRecord.withStatus keyId u t t')

theorem submitted_live {t t' : DateTime} {r : SubmissionStatusRecord} {keyId : String}
    {domains : List Domain} {count : Nat} {text : Option String} {u : StatusUpdate}
    (hkey : r.keyId = keyId) (hlive : r.isExpired t = false) (hstatus : r.status = .received) :
    (submitted keyId domains count ⟨.smtpSubmissionStarted, none, text⟩ u t t' (some r)).map
        SubmissionStatusRecord.message =
      some (u.message.or (text.or r.message)) := by
  have hdate : t ≤ r.expiresAt := SubmissionStatusRecord.isExpired_eq_false.mp hlive
  simp only [submitted, Option.map_some, withRecipientMetadata_live hkey hlive]
  simp [SubmissionStatusRecord.withStatus, SubmissionStatusRecord.updatable_iff, hkey, hdate,
    hstatus, SubmissionStatus.isTerminal]

/-- Two submissions of a new record whose last texts differ. -/
theorem submissions_agree_iff {t t' : DateTime} {o : Option SubmissionStatusRecord}
    {keyId : String} {domains : List Domain} {count : Nat} {text : Option String}
    {u u' : StatusUpdate} (hnew : New keyId o)
    (htext : u.message.or (some "Submission received.") ≠
      u'.message.or (text.or (some "Submission received."))) :
    (submitted keyId domains count ⟨.smtpSubmissionStarted, none, none⟩ u t t' o).map
        SubmissionStatusRecord.storedOutcome =
      (submitted keyId domains count ⟨.smtpSubmissionStarted, none, text⟩ u' t t' o).map
        SubmissionStatusRecord.storedOutcome ↔ Dead t o := by
  apply hnew.same_iff_dead
  · intro hdead
    unfold submitted
    rw [hdead.withRecipientMetadata, hdead.withStatus, hdead.withStatus, hdead.withStatus,
      hdead.withStatus]
  · rintro r rfl hkey hlive hstatus hmessage h
    have hmessages := congrArg (Option.map StoredOutcome.message) h
    rw [Option.map_map, Option.map_map] at hmessages
    refine htext (Option.some.inj ?_)
    rw [← hmessage]
    exact (submitted_live hkey hlive hstatus).symm.trans
      (hmessages.trans (submitted_live hkey hlive hstatus))

/-! ## After the record is put -/

/-- `put_received` of the new record, and the checks of the limiter. -/
def admittedWorld (L : Limiter ρ) (w : World ρ) (auth : AuthContext) (c : Choice)
    (record : SubmissionStatusRecord) : World ρ :=
  (w.updateStore fun s => s.putReceived c.order record).setLimiter
    (checkTiers L auth c w.app.rateLimiter).2

theorem run_putNewReceived {α : Type} {ttl : Nat} {f : Unit → RelayM α} :
    run (exec L) (putNewReceived rid auth.keyId ttl >>= f) (fun _ => c) w =
      match SubmissionStatusRecord.newReceived rid auth.keyId ttl c.utc with
      | none => (none, w)
      | some record =>
        run (exec L) (f ()) (fun _ => c) (w.updateStore fun s => s.putReceived c.order record) := by
  unfold putNewReceived
  simp only [perform_bind, step_bind, run_step]
  change run (exec L) ((match SubmissionStatusRecord.newReceived rid auth.keyId ttl c.utc with
    | none => .abort | some record => Relay.putReceived record) >>= f) _ w = _
  cases SubmissionStatusRecord.newReceived rid auth.keyId ttl c.utc <;> rfl

/-- `send_mail` once the payload is read. -/
theorem run_sendMail {headers : HeaderMap} {body : List UInt8}
    (hread : readPayload D w.app.config headers body = .ok m) :
    run (exec L) (sendMail D rid auth headers body) (fun _ => c) w =
      match SubmissionStatusRecord.newReceived rid auth.keyId w.app.config.status.ttlSeconds
          c.utc with
      | none => (none, w)
      | some record =>
        run (exec L)
          (singleReceived D rid auth w.app.config m (checkTiers L auth c w.app.rateLimiter).1)
          (fun _ => c) (admittedWorld L w auth c record) := by
  have hstart : run (exec L) (sendMail D rid auth headers body) (fun _ => c) w =
      run (exec L) (putNewReceived rid auth.keyId w.app.config.status.ttlSeconds >>=
        fun _ => sendReceived D rid auth w.app.config headers body) (fun _ => c) w := rfl
  rw [hstart, run_putNewReceived]
  cases SubmissionStatusRecord.newReceived rid auth.keyId w.app.config.status.ttlSeconds c.utc with
  | none => rfl
  | some record =>
    simp only [sendReceived, hread]
    exact run_sendPayload

theorem run_bulkMessage {cfg : AppConfig} :
    run (exec L) (bulkMessage D 0 rid auth cfg m) (fun _ => c) w =
      match SubmissionStatusRecord.newReceived rid auth.keyId cfg.status.ttlSeconds c.utc with
      | none => (none, w.setLimiter (checkTiers L auth c w.app.rateLimiter).2)
      | some record =>
        run (exec L) (bulkReceived D rid auth cfg m (checkTiers L auth c w.app.rateLimiter).1)
          (fun _ => c) (admittedWorld L w auth c record) := by
  unfold bulkMessage
  rw [run_bind_const, run_phase1Prepare]
  cases (checkTiers L auth c w.app.rateLimiter).1 with
  | error refusal =>
    simp only [rateLimitedMessage, storeRejected, bind_assoc]
    rw [run_putNewReceived]
    cases SubmissionStatusRecord.newReceived rid auth.keyId cfg.status.ttlSeconds c.utc <;> rfl
  | ok _ =>
    simp only [prepareAdmitted]
    rw [run_putNewReceived]
    cases SubmissionStatusRecord.newReceived rid auth.keyId cfg.status.ttlSeconds c.utc with
    | none => rfl
    | some record =>
      simp only [bulkReceived]
      cases Validation.validateMailRequest D m cfg auth with
      | error e => rfl
      | ok validated =>
        simp only []
        rw [run_bind_const]
        rfl

/-! ## Branch by branch -/

variable {W : World ρ}

@[simp] theorem messageVerdict_rejected {index : Nat} {code : ErrorCode} {text : String} :
    messageVerdict (rejectedResult index rid code text) = .refused code.asStr := rfl

@[simp] theorem messageVerdict_accepted {index : Nat} :
    messageVerdict (acceptedResult index rid) = .accepted := rfl

@[simp] theorem sendVerdict_error {e : AppError} :
    sendVerdict (.error ⟨rid, e⟩) = .refused e.errorCode.asStr := rfl

/-- A program that is left with one update of the record. -/
theorem outcomeOf_update {α : Type} {verdict : α → Verdict} {u : StatusUpdate} {a : α} :
    outcomeOf L c rid verdict (Relay.updateStatus rid auth.keyId u >>= fun _ => .ret a) W =
      { verdict := some (verdict a)
        rateLimiter := W.app.rateLimiter
        record := ((W.find rid).map (SubmissionStatusRecord.withStatus auth.keyId u c.utc c.utc')).map
          SubmissionStatusRecord.storedOutcome
        handed := W.handed } := by
  rw [← find_updateStatus_self]
  rfl

theorem refused_agree_iff {retryAfter : Nat} {text : String} (hnew : New auth.keyId (W.find rid))
    (htext : text ≠ "Submission received.") :
    outcomeOf L c rid sendVerdict (singleReceived D rid auth cfg m (.error (retryAfter, text))) W =
      outcomeOf L c rid messageVerdict
        (bulkReceived D rid auth cfg m (.error (retryAfter, text))) W ↔
      Dead c.utc (W.find rid) := by
  unfold singleReceived bulkReceived refuse reject
  simp only [pure_eq, outcomeOf_update, Outcome.mk.injEq, true_and, and_true]
  have hcode : storeCodeFromAppError (.rateLimited none) = some .rateLimited := rfl
  rw [hcode, sendVerdict_error, messageVerdict_rejected]
  simp only [AppError.errorCode, true_and]
  exact rejections_agree_iff hnew fun h => htext (Option.some.inj h).symm

/-- The codes of a validation error, external and in bulk, agree unless a feature is off. -/
theorem apperrToCode_eq_iff {e : AppError}
    (h : Validation.validateMailRequest D m cfg auth = .error e) :
    e.errorCode.asStr = (apperrToCode e).asStr ↔
      Validation.checkFeatureGates m cfg.mail = .ok () := by
  rcases Validation.validate_error D h with hgates | ⟨hgates, message, rfl⟩
  · obtain ⟨feature, rfl⟩ := Validation.checkFeatureGates_error hgates
    rw [hgates]
    exact ⟨fun h => absurd h (by simp only [AppError.errorCode, apperrToCode]; decide),
      fun h => nomatch h⟩
  · exact ⟨fun _ => hgates, fun _ => rfl⟩

theorem invalid_agree_iff {e : AppError} (hnew : New auth.keyId (W.find rid))
    (h : Validation.validateMailRequest D m cfg auth = .error e) :
    outcomeOf L c rid sendVerdict (singleReceived D rid auth cfg m (.ok ())) W =
      outcomeOf L c rid messageVerdict (bulkReceived D rid auth cfg m (.ok ())) W ↔
      Dead c.utc (W.find rid) ∧ Validation.checkFeatureGates m cfg.mail = .ok () := by
  unfold singleReceived bulkReceived refuse reject
  simp only [h, pure_eq, outcomeOf_update, Outcome.mk.injEq, true_and, and_true]
  have hcode : storeCodeFromAppError (.validation "") = some .validationFailed := rfl
  rw [hcode, sendVerdict_error, messageVerdict_rejected, Option.some.injEq, Verdict.refused.injEq,
    apperrToCode_eq_iff h, rejections_agree_iff hnew (by simp), and_comm]

/-- `build_message` fails: both handlers do the same. -/
theorem unbuilt_agree {v : ValidatedMailRequest} {e : AppError}
    (hv : Validation.validateMailRequest D m cfg auth = .ok v)
    (hb : Mail.buildMessage D v cfg = .error e) :
    outcomeOf L c rid sendVerdict (singleReceived D rid auth cfg m (.ok ())) W =
      outcomeOf L c rid messageVerdict (bulkReceived D rid auth cfg m (.ok ())) W := by
  obtain rfl := Mail.buildMessage_error D hb
  unfold singleReceived bulkReceived
  simp only [hv, sendValidated, prepareValidated, hb]
  rfl

/-- A program that submits one message: the start, the transport, the end. -/
theorem outcomeOf_submitted {α : Type} {verdict : α → Verdict} {domains : List Domain}
    {count : Nat} {started u : StatusUpdate} {op : Op} {h : Handed} {r : op.Res} {a : α}
    (hop : ∀ w : World ρ, exec L op c w = (r, w.hand h)) {k : op.Res → RelayM α}
    (hk : k r = Relay.updateStatus rid auth.keyId u >>= fun _ => .ret a) :
    outcomeOf L c rid verdict (do
      Relay.setRecipientMetadata rid auth.keyId domains count
      Relay.updateStatus rid auth.keyId started
      .step op k) W =
      { verdict := some (verdict a)
        rateLimiter := W.app.rateLimiter
        record := (submitted auth.keyId domains count started u c.utc c.utc' (W.find rid)).map
          SubmissionStatusRecord.storedOutcome
        handed := h :: W.handed } := by
  unfold outcomeOf submitted
  simp only [perform_bind, run_step]
  rw [hop, ← find_setRecipientMetadata_self, ← find_updateStatus_self]
  simp only [hk]
  rw [← find_hand _ h, ← find_updateStatus_self]
  rfl

/-- How `send_mail` ends after the transport has answered. -/
def singleEnd : Except AppError Unit → StatusUpdate
  | .ok () =>
    ⟨.smtpAccepted, none, some "The message was accepted by the configured SMTP server."⟩
  | .error e => ⟨.smtpFailed, some (smtpCode e), none⟩

def singleAnswer (rid : RequestId) : Except AppError Unit → SendResult
  | .ok () => .ok (acceptedResponse rid)
  | .error e => .error ⟨rid, e⟩

/-- How the bulk handler ends after the transport has answered. -/
def bulkEnd : Except AppError Unit → StatusUpdate
  | .ok () => ⟨.smtpAccepted, none, some "Accepted by SMTP server."⟩
  | .error _ => ⟨.smtpFailed, some .smtpUnavailable, some "SMTP server unavailable."⟩

def bulkAnswer (rid : RequestId) : Except AppError Unit → MessageResult
  | .ok () => acceptedResult 0 rid
  | .error _ => rejectedResult 0 rid .smtpUnavailable "SMTP server unavailable."

/-- The transport of the bulk handler, and its answer. -/
def bulkTransport (cfg : AppConfig) (c : Choice) (message : Message) :
    Handed × Except AppError Unit :=
  if cfg.smtp.mode = "pipe" then (.pipe cfg.smtp.pipeCommand message, Smtp.pipeResult c.pipe)
  else (.smtp message, Smtp.outcomeResult c.smtp)

theorem single_submitted {v : ValidatedMailRequest} {message : Message}
    (hv : Validation.validateMailRequest D m cfg auth = .ok v)
    (hb : Mail.buildMessage D v cfg = .ok message) :
    outcomeOf L c rid sendVerdict (singleReceived D rid auth cfg m (.ok ())) W =
      { verdict := some (sendVerdict (singleAnswer rid (Smtp.outcomeResult c.smtp)))
        rateLimiter := W.app.rateLimiter
        record := (submitted auth.keyId (recipientDomainsFrom D.caseTable v.toAddrs v.cc)
          (recipientCount v.toAddrs v.cc) ⟨.smtpSubmissionStarted, none, none⟩
          (singleEnd (Smtp.outcomeResult c.smtp)) c.utc c.utc' (W.find rid)).map
            SubmissionStatusRecord.storedOutcome
        handed := .smtp message :: W.handed } := by
  unfold singleReceived
  simp only [hv, sendValidated, hb, sendMessage]
  refine outcomeOf_submitted (fun _ => rfl) ?_
  change (match Smtp.outcomeResult c.smtp with | .ok () => _ | .error _ => _) = _
  cases Smtp.outcomeResult c.smtp <;> rfl

theorem bulk_submitted {v : ValidatedMailRequest} {message : Message}
    (hv : Validation.validateMailRequest D m cfg auth = .ok v)
    (hb : Mail.buildMessage D v cfg = .ok message) :
    outcomeOf L c rid messageVerdict (bulkReceived D rid auth cfg m (.ok ())) W =
      { verdict := some (messageVerdict (bulkAnswer rid (bulkTransport cfg c message).2))
        rateLimiter := W.app.rateLimiter
        record := (submitted auth.keyId (recipientDomainsFrom D.caseTable v.toAddrs v.cc)
          (recipientCount v.toAddrs v.cc)
          ⟨.smtpSubmissionStarted, none, some "Submitting to SMTP."⟩
          (bulkEnd (bulkTransport cfg c message).2) c.utc c.utc' (W.find rid)).map
            SubmissionStatusRecord.storedOutcome
        handed := (bulkTransport cfg c message).1 :: W.handed } := by
  unfold bulkReceived bulkTransport
  simp only [hv, prepareValidated, hb, phase2Submit, submitByMode]
  split
  · refine outcomeOf_submitted (fun _ => rfl) ?_
    change (match Smtp.pipeResult c.pipe with | .ok () => _ | .error _ => _) = _
    cases Smtp.pipeResult c.pipe <;> rfl
  · refine outcomeOf_submitted (fun _ => rfl) ?_
    change (match Smtp.outcomeResult c.smtp with | .ok () => _ | .error _ => _) = _
    cases Smtp.outcomeResult c.smtp <;> rfl

/-- The last texts always differ. -/
theorem ends_differ (x y : Except AppError Unit) :
    (singleEnd x).message.or (some "Submission received.") ≠
      (bulkEnd y).message.or ((some "Submitting to SMTP.").or (some "Submission received.")) := by
  cases x <;> cases y <;> simp [singleEnd, bulkEnd]

/-- Over SMTP the answers agree, except on a rejection. -/
theorem answers_agree_iff (o : SmtpOutcome) :
    sendVerdict (singleAnswer rid (Smtp.outcomeResult o)) =
        messageVerdict (bulkAnswer rid (Smtp.outcomeResult o)) ↔
      Smtp.outcomeResult o ≠ .error .smtpRejected := by
  cases h : Smtp.outcomeResult o with
  | ok _ => simp [singleAnswer, bulkAnswer, sendVerdict]
  | error e =>
    rcases Smtp.outcomeResult_error h with rfl | rfl
    · simp [singleAnswer, bulkAnswer, AppError.errorCode, ErrorCode.asStr]
    · simp [singleAnswer, bulkAnswer, AppError.errorCode]

theorem submitted_agree_iff {v : ValidatedMailRequest} {message : Message}
    (hnew : New auth.keyId (W.find rid))
    (hv : Validation.validateMailRequest D m cfg auth = .ok v)
    (hb : Mail.buildMessage D v cfg = .ok message) :
    outcomeOf L c rid sendVerdict (singleReceived D rid auth cfg m (.ok ())) W =
      outcomeOf L c rid messageVerdict (bulkReceived D rid auth cfg m (.ok ())) W ↔
      Dead c.utc (W.find rid) ∧ cfg.smtp.mode ≠ "pipe" ∧
        Smtp.outcomeResult c.smtp ≠ .error .smtpRejected := by
  rw [single_submitted hv hb, bulk_submitted hv hb]
  simp only [Outcome.mk.injEq, true_and, submissions_agree_iff hnew (ends_differ _ _),
    Option.some.injEq, List.cons.injEq, and_true]
  unfold bulkTransport
  by_cases hmode : cfg.smtp.mode = "pipe"
  · simp [hmode]
  · simp only [hmode, if_false, answers_agree_iff, not_false_eq_true, and_true, true_and, ne_eq]
    exact and_comm

/-! ## The record that is put -/

theorem find_admittedWorld {record : SubmissionStatusRecord} (hfresh : w.find rid = none)
    (hid : record.requestId = rid) :
    (admittedWorld L w auth c record).find rid =
      match w.app.statusStore with
      | .noop => none
      | .memory _ => some record := by
  subst hid
  exact find_putReceived_fresh _ hfresh

theorem new_admittedWorld {record : SubmissionStatusRecord} {ttl : Nat}
    (hfresh : w.find rid = none)
    (hrecord : SubmissionStatusRecord.newReceived rid auth.keyId ttl c.utc = some record) :
    New auth.keyId ((admittedWorld L w auth c record).find rid) := by
  obtain ⟨expiresAt, -, rfl⟩ := Option.map_eq_some_iff.mp hrecord
  rw [find_admittedWorld hfresh rfl]
  intro r hr
  cases hs : w.app.statusStore with
  | noop => simp [hs] at hr
  | memory s =>
    simp only [hs, Option.some.injEq] at hr
    subst hr
    exact ⟨rfl, rfl, rfl⟩

theorem addSeconds_lt_iff {t e : DateTime} {ttl : Nat} (h : Chrono.addSeconds t ttl = some e) :
    e < t ↔ Chrono.asI64 ttl < 0 := by
  unfold Chrono.addSeconds at h
  dsimp only at h
  split at h
  · cases h
    have hsum : ∀ a b : Int, a + b * 1000000000 < a ↔ b < 0 := fun a b => by omega
    exact hsum t _
  · cases h

theorem dead_admittedWorld_iff {record : SubmissionStatusRecord} (hfresh : w.find rid = none)
    (hrecord : SubmissionStatusRecord.newReceived rid auth.keyId w.app.config.status.ttlSeconds
      c.utc = some record) :
    Dead c.utc ((admittedWorld L w auth c record).find rid) ↔ Unrecorded w := by
  obtain ⟨expiresAt, hdate, rfl⟩ := Option.map_eq_some_iff.mp hrecord
  rw [find_admittedWorld hfresh rfl, Unrecorded, ← addSeconds_lt_iff hdate]
  unfold Dead
  cases w.app.statusStore with
  | noop => simp
  | memory s => simp [SubmissionStatusRecord.isExpired]

/-! ## The verdict on a payload that is too large -/

theorem payloadTooLarge_asStr_ne {e : AppError} (h : e ≠ .payloadTooLarge) :
    e.errorCode.asStr ≠ ErrorCode.payloadTooLarge.asStr := by
  cases e <;> first | exact absurd rfl h | (simp only [AppError.errorCode]; decide)

/-- `send_mail` answers, and not `payload_too_large`, once the payload is read. -/
theorem singleReceived_verdict {tier : Except (Nat × String) Unit} :
    ∃ v, (outcomeOf L c rid sendVerdict (singleReceived D rid auth cfg m tier) W).verdict =
        some v ∧ v ≠ .refused ErrorCode.payloadTooLarge.asStr := by
  have hrefused : ∀ e : AppError, e ≠ .payloadTooLarge →
      sendVerdict (.error ⟨rid, e⟩) ≠ .refused ErrorCode.payloadTooLarge.asStr :=
    fun e he h => payloadTooLarge_asStr_ne he (Verdict.refused.inj h)
  rcases tier with ⟨retryAfter, text⟩ | _
  · simp only [singleReceived, refuse, reject, pure_eq, outcomeOf_update]
    exact ⟨_, rfl, hrefused _ (by simp)⟩
  · cases hv : Validation.validateMailRequest D m cfg auth with
    | error e =>
      simp only [singleReceived, hv, refuse, reject, pure_eq, outcomeOf_update]
      refine ⟨_, rfl, hrefused e ?_⟩
      rcases Validation.validate_error D hv with h | ⟨-, message, rfl⟩
      · obtain ⟨feature, rfl⟩ := Validation.checkFeatureGates_error h
        simp
      · simp
    | ok v =>
      cases hb : Mail.buildMessage D v cfg with
      | error e =>
        obtain rfl := Mail.buildMessage_error D hb
        simp only [singleReceived, hv, sendValidated, hb]
        exact ⟨_, rfl, hrefused .internal (by simp)⟩
      | ok message =>
        rw [single_submitted hv hb]
        refine ⟨_, rfl, ?_⟩
        cases hres : Smtp.outcomeResult c.smtp with
        | ok _ => simp [singleAnswer, sendVerdict]
        | error e =>
          apply hrefused e
          rcases Smtp.outcomeResult_error hres with rfl | rfl <;> simp

/-! ## The two handlers -/

theorem singleOutcome_eq {headers : HeaderMap} {body : List UInt8}
    {record : SubmissionStatusRecord} (hread : readPayload D w.app.config headers body = .ok m)
    (hrecord : SubmissionStatusRecord.newReceived rid auth.keyId w.app.config.status.ttlSeconds
      c.utc = some record) :
    singleOutcome D L w rid auth headers body c =
      outcomeOf L c rid sendVerdict
        (singleReceived D rid auth w.app.config m (checkTiers L auth c w.app.rateLimiter).1)
        (admittedWorld L w auth c record) := by
  unfold singleOutcome outcomeOf
  rw [run_sendMail hread, hrecord]

theorem checkBulk_singleton (hcount : 1 ≤ cfg.mail.maxBulkMessages) :
    checkBulk cfg [m] = .ok () := by
  have hle : ¬1 > cfg.mail.maxBulkMessages := by omega
  simp [checkBulk, Except.failIf, hle]

theorem bulkOutcome_eq {record : SubmissionStatusRecord}
    (hcount : 1 ≤ w.app.config.mail.maxBulkMessages)
    (hpermits : w.app.config.smtp.bulkConcurrency ≤ maxPermits)
    (hrecord : SubmissionStatusRecord.newReceived rid auth.keyId w.app.config.status.ttlSeconds
      c.utc = some record) :
    bulkOutcome D L w bulkId rid auth m c =
      outcomeOf L c rid messageVerdict
        (bulkReceived D rid auth w.app.config m (checkTiers L auth c w.app.rateLimiter).1)
        (admittedWorld L w auth c record) := by
  unfold bulkOutcome outcomeOf
  rw [sendBulk_singleton]
  simp only [perform_bind, run_step, exec, checkBulk_singleton hcount, hpermits, if_true]
  rw [run_bind_ret, run_bulkMessage, hrecord]
  simp only [Option.map_map]
  rfl

theorem bulkOutcome_none (hcount : ¬1 ≤ w.app.config.mail.maxBulkMessages) :
    (bulkOutcome D L w bulkId rid auth m c).verdict =
      some (.refused ErrorCode.payloadTooLarge.asStr) := by
  have hcheck : checkBulk w.app.config [m] = .error .payloadTooLarge := by
    have hgt : 1 > w.app.config.mail.maxBulkMessages := by omega
    simp [checkBulk, Except.failIf, hgt]
  unfold bulkOutcome outcomeOf
  rw [sendBulk_singleton]
  simp only [perform_bind, run_step, exec, hcheck]
  rfl

/-- The semaphore cannot hold the permits: the handler panics between its phases. -/
theorem bulkOutcome_panics (hcount : 1 ≤ w.app.config.mail.maxBulkMessages)
    (hpermits : ¬w.app.config.smtp.bulkConcurrency ≤ maxPermits) :
    (bulkOutcome D L w bulkId rid auth m c).verdict = none := by
  unfold bulkOutcome outcomeOf
  rw [sendBulk_singleton]
  simp only [perform_bind, run_step, exec, checkBulk_singleton hcount, hpermits, if_false]
  rw [run_bind_abort]
  rfl

/-- Branch by branch: when the outcomes agree once the record is put. -/
theorem received_agree_iff {record : SubmissionStatusRecord} (hfresh : w.find rid = none)
    (hrecord : SubmissionStatusRecord.newReceived rid auth.keyId w.app.config.status.ttlSeconds
      c.utc = some record) :
    outcomeOf L c rid sendVerdict
        (singleReceived D rid auth w.app.config m (checkTiers L auth c w.app.rateLimiter).1)
        (admittedWorld L w auth c record) =
      outcomeOf L c rid messageVerdict
        (bulkReceived D rid auth w.app.config m (checkTiers L auth c w.app.rateLimiter).1)
        (admittedWorld L w auth c record) ↔
      BuildFails D L w auth m c ∨ Unrecorded w ∧ ¬AnswersDiffer D L w auth m c := by
  have hnew : New auth.keyId ((admittedWorld L w auth c record).find rid) :=
    new_admittedWorld hfresh hrecord
  unfold BuildFails AnswersDiffer
  rw [← dead_admittedWorld_iff (L := L) hfresh hrecord, ← checkTiers_ok_iff]
  cases htier : (checkTiers L auth c w.app.rateLimiter).1 with
  | error refusal =>
    obtain ⟨retryAfter, text⟩ := refusal
    rw [refused_agree_iff hnew (checkTiers_text htier)]
    simp
  | ok _ =>
    cases hv : Validation.validateMailRequest D m w.app.config auth with
    | error e =>
      rw [invalid_agree_iff hnew hv]
      simp
    | ok v =>
      have hgates := (Validation.validate_ok D hv).gates
      cases hb : Mail.buildMessage D v w.app.config with
      | error e => simp [unbuilt_agree hv hb, hb]
      | ok message =>
        rw [submitted_agree_iff hnew hv hb]
        simp [hgates, hb]

end BulkAgreement

open BulkAgreement in
/-- One message is treated alike by the two handlers exactly when the bulk limit
admits a message, the semaphore holds its permits, the TTL gives a date, and either
the message cannot be built or nothing is recorded of it and the answers do not
differ. -/
theorem single_bulk_agree_iff {D : Deps} {L : Limiter ρ} {w : World ρ} {bulkId rid : RequestId}
    {auth : AuthContext} {headers : HeaderMap} {body : List UInt8} {m : MailRequest} {c : Choice}
    (hread : readPayload D w.app.config headers body = .ok m) (hfresh : w.find rid = none) :
    (singleOutcome D L w rid auth headers body c = bulkOutcome D L w bulkId rid auth m c ∧
        (singleOutcome D L w rid auth headers body c).verdict ≠ none) ↔
      Alike D L w auth m c := by
  have hdates : (Chrono.addSeconds c.utc w.app.config.status.ttlSeconds).isSome =
      (SubmissionStatusRecord.newReceived rid auth.keyId w.app.config.status.ttlSeconds
        c.utc).isSome := by
    rw [SubmissionStatusRecord.newReceived, Option.isSome_map]
  cases hrecord : SubmissionStatusRecord.newReceived rid auth.keyId
      w.app.config.status.ttlSeconds c.utc with
  | none =>
    have hpanic : (singleOutcome D L w rid auth headers body c).verdict = none := by
      unfold singleOutcome outcomeOf
      rw [run_sendMail hread, hrecord]
      rfl
    rw [hrecord] at hdates
    exact ⟨fun h => absurd hpanic h.2, fun h => absurd h.dates (by simp [hdates])⟩
  | some record =>
    rw [hrecord] at hdates
    obtain ⟨v, hverdict, hv⟩ : ∃ v, (singleOutcome D L w rid auth headers body c).verdict =
        some v ∧ v ≠ .refused ErrorCode.payloadTooLarge.asStr := by
      rw [singleOutcome_eq hread hrecord]
      exact singleReceived_verdict
    rw [singleOutcome_eq hread hrecord] at hverdict ⊢
    by_cases hcount : 1 ≤ w.app.config.mail.maxBulkMessages
    · by_cases hpermits : w.app.config.smtp.bulkConcurrency ≤ maxPermits
      · rw [bulkOutcome_eq hcount hpermits hrecord, received_agree_iff hfresh hrecord]
        constructor
        · exact fun h => ⟨hcount, hpermits, hdates, h.1⟩
        · exact fun h => ⟨h.same, by simp [hverdict]⟩
      · constructor
        · rintro ⟨h, -⟩
          have hpanic := congrArg Outcome.verdict h
          rw [hverdict, bulkOutcome_panics hcount hpermits] at hpanic
          cases hpanic
        · exact fun h => absurd h.permits hpermits
    · constructor
      · rintro ⟨h, -⟩
        have hlarge := congrArg Outcome.verdict h
        rw [hverdict, bulkOutcome_none hcount] at hlarge
        exact absurd (Option.some.inj hlarge) hv
      · exact fun h => absurd h.count hcount

/-- A relay that records nothing. -/
def noopWorld : World Unit where
  app := .new { sampleConfig with status := { StatusConfig.default with enabled := false } } ()
  bodyLimit := sampleConfig.server.maxRequestBodyBytes
  handed := []

theorem single_bulk_agree_sample :
    singleOutcome jsonDeps .admitAll noopWorld sampleId sampleAuth jsonHeaders [] sampleChoice =
        bulkOutcome jsonDeps .admitAll noopWorld ⟨"req_bulk"⟩ sampleId sampleAuth sampleRequest
          sampleChoice ∧
      (singleOutcome jsonDeps .admitAll noopWorld sampleId sampleAuth jsonHeaders []
        sampleChoice).verdict ≠ none := by
  refine (single_bulk_agree_iff rfl rfl).mpr ⟨by decide, by decide, by decide, Or.inr ⟨Or.inl rfl, ?_⟩⟩
  rintro ⟨-, hgates | ⟨v, message, -, -, hmode | hrejected⟩⟩
  · exact hgates rfl
  · exact absurd hmode (by decide)
  · cases hrejected

/-- A message with a disabled feature: `feature_disabled` from one handler,
`internal_error` from the other; and each stores another code. -/
theorem disabled_feature_answered_otherwise :
    ConfigValidate.Accepted {} htmlDeps sampleConfig ∧
      ∃ m, readPayload htmlDeps sampleConfig jsonHeaders [] = .ok m ∧
        let single := singleOutcome htmlDeps .admitAll sampleWorld sampleId sampleAuth jsonHeaders
          [] sampleChoice
        let bulk := bulkOutcome htmlDeps .admitAll sampleWorld ⟨"req_bulk"⟩ sampleId sampleAuth m
          sampleChoice
        single.verdict = some (.refused "feature_disabled") ∧
        bulk.verdict = some (.refused "internal_error") ∧
        single.record.map StoredOutcome.code = some (some .validationFailed) ∧
        bulk.record.map StoredOutcome.code = some (some .internalError) := by
  refine ⟨?_, _, rfl, rfl, rfl, rfl, rfl⟩
  unfold ConfigValidate.Accepted
  decide

end HttpSmtpRele
