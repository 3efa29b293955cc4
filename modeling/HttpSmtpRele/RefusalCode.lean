import HttpSmtpRele.HandlerLife
import HttpSmtpRele.OpenRelay

/-!
# The code the client sees and the code that is stored

Every refusal of `send_mail` is stored under the code of the error it answers
with, except one: the validator's `FeatureDisabled` is stored under the fixed
stand-in `Validation`.  `stored_code_iff` says that the codes differ exactly
when a request gets as far as the validator with a disabled feature.
-/

namespace HttpSmtpRele

open Prog Api

variable {ρ : Type}

/-- The three rate-limit checks at the instants of `cs 0`, `cs 1`, `cs 2` all admit. -/
def Admits (L : Limiter ρ) (auth : AuthContext) (cs : Nat → Choice) (l : ρ) : Prop :=
  let global := L.checkGlobal (cs 0).instant l
  let ip := L.checkIp auth.clientIp (cs 1).instant global.2
  let key := L.checkKey auth.keyId auth.keyRateLimitPerMin auth.keyBurst (cs 2).instant ip.2
  global.1 = .ok () ∧ ip.1 = .ok () ∧ key.1 = .ok ()

/-- The request is JSON of the right type and size, the limiter admits it, and
it uses HTML or attachments while they are disabled.  The checks are the fourth
to sixth operation of the handler. -/
def ReachesDisabledFeature (D : Deps) (L : Limiter ρ) (w : World ρ) (auth : AuthContext)
    (headers : HeaderMap) (body : List UInt8) (cs : Nat → Choice) : Prop :=
  ∃ payload, readPayload D w.app.config headers body = .ok payload ∧
    Admits L auth (fun n => cs (n + 3)) w.app.rateLimiter ∧
    Validation.checkFeatureGates payload w.app.config.mail ≠ .ok ()

namespace RefusalCode

variable {D : Deps} {L : Limiter ρ} {auth : AuthContext} {rid : RequestId}

/-- The code stored for an error is its own, unless a feature is disabled. -/
theorem storedCode_eq_iff {e : AppError} :
    storedCode e = e.errorCode ↔ ¬∃ feature, e = .featureDisabled feature := by
  cases e <;> simp [storedCode, AppError.errorCode]

/-- Validation answers `FeatureDisabled` exactly when a gate is closed. -/
theorem featureDisabled_iff_gates {req : MailRequest} {cfg : AppConfig} {e : AppError}
    (h : Validation.validateMailRequest D req cfg auth = .error e) :
    (∃ feature, e = .featureDisabled feature) ↔
      Validation.checkFeatureGates req cfg.mail ≠ .ok () := by
  rcases Validation.validate_error D h with h | ⟨hgates, message, rfl⟩
  · rw [h]
    exact ⟨fun _ => by simp, fun _ => Validation.checkFeatureGates_error h⟩
  · simp [hgates]

/-- The steps after validation never answer `FeatureDisabled`. -/
theorem run_sendValidated_notDisabled {cfg : AppConfig} {validated : ValidatedMailRequest}
    {cs : Nat → Choice} {w : World ρ} {err : RequestError}
    (h : (run (exec L) (sendValidated D rid auth cfg validated) cs w).1 = some (.error err)) :
    ¬∃ feature, err.source = .featureDisabled feature := by
  obtain ⟨φ, ⟨-, hnot⟩, -⟩ := Follows.run (exec L) (fun _ _ => True) (fun _ => True)
    (fun _ _ _ => trivial) follows_sendValidated trivial (fun _ => trivial) h
  rintro ⟨feature, hfeature⟩
  exact hnot feature hfeature

/-- After validation the answer is `FeatureDisabled` exactly for a closed gate. -/
theorem run_validated_disabled {cfg : AppConfig} {payload : MailRequest} {cs : Nat → Choice}
    {w : World ρ} {err : RequestError}
    (h : (run (exec L)
      (match Validation.validateMailRequest D payload cfg auth with
        | .error e => refuse rid auth (.validation "") e
        | .ok validated => sendValidated D rid auth cfg validated) cs w).1 = some (.error err)) :
    (∃ feature, err.source = .featureDisabled feature) ↔
      Validation.checkFeatureGates payload cfg.mail ≠ .ok () := by
  cases hv : Validation.validateMailRequest D payload cfg auth with
  | error e =>
    have hsource : err.source = e := by
      simp only [hv, refuse, reject, perform_bind, run_step, pure_eq, run_ret] at h
      rw [← Except.error.inj (Option.some.inj h)]
    rw [hsource]
    exact featureDisabled_iff_gates hv
  | ok validated =>
    have hgates := (Validation.validate_ok D hv).gates
    simp only [hv] at h
    simp [run_sendValidated_notDisabled h, hgates]

/-- A refused rate limit is not answered by `FeatureDisabled`. -/
theorem run_refuse_rate {cs : Nat → Choice} {w : World ρ} {err : RequestError} {retryAfter : Nat}
    (h : (run (exec L) (refuse rid auth (.rateLimited none) (.rateLimited (some retryAfter)))
      cs w).1 = some (.error err)) :
    ¬∃ feature, err.source = .featureDisabled feature := by
  simp only [refuse, reject, perform_bind, run_step, pure_eq, run_ret] at h
  rw [← Except.error.inj (Option.some.inj h)]
  simp

/-- The rate-limit checks touch the limiter only, and pass when all three admit. -/
theorem run_checkRates_bind (L : Limiter ρ) (auth : AuthContext) {α : Type}
    (f : Except Nat Unit → RelayM α) (cs : Nat → Choice) (w : World ρ) :
    ∃ res n l, run (exec L) (checkRates auth >>= f) cs w =
        run (exec L) (f res) (fun m => cs (m + n)) (w.setLimiter l) ∧
      (res = .ok () ↔ Admits L auth cs w.app.rateLimiter) := by
  unfold Admits
  simp only [checkRates, perform_bind, step_bind, run_step, exec_checkGlobal]
  generalize L.checkGlobal (cs 0).instant w.app.rateLimiter = global
  obtain ⟨retryAfter | _, l⟩ := global
  · exact ⟨.error retryAfter, 1, l, rfl, by simp⟩
  · simp only [step_bind, run_step, exec_checkIp, rateLimiter_setLimiter, setLimiter_setLimiter]
    generalize L.checkIp auth.clientIp (cs 1).instant l = ip
    obtain ⟨retryAfter | _, l⟩ := ip
    · exact ⟨.error retryAfter, 2, l, rfl, by simp⟩
    · exact ⟨_, 3, _, rfl, by simp [exec_checkKey]⟩

theorem run_sendPayload_disabled {cfg : AppConfig} {payload : MailRequest} {cs : Nat → Choice}
    {w : World ρ} {err : RequestError}
    (h : (run (exec L) (sendPayload D rid auth cfg payload) cs w).1 = some (.error err)) :
    (∃ feature, err.source = .featureDisabled feature) ↔
      Admits L auth cs w.app.rateLimiter ∧
        Validation.checkFeatureGates payload cfg.mail ≠ .ok () := by
  unfold sendPayload at h
  obtain ⟨res, n, l, hrun, hadmits⟩ := run_checkRates_bind L auth _ cs w
  rw [hrun] at h
  rw [← hadmits]
  cases res with
  | error retryAfter => simp [run_refuse_rate h]
  | ok _ => simp [run_validated_disabled h]

/-- The code of `FeatureDisabled` is answered exactly when the validator is
reached with a feature that is off. -/
theorem run_sendMail_disabled {headers : HeaderMap} {body : List UInt8} {cs : Nat → Choice}
    {w : World ρ} {err : RequestError}
    (h : (run (exec L) (sendMail D rid auth headers body) cs w).1 = some (.error err)) :
    (∃ feature, err.source = .featureDisabled feature) ↔
      ReachesDisabledFeature D L w auth headers body cs := by
  unfold sendMail putNewReceived at h
  simp only [perform_bind, step_bind, run_step, exec] at h
  cases hrecord : SubmissionStatusRecord.newReceived rid auth.keyId
      w.app.config.status.ttlSeconds (cs 1).utc with
  | none =>
    rw [hrecord] at h
    cases h
  | some record =>
    rw [hrecord] at h
    simp only [perform_bind, run_step, sendReceived] at h
    unfold ReachesDisabledFeature
    cases hp : readPayload D w.app.config headers body with
    | error e =>
      simp only [hp, refuse, reject, perform_bind, run_step, pure_eq, run_ret] at h
      rw [← Except.error.inj (Option.some.inj h)]
      rcases readPayload_error hp with rfl | rfl | rfl <;> simp
    | ok payload =>
      simp only [hp] at h
      rw [run_sendPayload_disabled h]
      simp only [Except.ok.injEq, exists_eq_left']
      rfl

end RefusalCode

open RefusalCode in
/-- The code of a refusal is the code under which the record is stored, unless
the request reached the validator with a feature that is off. -/
theorem stored_code_iff {D : Deps} {L : Limiter ρ} {w w' : World ρ} {rid : RequestId}
    {auth : AuthContext} {headers : HeaderMap} {body : List UInt8} {cs : Nat → Choice}
    {err : RequestError} {now : DateTime} {r : SubmissionStatusRecord}
    (hfresh : w.find rid = none)
    (hrun : run (exec L) (sendMail D rid auth headers body) cs w = (some (.error err), w'))
    (hclock : ∀ n, (cs n).utc ≤ now) (hheld : w'.getRead rid auth.keyId now = .live r) :
    r.code = some err.source.errorCode ↔
      ¬ReachesDisabledFeature D L w auth headers body cs := by
  have hvalue : (run (exec L) (sendMail D rid auth headers body) cs w).1 = some (.error err) := by
    rw [hrun]
  -- the record keeps up with the phase in which the handler leaves it
  obtain ⟨φ, ⟨status, code, rfl, -, -, hcode⟩, htracks⟩ :=
    Follows.run (exec L) (fun φ w => LPhase.Tracks now φ (w.find rid)) (fun c => c.utc ≤ now)
      (fun hn hT hc => exec_tracks hn hT hc) (follows_watch follows_sendMail)
      ⟨fun _ => hfresh, fun r hr => absurd hr (by simp [hfresh])⟩ hclock hvalue
  rw [hrun] at htracks
  obtain ⟨hfind, -, hlive⟩ := World.getRead_eq_live.mp hheld
  have hstored : r.code = some (storedCode err.source) :=
    (htracks.agrees r hfind hlive).2.2.trans hcode
  rw [hstored, Option.some.injEq, storedCode_eq_iff, run_sendMail_disabled hvalue]

/-! One moment of a relay that holds nothing yet and refuses nobody. -/

def Limiter.admitAll : Limiter Unit where
  checkGlobal _ l := (.ok (), l)
  checkIp _ _ l := (.ok (), l)
  checkKey _ _ _ _ l := (.ok (), l)

def sampleWorld : World Unit where
  app := .new sampleConfig ()
  bodyLimit := sampleConfig.server.maxRequestBodyBytes
  handed := []

def sampleChoice : Choice where
  utc := 0
  utc' := 0
  instant := 0
  smtp := .sent
  pipe := .sent
  body := none
  order := .id _ _

def sampleId : RequestId := ⟨"req_0"⟩

/-- A request without a content type is refused and stored as such. -/
theorem stored_code_sample :
    ∃ w' r, run (exec .admitAll) (sendMail .plain sampleId sampleAuth [] []) (fun _ => sampleChoice)
        sampleWorld = (some (.error ⟨sampleId, .unsupportedMediaType⟩), w') ∧
      w'.getRead sampleId sampleAuth.keyId 0 = .live r ∧
      (r.code = some .unsupportedMediaType ↔
        ¬ReachesDisabledFeature .plain .admitAll sampleWorld sampleAuth [] []
          fun _ => sampleChoice) := by
  have hrun : run (exec .admitAll) (sendMail .plain sampleId sampleAuth [] [])
      (fun _ => sampleChoice) sampleWorld =
        (some (.error ⟨sampleId, .unsupportedMediaType⟩), _) := rfl
  exact ⟨_, _, hrun, rfl, stored_code_iff rfl hrun (fun _ => le_rfl) rfl⟩

/-- Every body reads as the sample request. -/
def jsonDeps : Deps :=
  { Deps.plain with parseMailRequest := fun _ => some sampleRequest }

/-- Every body reads as the sample request with an HTML body. -/
def htmlDeps : Deps :=
  { jsonDeps with
    parseMailRequest := fun _ => some { sampleRequest with bodyHtml := some "<p>hello</p>" } }

def jsonHeaders : HeaderMap :=
  [("content-type", "application/json".toList.map fun c => UInt8.ofNat c.toNat)]

/-- The answer to a disabled HTML body. -/
def htmlRefusal : RequestError where
  requestId := sampleId
  source := .featureDisabled "html body is not enabled on this server"

/-- An HTML body that is not allowed is answered with `feature_disabled` and
stored under `validation_failed`. -/
theorem disabled_feature_stored_otherwise :
    htmlRefusal.source.errorCode = .featureDisabled ∧
      ∃ w' r, run (exec .admitAll) (sendMail htmlDeps sampleId sampleAuth jsonHeaders [])
          (fun _ => sampleChoice) sampleWorld = (some (.error htmlRefusal), w') ∧
        w'.getRead sampleId sampleAuth.keyId 0 = .live r ∧
        r.code = some .validationFailed := by
  have hrun : run (exec .admitAll) (sendMail htmlDeps sampleId sampleAuth jsonHeaders [])
      (fun _ => sampleChoice) sampleWorld = (some (.error htmlRefusal), _) := rfl
  exact ⟨rfl, _, _, hrun, rfl, rfl⟩

end HttpSmtpRele
