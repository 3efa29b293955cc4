import HttpSmtpRele.Api.SendBulk
import HttpSmtpRele.Lib.Coupling
import HttpSmtpRele.KeyIdentity
import HttpSmtpRele.RefusalCode

/-!
# Records carry metadata only

Two submissions under one request id and one key, that take the same branches
and whose recipients have the same domains and the same number, perform the same
operations on the store, one by one.  So they leave the same store, whatever the
rest of the requests is and whatever others do meanwhile.
-/

namespace HttpSmtpRele

open Prog Api

variable {ρ : Type}

/-- The same variant of `AppError`: each has its own code. -/
def AppError.SameVariant (e e' : AppError) : Prop := e.errorCode = e'.errorCode

/-- Both go on, or both fail with the same variant. -/
def SameBranch {α β : Type} : Except AppError α → Except AppError β → Prop
  | .ok _, .ok _ => True
  | .error e, .error e' => e.SameVariant e'
  | _, _ => False

/-- Both are admitted, or both refused. -/
def SameCheck : Except Nat Unit → Except Nat Unit → Prop
  | .ok _, .ok _ => True
  | .error _, .error _ => True
  | _, _ => False

/-- What the stored metadata may depend on. -/
structure SameDomains (D : Deps) (m₁ m₂ : MailRequest) : Prop where
  count : m₁.recipients.length = m₂.recipients.length
  domains : ∀ d, d ∈ domainNames D.caseTable m₁.recipients ↔
    d ∈ domainNames D.caseTable m₂.recipients

/-- Validation and the builder take the same branches. -/
structure MailAlike (D : Deps) (cfg : AppConfig) (auth₁ auth₂ : AuthContext)
    (m₁ m₂ : MailRequest) : Prop where
  recipients : SameDomains D m₁ m₂
  validation : SameBranch (Validation.validateMailRequest D m₁ cfg auth₁)
    (Validation.validateMailRequest D m₂ cfg auth₂)
  build : ∀ v₁ v₂, Validation.validateMailRequest D m₁ cfg auth₁ = .ok v₁ →
    Validation.validateMailRequest D m₂ cfg auth₂ = .ok v₂ →
      SameBranch (Mail.buildMessage D v₁ cfg) (Mail.buildMessage D v₂ cfg)

/-- A request to `/v1/send`, or a message of a request to `/v1/send-bulk`. -/
inductive Submission
  | send (headers : HeaderMap) (body : List UInt8)
  | bulk (index : Nat) (m : MailRequest)

namespace Submission

/-- What the handler does for the submission. -/
def process (D : Deps) (rid : RequestId) (auth : AuthContext) : Submission → RelayM Unit
  | send headers body => do
    let _ ← sendMail D rid auth headers body
    return ()
  | bulk index m => do
    let cfg ← Relay.config
    let _ ← bulkMessage D index rid auth cfg m
    return ()

/-- The decisions taken on the requests themselves fall alike. -/
def Alike (D : Deps) (cfg : AppConfig) (auth₁ auth₂ : AuthContext) :
    Submission → Submission → Prop
  | send headers₁ body₁, send headers₂ body₂ =>
    SameBranch (readPayload D cfg headers₁ body₁) (readPayload D cfg headers₂ body₂) ∧
      ∀ m₁ m₂, readPayload D cfg headers₁ body₁ = .ok m₁ →
        readPayload D cfg headers₂ body₂ = .ok m₂ → MailAlike D cfg auth₁ auth₂ m₁ m₂
  | bulk _ m₁, bulk _ m₂ => MailAlike D cfg auth₁ auth₂ m₁ m₂
  | _, _ => False

end Submission

/-- The answers lead to the same branches, under the config `cfg` and at the same times. -/
def AnswersAlike (cfg : AppConfig) : (op₁ op₂ : Op) → op₁.Res → op₂.Res → Prop
  | .config, .config, c₁, c₂ => c₁ = cfg ∧ c₂ = cfg
  | .now, .now, t₁, t₂ => t₁ = t₂
  | .checkGlobal, .checkGlobal, r₁, r₂ => SameCheck r₁ r₂
  | .checkIp _, .checkIp _, r₁, r₂ => SameCheck r₁ r₂
  | .checkKey .., .checkKey .., r₁, r₂ => SameCheck r₁ r₂
  | .smtpSend .., .smtpSend .., o₁, o₂ =>
    SameBranch (Smtp.outcomeResult o₁) (Smtp.outcomeResult o₂)
  | .pipeSend .., .pipeSend .., o₁, o₂ => SameBranch (Smtp.pipeResult o₁) (Smtp.pipeResult o₂)
  | _, _, _, _ => True

/-- The same operation, but for what the store does not see. -/
inductive SameEffect : Op → Op → Prop
  | refl (op : Op) : SameEffect op op
  | checkIp (ip ip' : IpAddr) : SameEffect (.checkIp ip) (.checkIp ip')
  | checkKey (keyId keyId' : String) (perMin perMin' : Option Nat) (burst burst' : Nat) :
    SameEffect (.checkKey keyId perMin burst) (.checkKey keyId' perMin' burst')
  | smtpSend (message message' : Message) (timeout : Nat) :
    SameEffect (.smtpSend message timeout) (.smtpSend message' timeout)
  | pipeSend (message message' : Message) (command : String) (timeout : Nat) :
    SameEffect (.pipeSend message command timeout) (.pipeSend message' command timeout)

/-- What others do before an operation, and the circumstances of the operation. -/
abbrev Meanwhile := List (Op × Choice) × Choice

/-- An operation among the operations of others. -/
def execAmong (L : Limiter ρ) (op : Op) (c : Meanwhile) (w : World ρ) : op.Res × World ρ :=
  exec L op c.2 (c.1.foldl (fun w o => (exec L o.1 o.2 w).2) w)

/-- The same operations of others, and the same clock readings. -/
structure SameMeanwhile (c₁ c₂ : Meanwhile) : Prop where
  others : c₁.1 = c₂.1
  utc : c₁.2.utc = c₂.2.utc
  utc' : c₁.2.utc' = c₂.2.utc'
  order : c₁.2.order = c₂.2.order

namespace MetadataOnly

variable {D : Deps} {L : Limiter ρ} {rid : RequestId} {auth₁ auth₂ : AuthContext}
  {cfg : AppConfig}

/-! ## One operation -/

theorem statusStore_exec {op₁ op₂ : Op} (hop : SameEffect op₁ op₂) {c₁ c₂ : Choice}
    (hutc : c₁.utc = c₂.utc) (hutc' : c₁.utc' = c₂.utc') (horder : c₁.order = c₂.order)
    {w₁ w₂ : World ρ} (h : w₁.app.statusStore = w₂.app.statusStore) :
    (exec L op₁ c₁ w₁).2.app.statusStore = (exec L op₂ c₂ w₂).2.app.statusStore := by
  cases hop with
  | refl =>
    cases op₁ with
    | putReceived record => simp only [exec, World.updateStore, h, horder]
    | setRecipientMetadata id keyId domains count =>
      simp only [exec, World.updateStore, h, hutc, hutc']
    | updateStatus id keyId u => simp only [exec, World.updateStore, h, hutc, hutc']
    | getExpire id => simp only [exec, World.updateStore, h, hutc]
    | expireOldRecords now => simp only [exec, World.updateStore, h, horder]
    | _ => exact h
  | _ => exact h

theorem statusStore_others {os : List (Op × Choice)} {w₁ w₂ : World ρ}
    (h : w₁.app.statusStore = w₂.app.statusStore) :
    (os.foldl (fun w o => (exec L o.1 o.2 w).2) w₁).app.statusStore =
      (os.foldl (fun w o => (exec L o.1 o.2 w).2) w₂).app.statusStore := by
  induction os generalizing w₁ w₂ with
  | nil => exact h
  | cons o os ih => exact ih (statusStore_exec (.refl o.1) rfl rfl rfl h)

theorem statusStore_execAmong {op₁ op₂ : Op} (hop : SameEffect op₁ op₂) {c₁ c₂ : Meanwhile}
    (hc : SameMeanwhile c₁ c₂) {w₁ w₂ : World ρ} (h : w₁.app.statusStore = w₂.app.statusStore) :
    (execAmong L op₁ c₁ w₁).2.app.statusStore = (execAmong L op₂ c₂ w₂).2.app.statusStore := by
  unfold execAmong
  rw [hc.others]
  exact statusStore_exec hop hc.utc hc.utc' hc.order (statusStore_others h)

/-! ## The branches of the handlers -/

/-- The programs couple, and end as `V` says. -/
abbrev Coupled {α β : Type} (cfg : AppConfig) (V : α → β → Prop) (p : RelayM α)
    (q : RelayM β) : Prop :=
  Couples SameEffect (AnswersAlike cfg) V p q

/-- Both handlers have come to the same point. -/
abbrev Ends {α β : Type} : α → β → Prop := fun _ _ => True

theorem SameVariant.smtpCode {e e' : AppError} (h : e.SameVariant e') :
    smtpCode e = smtpCode e' := by
  cases e <;> cases e' <;> first | rfl | (simp [AppError.SameVariant, AppError.errorCode] at h)

theorem SameVariant.apperrToCode {e e' : AppError} (h : e.SameVariant e') :
    apperrToCode e = apperrToCode e' := by
  cases e <;> cases e' <;> first | rfl | (simp [AppError.SameVariant, AppError.errorCode] at h)

theorem SameVariant.storeCode {e e' : AppError} (h : e.SameVariant e') :
    storeCodeFromAppError e = storeCodeFromAppError e' := by
  unfold storeCodeFromAppError
  rw [h]

theorem SameBranch.cases {α β : Type} {x : Except AppError α} {y : Except AppError β}
    (h : SameBranch x y) : (∃ a b, x = .ok a ∧ y = .ok b) ∨
      ∃ e e', x = .error e ∧ y = .error e' ∧ e.SameVariant e' := by
  cases x with
  | ok a =>
    cases y with
    | ok b => exact Or.inl ⟨a, b, rfl, rfl⟩
    | error e => exact h.elim
  | error e =>
    cases y with
    | ok b => exact h.elim
    | error e' => exact Or.inr ⟨e, e', rfl, rfl, h⟩

/-- One operation, the same in both, and the rest. -/
theorem coupled_same {α β : Type} {V : α → β → Prop} {op : Op} {k₁ : op.Res → RelayM α}
    {k₂ : op.Res → RelayM β} (hk : ∀ r₁ r₂, AnswersAlike cfg op op r₁ r₂ →
      Coupled cfg V (k₁ r₁) (k₂ r₂)) : Coupled cfg V (.step op k₁) (.step op k₂) :=
  .step (.refl op) hk

theorem coupled_refuse {stored₁ stored₂ answered₁ answered₂ : AppError}
    (hkey : auth₁.keyId = auth₂.keyId)
    (h : storeCodeFromAppError stored₁ = storeCodeFromAppError stored₂) :
    Coupled cfg Ends (refuse rid auth₁ stored₁ answered₁) (refuse rid auth₂ stored₂ answered₂) := by
  unfold refuse reject
  rw [h, hkey]
  exact coupled_same fun _ _ _ => trivial

theorem coupled_checkRates :
    Coupled cfg SameCheck (checkRates auth₁) (checkRates auth₂) := by
  apply coupled_same
  intro global₁ global₂ hglobal
  cases global₁ <;> cases global₂ <;> try exact hglobal.elim
  · trivial
  · refine .step (.checkIp _ _) fun ip₁ ip₂ hip => ?_
    cases ip₁ <;> cases ip₂ <;> try exact hip.elim
    · trivial
    · exact .step (.checkKey ..) fun _ _ h => h

theorem coupled_sendMessage {message₁ message₂ : Message} (hkey : auth₁.keyId = auth₂.keyId) :
    Coupled cfg Ends (sendMessage rid auth₁ cfg message₁) (sendMessage rid auth₂ cfg message₂) := by
  unfold sendMessage Smtp.submit
  rw [hkey]
  refine .perform (.refl _) fun _ _ _ => ?_
  simp only [bind_assoc]
  refine .perform (.smtpSend ..) fun o₁ o₂ ho => ?_
  simp only [pure_eq, ret_bind]
  rcases SameBranch.cases ho with ⟨_, _, h₁, h₂⟩ | ⟨e₁, e₂, h₁, h₂, he⟩
  · rw [h₁, h₂]
    exact coupled_same fun _ _ _ => trivial
  · rw [h₁, h₂]
    simp only [SameVariant.smtpCode he]
    exact coupled_same fun _ _ _ => trivial

theorem coupled_putNewReceived {α β : Type} {V : α → β → Prop} {ttl : Nat} {f : Unit → RelayM α}
    {g : Unit → RelayM β} (hkey : auth₁.keyId = auth₂.keyId) (hf : Coupled cfg V (f ()) (g ())) :
    Coupled cfg V (putNewReceived rid auth₁.keyId ttl >>= f)
      (putNewReceived rid auth₂.keyId ttl >>= g) := by
  unfold putNewReceived
  rw [hkey]
  simp only [bind_assoc]
  refine .perform (.refl Op.now) fun now₁ now₂ hnow => ?_
  obtain rfl : now₁ = now₂ := hnow
  cases SubmissionStatusRecord.newReceived rid auth₂.keyId ttl now₁ with
  | none => trivial
  | some record => exact coupled_same fun _ _ _ => hf

/-- The metadata of alike messages are the same. -/
theorem metadata_eq {m₁ m₂ : MailRequest} {v₁ v₂ : ValidatedMailRequest}
    (h : SameDomains D m₁ m₂) (hv₁ : Validation.validateMailRequest D m₁ cfg auth₁ = .ok v₁)
    (hv₂ : Validation.validateMailRequest D m₂ cfg auth₂ = .ok v₂) :
    recipientDomainsFrom D.caseTable v₁.toAddrs v₁.cc =
        recipientDomainsFrom D.caseTable v₂.toAddrs v₂.cc ∧
      recipientCount v₁.toAddrs v₁.cc = recipientCount v₂.toAddrs v₂.cc := by
  have hp₁ := Validation.validate_ok D hv₁
  have hp₂ := Validation.validate_ok D hv₂
  refine ⟨recipientDomainsFrom_congr ?_, ?_⟩
  · rw [hp₁.toAddrs, hp₁.cc, hp₂.toAddrs, hp₂.cc]
    exact h.domains
  · have hcount := h.count
    unfold MailRequest.recipients at hcount
    rw [recipientCount, recipientCount, hp₁.toAddrs, hp₁.cc, hp₂.toAddrs, hp₂.cc,
      ← List.length_append, ← List.length_append, hcount]

theorem coupled_sendValidated {m₁ m₂ : MailRequest} {v₁ v₂ : ValidatedMailRequest}
    (hkey : auth₁.keyId = auth₂.keyId) (h : MailAlike D cfg auth₁ auth₂ m₁ m₂)
    (hv₁ : Validation.validateMailRequest D m₁ cfg auth₁ = .ok v₁)
    (hv₂ : Validation.validateMailRequest D m₂ cfg auth₂ = .ok v₂) :
    Coupled cfg Ends (sendValidated D rid auth₁ cfg v₁) (sendValidated D rid auth₂ cfg v₂) := by
  obtain ⟨hdomains, hcount⟩ := metadata_eq h.recipients hv₁ hv₂
  unfold sendValidated
  rw [hkey, hdomains, hcount]
  apply coupled_same
  intro _ _ _
  rcases SameBranch.cases (h.build v₁ v₂ hv₁ hv₂) with ⟨_, _, hb₁, hb₂⟩ | ⟨_, _, hb₁, hb₂, -⟩
  · rw [hb₁, hb₂]
    exact coupled_sendMessage hkey
  · rw [hb₁, hb₂]
    exact coupled_same fun _ _ _ => trivial

theorem coupled_sendPayload {m₁ m₂ : MailRequest} (hkey : auth₁.keyId = auth₂.keyId)
    (h : MailAlike D cfg auth₁ auth₂ m₁ m₂) :
    Coupled cfg Ends (sendPayload D rid auth₁ cfg m₁) (sendPayload D rid auth₂ cfg m₂) := by
  apply coupled_checkRates.bind
  intro rates₁ rates₂ hrates
  cases rates₁ with
  | error retryAfter₁ =>
    cases rates₂ with
    | error retryAfter₂ => exact coupled_refuse hkey rfl
    | ok _ => exact hrates.elim
  | ok _ =>
    cases rates₂ with
    | error retryAfter₂ => exact hrates.elim
    | ok _ =>
      simp only []
      rcases SameBranch.cases h.validation with ⟨v₁, v₂, hv₁, hv₂⟩ | ⟨_, _, hv₁, hv₂, -⟩
      · rw [hv₁, hv₂]
        exact coupled_sendValidated hkey h hv₁ hv₂
      · rw [hv₁, hv₂]
        exact coupled_refuse hkey rfl

theorem coupled_sendMail {headers₁ headers₂ : HeaderMap} {body₁ body₂ : List UInt8}
    (hkey : auth₁.keyId = auth₂.keyId)
    (h : Submission.Alike D cfg auth₁ auth₂ (.send headers₁ body₁) (.send headers₂ body₂)) :
    Coupled cfg Ends (sendMail D rid auth₁ headers₁ body₁)
      (sendMail D rid auth₂ headers₂ body₂) := by
  obtain ⟨hread, hmail⟩ := h
  apply coupled_same
  intro cfg₁ cfg₂ hcfg
  obtain ⟨rfl, rfl⟩ : cfg₁ = cfg ∧ cfg₂ = cfg := hcfg
  apply coupled_putNewReceived hkey
  unfold sendReceived
  rcases SameBranch.cases hread with ⟨m₁, m₂, hm₁, hm₂⟩ | ⟨e₁, e₂, hm₁, hm₂, he⟩
  · rw [hm₁, hm₂]
    exact coupled_sendPayload hkey (hmail m₁ m₂ hm₁ hm₂)
  · rw [hm₁, hm₂]
    exact coupled_refuse hkey (SameVariant.storeCode he)

/-! ## A message of `send_bulk` -/

/-- Both are rejected, or both prepared under one id and one key. -/
def SamePrepared : Except MessageResult PreparedMessage → Except MessageResult PreparedMessage →
    Prop
  | .error _, .error _ => True
  | .ok p₁, .ok p₂ => p₁.reqId = p₂.reqId ∧ p₁.keyId = p₂.keyId
  | _, _ => False

theorem coupled_rateLimitedMessage {index₁ index₂ : Nat} {text : String}
    (hkey : auth₁.keyId = auth₂.keyId) :
    Coupled cfg SamePrepared (rateLimitedMessage index₁ rid auth₁ cfg text)
      (rateLimitedMessage index₂ rid auth₂ cfg text) := by
  unfold rateLimitedMessage storeRejected
  simp only [bind_assoc]
  apply coupled_putNewReceived hkey
  rw [hkey]
  exact coupled_same fun _ _ _ => trivial

theorem coupled_prepareValidated {index₁ index₂ : Nat} {m₁ m₂ : MailRequest}
    {v₁ v₂ : ValidatedMailRequest} (hkey : auth₁.keyId = auth₂.keyId)
    (h : MailAlike D cfg auth₁ auth₂ m₁ m₂)
    (hv₁ : Validation.validateMailRequest D m₁ cfg auth₁ = .ok v₁)
    (hv₂ : Validation.validateMailRequest D m₂ cfg auth₂ = .ok v₂) :
    Coupled cfg SamePrepared (prepareValidated D index₁ rid auth₁ cfg v₁)
      (prepareValidated D index₂ rid auth₂ cfg v₂) := by
  obtain ⟨hdomains, hcount⟩ := metadata_eq h.recipients hv₁ hv₂
  unfold prepareValidated
  rw [hkey, hdomains, hcount]
  apply coupled_same
  intro _ _ _
  rcases SameBranch.cases (h.build v₁ v₂ hv₁ hv₂) with ⟨_, _, hb₁, hb₂⟩ | ⟨_, _, hb₁, hb₂, -⟩
  · rw [hb₁, hb₂]
    exact ⟨rfl, rfl⟩
  · rw [hb₁, hb₂]
    exact coupled_same fun _ _ _ => trivial

theorem coupled_prepareAdmitted {index₁ index₂ : Nat} {m₁ m₂ : MailRequest}
    (hkey : auth₁.keyId = auth₂.keyId) (h : MailAlike D cfg auth₁ auth₂ m₁ m₂) :
    Coupled cfg SamePrepared (prepareAdmitted D index₁ m₁ rid auth₁ cfg)
      (prepareAdmitted D index₂ m₂ rid auth₂ cfg) := by
  apply coupled_putNewReceived hkey
  rcases SameBranch.cases h.validation with ⟨v₁, v₂, hv₁, hv₂⟩ | ⟨e₁, e₂, hv₁, hv₂, he⟩
  · rw [hv₁, hv₂]
    exact coupled_prepareValidated hkey h hv₁ hv₂
  · rw [hv₁, hv₂]
    simp only [SameVariant.apperrToCode he, hkey]
    exact coupled_same fun _ _ _ => trivial

theorem coupled_phase1Prepare {index₁ index₂ : Nat} {m₁ m₂ : MailRequest}
    (hkey : auth₁.keyId = auth₂.keyId) (h : MailAlike D cfg auth₁ auth₂ m₁ m₂) :
    Coupled cfg SamePrepared (phase1Prepare D index₁ m₁ rid auth₁ cfg)
      (phase1Prepare D index₂ m₂ rid auth₂ cfg) := by
  apply coupled_same
  intro global₁ global₂ hglobal
  cases global₁ <;> cases global₂ <;> try exact hglobal.elim
  · exact coupled_rateLimitedMessage hkey
  · refine .step (.checkIp _ _) fun ip₁ ip₂ hip => ?_
    cases ip₁ <;> cases ip₂ <;> try exact hip.elim
    · exact coupled_rateLimitedMessage hkey
    · refine .step (.checkKey ..) fun key₁ key₂ hkeys => ?_
      cases key₁ <;> cases key₂ <;> try exact hkeys.elim
      · exact coupled_rateLimitedMessage hkey
      · exact coupled_prepareAdmitted hkey h

/-- The transports answer alike, whichever the mode. -/
theorem coupled_submitByMode {message₁ message₂ : Message} :
    Coupled cfg SameBranch (submitByMode cfg message₁) (submitByMode cfg message₂) := by
  unfold submitByMode
  split
  · exact .step (.pipeSend ..) fun _ _ h => h
  · exact .step (.smtpSend ..) fun _ _ h => h

theorem coupled_phase2Submit {p₁ p₂ : PreparedMessage} (hid : p₁.reqId = p₂.reqId)
    (hkey : p₁.keyId = p₂.keyId) :
    Coupled cfg Ends (phase2Submit cfg p₁) (phase2Submit cfg p₂) := by
  unfold phase2Submit
  rw [hid, hkey]
  refine coupled_same fun _ _ _ => coupled_submitByMode.bind fun res₁ res₂ hres => ?_
  rcases SameBranch.cases hres with ⟨_, _, rfl, rfl⟩ | ⟨_, _, rfl, rfl, -⟩
  · exact coupled_same fun _ _ _ => trivial
  · exact coupled_same fun _ _ _ => trivial

theorem coupled_bulkMessage {index₁ index₂ : Nat} {m₁ m₂ : MailRequest}
    (hkey : auth₁.keyId = auth₂.keyId) (h : MailAlike D cfg auth₁ auth₂ m₁ m₂) :
    Coupled cfg Ends (bulkMessage D index₁ rid auth₁ cfg m₁)
      (bulkMessage D index₂ rid auth₂ cfg m₂) := by
  apply (coupled_phase1Prepare hkey h).bind
  intro out₁ out₂ hout
  cases out₁ <;> cases out₂ <;> try exact hout.elim
  · trivial
  · exact coupled_phase2Submit hout.1 hout.2

theorem coupled_process {s₁ s₂ : Submission} (hkey : auth₁.keyId = auth₂.keyId)
    (h : s₁.Alike D cfg auth₁ auth₂ s₂) :
    Coupled cfg Ends (s₁.process D rid auth₁) (s₂.process D rid auth₂) := by
  cases s₁ with
  | send headers₁ body₁ =>
    cases s₂ with
    | send headers₂ body₂ => exact (coupled_sendMail hkey h).bind fun _ _ _ => trivial
    | bulk index m => exact h.elim
  | bulk index₁ m₁ =>
    cases s₂ with
    | send headers body => exact h.elim
    | bulk index₂ m₂ =>
      apply coupled_same
      intro cfg₁ cfg₂ hcfg
      obtain ⟨rfl, rfl⟩ : cfg₁ = cfg ∧ cfg₂ = cfg := hcfg
      exact (coupled_bulkMessage hkey h).bind fun _ _ _ => trivial

end MetadataOnly

open MetadataOnly in
/-- Two submissions that take the same branches, under one id, one key and one
config and at the same times, leave the same store, if their recipients have the
same number and the same domains. -/
theorem records_of_alike_submissions {D : Deps} {L : Limiter ρ} {rid : RequestId}
    {auth₁ auth₂ : AuthContext} {cfg : AppConfig} {s₁ s₂ : Submission} {w₁ w₂ : World ρ}
    {cs₁ cs₂ : Nat → Meanwhile} (hkey : auth₁.keyId = auth₂.keyId)
    (halike : s₁.Alike D cfg auth₁ auth₂ s₂)
    (hstore : w₁.app.statusStore = w₂.app.statusStore)
    (hmeanwhile : ∀ n, SameMeanwhile (cs₁ n) (cs₂ n))
    (hanswers : AnswersRelated (execAmong L) (AnswersAlike cfg) (s₁.process D rid auth₁)
      (s₂.process D rid auth₂) cs₁ cs₂ w₁ w₂) :
    (run (execAmong L) (s₁.process D rid auth₁) cs₁ w₁).2.app.statusStore =
      (run (execAmong L) (s₂.process D rid auth₂) cs₂ w₂).2.app.statusStore :=
  Couples.run (execAmong L) (fun w₁ w₂ => w₁.app.statusStore = w₂.app.statusStore) SameMeanwhile
    (fun hop hc h => statusStore_execAmong hop hc h) (coupled_process hkey halike) hanswers
    hmeanwhile hstore

/-! Two messages that share the domains of their recipients and nothing else. -/

def otherRequest : MailRequest where
  toAddrs := ["carol@EXAMPLE.org"]
  subject := "private"
  body := "other text"
  fromName := none
  replyTo := some ["dave@example.net"]
  bodyHtml := none
  cc := some ["erin@example.com"]
  attachments := none
  metadata := none

/-- The sample config without allowlists. -/
def openWorld : World Unit where
  app := .new (.default "127.0.0.1:8080" "relay@example.com" [openKey]) ()
  bodyLimit := 1048576
  handed := []

theorem records_of_alike_sample :
    (run (execAmong .admitAll) (Submission.process .plain sampleId sampleAuth
        (.bulk 0 sampleRequest)) (fun _ => ([], sampleChoice)) openWorld).2.app.statusStore =
      (run (execAmong .admitAll) (Submission.process .plain sampleId sampleAuth
        (.bulk 1 otherRequest)) (fun _ => ([], sampleChoice)) openWorld).2.app.statusStore := by
  have hsample : domainNames RustStr.asciiTable sampleRequest.recipients =
      ["example.com", "example.org"] := by decide
  have hother : domainNames RustStr.asciiTable otherRequest.recipients =
      ["example.org", "example.com"] := by decide
  have hdomains : SameDomains .plain sampleRequest otherRequest := by
    refine ⟨rfl, fun d => ?_⟩
    change d ∈ domainNames RustStr.asciiTable _ ↔ d ∈ domainNames RustStr.asciiTable _
    rw [hsample, hother]
    simp only [List.mem_cons, List.not_mem_nil, or_false]
    exact or_comm
  have halike : MailAlike .plain openWorld.app.config sampleAuth sampleAuth sampleRequest
      otherRequest := by
    refine ⟨hdomains, trivial, fun v₁ v₂ hv₁ hv₂ => ?_⟩
    cases hv₁
    cases hv₂
    trivial
  refine records_of_alike_submissions rfl halike rfl (fun _ => ⟨rfl, rfl, rfl, rfl⟩) ?_
  -- config, three checks, clock, put, metadata, start, transport, end
  refine And.intro ⟨rfl, rfl⟩ (And.intro trivial (And.intro trivial (And.intro trivial
    (And.intro rfl (And.intro trivial (And.intro trivial (And.intro trivial (And.intro trivial
      (And.intro trivial trivial)))))))))

end HttpSmtpRele
