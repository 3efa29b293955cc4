import HttpSmtpRele.Mail
import HttpSmtpRele.Validation

/-!
# No open relay

What the validator accepts and what the builder makes of it, put together: the
recipients of a message that is handed to the transport are those of the
request, and each of them is one the configuration permits.
-/

namespace HttpSmtpRele

open RustStr

/-- The recipients a request asks for. -/
def MailRequest.recipients (req : MailRequest) : List String := req.toAddrs ++ req.cc.getD []

/-- The allowlists that apply to a recipient, read directly. -/
structure RecipientPermitted (D : Deps) (config : AppConfig) (auth : AuthContext)
    (addr : String) : Prop where
  domain : ∃ d, (afterLast addr '@').map (toLowercase D.caseTable) = some d ∧
    (config.mail.allowedRecipientDomains ≠ [] →
      ∃ x ∈ config.mail.allowedRecipientDomains, eqIgnoreAsciiCase x d = true) ∧
    ∀ key, Policy.findKey config auth.keyId = some key → key.allowedRecipientDomains ≠ [] →
      ∃ x ∈ key.allowedRecipientDomains, eqIgnoreAsciiCase x d = true
  recipient : ∀ key, Policy.findKey config auth.keyId = some key → key.allowedRecipients ≠ [] →
    ∃ r ∈ key.allowedRecipients, eqIgnoreAsciiCase r addr = true

namespace OpenRelay

theorem extractDomain_eq_ok {D : Deps} {addr d : String} :
    Validation.extractDomain D addr = .ok d ↔
      (afterLast addr '@').map (toLowercase D.caseTable) = some d := by
  unfold Validation.extractDomain afterLast
  cases rsplitOnce addr '@' with
  | none => simp
  | some p => simp

theorem addressPermitted_listed {key : ApiKeyConfig} {addr : String}
    (h : Policy.addressPermittedForKey key addr = true) (hne : key.allowedRecipients ≠ []) :
    ∃ r ∈ key.allowedRecipients, eqIgnoreAsciiCase r addr = true := by
  unfold Policy.addressPermittedForKey at h
  rw [if_pos (by simpa using hne)] at h
  simpa using h

theorem recipientPermitted_of_permitted {D : Deps} {config : AppConfig} {auth : AuthContext}
    {addr : String} (h : Validation.Permitted D config auth addr) :
    RecipientPermitted D config auth addr := by
  obtain ⟨⟨d, hd, hglobal, hkey⟩, hrecipient⟩ := h
  refine ⟨⟨d, extractDomain_eq_ok.mp hd, ?_, fun key hk => ?_⟩, fun key hk hne => ?_⟩
  · exact Policy.domainListed_eq_true.mp hglobal
  · exact Policy.domainListed_eq_true.mp (hkey key hk)
  · exact addressPermitted_listed (hrecipient key hk) hne

/-- Addresses that parse become mailboxes with those very addresses. -/
theorem parsed_emails {D : Deps} (laws : LettreLaws D) {addrs : List String}
    {boxes : List Mailbox} (hparsed : Mail.Parsed D addrs boxes)
    (haddrs : ∀ addr ∈ addrs, ∃ a, D.parseAddress addr = some a) :
    (boxes.map Mailbox.email).map some = addrs.map D.parseAddress := by
  induction addrs generalizing boxes with
  | nil =>
    cases boxes with
    | nil => rfl
    | cons m boxes => cases hparsed
  | cons addr addrs ih =>
    cases boxes with
    | nil => cases hparsed
    | cons m boxes =>
      obtain ⟨hm, hrest⟩ := List.cons_eq_cons.mp hparsed
      obtain ⟨a, ha⟩ := haddrs addr List.mem_cons_self
      have hemail : m.email = a := laws.mailbox_email addr a m ha hm.symm
      have htail := ih hrest fun addr' h => haddrs addr' (List.mem_cons_of_mem _ h)
      rw [List.map_cons, List.map_cons, List.map_cons, htail, ha, hemail]

end OpenRelay

open OpenRelay in
/-- A built message goes to the recipients of the request, in order and to
nobody else; they are within the limit and permitted; the sender is configured. -/
theorem message_recipients_permitted {D : Deps} (laws : LettreLaws D) {req : MailRequest}
    {config : AppConfig} {auth : AuthContext} {v : ValidatedMailRequest} {message : Message}
    (hvalid : Validation.validateMailRequest D req config auth = .ok v)
    (hbuilt : Mail.buildMessage D v config = .ok message) :
    (message.envelope.forwardPath.map some = req.recipients.map D.parseAddress ∧
        message.headers.bcc = []) ∧
      (1 ≤ message.envelope.forwardPath.length ∧
        message.envelope.forwardPath.length ≤ config.mail.maxRecipients) ∧
      (∃ name a, message.headers.sender = [⟨name, a⟩] ∧
        D.parseAddress config.mail.defaultFrom = some a) ∧
      ∀ addr ∈ req.recipients, RecipientPermitted D config auth addr := by
  have hpassed := Validation.validate_ok D hvalid
  have hmsg := Mail.buildMessage_ok D hbuilt
  have hrec : req.recipients = v.toAddrs ++ v.cc := by
    rw [MailRequest.recipients, hpassed.toAddrs, hpassed.cc]
  have hparse : ∀ addr ∈ v.toAddrs ++ v.cc, ∃ a, D.parseAddress addr = some a :=
    fun addr h => (hpassed.accepted addr h).parses
  have hforward : message.envelope.forwardPath.map some = req.recipients.map D.parseAddress := by
    rw [laws.envelope_forward _ _ hmsg.envelope, hmsg.bcc, List.append_nil, hrec,
      List.map_append, List.map_append, List.map_append,
      parsed_emails laws hmsg.toAddrs fun addr h => hparse addr (List.mem_append_left _ h),
      parsed_emails laws hmsg.cc fun addr h => hparse addr (List.mem_append_right _ h)]
  have hlen : message.envelope.forwardPath.length = v.toAddrs.length + v.cc.length := by
    have := congrArg List.length hforward
    rw [hrec] at this
    simpa using this
  refine ⟨⟨hforward, hmsg.bcc⟩, ⟨?_, ?_⟩, ?_, fun addr haddr => ?_⟩
  · rw [hlen]
    have := List.length_pos_of_ne_nil hpassed.nonempty
    omega
  · rw [hlen]
    exact hpassed.count
  · obtain ⟨a, ha, hsender⟩ := hmsg.sender
    exact ⟨_, a, hsender, ha⟩
  · exact recipientPermitted_of_permitted (hpassed.accepted addr (hrec ▸ haddr)).permitted

/-! A request under two allowlists, with a recipient in each field. -/

def sampleKey : ApiKeyConfig :=
  { ApiKeyConfig.default "svc" ⟨"0123456789abcdef0123456789abcdef"⟩ with
    allowedRecipients := ["Alice@Example.com", "bob@example.org"] }

def sampleConfig : AppConfig :=
  let config := AppConfig.default "127.0.0.1:8080" "relay@example.com" [sampleKey]
  { config with
    mail := { config.mail with allowedRecipientDomains := ["example.com", "EXAMPLE.org"] } }

def sampleAuth : AuthContext where
  keyId := "svc"
  clientIp := .localhost
  keyRateLimitPerMin := none
  keyBurst := 0

def sampleRequest : MailRequest where
  toAddrs := ["alice@example.COM"]
  subject := "hello"
  body := "text"
  fromName := some "Relay"
  replyTo := none
  bodyHtml := none
  cc := some ["bob@example.org"]
  attachments := none
  metadata := none

def sampleValidated : ValidatedMailRequest where
  toAddrs := ["alice@example.COM"]
  subject := "hello"
  body := "text"
  fromName := some "Relay"
  replyTo := []
  bodyHtml := none
  cc := ["bob@example.org"]
  attachments := []
  clientRequestId := none

theorem message_recipients_permitted_sample :
    Validation.validateMailRequest .plain sampleRequest sampleConfig sampleAuth =
        .ok sampleValidated ∧
      ∃ message, Mail.buildMessage .plain sampleValidated sampleConfig = .ok message ∧
        message.envelope.forwardPath.map some =
          ["alice@example.COM", "bob@example.org"].map Deps.plainAddress ∧
        ∀ addr ∈ sampleRequest.recipients,
          RecipientPermitted .plain sampleConfig sampleAuth addr := by
  have hvalid : Validation.validateMailRequest .plain sampleRequest sampleConfig sampleAuth =
      .ok sampleValidated := by decide
  refine ⟨hvalid, _, rfl, ?_, ?_⟩
  · exact (message_recipients_permitted Deps.plain_lettreLaws hvalid rfl).1.1
  · exact (message_recipients_permitted Deps.plain_lettreLaws hvalid rfl).2.2.2

end HttpSmtpRele
