import HttpSmtpRele.Lib.Results
import HttpSmtpRele.Error
import HttpSmtpRele.Request

/-!
# `mail.rs`: building the message

`buildMessage` re-parses the strings the validator let through.  Every failure
is `AppError::Internal` (`buildMessage_error`); a message that was built carries
the mailboxes of `to` and `cc`, in order, and no `Bcc` (`buildMessage_ok`).
-/

namespace HttpSmtpRele.Mail

open Except

variable (D : Deps)

/-- `addr.parse::<Mailbox>().map_err(|_| AppError::Internal)`. -/
def parseMailbox (addr : String) : Except AppError Mailbox :=
  okOr (D.parseMailbox addr) .internal

/-- One of the loops that add a mailbox per address. -/
def addMailboxes (add : MessageBuilder → Mailbox → MessageBuilder) :
    MessageBuilder → List String → Except AppError MessageBuilder
  | builder, [] => .ok builder
  | builder, addr :: addrs => do
    let mailbox ← parseMailbox D addr
    addMailboxes add (add builder mailbox) addrs

def attachmentParts : List ValidatedAttachment → Except AppError (List MailPart)
  | [] => .ok []
  | att :: atts => do
    failIf (!D.parseContentType att.contentType) AppError.internal
    let parts ← attachmentParts atts
    .ok (.attachment att.filename att.contentType att.decoded :: parts)

/-- Plain text, `multipart/alternative`, or `multipart/mixed` around it. -/
def content (validated : ValidatedMailRequest) : Except AppError MailPart :=
  let bodyPart := MailPart.alternative
    (.plain validated.body :: (validated.bodyHtml.map MailPart.html).toList)
  if validated.attachments.isEmpty && validated.bodyHtml.isNone then
    .ok (.plain validated.body)
  else if validated.attachments.isEmpty then
    .ok bodyPart
  else do
    let parts ← attachmentParts D validated.attachments
    .ok (.mixed (bodyPart :: parts))

/-- `builder.body(..)` and `builder.multipart(..)`. -/
def finish (builder : MessageBuilder) (part : MailPart) : Except AppError Message := do
  let envelope ← okOr (D.envelope builder) .internal
  .ok { envelope := envelope, headers := builder, content := part }

def buildMessage (validated : ValidatedMailRequest) (config : AppConfig) :
    Except AppError Message := do
  let fromAddr ← okOr (D.parseAddress config.mail.defaultFrom) .internal
  -- display name: request, then config
  let fromName := validated.fromName.or config.mail.defaultFromName
  let builder : MessageBuilder := { sender := [{ name := fromName, email := fromAddr }] }
  let builder ← addMailboxes D MessageBuilder.addTo builder validated.toAddrs
  let builder := { builder with subject := some validated.subject }
  let builder ← addMailboxes D MessageBuilder.addCc builder validated.cc
  let builder ← addMailboxes D MessageBuilder.addReplyTo builder validated.replyTo
  let part ← content D validated
  finish D builder part

/-! ## What was built -/

/-- The mailboxes `addrs` parse to, in order. -/
def Parsed (addrs : List String) (boxes : List Mailbox) : Prop :=
  boxes.map some = addrs.map D.parseMailbox

theorem Parsed.nil : Parsed D [] [] := rfl

theorem parseMailbox_ok {addr : String} {m : Mailbox} :
    parseMailbox D addr = .ok m ↔ D.parseMailbox addr = some m := okOr_eq_ok

/-- A loop adds the parsed mailboxes at the end of its own header. -/
theorem addMailboxes_ok {add : MessageBuilder → Mailbox → MessageBuilder}
    (addAll : MessageBuilder → List Mailbox → MessageBuilder)
    (hnil : ∀ b, addAll b [] = b) (hcons : ∀ b m ms, addAll b (m :: ms) = addAll (add b m) ms)
    {addrs : List String} {b b' : MessageBuilder} (h : addMailboxes D add b addrs = .ok b') :
    ∃ boxes, Parsed D addrs boxes ∧ b' = addAll b boxes := by
  induction addrs generalizing b with
  | nil =>
    cases h
    exact ⟨[], .nil D, (hnil _).symm⟩
  | cons addr addrs ih =>
    rw [addMailboxes, bind_eq_ok_iff] at h
    obtain ⟨m, hm, h⟩ := h
    obtain ⟨boxes, hboxes, rfl⟩ := ih h
    refine ⟨m :: boxes, ?_, (hcons b m boxes).symm⟩
    rw [Parsed, List.map_cons, List.map_cons, (parseMailbox_ok D).mp hm]
    exact congrArg (some m :: ·) hboxes

theorem addTo_ok {addrs : List String} {b b' : MessageBuilder}
    (h : addMailboxes D MessageBuilder.addTo b addrs = .ok b') :
    ∃ boxes, Parsed D addrs boxes ∧ b' = { b with toAddrs := b.toAddrs ++ boxes } :=
  addMailboxes_ok D (fun b ms => { b with toAddrs := b.toAddrs ++ ms })
    (by simp) (by simp [MessageBuilder.addTo]) h

theorem addCc_ok {addrs : List String} {b b' : MessageBuilder}
    (h : addMailboxes D MessageBuilder.addCc b addrs = .ok b') :
    ∃ boxes, Parsed D addrs boxes ∧ b' = { b with cc := b.cc ++ boxes } :=
  addMailboxes_ok D (fun b ms => { b with cc := b.cc ++ ms })
    (by simp) (by simp [MessageBuilder.addCc]) h

theorem addReplyTo_ok {addrs : List String} {b b' : MessageBuilder}
    (h : addMailboxes D MessageBuilder.addReplyTo b addrs = .ok b') :
    ∃ boxes, Parsed D addrs boxes ∧ b' = { b with replyTo := b.replyTo ++ boxes } :=
  addMailboxes_ok D (fun b ms => { b with replyTo := b.replyTo ++ ms })
    (by simp) (by simp [MessageBuilder.addReplyTo]) h

/-- The headers and the envelope of a built message. -/
structure Built (validated : ValidatedMailRequest) (config : AppConfig) (message : Message) :
    Prop where
  sender : ∃ a, D.parseAddress config.mail.defaultFrom = some a ∧
    message.headers.sender = [⟨validated.fromName.or config.mail.defaultFromName, a⟩]
  toAddrs : Parsed D validated.toAddrs message.headers.toAddrs
  cc : Parsed D validated.cc message.headers.cc
  bcc : message.headers.bcc = []
  replyTo : Parsed D validated.replyTo message.headers.replyTo
  subject : message.headers.subject = some validated.subject
  envelope : D.envelope message.headers = some message.envelope

theorem buildMessage_ok {validated : ValidatedMailRequest} {config : AppConfig}
    {message : Message} (h : buildMessage D validated config = .ok message) :
    Built D validated config message := by
  unfold buildMessage at h
  simp only [finish, bind_eq_ok_iff, okOr_eq_ok, Except.ok.injEq] at h
  obtain ⟨fromAddr, hfrom, b₁, hto, b₂, hcc, b₃, hrt, part, -, envelope, henv, rfl⟩ := h
  obtain ⟨toBoxes, hparseTo, rfl⟩ := addTo_ok D hto
  obtain ⟨ccBoxes, hparseCc, rfl⟩ := addCc_ok D hcc
  obtain ⟨rtBoxes, hparseRt, rfl⟩ := addReplyTo_ok D hrt
  refine ⟨⟨fromAddr, hfrom, rfl⟩, ?_, ?_, rfl, ?_, rfl, henv⟩
  · simpa using hparseTo
  · simpa using hparseCc
  · simpa using hparseRt

/-! ## Failures -/

theorem addMailboxes_failsWith {add : MessageBuilder → Mailbox → MessageBuilder}
    (b : MessageBuilder) (addrs : List String) :
    FailsWith (· = AppError.internal) (addMailboxes D add b addrs) := by
  induction addrs generalizing b with
  | nil => exact failsWith_ok _
  | cons addr addrs ih =>
    refine FailsWith.bind ?_ fun m => ih _
    exact failsWith_okOr rfl

theorem attachmentParts_failsWith (atts : List ValidatedAttachment) :
    FailsWith (· = AppError.internal) (attachmentParts D atts) := by
  induction atts with
  | nil => exact failsWith_ok _
  | cons att atts ih =>
    exact FailsWith.bind (failsWith_failIf rfl) fun _ => ih.bind fun _ => failsWith_ok _

/-- A build failure is an internal error, whatever the request. -/
theorem buildMessage_error {validated : ValidatedMailRequest} {config : AppConfig} {e : AppError}
    (h : buildMessage D validated config = .error e) : e = .internal := by
  refine (?_ : FailsWith (· = AppError.internal) _) e h
  unfold buildMessage
  refine FailsWith.bind (failsWith_okOr rfl) fun fromAddr =>
    (addMailboxes_failsWith D _ _).bind fun b₁ => (addMailboxes_failsWith D _ _).bind fun b₂ =>
    (addMailboxes_failsWith D _ _).bind fun b₃ => FailsWith.bind ?_ fun part =>
    FailsWith.bind (failsWith_okOr rfl) fun _ => failsWith_ok _
  unfold content
  split
  · exact failsWith_ok _
  · split
    · exact failsWith_ok _
    · exact (attachmentParts_failsWith D _).bind fun _ => failsWith_ok _

end HttpSmtpRele.Mail
