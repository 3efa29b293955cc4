import Mathlib.Algebra.Group.Nat.Defs
import HttpSmtpRele.Lib.Results
import HttpSmtpRele.Error
import HttpSmtpRele.Policy

/-!
# `validation.rs`: the request validation pipeline

`validateMailRequest` rejects, it never rewrites: `validate_ok` lists what a
request that passed satisfies, check by check.  Its errors are `Validation`, or
`FeatureDisabled` from the two gates at the top (`validate_error`).
-/

namespace HttpSmtpRele

open RustStr Except

namespace Sanitize

def rejectHeaderCrlf (field value : String) : Except AppError Unit :=
  failIf (containsHeaderInjection value)
    (.validation (field ++ ": CR or LF characters are not allowed"))

end Sanitize

namespace Validation

open Sanitize

variable (D : Deps)

/-! ## Field validators -/

def validateEmailAddress (raw field : String) : Except AppError String := do
  failIf (containsHeaderInjection raw)
    (.validation ("field `" ++ field ++ "` contains illegal line break"))
  match D.parseAddress raw with
  | some a => .ok a.serialized
  | none => .error (.validation ("field `" ++ field ++ "` is not a valid email address"))

def validateSubject (raw : String) (maxLen : Nat) : Except AppError String := do
  failIf (trim raw).isEmpty (.validation "field `subject` must not be empty")
  failIf (containsHeaderInjection raw) (.validation "field `subject` contains illegal line break")
  failIf (containsControlChars raw)
    (.validation "field `subject` contains illegal control character")
  failIf (raw.length > maxLen) (.validation
    ("field `subject` exceeds maximum length of " ++ toString maxLen ++ " characters"))
  .ok raw

def validateBody (raw : String) (maxLen : Nat) : Except AppError String := do
  failIf (containsChar raw '\x00') (.validation "field `body` contains NUL byte")
  failIf (raw.utf8ByteSize > maxLen) (.validation
    ("field `body` exceeds maximum size of " ++ toString maxLen ++ " bytes"))
  .ok raw

def validateBodyHtml (html : String) (maxBodyBytes : Nat) : Except AppError Unit := do
  failIf (containsChar html '\x00') (.validation "body_html: contains NUL character")
  failIf (html.utf8ByteSize > maxBodyBytes) (.validation
    ("body_html: exceeds maximum of " ++ toString maxBodyBytes ++ " bytes"))

def validateDisplayName (raw field : String) : Except AppError String := do
  failIf (containsHeaderInjection raw)
    (.validation ("field `" ++ field ++ "` contains illegal line break"))
  .ok raw

/-! ## Recipient policy -/

def extractDomain (email : String) : Except AppError String :=
  match rsplitOnce email '@' with
  | some (_, d) => .ok (toLowercase D.caseTable d)
  | none => .error (.validation "could not extract domain from email address")

def checkRecipientDomain (email : String) (config : AppConfig) (auth : AuthContext) :
    Except AppError Unit := do
  let domain ← extractDomain D email
  failIf (!config.mail.allowedRecipientDomains.isEmpty &&
      !config.mail.allowedRecipientDomains.any fun d => eqIgnoreAsciiCase d domain)
    (.validation ("recipient domain `" ++ domain ++ "` is not permitted"))
  match Policy.findKey config auth.keyId with
  | some key =>
    failIf (!key.allowedRecipientDomains.isEmpty &&
        !key.allowedRecipientDomains.any fun d => eqIgnoreAsciiCase d domain)
      (.validation ("recipient domain `" ++ domain ++ "` is not permitted for this API key"))
  | none => .ok ()

def checkRecipientDomainOrAddress (addr : String) (config : AppConfig) (auth : AuthContext) :
    Except AppError Unit := do
  match Policy.findKey config auth.keyId with
  | some key =>
    failIf (!Policy.addressPermittedForKey key addr)
      (.validation "to: recipient is not permitted for this API key")
  | none => .ok ()
  checkRecipientDomain D addr config auth

/-- The body of the loops over `to` and `cc`. -/
def checkRecipient (field : String) (config : AppConfig) (auth : AuthContext) (addr : String) :
    Except AppError Unit := do
  let _ ← validateEmailAddress D addr field
  rejectHeaderCrlf field addr
  checkRecipientDomainOrAddress D addr config auth

def checkReplyTo (addr : String) : Except AppError Unit := do
  let _ ← validateEmailAddress D addr "reply_to"
  rejectHeaderCrlf "reply_to" addr

/-! ## Attachments -/

/-- `(max_attachment_bytes * 4 / 3) + 8` in 64-bit `usize`, wrapping as in release. -/
def maxEncoded (maxAttachmentBytes : Nat) : Nat := maxAttachmentBytes * 4 % 2 ^ 64 / 3 + 8

def validateAttachment (mail : MailConfig) (i : Nat) (spec : AttachmentSpec) :
    Except AppError (List UInt8) := do
  failIf (spec.filename.isEmpty || spec.filename.utf8ByteSize > 255)
    (.validation "attachments[].filename: must be 1–255 chars")
  failIf (containsChar spec.filename '/' || containsChar spec.filename '\\' ||
      containsChar spec.filename '\x00')
    (.validation "attachments[].filename: path separators not allowed")
  rejectHeaderCrlf "attachments[].filename" spec.filename
  failIf (spec.contentType.isEmpty || !containsChar spec.contentType '/' ||
      containsHeaderInjection spec.contentType || containsControlChars spec.contentType)
    (.validation "attachments[].content_type: invalid format or forbidden characters")
  failIf (spec.data.utf8ByteSize > maxEncoded mail.maxAttachmentBytes) (.validation
    ("attachments[" ++ toString i ++ "].data: encoded size " ++
      toString spec.data.utf8ByteSize ++ " bytes exceeds limit"))
  match D.decodeBase64 spec.data with
  | none => .error (.validation "attachments[].data: invalid base64")
  | some decoded =>
    failIf (decoded.length > mail.maxAttachmentBytes) (.validation
      ("attachments[].data: decoded size " ++ toString decoded.length ++
        " exceeds maximum " ++ toString mail.maxAttachmentBytes))
    .ok decoded

def checkTotal (mail : MailConfig) (total : Nat) : Except AppError Unit :=
  match mail.maxTotalAttachmentBytes with
  | some maxTotal =>
    failIf (total > maxTotal) (.validation
      ("attachments: total decoded size " ++ toString total ++
        " exceeds aggregate limit " ++ toString maxTotal))
  | none => .ok ()

/-- The attachment loop from index `i`, with `total` bytes decoded so far. -/
def validateAttachments (mail : MailConfig) :
    (i total : Nat) → List AttachmentSpec → Except AppError (List ValidatedAttachment)
  | _, _, [] => .ok []
  | i, total, spec :: specs => do
    let decoded ← validateAttachment D mail i spec
    checkTotal mail (total + decoded.length)
    let rest ← validateAttachments mail (i + 1) (total + decoded.length) specs
    .ok ({ filename := spec.filename, contentType := spec.contentType, decoded := decoded } :: rest)

/-! ## Entry point -/

def checkFeatureGates (req : MailRequest) (mail : MailConfig) : Except AppError Unit := do
  failIf (req.bodyHtml.isSome && !mail.allowHtmlBody)
    (.featureDisabled "html body is not enabled on this server")
  failIf ((req.attachments.any fun a => !a.isEmpty) && !mail.allowAttachments)
    (.featureDisabled "attachments are not enabled on this server")

def validateTo (config : AppConfig) (auth : AuthContext) (recipients : List String) :
    Except AppError Unit := do
  failIf recipients.isEmpty (.validation "to: at least one recipient is required")
  failIf (recipients.length > config.mail.maxRecipients) (.validation
    ("to: too many recipients (max " ++ toString config.mail.maxRecipients ++ ")"))
  checkAll (checkRecipient D "to" config auth) recipients

/-- `n` recipients are in `to`. -/
def validateCc (config : AppConfig) (auth : AuthContext) (n : Nat) :
    Option (List String) → Except AppError (List String)
  | some ccAddrs => do
    failIf (n + ccAddrs.length > config.mail.maxRecipients) (.validation
      ("to + cc: too many recipients (max " ++ toString config.mail.maxRecipients ++ ")"))
    checkAll (checkRecipient D "cc" config auth) ccAddrs
    .ok ccAddrs
  | none => .ok []

def validateReplyTo : Option (List String) → Except AppError (List String)
  | some addrs => do
    checkAll (checkReplyTo D) addrs
    .ok addrs
  | none => .ok []

def validateFromName : Option String → Except AppError (Option String)
  | some n => do
    let name ← validateDisplayName n "from_name"
    .ok (some name)
  | none => .ok none

def checkBodyHtml (mail : MailConfig) : Option String → Except AppError Unit
  | some html => validateBodyHtml html mail.maxBodyBytes
  | none => .ok ()

def validateMailRequest (req : MailRequest) (config : AppConfig) (auth : AuthContext) :
    Except AppError ValidatedMailRequest := do
  checkFeatureGates req config.mail
  validateTo D config auth req.toAddrs
  let cc ← validateCc D config auth req.toAddrs.length req.cc
  let subject ← validateSubject req.subject config.mail.maxSubjectChars
  let body ← validateBody req.body config.mail.maxBodyBytes
  checkBodyHtml config.mail req.bodyHtml
  let fromName ← validateFromName req.fromName
  let replyTo ← validateReplyTo D req.replyTo
  let specs := req.attachments.getD []
  failIf (specs.length > config.mail.maxAttachments) (.validation
    ("attachments: too many (max " ++ toString config.mail.maxAttachments ++ ")"))
  let attachments ← validateAttachments D config.mail 0 0 specs
  .ok
    { toAddrs := req.toAddrs
      subject := subject
      body := body
      bodyHtml := req.bodyHtml
      fromName := fromName
      replyTo := replyTo
      cc := cc
      attachments := attachments
      clientRequestId := (req.metadata.bind (Json.get "request_id")).bind Json.asStr }

/-! ## What passed -/

/-- The recipient policy that `config` enforces for the key id in `auth`. -/
structure Permitted (config : AppConfig) (auth : AuthContext) (addr : String) : Prop where
  domain : ∃ d, extractDomain D addr = .ok d ∧ Policy.domainPermittedGlobally config d = true ∧
    ∀ key, Policy.findKey config auth.keyId = some key →
      Policy.domainPermittedForKey key d = true
  recipient : ∀ key, Policy.findKey config auth.keyId = some key →
    Policy.addressPermittedForKey key addr = true

theorem failIf_not_listed {allowed : List String} {domain : String} {e : AppError} :
    failIf (!allowed.isEmpty && !allowed.any fun d => eqIgnoreAsciiCase d domain) e = .ok () ↔
      Policy.domainListed allowed domain = true := by
  unfold Policy.domainListed
  cases allowed.isEmpty <;> cases allowed.any fun d => eqIgnoreAsciiCase d domain <;> simp

theorem checkRecipientDomain_ok {email : String} {config : AppConfig} {auth : AuthContext} :
    checkRecipientDomain D email config auth = .ok () ↔
      ∃ d, extractDomain D email = .ok d ∧ Policy.domainPermittedGlobally config d = true ∧
        ∀ key, Policy.findKey config auth.keyId = some key →
          Policy.domainPermittedForKey key d = true := by
  unfold checkRecipientDomain
  rw [bind_eq_ok_iff]
  refine exists_congr fun d => and_congr_right fun _ => ?_
  rw [guard_bind_eq_ok, failIf_not_listed]
  apply and_congr_right
  intro _
  cases hk : Policy.findKey config auth.keyId with
  | none => simp
  | some key =>
    simp only [failIf_not_listed, Option.some.injEq, forall_eq']
    rfl

theorem checkRecipientDomainOrAddress_ok {addr : String} {config : AppConfig}
    {auth : AuthContext} :
    checkRecipientDomainOrAddress D addr config auth = .ok () ↔ Permitted D config auth addr := by
  unfold checkRecipientDomainOrAddress
  have hsplit : ∀ x : Except AppError Unit,
      (x >>= fun _ => checkRecipientDomain D addr config auth) = .ok () ↔
        x = .ok () ∧ checkRecipientDomain D addr config auth = .ok () :=
    fun _ => guard_bind_eq_ok
  cases hk : Policy.findKey config auth.keyId with
  | none =>
    simp only [ok_bind, checkRecipientDomain_ok]
    exact ⟨fun h => ⟨h, fun key hkey => by rw [hk] at hkey; cases hkey⟩, fun h => h.domain⟩
  | some key =>
    simp only [hsplit, failIf_eq_ok, Bool.not_eq_false', checkRecipientDomain_ok]
    constructor
    · rintro ⟨hr, hd⟩
      refine ⟨hd, fun key' hkey => ?_⟩
      rw [hk] at hkey
      cases hkey
      exact hr
    · intro h
      exact ⟨h.recipient key hk, h.domain⟩

/-- What a recipient that got through the loops over `to` and `cc` satisfies. -/
structure Accepted (config : AppConfig) (auth : AuthContext) (addr : String) : Prop where
  parses : ∃ a, D.parseAddress addr = some a
  clean : containsHeaderInjection addr = false
  permitted : Permitted D config auth addr

theorem validateEmailAddress_ok {raw field : String} {text : String} :
    validateEmailAddress D raw field = .ok text ↔
      containsHeaderInjection raw = false ∧ ∃ a, D.parseAddress raw = some a ∧
        a.serialized = text := by
  unfold validateEmailAddress
  rw [guard_bind_eq_ok, failIf_eq_ok]
  cases D.parseAddress raw <;> simp

theorem checkRecipient_ok {field : String} {config : AppConfig} {auth : AuthContext}
    {addr : String} :
    checkRecipient D field config auth addr = .ok () ↔ Accepted D config auth addr := by
  unfold checkRecipient rejectHeaderCrlf
  simp only [bind_eq_ok_iff, exists_unit, validateEmailAddress_ok, failIf_eq_ok,
    checkRecipientDomainOrAddress_ok]
  constructor
  · rintro ⟨_, ⟨hc, a, ha, -⟩, -, hp⟩
    exact ⟨⟨a, ha⟩, hc, hp⟩
  · rintro ⟨⟨a, ha⟩, hc, hp⟩
    exact ⟨a.serialized, ⟨hc, a, ha, rfl⟩, hc, hp⟩

theorem validateTo_ok {config : AppConfig} {auth : AuthContext} {recipients : List String} :
    validateTo D config auth recipients = .ok () ↔
      recipients ≠ [] ∧ recipients.length ≤ config.mail.maxRecipients ∧
        ∀ addr ∈ recipients, Accepted D config auth addr := by
  unfold validateTo
  simp only [guard_bind_eq_ok, failIf_eq_ok, checkAll_eq_ok, checkRecipient_ok]
  simp

theorem validateCc_ok {config : AppConfig} {auth : AuthContext} {n : Nat}
    {cc? : Option (List String)} {cc : List String}
    (h : validateCc D config auth n cc? = .ok cc) :
    cc = cc?.getD [] ∧ (cc = [] ∨ n + cc.length ≤ config.mail.maxRecipients) ∧
      ∀ addr ∈ cc, Accepted D config auth addr := by
  cases cc? with
  | none =>
    cases h
    simp
  | some addrs =>
    simp only [validateCc, guard_bind_eq_ok, failIf_eq_ok, checkAll_eq_ok, checkRecipient_ok,
      decide_eq_false_iff_not, Nat.not_lt, Except.ok.injEq] at h
    obtain ⟨hlen, hall, rfl⟩ := h
    exact ⟨rfl, Or.inr hlen, hall⟩

theorem validateSubject_ok {raw text : String} {maxLen : Nat} :
    validateSubject raw maxLen = .ok text ↔
      ((trim raw).isEmpty = false ∧ containsHeaderInjection raw = false ∧
        containsControlChars raw = false ∧ raw.length ≤ maxLen) ∧ raw = text := by
  unfold validateSubject
  simp only [guard_bind_eq_ok, failIf_eq_ok, decide_eq_false_iff_not, Nat.not_lt,
    Except.ok.injEq, and_assoc]

theorem validateBody_ok {raw text : String} {maxLen : Nat} :
    validateBody raw maxLen = .ok text ↔
      (containsChar raw '\x00' = false ∧ raw.utf8ByteSize ≤ maxLen) ∧ raw = text := by
  unfold validateBody
  simp only [guard_bind_eq_ok, failIf_eq_ok, decide_eq_false_iff_not, Nat.not_lt,
    Except.ok.injEq, and_assoc]

theorem checkBodyHtml_ok {mail : MailConfig} {html? : Option String} :
    checkBodyHtml mail html? = .ok () ↔
      ∀ html ∈ html?, containsChar html '\x00' = false ∧
        html.utf8ByteSize ≤ mail.maxBodyBytes := by
  cases html? with
  | none => simp [checkBodyHtml]
  | some html =>
    simp only [checkBodyHtml, validateBodyHtml, guard_bind_eq_ok, failIf_eq_ok,
      decide_eq_false_iff_not, Nat.not_lt, Option.mem_some_iff, forall_eq']

theorem validateFromName_ok {fromName? name? : Option String} :
    validateFromName fromName? = .ok name? ↔
      (∀ n ∈ fromName?, containsHeaderInjection n = false) ∧ fromName? = name? := by
  cases fromName? with
  | none => simp [validateFromName]
  | some n =>
    simp only [validateFromName, validateDisplayName, bind_eq_ok_iff, exists_unit, failIf_eq_ok,
      Except.ok.injEq, Option.mem_some_iff, forall_eq']
    constructor
    · rintro ⟨_, ⟨hclean, rfl⟩, hname⟩
      exact ⟨hclean, hname⟩
    · rintro ⟨hclean, hname⟩
      exact ⟨n, ⟨hclean, rfl⟩, hname⟩

theorem checkReplyTo_ok {addr : String} :
    checkReplyTo D addr = .ok () ↔
      (∃ a, D.parseAddress addr = some a) ∧ containsHeaderInjection addr = false := by
  unfold checkReplyTo rejectHeaderCrlf
  simp only [bind_eq_ok_iff, validateEmailAddress_ok, failIf_eq_ok]
  constructor
  · rintro ⟨_, ⟨hclean, a, ha, -⟩, -⟩
    exact ⟨⟨a, ha⟩, hclean⟩
  · rintro ⟨⟨a, ha⟩, hclean⟩
    exact ⟨a.serialized, ⟨hclean, a, ha, rfl⟩, hclean⟩

theorem validateReplyTo_ok {replyTo? : Option (List String)} {addrs : List String}
    (h : validateReplyTo D replyTo? = .ok addrs) :
    addrs = replyTo?.getD [] ∧ ∀ addr ∈ addrs,
      (∃ a, D.parseAddress addr = some a) ∧ containsHeaderInjection addr = false := by
  cases replyTo? with
  | none =>
    cases h
    simp
  | some l =>
    simp only [validateReplyTo, guard_bind_eq_ok, checkAll_eq_ok, checkReplyTo_ok,
      Except.ok.injEq] at h
    obtain ⟨hall, rfl⟩ := h
    exact ⟨rfl, hall⟩

theorem checkTotal_ok {mail : MailConfig} {total : Nat} :
    checkTotal mail total = .ok () ↔ ∀ m ∈ mail.maxTotalAttachmentBytes, total ≤ m := by
  unfold checkTotal
  cases mail.maxTotalAttachmentBytes with
  | none => simp
  | some m => simp

/-- What holds of an attachment that got through the loop. -/
structure AttachmentPassed (mail : MailConfig) (spec : AttachmentSpec)
    (att : ValidatedAttachment) : Prop where
  filename : att.filename = spec.filename
  contentType : att.contentType = spec.contentType
  decoded : D.decodeBase64 spec.data = some att.decoded
  filenameClean : containsHeaderInjection spec.filename = false
  contentTypeClean : containsHeaderInjection spec.contentType = false
  size : att.decoded.length ≤ mail.maxAttachmentBytes

/-- The checks on an attachment that come before its data. -/
structure FormOk (spec : AttachmentSpec) : Prop where
  length : (spec.filename.isEmpty || decide (spec.filename.utf8ByteSize > 255)) = false
  separators : (containsChar spec.filename '/' || containsChar spec.filename '\\' ||
    containsChar spec.filename '\x00') = false
  crlf : containsHeaderInjection spec.filename = false
  contentType : (spec.contentType.isEmpty || !containsChar spec.contentType '/' ||
    containsHeaderInjection spec.contentType || containsControlChars spec.contentType) = false

theorem validateAttachment_ok_iff {mail : MailConfig} {i : Nat} {spec : AttachmentSpec}
    {decoded : List UInt8} :
    validateAttachment D mail i spec = .ok decoded ↔
      FormOk spec ∧ spec.data.utf8ByteSize ≤ maxEncoded mail.maxAttachmentBytes ∧
        D.decodeBase64 spec.data = some decoded ∧ decoded.length ≤ mail.maxAttachmentBytes := by
  unfold validateAttachment rejectHeaderCrlf
  have hdecode : (match D.decodeBase64 spec.data with
      | none => (.error (.validation "attachments[].data: invalid base64") : Except AppError _)
      | some decoded => do
        failIf (decoded.length > mail.maxAttachmentBytes) (.validation
          ("attachments[].data: decoded size " ++ toString decoded.length ++
            " exceeds maximum " ++ toString mail.maxAttachmentBytes))
        .ok decoded) = .ok decoded ↔
      D.decodeBase64 spec.data = some decoded ∧ decoded.length ≤ mail.maxAttachmentBytes := by
    cases D.decodeBase64 spec.data with
    | none => simp
    | some bytes =>
      simp only [guard_bind_eq_ok, failIf_eq_ok, decide_eq_false_iff_not, Nat.not_lt,
        Except.ok.injEq, Option.some.injEq]
      constructor
      · rintro ⟨hsize, rfl⟩
        exact ⟨rfl, hsize⟩
      · rintro ⟨rfl, hsize⟩
        exact ⟨hsize, rfl⟩
  simp only [guard_bind_eq_ok, failIf_eq_ok, hdecode, decide_eq_false_iff_not, Nat.not_lt]
  constructor
  · rintro ⟨hlength, hseparators, hcrlf, htype, hdata⟩
    exact ⟨⟨hlength, hseparators, hcrlf, htype⟩, hdata⟩
  · rintro ⟨hform, hdata⟩
    exact ⟨hform.length, hform.separators, hform.crlf, hform.contentType, hdata⟩

theorem validateAttachment_ok {mail : MailConfig} {i : Nat} {spec : AttachmentSpec}
    {decoded : List UInt8} (h : validateAttachment D mail i spec = .ok decoded) :
    AttachmentPassed D mail spec
      { filename := spec.filename, contentType := spec.contentType, decoded := decoded } := by
  obtain ⟨hform, -, hdecoded, hsize⟩ := (validateAttachment_ok_iff D).mp h
  have htype := hform.contentType
  simp only [Bool.or_eq_false_iff] at htype
  exact ⟨rfl, rfl, hdecoded, hform.crlf, htype.1.2, hsize⟩

/-- The bytes the attachments decode to, together. -/
def totalDecoded : List ValidatedAttachment → Nat
  | [] => 0
  | att :: atts => att.decoded.length + totalDecoded atts

/-- The running total stays within the limit if it starts there. -/
theorem validateAttachments_ok {mail : MailConfig} {i total : Nat} {specs : List AttachmentSpec}
    {atts : List ValidatedAttachment} (h : validateAttachments D mail i total specs = .ok atts) :
    List.Forall₂ (AttachmentPassed D mail) specs atts ∧
      ∀ m ∈ mail.maxTotalAttachmentBytes, total ≤ m → total + totalDecoded atts ≤ m := by
  induction specs generalizing i total atts with
  | nil =>
    cases h
    refine ⟨.nil, fun m _ hstart => ?_⟩
    exact hstart
  | cons spec specs ih =>
    simp only [validateAttachments, bind_eq_ok_iff, exists_unit, Except.ok.injEq] at h
    obtain ⟨decoded, hone, htotal, rest, hrest, rfl⟩ := h
    obtain ⟨hall, hrun⟩ := ih hrest
    refine ⟨.cons (validateAttachment_ok D hone) hall, fun m hm _ => ?_⟩
    have hrest := hrun m hm (checkTotal_ok.mp htotal m hm)
    show total + (decoded.length + totalDecoded rest) ≤ m
    omega

theorem checkFeatureGates_ok {req : MailRequest} {mail : MailConfig} :
    checkFeatureGates req mail = .ok () ↔
      (req.bodyHtml ≠ none → mail.allowHtmlBody = true) ∧
        (req.attachments.getD [] ≠ [] → mail.allowAttachments = true) := by
  unfold checkFeatureGates
  rw [guard_bind_eq_ok, failIf_eq_ok, failIf_eq_ok]
  refine and_congr ?_ ?_
  · cases req.bodyHtml <;> simp
  · cases req.attachments with
    | none => simp
    | some specs => cases specs <;> simp

/-- What each stage of the pipeline made of its part of the request. -/
structure Stages (req : MailRequest) (config : AppConfig) (auth : AuthContext)
    (v : ValidatedMailRequest) : Prop where
  gates : checkFeatureGates req config.mail = .ok ()
  checkedTo : validateTo D config auth req.toAddrs = .ok ()
  cc : validateCc D config auth req.toAddrs.length req.cc = .ok v.cc
  subject : validateSubject req.subject config.mail.maxSubjectChars = .ok v.subject
  body : validateBody req.body config.mail.maxBodyBytes = .ok v.body
  checkedHtml : checkBodyHtml config.mail req.bodyHtml = .ok ()
  fromName : validateFromName req.fromName = .ok v.fromName
  replyTo : validateReplyTo D req.replyTo = .ok v.replyTo
  attachmentCount : (req.attachments.getD []).length ≤ config.mail.maxAttachments
  attachments :
    validateAttachments D config.mail 0 0 (req.attachments.getD []) = .ok v.attachments
  toAddrs : v.toAddrs = req.toAddrs
  bodyHtml : v.bodyHtml = req.bodyHtml

theorem validateMailRequest_ok {req : MailRequest} {config : AppConfig} {auth : AuthContext}
    {v : ValidatedMailRequest} (h : validateMailRequest D req config auth = .ok v) :
    Stages D req config auth v := by
  unfold validateMailRequest at h
  simp only [bind_eq_ok_iff, exists_unit, Except.ok.injEq] at h
  obtain ⟨hgates, hto, cc, hcc, subject, hsubject, body, hbody, hhtml, fromName, hfrom, replyTo,
    hreply, hcount, attachments, hatts, rfl⟩ := h
  refine ⟨hgates, hto, hcc, hsubject, hbody, hhtml, hfrom, hreply, ?_, hatts, rfl, rfl⟩
  simpa using hcount

/-- What holds of a request that passed, and of the value made from it. -/
structure Passed (req : MailRequest) (config : AppConfig) (auth : AuthContext)
    (v : ValidatedMailRequest) : Prop where
  toAddrs : v.toAddrs = req.toAddrs
  cc : v.cc = req.cc.getD []
  nonempty : v.toAddrs ≠ []
  count : v.toAddrs.length + v.cc.length ≤ config.mail.maxRecipients
  accepted : ∀ addr ∈ v.toAddrs ++ v.cc, Accepted D config auth addr
  gates : checkFeatureGates req config.mail = .ok ()

theorem validate_ok {req : MailRequest} {config : AppConfig} {auth : AuthContext}
    {v : ValidatedMailRequest} (h : validateMailRequest D req config auth = .ok v) :
    Passed D req config auth v := by
  have hstages := validateMailRequest_ok D h
  obtain ⟨hne, hlen, hto⟩ := (validateTo_ok D).mp hstages.checkedTo
  obtain ⟨hcc1, hcc2, hcc3⟩ := validateCc_ok D hstages.cc
  rw [← hstages.toAddrs] at hne hlen hto hcc2
  refine ⟨hstages.toAddrs, hcc1, hne, ?_, ?_, hstages.gates⟩
  · rcases hcc2 with hnone | hcc2
    · simpa [hnone] using hlen
    · exact hcc2
  · intro addr hmem
    rcases List.mem_append.mp hmem with hmem | hmem
    · exact hto addr hmem
    · exact hcc3 addr hmem

/-! ## Which errors there are -/

/-- The error is a semantic one, stored and reported as `validation_failed`. -/
def IsValidation (e : AppError) : Prop := ∃ message, e = .validation message

theorem failsWith_failIf_validation (cond : Bool) (message : String) :
    FailsWith IsValidation (failIf cond (.validation message)) :=
  failsWith_failIf ⟨message, rfl⟩

theorem validateEmailAddress_failsWith (raw field : String) :
    FailsWith IsValidation (validateEmailAddress D raw field) := by
  apply (failsWith_failIf_validation _ _).bind
  intro _
  cases D.parseAddress raw with
  | none => exact failsWith_error.mpr ⟨_, rfl⟩
  | some a => exact failsWith_ok _

theorem checkRecipientDomain_failsWith (email : String) (config : AppConfig)
    (auth : AuthContext) : FailsWith IsValidation (checkRecipientDomain D email config auth) := by
  refine FailsWith.bind ?_ fun domain => (failsWith_failIf_validation _ _).bind fun _ => ?_
  · unfold extractDomain
    cases rsplitOnce email '@' with
    | none => exact failsWith_error.mpr ⟨_, rfl⟩
    | some p => exact failsWith_ok _
  · cases Policy.findKey config auth.keyId with
    | none => exact failsWith_ok _
    | some key => exact failsWith_failIf_validation _ _

theorem checkRecipient_failsWith (field : String) (config : AppConfig) (auth : AuthContext)
    (addr : String) : FailsWith IsValidation (checkRecipient D field config auth addr) := by
  refine (validateEmailAddress_failsWith D addr field).bind fun _ =>
    (failsWith_failIf_validation _ _).bind fun _ => ?_
  unfold checkRecipientDomainOrAddress
  cases Policy.findKey config auth.keyId with
  | none => exact (failsWith_ok ()).bind fun _ => checkRecipientDomain_failsWith D addr config auth
  | some key =>
    exact (failsWith_failIf_validation _ _).bind fun _ =>
      checkRecipientDomain_failsWith D addr config auth

theorem validateAttachment_failsWith (mail : MailConfig) (i : Nat) (spec : AttachmentSpec) :
    FailsWith IsValidation (validateAttachment D mail i spec) := by
  refine (failsWith_failIf_validation _ _).bind fun _ =>
    (failsWith_failIf_validation _ _).bind fun _ =>
    (failsWith_failIf_validation _ _).bind fun _ =>
    (failsWith_failIf_validation _ _).bind fun _ =>
    (failsWith_failIf_validation _ _).bind fun _ => ?_
  cases D.decodeBase64 spec.data with
  | none => exact failsWith_error.mpr ⟨_, rfl⟩
  | some decoded => exact (failsWith_failIf_validation _ _).bind fun _ => failsWith_ok _

theorem validateAttachments_failsWith (mail : MailConfig) (i total : Nat)
    (specs : List AttachmentSpec) :
    FailsWith IsValidation (validateAttachments D mail i total specs) := by
  induction specs generalizing i total with
  | nil => exact failsWith_ok _
  | cons spec specs ih =>
    refine (validateAttachment_failsWith D mail i spec).bind fun decoded =>
      FailsWith.bind ?_ fun _ => (ih _ _).bind fun _ => failsWith_ok _
    unfold checkTotal
    cases mail.maxTotalAttachmentBytes with
    | none => exact failsWith_ok _
    | some maxTotal => exact failsWith_failIf_validation _ _

theorem validateCc_failsWith (config : AppConfig) (auth : AuthContext) (n : Nat)
    (cc? : Option (List String)) : FailsWith IsValidation (validateCc D config auth n cc?) := by
  cases cc? with
  | none => exact failsWith_ok _
  | some addrs =>
    exact (failsWith_failIf_validation _ _).bind fun _ =>
      (FailsWith.checkAll (checkRecipient_failsWith D "cc" config auth) addrs).bind fun _ =>
        failsWith_ok _

theorem validateReplyTo_failsWith (replyTo? : Option (List String)) :
    FailsWith IsValidation (validateReplyTo D replyTo?) := by
  cases replyTo? with
  | none => exact failsWith_ok _
  | some addrs =>
    have hone : ∀ addr, FailsWith IsValidation (checkReplyTo D addr) := fun addr =>
      (validateEmailAddress_failsWith D addr "reply_to").bind fun _ =>
        failsWith_failIf_validation _ _
    exact (FailsWith.checkAll hone addrs).bind fun _ => failsWith_ok _

theorem validateFromName_failsWith (fromName? : Option String) :
    FailsWith IsValidation (validateFromName fromName?) := by
  cases fromName? with
  | none => exact failsWith_ok _
  | some n =>
    exact FailsWith.bind
      ((failsWith_failIf_validation _ _).bind fun _ => failsWith_ok _) fun _ => failsWith_ok _

theorem checkBodyHtml_failsWith (mail : MailConfig) (html? : Option String) :
    FailsWith IsValidation (checkBodyHtml mail html?) := by
  cases html? with
  | none => exact failsWith_ok _
  | some html =>
    exact (failsWith_failIf_validation _ _).bind fun _ => failsWith_failIf_validation _ _

/-- The gates are the only source of another error than `Validation`. -/
theorem validate_error {req : MailRequest} {config : AppConfig} {auth : AuthContext}
    {e : AppError} (h : validateMailRequest D req config auth = .error e) :
    checkFeatureGates req config.mail = .error e ∨
      checkFeatureGates req config.mail = .ok () ∧ IsValidation e := by
  unfold validateMailRequest at h
  rcases bind_eq_error_iff.mp h with h | ⟨_, hgates, h⟩
  · exact Or.inl h
  · refine Or.inr ⟨hgates, ?_⟩
    refine (?_ : FailsWith IsValidation _) e h
    refine FailsWith.bind ?_ fun _ => (validateCc_failsWith D _ _ _ _).bind fun cc =>
      FailsWith.bind ?_ fun subject => FailsWith.bind ?_ fun body =>
      (checkBodyHtml_failsWith _ _).bind fun _ => (validateFromName_failsWith _).bind fun fromName =>
      (validateReplyTo_failsWith D _).bind fun replyTo =>
      (failsWith_failIf_validation _ _).bind fun _ =>
      (validateAttachments_failsWith D _ _ _ _).bind fun _ => failsWith_ok _
    · exact (failsWith_failIf_validation _ _).bind fun _ =>
        (failsWith_failIf_validation _ _).bind fun _ =>
          FailsWith.checkAll (checkRecipient_failsWith D "to" config auth) _
    · exact (failsWith_failIf_validation _ _).bind fun _ =>
        (failsWith_failIf_validation _ _).bind fun _ =>
        (failsWith_failIf_validation _ _).bind fun _ =>
        (failsWith_failIf_validation _ _).bind fun _ => failsWith_ok _
    · exact (failsWith_failIf_validation _ _).bind fun _ =>
        (failsWith_failIf_validation _ _).bind fun _ => failsWith_ok _

theorem checkFeatureGates_error {req : MailRequest} {mail : MailConfig} {e : AppError}
    (h : checkFeatureGates req mail = .error e) : ∃ feature, e = .featureDisabled feature := by
  unfold checkFeatureGates at h
  rcases bind_eq_error_iff.mp h with h | ⟨_, -, h⟩
  · exact ⟨_, (failIf_eq_error.mp h).2.symm⟩
  · exact ⟨_, (failIf_eq_error.mp h).2.symm⟩

end Validation

end HttpSmtpRele
