import Mathlib.Data.List.Forall2
import HttpSmtpRele.OpenRelay

/-!
# What validation lets through

`validateMailRequest` vouches for the value it returns: `Vouched` collects what
its stages show, which is the whole of `Safe` but one item.  The control
characters of the subject are those `containsControlChars` knows, the ones below
0x20; DEL and the C1 range are control characters too.
-/

namespace HttpSmtpRele

open RustStr

/-! ## Safe and verbatim -/

/-- The attachments of the request in order, their data decoded. -/
def DecodedFrom (D : Deps) (spec : AttachmentSpec) (att : ValidatedAttachment) : Prop :=
  att.filename = spec.filename ∧ att.contentType = spec.contentType ∧
    D.decodeBase64 spec.data = some att.decoded

/-- The validated value says what the request said. -/
structure Verbatim (D : Deps) (req : MailRequest) (v : ValidatedMailRequest) : Prop where
  toAddrs : v.toAddrs = req.toAddrs
  cc : v.cc = req.cc.getD []
  subject : v.subject = req.subject
  body : v.body = req.body
  bodyHtml : v.bodyHtml = req.bodyHtml
  fromName : v.fromName = req.fromName
  replyTo : v.replyTo = req.replyTo.getD []
  attachments : List.Forall₂ (DecodedFrom D) (req.attachments.getD []) v.attachments

/-- The strings that end up in a header of the mail or of one of its parts. -/
def ValidatedMailRequest.headerStrings (v : ValidatedMailRequest) : List String :=
  v.toAddrs ++ v.cc ++ v.replyTo ++ v.subject :: v.fromName.toList ++
    v.attachments.flatMap fun att => [att.filename, att.contentType]

def NoLineBreak (s : String) : Prop := '\r' ∉ s.toList ∧ '\n' ∉ s.toList

/-- The limits and feature switches of `[mail]`. -/
structure WithinLimits (mail : MailConfig) (v : ValidatedMailRequest) : Prop where
  subject : v.subject.length ≤ mail.maxSubjectChars
  body : v.body.utf8ByteSize ≤ mail.maxBodyBytes
  bodyHtml : ∀ html ∈ v.bodyHtml, html.utf8ByteSize ≤ mail.maxBodyBytes
  html : v.bodyHtml ≠ none → mail.allowHtmlBody = true
  attachments : v.attachments ≠ [] → mail.allowAttachments = true
  attachmentCount : v.attachments.length ≤ mail.maxAttachments
  attachmentSize : ∀ att ∈ v.attachments, att.decoded.length ≤ mail.maxAttachmentBytes
  attachmentTotal : ∀ m ∈ mail.maxTotalAttachmentBytes,
    Validation.totalDecoded v.attachments ≤ m

/-- What every validated request has, whatever its subject. -/
structure Vouched (D : Deps) (req : MailRequest) (mail : MailConfig) (v : ValidatedMailRequest) :
    Prop where
  verbatim : Verbatim D req v
  headers : ∀ s ∈ v.headerStrings, NoLineBreak s
  subjectNotBlank : ∃ c ∈ v.subject.toList, isWhitespace c = false
  bodyNoNul : '\x00' ∉ v.body.toList
  htmlNoNul : ∀ html ∈ v.bodyHtml, '\x00' ∉ html.toList
  limits : WithinLimits mail v

/-- Tab is the only control character in the subject. -/
def OnlyTabs (subject : String) : Prop :=
  ∀ c ∈ subject.toList, isControl c = true → c = '\t'

/-- Safe and verbatim. -/
structure Safe (D : Deps) (req : MailRequest) (mail : MailConfig) (v : ValidatedMailRequest) :
    Prop extends Vouched D req mail v where
  subjectControl : OnlyTabs v.subject

/-- DEL or a C1 control character. -/
def isHighControl (c : Char) : Bool := 0x7F ≤ c.toNat && c.toNat ≤ 0x9F

namespace SafeRequest

open Sanitize Validation

theorem noLineBreak_iff {s : String} : NoLineBreak s ↔ containsHeaderInjection s = false := by
  unfold NoLineBreak containsHeaderInjection
  rw [List.any_eq_false]
  constructor
  · rintro ⟨hcr, hlf⟩ c hc
    have hne : c ≠ '\r' ∧ c ≠ '\n' :=
      ⟨fun h => hcr (h ▸ hc), fun h => hlf (h ▸ hc)⟩
    simpa using hne
  · intro h
    constructor
    · intro hcr
      simpa using h _ hcr
    · intro hlf
      simpa using h _ hlf

theorem not_mem_of_containsChar {s : String} {c : Char} (h : containsChar s c = false) :
    c ∉ s.toList := by
  simpa [containsChar] using h

theorem notBlank {s : String} (h : (trim s).isEmpty = false) :
    ∃ c ∈ s.toList, isWhitespace c = false := by
  have hnot : ¬ ∀ c ∈ s.toList, isWhitespace c = true := by
    intro hall
    rw [trim_isEmpty.mpr hall] at h
    cases h
  simpa using hnot

/-- A character that `containsControlChars` lets pass is a control character
only from 0x7F on. -/
theorem isControl_iff {c : Char} (h : ¬(c.toNat < 0x20 ∧ c.toNat ≠ 0x09)) :
    (isControl c = true → c = '\t') ↔ isHighControl c = false := by
  have htab : c = '\t' ↔ c.toNat = 0x09 := by
    constructor
    · rintro rfl
      rfl
    · intro hc
      rw [← Char.ofNat_toNat c, hc]
  rw [htab]
  simp only [isControl, isHighControl, Bool.or_eq_true, decide_eq_true_eq, Bool.and_eq_true,
    Bool.and_eq_false_iff, decide_eq_false_iff_not]
  omega

theorem onlyTabs_iff {s : String} (h : containsControlChars s = false) :
    OnlyTabs s ↔ ∀ c ∈ s.toList, isHighControl c = false := by
  unfold containsControlChars at h
  rw [List.any_eq_false] at h
  refine forall₂_congr fun c hc => isControl_iff ?_
  simpa using h c hc

theorem decodedFrom_of_passed {D : Deps} {mail : MailConfig} {specs : List AttachmentSpec}
    {atts : List ValidatedAttachment}
    (h : List.Forall₂ (AttachmentPassed D mail) specs atts) :
    List.Forall₂ (DecodedFrom D) specs atts :=
  h.imp fun _ _ hp => ⟨hp.filename, hp.contentType, hp.decoded⟩

/-- Every attachment of the result comes from one that got through the loop. -/
theorem exists_passed {D : Deps} {mail : MailConfig} {specs : List AttachmentSpec}
    {atts : List ValidatedAttachment} (h : List.Forall₂ (AttachmentPassed D mail) specs atts)
    {att : ValidatedAttachment} (hmem : att ∈ atts) :
    ∃ spec, AttachmentPassed D mail spec att := by
  obtain ⟨spec, -, hp⟩ := Except.exists_of_forall₂ (List.Forall₂.flip h) hmem
  exact ⟨spec, hp⟩

theorem verbatim_of_stages {D : Deps} {req : MailRequest} {config : AppConfig}
    {auth : AuthContext} {v : ValidatedMailRequest} (h : Stages D req config auth v) :
    Verbatim D req v where
  toAddrs := h.toAddrs
  cc := (validateCc_ok D h.cc).1
  subject := (validateSubject_ok.mp h.subject).2.symm
  body := (validateBody_ok.mp h.body).2.symm
  bodyHtml := h.bodyHtml
  fromName := (validateFromName_ok.mp h.fromName).2.symm
  replyTo := (validateReplyTo_ok D h.replyTo).1
  attachments := decodedFrom_of_passed (validateAttachments_ok D h.attachments).1

theorem headers_of_stages {D : Deps} {req : MailRequest} {config : AppConfig}
    {auth : AuthContext} {v : ValidatedMailRequest} (h : Stages D req config auth v) :
    ∀ s ∈ v.headerStrings, NoLineBreak s := by
  intro s hs
  rw [noLineBreak_iff]
  have hverb := verbatim_of_stages h
  simp only [ValidatedMailRequest.headerStrings, List.append_assoc, List.mem_append,
    List.mem_cons, List.mem_flatMap, Option.mem_toList] at hs
  rcases hs with hto | hcc | hreply | (hsubject | hname) | ⟨att, hatt, hs⟩
  · rw [h.toAddrs] at hto
    exact (((validateTo_ok D).mp h.checkedTo).2.2 s hto).clean
  · exact ((validateCc_ok D h.cc).2.2 s hcc).clean
  · exact ((validateReplyTo_ok D h.replyTo).2 s hreply).2
  · rw [hsubject, hverb.subject]
    exact (validateSubject_ok.mp h.subject).1.2.1
  · rw [hverb.fromName] at hname
    exact (validateFromName_ok.mp h.fromName).1 s hname
  · obtain ⟨spec, hp⟩ := exists_passed (validateAttachments_ok D h.attachments).1 hatt
    rcases hs with rfl | rfl | hs
    · rw [hp.filename]
      exact hp.filenameClean
    · rw [hp.contentType]
      exact hp.contentTypeClean
    · cases hs

theorem limits_of_stages {D : Deps} {req : MailRequest} {config : AppConfig}
    {auth : AuthContext} {v : ValidatedMailRequest} (h : Stages D req config auth v) :
    WithinLimits config.mail v := by
  have hverb := verbatim_of_stages h
  obtain ⟨hpassed, htotal⟩ := validateAttachments_ok D h.attachments
  obtain ⟨hhtml, hattachments⟩ := checkFeatureGates_ok.mp h.gates
  refine ⟨?_, ?_, ?_, ?_, ?_, ?_, ?_, ?_⟩
  · rw [hverb.subject]
    exact (validateSubject_ok.mp h.subject).1.2.2.2
  · rw [hverb.body]
    exact (validateBody_ok.mp h.body).1.2
  · intro html hmem
    rw [h.bodyHtml] at hmem
    exact (checkBodyHtml_ok.mp h.checkedHtml html hmem).2
  · rw [h.bodyHtml]
    exact hhtml
  · intro hne
    apply hattachments
    intro hnil
    rw [hnil, List.forall₂_nil_left_iff] at hpassed
    exact hne hpassed
  · rw [← hpassed.length_eq]
    exact h.attachmentCount
  · intro att hatt
    obtain ⟨spec, hp⟩ := exists_passed hpassed hatt
    exact hp.size
  · intro m hm
    have hbound := htotal m hm (Nat.zero_le m)
    rwa [Nat.zero_add] at hbound

theorem vouched_of_stages {D : Deps} {req : MailRequest} {config : AppConfig}
    {auth : AuthContext} {v : ValidatedMailRequest} (h : Stages D req config auth v) :
    Vouched D req config.mail v where
  verbatim := verbatim_of_stages h
  headers := headers_of_stages h
  subjectNotBlank := by
    rw [(verbatim_of_stages h).subject]
    exact notBlank (validateSubject_ok.mp h.subject).1.1
  bodyNoNul := by
    rw [(verbatim_of_stages h).body]
    exact not_mem_of_containsChar (validateBody_ok.mp h.body).1.1
  htmlNoNul := by
    intro html hmem
    rw [h.bodyHtml] at hmem
    exact not_mem_of_containsChar (checkBodyHtml_ok.mp h.checkedHtml html hmem).1
  limits := limits_of_stages h

end SafeRequest

open SafeRequest in
/-- A request that passed is safe and verbatim, in full, unless its subject has
DEL or a C1 control character, which the validator takes for text. -/
theorem validated_safe_iff {D : Deps} {req : MailRequest} {config : AppConfig}
    {auth : AuthContext} {v : ValidatedMailRequest}
    (hvalid : Validation.validateMailRequest D req config auth = .ok v) :
    Vouched D req config.mail v ∧
      (Safe D req config.mail v ↔ ∀ c ∈ req.subject.toList, isHighControl c = false) := by
  have hstages := Validation.validateMailRequest_ok D hvalid
  have hvouched := vouched_of_stages hstages
  have hcontrol : OnlyTabs v.subject ↔ ∀ c ∈ req.subject.toList, isHighControl c = false := by
    rw [hvouched.verbatim.subject]
    exact onlyTabs_iff (Validation.validateSubject_ok.mp hstages.subject).1.2.2.1
  refine ⟨hvouched, fun hsafe => hcontrol.mp hsafe.subjectControl, fun hclean => ?_⟩
  exact ⟨hvouched, hcontrol.mpr hclean⟩

/-! A request that uses every field, and one with DEL in its subject. -/

def richConfig : AppConfig :=
  { sampleConfig with
    mail :=
      { sampleConfig.mail with
        allowHtmlBody := true
        allowAttachments := true
        maxTotalAttachmentBytes := some 1024 } }

def richRequest : MailRequest :=
  { sampleRequest with
    subject := "hello\tworld"
    replyTo := some ["support@example.com"]
    bodyHtml := some "<p>text</p>"
    attachments := some [{ filename := "empty.txt", contentType := "text/plain", data := "" }] }

def richValidated : ValidatedMailRequest :=
  { sampleValidated with
    subject := "hello\tworld"
    replyTo := ["support@example.com"]
    bodyHtml := some "<p>text</p>"
    attachments := [{ filename := "empty.txt", contentType := "text/plain", decoded := [] }] }

theorem validated_safe_iff_rich : Safe .plain richRequest richConfig.mail richValidated := by
  have hvalid : Validation.validateMailRequest .plain richRequest richConfig sampleAuth =
      .ok richValidated := by decide
  have hall : (richRequest.subject.toList.all fun c => !isHighControl c) = true := by decide
  apply (validated_safe_iff hvalid).2.mpr
  intro c hc
  simpa using List.all_eq_true.mp hall c hc

def delRequest : MailRequest := { sampleRequest with subject := "hello\x7fworld" }

def delValidated : ValidatedMailRequest := { sampleValidated with subject := "hello\x7fworld" }

theorem del_in_subject_passes :
    Validation.validateMailRequest .plain delRequest sampleConfig sampleAuth = .ok delValidated ∧
      ¬ Safe .plain delRequest sampleConfig.mail delValidated := by
  refine ⟨by decide, fun hsafe => ?_⟩
  have htab := hsafe.subjectControl '\x7f' (by decide) (by decide)
  revert htab
  decide

end HttpSmtpRele
