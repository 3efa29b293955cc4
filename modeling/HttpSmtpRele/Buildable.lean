import HttpSmtpRele.ConfigValidate
import HttpSmtpRele.SafeRequest

/-!
# Which validated requests can be built

`build_message` parses again what the validator let through.  For an address the
second grammar accepts what the first did, unless its local part is quoted or its
domain is an address literal.  Of a content type the validator asks for a slash
only, where RFC 841 asks for `type/subtype`, so that bad input ends in `Internal`.
-/

namespace HttpSmtpRele

open RustStr Except

/-- A text that is not empty on each side of the first slash. -/
def TypeAndSubtype (s : String) : Prop :=
  ∃ before after, s.toList = before ++ '/' :: after ∧ '/' ∉ before ∧ before ≠ [] ∧ after ≠ []

/-- A local part in quotation marks. -/
def QuotedLocalPart (addr : String) : Prop := startsWith addr "\"" = true

/-- A domain that is an address literal, such as `[192.0.2.1]` or a bare `::1`.  A local
part that is not quoted has neither character. -/
def DomainLiteral (addr : String) : Prop := '[' ∈ addr.toList ∨ ':' ∈ addr.toList

/-- What is known of the parsers that `build_message` calls. -/
structure BuildLaws (D : Deps) : Prop where
  mailbox : ∀ addr, (D.parseAddress addr).isSome = true → ¬QuotedLocalPart addr →
    ¬DomainLiteral addr → (D.parseMailbox addr).isSome = true
  /-- with a sender and a recipient nothing else fails -/
  envelope : ∀ b, b.sender ≠ [] → b.toAddrs ≠ [] → (D.envelope b).isSome = true

/-- The addresses that become mailboxes. -/
def MailRequest.mailboxes (req : MailRequest) : List String :=
  req.recipients ++ req.replyTo.getD []

namespace Mail

variable {D : Deps}

theorem addMailboxes_isOk {add : MessageBuilder → Mailbox → MessageBuilder} {addrs : List String}
    {b : MessageBuilder} :
    (∃ b', addMailboxes D add b addrs = .ok b') ↔
      ∀ addr ∈ addrs, (D.parseMailbox addr).isSome = true := by
  induction addrs generalizing b with
  | nil => exact ⟨fun _ addr h => (List.not_mem_nil h).elim, fun _ => ⟨b, rfl⟩⟩
  | cons addr addrs ih =>
    rw [List.forall_mem_cons]
    simp only [addMailboxes, bind_eq_ok_iff, parseMailbox_ok]
    constructor
    · rintro ⟨b', m, hm, hrest⟩
      exact ⟨Option.isSome_iff_exists.mpr ⟨m, hm⟩, ih.mp ⟨b', hrest⟩⟩
    · rintro ⟨hone, hrest⟩
      obtain ⟨m, hm⟩ := Option.isSome_iff_exists.mp hone
      obtain ⟨b', hb'⟩ := ih.mpr hrest
      exact ⟨b', m, hm, hb'⟩

theorem attachmentParts_isOk {atts : List ValidatedAttachment} :
    (∃ parts, attachmentParts D atts = .ok parts) ↔
      ∀ att ∈ atts, D.parseContentType att.contentType = true := by
  induction atts with
  | nil => exact ⟨fun _ att h => (List.not_mem_nil h).elim, fun _ => ⟨[], rfl⟩⟩
  | cons att atts ih =>
    rw [List.forall_mem_cons, ← ih]
    simp only [attachmentParts, bind_eq_ok_iff, exists_unit, failIf_eq_ok, Except.ok.injEq,
      Bool.not_eq_false']
    constructor
    · rintro ⟨-, htype, parts, hparts, -⟩
      exact ⟨htype, parts, hparts⟩
    · rintro ⟨htype, parts, hparts⟩
      exact ⟨_, htype, parts, hparts, rfl⟩

/-- Without attachments nothing is parsed. -/
theorem content_isOk {v : ValidatedMailRequest} :
    (∃ part, content D v = .ok part) ↔
      ∀ att ∈ v.attachments, D.parseContentType att.contentType = true := by
  rw [← attachmentParts_isOk]
  unfold content
  cases hatts : v.attachments with
  | nil =>
    refine ⟨fun _ => ⟨[], rfl⟩, fun _ => ?_⟩
    simp only [List.isEmpty_nil, Bool.true_and, if_true]
    split <;> exact ⟨_, rfl⟩
  | cons att atts =>
    simp only [List.isEmpty_cons, Bool.false_and, Bool.false_eq_true, if_false, bind_eq_ok_iff,
      Except.ok.injEq]
    constructor
    · rintro ⟨part, parts, hparts, -⟩
      exact ⟨parts, hparts⟩
    · rintro ⟨parts, hparts⟩
      exact ⟨_, parts, hparts, rfl⟩

/-- `build_message` succeeds if each of its parses does. -/
theorem buildMessage_isOk (laws : BuildLaws D) {v : ValidatedMailRequest} {config : AppConfig}
    (hfrom : ∃ a, D.parseAddress config.mail.defaultFrom = some a) (hto : v.toAddrs ≠ []) :
    (∃ message, buildMessage D v config = .ok message) ↔
      (∀ addr ∈ v.toAddrs ++ v.cc ++ v.replyTo, (D.parseMailbox addr).isSome = true) ∧
        ∀ att ∈ v.attachments, D.parseContentType att.contentType = true := by
  rw [List.forall_mem_append, List.forall_mem_append, ← content_isOk]
  constructor
  · rintro ⟨message, h⟩
    simp only [buildMessage, bind_eq_ok_iff] at h
    obtain ⟨a, -, b₁, hb₁, b₂, hb₂, b₃, hb₃, part, hpart, -⟩ := h
    exact ⟨⟨⟨addMailboxes_isOk.mp ⟨b₁, hb₁⟩, addMailboxes_isOk.mp ⟨b₂, hb₂⟩⟩,
      addMailboxes_isOk.mp ⟨b₃, hb₃⟩⟩, part, hpart⟩
  · rintro ⟨⟨⟨hto', hcc⟩, hreply⟩, hpart⟩
    obtain ⟨a, ha⟩ := hfrom
    refine exists_ok_bind ⟨a, okOr_eq_ok.mpr ha⟩ fun a _ => ?_
    refine exists_ok_bind (addMailboxes_isOk.mpr hto') fun b₁ hb₁ => ?_
    refine exists_ok_bind (addMailboxes_isOk.mpr hcc) fun b₂ hb₂ => ?_
    refine exists_ok_bind (addMailboxes_isOk.mpr hreply) fun b₃ hb₃ => ?_
    refine exists_ok_bind hpart fun part _ => ?_
    -- the builder has its sender, and a mailbox for every recipient
    obtain ⟨boxes, hboxes, rfl⟩ := addTo_ok D hb₁
    obtain ⟨ccBoxes, _, rfl⟩ := addCc_ok D hb₂
    obtain ⟨replyBoxes, _, rfl⟩ := addReplyTo_ok D hb₃
    have hne : boxes ≠ [] := by
      rintro rfl
      exact hto (List.map_eq_nil_iff.mp hboxes.symm)
    refine exists_ok_bind ?_ fun _ _ => ⟨_, rfl⟩
    apply (Option.isSome_iff_exists.mp (laws.envelope _ ?_ ?_)).imp
    · exact fun envelope henvelope => okOr_eq_ok.mpr henvelope
    · exact List.cons_ne_nil _ _
    · exact List.append_ne_nil_of_right_ne_nil _ hne

end Mail

/-- The attachment loop keeps the content types as they are. -/
theorem forall_contentType_iff {D : Deps} {mail : MailConfig} {p : String → Prop}
    {specs : List AttachmentSpec} {atts : List ValidatedAttachment}
    (h : List.Forall₂ (Validation.AttachmentPassed D mail) specs atts) :
    (∀ att ∈ atts, p att.contentType) ↔ ∀ spec ∈ specs, p spec.contentType := by
  induction h with
  | nil => exact ⟨fun _ spec h => (List.not_mem_nil h).elim, fun _ att h => (List.not_mem_nil h).elim⟩
  | cons hone _ ih => rw [List.forall_mem_cons, List.forall_mem_cons, ih, hone.contentType]

open Validation in
/-- A validated request is built, rather than answered as an internal error, exactly
if its addresses with a quoted local part or an address literal are mailboxes and its
content types are MIME types. -/
theorem validated_built_iff {features : Features} {D : Deps} (laws : BuildLaws D)
    {config : AppConfig} (hconfig : ConfigValidate.Accepted features D config)
    {req : MailRequest} {auth : AuthContext} {v : ValidatedMailRequest}
    (hvalid : validateMailRequest D req config auth = .ok v) :
    (∃ message, Mail.buildMessage D v config = .ok message) ↔
      (∀ addr ∈ req.mailboxes, QuotedLocalPart addr ∨ DomainLiteral addr →
          (D.parseMailbox addr).isSome = true) ∧
        ∀ spec ∈ req.attachments.getD [], D.parseContentType spec.contentType = true := by
  have hpassed := validate_ok D hvalid
  have hstages := validateMailRequest_ok D hvalid
  obtain ⟨hreply, hreplyParses⟩ := validateReplyTo_ok D hstages.replyTo
  have hboxes : v.toAddrs ++ v.cc ++ v.replyTo = req.mailboxes := by
    rw [MailRequest.mailboxes, MailRequest.recipients, hpassed.toAddrs, hpassed.cc, hreply]
  have hparses : ∀ addr ∈ v.toAddrs ++ v.cc ++ v.replyTo, (D.parseAddress addr).isSome = true := by
    intro addr haddr
    apply Option.isSome_iff_exists.mpr
    rcases List.mem_append.mp haddr with haddr | haddr
    · exact (hpassed.accepted addr haddr).parses
    · exact (hreplyParses addr haddr).1
  rw [Mail.buildMessage_isOk laws (ConfigValidate.validateConfig_ok hconfig).1 hpassed.nonempty]
  refine and_congr ?_ ?_
  · rw [← hboxes]
    refine forall₂_congr fun addr haddr => ⟨fun h _ => h, fun h => ?_⟩
    by_cases hboth : QuotedLocalPart addr ∨ DomainLiteral addr
    · exact h hboth
    · obtain ⟨hquoted, hliteral⟩ := not_or.mp hboth
      exact laws.mailbox addr (hparses addr haddr) hquoted hliteral
  · exact forall_contentType_iff (p := fun s => D.parseContentType s = true)
      (validateAttachments_ok D hstages.attachments).1

/-! A parser of content types that asks for what is known of `ContentType`. -/

def mimeType (s : String) : Bool :=
  let before := s.toList.takeWhile (· != '/')
  match s.toList.dropWhile (· != '/') with
  | _ :: after => !before.isEmpty && !after.isEmpty
  | [] => false

theorem typeAndSubtype_of_mimeType {s : String} (h : mimeType s = true) : TypeAndSubtype s := by
  unfold mimeType at h
  split at h
  · rename_i slash after hrest
    have hslash : slash = '/' := by
      have hhead := List.head_dropWhile_not (· != '/') (l := s.toList) (by rw [hrest]; simp)
      simpa [hrest] using hhead
    have hsplit := List.takeWhile_append_dropWhile (p := (· != '/')) (l := s.toList)
    rw [hrest, hslash] at hsplit
    rw [Bool.and_eq_true, Bool.not_eq_true', Bool.not_eq_true', List.isEmpty_eq_false_iff,
      List.isEmpty_eq_false_iff] at h
    refine ⟨_, after, hsplit.symm, fun hmem => ?_, h.1, h.2⟩
    have hnot := List.mem_takeWhile_imp hmem
    exact Bool.false_ne_true hnot
  · cases h

def mimeDeps : Deps := { Deps.plain with parseContentType := mimeType }

theorem mimeDeps_mailbox {addr : String} (h : (mimeDeps.parseAddress addr).isSome = true) :
    (mimeDeps.parseMailbox addr).isSome = true :=
  (Option.isSome_map ..).trans h

theorem mimeDeps_buildLaws : BuildLaws mimeDeps where
  mailbox _ haddr _ _ := mimeDeps_mailbox haddr
  envelope := by
    intro b _ hto
    have hne : (b.toAddrs ++ b.cc ++ b.bcc).map Mailbox.email ≠ [] := by
      simp [hto]
    show (Deps.plainEnvelope b).isSome = true
    unfold Deps.plainEnvelope
    simp only [List.isEmpty_eq_false_iff.mpr hne, Bool.false_eq_true, if_false, Option.isSome_some]

theorem validated_built_rich :
    (∃ message, Mail.buildMessage mimeDeps richValidated richConfig = .ok message) := by
  have hvalid : Validation.validateMailRequest mimeDeps richRequest richConfig sampleAuth =
      .ok richValidated := by decide
  have hconfig : ConfigValidate.Accepted {} mimeDeps richConfig := by
    unfold ConfigValidate.Accepted
    decide
  apply (validated_built_iff mimeDeps_buildLaws hconfig hvalid).mpr
  refine ⟨fun addr haddr _ => ?_, fun spec hspec => ?_⟩
  · exact List.all_eq_true.mp
      (show (richRequest.mailboxes.all fun a => (mimeDeps.parseMailbox a).isSome) = true by decide)
      addr haddr
  · obtain rfl := List.mem_singleton.mp hspec
    decide

/-- A content type that has a slash, and nothing else. -/
def slashRequest : MailRequest :=
  { richRequest with
    attachments := some [{ filename := "empty.txt", contentType := "/", data := "" }] }

def slashValidated : ValidatedMailRequest :=
  { richValidated with
    attachments := [{ filename := "empty.txt", contentType := "/", decoded := [] }] }

theorem slash_content_type_internal :
    BuildLaws mimeDeps ∧
      (∀ addr, (mimeDeps.parseAddress addr).isSome = true → ¬QuotedLocalPart addr →
        (mimeDeps.parseMailbox addr).isSome = true) ∧
      (∀ s, mimeDeps.parseContentType s = true → TypeAndSubtype s) ∧
      ConfigValidate.Accepted {} mimeDeps richConfig ∧
      Validation.validateMailRequest mimeDeps slashRequest richConfig sampleAuth =
        .ok slashValidated ∧
      Mail.buildMessage mimeDeps slashValidated richConfig = .error .internal := by
  refine ⟨mimeDeps_buildLaws, fun _ haddr _ => mimeDeps_mailbox haddr,
    fun _ => typeAndSubtype_of_mimeType, ?_, by decide, rfl⟩
  unfold ConfigValidate.Accepted
  decide

end HttpSmtpRele
