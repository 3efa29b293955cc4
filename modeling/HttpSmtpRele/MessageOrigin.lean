import HttpSmtpRele.Provenance
import HttpSmtpRele.SafeRequest

/-!
# Every message is the one its own client asked for

Requests are read, validated and built side by side.  `Server.takesOn` logs which
request a thread takes on, from the body it receives or from the array of a bulk
request; whatever a thread hands to a transport is a rendering of that request and
of no other (`Thread.Writes`): recipients, subject, bodies and attachments are the
client's own, `Bcc` is empty, and the sender is that of a config that was in force.
-/

namespace HttpSmtpRele

open Prog Api

variable {ρ : Type} {D : Deps} {L : Limiter ρ}

/-! ## Renderings -/

/-- Plain text, `multipart/alternative`, or `multipart/mixed` around it. -/
def MailPart.render (body : String) (html : Option String) (atts : List ValidatedAttachment) :
    MailPart :=
  let text := alternative (plain body :: (html.map MailPart.html).toList)
  if atts.isEmpty && html.isNone then plain body
  else if atts.isEmpty then text
  else mixed (text :: atts.map fun att => attachment att.filename att.contentType att.decoded)

/-- The message says what the request says, under the sender of the config. -/
structure Rendering (D : Deps) (cfg : AppConfig) (req : MailRequest) (message : Message) :
    Prop where
  sender : ∃ a, D.parseAddress cfg.mail.defaultFrom = some a ∧
    message.headers.sender = [⟨req.fromName.or cfg.mail.defaultFromName, a⟩]
  toAddrs : Mail.Parsed D req.toAddrs message.headers.toAddrs
  cc : Mail.Parsed D (req.cc.getD []) message.headers.cc
  bcc : message.headers.bcc = []
  replyTo : Mail.Parsed D (req.replyTo.getD []) message.headers.replyTo
  subject : message.headers.subject = some req.subject
  content : ∃ atts, List.Forall₂ (DecodedFrom D) (req.attachments.getD []) atts ∧
    message.content = .render req.body req.bodyHtml atts

namespace MessageOrigin

theorem attachmentParts_ok {atts : List ValidatedAttachment} {parts : List MailPart}
    (h : Mail.attachmentParts D atts = .ok parts) :
    parts = atts.map fun att => .attachment att.filename att.contentType att.decoded := by
  induction atts generalizing parts with
  | nil =>
    cases h
    rfl
  | cons att atts ih =>
    simp only [Mail.attachmentParts, Except.bind_eq_ok_iff] at h
    obtain ⟨-, -, rest, hrest, h⟩ := h
    cases h
    rw [ih hrest]
    rfl

theorem content_ok {v : ValidatedMailRequest} {part : MailPart}
    (h : Mail.content D v = .ok part) : part = .render v.body v.bodyHtml v.attachments := by
  unfold Mail.content at h
  unfold MailPart.render
  split
  · rename_i hplain
    rw [if_pos hplain] at h
    exact (Except.ok.inj h).symm
  · rename_i hplain
    rw [if_neg hplain] at h
    split
    · rename_i hbare
      rw [if_pos hbare] at h
      exact (Except.ok.inj h).symm
    · rename_i hbare
      rw [if_neg hbare, Except.bind_eq_ok_iff] at h
      obtain ⟨parts, hparts, h⟩ := h
      rw [← Except.ok.inj h, attachmentParts_ok hparts]

theorem built_content {v : ValidatedMailRequest} {cfg : AppConfig} {message : Message}
    (h : Mail.buildMessage D v cfg = .ok message) : Mail.content D v = .ok message.content := by
  unfold Mail.buildMessage at h
  simp only [Mail.finish, Except.bind_eq_ok_iff, Except.ok.injEq] at h
  obtain ⟨-, -, -, -, -, -, -, -, part, hpart, -, -, rfl⟩ := h
  exact hpart

theorem rendering_of_built {req : MailRequest} {cfg : AppConfig} {auth : AuthContext}
    {v : ValidatedMailRequest} {message : Message}
    (hvalid : Validation.validateMailRequest D req cfg auth = .ok v)
    (hbuilt : Mail.buildMessage D v cfg = .ok message) : Rendering D cfg req message := by
  have hverb := SafeRequest.verbatim_of_stages (Validation.validateMailRequest_ok D hvalid)
  have h := Mail.buildMessage_ok D hbuilt
  obtain ⟨a, ha, hsender⟩ := h.sender
  refine ⟨⟨a, ha, ?_⟩, ?_, ?_, h.bcc, ?_, ?_, v.attachments, hverb.attachments, ?_⟩
  · rw [hsender, hverb.fromName]
  · exact hverb.toAddrs ▸ h.toAddrs
  · exact hverb.cc ▸ h.cc
  · exact hverb.replyTo ▸ h.replyTo
  · rw [h.subject, hverb.subject]
  · rw [content_ok (built_content hbuilt), hverb.body, hverb.bodyHtml]

end MessageOrigin

/-! ## The requests of the threads -/

/-- The message renders the one request that was taken on. -/
def Written (D : Deps) (reqs : List MailRequest) (cfg : AppConfig) (message : Message) : Prop :=
  ∃ req, reqs = [req] ∧ Rendering D cfg req message

/-- The config snapshot `φ`, after an operation. -/
def Op.snapshot (φ : Option AppConfig) : (op : Op) → op.Res → Option AppConfig
  | .config, cfg => some cfg
  | _, _ => φ

/-- Nothing is handed over but renderings of the request under the snapshot. -/
def Hands (D : Deps) (reqs : List MailRequest) (φ : Option AppConfig) (op : Op) (r : op.Res)
    (φ' : Option AppConfig) : Prop :=
  φ' = op.snapshot φ r ∧
    ∀ h, op.handed? = some h → ∃ cfg, φ = some cfg ∧ Written D reqs cfg h.message

/-- What phase 1 prepares is written under the snapshot. -/
def Prepares (D : Deps) (reqs : List MailRequest) (out : Except MessageResult PreparedMessage)
    (φ : Option AppConfig) : Prop :=
  ∀ q, out = .ok q → ∃ cfg, φ = some cfg ∧ Written D reqs cfg q.message

def MessageState.Writes (D : Deps) (reqs : List MailRequest) (b : Bulk)
    (φ : Option AppConfig) : MessageState → Prop
  | waiting item => reqs = [item.rawMsg] ∧ φ = some b.cfg
  | preparing _ p => Obeys (Hands D reqs) (Prepares D reqs) φ p
  | rejected _ _ => True
  | prepared q => ∃ cfg, φ = some cfg ∧ Written D reqs cfg q.message
  | submitting _ p => Obeys (Hands D reqs) (fun _ _ => True) φ p
  | submitted _ _ => True

/-- `reqs` is what the thread has taken on, and `φ` the config it runs under. -/
def Thread.Writes (D : Deps) (reqs : List MailRequest) (φ : Option AppConfig) : Thread → Prop
  | receiving _ _ _ => reqs = [] ∧ φ = none
  | handling _ _ p => Obeys (Hands D reqs) (fun _ _ => True) φ p
  | message b m => m.Writes D reqs b φ
  | lookup p => Follows maintenanceNext (fun _ _ => True) () p
  | sweep p => Follows maintenanceNext (fun _ _ => True) () p
  | _ => True

/-- Neither the config is read nor a message handed over. -/
def Op.isQuiet : Op → Bool
  | config => false
  | smtpSend _ _ => false
  | pipeSend _ _ _ => false
  | _ => true

namespace MessageOrigin

variable {reqs : List MailRequest} {rid : RequestId} {auth : AuthContext} {cfg : AppConfig}
  {φ : Option AppConfig}

theorem hands_quiet {op : Op} (hop : op.isQuiet = true) (r : op.Res) : Hands D reqs φ op r φ := by
  cases op with
  | config => cases hop
  | smtpSend message timeout => cases hop
  | pipeSend message command timeout => cases hop
  | _ => exact ⟨rfl, fun h hh => by cases hh⟩

/-- The rule for an operation that hands nothing over. -/
theorem obeys_quiet {α : Type} {Q : α → Option AppConfig → Prop} {op : Op}
    {f : op.Res → RelayM α} (hop : op.isQuiet = true)
    (hf : ∀ r, Obeys (Hands D reqs) Q φ (f r)) :
    Obeys (Hands D reqs) Q φ (Prog.perform op >>= f) :=
  Obeys.perform (ψ := fun _ => φ) (hands_quiet hop) hf

theorem obeys_last {op : Op} (hop : op.isQuiet = true) :
    Obeys (Hands D reqs) (fun _ φ' => φ' = φ) φ (Prog.perform op) :=
  fun r => ⟨φ, hands_quiet hop r, rfl⟩

theorem obeys_putNewReceived {keyId : String} {ttl : Nat} :
    Obeys (Hands D reqs) (fun _ φ' => φ' = φ) φ (putNewReceived rid keyId ttl) := by
  unfold putNewReceived
  apply obeys_quiet rfl
  intro now
  cases SubmissionStatusRecord.newReceived rid keyId ttl now with
  | none => trivial
  | some record => exact obeys_last rfl

theorem obeys_refuse {stored answered : AppError} :
    Obeys (Hands D reqs) (fun _ _ => True) φ (refuse rid auth stored answered) :=
  obeys_quiet rfl fun _ => trivial

theorem hands_written {op : Op} {message : Message} (hkeeps : ∀ r, op.snapshot (some cfg) r = some cfg)
    (hop : ∀ h, op.handed? = some h → h.message = message) (h : Written D reqs cfg message)
    (r : op.Res) : Hands D reqs (some cfg) op r (some cfg) :=
  ⟨(hkeeps r).symm, fun hd hhd => ⟨cfg, rfl, (hop hd hhd).symm ▸ h⟩⟩

theorem obeys_sendMessage {message : Message} (h : Written D reqs cfg message) :
    Obeys (Hands D reqs) (fun _ _ => True) (some cfg) (sendMessage rid auth cfg message) := by
  unfold sendMessage Smtp.submit
  apply obeys_quiet rfl
  intro _
  simp only [bind_assoc]
  apply Obeys.perform (ψ := fun _ => some cfg)
    (hands_written (fun _ => rfl) (by rintro _ ⟨⟩; rfl) h)
  intro outcome
  simp only [pure_eq, ret_bind]
  cases Smtp.outcomeResult outcome with
  | ok _ => exact obeys_quiet rfl fun _ => trivial
  | error e => exact obeys_quiet rfl fun _ => trivial

theorem obeys_sendPayload {payload : MailRequest} :
    Obeys (Hands D [payload]) (fun _ _ => True) (some cfg)
      (sendPayload D rid auth cfg payload) := by
  have hrates : Obeys (Hands D [payload]) (fun _ φ' => φ' = some cfg) (some cfg)
      (checkRates auth) := by
    apply obeys_quiet rfl
    intro global
    cases global with
    | error retryAfter => rfl
    | ok _ =>
      apply obeys_quiet rfl
      intro ip
      cases ip with
      | error retryAfter => rfl
      | ok _ => exact obeys_last rfl
  apply hrates.bind
  rintro rates _ rfl
  cases rates with
  | error retryAfter => exact obeys_refuse
  | ok _ =>
    simp only []
    cases hvalid : Validation.validateMailRequest D payload cfg auth with
    | error e => exact obeys_refuse
    | ok validated =>
      unfold sendValidated
      apply obeys_quiet rfl
      intro _
      cases hbuilt : Mail.buildMessage D validated cfg with
      | error e => exact obeys_quiet rfl fun _ => trivial
      | ok message => exact obeys_sendMessage ⟨payload, rfl, rendering_of_built hvalid hbuilt⟩

/-- The handler hands over what it parses of the body, under the config it reads. -/
theorem obeys_sendMail {headers : HeaderMap} {body : List UInt8} :
    Obeys (Hands D (D.parseMailRequest body).toList) (fun _ _ => True) none
      (sendMail D rid auth headers body) := by
  apply Obeys.perform (ψ := fun cfg => some cfg) (fun cfg => ⟨rfl, fun h hh => by cases hh⟩)
  intro cfg
  apply obeys_putNewReceived.bind
  rintro _ _ rfl
  unfold sendReceived
  cases hpayload : readPayload D cfg headers body with
  | error e => exact obeys_refuse
  | ok payload =>
    have hparse : D.parseMailRequest body = some payload := by
      unfold readPayload at hpayload
      simp only [Except.guard_bind_eq_ok, Except.okOr_eq_ok] at hpayload
      exact hpayload.2.2
    rw [hparse]
    exact obeys_sendPayload

/-- A refused message leaves nothing to hand over. -/
theorem obeys_refused {α : Type} {p : RelayM α} {result : MessageResult}
    (hp : Obeys (Hands D reqs) (fun _ _ => True) φ p) :
    Obeys (Hands D reqs) (Prepares D reqs) φ (p >>= fun _ => .ret (.error result)) :=
  hp.bind fun _ _ _ q hq => by cases hq

theorem obeys_phase1Prepare {index : Nat} {rawMsg : MailRequest} :
    Obeys (Hands D [rawMsg]) (Prepares D [rawMsg]) (some cfg)
      (phase1Prepare D index rawMsg rid auth cfg) := by
  have hlimited : ∀ text, Obeys (Hands D [rawMsg]) (Prepares D [rawMsg]) (some cfg)
      (rateLimitedMessage index rid auth cfg text) := by
    intro text
    apply obeys_refused
    apply obeys_putNewReceived.bind
    rintro _ _ rfl
    exact (obeys_last rfl).mono fun _ _ _ => trivial
  apply obeys_quiet rfl
  intro global
  cases global with
  | error _ => exact hlimited _
  | ok _ =>
    apply obeys_quiet rfl
    intro ip
    cases ip with
    | error _ => exact hlimited _
    | ok _ =>
      apply obeys_quiet rfl
      intro key
      cases key with
      | error _ => exact hlimited _
      | ok _ =>
        apply obeys_putNewReceived.bind
        rintro _ _ rfl
        cases hvalid : Validation.validateMailRequest D rawMsg cfg auth with
        | error e => exact obeys_refused ((obeys_last rfl).mono fun _ _ _ => trivial)
        | ok validated =>
          unfold prepareValidated
          apply obeys_quiet rfl
          intro _
          cases hbuilt : Mail.buildMessage D validated cfg with
          | error e => exact obeys_refused ((obeys_last rfl).mono fun _ _ _ => trivial)
          | ok message =>
            intro q hq
            cases hq
            exact ⟨cfg, rfl, rawMsg, rfl, rendering_of_built hvalid hbuilt⟩

/-- A message is submitted under the config it was prepared under, or another one. -/
theorem obeys_phase2Submit {cfg' : AppConfig} {q : PreparedMessage}
    (h : Written D reqs cfg' q.message) :
    Obeys (Hands D reqs) (fun _ _ => True) (some cfg') (phase2Submit cfg q) := by
  have hsubmit : Obeys (Hands D reqs) (fun _ φ => φ = some cfg') (some cfg')
      (submitByMode cfg q.message) := by
    unfold submitByMode
    split
    · exact fun r => ⟨_, hands_written (fun _ => rfl) (by rintro _ ⟨⟩; rfl) h r, rfl⟩
    · exact fun r => ⟨_, hands_written (fun _ => rfl) (by rintro _ ⟨⟩; rfl) h r, rfl⟩
  apply obeys_quiet rfl
  intro _
  apply hsubmit.bind
  rintro result _ rfl
  cases result with
  | ok _ => exact obeys_quiet rfl fun _ => trivial
  | error e => exact obeys_quiet rfl fun _ => trivial

/-! ## Threads -/

theorem passes_writes {t t' : Thread} (hok : t.Writes D reqs φ) (h : t.Passes D t')
    (hreceived : ∀ rid auth headers, t ≠ .receiving rid auth headers) : t'.Writes D reqs φ := by
  cases h with
  | bodyRejected rid auth headers rejection => exact absurd rfl (hreceived rid auth headers)
  | received rid auth headers body => exact absurd rfl (hreceived rid auth headers)
  | prepares b item =>
    obtain ⟨rfl, rfl⟩ : reqs = [item.rawMsg] ∧ φ = some b.cfg := hok
    exact obeys_phase1Prepare
  | rejected b item result => trivial
  | prepared b item q => exact hok q rfl
  | submits b q =>
    obtain ⟨cfg, rfl, hwritten⟩ := hok
    exact obeys_phase2Submit hwritten
  | submitted b q result => trivial

theorem performs_writes {t : Thread} {op : Op} {f : op.Res → Thread} (hok : t.Writes D reqs φ)
    (h : t.Performs op f) (r : op.Res) :
    (f r).Writes D reqs (op.snapshot φ r) ∧
      ∀ hd, op.handed? = some hd → ∃ cfg, φ = some cfg ∧ Written D reqs cfg hd.message := by
  have hmaintenance : (∃ u, maintenanceNext () op = some u) →
      ∀ hd, op.handed? = some hd → ∃ cfg, φ = some cfg ∧ Written D reqs cfg hd.message := by
    rintro ⟨u, hmove⟩ hd hhd
    have hmaint : op.isMaintenance = true := by
      by_contra hop
      simp [maintenanceNext, hop] at hmove
    rw [Delivery.handed_of_maintenance hmaint] at hhd
    cases hhd
  cases h with
  | handling rid auth op k =>
    obtain ⟨_, ⟨rfl, hhands⟩, hk⟩ := hok r
    exact ⟨hk, hhands⟩
  | preparing b item op k =>
    obtain ⟨_, ⟨rfl, hhands⟩, hk⟩ := hok r
    exact ⟨hk, hhands⟩
  | submitting b q op k =>
    obtain ⟨_, ⟨rfl, hhands⟩, hk⟩ := hok r
    exact ⟨hk, hhands⟩
  | lookup op k =>
    obtain ⟨u, hmove, hk⟩ := hok
    exact ⟨hk r, hmaintenance ⟨u, hmove⟩⟩
  | sweep op k =>
    obtain ⟨u, hmove, hk⟩ := hok
    exact ⟨hk r, hmaintenance ⟨u, hmove⟩⟩

/-- A snapshot is of the config in force. -/
theorem snapshot_known {Known : AppConfig → Prop} {op : Op} {c : Choice} {w : World ρ}
    (hφ : ∀ cfg, φ = some cfg → Known cfg) (hw : Known w.app.config) {cfg : AppConfig}
    (h : op.snapshot φ (exec L op c w).1 = some cfg) : Known cfg := by
  cases op with
  | config =>
    cases h
    exact hw
  | _ => exact hφ cfg h

end MessageOrigin

/-! ## Runs -/

namespace Server

/-- The requests that threads take on with an event: what `send_mail` parses of the
body, and the messages of a bulk request that is admitted. -/
def takesOn (D : Deps) (s : Server ρ) : Event → List (Nat × MailRequest)
  | .turn i c =>
    match s.threads[i]? with
    | some (.receiving _ _ _) =>
      match s.world.recvBody c.body with
      | .ok body => (D.parseMailRequest body).toList.map fun req => (i, req)
      | .error _ => []
    | _ => []
  | .postBulk _ _ messages =>
    match checkBulk s.world.app.config (messages.map Prod.fst) with
    | .ok _ => messages.mapIdx fun k m => (s.threads.length + k, m.1)
    | .error _ => []
  | _ => []

def requests (D : Deps) (L : Limiter ρ) (s : Server ρ) (es : List Event) :
    List (Nat × MailRequest) :=
  s.observe D L (takesOn D) es

end Server

/-- What thread `i` has taken on. -/
def requestsOf (taken : List (Nat × MailRequest)) (i : Nat) : List MailRequest :=
  (taken.filter fun x => x.1 == i).map Prod.snd

namespace MessageOrigin

/-- The thread works on `reqs`, under a known config if any. -/
def WritesKnown (D : Deps) (Known : AppConfig → Prop) (reqs : List MailRequest) (t : Thread) :
    Prop :=
  ∃ φ, (∀ cfg, φ = some cfg → Known cfg) ∧ t.Writes D reqs φ

/-- Every thread works on what it has taken on, and what was handed over renders it
under a known config. -/
structure Kept (D : Deps) (Known : AppConfig → Prop) (s : Server ρ)
    (taken : List (Nat × MailRequest)) (handed : List HandOff) : Prop where
  writes : ∀ (i : Nat) (t : Thread), s.threads[i]? = some t →
    WritesKnown D Known (requestsOf taken i) t
  inRange : ∀ x ∈ taken, x.1 < s.threads.length
  written : ∀ h ∈ handed, ∃ cfg, Known cfg ∧
    Written D (requestsOf taken h.thread) cfg h.handed.message

/-- A thread that runs under no config yet. -/
theorem WritesKnown.unread {Known : AppConfig → Prop} {t : Thread} (h : t.Writes D reqs none) :
    WritesKnown D Known reqs t := by
  refine ⟨none, ?_, h⟩
  intro cfg hcfg
  cases hcfg

variable {Known : AppConfig → Prop}

theorem requestsOf_append (taken new : List (Nat × MailRequest)) (i : Nat) :
    requestsOf (taken ++ new) i = requestsOf taken i ++ requestsOf new i := by
  rw [requestsOf, List.filter_append, List.map_append]
  rfl

theorem requestsOf_foreign (taken : List (Nat × MailRequest)) {i : Nat}
    (h : ∀ x ∈ taken, x.1 ≠ i) : requestsOf taken i = [] := by
  rw [requestsOf, List.filter_eq_nil_iff.mpr, List.map_nil]
  intro x hx
  simp [h x hx]

theorem requestsOf_own {taken : List (Nat × MailRequest)} {i : Nat} (h : ∀ x ∈ taken, x.1 = i) :
    requestsOf taken i = taken.map Prod.snd := by
  rw [requestsOf, List.filter_eq_self.mpr]
  intro x hx
  simp [h x hx]

/-- What was written renders what was taken on before. -/
theorem Kept.append_written {s : Server ρ} {taken new : List (Nat × MailRequest)}
    {handed : List HandOff} (h : Kept D Known s taken handed)
    (hnew : ∀ x ∈ new, requestsOf taken x.1 = []) :
    ∀ hd ∈ handed, ∃ cfg, Known cfg ∧
      Written D (requestsOf (taken ++ new) hd.thread) cfg hd.handed.message := by
  intro hd hmem
  have hwritten := h.written hd hmem
  rw [requestsOf_append, requestsOf_foreign new, List.append_nil]
  · exact hwritten
  · rintro x hx hxi
    obtain ⟨cfg, -, req, hreq, -⟩ := hwritten
    rw [← hxi, hnew x hx] at hreq
    cases hreq

/-- A thread takes a turn, and takes on what is `new`. -/
theorem Kept.set {s : Server ρ} {taken new : List (Nat × MailRequest)}
    {handed given : List HandOff} {i : Nat} {t t' : Thread} {w' : World ρ}
    (h : Kept D Known s taken handed) (ht : s.threads[i]? = some t) (hnew : ∀ x ∈ new, x.1 = i)
    (hfirst : new = [] ∨ requestsOf taken i = [])
    (hwrites : WritesKnown D Known (requestsOf taken i ++ new.map Prod.snd) t')
    (hgiven : ∀ hd ∈ given, new = [] ∧ hd.thread = i ∧
      ∃ cfg, Known cfg ∧ Written D (requestsOf taken i) cfg hd.handed.message) :
    Kept D Known { world := w', threads := s.threads.set i t' } (taken ++ new) (handed ++ given) where
  writes j u hu := by
    rw [requestsOf_append]
    by_cases hij : i = j
    · subst hij
      rw [List.getElem?_set_self (List.getElem?_eq_some_iff.mp ht).1] at hu
      obtain rfl := Option.some.inj hu
      rw [requestsOf_own hnew]
      exact hwrites
    · rw [List.getElem?_set_ne hij] at hu
      rw [requestsOf_foreign new fun x hx => hnew x hx ▸ hij, List.append_nil]
      exact h.writes j u hu
  inRange x hx := by
    rw [List.length_set]
    rcases List.mem_append.mp hx with hx | hx
    · exact h.inRange x hx
    · rw [hnew x hx]
      exact (List.getElem?_eq_some_iff.mp ht).1
  written hd hmem := by
    rcases List.mem_append.mp hmem with hmem | hmem
    · apply h.append_written ?_ hd hmem
      intro x hx
      rcases hfirst with rfl | hempty
      · cases hx
      · rw [hnew x hx]
        exact hempty
    · obtain ⟨rfl, hthread, hwritten⟩ := hgiven hd hmem
      rw [List.append_nil, hthread]
      exact hwritten

/-- New threads start on what is `new`. -/
theorem Kept.append {s : Server ρ} {taken new : List (Nat × MailRequest)} {handed : List HandOff}
    {ts : List Thread} (h : Kept D Known s taken handed)
    (hnew : ∀ x ∈ new, s.threads.length ≤ x.1 ∧ x.1 < s.threads.length + ts.length)
    (hwrites : ∀ (k : Nat) (t : Thread), ts[k]? = some t →
      WritesKnown D Known (requestsOf new (s.threads.length + k)) t) :
    Kept D Known { s with threads := s.threads ++ ts } (taken ++ new) handed where
  writes j u hu := by
    rw [requestsOf_append]
    by_cases hj : j < s.threads.length
    · rw [List.getElem?_append_left hj] at hu
      rw [requestsOf_foreign new, List.append_nil]
      · exact h.writes j u hu
      · intro x hx
        have := (hnew x hx).1
        omega
    · rw [List.getElem?_append_right (Nat.le_of_not_lt hj)] at hu
      rw [requestsOf_foreign taken, List.nil_append]
      · have hwrites := hwrites _ u hu
        rwa [Nat.add_sub_cancel' (Nat.le_of_not_lt hj)] at hwrites
      · intro x hx
        have := h.inRange x hx
        omega
  inRange x hx := by
    rw [List.length_append]
    rcases List.mem_append.mp hx with hx | hx
    · have := h.inRange x hx
      omega
    · exact (hnew x hx).2
  written := by
    apply h.append_written
    intro x hx
    apply requestsOf_foreign taken
    intro y hy hyx
    have := h.inRange y hy
    have := (hnew x hx).1
    omega

/-! ### Events -/

/-- The body of a request arrives: its thread takes on what is parsed of it. -/
theorem kept_receives {s : Server ρ} {i : Nat} {c : Choice} {t' : Thread} {w' : World ρ}
    {taken : List (Nat × MailRequest)} {handed : List HandOff} {rid : RequestId}
    {auth : AuthContext} {headers : HeaderMap} (h : Kept D Known s taken handed)
    (ht : s.threads[i]? = some (.receiving rid auth headers))
    (hturn : (Thread.receiving rid auth headers).turn D L
      (s.mayMove i (.receiving rid auth headers)) c s.world = some (t', w')) :
    Kept D Known { world := w', threads := s.threads.set i t' } (taken ++ s.takesOn D (.turn i c))
      (handed ++ s.handOff (.turn i c)) := by
  obtain ⟨φ, -, hwrites⟩ := h.writes i _ ht
  obtain ⟨hempty, rfl⟩ : requestsOf taken i = [] ∧ φ = none := hwrites
  have hgives : s.handOff (.turn i c) = [] := Delivery.handOff_turn ht c
  simp only [Thread.turn] at hturn
  cases hbody : s.world.recvBody c.body with
  | error rejection =>
    rw [hbody] at hturn
    cases hturn
    have htakes : s.takesOn D (.turn i c) = [] := by simp [Server.takesOn, ht, hbody]
    rw [htakes, hgives]
    exact h.set ht (by simp) (Or.inl rfl) (.unread trivial) (by simp)
  | ok body =>
    rw [hbody] at hturn
    cases hturn
    have htakes : s.takesOn D (.turn i c) =
        (D.parseMailRequest body).toList.map fun req => (i, req) := by
      simp [Server.takesOn, ht, hbody]
    rw [htakes, hgives]
    refine h.set ht ?_ (Or.inr hempty) ?_ (by simp)
    · intro x hx
      obtain ⟨req, -, rfl⟩ := List.mem_map.mp hx
      rfl
    · have hown : ((D.parseMailRequest body).toList.map fun req => (i, req)).map Prod.snd =
          (D.parseMailRequest body).toList := by simp [Function.comp_def]
      rw [hempty, List.nil_append, hown]
      exact .unread obeys_sendMail

theorem kept_turn {s : Server ρ} {i : Nat} {c : Choice} {t t' : Thread} {w' : World ρ}
    {taken : List (Nat × MailRequest)} {handed : List HandOff}
    (hknown : Known s.world.app.config) (h : Kept D Known s taken handed)
    (ht : s.threads[i]? = some t)
    (hturn : t.turn D L (s.mayMove i t) c s.world = some (t', w')) :
    Kept D Known { world := w', threads := s.threads.set i t' } (taken ++ s.takesOn D (.turn i c))
      (handed ++ s.handOff (.turn i c)) := by
  by_cases hreceiving : ∃ rid auth headers, t = .receiving rid auth headers
  · obtain ⟨rid, auth, headers, rfl⟩ := hreceiving
    exact kept_receives h ht hturn
  · obtain ⟨φ, hφ, hwrites⟩ := h.writes i t ht
    have htakes : s.takesOn D (.turn i c) = [] := by
      unfold Server.takesOn
      simp only [ht]
      cases t with
      | receiving rid auth headers => exact absurd ⟨rid, auth, headers, rfl⟩ hreceiving
      | _ => rfl
    rw [htakes, Delivery.handOff_turn ht]
    rcases Thread.turn_cases hturn with ⟨hpasses, rfl⟩ | ⟨op, f, hperforms, rfl, rfl⟩
    · refine h.set ht (by simp) (Or.inl rfl) ?_ ?_
      · rw [List.map_nil, List.append_nil]
        exact ⟨φ, hφ, passes_writes hwrites hpasses fun rid auth headers he =>
          hreceiving ⟨rid, auth, headers, he⟩⟩
      · intro hd hmem
        obtain ⟨op, hop, -⟩ := Delivery.mem_handOff hmem
        rw [hpasses.nextOp] at hop
        cases hop
    · have hstep := performs_writes hwrites hperforms (exec L op c s.world).1
      refine h.set ht (by simp) (Or.inl rfl) ?_ ?_
      · rw [List.map_nil, List.append_nil]
        exact ⟨_, fun cfg => snapshot_known hφ hknown, hstep.1⟩
      · intro hd hmem
        obtain ⟨op', hop, hhanded, -, hthread⟩ := Delivery.mem_handOff hmem
        rw [hperforms.nextOp] at hop
        cases hop
        obtain ⟨cfg, hcfg, hwritten⟩ := hstep.2 _ hhanded
        exact ⟨rfl, hthread, cfg, hφ cfg hcfg, hwritten⟩

/-- The messages of an array are taken on by consecutive threads. -/
theorem requestsOf_mapIdx {messages : List (MailRequest × RequestId)} {n k : Nat}
    {m : MailRequest × RequestId} (hm : messages[k]? = some m) :
    requestsOf (messages.mapIdx fun k m => (n + k, m.1)) (n + k) = [m.1] := by
  induction messages generalizing n k with
  | nil => simp at hm
  | cons m' messages ih =>
    rw [List.mapIdx_cons]
    have hshift : (messages.mapIdx fun k m => (n + (k + 1), m.1)) =
        messages.mapIdx fun k m => (n + 1 + k, m.1) := by
      congr 1
      funext k m
      rw [Nat.add_assoc, Nat.add_comm 1 k]
    rw [hshift]
    cases k with
    | zero =>
      obtain rfl : m' = m := by simpa using hm
      have hrest : requestsOf (messages.mapIdx fun k m => (n + 1 + k, m.1)) n = [] := by
        apply requestsOf_foreign
        intro x hx
        obtain ⟨k, hk, rfl⟩ := List.mem_mapIdx.mp hx
        show n + 1 + k ≠ n
        omega
      simpa [requestsOf] using hrest
    | succ k =>
      have hrest := ih (n := n + 1) (k := k) (by simpa using hm)
      rw [show n + 1 + k = n + (k + 1) by omega] at hrest
      have hne : (n == n + (k + 1)) = false := by simp
      simpa [requestsOf, hne] using hrest

theorem kept_step {s s' : Server ρ} {e : Event} {taken : List (Nat × MailRequest)}
    {handed : List HandOff} (hknown : Known s.world.app.config) (h : Kept D Known s taken handed)
    (hs : s.step D L e = some s') :
    Kept D Known s' (taken ++ s.takesOn D e) (handed ++ s.handOff e) := by
  cases e with
  | turn i c =>
    obtain ⟨t, ht, hs⟩ := Option.bind_eq_some_iff.mp hs
    obtain ⟨⟨t', w'⟩, hturn, hs⟩ := Option.bind_eq_some_iff.mp hs
    cases hs
    exact kept_turn hknown h ht hturn
  | timeout i =>
    obtain ⟨t, ht, hs⟩ := Option.bind_eq_some_iff.mp hs
    obtain ⟨t', htimeout, hs⟩ := Option.bind_eq_some_iff.mp hs
    cases hs
    obtain ⟨rid, auth, rfl⟩ := Thread.timeout_eq htimeout
    rw [show s.takesOn D (.timeout i) = [] from rfl, show s.handOff (.timeout i) = [] from rfl]
    exact h.set ht (by simp) (Or.inl rfl) (.unread trivial) (by simp)
  | reload config =>
    cases hs
    rw [show s.takesOn D (.reload config) = [] from rfl,
      show s.handOff (.reload config) = [] from rfl, List.append_nil, List.append_nil]
    exact ⟨h.writes, h.inRange, h.written⟩
  | post rid parts =>
    cases hs
    rw [Delivery.handOff_of_not_turn (by simp), List.append_nil]
    refine h.append (by simp [Server.takesOn]) ?_
    intro k t ht
    have hmem := List.mem_of_getElem? ht
    simp only [Server.arrivals] at hmem
    split at hmem
    · obtain rfl := List.mem_singleton.mp hmem
      exact .unread trivial
    · obtain rfl := List.mem_singleton.mp hmem
      refine .unread ⟨requestsOf_foreign _ ?_, rfl⟩
      simp [Server.takesOn]
  | lookup rid keyId =>
    cases hs
    rw [Delivery.handOff_of_not_turn (by simp), List.append_nil]
    refine h.append (by simp [Server.takesOn]) ?_
    intro k t ht
    obtain rfl := List.mem_singleton.mp (List.mem_of_getElem? ht)
    exact .unread (Delivery.follows_lookup rid keyId)
  | sweep =>
    cases hs
    rw [Delivery.handOff_of_not_turn (by simp), List.append_nil]
    refine h.append (by simp [Server.takesOn]) ?_
    intro k t ht
    obtain rfl := List.mem_singleton.mp (List.mem_of_getElem? ht)
    exact .unread Delivery.follows_cleanup
  | timeoutBulk i =>
    cases hs
    rw [Delivery.handOff_of_not_turn (by simp), List.append_nil]
    refine h.append (by simp [Server.takesOn]) ?_
    intro k t ht
    obtain ⟨number, rfl⟩ := Server.mem_arrivals_timeoutBulk (List.mem_of_getElem? ht)
    exact .unread trivial
  | postBulk bulkId auth messages =>
    cases hs
    rw [Delivery.handOff_of_not_turn (by simp), List.append_nil]
    cases hcheck : checkBulk s.world.app.config (messages.map Prod.fst) with
    | error e =>
      refine h.append (by simp [Server.takesOn, hcheck]) ?_
      intro k t ht
      have hmem := List.mem_of_getElem? ht
      simp only [Server.arrivals, hcheck] at hmem
      obtain rfl := List.mem_singleton.mp hmem
      exact .unread trivial
    | ok _ =>
      have htakes : s.takesOn D (.postBulk bulkId auth messages) =
          messages.mapIdx fun k m => (s.threads.length + k, m.1) := by
        simp only [Server.takesOn, hcheck]
      rw [htakes]
      refine h.append ?_ ?_
      · intro x hx
        obtain ⟨k, hk, rfl⟩ := List.mem_mapIdx.mp hx
        simp only [Server.arrivals, hcheck, bulkItems_eq, List.length_map, List.length_mapIdx]
        omega
      · intro k t ht
        simp only [Server.arrivals, hcheck, bulkItems_eq, List.getElem?_map,
          List.getElem?_mapIdx] at ht
        cases hm : messages[k]? with
        | none => simp [hm] at ht
        | some m =>
          simp only [hm, Option.map_some, Option.some.injEq] at ht
          subst ht
          refine ⟨_, fun cfg hcfg => ?_, requestsOf_mapIdx hm, rfl⟩
          obtain rfl := Option.some.inj hcfg
          exact hknown

theorem kept_run {es : List Event} {s s' : Server ρ} {taken : List (Nat × MailRequest)}
    {handed : List HandOff} (hknown : ∀ cfg, s.InForce D L es cfg → Known cfg)
    (h : Kept D Known s taken handed) (hrun : s.run D L es = some s') :
    Kept D Known s' (taken ++ s.requests D L es) (handed ++ s.handOffs D L es) := by
  induction es generalizing s taken handed with
  | nil =>
    cases hrun
    simpa [Server.requests, Server.handOffs, Server.observe] using h
  | cons e es ih =>
    obtain ⟨s₁, hs₁, hrun⟩ := Option.bind_eq_some_iff.mp hrun
    have hstep := kept_step (hknown _ (Server.inForce_start s _)) h hs₁
    have hrest := ih (fun cfg hcfg => hknown cfg (hcfg.cons hs₁)) hstep hrun
    simpa [Server.requests, Server.handOffs, Server.observe, hs₁, List.append_assoc] using hrest

end MessageOrigin

/-- In every run: a thread that hands a message over has taken on one request, its
own, and the message says what that request says, under the sender of a config that
was in force. -/
theorem messages_are_their_requests {w : World ρ} {es : List Event} {s : Server ρ}
    (hrun : Server.run D L ⟨w, []⟩ es = some s) {h : HandOff}
    (hmem : h ∈ Server.handOffs D L ⟨w, []⟩ es) :
    ∃ cfg req, Server.InForce D L ⟨w, []⟩ es cfg ∧
      requestsOf (Server.requests D L ⟨w, []⟩ es) h.thread = [req] ∧
      Rendering D cfg req h.handed.message := by
  have hstart : MessageOrigin.Kept D (Server.InForce D L ⟨w, []⟩ es) (⟨w, []⟩ : Server ρ) [] [] :=
    ⟨fun i t ht => by simp at ht, by simp, by simp⟩
  have hkept := MessageOrigin.kept_run (fun _ hcfg => hcfg) hstart hrun
  rw [List.nil_append, List.nil_append] at hkept
  obtain ⟨cfg, hcfg, req, hreq, hrenders⟩ := hkept.written h hmem
  exact ⟨cfg, req, hcfg, hreq, hrenders⟩

/-! Two messages of one bulk request; the second is submitted first. -/

def secondRequest : MailRequest := { sampleRequest with subject := "second" }

def swappedEvents : List Event :=
  .postBulk ⟨"req_bulk"⟩ sampleAuth [(sampleRequest, sampleId), (secondRequest, ⟨"req_1"⟩)] ::
    (List.replicate 8 0 ++ List.replicate 11 1 ++ List.replicate 3 0).map
      fun i => .turn i sampleChoice

theorem messages_are_their_requests_swapped :
    ∃ h h', Server.handOffs jsonDeps .admitAll ⟨sampleWorld, []⟩ swappedEvents = [h, h'] ∧
      (∃ cfg, Rendering jsonDeps cfg secondRequest h.handed.message) ∧
      ∃ cfg, Rendering jsonDeps cfg sampleRequest h'.handed.message := by
  obtain ⟨s, h, h', hrun, hgiven, hfirst, hsecond⟩ : ∃ s h h',
      Server.run jsonDeps .admitAll ⟨sampleWorld, []⟩ swappedEvents = some s ∧
        Server.handOffs jsonDeps .admitAll ⟨sampleWorld, []⟩ swappedEvents = [h, h'] ∧
        requestsOf (Server.requests jsonDeps .admitAll ⟨sampleWorld, []⟩ swappedEvents)
          h.thread = [secondRequest] ∧
        requestsOf (Server.requests jsonDeps .admitAll ⟨sampleWorld, []⟩ swappedEvents)
          h'.thread = [sampleRequest] := ⟨_, _, _, rfl, rfl, rfl, rfl⟩
  obtain ⟨cfg, req, -, hreq, hrenders⟩ := messages_are_their_requests hrun
    (hgiven ▸ List.mem_cons_self : h ∈ _)
  obtain ⟨cfg', req', -, hreq', hrenders'⟩ := messages_are_their_requests hrun
    (hgiven ▸ List.mem_cons_of_mem _ List.mem_cons_self : h' ∈ _)
  rw [hfirst] at hreq
  rw [hsecond] at hreq'
  cases hreq
  cases hreq'
  exact ⟨h, h', hgiven, ⟨cfg, hrenders⟩, cfg', hrenders'⟩

end HttpSmtpRele
