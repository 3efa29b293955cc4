import HttpSmtpRele.RefusalCode

/-!
# Rejected or unavailable

`submit` takes an error of the transport for a rejection when its text has one of
three words in it.  None of them can begin in what `lettre` itself writes, so the
words only ever come from the server: an error is classified by its kind exactly
when the text underneath happens to say what the kind says.
-/

namespace HttpSmtpRele

open RustStr

/-- The kinds of `lettre::transport::smtp::Error`. -/
inductive SmtpErrorKind
  | response
  | client
  | network
  | connection
  | tls
  | transportShutdown
  /-- a 4xx reply -/
  | transient (code : Nat)
  /-- a 5xx reply -/
  | permanent (code : Nat)

def SmtpErrorKind.isNegativeReply : SmtpErrorKind → Bool
  | transient _ => true
  | permanent _ => true
  | _ => false

structure SmtpError where
  kind : SmtpErrorKind
  /-- the text of the reply, or of the error underneath -/
  source : Option String

variable (describe : SmtpErrorKind → String)

/-- `Display` of the error. -/
def SmtpError.display (e : SmtpError) : String :=
  match e.source with
  | some text => describe e.kind ++ ": " ++ text
  | none => describe e.kind

/-- What `lettre` answers under the timeout. -/
inductive SmtpAnswer
  | sent
  | failed (e : SmtpError)
  | elapsed

def SmtpAnswer.outcome : SmtpAnswer → SmtpOutcome
  | sent => .sent
  | failed e => .error (e.display describe)
  | elapsed => .elapsed

/-- The words `lettre` has for the kinds are in lower case, but for one. -/
structure LettreWording : Prop where
  connection : describe .connection = "Connection error"
  lowercase : ∀ kind, kind ≠ .connection → ∀ c ∈ (describe kind).toList, c.isUpper = false

/-- The text underneath has one of the three words. -/
def SmtpError.saysRejection (e : SmtpError) : Bool := e.source.any Smtp.isRejection

namespace SmtpErrors

variable {describe}

theorem not_isUpper_of_all {s : String} (h : (s.toList.all fun c => !c.isUpper) = true) :
    ∀ c ∈ s.toList, c.isUpper = false := by
  intro c hc
  simpa using List.all_eq_true.mp h c hc

theorem not_mem_describe (wording : LettreWording describe) (kind : SmtpErrorKind) {c : Char}
    (hupper : c.isUpper = true) (hC : c ≠ 'C') : c ∉ (describe kind).toList := by
  intro hc
  by_cases hkind : kind = .connection
  · rw [hkind, wording.connection] at hc
    obtain rfl | htail := List.mem_cons.mp hc
    · exact hC rfl
    · rw [not_isUpper_of_all (s := "onnection error") (by decide) c htail] at hupper
      cases hupper
  · rw [wording.lowercase kind hkind c hc] at hupper
    cases hupper

/-- The search sees the text underneath only. -/
theorem containsStr_display (wording : LettreWording describe) (e : SmtpError) (word : String)
    (c : Char) {rest : List Char} (hword : word.toList = c :: rest) (hupper : c.isUpper = true)
    (hC : c ≠ 'C') :
    containsStr (e.display describe) word = e.source.any fun text => containsStr text word := by
  have hkind := not_mem_describe wording e.kind hupper hC
  unfold SmtpError.display
  cases e.source with
  | none =>
    have hempty : containsStr "" word = false := by
      unfold containsStr
      rw [hword]
      exact decide_eq_false fun h => absurd (List.infix_nil.mp h) (List.cons_ne_nil c rest)
    have hdescribe := containsStr_append (s := "") hword hkind
    rw [String.append_empty, hempty] at hdescribe
    exact hdescribe
  | some text =>
    have hcolon : c ∉ (describe e.kind ++ ": ").toList := by
      rw [String.toList_append, List.mem_append, not_or]
      refine ⟨hkind, fun hc => ?_⟩
      rw [not_isUpper_of_all (by decide) c hc] at hupper
      cases hupper
    exact containsStr_append hword hcolon

theorem isRejection_display (wording : LettreWording describe) (e : SmtpError) :
    Smtp.isRejection (e.display describe) = e.saysRejection := by
  have hpermanent := containsStr_display wording e "Permanent" 'P' rfl rfl (by decide)
  have htransient := containsStr_display wording e "Transient" 'T' rfl rfl (by decide)
  have hreplyCode := containsStr_display wording e "ReplyCode" 'R' rfl rfl (by decide)
  unfold Smtp.isRejection SmtpError.saysRejection
  rw [hpermanent, htransient, hreplyCode]
  cases e.source with
  | none => rfl
  | some text => rfl

/-- `submit` alone, the transport answering so. -/
def submitWith (describe : SmtpErrorKind → String) {ρ : Type} (L : Limiter ρ) (message : Message)
    (timeoutSeconds : Nat) (c : Choice) (w : World ρ) (answer : SmtpAnswer) :
    Option (Except AppError Unit) :=
  ((Smtp.submit message timeoutSeconds).run (exec L)
    (fun _ => { c with smtp := answer.outcome describe }) w).1

/-- The result that the kind of the answer calls for. -/
def ClassifiedByKind (result : Option (Except AppError Unit)) : SmtpAnswer → Prop
  | .sent => result = some (.ok ())
  | .failed e =>
    (result = some (.error .smtpRejected) ↔ e.kind.isNegativeReply = true) ∧
      (result = some (.error .smtpUnavailable) ↔ e.kind.isNegativeReply = false)
  | .elapsed => result = some (.error .smtpUnavailable)

section Submit

variable {ρ : Type} (L : Limiter ρ) (message : Message) (timeoutSeconds : Nat) (c : Choice)
  (w : World ρ)

theorem submitWith_failed (wording : LettreWording describe) (e : SmtpError) :
    submitWith describe L message timeoutSeconds c w (.failed e) =
      some (if e.saysRejection = true then .error .smtpRejected else .error .smtpUnavailable) := by
  show some (Smtp.outcomeResult (.error (e.display describe))) = _
  rw [Smtp.outcomeResult, isRejection_display wording]

theorem submitWith_failed_rejected (wording : LettreWording describe) (e : SmtpError) :
    submitWith describe L message timeoutSeconds c w (.failed e) = some (.error .smtpRejected) ↔
      e.saysRejection = true := by
  rw [submitWith_failed L message timeoutSeconds c w wording]
  cases e.saysRejection <;> simp

theorem submitWith_failed_unavailable (wording : LettreWording describe) (e : SmtpError) :
    submitWith describe L message timeoutSeconds c w (.failed e) =
        some (.error .smtpUnavailable) ↔ e.saysRejection = false := by
  rw [submitWith_failed L message timeoutSeconds c w wording]
  cases e.saysRejection <;> simp

theorem classifiedByKind_failed (wording : LettreWording describe) (e : SmtpError) :
    ClassifiedByKind (submitWith describe L message timeoutSeconds c w (.failed e)) (.failed e) ↔
      e.kind.isNegativeReply = e.saysRejection := by
  simp only [ClassifiedByKind]
  rw [submitWith_failed_rejected L message timeoutSeconds c w wording,
    submitWith_failed_unavailable L message timeoutSeconds c w wording]
  cases e.kind.isNegativeReply <;> cases e.saysRejection <;> simp

end Submit

/-- The words of `lettre` 0.11. -/
def lettreDescription : SmtpErrorKind → String
  | .response => "response error"
  | .client => "internal client error"
  | .network => "network error"
  | .connection => "Connection error"
  | .tls => "tls error"
  | .transportShutdown => "transport has been shut down"
  | .transient code => "transient error (" ++ toString code ++ ")"
  | .permanent code => "permanent error (" ++ toString code ++ ")"

theorem isUpper_of_isDigit {c : Char} (h : c.isDigit = true) : c.isUpper = false := by
  obtain ⟨-, hle⟩ := Char.isDigit_iff_toNat.mp h
  show decide ('A'.val ≤ c.val ∧ c.val ≤ 'Z'.val) = false
  apply decide_eq_false
  rintro ⟨hA, -⟩
  have hA' : 'A'.toNat ≤ c.toNat := hA
  exact absurd (Nat.le_trans hA' hle) (by decide)

/-- A kind description around the code of a reply. -/
theorem isUpper_around_code {before after : String} (code : Nat)
    (hbefore : (before.toList.all fun c => !c.isUpper) = true)
    (hafter : (after.toList.all fun c => !c.isUpper) = true) :
    ∀ c ∈ (before ++ toString code ++ after).toList, c.isUpper = false := by
  intro c hc
  rw [String.toList_append, String.toList_append, List.mem_append, List.mem_append,
    Nat.toString_eq_repr, Nat.toList_repr] at hc
  rcases hc with (hc | hc) | hc
  · exact not_isUpper_of_all hbefore c hc
  · exact isUpper_of_isDigit (Nat.isDigit_of_mem_toDigits (by decide) (by decide) hc)
  · exact not_isUpper_of_all hafter c hc

theorem lettreDescription_wording : LettreWording lettreDescription where
  connection := rfl
  lowercase kind hkind := by
    cases kind with
    | response => exact not_isUpper_of_all (by decide)
    | client => exact not_isUpper_of_all (by decide)
    | network => exact not_isUpper_of_all (by decide)
    | connection => exact absurd rfl hkind
    | tls => exact not_isUpper_of_all (by decide)
    | transportShutdown => exact not_isUpper_of_all (by decide)
    | transient code => exact isUpper_around_code code (by decide) (by decide)
    | permanent code => exact isUpper_around_code code (by decide) (by decide)

end SmtpErrors

open SmtpErrors

/-- `submit` goes by the kind of a failure exactly when the text underneath has one of
the three words for a negative reply and none of them otherwise; of two failures of
one kind it makes the same exactly when both texts have one of the words or neither. -/
theorem submit_by_kind_iff {describe : SmtpErrorKind → String} (wording : LettreWording describe)
    {ρ : Type} (L : Limiter ρ) (message : Message) (timeoutSeconds : Nat) (c : Choice)
    (w : World ρ) :
    (∀ answer, ClassifiedByKind (submitWith describe L message timeoutSeconds c w answer) answer ↔
      ∀ e, answer = .failed e → e.kind.isNegativeReply = e.saysRejection) ∧
    ∀ e e' : SmtpError, e.kind = e'.kind →
      (submitWith describe L message timeoutSeconds c w (.failed e) =
          submitWith describe L message timeoutSeconds c w (.failed e') ↔
        e.saysRejection = e'.saysRejection) := by
  constructor
  · intro answer
    cases answer with
    | sent => exact iff_of_true rfl fun e he => by cases he
    | failed e =>
      rw [classifiedByKind_failed L message timeoutSeconds c w wording]
      constructor
      · intro h e' he
        cases he
        exact h
      · intro h
        exact h e rfl
    | elapsed => exact iff_of_true rfl fun e he => by cases he
  · intro e e' _
    rw [submitWith_failed L message timeoutSeconds c w wording,
      submitWith_failed L message timeoutSeconds c w wording]
    cases e.saysRejection <;> cases e'.saysRejection <;> simp

/-! Two replies with one code, and a server that does not answer. -/

def deniedReply : SmtpError := ⟨.permanent 550, some "5.7.1 Relay access denied"⟩

def wordedReply : SmtpError := ⟨.permanent 550, some "5.1.1 Permanent failure, no such user"⟩

def refusedConnection : SmtpError := ⟨.connection, some "Connection refused (os error 111)"⟩

def sampleMessage : Message where
  envelope := { reversePath := some ⟨"relay@example.com"⟩, forwardPath := [⟨"bob@example.org"⟩] }
  headers := {}
  content := .plain "text"

theorem submit_by_kind_refused :
    ClassifiedByKind (submitWith lettreDescription .admitAll sampleMessage 30 sampleChoice
      sampleWorld (.failed refusedConnection)) (.failed refusedConnection) := by
  apply ((submit_by_kind_iff lettreDescription_wording .admitAll sampleMessage 30 sampleChoice
    sampleWorld).1 (.failed refusedConnection)).mpr
  intro e he
  cases he
  decide

/-- A rejection is taken for an outage, and its like with another text is not. -/
theorem denied_reply_unavailable :
    (deniedReply.kind.isNegativeReply = true ∧ deniedReply.display lettreDescription =
        "permanent error (550): 5.7.1 Relay access denied" ∧
      submitWith lettreDescription .admitAll sampleMessage 30 sampleChoice sampleWorld
        (.failed deniedReply) = some (.error .smtpUnavailable)) ∧
    (wordedReply.kind = deniedReply.kind ∧
      submitWith lettreDescription .admitAll sampleMessage 30 sampleChoice sampleWorld
        (.failed wordedReply) = some (.error .smtpRejected)) := by
  have htext : deniedReply.display lettreDescription =
      "permanent error (550): 5.7.1 Relay access denied" := by decide
  refine ⟨⟨rfl, htext, ?_⟩, rfl, ?_⟩
  · rw [submitWith_failed _ _ _ _ _ lettreDescription_wording]
    decide
  · rw [submitWith_failed _ _ _ _ _ lettreDescription_wording]
    decide

end HttpSmtpRele
