import HttpSmtpRele.Relay

/-!
# `smtp.rs`: submission and error classification
-/

namespace HttpSmtpRele.Smtp

open RustStr

/-- The classification goes by the wording of the error. -/
def isRejection (errorStr : String) : Bool :=
  containsStr errorStr "Permanent" || containsStr errorStr "Transient" ||
    containsStr errorStr "ReplyCode"

def outcomeResult : SmtpOutcome → Except AppError Unit
  | .sent => .ok ()
  | .error text => if isRejection text then .error .smtpRejected else .error .smtpUnavailable
  | .elapsed => .error .smtpUnavailable

def pipeResult : PipeOutcome → Except AppError Unit
  | .sent => .ok ()
  | .failed => .error .smtpUnavailable
  | .elapsed => .error .smtpUnavailable

def submit (message : Message) (timeoutSeconds : Nat) : RelayM (Except AppError Unit) := do
  let outcome ← Relay.smtpSend message timeoutSeconds
  return outcomeResult outcome

def submitPipe (message : Message) (pipeCommand : String) (timeoutSeconds : Nat) :
    RelayM (Except AppError Unit) := do
  let outcome ← Relay.pipeSend message pipeCommand timeoutSeconds
  return pipeResult outcome

/-- A failed submission is one of two errors. -/
theorem outcomeResult_error {o : SmtpOutcome} {e : AppError} (h : outcomeResult o = .error e) :
    e = .smtpRejected ∨ e = .smtpUnavailable := by
  cases o with
  | sent => cases h
  | error text =>
    cases hr : isRejection text with
    | true =>
      rw [outcomeResult, hr] at h
      exact Or.inl (Except.error.inj h).symm
    | false =>
      rw [outcomeResult, hr] at h
      exact Or.inr (Except.error.inj h).symm
  | elapsed =>
    cases h
    exact Or.inr rfl

end HttpSmtpRele.Smtp
