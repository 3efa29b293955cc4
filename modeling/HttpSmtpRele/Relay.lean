import HttpSmtpRele.AppState
import HttpSmtpRele.Error
import HttpSmtpRele.Lib.Prog

/-!
# The operations handlers perform on shared state

A handler is a `Prog` over `Op`: what it computes by itself is ordinary Lean,
and every access to something shared is one operation, which is also the
granularity at which concurrent handlers interleave.  `exec` gives the
operations their meaning on a `World`, given what the environment decides
(`Choice`): clock readings, transport outcomes, the client's body, the iteration
order of the hash map.

Logging and the request counters of `metrics.rs` are left out; the results of
the store operations are not looked at by any handler, other than to log them.
-/

namespace HttpSmtpRele

/-- `timeout(.., transport.send(message))`; an error is its `Display` text. -/
inductive SmtpOutcome
  | sent
  | error (text : String)
  | elapsed
  deriving DecidableEq

/-- How the pipe command went: `failed` covers spawning, writing, waiting and its exit code. -/
inductive PipeOutcome
  | sent
  | failed
  | elapsed
  deriving DecidableEq

/-- Why the `Bytes` extractor answers instead of the handler. -/
inductive BodyRejection
  | lengthLimitExceeded
  | broken
  deriving DecidableEq

inductive Op
  /-- `state.config()` -/
  | config
  /-- `Utc::now()` -/
  | now
  | putReceived (record : SubmissionStatusRecord)
  | setRecipientMetadata (requestId : RequestId) (keyId : String)
      (recipientDomains : List Domain) (recipientCount : Nat)
  | updateStatus (requestId : RequestId) (keyId : String) (update : StatusUpdate)
  /-- `get`, under the read lock -/
  | getRead (requestId : RequestId) (keyId : String)
  /-- `get`, under the write lock -/
  | getExpire (requestId : RequestId)
  | expireOldRecords (now : DateTime)
  | checkGlobal
  | checkIp (ip : IpAddr)
  | checkKey (keyId : String) (perMinOverride : Option Nat) (burstOverride : Nat)
  | smtpSend (message : Message) (timeoutSeconds : Nat)
  | pipeSend (message : Message) (command : String) (timeoutSeconds : Nat)

namespace Op

abbrev Res : Op → Type
  | config => AppConfig
  | now => DateTime
  | putReceived _ => Unit
  | setRecipientMetadata .. => Unit
  | updateStatus .. => Unit
  | getRead .. => InMemoryStatusStore.Found
  | getExpire _ => Unit
  | expireOldRecords _ => Unit
  | checkGlobal => Except Nat Unit
  | checkIp _ => Except Nat Unit
  | checkKey .. => Except Nat Unit
  | smtpSend .. => SmtpOutcome
  | pipeSend .. => PipeOutcome

/-- The handler future can be dropped while it waits here. -/
def isAwait : Op → Bool
  | smtpSend .. => true
  | pipeSend .. => true
  | _ => false

/-- The operation that follows the answer of the transport. -/
def reportsOutcome : Op → Bool
  | updateStatus _ _ update => update.status = .smtpAccepted || update.status = .smtpFailed
  | _ => false

end Op

abbrev RelayM := Prog Op Op.Res

namespace Relay

open Prog (perform)

abbrev config : RelayM AppConfig := perform Op.config
abbrev utcNow : RelayM DateTime := perform Op.now
abbrev putReceived (record : SubmissionStatusRecord) : RelayM Unit := perform (Op.putReceived record)

abbrev setRecipientMetadata (requestId : RequestId) (keyId : String) (domains : List Domain)
    (count : Nat) : RelayM Unit :=
  perform (Op.setRecipientMetadata requestId keyId domains count)

abbrev updateStatus (requestId : RequestId) (keyId : String) (update : StatusUpdate) :
    RelayM Unit :=
  perform (Op.updateStatus requestId keyId update)

abbrev getRead (requestId : RequestId) (keyId : String) : RelayM InMemoryStatusStore.Found :=
  perform (Op.getRead requestId keyId)

abbrev getExpire (requestId : RequestId) : RelayM Unit := perform (Op.getExpire requestId)

abbrev expireOldRecords (now : DateTime) : RelayM Unit := perform (Op.expireOldRecords now)

abbrev checkGlobal : RelayM (Except Nat Unit) := perform Op.checkGlobal
abbrev checkIp (ip : IpAddr) : RelayM (Except Nat Unit) := perform (Op.checkIp ip)

abbrev checkKey (keyId : String) (perMinOverride : Option Nat) (burstOverride : Nat) :
    RelayM (Except Nat Unit) :=
  perform (Op.checkKey keyId perMinOverride burstOverride)

abbrev smtpSend (message : Message) (timeoutSeconds : Nat) : RelayM SmtpOutcome :=
  perform (Op.smtpSend message timeoutSeconds)

abbrev pipeSend (message : Message) (command : String) (timeoutSeconds : Nat) :
    RelayM PipeOutcome :=
  perform (Op.pipeSend message command timeoutSeconds)

end Relay

/-- A message that reached a transport. -/
inductive Handed
  | smtp (message : Message)
  | pipe (command : String) (message : Message)

structure World (ρ : Type) where
  app : AppState ρ
  /-- `DefaultBodyLimit`, set when the router is built -/
  bodyLimit : Nat
  /-- newest first -/
  handed : List Handed

/-- What the environment decides while one operation is performed. -/
structure Choice where
  /-- first and second reading of `Utc::now()` -/
  utc : DateTime
  utc' : DateTime
  instant : Instant
  smtp : SmtpOutcome
  pipe : PipeOutcome
  /-- the body the client sends, if it arrives -/
  body : Option (List UInt8)
  order : RecordOrder

namespace World

variable {ρ : Type}

def find (w : World ρ) (id : RequestId) : Option SubmissionStatusRecord :=
  w.app.statusStore.find id

def updateStore (w : World ρ) (f : InMemoryStatusStore → InMemoryStatusStore) : World ρ :=
  { w with app := { w.app with statusStore := w.app.statusStore.update f } }

def setLimiter (w : World ρ) (rateLimiter : ρ) : World ρ :=
  { w with app := { w.app with rateLimiter := rateLimiter } }

def hand (w : World ρ) (h : Handed) : World ρ := { w with handed := h :: w.handed }

/-- What the read-locked section finds; the no-op store holds nothing. -/
def getRead (w : World ρ) (id : RequestId) (keyId : String) (now : DateTime) :
    InMemoryStatusStore.Found :=
  match w.app.statusStore with
  | .noop => .absent
  | .memory s => s.getRead id keyId now

/-- The `Bytes` extractor under the body limit. -/
def recvBody (w : World ρ) (body : Option (List UInt8)) : Except BodyRejection (List UInt8) :=
  match body with
  | none => .error .broken
  | some bytes => if bytes.length > w.bodyLimit then .error .lengthLimitExceeded else .ok bytes

end World

variable {ρ : Type}

def exec (L : Limiter ρ) : (op : Op) → Choice → World ρ → op.Res × World ρ
  | .config, _, w => (w.app.config, w)
  | .now, c, w => (c.utc, w)
  | .putReceived record, c, w => ((), w.updateStore fun s => s.putReceived c.order record)
  | .setRecipientMetadata id keyId domains count, c, w =>
    ((), w.updateStore fun s => s.setRecipientMetadata id keyId domains count c.utc c.utc')
  | .updateStatus id keyId update, c, w =>
    ((), w.updateStore fun s => s.updateStatus id keyId update c.utc c.utc')
  | .getRead id keyId, c, w => (w.getRead id keyId c.utc, w)
  | .getExpire id, c, w => ((), w.updateStore fun s => s.getExpire id c.utc)
  | .expireOldRecords now, c, w => ((), w.updateStore fun s => s.expireOldRecords c.order now)
  | .checkGlobal, c, w =>
    let (r, l) := L.checkGlobal c.instant w.app.rateLimiter
    (r, w.setLimiter l)
  | .checkIp ip, c, w =>
    let (r, l) := L.checkIp ip c.instant w.app.rateLimiter
    (r, w.setLimiter l)
  | .checkKey keyId perMin burst, c, w =>
    let (r, l) := L.checkKey keyId perMin burst c.instant w.app.rateLimiter
    (r, w.setLimiter l)
  | .smtpSend message _, c, w => (c.smtp, w.hand (.smtp message))
  | .pipeSend message command _, c, w => (c.pipe, w.hand (.pipe command message))

/-! ## The rate-limit checks -/

theorem exec_checkGlobal (L : Limiter ρ) (c : Choice) (w : World ρ) :
    exec L .checkGlobal c w = ((L.checkGlobal c.instant w.app.rateLimiter).1,
      w.setLimiter (L.checkGlobal c.instant w.app.rateLimiter).2) := rfl

theorem exec_checkIp (L : Limiter ρ) (ip : IpAddr) (c : Choice) (w : World ρ) :
    exec L (.checkIp ip) c w = ((L.checkIp ip c.instant w.app.rateLimiter).1,
      w.setLimiter (L.checkIp ip c.instant w.app.rateLimiter).2) := rfl

theorem exec_checkKey (L : Limiter ρ) (keyId : String) (perMin : Option Nat) (burst : Nat)
    (c : Choice) (w : World ρ) :
    exec L (.checkKey keyId perMin burst) c w =
      ((L.checkKey keyId perMin burst c.instant w.app.rateLimiter).1,
        w.setLimiter (L.checkKey keyId perMin burst c.instant w.app.rateLimiter).2) := rfl

@[simp] theorem rateLimiter_setLimiter (w : World ρ) (l : ρ) :
    (w.setLimiter l).app.rateLimiter = l := rfl

@[simp] theorem setLimiter_setLimiter (w : World ρ) (l l' : ρ) :
    (w.setLimiter l).setLimiter l' = w.setLimiter l' := rfl

/-! ## Store lookups after a step -/

@[simp] theorem find_hand (w : World ρ) (h : Handed) (id : RequestId) :
    (w.hand h).find id = w.find id := rfl

theorem World.getRead_eq_live {w : World ρ} {id : RequestId} {keyId : String} {now : DateTime}
    {r : SubmissionStatusRecord} :
    w.getRead id keyId now = .live r ↔
      w.find id = some r ∧ r.keyId = keyId ∧ now ≤ r.expiresAt := by
  unfold World.getRead World.find
  cases w.app.statusStore with
  | noop => simp [StatusStore.find]
  | memory s => exact InMemoryStatusStore.getRead_eq_live

theorem find_updateStore (w : World ρ) (f : InMemoryStatusStore → InMemoryStatusStore)
    (id : RequestId) : (w.updateStore f).find id =
      match w.app.statusStore with
      | .noop => none
      | .memory s => (f s).find id := by
  unfold World.updateStore World.find StatusStore.update
  cases w.app.statusStore <;> rfl

theorem find_setRecipientMetadata_self (w : World ρ) (id : RequestId) (keyId : String)
    (domains : List Domain) (count : Nat) (t₁ t₂ : DateTime) :
    (w.updateStore fun s => s.setRecipientMetadata id keyId domains count t₁ t₂).find id =
      (w.find id).map
        (SubmissionStatusRecord.withRecipientMetadata keyId domains count t₁ t₂) := by
  rw [find_updateStore, World.find]
  cases w.app.statusStore with
  | noop => rfl
  | memory s => exact (InMemoryStatusStore.find_setRecipientMetadata ..).trans (if_pos rfl)

theorem find_updateStatus_self (w : World ρ) (id : RequestId) (keyId : String)
    (u : StatusUpdate) (t₁ t₂ : DateTime) :
    (w.updateStore fun s => s.updateStatus id keyId u t₁ t₂).find id =
      (w.find id).map (SubmissionStatusRecord.withStatus keyId u t₁ t₂) := by
  rw [find_updateStore, World.find]
  cases w.app.statusStore with
  | noop => rfl
  | memory s => exact (InMemoryStatusStore.find_updateStatus ..).trans (if_pos rfl)

/-- A fresh id is held after it is put, by a store that holds anything. -/
theorem find_putReceived_fresh {w : World ρ} {record : SubmissionStatusRecord}
    (order : RecordOrder) (h : w.find record.requestId = none) :
    (w.updateStore fun s => s.putReceived order record).find record.requestId =
      match w.app.statusStore with
      | .noop => none
      | .memory _ => some record := by
  rw [find_updateStore]
  rw [World.find] at h
  cases hs : w.app.statusStore with
  | noop => rfl
  | memory s =>
    rw [hs] at h
    exact InMemoryStatusStore.find_putReceived_self h

end HttpSmtpRele
