import HttpSmtpRele.Api.SendBulk
import HttpSmtpRele.Auth

/-!
# The server: handlers, bulk tasks and the cleanup task, interleaved

A `Thread` is what runs by itself: a request to `/v1/send`, a message of a
request to `/v1/send-bulk`, a status lookup, a round of the cleanup task.
`Server.step` moves one thread by one operation, lets a request arrive, times
one out or reloads the config, in any order; `Server.run` is a run.

A bulk handler is its messages with what orders them: phase 1 goes through them
in turn, phase 2 starts after all of phase 1, unless `Semaphore::new` panics, and
runs as many at a time as there are permits.

`TimeoutLayer` answers a request whose future waits: `/v1/send` for its body or
for the transport, which may have the message by then, `/v1/send-bulk` for its
tasks.  A future that is dropped, by the timer or because the client hangs up,
is a thread that is not scheduled again, and so are the tasks of a join set that
is dropped: each has stopped at some operation of its own.
-/

namespace HttpSmtpRele

open Prog Api

variable {ρ : Type}

/-- `StatusStore::get`, as `GET /v1/submissions/{request_id}` calls it. -/
def getSubmissionStatus (requestId : RequestId) (keyId : String) :
    RelayM (Option SubmissionStatusRecord) := do
  match ← Relay.getRead requestId keyId with
  | .absent => return none
  | .live r => return some r
  | .expired =>
    Relay.getExpire requestId
    return none

/-- One round of the cleanup task: `StatusStore::expire_old_records`. -/
def cleanup : RelayM Unit := do
  let now ← Relay.utcNow
  Relay.expireOldRecords now

/-- An answer to `/v1/send` that does not come from the handler. -/
inductive CutOff
  /-- the `Bytes` extractor failed -/
  | bodyRejected (rejection : BodyRejection)
  /-- `TimeoutLayer` answered and dropped the future -/
  | requestTimeout
  deriving DecidableEq

/-- A request to `/v1/send-bulk` whose payload is admitted. -/
structure Bulk where
  /-- tells apart the handlers that run -/
  number : Nat
  bulkId : RequestId
  auth : AuthContext
  cfg : AppConfig
  total : Nat

/-- Where a message of a bulk request stands. -/
inductive MessageState
  | waiting (item : BulkItem)
  | preparing (item : BulkItem) (p : RelayM (Except MessageResult PreparedMessage))
  | rejected (item : BulkItem) (result : MessageResult)
  | prepared (q : PreparedMessage)
  | submitting (q : PreparedMessage) (p : RelayM MessageResult)
  | submitted (q : PreparedMessage) (result : MessageResult)

inductive Thread
  | unauthenticated (rid : RequestId) (rejection : AuthRejection)
  /-- authenticated; the `Bytes` extractor waits for the body -/
  | receiving (rid : RequestId) (auth : AuthContext) (headers : HeaderMap)
  /-- `send_mail` runs, or has answered -/
  | handling (rid : RequestId) (auth : AuthContext) (p : RelayM SendResult)
  | cutOff (rid : RequestId) (auth : AuthContext) (answer : CutOff)
  | bulkRefused (bulkId : RequestId) (e : AppError)
  | message (bulk : Bulk) (state : MessageState)
  /-- `TimeoutLayer` answered the bulk request `number` -/
  | bulkCutOff (number : Nat)
  | lookup (p : RelayM (Option SubmissionStatusRecord))
  | sweep (p : RelayM Unit)

namespace MessageState

def id : MessageState → RequestId
  | waiting item => item.reqId
  | preparing item _ => item.reqId
  | rejected item _ => item.reqId
  | prepared q => q.reqId
  | submitting q _ => q.reqId
  | submitted q _ => q.reqId

/-- Phase 1 is over for the message. -/
def pastPhase1 : MessageState → Bool
  | waiting _ => false
  | preparing _ _ => false
  | _ => true

def prepared? : MessageState → Option PreparedMessage
  | prepared q => some q
  | submitting q _ => some q
  | submitted q _ => some q
  | _ => none

def isSubmitting : MessageState → Bool
  | submitting _ _ => true
  | _ => false

def rejected? : MessageState → Option MessageResult
  | rejected _ result => some result
  | _ => none

def submitted? : MessageState → Option MessageResult
  | submitted _ result => some result
  | _ => none

/-- The message's result, once it is produced. -/
def result? (m : MessageState) : Option MessageResult := m.rejected?.or m.submitted?

/-- The next step of the message; `mayMove` is whether the handler has come to it. -/
def turn (D : Deps) (L : Limiter ρ) (b : Bulk) (mayMove : Bool) (c : Choice) (w : World ρ) :
    MessageState → Option (MessageState × World ρ)
  | waiting item =>
    if mayMove then
      some (preparing item (phase1Prepare D item.index item.rawMsg item.reqId b.auth b.cfg), w)
    else none
  | preparing item (.ret (.error result)) => some (rejected item result, w)
  | preparing _ (.ret (.ok q)) => some (prepared q, w)
  | preparing item p => (advance (exec L) c w p).map fun x => (preparing item x.1, x.2)
  | prepared q => if mayMove then some (submitting q (phase2Submit b.cfg q), w) else none
  | submitting q (.ret result) => some (submitted q result, w)
  | submitting q p => (advance (exec L) c w p).map fun x => (submitting q x.1, x.2)
  | rejected _ _ => none
  | submitted _ _ => none

end MessageState

namespace Thread

/-- The request id under which the thread submits. -/
def id : Thread → Option RequestId
  | unauthenticated rid _ => some rid
  | receiving rid _ _ => some rid
  | handling rid _ _ => some rid
  | cutOff rid _ _ => some rid
  | message _ m => some m.id
  | bulkRefused _ _ => none
  | bulkCutOff _ => none
  | lookup _ => none
  | sweep _ => none

/-- The message, if the thread is one of the bulk request `number`. -/
def messageOf (number : Nat) : Thread → Option MessageState
  | message b m => if b.number = number then some m else none
  | _ => none

/-- The `408` to the bulk request `number`. -/
def cutsOff (number : Nat) : Thread → Bool
  | bulkCutOff n => n == number
  | _ => false

/-- The operation the thread performs next. -/
def nextOp : Thread → Option Op
  | handling _ _ p => p.head?
  | message _ (.preparing _ p) => p.head?
  | message _ (.submitting _ p) => p.head?
  | lookup p => p.head?
  | sweep p => p.head?
  | _ => none

def turn (D : Deps) (L : Limiter ρ) (mayMove : Bool) (c : Choice) (w : World ρ) :
    Thread → Option (Thread × World ρ)
  | receiving rid auth headers =>
    match w.recvBody c.body with
    | .error rejection => some (cutOff rid auth (.bodyRejected rejection), w)
    | .ok body => some (handling rid auth (sendMail D rid auth headers body), w)
  | handling rid auth p => (advance (exec L) c w p).map fun x => (handling rid auth x.1, x.2)
  | message b m => (m.turn D L b mayMove c w).map fun x => (message b x.1, x.2)
  | lookup p => (advance (exec L) c w p).map fun x => (lookup x.1, x.2)
  | sweep p => (advance (exec L) c w p).map fun x => (sweep x.1, x.2)
  | _ => none

/-- The timer fires while the future waits: for the body, or for the transport. Before
the operation the transport does not have the message, after it the transport has it
and its answer is lost. -/
def timeout : Thread → Option Thread
  | receiving rid auth _ => some (cutOff rid auth .requestTimeout)
  | handling rid auth (.step op _) =>
    if op.isAwait || op.reportsOutcome then some (cutOff rid auth .requestTimeout) else none
  | _ => none

end Thread

inductive Event
  /-- a request to `/v1/send` arrives and passes `AuthContext` -/
  | post (rid : RequestId) (parts : Parts)
  /-- `send_bulk` starts; with each message what `RequestId::new()` will give for it -/
  | postBulk (bulkId : RequestId) (auth : AuthContext) (messages : List (MailRequest × RequestId))
  | lookup (rid : RequestId) (keyId : String)
  | sweep
  | turn (i : Nat) (c : Choice)
  | timeout (i : Nat)
  /-- the timer of the bulk request that the message `i` is of -/
  | timeoutBulk (i : Nat)
  | reload (config : AppConfig)

namespace Event

/-- The request ids the event draws. -/
def ids : Event → List RequestId
  | post rid _ => [rid]
  | postBulk _ _ messages => messages.map Prod.snd
  | _ => []

/-- Whether no clock is read after `E`. -/
def Before (E : DateTime) : Event → Prop
  | turn _ c => c.utc ≤ E
  | _ => True

end Event

structure Server (ρ : Type) where
  world : World ρ
  threads : List Thread

namespace Server

def messagesOf (threads : List Thread) (number : Nat) : List MessageState :=
  threads.filterMap (Thread.messageOf number)

/-- Phase 1 is over. -/
def phase1Over (s : Server ρ) (b : Bulk) : Bool :=
  (messagesOf s.threads b.number).all MessageState.pastPhase1

/-- The permits of the bulk handler's semaphore. -/
def permits (s : Server ρ) (b : Bulk) : Nat :=
  bulkConcurrency b.cfg ((messagesOf s.threads b.number).filterMap MessageState.prepared?)

/-- The tasks are spawned: `Semaphore::new` panics above `maxPermits`. -/
def spawned (s : Server ρ) (b : Bulk) : Bool :=
  s.phase1Over b && decide (s.permits b ≤ maxPermits)

/-- Every message has its result. -/
def allResults (s : Server ρ) (b : Bulk) : Bool :=
  (messagesOf s.threads b.number).all fun m => m.result?.isSome

def isCutOff (s : Server ρ) (b : Bulk) : Bool := s.threads.any (Thread.cutsOff b.number)

/-- Phase 1 takes the messages in turn; phase 2 starts after it and keeps to the permits. -/
def mayMove (s : Server ρ) (i : Nat) : Thread → Bool
  | .message b (.waiting _) =>
    (messagesOf (s.threads.take i) b.number).all MessageState.pastPhase1
  | .message b (.prepared _) =>
    s.spawned b &&
      decide (((messagesOf s.threads b.number).filter MessageState.isSubmitting).length <
        s.permits b)
  | _ => true

/-- The threads that start with an event. -/
def arrivals (D : Deps) (s : Server ρ) : Event → List Thread
  | .post rid parts =>
    match Auth.fromRequestParts D s.world.app.config parts with
    | .error rejection => [.unauthenticated rid rejection]
    | .ok auth => [.receiving rid auth parts.headers]
  | .postBulk bulkId auth messages =>
    match checkBulk s.world.app.config (messages.map Prod.fst) with
    | .error e => [.bulkRefused bulkId e]
    | .ok () =>
      (bulkItems (messages.map Prod.fst) (messages.map Prod.snd)).map fun item =>
        .message
          { number := s.threads.length
            bulkId := bulkId
            auth := auth
            cfg := s.world.app.config
            total := messages.length } (.waiting item)
  | .lookup rid keyId => [.lookup (getSubmissionStatus rid keyId)]
  | .sweep => [.sweep cleanup]
  | .timeoutBulk i =>
    match s.threads[i]? with
    | some (.message b _) =>
      if s.spawned b && !s.allResults b && !s.isCutOff b then [.bulkCutOff b.number] else []
    | _ => []
  | _ => []

def step (D : Deps) (L : Limiter ρ) (s : Server ρ) : Event → Option (Server ρ)
  | .turn i c => do
    let t ← s.threads[i]?
    let (t', w') ← t.turn D L (s.mayMove i t) c s.world
    some { world := w', threads := s.threads.set i t' }
  | .timeout i => do
    let t ← s.threads[i]?
    let t' ← t.timeout
    some { s with threads := s.threads.set i t' }
  | .reload config =>
    some { s with world := { s.world with app := s.world.app.reloadConfig config } }
  | e => some { s with threads := s.threads ++ s.arrivals D e }

def run (D : Deps) (L : Limiter ρ) : Server ρ → List Event → Option (Server ρ)
  | s, [] => some s
  | s, e :: es => (s.step D L e).bind fun s' => run D L s' es

/-- The answer of a bulk handler, once every message has its result. -/
def answerBulk (s : Server ρ) (b : Bulk) : Option BulkResponse :=
  let messages := messagesOf s.threads b.number
  if s.spawned b && s.allResults b && !s.isCutOff b then
    some (bulkResponse b.bulkId b.total (messages.filterMap MessageState.rejected?)
      (messages.filterMap MessageState.submitted?))
  else none

end Server

/-! ## What a turn does to what is shared -/

/-- No operation changes the config in force. -/
theorem config_exec (L : Limiter ρ) (op : Op) (c : Choice) (w : World ρ) :
    (exec L op c w).2.app.config = w.app.config := by
  cases op <;> rfl

theorem advance_world {α : Type} {L : Limiter ρ} {p p' : RelayM α} {c : Choice}
    {w w' : World ρ} (h : advance (exec L) c w p = some (p', w')) :
    ∃ op, p.head? = some op ∧ w' = (exec L op c w).2 := by
  obtain ⟨op, k, rfl, -, hw⟩ := advance_eq_some h
  exact ⟨op, rfl, hw⟩

/-- A turn that advances a program performs its next operation. -/
theorem map_advance_world {α β : Type} {L : Limiter ρ} {p : RelayM α} {c : Choice}
    {w w' : World ρ} {f : RelayM α → β} {y : β}
    (h : ((advance (exec L) c w p).map fun x => (f x.1, x.2)) = some (y, w')) :
    ∃ op, p.head? = some op ∧ w' = (exec L op c w).2 := by
  obtain ⟨⟨p', w''⟩, hadv, hx⟩ := Option.map_eq_some_iff.mp h
  cases hx
  exact advance_world hadv

theorem MessageState.turn_world {D : Deps} {L : Limiter ρ} {b : Bulk} {m m' : MessageState}
    {mayMove : Bool} {c : Choice} {w w' : World ρ}
    (h : m.turn D L b mayMove c w = some (m', w')) :
    ((Thread.message b m).nextOp = none ∧ w' = w) ∨
      ∃ op, (Thread.message b m).nextOp = some op ∧ w' = (exec L op c w).2 := by
  cases m with
  | waiting item =>
    simp only [turn] at h
    split at h
    · cases h
      exact Or.inl ⟨rfl, rfl⟩
    · cases h
  | preparing item p =>
    cases p with
    | ret out =>
      refine Or.inl ⟨rfl, ?_⟩
      cases out <;> (cases h; rfl)
    | step op k =>
      simp only [turn] at h
      exact Or.inr (map_advance_world h)
    | abort => cases h
  | rejected item result => cases h
  | prepared q =>
    simp only [turn] at h
    split at h
    · cases h
      exact Or.inl ⟨rfl, rfl⟩
    · cases h
  | submitting q p =>
    cases p with
    | ret out =>
      cases h
      exact Or.inl ⟨rfl, rfl⟩
    | step op k =>
      simp only [turn] at h
      exact Or.inr (map_advance_world h)
    | abort => cases h
  | submitted q result => cases h

/-- A turn performs the thread's next operation, or nothing. -/
theorem Thread.turn_world {D : Deps} {L : Limiter ρ} {t t' : Thread} {mayMove : Bool} {c : Choice}
    {w w' : World ρ} (h : t.turn D L mayMove c w = some (t', w')) :
    (t.nextOp = none ∧ w' = w) ∨ ∃ op, t.nextOp = some op ∧ w' = (exec L op c w).2 := by
  cases t with
  | receiving rid auth headers =>
    simp only [turn] at h
    split at h <;> (cases h; exact Or.inl ⟨rfl, rfl⟩)
  | handling rid auth p => exact Or.inr (map_advance_world h)
  | message b m =>
    simp only [turn, Option.map_eq_some_iff] at h
    obtain ⟨⟨m', w''⟩, hturn, hx⟩ := h
    cases hx
    exact MessageState.turn_world hturn
  | lookup p => exact Or.inr (map_advance_world h)
  | sweep p => exact Or.inr (map_advance_world h)
  | unauthenticated rid rejection => cases h
  | cutOff rid auth answer => cases h
  | bulkRefused bulkId e => cases h
  | bulkCutOff number => cases h

/-- The answer has the results of the messages. -/
theorem Server.answerBulk_results {s : Server ρ} {b : Bulk} {response : BulkResponse}
    (h : s.answerBulk b = some response) :
    response.results.Perm
      ((messagesOf s.threads b.number).filterMap MessageState.result?) := by
  have hsplit : ∀ ms : List MessageState,
      (ms.filterMap MessageState.rejected? ++ ms.filterMap MessageState.submitted?).Perm
        (ms.filterMap MessageState.result?) := by
    intro ms
    induction ms with
    | nil => exact .nil
    | cons m ms ih =>
      cases m with
      | rejected item result => exact ih.cons result
      | submitted q result => exact List.perm_middle.trans (ih.cons result)
      | _ => exact ih
  simp only [answerBulk] at h
  split at h
  · cases h
    exact (List.perm_insertionSort _ _).trans (hsplit _)
  · cases h

/-- A timer cuts a bulk request off while its handler waits for a task, or has no effect. -/
theorem Server.arrivals_timeoutBulk {D : Deps} (s : Server ρ) (i : Nat) :
    s.arrivals D (.timeoutBulk i) = [] ∨ ∃ b m, s.threads[i]? = some (.message b m) ∧
      s.spawned b = true ∧ s.allResults b = false ∧ s.isCutOff b = false ∧
      s.arrivals D (.timeoutBulk i) = [.bulkCutOff b.number] := by
  simp only [arrivals]
  split
  · rename_i b m hthread
    split
    · rename_i hwaits
      simp only [Bool.and_eq_true, Bool.not_eq_true'] at hwaits
      exact Or.inr ⟨b, m, hthread, hwaits.1.1, hwaits.1.2, hwaits.2, rfl⟩
    · exact Or.inl rfl
  · exact Or.inl rfl

theorem Server.mem_arrivals_timeoutBulk {D : Deps} {s : Server ρ} {i : Nat} {t : Thread}
    (ht : t ∈ s.arrivals D (.timeoutBulk i)) : ∃ number, t = .bulkCutOff number := by
  rcases s.arrivals_timeoutBulk i with h | ⟨b, m, -, -, -, -, h⟩
  · rw [h] at ht
    cases ht
  · rw [h] at ht
    exact ⟨b.number, List.mem_singleton.mp ht⟩

end HttpSmtpRele
