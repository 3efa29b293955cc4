import HttpSmtpRele.Api.SendBulk
import HttpSmtpRele.Lib.TaskPool
import HttpSmtpRele.RefusalCode
import HttpSmtpRele.ReloadPolicy

/-!
# Bulk sending under every schedule

`send_bulk` with its tasks: phase 1 in the handler, then a task for each prepared
message under the semaphore, then the results merged and sorted.  A `BulkRun` is
driven by its events, in any order the semaphore and the join set allow, with
anything happening to the shared state in between.  What decides the answer is
what phase 1 made of the messages and what the transport makes of each.  All of
it rests on the semaphore: `Semaphore::new` panics above `maxPermits`, and no
check keeps `bulk_concurrency` below.
-/

namespace HttpSmtpRele

open Api Prog

/-- What the transports would make of a message. -/
structure Transport where
  smtp : SmtpOutcome
  pipe : PipeOutcome

/-- The operation that hands the message over. -/
def submitOp (cfg : AppConfig) (message : Message) : Op :=
  if cfg.smtp.mode = "pipe" then
    .pipeSend message cfg.smtp.pipeCommand cfg.smtp.submissionTimeoutSeconds
  else .smtpSend message cfg.smtp.submissionTimeoutSeconds

/-- What phase 2 reports of a message. -/
def submitReport (p : PreparedMessage) : Except AppError Unit → MessageResult
  | .ok () => acceptedResult p.index p.reqId
  | .error _ => rejectedResult p.index p.reqId .smtpUnavailable "SMTP server unavailable."

/-- The same under a transport outcome. -/
def submitResult (cfg : AppConfig) (t : Transport) (p : PreparedMessage) : MessageResult :=
  submitReport p
    (if cfg.smtp.mode = "pipe" then Smtp.pipeResult t.pipe else Smtp.outcomeResult t.smtp)

abbrev BulkPool := TaskPool Nat Op Op.Res MessageResult

inductive BulkPhase
  | preparing (p : RelayM (List MessageResult × List PreparedMessage))
  | submitting (rejected : List MessageResult) (prepared : List PreparedMessage) (pool : BulkPool)
  /-- phase 1 is over, and `Semaphore::new` has panicked -/
  | tooManyPermits

structure BulkRun (ρ : Type) where
  world : World ρ
  phase : BulkPhase
  /-- what the handler itself has performed -/
  ops : List Op

inductive BulkEvent (ρ : Type)
  /-- the handler's next operation, or the loop that spawns the tasks -/
  | handler (c : Choice)
  | task (i : Nat) (turn : TaskTurn Choice)
  /-- other requests, reloads, the cleanup task -/
  | others (w : World ρ)

def BulkEvent.isOwn {ρ : Type} : BulkEvent ρ → Bool
  | others _ => false
  | _ => true

namespace BulkRun

variable {ρ : Type} (D : Deps) (L : Limiter ρ) (cfg : AppConfig) (auth : AuthContext)
  (T : Nat → Transport)

/-- The handler past its guards; with each message the id drawn for it. -/
def admitted (messages : List (MailRequest × RequestId)) (w : World ρ) : BulkRun ρ where
  world := w
  phase := .preparing (phase1Loop D auth cfg
    (bulkItems (messages.map Prod.fst) (messages.map Prod.snd)))
  ops := []

/-- The handler with its snapshot `cfg`. -/
def start (messages : List (MailRequest × RequestId)) (w : World ρ) :
    Except AppError (BulkRun ρ) :=
  match checkBulk cfg (messages.map Prod.fst) with
  | .error e => .error e
  | .ok () => .ok (admitted D cfg auth messages w)

/-- The tasks of phase 2. -/
def tasksOf (prepared : List PreparedMessage) : List (Nat × RelayM MessageResult) :=
  prepared.map fun p => (p.index, phase2Submit cfg p)

/-- The semaphore and the join set. -/
def spawnAll (prepared : List PreparedMessage) : Option BulkPool :=
  TaskPool.spawn maxPermits (bulkConcurrency cfg prepared) (tasksOf cfg prepared)

/-- Where the handler stands after phase 1. -/
def afterPhase1 (rejected : List MessageResult) (prepared : List PreparedMessage) : BulkPhase :=
  match spawnAll cfg prepared with
  | some pool => .submitting rejected prepared pool
  | none => .tooManyPermits

/-- The task of message `index` meets the outcome of that message. -/
def execFor (index : Nat) (op : Op) (c : Choice) (w : World ρ) : op.Res × World ρ :=
  exec L op { c with smtp := (T index).smtp, pipe := (T index).pipe } w

def step (s : BulkRun ρ) : BulkEvent ρ → Option (BulkRun ρ)
  | .handler c =>
    match s.phase with
    | .preparing (.step op k) =>
      let (r, w) := exec L op c s.world
      some { world := w, phase := .preparing (k r), ops := s.ops ++ [op] }
    | .preparing (.ret (rejected, prepared)) =>
      some { s with phase := afterPhase1 cfg rejected prepared }
    | _ => none
  | .task i turn =>
    match s.phase with
    | .submitting rejected prepared pool =>
      (pool.step (execFor L T) s.world i turn).map fun x =>
        { s with world := x.2, phase := .submitting rejected prepared x.1 }
    | _ => none
  | .others w => some { s with world := w }

def run : BulkRun ρ → List (BulkEvent ρ) → Option (BulkRun ρ)
  | s, [] => some s
  | s, e :: es => (s.step L cfg T e).bind fun s' => run s' es

/-- Merged, sorted and counted, once every task is joined. -/
def answer (bulkReqId : RequestId) (total : Nat) (s : BulkRun ρ) : Option BulkResponse :=
  match s.phase with
  | .submitting rejected _ pool =>
    if pool.allJoined then some (bulkResponse bulkReqId total rejected pool.collected) else none
  | _ => none

/-- What phase 1 made of the messages, once it is over. -/
def prepared? (s : BulkRun ρ) : Option (List MessageResult × List PreparedMessage) :=
  match s.phase with
  | .submitting rejected prepared _ => some (rejected, prepared)
  | _ => none

/-- How many submissions are in flight. -/
def inFlight (s : BulkRun ρ) : Nat :=
  match s.phase with
  | .submitting _ _ pool => pool.running
  | _ => 0

/-- The operations with which message `index` has been handed to a transport. -/
def submissions (s : BulkRun ρ) (index : Nat) : List Op :=
  match s.phase with
  | .submitting _ _ pool =>
    (pool.tasks.filter fun t => t.key = index).flatMap fun t => t.ops.filter Op.isAwait
  | _ => []

/-- Phase 1 panics: the record's expiry is out of range. -/
def panicked (s : BulkRun ρ) : Prop := s.phase = .preparing .abort

end BulkRun

/-! ## Phase 1 -/

/-- At most so many operations, none of them a submission. -/
def quiet : Nat → Op → Option Nat
  | 0, _ => none
  | n + 1, op => if op.isAwait then none else some n

/-- The index and the id under which a message is reported. -/
def Api.MessageResult.label (r : MessageResult) : Nat × String := (r.index, r.requestId)

def Api.PreparedMessage.label (p : PreparedMessage) : Nat × String := (p.index, p.reqId.asStr)

def Api.BulkItem.label (item : BulkItem) : Nat × String := (item.index, item.reqId.asStr)

/-- Phase 1 keeps the label of the message, and at least `n` operations are left. -/
def KeepsLabel (item : Nat × String) (n : Nat) :
    Except MessageResult PreparedMessage → Nat → Prop
  | .error r, m => r.label = item ∧ n ≤ m
  | .ok p, m => p.label = item ∧ n ≤ m

section
variable {D : Deps} {cfg : AppConfig} {auth : AuthContext} {index : Nat} {rid : RequestId}
  {n k : Nat}

theorem quiet_putNewReceived {keyId : String} {ttl : Nat} :
    Follows quiet (fun _ m => m = n) (n + 2) (putNewReceived rid keyId ttl) := by
  unfold putNewReceived
  apply Follows.perform (ψ := n + 1) rfl
  intro now
  cases SubmissionStatusRecord.newReceived rid keyId ttl now with
  | none => trivial
  | some record => exact Follows.step (ψ := n) rfl fun _ => rfl

theorem quiet_rateLimitedMessage {text : String} (hk : n ≤ k) :
    Follows quiet (KeepsLabel (index, rid.asStr) n) (k + 3)
      (rateLimitedMessage index rid auth cfg text) := by
  have hstore : Follows quiet (fun _ m => m = k) (k + 3)
      (storeRejected rid auth.keyId .rateLimited text cfg.status.ttlSeconds) := by
    apply (quiet_putNewReceived (n := k + 1)).bind
    intro _ m hm
    rw [hm]
    exact Follows.step (ψ := k) rfl fun _ => rfl
  apply hstore.bind
  intro _ m hm
  rw [hm]
  exact ⟨rfl, hk⟩

theorem quiet_prepareAdmitted {rawMsg : MailRequest} :
    Follows quiet (KeepsLabel (index, rid.asStr) n) (n + 4)
      (prepareAdmitted D index rawMsg rid auth cfg) := by
  apply (quiet_putNewReceived (n := n + 2)).bind
  intro _ m hm
  rw [hm]
  cases Validation.validateMailRequest D rawMsg cfg auth with
  | error e => exact Follows.step (ψ := n + 1) rfl fun _ => ⟨rfl, Nat.le_succ n⟩
  | ok validated =>
    apply Follows.step (ψ := n + 1) rfl
    intro _
    cases Mail.buildMessage D validated cfg with
    | error e => exact Follows.step (ψ := n) rfl fun _ => ⟨rfl, le_rfl⟩
    | ok message => exact ⟨rfl, Nat.le_succ n⟩

theorem quiet_phase1Prepare {rawMsg : MailRequest} :
    Follows quiet (KeepsLabel (index, rid.asStr) n) (n + 7)
      (phase1Prepare D index rawMsg rid auth cfg) := by
  apply Follows.step (ψ := n + 6) rfl
  intro global
  cases global with
  | error _ => exact quiet_rateLimitedMessage (k := n + 3) (by omega)
  | ok _ =>
    apply Follows.step (ψ := n + 5) rfl
    intro ip
    cases ip with
    | error _ => exact quiet_rateLimitedMessage (k := n + 2) (by omega)
    | ok _ =>
      apply Follows.step (ψ := n + 4) rfl
      intro key
      cases key with
      | error _ => exact quiet_rateLimitedMessage (k := n + 1) (by omega)
      | ok _ => exact quiet_prepareAdmitted

/-- What phase 1 made of some messages: each is refused or prepared, once. -/
def Divides (items : List (Nat × String)) (out : List MessageResult × List PreparedMessage) :
    Prop :=
  (out.1.map MessageResult.label ++ out.2.map PreparedMessage.label).Perm items

/-- Phase 1 performs at most seven operations for a message and submits nothing. -/
theorem quiet_phase1Loop (items : List BulkItem) (hn : 7 * items.length ≤ n) :
    Follows quiet (fun out _ => Divides (items.map BulkItem.label) out) n
      (phase1Loop D auth cfg items) := by
  induction items generalizing n with
  | nil => exact List.Perm.nil
  | cons item items ih =>
    rw [List.length_cons] at hn
    obtain ⟨k, rfl⟩ : ∃ k, n = k + 7 := ⟨n - 7, by omega⟩
    apply quiet_phase1Prepare.bind
    intro outcome m hm
    have hleft : 7 * items.length ≤ m := by
      have hk : k ≤ m := by cases outcome <;> exact hm.2
      omega
    apply (ih hleft).bind
    intro out m' hout
    unfold Divides at hout
    cases outcome with
    | ok p =>
      show ((out.1.map MessageResult.label) ++ p.label :: out.2.map PreparedMessage.label).Perm
        (item.label :: items.map BulkItem.label)
      rw [show p.label = item.label from hm.1]
      exact List.perm_middle.trans (hout.cons _)
    | error r =>
      show (r.label :: out.1.map MessageResult.label ++ out.2.map PreparedMessage.label).Perm
        (item.label :: items.map BulkItem.label)
      rw [show r.label = item.label from hm.1]
      exact hout.cons _

end

/-! ## Phase 2 -/

/-- The answers an operation can get under a transport outcome. -/
def Transport.allows (t : Transport) : (op : Op) → op.Res → Prop
  | .smtpSend _ _, r => r = t.smtp
  | .pipeSend _ _ _, r => r = t.pipe
  | _, _ => True

theorem execFor_allows {ρ : Type} (L : Limiter ρ) (T : Nat → Transport) (index : Nat) (op : Op)
    (c : Choice) (w : World ρ) : (T index).allows op (BulkRun.execFor L T index op c w).1 := by
  cases op with
  | smtpSend message timeoutSeconds => rfl
  | pipeSend message command timeoutSeconds => rfl
  | _ => trivial

/-- Where `phase2_submit` can stand: it hands over its own message, at most once,
and has done so when it returns what the transport made of it. -/
structure Submits (cfg : AppConfig) (t : Transport) (p : PreparedMessage) (ops : List Op)
    (q : RelayM MessageResult) : Prop where
  length : ops.length ≤ 3
  submissions : (ops.filter Op.isAwait).Sublist [submitOp cfg p.message]
  running : q ≠ .abort
  returned : ∀ r, q = .ret r →
    r = submitResult cfg t p ∧ ops.filter Op.isAwait = [submitOp cfg p.message]

/-- An update, the submission, an update. -/
def submission (before op : Op) (after : op.Res → Op) (value : op.Res → MessageResult) :
    RelayM MessageResult :=
  .step before fun _ => .step op fun r => .step (after r) fun _ => .ret (value r)

theorem path_submission {cfg : AppConfig} {t : Transport} {p : PreparedMessage} {before : Op}
    (op : Op) {after : op.Res → Op} {value : op.Res → MessageResult} (hop : submitOp cfg p.message = op)
    (hbefore : before.isAwait = false) (hawait : op.isAwait = true)
    (hafter : ∀ r, (after r).isAwait = false)
    (hvalue : ∀ r, t.allows op r → value r = submitResult cfg t p) {ops : List Op}
    {q : RelayM MessageResult} (h : Path t.allows (submission before op after value) ops q) :
    Submits cfg t p ops q := by
  rcases ops with _ | ⟨op₁, ops⟩
  · obtain rfl := path_nil.mp h
    exact ⟨by simp, by simp, by simp [submission], by simp [submission]⟩
  obtain ⟨rfl, r₁, -, h⟩ := h
  rcases ops with _ | ⟨op₂, ops⟩
  · obtain rfl := path_nil.mp h
    exact ⟨by simp, by simp [hbefore], by simp, by simp⟩
  obtain ⟨rfl, r₂, hr₂, h⟩ := h
  rcases ops with _ | ⟨op₃, ops⟩
  · obtain rfl := path_nil.mp h
    exact ⟨by simp, by simp [hbefore, hawait, hop], by simp, by simp⟩
  obtain ⟨rfl, r₃, -, h⟩ := h
  rcases ops with _ | ⟨op₄, ops⟩
  · obtain rfl := path_nil.mp h
    have hops : [op₁, op₂, after r₂].filter Op.isAwait = [submitOp cfg p.message] := by
      simp [hbefore, hawait, hafter, hop]
    refine ⟨by simp, by rw [hops], by simp, fun r hr => ?_⟩
    cases hr
    exact ⟨hvalue r₂ hr₂, hops⟩
  · cases h

/-- The update that follows the submission. -/
def finishOp (p : PreparedMessage) : Except AppError Unit → Op
  | .ok () => .updateStatus p.reqId p.keyId
    { status := .smtpAccepted, code := none, message := some "Accepted by SMTP server." }
  | .error _ => .updateStatus p.reqId p.keyId
    { status := .smtpFailed
      code := some .smtpUnavailable
      message := some "SMTP server unavailable." }

theorem finishOp_not_await (p : PreparedMessage) (r : Except AppError Unit) :
    (finishOp p r).isAwait = false := by
  cases r <;> rfl

theorem phase2Submit_eq (cfg : AppConfig) (p : PreparedMessage) :
    phase2Submit cfg p =
      .step (.updateStatus p.reqId p.keyId
        { status := .smtpSubmissionStarted
          code := none
          message := some "Submitting to SMTP." }) fun _ =>
        submitByMode cfg p.message >>= fun r =>
          .step (finishOp p r) fun _ => .ret (submitReport p r) := by
  refine congrArg (Prog.step _) (funext fun _ =>
    congrArg (submitByMode cfg p.message >>= ·) (funext fun r => ?_))
  cases r <;> rfl

theorem path_phase2Submit {cfg : AppConfig} {t : Transport} {p : PreparedMessage} {ops : List Op}
    {q : RelayM MessageResult} (h : Path t.allows (phase2Submit cfg p) ops q) :
    Submits cfg t p ops q := by
  rw [phase2Submit_eq, submitByMode] at h
  by_cases hmode : cfg.smtp.mode = "pipe"
  · rw [if_pos hmode] at h
    refine path_submission (.pipeSend p.message _ _) ?_ rfl rfl
      (fun r => finishOp_not_await p (Smtp.pipeResult r)) (fun r hr => ?_) h
    · rw [submitOp, if_pos hmode]
    · rw [submitResult, if_pos hmode, ← show r = t.pipe from hr]
  · rw [if_neg hmode] at h
    refine path_submission (.smtpSend p.message _) ?_ rfl rfl
      (fun r => finishOp_not_await p (Smtp.outcomeResult r)) (fun r hr => ?_) h
    · rw [submitOp, if_neg hmode]
    · rw [submitResult, if_neg hmode, ← show r = t.smtp from hr]

/-! ## Every schedule -/

namespace BulkRun

/-- How many steps the handler and its tasks have taken. -/
def moves {ρ : Type} (s : BulkRun ρ) : Nat :=
  match s.phase with
  | .preparing _ => s.ops.length
  | .submitting _ _ pool => s.ops.length + 1 + pool.moves
  | .tooManyPermits => s.ops.length + 1

/-- The labels of the messages, in order. -/
def labels (messages : List (MailRequest × RequestId)) : List (Nat × String) :=
  messages.mapIdx fun i m => (i, m.2.asStr)

variable {ρ : Type} {D : Deps} {L : Limiter ρ} {cfg : AppConfig} {auth : AuthContext}
  {T : Nat → Transport} {messages : List (MailRequest × RequestId)}

theorem labels_fst : (labels messages).map Prod.fst = List.range messages.length := by
  apply List.ext_getElem (by simp [labels])
  intro i h₁ h₂
  simp [labels]

theorem divides_indices {rejected : List MessageResult} {prepared : List PreparedMessage}
    (h : Divides (labels messages) (rejected, prepared)) :
    (rejected.map MessageResult.index ++ prepared.map PreparedMessage.index).Perm
      (List.range messages.length) := by
  have hfst := h.map Prod.fst
  rw [labels_fst, List.map_append, List.map_map, List.map_map] at hfst
  exact hfst

/-- The pool is one that was spawned for the prepared messages. -/
abbrev PoolInv (cfg : AppConfig) (T : Nat → Transport) (prepared : List PreparedMessage)
    (pool : BulkPool) : Prop :=
  TaskPool.Inv (fun i => (T i).allows) (bulkConcurrency cfg prepared) (tasksOf cfg prepared) pool

/-- What holds of the handler where it stands. -/
def PhaseInv (cfg : AppConfig) (T : Nat → Transport) (messages : List (MailRequest × RequestId))
    (ops : List Op) : BulkPhase → Prop
  | .preparing p => ∃ n, ops.length + n ≤ 7 * messages.length ∧
      Follows quiet (fun out _ => Divides (labels messages) out) n p
  | .submitting rejected prepared pool => ops.length ≤ 7 * messages.length ∧
      Divides (labels messages) (rejected, prepared) ∧
      PoolInv cfg T prepared pool
  | .tooManyPermits => ops.length ≤ 7 * messages.length ∧
      (maxPermits < cfg.smtp.bulkConcurrency ∨ maxPermits < messages.length)

structure Inv (cfg : AppConfig) (T : Nat → Transport) (messages : List (MailRequest × RequestId))
    (s : BulkRun ρ) : Prop where
  quiet : ∀ op ∈ s.ops, op.isAwait = false
  phase : PhaseInv cfg T messages s.ops s.phase

theorem inv_admitted (w : World ρ) : Inv cfg T messages (admitted D cfg auth messages w) := by
  have hitems : (bulkItems (messages.map Prod.fst) (messages.map Prod.snd)).map BulkItem.label =
      labels messages := by
    rw [bulkItems_eq, labels]
    apply List.ext_getElem?
    intro i
    simp [BulkItem.label, Function.comp_def]
  have hlength : (bulkItems (messages.map Prod.fst) (messages.map Prod.snd)).length =
      messages.length := by
    rw [bulkItems_eq, List.length_mapIdx]
  refine ⟨by simp [admitted], 7 * messages.length, by simp [admitted], ?_⟩
  rw [← hitems]
  exact quiet_phase1Loop _ (by rw [hlength])

/-- Only a semaphore with more permits than it can hold fails. -/
theorem phaseInv_afterPhase1 {rejected : List MessageResult} {prepared : List PreparedMessage}
    {ops : List Op} (hops : ops.length ≤ 7 * messages.length)
    (hdivides : Divides (labels messages) (rejected, prepared)) :
    PhaseInv cfg T messages ops (afterPhase1 cfg rejected prepared) := by
  unfold afterPhase1
  cases hspawn : spawnAll cfg prepared with
  | some pool => exact ⟨hops, hdivides, TaskPool.inv_spawn _ hspawn⟩
  | none =>
    have hlt := TaskPool.spawn_eq_none.mp hspawn
    have hlength := (divides_indices hdivides).length_eq
    simp only [List.length_append, List.length_map, List.length_range] at hlength
    refine ⟨hops, ?_⟩
    unfold bulkConcurrency at hlt
    split at hlt
    · simp only [maxPermits] at hlt ⊢
      omega
    · exact Or.inl hlt

theorem inv_step {s s' : BulkRun ρ} {e : BulkEvent ρ} (hinv : Inv cfg T messages s)
    (h : s.step L cfg T e = some s') : Inv cfg T messages s' := by
  obtain ⟨world, phase, ops⟩ := s
  obtain ⟨hquiet, hphase⟩ := hinv
  cases e with
  | others w =>
    cases h
    exact ⟨hquiet, hphase⟩
  | handler c =>
    cases phase with
    | submitting rejected prepared pool => cases h
    | tooManyPermits => cases h
    | preparing p =>
      obtain ⟨n, hn, hfollows⟩ := hphase
      cases p with
      | abort => cases h
      | ret out =>
        cases h
        refine ⟨hquiet, phaseInv_afterPhase1 ?_ hfollows⟩
        dsimp only at hn ⊢
        omega
      | step op k =>
        cases h
        obtain ⟨m, hm, hrest⟩ := hfollows
        cases n with
        | zero => cases hm
        | succ n =>
          by_cases hop : op.isAwait = true
          · simp [HttpSmtpRele.quiet, hop] at hm
          · have hmn : n = m := by simpa [HttpSmtpRele.quiet, hop] using hm
            subst hmn
            refine ⟨fun op' hop' => ?_, n, ?_, hrest _⟩
            · rcases List.mem_append.mp hop' with h | h
              · exact hquiet op' h
              · rw [List.mem_singleton.mp h]
                simpa using hop
            · simp only [List.length_append, List.length_singleton] at hn ⊢
              omega
  | task i turn =>
    cases phase with
    | preparing p => cases h
    | tooManyPermits => cases h
    | submitting rejected prepared pool =>
      obtain ⟨⟨pool', w'⟩, hstep, hs'⟩ := Option.map_eq_some_iff.mp h
      cases hs'
      obtain ⟨hlength, hdivides, hpool⟩ := hphase
      exact ⟨hquiet, hlength, hdivides,
        TaskPool.inv_step (execFor_allows L T) hpool (TaskPool.steps_of_step hstep)⟩

theorem inv_run {evs : List (BulkEvent ρ)} {s s' : BulkRun ρ} (hinv : Inv cfg T messages s)
    (h : s.run L cfg T evs = some s') : Inv cfg T messages s' := by
  induction evs generalizing s with
  | nil =>
    cases h
    exact hinv
  | cons e evs ih =>
    obtain ⟨s₁, hstep, hrun⟩ := Option.bind_eq_some_iff.mp h
    exact ih (inv_step hinv hstep) hrun

theorem moves_afterPhase1 (w : World ρ) (rejected : List MessageResult)
    (prepared : List PreparedMessage) (ops : List Op) :
    ({ world := w, phase := afterPhase1 cfg rejected prepared, ops := ops } : BulkRun ρ).moves =
      ops.length + 1 := by
  unfold afterPhase1
  cases hspawn : spawnAll cfg prepared with
  | some pool => simp [moves, TaskPool.moves_spawn hspawn]
  | none => rfl

theorem moves_step {s s' : BulkRun ρ} {e : BulkEvent ρ} (h : s.step L cfg T e = some s') :
    s'.moves = s.moves + if e.isOwn then 1 else 0 := by
  obtain ⟨world, phase, ops⟩ := s
  cases e with
  | others w =>
    cases h
    rfl
  | handler c =>
    cases phase with
    | submitting rejected prepared pool => cases h
    | tooManyPermits => cases h
    | preparing p =>
      cases p with
      | abort => cases h
      | ret out =>
        cases h
        rw [moves_afterPhase1]
        rfl
      | step op k =>
        cases h
        simp [moves, BulkEvent.isOwn]
  | task i turn =>
    cases phase with
    | preparing p => cases h
    | tooManyPermits => cases h
    | submitting rejected prepared pool =>
      obtain ⟨⟨pool', w'⟩, hstep, hs'⟩ := Option.map_eq_some_iff.mp h
      cases hs'
      have hmoves := TaskPool.moves_step (TaskPool.steps_of_step hstep)
      simp only [moves, BulkEvent.isOwn, if_true]
      omega

theorem moves_run {evs : List (BulkEvent ρ)} {s s' : BulkRun ρ}
    (h : s.run L cfg T evs = some s') : s'.moves = s.moves + evs.countP BulkEvent.isOwn := by
  induction evs generalizing s with
  | nil =>
    cases h
    rfl
  | cons e evs ih =>
    obtain ⟨s₁, hstep, hrun⟩ := Option.bind_eq_some_iff.mp h
    rw [ih hrun, moves_step hstep, List.countP_cons]
    omega

/-! ## What follows of a state -/

theorem submitResult_label (t : Transport) (p : PreparedMessage) :
    (submitResult cfg t p).label = p.label := by
  unfold submitResult
  generalize (if cfg.smtp.mode = "pipe" then _ else _) = r
  cases r <;> rfl

section
variable {rejected : List MessageResult} {prepared : List PreparedMessage}

/-- The answer does not depend on the order of the results. -/
theorem bulkResponse_perm {submitted submitted' : List MessageResult}
    (hperm : submitted.Perm submitted')
    (hnodup : ((rejected ++ submitted').map MessageResult.index).Nodup) (id : RequestId)
    (total : Nat) :
    bulkResponse id total rejected submitted = bulkResponse id total rejected submitted' := by
  have hall : (rejected ++ submitted).Perm (rejected ++ submitted') := hperm.append_left _
  rw [← (hall.map MessageResult.index).nodup_iff] at hnodup
  unfold bulkResponse
  rw [TaskPool.insertionSort_eq_of_perm MessageResult.index hall hnodup]

theorem bulkResponse_counts (id : RequestId) (total : Nat) (submitted : List MessageResult) :
    (bulkResponse id total rejected submitted).accepted +
      (bulkResponse id total rejected submitted).rejected =
        (bulkResponse id total rejected submitted).results.length :=
  (List.length_eq_length_filter_add fun r : MessageResult => r.status == "accepted").symm

/-- What is refused, and what the transport makes of the rest, carries the labels. -/
theorem decided_labels (cfg : AppConfig) (T : Nat → Transport)
    (hdivides : Divides (labels messages) (rejected, prepared)) :
    ((rejected ++ prepared.map fun p => submitResult cfg (T p.index) p).map
      MessageResult.label).Perm (labels messages) := by
  have hlabel : (fun p => (submitResult cfg (T p.index) p).label) = PreparedMessage.label :=
    funext fun p => submitResult_label (T p.index) p
  rw [List.map_append, List.map_map, Function.comp_def, hlabel]
  exact hdivides

theorem decided_nodup (cfg : AppConfig) (T : Nat → Transport)
    (hdivides : Divides (labels messages) (rejected, prepared)) :
    ((rejected ++ prepared.map fun p => submitResult cfg (T p.index) p).map
      MessageResult.index).Nodup := by
  have hindices := (decided_labels cfg T hdivides).map Prod.fst
  rw [labels_fst, List.map_map] at hindices
  exact hindices.nodup_iff.mpr List.nodup_range

/-- The results carry the labels of the messages, in order. -/
theorem results_labels (cfg : AppConfig) (T : Nat → Transport)
    (hdivides : Divides (labels messages) (rejected, prepared)) (id : RequestId) (total : Nat) :
    (bulkResponse id total rejected
      (prepared.map fun p => submitResult cfg (T p.index) p)).results.map MessageResult.label =
      labels messages := by
  let results := (bulkResponse id total rejected
    (prepared.map fun p => submitResult cfg (T p.index) p)).results
  have hperm : results.Perm (rejected ++ prepared.map fun p => submitResult cfg (T p.index) p) :=
    List.perm_insertionSort _ _
  have hsorted : results.Pairwise fun a b => a.index ≤ b.index :=
    TaskPool.insertionSort_key_sorted MessageResult.index _
  have hlabels := (hperm.map MessageResult.label).trans (decided_labels cfg T hdivides)
  refine TaskPool.eq_of_sorted Prod.fst hlabels ?_ ?_ ?_
  · rw [(hlabels.map Prod.fst).nodup_iff, labels_fst]
    exact List.nodup_range
  · rw [List.pairwise_map]
    exact hsorted
  · have hrange : ((labels messages).map Prod.fst).Pairwise fun a b => a ≤ b := by
      rw [labels_fst]
      exact List.pairwise_le_range
    exact List.pairwise_map.mp hrange

/-- A list with the labels of the messages has an entry for each, at its index. -/
theorem entries_of_labels {results : List MessageResult}
    (h : results.map MessageResult.label = labels messages) :
    results.length = messages.length ∧
      ∀ (i : Nat) (m : MailRequest × RequestId), messages[i]? = some m →
        ∃ r, results[i]? = some r ∧ r.index = i ∧ r.requestId = m.2.asStr := by
  constructor
  · have hlength := congrArg List.length h
    rw [List.length_map, labels, List.length_mapIdx] at hlength
    exact hlength
  · intro i m hm
    have hentry : (labels messages)[i]? = some (i, m.2.asStr) := by simp [labels, hm]
    rw [← h, List.getElem?_map, Option.map_eq_some_iff] at hentry
    obtain ⟨r, hr, hlabel⟩ := hentry
    exact ⟨r, hr, congrArg Prod.fst hlabel, congrArg Prod.snd hlabel⟩

theorem Inv.submitting {s : BulkRun ρ} (hinv : Inv cfg T messages s)
    (hout : s.prepared? = some (rejected, prepared)) :
    ∃ pool, s.phase = .submitting rejected prepared pool ∧
      Divides (labels messages) (rejected, prepared) ∧ PoolInv cfg T prepared pool := by
  obtain ⟨world, phase, ops⟩ := s
  cases phase with
  | preparing p => cases hout
  | tooManyPermits => cases hout
  | submitting rejected' prepared' pool =>
    cases hout
    exact ⟨pool, rfl, hinv.phase.2.1, hinv.phase.2.2⟩

theorem tasksOf_keys :
    (tasksOf cfg prepared).map Prod.fst = prepared.map PreparedMessage.index := by
  unfold tasksOf
  rw [List.map_map]
  rfl

/-- What a joined task has returned. -/
theorem tasksOf_values (T : Nat → Transport) :
    List.Forall₂ (TaskPool.HasValue fun i => (T i).allows) (tasksOf cfg prepared)
      (prepared.map fun p => submitResult cfg (T p.index) p) := by
  unfold tasksOf
  rw [List.forall₂_map_left_iff, List.forall₂_map_right_iff]
  exact List.forall₂_same.mpr fun p _ ops a hpath => ((path_phase2Submit hpath).returned a rfl).1

variable {s : BulkRun ρ} {pool : BulkPool}

/-- The task of a prepared message, and what it has submitted. -/
theorem submissions_prepared (hphase : s.phase = .submitting rejected prepared pool)
    (hdivides : Divides (labels messages) (rejected, prepared)) (hpool : PoolInv cfg T prepared pool)
    {p : PreparedMessage} (hp : p ∈ prepared) :
    ∃ t ∈ pool.tasks, ∃ q, Submits cfg (T p.index) p t.ops q ∧
      (t.joined?.isSome = true → ∃ a, q = .ret a) ∧
      s.submissions p.index = t.ops.filter Op.isAwait := by
  have hnodup := (divides_indices hdivides).nodup_iff.mpr List.nodup_range
  have hkeys : ((tasksOf cfg prepared).map Prod.fst).Nodup :=
    tasksOf_keys ▸ (List.nodup_append.mp hnodup).2.1
  have hstart : (p.index, phase2Submit cfg p) ∈ tasksOf cfg prepared := List.mem_map_of_mem hp
  obtain ⟨t, ht, hsince, hfilter⟩ := TaskPool.tasks_of_key hpool.since hkeys hstart
  obtain ⟨q, hpath, hjoined⟩ := hsince.path
  refine ⟨t, ht, q, path_phase2Submit hpath, hjoined, ?_⟩
  unfold submissions
  rw [hphase]
  dsimp only at hfilter ⊢
  rw [hfilter, List.flatMap_singleton]

theorem submissions_refused (hphase : s.phase = .submitting rejected prepared pool)
    (hdivides : Divides (labels messages) (rejected, prepared)) (hpool : PoolInv cfg T prepared pool)
    {r : MessageResult} (hr : r ∈ rejected) : s.submissions r.index = [] := by
  have hnodup := (divides_indices hdivides).nodup_iff.mpr List.nodup_range
  have hkey : r.index ∉ (tasksOf cfg prepared).map Prod.fst := by
    rw [tasksOf_keys]
    intro hmem
    exact (List.nodup_append.mp hnodup).2.2 _ (List.mem_map_of_mem hr) _ hmem rfl
  unfold submissions
  rw [hphase]
  dsimp only
  rw [TaskPool.tasks_of_key_none hpool.since hkey, List.flatMap_nil]

theorem answer_eq_some {id : RequestId} {total : Nat} {response : BulkResponse}
    (h : s.answer id total = some response) :
    ∃ rejected prepared pool, s.phase = .submitting rejected prepared pool ∧
      s.prepared? = some (rejected, prepared) ∧ pool.allJoined = true ∧
      response = bulkResponse id total rejected pool.collected := by
  obtain ⟨world, phase, ops⟩ := s
  cases phase with
  | preparing p => cases h
  | tooManyPermits => cases h
  | submitting rejected prepared pool =>
    unfold answer at h
    dsimp only at h
    split at h
    · rename_i hall
      exact ⟨rejected, prepared, pool, rfl, rfl, hall, (Option.some.inj h).symm⟩
    · cases h

end

/-- What an answer says of the messages. -/
structure Answered (cfg : AppConfig) (T : Nat → Transport)
    (messages : List (MailRequest × RequestId)) (s : BulkRun ρ) (id : RequestId)
    (response : BulkResponse) : Prop where
  total : response.total = messages.length
  counts : response.accepted + response.rejected = messages.length
  length : response.results.length = messages.length
  entry : ∀ (i : Nat) (m : MailRequest × RequestId), messages[i]? = some m →
    ∃ r, response.results[i]? = some r ∧ r.index = i ∧ r.requestId = m.2.asStr
  once : ∀ rejected prepared, s.prepared? = some (rejected, prepared) → ∀ p ∈ prepared,
    s.submissions p.index = [submitOp cfg p.message]
  /-- no schedule plays a part -/
  decided : ∀ rejected prepared, s.prepared? = some (rejected, prepared) →
    response = bulkResponse id messages.length rejected
      (prepared.map fun p => submitResult cfg (T p.index) p)

/-- What holds in the state `s` that the handler and its tasks reach by `evs`. -/
structure Scheduled (L : Limiter ρ) (cfg : AppConfig) (T : Nat → Transport)
    (messages : List (MailRequest × RequestId)) (evs : List (BulkEvent ρ)) (s : BulkRun ρ) :
    Prop where
  inFlight : cfg.smtp.bulkConcurrency ≠ 0 → s.inFlight ≤ cfg.smtp.bulkConcurrency
  /-- phase 1 submits nothing -/
  handler : ∀ op ∈ s.ops, op.isAwait = false
  /-- every message is refused or prepared, and not both -/
  divided : ∀ rejected prepared, s.prepared? = some (rejected, prepared) →
    (rejected.map MessageResult.index ++ prepared.map PreparedMessage.index).Perm
      (List.range messages.length)
  refused : ∀ rejected prepared, s.prepared? = some (rejected, prepared) → ∀ r ∈ rejected,
    s.submissions r.index = []
  atMostOnce : ∀ rejected prepared, s.prepared? = some (rejected, prepared) → ∀ p ∈ prepared,
    (s.submissions p.index).Sublist [submitOp cfg p.message]
  answered : ∀ id response, s.answer id messages.length = some response →
    Answered cfg T messages s id response
  /-- the handler has its answer, or goes on, unless phase 1 panics -/
  goesOn : (∀ id, (s.answer id messages.length).isSome = true) ∨ s.panicked ∨
    ∃ e, e.isOwn = true ∧ (s.step L cfg T e).isSome = true
  /-- and it does not go on for ever -/
  bounded : evs.countP BulkEvent.isOwn ≤ 13 * messages.length + 1

theorem answered_of_inv {s : BulkRun ρ} (hinv : Inv cfg T messages s) {id : RequestId}
    {response : BulkResponse} (h : s.answer id messages.length = some response) :
    Answered cfg T messages s id response := by
  obtain ⟨rejected, prepared, pool, hphase, hout, hall, hresponse⟩ := answer_eq_some h
  obtain ⟨pool', hphase', hdivides, hpool⟩ := hinv.submitting hout
  obtain rfl : pool = pool' := by
    rw [hphase] at hphase'
    cases hphase'
    rfl
  have hcollected := hpool.collected_perm hall (tasksOf_values T)
  rw [bulkResponse_perm hcollected (decided_nodup cfg T hdivides)] at hresponse
  subst hresponse
  obtain ⟨hlength, hentry⟩ :=
    entries_of_labels (results_labels cfg T hdivides id messages.length)
  refine ⟨rfl, (bulkResponse_counts _ _ _).trans hlength, hlength, hentry, ?_, ?_⟩
  · intro rejected' prepared' hout' p hp
    obtain ⟨rfl, rfl⟩ := Prod.mk.inj (Option.some.inj (hout.symm.trans hout'))
    obtain ⟨t, ht, q, hsubmits, hjoined, hsubmissions⟩ :=
      submissions_prepared hphase hdivides hpool hp
    obtain ⟨a, rfl⟩ := hjoined (List.all_eq_true.mp hall t ht)
    rw [hsubmissions]
    exact (hsubmits.returned a rfl).2
  · intro rejected' prepared' hout'
    obtain ⟨rfl, rfl⟩ := Prod.mk.inj (Option.some.inj (hout.symm.trans hout'))
    rfl

theorem bulkConcurrency_pos (prepared : List PreparedMessage) :
    0 < bulkConcurrency cfg prepared := by
  unfold bulkConcurrency
  split
  · omega
  · rename_i hne
    exact Nat.pos_of_ne_zero hne

theorem inFlight_le {s : BulkRun ρ} (hinv : Inv cfg T messages s)
    (hne : cfg.smtp.bulkConcurrency ≠ 0) : s.inFlight ≤ cfg.smtp.bulkConcurrency := by
  obtain ⟨world, phase, ops⟩ := s
  cases phase with
  | preparing p => exact Nat.zero_le _
  | tooManyPermits => exact Nat.zero_le _
  | submitting rejected prepared pool =>
    obtain ⟨-, -, -, hpool⟩ := hinv
    have hpermits : bulkConcurrency cfg prepared = cfg.smtp.bulkConcurrency := by
      unfold bulkConcurrency
      split
      · omega
      · rfl
    rw [← hpermits]
    exact hpool.running_le

/-- The handler and its tasks wait for nobody but each other. -/
theorem progress {s : BulkRun ρ} (hpermits : cfg.smtp.bulkConcurrency ≤ maxPermits)
    (hlength : messages.length ≤ maxPermits) (hinv : Inv cfg T messages s) (c : Choice) :
    (∀ id, (s.answer id messages.length).isSome = true) ∨ s.panicked ∨
      ∃ e, e.isOwn = true ∧ (s.step L cfg T e).isSome = true := by
  obtain ⟨world, phase, ops⟩ := s
  cases phase with
  | preparing p =>
    cases p with
    | ret out => exact Or.inr (Or.inr ⟨.handler c, rfl, rfl⟩)
    | step op k => exact Or.inr (Or.inr ⟨.handler c, rfl, rfl⟩)
    | abort => exact Or.inr (Or.inl rfl)
  | tooManyPermits =>
    obtain ⟨-, -, hlt⟩ := hinv
    omega
  | submitting rejected prepared pool =>
    obtain ⟨-, -, -, hpool⟩ := hinv
    cases hall : pool.allJoined with
    | true =>
      left
      intro id
      simp [answer, hall]
    | false =>
      have habort : ∀ start ∈ tasksOf cfg prepared, ∀ ops,
          ¬Path (T start.1).allows start.2 ops .abort := by
        intro start hstart ops hpath
        obtain ⟨p, -, rfl⟩ := List.mem_map.mp hstart
        exact (path_phase2Submit hpath).running rfl
      obtain ⟨i, turn, hsome⟩ := hpool.progress (execFor L T) world
        (bulkConcurrency_pos prepared) habort hall c
      refine Or.inr (Or.inr ⟨.task i turn, rfl, ?_⟩)
      simp only [step, Option.isSome_map]
      exact hsome

theorem moves_le {s : BulkRun ρ} (hinv : Inv cfg T messages s) :
    s.moves ≤ 13 * messages.length + 1 := by
  obtain ⟨world, phase, ops⟩ := s
  cases phase with
  | preparing p =>
    obtain ⟨-, n, hn, -⟩ := hinv
    simp only [moves] at hn ⊢
    omega
  | tooManyPermits =>
    obtain ⟨-, hops, -⟩ := hinv
    simp only [moves] at hops ⊢
    omega
  | submitting rejected prepared pool =>
    obtain ⟨-, hops, hdivides, hpool⟩ := hinv
    have hpoolMoves := hpool.moves_le (d := 3) fun start hstart ops q hpath => by
      obtain ⟨p, -, rfl⟩ := List.mem_map.mp hstart
      exact (path_phase2Submit hpath).length
    have hlength := (divides_indices hdivides).length_eq
    simp only [tasksOf, List.length_map, List.length_append, List.length_range, moves] at *
    omega

theorem scheduled_of_inv {s : BulkRun ρ} {evs : List (BulkEvent ρ)} (c : Choice)
    (hpermits : cfg.smtp.bulkConcurrency ≤ maxPermits) (hlength : messages.length ≤ maxPermits)
    (hinv : Inv cfg T messages s) (hmoves : s.moves = evs.countP BulkEvent.isOwn) :
    Scheduled L cfg T messages evs s where
  inFlight := inFlight_le hinv
  handler := hinv.quiet
  divided rejected prepared hout := by
    obtain ⟨pool, -, hdivides, -⟩ := hinv.submitting hout
    exact divides_indices hdivides
  refused rejected prepared hout r hr := by
    obtain ⟨pool, hphase, hdivides, hpool⟩ := hinv.submitting hout
    exact submissions_refused hphase hdivides hpool hr
  atMostOnce rejected prepared hout p hp := by
    obtain ⟨pool, hphase, hdivides, hpool⟩ := hinv.submitting hout
    obtain ⟨t, -, q, hsubmits, -, hsubmissions⟩ :=
      submissions_prepared hphase hdivides hpool hp
    rw [hsubmissions]
    exact hsubmits.submissions
  answered id response h := answered_of_inv hinv h
  goesOn := progress hpermits hlength hinv c
  bounded := hmoves ▸ moves_le hinv

end BulkRun

/-- Some choice of the environment. -/
instance : Inhabited Choice where
  default :=
    { utc := 0, utc' := 0, instant := 0, smtp := .sent, pipe := .sent, body := none
      order := .id _ _ }

open BulkRun in
/-- Bulk sending loses and duplicates nothing, whatever the schedule, as long as the
semaphore can hold its permits. -/
theorem bulk_send_every_schedule {ρ : Type} (D : Deps) (L : Limiter ρ) (cfg : AppConfig)
    (auth : AuthContext) (T : Nat → Transport) (w : World ρ)
    {messages : List (MailRequest × RequestId)} (hne : messages ≠ [])
    (hmax : messages.length ≤ cfg.mail.maxBulkMessages)
    (hpermits : cfg.smtp.bulkConcurrency ≤ maxPermits) (hlength : messages.length ≤ maxPermits) :
    ∃ s₀, start D cfg auth messages w = .ok s₀ ∧
      (∀ evs s, s₀.run L cfg T evs = some s → Scheduled L cfg T messages evs s) ∧
      ∀ evs₁ s₁ evs₂ s₂, s₀.run L cfg T evs₁ = some s₁ → s₀.run L cfg T evs₂ = some s₂ →
        s₁.prepared? = s₂.prepared? → ∀ id response₁ response₂,
          s₁.answer id messages.length = some response₁ →
          s₂.answer id messages.length = some response₂ → response₁ = response₂ := by
  have hcheck : checkBulk cfg (messages.map Prod.fst) = .ok () := by
    have hempty : (messages.map Prod.fst).isEmpty = false := by simpa using hne
    have hle : ¬(messages.map Prod.fst).length > cfg.mail.maxBulkMessages := by
      rw [List.length_map]
      omega
    rw [checkBulk, hempty, decide_eq_false hle]
    rfl
  have hinv : Inv cfg T messages (admitted D cfg auth messages w) := inv_admitted w
  refine ⟨admitted D cfg auth messages w, by rw [start, hcheck], fun evs s hrun => ?_, ?_⟩
  · have hmoves := moves_run hrun
    rw [show (admitted D cfg auth messages w).moves = 0 from rfl, Nat.zero_add] at hmoves
    exact scheduled_of_inv default hpermits hlength (inv_run hinv hrun) hmoves
  · intro evs₁ s₁ evs₂ s₂ hrun₁ hrun₂ hsame id response₁ response₂ h₁ h₂
    obtain ⟨rejected, prepared, -, -, hout, -⟩ := answer_eq_some h₁
    rw [(answered_of_inv (inv_run hinv hrun₁) h₁).decided rejected prepared hout,
      (answered_of_inv (inv_run hinv hrun₂) h₂).decided rejected prepared (hsame ▸ hout)]

/-! Three messages, the first to an address that the key may not write to; the
last task is the first to end, and the transport fails it. -/

def threeMessages : List (MailRequest × RequestId) :=
  [(requestTo "eve@example.org", ⟨"req_0"⟩), (requestTo "ops@example.com", ⟨"req_1"⟩),
    (requestTo "ops@example.com", ⟨"req_2"⟩)]

def lastElapses (index : Nat) : Transport where
  smtp := if index = 2 then .elapsed else .sent
  pipe := .sent

/-- The nineteen operations of phase 1 and the spawning, then the tasks. -/
def lastFirst : List (BulkEvent Unit) :=
  let performs (i : Nat) : List (BulkEvent Unit) := List.replicate 3 (.task i (.perform default))
  List.replicate 19 (.handler default) ++
    [.task 0 .acquire, .task 1 .acquire] ++ performs 1 ++ [.task 1 .release] ++ performs 0 ++
    [.task 1 .join, .task 0 .release, .task 0 .join]

def confinedWorld : World Unit where
  app := .new confinedConfig ()
  bodyLimit := confinedConfig.server.maxRequestBodyBytes
  handed := []

open BulkRun in
theorem bulk_send_last_first :
    ∃ s₀ s response, start .plain confinedConfig confinedAuth threeMessages confinedWorld = .ok s₀ ∧
      s₀.run .admitAll confinedConfig lastElapses lastFirst = some s ∧
      s.answer ⟨"req_bulk"⟩ 3 = some response ∧
      Answered confinedConfig lastElapses threeMessages s ⟨"req_bulk"⟩ response ∧
      response.results.map MessageResult.status = ["rejected", "accepted", "rejected"] := by
  have hne : threeMessages ≠ [] := by simp [threeMessages]
  obtain ⟨s₀, hstart, hscheduled, -⟩ := bulk_send_every_schedule .plain .admitAll confinedConfig
    confinedAuth lastElapses confinedWorld hne (by decide) (by decide) (by decide)
  obtain rfl : admitted .plain confinedConfig confinedAuth threeMessages confinedWorld = s₀ :=
    Except.ok.inj hstart
  refine ⟨_, _, _, rfl, rfl, rfl, ?_, ?_⟩
  · exact (hscheduled lastFirst _ rfl).answered _ _ rfl
  · rfl

/-- One permit more than a semaphore holds. -/
def crowdedConfig : AppConfig :=
  { confinedConfig with smtp := { confinedConfig.smtp with bulkConcurrency := maxPermits + 1 } }

def crowdedWorld : World Unit :=
  { confinedWorld with app := .new crowdedConfig () }

open BulkRun in
/-- Under an accepted config the handler panics between its phases: two messages
are prepared, none is submitted, and there is no answer. -/
theorem bulk_send_too_many_permits :
    ConfigValidate.Accepted {} .plain crowdedConfig ∧
      ∃ s₀ s, start .plain crowdedConfig confinedAuth threeMessages crowdedWorld = .ok s₀ ∧
        s₀.run .admitAll crowdedConfig lastElapses (List.replicate 19 (.handler default)) = some s ∧
        (∀ id, s.answer id 3 = none) ∧ (∀ index, s.submissions index = []) ∧
        (∀ e, e.isOwn = true → s.step .admitAll crowdedConfig lastElapses e = none) ∧
        ¬Scheduled .admitAll crowdedConfig lastElapses threeMessages
          (List.replicate 19 (.handler default)) s := by
  refine ⟨?_, _, _, rfl, rfl, fun _ => rfl, fun _ => rfl, fun e he => ?_, fun h => ?_⟩
  · unfold ConfigValidate.Accepted
    decide
  · cases e with
    | handler c => rfl
    | task i turn => rfl
    | others w => cases he
  · rcases h.goesOn with hanswer | hpanic | ⟨e, he, hstep⟩
    · cases hanswer ⟨"req_bulk"⟩
    · cases hpanic
    · cases e with
      | handler c => cases hstep
      | task i turn => cases hstep
      | others w => cases he

end HttpSmtpRele
