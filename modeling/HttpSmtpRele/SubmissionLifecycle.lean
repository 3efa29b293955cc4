import HttpSmtpRele.RefusalCode
import HttpSmtpRele.ServerLife

/-!
# The lifecycle of a submission

`history` lists the statuses a record takes in a run.  For a record that is
still held when the run ends, and that no clock reading of the run has passed,
it is the path of the phase its thread is in (`run_history`): a prefix of one of
the three lifecycles, and one of them once the client is told the outcome.
-/

namespace HttpSmtpRele

open Prog Api LPhase ServerLife

variable {ρ : Type} {D : Deps} {L : Limiter ρ} {rid : RequestId} {E : DateTime}

def statusOf (rid : RequestId) (s : Server ρ) : Option SubmissionStatus :=
  (s.world.find rid).map SubmissionStatusRecord.status

/-- What a change of the status adds to the history. -/
def changed (old new : Option SubmissionStatus) : List SubmissionStatus :=
  if new = old then [] else new.toList

/-- The statuses the record of `rid` takes, in order. -/
def history (D : Deps) (L : Limiter ρ) (rid : RequestId) :
    Server ρ → List Event → List SubmissionStatus
  | _, [] => []
  | s, e :: es =>
    match s.step D L e with
    | none => []
    | some s' => changed (statusOf rid s) (statusOf rid s') ++ history D L rid s' es

def lifecycles : List (List SubmissionStatus) :=
  [[.received, .rejected], [.received, .smtpSubmissionStarted, .smtpAccepted],
    [.received, .smtpSubmissionStarted, .smtpFailed]]

/-- The HTTP status of an answer of `send_mail`. -/
def sendHttpStatus : SendResult → Nat
  | .ok response => response.httpStatus
  | .error err => err.source.httpStatus

/-- Whether the client is told that the message is accepted, once it is told. -/
def Thread.toldAccepted : Thread → Option Bool
  | handling _ _ (.ret res) => some (sendHttpStatus res == 202)
  | message _ m => m.result?.map fun result => result.status == "accepted"
  | _ => none

/-- The statuses a record takes up to a phase. -/
def LPhase.path : LPhase → List SubmissionStatus
  | fresh => []
  | received _ => [.received]
  | started _ => [.received, .smtpSubmissionStarted]
  | ended _ s _ =>
    if s = .rejected then [.received, .rejected] else [.received, .smtpSubmissionStarted, s]

def LPhase.status : LPhase → Option SubmissionStatus
  | fresh => none
  | received _ => some .received
  | started _ => some .smtpSubmissionStarted
  | ended _ s _ => some s

/-- A phase that can be reached: records end in a terminal status. -/
def LPhase.Proper : LPhase → Prop
  | ended _ s _ => s.isTerminal = true
  | _ => True

namespace SubmissionLifecycle

/-! ## Steps of the automaton -/

/-- A step of the automaton adds the new status to the path. -/
theorem path_step {φ φ' : LPhase} {op : Op} (h : watchNext rid φ op = some φ') :
    φ'.path = φ.path ++ changed φ.status φ'.status := by
  rcases watchNext_cases h with rfl | ⟨k, rfl, rfl⟩ | ⟨k, c, rfl, rfl⟩ | ⟨k, rfl, rfl⟩ |
    ⟨k, s, c, rfl, rfl, rfl | rfl⟩
  · simp [changed]
  · rfl
  · rfl
  · rfl
  · rfl
  · rfl

theorem proper_step {φ φ' : LPhase} {op : Op} (h : watchNext rid φ op = some φ')
    (hφ : φ.Proper) : φ'.Proper := by
  rcases watchNext_cases h with rfl | ⟨k, rfl, rfl⟩ | ⟨k, c, rfl, rfl⟩ | ⟨k, rfl, rfl⟩ |
    ⟨k, s, c, rfl, rfl, rfl | rfl⟩
  · exact hφ
  · trivial
  · rfl
  · trivial
  · rfl
  · rfl

theorem path_ended {k : String} {s : SubmissionStatus} {c : Option ErrorCode}
    (hs : s.isTerminal = true) : (LPhase.ended k s c).path ∈ lifecycles := by
  cases s with
  | rejected => simp [LPhase.path, lifecycles]
  | smtpAccepted => simp [LPhase.path, lifecycles]
  | smtpFailed => simp [LPhase.path, lifecycles]
  | received => cases hs
  | smtpSubmissionStarted => cases hs

theorem prefix_of_lifecycle {φ : LPhase} (hφ : φ.Proper) :
    ∃ path ∈ lifecycles, φ.path <+: path := by
  cases φ with
  | fresh => exact ⟨_, List.mem_cons_self, List.nil_prefix⟩
  | received k => exact ⟨_, List.mem_cons_self, ⟨[.rejected], rfl⟩⟩
  | started k =>
    exact ⟨[.received, .smtpSubmissionStarted, .smtpAccepted], by decide, ⟨[.smtpAccepted], rfl⟩⟩
  | ended k s c => exact ⟨_, path_ended hφ, List.prefix_refl _⟩

/-! ## Records that are held to the end -/

/-- The record is held and expires no earlier than `E`. -/
def Held (rid : RequestId) (E : DateTime) (s : Server ρ) : Prop :=
  ∃ r, s.world.find rid = some r ∧ E ≤ r.expiresAt

/-- Only a put brings a record in, and no operation changes its expiry. -/
theorem held_before {φ φ' : LPhase} {op : Op} {c : Choice} {w : World ρ}
    {r' : SubmissionStatusRecord} (hn : watchNext rid φ op = some φ') (hφ : φ ≠ .fresh)
    (h : (exec L op c w).2.find rid = some r') :
    ∃ r, w.find rid = some r ∧ r.expiresAt = r'.expiresAt := by
  rcases watchNext_acts hn with ⟨htarget, -⟩ | ⟨record, -, -, hfresh, -⟩ |
    ⟨keyId, domains, count, rfl, -, -⟩ | ⟨keyId, u, rfl, -⟩
  · rcases find_exec_of_target_ne (L := L) (c := c) (w := w) htarget with hnone | hsame
    · rw [hnone] at h
      cases h
    · exact ⟨r', hsame ▸ h, rfl⟩
  · exact absurd hfresh hφ
  · simp only [exec, find_setRecipientMetadata_self] at h
    obtain ⟨r, hr, rfl⟩ := Option.map_eq_some_iff.mp h
    exact ⟨r, hr, (SubmissionStatusRecord.expiresAt_withRecipientMetadata ..).symm⟩
  · simp only [exec, find_updateStatus_self] at h
    obtain ⟨r, hr, rfl⟩ := Option.map_eq_some_iff.mp h
    exact ⟨r, hr, (SubmissionStatusRecord.expiresAt_withStatus ..).symm⟩

theorem ne_fresh_step {φ φ' : LPhase} {op : Op} (h : watchNext rid φ op = some φ')
    (hφ : φ ≠ .fresh) : φ' ≠ .fresh := by
  rcases watchNext_cases h with rfl | ⟨k, rfl, rfl⟩ | ⟨k, c, rfl, rfl⟩ | ⟨k, rfl, rfl⟩ |
    ⟨k, s, c, rfl, rfl, -⟩ <;> simp_all

/-- A record that is held after a step was held before, unless the step put it. -/
theorem held_of_stepMoves {φ φ' : LPhase} {s s' : Server ρ} {e : Event}
    (h : StepMoves L rid E φ φ' s e s') (hheld : φ' ≠ .fresh → Held rid E s') (hφ : φ ≠ .fresh) :
    Held rid E s := by
  rcases h with ⟨rfl, hfind⟩ | ⟨op, c, -, hw, hn, -⟩
  · obtain ⟨r, hr, hE⟩ := hheld hφ
    exact ⟨r, hfind ▸ hr, hE⟩
  · obtain ⟨r', hr', hE⟩ := hheld (ne_fresh_step hn hφ)
    rw [hw] at hr'
    obtain ⟨r, hr, hexp⟩ := held_before hn hφ hr'
    exact ⟨r, hr, hexp ▸ hE⟩

/-- The status of a held record is that of the phase. -/
theorem statusOf_eq {φ : LPhase} {s : Server ρ} (hT : Tracks E φ (s.world.find rid))
    (hheld : φ ≠ .fresh → Held rid E s) : statusOf rid s = φ.status := by
  by_cases hφ : φ = .fresh
  · rw [statusOf, hT.fresh hφ, hφ]
    rfl
  · obtain ⟨r, hr, hE⟩ := hheld hφ
    rw [statusOf, hr]
    have hagrees := hT.agrees r hr hE
    cases φ with
    | fresh => exact absurd rfl hφ
    | received k => exact congrArg some hagrees.2
    | started k => exact congrArg some hagrees.2
    | ended k s c => exact congrArg some hagrees.2.1

/-! ## Runs -/

/-- If the record is held at the end, the run has extended the path of its
phase by the statuses the record took. -/
theorem run_history {evs : List Event} {s s' : Server ρ} {φ : LPhase}
    (hrun : s.run D L evs = some s') (hinv : Inv rid E φ s) (hφ : φ.Proper)
    (honce : occurrences rid s.threads + (evs.flatMap Event.ids).count rid ≤ 1)
    (hE : ∀ e ∈ evs, e.Before E) (hend : Held rid E s') :
    ∃ φ', Inv rid E φ' s' ∧ φ'.Proper ∧ φ'.path = φ.path ++ history D L rid s evs ∧
      (φ ≠ .fresh → Held rid E s) := by
  induction evs generalizing s φ with
  | nil =>
    cases hrun
    exact ⟨φ, hinv, hφ, (List.append_nil _).symm, fun _ => hend⟩
  | cons e es ih =>
    obtain ⟨s₁, hstep, hrest⟩ := Option.bind_eq_some_iff.mp hrun
    rw [List.flatMap_cons, List.count_append] at honce
    obtain ⟨φ₁, hinv₁, hmoves, hcount⟩ :=
      inv_step hstep hinv (by omega) (hE e List.mem_cons_self)
    have hφ₁ : φ₁.Proper := by
      rcases hmoves with ⟨rfl, -⟩ | ⟨op, c, -, -, hn, -⟩
      · exact hφ
      · exact proper_step hn hφ
    obtain ⟨φ', hinv', hφ', hpath, hheld₁⟩ :=
      ih hrest hinv₁ hφ₁ (by omega) fun e' he => hE e' (List.mem_cons_of_mem _ he)
    have hheld := held_of_stepMoves hmoves hheld₁
    refine ⟨φ', hinv', hφ', ?_, hheld⟩
    have hpath₁ : φ₁.path = φ.path ++ changed (statusOf rid s) (statusOf rid s₁) := by
      rw [statusOf_eq hinv.tracks hheld, statusOf_eq hinv₁.tracks hheld₁]
      rcases hmoves with ⟨rfl, -⟩ | ⟨op, c, -, -, hn, -⟩
      · simp [changed]
      · exact path_step hn
    rw [hpath, hpath₁, List.append_assoc, history, hstep]

/-! ## What the client is told -/

theorem ended_of_messageEnds {id : RequestId} {keyId : String} {result : MessageResult}
    {φ : LPhase} (h : MessageEnds id keyId result φ) :
    ∃ k s c, φ = .ended k s c ∧ ((result.status == "accepted") = true ↔ s = .smtpAccepted) := by
  obtain ⟨s, c, rfl, -, ⟨hresult, rfl⟩ | ⟨hresult, hs⟩⟩ := h
  · exact ⟨_, _, _, rfl, by simp [hresult]⟩
  · refine ⟨_, _, _, rfl, ?_⟩
    rcases hs with rfl | rfl <;> simp [hresult]

/-- A result is told when the record has ended, and accordingly. -/
theorem told_ended {t : Thread} {φ : LPhase} {told : Bool} (hok : t.Ok E φ)
    (htold : t.toldAccepted = some told) :
    ∃ k s c, φ = .ended k s c ∧ (told = true ↔ s = .smtpAccepted) := by
  cases t with
  | handling rid auth p =>
    cases p with
    | ret res =>
      obtain ⟨s, c, rfl, hsettles⟩ := hok
      obtain rfl := Option.some.inj htold
      refine ⟨auth.keyId, s, c, rfl, ?_⟩
      cases res with
      | ok response =>
        obtain ⟨rfl, rfl⟩ := hsettles
        exact ⟨fun _ => rfl, fun _ => rfl⟩
      | error err =>
        obtain ⟨-, hs, -⟩ := hsettles
        have hstatus : (sendHttpStatus (.error err) == 202) = false := by
          have := err.source.httpStatus_is_error.1
          simp only [sendHttpStatus, beq_eq_false_iff_ne]
          omega
        rw [hstatus]
        rcases hs with rfl | rfl <;> simp
    | _ => cases htold
  | message b m =>
    obtain ⟨result, hresult, htold⟩ := Option.map_eq_some_iff.mp htold
    subst htold
    cases m with
    | rejected item result' =>
      obtain rfl := Option.some.inj hresult
      exact ended_of_messageEnds hok
    | submitted q result' =>
      obtain rfl := Option.some.inj hresult
      exact ended_of_messageEnds hok.2
    | _ => cases hresult
  | _ => cases htold

/-- The results of a bulk answer are those of the messages. -/
theorem mem_answerBulk {s : Server ρ} {b : Bulk} {response : BulkResponse}
    (h : s.answerBulk b = some response) {result : MessageResult}
    (hresult : result ∈ response.results) :
    ∃ b' m, Thread.message b' m ∈ s.threads ∧ m.result? = some result := by
  simp only [Server.answerBulk] at h
  split at h
  · cases h
    rw [bulkResponse, List.mem_insertionSort, List.mem_append, List.mem_filterMap,
      List.mem_filterMap] at hresult
    have hthread : ∀ m ∈ Server.messagesOf s.threads b.number,
        ∃ b', Thread.message b' m ∈ s.threads := by
      intro m hm
      obtain ⟨t, ht, hm⟩ := List.mem_filterMap.mp hm
      cases t with
      | message b' m' =>
        simp only [Thread.messageOf] at hm
        split at hm
        · cases hm
          exact ⟨b', ht⟩
        · cases hm
      | _ => cases hm
    rcases hresult with ⟨m, hm, hr⟩ | ⟨m, hm, hr⟩
    · obtain ⟨b', ht⟩ := hthread m hm
      exact ⟨b', m, ht, by rw [MessageState.result?, hr, Option.some_or]⟩
    · obtain ⟨b', ht⟩ := hthread m hm
      refine ⟨b', m, ht, ?_⟩
      cases m with
      | submitted q result' => exact hr
      | _ => cases hr
  · cases h

/-- The result of a message names its id. -/
theorem result_requestId {b : Bulk} {m : MessageState} {φ : LPhase} {result : MessageResult}
    (hok : m.Ok b φ) (h : m.result? = some result) : result.requestId = m.id.asStr := by
  cases m with
  | rejected item result' =>
    obtain rfl := Option.some.inj h
    obtain ⟨-, -, -, hid, -⟩ := hok
    exact hid
  | submitted q result' =>
    obtain rfl := Option.some.inj h
    obtain ⟨-, -, -, -, hid, -⟩ := hok
    exact hid
  | _ => cases h

end SubmissionLifecycle

open SubmissionLifecycle in
/-- Under any schedule, the record of an id that is drawn once, if it is held
till the end and not expired, takes the statuses of a lifecycle; when the client
is told the outcome the lifecycle is complete, and it is told that the message
is accepted exactly if the lifecycle ends so. -/
theorem submission_lifecycle {D : Deps} {L : Limiter ρ} {w : World ρ} {s : Server ρ}
    {evs : List Event} {rid : RequestId} {E : DateTime} {r : SubmissionStatusRecord}
    (hfresh : w.find rid = none) (honce : (evs.flatMap Event.ids).count rid ≤ 1)
    (hrun : Server.run D L ⟨w, []⟩ evs = some s) (hclock : ∀ e ∈ evs, e.Before E)
    (hheld : s.world.find rid = some r) (hlive : E ≤ r.expiresAt) :
    (∃ path ∈ lifecycles, history D L rid ⟨w, []⟩ evs <+: path) ∧
      (∀ t ∈ s.threads, t.id = some rid → ∀ told, t.toldAccepted = some told →
        history D L rid ⟨w, []⟩ evs ∈ lifecycles ∧ r.status.isTerminal = true ∧
          (told = true ↔ r.status = .smtpAccepted)) ∧
      ∀ b response, s.answerBulk b = some response →
        ∀ result ∈ response.results, result.requestId = rid.asStr →
          (result.status = "accepted" ↔ r.status = .smtpAccepted) := by
  obtain ⟨φ, hinv, hφ, hpath, -⟩ := run_history hrun (inv_start hfresh) trivial
    (by simpa [occurrences] using honce) hclock ⟨r, hheld, hlive⟩
  have hhistory : history D L rid ⟨w, []⟩ evs = φ.path := hpath.symm
  have htold : ∀ t ∈ s.threads, t.id = some rid → ∀ told, t.toldAccepted = some told →
      φ.path ∈ lifecycles ∧ r.status.isTerminal = true ∧
        (told = true ↔ r.status = .smtpAccepted) := by
    intro t ht hid told htold
    obtain ⟨k, status, code, rfl, htoldiff⟩ := told_ended (hinv.owner t ht hid) htold
    obtain ⟨-, hstatus, -⟩ := hinv.tracks.agrees r hheld hlive
    rw [hstatus]
    exact ⟨path_ended hφ, hφ, htoldiff⟩
  rw [hhistory]
  refine ⟨prefix_of_lifecycle hφ, htold, fun b response hanswer result hresult hrid => ?_⟩
  obtain ⟨b', m, ht, hm⟩ := mem_answerBulk hanswer hresult
  obtain ⟨φ', hok⟩ := hinv.threads _ ht
  have hid : m.id = rid :=
    RequestId.asStr_injective ((result_requestId hok hm).symm.trans hrid)
  have htoldm := htold _ ht (congrArg some hid) _ (congrArg (Option.map _) hm)
  simpa using htoldm.2.2

/-! A request that runs to its end. -/

/-- `X-API-Key` with the secret of the sample key, and JSON. -/
def sampleParts : Parts where
  headers := ("x-api-key",
    sampleKey.secret.expose.toList.map fun c => UInt8.ofNat c.toNat) :: jsonHeaders
  peer := none

/-- The request and its body arrive, and the handler performs its ten operations. -/
def sampleEvents : List Event :=
  .post sampleId sampleParts ::
    List.replicate 11 (.turn 0 { sampleChoice with body := some [] })

theorem submission_lifecycle_sample :
    ∃ s, Server.run jsonDeps .admitAll ⟨sampleWorld, []⟩ sampleEvents = some s ∧
      s.threads.map Thread.toldAccepted = [some true] ∧
      history jsonDeps .admitAll sampleId ⟨sampleWorld, []⟩ sampleEvents ∈ lifecycles := by
  have hclock : ∀ e ∈ sampleEvents, e.Before 0 := by
    intro e he
    rcases List.mem_cons.mp he with rfl | he
    · trivial
    · rw [List.eq_of_mem_replicate he]
      exact le_refl (0 : Int)
  refine ⟨_, rfl, rfl, ?_⟩
  exact ((submission_lifecycle rfl (by decide) rfl hclock rfl (by decide)).2.1 _
    (List.mem_singleton_self _) rfl true rfl).1

end HttpSmtpRele
