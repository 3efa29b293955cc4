import HttpSmtpRele.Attempt

/-!
# What is told and what was handed over

The server's threads and the attempts they carry out (`submissions`).  A log of
what every thread hands to a transport shows that no message is handed over
twice, and that the answer of a handler says what it saw happen: `202` that a
transport took the message, `502` that one had it and no acceptance came back
(after an elapsed timeout the message may still be delivered), any other answer
that no transport was ever given it.  The `408` of `TimeoutLayer` says nothing of
the message: of a single send or of a bulk request, any number of whose messages
may have been handed over by then.
-/

namespace HttpSmtpRele

open Prog Api Attempt

variable {ρ : Type} {D : Deps} {L : Limiter ρ}

/-- The operations of lookups and of the cleanup task. -/
def Op.isMaintenance : Op → Bool
  | now => true
  | getRead _ _ => true
  | getExpire _ => true
  | expireOldRecords _ => true
  | _ => false

def maintenanceNext (u : Unit) (op : Op) : Option Unit :=
  if op.isMaintenance then some u else none

def MessageState.Attempts (D : Deps) (b : Bulk) : MessageState → Attempt → Prop
  | waiting _, s => s = under b.auth b.cfg .unchecked
  | preparing _ p, s => Obeys (Next D) (Prepared D b.auth b.cfg) s p
  | rejected _ result, s => s.stage.told = messageTold result
  | prepared q, s => s = under b.auth b.cfg .admitted ∧ q.keyId = b.auth.keyId ∧
      Authorised D b.cfg b.auth q.message
  | submitting _ p, s => Obeys (Next D) (fun result s => s.stage.told = messageTold result) s p
  | submitted _ result, s => s.stage.told = messageTold result

/-- The attempt the thread carries out, if it is a submission. -/
def Thread.Attempts (D : Deps) : Thread → Option Attempt → Prop
  | unauthenticated _ _, φ => φ = none
  | receiving _ auth _, φ => φ = some ⟨auth, none, .unchecked⟩
  | handling _ auth p, φ => ∃ s, φ = some s ∧ s.auth = auth ∧
      Obeys (Next D) (fun res s => s.stage.told = sendTold res) s p
  | cutOff _ auth answer, φ => ∃ s, φ = some s ∧ s.auth = auth ∧
      ∀ rejection, answer = .bodyRejected rejection → s.stage = .unchecked
  | bulkRefused _ _, φ => φ = none
  | bulkCutOff _, φ => φ = none
  | message b m, φ => ∃ s, φ = some s ∧ s.auth = b.auth ∧ m.Attempts D b s
  | lookup p, φ => φ = none ∧ Follows maintenanceNext (fun _ _ => True) () p
  | sweep p, φ => φ = none ∧ Follows maintenanceNext (fun _ _ => True) () p

def attemptNext (D : Deps) : Option Attempt → (op : Op) → op.Res → Option Attempt → Prop
  | some s, op, r, φ' => ∃ s', φ' = some s' ∧ s.Next D op r s'
  | none, op, _, φ' => op.isMaintenance = true ∧ φ' = none

/-- An attempt starts unchecked. -/
structure Attempt.Starts (config : AppConfig) (s : Attempt) : Prop where
  stage : s.stage = .unchecked
  cfg : ∀ cfg, s.cfg = some cfg → cfg = config

/-- The sessions of the submissions. -/
def submissions (D : Deps) : Sessions (Option Attempt) where
  Next := attemptNext D
  Ok := Thread.Attempts D
  Start config φ := ∀ s, φ = some s → s.Starts config

namespace Delivery

/-! ## The threads keep to their attempts -/

theorem follows_cleanup : Follows maintenanceNext (fun _ _ => True) () cleanup := by
  apply Follows.step (ψ := ()) rfl
  intro now
  exact Follows.step (ψ := ()) rfl fun _ => trivial

theorem follows_lookup (requestId : RequestId) (keyId : String) :
    Follows maintenanceNext (fun _ _ => True) () (getSubmissionStatus requestId keyId) := by
  apply Follows.step (ψ := ()) rfl
  intro found
  cases found with
  | absent => trivial
  | live r => trivial
  | expired => exact Follows.step (ψ := ()) rfl fun _ => trivial

theorem arrives {s : Server ρ} {e : Event} {t : Thread} (ht : t ∈ s.arrivals D e) :
    ∃ φ, (submissions D).Start s.world.app.config φ ∧ t.Attempts D φ := by
  have hnone : (submissions D).Start s.world.app.config none := by
    intro _ h
    cases h
  cases e with
  | post rid parts =>
    simp only [Server.arrivals] at ht
    split at ht
    · obtain rfl := List.mem_singleton.mp ht
      exact ⟨none, hnone, rfl⟩
    · rename_i auth hauth
      obtain rfl := List.mem_singleton.mp ht
      refine ⟨some ⟨auth, none, .unchecked⟩, ?_, rfl⟩
      intro s' hs'
      cases hs'
      refine ⟨rfl, ?_⟩
      intro _ h
      cases h
  | postBulk bulkId auth messages =>
    simp only [Server.arrivals] at ht
    split at ht
    · obtain rfl := List.mem_singleton.mp ht
      exact ⟨none, hnone, rfl⟩
    · obtain ⟨item, -, rfl⟩ := List.mem_map.mp ht
      refine ⟨some (under auth s.world.app.config .unchecked), ?_, _, rfl, rfl, rfl⟩
      intro s' hs'
      cases hs'
      exact ⟨rfl, fun _ h => (Option.some.inj h).symm⟩
  | lookup id keyId =>
    obtain rfl := List.mem_singleton.mp ht
    exact ⟨none, hnone, rfl, follows_lookup id keyId⟩
  | sweep =>
    obtain rfl := List.mem_singleton.mp ht
    exact ⟨none, hnone, rfl, follows_cleanup⟩
  | timeoutBulk i =>
    obtain ⟨number, rfl⟩ := Server.mem_arrivals_timeoutBulk ht
    exact ⟨none, hnone, rfl⟩
  | _ => cases ht

theorem passes {t t' : Thread} {φ : Option Attempt} (hok : t.Attempts D φ)
    (h : t.Passes D t') : t'.Attempts D φ := by
  cases h with
  | bodyRejected rid auth headers rejection =>
    obtain rfl : φ = some ⟨auth, none, .unchecked⟩ := hok
    exact ⟨_, rfl, rfl, fun _ _ => rfl⟩
  | received rid auth headers body =>
    obtain rfl : φ = some ⟨auth, none, .unchecked⟩ := hok
    exact ⟨_, rfl, rfl, obeys_sendMail⟩
  | prepares b item =>
    obtain ⟨s, rfl, hauth, rfl⟩ := hok
    exact ⟨_, rfl, hauth, obeys_phase1Prepare⟩
  | rejected b item result => exact hok
  | prepared b item q => exact hok
  | submits b q =>
    obtain ⟨s, rfl, hauth, rfl, hkey, hmessage⟩ := hok
    exact ⟨_, rfl, hauth, obeys_phase2Submit hkey hmessage⟩
  | submitted b q result => exact hok

/-- An operation of maintenance leaves the thread one. -/
theorem performs_maintenance {op : Op} (h : ∃ u, maintenanceNext () op = some u) :
    attemptNext D none op = fun _ φ' => φ' = none := by
  obtain ⟨u, hmove⟩ := h
  have hmaint : op.isMaintenance = true := by
    by_contra hop
    simp [maintenanceNext, hop] at hmove
  funext r φ'
  simp [attemptNext, hmaint]

theorem performs {t : Thread} {φ : Option Attempt} {op : Op} {f : op.Res → Thread}
    (hok : t.Attempts D φ) (h : t.Performs op f) (r : op.Res) :
    ∃ φ', attemptNext D φ op r φ' ∧ (f r).Attempts D φ' := by
  cases h with
  | handling rid auth op k =>
    obtain ⟨s, rfl, hauth, hp⟩ := hok
    obtain ⟨s', hnext, hp'⟩ := hp r
    exact ⟨some s', ⟨s', rfl, hnext⟩, s', rfl, (auth_next hnext).trans hauth, hp'⟩
  | preparing b item op k =>
    obtain ⟨s, rfl, hauth, hp⟩ := hok
    obtain ⟨s', hnext, hp'⟩ := hp r
    exact ⟨some s', ⟨s', rfl, hnext⟩, s', rfl, (auth_next hnext).trans hauth, hp'⟩
  | submitting b q op k =>
    obtain ⟨s, rfl, hauth, hp⟩ := hok
    obtain ⟨s', hnext, hp'⟩ := hp r
    exact ⟨some s', ⟨s', rfl, hnext⟩, s', rfl, (auth_next hnext).trans hauth, hp'⟩
  | lookup op k =>
    obtain ⟨rfl, u, hmove, hk⟩ := hok
    exact ⟨none, by rw [performs_maintenance ⟨u, hmove⟩], rfl, hk r⟩
  | sweep op k =>
    obtain ⟨rfl, u, hmove, hk⟩ := hok
    exact ⟨none, by rw [performs_maintenance ⟨u, hmove⟩], rfl, hk r⟩

theorem timesOut {t t' : Thread} {φ : Option Attempt} (hok : t.Attempts D φ)
    (h : t.timeout = some t') : t'.Attempts D φ := by
  cases t with
  | receiving rid auth headers =>
    cases h
    obtain rfl : φ = some ⟨auth, none, .unchecked⟩ := hok
    refine ⟨_, rfl, rfl, ?_⟩
    intro _ he
    cases he
  | handling rid auth p =>
    obtain ⟨s, rfl, hauth, -⟩ := hok
    cases p with
    | step op k =>
      simp only [Thread.timeout] at h
      split at h
      · cases h
        refine ⟨s, rfl, hauth, ?_⟩
        intro _ he
        cases he
      · cases h
    | _ => cases h
  | _ => cases h

theorem lawful : (submissions D).Lawful D fun (_ : Server ρ) _ => True where
  arrives _ ht := arrives ht
  passes := passes
  performs := performs
  timesOut := timesOut

end Delivery

/-! ## The log of what is handed over -/

def Thread.auth? : Thread → Option AuthContext
  | receiving _ auth _ => some auth
  | handling _ auth _ => some auth
  | cutOff _ auth _ => some auth
  | message b _ => some b.auth
  | _ => none

/-- What the operation hands to a transport. -/
def Op.handed? : Op → Option Handed
  | smtpSend message _ => some (.smtp message)
  | pipeSend message command _ => some (.pipe command message)
  | _ => none

/-- Whether the transport answers that it has taken the message. An elapsed timeout and
a reply that is lost are no such answers, whatever becomes of the message. -/
def Choice.sent (c : Choice) : Op → Bool
  | .smtpSend _ _ => c.smtp == .sent
  | .pipeSend _ _ _ => c.pipe == .sent
  | _ => false

/-- A message that a thread has handed to a transport. -/
structure HandOff where
  thread : Nat
  auth : AuthContext
  handed : Handed
  /-- the transport has answered that it took it -/
  sent : Bool

/-- What thread `i` hands over with its next operation. -/
def Thread.handOff (i : Nat) (t : Thread) (c : Choice) : List HandOff :=
  match t.auth?, t.nextOp with
  | some auth, some op => (op.handed?.map fun h => ⟨i, auth, h, c.sent op⟩).toList
  | _, _ => []

namespace Server

def handOff (s : Server ρ) : Event → List HandOff
  | .turn i c =>
    match s.threads[i]? with
    | some t => t.handOff i c
    | none => []
  | _ => []

/-- All that is handed over in a run, in order. -/
def handOffs (D : Deps) (L : Limiter ρ) (s : Server ρ) (es : List Event) : List HandOff :=
  s.observe D L handOff es

end Server

/-- What thread `i` has handed over, as its attempt has it. -/
def Attempt.entries (i : Nat) (s : Attempt) : List HandOff :=
  match s.stage with
  | .handed h sent => [⟨i, s.auth, h, sent⟩]
  | _ => []

/-- What the answer to the thread's request says of the message, once there is one; that
of a bulk request has an entry for each of its messages. -/
def Server.told? (s : Server ρ) : Thread → Option Told
  | .unauthenticated _ _ => some .refused
  | .handling _ _ (.ret res) => some (sendTold res)
  | .cutOff _ _ (.bodyRejected _) => some .refused
  | .bulkRefused _ _ => some .refused
  | .message b m => (s.answerBulk b).bind fun _ => m.result?.map messageTold
  | _ => none

/-- What a transport was given, and whether it answered that it took it. -/
def Told.handOffs : Told → List Bool
  | accepted => [true]
  | failed => [false]
  | refused => []

namespace Delivery

theorem handed_exec (L : Limiter ρ) (op : Op) (c : Choice) (w : World ρ) :
    (exec L op c w).2.handed = op.handed?.toList ++ w.handed := by
  cases op <;> rfl

theorem entries_of_refused {s : Attempt} (h : s.stage.told = .refused) (i : Nat) :
    s.entries i = [] := by
  unfold entries
  split
  · rename_i hd sent hstage
    rw [hstage] at h
    cases sent <;> cases h
  · rfl

/-- An operation adds to the entries of an attempt what it hands over. -/
theorem entries_next {s s' : Attempt} {op : Op} {c : Choice} {w : World ρ}
    (h : s.Next D op (exec L op c w).1 s') (i : Nat) :
    s'.entries i =
      s.entries i ++ (op.handed?.map fun h => (⟨i, s.auth, h, c.sent op⟩ : HandOff)).toList := by
  have hkept : s'.auth = s.auth → s'.stage = s.stage → op.handed? = none →
      s'.entries i = s.entries i ++
        (op.handed?.map fun h => (⟨i, s.auth, h, c.sent op⟩ : HandOff)).toList := by
    intro hauth hstage hop
    rw [hop, entries, entries, hauth, hstage]
    exact (List.append_nil _).symm
  cases op with
  | config =>
    rw [h.2]
    exact (List.append_nil _).symm
  | now =>
    rw [show s' = s from h]
    exact (List.append_nil _).symm
  | putReceived record =>
    rw [h.2]
    exact (List.append_nil _).symm
  | setRecipientMetadata id keyId domains count =>
    rw [h.2]
    exact (List.append_nil _).symm
  | updateStatus id keyId update =>
    obtain ⟨-, stage', hreport, rfl⟩ := h
    refine Eq.trans ?_ (List.append_nil _).symm
    rcases Stage.report_cases hreport with ⟨-, htold, rfl⟩ | ⟨-, hstage, rfl⟩ | ⟨-, -, rfl⟩ |
      ⟨-, -, rfl⟩
    · rw [entries_of_refused htold i]
      rfl
    · unfold entries
      rw [hstage]
    · rfl
    · rfl
  | getRead id keyId => cases h
  | getExpire id => cases h
  | expireOldRecords now => cases h
  | checkGlobal =>
    obtain ⟨hstage, rfl⟩ := h
    simp only [entries, hstage]
    cases (exec L .checkGlobal c w).1.isOk <;> rfl
  | checkIp ip =>
    obtain ⟨hstage, -, rfl⟩ := h
    simp only [entries, hstage]
    cases (exec L (.checkIp ip) c w).1.isOk <;> rfl
  | checkKey keyId perMin burst =>
    obtain ⟨hstage, -, -, -, rfl⟩ := h
    simp only [entries, hstage]
    cases (exec L (.checkKey keyId perMin burst) c w).1.isOk <;> rfl
  | smtpSend message timeout =>
    obtain ⟨⟨hstage, -⟩, rfl⟩ := h
    simp [entries, hstage, Op.handed?, Choice.sent, exec]
  | pipeSend message command timeout =>
    obtain ⟨⟨hstage, -⟩, rfl⟩ := h
    simp [entries, hstage, Op.handed?, Choice.sent, exec]

/-- The log is what the attempts have handed over, and what the world has seen. -/
structure Logged (w₀ : World ρ) (s : Server ρ) (φs : List (Option Attempt))
    (log : List HandOff) : Prop where
  handed : s.world.handed = (log.map HandOff.handed).reverse ++ w₀.handed
  entries : ∀ i φ, φs[i]? = some φ →
    log.filter (fun h => h.thread == i) = (φ.map (Attempt.entries i)).getD []
  inRange : ∀ h ∈ log, h.thread < φs.length

theorem attempts_auth {t : Thread} {s : Attempt} (h : t.Attempts D (some s)) :
    t.auth? = some s.auth := by
  cases t with
  | unauthenticated rid rejection => cases h
  | receiving rid auth headers =>
    cases h
    rfl
  | handling rid auth p =>
    obtain ⟨s', hs', hauth, -⟩ := h
    cases hs'
    rw [hauth]
    rfl
  | cutOff rid auth answer =>
    obtain ⟨s', hs', hauth, -⟩ := h
    cases hs'
    rw [hauth]
    rfl
  | bulkRefused bulkId e => cases h
  | bulkCutOff number => cases h
  | message b m =>
    obtain ⟨s', hs', hauth, -⟩ := h
    cases hs'
    rw [hauth]
    rfl
  | lookup p => cases h.1
  | sweep p => cases h.1

theorem mem_handOff {t : Thread} {i : Nat} {c : Choice} {h : HandOff}
    (hmem : h ∈ t.handOff i c) :
    ∃ op, t.nextOp = some op ∧ op.handed? = some h.handed ∧ t.auth? = some h.auth ∧
      h.thread = i := by
  unfold Thread.handOff at hmem
  split at hmem
  · rename_i auth op hauth hop
    obtain ⟨hd, hhanded, rfl⟩ := Option.map_eq_some_iff.mp (Option.mem_toList.mp hmem)
    exact ⟨op, hop, hhanded, hauth, rfl⟩
  · cases hmem

theorem thread_of_mem_handOff {t : Thread} {i : Nat} {c : Choice} {h : HandOff}
    (hmem : h ∈ t.handOff i c) : h.thread = i := by
  obtain ⟨_, -, -, -, hthread⟩ := mem_handOff hmem
  exact hthread

theorem handed_of_maintenance {op : Op} (h : op.isMaintenance = true) : op.handed? = none := by
  cases op <;> first | rfl | cases h

/-- What a submission hands over with an operation. -/
theorem handOff_attempt {t : Thread} {s : Attempt} {op : Op} (hok : t.Attempts D (some s))
    (hop : t.nextOp = some op) (i : Nat) (c : Choice) :
    t.handOff i c =
      (op.handed?.map fun h => (⟨i, s.auth, h, c.sent op⟩ : HandOff)).toList := by
  unfold Thread.handOff
  rw [attempts_auth hok, hop]

theorem handOff_maintenance {t : Thread} {op : Op} (hop : t.nextOp = some op)
    (hmaint : op.isMaintenance = true) (i : Nat) (c : Choice) : t.handOff i c = [] := by
  unfold Thread.handOff
  rw [hop]
  cases t.auth? with
  | none => rfl
  | some auth => simp [handed_of_maintenance hmaint]

/-- What a thread hands over with an operation is what its attempt gains. -/
theorem handOff_performs {t : Thread} {φ φ' : Option Attempt} {op : Op} {c : Choice}
    {w : World ρ} (hok : t.Attempts D φ) (hop : t.nextOp = some op)
    (hmove : attemptNext D φ op (exec L op c w).1 φ') (i : Nat) :
    (φ'.map (Attempt.entries i)).getD [] = (φ.map (Attempt.entries i)).getD [] ++ t.handOff i c ∧
      (t.handOff i c).map HandOff.handed = op.handed?.toList := by
  cases φ with
  | none =>
    obtain ⟨hmaint, rfl⟩ := hmove
    rw [handOff_maintenance hop hmaint, handed_of_maintenance hmaint]
    exact ⟨rfl, rfl⟩
  | some s =>
    obtain ⟨s', rfl, hnext⟩ := hmove
    rw [handOff_attempt hok hop]
    refine ⟨entries_next hnext i, ?_⟩
    cases op.handed? <;> rfl

theorem handOff_of_not_turn {s : Server ρ} {e : Event} (h : ∀ i c, e ≠ .turn i c) :
    s.handOff e = [] := by
  cases e with
  | turn i c => exact absurd rfl (h i c)
  | _ => rfl

theorem handOff_turn {s : Server ρ} {i : Nat} {t : Thread} (ht : s.threads[i]? = some t)
    (c : Choice) : s.handOff (.turn i c) = t.handOff i c := by
  simp [Server.handOff, ht]

theorem handOff_idles {s : Server ρ} {i : Nat} {t t' : Thread} {e : Event}
    (ht : s.threads[i]? = some t) (h : Idles D i t t' e) : s.handOff e = [] := by
  cases h with
  | timesOut htimeout => rfl
  | passes hpasses =>
    rw [handOff_turn ht]
    unfold Thread.handOff
    rw [hpasses.nextOp]
    cases t.auth? <;> rfl

variable {w₀ : World ρ}

theorem logged_step {s s' : Server ρ} {e : Event} {φs φs' : List (Option Attempt)}
    {log : List HandOff} (hmove : SessionStep (submissions D) D L s φs e s' φs')
    (hlog : Logged w₀ s φs log) : Logged w₀ s' φs' (log ++ s.handOff e) := by
  cases hmove with
  | performs hthread hstage hok hperforms hnext hok' =>
    rename_i i c t op f φ φ'
    obtain ⟨hentries, hhanded⟩ := handOff_performs hok hperforms.nextOp hnext i
    rw [handOff_turn hthread]
    refine ⟨?_, ?_, ?_⟩
    · rw [handed_exec, hlog.handed, List.map_append, hhanded, List.reverse_append]
      cases op.handed? <;> rfl
    · intro j ψ hψ
      rw [List.filter_append]
      by_cases hij : i = j
      · subst hij
        have hlt : i < φs.length := (List.getElem?_eq_some_iff.mp hstage).1
        rw [List.getElem?_set_self hlt] at hψ
        obtain rfl := Option.some.inj hψ
        rw [hlog.entries i φ hstage, List.filter_eq_self.mpr, hentries]
        intro h hh
        simp [thread_of_mem_handOff hh]
      · rw [List.getElem?_set_ne hij] at hψ
        rw [hlog.entries j ψ hψ, List.filter_eq_nil_iff.mpr, List.append_nil]
        intro h hh
        simp [thread_of_mem_handOff hh, hij]
    · intro h hh
      rw [List.length_set]
      rcases List.mem_append.mp hh with hh | hh
      · exact hlog.inRange h hh
      · rw [thread_of_mem_handOff hh]
        exact (List.getElem?_eq_some_iff.mp hstage).1
  | idles hthread hstage hidles hok hok' =>
    rw [handOff_idles hthread hidles, List.append_nil]
    exact ⟨hlog.handed, hlog.entries, hlog.inRange⟩
  | arrives hevent hstart hok' =>
    rename_i new
    rw [handOff_of_not_turn hevent, List.append_nil]
    refine ⟨hlog.handed, ?_, ?_⟩
    · intro i φ hφ
      by_cases hi : i < φs.length
      · rw [List.getElem?_append_left hi] at hφ
        exact hlog.entries i φ hφ
      · -- a thread that has just come has handed nothing over
        rw [List.getElem?_append_right (Nat.le_of_not_lt hi)] at hφ
        have hempty : log.filter (fun h => h.thread == i) = [] := by
          rw [List.filter_eq_nil_iff]
          intro h hh
          have := hlog.inRange h hh
          simp only [beq_iff_eq]
          omega
        rw [hempty]
        cases φ with
        | none => rfl
        | some s' =>
          have hstarts := hstart _ (List.mem_of_getElem? hφ) s' rfl
          simp [entries, hstarts.stage]
    · intro h hh
      have := hlog.inRange h hh
      rw [List.length_append]
      omega
  | reloads config =>
    rw [show s.handOff (.reload config) = [] from rfl, List.append_nil]
    exact ⟨hlog.handed, hlog.entries, hlog.inRange⟩

theorem logged_start (w₀ : World ρ) : Logged w₀ ⟨w₀, []⟩ [] [] :=
  ⟨rfl, fun i φ h => by simp at h, fun _ h => (List.not_mem_nil h).elim⟩

/-- A run from no threads keeps the log. -/
theorem logged_run {es : List Event} {s : Server ρ}
    (hrun : Server.run D L ⟨w₀, []⟩ es = some s) :
    ∃ φs, List.Forall₂ (Thread.Attempts D) s.threads φs ∧
      Logged w₀ s φs (Server.handOffs D L ⟨w₀, []⟩ es) := by
  have hlegal : Server.EachStep D L (fun _ _ => True) ⟨w₀, []⟩ es :=
    Server.eachStep_of_forall (fun _ _ => trivial) _ _
  obtain ⟨φs, hok, hlog⟩ := lawful.run (f := Server.handOff) (I := Logged w₀)
    (fun _ _ hmove hlog => logged_step hmove hlog) .nil (logged_start w₀) hlegal hrun
  rw [List.nil_append] at hlog
  exact ⟨φs, hok, hlog⟩

/-- An attempt has handed over what the client is told. -/
theorem told_entries {s : Server ρ} {t : Thread} {φ : Option Attempt} (hok : t.Attempts D φ)
    (i : Nat) {told : Told} (htold : s.told? t = some told) :
    ((φ.map (Attempt.entries i)).getD []).map HandOff.sent = told.handOffs := by
  have hstage : ∀ s : Attempt, s.stage.told = told →
      (s.entries i).map HandOff.sent = told.handOffs := by
    rintro s rfl
    unfold entries
    cases hs : s.stage with
    | handed h sent => cases sent <;> rfl
    | _ => rfl
  cases t with
  | unauthenticated rid rejection =>
    obtain rfl : φ = none := hok
    cases htold
    rfl
  | handling rid auth p =>
    obtain ⟨s, rfl, -, hp⟩ := hok
    cases p with
    | ret res =>
      cases htold
      exact hstage s hp
    | _ => cases htold
  | cutOff rid auth answer =>
    obtain ⟨s, rfl, -, hrejected⟩ := hok
    cases answer with
    | bodyRejected rejection =>
      cases htold
      apply hstage s
      rw [hrejected rejection rfl]
      rfl
    | requestTimeout => cases htold
  | bulkRefused bulkId e =>
    obtain rfl : φ = none := hok
    cases htold
    rfl
  | bulkCutOff number => cases htold
  | message b m =>
    obtain ⟨s, rfl, -, hm⟩ := hok
    obtain ⟨response, -, hresult⟩ := Option.bind_eq_some_iff.mp htold
    cases m with
    | rejected item result =>
      cases hresult
      exact hstage s hm
    | submitted q result =>
      cases hresult
      exact hstage s hm
    | _ => cases hresult
  | receiving rid auth headers => cases htold
  | lookup p => cases htold
  | sweep p => cases htold

theorem length_entries (i : Nat) (φ : Option Attempt) :
    ((φ.map (Attempt.entries i)).getD []).length ≤ 1 := by
  cases φ with
  | none => exact Nat.zero_le 1
  | some s =>
    show (s.entries i).length ≤ 1
    unfold entries
    split <;> simp

end Delivery

open Delivery in
/-- In every run: what reaches the transports is what the threads hand over, no
thread hands over more than one message, the answer to its request says whether it
has, and whether the transport answered that it took it, and the answer to a bulk
request has the results of its messages. -/
theorem answers_match_deliveries {w : World ρ} {es : List Event} {s : Server ρ}
    (hrun : Server.run D L ⟨w, []⟩ es = some s) :
    s.world.handed =
        ((Server.handOffs D L ⟨w, []⟩ es).map HandOff.handed).reverse ++ w.handed ∧
      (∀ i t, s.threads[i]? = some t →
        ((Server.handOffs D L ⟨w, []⟩ es).filter fun h => h.thread == i).length ≤ 1 ∧
        ∀ told, s.told? t = some told →
          ((Server.handOffs D L ⟨w, []⟩ es).filter fun h => h.thread == i).map HandOff.sent =
            told.handOffs) ∧
      ∀ b response, s.answerBulk b = some response →
        response.results.Perm ((Server.messagesOf s.threads b.number).filterMap
          MessageState.result?) := by
  obtain ⟨φs, hok, hlog⟩ := logged_run hrun
  refine ⟨hlog.handed, fun i t ht => ?_, fun b response => Server.answerBulk_results⟩
  obtain ⟨φ, hφ, htφ⟩ := Sessions.forall₂_getElem? hok ht
  have hfilter := hlog.entries i φ hφ
  refine ⟨?_, fun told htold => ?_⟩
  · exact (congrArg List.length hfilter).trans_le (length_entries i φ)
  · exact (congrArg _ hfilter).trans (told_entries htφ i htold)

theorem answers_match_deliveries_sample :
    ∃ s, Server.run jsonDeps .admitAll ⟨sampleWorld, []⟩ sampleEvents = some s ∧
      s.threads.map s.told? = [some .accepted] ∧
      s.world.handed.length = 1 ∧
      (Server.handOffs jsonDeps .admitAll ⟨sampleWorld, []⟩ sampleEvents).map
        (fun h => (h.thread, h.sent)) = [(0, true)] ∧
      ((Server.handOffs jsonDeps .admitAll ⟨sampleWorld, []⟩ sampleEvents).filter
        fun h => h.thread == 0).map HandOff.sent = Told.accepted.handOffs := by
  refine ⟨_, rfl, rfl, rfl, rfl, ?_⟩
  exact ((answers_match_deliveries rfl).2.1 0 _ rfl).2 .accepted rfl

end HttpSmtpRele
