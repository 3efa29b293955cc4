import HttpSmtpRele.Delivery

/-!
# What a lookup tells is true

`lives` follows the record that a thread writes, `submissions` the message that
it hands over; a thread does both, and what the one says holds of the other
(`Stage.shows`, `trueOf_next`).  For an id that is drawn once this makes the
record in the store a true account of the deliveries, whatever else the server
does: `smtp_accepted` means that a transport took the message and the handler saw
it, `smtp_failed` that a transport had it and the handler saw no acceptance (after
an elapsed timeout or a lost reply it may be delivered all the same), `rejected`
that none had it and none will.
-/

namespace HttpSmtpRele

open Prog Api Attempt LPhase

variable {ρ : Type} {D : Deps} {L : Limiter ρ} {rid : RequestId} {E : DateTime}

/-- The id under which a thread submits, and the phase of its record. -/
def lives : Sessions (Option RequestId × LPhase) where
  Next φ op _ φ' := φ'.1 = φ.1 ∧ Moves φ.1 φ.2 op φ'.2
  Ok t φ := t.id = φ.1 ∧ ∃ E, t.Ok E φ.2
  Start _ φ := φ.2 = .fresh

namespace LookupTruth

/-! ## The threads keep to the lives of their records -/

theorem passes {t t' : Thread} {φ : LPhase} (hok : t.Ok E φ) (h : t.Passes D t') :
    t'.id = t.id ∧ t'.Ok E φ := by
  cases h with
  | bodyRejected rid auth headers rejection => exact ⟨rfl, trivial⟩
  | received rid auth headers body =>
    obtain rfl : φ = .fresh := hok
    exact ⟨rfl, follows_sendMail⟩
  | prepares b item =>
    obtain rfl : φ = .fresh := hok
    exact ⟨rfl, follows_phase1Prepare⟩
  | rejected b item result => exact ⟨rfl, hok⟩
  | prepared b item q =>
    obtain ⟨hid, hkey, rfl⟩ := hok
    exact ⟨congrArg some hid, hkey, by rw [hkey]⟩
  | submits b q =>
    obtain ⟨hkey, rfl⟩ := hok
    exact ⟨rfl, hkey, follows_phase2Submit⟩
  | submitted b q result => exact ⟨rfl, hok⟩

theorem performs {t : Thread} {φ : LPhase} {op : Op} {f : op.Res → Thread} (hok : t.Ok E φ)
    (h : t.Performs op f) (r : op.Res) :
    (f r).id = t.id ∧ ∃ φ', Moves t.id φ op φ' ∧ ∃ E', (f r).Ok E' φ' := by
  cases h with
  | handling rid auth op k =>
    obtain ⟨φ', hn, hk⟩ := hok
    exact ⟨rfl, φ', hn, E, hk r⟩
  | preparing b item op k =>
    obtain ⟨φ', hn, hk⟩ := hok
    exact ⟨rfl, φ', hn, E, hk r⟩
  | submitting b q op k =>
    obtain ⟨hkey, φ', hn, hk⟩ := hok
    exact ⟨rfl, φ', hn, E, hkey, hk r⟩
  | lookup op k =>
    obtain ⟨u, hn, hk⟩ := hok
    have htarget : op.target = none := by
      by_contra h
      simp [lookupNext, h] at hn
    exact ⟨rfl, φ, ⟨htarget, rfl⟩, E, hk r⟩
  | sweep op k =>
    have hsweep : SweepOk E (.step op k) := hok
    rcases hsweep with h | ⟨now, -, h⟩ | h
    · cases h
      exact ⟨rfl, φ, ⟨rfl, rfl⟩, r, Or.inr (Or.inl ⟨r, le_rfl, rfl⟩)⟩
    · cases h
      exact ⟨rfl, φ, ⟨rfl, rfl⟩, E, Or.inr (Or.inr rfl)⟩
    · cases h

theorem lives_lawful {Legal : Server ρ → Event → Prop} : lives.Lawful D Legal where
  arrives {s e t} hlegal ht := ⟨(t.id, .fresh), rfl, rfl, 0, ServerLife.arrivals_ok ht⟩
  passes := by
    rintro t t' φ ⟨hid, E, hok⟩ h
    obtain ⟨hid', hok'⟩ := passes hok h
    exact ⟨hid'.trans hid, E, hok'⟩
  performs := by
    rintro t φ op f ⟨hid, E, hok⟩ h r
    obtain ⟨hid', φ', hmoves, hok'⟩ := performs hok h r
    exact ⟨(φ.1, φ'), ⟨rfl, hid ▸ hmoves⟩, hid'.trans hid, hok'⟩
  timesOut := by
    rintro t t' φ ⟨hid, -⟩ h
    obtain ⟨hid', hok'⟩ := ServerLife.thread_timeout_ok (E := 0) h
    exact ⟨hid'.trans hid, 0, hok' _⟩

end LookupTruth

/-! ## What the record says of the message -/

/-- The transports have had the message, or may have it any moment. -/
def Stage.begun : Stage → Bool
  | started => true
  | handed _ _ => true
  | _ => false

/-- A record with the status tells the truth of a submission in the stage. -/
def Stage.shows (stage : Stage) : SubmissionStatus → Bool
  | .received => !stage.begun
  | .smtpSubmissionStarted => stage.begun
  | .rejected =>
    match stage with
    | refused => true
    | _ => false
  | .smtpAccepted =>
    match stage with
    | handed _ true => true
    | _ => false
  | .smtpFailed =>
    match stage with
    | handed _ false => true
    | _ => false

namespace LPhase

/-- Whose the record is, and its status. -/
def reads : LPhase → Option (String × SubmissionStatus)
  | fresh => none
  | received k => some (k, .received)
  | started k => some (k, .smtpSubmissionStarted)
  | ended k status _ => some (k, status)

/-- What the record says holds of the attempt. -/
def TrueOf (φ : LPhase) (a : Attempt) : Prop :=
  match φ.reads with
  | none => a.stage.begun = false
  | some (k, status) => k = a.auth.keyId ∧ a.stage.shows status = true

theorem reads_of_agrees {φ : LPhase} {r : SubmissionStatusRecord} (h : Agrees φ r) :
    φ.reads = some (r.keyId, r.status) := by
  cases φ with
  | fresh => cases h
  | received k =>
    obtain ⟨rfl, hstatus⟩ := h
    rw [reads, hstatus]
  | started k =>
    obtain ⟨rfl, hstatus⟩ := h
    rw [reads, hstatus]
  | ended k status code =>
    obtain ⟨rfl, rfl, -⟩ := h
    rfl

end LPhase

namespace LookupTruth

/-- What an operation that writes no record does to the stage. -/
theorem stage_untargeted {a a' : Attempt} {op : Op} {r : op.Res} (h : a.Next D op r a')
    (htarget : op.target = none) :
    a'.stage = a.stage ∨
      (a.stage.begun = false ∧ a.stage.shows .rejected = false ∧ a'.stage.begun = false) ∨
      (a.stage = .started ∧ a'.stage.begun = true) := by
  cases op with
  | config => exact Or.inl (by rw [h.2])
  | now => exact Or.inl (by rw [show a' = a from h])
  | putReceived record => cases htarget
  | setRecipientMetadata id keyId domains count => cases htarget
  | updateStatus id keyId update => cases htarget
  | getRead id keyId => cases h
  | getExpire id => cases h
  | expireOldRecords now => cases h
  | checkGlobal =>
    obtain ⟨hstage, rfl⟩ := h
    rw [hstage]
    exact Or.inr (Or.inl ⟨rfl, rfl, by cases r.isOk <;> rfl⟩)
  | checkIp ip =>
    obtain ⟨hstage, -, rfl⟩ := h
    rw [hstage]
    exact Or.inr (Or.inl ⟨rfl, rfl, by cases r.isOk <;> rfl⟩)
  | checkKey keyId perMin burst =>
    obtain ⟨hstage, -, -, -, rfl⟩ := h
    rw [hstage]
    exact Or.inr (Or.inl ⟨rfl, rfl, by cases r.isOk <;> rfl⟩)
  | smtpSend message timeout =>
    obtain ⟨hmay, rfl⟩ := h
    exact Or.inr (Or.inr ⟨hmay.stage, rfl⟩)
  | pipeSend message command timeout =>
    obtain ⟨hmay, rfl⟩ := h
    exact Or.inr (Or.inr ⟨hmay.stage, rfl⟩)

/-- A status that a stage which has not begun shows. -/
theorem shows_of_not_begun {stage stage' : Stage} {status : SubmissionStatus}
    (h : stage.shows status = true) (hbegun : stage.begun = false)
    (hrejected : stage.shows .rejected = false) (hbegun' : stage'.begun = false) :
    stage'.shows status = true := by
  cases status with
  | received => simp [Stage.shows, hbegun']
  | rejected => simp [hrejected] at h
  | smtpSubmissionStarted => simp [Stage.shows, hbegun] at h
  | smtpAccepted => cases stage <;> first | cases h | cases hbegun
  | smtpFailed => cases stage <;> first | cases h | cases hbegun

theorem shows_of_started {stage' : Stage} {status : SubmissionStatus}
    (h : Stage.started.shows status = true) (hbegun : stage'.begun = true) :
    stage'.shows status = true := by
  cases status with
  | smtpSubmissionStarted => exact hbegun
  | _ => cases h

theorem trueOf_untargeted {φ : LPhase} {a a' : Attempt} {op : Op} {r : op.Res}
    (h : φ.TrueOf a) (hnext : a.Next D op r a') (htarget : op.target = none) : φ.TrueOf a' := by
  unfold TrueOf at h ⊢
  rw [auth_next hnext]
  rcases stage_untargeted hnext htarget with hstage | ⟨hbegun, hrejected, hbegun'⟩ |
    ⟨hstarted, hbegun'⟩
  · rw [hstage]
    exact h
  · cases hreads : φ.reads with
    | none => exact hbegun'
    | some said =>
      rw [hreads] at h
      exact ⟨h.1, shows_of_not_begun h.2 hbegun hrejected hbegun'⟩
  · rw [hstarted] at h
    cases hreads : φ.reads with
    | none =>
      rw [hreads] at h
      cases h
    | some said =>
      rw [hreads] at h
      exact ⟨h.1, shows_of_started h.2 hbegun'⟩

/-- A report is true when it is made. -/
theorem shows_of_report {stage stage' : Stage} {status : SubmissionStatus}
    (h : stage.report status = some stage') : stage'.shows status = true := by
  rcases Stage.report_cases h with ⟨rfl, -, rfl⟩ | ⟨rfl, -, rfl⟩ | ⟨rfl, htold, rfl⟩ |
    ⟨rfl, htold, rfl⟩
  · rfl
  · rfl
  · cases stage' with
    | handed hd sent =>
      cases sent with
      | true => rfl
      | false => cases htold
    | _ => cases htold
  · cases stage' with
    | handed hd sent =>
      cases sent with
      | true => cases htold
      | false => rfl
    | _ => cases htold

theorem trueOf_update {φ φ' : LPhase} {a : Attempt} {stage' : Stage} {keyId : String}
    {u : StatusUpdate} (h : φ.TrueOf a) (hupdate : φ.update keyId u = some φ')
    (hreport : a.stage.report u.status = some stage') :
    φ'.TrueOf { a with stage := stage' } := by
  have hshows := shows_of_report hreport
  rcases update_cases hupdate with ⟨rfl, -, rfl⟩ | ⟨rfl, hstatus, rfl⟩ | ⟨rfl, -, rfl⟩
  · exact ⟨h.1, hshows⟩
  · exact ⟨h.1, hstatus ▸ hshows⟩
  · exact ⟨h.1, hshows⟩

/-- One operation of a submission, on its record and on its message. -/
theorem trueOf_next {φ φ' : LPhase} {a a' : Attempt} {op : Op} {r : op.Res}
    (h : φ.TrueOf a) (hn : messageNext rid φ op = some φ') (hnext : a.Next D op r a') :
    φ'.TrueOf a' := by
  rcases watchNext_acts (watchNext_of_messageNext hn) with ⟨htarget, rfl⟩ |
    ⟨record, rfl, hid, rfl, hstatus, rfl⟩ | ⟨keyId, domains, count, rfl, rfl, rfl⟩ |
    ⟨keyId, u, rfl, hupdate⟩
  · apply trueOf_untargeted h hnext
    cases ht : op.target with
    | none => rfl
    | some id =>
      have hid : id ≠ rid := fun he => htarget (by rw [ht, he])
      simp [messageNext, ht, hid] at hn
  · obtain ⟨hkey, rfl⟩ := hnext
    have hbegun : a'.stage.begun = false := h
    exact ⟨hkey, by rw [Stage.shows, hbegun]; rfl⟩
  · obtain ⟨-, rfl⟩ := hnext
    exact h
  · obtain ⟨-, stage', hreport, rfl⟩ := hnext
    exact trueOf_update h hupdate hreport

end LookupTruth

/-- A thread with its record and its message. -/
abbrev Tracked := (Option RequestId × LPhase) × Option Attempt

def tracked (D : Deps) : Sessions Tracked := lives.prod (submissions D)

/-- What the record of the thread says is true; a thread that submits nothing has no record. -/
def Tracked.Tells (p : Tracked) : Prop :=
  match p.2 with
  | none => p.1.2 = .fresh
  | some a => p.1.2.TrueOf a

/-- The records tell the truth, and that of `rid`, which is in the phase `φ`, is the one held. -/
structure Truthful (rid : RequestId) (E : DateTime) (φ : LPhase) (s : Server ρ)
    (ps : List Tracked) : Prop where
  tells : ∀ p ∈ ps, p.Tells
  owner : ∀ p ∈ ps, p.1.1 = some rid → p.1.2 = φ
  absent : (∀ p ∈ ps, p.1.1 ≠ some rid) → φ = .fresh
  tracks : Tracks E φ (s.world.find rid)

namespace LookupTruth

open ServerLife

theorem tracked_lawful {Legal : Server ρ → Event → Prop} : (tracked D).Lawful D Legal :=
  lives_lawful.prod (Delivery.lawful.mono fun _ _ _ => trivial)

theorem target_of_maintenance {op : Op} (h : op.isMaintenance = true) : op.target = none := by
  cases op <;> first | rfl | cases h

theorem tells_next {p p' : Tracked} {op : Op} {r : op.Res} (h : p.Tells)
    (hnext : (tracked D).Next p op r p') : p'.Tells := by
  obtain ⟨⟨id, φ⟩, a⟩ := p
  obtain ⟨⟨id', φ'⟩, a'⟩ := p'
  obtain ⟨⟨hid, hmoves⟩, hattempt⟩ := hnext
  cases a with
  | none =>
    obtain ⟨hmaint, ha'⟩ := hattempt
    obtain rfl : a' = none := ha'
    have htarget := target_of_maintenance hmaint
    cases id with
    | none => exact hmoves.2.trans h
    | some rid =>
      have hn : messageNext rid φ op = some φ' := hmoves
      simp only [messageNext, htarget] at hn
      split at hn
      · cases hn
      · exact (Option.some.inj hn).symm.trans h
  | some a =>
    obtain ⟨a₁, ha', hnext⟩ := hattempt
    obtain rfl : a' = some a₁ := ha'
    cases id with
    | none =>
      obtain rfl : φ' = φ := hmoves.2
      exact trueOf_untargeted h hnext hmoves.1
    | some rid => exact trueOf_next h hmoves hnext

theorem ids_eq {ts : List Thread} {ps : List Tracked}
    (h : List.Forall₂ (tracked D).Ok ts ps) : ts.map Thread.id = ps.map fun p => p.1.1 := by
  induction h with
  | nil => rfl
  | cons hhead _ ih => exact congrArg₂ List.cons hhead.1.1 ih

/-- The stage that has changed is the only one of its id. -/
theorem eq_of_mem_set {ts : List Thread} {ps : List Tracked} {i : Nat} {p p' q : Tracked}
    (hok : List.Forall₂ (tracked D).Ok ts ps) (honce : occurrences rid ts ≤ 1)
    (hp : ps[i]? = some p) (hid : p.1.1 = some rid) (hq : q ∈ ps.set i p')
    (hqid : q.1.1 = some rid) : q = p' := by
  obtain ⟨j, hj⟩ := List.getElem?_of_mem hq
  by_cases hij : i = j
  · subst hij
    rw [List.getElem?_set_self (List.getElem?_eq_some_iff.mp hp).1] at hj
    exact (Option.some.inj hj).symm
  · rw [List.getElem?_set_ne hij] at hj
    rw [occurrences, ids_eq hok] at honce
    have hi' : (ps.map fun p => p.1.1)[i]? = some (some rid) := by simp [hp, hid]
    have hj' : (ps.map fun p => p.1.1)[j]? = some (some rid) := by simp [hj, hqid]
    exact absurd (eq_of_count_le_one honce hi' hj') hij

theorem mem_set_of_ne {ps : List Tracked} {i : Nat} {p q : Tracked} (p' : Tracked)
    (hp : ps[i]? = some p) (hq : q ∈ ps) : q = p ∨ q ∈ ps.set i p' := by
  obtain ⟨j, hj⟩ := List.getElem?_of_mem hq
  by_cases hij : i = j
  · subst hij
    exact Or.inl (Option.some.inj (hj.symm.trans hp))
  · exact Or.inr (List.mem_of_getElem? ((List.getElem?_set_ne hij).trans hj))

theorem truthful_performs {s : Server ρ} {ps : List Tracked} {i : Nat} {c : Choice} {t' : Thread}
    {op : Op} {p p' : Tracked} {φ : LPhase} (hok : List.Forall₂ (tracked D).Ok s.threads ps)
    (honce : occurrences rid s.threads ≤ 1) (hE : c.utc ≤ E) (hp : ps[i]? = some p)
    (hnext : (tracked D).Next p op (exec L op c s.world).1 p') (h : Truthful rid E φ s ps) :
    ∃ φ', Truthful rid E φ' { world := (exec L op c s.world).2, threads := s.threads.set i t' }
      (ps.set i p') := by
  have hmem := List.mem_of_getElem? hp
  have hmem' : p' ∈ ps.set i p' :=
    List.mem_set (List.getElem?_eq_some_iff.mp hp).1 p'
  have htells : ∀ q ∈ ps.set i p', q.Tells := by
    intro q hq
    rcases List.mem_or_eq_of_mem_set hq with hq | rfl
    · exact h.tells q hq
    · exact tells_next (h.tells p hmem) hnext
  obtain ⟨⟨hid', hmoves⟩, -⟩ := hnext
  by_cases hid : p.1.1 = some rid
  · refine ⟨p'.1.2, htells, ?_, ?_, ?_⟩
    · intro q hq hqid
      rw [eq_of_mem_set hok honce hp hid hq hqid]
    · intro hnone
      exact absurd (hid'.trans hid) (hnone p' hmem')
    · rw [hid] at hmoves
      have hn : messageNext rid p.1.2 op = some p'.1.2 := hmoves
      rw [h.owner p hmem hid] at hn
      exact exec_tracks (watchNext_of_messageNext hn) h.tracks hE
  · refine ⟨φ, htells, ?_, ?_, ?_⟩
    · intro q hq hqid
      rcases List.mem_or_eq_of_mem_set hq with hq | rfl
      · exact h.owner q hq hqid
      · exact absurd (hid'.symm.trans hqid) hid
    · intro hnone
      apply h.absent
      intro q hq
      rcases mem_set_of_ne p' hp hq with rfl | hq
      · exact hid
      · exact hnone q hq
    · exact exec_tracks (watchNext_of_foreign_moves hid hmoves φ) h.tracks hE

theorem truthful_step {s s' : Server ρ} {e : Event} {ps ps' : List Tracked} {φ : LPhase}
    (hok : List.Forall₂ (tracked D).Ok s.threads ps)
    (honce : occurrences rid s.threads + e.ids.count rid ≤ 1) (hE : e.Before E)
    (hmove : SessionStep (tracked D) D L s ps e s' ps') (h : Truthful rid E φ s ps) :
    ∃ φ', Truthful rid E φ' s' ps' := by
  cases hmove with
  | performs hthread hstage hok' hperforms hnext hok'' =>
    exact truthful_performs hok (by omega) hE hstage hnext h
  | idles hthread hstage hidles hok' hok'' => exact ⟨φ, h.tells, h.owner, h.absent, h.tracks⟩
  | arrives hevent hstarted hoks =>
    rename_i new
    refine ⟨φ, ?_, ?_, ?_, h.tracks⟩
    · intro p hp
      rcases List.mem_append.mp hp with hp | hp
      · exact h.tells p hp
      · obtain ⟨⟨id, ψ⟩, a⟩ := p
        obtain ⟨hfresh, hstart⟩ := hstarted _ hp
        obtain rfl : ψ = .fresh := hfresh
        cases a with
        | none => rfl
        | some a =>
          show a.stage.begun = false
          rw [(hstart a rfl).stage]
          rfl
    · intro p hp hid
      rcases List.mem_append.mp hp with hp | hp
      · exact h.owner p hp hid
      · -- `rid` is new, so no thread of it was there
        have hpos : 0 < occurrences rid (s.arrivals D e) := by
          rw [occurrences, ids_eq hoks]
          exact List.count_pos_iff.mpr (List.mem_map.mpr ⟨p, hp, hid⟩)
        have hnew : occurrences rid (s.arrivals D e) ≤ e.ids.count rid :=
          occurrences_arrivals s e
        have hzero : occurrences rid s.threads = 0 := by omega
        rw [occurrences, ids_eq hok] at hzero
        have habsent := h.absent fun q hq hqid =>
          List.count_eq_zero.mp hzero (List.mem_map.mpr ⟨q, hq, hqid⟩)
        exact (hstarted p hp).1.trans habsent.symm
    · intro hnone
      exact h.absent fun p hp => hnone p (List.mem_append_left _ hp)
  | reloads config =>
    refine ⟨φ, h.tells, h.owner, h.absent, ?_⟩
    have hfind : (s.world.app.reloadConfig config).statusStore.find rid = s.world.find rid := by
      simp only [AppState.reloadConfig, World.find]
      cases s.world.app.statusStore <;> rfl
    show Tracks E φ ((s.world.app.reloadConfig config).statusStore.find rid)
    rw [hfind]
    exact h.tracks

/-! ## Runs -/

theorem occurrences_step {s s' : Server ρ} {e : Event} {ps ps' : List Tracked}
    (hmove : SessionStep (tracked D) D L s ps e s' ps') :
    occurrences rid s'.threads ≤ occurrences rid s.threads + e.ids.count rid := by
  cases hmove with
  | performs hthread hstage hok hperforms hnext hok' =>
    have hid := (hok'.1.1.trans hnext.1.1).trans hok.1.1.symm
    rw [occurrences_set hthread hid]
    exact Nat.le_add_right _ _
  | idles hthread hstage hidles hok hok' =>
    rw [occurrences_set hthread (hok'.1.1.trans hok.1.1.symm)]
    exact Nat.le_add_right _ _
  | arrives hevent hstarted hoks =>
    rw [occurrences, List.map_append, List.count_append]
    exact Nat.add_le_add_left (occurrences_arrivals s e) _
  | reloads config => exact Nat.le_add_right _ _

/-- An id that a run draws once is drawn once at every step. -/
theorem eachStep_once {es : List Event} {s : Server ρ} {ps : List Tracked}
    (hok : List.Forall₂ (tracked D).Ok s.threads ps)
    (honce : occurrences rid s.threads + (es.flatMap Event.ids).count rid ≤ 1) :
    s.EachStep D L (fun s e => occurrences rid s.threads + e.ids.count rid ≤ 1) es := by
  induction es generalizing s ps with
  | nil => trivial
  | cons e es ih =>
    rw [List.flatMap_cons, List.count_append] at honce
    intro s' hs'
    refine ⟨by omega, ?_⟩
    have hlawful : (tracked D).Lawful D fun (_ : Server ρ) _ => True := tracked_lawful
    obtain ⟨ps', hok', hmove⟩ := hlawful.step hok trivial hs'
    have hstep : occurrences rid s'.threads ≤ occurrences rid s.threads + e.ids.count rid :=
      occurrences_step hmove
    exact ih hok' (by omega)

variable {w : World ρ}

theorem logged_step {s s' : Server ρ} {e : Event} {ps ps' : List Tracked} {log : List HandOff}
    (hok : List.Forall₂ (tracked D).Ok s.threads ps)
    (hlegal : occurrences rid s.threads + e.ids.count rid ≤ 1 ∧ e.Before E)
    (hmove : SessionStep (tracked D) D L s ps e s' ps')
    (h : (∃ φ, Truthful rid E φ s ps) ∧ Delivery.Logged w s (ps.map Prod.snd) log) :
    (∃ φ, Truthful rid E φ s' ps') ∧
      Delivery.Logged w s' (ps'.map Prod.snd) (log ++ s.handOff e) := by
  obtain ⟨⟨φ, htrue⟩, hlog⟩ := h
  exact ⟨truthful_step hok hlegal.1 hlegal.2 hmove htrue, Delivery.logged_step hmove.snd hlog⟩

/-- A run from no threads keeps the records true and the log complete. -/
theorem truthful_run {es : List Event} {s : Server ρ} (hfresh : w.find rid = none)
    (honce : (es.flatMap Event.ids).count rid ≤ 1) (hclock : ∀ e ∈ es, e.Before E)
    (hrun : Server.run D L ⟨w, []⟩ es = some s) :
    ∃ ps φ, List.Forall₂ (tracked D).Ok s.threads ps ∧ Truthful rid E φ s ps ∧
      Delivery.Logged w s (ps.map Prod.snd) (Server.handOffs D L ⟨w, []⟩ es) := by
  have hlegal : Server.EachStep D L
      (fun s e => occurrences rid s.threads + e.ids.count rid ≤ 1 ∧ e.Before E) ⟨w, []⟩ es :=
    (eachStep_once .nil (by simpa [occurrences] using honce)).and
      (.of_mem fun _ e he => hclock e he)
  have hstart : Truthful rid E .fresh (⟨w, []⟩ : Server ρ) [] :=
    ⟨by simp, by simp, fun _ => rfl, fun _ => hfresh, fun r hr => by simp [hfresh] at hr⟩
  obtain ⟨ps, hok, ⟨φ, htrue⟩, hlog⟩ := tracked_lawful.run (f := Server.handOff)
    (I := fun s ps log => (∃ φ, Truthful rid E φ s ps) ∧
      Delivery.Logged w s (ps.map Prod.snd) log)
    (fun hok hlegal hmove h => logged_step hok hlegal hmove h) .nil
    ⟨⟨.fresh, hstart⟩, Delivery.logged_start w⟩ hlegal hrun
  exact ⟨ps, φ, hok, htrue, hlog⟩

/-! ## Submissions whose record says how they ended -/

/-- The record of the thread says how the submission ended. -/
def Settled (p : Tracked) : Prop :=
  ∃ rid k status code a, p = ((some rid, .ended k status code), some a) ∧
    status.isTerminal = true ∧ p.Tells

theorem started_shows_no_end {status : SubmissionStatus} (h : status.isTerminal = true) :
    Stage.started.shows status = false := by
  cases status with
  | smtpSubmissionStarted => cases h
  | _ => rfl

theorem settled_next {p p' : Tracked} {op : Op} {r : op.Res} (h : Settled p)
    (hnext : (tracked D).Next p op r p') : Settled p' ∧ op.handed? = none := by
  obtain ⟨rid, k, status, code, a, rfl, hterminal, htells⟩ := h
  have htells' := tells_next htells hnext
  obtain ⟨⟨id', φ'⟩, a'⟩ := p'
  obtain ⟨⟨hid, hmoves⟩, a₁, ha', hattempt⟩ := hnext
  obtain rfl : id' = some rid := hid
  obtain rfl : a' = some a₁ := ha'
  have hn : messageNext rid (.ended k status code) op = some φ' := hmoves
  have hshows : a.stage.shows status = true := htells.2
  have hstay : φ' = .ended k status code := by
    rcases watchNext_acts (watchNext_of_messageNext hn) with ⟨-, he⟩ | ⟨_, -, -, he, -⟩ |
      ⟨_, _, _, -, he, -⟩ | ⟨_, _, -, he⟩
    · exact he
    · cases he
    · cases he
    · cases he
  subst hstay
  refine ⟨⟨rid, k, status, code, a₁, rfl, hterminal, htells'⟩, ?_⟩
  have hnever : a.stage ≠ .started := by
    intro hstage
    rw [hstage, started_shows_no_end hterminal] at hshows
    cases hshows
  cases op with
  | smtpSend message timeout => exact absurd hattempt.1.stage hnever
  | pipeSend message command timeout => exact absurd hattempt.1.stage hnever
  | _ => rfl

/-- A submission that has ended hands nothing over. -/
theorem settled_step {s s' : Server ρ} {e : Event} {ps ps' : List Tracked} {log : List HandOff}
    {i : Nat} (hmove : SessionStep (tracked D) D L s ps e s' ps')
    (h : (∃ p, ps[i]? = some p ∧ Settled p) ∧ log.filter (fun h => h.thread == i) = []) :
    (∃ p, ps'[i]? = some p ∧ Settled p) ∧
      (log ++ s.handOff e).filter (fun h => h.thread == i) = [] := by
  obtain ⟨⟨p, hp, hsettled⟩, hlog⟩ := h
  rw [List.filter_append, hlog, List.nil_append]
  cases hmove with
  | performs hthread hstage hok hperforms hnext hok' =>
    rename_i j c t op f q q'
    rw [Delivery.handOff_turn hthread]
    obtain ⟨-, hhanded⟩ := Delivery.handOff_performs hok.2 hperforms.nextOp hnext.2 j
    by_cases hij : j = i
    · subst hij
      obtain rfl : q = p := Option.some.inj (hstage.symm.trans hp)
      obtain ⟨hsettled', hnone⟩ := settled_next hsettled hnext
      refine ⟨⟨q', List.getElem?_set_self (List.getElem?_eq_some_iff.mp hp).1, hsettled'⟩, ?_⟩
      rw [hnone] at hhanded
      rw [List.map_eq_nil_iff.mp hhanded]
      rfl
    · refine ⟨⟨p, (List.getElem?_set_ne hij).trans hp, hsettled⟩, ?_⟩
      rw [List.filter_eq_nil_iff]
      intro h hh
      simp [Delivery.thread_of_mem_handOff hh, hij]
  | idles hthread hstage hidles hok hok' =>
    rw [Delivery.handOff_idles hthread hidles]
    exact ⟨⟨p, hp, hsettled⟩, rfl⟩
  | arrives hevent hstarted hoks =>
    rw [Delivery.handOff_of_not_turn hevent]
    refine ⟨⟨p, ?_, hsettled⟩, rfl⟩
    rw [List.getElem?_append_left (List.getElem?_eq_some_iff.mp hp).1]
    exact hp
  | reloads config => exact ⟨⟨p, hp, hsettled⟩, rfl⟩

theorem settled_run {es : List Event} {s s' : Server ρ} {ps : List Tracked} {p : Tracked}
    {i : Nat} (hok : List.Forall₂ (tracked D).Ok s.threads ps) (hp : ps[i]? = some p)
    (hsettled : Settled p) (hrun : s.run D L es = some s') :
    (s.handOffs D L es).filter (fun h => h.thread == i) = [] := by
  have hstart : (∃ p, ps[i]? = some p ∧ Settled p) ∧
      ([] : List HandOff).filter (fun h => h.thread == i) = [] := ⟨⟨p, hp, hsettled⟩, rfl⟩
  obtain ⟨ps', -, -, hlog⟩ := tracked_lawful.run (f := Server.handOff)
    (I := fun _ ps log => (∃ p, ps[i]? = some p ∧ Settled p) ∧
      log.filter (fun h => h.thread == i) = [])
    (fun _ _ hmove h => settled_step hmove h) hok hstart
    (Server.eachStep_of_forall (fun _ _ => trivial) s es) hrun
  exact hlog

end LookupTruth

/-- The hand-overs, by whether the transport answered that it took the message, of a
submission whose record has the status. One that is cut off while the transport has
the message stays at `smtp_submission_started`. -/
def SubmissionStatus.deliveries : SubmissionStatus → List (List Bool)
  | received => [[]]
  | rejected => [[]]
  | smtpSubmissionStarted => [[], [true], [false]]
  | smtpAccepted => [[true]]
  | smtpFailed => [[false]]

namespace LookupTruth

theorem entries_of_shows {a : Attempt} {status : SubmissionStatus}
    (h : a.stage.shows status = true) (i : Nat) :
    (a.entries i).map HandOff.sent ∈ status.deliveries := by
  obtain ⟨auth, cfg, stage⟩ := a
  cases stage with
  | handed hd sent =>
    show [sent] ∈ status.deliveries
    cases status <;> cases sent <;> first | exact List.mem_cons_self | decide | cases h
  | _ =>
    show [] ∈ status.deliveries
    cases status <;> first | exact List.mem_cons_self | cases h

end LookupTruth

open LookupTruth in
/-- A record that a lookup shows belongs to the one submission of its id, and what
it says of the delivery is so: what the transports were given of the submission is
what the status allows, and after a status that is an end they are given nothing
more of it, whatever the server goes on to do. -/
theorem lookups_tell_the_truth {w : World ρ} {es : List Event} {s : Server ρ} {keyId : String}
    {now : DateTime} {r : SubmissionStatusRecord} (hfresh : w.find rid = none)
    (honce : (es.flatMap Event.ids).count rid ≤ 1) (hclock : ∀ e ∈ es, e.Before now)
    (hrun : Server.run D L ⟨w, []⟩ es = some s)
    (hlive : s.world.getRead rid keyId now = .live r) :
    ∃ i t auth, s.threads[i]? = some t ∧ t.id = some rid ∧ t.auth? = some auth ∧
      auth.keyId = keyId ∧
      ((Server.handOffs D L ⟨w, []⟩ es).filter fun h => h.thread == i).map HandOff.sent ∈
        r.status.deliveries ∧
      (r.status.isTerminal = true → ∀ es' s', s.run D L es' = some s' →
        (s.handOffs D L es').filter (fun h => h.thread == i) = []) := by
  obtain ⟨hfind, hkey, hnow⟩ := World.getRead_eq_live.mp hlive
  obtain ⟨ps, φ, hok, htrue, hlog⟩ := truthful_run hfresh honce hclock hrun
  have hreads := reads_of_agrees (htrue.tracks.agrees r hfind hnow)
  -- the record was put by a thread of its id
  obtain ⟨p, hp, hid⟩ : ∃ p ∈ ps, p.1.1 = some rid := by
    by_contra hnone
    have hfreshφ := htrue.absent fun p hp hid => hnone ⟨p, hp, hid⟩
    rw [hfreshφ] at hreads
    cases hreads
  obtain ⟨i, hi⟩ := List.getElem?_of_mem hp
  obtain ⟨t, ht, htok⟩ := Sessions.forall₂_getElem? hok.flip hi
  have htells := htrue.tells p hp
  rw [← htrue.owner p hp hid] at hreads
  obtain ⟨⟨id, φ'⟩, a⟩ := p
  cases a with
  | none =>
    obtain rfl : φ' = .fresh := htells
    cases hreads
  | some a =>
    have htrueOf : r.keyId = a.auth.keyId ∧ a.stage.shows r.status = true := by
      have h : LPhase.TrueOf φ' a := htells
      rw [LPhase.TrueOf, hreads] at h
      exact h
    have hstage : (ps.map Prod.snd)[i]? = some (some a) := by simp [hi]
    refine ⟨i, t, a.auth, ht, htok.1.1.trans hid, Delivery.attempts_auth htok.2,
      htrueOf.1.symm.trans hkey, ?_, ?_⟩
    · rw [hlog.entries i _ hstage]
      exact entries_of_shows htrueOf.2 i
    · intro hterminal es' s' hrun'
      apply settled_run hok hi ?_ hrun'
      cases φ' with
      | fresh => cases hreads
      | received k =>
        obtain ⟨-, hstatus⟩ := Prod.mk.inj (Option.some.inj hreads)
        rw [← hstatus] at hterminal
        cases hterminal
      | started k =>
        obtain ⟨-, hstatus⟩ := Prod.mk.inj (Option.some.inj hreads)
        rw [← hstatus] at hterminal
        cases hterminal
      | ended k status code =>
        obtain ⟨-, rfl⟩ := Prod.mk.inj (Option.some.inj hreads)
        obtain rfl : id = some rid := hid
        exact ⟨rid, k, r.status, code, a, rfl, hterminal, htells⟩

theorem lookups_tell_the_truth_sample :
    ∃ s r i, Server.run jsonDeps .admitAll ⟨sampleWorld, []⟩ sampleEvents = some s ∧
      s.world.getRead sampleId sampleAuth.keyId 0 = .live r ∧ r.status = .smtpAccepted ∧
      ((Server.handOffs jsonDeps .admitAll ⟨sampleWorld, []⟩ sampleEvents).filter
        fun h => h.thread == i).map HandOff.sent = [true] := by
  have hclock : ∀ e ∈ sampleEvents, e.Before 0 := by
    intro e he
    rcases List.mem_cons.mp he with rfl | he
    · trivial
    · rw [List.eq_of_mem_replicate he]
      exact le_refl (0 : Int)
  obtain ⟨s, r, hrun, hlive, hstatus⟩ : ∃ s r,
      Server.run jsonDeps .admitAll ⟨sampleWorld, []⟩ sampleEvents = some s ∧
        s.world.getRead sampleId sampleAuth.keyId 0 = .live r ∧ r.status = .smtpAccepted :=
    ⟨_, _, rfl, rfl, rfl⟩
  obtain ⟨i, t, auth, -, -, -, -, hmem, -⟩ :=
    lookups_tell_the_truth rfl (by decide) hclock hrun hlive
  rw [hstatus] at hmem
  exact ⟨s, r, i, hrun, hlive, hstatus, List.mem_singleton.mp hmem⟩

end HttpSmtpRele
