import HttpSmtpRele.Delivery

/-!
# Mail does not depend on tracking

A submission writes to the status store and never asks it anything.  So the
store may be any other one, with other contents, smaller, or the no-op store, and
the lookups and the cleanup task may stand still: the same messages reach the
transports, the limiter counts the same, and every client is told the same.
-/

namespace HttpSmtpRele

open Prog Api

variable {ρ : Type}

/-- The world with another status store. -/
def World.withStore (w : World ρ) (store : StatusStore) : World ρ :=
  { w with app := { w.app with statusStore := store } }

/-- The worlds differ in the status store at most. -/
structure World.SameMail (w w' : World ρ) : Prop where
  config : w'.app.config = w.app.config
  rateLimiter : w'.app.rateLimiter = w.app.rateLimiter
  bodyLimit : w'.bodyLimit = w.bodyLimit
  handed : w'.handed = w.handed

/-- A status lookup, or a round of the cleanup task. -/
def Thread.isTracking : Thread → Bool
  | lookup _ => true
  | sweep _ => true
  | _ => false

/-- The same thread, but that one that tracks may stand elsewhere. -/
def Thread.Alike (t t' : Thread) : Prop :=
  t' = t ∨ (t.isTracking = true ∧ t'.isTracking = true)

namespace Server

/-- The event is a turn of a thread that tracks. -/
def tracks (s : Server ρ) : Event → Bool
  | .turn i _ => (s.threads[i]?).any Thread.isTracking
  | _ => false

/-- The events without the turns of the threads that track. -/
def untracked (D : Deps) (L : Limiter ρ) (s : Server ρ) (es : List Event) : List Event :=
  s.observe D L (fun s e => if s.tracks e then [] else [e]) es

/-- The servers differ in what tracks at most. -/
structure SameMail (s s' : Server ρ) : Prop where
  world : s.world.SameMail s'.world
  threads : List.Forall₂ Thread.Alike s.threads s'.threads

end Server

namespace TrackingIndependence

variable {D : Deps} {L : Limiter ρ}

/-! ## One operation -/

/-- The only question that the store answers. -/
def Asks : Op → Prop
  | .getRead _ _ => True
  | _ => False

theorem exec_sameMail {op : Op} {c : Choice} {w w' : World ρ} (h : w.SameMail w')
    (hop : ¬ Asks op) :
    (exec L op c w').1 = (exec L op c w).1 ∧ (exec L op c w).2.SameMail (exec L op c w').2 := by
  obtain ⟨hconfig, hlimiter, hlimit, hhanded⟩ := h
  cases op with
  | config => exact ⟨hconfig, hconfig, hlimiter, hlimit, hhanded⟩
  | getRead id keyId => exact (hop trivial).elim
  | checkGlobal =>
    rw [exec_checkGlobal, exec_checkGlobal, hlimiter]
    exact ⟨rfl, hconfig, rfl, hlimit, hhanded⟩
  | checkIp ip =>
    rw [exec_checkIp, exec_checkIp, hlimiter]
    exact ⟨rfl, hconfig, rfl, hlimit, hhanded⟩
  | checkKey keyId perMin burst =>
    rw [exec_checkKey, exec_checkKey, hlimiter]
    exact ⟨rfl, hconfig, rfl, hlimit, hhanded⟩
  | smtpSend message timeout =>
    exact ⟨rfl, hconfig, hlimiter, hlimit, congrArg (Handed.smtp message :: ·) hhanded⟩
  | pipeSend message command timeout =>
    exact ⟨rfl, hconfig, hlimiter, hlimit, congrArg (Handed.pipe command message :: ·) hhanded⟩
  | _ => exact ⟨rfl, hconfig, hlimiter, hlimit, hhanded⟩

/-- What a thread that tracks does is done to the store. -/
theorem exec_maintenance {op : Op} {c : Choice} {w w' : World ρ} (h : w.SameMail w')
    (hop : op.isMaintenance = true) : (exec L op c w).2.SameMail w' := by
  obtain ⟨hconfig, hlimiter, hlimit, hhanded⟩ := h
  cases op with
  | now => exact ⟨hconfig, hlimiter, hlimit, hhanded⟩
  | getRead id keyId => exact ⟨hconfig, hlimiter, hlimit, hhanded⟩
  | getExpire id => exact ⟨hconfig, hlimiter, hlimit, hhanded⟩
  | expireOldRecords now => exact ⟨hconfig, hlimiter, hlimit, hhanded⟩
  | _ => cases hop

theorem advance_sameMail {α : Type} {p p' : RelayM α} {c : Choice} {w w₁ w' : World ρ}
    (h : w.SameMail w') (hop : ∀ op, p.head? = some op → ¬ Asks op)
    (hadv : advance (exec L) c w p = some (p', w₁)) :
    ∃ w₁', advance (exec L) c w' p = some (p', w₁') ∧ w₁.SameMail w₁' := by
  obtain ⟨op, k, rfl, rfl, rfl⟩ := advance_eq_some hadv
  obtain ⟨hanswer, hsame⟩ := exec_sameMail (L := L) (c := c) h (hop op rfl)
  refine ⟨_, ?_, hsame⟩
  rw [advance, hanswer]

/-! ## One turn -/

theorem map_advance_sameMail {α β : Type} {p : RelayM α} {f : RelayM α → β} {y : β} {c : Choice}
    {w w₁ w' : World ρ} (h : w.SameMail w') (hop : ∀ op, p.head? = some op → ¬ Asks op)
    (hadv : ((advance (exec L) c w p).map fun x => (f x.1, x.2)) = some (y, w₁)) :
    ∃ w₁', ((advance (exec L) c w' p).map fun x => (f x.1, x.2)) = some (y, w₁') ∧
      w₁.SameMail w₁' := by
  obtain ⟨⟨p', w₂⟩, hp', hx⟩ := Option.map_eq_some_iff.mp hadv
  cases hx
  obtain ⟨w₁', hadv', hsame⟩ := advance_sameMail h hop hp'
  exact ⟨w₁', by rw [hadv', Option.map_some], hsame⟩

theorem turn_message_sameMail {b : Bulk} {m m' : MessageState} {mayMove : Bool} {c : Choice}
    {w w₁ w' : World ρ} (h : w.SameMail w')
    (hop : ∀ op, (Thread.message b m).nextOp = some op → ¬ Asks op)
    (hturn : m.turn D L b mayMove c w = some (m', w₁)) :
    ∃ w₁', m.turn D L b mayMove c w' = some (m', w₁') ∧ w₁.SameMail w₁' := by
  cases m with
  | waiting item =>
    simp only [MessageState.turn] at hturn ⊢
    split at hturn
    · rename_i hmay
      cases hturn
      exact ⟨w', if_pos hmay, h⟩
    · cases hturn
  | preparing item p =>
    cases p with
    | ret out => cases out <;> (cases hturn; exact ⟨w', rfl, h⟩)
    | step op k =>
      simp only [MessageState.turn] at hturn ⊢
      exact map_advance_sameMail h hop hturn
    | abort => cases hturn
  | rejected item result => cases hturn
  | prepared q =>
    simp only [MessageState.turn] at hturn ⊢
    split at hturn
    · rename_i hmay
      cases hturn
      exact ⟨w', if_pos hmay, h⟩
    · cases hturn
  | submitting q p =>
    cases p with
    | ret result =>
      cases hturn
      exact ⟨w', rfl, h⟩
    | step op k =>
      simp only [MessageState.turn] at hturn ⊢
      exact map_advance_sameMail h hop hturn
    | abort => cases hturn
  | submitted q result => cases hturn

/-- A thread that does not ask the store takes the same turn over another store. -/
theorem turn_sameMail {t t' : Thread} {mayMove : Bool} {c : Choice} {w w₁ w' : World ρ}
    (h : w.SameMail w') (hop : ∀ op, t.nextOp = some op → ¬ Asks op)
    (hturn : t.turn D L mayMove c w = some (t', w₁)) :
    ∃ w₁', t.turn D L mayMove c w' = some (t', w₁') ∧ w₁.SameMail w₁' := by
  cases t with
  | receiving rid auth headers =>
    have hbody : w'.recvBody c.body = w.recvBody c.body := by
      unfold World.recvBody
      rw [h.bodyLimit]
    simp only [Thread.turn, hbody] at hturn ⊢
    split at hturn
    · cases hturn
      exact ⟨w', rfl, h⟩
    · cases hturn
      exact ⟨w', rfl, h⟩
  | handling rid auth p => exact map_advance_sameMail h hop hturn
  | message b m =>
    obtain ⟨⟨m', w₂⟩, hm, hx⟩ := Option.map_eq_some_iff.mp hturn
    cases hx
    obtain ⟨w₁', hm', hsame⟩ := turn_message_sameMail h hop hm
    refine ⟨w₁', ?_, hsame⟩
    rw [Thread.turn, hm', Option.map_some]
  | lookup p => exact map_advance_sameMail h hop hturn
  | sweep p => exact map_advance_sameMail h hop hturn
  | unauthenticated rid rejection => cases hturn
  | cutOff rid auth answer => cases hturn
  | bulkRefused bulkId e => cases hturn
  | bulkCutOff number => cases hturn

/-! ## One event -/

theorem messageOf_alike {t t' : Thread} (h : t.Alike t') (n : Nat) :
    t'.messageOf n = t.messageOf n := by
  rcases h with rfl | ⟨ht, ht'⟩
  · rfl
  · cases t <;> cases ht <;> cases t' <;> cases ht' <;> rfl

theorem messagesOf_alike {ts ts' : List Thread} (h : List.Forall₂ Thread.Alike ts ts') (n : Nat) :
    Server.messagesOf ts' n = Server.messagesOf ts n := by
  induction h with
  | nil => rfl
  | cons hhead _ ih =>
    simp only [Server.messagesOf, List.filterMap_cons, messageOf_alike hhead n] at ih ⊢
    rw [ih]

theorem cutsOff_alike {t t' : Thread} (h : t.Alike t') (n : Nat) : t'.cutsOff n = t.cutsOff n := by
  rcases h with rfl | ⟨ht, ht'⟩
  · rfl
  · cases t <;> cases ht <;> cases t' <;> cases ht' <;> rfl

section
variable {s s' : Server ρ} (h : List.Forall₂ Thread.Alike s.threads s'.threads)
include h

theorem isCutOff_alike (b : Bulk) : s'.isCutOff b = s.isCutOff b := by
  unfold Server.isCutOff
  generalize s.threads = ts at h ⊢
  generalize s'.threads = ts' at h ⊢
  induction h with
  | nil => rfl
  | cons hhead _ ih => rw [List.any_cons, List.any_cons, cutsOff_alike hhead, ih]

theorem permits_alike (b : Bulk) : s'.permits b = s.permits b := by
  rw [Server.permits, messagesOf_alike h, Server.permits]

theorem spawned_alike (b : Bulk) : s'.spawned b = s.spawned b := by
  rw [Server.spawned, Server.phase1Over, messagesOf_alike h, permits_alike h, Server.spawned,
    Server.phase1Over]

theorem allResults_alike (b : Bulk) : s'.allResults b = s.allResults b := by
  rw [Server.allResults, messagesOf_alike h, Server.allResults]

theorem mayMove_alike (i : Nat) (t : Thread) : s'.mayMove i t = s.mayMove i t := by
  unfold Server.mayMove
  split
  · rw [messagesOf_alike (List.forall₂_take i h)]
  · rw [messagesOf_alike h, spawned_alike h, permits_alike h]
  · rfl

/-- The timer of a bulk request has the same effect on both. -/
theorem timeoutBulk_alike (i : Nat) :
    s'.arrivals D (.timeoutBulk i) = s.arrivals D (.timeoutBulk i) := by
  simp only [Server.arrivals]
  cases ht : s.threads[i]? with
  | none =>
    have hlength := h.length_eq
    have ht' : s'.threads[i]? = none := by
      rw [List.getElem?_eq_none_iff] at ht ⊢
      omega
    rw [ht']
  | some t =>
    obtain ⟨t', ht', halike⟩ := Sessions.forall₂_getElem? h ht
    rw [ht']
    rcases halike with rfl | ⟨htracks, htracks'⟩
    · simp only [spawned_alike h, allResults_alike h, isCutOff_alike h]
    · cases t <;> cases htracks <;> cases t' <;> cases htracks' <;> rfl

theorem answerBulk_alike (b : Bulk) : s'.answerBulk b = s.answerBulk b := by
  unfold Server.answerBulk
  rw [messagesOf_alike h, spawned_alike h, allResults_alike h, isCutOff_alike h]

end

theorem arrivals_same {s s' : Server ρ} (h : s.SameMail s') (e : Event) :
    s'.arrivals D e = s.arrivals D e := by
  cases e with
  | post rid parts => simp only [Server.arrivals, h.world.config]
  | postBulk bulkId auth messages =>
    simp only [Server.arrivals, h.world.config, h.threads.length_eq]
  | timeoutBulk i => exact timeoutBulk_alike h.threads i
  | _ => rfl

theorem alike_refl (ts : List Thread) : List.Forall₂ Thread.Alike ts ts :=
  List.forall₂_same.mpr fun _ _ => Or.inl rfl

theorem alike_tracks {t t' : Thread} (h : t.Alike t') : t'.isTracking = t.isTracking := by
  rcases h with rfl | ⟨ht, ht'⟩
  · rfl
  · rw [ht, ht']

theorem obeys_asks_nothing {α : Type} {Q : α → Attempt → Prop} {p : RelayM α} {a : Attempt}
    (hp : Obeys (Attempt.Next D) Q a p) {op : Op} (hop : p.head? = some op) : ¬ Asks op := by
  intro hasks
  cases p with
  | step op' k =>
    obtain rfl := Option.some.inj hop
    cases op' with
    | getRead id keyId =>
      obtain ⟨a', hnext, -⟩ := hp .absent
      exact hnext
    | _ => exact hasks
  | ret x => cases hop
  | abort => cases hop

/-- A submission asks the store nothing. -/
theorem attempt_asks_nothing {t : Thread} {φ : Option Attempt} (hok : t.Attempts D φ)
    (ht : t.isTracking = false) {op : Op} (hop : t.nextOp = some op) : ¬ Asks op := by
  cases t with
  | handling rid auth p =>
    obtain ⟨a, -, -, hp⟩ := hok
    exact obeys_asks_nothing hp hop
  | message b m =>
    obtain ⟨a, -, -, hm⟩ := hok
    cases m with
    | preparing item p => exact obeys_asks_nothing hm hop
    | submitting q p => exact obeys_asks_nothing hm hop
    | _ => cases hop
  | lookup p => cases ht
  | sweep p => cases ht
  | _ => cases hop

/-- A thread that tracks does so after its turn, and has left the mail as it was. -/
theorem turn_tracks {t t' : Thread} {φ : Option Attempt} {mayMove : Bool} {c : Choice}
    {w w₁ w' : World ρ} (hok : t.Attempts D φ) (ht : t.isTracking = true) (h : w.SameMail w')
    (hturn : t.turn D L mayMove c w = some (t', w₁)) :
    t'.isTracking = true ∧ w₁.SameMail w' := by
  have hprogram : ∀ {α : Type} {p p' : RelayM α}, Follows maintenanceNext (fun _ _ => True) () p →
      advance (exec L) c w p = some (p', w₁) → w₁.SameMail w' := by
    intro α p p' hp hadv
    obtain ⟨op, _, -, hmove, -, rfl⟩ := hp.advance hadv
    refine exec_maintenance h ?_
    by_contra hop
    simp [maintenanceNext, hop] at hmove
  cases t with
  | lookup p =>
    obtain ⟨⟨p', w₂⟩, hadv, hx⟩ := Option.map_eq_some_iff.mp hturn
    cases hx
    exact ⟨rfl, hprogram hok.2 hadv⟩
  | sweep p =>
    obtain ⟨⟨p', w₂⟩, hadv, hx⟩ := Option.map_eq_some_iff.mp hturn
    cases hx
    exact ⟨rfl, hprogram hok.2 hadv⟩
  | _ => cases ht

theorem step_tracks {s s₁ s' : Server ρ} {e : Event} {φs : List (Option Attempt)}
    (hok : List.Forall₂ (Thread.Attempts D) s.threads φs) (h : s.SameMail s')
    (htracks : s.tracks e = true) (hs : s.step D L e = some s₁) : s₁.SameMail s' := by
  cases e with
  | turn i c =>
    obtain ⟨t, ht, hs⟩ := Option.bind_eq_some_iff.mp hs
    obtain ⟨⟨t', w₁⟩, hturn, hs⟩ := Option.bind_eq_some_iff.mp hs
    cases hs
    have htracking : t.isTracking = true := by simpa [Server.tracks, ht] using htracks
    obtain ⟨φ, -, htφ⟩ := Sessions.forall₂_getElem? hok ht
    obtain ⟨ht', hworld⟩ := turn_tracks htφ htracking h.world hturn
    obtain ⟨u, hu, halike⟩ := Sessions.forall₂_getElem? h.threads ht
    have hset := Sessions.forall₂_set h.threads
      (Or.inr ⟨ht', (alike_tracks halike).trans htracking⟩ : t'.Alike u) i
    rw [Sessions.set_self hu] at hset
    exact ⟨hworld, hset⟩
  | _ => cases htracks

/-- Any other event happens to both. -/
theorem step_sameMail {s s₁ s' : Server ρ} {e : Event} {φs : List (Option Attempt)}
    (hok : List.Forall₂ (Thread.Attempts D) s.threads φs) (h : s.SameMail s')
    (htracks : s.tracks e = false) (hs : s.step D L e = some s₁) :
    ∃ s₁', s'.step D L e = some s₁' ∧ s₁.SameMail s₁' := by
  have harrive : s₁ = { s with threads := s.threads ++ s.arrivals D e } →
      s'.step D L e = some { s' with threads := s'.threads ++ s'.arrivals D e } →
      ∃ s₁', s'.step D L e = some s₁' ∧ s₁.SameMail s₁' := by
    rintro rfl hs'
    refine ⟨_, hs', h.world, ?_⟩
    rw [arrivals_same h e]
    exact List.rel_append h.threads (alike_refl _)
  cases e with
  | turn i c =>
    obtain ⟨t, ht, hs⟩ := Option.bind_eq_some_iff.mp hs
    obtain ⟨⟨t', w₁⟩, hturn, hs⟩ := Option.bind_eq_some_iff.mp hs
    cases hs
    have htracking : t.isTracking = false := by simpa [Server.tracks, ht] using htracks
    obtain ⟨φ, -, htφ⟩ := Sessions.forall₂_getElem? hok ht
    obtain ⟨u, hu, halike⟩ := Sessions.forall₂_getElem? h.threads ht
    obtain rfl : u = t := halike.resolve_right fun hboth => by
      rw [htracking] at hboth
      cases hboth.1
    rw [← mayMove_alike h.threads] at hturn
    obtain ⟨w₁', hturn', hworld⟩ := turn_sameMail h.world
      (fun op hop => attempt_asks_nothing htφ htracking hop) hturn
    refine ⟨{ world := w₁', threads := s'.threads.set i t' }, ?_, hworld,
      Sessions.forall₂_set h.threads (Or.inl rfl) i⟩
    simp only [Server.step, hu, hturn', Option.bind_eq_bind, Option.bind_some]
  | timeout i =>
    obtain ⟨t, ht, hs⟩ := Option.bind_eq_some_iff.mp hs
    obtain ⟨t', htimeout, hs⟩ := Option.bind_eq_some_iff.mp hs
    cases hs
    obtain ⟨u, hu, halike⟩ := Sessions.forall₂_getElem? h.threads ht
    have htracking : t.isTracking = false := by
      cases t with
      | lookup p => cases htimeout
      | sweep p => cases htimeout
      | _ => rfl
    obtain rfl : u = t := halike.resolve_right fun hboth => by
      rw [htracking] at hboth
      cases hboth.1
    refine ⟨{ s' with threads := s'.threads.set i t' }, ?_, h.world,
      Sessions.forall₂_set h.threads (Or.inl rfl) i⟩
    simp only [Server.step, hu, htimeout, Option.bind_eq_bind, Option.bind_some]
  | reload config =>
    cases hs
    obtain ⟨hconfig, hlimiter, hlimit, hhanded⟩ := h.world
    exact ⟨_, rfl, ⟨congrArg (mergeReloadable · config) hconfig, hlimiter, hlimit, hhanded⟩,
      h.threads⟩
  | post rid parts => exact harrive (Option.some.inj hs).symm rfl
  | postBulk bulkId auth messages => exact harrive (Option.some.inj hs).symm rfl
  | lookup rid keyId => exact harrive (Option.some.inj hs).symm rfl
  | sweep => exact harrive (Option.some.inj hs).symm rfl
  | timeoutBulk i => exact harrive (Option.some.inj hs).symm rfl

theorem run_sameMail {es : List Event} {s s₁ s' : Server ρ} {φs : List (Option Attempt)}
    (hok : List.Forall₂ (Thread.Attempts D) s.threads φs) (h : s.SameMail s')
    (hrun : s.run D L es = some s₁) :
    ∃ s₁', s'.run D L (s.untracked D L es) = some s₁' ∧ s₁.SameMail s₁' := by
  induction es generalizing s s' φs with
  | nil =>
    cases hrun
    exact ⟨s', rfl, h⟩
  | cons e es ih =>
    obtain ⟨s₂, hs₂, hrun⟩ := Option.bind_eq_some_iff.mp hrun
    obtain ⟨φs₂, hok₂, -⟩ := Delivery.lawful.step hok trivial hs₂
    have hrest : s.untracked D L (e :: es) =
        (if s.tracks e then [] else [e]) ++ s₂.untracked D L es := by
      simp only [Server.untracked, Server.observe, hs₂]
    rw [hrest]
    cases htracks : s.tracks e with
    | true => exact ih hok₂ (step_tracks hok h htracks hs₂) hrun
    | false =>
      obtain ⟨s₂', hs₂', h₂⟩ := step_sameMail hok h htracks hs₂
      obtain ⟨s₁', hrun', h₁⟩ := ih hok₂ h₂ hrun
      refine ⟨s₁', ?_, h₁⟩
      simp only [Bool.false_eq_true, if_false, List.cons_append, List.nil_append, Server.run, hs₂']
      exact hrun'

end TrackingIndependence

theorem mail_independent_of_tracking {D : Deps} {L : Limiter ρ} {w : World ρ} {es : List Event}
    {s : Server ρ} (hrun : Server.run D L ⟨w, []⟩ es = some s) (store : StatusStore) :
    ∃ s', Server.run D L ⟨w.withStore store, []⟩ (Server.untracked D L ⟨w, []⟩ es) = some s' ∧
      s.SameMail s' ∧ ∀ b, s'.answerBulk b = s.answerBulk b := by
  have hstart : Server.SameMail ⟨w, []⟩ ⟨w.withStore store, []⟩ := ⟨⟨rfl, rfl, rfl, rfl⟩, .nil⟩
  obtain ⟨s', hrun', h⟩ := TrackingIndependence.run_sameMail .nil hstart hrun
  exact ⟨s', hrun', h, TrackingIndependence.answerBulk_alike h.threads⟩

/-- A message is sent, its status is looked up, and the store is swept. -/
def trackedEvents : List Event :=
  sampleEvents ++ [.lookup sampleId sampleAuth.keyId, .turn 1 sampleChoice, .sweep,
    .turn 2 sampleChoice, .turn 2 sampleChoice]

theorem mail_independent_of_tracking_noop :
    ∃ s s', Server.run jsonDeps .admitAll ⟨sampleWorld, []⟩ trackedEvents = some s ∧
      s.world.app.statusStore ≠ .noop ∧
      Server.run jsonDeps .admitAll ⟨sampleWorld.withStore .noop, []⟩
        (sampleEvents ++ [.lookup sampleId sampleAuth.keyId, .sweep]) = some s' ∧
      s.SameMail s' := by
  obtain ⟨s, hrun, hstore⟩ : ∃ s, Server.run jsonDeps .admitAll ⟨sampleWorld, []⟩ trackedEvents =
      some s ∧ s.world.app.statusStore ≠ .noop := by
    refine ⟨_, rfl, ?_⟩
    intro h
    cases h
  obtain ⟨s', hrun', hsame, -⟩ := mail_independent_of_tracking hrun .noop
  exact ⟨s, s', hrun, hstore, hrun', hsame⟩

end HttpSmtpRele
