import HttpSmtpRele.Delivery
import HttpSmtpRele.BulkCutoff

/-!
# How much mail gets out

The limiter counts submissions when they arrive, and what it has let pass is
handed over later, in any order.  In any window of a run what is handed over is
bounded by what was on its way when the window began and by the envelope of the
tier, for the global tier and for each key.  The tokens are exact: the roundings of
`f64` can let a submission through that the envelope does not.
-/

namespace HttpSmtpRele

open Attempt

/-- A tier that has one bucket for all it guards. -/
inductive Gate
  | global
  | key (keyId : String)

/-- Whether the answer lets the submission pass. -/
def Op.passes : (op : Op) → op.Res → Bool
  | .checkGlobal, r => r.isOk
  | .checkKey _ _ _, r => r.isOk
  | _, _ => false

namespace Gate

def guards : Gate → AuthContext → Bool
  | global, _ => true
  | key keyId, auth => auth.keyId == keyId

def isCheck : Gate → Op → Bool
  | global, .checkGlobal => true
  | key keyId, .checkKey keyId' _ _ => keyId' == keyId
  | _, _ => false

def bucket (l : RateLimiter) : Gate → Option TokenBucket
  | global => some l.global
  | key keyId => l.byKey.get keyId

/-- The submission is past the gate and has handed nothing over. -/
def isPast : Gate → Stage → Bool
  | global, .passedGlobal => true
  | global, .passedIp => true
  | _, .admitted => true
  | _, .started => true
  | _, _ => false

def permits (g : Gate) (a : Attempt) : Nat := if g.guards a.auth && g.isPast a.stage then 1 else 0

end Gate

namespace Thread

/-- The submission is not answered and not cut off. -/
def inFlight : Thread → Bool
  | receiving _ _ _ => true
  | handling _ _ (.ret _) => false
  | handling _ _ _ => true
  | message _ m => m.result?.isNone
  | _ => false

/-- What the thread may still hand over. -/
def weight (g : Gate) (t : Thread) : Option Attempt → Nat
  | some a => if t.inFlight then g.permits a else 0
  | none => 0

end Thread

namespace Server

variable {ρ : Type}

/-- When the check at the gate, if the event is one, lets a submission pass. -/
def passes (L : Limiter ρ) (g : Gate) (s : Server ρ) : Event → List Instant
  | .turn i c =>
    match (s.threads[i]?).bind Thread.nextOp with
    | some op => if g.isCheck op && op.passes (exec L op c s.world).1 then [c.instant] else []
    | none => []
  | _ => []

/-- The submissions that are on their way. -/
def inFlight (g : Gate) (s : Server ρ) : Nat :=
  s.threads.countP fun t => t.inFlight && t.auth?.any g.guards

end Server

/-- The clock runs from `start` to `till`, and is read in between. -/
def Clocked : Instant → List Event → Instant → Prop
  | start, [], till => start ≤ till
  | start, .turn _ c :: es, till => start ≤ c.instant ∧ Clocked c.instant es till
  | start, _ :: es, till => Clocked start es till

namespace Outflow

/-! ## Permits -/

/-- One operation of a submission: what it hands over it had passed the gate for. -/
theorem permits_next {D : Deps} {a a' : Attempt} {op : Op} {r : op.Res} (h : a.Next D op r a')
    (g : Gate) :
    (if op.handed?.isSome && g.guards a.auth then 1 else 0) + g.permits a' ≤
      g.permits a + if g.isCheck op && op.passes r then 1 else 0 := by
  have hkept : a'.auth = a.auth → a'.stage = a.stage → op.handed? = none →
      (if op.handed?.isSome && g.guards a.auth then 1 else 0) + g.permits a' ≤
        g.permits a + if g.isCheck op && op.passes r then 1 else 0 := by
    intro hauth hstage hop
    rw [hop, Gate.permits, Gate.permits, hauth, hstage]
    simp
  cases op with
  | config => exact hkept (by rw [h.2]) (by rw [h.2]) rfl
  | now => exact hkept (by rw [show a' = a from h]) (by rw [show a' = a from h]) rfl
  | putReceived record => exact hkept (by rw [h.2]) (by rw [h.2]) rfl
  | setRecipientMetadata id keyId domains count => exact hkept (by rw [h.2]) (by rw [h.2]) rfl
  | updateStatus id keyId update =>
    obtain ⟨-, stage', hreport, rfl⟩ := h
    rcases Stage.report_cases hreport with ⟨-, -, rfl⟩ | ⟨-, hstage, rfl⟩ | ⟨-, -, rfl⟩ |
      ⟨-, -, rfl⟩
    · cases g <;> simp [Gate.permits, Gate.isPast, Op.handed?]
    · cases g <;> simp [Gate.permits, Gate.isPast, Op.handed?, hstage]
    · exact hkept rfl rfl rfl
    · exact hkept rfl rfl rfl
  | getRead id keyId => cases h
  | getExpire id => cases h
  | expireOldRecords now => cases h
  | checkGlobal =>
    obtain ⟨hstage, rfl⟩ := h
    cases g with
    | global => cases hr : r.isOk <;> simp [Gate.permits, Gate.isPast, Gate.isCheck, Op.passes,
        Op.handed?, hstage, hr, Gate.guards]
    | key keyId => cases r.isOk <;> simp [Gate.permits, Gate.isPast, Op.handed?]
  | checkIp ip =>
    obtain ⟨hstage, -, rfl⟩ := h
    cases g with
    | global => cases r.isOk <;> simp [Gate.permits, Gate.isPast, Op.handed?, hstage]
    | key keyId => cases r.isOk <;> simp [Gate.permits, Gate.isPast, Op.handed?]
  | checkKey keyId perMin burst =>
    obtain ⟨hstage, hkey, -, -, rfl⟩ := h
    cases g with
    | global => cases r.isOk <;> simp [Gate.permits, Gate.isPast, Op.handed?, hstage]
    | key keyId' =>
      have hguards : (Gate.key keyId').isCheck (.checkKey keyId perMin burst) =
          (Gate.key keyId').guards a.auth := by
        rw [Gate.isCheck, Gate.guards, hkey]
      cases hr : r.isOk with
      | true => simp [Gate.permits, Gate.isPast, Op.handed?, Op.passes, hr, hguards]
      | false => simp [Gate.permits, Gate.isPast, Op.handed?]
  | smtpSend message timeout =>
    obtain ⟨⟨hstage, -⟩, rfl⟩ := h
    cases g <;> simp [Gate.permits, Gate.isPast, Op.handed?, hstage]
  | pipeSend message command timeout =>
    obtain ⟨⟨hstage, -⟩, rfl⟩ := h
    cases g <;> simp [Gate.permits, Gate.isPast, Op.handed?, hstage]

/-- A submission that can move is on its way. -/
theorem inFlight_of_passes {D : Deps} {t t' : Thread} (h : t.Passes D t') : t.inFlight = true := by
  cases h <;> rfl

theorem inFlight_of_performs {t : Thread} {op : Op} {f : op.Res → Thread} (h : t.Performs op f) :
    t.inFlight = true ∨ t.auth? = none := by
  cases h with
  | handling rid auth op k => exact Or.inl rfl
  | preparing b item op k => exact Or.inl rfl
  | submitting b q op k => exact Or.inl rfl
  | lookup op k => exact Or.inr rfl
  | sweep op k => exact Or.inr rfl

variable {ρ : Type} {D : Deps} {L : Limiter ρ} (g : Gate)

theorem weight_le (t : Thread) (a : Attempt) : t.weight g (some a) ≤ g.permits a := by
  unfold Thread.weight
  dsimp only
  split
  · exact le_rfl
  · exact Nat.zero_le _

theorem weight_inFlight {t : Thread} {a : Attempt} (h : t.inFlight = true) :
    t.weight g (some a) = g.permits a :=
  if_pos h

/-- One event: what is handed over comes off what was on its way. -/
theorem permits_step {s s' : Server ρ} {e : Event} {φs φs' : List (Option Attempt)}
    (hok : List.Forall₂ (Thread.Attempts D) s.threads φs)
    (hmove : SessionStep (submissions D) D L s φs e s' φs') :
    (s.handOff e).countP (fun h => g.guards h.auth) +
        Sessions.total (Thread.weight g) s'.threads φs' ≤
      Sessions.total (Thread.weight g) s.threads φs + (s.passes L g e).length := by
  cases hmove with
  | performs hthread hstage hokt hperforms hnext hok' =>
    rename_i i c t op f φ φ'
    have hop := hperforms.nextOp
    have htotal := Sessions.total_set (Thread.weight g) hthread hstage
      (f (exec L op c s.world).1) φ'
    have hpasses : s.passes L g (.turn i c) =
        if g.isCheck op && op.passes (exec L op c s.world).1 then [c.instant] else [] := by
      simp [Server.passes, hthread, hop]
    rw [Delivery.handOff_turn hthread, hpasses]
    cases φ with
    | none =>
      obtain ⟨hmaint, rfl⟩ := hnext
      rw [Delivery.handOff_maintenance hop hmaint, List.countP_nil]
      have hnone : ∀ u : Thread, u.weight g none = 0 := fun _ => rfl
      rw [hnone, hnone] at htotal
      show 0 + Sessions.total _ (s.threads.set i _) (φs.set i none) ≤ _
      omega
    | some a =>
      obtain ⟨a', rfl, hnext⟩ := hnext
      have hflight : t.inFlight = true := by
        refine (inFlight_of_performs hperforms).resolve_right fun hnone => ?_
        rw [Delivery.attempts_auth hokt] at hnone
        cases hnone
      have hpermits := permits_next hnext g
      have hweight := weight_le g (f (exec L op c s.world).1) a'
      rw [weight_inFlight g hflight] at htotal
      have hcount : (t.handOff i c).countP (fun h => g.guards h.auth) =
          if op.handed?.isSome && g.guards a.auth then 1 else 0 := by
        rw [Delivery.handOff_attempt hokt hop]
        cases op.handed? with
        | none => rfl
        | some h => simp
      have hlength : (if g.isCheck op && op.passes (exec L op c s.world).1 then [c.instant]
          else []).length =
          if g.isCheck op && op.passes (exec L op c s.world).1 then 1 else 0 := by
        split <;> rfl
      rw [hcount, hlength]
      show _ + Sessions.total _ (s.threads.set i _) (φs.set i (some a')) ≤ _
      omega
  | idles hthread hstage hidles hokt hok' =>
    rename_i i t t' φ
    have htotal := Sessions.total_set (Thread.weight g) hthread hstage t' φ
    rw [Sessions.set_self hstage] at htotal
    have hweight : t'.weight g φ ≤ t.weight g φ := by
      cases φ with
      | none => exact le_rfl
      | some a =>
        cases hidles with
        | timesOut htimeout =>
          obtain ⟨rid, auth, rfl⟩ := Thread.timeout_eq htimeout
          exact Nat.zero_le _
        | passes hpasses =>
          rw [weight_inFlight g (inFlight_of_passes hpasses)]
          exact weight_le g t' a
    rw [Delivery.handOff_idles hthread hidles, List.countP_nil]
    show 0 + Sessions.total _ (s.threads.set i t') φs ≤ _
    omega
  | arrives hevent hstart hok' =>
    rename_i new
    rw [Delivery.handOff_of_not_turn hevent, List.countP_nil]
    show 0 + Sessions.total _ (s.threads ++ s.arrivals D e) (φs ++ new) ≤ _
    -- a submission that has just come has passed nothing
    have hzero : Sessions.total (Thread.weight g) (s.arrivals D e) new = 0 := by
      apply Sessions.total_eq_zero
      intro t φ hφ
      cases φ with
      | none => rfl
      | some a =>
        have hstage := (hstart _ hφ a rfl).stage
        have hpermits : g.permits a = 0 := by
          cases g <;> simp [Gate.permits, Gate.isPast, hstage]
        exact Nat.le_zero.mp ((weight_le g t a).trans_eq hpermits)
    rw [Sessions.total_append hok, hzero]
    omega
  | reloads config =>
    rw [show s.handOff (.reload config) = [] from rfl, List.countP_nil]
    exact (Nat.zero_add _).trans_le (Nat.le_add_right _ _)

theorem total_le_inFlight {s : Server ρ} {φs : List (Option Attempt)}
    (hok : List.Forall₂ (Thread.Attempts D) s.threads φs) :
    Sessions.total (Thread.weight g) s.threads φs ≤ s.inFlight g := by
  apply Sessions.total_le_countP hok
  intro t φ hφ
  cases φ with
  | none => exact Nat.zero_le _
  | some a =>
    rw [Delivery.attempts_auth hφ, Option.any_some]
    show (if t.inFlight then if g.guards a.auth && g.isPast a.stage then 1 else 0 else 0) ≤
      if t.inFlight && g.guards a.auth then 1 else 0
    cases t.inFlight <;> cases g.guards a.auth <;> cases g.isPast a.stage <;> decide

/-! ## The bucket of a gate -/

/-- The bucket holds what the submissions that passed have left, and they conform
to its envelope; the bucket of a key is there once it is used. -/
def Metered (cfg : RateLimitConfig) (l : RateLimiter) (takes : List Instant) : Prop :=
  match g.bucket l with
  | none => takes = []
  | some b => ∃ perMinute burst created, b.Tracks perMinute burst created takes ∧
      (TokenBucket.envelope perMinute burst).Conforms created takes ∧
      (g = .global → perMinute = cfg.globalPerMin ∧ burst = cfg.effectiveGlobalBurst)

/-- No bucket has been used after `t`. -/
structure LastUsed (l : RateLimiter) (t : Instant) : Prop where
  global : l.global.lastRefill ≤ t
  byKey : ∀ keyId b, l.byKey.get keyId = some b → b.lastRefill ≤ t

theorem tracks_conforms {b : TokenBucket} {perMinute burst : Nat} {created now : Instant}
    {takes : List Instant} (h : b.Tracks perMinute burst created takes)
    (hconforms : (TokenBucket.envelope perMinute burst).Conforms created takes)
    (hnow : b.lastRefill ≤ now) :
    (TokenBucket.envelope perMinute burst).Conforms created
      ((if (b.tryConsume now).1.isOk then [now] else []) ++ takes) := by
  have hcalls : (b.lastRefill :: [now]).Pairwise (· ≤ ·) := by simpa using hnow
  have hrun := TokenBucket.run_tracks h hconforms hcalls
  simpa [TokenBucket.taken] using hrun.2

/-- The bucket that a check of the key consults: it is there, or it is made now. -/
theorem keyBucket_tracks {cfg : RateLimitConfig} {l : RateLimiter} {takes : List Instant}
    {keyId : String} {now : Instant} (h : Metered (.key keyId) cfg l takes)
    (hlast : LastUsed l now) (perMin : Option Nat) (burst : Nat) :
    ∃ perMinute burst' created,
      (l.keyBucket keyId perMin burst now).Tracks perMinute burst' created takes ∧
        (TokenBucket.envelope perMinute burst').Conforms created takes ∧
        (l.keyBucket keyId perMin burst now).lastRefill ≤ now := by
  unfold Metered Gate.bucket at h
  unfold RateLimiter.keyBucket
  dsimp only at h ⊢
  cases hbucket : l.byKey.get keyId with
  | none =>
    rw [hbucket] at h
    obtain rfl : takes = [] := h
    exact ⟨_, _, _, TokenBucket.new_tracks _ _ _, trivial, le_rfl⟩
  | some b =>
    rw [hbucket] at h
    obtain ⟨perMinute, burst', created, htracks, hconforms, -⟩ := h
    exact ⟨perMinute, burst', created, htracks, hconforms, hlast.byKey keyId b hbucket⟩

theorem metered_exec {cfg : RateLimitConfig} {w : World RateLimiter} {takes : List Instant}
    {op : Op} {c : Choice} (h : Metered g cfg w.app.rateLimiter takes)
    (hlast : LastUsed w.app.rateLimiter c.instant) :
    Metered g cfg (exec rateLimiter op c w).2.app.rateLimiter
      ((if g.isCheck op && op.passes (exec rateLimiter op c w).1 then [c.instant] else []) ++
        takes) := by
  have hother : g.isCheck op = false →
      g.bucket (exec rateLimiter op c w).2.app.rateLimiter = g.bucket w.app.rateLimiter →
      Metered g cfg (exec rateLimiter op c w).2.app.rateLimiter
        ((if g.isCheck op && op.passes (exec rateLimiter op c w).1 then [c.instant] else []) ++
          takes) := by
    intro hcheck hbucket
    unfold Metered
    rw [hbucket, hcheck]
    exact h
  cases op with
  | checkGlobal =>
    cases g with
    | key keyId => exact hother rfl rfl
    | global =>
      obtain ⟨perMinute, burst, created, htracks, hconforms, hlimits⟩ := h
      have hfirst : (exec rateLimiter .checkGlobal c w).1 =
          (w.app.rateLimiter.global.tryConsume c.instant).1 := RateLimiter.fst_checkGlobal _ _
      refine ⟨perMinute, burst, created, ?_, ?_, hlimits⟩
      · rw [hfirst]
        exact TokenBucket.tryConsume_tracks htracks hlast.global
      · rw [hfirst]
        exact tracks_conforms htracks hconforms hlast.global
  | checkKey keyId perMin burst =>
    cases g with
    | global => exact hother rfl rfl
    | key keyId' =>
      have hget := RateLimiter.get_checkKey keyId perMin burst c.instant w.app.rateLimiter keyId'
      by_cases hkey : keyId' = keyId
      · subst hkey
        rw [if_pos rfl] at hget
        have hpasses : (Op.checkKey keyId' perMin burst).passes
            (exec rateLimiter (.checkKey keyId' perMin burst) c w).1 =
              ((w.app.rateLimiter.keyBucket keyId' perMin burst c.instant).tryConsume
                c.instant).1.isOk :=
          congrArg Except.isOk (RateLimiter.fst_checkKey _ _ _ _ _)
        have hcheck : (Gate.key keyId').isCheck (.checkKey keyId' perMin burst) = true :=
          beq_self_eq_true keyId'
        obtain ⟨perMinute, burst', created, htracks, hconforms, hfresh⟩ :=
          keyBucket_tracks h hlast perMin burst
        have hbucket : (Gate.key keyId').bucket
            (exec rateLimiter (.checkKey keyId' perMin burst) c w).2.app.rateLimiter = some
              ((w.app.rateLimiter.keyBucket keyId' perMin burst c.instant).tryConsume
                c.instant).2 := hget
        unfold Metered
        rw [hbucket, hcheck, hpasses, Bool.true_and]
        exact ⟨perMinute, burst', created, TokenBucket.tryConsume_tracks htracks hfresh,
          tracks_conforms htracks hconforms hfresh, fun hg => (nomatch hg)⟩
      · rw [if_neg hkey] at hget
        exact hother (beq_eq_false_iff_ne.mpr (Ne.symm hkey)) hget
  | _ =>
    apply hother
    · cases g <;> rfl
    · cases g <;> rfl

/-! ## The clock -/

theorem LastUsed.mono {l : RateLimiter} {t t' : Instant} (h : LastUsed l t) (ht : t ≤ t') :
    LastUsed l t' :=
  ⟨h.global.trans ht, fun keyId b hb => (h.byKey keyId b hb).trans ht⟩

theorem lastUsed_exec {w : World RateLimiter} {c : Choice}
    (h : LastUsed w.app.rateLimiter c.instant) (op : Op) :
    LastUsed (exec rateLimiter op c w).2.app.rateLimiter c.instant := by
  cases op with
  | checkGlobal => exact ⟨(TokenBucket.lastRefill_tryConsume _ _).le, h.byKey⟩
  | checkIp ip => exact ⟨h.global, h.byKey⟩
  | checkKey keyId perMin burst =>
    refine ⟨h.global, fun keyId' b hb => ?_⟩
    have hget := RateLimiter.get_checkKey keyId perMin burst c.instant w.app.rateLimiter keyId'
    have hb' : (w.app.rateLimiter.checkKey keyId perMin burst c.instant).2.byKey.get keyId' =
        some b := hb
    rw [hget] at hb'
    split at hb'
    · obtain rfl := Option.some.inj hb'
      exact (TokenBucket.lastRefill_tryConsume _ _).le
    · exact h.byKey keyId' b hb'
  | _ => exact h

/-- The limiter changes in turns only. -/
theorem limiter_step {D : Deps} {s s' : Server RateLimiter} {e : Event}
    (hs : s.step D rateLimiter e = some s') :
    s'.world.app.rateLimiter = s.world.app.rateLimiter ∨ ∃ i c op, e = .turn i c ∧
      s'.world.app.rateLimiter = (exec rateLimiter op c s.world).2.app.rateLimiter := by
  cases e with
  | turn i c =>
    simp only [Server.step, Option.bind_eq_bind, Option.bind_eq_some_iff] at hs
    obtain ⟨t, -, ⟨t', w'⟩, hturn, hs⟩ := hs
    cases hs
    rcases Thread.turn_world hturn with ⟨-, rfl⟩ | ⟨op, -, rfl⟩
    · exact Or.inl rfl
    · exact Or.inr ⟨i, c, op, rfl, rfl⟩
  | timeout i =>
    simp only [Server.step, Option.bind_eq_bind, Option.bind_eq_some_iff] at hs
    obtain ⟨t, -, t', -, hs⟩ := hs
    cases hs
    exact Or.inl rfl
  | _ =>
    cases hs
    exact Or.inl rfl

/-- The clock is read when a turn is taken, after all that has been used. -/
def InTime (mid : Instant) (s : Server RateLimiter) : Event → Prop
  | .turn _ c => LastUsed s.world.app.rateLimiter c.instant ∧ mid ≤ c.instant
  | _ => True

theorem clocked_start_le {start till : Instant} {es : List Event} (h : Clocked start es till) :
    start ≤ till := by
  induction es generalizing start with
  | nil => exact h
  | cons e es ih =>
    cases e with
    | turn i c => exact h.1.trans (ih h.2)
    | _ => exact ih h

theorem inTime_run {D : Deps} {s s' : Server RateLimiter} {es : List Event}
    {mid start till : Instant} (hlast : LastUsed s.world.app.rateLimiter start)
    (hmid : mid ≤ start) (hclock : Clocked start es till)
    (hrun : s.run D rateLimiter es = some s') :
    s.EachStep D rateLimiter (InTime mid) es ∧ LastUsed s'.world.app.rateLimiter till := by
  induction es generalizing s start with
  | nil =>
    cases hrun
    exact ⟨trivial, hlast.mono hclock⟩
  | cons e es ih =>
    obtain ⟨s₁, hs₁, hrun⟩ := Option.bind_eq_some_iff.mp hrun
    have hnext : ∃ now, start ≤ now ∧ Clocked now es till ∧ InTime mid s e ∧
        LastUsed s₁.world.app.rateLimiter now := by
      cases e with
      | turn i c =>
        have hused := hlast.mono hclock.1
        refine ⟨c.instant, hclock.1, hclock.2, ⟨hused, hmid.trans hclock.1⟩, ?_⟩
        rcases limiter_step hs₁ with hl | ⟨i', c', op, he, hl⟩
        · rwa [hl]
        · cases he
          rw [hl]
          exact lastUsed_exec hused op
      | _ =>
        refine ⟨start, le_rfl, hclock, trivial, ?_⟩
        rcases limiter_step hs₁ with hl | ⟨i, c, op, he, -⟩
        · rwa [hl]
        · cases he
    obtain ⟨now, hnow, hclock', hin, hlast'⟩ := hnext
    obtain ⟨heach, hend⟩ := ih hlast' (hmid.trans hnow) hclock' hrun
    refine ⟨fun s₂ hs₂ => ?_, hend⟩
    obtain rfl := Option.some.inj (hs₁.symm.trans hs₂)
    exact ⟨hin, heach⟩

/-! ## The account of a gate -/

theorem metered_step {D : Deps} {cfg : RateLimitConfig} {s s' : Server RateLimiter} {e : Event}
    {φs φs' : List (Option Attempt)} {takes : List Instant} {mid : Instant}
    (hin : InTime mid s e)
    (hmove : SessionStep (submissions D) D rateLimiter s φs e s' φs')
    (h : Metered g cfg s.world.app.rateLimiter takes) :
    Metered g cfg s'.world.app.rateLimiter (s.passes rateLimiter g e ++ takes) ∧
      ∀ t ∈ s.passes rateLimiter g e, mid ≤ t := by
  cases hmove with
  | performs hthread hstage hokt hperforms hnext hok' =>
    rename_i i c t op f φ φ'
    have hop := hperforms.nextOp
    have hpasses : s.passes rateLimiter g (.turn i c) =
        if g.isCheck op && op.passes (exec rateLimiter op c s.world).1 then [c.instant]
        else [] := by
      simp [Server.passes, hthread, hop]
    rw [hpasses]
    refine ⟨metered_exec g h hin.1, fun t ht => ?_⟩
    split at ht
    · rw [List.mem_singleton.mp ht]
      exact hin.2
    · cases ht
  | idles hthread hstage hidles hokt hok' =>
    have hnone : s.passes rateLimiter g e = [] := by
      cases hidles with
      | timesOut htimeout => rfl
      | passes hpasses => simp [Server.passes, hthread, hpasses.nextOp]
    rw [hnone]
    exact ⟨h, fun _ ht => (List.not_mem_nil ht).elim⟩
  | arrives hevent hstart hok' =>
    have hnone : s.passes rateLimiter g e = [] := by
      cases e with
      | turn i c => exact absurd rfl (hevent i c)
      | _ => rfl
    rw [hnone]
    exact ⟨h, fun _ ht => (List.not_mem_nil ht).elim⟩
  | reloads config => exact ⟨h, fun _ ht => (List.not_mem_nil ht).elim⟩

/-- From a state of a run on: what is handed over, and what may still be, was on its way
or has passed since. -/
structure Account (g : Gate) (cfg : RateLimitConfig) (mid : Instant) (takes₀ : List Instant)
    (backlog : Nat) (s : Server RateLimiter) (φs : List (Option Attempt)) (log : List HandOff)
    (new : List Instant) : Prop where
  metered : Metered g cfg s.world.app.rateLimiter (new ++ takes₀)
  since : ∀ t ∈ new, mid ≤ t
  handed : log.countP (fun h => g.guards h.auth) + Sessions.total (Thread.weight g) s.threads φs ≤
    backlog + new.length

theorem account_run {D : Deps} {cfg : RateLimitConfig} {mid till : Instant}
    {takes₀ : List Instant} {s s' : Server RateLimiter} {φs : List (Option Attempt)}
    {es : List Event} (hok : List.Forall₂ (Thread.Attempts D) s.threads φs)
    (hmetered : Metered g cfg s.world.app.rateLimiter takes₀)
    (hlast : LastUsed s.world.app.rateLimiter mid) (hclock : Clocked mid es till)
    (hrun : s.run D rateLimiter es = some s') :
    ∃ φs' new, List.Forall₂ (Thread.Attempts D) s'.threads φs' ∧
      Account g cfg mid takes₀ (Sessions.total (Thread.weight g) s.threads φs) s' φs'
        (s.handOffs D rateLimiter es) new := by
  have hstart : Account g cfg mid takes₀ (Sessions.total (Thread.weight g) s.threads φs) s φs
      [] [] :=
    ⟨hmetered, fun _ ht => (List.not_mem_nil ht).elim, (Nat.zero_add _).le⟩
  have hlawful : (submissions D).Lawful D fun (_ : Server RateLimiter) _ => True :=
    Delivery.lawful
  have htimes := (inTime_run hlast le_rfl hclock hrun).1
  obtain ⟨φs', hok', new, haccount⟩ :=
    (hlawful.mono fun _ _ _ => trivial).run (f := Server.handOff)
      (I := fun s' φs' log => ∃ new, Account g cfg mid takes₀
        (Sessions.total (Thread.weight g) s.threads φs) s' φs' log new)
      (by
        intro s₁ s₂ e φs₁ φs₂ log hok₁ hin hmove hI
        obtain ⟨new, hnew⟩ := hI
        obtain ⟨hmetered', hsince⟩ := metered_step g hin hmove hnew.metered
        refine ⟨s₁.passes rateLimiter g e ++ new, ?_, ?_, ?_⟩
        · rwa [List.append_assoc]
        · intro t ht
          rcases List.mem_append.mp ht with ht | ht
          · exact hsince t ht
          · exact hnew.since t ht
        · have hpermits := permits_step g hok₁ hmove
          have hhanded := hnew.handed
          rw [List.countP_append, List.length_append]
          omega)
      hok ⟨[], hstart⟩ htimes hrun
  rw [List.nil_append] at haccount
  exact ⟨φs', new, hok', haccount⟩

theorem lastUsed_new (cfg : RateLimitConfig) (start : Instant) :
    LastUsed (.new cfg start) start :=
  ⟨le_rfl, fun _ _ hb => nomatch hb⟩

theorem metered_new (cfg : RateLimitConfig) (start : Instant) :
    Metered g cfg (.new cfg start) [] := by
  cases g with
  | global => exact ⟨_, _, _, TokenBucket.new_tracks _ _ _, trivial, fun _ => ⟨rfl, rfl⟩⟩
  | key keyId => rfl

/-- What has passed in a window is within the envelope of the bucket. -/
theorem taken_le_allowed {b : TokenBucket} {perMinute burst : Nat} {created mid till : Instant}
    {new takes₀ : List Instant} (htracks : b.Tracks perMinute burst created (new ++ takes₀))
    (hconforms : (TokenBucket.envelope perMinute burst).Conforms created (new ++ takes₀))
    (hsince : ∀ t ∈ new, mid ≤ t) (hlast : b.lastRefill ≤ till) (hwindow : mid ≤ till) :
    (new.length : ℚ) ≤ b.capacity + b.tokensPerSec * seconds (till - mid) := by
  have hwithin := hconforms.takenWithin_le hwindow
  have hcount : new.length ≤ RateEnvelope.takenWithin (new ++ takes₀) mid till := by
    unfold RateEnvelope.takenWithin
    rw [List.countP_append, List.countP_eq_length.mpr]
    · exact Nat.le_add_right _ _
    · intro t ht
      have hpast := (htracks.level.past t (List.mem_append_left _ ht)).trans hlast
      simpa using ⟨hsince t ht, hpast⟩
  have hallowed : (TokenBucket.envelope perMinute burst).allowed mid till =
      b.capacity + b.tokensPerSec * seconds (till - mid) := by
    rw [htracks.capacity, htracks.rate, seconds_sub hwindow]
    rfl
  rw [← hallowed]
  exact (Nat.cast_le.mpr hcount).trans hwithin

/-- In a window of a run: what is handed over was on its way, or has passed the bucket. -/
theorem window_within {D : Deps} {w : World RateLimiter} {cfg : RateLimitConfig}
    {start mid till : Instant} (hlimiter : w.app.rateLimiter = .new cfg start)
    {before window : List Event} {s₁ s₂ : Server RateLimiter}
    (hrun₁ : Server.run D rateLimiter ⟨w, []⟩ before = some s₁)
    (hrun₂ : s₁.run D rateLimiter window = some s₂)
    (hclock₁ : Clocked start before mid) (hclock₂ : Clocked mid window till) :
    match g.bucket s₂.world.app.rateLimiter with
    | none => (s₁.handOffs D rateLimiter window).countP (fun h => g.guards h.auth) = 0
    | some b =>
      (((s₁.handOffs D rateLimiter window).countP fun h => g.guards h.auth : Nat) : ℚ) ≤
          s₁.inFlight g + (b.capacity + b.tokensPerSec * seconds (till - mid)) ∧
        (g = .global → b.capacity = cfg.effectiveGlobalBurst ∧
          b.tokensPerSec = cfg.globalPerMin / 60) := by
  have hmetered₀ : Metered g cfg w.app.rateLimiter [] := by
    rw [hlimiter]
    exact metered_new g cfg start
  have hlast₀ : LastUsed w.app.rateLimiter start := by
    rw [hlimiter]
    exact lastUsed_new cfg start
  obtain ⟨φs₁, takes₁, hok₁, haccount₁⟩ :=
    account_run g (.nil (R := Thread.Attempts D)) hmetered₀ hlast₀ hclock₁ hrun₁
  have hlast₁ := (inTime_run hlast₀ le_rfl hclock₁ hrun₁).2
  obtain ⟨φs₂, new, hok₂, haccount₂⟩ :=
    account_run g hok₁ haccount₁.metered hlast₁ hclock₂ hrun₂
  have hlast₂ := (inTime_run hlast₁ le_rfl hclock₂ hrun₂).2
  have hhanded := haccount₂.handed
  have hmetered := haccount₂.metered
  unfold Metered at hmetered
  cases hbucket : g.bucket s₂.world.app.rateLimiter with
  | none =>
    rw [hbucket] at hmetered
    -- nothing has ever passed
    have hnil : new ++ (takes₁ ++ []) = [] := hmetered
    obtain ⟨rfl, htakes⟩ := List.append_eq_nil_iff.mp hnil
    obtain ⟨rfl, -⟩ := List.append_eq_nil_iff.mp htakes
    have hnone : Sessions.total (Thread.weight g) s₁.threads φs₁ ≤ 0 :=
      (Nat.le_add_left _ _).trans haccount₁.handed
    show _ = 0
    rw [List.length_nil] at hhanded
    omega
  | some b =>
    rw [hbucket] at hmetered
    obtain ⟨perMinute, burst, created, htracks, hconforms, hlimits⟩ := hmetered
    have hb : b.lastRefill ≤ till := by
      cases g with
      | global =>
        obtain rfl := Option.some.inj hbucket
        exact hlast₂.global
      | key keyId => exact hlast₂.byKey keyId b hbucket
    have hnew := taken_le_allowed htracks hconforms haccount₂.since hb (clocked_start_le hclock₂)
    have hbacklog := total_le_inFlight g hok₁
    refine ⟨?_, fun hg => ?_⟩
    · have hcount : (s₁.handOffs D rateLimiter window).countP (fun h => g.guards h.auth) ≤
          s₁.inFlight g + new.length := by
        omega
      have hcast : (((s₁.handOffs D rateLimiter window).countP fun h => g.guards h.auth : Nat) : ℚ)
          ≤ s₁.inFlight g + new.length := by
        exact_mod_cast hcount
      linarith
    · obtain ⟨rfl, rfl⟩ := hlimits hg
      exact ⟨htracks.capacity, htracks.rate⟩

end Outflow

open Outflow in
/-- In any window of any run of a server that was started with a limiter of its
config, with tokens counted exactly: what is handed over is at most what was on its
way, the burst and what the rate adds in that time.  So it is for all mail, and for
the mail of each key, with the burst and the rate of the key's bucket. -/
theorem outflow_within_limits {D : Deps} {w : World RateLimiter} {cfg : RateLimitConfig}
    {start mid till : Instant} (hlimiter : w.app.rateLimiter = .new cfg start)
    {before window : List Event} {s₁ s₂ : Server RateLimiter}
    (hrun₁ : Server.run D rateLimiter ⟨w, []⟩ before = some s₁)
    (hrun₂ : s₁.run D rateLimiter window = some s₂)
    (hclock₁ : Clocked start before mid) (hclock₂ : Clocked mid window till) :
    ((s₁.handOffs D rateLimiter window).length : ℚ) ≤
        s₁.inFlight .global +
          (cfg.effectiveGlobalBurst + cfg.globalPerMin / 60 * seconds (till - mid)) ∧
      ∀ keyId,
        match s₂.world.app.rateLimiter.byKey.get keyId with
        | none => ∀ h ∈ s₁.handOffs D rateLimiter window, h.auth.keyId ≠ keyId
        | some b =>
          (((s₁.handOffs D rateLimiter window).countP fun h => h.auth.keyId == keyId : Nat) : ℚ) ≤
            s₁.inFlight (.key keyId) + (b.capacity + b.tokensPerSec * seconds (till - mid)) := by
  constructor
  · obtain ⟨hcount, hlimits⟩ := window_within .global hlimiter hrun₁ hrun₂ hclock₁ hclock₂
    obtain ⟨hcapacity, hrate⟩ := hlimits rfl
    rw [hcapacity, hrate] at hcount
    have hlength : (s₁.handOffs D rateLimiter window).countP (fun h => Gate.global.guards h.auth) =
        (s₁.handOffs D rateLimiter window).length := congrFun List.countP_true _
    rwa [hlength] at hcount
  · intro keyId
    have hwindow := window_within (.key keyId) hlimiter hrun₁ hrun₂ hclock₁ hclock₂
    have hbucket : (Gate.key keyId).bucket s₂.world.app.rateLimiter =
        s₂.world.app.rateLimiter.byKey.get keyId := rfl
    rw [hbucket] at hwindow
    cases hget : s₂.world.app.rateLimiter.byKey.get keyId with
    | none =>
      rw [hget] at hwindow
      intro h hh
      simpa [Gate.guards] using List.countP_eq_zero.mp hwindow h hh
    | some b =>
      rw [hget] at hwindow
      exact hwindow.1

/-! A window in which the burst is used up. -/

/-- One submission, and one more each second. -/
def tightConfig : AppConfig :=
  { sampleConfig with
    rateLimit := { sampleConfig.rateLimit with globalPerMin := 60, globalBurst := 1 } }

def tightWorld : World RateLimiter where
  app := .new tightConfig (.new tightConfig.rateLimit 0)
  bodyLimit := tightConfig.server.maxRequestBodyBytes
  handed := []

/-- A request whose handler, the `i`-th thread, takes so many turns at the instant. -/
def requestAt (rid : RequestId) (i turns : Nat) (now : Instant) : List Event :=
  .post rid sampleParts ::
    List.replicate turns (.turn i { sampleChoice with body := some [], instant := now })

/-- From the first second on: a request is carried out, and half a second later one
is refused. -/
def tightWindow : List Event :=
  requestAt ⟨"req_second"⟩ 1 11 1000000000 ++ requestAt ⟨"req_third"⟩ 2 6 1500000000

/-- Nothing was on its way, two requests came and one got out, which is all that fits. -/
theorem outflow_within_limits_sample :
    ∃ s₁ s₂, Server.run jsonDeps rateLimiter ⟨tightWorld, []⟩ (requestAt sampleId 0 11 0) =
        some s₁ ∧
      s₁.run jsonDeps rateLimiter tightWindow = some s₂ ∧
      s₂.threads.map Thread.toldAccepted = [some true, some true, some false] ∧
      s₁.inFlight .global = 0 ∧ (s₁.handOffs jsonDeps rateLimiter tightWindow).length = 1 ∧
      ((s₁.handOffs jsonDeps rateLimiter tightWindow).length : ℚ) ≤ 3 / 2 := by
  have hend : ((Server.run jsonDeps rateLimiter ⟨tightWorld, []⟩ (requestAt sampleId 0 11 0)).bind
      fun s₁ => (s₁.run jsonDeps rateLimiter tightWindow).map fun s₂ =>
        (s₂.threads.map Thread.toldAccepted, s₁.inFlight .global,
          (s₁.handOffs jsonDeps rateLimiter tightWindow).length)) =
      some ([some true, some true, some false], 0, 1) := by
    decide +kernel
  obtain ⟨s₁, hrun₁, hs₁⟩ := Option.bind_eq_some_iff.mp hend
  obtain ⟨s₂, hrun₂, hs₂⟩ := Option.map_eq_some_iff.mp hs₁
  obtain ⟨htold, hs₂⟩ := Prod.ext_iff.mp hs₂
  obtain ⟨hflight, hcount⟩ := Prod.ext_iff.mp hs₂
  have hclock₁ : Clocked 0 (requestAt sampleId 0 11 0) 1000000000 := by
    simp [requestAt, Clocked]
  have hclock₂ : Clocked 1000000000 tightWindow 1500000000 := by
    simp [tightWindow, requestAt, Clocked]
  have hlimiter : tightWorld.app.rateLimiter = .new tightConfig.rateLimit 0 := rfl
  have hwindow := (outflow_within_limits hlimiter hrun₁ hrun₂ hclock₁ hclock₂).1
  have hburst : tightConfig.rateLimit.effectiveGlobalBurst = 1 := rfl
  have hrate : tightConfig.rateLimit.globalPerMin = 60 := rfl
  rw [show s₁.inFlight .global = 0 from hflight, hburst, hrate] at hwindow
  refine ⟨s₁, s₂, hrun₁, hrun₂, htold, hflight, hcount, hwindow.trans_eq ?_⟩
  norm_num [seconds]

end HttpSmtpRele
