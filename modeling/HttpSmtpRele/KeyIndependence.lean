import HttpSmtpRele.Api.Send
import HttpSmtpRele.BucketEnvelope
import HttpSmtpRele.ConfigValidate
import HttpSmtpRele.Lib.Unwinding

/-!
# One key's refusals and the other keys

Submissions pass the three tiers one check at a time, in any interleaving.  What
an outer tier took from a submission is not given back when an inner one refuses
it, and the table of client addresses may forget one of them to make room.  As
long as neither shows (`Calm`), the submissions of one key can be left out of a
run and nothing changes for a key that comes from other addresses.
-/

namespace HttpSmtpRele

namespace TokenBucket

variable {b b' : TokenBucket} {s t now : Instant}

/-- `b'` has been drained less, and has been left alone for longer. -/
structure Dominates (b' b : TokenBucket) : Prop where
  capacity : b'.capacity = b.capacity
  rate : b'.tokensPerSec = b.tokensPerSec
  nonneg : 0 ≤ b.tokensPerSec
  earlier : b'.lastRefill ≤ b.lastRefill
  more : b.tokens ≤ (b'.refill b.lastRefill).tokens

namespace Dominates

theorem refl (hrate : 0 ≤ b.tokensPerSec) (hfits : b.tokens ≤ b.capacity) : Dominates b b := by
  refine ⟨rfl, rfl, hrate, le_rfl, ?_⟩
  rw [tokens_refill, Nat.sub_self]
  exact le_min (le_add_of_nonneg_right (mul_nonneg (by simp [seconds]) hrate)) hfits

theorem refill_le (h : Dominates b' b) (ht : b.lastRefill ≤ t) :
    (b.refill t).tokens ≤ (b'.refill t).tokens := by
  have hrate' : 0 ≤ b'.tokensPerSec := by
    rw [h.rate]
    exact h.nonneg
  rw [← refill_refill hrate' h.earlier ht]
  show min (b.tokens + seconds (t - b.lastRefill) * b.tokensPerSec) b.capacity ≤
    min ((b'.refill b.lastRefill).tokens + seconds (t - b.lastRefill) * b'.tokensPerSec) b'.capacity
  rw [h.rate, h.capacity]
  exact min_le_min (add_le_add_left h.more _) le_rfl

/-- Both are drawn from, and both have enough. -/
theorem both (h : Dominates b' b) (hnow : b.lastRefill ≤ now) (hfull : 1 ≤ (b.refill now).tokens) :
    (b'.tryConsume now).1 = .ok () ∧ (b.tryConsume now).1 = .ok () ∧
      Dominates (b'.tryConsume now).2 (b.tryConsume now).2 := by
  have hle := h.refill_le hnow
  rw [tryConsume_of_full hfull, tryConsume_of_full (hfull.trans hle)]
  refine ⟨rfl, rfl, h.capacity, h.rate, h.nonneg, le_rfl, ?_⟩
  have hrate' : 0 ≤ b'.tokensPerSec := by
    rw [h.rate]
    exact h.nonneg
  have hcap : (b'.refill now).tokens ≤ b'.capacity := min_le_right _ _
  show (b.refill now).tokens - 1 ≤
    min ((b'.refill now).tokens - 1 + seconds (now - now) * b'.tokensPerSec) b'.capacity
  rw [Nat.sub_self]
  refine le_min ?_ ?_
  · have hzero : 0 ≤ seconds 0 * b'.tokensPerSec := mul_nonneg (by simp [seconds]) hrate'
    linarith
  · linarith

/-- Only the one that holds less is drawn from. -/
theorem drained (h : Dominates b' b) (hnow : b.lastRefill ≤ now) :
    Dominates b' (b.tryConsume now).2 := by
  have hle := h.refill_le hnow
  by_cases hfull : 1 ≤ (b.refill now).tokens
  · rw [tryConsume_of_full hfull]
    refine ⟨h.capacity, h.rate, h.nonneg, h.earlier.trans hnow, ?_⟩
    show (b.refill now).tokens - 1 ≤ (b'.refill now).tokens
    linarith
  · rw [tryConsume_of_empty hfull]
    exact ⟨h.capacity, h.rate, h.nonneg, h.earlier.trans hnow, hle⟩

end Dominates

end TokenBucket

/-! ## Submissions, one check at a time -/

inductive Tier
  | global
  | ip
  | key
  deriving DecidableEq

/-- Where the checks of a submission stand. -/
inductive Progress
  | pending (tier : Tier)
  | refused (e : RateLimitedError)
  | admitted
  deriving DecidableEq

namespace Tier

def check (auth : AuthContext) : Tier → RateLimiter.Check
  | global => .global
  | ip => .ip auth.clientIp
  | key => .key auth.keyId auth.keyRateLimitPerMin auth.keyBurst

def passed : Tier → Progress
  | global => .pending ip
  | ip => .pending key
  | key => .admitted

def outcome (tier : Tier) : Except RateLimitedError Unit → Progress
  | .ok () => tier.passed
  | .error e => .refused e

end Tier

/-- A submission makes its next check, if it has one left. -/
def Progress.turn (auth : AuthContext) (now : Instant) (l : RateLimiter) :
    Progress → Progress × RateLimiter
  | .pending tier =>
    let (res, l) := l.check (tier.check auth) now
    (tier.outcome res, l)
  | p => (p, l)

structure RateRun where
  limiter : RateLimiter
  /-- of each submission -/
  progress : Nat → Progress

structure Turn where
  submission : Nat
  now : Instant

namespace RateRun

def start (cfg : RateLimitConfig) (now : Instant) : RateRun where
  limiter := .new cfg now
  progress _ := .pending .global

def step (subs : Nat → AuthContext) (s : RateRun) (t : Turn) : RateRun :=
  let (p, l) := (s.progress t.submission).turn (subs t.submission) t.now s.limiter
  { limiter := l, progress := Function.update s.progress t.submission p }

/-- The answers are those to the key `keyId`. -/
def machine (subs : Nat → AuthContext) (keyId : String) : Machine RateRun Turn Progress where
  step := step subs
  answer s t :=
    if (subs t.submission).keyId = keyId then some ((s.step subs t).progress t.submission) else none

end RateRun

open Prog Api in
/-- What is left of `checkRates`. -/
def Progress.rest (auth : AuthContext) : Progress → RelayM (Except Nat Unit)
  | .pending .global => checkRates auth
  | .pending .ip => do
    match ← Relay.checkIp auth.clientIp with
    | .error retryAfter => return .error retryAfter
    | .ok () => Relay.checkKey auth.keyId auth.keyRateLimitPerMin auth.keyBurst
  | .pending .key => Relay.checkKey auth.keyId auth.keyRateLimitPerMin auth.keyBurst
  | .refused e => return .error e.retryAfterSecs
  | .admitted => return .ok ()

open Prog in
/-- One operation of `checkRates` is one check of the submission. -/
theorem advance_rest (auth : AuthContext) (tier : Tier) (c : Choice) (w : World RateLimiter) :
    Prog.advance (exec rateLimiter) c w ((Progress.pending tier).rest auth) =
      some ((tier.outcome (w.app.rateLimiter.check (tier.check auth) c.instant).1).rest auth,
        w.setLimiter (w.app.rateLimiter.check (tier.check auth) c.instant).2) := by
  cases tier with
  | global =>
    simp only [Progress.rest, Api.checkRates, perform_bind, advance, exec_checkGlobal, rateLimiter,
      RateLimiter.retryAfter, Tier.check, RateLimiter.check]
    generalize w.app.rateLimiter.checkGlobal c.instant = res
    obtain ⟨e | _, l⟩ := res <;> rfl
  | ip =>
    simp only [Progress.rest, perform_bind, advance, exec_checkIp, rateLimiter,
      RateLimiter.retryAfter, Tier.check, RateLimiter.check]
    generalize w.app.rateLimiter.checkIp auth.clientIp c.instant = res
    obtain ⟨e | _, l⟩ := res <;> rfl
  | key =>
    simp only [Progress.rest, perform, advance, exec_checkKey, rateLimiter,
      RateLimiter.retryAfter, Tier.check, RateLimiter.check]
    generalize w.app.rateLimiter.checkKey auth.keyId auth.keyRateLimitPerMin auth.keyBurst
      c.instant = res
    obtain ⟨e | _, l⟩ := res <;> rfl

/-! ## The limiter of a run and of the run with less in it -/

/-- An address the key's submissions come from. -/
def OwnAddress (subs : Nat → AuthContext) (keyId : String) (ip : IpAddr) : Prop :=
  ∃ i, (subs i).keyId = keyId ∧ (subs i).clientIp = ip

/-- `l'` has seen less than `l`, but nothing less of the key and its addresses. -/
structure Matches (subs : Nat → AuthContext) (keyId : String) (l l' : RateLimiter) : Prop where
  global : l'.global.Dominates l.global
  ipLimits : l'.ipPerMin = l.ipPerMin ∧ l'.ipBurst = l.ipBurst
  keyLimits : l'.keyPerMin = l.keyPerMin ∧ l'.keyBurst = l.keyBurst
  address : ∀ ip, OwnAddress subs keyId ip → l'.byIp.map.get ip = l.byIp.map.get ip
  known : ∀ ip b, l'.byIp.map.get ip = some b → ∃ b', l.byIp.map.get ip = some b'
  cap : l'.byIp.cap = l.byIp.cap
  inv : l.byIp.Inv
  key : l'.byKey.get keyId = l.byKey.get keyId

namespace Matches

variable {subs : Nat → AuthContext} {keyId : String} {l l' : RateLimiter} {now : Instant}
variable {ip : IpAddr}

theorem global_both (h : Matches subs keyId l l') (hnow : l.global.lastRefill ≤ now)
    (hfull : 1 ≤ (l.global.refill now).tokens) :
    (l'.checkGlobal now).1 = .ok () ∧ (l.checkGlobal now).1 = .ok () ∧
      Matches subs keyId (l.checkGlobal now).2 (l'.checkGlobal now).2 := by
  obtain ⟨hok', hok, hdominates⟩ := h.global.both hnow hfull
  refine ⟨?_, ?_, { h with global := hdominates }⟩
  · show RateLimiter.inTier "global" (l'.global.tryConsume now).1 = _
    rw [hok']
    rfl
  · show RateLimiter.inTier "global" (l.global.tryConsume now).1 = _
    rw [hok]
    rfl

theorem global_left (h : Matches subs keyId l l') (hnow : l.global.lastRefill ≤ now) :
    Matches subs keyId (l.checkGlobal now).2 l' :=
  { h with global := h.global.drained hnow }

/-- With less in it, the table has room where the other one has. -/
theorem hasRoom (h : Matches subs keyId l l') (hroom : l.byIp.HasRoom ip) : l'.byIp.HasRoom ip := by
  have hle : l'.byIp.map.size ≤ l.byIp.map.size := Table.size_le_of_get h.known
  rcases hroom with hzero | hmem | hlt
  · exact Or.inl (h.cap.trans hzero)
  · by_cases hmem' : l'.byIp.map.contains ip = true
    · exact Or.inr (Or.inl hmem')
    · -- the address is one that only the fuller table knows
      have hnew : ip ∉ l'.byIp.map.keys := by
        intro hkeys
        exact hmem' (AList.lookup_isSome.mpr hkeys)
      have hlarger : Table.size (l'.byIp.map.insert ip l.global) ≤ l.byIp.map.size := by
        apply Table.size_le_of_get
        intro ip' b hb
        rw [Table.get_insert] at hb
        by_cases hip : ip' = ip
        · subst hip
          exact Option.isSome_iff_exists.mp hmem
        · rw [if_neg hip] at hb
          exact h.known ip' b hb
      have hsize := Table.size_insert_of_not_mem hnew l.global
      rcases h.inv.capped with hzero | hcapped
      · exact Or.inl (h.cap.trans hzero)
      · refine Or.inr (Or.inr ?_)
        rw [h.cap]
        omega
  · refine Or.inr (Or.inr ?_)
    rw [h.cap]
    omega

theorem ip_both (h : Matches subs keyId l l') (hroom : l.byIp.HasRoom ip) (now : Instant) :
    (OwnAddress subs keyId ip → (l'.checkIp ip now).1 = (l.checkIp ip now).1) ∧
      Matches subs keyId (l.checkIp ip now).2 (l'.checkIp ip now).2 := by
  have hroom' := h.hasRoom hroom
  have hbucket : OwnAddress subs keyId ip → l'.ipBucket ip now = l.ipBucket ip now := by
    intro hown
    unfold RateLimiter.ipBucket
    rw [h.address ip hown, h.ipLimits.1, h.ipLimits.2]
  refine ⟨fun hown => ?_, ?_⟩
  · rw [RateLimiter.fst_checkIp hroom, RateLimiter.fst_checkIp hroom', hbucket hown]
  · refine ⟨h.global, h.ipLimits, h.keyLimits, fun ip' hown => ?_, fun ip' b hb => ?_, ?_,
      RateLimiter.inv_checkIp h.inv ip now, h.key⟩
    · rw [RateLimiter.get_checkIp hroom, RateLimiter.get_checkIp hroom']
      by_cases hip : ip' = ip
      · subst hip
        rw [if_pos rfl, if_pos rfl, hbucket hown]
      · rw [if_neg hip, if_neg hip]
        exact h.address ip' hown
    · rw [RateLimiter.get_checkIp hroom'] at hb
      rw [RateLimiter.get_checkIp hroom]
      by_cases hip : ip' = ip
      · rw [if_pos hip]
        exact ⟨_, rfl⟩
      · rw [if_neg hip] at hb ⊢
        exact h.known ip' b hb
    · rw [RateLimiter.cap_checkIp, RateLimiter.cap_checkIp]
      exact h.cap

theorem ip_left (h : Matches subs keyId l l') (hroom : l.byIp.HasRoom ip)
    (hforeign : ¬OwnAddress subs keyId ip) : Matches subs keyId (l.checkIp ip now).2 l' := by
  refine ⟨h.global, h.ipLimits, h.keyLimits, fun ip' hown => ?_, fun ip' b hb => ?_, ?_,
    RateLimiter.inv_checkIp h.inv ip now, h.key⟩
  · have hne : ip' ≠ ip := fun heq => hforeign (heq ▸ hown)
    rw [RateLimiter.get_checkIp hroom, if_neg hne]
    exact h.address ip' hown
  · rw [RateLimiter.get_checkIp hroom]
    by_cases hip : ip' = ip
    · rw [if_pos hip]
      exact ⟨_, rfl⟩
    · rw [if_neg hip]
      exact h.known ip' b hb
  · rw [RateLimiter.cap_checkIp]
    exact h.cap

theorem key_own (h : Matches subs keyId l l') (perMin : Option Nat) (burst : Nat)
    (now : Instant) :
    (l'.checkKey keyId perMin burst now).1 = (l.checkKey keyId perMin burst now).1 ∧
      Matches subs keyId (l.checkKey keyId perMin burst now).2
        (l'.checkKey keyId perMin burst now).2 := by
  have hbucket : l'.keyBucket keyId perMin burst now = l.keyBucket keyId perMin burst now := by
    unfold RateLimiter.keyBucket
    rw [h.key, h.keyLimits.1, h.keyLimits.2]
  refine ⟨?_, { h with key := ?_ }⟩
  · show RateLimiter.inTier "key" ((l'.keyBucket keyId perMin burst now).tryConsume now).1 = _
    rw [hbucket]
    rfl
  · rw [RateLimiter.get_checkKey, RateLimiter.get_checkKey, if_pos rfl, if_pos rfl, hbucket]

theorem key_left (h : Matches subs keyId l l') {keyId' : String} (hne : keyId' ≠ keyId)
    (perMin : Option Nat) (burst : Nat) :
    Matches subs keyId (l.checkKey keyId' perMin burst now).2 l' := by
  refine { h with key := ?_ }
  rw [RateLimiter.get_checkKey, if_neg hne.symm]
  exact h.key

theorem key_right (h : Matches subs keyId l l') {keyId' : String} (hne : keyId' ≠ keyId)
    (perMin : Option Nat) (burst : Nat) :
    Matches subs keyId l (l'.checkKey keyId' perMin burst now).2 := by
  refine { h with key := ?_ }
  rw [RateLimiter.get_checkKey, if_neg hne.symm]
  exact h.key

end Matches

/-! ## One turn -/

/-- The same submission in the two runs: it stands before the same outer tier or
is past both, and where it is the key's it stands at the same point. -/
structure SameStage (own : Prop) (p p' : Progress) : Prop where
  own : own → p' = p
  outer : ∀ tier, tier ≠ .key → (p' = .pending tier ↔ p = .pending tier)

theorem SameStage.of_eq {own : Prop} {p p' : Progress} (h : p' = p) : SameStage own p p' := by
  subst h
  exact ⟨fun _ => rfl, fun _ _ => Iff.rfl⟩

/-- Past the two outer tiers. -/
def Progress.Inner (p : Progress) : Prop := ∀ tier, tier ≠ .key → p ≠ .pending tier

theorem SameStage.of_inner {own : Prop} {p p' : Progress} (hp : p.Inner) (hp' : p'.Inner)
    (hown : own → p' = p) : SameStage own p p' := by
  refine ⟨hown, fun tier htier => ⟨fun h => ?_, fun h => ?_⟩⟩
  · exact absurd h (hp' tier htier)
  · exact absurd h (hp tier htier)

theorem inner_outcome {tier : Tier} (h : tier ≠ .global) (res : Except RateLimitedError Unit) :
    (tier.outcome res).Inner := by
  intro tier' htier' heq
  cases res with
  | error e => cases heq
  | ok u =>
    cases tier with
    | global => exact h rfl
    | ip =>
      cases heq
      exact htier' rfl
    | key => cases heq

theorem inner_turn {p : Progress} (h : p.Inner) (auth : AuthContext) (now : Instant)
    (l : RateLimiter) : (p.turn auth now l).1.Inner := by
  cases p with
  | pending tier =>
    have hkey : tier = .key := by
      by_contra hne
      exact h tier hne rfl
    subst hkey
    exact inner_outcome (by decide) _
  | refused e => exact h
  | admitted => exact h

/-- What has to hold before a turn, so that the outer tiers do not show: a
submission that stays finds a token in the global bucket, and nothing is evicted. -/
def Progress.Calm (auth : AuthContext) (removed : Bool) (now : Instant) (l : RateLimiter) :
    Progress → Prop
  | .pending .global => removed = false → 1 ≤ (l.global.refill now).tokens
  | .pending .ip => l.byIp.HasRoom auth.clientIp
  | _ => True

instance (auth : AuthContext) (removed : Bool) (now : Instant) (l : RateLimiter) :
    ∀ p : Progress, Decidable (p.Calm auth removed now l)
  | .pending .global => inferInstanceAs (Decidable (_ → _))
  | .pending .ip => inferInstanceAs (Decidable (l.byIp.HasRoom auth.clientIp))
  | .pending .key => inferInstanceAs (Decidable True)
  | .refused _ => inferInstanceAs (Decidable True)
  | .admitted => inferInstanceAs (Decidable True)

def CalmTurn (subs : Nat → AuthContext) (removed : Nat → Bool) (s : RateRun) (t : Turn) : Prop :=
  (s.progress t.submission).Calm (subs t.submission) (removed t.submission) t.now s.limiter

instance (subs : Nat → AuthContext) (removed : Nat → Bool) (s : RateRun) (t : Turn) :
    Decidable (CalmTurn subs removed s t) :=
  inferInstanceAs (Decidable (Progress.Calm ..))

def Calm (subs : Nat → AuthContext) (removed : Nat → Bool) : RateRun → List Turn → Prop
  | _, [] => True
  | s, t :: ts => CalmTurn subs removed s t ∧ Calm subs removed (s.step subs t) ts

instance Calm.decide (subs : Nat → AuthContext) (removed : Nat → Bool) :
    ∀ s turns, Decidable (Calm subs removed s turns)
  | _, [] => inferInstanceAs (Decidable True)
  | s, t :: ts =>
    have := Calm.decide subs removed (s.step subs t) ts
    inferInstanceAs (Decidable (_ ∧ _))

/-- The condition on a run: from the first turn of a removed submission on, it is calm. -/
def CalmAfterRemoval (subs : Nat → AuthContext) (removed : Nat → Bool) :
    RateRun → List Turn → Prop
  | _, [] => True
  | s, t :: ts =>
    if removed t.submission then Calm subs removed s (t :: ts)
    else CalmAfterRemoval subs removed (s.step subs t) ts

instance CalmAfterRemoval.decide (subs : Nat → AuthContext) (removed : Nat → Bool) :
    ∀ s turns, Decidable (CalmAfterRemoval subs removed s turns)
  | _, [] => inferInstanceAs (Decidable True)
  | s, t :: ts =>
    have := CalmAfterRemoval.decide subs removed (s.step subs t) ts
    inferInstanceAs (Decidable (if removed t.submission then _ else _))

namespace Matches

variable {subs : Nat → AuthContext} {keyId : String} {l l' : RateLimiter} {now : Instant}

/-- A key's check of another key, in either run. -/
theorem turn_inner (h : Matches subs keyId l l') {auth : AuthContext} (hne : auth.keyId ≠ keyId)
    {p p' : Progress} (hp : p.Inner) (hp' : p'.Inner) :
    Matches subs keyId (p.turn auth now l).2 (p'.turn auth now l').2 := by
  have hleft : Matches subs keyId (p.turn auth now l).2 l' := by
    cases p with
    | pending tier =>
      cases tier with
      | key => exact h.key_left hne _ _
      | global => exact absurd rfl (hp .global (by decide))
      | ip => exact absurd rfl (hp .ip (by decide))
    | refused e => exact h
    | admitted => exact h
  cases p' with
  | pending tier =>
    cases tier with
    | key => exact hleft.key_right hne _ _
    | global => exact absurd rfl (hp' .global (by decide))
    | ip => exact absurd rfl (hp' .ip (by decide))
  | refused e => exact hleft
  | admitted => exact hleft

/-- A submission that is in both runs takes its turn. -/
theorem turn_both (h : Matches subs keyId l l') {i : Nat} {p p' : Progress}
    (hstage : SameStage ((subs i).keyId = keyId) p p') (hnow : l.global.lastRefill ≤ now)
    (hglobal : p = .pending .global → 1 ≤ (l.global.refill now).tokens)
    (hip : p = .pending .ip → l.byIp.HasRoom (subs i).clientIp) :
    Matches subs keyId (p.turn (subs i) now l).2 (p'.turn (subs i) now l').2 ∧
      SameStage ((subs i).keyId = keyId) (p.turn (subs i) now l).1
        (p'.turn (subs i) now l').1 := by
  by_cases hp : p.Inner
  · have hp' : p'.Inner := fun tier htier heq => hp tier htier ((hstage.outer tier htier).mp heq)
    by_cases hown : (subs i).keyId = keyId
    · obtain rfl := hstage.own hown
      cases p' with
      | pending tier =>
        cases tier with
        | key =>
          obtain ⟨hres, hl⟩ := h.key_own (subs i).keyRateLimitPerMin (subs i).keyBurst now
          rw [← hown] at hres hl ⊢
          refine ⟨hl, SameStage.of_eq ?_⟩
          exact congrArg (Tier.outcome .key) hres
        | global => exact absurd rfl (hp .global (by decide))
        | ip => exact absurd rfl (hp .ip (by decide))
      | refused e => exact ⟨h, SameStage.of_eq rfl⟩
      | admitted => exact ⟨h, SameStage.of_eq rfl⟩
    · exact ⟨h.turn_inner hown hp hp',
        SameStage.of_inner (inner_turn hp _ _ _) (inner_turn hp' _ _ _) fun h => absurd h hown⟩
  · obtain ⟨tier, htier, rfl⟩ : ∃ tier, tier ≠ Tier.key ∧ p = .pending tier := by
      by_contra hno
      exact hp fun tier htier heq => hno ⟨tier, htier, heq⟩
    obtain rfl := (hstage.outer tier htier).mpr rfl
    cases tier with
    | key => exact absurd rfl htier
    | global =>
      obtain ⟨hok', hok, hl⟩ := h.global_both hnow (hglobal rfl)
      refine ⟨hl, SameStage.of_eq ?_⟩
      exact congrArg (Tier.outcome .global) (hok'.trans hok.symm)
    | ip =>
      obtain ⟨hres, hl⟩ := h.ip_both (hip rfl) now
      refine ⟨hl, SameStage.of_inner (inner_outcome (by decide) _) (inner_outcome (by decide) _) ?_⟩
      intro hown
      exact congrArg (Tier.outcome .ip) (hres ⟨i, hown, rfl⟩)

/-- A submission that is in the first run only takes its turn. -/
theorem turn_left (h : Matches subs keyId l l') {i : Nat} (hkey : (subs i).keyId ≠ keyId)
    (haddress : ¬OwnAddress subs keyId (subs i).clientIp) {p : Progress}
    (hnow : l.global.lastRefill ≤ now) (hip : p = .pending .ip → l.byIp.HasRoom (subs i).clientIp) :
    Matches subs keyId (p.turn (subs i) now l).2 l' := by
  cases p with
  | pending tier =>
    cases tier with
    | global => exact h.global_left hnow
    | ip => exact h.ip_left (hip rfl) haddress
    | key => exact h.key_left hkey _ _
  | refused e => exact h
  | admitted => exact h

end Matches

/-! ## Two runs -/

namespace RateRun

variable {subs : Nat → AuthContext} {removed : Nat → Bool} {keyId : String}

/-- The run `s` with everything, and the run `s'` without the removed submissions. -/
structure Coupled (subs : Nat → AuthContext) (removed : Nat → Bool) (keyId : String)
    (s s' : RateRun) : Prop where
  limiter : Matches subs keyId s.limiter s'.limiter
  stage : ∀ i, removed i = false →
    SameStage ((subs i).keyId = keyId) (s.progress i) (s'.progress i)

/-- What is assumed of the rest of the run with everything. -/
structure Ahead (subs : Nat → AuthContext) (removed : Nat → Bool) (s : RateRun)
    (turns : List Turn) : Prop where
  ordered : (s.limiter.global.lastRefill :: turns.map Turn.now).Pairwise (· ≤ ·)
  calm : Calm subs removed s turns

theorem lastRefill_turn (auth : AuthContext) (now : Instant) (l : RateLimiter) (p : Progress) :
    (p.turn auth now l).2.global.lastRefill = now ∨
      (p.turn auth now l).2.global.lastRefill = l.global.lastRefill := by
  cases p with
  | pending tier =>
    cases tier with
    | global => exact Or.inl (TokenBucket.lastRefill_tryConsume now l.global)
    | ip => exact Or.inr rfl
    | key => exact Or.inr rfl
  | refused e => exact Or.inr rfl
  | admitted => exact Or.inr rfl

theorem ordered_step {s : RateRun} {t : Turn} {ts : List Turn}
    (h : (s.limiter.global.lastRefill :: (t :: ts).map Turn.now).Pairwise (· ≤ ·)) :
    ((s.step subs t).limiter.global.lastRefill :: ts.map Turn.now).Pairwise (· ≤ ·) := by
  obtain ⟨hlast, hrest⟩ := List.pairwise_cons.mp h
  obtain ⟨hfirst, hlater⟩ := List.pairwise_cons.mp hrest
  refine List.pairwise_cons.mpr ⟨fun now hnow => ?_, hlater⟩
  rcases lastRefill_turn (subs t.submission) t.now s.limiter (s.progress t.submission) with heq | heq
  · exact heq.trans_le (hfirst now hnow)
  · exact heq.trans_le (hlast now (List.mem_cons_of_mem _ hnow))

theorem ahead_tail {s : RateRun} {t : Turn} {ts : List Turn}
    (h : Ahead subs removed s (t :: ts)) : Ahead subs removed (s.step subs t) ts :=
  ⟨ordered_step h.ordered, h.calm.2⟩

theorem coupled_both {s s' : RateRun} {t : Turn} {ts : List Turn}
    (hahead : Ahead subs removed s (t :: ts)) (h : Coupled subs removed keyId s s')
    (hstays : removed t.submission = false) :
    Coupled subs removed keyId (s.step subs t) (s'.step subs t) ∧
      (machine subs keyId).answer s' t = (machine subs keyId).answer s t := by
  have hnow : s.limiter.global.lastRefill ≤ t.now :=
    (List.pairwise_cons.mp hahead.ordered).1 t.now List.mem_cons_self
  have hcalm := hahead.calm.1
  unfold CalmTurn at hcalm
  obtain ⟨hlimiter, hstage⟩ := h.limiter.turn_both (h.stage _ hstays) hnow
    (fun hp => by rw [hp] at hcalm; exact hcalm hstays) (fun hp => by rw [hp] at hcalm; exact hcalm)
  have hself : SameStage ((subs t.submission).keyId = keyId)
      ((s.step subs t).progress t.submission) ((s'.step subs t).progress t.submission) := by
    unfold step
    simp only [Function.update_self]
    exact hstage
  refine ⟨⟨hlimiter, fun i hi => ?_⟩, ?_⟩
  · by_cases hsame : i = t.submission
    · rw [hsame]
      exact hself
    · unfold step
      simp only [Function.update_of_ne hsame]
      exact h.stage i hi
  · show (if _ then some _ else none) = if _ then some _ else none
    by_cases hown : (subs t.submission).keyId = keyId
    · rw [if_pos hown, if_pos hown, hself.own hown]
    · rw [if_neg hown, if_neg hown]

theorem coupled_hidden {s s' : RateRun} {t : Turn} {ts : List Turn}
    (hremoved : ∀ i, removed i = true →
      (subs i).keyId ≠ keyId ∧ ¬OwnAddress subs keyId (subs i).clientIp)
    (hahead : Ahead subs removed s (t :: ts)) (h : Coupled subs removed keyId s s')
    (hgone : removed t.submission = true) :
    Coupled subs removed keyId (s.step subs t) s' := by
  have hnow : s.limiter.global.lastRefill ≤ t.now :=
    (List.pairwise_cons.mp hahead.ordered).1 t.now List.mem_cons_self
  have hcalm := hahead.calm.1
  unfold CalmTurn at hcalm
  obtain ⟨hkey, haddress⟩ := hremoved _ hgone
  refine ⟨h.limiter.turn_left hkey haddress hnow fun hp => by rw [hp] at hcalm; exact hcalm, ?_⟩
  intro i hi
  have hne : i ≠ t.submission := by
    intro heq
    rw [heq, hgone] at hi
    cases hi
  unfold step
  simp only [Function.update_of_ne hne]
  exact h.stage i hi

theorem machine_unwinds (hremoved : ∀ i, removed i = true →
      (subs i).keyId ≠ keyId ∧ ¬OwnAddress subs keyId (subs i).clientIp) :
    (machine subs keyId).Unwinds (fun t => !removed t.submission) (Ahead subs removed)
      (Coupled subs removed keyId) where
  tail := ahead_tail
  both hahead h hv := coupled_both hahead h (by simpa using hv)
  hidden hahead h hv := coupled_hidden hremoved hahead h (by simpa using hv)

/-- What holds of the limiter in every state of a run. -/
structure Sound (l : RateLimiter) : Prop where
  rate : 0 ≤ l.global.tokensPerSec
  tokens : l.global.tokens ≤ l.global.capacity
  addresses : l.byIp.Inv

theorem sound_start (cfg : RateLimitConfig) (now : Instant) :
    Sound (start cfg now).limiter :=
  ⟨div_nonneg (Nat.cast_nonneg _) (by norm_num), le_rfl, LruMap.new_inv _⟩

theorem sound_turn {l : RateLimiter} (h : Sound l) (auth : AuthContext) (now : Instant)
    (p : Progress) : Sound (p.turn auth now l).2 := by
  cases p with
  | pending tier =>
    cases tier with
    | global =>
      show Sound (l.checkGlobal now).2
      by_cases hfull : 1 ≤ (l.global.refill now).tokens
      · have hl : (l.checkGlobal now).2.global =
            { l.global.refill now with tokens := (l.global.refill now).tokens - 1 } :=
          congrArg Prod.snd (TokenBucket.tryConsume_of_full hfull)
        refine ⟨?_, ?_, h.addresses⟩
        · rw [hl]
          exact h.rate
        · rw [hl]
          have hcap : (l.global.refill now).tokens ≤ (l.global.refill now).capacity :=
            min_le_right _ _
          exact (sub_le_self _ zero_le_one).trans hcap
      · have hl : (l.checkGlobal now).2.global = l.global.refill now :=
          congrArg Prod.snd (TokenBucket.tryConsume_of_empty hfull)
        refine ⟨?_, ?_, h.addresses⟩
        · rw [hl]
          exact h.rate
        · rw [hl]
          exact min_le_right _ _
    | ip => exact ⟨h.rate, h.tokens, RateLimiter.inv_checkIp h.addresses _ _⟩
    | key => exact ⟨h.rate, h.tokens, h.addresses⟩
  | refused e => exact h
  | admitted => exact h

theorem coupled_refl {s : RateRun} (h : Sound s.limiter) : Coupled subs removed keyId s s where
  limiter :=
    { global := TokenBucket.Dominates.refl h.rate h.tokens
      ipLimits := ⟨rfl, rfl⟩
      keyLimits := ⟨rfl, rfl⟩
      address := fun _ _ => rfl
      known := fun _ b hb => ⟨b, hb⟩
      cap := rfl
      inv := h.addresses
      key := rfl }
  stage _ _ := SameStage.of_eq rfl

theorem coupled_run (hremoved : ∀ i, removed i = true →
      (subs i).keyId ≠ keyId ∧ ¬OwnAddress subs keyId (subs i).clientIp)
    {turns : List Turn} {s : RateRun} (hsound : Sound s.limiter)
    (hordered : (s.limiter.global.lastRefill :: turns.map Turn.now).Pairwise (· ≤ ·))
    (hcalm : CalmAfterRemoval subs removed s turns) :
    Coupled subs removed keyId ((machine subs keyId).after s turns)
      ((machine subs keyId).after s (turns.filter fun t => !removed t.submission)) := by
  induction turns generalizing s with
  | nil => exact coupled_refl hsound
  | cons t ts ih =>
    unfold CalmAfterRemoval at hcalm
    cases hgone : removed t.submission with
    | true =>
      rw [if_pos hgone] at hcalm
      exact (machine_unwinds hremoved).related_filter (t :: ts) (coupled_refl hsound)
        ⟨hordered, hcalm⟩
    | false =>
      rw [if_neg (by simp [hgone])] at hcalm
      rw [List.filter_cons_of_pos (by simp [hgone])]
      exact ih (sound_turn hsound _ _ _) (ordered_step hordered) hcalm

end RateRun

/-- The submission is one of the key's that its own tier refused. -/
def refusedByKey (subs : Nat → AuthContext) (keyId : String) (s : RateRun) (i : Nat) : Bool :=
  decide ((subs i).keyId = keyId) &&
    match s.progress i with
    | .refused e => decide (e.tier = "key")
    | _ => false

open RateRun in
/-- Leaving out what the key `a` was refused changes nothing for a key `b` from other
addresses, in every interleaving of the checks that is calm once one of the
submissions to be left out has taken a turn. -/
theorem other_key_unaffected {cfg : RateLimitConfig} {now : Instant} {subs : Nat → AuthContext}
    {turns : List Turn} {a b : String} (hkeys : a ≠ b)
    (haddresses : ∀ i j, (subs i).keyId = a → (subs j).keyId = b →
      (subs i).clientIp ≠ (subs j).clientIp)
    (hordered : (now :: turns.map Turn.now).Pairwise (· ≤ ·))
    (hcalm : CalmAfterRemoval subs
      (refusedByKey subs a ((machine subs b).after (.start cfg now) turns)) (.start cfg now) turns) :
    ∀ i, (subs i).keyId = b →
      ((machine subs b).after (.start cfg now) (turns.filter fun t =>
          !refusedByKey subs a ((machine subs b).after (.start cfg now) turns)
            t.submission)).progress i =
        ((machine subs b).after (.start cfg now) turns).progress i := by
  intro i hi
  have hremoved : ∀ i, refusedByKey subs a ((machine subs b).after (.start cfg now) turns) i =
      true → (subs i).keyId = a := by
    intro i h
    unfold refusedByKey at h
    simp only [Bool.and_eq_true, decide_eq_true_eq] at h
    exact h.1
  have hforeign : ∀ i, refusedByKey subs a ((machine subs b).after (.start cfg now) turns) i =
      true → (subs i).keyId ≠ b ∧ ¬OwnAddress subs b (subs i).clientIp := by
    intro i h
    refine ⟨fun heq => hkeys ((hremoved i h).symm.trans heq), ?_⟩
    rintro ⟨j, hj, hip⟩
    exact haddresses i j (hremoved i h) hj hip.symm
  have hcoupled := coupled_run hforeign (sound_start cfg now) hordered hcalm
  have hstays : refusedByKey subs a ((machine subs b).after (.start cfg now) turns) i = false := by
    by_contra hgone
    have := (hforeign i (by simpa using hgone)).1
    exact this hi
  exact (hcoupled.stage i hstays).own hi

/-! Two keys: the first uses up its burst of one, then tries again, then the second comes. -/

def twoKeysSubs (i : Nat) : AuthContext where
  keyId := if i < 2 then "a" else "b"
  clientIp := if i < 2 then .v4 0x0a000001#32 else .v4 0x0a000002#32
  keyRateLimitPerMin := none
  keyBurst := 1

/-- The three submissions, one after the other, at one instant. -/
def twoKeysTurns : List Turn :=
  [⟨0, 0⟩, ⟨0, 0⟩, ⟨0, 0⟩, ⟨1, 0⟩, ⟨1, 0⟩, ⟨1, 0⟩, ⟨2, 0⟩, ⟨2, 0⟩, ⟨2, 0⟩]

def twoKeysConfig (globalBurst : Nat) : AppConfig :=
  let config := AppConfig.default "127.0.0.1:8080" "relay@example.com"
    [{ ApiKeyConfig.default "a" ⟨"0123456789abcdef0123456789abcdef"⟩ with burst := 1 },
      { ApiKeyConfig.default "b" ⟨"fedcba9876543210fedcba9876543210"⟩ with burst := 1 }]
  { config with rateLimit := { config.rateLimit with globalBurst := globalBurst } }

def twoKeysEnd (globalBurst : Nat) (turns : List Turn) : RateRun :=
  (RateRun.machine twoKeysSubs "b").after (.start (twoKeysConfig globalBurst).rateLimit 0) turns

theorem twoKeys_addresses (i j : Nat) (hi : (twoKeysSubs i).keyId = "a")
    (hj : (twoKeysSubs j).keyId = "b") : (twoKeysSubs i).clientIp ≠ (twoKeysSubs j).clientIp := by
  by_cases h : i < 2
  · by_cases h' : j < 2
    · simp [twoKeysSubs, h'] at hj
    · simp [twoKeysSubs, h, h']
  · simp [twoKeysSubs, h] at hi

/-- With ten tokens for all, the second key is admitted either way. -/
theorem other_key_unaffected_sample :
    (twoKeysEnd 10 twoKeysTurns).progress 1 = .refused ⟨"key", 2⟩ ∧
      ((twoKeysEnd 10 (twoKeysTurns.filter fun t =>
          !refusedByKey twoKeysSubs "a" (twoKeysEnd 10 twoKeysTurns) t.submission)).progress 2 =
        (twoKeysEnd 10 twoKeysTurns).progress 2) := by
  refine ⟨by decide +kernel, ?_⟩
  exact other_key_unaffected (by decide) twoKeys_addresses (by decide) (by decide +kernel) 2
    (by decide)

/-- With two, the refused submission has taken the token the second key needs. -/
theorem refused_submission_drains_global :
    ConfigValidate.Accepted {} .plain (twoKeysConfig 2) ∧
      (twoKeysEnd 2 twoKeysTurns).progress 1 = .refused ⟨"key", 2⟩ ∧
      (twoKeysEnd 2 twoKeysTurns).progress 2 = .refused ⟨"global", 1⟩ ∧
      (twoKeysEnd 2 (twoKeysTurns.filter fun t =>
          !refusedByKey twoKeysSubs "a" (twoKeysEnd 2 twoKeysTurns) t.submission)).progress 2 =
        .admitted := by
  refine ⟨?_, by decide +kernel, by decide +kernel, by decide +kernel⟩
  unfold ConfigValidate.Accepted
  decide

end HttpSmtpRele
