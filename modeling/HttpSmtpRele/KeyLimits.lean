import HttpSmtpRele.Api.Keys
import HttpSmtpRele.KeyLockout
import HttpSmtpRele.SubmissionLifecycle

/-!
# The limits a key is told and the limits it gets

`GET /v1/keys/self` computes a key's limits from the config in force.  The
bucket that enforces them is made at the first check under the key's id, from
the overrides which that request took when it was authenticated, and then kept.
The two agree in every state of a run exactly if they agree at its start and
each step keeps the limits (`KeepsLimits`): no reload changes those of an id that
has a bucket, and whoever makes a bucket brings the overrides that are in force.
-/

namespace HttpSmtpRele

open Api

/-- The effective rate and burst of the entry. -/
def effectiveLimits (cfg : RateLimitConfig) (k : ApiKeyConfig) : Nat × Nat :=
  (keyRate cfg k, keyBurst cfg k)

/-- What the overrides come to. -/
def overriddenLimits (cfg : RateLimitConfig) (perMinOverride : Option Nat) (burstOverride : Nat) :
    Nat × Nat :=
  (perMinOverride.getD cfg.perKeyPerMin,
    if burstOverride > 0 then burstOverride else cfg.effectivePerKeyBurst)

def TokenBucket.HasLimits (b : TokenBucket) (limits : Nat × Nat) : Prop :=
  b.tokensPerSec = (limits.1 : ℚ) / 60 ∧ b.capacity = limits.2

namespace TokenBucket

theorem new_hasLimits (perMinute burst : Nat) (now : Instant) :
    (new perMinute burst now).HasLimits (perMinute, burst) :=
  ⟨rfl, rfl⟩

theorem limits_inj {b : TokenBucket} {limits limits' : Nat × Nat} (h : b.HasLimits limits) :
    b.HasLimits limits' ↔ limits = limits' := by
  obtain ⟨hrate, hburst⟩ := h
  constructor
  · intro ⟨hrate', hburst'⟩
    have hr : (limits.1 : ℚ) / 60 = limits'.1 / 60 := hrate.symm.trans hrate'
    have hb : (limits.2 : ℚ) = limits'.2 := hburst.symm.trans hburst'
    have hr' : (limits.1 : ℚ) = limits'.1 := (div_left_inj' (by norm_num)).mp hr
    exact Prod.ext (Nat.cast_injective hr') (Nat.cast_injective hb)
  · intro heq
    rw [← heq]
    exact ⟨hrate, hburst⟩

theorem hasLimits_tryConsume (now : Instant) (b : TokenBucket) (limits : Nat × Nat) :
    (b.tryConsume now).2.HasLimits limits ↔ b.HasLimits limits := by
  by_cases hfull : 1 ≤ (b.refill now).tokens
  · rw [tryConsume_of_full hfull]
    exact Iff.rfl
  · rw [tryConsume_of_empty hfull]
    exact Iff.rfl

end TokenBucket

/-- The bucket that the key's next check consults has the limits the key is told. -/
def Advertised (config : AppConfig) (l : RateLimiter) (k : ApiKeyConfig) : Prop :=
  ∀ now auth, auth.keyId = k.id → ∃ self, getKeySelf config auth = (200, .ok self) ∧
    (l.bucketOf k now).tokensPerSec = (self.effectiveRateLimitPerMin : ℚ) / 60 ∧
      (l.bucketOf k now).capacity = self.effectiveBurst

/-- This holds for every key of the config in force. -/
def LimitsAgree (s : Server RateLimiter) : Prop :=
  ∀ k ∈ s.world.app.config.security.apiKeys,
    Advertised s.world.app.config s.world.app.rateLimiter k

/-- Entries that share an id have the same limits, where no bucket is there yet. -/
def NamesakesAlike (config : AppConfig) (l : RateLimiter) : Prop :=
  ∀ k ∈ config.security.apiKeys, l.byKey.get k.id = none →
    ∀ first, Policy.findKey config k.id = some first →
      effectiveLimits config.rateLimit k = effectiveLimits config.rateLimit first

/-- The reload gives an id that has a bucket the limits it had, or, if it was not
listed before, those of the bucket. -/
def KeepsBuckets (config new : AppConfig) (l : RateLimiter) : Prop :=
  ∀ keyId b first, l.byKey.get keyId = some b → Policy.findKey new keyId = some first →
    match Policy.findKey config keyId with
    | some old => effectiveLimits config.rateLimit old = effectiveLimits config.rateLimit first
    | none => b.HasLimits (effectiveLimits config.rateLimit first)

/-- Who makes a bucket brings the overrides that the config in force has for the id. -/
def BringsLimits (config : AppConfig) (l : RateLimiter) : Op → Prop
  | .checkKey keyId perMin burst => l.byKey.get keyId = none →
    ∀ first, Policy.findKey config keyId = some first →
      overriddenLimits config.rateLimit perMin burst = effectiveLimits config.rateLimit first
  | _ => True

def KeepsLimits (s : Server RateLimiter) : Event → Prop
  | .turn i _ => ∀ t op, s.threads[i]? = some t → t.nextOp = some op →
    BringsLimits s.world.app.config s.world.app.rateLimiter op
  | .reload new =>
    KeepsBuckets s.world.app.config new s.world.app.rateLimiter ∧
      NamesakesAlike (mergeReloadable s.world.app.config new) s.world.app.rateLimiter
  | _ => True

instance (b : TokenBucket) (limits : Nat × Nat) : Decidable (b.HasLimits limits) :=
  inferInstanceAs (Decidable (_ ∧ _))

instance (config : AppConfig) (l : RateLimiter) : Decidable (NamesakesAlike config l) :=
  inferInstanceAs (Decidable (∀ k ∈ config.security.apiKeys, l.byKey.get k.id = none →
    ∀ first ∈ Policy.findKey config k.id,
      effectiveLimits config.rateLimit k = effectiveLimits config.rateLimit first))

theorem keepsBuckets_iff {config new : AppConfig} {l : RateLimiter} :
    KeepsBuckets config new l ↔
      ∀ e ∈ l.byKey.entries, ∀ first ∈ Policy.findKey new e.1,
        match Policy.findKey config e.1 with
        | some old => effectiveLimits config.rateLimit old = effectiveLimits config.rateLimit first
        | none => e.2.HasLimits (effectiveLimits config.rateLimit first) := by
  constructor
  · intro h e he first hfirst
    exact h e.1 e.2 first (Table.get_eq_some_iff.mpr he) hfirst
  · intro h keyId b first hget hfirst
    exact h ⟨keyId, b⟩ (Table.get_eq_some_iff.mp hget) first hfirst

instance (config new : AppConfig) (l : RateLimiter) : Decidable (KeepsBuckets config new l) :=
  have (e : Σ _ : String, TokenBucket) (first : ApiKeyConfig) :
      Decidable (match Policy.findKey config e.1 with
        | some old => effectiveLimits config.rateLimit old = effectiveLimits config.rateLimit first
        | none => e.2.HasLimits (effectiveLimits config.rateLimit first)) :=
    match Policy.findKey config e.1 with
    | some _ => inferInstanceAs (Decidable (_ = _))
    | none => inferInstanceAs (Decidable (TokenBucket.HasLimits ..))
  decidable_of_iff _ keepsBuckets_iff.symm

instance (config : AppConfig) (l : RateLimiter) : ∀ op, Decidable (BringsLimits config l op)
  | .checkKey keyId perMin burst => inferInstanceAs (Decidable (l.byKey.get keyId = none →
      ∀ first ∈ Policy.findKey config keyId,
        overriddenLimits config.rateLimit perMin burst = effectiveLimits config.rateLimit first))
  | .config | .now | .putReceived _ | .setRecipientMetadata .. | .updateStatus .. | .getRead ..
  | .getExpire _ | .expireOldRecords _ | .checkGlobal | .checkIp _ | .smtpSend .. | .pipeSend .. =>
    inferInstanceAs (Decidable True)

instance (s : Server RateLimiter) : ∀ e, Decidable (KeepsLimits s e)
  | .turn i _ =>
    decidable_of_iff (∀ t ∈ s.threads[i]?, ∀ op ∈ t.nextOp,
        BringsLimits s.world.app.config s.world.app.rateLimiter op)
      ⟨fun h t op ht hop => h t ht op hop, fun h t ht op hop => h t op ht hop⟩
  | .reload _ => inferInstanceAs (Decidable (_ ∧ _))
  | .post .. | .postBulk .. | .lookup .. | .sweep | .timeout _ | .timeoutBulk _ =>
    inferInstanceAs (Decidable True)

namespace KeyLimits

variable {config new : AppConfig} {l : RateLimiter}

/-- The limiter was made with the defaults of the config in force. -/
def MadeWith (cfg : RateLimitConfig) (l : RateLimiter) : Prop :=
  l.keyPerMin = cfg.perKeyPerMin ∧ l.keyBurst = cfg.effectivePerKeyBurst

/-- The limits of the bucket that is consulted. -/
theorem bucketOf_hasLimits (hmade : MadeWith config.rateLimit l) (k : ApiKeyConfig)
    (now : Instant) (limits : Nat × Nat) :
    (l.bucketOf k now).HasLimits limits ↔
      match l.byKey.get k.id with
      | some b => b.HasLimits limits
      | none => effectiveLimits config.rateLimit k = limits := by
  unfold RateLimiter.bucketOf RateLimiter.keyBucket
  cases l.byKey.get k.id with
  | some b => exact Iff.rfl
  | none =>
    rw [Option.getD_none, hmade.1, hmade.2]
    exact TokenBucket.limits_inj (TokenBucket.new_hasLimits _ _ _)

theorem advertised_iff {k first : ApiKeyConfig} (hfirst : Policy.findKey config k.id = some first)
    (hmade : MadeWith config.rateLimit l) :
    Advertised config l k ↔
      match l.byKey.get k.id with
      | some b => b.HasLimits (effectiveLimits config.rateLimit first)
      | none => effectiveLimits config.rateLimit k = effectiveLimits config.rateLimit first := by
  have hself : ∀ auth : AuthContext, auth.keyId = k.id →
      getKeySelf config auth = (200, .ok (.ofKey config first)) := by
    intro auth hauth
    unfold getKeySelf
    rw [hauth, hfirst]
  rw [← bucketOf_hasLimits hmade k 0]
  constructor
  · intro h
    obtain ⟨self, heq, hlimits⟩ := h 0 ⟨k.id, .localhost, none, 0⟩ rfl
    rw [hself _ rfl] at heq
    cases heq
    exact hlimits
  · intro h now auth hauth
    refine ⟨_, hself auth hauth, ?_⟩
    rw [bucketOf_hasLimits hmade] at h
    exact (bucketOf_hasLimits hmade k now _).mpr h

theorem exists_findKey {k : ApiKeyConfig} (hk : k ∈ config.security.apiKeys) :
    ∃ first, Policy.findKey config k.id = some first := by
  apply Option.ne_none_iff_exists'.mp
  intro hnone
  exact Policy.findKey_eq_none.mp hnone k hk rfl

/-! ## One step -/

/-- What is advertised depends on the buckets and the defaults only. -/
theorem advertised_congr {l' : RateLimiter} (hmade : MadeWith config.rateLimit l)
    (hmade' : MadeWith config.rateLimit l') {k : ApiKeyConfig}
    (hk : k ∈ config.security.apiKeys) (hget : l'.byKey.get k.id = l.byKey.get k.id) :
    Advertised config l' k ↔ Advertised config l k := by
  obtain ⟨first, hfirst⟩ := exists_findKey hk
  rw [advertised_iff hfirst hmade', advertised_iff hfirst hmade, hget]

theorem madeWith_checkKey (hmade : MadeWith config.rateLimit l) (keyId : String)
    (perMin : Option Nat) (burst : Nat) (now : Instant) :
    MadeWith config.rateLimit (l.checkKey keyId perMin burst now).2 :=
  hmade

/-- The limits of the bucket that a check leaves behind. -/
theorem keyBucket_hasLimits (hmade : MadeWith config.rateLimit l) (keyId : String)
    (perMin : Option Nat) (burst : Nat) (now : Instant) (limits : Nat × Nat) :
    ((l.keyBucket keyId perMin burst now).tryConsume now).2.HasLimits limits ↔
      match l.byKey.get keyId with
      | some b => b.HasLimits limits
      | none => overriddenLimits config.rateLimit perMin burst = limits := by
  rw [TokenBucket.hasLimits_tryConsume]
  unfold RateLimiter.keyBucket
  cases l.byKey.get keyId with
  | some b => exact Iff.rfl
  | none =>
    rw [Option.getD_none, hmade.1, hmade.2]
    exact TokenBucket.limits_inj (TokenBucket.new_hasLimits _ _ _)

/-- A check keeps what is advertised exactly if it brings the limits in force. -/
theorem advertised_checkKey (hmade : MadeWith config.rateLimit l)
    (hagree : ∀ k ∈ config.security.apiKeys, Advertised config l k) (keyId : String)
    (perMin : Option Nat) (burst : Nat) (now : Instant) :
    (∀ k ∈ config.security.apiKeys, Advertised config (l.checkKey keyId perMin burst now).2 k) ↔
      BringsLimits config l (.checkKey keyId perMin burst) := by
  have hmade' := madeWith_checkKey hmade keyId perMin burst now
  constructor
  · intro h hnone first hfirst
    obtain ⟨hmem, hid⟩ := Policy.findKey_mem hfirst
    have hadv := h first hmem
    rw [← hid] at hfirst hnone
    rw [advertised_iff hfirst hmade', RateLimiter.get_checkKey, if_pos hid] at hadv
    have hlimits := (keyBucket_hasLimits hmade keyId perMin burst now _).mp hadv
    rw [← hid, hnone] at hlimits
    exact hlimits
  · intro hbrings k hk
    obtain ⟨first, hfirst⟩ := exists_findKey hk
    by_cases hid : k.id = keyId
    · rw [advertised_iff hfirst hmade', RateLimiter.get_checkKey, if_pos hid]
      show TokenBucket.HasLimits _ _
      rw [keyBucket_hasLimits hmade]
      have hbefore := (advertised_iff hfirst hmade).mp (hagree k hk)
      rw [hid] at hbefore hfirst
      cases hget : l.byKey.get keyId with
      | none => exact hbrings hget first hfirst
      | some b =>
        rw [hget] at hbefore
        exact hbefore
    · have hget := RateLimiter.get_checkKey keyId perMin burst now l k.id
      rw [if_neg hid] at hget
      exact (advertised_congr hmade hmade' hk hget).mpr (hagree k hk)

/-- A reload keeps what is advertised exactly if it keeps the limits of the buckets
and the namesakes that have none are alike. -/
theorem advertised_reload (hmade : MadeWith config.rateLimit l)
    (hagree : ∀ k ∈ config.security.apiKeys, Advertised config l k) (new : AppConfig) :
    (∀ k ∈ (mergeReloadable config new).security.apiKeys,
        Advertised (mergeReloadable config new) l k) ↔
      KeepsBuckets config new l ∧ NamesakesAlike (mergeReloadable config new) l := by
  have hmade' : MadeWith (mergeReloadable config new).rateLimit l := hmade
  -- by what was advertised before, the buckets have the limits of the listed entries
  have hbucket : ∀ keyId b old, l.byKey.get keyId = some b →
      Policy.findKey config keyId = some old →
        b.HasLimits (effectiveLimits config.rateLimit old) := by
    intro keyId b old hget hold
    obtain ⟨hmem, hid⟩ := Policy.findKey_mem hold
    rw [← hid] at hget hold
    have hadv := (advertised_iff hold hmade).mp (hagree old hmem)
    rw [hget] at hadv
    exact hadv
  constructor
  · intro h
    constructor
    · intro keyId b first hget hfirst
      obtain ⟨hmem, hid⟩ := Policy.findKey_mem hfirst
      rw [← hid] at hget hfirst ⊢
      have hfirst' : Policy.findKey (mergeReloadable config new) first.id = some first := hfirst
      have hadv := (advertised_iff hfirst' hmade').mp (h first hmem)
      rw [hget] at hadv
      cases hold : Policy.findKey config first.id with
      | none => exact hadv
      | some old => exact (TokenBucket.limits_inj (hbucket _ b old hget hold)).mp hadv
    · intro k hk hnone first hfirst
      have hadv := (advertised_iff hfirst hmade').mp (h k hk)
      rw [hnone] at hadv
      exact hadv
  · intro ⟨hkeeps, halike⟩ k hk
    obtain ⟨first, hfirst⟩ := exists_findKey hk
    rw [advertised_iff hfirst hmade']
    cases hget : l.byKey.get k.id with
    | none => exact halike k hk hget first hfirst
    | some b =>
      have hkept := hkeeps k.id b first hget hfirst
      cases hold : Policy.findKey config k.id with
      | none =>
        rw [hold] at hkept
        exact hkept
      | some old =>
        rw [hold] at hkept
        exact (TokenBucket.limits_inj (hbucket _ b old hget hold)).mpr hkept

/-- Only `check_key` makes or changes the bucket of a key. -/
theorem limiter_exec {op : Op} (h : ∀ keyId perMin burst, op ≠ .checkKey keyId perMin burst)
    (c : Choice) (w : World RateLimiter) :
    (exec rateLimiter op c w).2.app.rateLimiter.byKey = w.app.rateLimiter.byKey ∧
      (exec rateLimiter op c w).2.app.rateLimiter.keyPerMin = w.app.rateLimiter.keyPerMin ∧
      (exec rateLimiter op c w).2.app.rateLimiter.keyBurst = w.app.rateLimiter.keyBurst := by
  cases op with
  | checkKey keyId perMin burst => exact absurd rfl (h keyId perMin burst)
  | _ => exact ⟨rfl, rfl, rfl⟩

theorem madeWith_exec {w : World RateLimiter}
    (hmade : MadeWith w.app.config.rateLimit w.app.rateLimiter)
    (op : Op) (c : Choice) :
    MadeWith (exec rateLimiter op c w).2.app.config.rateLimit
      (exec rateLimiter op c w).2.app.rateLimiter := by
  cases op <;> exact hmade

theorem limitsAgree_exec {w w' : World RateLimiter} {threads threads' : List Thread}
    (hmade : MadeWith w.app.config.rateLimit w.app.rateLimiter)
    (hagree : LimitsAgree ⟨w, threads⟩) {op : Op} {c : Choice}
    (hw : w' = (exec rateLimiter op c w).2) :
    LimitsAgree ⟨w', threads'⟩ ↔ BringsLimits w.app.config w.app.rateLimiter op := by
  subst hw
  have hmade' := madeWith_exec hmade op c
  unfold LimitsAgree at hagree ⊢
  dsimp only at hagree ⊢
  rw [config_exec] at hmade' ⊢
  by_cases hcheck : ∃ keyId perMin burst, op = .checkKey keyId perMin burst
  · obtain ⟨keyId, perMin, burst, rfl⟩ := hcheck
    exact advertised_checkKey hmade hagree keyId perMin burst c.instant
  · have hother : ∀ keyId perMin burst, op ≠ .checkKey keyId perMin burst :=
      fun keyId perMin burst h => hcheck ⟨keyId, perMin, burst, h⟩
    have hbrings : BringsLimits w.app.config w.app.rateLimiter op := by
      cases op with
      | checkKey keyId perMin burst => exact absurd rfl (hother keyId perMin burst)
      | _ => trivial
    refine ⟨fun _ => hbrings, fun _ k hk => ?_⟩
    have hget := congrArg (fun t => Table.get k.id t) (limiter_exec hother c w).1
    exact (advertised_congr hmade hmade' hk hget).mpr (hagree k hk)

theorem step_limits {D : Deps} {s s' : Server RateLimiter} {e : Event}
    (hmade : MadeWith s.world.app.config.rateLimit s.world.app.rateLimiter)
    (hagree : LimitsAgree s) (h : s.step D rateLimiter e = some s') :
    LimitsAgree s' ↔ KeepsLimits s e := by
  cases e with
  | turn i c =>
    simp only [Server.step, Option.bind_eq_bind, Option.bind_eq_some_iff] at h
    obtain ⟨t, ht, ⟨t', w'⟩, hturn, hs'⟩ := h
    cases hs'
    rcases Thread.turn_world hturn with ⟨hnone, hw⟩ | ⟨op, hop, hw⟩
    · subst hw
      refine ⟨fun _ t₁ op ht₁ hop => ?_, fun _ => hagree⟩
      obtain rfl := Option.some.inj (ht.symm.trans ht₁)
      rw [hnone] at hop
      cases hop
    · refine (limitsAgree_exec hmade hagree hw).trans ⟨fun hbrings t₁ op₁ ht₁ hop₁ => ?_, ?_⟩
      · obtain rfl := Option.some.inj (ht.symm.trans ht₁)
        obtain rfl := Option.some.inj (hop.symm.trans hop₁)
        exact hbrings
      · intro hkeeps
        exact hkeeps t op ht hop
  | timeout i =>
    simp only [Server.step, Option.bind_eq_bind, Option.bind_eq_some_iff] at h
    obtain ⟨t, -, t', -, hs'⟩ := h
    cases hs'
    exact ⟨fun _ => trivial, fun _ => hagree⟩
  | reload new =>
    cases h
    exact advertised_reload hmade hagree new
  | post rid parts =>
    cases h
    exact ⟨fun _ => trivial, fun _ => hagree⟩
  | postBulk bulkId auth messages =>
    cases h
    exact ⟨fun _ => trivial, fun _ => hagree⟩
  | lookup rid keyId =>
    cases h
    exact ⟨fun _ => trivial, fun _ => hagree⟩
  | sweep =>
    cases h
    exact ⟨fun _ => trivial, fun _ => hagree⟩
  | timeoutBulk i =>
    cases h
    exact ⟨fun _ => trivial, fun _ => hagree⟩

theorem step_madeWith {D : Deps} {s s' : Server RateLimiter} {e : Event}
    (hmade : MadeWith s.world.app.config.rateLimit s.world.app.rateLimiter)
    (h : s.step D rateLimiter e = some s') :
    MadeWith s'.world.app.config.rateLimit s'.world.app.rateLimiter := by
  cases e with
  | turn i c =>
    simp only [Server.step, Option.bind_eq_bind, Option.bind_eq_some_iff] at h
    obtain ⟨t, ht, ⟨t', w'⟩, hturn, hs'⟩ := h
    cases hs'
    rcases Thread.turn_world hturn with ⟨-, hw⟩ | ⟨op, -, hw⟩
    · subst hw
      exact hmade
    · subst hw
      exact madeWith_exec hmade op c
  | timeout i =>
    simp only [Server.step, Option.bind_eq_bind, Option.bind_eq_some_iff] at h
    obtain ⟨t, -, t', -, hs'⟩ := h
    cases hs'
    exact hmade
  | _ =>
    cases h
    exact hmade

end KeyLimits

namespace Server

variable {ρ : Type}

/-- `P` holds in every state that the run passes. -/
def Always (D : Deps) (L : Limiter ρ) (P : Server ρ → Prop) : Server ρ → List Event → Prop
  | s, [] => P s
  | s, e :: es => P s ∧ ∀ s', s.step D L e = some s' → Always D L P s' es

/-- `C` holds of every step of the run. -/
def EachStep (D : Deps) (L : Limiter ρ) (C : Server ρ → Event → Prop) :
    Server ρ → List Event → Prop
  | _, [] => True
  | s, e :: es => ∀ s', s.step D L e = some s' → C s e ∧ EachStep D L C s' es

instance EachStep.decide {D : Deps} {L : Limiter ρ} {C : Server ρ → Event → Prop}
    [∀ s e, Decidable (C s e)] : ∀ s es, Decidable (EachStep D L C s es)
  | _, [] => inferInstanceAs (Decidable True)
  | s, e :: es =>
    have (s' : Server ρ) : Decidable (EachStep D L C s' es) := EachStep.decide s' es
    inferInstanceAs (Decidable (∀ s' ∈ s.step D L e, C s e ∧ EachStep D L C s' es))

theorem always_iff_eachStep {D : Deps} {L : Limiter ρ} {I P : Server ρ → Prop}
    {C : Server ρ → Event → Prop}
    (hI : ∀ {s s' e}, I s → s.step D L e = some s' → I s')
    (hstep : ∀ {s s' e}, I s → P s → s.step D L e = some s' → (P s' ↔ C s e))
    {s : Server ρ} (hs : I s) (es : List Event) :
    Always D L P s es ↔ P s ∧ EachStep D L C s es := by
  induction es generalizing s with
  | nil => exact ⟨fun h => ⟨h, trivial⟩, fun h => h.1⟩
  | cons e es ih =>
    constructor
    · intro ⟨hP, hrest⟩
      refine ⟨hP, fun s' hs' => ?_⟩
      obtain ⟨hP', heach⟩ := (ih (hI hs hs')).mp (hrest s' hs')
      exact ⟨(hstep hs hP hs').mp hP', heach⟩
    · intro ⟨hP, heach⟩
      refine ⟨hP, fun s' hs' => ?_⟩
      obtain ⟨hC, hrest⟩ := heach s' hs'
      exact (ih (hI hs hs')).mpr ⟨(hstep hs hP hs').mpr hC, hrest⟩

end Server

/-- From a start with a fresh limiter on, the advertised limits are those in force in
every state of a run exactly if the namesakes of the first config are alike and
every step keeps the limits. -/
theorem limits_agree_iff {D : Deps} {w : World RateLimiter} {start : Instant}
    (hlimiter : w.app.rateLimiter = .new w.app.config.rateLimit start) (es : List Event) :
    Server.Always D rateLimiter LimitsAgree ⟨w, []⟩ es ↔
      NamesakesAlike w.app.config w.app.rateLimiter ∧
        Server.EachStep D rateLimiter KeepsLimits ⟨w, []⟩ es := by
  have hmade : KeyLimits.MadeWith w.app.config.rateLimit w.app.rateLimiter := by
    rw [hlimiter]
    exact ⟨rfl, rfl⟩
  have hnone : ∀ keyId, w.app.rateLimiter.byKey.get keyId = none := by
    intro keyId
    rw [hlimiter]
    rfl
  have hstart : LimitsAgree ⟨w, []⟩ ↔ NamesakesAlike w.app.config w.app.rateLimiter := by
    constructor
    · intro h k hk _ first hfirst
      have hadv := (KeyLimits.advertised_iff hfirst hmade).mp (h k hk)
      rwa [hnone] at hadv
    · intro h k hk
      obtain ⟨first, hfirst⟩ := KeyLimits.exists_findKey hk
      rw [KeyLimits.advertised_iff hfirst hmade, hnone]
      exact h k hk (hnone _) first hfirst
  rw [← hstart]
  exact Server.always_iff_eachStep KeyLimits.step_madeWith KeyLimits.step_limits
    (I := fun s => KeyLimits.MadeWith s.world.app.config.rateLimit s.world.app.rateLimiter) hmade es

/-! The burst of a key is raised, before or after its first use. -/

def limitedWorld : World RateLimiter where
  app := .new sampleConfig (.new sampleConfig.rateLimit 0)
  bodyLimit := sampleConfig.server.maxRequestBodyBytes
  handed := []

def raisedKey : ApiKeyConfig := { sampleKey with burst := 50 }

def raisedConfig : AppConfig :=
  { sampleConfig with security := { sampleConfig.security with apiKeys := [raisedKey] } }

/-- A request between two reloads that list the raised burst: it makes the bucket. -/
def raisedEvents : List Event := .reload raisedConfig :: sampleEvents ++ [.reload raisedConfig]

theorem limits_agree_unused :
    (∃ s, Server.run jsonDeps rateLimiter ⟨limitedWorld, []⟩ raisedEvents = some s ∧
      ∃ b, s.world.app.rateLimiter.byKey.get raisedKey.id = some b ∧ b.capacity = 50) ∧
      Server.Always jsonDeps rateLimiter LimitsAgree ⟨limitedWorld, []⟩ raisedEvents := by
  constructor
  · have hend : ((Server.run jsonDeps rateLimiter ⟨limitedWorld, []⟩ raisedEvents).bind fun s =>
        s.world.app.rateLimiter.byKey.get raisedKey.id).map TokenBucket.capacity = some 50 := by
      decide +kernel
    obtain ⟨b, hb, hcapacity⟩ := Option.map_eq_some_iff.mp hend
    obtain ⟨s, hrun, hget⟩ := Option.bind_eq_some_iff.mp hb
    exact ⟨s, hrun, b, hget, hcapacity⟩
  · have hnew : limitedWorld.app.rateLimiter = .new limitedWorld.app.config.rateLimit 0 := rfl
    exact (limits_agree_iff hnew _).mpr ⟨by decide, by decide +kernel⟩

/-- The bucket the first request made keeps its burst; the key is told the new one. -/
theorem raised_burst_not_enforced :
    ConfigValidate.Accepted {} jsonDeps sampleConfig ∧
      ConfigValidate.Accepted {} jsonDeps raisedConfig ∧
      ∃ s, Server.run jsonDeps rateLimiter ⟨limitedWorld, []⟩
          (sampleEvents ++ [.reload raisedConfig]) = some s ∧
        raisedKey ∈ s.world.app.config.security.apiKeys ∧
        (s.world.app.rateLimiter.bucketOf raisedKey 0).capacity = 5 ∧ ¬LimitsAgree s := by
  refine ⟨?_, ?_, ?_⟩
  · unfold ConfigValidate.Accepted
    decide
  · unfold ConfigValidate.Accepted
    decide
  · have hend : (Server.run jsonDeps rateLimiter ⟨limitedWorld, []⟩
        (sampleEvents ++ [.reload raisedConfig])).map (fun s => (s.world.app.config,
          (s.world.app.rateLimiter.bucketOf raisedKey 0).capacity)) = some (raisedConfig, 5) := by
      decide +kernel
    obtain ⟨s, hrun, hs⟩ := Option.map_eq_some_iff.mp hend
    obtain ⟨hconfig, hcapacity⟩ := Prod.ext_iff.mp hs
    have hlisted : raisedKey ∈ s.world.app.config.security.apiKeys := by
      rw [show s.world.app.config = raisedConfig from hconfig]
      exact List.mem_singleton_self _
    refine ⟨s, hrun, hlisted, hcapacity, fun hagree => ?_⟩
    obtain ⟨self, hself, -, hburst⟩ := hagree raisedKey hlisted 0 sampleAuth rfl
    rw [show s.world.app.config = raisedConfig from hconfig] at hself
    have hfound : getKeySelf raisedConfig sampleAuth = (200, .ok (.ofKey raisedConfig raisedKey)) :=
      rfl
    rw [hfound] at hself
    cases hself
    have hfive : (5 : ℚ) = (50 : Nat) := hcapacity.symm.trans hburst
    norm_num at hfive

end HttpSmtpRele
