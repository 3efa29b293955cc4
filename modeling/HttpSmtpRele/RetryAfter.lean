import HttpSmtpRele.IpTable
import HttpSmtpRele.KeyLockout

/-!
# `retry_after_secs`

A call that is refused only refills the bucket, and refilling twice is refilling
once.  So whatever was refused in between, a later call finds what the first
refusal left, refilled once: one token, if the advertised seconds have passed,
and less than one, if a whole second of them is left.
-/

namespace HttpSmtpRele

namespace TokenBucket

variable {b b' : TokenBucket} {perMinute burst : Nat} {s t now later : Instant}

theorem Sized.rate_nonneg (h : b.Sized perMinute burst) : 0 ≤ b.tokensPerSec := by
  rw [h.rate]
  exact div_nonneg (Nat.cast_nonneg perMinute) (by norm_num)

/-- Refused calls at most, the last one by `s`. -/
def Waits (b : TokenBucket) (s : Instant) (b' : TokenBucket) : Prop :=
  b' = b ∨ ∃ u, b.lastRefill ≤ u ∧ u ≤ s ∧ b' = b.refill u

theorem Waits.refill (h : b.Waits s b') (hsized : b.Sized perMinute burst) (hst : s ≤ t) :
    b'.refill t = b.refill t := by
  rcases h with rfl | ⟨u, hlast, hus, rfl⟩
  · rfl
  · exact refill_refill hsized.rate_nonneg hlast (hus.trans hst)

theorem Waits.isOk (h : b.Waits s b') (hsized : b.Sized perMinute burst) (hst : s ≤ t) :
    (b'.tryConsume t).1.isOk = (b.tryConsume t).1.isOk := by
  rw [Bool.eq_iff_iff, isOk_tryConsume_iff, isOk_tryConsume_iff, h.refill hsized hst]

theorem refused_eq (h : (b.tryConsume t).1.isOk = false) : (b.tryConsume t).2 = b.refill t := by
  have hempty : ¬1 ≤ (b.refill t).tokens := by
    rw [← isOk_tryConsume_iff, h]
    exact Bool.false_ne_true
  rw [tryConsume_of_empty hempty]

theorem Waits.refused (h : b.Waits s b') (hsized : b.Sized perMinute burst)
    (hs : b.lastRefill ≤ s) (hst : s ≤ t) (hrefused : (b'.tryConsume t).1.isOk = false) :
    b.Waits t (b'.tryConsume t).2 := by
  rw [refused_eq hrefused, h.refill hsized hst]
  exact Or.inr ⟨t, hs.trans hst, le_rfl, rfl⟩

theorem Waits.mono (h : b.Waits s b') (hst : s ≤ t) : b.Waits t b' :=
  h.imp_right fun ⟨u, hlast, hus, heq⟩ => ⟨u, hlast, hus.trans hst, heq⟩

theorem isOk_new (perMinute : Nat) (hburst : 0 < burst) (now : Instant) :
    ((new perMinute burst now).tryConsume now).1.isOk = true := by
  have hone : (1 : ℚ) ≤ burst := by exact_mod_cast hburst
  rw [isOk_tryConsume_iff]
  refine le_min ?_ hone
  have hrate : 0 ≤ (new perMinute burst now).tokensPerSec :=
    (new_sized perMinute burst now).rate_nonneg
  exact hone.trans (le_add_of_nonneg_right (mul_nonneg (seconds_nonneg _) hrate))

theorem one_le_retryAfter {retryAfter : Nat}
    (hrefused : (b.tryConsume now).1 = .error retryAfter) : 1 ≤ retryAfter := by
  by_cases hfull : 1 ≤ (b.refill now).tokens
  · rw [tryConsume_of_full hfull] at hrefused
    cases hrefused
  · rw [tryConsume_of_empty hfull] at hrefused
    rw [← Except.error.inj hrefused]
    exact le_max_right _ _

/-- The wait is the least number of seconds that is long enough. -/
theorem pred_wait_mul_lt {missing rate : ℚ} {w : Nat} (hrate : 0 < rate)
    (hw : w + 1 ≤ wait missing rate) : w * rate < missing := by
  unfold wait at hw
  rw [if_neg hrate.ne'] at hw
  have hceil : (w : Int) < ⌈missing / rate⌉ := by
    have := hw.trans (min_le_left _ _)
    omega
  exact (lt_div_iff₀ hrate).mp (Int.lt_ceil.mp hceil)

/-- A second before the advertised time the call is still refused. -/
theorem refused_before_wait (h : b.Sized perMinute burst) (hrate : 0 < perMinute)
    {retryAfter : Nat} (hrefused : (b.tryConsume now).1 = .error retryAfter)
    (htwo : 2 ≤ retryAfter)
    (hlater : later ≤ now + (retryAfter - 1) * 1000000000) :
    ((b.tryConsume now).2.tryConsume later).1.isOk = false := by
  have hempty : ¬1 ≤ (b.refill now).tokens := by
    intro hfull
    rw [tryConsume_of_full hfull] at hrefused
    cases hrefused
  have hsized := h.refill now
  rw [tryConsume_of_empty hempty] at hrefused ⊢
  have hperSec : (0 : ℚ) < (b.refill now).tokensPerSec := by
    rw [hsized.rate]
    exact div_pos (Nat.cast_pos.mpr hrate) (by norm_num)
  obtain ⟨w, rfl⟩ : ∃ w, retryAfter = w + 1 := ⟨retryAfter - 1, by omega⟩
  have hwait : w + 1 ≤ wait (1 - (b.refill now).tokens) (b.refill now).tokensPerSec := by
    have hmax : max (wait (1 - (b.refill now).tokens) (b.refill now).tokensPerSec) 1 = w + 1 :=
      Except.error.inj hrefused
    omega
  have hmissing := pred_wait_mul_lt hperSec hwait
  have helapsed : seconds (later - (b.refill now).lastRefill) ≤ w := by
    have hspan : later - now ≤ w * 1000000000 := by
      rw [Nat.add_sub_cancel] at hlater
      exact Nat.sub_le_iff_le_add'.mpr hlater
    have hcast : ((later - now : Nat) : ℚ) ≤ ((w * 1000000000 : Nat) : ℚ) :=
      Nat.cast_le.mpr hspan
    push_cast at hcast
    show ((later - now : Nat) : ℚ) / 1000000000 ≤ w
    rw [div_le_iff₀ (by norm_num)]
    exact hcast
  rw [← Bool.not_eq_true, isOk_tryConsume_iff, not_le]
  refine (min_le_left _ _).trans_lt ?_
  have := mul_le_mul_of_nonneg_right helapsed hperSec.le
  linarith

end TokenBucket

/-! ## The tiers before authentication -/

/-- A bucket that is consulted before the key is known. -/
inductive OuterTier
  | global
  | ip (ip : IpAddr)

namespace OuterTier

def check : OuterTier → RateLimiter.Check
  | global => .global
  | ip a => .ip a

def perMinute (cfg : RateLimitConfig) : OuterTier → Nat
  | global => cfg.globalPerMin
  | ip _ => cfg.perIpPerMin

def burst (cfg : RateLimitConfig) : OuterTier → Nat
  | global => cfg.effectiveGlobalBurst
  | ip _ => cfg.effectivePerIpBurst

/-- The bucket, if there is one. -/
def stored (l : RateLimiter) : OuterTier → Option TokenBucket
  | global => some l.global
  | ip a => l.byIp.map.get a

/-- The bucket that a check consults. -/
def consulted (p : OuterTier) (now : Instant) (l : RateLimiter) : TokenBucket :=
  (p.stored l).getD (.new l.ipPerMin l.ipBurst now)

theorem burst_pos (cfg : RateLimitConfig) (p : OuterTier) : 0 < p.burst cfg := by
  cases p with
  | global => exact RateLimitConfig.effectiveBurst_pos (by decide)
  | ip a => exact RateLimitConfig.effectiveBurst_pos (by decide)

end OuterTier

namespace RateLimiter

/-- The buckets have the rates and bursts of the config. -/
structure OuterSized (cfg : RateLimitConfig) (l : RateLimiter) : Prop where
  ipRate : l.ipPerMin = cfg.perIpPerMin
  ipBurst : l.ipBurst = cfg.effectivePerIpBurst
  inv : l.byIp.Inv
  bucket : ∀ (p : OuterTier) b, p.stored l = some b → b.Sized (p.perMinute cfg) (p.burst cfg)

variable {cfg : RateLimitConfig} {l : RateLimiter} {p : OuterTier}

/-- `check_ip` as a call of the table. -/
def ipCall (ip : IpAddr) (now : Instant) (l : RateLimiter) : LruCall IpAddr where
  key := ip
  perMinute := l.ipPerMin
  burst := l.ipBurst
  now := now
  use b := (b.tryConsume now).2

theorem fst_check_outer (p : OuterTier) (now : Instant) (l : RateLimiter) :
    (l.check p.check now).1.mapError RateLimitedError.retryAfterSecs =
      ((p.consulted now l).tryConsume now).1 := by
  have hdrop : ∀ (tier : String) (res : Except Nat Unit),
      (inTier tier res).mapError RateLimitedError.retryAfterSecs = res := by
    intro tier res
    cases res <;> rfl
  cases p with
  | global => exact hdrop "global" _
  | ip a =>
    have hbucket := LruMap.fst_getOrInsert a l.ipPerMin l.ipBurst now l.byIp
    refine (hdrop "ip" _).trans ?_
    show ((l.byIp.getOrInsert a l.ipPerMin l.ipBurst now).1.tryConsume now).1 = _
    rw [hbucket]
    rfl

theorem isOk_check_outer (p : OuterTier) (now : Instant) (l : RateLimiter) :
    (l.check p.check now).1.isOk = ((p.consulted now l).tryConsume now).1.isOk := by
  rw [← fst_check_outer]
  cases (l.check p.check now).1 <;> rfl

theorem stored_check_self (p : OuterTier) (now : Instant) (l : RateLimiter) :
    p.stored (l.check p.check now).2 = some ((p.consulted now l).tryConsume now).2 := by
  cases p with
  | global => rfl
  | ip a => exact LruMap.get_step_self l.byIp (l.ipCall a now)

/-- Another check leaves the bucket as it is, or evicts it. -/
theorem stored_check_of_ne (h : l.byIp.Inv) {c : Check} (hc : c ≠ p.check) (now : Instant) :
    p.stored (l.check c now).2 = p.stored l ∨ p.stored (l.check c now).2 = none := by
  cases p with
  | global =>
    cases c with
    | global => exact absurd rfl hc
    | ip a => exact Or.inl rfl
    | key keyId perMin burst => exact Or.inl rfl
  | ip a =>
    cases c with
    | global => exact Or.inl rfl
    | key keyId perMin burst => exact Or.inl rfl
    | ip a' =>
      have hne : a ≠ a' := by
        rintro rfl
        exact hc rfl
      by_cases hmem : a ∈ (l.byIp.step (l.ipCall a' now)).order
      · exact Or.inl (LruMap.get_step_of_ne h (l.ipCall a' now) hne hmem)
      · exact Or.inr ((LruMap.step_inv h (l.ipCall a' now)).get_of_not_mem hmem)

theorem new_outerSized (cfg : RateLimitConfig) (start : Instant) :
    (new cfg start).OuterSized cfg := by
  refine ⟨rfl, rfl, LruMap.new_inv cfg.ipTableSize, fun p b hb => ?_⟩
  cases p with
  | global =>
    obtain rfl := Option.some.inj hb
    exact TokenBucket.new_sized _ _ _
  | ip a => cases hb

theorem OuterSized.consulted (h : l.OuterSized cfg) (p : OuterTier) (now : Instant) :
    (p.consulted now l).Sized (p.perMinute cfg) (p.burst cfg) := by
  unfold OuterTier.consulted
  cases hb : p.stored l with
  | some b => exact h.bucket p b hb
  | none =>
    cases p with
    | global => cases hb
    | ip a =>
      rw [Option.getD_none, h.ipRate, h.ipBurst]
      exact TokenBucket.new_sized _ _ _

theorem ipDefaults_check (c : Check) (now : Instant) (l : RateLimiter) :
    (l.check c now).2.ipPerMin = l.ipPerMin ∧ (l.check c now).2.ipBurst = l.ipBurst := by
  cases c <;> exact ⟨rfl, rfl⟩

theorem inv_check (h : l.byIp.Inv) (c : Check) (now : Instant) : (l.check c now).2.byIp.Inv := by
  cases c with
  | global => exact h
  | ip a => exact inv_checkIp h a now
  | key keyId perMin burst => exact h

theorem OuterSized.check (h : l.OuterSized cfg) (c : Check) (now : Instant) :
    (l.check c now).2.OuterSized cfg := by
  obtain ⟨hrate, hburst⟩ := ipDefaults_check c now l
  refine ⟨hrate.trans h.ipRate, hburst.trans h.ipBurst, inv_check h.inv c now, fun p b hb => ?_⟩
  by_cases hc : c = p.check
  · subst hc
    rw [stored_check_self] at hb
    obtain rfl := Option.some.inj hb
    exact (h.consulted p now).tryConsume now
  · rcases stored_check_of_ne h.inv hc now with hsame | hgone
    · rw [hsame] at hb
      exact h.bucket p b hb
    · rw [hgone] at hb
      cases hb

theorem OuterSized.checks (h : l.OuterSized cfg) (calls : List (Check × Instant)) :
    (l.checks calls).OuterSized cfg := by
  induction calls generalizing l with
  | nil => exact h
  | cons c calls ih => exact ih (h.check c.1 c.2)

theorem OuterSized.isOk_of_absent (h : l.OuterSized cfg) (habsent : p.stored l = none)
    (now : Instant) : (l.check p.check now).1.isOk = true := by
  rw [isOk_check_outer, OuterTier.consulted, habsent]
  apply TokenBucket.isOk_new
  rw [h.ipBurst]
  exact RateLimitConfig.effectiveBurst_pos (by decide)

/-! ## After a refusal -/

/-- No call of the tier in this run succeeds. -/
def NoSuccess (p : OuterTier) : RateLimiter → List (Check × Instant) → Prop
  | _, [] => True
  | l, c :: calls =>
    (c.1 = p.check → (l.check c.1 c.2).1.isOk = false) ∧ NoSuccess p (l.check c.1 c.2).2 calls

/-- The bucket is there throughout the run. -/
def Resident (p : OuterTier) : RateLimiter → List (Check × Instant) → Prop
  | l, [] => (p.stored l).isSome = true
  | l, c :: calls => (p.stored l).isSome = true ∧ Resident p (l.check c.1 c.2).2 calls

/-- The bucket, if it is still there, has only been refilled since it was `b`. -/
def Waiting (p : OuterTier) (b : TokenBucket) (s : Instant) (l : RateLimiter) : Prop :=
  ∀ b', p.stored l = some b' → b.Waits s b'

variable {b : TokenBucket} {s t : Instant}

theorem Waiting.check (h : Waiting p b s l) (hinv : l.byIp.Inv) {perMinute burst : Nat}
    (hsized : b.Sized perMinute burst) (hs : b.lastRefill ≤ s) (hst : s ≤ t) {c : Check}
    (hc : c = p.check → (l.check c t).1.isOk = false ∧ (p.stored l).isSome = true) :
    Waiting p b t (l.check c t).2 := by
  intro b' hb'
  by_cases heq : c = p.check
  · obtain ⟨hrefused, hthere⟩ := hc heq
    subst heq
    obtain ⟨b₀, hb₀⟩ := Option.isSome_iff_exists.mp hthere
    have hconsulted : p.consulted t l = b₀ := by
      rw [OuterTier.consulted, hb₀]
      rfl
    rw [isOk_check_outer, hconsulted] at hrefused
    rw [stored_check_self, hconsulted] at hb'
    obtain rfl := Option.some.inj hb'
    exact (h b₀ hb₀).refused hsized hs hst hrefused
  · rcases stored_check_of_ne hinv heq t with hsame | hgone
    · rw [hsame] at hb'
      exact (h b' hb').mono hst
    · rw [hgone] at hb'
      cases hb'

/-- Nobody succeeds before the bucket is gone, so the refusals are all it has seen. -/
theorem Waiting.checks (h : Waiting p b s l) (hl : l.OuterSized cfg)
    (hsized : b.Sized (p.perMinute cfg) (p.burst cfg)) (hs : b.lastRefill ≤ s)
    {others : List (Check × Instant)} {later : Instant} (hordered : Ordered s others later)
    (hnone : NoSuccess p l others) : Waiting p b later (l.checks others) := by
  induction others generalizing l s with
  | nil =>
    have hsl : s ≤ later := (List.pairwise_cons.mp hordered).1 later List.mem_cons_self
    exact fun b' hb' => (h b' hb').mono hsl
  | cons c calls ih =>
    obtain ⟨hrefused, hrest⟩ := hnone
    have hst : s ≤ c.2 := (List.pairwise_cons.mp hordered).1 c.2 List.mem_cons_self
    refine ih ?_ (hl.check c.1 c.2) (hs.trans hst) (List.pairwise_cons.mp hordered).2 hrest
    apply h.check hl.inv hsized hs hst
    intro heq
    refine ⟨hrefused heq, ?_⟩
    -- a bucket that is not there would be a new one, and the call would have succeeded
    by_contra hgone
    rw [Option.isSome_iff_ne_none, not_not] at hgone
    have hok := hl.isOk_of_absent hgone c.2
    rw [← heq, hrefused heq] at hok
    cases hok

theorem Waiting.noSuccess (h : Waiting p b s l) (hl : l.OuterSized cfg)
    (hsized : b.Sized (p.perMinute cfg) (p.burst cfg)) (hs : b.lastRefill ≤ s)
    {others : List (Check × Instant)} {later : Instant} (hordered : Ordered s others later)
    (hresident : Resident p l others)
    (hrefused : ∀ t, t ≤ later → (b.tryConsume t).1.isOk = false) : NoSuccess p l others := by
  induction others generalizing l s with
  | nil => trivial
  | cons c calls ih =>
    obtain ⟨hthere, hrest⟩ := hresident
    have hst : s ≤ c.2 := (List.pairwise_cons.mp hordered).1 c.2 List.mem_cons_self
    have hordered' : Ordered c.2 calls later := (List.pairwise_cons.mp hordered).2
    have hlater : c.2 ≤ later :=
      (List.pairwise_cons.mp hordered').1 later (List.mem_append_right _ List.mem_cons_self)
    have hno : c.1 = p.check → (l.check c.1 c.2).1.isOk = false := by
      intro heq
      obtain ⟨b', hb'⟩ := Option.isSome_iff_exists.mp hthere
      rw [heq, isOk_check_outer, OuterTier.consulted, hb']
      exact ((h b' hb').isOk hsized hst).trans (hrefused c.2 hlater)
    refine ⟨hno, ih ?_ (hl.check c.1 c.2) (hs.trans hst) hordered' hrest⟩
    exact h.check hl.inv hsized hs hst fun heq => ⟨hno heq, hthere⟩

theorem Resident.isSome {others : List (Check × Instant)} (h : Resident p l others) :
    (p.stored (l.checks others)).isSome = true := by
  induction others generalizing l with
  | nil => exact h
  | cons c calls ih => exact ih h.2

end RateLimiter

open RateLimiter in
/-- Whenever the global or a per-address check is refused, it is for a second at
least; it succeeds once the advertised time has passed, if it did not before; and
while the bucket is not evicted, it is refused until a second before. -/
theorem retryAfter_sound_tight {features : Features} {D : Deps} {config : AppConfig}
    (hconfig : ConfigValidate.Accepted features D config) (start : Instant)
    (calls : List (Check × Instant)) (p : OuterTier) (now : Instant) (e : RateLimitedError) :
    let l := (RateLimiter.new config.rateLimit start).checks calls
    (l.check p.check now).1 = .error e →
    let l' := (l.check p.check now).2
    1 ≤ e.retryAfterSecs ∧
      ∀ others later, Ordered now others later →
        (now + e.retryAfterSecs * 1000000000 ≤ later → NoSuccess p l' others →
          ((l'.checks others).check p.check later).1.isOk = true) ∧
        (2 ≤ e.retryAfterSecs → later ≤ now + (e.retryAfterSecs - 1) * 1000000000 →
          Resident p l' others → ((l'.checks others).check p.check later).1.isOk = false) := by
  intro l hrefused l'
  have hl : l.OuterSized config.rateLimit := (new_outerSized _ start).checks calls
  have hsized := hl.consulted p now
  have hrate : 0 < p.perMinute config.rateLimit := by
    obtain ⟨hglobal, hip⟩ := ConfigValidate.validateConfig_rates hconfig
    cases p with
    | global => exact hglobal
    | ip a => exact hip
  have hbucket : ((p.consulted now l).tryConsume now).1 = .error e.retryAfterSecs := by
    rw [← fst_check_outer, hrefused]
    rfl
  have hl' : l'.OuterSized config.rateLimit := hl.check p.check now
  have hsized' := hsized.tryConsume now
  have hstored : p.stored l' = some ((p.consulted now l).tryConsume now).2 :=
    stored_check_self p now l
  have hwaiting : Waiting p ((p.consulted now l).tryConsume now).2 now l' := by
    intro b' hb'
    rw [hstored] at hb'
    exact Or.inl (Option.some.inj hb').symm
  have hlast : ((p.consulted now l).tryConsume now).2.lastRefill ≤ now :=
    (TokenBucket.lastRefill_tryConsume now _).le
  refine ⟨TokenBucket.one_le_retryAfter hbucket, fun others later hordered => ⟨?_, ?_⟩⟩
  · intro hlater hnone
    have hend := hwaiting.checks hl' hsized' hlast hordered hnone
    cases hb : p.stored (l'.checks others) with
    | none => exact (hl'.checks others).isOk_of_absent hb later
    | some b' =>
      rw [isOk_check_outer, OuterTier.consulted, hb]
      refine ((hend b' hb).isOk hsized' le_rfl).trans ?_
      exact TokenBucket.isOk_after_wait hsized hrate (OuterTier.burst_pos _ p) hbucket hlater
  · intro htwo hlater hresident
    have hearly : ∀ t, t ≤ later →
        (((p.consulted now l).tryConsume now).2.tryConsume t).1.isOk = false := fun t ht =>
      TokenBucket.refused_before_wait hsized hrate hbucket htwo (ht.trans hlater)
    have hnone := hwaiting.noSuccess hl' hsized' hlast hordered hresident hearly
    have hend := hwaiting.checks hl' hsized' hlast hordered hnone
    obtain ⟨b', hb'⟩ := Option.isSome_iff_exists.mp hresident.isSome
    rw [isOk_check_outer, OuterTier.consulted, hb']
    exact ((hend b' hb').isOk hsized' le_rfl).trans (hearly later le_rfl)

/-- One request a minute for each address. -/
def slowIpConfig : AppConfig :=
  let config := AppConfig.default "127.0.0.1:8080" "relay@example.com"
    [.default "svc" ⟨"0123456789abcdef0123456789abcdef"⟩]
  { config with rateLimit := { config.rateLimit with perIpPerMin := 1, perIpBurst := 1 } }

open RateLimiter in
/-- The second request has to wait for a minute, and for no less. -/
theorem retryAfter_slowIp :
    let p := OuterTier.ip .localhost
    let l := (RateLimiter.new slowIpConfig.rateLimit 0).checks [(p.check, 0)]
    (l.check p.check 0).1 = .error ⟨"ip", 60⟩ ∧
      ((l.check p.check 0).2.check p.check 60000000000).1.isOk = true ∧
      ((l.check p.check 0).2.check p.check 59000000000).1.isOk = false := by
  intro p l
  have hconfig : ConfigValidate.Accepted {} .plain slowIpConfig := by
    unfold ConfigValidate.Accepted
    decide
  have hrefused : (l.check p.check 0).1 = .error ⟨"ip", 60⟩ := by decide +kernel
  obtain ⟨-, hlater⟩ := retryAfter_sound_tight hconfig 0 [(p.check, 0)] p 0 ⟨"ip", 60⟩ hrefused
  have hthere : (p.stored (l.check p.check 0).2).isSome = true := by decide +kernel
  have hordered : ∀ later, Ordered 0 [] later := fun later =>
    List.pairwise_pair.mpr (Nat.zero_le later)
  refine ⟨hrefused, ?_, ?_⟩
  · exact (hlater [] 60000000000 (hordered _)).1 (by decide) trivial
  · exact (hlater [] 59000000000 (hordered _)).2 (by decide) (by decide) hthere

end HttpSmtpRele
